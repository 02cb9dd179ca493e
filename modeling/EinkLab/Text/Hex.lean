import EinkLab.Text.Utf8
import Mathlib.Data.Nat.Log
import Mathlib.Tactic.IntervalCases

/-!
# Hexadecimal numbers

`hexText` writes a number in lower-case digits with leading zeros up to a width (`%08x`), `hexNat`
reads digits of either case back.
-/

namespace EinkLab.Text

/-- The code of a lower-case digit. -/
def hexDigit (n : Nat) : UInt8 :=
  if n < 10 then UInt8.ofNat (0x30 + n) else UInt8.ofNat (0x57 + n)

def hexValue (b : UInt8) : Option Nat :=
  if 0x30 ≤ b ∧ b ≤ 0x39 then some (b.toNat - 0x30)
  else if 0x41 ≤ b ∧ b ≤ 0x46 then some (b.toNat - 0x37)
  else if 0x61 ≤ b ∧ b ≤ 0x66 then some (b.toNat - 0x57)
  else none

/-- The `width` lowest digits, the highest first. -/
def hexDigits : Nat → Nat → Bytes
  | 0, _ => []
  | width + 1, n => hexDigits width (n / 16) ++ [hexDigit (n % 16)]

/-- `%0<width>x` -/
def hexText (width n : Nat) : Bytes :=
  hexDigits (max width (Nat.log 16 n + 1)) n

/-- Reads digits from the highest on. -/
def hexNatFrom : Nat → Bytes → Option Nat
  | n, [] => some n
  | n, b :: bs => (hexValue b).bind fun v => hexNatFrom (16 * n + v) bs

def hexNat (bs : Bytes) : Option Nat := hexNatFrom 0 bs

theorem hexValue_hexDigit {n : Nat} (hn : n < 16) : hexValue (hexDigit n) = some n := by
  interval_cases n <;> rfl

@[simp] theorem length_hexDigits (width n : Nat) : (hexDigits width n).length = width := by
  induction width generalizing n with
  | zero => rfl
  | succ width ih => rw [hexDigits, List.length_append, ih, List.length_singleton]

theorem hexNatFrom_append (n : Nat) (bs cs : Bytes) :
    hexNatFrom n (bs ++ cs) = (hexNatFrom n bs).bind fun m => hexNatFrom m cs := by
  induction bs generalizing n with
  | nil => rfl
  | cons b bs ih =>
    rw [List.cons_append, hexNatFrom, hexNatFrom]
    cases hexValue b with
    | none => rfl
    | some v => exact ih (16 * n + v)

theorem hexNat_hexDigits {width n : Nat} (hn : n < 16 ^ width) :
    hexNat (hexDigits width n) = some n := by
  induction width generalizing n with
  | zero =>
    have hzero : n = 0 := by omega
    rw [hzero]
    rfl
  | succ width ih =>
    have hdiv : n / 16 < 16 ^ width := by
      apply Nat.div_lt_of_lt_mul
      rwa [Nat.pow_succ, Nat.mul_comm] at hn
    have htail := ih hdiv
    have hmod : n % 16 < 16 := Nat.mod_lt _ (by omega)
    unfold hexNat at htail ⊢
    rw [hexDigits, hexNatFrom_append, htail, Option.bind_some, hexNatFrom,
      hexValue_hexDigit hmod, Option.bind_some, hexNatFrom, Nat.div_add_mod]

theorem lt_pow_width (width n : Nat) : n < 16 ^ max width (Nat.log 16 n + 1) :=
  lt_of_lt_of_le (Nat.lt_pow_succ_log_self (by omega) n)
    (Nat.pow_le_pow_right (by omega) (Nat.le_max_right _ _))

/-- Every number is read back. -/
theorem hexNat_hexText (width n : Nat) : hexNat (hexText width n) = some n :=
  hexNat_hexDigits (lt_pow_width width n)

/-- A number that fits the width fills exactly that. -/
theorem hexText_of_lt {width n : Nat} (hw : 0 < width) (hn : n < 16 ^ width) :
    hexText width n = hexDigits width n := by
  have hlog : Nat.log 16 n + 1 ≤ width := by
    rcases Nat.eq_zero_or_pos n with rfl | hpos
    · rw [Nat.log_zero_right]
      exact hw
    · have := Nat.log_lt_of_lt_pow (by omega) hn
      omega
  rw [hexText, Nat.max_eq_left hlog]

end EinkLab.Text
