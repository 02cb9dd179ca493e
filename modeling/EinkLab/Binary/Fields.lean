import EinkLab.Text.Utf8
import Mathlib.Data.List.Basic
import Mathlib.Tactic.Ring

/-!
# Fields of fixed width

Little-endian numbers (`leBytes`, `leNat`) and records of them: `pack` writes `(width, value)`
pairs one after the other and fails where a value does not fit, `unpack` reads the values back and
leaves the rest (`unpack_pack`).
-/

namespace EinkLab.Binary

open EinkLab.Text

/-- The `width` low bytes, the lowest first. -/
def leBytes : Nat → Nat → Bytes
  | 0, _ => []
  | width + 1, n => UInt8.ofNat (n % 256) :: leBytes width (n / 256)

def leNat : Bytes → Nat
  | [] => 0
  | b :: bs => b.toNat + 256 * leNat bs

@[simp] theorem length_leBytes (width n : Nat) : (leBytes width n).length = width := by
  induction width generalizing n with
  | zero => rfl
  | succ width ih => rw [leBytes, List.length_cons, ih]

theorem leNat_leBytes {width n : Nat} (hn : n < 256 ^ width) : leNat (leBytes width n) = n := by
  induction width generalizing n with
  | zero =>
    have hzero : n = 0 := by omega
    rw [hzero]
    rfl
  | succ width ih =>
    have hdiv : n / 256 < 256 ^ width := by
      apply Nat.div_lt_of_lt_mul
      rwa [Nat.pow_succ, Nat.mul_comm] at hn
    have hlow : (UInt8.ofNat (n % 256)).toNat = n % 256 := by
      rw [UInt8.toNat_ofNat']
      omega
    rw [leBytes, leNat, ih hdiv, hlow]
    omega

/-- Writes the values in their widths. -/
def pack : List (Nat × Nat) → Option Bytes
  | [] => some []
  | (width, n) :: fields =>
    if n < 256 ^ width then (pack fields).map (leBytes width n ++ ·) else none

/-- Reads a value of each width, and what follows. -/
def unpack : List Nat → Bytes → Option (List Nat × Bytes)
  | [], bs => some ([], bs)
  | width :: widths, bs =>
    if width ≤ bs.length then
      (unpack widths (bs.drop width)).map fun r => (leNat (bs.take width) :: r.1, r.2)
    else none

theorem pack_of_lt {fields : List (Nat × Nat)} (hfit : ∀ f ∈ fields, f.2 < 256 ^ f.1) :
    ∃ bs, pack fields = some bs ∧ bs.length = (fields.map Prod.fst).sum := by
  induction fields with
  | nil => exact ⟨[], rfl, rfl⟩
  | cons f fields ih =>
    obtain ⟨bs, hbs, hlen⟩ := ih fun g hg => hfit g (List.mem_cons_of_mem _ hg)
    refine ⟨leBytes f.1 f.2 ++ bs, ?_, ?_⟩
    · rw [pack, if_pos (hfit f List.mem_cons_self), hbs]
      rfl
    · rw [List.length_append, length_leBytes, hlen]
      rfl

theorem unpack_pack {fields : List (Nat × Nat)} {bs : Bytes} (hpack : pack fields = some bs)
    (rest : Bytes) :
    unpack (fields.map Prod.fst) (bs ++ rest) = some (fields.map Prod.snd, rest) := by
  induction fields generalizing bs with
  | nil =>
    obtain rfl := Option.some.inj hpack
    rfl
  | cons f fields ih =>
    rw [pack] at hpack
    split at hpack
    · next hlt =>
      obtain ⟨tail, htail, rfl⟩ := Option.map_eq_some_iff.mp hpack
      have hlen := length_leBytes f.1 f.2
      have hle : f.1 ≤ (leBytes f.1 f.2 ++ tail ++ rest).length := by
        rw [List.length_append, List.length_append]
        omega
      rw [List.map_cons, List.map_cons, unpack, if_pos hle, List.append_assoc,
        List.drop_left' hlen, List.take_left' hlen, ih htail, leNat_leBytes hlt]
      rfl
    · cases hpack

end EinkLab.Binary
