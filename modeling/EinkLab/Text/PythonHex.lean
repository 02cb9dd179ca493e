import EinkLab.Text.Hex
import Mathlib.Data.List.TakeWhile

/-!
# Hexadecimal numbers of Python

`int16` is `int(text, 16)` of a text of bytes: white space around the number, a sign, `0x`, and
single underscores between the digits.  Plain digits are read as everywhere else
(`int16_of_hexNat`).
-/

namespace EinkLab.Text

/-- `Py_ISSPACE` -/
def isPySpace (b : UInt8) : Bool := b == 0x20 || (0x09 ≤ b && b ≤ 0x0d)

/-- The sign of a number and what stands after it. -/
def pySigned : Bytes → Int × Bytes
  | 0x2d :: text => (-1, text)
  | 0x2b :: text => (1, text)
  | text => (1, text)

/-- What stands after `0x`, and one underscore that may follow it. -/
def pyPrefix : Bytes → Bytes
  | 0x30 :: x :: text =>
    if x = 0x78 ∨ x = 0x58 then
      match text with
      | 0x5f :: text => text
      | text => text
    else 0x30 :: x :: text
  | text => text

def isHexPlace (b : UInt8) : Bool := (hexValue b).isSome || b == 0x5f

/-- No two underscores follow each other, and none ends the text. -/
def separated : Bytes → Bool
  | [] => true
  | [b] => b != 0x5f
  | b :: c :: text => !(b == 0x5f && c == 0x5f) && separated (c :: text)

/-- `int(text, 16)`; `none` where it raises. -/
def int16 (text : Bytes) : Option Int :=
  let (sign, text) := pySigned (text.dropWhile isPySpace)
  let text := pyPrefix text
  let places := text.takeWhile isHexPlace
  let rest := text.dropWhile isHexPlace
  if places = [] ∨ places.head? = some 0x5f ∨ separated places = false then none
  else if rest.dropWhile isPySpace ≠ [] then none
  else (hexNat (places.filter (· ≠ 0x5f))).map fun n => sign * n

theorem hexValue_of_hexNatFrom {n m : Nat} {bs : Bytes} (h : hexNatFrom n bs = some m) :
    ∀ b ∈ bs, (hexValue b).isSome = true := by
  induction bs generalizing n with
  | nil => exact fun b hb => absurd hb List.not_mem_nil
  | cons b bs ih =>
    obtain ⟨v, hv, hrest⟩ := Option.bind_eq_some_iff.mp h
    rw [List.forall_mem_cons, hv]
    exact ⟨rfl, ih hrest⟩

section Digits

variable {b : UInt8} {bs : Bytes}

/-- A digit is none of the other bytes of a number. -/
theorem ne_of_hexValue (h : (hexValue b).isSome = true) :
    isPySpace b = false ∧ b ≠ 0x2d ∧ b ≠ 0x2b ∧ b ≠ 0x78 ∧ b ≠ 0x58 ∧ b ≠ 0x5f := by
  have hrange : (0x30 ≤ b.toNat ∧ b.toNat ≤ 0x39) ∨ (0x41 ≤ b.toNat ∧ b.toNat ≤ 0x46) ∨
      (0x61 ≤ b.toNat ∧ b.toNat ≤ 0x66) := by
    unfold hexValue at h
    split at h
    · next hb => exact Or.inl hb
    · split at h
      · next hb => exact Or.inr (Or.inl hb)
      · split at h
        · next hb => exact Or.inr (Or.inr hb)
        · exact absurd h (by simp)
  have hspace : isPySpace b = false := by
    simp only [isPySpace, Bool.or_eq_false_iff, Bool.and_eq_false_iff, beq_eq_false_iff_ne,
      decide_eq_false_iff_not, UInt8.le_iff_toNat_le, ← UInt8.toNat_inj, ne_eq, UInt8.reduceToNat]
    omega
  refine ⟨hspace, ?_, ?_, ?_, ?_, ?_⟩ <;> rintro rfl <;> simp at hrange

theorem separated_of_notMem (h : (0x5f : UInt8) ∉ bs) : separated bs = true := by
  induction bs with
  | nil => rfl
  | cons b bs ih =>
    rw [List.mem_cons, not_or] at h
    have hb : (b == 0x5f) = false := beq_eq_false_iff_ne.mpr (Ne.symm h.1)
    cases bs with
    | nil => simp [separated, bne, hb]
    | cons c bs => simp [separated, hb, ih h.2]

theorem pyPrefix_eq_self (h : ∀ b ∈ bs, (hexValue b).isSome = true) : pyPrefix bs = bs := by
  unfold pyPrefix
  split
  · next x text =>
    have hx := ne_of_hexValue (h x (by simp))
    rw [if_neg (by simp [hx])]
  · rfl

theorem pySigned_eq (h : ∀ b ∈ bs, (hexValue b).isSome = true) : pySigned bs = (1, bs) := by
  unfold pySigned
  split
  · next text => exact absurd rfl (ne_of_hexValue (h 0x2d (by simp))).2.1
  · next text => exact absurd rfl (ne_of_hexValue (h 0x2b (by simp))).2.2.1
  · rfl

/-- Plain digits are read as they stand. -/
theorem int16_of_hexNat {n : Nat} (hne : bs ≠ []) (h : hexNat bs = some n) :
    int16 bs = some (n : Int) := by
  have hdigits := hexValue_of_hexNatFrom h
  have hunderscore : (0x5f : UInt8) ∉ bs := fun hmem =>
    (ne_of_hexValue (hdigits _ hmem)).2.2.2.2.2 rfl
  have hspace : bs.dropWhile isPySpace = bs := by
    cases bs with
    | nil => rfl
    | cons b bs => simp [(ne_of_hexValue (hdigits b (by simp))).1]
  have hplace : ∀ b ∈ bs, isHexPlace b = true := fun b hb => by simp [isHexPlace, hdigits b hb]
  have htake : bs.takeWhile isHexPlace = bs := List.takeWhile_eq_self_iff.mpr hplace
  have hdrop : bs.dropWhile isHexPlace = [] := List.dropWhile_eq_nil_iff.mpr hplace
  have hhead : bs.head? ≠ some 0x5f := fun hhead => hunderscore (List.mem_of_mem_head? hhead)
  have hfilter : bs.filter (· ≠ 0x5f) = bs := by
    refine List.filter_eq_self.mpr fun b hb => ?_
    simpa using (ne_of_hexValue (hdigits b hb)).2.2.2.2.2
  unfold int16
  simp only [hspace, pySigned_eq hdigits, pyPrefix_eq_self hdigits, htake, hdrop, hfilter, h,
    separated_of_notMem hunderscore]
  simp [hne, hhead]

end Digits

end EinkLab.Text
