import EinkLab.Text.Utf8
import Mathlib.Tactic.SplitIfs

/-!
# Slices

`slice` reads a part of a text of bytes (`bs[start:start + size]`), `splice` overwrites one.  What
is read where nothing was overwritten is unchanged (`slice_splice_of_disjoint`).
-/

namespace EinkLab.Binary

open EinkLab.Text

/-- `bs[start:start + size]` -/
def slice (bs : Bytes) (start size : Nat) : Bytes := (bs.drop start).take size

/-- Overwrites the bytes from `offset` on. -/
def splice (p : Bytes) (offset : Nat) (bs : Bytes) : Bytes :=
  p.take offset ++ (bs ++ p.drop (offset + bs.length))

/-! ### Slices -/

theorem length_slice {bs : Bytes} {start size : Nat} (hfit : start + size ≤ bs.length) :
    (slice bs start size).length = size := by
  rw [slice, List.length_take, List.length_drop]
  omega

theorem getElem?_slice (bs : Bytes) (start size i : Nat) :
    (slice bs start size)[i]? = if i < size then bs[start + i]? else none := by
  rw [slice, List.getElem?_take, List.getElem?_drop]

/-- Two slices of one size agree when their bytes do. -/
theorem slice_eq_iff {bs cs : Bytes} {start start' size : Nat} :
    slice bs start size = slice cs start' size ↔
      ∀ i < size, bs[start + i]? = cs[start' + i]? := by
  constructor
  · intro h i hi
    have hget := congrArg (·[i]?) h
    simpa only [getElem?_slice, if_pos hi] using hget
  · intro h
    apply List.ext_getElem?
    intro i
    rw [getElem?_slice, getElem?_slice]
    split_ifs with hi
    · exact h i hi
    · rfl

theorem slice_append_right (pre bs : Bytes) (start size : Nat) :
    slice (pre ++ bs) (pre.length + start) size = slice bs start size := by
  rw [slice, slice, ← List.drop_drop, List.drop_left]

theorem slice_append_left {bs rest : Bytes} {start size : Nat} (hfit : start + size ≤ bs.length) :
    slice (bs ++ rest) start size = slice bs start size := by
  rw [slice_eq_iff]
  intro i hi
  exact List.getElem?_append_left (by omega)

theorem slice_left {bs rest : Bytes} {size : Nat} (h : bs.length = size) :
    slice (bs ++ rest) 0 size = bs := by
  rw [slice, List.drop_zero, List.take_left' h]

theorem slice_mid {pre bs rest : Bytes} {start size : Nat} (hpre : pre.length = start)
    (hbs : bs.length = size) : slice (pre ++ (bs ++ rest)) start size = bs := by
  rw [slice, List.drop_left' hpre, List.take_left' hbs]

/-! ### Overwriting -/

section Splice

variable {p bs cs : Bytes} {offset : Nat}

theorem length_splice (hfit : offset + bs.length ≤ p.length) :
    (splice p offset bs).length = p.length := by
  rw [splice, List.length_append, List.length_append, List.length_take, List.length_drop]
  omega

theorem splice_nil (p : Bytes) (offset : Nat) : splice p offset [] = p := by
  rw [splice, List.length_nil, Nat.add_zero, List.nil_append, List.take_append_drop]

/-- Overwriting with two pieces, one after the other. -/
theorem splice_splice (hfit : offset + bs.length ≤ p.length) :
    splice (splice p offset bs) (offset + bs.length) cs = splice p offset (bs ++ cs) := by
  have htake : (p.take offset ++ bs).length = offset + bs.length := by
    rw [List.length_append, List.length_take]
    omega
  have hwrite : splice p offset bs = (p.take offset ++ bs) ++ p.drop (offset + bs.length) := by
    rw [splice, List.append_assoc]
  have hdrop : (splice p offset bs).drop (offset + bs.length + cs.length) =
      p.drop (offset + (bs ++ cs).length) := by
    rw [hwrite, ← htake, List.drop_append, Nat.add_sub_cancel_left,
      List.drop_of_length_le (Nat.le_add_right _ _), List.nil_append, List.drop_drop, htake,
      List.length_append, Nat.add_assoc]
  rw [splice, hdrop, hwrite, List.take_left' htake, splice, List.append_assoc, List.append_assoc]

/-- The bytes outside are left. -/
theorem getElem?_splice {i : Nat} (hfit : offset + bs.length ≤ p.length)
    (hout : i < offset ∨ offset + bs.length ≤ i) : (splice p offset bs)[i]? = p[i]? := by
  have hlen : (p.take offset).length = offset := by
    rw [List.length_take]
    omega
  rw [splice]
  rcases hout with hlt | hge
  · rw [List.getElem?_append_left (by omega), List.getElem?_take_of_lt hlt]
  · rw [List.getElem?_append_right (by omega), List.getElem?_append_right (by omega),
      List.getElem?_drop]
    congr 1
    omega

/-- The bytes inside are the new ones. -/
theorem getElem?_splice_inside {i : Nat} (hfit : offset + bs.length ≤ p.length)
    (hi : i < bs.length) : (splice p offset bs)[offset + i]? = bs[i]? := by
  have hlen : (p.take offset).length = offset := by
    rw [List.length_take]
    omega
  rw [splice, List.getElem?_append_right (by omega), hlen, Nat.add_sub_cancel_left,
    List.getElem?_append_left hi]

theorem slice_splice_of_disjoint {start size : Nat} (hfit : offset + bs.length ≤ p.length)
    (hout : start + size ≤ offset ∨ offset + bs.length ≤ start) :
    slice (splice p offset bs) start size = slice p start size := by
  rw [slice_eq_iff]
  intro i hi
  exact getElem?_splice hfit (by omega)

theorem slice_splice_inside {size : Nat} (hfit : offset + bs.length ≤ p.length)
    (hsize : size ≤ bs.length) : slice (splice p offset bs) offset size = slice bs 0 size := by
  rw [slice_eq_iff]
  intro i hi
  rw [getElem?_splice_inside hfit (by omega), Nat.zero_add]

/-- What was written is read back. -/
theorem slice_splice_self (hfit : offset + bs.length ≤ p.length) :
    slice (splice p offset bs) offset bs.length = bs := by
  rw [slice_splice_inside hfit (Nat.le_refl _), slice, List.drop_zero, List.take_length]

end Splice

end EinkLab.Binary
