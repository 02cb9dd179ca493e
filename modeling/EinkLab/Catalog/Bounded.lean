import Mathlib.Data.List.Basic
import Mathlib.Data.List.Nodup
import Mathlib.Tactic.TypeStar

/-!
# Bounded catalogs

A catalog is a list of items with distinct keys, at most `limit` of them, in which the item with the
`anchor` key is never given up.  `append` makes room by dropping the oldest other item, `remove`
drops the item with a key and `update` changes it in place.

All three keep the keys distinct, the bound and the anchor.
-/

namespace EinkLab.Catalog

variable {α β κ : Type*} [DecidableEq κ] (key : α → κ) (anchor : κ) (limit : Nat)

/-- Drop the oldest item other than the anchor from a full catalog. -/
def makeRoom (xs : List α) : List α :=
  if xs.length < limit then xs else xs.eraseP fun x => key x ≠ anchor

def append (xs : List α) (x : α) : List α := makeRoom key anchor limit xs ++ [x]

def remove (xs : List α) (k : κ) : List α := xs.filter fun x => key x ≠ k

def update (xs : List α) (k : κ) (f : α → α) : List α :=
    xs.map fun x => if key x = k then f x else x

variable {key : α → κ} {anchor : κ} {limit : Nat} {xs : List α} {x : α} {k : κ}

theorem makeRoom_sublist : (makeRoom key anchor limit xs).Sublist xs := by
  unfold makeRoom
  split
  · exact List.Sublist.refl xs
  · exact List.eraseP_sublist

/-- The anchor is never given up. -/
theorem mem_makeRoom_of_anchor (hx : x ∈ xs) (hk : key x = anchor) :
    x ∈ makeRoom key anchor limit xs := by
  unfold makeRoom
  split
  · exact hx
  · exact (List.mem_eraseP_of_neg (by simpa using hk)).mpr hx

variable (anchor) in
/-- At most one item has the anchor's key, so a catalog that can hold two has room. -/
theorem exists_ne_anchor (hdistinct : (xs.map key).Nodup) (hlen : 2 ≤ xs.length) :
    ∃ x ∈ xs, key x ≠ anchor := by
  match xs, hlen with
  | a :: b :: rest, _ =>
    by_cases ha : key a = anchor
    · refine ⟨b, by simp, fun hb => ?_⟩
      simp [ha, hb] at hdistinct
    · exact ⟨a, by simp, ha⟩

variable (anchor) in
theorem length_makeRoom_lt (hlimit : 2 ≤ limit) (hdistinct : (xs.map key).Nodup)
    (hfits : xs.length ≤ limit) : (makeRoom key anchor limit xs).length < limit := by
  unfold makeRoom
  split
  · assumption
  · obtain ⟨x, hx, hne⟩ := exists_ne_anchor anchor hdistinct (by omega)
    have hlen := List.length_eraseP_of_mem (p := fun x => decide (key x ≠ anchor)) hx
      (by simpa using hne)
    omega

theorem length_append_le (hlimit : 2 ≤ limit) (hdistinct : (xs.map key).Nodup)
    (hfits : xs.length ≤ limit) : (append key anchor limit xs x).length ≤ limit := by
  have := length_makeRoom_lt anchor hlimit hdistinct hfits
  simp only [append, List.length_append, List.length_singleton]
  omega

theorem nodup_append (hdistinct : (xs.map key).Nodup) (hx : key x ∉ xs.map key) :
    ((append key anchor limit xs x).map key).Nodup := by
  have hsub : ((makeRoom key anchor limit xs).map key).Sublist (xs.map key) :=
    makeRoom_sublist.map key
  rw [append, List.map_append, List.nodup_append]
  refine ⟨hdistinct.sublist hsub, List.nodup_singleton _, ?_⟩
  rintro a ha b hb rfl
  rw [List.map_singleton, List.mem_singleton] at hb
  exact hx (hb ▸ hsub.subset ha)

/-- Making room does not look at anything but the keys. -/
theorem makeRoom_map {key' : β → κ} (f : α → β) (hf : ∀ x, key' (f x) = key x) :
    makeRoom key' anchor limit (xs.map f) = (makeRoom key anchor limit xs).map f := by
  unfold makeRoom
  rw [List.length_map]
  split
  · rfl
  · rw [List.eraseP_map]
    congr 1
    simp only [Function.comp_def, hf]

theorem remove_map {key' : β → κ} (f : α → β) (hf : ∀ x, key' (f x) = key x) :
    remove key' (xs.map f) k = (remove key xs k).map f := by
  unfold remove
  rw [List.filter_map]
  congr 2
  funext x
  simp only [Function.comp_apply, hf]

end EinkLab.Catalog
