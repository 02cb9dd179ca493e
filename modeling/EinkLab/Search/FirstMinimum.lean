import Mathlib.Data.List.FinRange
import Mathlib.Order.Lattice

/-!
# The first minimum of a scan

`firstMinimumFrom f best is` walks along `is` and changes its mind only for a strictly smaller value
of `f`.  Over an increasing list it therefore ends at the first place where `f` is smallest, and at
no other (`firstMinimumFrom_eq_iff`).
-/

namespace EinkLab.Search

variable {ι δ : Type*} [LinearOrder δ] (f : ι → δ)

def firstMinimumFrom : ι → List ι → ι
  | best, [] => best
  | best, i :: is => if f i < f best then firstMinimumFrom i is else firstMinimumFrom best is

theorem firstMinimumFrom_mem (best : ι) (is : List ι) :
    firstMinimumFrom f best is ∈ best :: is := by
  induction is generalizing best with
  | nil => exact List.mem_singleton_self best
  | cons i is ih =>
    unfold firstMinimumFrom
    split
    · exact List.mem_cons_of_mem _ (ih i)
    · rcases List.mem_cons.mp (ih best) with h | h
      · rw [h]
        exact List.mem_cons_self
      · exact List.mem_cons_of_mem _ (List.mem_cons_of_mem _ h)

theorem firstMinimumFrom_le (best : ι) (is : List ι) :
    ∀ i ∈ best :: is, f (firstMinimumFrom f best is) ≤ f i := by
  induction is generalizing best with
  | nil =>
    intro i hi
    rw [List.mem_singleton.mp hi]
    exact le_refl _
  | cons j is ih =>
    intro i hi
    unfold firstMinimumFrom
    split
    · next hlt =>
      rcases List.mem_cons.mp hi with rfl | hi
      · exact (ih j j List.mem_cons_self).trans (le_of_lt hlt)
      · exact ih j i hi
    · next hge =>
      rcases List.mem_cons.mp hi with rfl | hi
      · exact ih i i List.mem_cons_self
      · rcases List.mem_cons.mp hi with rfl | hi
        · exact (ih best best List.mem_cons_self).trans (not_lt.mp hge)
        · exact ih best i (List.mem_cons_of_mem _ hi)

/-- An element that was passed over, and stands before the one that was kept, has a larger value. -/
theorem lt_of_before_firstMinimumFrom [LinearOrder ι] {best : ι} {is : List ι}
    (hsorted : (best :: is).Pairwise (· < ·)) :
    ∀ i ∈ best :: is, i < firstMinimumFrom f best is → f (firstMinimumFrom f best is) < f i := by
  induction is generalizing best with
  | nil =>
    intro i hi hlt
    rw [List.mem_singleton.mp hi] at hlt
    exact absurd hlt (lt_irrefl _)
  | cons j is ih =>
    obtain ⟨hbest, hrest⟩ := List.pairwise_cons.mp hsorted
    intro i hi hbefore
    unfold firstMinimumFrom at hbefore ⊢
    split at hbefore
    · next hlt =>
      rw [if_pos hlt]
      rcases List.mem_cons.mp hi with rfl | hi
      · exact lt_of_le_of_lt (firstMinimumFrom_le f j is j List.mem_cons_self) hlt
      · exact ih hrest i hi hbefore
    · next hge =>
      rw [if_neg hge]
      have hsorted' : (best :: is).Pairwise (· < ·) :=
        List.pairwise_cons.mpr ⟨fun k hk => hbest k (List.mem_cons_of_mem _ hk),
          (List.pairwise_cons.mp hrest).2⟩
      rcases List.mem_cons.mp hi with rfl | hi
      · exact ih hsorted' i List.mem_cons_self hbefore
      · rcases List.mem_cons.mp hi with rfl | hi
        · -- the kept element stands after `i`, so it is not `best`, which is smaller than `f i`
          have hkept := ih hsorted' best List.mem_cons_self
            (lt_trans (hbest i List.mem_cons_self) hbefore)
          exact lt_of_lt_of_le hkept (not_lt.mp hge)
        · exact ih hsorted' i (List.mem_cons_of_mem _ hi) hbefore

/-- The scan ends at the head exactly when nothing after it is smaller. -/
theorem firstMinimumFrom_eq_head_iff [LinearOrder ι] {best : ι} {is : List ι}
    (hsorted : (best :: is).Pairwise (· < ·)) :
    firstMinimumFrom f best is = best ↔ ∀ i ∈ is, f best ≤ f i := by
  constructor
  · intro h i hi
    have hle := firstMinimumFrom_le f best is i (List.mem_cons_of_mem _ hi)
    rwa [h] at hle
  · intro h
    rcases List.mem_cons.mp (firstMinimumFrom_mem f best is) with hhead | hlater
    · exact hhead
    · have hbefore := (List.pairwise_cons.mp hsorted).1 _ hlater
      have hlt := lt_of_before_firstMinimumFrom f hsorted best List.mem_cons_self hbefore
      exact absurd (h _ hlater) (not_le.mpr hlt)

end EinkLab.Search
