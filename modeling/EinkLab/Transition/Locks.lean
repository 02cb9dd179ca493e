import Mathlib.Data.List.Basic

/-!
# Locks that are given back

What a sequence of calls does to locks, and which are held after it.  A sequence is balanced when
every lock acquired is given back once and no other is; along a balanced sequence there are as many
acquisitions as releases (`Balanced.count_eq`).
-/

namespace EinkLab.Transition

inductive LockStep (κ : Type)
  | acquire (lock : κ)
  | release (lock : κ)
  deriving DecidableEq, Repr

namespace LockStep

variable {κ : Type} [DecidableEq κ] {held : List κ} {steps steps' : List (LockStep κ)}

/-- The locks held after the steps; `none` where one is released that is not held. -/
def heldAfter (held : List κ) : List (LockStep κ) → Option (List κ)
  | [] => some held
  | .acquire lock :: steps => heldAfter (lock :: held) steps
  | .release lock :: steps => if lock ∈ held then heldAfter (held.erase lock) steps else none

/-- Every lock is given back, and only what is held. -/
def Balanced (steps : List (LockStep κ)) : Prop := heldAfter [] steps = some []

instance (steps : List (LockStep κ)) : Decidable (Balanced steps) :=
  inferInstanceAs (Decidable (_ = _))

theorem balanced_nil : Balanced ([] : List (LockStep κ)) := rfl

/-- One lock, given back. -/
theorem balanced_pair (lock : κ) : Balanced [.acquire lock, .release lock] := by
  simp [Balanced, heldAfter]

def isAcquire : LockStep κ → Bool
  | .acquire _ => true
  | .release _ => false

def isRelease (step : LockStep κ) : Bool := !step.isAcquire

theorem count_of_heldAfter {held' : List κ} (h : heldAfter held steps = some held') :
    held.length + steps.countP isAcquire = held'.length + steps.countP isRelease := by
  induction steps generalizing held with
  | nil =>
    obtain rfl := Option.some.inj h
    rfl
  | cons step steps ih =>
    cases step with
    | acquire lock =>
      have hrest := ih h
      simp only [List.length_cons] at hrest
      simp only [List.countP_cons, isAcquire, isRelease, Bool.not_true, if_true,
        Bool.false_eq_true, if_false]
      omega
    | release lock =>
      simp only [heldAfter] at h
      split at h
      · next hmem =>
        have hrest := ih h
        have hlength := List.length_erase_of_mem hmem
        have hpos := List.length_pos_of_mem hmem
        simp only [List.countP_cons, isAcquire, isRelease, Bool.not_false, if_true,
          Bool.false_eq_true, if_false]
        omega
      · cases h

theorem Balanced.count_eq (h : Balanced steps) : steps.countP isAcquire =
    steps.countP isRelease := by
  have hcount := count_of_heldAfter h
  simpa using hcount

omit [DecidableEq κ] in
/-- A reading that sees more acquisitions counts the same releases, and more acquisitions where the
two readings differ. -/
theorem counts_filterMap {ε : Type} {f g : ε → Option (LockStep κ)}
    (hfg : ∀ e, g e = f e ∨ f e = none ∧ ∃ lock, g e = some (.acquire lock)) (l : List ε) :
    (l.filterMap g).countP isRelease = (l.filterMap f).countP isRelease ∧
      (l.filterMap f).countP isAcquire ≤ (l.filterMap g).countP isAcquire ∧
      ((∃ e ∈ l, g e ≠ f e) →
        (l.filterMap f).countP isAcquire < (l.filterMap g).countP isAcquire) := by
  induction l with
  | nil => simp
  | cons e l ih =>
    obtain ⟨hrelease, hle, hlt⟩ := ih
    rcases hfg e with heq | ⟨hnone, lock, hsome⟩
    · -- the head is read alike, so a difference lies in the tail
      have htail (h : ∃ e' ∈ e :: l, g e' ≠ f e') : ∃ e' ∈ l, g e' ≠ f e' := by
        obtain ⟨e', hmem, hne⟩ := h
        exact ⟨e', (List.mem_cons.mp hmem).resolve_left fun h => hne (h ▸ heq), hne⟩
      cases hstep : f e with
      | none =>
        rw [List.filterMap_cons_none (heq.trans hstep), List.filterMap_cons_none hstep]
        exact ⟨hrelease, hle, fun h => hlt (htail h)⟩
      | some step =>
        rw [List.filterMap_cons_some (heq.trans hstep), List.filterMap_cons_some hstep]
        simp only [List.countP_cons]
        refine ⟨by omega, by omega, fun h => ?_⟩
        have := hlt (htail h)
        omega
    · rw [List.filterMap_cons_some hsome, List.filterMap_cons_none hnone]
      simp only [List.countP_cons, isAcquire, isRelease, Bool.not_true, if_true,
        Bool.false_eq_true, if_false]
      exact ⟨hrelease, by omega, fun _ => by omega⟩

/-- Where more acquisitions are counted, the balance holds only if there is none of them. -/
theorem balanced_filterMap_iff {ε : Type} {f g : ε → Option (LockStep κ)} {l : List ε}
    (hfg : ∀ e, g e = f e ∨ f e = none ∧ ∃ lock, g e = some (.acquire lock))
    (hf : Balanced (l.filterMap f)) : Balanced (l.filterMap g) ↔ ∀ e ∈ l, g e = f e := by
  obtain ⟨hrelease, -, hmore⟩ := counts_filterMap hfg l
  constructor
  · intro hg e he
    by_contra hne
    have hlt := hmore ⟨e, he, hne⟩
    have hbalanced := hf.count_eq
    have hbalanced' := hg.count_eq
    omega
  · intro hall
    rwa [List.filterMap_congr hall]

end LockStep

end EinkLab.Transition
