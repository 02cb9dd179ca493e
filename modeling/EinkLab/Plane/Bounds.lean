import Mathlib.Data.List.Basic
import Mathlib.Data.List.Induction

/-!
# Bounding boxes

A `Box` is a half-open rectangle.  It is tight around a list of places when it contains them and
each of its edges is touched; a tight box is the least one that contains them (`Tight.least`).
Taking minima and maxima place by place gives it (`tight_foldl`), from any start that the first
place replaces.
-/

namespace EinkLab.RowMajor

structure Box where
  left : Int
  top : Int
  right : Int
  bottom : Int
  deriving DecidableEq, Repr

namespace Box

variable {b b' : Box} {places : List (Nat × Nat)} {p : Nat × Nat}

/-- The place lies in the box. -/
def Contains (b : Box) (p : Nat × Nat) : Prop :=
  b.left ≤ p.1 ∧ p.1 < b.right ∧ b.top ≤ p.2 ∧ p.2 < b.bottom

instance (b : Box) (p : Nat × Nat) : Decidable (b.Contains p) := inferInstanceAs (Decidable (_ ∧ _))

/-- The box, stretched to a place. -/
def cover (b : Box) (p : Nat × Nat) : Box where
  left := min b.left p.1
  top := min b.top p.2
  right := max b.right (p.1 + 1)
  bottom := max b.bottom (p.2 + 1)

/-- The box contains the places, and each of its edges is touched by one. -/
structure Tight (b : Box) (places : List (Nat × Nat)) : Prop where
  contains : ∀ p ∈ places, b.Contains p
  left : ∃ p ∈ places, (p.1 : Int) = b.left
  top : ∃ p ∈ places, (p.2 : Int) = b.top
  right : ∃ p ∈ places, (p.1 : Int) + 1 = b.right
  bottom : ∃ p ∈ places, (p.2 : Int) + 1 = b.bottom

/-- No smaller box contains the places. -/
theorem Tight.least (h : Tight b places) (hall : ∀ p ∈ places, b'.Contains p) :
    b'.left ≤ b.left ∧ b'.top ≤ b.top ∧ b.right ≤ b'.right ∧ b.bottom ≤ b'.bottom := by
  obtain ⟨pl, hl, hleft⟩ := h.left
  obtain ⟨pt, ht, htop⟩ := h.top
  obtain ⟨pr, hr, hright⟩ := h.right
  obtain ⟨pb, hb, hbottom⟩ := h.bottom
  have hl := (hall pl hl).1
  have ht := (hall pt ht).2.2.1
  have hr := (hall pr hr).2.1
  have hb := (hall pb hb).2.2.2
  omega

theorem Tight.unique (h : Tight b places) (h' : Tight b' places) : b = b' := by
  have hle := h.least h'.contains
  have hge := h'.least h.contains
  cases b
  cases b'
  simp only [mk.injEq]
  dsimp only at hle hge
  omega

/-- A box that a first place replaces. -/
def Blank (b : Box) (p : Nat × Nat) : Prop :=
  (p.1 : Int) ≤ b.left ∧ (p.2 : Int) ≤ b.top ∧ b.right ≤ p.1 + 1 ∧ b.bottom ≤ p.2 + 1

theorem tight_cover_blank (h : b.Blank p) : Tight (b.cover p) [p] := by
  obtain ⟨hleft, htop, hright, hbottom⟩ := h
  have hcover : b.cover p = ⟨p.1, p.2, p.1 + 1, p.2 + 1⟩ := by
    rw [cover, Int.min_eq_right hleft, Int.min_eq_right htop, Int.max_eq_right hright,
      Int.max_eq_right hbottom]
  rw [hcover]
  refine ⟨fun q hq => ?_, ⟨p, by simp, rfl⟩, ⟨p, by simp, rfl⟩, ⟨p, by simp, rfl⟩,
    ⟨p, by simp, rfl⟩⟩
  rw [List.mem_singleton.mp hq]
  simp only [Contains]
  omega

/-- One edge, when a place is added: it stays, or the place touches it. -/
theorem edge_append {f : Nat × Nat → Int} {edge edge' : Int} (p : Nat × Nat)
    (h : ∃ q ∈ places, f q = edge) (hedge : edge' = edge ∨ edge' = f p) :
    ∃ q ∈ places ++ [p], f q = edge' := by
  rcases hedge with rfl | rfl
  · obtain ⟨q, hq, heq⟩ := h
    exact ⟨q, List.mem_append_left _ hq, heq⟩
  · exact ⟨p, by simp, rfl⟩

theorem Tight.cover (h : Tight b places) (p : Nat × Nat) : Tight (b.cover p) (places ++ [p]) := by
  refine ⟨fun q hq => ?_, edge_append p h.left ?_, edge_append p h.top ?_, edge_append p h.right ?_,
    edge_append p h.bottom ?_⟩
  · rcases List.mem_append.mp hq with hq | hq
    · have hold := h.contains q hq
      simp only [Contains, Box.cover] at hold ⊢
      omega
    · rw [List.mem_singleton.mp hq]
      simp only [Contains, Box.cover]
      omega
  all_goals
    simp only [Box.cover]
    omega

theorem tight_foldl (hne : places ≠ []) (hblank : ∀ p ∈ places, b.Blank p) :
    Tight (places.foldl Box.cover b) places := by
  induction places using List.reverseRecOn with
  | nil => exact absurd rfl hne
  | append_singleton places p ih =>
    rw [List.foldl_append, List.foldl_cons, List.foldl_nil]
    by_cases hempty : places = []
    · subst hempty
      exact tight_cover_blank (hblank p (by simp))
    · exact (ih hempty fun q hq => hblank q (List.mem_append_left _ hq)).cover p

end Box

end EinkLab.RowMajor
