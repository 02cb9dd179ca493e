import EinkLab.CaptureSession.PolicyRuns

/-!
# The late replacements

The policy remembers one slot, the last for which it captured a late replacement.  While that slot
is never overwritten by an earlier one, each slot gets at most one late replacement
(`lateSlots_nodup_of_run`); where it is, a slot can get two (`not_forall_lateSlots_nodup`).
-/

namespace EinkLab.CaptureSession.CaptureAdmissionPolicy

open Transition System

variable {p p' : CaptureAdmissionPolicy} {o : Opportunity} {log : List Evaluated}

/-- The retained candidate of a slot in the future is skipped, or replaced late inside the
window. -/
def Guarded (window : Duration) (e : Evaluated) : Prop :=
  ∀ slot ∈ e.opportunity.nextEligible,
    e.opportunity.retainedCandidate = true → e.opportunity.now < slot →
      e.decision = .skipRetainedCandidate ∨
        e.decision = .captureLateReplacement ∧ slot - e.opportunity.now ≤ window

/-- What one `Evaluate` decides and remembers. -/
theorem evaluate_cases (p : CaptureAdmissionPolicy) (o : Opportunity) :
    (p.evaluate o.retainedCandidate o.nextEligible o.now).2.lateSampleWindow = p.lateSampleWindow ∧
      ((∃ slot, o.nextEligible = some slot ∧ o.retainedCandidate = true ∧ o.now < slot ∧
          slot - o.now ≤ p.lateSampleWindow ∧ p.lateSampledSlot ≠ some slot ∧
          (p.evaluate o.retainedCandidate o.nextEligible o.now).1 = .captureLateReplacement ∧
          (p.evaluate o.retainedCandidate o.nextEligible o.now).2.lateSampledSlot = some slot) ∨
        (p.evaluate o.retainedCandidate o.nextEligible o.now).1 ≠ .captureLateReplacement ∧
          (p.evaluate o.retainedCandidate o.nextEligible o.now).2.lateSampledSlot =
            p.lateSampledSlot ∧
          ∀ slot ∈ o.nextEligible, o.retainedCandidate = true → o.now < slot →
            (p.evaluate o.retainedCandidate o.nextEligible o.now).1 = .skipRetainedCandidate) := by
  unfold evaluate
  dsimp only
  split
  · next hretained =>
    exact ⟨rfl, Or.inr ⟨by simp, rfl, fun _ _ hyes => by simp [hyes] at hretained⟩⟩
  · next hretained =>
    have hretained : o.retainedCandidate = true := by simpa using hretained
    cases hnext : o.nextEligible with
    | none => exact ⟨rfl, Or.inr ⟨by simp, rfl, by simp⟩⟩
    | some slot =>
      dsimp only
      split
      · next helapsed =>
        refine ⟨rfl, Or.inr ⟨by simp, rfl, ?_⟩⟩
        rintro slot' hslot - hfuture
        obtain rfl := Option.mem_some_iff.mp hslot
        exact absurd helapsed (Int.not_le.mpr hfuture)
      · next hfuture =>
        split
        · next hlate =>
          exact ⟨rfl, Or.inl ⟨slot, rfl, hretained, Int.not_le.mp hfuture, hlate.1, hlate.2,
            rfl, rfl⟩⟩
        · exact ⟨rfl, Or.inr ⟨by simp, rfl, fun _ _ _ _ => rfl⟩⟩

theorem guarded_evaluate (p : CaptureAdmissionPolicy) (o : Opportunity) :
    Guarded p.lateSampleWindow ⟨o, (p.evaluate o.retainedCandidate o.nextEligible o.now).1⟩ := by
  intro slot hslot hretained hfuture
  rcases (evaluate_cases p o).2 with ⟨slot', hnext, -, -, hwindow, -, hlate, -⟩ | ⟨-, -, hskip⟩
  · obtain rfl := Option.some_inj.mp (hnext.symm.trans hslot)
    exact Or.inr ⟨hlate, hwindow⟩
  · exact Or.inl (hskip slot hslot hretained hfuture)

theorem lateSlots_append (log : List Evaluated) (e : Evaluated) :
    lateSlots (log ++ [e]) = lateSlots log ++
      if e.decision = .captureLateReplacement then [e.opportunity.nextEligible] else [] := by
  rw [lateSlots, lateSlots, List.filter_append, List.map_append]
  by_cases hlate : e.decision = .captureLateReplacement
  · simp [hlate]
  · simp [hlate]

/-- Every late slot is at most the remembered one. -/
structure Remembered (window : Duration) (log : List Evaluated) (p : CaptureAdmissionPolicy) :
    Prop where
  window_eq : p.lateSampleWindow = window
  le : ∀ slot ∈ lateSlots log, ∃ t late, slot = some t ∧ p.lateSampledSlot = some late ∧ t ≤ late
  nodup : (lateSlots log).Nodup
  guarded : ∀ e ∈ log, Guarded window e

theorem Remembered.evaluate {window : Duration} (h : Remembered window log p)
    (hok : NotEarlier p o) :
    Remembered window (log ++ [⟨o, (p.evaluate o.retainedCandidate o.nextEligible o.now).1⟩])
      (p.evaluate o.retainedCandidate o.nextEligible o.now).2 := by
  have hguarded : ∀ e ∈ log ++ [⟨o, (p.evaluate o.retainedCandidate o.nextEligible o.now).1⟩],
      Guarded window e := by
    intro e he
    rcases List.mem_append.mp he with he | he
    · exact h.guarded e he
    · rw [List.mem_singleton.mp he, ← h.window_eq]
      exact guarded_evaluate p o
  obtain ⟨hwindow, hcases⟩ := evaluate_cases p o
  rcases hcases with ⟨slot, hnext, hretained, hfuture, hinside, hother, hlate, hslot⟩ |
    ⟨hnot, hslot, -⟩
  · -- the new slot is later than the remembered one, and so than every late slot
    have hlater : ∀ t ∈ lateSlots log, ∃ u, t = some u ∧ u < slot := by
      intro t ht
      obtain ⟨u, late, rfl, hremembered, hle⟩ := h.le t ht
      have hlate := hok slot hnext late hremembered hretained hfuture hinside
      have hne : late ≠ slot := fun heq => hother (heq ▸ hremembered)
      exact ⟨u, rfl, Int.lt_of_le_of_lt hle (Int.lt_iff_le_and_ne.mpr ⟨hlate, hne⟩)⟩
    refine ⟨hwindow.trans h.window_eq, ?_, ?_, hguarded⟩
    · intro t ht
      rw [lateSlots_append, if_pos hlate, List.mem_append, List.mem_singleton] at ht
      rcases ht with ht | rfl
      · obtain ⟨u, rfl, hlt⟩ := hlater t ht
        exact ⟨u, slot, rfl, hslot, Int.le_of_lt hlt⟩
      · exact ⟨slot, slot, hnext, hslot, Int.le_refl _⟩
    · rw [lateSlots_append, if_pos hlate, List.nodup_append]
      refine ⟨h.nodup, by simp, ?_⟩
      intro t ht t' ht'
      obtain ⟨u, rfl, hlt⟩ := hlater t ht
      rw [List.mem_singleton.mp ht', hnext]
      exact fun heq => Int.ne_of_lt hlt (Option.some_inj.mp heq)
  · -- neither the late slots nor the remembered one change
    refine ⟨hwindow.trans h.window_eq, ?_, ?_, hguarded⟩
    · rw [lateSlots_append, if_neg hnot, List.append_nil, hslot]
      exact h.le
    · rw [lateSlots_append, if_neg hnot, List.append_nil]
      exact h.nodup

/-- **One late replacement for a slot**: in every run that never overwrites the remembered slot by
an earlier one, no slot gets two, and nothing else is captured over a candidate of a future slot. -/
theorem lateSlots_nodup_of_run {window : Duration} {opportunities : List Opportunity}
    (h : system.Run NotEarlier (create window) opportunities log p) :
    (lateSlots log).Nodup ∧ ∀ e ∈ log, Guarded p.lateSampleWindow e := by
  have hinv : Remembered (create window).lateSampleWindow log p := by
    refine h.induct (fun _ log p => Remembered (create window).lateSampleWindow log p) ?_ ?_
    · exact ⟨rfl, by simp [lateSlots], by simp [lateSlots], by simp⟩
    · intro _ log p o p' es hi hok hstep
      simp only [system, Option.some.injEq, Prod.mk.injEq] at hstep
      obtain ⟨rfl, rfl⟩ := hstep
      exact hi.evaluate hok
  rw [hinv.window_eq]
  exact ⟨hinv.nodup, hinv.guarded⟩

/-- Two late replacements of one slot, with another slot in between. -/
def returning : List Opportunity :=
  [⟨true, some 100000000, 50000000⟩, ⟨true, some 90000000, 50000000⟩,
    ⟨true, some 100000000, 50000000⟩]

/-- Two late replacements, of a slot and of a later one. -/
def advancing : List Opportunity :=
  [⟨true, some 90000000, 50000000⟩, ⟨true, some 100000000, 50000000⟩]

theorem lateSlots_nodup_of_run_forward :
    (lateSlots (advancing.map fun o => ⟨o, .captureLateReplacement⟩)).Nodup := by
  have hrun : system.Run NotEarlier (create 100000000) advancing
      (advancing.map fun o => ⟨o, .captureLateReplacement⟩)
      { lateSampleWindow := 100000000, lateSampledSlot := some 100000000,
        lastReason := .lateReplacement, lateSampleTaken := 2 } := by
    refine ((Run.nil (M := system)).snoc ?_ rfl).snoc ?_ rfl
    · simp [NotEarlier, create, validWindow]
    · simp [NotEarlier, create, validWindow, evaluate]
  exact (lateSlots_nodup_of_run hrun).1

theorem not_forall_lateSlots_nodup :
    ¬∀ (window : Duration) (opportunities : List Opportunity) (log : List Evaluated)
      (p : CaptureAdmissionPolicy),
      system.Run anyAction (create window) opportunities log p → (lateSlots log).Nodup := by
  intro h
  have hrun : ∃ p, system.Run anyAction (create 100000000) returning
      (returning.map fun o => ⟨o, .captureLateReplacement⟩) p := ⟨_, Run.of_exec rfl⟩
  obtain ⟨p, hrun⟩ := hrun
  exact absurd (h _ _ _ _ hrun) (by decide)

end EinkLab.CaptureSession.CaptureAdmissionPolicy
