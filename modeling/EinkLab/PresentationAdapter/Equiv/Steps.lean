import EinkLab.PresentationAdapter.Basic

/-!
# The worker's steps, read backwards

For each stretch of `WorkerMain`, one lemma that says where the worker stood and what the stretch
did to the adapter.
-/

namespace EinkLab.PresentationAdapter

variable {a a' : PresentationAdapter}

theorem wake_cases {interval : Duration} {now : TimePoint} (h : a.wake interval now = some a') :
    a.worker = .waiting ∧
    ((a.stopping = true ∧ a' = { a with worker := .exited }) ∨
      (a.clock ≤ now ∧ a.isDeferred interval now ∧ a' = { a with
        worker := .deferred (a.lastAcceptedSubmission + interval)
        clock := now
        pendingIsTrailing := true
        diagnostics :=
          if a.pendingIsTrailing then a.diagnostics
          else { a.diagnostics with
            trailingDeferred := a.diagnostics.trailingDeferred + 1 } }) ∨
      ∃ f, a.pending = some f ∧ a.stopping = false ∧ a.clock ≤ now ∧ ¬ a.isDeferred interval now ∧
        a' = { a with
          worker := .taken f a.pendingIsTrailing
          clock := now
          pending := none
          submitting := true
          pendingIsTrailing := false }) := by
  unfold wake at h
  split at h
  · next hw =>
    refine ⟨hw, ?_⟩
    split at h
    · next hstop => exact Or.inl ⟨hstop, (Option.some.inj h).symm⟩
    · next hlive =>
      split at h
      · cases h
      · next f hf =>
        split at h
        · cases h
        next hclock =>
        have hle : a.clock ≤ now := Int.not_lt.mp hclock
        split at h
        · next hd => exact Or.inr (Or.inl ⟨hle, hd, (Option.some.inj h).symm⟩)
        · next hd =>
          have hlive' : a.stopping = false := Bool.eq_false_iff.mpr hlive
          exact Or.inr (Or.inr ⟨f, hf, hlive', hle, hd, (Option.some.inj h).symm⟩)
  · cases h

theorem rewake_cases {now : TimePoint} (h : a.rewake now = some a') :
    ∃ t, a.worker = .deferred t ∧
      (a' = { a with worker := .waiting } ∨
        (t ≤ now ∧ a.clock ≤ now ∧ a' = { a with worker := .waiting, clock := now })) := by
  unfold rewake at h
  split at h
  · next t hw =>
    refine ⟨t, hw, ?_⟩
    split at h
    · exact Or.inl (Option.some.inj h).symm
    · split at h
      · cases h
      · next hnow =>
        obtain ⟨hclock, ht⟩ := not_or.mp hnow
        exact Or.inr ⟨Int.not_lt.mp ht, Int.not_lt.mp hclock, (Option.some.inj h).symm⟩
  · cases h

theorem submitStart_cases {now : TimePoint} (h : a.submitStart now = some a') :
    ∃ f trailing, a.worker = .taken f trailing ∧ a.clock ≤ now ∧
      a' = { a with worker := .submitting f trailing now, clock := now } := by
  unfold submitStart at h
  split at h
  · next f trailing hw =>
    split at h
    · cases h
    · next hclock =>
      exact ⟨f, trailing, hw, Int.not_lt.mp hclock, (Option.some.inj h).symm⟩
  · cases h

theorem submitReturn_cases {accepted : Bool} {now : TimePoint}
    (h : a.submitReturn accepted now = some a') :
    ∃ f trailing start, a.worker = .submitting f trailing start ∧ a.clock ≤ now ∧
      a' = { a with worker := .returned f trailing accepted start now, clock := now } := by
  unfold submitReturn at h
  split at h
  · next f trailing start hw =>
    split at h
    · cases h
    · next hclock =>
      exact ⟨f, trailing, start, hw, Int.not_lt.mp hclock, (Option.some.inj h).symm⟩
  · cases h

theorem record_cases (h : a.record = some a') :
    ∃ f trailing accepted start finish, a.worker = .returned f trailing accepted start finish ∧
      a' = { a with
        worker := .recorded f accepted (finish - start)
        submitting := false
        lastAcceptedSubmission := if accepted then finish else a.lastAcceptedSubmission
        diagnostics := { a.diagnostics with
          submitCalls := a.diagnostics.submitCalls + 1
          submitRejected := a.diagnostics.submitRejected + (if accepted then 0 else 1)
          trailingSubmitted :=
            a.diagnostics.trailingSubmitted + (if accepted && trailing then 1 else 0) } } := by
  unfold record at h
  split at h
  · next f trailing accepted start finish hw =>
    exact ⟨f, trailing, accepted, start, finish, hw, (Option.some.inj h).symm⟩
  · cases h

theorem observe_cases (h : a.observe = some a') :
    ∃ f accepted d, a.worker = .recorded f accepted d ∧ a' = { a with worker := .waiting } := by
  unfold observe at h
  split at h
  · next f accepted d hw => exact ⟨f, accepted, d, hw, (Option.some.inj h).symm⟩
  · cases h

end EinkLab.PresentationAdapter
