import EinkLab.PresentationAdapter.Equiv.Steps

/-!
# What the adapter's frames keep

`Carries P a`: the frame in the slot and the frame in flight satisfy `P`.  Every step keeps it
(`Carries.step`), for a `P` that does not mind what the adapter does to a frame's diagnostic
request, as long as the frames that are enqueued satisfy it.  `holds_step` says the same of all the
frames the adapter holds, up to the end of the observer's call.
-/

namespace EinkLab.PresentationAdapter

open Transition

/-- The frame in the slot and the frame in flight satisfy `P`. -/
structure Carries (P : Frame → Prop) (a : PresentationAdapter) : Prop where
  pending : ∀ f, a.pending = some f → P f
  inFlight : ∀ f, a.worker.inFlight = some f → P f

/-- `P` is kept by a cancelled request, and by a frame that takes over the request of another. -/
structure Durable (P : Frame → Prop) : Prop where
  clear : ∀ f, P f → P f.clearDiagnostic
  follow : ∀ f old, P f → P old → P (followPending f old)

namespace Carries

variable {P : Frame → Prop} {a a' : PresentationAdapter}

theorem of_phase (h : Carries P a) (hpending : a'.pending = a.pending ∨ a'.pending = none)
    (hphase : a'.worker.inFlight = a.worker.inFlight ∨ a'.worker.inFlight = none) :
    Carries P a' := by
  constructor
  · intro f hf
    rcases hpending with hsame | hnone
    · exact h.pending f (hsame ▸ hf)
    · rw [hnone] at hf
      cases hf
  · intro f hf
    rcases hphase with hsame | hnone
    · exact h.inFlight f (hsame ▸ hf)
    · rw [hnone] at hf
      cases hf

theorem enqueue (h : Carries P a) (hP : Durable P) {f : Frame} (hf : a.accepts f = true → P f) :
    Carries P (a.enqueue f).2 := by
  cases hacc : a.accepts f with
  | false =>
    rw [enqueue_of_not_accepts hacc]
    exact h
  | true =>
    rw [enqueue_of_accepts hacc]
    refine ⟨fun g hg => ?_, h.inFlight⟩
    cases hold : a.pending with
    | none =>
      simp only [hold, Option.map_none, Option.getD_none, Option.some.injEq] at hg
      rw [← hg]
      exact hf hacc
    | some old =>
      simp only [hold, Option.map_some, Option.getD_some, Option.some.injEq] at hg
      rw [← hg]
      exact hP.follow f old (hf hacc) (h.pending old hold)

theorem wake (h : Carries P a) {interval : Duration} {now : TimePoint}
    (hs : a.wake interval now = some a') : Carries P a' := by
  obtain ⟨-, ⟨-, rfl⟩ | ⟨-, -, rfl⟩ | ⟨frame, hframe, -, -, -, rfl⟩⟩ := wake_cases hs
  · exact h.of_phase (Or.inl rfl) (Or.inr rfl)
  · exact h.of_phase (Or.inl rfl) (Or.inr rfl)
  · refine ⟨fun f hf => (by cases hf), fun f hf => ?_⟩
    obtain rfl := Option.some.inj hf
    exact h.pending _ hframe

/-- Every step keeps it, as long as the frames that are taken in satisfy it. -/
theorem step (h : Carries P a) (hP : Durable P) {act : Action} {evs : List Event}
    (henqueue : ∀ f, act = .enqueue f → a.accepts f = true → P f)
    (hs : a.step act = some (a', evs)) : Carries P a' := by
  cases act with
  | start =>
    obtain ⟨rfl, -⟩ := Prod.mk.inj (Option.some.inj hs)
    rcases start_cases a with heq | ⟨-, heq⟩ <;> rw [heq]
    · exact h
    · exact h.of_phase (Or.inl rfl) (Or.inr rfl)
  | stop =>
    obtain ⟨rfl, -⟩ := Prod.mk.inj (Option.some.inj hs)
    rcases stop_cases a with ⟨heq, -⟩ | ⟨-, -, heq⟩ <;> rw [heq]
    · exact h
    · exact h.of_phase (Or.inr rfl) (Or.inl rfl)
  | enqueue f =>
    obtain ⟨rfl, -⟩ := Prod.mk.inj (Option.some.inj hs)
    exact h.enqueue hP (henqueue f rfl)
  | cancelPendingSleepImage epoch =>
    obtain ⟨rfl, -⟩ := Prod.mk.inj (Option.some.inj hs)
    rcases cancelPendingSleepImage_cases a epoch with heq | ⟨f, hf, -, -, heq⟩ <;> rw [heq]
    · exact h
    · exact h.of_phase (Or.inr rfl) (Or.inl rfl)
  | cancelPendingDiagnosticRefresh =>
    obtain ⟨rfl, -⟩ := Prod.mk.inj (Option.some.inj hs)
    rcases cancelPendingDiagnosticRefresh_cases a with heq | ⟨f, hf, -, heq⟩ <;> rw [heq]
    · exact h
    · refine ⟨fun g hg => ?_, h.inFlight⟩
      obtain rfl := Option.some.inj hg
      exact hP.clear f (h.pending f hf)
  | wake interval now => exact h.wake (System.eq_of_map hs).1
  | rewake now =>
    obtain ⟨_, -, rfl | ⟨-, -, rfl⟩⟩ := rewake_cases (System.eq_of_map hs).1
    · exact h.of_phase (Or.inl rfl) (Or.inr rfl)
    · exact h.of_phase (Or.inl rfl) (Or.inr rfl)
  | submitStart now =>
    obtain ⟨_, _, hphase, -, rfl⟩ := submitStart_cases (System.eq_of_map hs).1
    -- the worker keeps its frame from here to the record
    refine h.of_phase (Or.inl rfl) (Or.inl ?_)
    rw [hphase]
    rfl
  | submitReturn accepted now =>
    obtain ⟨_, _, _, hphase, -, rfl⟩ := submitReturn_cases (System.eq_of_map hs).1
    refine h.of_phase (Or.inl rfl) (Or.inl ?_)
    rw [hphase]
    rfl
  | record =>
    obtain ⟨_, _, _, _, _, -, rfl⟩ := record_cases (System.eq_of_map hs).1
    exact h.of_phase (Or.inl rfl) (Or.inr rfl)
  | observe =>
    obtain ⟨_, _, _, -, rfl⟩ := observe_cases (System.eq_of_map hs).1
    exact h.of_phase (Or.inl rfl) (Or.inr rfl)

end Carries

/-! ### The frames the adapter holds -/

variable {a a' : PresentationAdapter} {act : Action} {evs : List Event}

theorem WorkerPhase.carried_of_inFlight {w : WorkerPhase} {f : Frame}
    (h : w.inFlight = some f) : w.carried = some f := by
  cases w with
  | recorded => cases h
  | _ => exact h

/-- The worker gets its frame from the slot. -/
theorem carried_of_step {f : Frame} (hs : a.step act = some (a', evs))
    (hf : a'.worker.carried = some f) : a.worker.carried = some f ∨ a.pending = some f := by
  cases act with
  | start =>
    obtain ⟨rfl, -⟩ := Prod.mk.inj (Option.some.inj hs)
    rcases start_cases a with heq | ⟨-, heq⟩ <;> rw [heq] at hf
    · exact Or.inl hf
    · cases hf
  | stop =>
    obtain ⟨rfl, -⟩ := Prod.mk.inj (Option.some.inj hs)
    rcases stop_cases a with ⟨heq, -⟩ | ⟨-, -, heq⟩ <;> rw [heq] at hf <;> exact Or.inl hf
  | enqueue g =>
    obtain ⟨rfl, -⟩ := Prod.mk.inj (Option.some.inj hs)
    cases hacc : a.accepts g with
    | false =>
      rw [enqueue_of_not_accepts hacc] at hf
      exact Or.inl hf
    | true =>
      rw [enqueue_of_accepts hacc] at hf
      exact Or.inl hf
  | cancelPendingSleepImage epoch =>
    obtain ⟨rfl, -⟩ := Prod.mk.inj (Option.some.inj hs)
    rcases cancelPendingSleepImage_cases a epoch with heq | ⟨_, -, -, -, heq⟩ <;>
      rw [heq] at hf <;> exact Or.inl hf
  | cancelPendingDiagnosticRefresh =>
    obtain ⟨rfl, -⟩ := Prod.mk.inj (Option.some.inj hs)
    rcases cancelPendingDiagnosticRefresh_cases a with heq | ⟨_, -, -, heq⟩ <;>
      rw [heq] at hf <;> exact Or.inl hf
  | wake interval now =>
    obtain ⟨-, ⟨-, rfl⟩ | ⟨-, -, rfl⟩ | ⟨g, hg, -, -, -, rfl⟩⟩ := wake_cases (System.eq_of_map hs).1
    · cases hf
    · cases hf
    · -- only here does the worker take a frame, the pending one
      exact Or.inr (hg.trans hf)
  | rewake now =>
    obtain ⟨_, -, rfl | ⟨-, -, rfl⟩⟩ := rewake_cases (System.eq_of_map hs).1 <;> cases hf
  | submitStart now =>
    obtain ⟨_, _, hw, -, rfl⟩ := submitStart_cases (System.eq_of_map hs).1
    rw [hw]
    exact Or.inl hf
  | submitReturn accepted now =>
    obtain ⟨_, _, _, hw, -, rfl⟩ := submitReturn_cases (System.eq_of_map hs).1
    rw [hw]
    exact Or.inl hf
  | record =>
    obtain ⟨_, _, _, _, _, hw, rfl⟩ := record_cases (System.eq_of_map hs).1
    rw [hw]
    exact Or.inl hf
  | observe =>
    obtain ⟨_, _, _, -, rfl⟩ := observe_cases (System.eq_of_map hs).1
    cases hf

/-- What the adapter holds after a step satisfies `P`, as long as the frames that are taken in
do. -/
theorem holds_step {P : Frame → Prop} (hP : Durable P) (h : ∀ f, a.Holds f → P f)
    (henqueue : ∀ f, act = .enqueue f → a.accepts f = true → P f)
    (hs : a.step act = some (a', evs)) : ∀ f, a'.Holds f → P f := by
  have hcarries : Carries P a := by
    refine ⟨fun f hf => h f (Or.inl hf), fun f hf => h f (Or.inr ?_)⟩
    exact WorkerPhase.carried_of_inFlight hf
  -- the slot's frame is the adapter's business, the worker's frame was in the slot
  rintro f (hpending | hcarried)
  · exact (hcarries.step hP henqueue hs).pending f hpending
  · exact h f (carried_of_step hs hcarried).symm

end EinkLab.PresentationAdapter
