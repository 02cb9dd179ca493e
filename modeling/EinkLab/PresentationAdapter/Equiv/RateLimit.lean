import EinkLab.PresentationAdapter.Timeline
import EinkLab.PresentationAdapter.Equiv.Steps

/-!
# The adapter's rate limit

`rate_limit`: in every run every `Submit` starts at least the interval that was read at its dequeue
after the last accepted `Submit` returned.  `last_accepted_submission` is the code's only record of
that return, and its zero stands for "no accepted submission", so a return at the clock's origin is
the one exception.

`Window` relates the field to the timeline: they agree except between the engine's answer and the
critical section that records it.  A frame is only dequeued outside that stretch, and once it is
dequeued the field does not move until its own answer is recorded (`Timely`).
-/

namespace EinkLab.PresentationAdapter

open Transition

variable {a a' : PresentationAdapter}

/-! ### The producers' calls -/

/-- The worker's program counter is before its thread has begun, or unchanged. -/
theorem producer_frame {act : Action} {evs : List Event} (hthread : a.worker = .absent ∨ a.started)
    (hact : act = .start ∨ act = .stop ∨ (∃ f, act = .enqueue f) ∨
      (∃ e, act = .cancelPendingSleepImage e) ∨ act = .cancelPendingDiagnosticRefresh)
    (h : a.step act = some (a', evs)) :
    (a'.worker = a.worker ∨ (a.worker = .absent ∧ a'.worker = .waiting)) ∧
      a'.lastAcceptedSubmission = a.lastAcceptedSubmission ∧ a'.clock = a.clock ∧
      (a.started = true → a'.started = true) ∧ (a'.worker = .absent ∨ a'.started = true) := by
  rcases hact with rfl | rfl | ⟨f, rfl⟩ | ⟨e, rfl⟩ | rfl
  · obtain ⟨rfl, -⟩ := Prod.mk.inj (Option.some.inj h)
    rcases start_cases a with heq | ⟨hs, heq⟩ <;> rw [heq]
    · exact ⟨Or.inl rfl, rfl, rfl, id, hthread⟩
    · have hw : a.worker = .absent := hthread.resolve_right (by simp [hs])
      exact ⟨Or.inr ⟨hw, rfl⟩, rfl, rfl, fun _ => rfl, Or.inr rfl⟩
  · obtain ⟨rfl, -⟩ := Prod.mk.inj (Option.some.inj h)
    rcases stop_cases a with ⟨heq, -⟩ | ⟨-, -, heq⟩ <;> rw [heq] <;>
      exact ⟨Or.inl rfl, rfl, rfl, id, hthread⟩
  · obtain ⟨rfl, -⟩ := Prod.mk.inj (Option.some.inj h)
    cases hacc : a.accepts f with
    | false =>
      rw [enqueue_of_not_accepts hacc]
      exact ⟨Or.inl rfl, rfl, rfl, id, hthread⟩
    | true =>
      rw [enqueue_of_accepts hacc]
      exact ⟨Or.inl rfl, rfl, rfl, id, hthread⟩
  · obtain ⟨rfl, -⟩ := Prod.mk.inj (Option.some.inj h)
    rcases cancelPendingSleepImage_cases a e with heq | ⟨f, -, -, -, heq⟩ <;> rw [heq] <;>
      exact ⟨Or.inl rfl, rfl, rfl, id, hthread⟩
  · obtain ⟨rfl, -⟩ := Prod.mk.inj (Option.some.inj h)
    rcases cancelPendingDiagnosticRefresh_cases a with heq | ⟨f, -, -, heq⟩ <;> rw [heq] <;>
      exact ⟨Or.inl rfl, rfl, rfl, id, hthread⟩

/-! ### The invariant -/

/-- The interval has passed between the last accepted return, unless there is none or it was at the
clock's origin, and the start of this call. -/
def SubmitStart.Spaced (s : SubmitStart) : Prop :=
  ∀ finish, s.lastFinish = some finish → finish ≠ 0 → 0 < s.interval → finish + s.interval ≤ s.start

/-- The worker holds the answer of an accepted call that it has not recorded yet. -/
def WorkerPhase.acceptedAt : WorkerPhase → Option TimePoint
  | .returned _ _ true _ finish => some finish
  | _ => none

/-- The code's record of the last accepted return, up to the one that is still to be recorded. -/
def Window (a : PresentationAdapter) (lastFinish : Option TimePoint) : Prop :=
  match a.worker.acceptedAt with
  | some finish => lastFinish = some finish
  | none => a.lastAcceptedSubmission = lastFinish.getD 0

structure Timely (x : Timed) : Prop where
  thread : x.adapter.worker = .absent ∨ x.adapter.started = true
  window : Window x.adapter x.timeline.lastFinish
  taken : ∀ f trailing, x.adapter.worker = .taken f trailing →
    ¬ x.adapter.isDeferred x.timeline.interval x.adapter.clock
  spaced : ∀ s ∈ x.timeline.starts, s.Spaced

theorem Window.of_none {lastFinish : Option TimePoint} (h : Window a lastFinish)
    (hw : a.worker.acceptedAt = none) : a.lastAcceptedSubmission = lastFinish.getD 0 := by
  unfold Window at h
  rwa [hw] at h

theorem Window.mk_none {lastFinish : Option TimePoint} (hw : a.worker.acceptedAt = none)
    (h : a.lastAcceptedSubmission = lastFinish.getD 0) : Window a lastFinish := by
  unfold Window
  rwa [hw]

/-- What the rate limit let through was not early. -/
theorem finish_add_le {interval : Duration} {now finish : TimePoint} {lastFinish : Option TimePoint}
    (hd : ¬ a.isDeferred interval now) (hlast : a.lastAcceptedSubmission = lastFinish.getD 0)
    (hfinish : lastFinish = some finish) (hne : finish ≠ 0) (hpos : 0 < interval) :
    finish + interval ≤ now := by
  have hlast' : a.lastAcceptedSubmission = finish := by rw [hlast, hfinish, Option.getD_some]
  by_contra hlt
  refine hd ⟨?_, hpos, ?_⟩
  · rwa [hlast']
  · rw [hlast']
    exact Int.not_le.mp hlt

namespace Timely

variable {x : Timed}

theorem init (t₀ : TimePoint) : Timely ⟨{ clock := t₀ }, {}⟩ where
  thread := Or.inl rfl
  window := rfl
  taken := by simp
  spaced := by simp

/-- A step that leaves the field and the timeline alone. -/
theorem of_frame (h : Timely x) (hthread : a'.worker = .absent ∨ a'.started = true)
    (hlast : a'.lastAcceptedSubmission = x.adapter.lastAcceptedSubmission)
    (hold : x.adapter.worker.acceptedAt = none) (hnew : a'.worker.acceptedAt = none)
    (htaken : ∀ f trailing, a'.worker ≠ .taken f trailing) : Timely ⟨a', x.timeline⟩ where
  thread := hthread
  window := Window.mk_none hnew (hlast.trans (h.window.of_none hold))
  taken := fun f trailing hw => absurd hw (htaken f trailing)
  spaced := h.spaced

/-- A producer's call. -/
theorem producer (h : Timely x) {act : Action} {evs : List Event}
    (hact : act = .start ∨ act = .stop ∨ (∃ f, act = .enqueue f) ∨
      (∃ e, act = .cancelPendingSleepImage e) ∨ act = .cancelPendingDiagnosticRefresh)
    (hs : x.adapter.step act = some (a', evs)) :
    Timely ⟨a', x.timeline.step x.adapter act⟩ := by
  have hline : x.timeline.step x.adapter act = x.timeline := by
    rcases hact with rfl | rfl | ⟨f, rfl⟩ | ⟨e, rfl⟩ | rfl <;> rfl
  obtain ⟨hw, hlast, hclock, -, hthread⟩ := producer_frame h.thread hact hs
  rw [hline]
  rcases hw with hw | ⟨habsent, hw⟩
  · refine ⟨hthread, ?_, ?_, h.spaced⟩
    · have hwin := h.window
      unfold Window at hwin ⊢
      rwa [hw, hlast]
    · intro f trailing hf
      have hnot := h.taken f trailing (hw ▸ hf)
      unfold isDeferred at hnot ⊢
      rwa [hlast, hclock]
  · refine h.of_frame hthread hlast ?_ ?_ ?_
    · rw [habsent]
      rfl
    · rw [hw]
      rfl
    · intro f trailing hf
      rw [hw] at hf
      cases hf

theorem wake (h : Timely x) {interval : Duration} {now : TimePoint}
    (hs : x.adapter.wake interval now = some a') :
    Timely ⟨a', x.timeline.step x.adapter (.wake interval now)⟩ := by
  obtain ⟨hw, hcases⟩ := wake_cases hs
  have hstarted : x.adapter.started = true := h.thread.resolve_left (by simp [hw])
  have hold : x.adapter.worker.acceptedAt = none := by rw [hw]; rfl
  simp only [Timeline.step, hs, Option.map_some]
  rcases hcases with ⟨-, rfl⟩ | ⟨-, -, rfl⟩ | ⟨f, -, -, -, hd, rfl⟩
  · exact h.of_frame (Or.inr hstarted) rfl hold rfl (by simp)
  · exact h.of_frame (Or.inr hstarted) rfl hold rfl (by simp)
  · exact ⟨Or.inr hstarted, Window.mk_none rfl (h.window.of_none hold), fun _ _ _ => hd, h.spaced⟩

theorem submitStart (h : Timely x) {now : TimePoint}
    (hs : x.adapter.submitStart now = some a') :
    Timely ⟨a', x.timeline.step x.adapter (.submitStart now)⟩ := by
  obtain ⟨f, trailing, hw, hclock, rfl⟩ := submitStart_cases hs
  have hstarted : x.adapter.started = true := h.thread.resolve_left (by simp [hw])
  have hlast := h.window.of_none (by rw [hw]; rfl)
  refine ⟨Or.inr hstarted, Window.mk_none rfl hlast, by simp, ?_⟩
  intro s hmem
  rcases List.mem_cons.mp hmem with rfl | hmem
  · intro finish hfinish hne hpos
    have hle := finish_add_le (h.taken f trailing hw) hlast hfinish hne hpos
    exact Int.le_trans hle hclock
  · exact h.spaced s hmem

theorem submitReturn (h : Timely x) {accepted : Bool} {now : TimePoint}
    (hs : x.adapter.submitReturn accepted now = some a') :
    Timely ⟨a', x.timeline.step x.adapter (.submitReturn accepted now)⟩ := by
  obtain ⟨f, trailing, start, hw, -, rfl⟩ := submitReturn_cases hs
  have hstarted : x.adapter.started = true := h.thread.resolve_left (by simp [hw])
  have hlast := h.window.of_none (by rw [hw]; rfl)
  cases accepted with
  | false => exact ⟨Or.inr hstarted, Window.mk_none rfl hlast, by simp, h.spaced⟩
  | true => exact ⟨Or.inr hstarted, rfl, by simp, h.spaced⟩

theorem record (h : Timely x) (hs : x.adapter.record = some a') :
    Timely ⟨a', x.timeline.step x.adapter .record⟩ := by
  obtain ⟨f, trailing, accepted, start, finish, hw, rfl⟩ := record_cases hs
  have hstarted : x.adapter.started = true := h.thread.resolve_left (by simp [hw])
  refine ⟨Or.inr hstarted, Window.mk_none rfl ?_, by simp, h.spaced⟩
  have hwin := h.window
  unfold Window at hwin
  rw [hw] at hwin
  cases accepted with
  | false => exact hwin
  | true =>
    change x.timeline.lastFinish = some finish at hwin
    show finish = x.timeline.lastFinish.getD 0
    rw [hwin, Option.getD_some]

/-- Every step keeps it. -/
theorem step (h : Timely x) {y : Timed} {act : Action} {evs : List Event}
    (hs : x.step act = some (y, evs)) : Timely y := by
  obtain ⟨⟨a', evs'⟩, hs', heq⟩ := Option.map_eq_some_iff.mp hs
  obtain ⟨rfl, rfl⟩ := Prod.mk.inj heq
  cases act with
  | start => exact h.producer (Or.inl rfl) hs'
  | stop => exact h.producer (Or.inr (Or.inl rfl)) hs'
  | enqueue f => exact h.producer (Or.inr (Or.inr (Or.inl ⟨f, rfl⟩))) hs'
  | cancelPendingSleepImage e =>
    exact h.producer (Or.inr (Or.inr (Or.inr (Or.inl ⟨e, rfl⟩)))) hs'
  | cancelPendingDiagnosticRefresh =>
    exact h.producer (Or.inr (Or.inr (Or.inr (Or.inr rfl)))) hs'
  | wake interval now =>
    exact h.wake (System.eq_of_map hs').1
  | rewake now =>
    have hb := (System.eq_of_map hs').1
    obtain ⟨t, hw, hcases⟩ := rewake_cases hb
    have hstarted : x.adapter.started = true := h.thread.resolve_left (by simp [hw])
    have hold : x.adapter.worker.acceptedAt = none := by rw [hw]; rfl
    rcases hcases with rfl | ⟨-, -, rfl⟩
    · exact h.of_frame (Or.inr hstarted) rfl hold rfl (by simp)
    · exact h.of_frame (Or.inr hstarted) rfl hold rfl (by simp)
  | submitStart now =>
    exact h.submitStart (System.eq_of_map hs').1
  | submitReturn accepted now =>
    exact h.submitReturn (System.eq_of_map hs').1
  | record =>
    exact h.record (System.eq_of_map hs').1
  | observe =>
    have hb := (System.eq_of_map hs').1
    obtain ⟨f, accepted, d, hw, rfl⟩ := observe_cases hb
    have hstarted : x.adapter.started = true := h.thread.resolve_left (by simp [hw])
    exact h.of_frame (Or.inr hstarted) rfl (by rw [hw]; rfl) rfl (by simp)

end Timely

theorem timely_of_run {t₀ : TimePoint} {as : List Action} {log : List Event} {x : Timed}
    (h : Timed.system.Run System.anyAction ⟨{ clock := t₀ }, {}⟩ as log x) : Timely x :=
  h.invariant Timely (Timely.init t₀) fun _ _ _ _ hx _ hs => hx.step hs

/-! ### The rate limit -/

/-- The window moves only when an accepted call is recorded, to the return of that call. -/
theorem lastAccepted_step {act : Action} {evs : List Event}
    (hthread : a.worker = .absent ∨ a.started = true) (h : a.step act = some (a', evs)) :
    a'.lastAcceptedSubmission = a.lastAcceptedSubmission ∨
      ∃ finish, a.worker.acceptedAt = some finish ∧ a'.lastAcceptedSubmission = finish := by
  cases act with
  | start => exact Or.inl (producer_frame hthread (Or.inl rfl) h).2.1
  | stop => exact Or.inl (producer_frame hthread (Or.inr (Or.inl rfl)) h).2.1
  | enqueue f =>
    exact Or.inl (producer_frame hthread (Or.inr (Or.inr (Or.inl ⟨f, rfl⟩))) h).2.1
  | cancelPendingSleepImage e =>
    exact Or.inl (producer_frame hthread (Or.inr (Or.inr (Or.inr (Or.inl ⟨e, rfl⟩)))) h).2.1
  | cancelPendingDiagnosticRefresh =>
    exact Or.inl (producer_frame hthread (Or.inr (Or.inr (Or.inr (Or.inr rfl)))) h).2.1
  | wake interval now =>
    have hb := (System.eq_of_map h).1
    left
    rcases (wake_cases hb).2 with ⟨-, rfl⟩ | ⟨-, -, rfl⟩ | ⟨f, -, -, -, -, rfl⟩ <;> rfl
  | rewake now =>
    have hb := (System.eq_of_map h).1
    left
    obtain ⟨t, -, rfl | ⟨-, -, rfl⟩⟩ := rewake_cases hb <;> rfl
  | submitStart now =>
    have hb := (System.eq_of_map h).1
    left
    obtain ⟨f, trailing, -, -, rfl⟩ := submitStart_cases hb
    rfl
  | submitReturn accepted now =>
    have hb := (System.eq_of_map h).1
    left
    obtain ⟨f, trailing, start, -, -, rfl⟩ := submitReturn_cases hb
    rfl
  | record =>
    have hb := (System.eq_of_map h).1
    obtain ⟨f, trailing, accepted, start, finish, hw, rfl⟩ := record_cases hb
    cases accepted with
    | false => exact Or.inl rfl
    | true => exact Or.inr ⟨finish, by rw [hw]; rfl, rfl⟩
  | observe =>
    have hb := (System.eq_of_map h).1
    left
    obtain ⟨f, accepted, d, -, rfl⟩ := observe_cases hb
    rfl

/-- In every run, from any clock, with any intervals: every `Submit` is spaced from the last
accepted one; a step moves the window to the return of an accepted call or not at all; and a frame
is only dequeued when the interval that is read then has passed. -/
theorem rate_limit {t₀ : TimePoint} {as : List Action} {log : List Event} {x : Timed}
    (h : Timed.system.Run System.anyAction ⟨{ clock := t₀ }, {}⟩ as log x) :
    (∀ s ∈ x.timeline.starts, s.Spaced) ∧
    (∀ act y evs, x.step act = some (y, evs) →
      y.adapter.lastAcceptedSubmission = x.adapter.lastAcceptedSubmission ∨
        ∃ finish, x.timeline.lastFinish = some finish ∧
          x.adapter.worker.acceptedAt = some finish ∧
          y.adapter.lastAcceptedSubmission = finish) ∧
    (∀ interval now y evs f trailing, x.step (.wake interval now) = some (y, evs) →
      y.adapter.worker = .taken f trailing → ∀ finish, x.timeline.lastFinish = some finish →
        finish ≠ 0 → 0 < interval → finish + interval ≤ now) := by
  have hx := timely_of_run h
  refine ⟨hx.spaced, ?_, ?_⟩
  · intro act y evs hs
    obtain ⟨⟨b, evs'⟩, hb, heq⟩ := Option.map_eq_some_iff.mp hs
    obtain ⟨rfl, -⟩ := Prod.mk.inj heq
    rcases lastAccepted_step hx.thread hb with hsame | ⟨finish, hat, hmoved⟩
    · exact Or.inl hsame
    · have hwin := hx.window
      unfold Window at hwin
      rw [hat] at hwin
      exact Or.inr ⟨finish, hwin, hat, hmoved⟩
  · intro interval now y evs f trailing hs htaken finish hfinish hne hpos
    obtain ⟨⟨b, evs'⟩, hb, heq⟩ := Option.map_eq_some_iff.mp hs
    obtain ⟨rfl, -⟩ := Prod.mk.inj heq
    -- a frame is taken only where the rate limit does not hold it back
    obtain ⟨hw, hcases⟩ := wake_cases (System.eq_of_map hb).1
    have hlast := hx.window.of_none (by rw [hw]; rfl)
    rcases hcases with ⟨-, rfl⟩ | ⟨-, -, rfl⟩ | ⟨g, -, -, -, hd, rfl⟩
    · cases htaken
    · cases htaken
    · exact finish_add_le hd hlast hfinish hne hpos

/-- Two submissions under an interval of 10; the second frame is deferred, and replaced while the
worker waits. -/
def pacedRun (origin : TimePoint) : List Action :=
  let frame (n : Nat) : Frame :=
    { sequence := n, composeBuffer := some .portable, dirtyRect := Rect.full 2 2 }
  [.start, .enqueue (frame 1), .wake 10 origin, .submitStart origin, .submitReturn true origin,
    .record, .observe, .enqueue (frame 2), .wake 10 (origin + 3), .enqueue (frame 3),
    .rewake (origin + 10), .wake 10 (origin + 12), .submitStart (origin + 12)]

theorem rate_limit_of_pacedRun :
    ∃ x log, Timed.system.Run System.anyAction ⟨{ clock := 0 }, {}⟩ (pacedRun 5) log x ∧
      x.timeline.starts = [⟨17, 10, some 5⟩, ⟨5, 10, none⟩] ∧
      ∀ s ∈ x.timeline.starts, s.Spaced := by
  have hrun :=
    (System.Run.of_exec rfl : Timed.system.Run System.anyAction ⟨{ clock := 0 }, {}⟩ (pacedRun 5)
      _ _)
  exact ⟨_, _, hrun, rfl, (rate_limit hrun).1⟩

/-- A call that is accepted at the clock's origin does not open the window: the next one starts at
once. -/
theorem early_after_origin :
    ∃ x log, Timed.system.Run System.anyAction ⟨{ clock := 0 }, {}⟩
        [.start, .enqueue { composeBuffer := some .portable, dirtyRect := Rect.full 2 2 },
          .wake 10 0, .submitStart 0, .submitReturn true 0, .record, .observe,
          .enqueue { composeBuffer := some .portable, dirtyRect := Rect.full 2 2 }, .wake 10 1,
          .submitStart 1] log x ∧
      ∃ s ∈ x.timeline.starts, s.lastFinish = some 0 ∧ 0 < s.interval ∧
        ¬ 0 + s.interval ≤ s.start := by
  refine ⟨_, _, System.Run.of_exec rfl, ⟨1, 10, some 0⟩, List.mem_cons_self, rfl, ?_, ?_⟩
  · decide
  · decide

end EinkLab.PresentationAdapter
