import EinkLab.Frame.Frame
import EinkLab.Transition.Run

/-!
# The presentation adapter

`PresentationAdapter` (`eink_presentation_adapter.cpp`): a depth-one replaceable slot in front of
the serial engine worker.  Producers call `start`, `stop`, `enqueue` and the two cancellations;
each holds the adapter's mutex throughout, so each is one step.  The worker's steps are the
stretches of `WorkerMain` between the points where it releases the mutex or waits:

    waiting --wake--> deferred --rewake--> waiting          (rate limit)
    waiting --wake--> taken --submitStart--> submitting --submitReturn--> returned
            --record--> recorded --observe--> waiting

`WorkerPhase` is the worker's program counter together with its locals.  The interval provider's
value, the clock readings and the engine's answers are arguments of the actions: a run ranges over
all of them.  `clock` is the latest steady-clock reading; later readings are not before it.
-/

namespace EinkLab

open Transition

namespace PresentationAdapter

structure Diagnostics where
  enqueuesAccepted : Nat := 0
  pendingReplaced : Nat := 0
  pendingSleepImagesCancelled : Nat := 0
  trailingDeferred : Nat := 0
  trailingSubmitted : Nat := 0
  submitCalls : Nat := 0
  submitRejected : Nat := 0
  deriving DecidableEq, Repr

/-- Where the engine worker stands in `WorkerMain`, with the frame it holds. -/
inductive WorkerPhase
  | absent
  | waiting
  | deferred (eligibleAt : TimePoint)
  | taken (frame : Frame) (trailing : Bool)
  | submitting (frame : Frame) (trailing : Bool) (start : TimePoint)
  | returned (frame : Frame) (trailing accepted : Bool) (start finish : TimePoint)
  | recorded (frame : Frame) (accepted : Bool) (submitDuration : Duration)
  | exited
  deriving DecidableEq, Repr

end PresentationAdapter

/-- `PresentationAdapter::Impl` with its worker thread. -/
structure PresentationAdapter where
  pending : Option Frame := none
  diagnostics : PresentationAdapter.Diagnostics := {}
  lastAcceptedSubmission : TimePoint := 0
  pendingIsTrailing : Bool := false
  submitting : Bool := false
  started : Bool := false
  stopping : Bool := false
  worker : PresentationAdapter.WorkerPhase := .absent
  clock : TimePoint := 0
  deriving DecidableEq, Repr

namespace PresentationAdapter

/-! ### Producer calls -/

def start (a : PresentationAdapter) : PresentationAdapter :=
  if a.started then a
  else if a.stopping then a
  else { a with started := true, worker := .waiting }

def stop (a : PresentationAdapter) : PresentationAdapter :=
  if !a.started || a.stopping then a
  else { a with stopping := true, pending := none }

/-- A replaced pending frame hands its diagnostic request to an ordinary frame without one. -/
def followPending (frame pending : Frame) : Frame :=
  if frame.sleepImageEpoch = 0 ∧ frame.diagnosticRequest = 0 then frame.withDiagnosticOf pending
  else frame

/-- Whether `Enqueue` takes the frame: a live adapter, an understood payload and a valid
rectangle. -/
def accepts (a : PresentationAdapter) (frame : Frame) : Bool :=
  a.started && !a.stopping &&
    (frame.composeBuffer.isSome || frame.grayscaleBuffer.isSome) && frame.dirtyRect.isValid

def enqueue (a : PresentationAdapter) (frame : Frame) : Bool × PresentationAdapter :=
  if !a.accepts frame then (false, a)
  else
    match a.pending with
    | some old =>
      (true, { a with
        pending := some (followPending frame old)
        diagnostics := { a.diagnostics with
          pendingReplaced := a.diagnostics.pendingReplaced + 1
          enqueuesAccepted := a.diagnostics.enqueuesAccepted + 1 } })
    | none =>
      (true, { a with
        pending := some frame
        diagnostics := { a.diagnostics with
          enqueuesAccepted := a.diagnostics.enqueuesAccepted + 1 } })

def cancelPendingSleepImage (a : PresentationAdapter) (epoch : Nat) :
    Bool × PresentationAdapter :=
  if epoch = 0 then (false, a)
  else
    match a.pending with
    | none => (false, a)
    | some frame =>
      if frame.sleepImageEpoch ≠ epoch then (false, a)
      else
        (true, { a with
          pending := none
          pendingIsTrailing := false
          diagnostics := { a.diagnostics with
            pendingSleepImagesCancelled := a.diagnostics.pendingSleepImagesCancelled + 1 } })

def cancelPendingDiagnosticRefresh (a : PresentationAdapter) : Bool × PresentationAdapter :=
  match a.pending with
  | none => (false, a)
  | some frame =>
    if frame.diagnosticRequest = 0 then (false, a)
    else (true, { a with pending := some frame.clearDiagnostic })

/-! Each producer call either changes nothing or has one effect. -/

theorem enqueue_of_not_accepts {a : PresentationAdapter} {f : Frame} (h : a.accepts f = false) :
    a.enqueue f = (false, a) := by
  simp [enqueue, h]

theorem enqueue_of_accepts {a : PresentationAdapter} {f : Frame} (h : a.accepts f = true) :
    a.enqueue f = (true, { a with
      pending := some ((a.pending.map (followPending f)).getD f)
      diagnostics := { a.diagnostics with
        pendingReplaced := a.diagnostics.pendingReplaced + a.pending.toList.length
        enqueuesAccepted := a.diagnostics.enqueuesAccepted + 1 } }) := by
  unfold enqueue
  cases hp : a.pending <;> simp [h]

theorem enqueue_fst (a : PresentationAdapter) (f : Frame) : (a.enqueue f).1 = a.accepts f := by
  cases h : a.accepts f
  · rw [enqueue_of_not_accepts h]
  · rw [enqueue_of_accepts h]

theorem cancelPendingSleepImage_cases (a : PresentationAdapter) (epoch : Nat) :
    a.cancelPendingSleepImage epoch = (false, a) ∨
    ∃ f, a.pending = some f ∧ f.sleepImageEpoch = epoch ∧ epoch ≠ 0 ∧
      a.cancelPendingSleepImage epoch = (true, { a with
        pending := none
        pendingIsTrailing := false
        diagnostics := { a.diagnostics with
          pendingSleepImagesCancelled := a.diagnostics.pendingSleepImagesCancelled + 1 } }) := by
  unfold cancelPendingSleepImage
  by_cases he : epoch = 0
  · exact Or.inl (by simp [he])
  · cases hp : a.pending with
    | none => exact Or.inl (by simp [he])
    | some f =>
      by_cases hf : f.sleepImageEpoch = epoch
      · exact Or.inr ⟨f, rfl, hf, he, by simp [he, hf]⟩
      · exact Or.inl (by simp [he, hf])

theorem cancelPendingDiagnosticRefresh_cases (a : PresentationAdapter) :
    a.cancelPendingDiagnosticRefresh = (false, a) ∨
    ∃ f, a.pending = some f ∧ f.diagnosticRequest ≠ 0 ∧
      a.cancelPendingDiagnosticRefresh =
        (true, { a with pending := some f.clearDiagnostic }) := by
  unfold cancelPendingDiagnosticRefresh
  cases hp : a.pending with
  | none => exact Or.inl rfl
  | some f =>
    by_cases hf : f.diagnosticRequest = 0
    · exact Or.inl (by simp [hf])
    · exact Or.inr ⟨f, rfl, hf, by simp [hf]⟩

theorem start_cases (a : PresentationAdapter) :
    a.start = a ∨
      (a.started = false ∧ a.start = { a with started := true, worker := .waiting }) := by
  unfold start
  cases hs : a.started
  · cases ha : a.stopping
    · exact Or.inr ⟨rfl, by simp⟩
    · exact Or.inl (by simp)
  · exact Or.inl (by simp)

theorem stop_cases (a : PresentationAdapter) :
    a.stop = a ∧ (a.started = false ∨ a.stopping = true) ∨
    (a.started = true ∧ a.stopping = false ∧
      a.stop = { a with stopping := true, pending := none }) := by
  unfold stop
  cases hs : a.started <;> cases ha : a.stopping <;> simp

/-! ### The engine worker -/

/-- The rate limit holds the pending frame back at time `now`. -/
def isDeferred (a : PresentationAdapter) (interval : Duration) (now : TimePoint) : Prop :=
  a.lastAcceptedSubmission ≠ 0 ∧ interval > 0 ∧ now < a.lastAcceptedSubmission + interval

instance (a : PresentationAdapter) (interval : Duration) (now : TimePoint) :
    Decidable (a.isDeferred interval now) := inferInstanceAs (Decidable (_ ∧ _ ∧ _))

/-- The wait for a frame ends: the worker leaves when stopping, waits until the rate limit allows
the frame, or takes it. -/
def wake (a : PresentationAdapter) (interval : Duration) (now : TimePoint) :
    Option PresentationAdapter :=
  match a.worker with
  | .waiting =>
    if a.stopping then some { a with worker := .exited }
    else
      match a.pending with
      | none => none
      | some frame =>
        if now < a.clock then none
        else if a.isDeferred interval now then
          some { a with
            worker := .deferred (a.lastAcceptedSubmission + interval)
            clock := now
            pendingIsTrailing := true
            diagnostics :=
              if a.pendingIsTrailing then a.diagnostics
              else { a.diagnostics with
                trailingDeferred := a.diagnostics.trailingDeferred + 1 } }
        else
          some { a with
            worker := .taken frame a.pendingIsTrailing
            clock := now
            pending := none
            submitting := true
            pendingIsTrailing := false }
  | _ => none

/-- The rate-limit wait ends at its deadline or because of `Stop`; the loop starts over. -/
def rewake (a : PresentationAdapter) (now : TimePoint) : Option PresentationAdapter :=
  match a.worker with
  | .deferred eligibleAt =>
    if a.stopping then some { a with worker := .waiting }
    else if now < a.clock ∨ now < eligibleAt then none
    else some { a with worker := .waiting, clock := now }
  | _ => none

/-- The frame is handed to `Engine::Submit`. -/
def submitStart (a : PresentationAdapter) (now : TimePoint) : Option PresentationAdapter :=
  match a.worker with
  | .taken frame trailing =>
    if now < a.clock then none
    else some { a with worker := .submitting frame trailing now, clock := now }
  | _ => none

/-- `Engine::Submit` returns. -/
def submitReturn (a : PresentationAdapter) (accepted : Bool) (now : TimePoint) :
    Option PresentationAdapter :=
  match a.worker with
  | .submitting frame trailing start =>
    if now < a.clock then none
    else some { a with worker := .returned frame trailing accepted start now, clock := now }
  | _ => none

/-- The second critical section of `WorkerMain`: the outcome is counted. -/
def record (a : PresentationAdapter) : Option PresentationAdapter :=
  match a.worker with
  | .returned frame trailing accepted start finish =>
    some { a with
      worker := .recorded frame accepted (finish - start)
      submitting := false
      lastAcceptedSubmission := if accepted then finish else a.lastAcceptedSubmission
      diagnostics := { a.diagnostics with
        submitCalls := a.diagnostics.submitCalls + 1
        submitRejected := a.diagnostics.submitRejected + (if accepted then 0 else 1)
        trailingSubmitted :=
          a.diagnostics.trailingSubmitted + (if accepted && trailing then 1 else 0) } }
  | _ => none

/-- The submission observer has returned; the worker loops. -/
def observe (a : PresentationAdapter) : Option PresentationAdapter :=
  match a.worker with
  | .recorded _ _ _ => some { a with worker := .waiting }
  | _ => none

/-! ### The adapter as a labelled system -/

inductive Action
  | start
  | stop
  | enqueue (frame : Frame)
  | cancelPendingSleepImage (epoch : Nat)
  | cancelPendingDiagnosticRefresh
  | wake (interval : Duration) (now : TimePoint)
  | rewake (now : TimePoint)
  | submitStart (now : TimePoint)
  | submitReturn (accepted : Bool) (now : TimePoint)
  | record
  | observe
  deriving DecidableEq, Repr

/-- How a frame leaves the slot. -/
inductive Exit
  | taken | replaced | cancelled | discarded
  deriving DecidableEq, Repr

inductive Event
  /-- `Enqueue` returned true for this frame. -/
  | accepted (frame : Frame)
  /-- The slot's frame left it. -/
  | left (frame : Frame) (exit : Exit)
  /-- `Stop` set the stopping flag. -/
  | stopBegun
  /-- `Engine::Submit` returned for this frame and the call was counted. -/
  | submitted (frame : Frame) (accepted : Bool)
  deriving DecidableEq, Repr

/-- The slot's frame, if any, leaves it. -/
def leave (a : PresentationAdapter) (exit : Exit) : List Event :=
  a.pending.toList.map (Event.left · exit)

/-- The frame the worker took and whose `Submit` has not been counted yet, and whether it was
deferred by the rate limit. -/
def WorkerPhase.held : WorkerPhase → Option (Frame × Bool)
  | .taken frame trailing => some (frame, trailing)
  | .submitting frame trailing _ => some (frame, trailing)
  | .returned frame trailing _ _ _ => some (frame, trailing)
  | _ => none

def WorkerPhase.inFlight (w : WorkerPhase) : Option Frame := w.held.map Prod.fst

/-- The frame the worker has, up to the end of the observer's call. -/
def WorkerPhase.carried : WorkerPhase → Option Frame
  | .recorded frame _ _ => some frame
  | w => w.inFlight

/-- The adapter holds the frame: in its slot, or on its way to the engine and back. -/
def Holds (a : PresentationAdapter) (f : Frame) : Prop :=
  a.pending = some f ∨ a.worker.carried = some f

/-- The call that `record` counts. -/
def submission (a : PresentationAdapter) : List Event :=
  match a.worker with
  | .returned frame _ accepted _ _ => [.submitted frame accepted]
  | _ => []

def step (a : PresentationAdapter) : Action → Option (PresentationAdapter × List Event)
  | .start => some (a.start, [])
  | .stop =>
    some (a.stop, if !a.started || a.stopping then [] else .stopBegun :: a.leave .discarded)
  | .enqueue frame =>
    some ((a.enqueue frame).2,
      if (a.enqueue frame).1 then a.leave .replaced ++ [.accepted frame] else [])
  | .cancelPendingSleepImage epoch =>
    some ((a.cancelPendingSleepImage epoch).2,
      if (a.cancelPendingSleepImage epoch).1 then a.leave .cancelled else [])
  | .cancelPendingDiagnosticRefresh => some (a.cancelPendingDiagnosticRefresh.2, [])
  | .wake interval now =>
    (a.wake interval now).map fun a' =>
      (a', if a'.worker.inFlight.isSome then a.leave .taken else [])
  | .rewake now => (a.rewake now).map (·, [])
  | .submitStart now => (a.submitStart now).map (·, [])
  | .submitReturn accepted now => (a.submitReturn accepted now).map (·, [])
  | .record => a.record.map (·, a.submission)
  | .observe => a.observe.map (·, [])

def system : System PresentationAdapter Action Event where
  step := step

end PresentationAdapter

end EinkLab
