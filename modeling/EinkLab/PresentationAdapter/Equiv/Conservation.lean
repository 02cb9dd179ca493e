import EinkLab.PresentationAdapter.Equiv.Steps
import Mathlib.Data.List.Count

/-!
# Conservation and order in the presentation adapter

The log of a run records every accepted frame, every exit from the slot and every counted
submission.  `Conserved log a` says what the log and the state reached have to do with each other:

* the slot is a queue of depth one, so the `i`-th frame to leave it is the `i`-th accepted frame,
  and it leaves for exactly one reason (`exits`);
* what the worker took is what it submitted, in the same order, plus the frame in flight (`serial`);
* the diagnostic counters are the tallies of the log (`counted`), so the counter identity holds.

`Effect` classifies the steps; `conserved_step` is the step lemma and `conserved_of_run` the run
lemma.  An identical frame is the same up to the diagnostic request it carries, which replacement
and cancellation move or clear (`Frame.clearDiagnostic`).
-/

namespace EinkLab.PresentationAdapter

open Transition

/-! ### Reading the log -/

/-- The frames whose `Enqueue` returned true, oldest first. -/
def acceptedFrames (log : List Event) : List Frame :=
  log.filterMap fun | .accepted f => some f | _ => none

/-- The exits from the slot, oldest first. -/
def exits (log : List Event) : List (Frame × Exit) :=
  log.filterMap fun | .left f exit => some (f, exit) | _ => none

/-- The frames whose `Submit` was counted, oldest first. -/
def submittedFrames (log : List Event) : List Frame :=
  log.filterMap fun | .submitted f _ => some f | _ => none

/-- The frames that left the slot for the given reason, oldest first. -/
def leftBy (exit : Exit) (log : List Event) : List Frame :=
  log.filterMap fun | .left f e => if e = exit then some f else none | _ => none

@[simp] theorem acceptedFrames_append (l l' : List Event) :
    acceptedFrames (l ++ l') = acceptedFrames l ++ acceptedFrames l' := List.filterMap_append

@[simp] theorem exits_append (l l' : List Event) : exits (l ++ l') = exits l ++ exits l' :=
  List.filterMap_append

@[simp] theorem submittedFrames_append (l l' : List Event) :
    submittedFrames (l ++ l') = submittedFrames l ++ submittedFrames l' := List.filterMap_append

@[simp] theorem leftBy_append (exit : Exit) (l l' : List Event) :
    leftBy exit (l ++ l') = leftBy exit l ++ leftBy exit l' := List.filterMap_append

theorem leftBy_eq_filter_exits (exit : Exit) (log : List Event) :
    leftBy exit log = ((exits log).filter fun x => x.2 = exit).map Prod.fst := by
  induction log with
  | nil => rfl
  | cons e log ih =>
    rw [← List.singleton_append, leftBy_append, exits_append, List.filter_append, List.map_append,
      ih]
    congr 1
    cases e with
    | left f exit' => by_cases he : exit' = exit <;> simp [exits, leftBy, he]
    | accepted f => rfl
    | stopBegun => rfl
    | submitted f ok => rfl

/-- Every exit has exactly one reason. -/
theorem length_exits (log : List Event) :
    (exits log).length = (leftBy .taken log).length + (leftBy .replaced log).length +
      (leftBy .cancelled log).length + (leftBy .discarded log).length := by
  induction log with
  | nil => rfl
  | cons e log ih =>
    rw [← List.singleton_append, exits_append, List.length_append, ih]
    simp only [leftBy_append, List.length_append]
    cases e with
    | left f exit => cases exit <;> simp [exits, leftBy] <;> omega
    | accepted f => simp [exits, leftBy]
    | stopBegun => simp [exits, leftBy]
    | submitted f b => simp [exits, leftBy]

/-! ### What a step does -/

/-- The effect of a step on the slot, the frame in flight, the trailing flag, the counters and the
stopping flag, with the events it emits. -/
inductive Effect (a a' : PresentationAdapter) : List Event → Prop
  /-- Nothing moves; at most the pending frame loses its diagnostic request. -/
  | quiet (hp : a'.pending.map Frame.clearDiagnostic = a.pending.map Frame.clearDiagnostic)
      (hw : a'.worker.held = a.worker.held) (ht : a'.pendingIsTrailing = a.pendingIsTrailing)
      (hd : a'.diagnostics = a.diagnostics) (hs : a'.stopping = a.stopping) : Effect a a' []
  /-- The rate limit holds the pending frame back. -/
  | deferred (hp : a'.pending = a.pending) (hw : a'.worker.held = a.worker.held)
      (ht : a'.pendingIsTrailing = true)
      (hd : a'.diagnostics = { a.diagnostics with
        trailingDeferred := a.diagnostics.trailingDeferred + (!a.pendingIsTrailing).toNat })
      (hs : a'.stopping = a.stopping) : Effect a a' []
  | accepted (f : Frame) (hp : a'.pending.map Frame.clearDiagnostic = some f.clearDiagnostic)
      (hw : a'.worker.held = a.worker.held) (ht : a'.pendingIsTrailing = a.pendingIsTrailing)
      (hd : a'.diagnostics = { a.diagnostics with
        pendingReplaced := a.diagnostics.pendingReplaced + a.pending.toList.length
        enqueuesAccepted := a.diagnostics.enqueuesAccepted + 1 })
      (hs : a'.stopping = a.stopping) : Effect a a' (a.leave .replaced ++ [.accepted f])
  | cancelled (f : Frame) (hf : a.pending = some f) (hp : a'.pending = none)
      (hw : a'.worker.held = a.worker.held) (ht : a'.pendingIsTrailing = false)
      (hd : a'.diagnostics = { a.diagnostics with
        pendingSleepImagesCancelled := a.diagnostics.pendingSleepImagesCancelled + 1 })
      (hs : a'.stopping = a.stopping) : Effect a a' (a.leave .cancelled)
  | stopped (hp : a'.pending = none) (hw : a'.worker.held = a.worker.held)
      (ht : a'.pendingIsTrailing = a.pendingIsTrailing) (hd : a'.diagnostics = a.diagnostics)
      (hlive : a.stopping = false) (hs : a'.stopping = true) :
        Effect a a' (.stopBegun :: a.leave .discarded)
  | taken (f : Frame) (hf : a.pending = some f) (hp : a'.pending = none)
      (hidle : a.worker.held = none) (hw : a'.worker.held = some (f, a.pendingIsTrailing))
      (ht : a'.pendingIsTrailing = false) (hd : a'.diagnostics = a.diagnostics)
      (hlive : a.stopping = false) (hs : a'.stopping = false) : Effect a a' (a.leave .taken)
  | recorded (f : Frame) (trailing ok : Bool) (hp : a'.pending = a.pending)
      (hf : a.worker.held = some (f, trailing)) (hw : a'.worker.held = none)
      (ht : a'.pendingIsTrailing = a.pendingIsTrailing)
      (hd : a'.diagnostics = { a.diagnostics with
        submitCalls := a.diagnostics.submitCalls + 1
        submitRejected := a.diagnostics.submitRejected + (if ok then 0 else 1)
        trailingSubmitted :=
          a.diagnostics.trailingSubmitted + (if ok && trailing then 1 else 0) })
      (hs : a'.stopping = a.stopping) : Effect a a' [.submitted f ok]

theorem effect_enqueue {a a' : PresentationAdapter} {f : Frame} {evs : List Event}
    (h : a.step (.enqueue f) = some (a', evs)) : Effect a a' evs := by
  obtain ⟨rfl, rfl⟩ := Prod.mk.inj (Option.some.inj h)
  cases hacc : a.accepts f with
  | false =>
    rw [enqueue_of_not_accepts hacc]
    exact .quiet rfl rfl rfl rfl rfl
  | true =>
    rw [enqueue_of_accepts hacc]
    refine .accepted f ?_ rfl rfl rfl rfl
    cases a.pending with
    | none => rfl
    | some old =>
      simp only [Option.map_some, Option.getD_some, followPending]
      split <;> rfl

theorem effect_cancelPendingSleepImage {a a' : PresentationAdapter} {epoch : Nat}
    {evs : List Event} (h : a.step (.cancelPendingSleepImage epoch) = some (a', evs)) :
    Effect a a' evs := by
  obtain ⟨rfl, rfl⟩ := Prod.mk.inj (Option.some.inj h)
  rcases cancelPendingSleepImage_cases a epoch with heq | ⟨f, hf, -, -, heq⟩ <;> rw [heq]
  · exact .quiet rfl rfl rfl rfl rfl
  · exact .cancelled f hf rfl rfl rfl rfl rfl

theorem effect_wake {a a' : PresentationAdapter} {interval : Duration} {now : TimePoint}
    {evs : List Event} (h : a.step (.wake interval now) = some (a', evs)) :
    Effect a a' evs := by
  obtain ⟨hs, rfl⟩ := System.eq_of_map h
  obtain ⟨hw, hcases⟩ := wake_cases hs
  have hidle : a.worker.held = none := by rw [hw]; rfl
  rcases hcases with ⟨-, rfl⟩ | ⟨-, -, rfl⟩ | ⟨f, hf, hlive, -, -, rfl⟩
  · exact .quiet rfl hidle.symm rfl rfl rfl
  · refine .deferred rfl hidle.symm rfl ?_ rfl
    cases a.pendingIsTrailing <;> simp
  · exact .taken f hf rfl hidle rfl rfl rfl hlive hlive

/-- Before `Start` there is no worker thread. -/
def Threaded (a : PresentationAdapter) : Prop := a.worker ≠ .absent → a.started = true

/-- Every step has one of the effects. -/
theorem effect_of_step {a a' : PresentationAdapter} {act : Action} {evs : List Event}
    (hthread : Threaded a) (h : a.step act = some (a', evs)) : Effect a a' evs := by
  cases act with
  | start =>
    obtain ⟨rfl, rfl⟩ := Prod.mk.inj (Option.some.inj h)
    rcases start_cases a with heq | ⟨hs, heq⟩ <;> rw [heq]
    · exact .quiet rfl rfl rfl rfl rfl
    · -- before the start there is no worker
      have hw : a.worker = .absent := by_contra fun hw => by simp [hthread hw] at hs
      exact .quiet rfl (by simp [hw, WorkerPhase.held]) rfl rfl rfl
  | stop =>
    obtain ⟨rfl, rfl⟩ := Prod.mk.inj (Option.some.inj h)
    rcases stop_cases a with ⟨heq, hs⟩ | ⟨hs, hlive, heq⟩ <;> rw [heq]
    · rw [if_pos (by simpa using hs)]
      exact .quiet rfl rfl rfl rfl rfl
    · rw [if_neg (by simp [hs, hlive])]
      exact .stopped rfl rfl rfl rfl hlive rfl
  | enqueue f => exact effect_enqueue h
  | cancelPendingSleepImage e => exact effect_cancelPendingSleepImage h
  | cancelPendingDiagnosticRefresh =>
    obtain ⟨rfl, rfl⟩ := Prod.mk.inj (Option.some.inj h)
    rcases cancelPendingDiagnosticRefresh_cases a with heq | ⟨f, hf, -, heq⟩ <;> rw [heq]
    · exact .quiet rfl rfl rfl rfl rfl
    · exact .quiet (by simp [hf]; rfl) rfl rfl rfl rfl
  | wake interval now => exact effect_wake h
  | rewake now =>
    obtain ⟨hs, rfl⟩ := System.eq_of_map h
    obtain ⟨_, hw, rfl | ⟨-, -, rfl⟩⟩ := rewake_cases hs
    · exact .quiet rfl (by rw [hw]; rfl) rfl rfl rfl
    · exact .quiet rfl (by rw [hw]; rfl) rfl rfl rfl
  | submitStart now =>
    obtain ⟨hs, rfl⟩ := System.eq_of_map h
    obtain ⟨_, _, hw, -, rfl⟩ := submitStart_cases hs
    exact .quiet rfl (by rw [hw]; rfl) rfl rfl rfl
  | submitReturn ok now =>
    obtain ⟨hs, rfl⟩ := System.eq_of_map h
    obtain ⟨_, _, _, hw, -, rfl⟩ := submitReturn_cases hs
    exact .quiet rfl (by rw [hw]; rfl) rfl rfl rfl
  | record =>
    obtain ⟨hs, rfl⟩ := System.eq_of_map h
    obtain ⟨f, trailing, ok, _, _, hw, rfl⟩ := record_cases hs
    -- the frame and its answer are what this step logs
    have hsubmission : a.submission = [.submitted f ok] := by
      unfold submission
      rw [hw]
    rw [hsubmission]
    exact .recorded f trailing ok rfl (by rw [hw]; rfl) rfl rfl rfl rfl
  | observe =>
    obtain ⟨hs, rfl⟩ := System.eq_of_map h
    obtain ⟨_, _, _, hw, rfl⟩ := observe_cases hs
    exact .quiet rfl (by rw [hw]; rfl) rfl rfl rfl

/-- The worker's own steps belong to a running thread and leave `started` alone. -/
theorem threaded_step {a a' : PresentationAdapter} {act : Action} {evs : List Event}
    (hthread : Threaded a) (h : a.step act = some (a', evs)) : Threaded a' := by
  cases act with
  | start =>
    obtain ⟨rfl, -⟩ := Prod.mk.inj (Option.some.inj h)
    rcases start_cases a with heq | ⟨hs, heq⟩ <;> rw [heq]
    · exact hthread
    · exact fun _ => rfl
  | stop =>
    obtain ⟨rfl, -⟩ := Prod.mk.inj (Option.some.inj h)
    rcases stop_cases a with ⟨heq, -⟩ | ⟨hs, -, heq⟩ <;> rw [heq]
    · exact hthread
    · exact fun _ => hs
  | enqueue f =>
    obtain ⟨rfl, -⟩ := Prod.mk.inj (Option.some.inj h)
    cases hacc : a.accepts f with
    | false => rw [enqueue_of_not_accepts hacc]; exact hthread
    | true => rw [enqueue_of_accepts hacc]; exact hthread
  | cancelPendingSleepImage e =>
    obtain ⟨rfl, -⟩ := Prod.mk.inj (Option.some.inj h)
    rcases cancelPendingSleepImage_cases a e with heq | ⟨f, -, -, -, heq⟩ <;> rw [heq] <;>
      exact hthread
  | cancelPendingDiagnosticRefresh =>
    obtain ⟨rfl, -⟩ := Prod.mk.inj (Option.some.inj h)
    rcases cancelPendingDiagnosticRefresh_cases a with heq | ⟨f, -, -, heq⟩ <;> rw [heq] <;>
      exact hthread
  | wake interval now =>
    obtain ⟨hw, hcases⟩ := wake_cases (System.eq_of_map h).1
    have hs := hthread (by rw [hw]; exact nofun)
    rcases hcases with ⟨-, rfl⟩ | ⟨-, -, rfl⟩ | ⟨_, -, -, -, -, rfl⟩ <;> exact fun _ => hs
  | rewake now =>
    obtain ⟨_, hw, rfl | ⟨-, -, rfl⟩⟩ := rewake_cases (System.eq_of_map h).1
    · exact fun _ => hthread (by rw [hw]; exact nofun)
    · exact fun _ => hthread (by rw [hw]; exact nofun)
  | submitStart now =>
    obtain ⟨_, _, hw, -, rfl⟩ := submitStart_cases (System.eq_of_map h).1
    exact fun _ => hthread (by rw [hw]; exact nofun)
  | submitReturn ok now =>
    obtain ⟨_, _, _, hw, -, rfl⟩ := submitReturn_cases (System.eq_of_map h).1
    exact fun _ => hthread (by rw [hw]; exact nofun)
  | record =>
    obtain ⟨_, _, _, _, _, hw, rfl⟩ := record_cases (System.eq_of_map h).1
    exact fun _ => hthread (by rw [hw]; exact nofun)
  | observe =>
    obtain ⟨_, _, _, hw, rfl⟩ := observe_cases (System.eq_of_map h).1
    exact fun _ => hthread (by rw [hw]; exact nofun)

/-! ### The invariant -/

/-- A frame is only taken when it is the newest accepted one. -/
def TakesNewest (pre : List Event) (e : Event) : Prop :=
  ∀ f, e = .left f .taken →
    ((acceptedFrames pre).map Frame.clearDiagnostic).getLast? = some f.clearDiagnostic

/-- Nothing is taken once `Stop` has begun. -/
def TakesBeforeStop (pre : List Event) (e : Event) : Prop :=
  ∀ f, e = .left f .taken → .stopBegun ∉ pre

/-- The counters are the tallies of the log. -/
structure Counted (log : List Event) (d : Diagnostics) : Prop where
  enqueuesAccepted : d.enqueuesAccepted = (acceptedFrames log).length
  pendingReplaced : d.pendingReplaced = (leftBy .replaced log).length
  pendingSleepImagesCancelled : d.pendingSleepImagesCancelled = (leftBy .cancelled log).length
  submitCalls : d.submitCalls = (submittedFrames log).length

/-- What the log of a run says about the state it reached. -/
structure Conserved (log : List Event) (a : PresentationAdapter) : Prop where
  /-- The `i`-th exit from the slot is the `i`-th accepted frame; what is left is pending. -/
  exits : (acceptedFrames log).map Frame.clearDiagnostic =
    (exits log).map (fun x => x.1.clearDiagnostic) ++
      a.pending.toList.map Frame.clearDiagnostic
  /-- Submits are serial and in the order in which the frames were taken. -/
  serial : leftBy .taken log = submittedFrames log ++ a.worker.inFlight.toList
  newest : EachEvent TakesNewest log
  beforeStop : EachEvent TakesBeforeStop log
  stopping : Event.stopBegun ∈ log → a.stopping = true
  /-- `Stop` discards one frame at most. -/
  discarded : (leftBy .discarded log).length ≤ a.stopping.toNat
  counted : Counted log a.diagnostics
  /-- Every deferral that is still to be submitted has been counted. -/
  trailing : a.diagnostics.trailingSubmitted + a.pendingIsTrailing.toNat +
    (a.worker.held.map fun x => x.2.toNat).getD 0 ≤ a.diagnostics.trailingDeferred

theorem conserved_init : Conserved [] {} where
  exits := rfl
  serial := rfl
  newest := eachEvent_nil _
  beforeStop := eachEvent_nil _
  stopping := by simp
  discarded := Nat.le_refl _
  counted := ⟨rfl, rfl, rfl, rfl⟩
  trailing := Nat.le_refl _

theorem leave_some {a : PresentationAdapter} {f : Frame} (hf : a.pending = some f) (exit : Exit) :
    a.leave exit = [.left f exit] := by
  simp [leave, hf]

theorem leave_none {a : PresentationAdapter} (hf : a.pending = none) (exit : Exit) :
    a.leave exit = [] := by
  simp [leave, hf]

theorem inFlight_congr {w w' : WorkerPhase} (h : w'.held = w.held) : w'.inFlight = w.inFlight :=
  congrArg (Option.map Prod.fst) h

/-- Only a `taken` exit is constrained. -/
theorem eachEvent_append_of_ne_taken {log : List Event} {e : Event}
    (he : ∀ f, e ≠ .left f .taken) (hn : EachEvent TakesNewest log)
    (hb : EachEvent TakesBeforeStop log) :
    EachEvent TakesNewest (log ++ [e]) ∧ EachEvent TakesBeforeStop (log ++ [e]) :=
  ⟨eachEvent_append_singleton.mpr ⟨hn, fun f hf => absurd hf (he f)⟩,
    eachEvent_append_singleton.mpr ⟨hb, fun f hf => absurd hf (he f)⟩⟩

namespace Conserved

variable {log : List Event} {a a' : PresentationAdapter}

/-- The newest accepted frame is the pending one. -/
theorem newest_pending {f : Frame} (h : Conserved log a) (hf : a.pending = some f) :
    ((acceptedFrames log).map Frame.clearDiagnostic).getLast? = some f.clearDiagnostic := by
  rw [h.exits, hf]
  simp

/-- A pending frame leaves the slot without reaching the worker; `d` is how this is counted. -/
theorem leave {f : Frame} {exit : Exit} {d : Diagnostics} (h : Conserved log a)
    (hf : a.pending = some f) (hexit : exit ≠ .taken)
    (hd : Counted (log ++ [.left f exit]) d)
    (hdis : (leftBy .discarded (log ++ [.left f exit])).length ≤ a'.stopping.toNat)
    (hp : a'.pending = none) (hw : a'.worker.held = a.worker.held)
    (ht : a'.pendingIsTrailing.toNat ≤ a.pendingIsTrailing.toNat)
    (hs : a.stopping = true → a'.stopping = true) (hd' : a'.diagnostics = d)
    (htd : d.trailingDeferred = a.diagnostics.trailingDeferred ∧
      d.trailingSubmitted = a.diagnostics.trailingSubmitted) :
    Conserved (log ++ [.left f exit]) a' := by
  have hne : ∀ g, Event.left f exit ≠ .left g .taken := by
    intro g heq
    exact hexit (Event.left.inj heq).2
  obtain ⟨hn, hb⟩ := eachEvent_append_of_ne_taken hne h.newest h.beforeStop
  have htrail := h.trailing
  constructor
  case exits =>
    rw [exits_append, acceptedFrames_append, List.map_append, h.exits, hf, hp]
    simp [acceptedFrames, PresentationAdapter.exits]
  case serial =>
    rw [leftBy_append, submittedFrames_append, h.serial, inFlight_congr hw]
    simp [leftBy, submittedFrames, hexit]
  case newest => exact hn
  case beforeStop => exact hb
  case stopping =>
    intro hmem
    exact hs (h.stopping (by simpa using hmem))
  case discarded => exact hdis
  case counted => exact hd' ▸ hd
  case trailing =>
    rw [hd', hw, htd.1, htd.2]
    omega

/-- Nothing has been discarded before `Stop`. -/
theorem no_discard (h : Conserved log a) (hlive : a.stopping = false) :
    leftBy .discarded log = [] := by
  have hdis := h.discarded
  rw [hlive] at hdis
  exact List.eq_nil_of_length_eq_zero (Nat.le_zero.mp hdis)

/-- `Stop` sets the flag; the slot is emptied afterwards. -/
theorem raiseStop (h : Conserved log a) (hlive : a.stopping = false) :
    Conserved (log ++ [.stopBegun]) { a with stopping := true } := by
  have hne : ∀ g, Event.stopBegun ≠ .left g .taken := by simp
  obtain ⟨hn, hb⟩ := eachEvent_append_of_ne_taken hne h.newest h.beforeStop
  obtain ⟨hc₁, hc₂, hc₃, hc₄⟩ := h.counted
  constructor
  case exits => simpa [acceptedFrames, PresentationAdapter.exits] using h.exits
  case serial => simpa [leftBy, submittedFrames] using h.serial
  case newest => exact hn
  case beforeStop => exact hb
  case stopping => exact fun _ => rfl
  case discarded =>
    rw [leftBy_append, h.no_discard hlive]
    simp [leftBy]
  case counted => constructor <;> simp [hc₁, hc₂, hc₃, hc₄, acceptedFrames, leftBy, submittedFrames]
  case trailing => exact h.trailing

/-- An empty slot takes a new frame. -/
theorem accept {f : Frame} (h : Conserved log a) (hempty : a.pending = none)
    (hp : a'.pending.map Frame.clearDiagnostic = some f.clearDiagnostic)
    (hw : a'.worker.held = a.worker.held) (ht : a'.pendingIsTrailing = a.pendingIsTrailing)
    (hd : a'.diagnostics = { a.diagnostics with
      enqueuesAccepted := a.diagnostics.enqueuesAccepted + 1 })
    (hs : a'.stopping = a.stopping) : Conserved (log ++ [.accepted f]) a' := by
  have hne : ∀ g, Event.accepted f ≠ .left g .taken := by simp
  obtain ⟨hn, hb⟩ := eachEvent_append_of_ne_taken hne h.newest h.beforeStop
  have hp' : a'.pending.toList.map Frame.clearDiagnostic = [f.clearDiagnostic] := by
    rw [← Option.toList_map, hp, Option.toList_some]
  obtain ⟨hc₁, hc₂, hc₃, hc₄⟩ := h.counted
  constructor
  case exits =>
    rw [acceptedFrames_append, List.map_append, h.exits, hempty, hp']
    simp [acceptedFrames, PresentationAdapter.exits]
  case serial =>
    rw [leftBy_append, submittedFrames_append, h.serial, inFlight_congr hw]
    simp [leftBy, submittedFrames]
  case newest => exact hn
  case beforeStop => exact hb
  case stopping =>
    intro hmem
    rw [hs]
    exact h.stopping (by simpa using hmem)
  case discarded =>
    rw [hs, leftBy_append]
    simpa [leftBy] using h.discarded
  case counted =>
    rw [hd]
    constructor <;> simp [hc₁, hc₂, hc₃, hc₄, acceptedFrames, leftBy, submittedFrames]
  case trailing =>
    rw [hd, ht, hw]
    exact h.trailing

/-- The idle worker takes the pending frame, and with it the trailing flag. -/
theorem take {f : Frame} (h : Conserved log a) (hf : a.pending = some f)
    (hp : a'.pending = none) (hidle : a.worker.held = none)
    (hw : a'.worker.held = some (f, a.pendingIsTrailing)) (ht : a'.pendingIsTrailing = false)
    (hd : a'.diagnostics = a.diagnostics) (hlive : a.stopping = false)
    (hs : a'.stopping = false) : Conserved (log ++ [.left f .taken]) a' := by
  obtain ⟨hc₁, hc₂, hc₃, hc₄⟩ := h.counted
  have htrail := h.trailing
  have hstop : Event.stopBegun ∉ log := by
    intro hmem
    simp [h.stopping hmem] at hlive
  refine ⟨?_, ?_, eachEvent_append_singleton.mpr ⟨h.newest, fun g hg => ?_⟩,
    eachEvent_append_singleton.mpr ⟨h.beforeStop, fun _ _ => hstop⟩, ?_, ?_, ?_, ?_⟩
  · rw [exits_append, acceptedFrames_append, List.map_append, h.exits, hf, hp]
    simp [acceptedFrames, PresentationAdapter.exits]
  · rw [leftBy_append, submittedFrames_append, h.serial, WorkerPhase.inFlight, hidle,
      WorkerPhase.inFlight, hw]
    simp [leftBy, submittedFrames]
  · obtain rfl := (Event.left.inj hg).1
    exact h.newest_pending hf
  · intro hmem
    exact absurd (by simpa using hmem) hstop
  · rw [hs, leftBy_append]
    have := h.discarded
    rw [hlive] at this
    simpa [leftBy] using this
  · rw [hd]
    constructor <;> simp [hc₁, hc₂, hc₃, hc₄, acceptedFrames, leftBy, submittedFrames]
  · rw [hd, ht, hw]
    rw [hidle] at htrail
    simpa using htrail

/-- The worker counts the outcome of the frame in flight. -/
theorem record {f : Frame} {trailing ok : Bool} (h : Conserved log a)
    (hf : a.worker.held = some (f, trailing)) (hp : a'.pending = a.pending)
    (hw : a'.worker.held = none) (ht : a'.pendingIsTrailing = a.pendingIsTrailing)
    (hd : a'.diagnostics = { a.diagnostics with
      submitCalls := a.diagnostics.submitCalls + 1
      submitRejected := a.diagnostics.submitRejected + (if ok then 0 else 1)
      trailingSubmitted := a.diagnostics.trailingSubmitted + (if ok && trailing then 1 else 0) })
    (hs : a'.stopping = a.stopping) : Conserved (log ++ [.submitted f ok]) a' := by
  have hne : ∀ g, Event.submitted f ok ≠ .left g .taken := by simp
  obtain ⟨hn, hb⟩ := eachEvent_append_of_ne_taken hne h.newest h.beforeStop
  obtain ⟨hc₁, hc₂, hc₃, hc₄⟩ := h.counted
  have htrail := h.trailing
  constructor
  case exits =>
    rw [exits_append, acceptedFrames_append, List.map_append, h.exits, hp]
    simp [acceptedFrames, PresentationAdapter.exits]
  case serial =>
    rw [leftBy_append, submittedFrames_append, h.serial, WorkerPhase.inFlight, hf,
      WorkerPhase.inFlight, hw]
    simp [leftBy, submittedFrames]
  case newest => exact hn
  case beforeStop => exact hb
  case stopping =>
    intro hmem
    rw [hs]
    exact h.stopping (by simpa using hmem)
  case discarded =>
    rw [hs, leftBy_append]
    simpa [leftBy] using h.discarded
  case counted =>
    rw [hd]
    constructor <;> simp [hc₁, hc₂, hc₃, hc₄, acceptedFrames, leftBy, submittedFrames]
  case trailing =>
    -- a deferred frame moves from "held" to "submitted" if the engine took it
    rw [hd, ht, hw]
    rw [hf] at htrail
    simp only [Option.map_some, Option.getD_some, Option.map_none, Option.getD_none] at htrail ⊢
    cases ok <;> cases trailing <;> simp at htrail ⊢ <;> omega

/-- The rate limit defers the pending frame; the flag is raised and the deferral counted. -/
theorem defer (h : Conserved log a) (hp : a'.pending = a.pending)
    (hw : a'.worker.held = a.worker.held) (ht : a'.pendingIsTrailing = true)
    (hd : a'.diagnostics = { a.diagnostics with
      trailingDeferred := a.diagnostics.trailingDeferred + (!a.pendingIsTrailing).toNat })
    (hs : a'.stopping = a.stopping) : Conserved log a' := by
  obtain ⟨hc₁, hc₂, hc₃, hc₄⟩ := h.counted
  have htrail := h.trailing
  refine ⟨by rw [h.exits, hp], by rw [h.serial, inFlight_congr hw], h.newest, h.beforeStop,
    by rw [hs]; exact h.stopping, by rw [hs]; exact h.discarded,
    by rw [hd]; exact ⟨hc₁, hc₂, hc₃, hc₄⟩, ?_⟩
  rw [hd, ht, hw]
  cases hpt : a.pendingIsTrailing <;> rw [hpt] at htrail <;>
    simp only [Bool.toNat_true, Bool.toNat_false, Bool.not_true, Bool.not_false] at htrail ⊢ <;>
    omega

end Conserved

/-- **Step lemma**: every effect keeps the invariant. -/
theorem conserved_effect {log evs : List Event} {a a' : PresentationAdapter}
    (h : Conserved log a) (he : Effect a a' evs) : Conserved (log ++ evs) a' := by
  obtain ⟨hc₁, hc₂, hc₃, hc₄⟩ := h.counted
  cases he with
  | quiet hp hw ht hd hs =>
    have hp' := congrArg Option.toList hp
    simp only [Option.toList_map] at hp'
    rw [List.append_nil]
    exact ⟨by rw [h.exits, hp'], by rw [h.serial, inFlight_congr hw], h.newest, h.beforeStop,
      by rw [hs]; exact h.stopping, by rw [hs]; exact h.discarded, by rw [hd]; exact h.counted,
      by rw [hd, ht, hw]; exact h.trailing⟩
  | deferred hp hw ht hd hs =>
    rw [List.append_nil]
    exact h.defer hp hw ht hd hs
  | accepted f hp hw ht hd hs =>
    cases hpend : a.pending with
    | none =>
      rw [leave_none hpend, List.nil_append]
      exact h.accept hpend hp hw ht (by simpa [hpend] using hd) hs
    | some old =>
      -- the old frame leaves, then the empty slot takes the new one
      rw [leave_some hpend, ← List.append_assoc]
      let b : PresentationAdapter := { a with
        pending := none
        diagnostics := { a.diagnostics with
          pendingReplaced := a.diagnostics.pendingReplaced + 1 } }
      have hb : Conserved (log ++ [.left old .replaced]) b := by
        refine h.leave (d := b.diagnostics) hpend (by simp) ?_ ?_ rfl rfl (Nat.le_refl _) id rfl
          ⟨rfl, rfl⟩
        · constructor <;> simp [b, hc₁, hc₂, hc₃, hc₄, acceptedFrames, leftBy, submittedFrames]
        · simpa [leftBy] using h.discarded
      exact hb.accept rfl hp hw ht (by simpa [hpend] using hd) hs
  | cancelled f hf hp hw ht hd hs =>
    rw [leave_some hf]
    refine h.leave hf (by simp) ?_ ?_ hp hw (by simp [ht]) (by simp [hs]) hd ⟨rfl, rfl⟩
    · constructor <;> simp [hc₁, hc₂, hc₃, hc₄, acceptedFrames, leftBy, submittedFrames]
    · rw [hs]
      simpa [leftBy] using h.discarded
  | stopped hp hw ht hd hlive hs =>
    have hb := h.raiseStop hlive
    rw [← List.singleton_append, ← List.append_assoc]
    cases hpend : a.pending with
    | none =>
      rw [leave_none hpend, List.append_nil]
      exact ⟨by rw [hb.exits, hp]; simp [hpend], by rw [hb.serial, inFlight_congr hw],
        hb.newest, hb.beforeStop, fun _ => hs, by rw [hs]; exact hb.discarded,
        by rw [hd]; exact hb.counted, by rw [hd, ht, hw]; exact hb.trailing⟩
    | some f =>
      rw [leave_some hpend]
      refine hb.leave hpend (by simp) ?_ ?_ hp hw (by simp [ht]) (fun _ => hs) hd ⟨rfl, rfl⟩
      · constructor <;> simp [hc₁, hc₂, hc₃, hc₄, acceptedFrames, leftBy, submittedFrames]
      · rw [hs, leftBy_append, leftBy_append, h.no_discard hlive]
        simp [leftBy]
  | taken f hf hp hidle hw ht hd hlive hs =>
    rw [leave_some hf]
    exact h.take hf hp hidle hw ht hd hlive hs
  | recorded f trailing ok hp hf hw ht hd hs => exact h.record hf hp hw ht hd hs

/-! ### Runs -/

variable {as : List Action} {log : List Event} {a : PresentationAdapter}

/-- **Run lemma**: the log of every run conserves the frames. -/
theorem conserved_of_run (h : system.Run System.anyAction {} as log a) : Conserved log a := by
  have hrun : Threaded a ∧ Conserved log a := by
    refine h.induct (fun _ log a => Threaded a ∧ Conserved log a) ⟨?_, conserved_init⟩ ?_
    · intro hw
      simp at hw
    · rintro _ log t act u evs ⟨hthread, hc⟩ - hstep
      exact ⟨threaded_step hthread hstep, conserved_effect hc (effect_of_step hthread hstep)⟩
  exact hrun.2

namespace Conserved

/-- The submitted frames are accepted frames in the order of acceptance. -/
theorem submitted_sublist (h : Conserved log a) :
    ((submittedFrames log).map Frame.clearDiagnostic).Sublist
      ((acceptedFrames log).map Frame.clearDiagnostic) := by
  have htaken : ((leftBy .taken log).map Frame.clearDiagnostic).Sublist
      ((PresentationAdapter.exits log).map fun x => x.1.clearDiagnostic) := by
    rw [leftBy_eq_filter_exits, List.map_map]
    exact (List.filter_sublist).map _
  rw [h.exits]
  refine (List.Sublist.trans ?_ htaken).trans (List.sublist_append_left _ _)
  rw [h.serial, List.map_append]
  exact List.sublist_append_left _ _

/-- The counter identity. -/
theorem identity (h : Conserved log a) :
    a.diagnostics.enqueuesAccepted = a.diagnostics.pendingReplaced +
      a.diagnostics.pendingSleepImagesCancelled + a.diagnostics.submitCalls +
      a.worker.inFlight.toList.length + a.pending.toList.length +
      (leftBy .discarded log).length := by
  have hexits := congrArg List.length h.exits
  have hserial := congrArg List.length h.serial
  obtain ⟨hc₁, hc₂, hc₃, hc₄⟩ := h.counted
  simp only [List.length_map, List.length_append, length_exits] at hexits hserial
  omega

end Conserved

/-- **Conservation and order**: in every run of the adapter the frames leave the slot in the order
in which they were accepted, each for one reason; the worker submits what it took, one after the
other; it takes only the newest frame and nothing after `Stop` has begun; the counters agree. -/
theorem adapter_conserves_frames (h : system.Run System.anyAction {} as log a) :
    (acceptedFrames log).map Frame.clearDiagnostic =
      (exits log).map (fun x => x.1.clearDiagnostic) ++
        a.pending.toList.map Frame.clearDiagnostic ∧
    leftBy .taken log = submittedFrames log ++ a.worker.inFlight.toList ∧
    ((submittedFrames log).map Frame.clearDiagnostic).Sublist
      ((acceptedFrames log).map Frame.clearDiagnostic) ∧
    EachEvent TakesNewest log ∧
    EachEvent TakesBeforeStop log ∧
    (leftBy .discarded log).length ≤ 1 ∧
    Counted log a.diagnostics ∧
    a.diagnostics.enqueuesAccepted = a.diagnostics.pendingReplaced +
      a.diagnostics.pendingSleepImagesCancelled + a.diagnostics.submitCalls +
      a.worker.inFlight.toList.length + a.pending.toList.length +
      (leftBy .discarded log).length ∧
    a.diagnostics.trailingSubmitted ≤ a.diagnostics.trailingDeferred := by
  have hc := conserved_of_run h
  have htrail := hc.trailing
  refine ⟨hc.exits, hc.serial, hc.submitted_sublist, hc.newest, hc.beforeStop, ?_, hc.counted,
    hc.identity, by omega⟩
  exact Nat.le_trans hc.discarded (Bool.toNat_le _)

/-- A run with a submit, a replacement, a deferred frame and a `Stop` while one is pending. -/
def burst : List Action :=
  let frame (n : Nat) : Frame :=
    { sequence := n, composeBuffer := some .portable, dirtyRect := Rect.full 2 2 }
  [.start, .enqueue (frame 1), .wake 10 5, .submitStart 6, .submitReturn true 7, .record, .observe,
    .enqueue (frame 2), .enqueue (frame 3), .wake 10 8, .rewake 17, .wake 10 17,
    .enqueue (frame 4), .stop, .submitStart 18, .submitReturn true 19, .record]

theorem adapter_conserves_frames_of_burst :
    ∃ a log, system.Run System.anyAction {} burst log a ∧
      a.diagnostics = { enqueuesAccepted := 4, pendingReplaced := 1, trailingDeferred := 1,
                        trailingSubmitted := 1, submitCalls := 2 } ∧
      (leftBy .discarded log).length = 1 ∧ EachEvent TakesNewest log ∧
      a.diagnostics.trailingSubmitted ≤ a.diagnostics.trailingDeferred := by
  have hrun := (System.Run.of_exec rfl : system.Run System.anyAction {} burst _ _)
  obtain ⟨-, -, -, hnewest, -, -, -, -, htrail⟩ := adapter_conserves_frames hrun
  exact ⟨_, _, hrun, rfl, rfl, hnewest, htrail⟩

end EinkLab.PresentationAdapter
