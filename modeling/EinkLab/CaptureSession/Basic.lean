import EinkLab.CaptureSession.Policies
import EinkLab.Transition.Run

/-!
# The capture session

`CaptureM3` and the release side of the snapshot leases (`render_surface_capture_session.cpp`).

One thread, the queueBuffer seam, runs `CaptureM3`; each lock it takes is one step, and between two
of them any thread may run:

    idle --configure--> configured --readAdmissionState--> stateRead --takeOpportunity--> admitted
      --readPool--> poolRead --observe--> attempted --sourceCopy--> sourced --tryCopy--> copying
      --finishCopy--> copied | copyFailed --recordOutcome--> idle

with returns to `idle` where the source returns early.  The converter and adapter threads destroy
leases, any of them, at any time.  A destructor first frees the slot (`releaseSlot`), then enters
`OnResourceReleased` (`notifyRelease`), which may ask for a composition outside the lock
(`requestComposite`) and cancels under the lock if the request failed (`cancelFailed`).  `cancel`
is the call in `Stop`.

What the environment decides is an argument of the actions: properties, the pipeline's state, the
clock, the results of the copies and of the composition request.
-/

namespace EinkLab.CaptureSession

open Transition

inductive R1SourceMode
  | snapshot | direct
  deriving DecidableEq, Repr

/-- `CaptureAdmissionState` of the pipeline. -/
structure AdmissionState where
  retainedCandidate : Bool
  conversionInFlight : Bool
  pendingCapture : Bool
  adapterRetained : Bool
  nextEligible : Option TimePoint
  deriving DecidableEq, Repr

def AdmissionState.pipelineState (s : AdmissionState) : FullPoolPipelineState :=
  ⟨s.conversionInFlight, s.pendingCapture, s.adapterRetained⟩

/-- What one call of `CaptureM3` has decided once it has taken its opportunity. -/
structure Admitted where
  now : TimePoint
  admissionState : AdmissionState
  resampleCapture : FullPoolCaptureDecision
  deriving DecidableEq, Repr

/-- Where the capture thread is. -/
inductive CapturePhase
  | idle
  | configured (now : TimePoint)
  | stateRead (now : TimePoint) (admissionState : AdmissionState)
  | admitted (c : Admitted)
  | poolRead (c : Admitted) (poolBusyBefore poolCapacity : Nat)
  | attempted (c : Admitted)
  | sourced (c : Admitted)
  | copying (c : Admitted) (x : Snapshot)
  | copied (c : Admitted) (x : Snapshot)
  | copyFailed (c : Admitted) (dropped : Bool)
  deriving DecidableEq, Repr

structure State where
  policy : FullPoolResamplePolicy := {}
  captureAdmission : CaptureAdmissionPolicy := {}
  pressureAccounting : CapturePressureAccounting := {}
  snapshotPool : GpuSnapshotPool
  /-- `CanRequest()`: the session was given a composition request. -/
  canRequest : Bool
  r1SourceMode : R1SourceMode := .snapshot
  r1SourceAudit : Bool := false
  r1SourceConfigured : Bool := false
  capture : CapturePhase := .idle
  /-- Live snapshot leases. -/
  leases : List Snapshot := []
  /-- Leases whose slot is free again and whose `OnResourceReleased` is still to come. -/
  returned : List Snapshot := []
  /-- Dispatched releases in front of the composition request, by obligation. -/
  requesting : List Nat := []
  /-- Releases whose request failed, in front of the `Cancel`, by obligation. -/
  failed : List Nat := []
  deriving DecidableEq, Repr

/-- `kM3SnapshotSlots` -/
def kM3SnapshotSlots : Nat := 2

/-- A session that has just been set up. -/
def State.create (canRequest : Bool) : State where
  snapshotPool := .create kM3SnapshotSlots
  canRequest := canRequest

/-- The properties `CaptureM3` reads before it looks at the pipeline: whether presentation is
enabled and its budget is left, the source selector (`none` if it is not a known one), the audit
switch, the late-sample window, and the time. -/
structure CaptureSettings where
  presentationEnabled : Bool := true
  submissionLimitReached : Bool := false
  r1Source : Option R1SourceMode := some .snapshot
  r1SourceAudit : Bool := false
  lateSampleWindow : Duration := 100000000
  now : TimePoint := 0
  deriving DecidableEq, Repr

inductive Action
  | configure (settings : CaptureSettings)
  | readAdmissionState (admissionState : AdmissionState)
  | takeOpportunity
  | readPool
  | observe
  | sourceCopy (converted : Bool)
  | tryCopy (sourceUsable : Bool)
  | finishCopy (drawn : Bool)
  | recordOutcome
  | releaseSlot (x : Snapshot)
  | notifyRelease (x : Snapshot) (now : TimePoint)
  | requestComposite (obligation : Nat) (accepted : Bool)
  | cancelFailed (obligation : Nat)
  | cancel
  deriving DecidableEq, Repr

/-- What happens to attempts, outcomes and obligations. -/
inductive Event
  /-- `RecordAttempt` or `RecordResampleAttempt`. -/
  | attempted (resample : Bool)
  /-- `RecordCopied`, `RecordPoolDrop` or `RecordCopyFailure` for such an attempt. -/
  | outcome (resample : Bool)
  /-- A call returned because direct conversion, which is selected, gave no output. -/
  | directNoOutput (resample : Bool)
  /-- A capture took the awaited opportunity of an obligation. -/
  | captured (obligation : Nat)
  /-- `RecordCaptureOutcome` for a resample capture. -/
  | captureOutcome (copied : Bool)
  | created (obligation : Nat)
  /-- A release took the obligation and will ask for a composition. -/
  | dispatched (obligation : Nat)
  /-- The `Cancel` after the failed request for `obligation`; it removed `removed`. -/
  | requestFailed (obligation : Nat) (removed : Option Nat)
  /-- The `Cancel` of `Stop`. -/
  | cancelled
  deriving DecidableEq, Repr

namespace State

/-! ### The capture thread -/

/-- From the top of `CaptureM3` to the clock reading and `Reconfigure`. -/
def configure (s : State) (settings : CaptureSettings) : State :=
  if !settings.presentationEnabled then s
  else if settings.submissionLimitReached then s
  else
    let requested := settings.r1Source.getD .snapshot
    let audit := requested = .direct || settings.r1SourceAudit
    if s.r1SourceConfigured && requested ≠ s.r1SourceMode then
      -- the transition capture is discarded
      { s with r1SourceMode := requested, r1SourceAudit := audit }
    else
      { s with
        r1SourceMode := requested
        r1SourceAudit := audit
        r1SourceConfigured := true
        captureAdmission := s.captureAdmission.reconfigure settings.lateSampleWindow
        capture := .configured settings.now }

/-- `TakeCaptureOpportunity`, and for a normal capture the admission decision. -/
def takeOpportunity (s : State) (now : TimePoint) (admissionState : AdmissionState) :
    State × List Event :=
  let (resampleCapture, policy) := s.policy.takeCaptureOpportunity
  let c : Admitted := ⟨now, admissionState, resampleCapture⟩
  if resampleCapture ≠ .normalCapture then
    ({ s with policy := policy, capture := .admitted c }, [.captured s.policy.diagnostics.created])
  else
    let (admission, captureAdmission) := s.captureAdmission.evaluate
      admissionState.retainedCandidate admissionState.nextEligible now
    ({ s with
      policy := policy
      captureAdmission := captureAdmission
      pressureAccounting := s.pressureAccounting.recordOpportunity captureAdmission.lastReason
      capture := if admission = .skipRetainedCandidate then .idle else .admitted c }, [])

/-- `ObserveFullPool` for a normal capture, then `RecordAttempt` or `RecordResampleAttempt`. -/
def observe (s : State) (c : Admitted) (poolBusyBefore poolCapacity : Nat) : State × List Event :=
  let pipelineState := c.admissionState.pipelineState
  if c.resampleCapture ≠ .normalCapture then
    ({ s with
      pressureAccounting := s.pressureAccounting.recordResampleAttempt
      capture := .attempted c }, [.attempted true])
  else
    let poolFull := poolCapacity ≠ 0 && poolBusyBefore ≥ poolCapacity
    let (observation, policy) :=
      if s.canRequest then s.policy.observeFullPool poolFull pipelineState c.now
      else (.ignored, s.policy)
    if observation ≠ .ignored then
      ({ s with
        policy := policy
        pressureAccounting := s.pressureAccounting.recordFullPoolDeferred pipelineState
        capture := .idle },
        if observation = .created then [.created policy.diagnostics.created] else [])
    else
      ({ s with
        policy := policy
        pressureAccounting :=
          s.pressureAccounting.recordAttempt poolBusyBefore poolCapacity pipelineState
        capture := .attempted c }, [.attempted false])

/-- The source conversion before the queue, where it is audited or selected. -/
def sourceCopy (s : State) (c : Admitted) (converted : Bool) : State × List Event :=
  if s.r1SourceAudit && s.r1SourceMode = .direct && !converted then
    ({ s with capture := .idle }, [.directNoOutput (c.resampleCapture ≠ .normalCapture)])
  else ({ s with capture := .sourced c }, [])

/-- `TryCopy` up to the draw. -/
def tryCopy (s : State) (c : Admitted) (sourceUsable : Bool) : State :=
  if !sourceUsable then
    { s with snapshotPool := s.snapshotPool.fail, capture := .copyFailed c false }
  else match s.snapshotPool.acquire with
  | (none, pool) => { s with snapshotPool := pool, capture := .copyFailed c true }
  | (some x, pool) => { s with snapshotPool := pool, capture := .copying c x }

def finishCopy (s : State) (c : Admitted) (x : Snapshot) (drawn : Bool) : State :=
  let (copied, pool) := s.snapshotPool.finishCopy x drawn
  { s with snapshotPool := pool, capture := if copied then .copied c x else .copyFailed c false }

/-- `RecordCaptureOutcome` for a resample capture. -/
def recordCaptureOutcome (s : State) (c : Admitted) (copied : Bool) : State × List Event :=
  ({ s with policy := s.policy.recordCaptureOutcome c.resampleCapture copied },
    if c.resampleCapture ≠ .normalCapture then [.captureOutcome copied] else [])

/-- The end of a call whose copy succeeded: the lease goes to the pipeline. -/
def recordCopied (s : State) (c : Admitted) (x : Snapshot) : State × List Event :=
  let (s, events) := s.recordCaptureOutcome c true
  ({ s with
    leases := x :: s.leases
    pressureAccounting := s.pressureAccounting.recordCopied
    capture := .idle }, events ++ [.outcome (c.resampleCapture ≠ .normalCapture)])

/-- The end of a call whose copy failed. -/
def recordFailed (s : State) (c : Admitted) (dropped : Bool) : State × List Event :=
  let (s, events) := s.recordCaptureOutcome c false
  ({ s with
    pressureAccounting :=
      if dropped then s.pressureAccounting.recordPoolDrop
      else s.pressureAccounting.recordCopyFailure
    capture := .idle }, events ++ [.outcome (c.resampleCapture ≠ .normalCapture)])

/-! ### The release side -/

/-- `~SnapshotLease`, up to `ReleaseAfterConversion`. -/
def releaseSlot (s : State) (x : Snapshot) : State :=
  let (freed, pool) := s.snapshotPool.releaseAfterConversion x
  { s with
    snapshotPool := pool
    leases := s.leases.erase x
    returned := if freed then x :: s.returned else s.returned }

/-- The first critical section of `OnResourceReleased`. -/
def notifyRelease (s : State) (x : Snapshot) (now : TimePoint) : State × List Event :=
  let (release, policy) := s.policy.onResourceReleased now
  let s := { s with policy := policy, returned := s.returned.erase x }
  if release = .none then (s, [])
  else
    let obligation := policy.diagnostics.created
    ({ s with requesting := obligation :: s.requesting }, [.dispatched obligation])

/-- `request_composite_ && request_composite_()`, outside the lock. -/
def requestComposite (s : State) (obligation : Nat) (accepted : Bool) : State :=
  { s with
    requesting := s.requesting.erase obligation
    failed := if s.canRequest && accepted then s.failed else obligation :: s.failed }

/-- The second critical section of `OnResourceReleased`. -/
def cancelFailed (s : State) (obligation : Nat) : State × List Event :=
  ({ s with policy := s.policy.cancel, failed := s.failed.erase obligation },
    [.requestFailed obligation s.policy.obligation])

/-! ### The system -/

def step (s : State) : Action → Option (State × List Event)
  | .configure settings =>
    match s.capture with
    | .idle => some (s.configure settings, [])
    | _ => none
  | .readAdmissionState admissionState =>
    match s.capture with
    | .configured now => some ({ s with capture := .stateRead now admissionState }, [])
    | _ => none
  | .takeOpportunity =>
    match s.capture with
    | .stateRead now admissionState => some (s.takeOpportunity now admissionState)
    | _ => none
  | .readPool =>
    match s.capture with
    | .admitted c =>
      some ({ s with
        capture := .poolRead c s.snapshotPool.busyCount s.snapshotPool.capacity }, [])
    | _ => none
  | .observe =>
    match s.capture with
    | .poolRead c poolBusyBefore poolCapacity => some (s.observe c poolBusyBefore poolCapacity)
    | _ => none
  | .sourceCopy converted =>
    match s.capture with
    | .attempted c => some (s.sourceCopy c converted)
    | _ => none
  | .tryCopy sourceUsable =>
    match s.capture with
    | .sourced c => some (s.tryCopy c sourceUsable, [])
    | _ => none
  | .finishCopy drawn =>
    match s.capture with
    | .copying c x => some (s.finishCopy c x drawn, [])
    | _ => none
  | .recordOutcome =>
    match s.capture with
    | .copied c x => some (s.recordCopied c x)
    | .copyFailed c dropped => some (s.recordFailed c dropped)
    | _ => none
  | .releaseSlot x => if x ∈ s.leases then some (s.releaseSlot x, []) else none
  | .notifyRelease x now => if x ∈ s.returned then some (s.notifyRelease x now) else none
  | .requestComposite obligation accepted =>
    if obligation ∈ s.requesting then some (s.requestComposite obligation accepted, []) else none
  | .cancelFailed obligation =>
    if obligation ∈ s.failed then some (s.cancelFailed obligation) else none
  | .cancel => some ({ s with policy := s.policy.cancel }, [.cancelled])

end State

def system : System State Action Event where
  step := State.step

end EinkLab.CaptureSession
