import EinkLab.Pipeline.Basic

/-!
# Sleep-image requests on the capture session

The part of `RenderSurfaceCaptureSession` (`render_surface_capture_session.cpp`) that serves the
framework's publications, arms and disarms.  Once there is a pipeline it passes them on; until then
it keeps a summary, the newest catalog and the armed epoch, and `MaybeStartM3` replays that onto the
pipeline it creates.

Each request holds `sleep_image_mutex` throughout, so it is one step.  The session has its `m3_`;
without one it refuses every request and has nothing to replay.

Left out: the trace property and the log lines.
-/

namespace EinkLab.CaptureSession

open Pipeline

/-- `M3State::SleepImageCatalogRequest`, which is also what `PublishSleepImageCatalog` receives. -/
structure SleepImageCatalogRequest where
  epoch : Nat
  width : Int
  height : Int
  entries : List EinkSleepImageCatalog.Entry
  selectedIndex : Nat
  mode : SleepImagePresentationMode
  deriving DecidableEq, Repr

/-- A sleep-image request, and what its caller gets. -/
inductive SleepRequest
  | publishSleepImageCatalog (request : SleepImageCatalogRequest)
  | armSleepCycle (epoch : Nat)
  | disarmSleepCycle (epoch : Nat)
  deriving DecidableEq, Repr

inductive SleepResponse
  | published (result : EinkSleepImageCatalog.PublishResult)
  | armed (result : SleepImageArmResult)
  | disarmed (result : SleepImageDisarmResult)
  deriving DecidableEq, Repr

/-- The responses to a list of requests, served one after another, and the state after them. -/
def serve {σ ρ α : Type} (handle : σ → ρ → α × σ) (s : σ) : List ρ → List α × σ
  | [] => ([], s)
  | r :: rs =>
    let (response, s') := handle s r
    let (responses, t) := serve handle s' rs
    (response :: responses, t)

/-- A request made on the pipeline itself. -/
def handlePipeline (c : Settings) (s : Pipeline) : SleepRequest → SleepResponse × Pipeline
  | .publishSleepImageCatalog r =>
    let (result, s') := s.publishSleepImageCatalog c r.epoch r.width r.height r.entries
      r.selectedIndex r.mode
    (.published result, s')
  | .armSleepCycle epoch =>
    let (result, s') := s.armSleepCycle epoch
    (.armed result, s')
  | .disarmSleepCycle epoch =>
    let (result, s') := s.disarmSleepCycle epoch
    (.disarmed result, s')

/-- The fields of `M3State` that the requests read and write. -/
structure M3State where
  pipeline : Option Pipeline := none
  pendingSleepImageCatalog : Option SleepImageCatalogRequest := none
  pendingSleepCycleArm : Option Nat := none
  sleepImageCatalogEpoch : Nat := 0
  sleepImageLastArmEpoch : Nat := 0
  sleepImageCatalogAccepted : Nat := 0
  sleepImageCatalogRejected : Nat := 0
  sleepImageCandidateSelections : Nat := 0
  sleepCycleArmDispatches : Nat := 0
  sleepCycleArmAccepted : Nat := 0
  sleepCycleArmRejected : Nat := 0
  sleepCycleDisarmDispatches : Nat := 0
  sleepCycleDisarmAccepted : Nat := 0
  sleepCycleDisarmRejected : Nat := 0
  sleepImageDiagnosticsDirty : Bool := false
  deriving DecidableEq, Repr

namespace M3State

/-- The counters of a publication that got past the checks of its arguments. -/
def countPublication (m : M3State) (result : EinkSleepImageCatalog.PublishResult) (epoch : Nat) :
    M3State :=
  if result = .accepted then
    { m with
      sleepImageCatalogEpoch := epoch
      sleepImageCatalogAccepted := m.sleepImageCatalogAccepted + 1
      sleepImageCandidateSelections := m.sleepImageCandidateSelections + 1
      sleepImageDiagnosticsDirty := true }
  else
    { m with
      sleepImageCatalogRejected := m.sleepImageCatalogRejected + 1
      sleepImageDiagnosticsDirty := true }

def publishSleepImageCatalog (c : Settings) (m : M3State) (r : SleepImageCatalogRequest) :
    EinkSleepImageCatalog.PublishResult × M3State :=
  if r.epoch = 0 then (.rejectedSelection, m)
  else if r.width ≠ c.profile.panelWidth || r.height ≠ c.profile.panelHeight then
    (.rejectedGeometry, m)
  else
    match ({ expectedWidth := r.width, expectedHeight := r.height } : EinkSleepImageCatalog).publish
      r.entries with
    | (.accepted, validationCatalog) =>
      if r.selectedIndex ≥ validationCatalog.size then (.rejectedSelection, m)
      else if r.epoch ≤ m.sleepImageCatalogEpoch then
        (.rejectedSelection, m.countPublication .rejectedSelection r.epoch)
      else
        match m.pipeline with
        | some pipeline =>
          let (result, pipeline) := pipeline.publishSleepImageCatalog c r.epoch r.width r.height
            r.entries r.selectedIndex r.mode
          (result, { m with pipeline := some pipeline }.countPublication result r.epoch)
        | none =>
          (.accepted,
            { m with pendingSleepImageCatalog := some r }.countPublication .accepted r.epoch)
    | (validation, _) => (validation, m)

/-- The counters of an arm, and the epoch of an accepted one. -/
def countArm (m : M3State) (result : SleepImageArmResult) (epoch : Nat) : M3State :=
  let m := { m with
    sleepCycleArmDispatches := m.sleepCycleArmDispatches + 1
    sleepImageDiagnosticsDirty := true }
  if result = .accepted then
    { m with
      sleepImageLastArmEpoch := epoch
      sleepCycleArmAccepted := m.sleepCycleArmAccepted + 1 }
  else { m with sleepCycleArmRejected := m.sleepCycleArmRejected + 1 }

def armSleepCycle (m : M3State) (epoch : Nat) : SleepImageArmResult × M3State :=
  if epoch = 0 then (.rejectedZero, m)
  else if epoch = m.sleepImageCatalogEpoch then
    match m.pipeline with
    | some pipeline =>
      let (result, pipeline) := pipeline.armSleepCycle epoch
      (result, { m with pipeline := some pipeline }.countArm result epoch)
    | none =>
      if epoch < m.sleepImageLastArmEpoch then
        (.rejectedStale, m.countArm .rejectedStale epoch)
      else if epoch = m.sleepImageLastArmEpoch then
        (.rejectedDuplicate, m.countArm .rejectedDuplicate epoch)
      else
        (.accepted, { m with pendingSleepCycleArm := some epoch }.countArm .accepted epoch)
  else (.rejectedMismatched, m.countArm .rejectedMismatched epoch)

/-- The counters of a disarm. -/
def countDisarm (m : M3State) (result : SleepImageDisarmResult) : M3State :=
  let m := { m with
    sleepCycleDisarmDispatches := m.sleepCycleDisarmDispatches + 1
    sleepImageDiagnosticsDirty := true }
  if result = .accepted then
    { m with sleepCycleDisarmAccepted := m.sleepCycleDisarmAccepted + 1 }
  else { m with sleepCycleDisarmRejected := m.sleepCycleDisarmRejected + 1 }

def disarmSleepCycle (m : M3State) (epoch : Nat) : SleepImageDisarmResult × M3State :=
  if epoch = 0 then (.rejectedZero, m)
  else
    match m.pipeline with
    | some pipeline =>
      let (result, pipeline) := pipeline.disarmSleepCycle epoch
      (result, { m with pipeline := some pipeline }.countDisarm result)
    | none =>
      if m.pendingSleepCycleArm = some epoch then
        (.accepted, { m with pendingSleepCycleArm := none }.countDisarm .accepted)
      else if m.pendingSleepCycleArm.isSome then
        (.rejectedMismatched, m.countDisarm .rejectedMismatched)
      else (.rejectedInactive, m.countDisarm .rejectedInactive)

/-- A request made on the session. -/
def handle (c : Settings) (m : M3State) : SleepRequest → SleepResponse × M3State
  | .publishSleepImageCatalog r =>
    let (result, m') := m.publishSleepImageCatalog c r
    (.published result, m')
  | .armSleepCycle epoch =>
    let (result, m') := m.armSleepCycle epoch
    (.armed result, m')
  | .disarmSleepCycle epoch =>
    let (result, m') := m.disarmSleepCycle epoch
    (.disarmed result, m')

/-- The new pipeline of `MaybeStartM3`: the kept catalog is published on it, then the kept epoch is
armed, and it is started. -/
def replayed (c : Settings) (m : M3State) : Pipeline :=
  let pipeline : Pipeline := {}
  let pipeline :=
    match m.pendingSleepImageCatalog with
    | some r =>
      (pipeline.publishSleepImageCatalog c r.epoch r.width r.height r.entries r.selectedIndex
        r.mode).2
    | none => pipeline
  let pipeline :=
    match m.pendingSleepCycleArm with
    | some epoch => (pipeline.armSleepCycle epoch).2
    | none => pipeline
  pipeline.start.setEnabled true

/-- `MaybeStartM3`, once its setup has succeeded. -/
def maybeStartM3 (c : Settings) (m : M3State) : M3State :=
  if m.pipeline.isSome then m
  else { m with
    pipeline := some (m.replayed c)
    pendingSleepImageCatalog := none
    pendingSleepCycleArm := none }

end M3State

end EinkLab.CaptureSession
