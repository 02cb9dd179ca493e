import EinkLab.PresentationAdapter.Basic
import EinkLab.SleepImage.Overlay

/-!
# The eink pipeline

`AndroidEinkPipeline` (`android_eink_pipeline.cpp`) with its conversion worker and the presentation
adapter it owns.

Every public method holds the pipeline's mutex throughout, nested adapter calls included, so each is
one step.  `Start` and `Stop` release it before they start and stop the adapter and the threads,
which are steps of their own (`startThreads`, `stopAdapter`).  The worker's steps are the stretches
of `ConversionWorkerMain` between the points where it releases the mutex:

    waiting --dequeue--> converting --convert--> failed --conversionFailed--> waiting
                                             \--> converted --checkSource--> waiting
    converted --checkSource--> checked --evaluate--> evaluated --hold--> waiting
    evaluated --readRefresh--> unchanged --finish--> waiting
    evaluated --readRefresh--> assembled --enqueue--> enqueued --finish--> waiting

The converter reads a device buffer: what it returns is an argument of `convert`.  The demand gate
and the grayscale tracker belong to the worker, so their updates are part of `evaluate`.  Sequences,
epochs and refresh numbers are natural numbers.

Left out: counters, timing, the delta and fidelity diagnostics, fences, and logging.
-/

namespace EinkLab

open Transition

/-! ### The demand gate -/

structure FrameSignature where
  hash : Nat
  bytes : Nat
  width : Int
  height : Int
  deriving DecidableEq, Repr

inductive DemandDecision
  | sessionStart | rearmed | panelContentChanged | unchanged
  deriving DecidableEq, Repr

/-- `FrameDemandGate`: the last evaluated signature, and what a frame without one counts as. -/
structure FrameDemandGate where
  previous : Option FrameSignature := none
  nextFrameIsRearm : Bool := false
  deriving DecidableEq, Repr

namespace FrameDemandGate

def evaluate (g : FrameDemandGate) (signature : FrameSignature) :
    DemandDecision × FrameDemandGate :=
  match g.previous with
  | none =>
    if g.nextFrameIsRearm then (.rearmed, ⟨some signature, false⟩)
    else (.sessionStart, { g with previous := some signature })
  | some previous =>
    if previous = signature then (.unchanged, g)
    else (.panelContentChanged, { g with previous := some signature })

def reset (_ : FrameDemandGate) : FrameDemandGate := ⟨none, true⟩

end FrameDemandGate

/-- `GrayscaleFrameTracker`: a 64-bit generation, never `0`, that tells consecutive frames apart. -/
structure GrayscaleFrameTracker where
  previous : List UInt8 := []
  width : Int := 0
  height : Int := 0
  generation : Nat := 0
  deriving DecidableEq, Repr

namespace GrayscaleFrameTracker

def nextGeneration (generation : Nat) : Nat :=
  if (generation + 1) % 2 ^ 64 = 0 then 1 else (generation + 1) % 2 ^ 64

def update (t : GrayscaleFrameTracker) (frame : OwnedGrayscaleBuffer) :
    Nat × GrayscaleFrameTracker :=
  if frame.width ≤ 0 || frame.height ≤ 0 ||
      frame.width.toNat > sizeMax / frame.height.toNat ||
      frame.byteCount ≠ frame.width.toNat * frame.height.toNat then (0, t)
  else if t.width ≠ frame.width || t.height ≠ frame.height || t.previous ≠ frame.pixels then
    (nextGeneration t.generation,
      ⟨frame.pixels, frame.width, frame.height, nextGeneration t.generation⟩)
  else (t.generation, t)

def reset (t : GrayscaleFrameTracker) : GrayscaleFrameTracker :=
  { t with previous := [], width := 0, height := 0 }

end GrayscaleFrameTracker

/-! ### Captures and the worker -/

structure CapturedComposition where
  composeBuffer : Option GraphicBuffer := none
  ownershipLease : Option Nat := none
  directGrayscale : Option OwnedGrayscaleBuffer := none
  directGrayscaleSelected : Bool := false
  capturedAt : TimePoint := 0
  deriving DecidableEq, Repr

/-- What `AndroidGrayscaleConverter::Convert` gives: the plane and, for colour, the signature of the
source. -/
structure Conversion where
  grayscale : OwnedGrayscaleBuffer
  rgbSignature : Nat
  deriving DecidableEq, Repr

namespace Pipeline

inductive SleepImagePresentationMode
  | opaqueImage | overlay
  deriving DecidableEq, Repr

/-- The constants of a pipeline: its profile, `engine_mode_` and `policy_flag_`. -/
structure Settings where
  profile : EinkDeviceProfile
  engineMode : Int
  policyFlag : Int
  deriving DecidableEq, Repr

/-- A dequeued composition with its sequence and the source generation at that time. -/
structure Job where
  composition : CapturedComposition
  sequence : Nat
  sourceGeneration : Nat
  deriving DecidableEq, Repr

/-- Where the conversion worker stands in `ConversionWorkerMain`, with its locals. -/
inductive WorkerPhase
  | absent
  | waiting
  | converting (job : Job)
  | failed
  | converted (job : Job) (conversion : Conversion)
  | checked (job : Job) (conversion : Conversion)
  /-- With the frame and the decision of the latch, the active epoch then, and the demand. -/
  | evaluated (job : Job) (frame : Frame) (decision : SleepImageDecision) (epoch : Nat)
      (demand : DemandDecision)
  | unchanged
  | assembled (frame : Frame)
  | enqueued
  | exited
  deriving DecidableEq, Repr

end Pipeline

open Pipeline

/-- `AndroidEinkPipeline::Impl` with the adapter and the conversion worker. -/
structure Pipeline where
  adapter : PresentationAdapter := {}
  pending : Option CapturedComposition := none
  conversionInFlight : Bool := false
  worker : Pipeline.WorkerPhase := .absent
  nextSequence : Nat := 1
  demandGate : FrameDemandGate := {}
  grayscaleTracker : GrayscaleFrameTracker := {}
  refreshMode : DiagnosticRefresh := .none
  refreshId : Nat := 0
  refreshBusy : Bool := false
  /-- `diagnostics.refresh_requested` and what became of the requests. -/
  refreshRequested : Nat := 0
  refreshSubmitted : Nat := 0
  refreshFailed : Nat := 0
  refreshCancelled : Nat := 0
  resetDemandGate : Bool := false
  resetSourceState : Bool := false
  sourceGeneration : Nat := 0
  hasBeenEnabled : Bool := false
  enabled : Bool := false
  started : Bool := false
  stopping : Bool := false
  sleepImageLatch : SleepImageLatch := {}
  sleepImageBackground : SleepImageBackground := {}
  sleepImageCatalog : Option EinkSleepImageCatalog := none
  sleepImageCatalogEpoch : Nat := 0
  sleepImageSelectedIndex : Nat := 0
  sleepImageMode : SleepImagePresentationMode := .opaqueImage
  deriving DecidableEq, Repr

namespace Pipeline

/-! ### Diagnostic refreshes -/

/-- A refresh number that is accepted, or `0`. -/
def requestDiagnosticRefresh (c : Settings) (s : Pipeline) (mode : DiagnosticRefresh) :
    Nat × Pipeline :=
  if !c.profile.hasColorCfa || !s.started || s.stopping || !s.enabled ||
      s.sleepImageLatch.activeEpoch ≠ 0 || s.refreshBusy || mode = .none then (0, s)
  else
    let id := s.refreshRequested + 1
    (id, { s with
      refreshBusy := true, refreshRequested := id, refreshId := id, refreshMode := mode })

def cancelDiagnosticRefresh (s : Pipeline) (id : Nat) : Pipeline :=
  if id ≠ 0 && s.refreshId = id then
    { s with refreshCancelled := id, refreshId := 0, refreshBusy := false, refreshMode := .none }
  else s

/-- What `SetEnabled(false)` and an accepted `ArmSleepCycle` do about a request. -/
def cancelRefresh (s : Pipeline) : Pipeline :=
  let (cancelled, adapter) := s.adapter.cancelPendingDiagnosticRefresh
  { s with
    adapter := adapter
    refreshCancelled :=
      if cancelled || s.refreshId ≠ 0 then s.refreshRequested else s.refreshCancelled
    refreshBusy := false
    refreshId := 0
    refreshMode := .none }

/-! ### Start, stop, enable, reset -/

def start (s : Pipeline) : Pipeline :=
  if s.started || s.stopping then s else { s with started := true }

/-- `adapter_.Start()` and the conversion thread. -/
def startThreads (s : Pipeline) : Option Pipeline :=
  if s.started && s.worker = .absent then
    some { s with adapter := s.adapter.start, worker := .waiting }
  else none

def stop (s : Pipeline) : Pipeline :=
  if !s.started || s.stopping then s
  else { s with stopping := true, enabled := false, pending := none }

/-- `adapter_.Stop()`, after the conversion thread has been joined. -/
def stopAdapter (s : Pipeline) : Option Pipeline :=
  if s.stopping && s.worker = .exited then some { s with adapter := s.adapter.stop } else none

def setEnabled (s : Pipeline) (enabled : Bool) : Pipeline :=
  if s.started && !s.stopping then
    let s := { s with
      resetDemandGate := s.resetDemandGate || (s.enabled ≠ enabled && s.hasBeenEnabled)
      enabled := enabled }
    let s := if enabled then s else s.cancelRefresh
    { s with hasBeenEnabled := s.hasBeenEnabled || enabled }
  else s

def resetForSourceChange (s : Pipeline) : Pipeline :=
  if !s.started || s.stopping then s
  else { s with
    sourceGeneration := s.sourceGeneration + 1
    pending := none
    resetSourceState := true
    sleepImageBackground := s.sleepImageBackground.release }

/-! ### Sleep cycles -/

def publishSleepImageCatalog (c : Settings) (s : Pipeline) (epoch : Nat) (width height : Int)
    (entries : List EinkSleepImageCatalog.Entry) (selectedIndex : Nat)
    (mode : SleepImagePresentationMode) : EinkSleepImageCatalog.PublishResult × Pipeline :=
  if epoch = 0 then (.rejectedSelection, s)
  else if width ≠ c.profile.panelWidth || height ≠ c.profile.panelHeight then
    (.rejectedGeometry, s)
  else
    match ({ expectedWidth := width, expectedHeight := height } : EinkSleepImageCatalog).publish
      entries with
    | (.accepted, catalog) =>
      if selectedIndex ≥ catalog.size then (.rejectedSelection, s)
      else if s.stopping then (.rejectedSelection, s)
      else if epoch ≤ s.sleepImageCatalogEpoch then (.rejectedSelection, s)
      else (.accepted, { s with
        sleepImageCatalog := some catalog
        sleepImageCatalogEpoch := epoch
        sleepImageSelectedIndex := selectedIndex
        sleepImageMode := mode })
    | (result, _) => (result, s)

def armSleepCycle (s : Pipeline) (epoch : Nat) : SleepImageArmResult × Pipeline :=
  if !s.stopping && epoch ≠ 0 && epoch = s.sleepImageCatalogEpoch then
    let (result, latch) := s.sleepImageLatch.armSleepCycle epoch
    let s := { s with sleepImageLatch := latch }
    (result, if result = .accepted then s.cancelRefresh else s)
  else (.rejectedMismatched, s)

/-- The planes of a presentation: the selected image over the background or over white. -/
def composePresentation (c : Settings) (s : Pipeline)
    (candidate : SleepImageCandidate OwnedGrayscaleBuffer) (buffer : OwnedGrayscaleBuffer)
    (alpha : List UInt8) : Except SleepImagePresentationResult (List UInt8 × List UInt8) :=
  let rgba := candidate.rgba.getD []
  match s.sleepImageMode with
  | .overlay =>
    match s.sleepImageBackground.prepareOverlay buffer.pixels alpha rgba with
    | (.rejectedNoBackground, _) => .error .rejectedBackground
    | (.rejectedForeground, _) => .error .rejectedAlpha
    | (.composited, panelGray, rgba) => .ok (panelGray, rgba)
  | .opaqueImage =>
    let white := List.replicate c.profile.panelBytes 0xf0
    let prepared := composeSleepImageOverlay buffer.pixels alpha white rgba
    if prepared.result ≠ .composited then .error .rejectedAlpha
    else .ok (prepared.panelGray, prepared.rgba)

/-- The selected image with its planes checked against the panel, composed. -/
def prepareSleepImage (c : Settings) (s : Pipeline) (epoch : Nat) :
    Except SleepImagePresentationResult (Int × Int × List UInt8 × List UInt8) :=
  match s.sleepImageCatalog with
  | none => .error .rejectedCatalog
  | some catalog =>
    if epoch ≠ s.sleepImageCatalogEpoch then .error .rejectedCatalog
    else
      let candidate := catalog.candidateAt s.sleepImageSelectedIndex
      match candidate.buffer, candidate.alpha with
      | some buffer, some alpha =>
        if candidate.width ≠ c.profile.panelWidth || candidate.height ≠ c.profile.panelHeight ||
            buffer.byteCount ≠ c.profile.panelBytes || alpha.length ≠ c.profile.panelBytes then
          .error .rejectedCatalog
        else
          (s.composePresentation c candidate buffer alpha).map fun planes =>
            (candidate.width, candidate.height, planes.1, planes.2)
      | _, _ => .error .rejectedCatalog

/-- The frame of a presentation. -/
def sleepImageFrame (c : Settings) (s : Pipeline) (epoch : Nat) (now : TimePoint)
    (image : Int × Int × List UInt8 × List UInt8) : Frame where
  sequence := s.nextSequence
  sleepImageEpoch := epoch
  capturedAt := now
  enqueuedAt := now
  grayscaleBuffer := some ⟨image.1, image.2.1, image.2.2.1⟩
  sleepImageRgba := if image.2.2.2.isEmpty then none else some image.2.2.2
  dirtyRect := Rect.full image.1 image.2.1
  engineMode := c.engineMode
  policyFlag := c.policyFlag

/-- The presentation's result for a refused `ArmSleepCycle`. -/
def rejectedArm : SleepImageArmResult → SleepImagePresentationResult
  | .accepted => .accepted
  | .rejectedZero => .rejectedZero
  | .rejectedStale => .rejectedStale
  | .rejectedDuplicate => .rejectedDuplicate
  | .rejectedMismatched => .rejectedMismatched

/-- The end of `PresentSleepImage`: older captures are superseded and the frame is enqueued. -/
def enqueueSleepImage (c : Settings) (s : Pipeline) (epoch : Nat) (now : TimePoint)
    (image : Int × Int × List UInt8 × List UInt8) : SleepImagePresentationResult × Pipeline :=
  let frame := s.sleepImageFrame c epoch now image
  let s := { s with
    sourceGeneration := s.sourceGeneration + 1
    pending := none
    nextSequence := s.nextSequence + 1 }
  if s.adapter.accepts frame then (.accepted, { s with adapter := (s.adapter.enqueue frame).2 })
  else (.rejectedEnqueue, { s with
    sleepImageLatch := (s.sleepImageLatch.disarmSleepCycle epoch).2 })

def presentSleepImage (c : Settings) (s : Pipeline) (epoch : Nat) (now : TimePoint) :
    SleepImagePresentationResult × Pipeline :=
  if epoch = 0 then (.rejectedZero, s)
  else if !s.started || s.stopping || !s.enabled then (.rejectedUnavailable, s)
  else
    match s.prepareSleepImage c epoch with
    | .error result => (result, s)
    | .ok image =>
      let (arm, latch) := s.sleepImageLatch.armSleepCycle epoch
      let s := { s with sleepImageLatch := latch }
      if arm ≠ .accepted then (rejectedArm arm, s)
      else
        let (begin, latch) := s.sleepImageLatch.beginPresentation epoch
        let s := { s with sleepImageLatch := latch }
        if begin ≠ .accepted then (begin, s) else s.enqueueSleepImage c epoch now image

def disarmSleepCycle (s : Pipeline) (epoch : Nat) : SleepImageDisarmResult × Pipeline :=
  let (result, latch) := s.sleepImageLatch.disarmSleepCycle epoch
  if result = .accepted then
    (result, { s with
      sleepImageLatch := latch
      adapter := (s.adapter.cancelPendingSleepImage epoch).2
      sleepImageBackground := s.sleepImageBackground.release
      resetDemandGate := true })
  else (result, s)

def onCapturedComposition (s : Pipeline) (composition : CapturedComposition) : Pipeline :=
  if !s.started || s.stopping || !s.enabled then s
  else if s.sleepImageLatch.state = .consumed then s
  else { s with pending := some composition }

/-! ### The conversion worker -/

/-- The wait ends: the worker leaves, or takes the capture and applies the pending resets. -/
def dequeue (s : Pipeline) : Option Pipeline :=
  match s.worker with
  | .waiting =>
    if s.stopping then some { s with worker := .exited }
    else
      match s.pending with
      | none => none
      | some composition =>
        let demandGate := if s.resetSourceState then s.demandGate.reset else s.demandGate
        some { s with
          worker := .converting ⟨composition, s.nextSequence, s.sourceGeneration⟩
          pending := none
          conversionInFlight := true
          nextSequence := s.nextSequence + 1
          grayscaleTracker :=
            if s.resetSourceState then s.grayscaleTracker.reset else s.grayscaleTracker
          resetSourceState := false
          demandGate := if s.resetDemandGate then demandGate.reset else demandGate
          resetDemandGate := false }
  | _ => none

/-- The plane that is presented: the captured one where it is selected, else the converted one. -/
def selectGrayscale (composition : CapturedComposition) (conversion : Conversion) :
    Option Conversion :=
  if composition.directGrayscaleSelected then
    composition.directGrayscale.map fun grayscale => { conversion with grayscale := grayscale }
  else some conversion

/-- The converter returns. -/
def convert (s : Pipeline) (result : Option Conversion) : Option Pipeline :=
  match s.worker with
  | .converting job =>
    match result.bind (selectGrayscale job.composition) with
    | none => some { s with worker := .failed }
    | some conversion => some { s with worker := .converted job conversion }
  | _ => none

def conversionFailed (s : Pipeline) : Option Pipeline :=
  match s.worker with
  | .failed =>
    let s := { s with worker := .waiting, conversionInFlight := false }
    some (if s.refreshId ≠ 0 then
      { s with
        refreshFailed := s.refreshId, refreshId := 0, refreshMode := .none, refreshBusy := false }
    else s)
  | _ => none

/-- A capture from before a source change is dropped. -/
def checkSource (s : Pipeline) : Option Pipeline :=
  match s.worker with
  | .converted job conversion =>
    some (if job.sourceGeneration ≠ s.sourceGeneration then
      { s with worker := .waiting, conversionInFlight := false }
    else { s with worker := .checked job conversion })
  | _ => none

/-- `sleep_frame` -/
def convertedFrame (c : Settings) (job : Job) (grayscale : OwnedGrayscaleBuffer) : Frame where
  sequence := job.sequence
  capturedAt := job.composition.capturedAt
  grayscaleBuffer := some grayscale
  dirtyRect := Rect.full grayscale.width grayscale.height
  engineMode := c.engineMode
  policyFlag := c.policyFlag

/-- `sleep_selector` -/
def sleepSelector (s : Pipeline) : Option (Selector OwnedGrayscaleBuffer) :=
  s.sleepImageCatalog.map fun catalog => catalog.selector s.sleepImageSelectedIndex

/-- The latch and then the demand gate evaluate the converted frame. -/
def evaluate (c : Settings) (s : Pipeline) : Option Pipeline :=
  match s.worker with
  | .checked job conversion =>
    let grayscale := conversion.grayscale
    let (latch, frame, decision) :=
      s.sleepImageLatch.evaluateFrame (convertedFrame c job grayscale) s.sleepSelector
    let (signature, tracker) :=
      if c.profile.hasColorCfa then (conversion.rgbSignature, s.grayscaleTracker)
      else s.grayscaleTracker.update grayscale
    let (demand, gate) := s.demandGate.evaluate
      ⟨signature, grayscale.byteCount, grayscale.width, grayscale.height⟩
    some { s with
      worker := .evaluated job frame decision latch.activeEpoch demand
      sleepImageLatch := latch
      grayscaleTracker := tracker
      demandGate := gate }
  | _ => none

/-- A suppressed frame is held. -/
def hold (s : Pipeline) : Option Pipeline :=
  match s.worker with
  | .evaluated _ _ .suppress _ _ => some { s with worker := .waiting, conversionInFlight := false }
  | _ => none

/-- `engine_compose`: the captured plane that travels with the frame. -/
def engineCompose (c : Settings) (composition : CapturedComposition) : Option ComposeBuffer :=
  if c.profile.hasColorCfa then
    some (.android composition.composeBuffer composition.ownershipLease)
  else if composition.ownershipLease.isNone then some (.android composition.composeBuffer none)
  else none

/-- The frame of a capture. -/
def captureFrame (c : Settings) (job : Job) (frame : Frame) (decision : SleepImageDecision)
    (epoch : Nat) (refresh : DiagnosticRefresh × Nat) (now : TimePoint) : Frame :=
  { frame with
    sleepImageEpoch := if decision = .replace then epoch else 0
    enqueuedAt := now
    composeBuffer := engineCompose c job.composition
    diagnosticRefresh := refresh.1
    diagnosticRequest := refresh.2 }

/-- The pending request is read; an unchanged frame without one is dropped, another is assembled. -/
def readRefresh (c : Settings) (s : Pipeline) (now : TimePoint) : Option Pipeline :=
  match s.worker with
  | .evaluated job frame decision epoch demand =>
    if decision = .suppress then none
    else
      let refresh : DiagnosticRefresh × Nat :=
        if s.enabled && s.sleepImageLatch.activeEpoch = 0 then (s.refreshMode, s.refreshId)
        else (.none, 0)
      some { s with
        worker :=
          if demand = .unchanged && decision ≠ .replace && refresh.2 = 0 then .unchanged
          else .assembled (captureFrame c job frame decision epoch refresh now) }
  | _ => none

/-- The request is dropped from the frame if it has been cancelled meanwhile. -/
def finalFrame (s : Pipeline) (frame : Frame) : Frame :=
  if frame.diagnosticRequest ≠ 0 && (s.refreshId ≠ frame.diagnosticRequest || !s.enabled ||
      s.sleepImageLatch.activeEpoch ≠ 0) then frame.clearDiagnostic
  else frame

/-- The last critical section before the adapter: a request that still stands leaves with the frame,
and has failed if the adapter refuses it. -/
def enqueue (s : Pipeline) : Option Pipeline :=
  match s.worker with
  | .assembled frame =>
    let frame := s.finalFrame frame
    let enqueued := (s.adapter.enqueue frame).1
    some { s with
      worker := .enqueued
      adapter := (s.adapter.enqueue frame).2
      refreshId := if frame.diagnosticRequest ≠ 0 then 0 else s.refreshId
      refreshMode := if frame.diagnosticRequest ≠ 0 then .none else s.refreshMode
      refreshBusy := s.refreshBusy && (enqueued || frame.diagnosticRequest = 0)
      refreshFailed :=
        if !enqueued && frame.diagnosticRequest ≠ 0 then frame.diagnosticRequest
        else s.refreshFailed }
  | _ => none

/-- The frame of the last critical section, if the adapter takes it. -/
def enqueuedFrame (s : Pipeline) : Option Frame :=
  match s.worker with
  | .assembled frame =>
    if s.adapter.accepts (s.finalFrame frame) then some (s.finalFrame frame) else none
  | _ => none

def finish (s : Pipeline) : Option Pipeline :=
  match s.worker with
  | .unchanged | .enqueued => some { s with worker := .waiting, conversionInFlight := false }
  | _ => none

/-! ### The engine's submissions -/

/-- `OnEngineSubmission` -/
def onEngineSubmission (c : Settings) (s : Pipeline) (frame : Frame) (accepted : Bool) : Pipeline :=
  let s := { s with sleepImageBackground :=
    (s.sleepImageBackground.observeSubmission c.profile frame accepted).2 }
  if frame.diagnosticRequest ≠ 0 then
    { s with
      refreshSubmitted := if accepted then frame.diagnosticRequest else s.refreshSubmitted
      refreshBusy := s.refreshBusy && frame.diagnosticRequest ≠ s.refreshRequested
      refreshFailed := if accepted then s.refreshFailed else frame.diagnosticRequest }
  else s

/-- The adapter's worker calls the observer, and loops. -/
def observe (c : Settings) (s : Pipeline) : Option Pipeline :=
  match s.adapter.worker with
  | .recorded frame accepted _ =>
    s.adapter.observe.map fun adapter =>
      { s.onEngineSubmission c frame accepted with adapter := adapter }
  | _ => none

/-- A step of the adapter's worker. -/
def onAdapter (s : Pipeline) (adapter : Option PresentationAdapter) : Option Pipeline :=
  adapter.map fun adapter => { s with adapter := adapter }

/-! ### The pipeline as a labelled system -/

inductive Action
  | requestDiagnosticRefresh (mode : DiagnosticRefresh)
  | cancelDiagnosticRefresh (id : Nat)
  | start | startThreads | stop | stopAdapter
  | setEnabled (enabled : Bool)
  | resetForSourceChange
  | publishSleepImageCatalog (epoch : Nat) (width height : Int)
      (entries : List EinkSleepImageCatalog.Entry) (selectedIndex : Nat)
      (mode : SleepImagePresentationMode)
  | armSleepCycle (epoch : Nat)
  | presentSleepImage (epoch : Nat) (now : TimePoint)
  | disarmSleepCycle (epoch : Nat)
  | onCapturedComposition (composition : CapturedComposition)
  | dequeue
  | convert (result : Option Conversion)
  | conversionFailed | checkSource | evaluate | hold
  | readRefresh (now : TimePoint)
  | enqueue | finish
  /-- The adapter's worker. -/
  | wake (interval : Duration) (now : TimePoint)
  | rewake (now : TimePoint)
  | submitStart (now : TimePoint)
  | submitReturn (accepted : Bool) (now : TimePoint)
  | record | observe
  deriving DecidableEq, Repr

inductive Event
  /-- A refresh was requested under this number (`0` is a refusal). -/
  | refreshRequested (id : Nat)
  | presented (epoch : Nat) (result : SleepImagePresentationResult)
  | disarmed (epoch : Nat) (result : SleepImageDisarmResult)
  /-- `SleepImageBackground::Release`, by an accepted disarm or a source change. -/
  | released
  /-- `adapter_.Enqueue` took this frame. -/
  | enqueued (frame : Frame)
  /-- `Engine::Submit` returned. -/
  | submitted (frame : Frame) (accepted : Bool)
  /-- `OnEngineSubmission`, with the background it found. -/
  | observed (frame : Frame) (accepted : Bool) (before : SleepImageBackground)
  deriving DecidableEq, Repr

/-- What a presentation logs. -/
def presentEvents (c : Settings) (s : Pipeline) (epoch : Nat) (now : TimePoint) : List Event :=
  let result := (s.presentSleepImage c epoch now).1
  match result, s.prepareSleepImage c epoch with
  | .accepted, .ok image =>
    [.enqueued (s.sleepImageFrame c epoch now image), .presented epoch result]
  | _, _ => [.presented epoch result]

/-- What a disarm logs. -/
def disarmEvents (s : Pipeline) (epoch : Nat) : List Event :=
  let result := (s.disarmSleepCycle epoch).1
  if result = .accepted then [.released, .disarmed epoch result] else [.disarmed epoch result]

/-- The submission that is being returned. -/
def submittedEvents (s : Pipeline) (accepted : Bool) : List Event :=
  match s.adapter.worker with
  | .submitting frame _ _ => [.submitted frame accepted]
  | _ => []

/-- The submission that is being observed. -/
def observedEvents (s : Pipeline) : List Event :=
  match s.adapter.worker with
  | .recorded frame accepted _ => [.observed frame accepted s.sleepImageBackground]
  | _ => []

def step (c : Settings) (s : Pipeline) : Action → Option (Pipeline × List Event)
  | .requestDiagnosticRefresh mode =>
    some ((s.requestDiagnosticRefresh c mode).2,
      [.refreshRequested (s.requestDiagnosticRefresh c mode).1])
  | .cancelDiagnosticRefresh id => some (s.cancelDiagnosticRefresh id, [])
  | .start => some (s.start, [])
  | .startThreads => s.startThreads.map (·, [])
  | .stop => some (s.stop, [])
  | .stopAdapter => s.stopAdapter.map (·, [])
  | .setEnabled enabled => some (s.setEnabled enabled, [])
  | .resetForSourceChange =>
    some (s.resetForSourceChange, if !s.started || s.stopping then [] else [.released])
  | .publishSleepImageCatalog epoch width height entries selectedIndex mode =>
    some ((s.publishSleepImageCatalog c epoch width height entries selectedIndex mode).2, [])
  | .armSleepCycle epoch => some ((s.armSleepCycle epoch).2, [])
  | .presentSleepImage epoch now =>
    some ((s.presentSleepImage c epoch now).2, s.presentEvents c epoch now)
  | .disarmSleepCycle epoch => some ((s.disarmSleepCycle epoch).2, s.disarmEvents epoch)
  | .onCapturedComposition composition => some (s.onCapturedComposition composition, [])
  | .dequeue => s.dequeue.map (·, [])
  | .convert result => (s.convert result).map (·, [])
  | .conversionFailed => s.conversionFailed.map (·, [])
  | .checkSource => s.checkSource.map (·, [])
  | .evaluate => (s.evaluate c).map (·, [])
  | .hold => s.hold.map (·, [])
  | .readRefresh now => (s.readRefresh c now).map (·, [])
  | .enqueue => s.enqueue.map (·, s.enqueuedFrame.toList.map .enqueued)
  | .finish => s.finish.map (·, [])
  | .wake interval now => (s.onAdapter (s.adapter.wake interval now)).map (·, [])
  | .rewake now => (s.onAdapter (s.adapter.rewake now)).map (·, [])
  | .submitStart now => (s.onAdapter (s.adapter.submitStart now)).map (·, [])
  | .submitReturn accepted now =>
    (s.onAdapter (s.adapter.submitReturn accepted now)).map (·, s.submittedEvents accepted)
  | .record => (s.onAdapter s.adapter.record).map (·, [])
  | .observe => (s.observe c).map (·, s.observedEvents)

def system (c : Settings) : System Pipeline Action Event where
  step := step c

end Pipeline

end EinkLab
