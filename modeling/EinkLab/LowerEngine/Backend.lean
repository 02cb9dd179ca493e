import EinkLab.LowerEngine.Color
import EinkLab.LowerEngine.Contract
import EinkLab.Transition.Program
import EinkLab.Transition.Run
import Mathlib.Algebra.Group.Int.Defs
import Mathlib.Algebra.Group.Nat.Defs

/-!
# The direct lower-engine backend

`LowerEngineDirectBackend::Submit` as a `Procedure`: every vendor call, clock reading, property read
and buffer mapping is a call that the environment answers, and `return false` is an early return.
`Submit` holds the backend's mutex throughout, so a run of the backend is a sequence of `submit`s.

`now` is answered with the nanoseconds that have passed since the last reading, and the sleeps with
their overshoot, so the clock never runs backwards and a sleep lasts at least as long as asked.
Logging, and the property reads that only feed a log line, are left out.
-/

namespace EinkLab.LowerEngine

open Transition

/-! ### Constants and properties -/

/-- `kObservedFullControlRecord`. -/
def kObservedFullControlRecord : Int :=
  toEngineMode .gc16Partial + toEngineMode .fullUpdate

def kObservedNormalDifferentialRecord : Int := toEngineMode .glr16Partial

/-- The observed return of a queued update; not an error. -/
def kObservedUpdateAcceptedResult : Int := -3

def kM4DefaultSubmissionLimit : Nat := 12
def kM4HardSubmissionLimit : Nat := 24
def kM4DefaultMinimumIntervalMs : Int := 50
def kColorQualityGuardMs : Int := 0
def kM4MinimumIntervalMs : Int := 50
def kM4MaximumIntervalMs : Int := 5000

def kMarkerStartTimeoutMs : Nat := 5000

def nsPerMs : Int := 1000000

/-- `static_cast<std::uint64_t>` of a signed 64-bit count. -/
def toUInt64 (x : Int) : Nat := if x < 0 then (x + 2 ^ 64).toNat else x.toNat

structure ObservedUpdateEnvelope where
  mode : Int
  flag1 : Int
  flag2 : Int
  deriving DecidableEq, Repr

/-- `SelectObservedUpdateEnvelope`, which reads the engine mode only. -/
def selectObservedUpdateEnvelope (engineMode : Int) : Option ObservedUpdateEnvelope :=
  if engineMode = kObservedFullControlRecord then some ⟨2, 1, 1⟩
  else if engineMode = kObservedNormalDifferentialRecord then some ⟨3, 0, 0⟩
  else none

/-- The arguments of one engine update, as `InvokeUpdate` receives them. -/
structure UpdateArguments where
  composeHandle : Option GraphicBuffer
  mappedRgba : Option (List UInt8)
  gray : List UInt8
  envelope : ObservedUpdateEnvelope
  deriving DecidableEq, Repr

/-! ### The environment -/

inductive VendorCall
  | boolProperty (name : String) (defaultValue : Bool)
  | intProperty (name : String) (defaultValue : Int)
  | qualityConfig
  | grayConfig
  | vividConfig
  | now
  | sleepUntil (deadline : TimePoint)
  | sleepFor (duration : Duration)
  | lockAsync (buffer : GraphicBuffer)
  | unlock (buffer : GraphicBuffer)
  | mapVpcoa (input : List UInt8)
  | auraGray (rgba : List UInt8)
  | submittedMarker
  | displayingMarker
  | update (arguments : UpdateArguments)
  deriving DecidableEq, Repr

/-- The call is an engine update. -/
def VendorCall.isUpdate : VendorCall → Bool
  | .update _ => true
  | _ => false

/-- What the environment answers.  `mapVpcoa` gives its result and the output buffer, `auraGray` the
gray plane, `now` the time that has passed and the sleeps their overshoot. -/
abbrev VendorAnswer : VendorCall → Type
  | .boolProperty _ _ => Bool
  | .intProperty _ _ => Int
  | .qualityConfig | .grayConfig | .vividConfig => UInt64
  | .now | .sleepUntil _ | .sleepFor _ => Nat
  | .lockAsync _ => LockResult
  | .unlock _ => Unit
  | .mapVpcoa _ => Int × List UInt8
  | .auraGray _ => List UInt8
  | .submittedMarker | .displayingMarker => UInt32
  | .update _ => Int

/-- An answered vendor call. -/
abbrev VendorEvent := Answered VendorCall VendorAnswer

/-! ### The backend -/

inductive BackendState
  | stopped | resolved | initialized | submitted | poisoned
  deriving DecidableEq, Repr

/-- `LowerEngineDirectBackend::Impl` with its diagnostics; `clock` is the last clock reading. -/
structure Backend where
  state : BackendState := .stopped
  qualitySequences : Nat := 0
  qualityWhitenedPixels : Nat := 0
  latestQualityNs : Int := 0
  rejectedFrames : Nat := 0
  disarmedFrames : Nat := 0
  submissions : Nat := 0
  fullControlSubmissions : Nat := 0
  differentialSubmissions : Nat := 0
  differentialFailures : Nat := 0
  updateResult : Int := 0
  completionUnknownSubmissions : Nat := 0
  completionTimeoutObservations : Nat := 0
  pendingSubmissionId : Nat := 0
  pendingTimeoutElapsedNs : Int := 0
  pendingCompletionUnknown : Bool := false
  completionObserver : SubmissionObserver := {}
  lastSubmission : TimePoint := 0
  arrangedGrayscale : List UInt8 := []
  qualityHistory : ColorQualityHistory := {}
  qualityConfig : UInt64 := 0
  grayConfig : UInt64 := 0
  vividConfig : UInt64 := 0
  whiteInput : List UInt8 := []
  colorInput : List UInt8 := []
  colorOutput : List UInt8 := []
  colorGrayscale : List UInt8 := []
  clock : TimePoint := 0
  deriving DecidableEq, Repr

namespace Backend

def countRejected (b : Backend) : Backend := { b with rejectedFrames := b.rejectedFrames + 1 }

def poison (b : Backend) : Backend := { b with state := .poisoned }

def resetQualityHistory (b : Backend) : Backend :=
  { b with qualityHistory := b.qualityHistory.reset }

end Backend

/-- A part of `Submit`: an early return is its `return false`. -/
abbrev Submission := Procedure VendorCall VendorAnswer Backend

open Procedure

def boolProperty (name : String) (defaultValue : Bool) : Submission Bool :=
  call (VendorCall.boolProperty name defaultValue)

def intProperty (name : String) (defaultValue : Int) : Submission Int :=
  call (VendorCall.intProperty name defaultValue)

def lockAsync (buffer : GraphicBuffer) : Submission LockResult := call (VendorCall.lockAsync buffer)

def unlock (buffer : GraphicBuffer) : Submission Unit := call (VendorCall.unlock buffer)

def mapVpcoa (input : List UInt8) : Submission (Int × List UInt8) :=
    call (VendorCall.mapVpcoa input)

def auraGray (rgba : List UInt8) : Submission (List UInt8) := call (VendorCall.auraGray rgba)

def submittedMarker : Submission UInt32 := call VendorCall.submittedMarker

def update (arguments : UpdateArguments) : Submission Int := call (VendorCall.update arguments)

/-- `steady_clock::now()`. -/
def now : Submission TimePoint := do
  let passed ← (call VendorCall.now : Submission Nat)
  modify fun b => { b with clock := b.clock + passed }
  let b ← get
  pure b.clock

def sleepUntil (deadline : TimePoint) : Submission Unit := do
  let overshoot ← (call (VendorCall.sleepUntil deadline) : Submission Nat)
  modify fun b => { b with clock := max b.clock deadline + overshoot }

/-! ### Properties -/

def continuousModeEnabled (p : EinkDeviceProfile) : Submission Bool :=
  boolProperty "debug.neo2.eink.continuous" p.displayEnabledByDefault

def presentationEnabled (p : EinkDeviceProfile) : Submission Bool :=
  boolProperty "debug.neo2.eink.enabled" p.displayEnabledByDefault

/-- `ActiveSubmissionLimit`; continuous mode has the largest 64-bit limit. -/
def activeSubmissionLimit (p : EinkDeviceProfile) : Submission Nat := do
  let continuous ← continuousModeEnabled p
  if continuous then pure (2 ^ 64 - 1)
  else do
    let configured ← intProperty "debug.neo2.eink.max_updates" kM4DefaultSubmissionLimit
    pure (clamp configured 1 kM4HardSubmissionLimit).toNat

/-- `MinimumSubmissionInterval`, in nanoseconds. -/
def minimumSubmissionInterval : Submission Duration := do
  let configured ← intProperty "debug.neo2.eink.min_interval_ms" kM4DefaultMinimumIntervalMs
  pure (clamp configured kM4MinimumIntervalMs kM4MaximumIntervalMs * nsPerMs)

/-! ### Markers -/

/-- Below the timeout the cast of the elapsed milliseconds tells that the deadline is ahead. -/
theorem lt_of_elapsed_lt {elapsedNs : Int}
    (h : toUInt64 (elapsedNs.tdiv nsPerMs) < kMarkerStartTimeoutMs) :
    elapsedNs < kMarkerStartTimeoutMs * nsPerMs := by
  unfold kMarkerStartTimeoutMs nsPerMs at *
  by_cases hneg : elapsedNs < 0
  · omega
  · rw [Int.tdiv_eq_ediv_of_nonneg (by omega), toUInt64] at h
    split at h <;> omega

/-- `WaitForMarkerStart`: poll until the next marker is being displayed; on drift or after the
timeout the backend is poisoned. -/
def waitForMarkerStart (before : UInt32) (acceptedAt : TimePoint) : Submission Bool := fun b =>
  .call VendorCall.submittedMarker fun (submitted : UInt32) =>
  .call VendorCall.displayingMarker fun (displaying : UInt32) =>
  .call VendorCall.now fun (passed : Nat) =>
    let elapsed := (b.clock + passed - acceptedAt).tdiv nsPerMs
    match h : checkEngineMarkerStart before submitted displaying (toUInt64 elapsed)
        kMarkerStartTimeoutMs with
    | .started => .ret (some true, { b with clock := b.clock + passed })
    | .drift | .timeout =>
      .ret (some false, { b with clock := b.clock + passed }.poison.resetQualityHistory)
    | .waiting => .call (VendorCall.sleepFor (2 * nsPerMs)) fun (overshoot : Nat) =>
      waitForMarkerStart before acceptedAt
        { b with clock := b.clock + passed + 2 * nsPerMs + overshoot }
termination_by b => (acceptedAt + kMarkerStartTimeoutMs * nsPerMs - b.clock).toNat
decreasing_by
  -- the timeout has not been reached, and the sleep takes the clock closer to it
  have hlt := lt_of_elapsed_lt (checkEngineMarkerStart_waiting h)
  have hpassed : (0 : Int) ≤ (passed : Int) := Int.natCast_nonneg _
  have hovershoot : (0 : Int) ≤ (overshoot : Int) := Int.natCast_nonneg _
  simp only [nsPerMs] at hlt ⊢
  omega

/-! ### The parts of `Submit` -/

/-- The three configuration words as loaded for one submission. -/
structure Configuration where
  quality : UInt64
  gray : UInt64
  vivid : UInt64
  deriving DecidableEq, Repr

def Configuration.qualityEnabled (c : Configuration) : Bool := c.quality &&& 1 ≠ 0

/-- How a white and its target are spaced; `automatic` is `automatic_quality_pair`. -/
structure QualityGaps where
  automatic : Bool := false
  before : Duration := 0
  between : Duration := 0
  after : Duration := 0
  deriving DecidableEq, Repr

/-- An accepted white update: the marker it was given, and when its call returned. -/
structure White where
  marker : UInt32
  callReturned : TimePoint
  deriving DecidableEq, Repr

/-- What the target update is made with. -/
structure Target where
  composeHandle : Option GraphicBuffer := none
  mappedRgba : Option (List UInt8) := none
  gray : List UInt8
  white : Option White := none
  whitenedPixels : Nat := 0
  gaps : QualityGaps := {}
  deriving DecidableEq, Repr

/-- `IsObservedFullInput`. -/
def isObservedFullInput (p : EinkDeviceProfile) (frame : Frame) : Bool :=
  validateLowerEnginePlanes p frame = .ready && frame.dirtyRect.left = 0 &&
    frame.dirtyRect.top = 0 && frame.dirtyRect.right = p.panelWidth &&
    frame.dirtyRect.bottom = p.panelHeight &&
    (selectObservedUpdateEnvelope frame.engineMode).isSome && frame.policyFlag = 0 &&
    !frame.handwriting

/-- State, input, budget and rate. -/
def entryChecks (p : EinkDeviceProfile) (frame : Frame) : Submission Unit := do
  let b ← get
  refuseIf (b.state ≠ .initialized || !isObservedFullInput p frame) Backend.countRejected
  let enabled ← presentationEnabled p
  refuseIf (!enabled) fun b => { b with disarmedFrames := b.disarmedFrames + 1 }
  let continuous ← continuousModeEnabled p
  refuseIf (!continuous && b.submissions ≥ kM4HardSubmissionLimit) fun b =>
    { b with state := .submitted }.countRejected
  let limit ← activeSubmissionLimit p
  refuseIf (b.submissions ≥ limit) id
  let time ← now
  let minimumInterval ← minimumSubmissionInterval
  refuseIf (b.submissions ≠ 0 && time - b.lastSubmission < minimumInterval) Backend.countRejected

/-- Load the configuration; a change of it, or a sleep frame, ends the quality history. -/
def loadConfiguration (frame : Frame) : Submission Configuration := do
  let quality ← (call VendorCall.qualityConfig : Submission UInt64)
  let gray ← (call VendorCall.grayConfig : Submission UInt64)
  let vivid ← (call VendorCall.vividConfig : Submission UInt64)
  modify fun b =>
    if quality ≠ b.qualityConfig || gray ≠ b.grayConfig || vivid ≠ b.vividConfig ||
        frame.sleepImageEpoch ≠ 0 then
      { b.resetQualityHistory with
        qualityConfig := quality, grayConfig := gray, vividConfig := vivid }
    else b
  pure ⟨quality, gray, vivid⟩

/-- The engine mode of `selected_frame`. -/
def selectedMode (frame : Frame) : Int :=
  if frame.diagnosticRequest = 0 then frame.engineMode
  else if frame.diagnosticRefresh = .full then kObservedFullControlRecord
  else kObservedNormalDifferentialRecord

/-- `differential`. -/
def isDifferential (frame : Frame) : Bool :=
  selectedMode frame = kObservedNormalDifferentialRecord

def selectEnvelope (p : EinkDeviceProfile) (frame : Frame) : Submission ObservedUpdateEnvelope := do
  refuseIf (frame.diagnosticRequest ≠ 0 && (!p.hasColorCfa || frame.sleepImageEpoch ≠ 0)) id
  match selectObservedUpdateEnvelope (selectedMode frame) with
  | none => refuse Backend.countRejected
  | some envelope => pure envelope

/-- The owned gray plane in the controller's byte order. -/
def arrangeGrayscale (p : EinkDeviceProfile) (frame : Frame) : Submission (List UInt8) :=
  let source := (frame.grayscaleBuffer.map OwnedGrayscaleBuffer.pixels).getD []
  match p.lowerEngineGrayLayout with
  | .linear => pure source
  | .adjacentRowPairsInterleaved =>
    match interleaveAdjacentGrayscaleRows source p.panelWidth p.panelHeight with
    | none => refuse Backend.countRejected
    | some arranged => do
      modify fun b => { b with arrangedGrayscale := arranged }
      pure arranged

def unlockHandle : Option GraphicBuffer → Submission Unit
  | none => pure ()
  | some buffer => unlock buffer

/-- `if (compose_handle != nullptr) unlock(); f; return false;` -/
def refuseUnlocked {α : Type} (handle : Option GraphicBuffer) (f : Backend → Backend) :
    Submission α := do
  unlockHandle handle
  refuse f

def copyRows (address : List UInt8) (stride width height : Nat) : List UInt8 :=
  (List.range height).flatMap fun row => (address.drop (row * stride)).take (width * 4)

/-- Lock the snapshot and copy its rows. -/
def mapSnapshot (p : EinkDeviceProfile) (buffer : GraphicBuffer) : Submission Unit := do
  let lock ← lockAsync buffer
  match lock.address with
  | none => refuse Backend.countRejected
  | some address =>
    if lock.status ≠ 0 then refuse Backend.countRejected
    else if lock.bytesPerPixel ≠ 4 || lock.bytesPerStride < p.panelWidth * lock.bytesPerPixel then
      refuseUnlocked (some buffer) Backend.countRejected
    else modify fun b => { b with
      colorInput := copyRows address lock.bytesPerStride.toNat p.panelWidth p.panelHeight }

/-- Fill `color_input`, and keep the locked buffer it came from. -/
def acquireColor (p : EinkDeviceProfile) (frame : Frame) : Submission (Option GraphicBuffer) :=
  match frame.composeBuffer with
  | none =>
    match frame.sleepImageRgba with
    | some rgba => do
      let b ← get
      refuseIf (frame.sleepImageEpoch = 0 || rgba.length ≠ b.colorInput.length)
        Backend.countRejected
      modify fun b => { b with colorInput := rgba }
      pure none
    | none =>
      match expandSleepGrayscaleToRgba frame with
      | none => refuse Backend.countRejected
      | some rgba => do
        modify fun b => { b with colorInput := rgba }
        pure none
  | some .portable => refuse Backend.countRejected
  | some (.android none _) => refuse Backend.countRejected
  | some (.android (some buffer) lease) => do
    refuseIf (lease.isNone || buffer.width ≠ p.panelWidth || buffer.height ≠ p.panelHeight ||
      buffer.pixelFormat ≠ .rgba8888) Backend.countRejected
    mapSnapshot p buffer
    pure (some buffer)

/-- Gray preference and vivid colour. -/
def treatColor (c : Configuration) (b : Backend) : Backend :=
  let gray := applyGrayPreference b.colorInput (grayPreference c.gray)
  { b with colorInput := if c.vivid &&& 1 ≠ 0 then applyVividColor gray else gray }

/-- Fill `white_input`; the number of whitened pixels. -/
def prepareWhite (frame : Frame) (c : Configuration) : Submission Nat := do
  let b ← get
  if frame.diagnosticRefresh = .whiteThenTarget then do
    modify fun b => { b with whiteInput := List.replicate b.colorInput.length 0xff }
    pure (b.colorInput.length / 4)
  else if frame.sleepImageEpoch = 0 && (frame.diagnosticRefresh = .colorCleanup ||
      (c.qualityEnabled && frame.diagnosticRequest = 0 && isDifferential frame)) then do
    let chroma ← intProperty "debug.neo2.eink.quality_chroma" 24
    let change ← intProperty "debug.neo2.eink.quality_delta" 12
    let nearWhite ← intProperty "debug.neo2.eink.quality_white" 232
    let prepared := b.qualityHistory.prepare b.colorInput ⟨chroma, change, nearWhite⟩
      (frame.diagnosticRefresh = .colorCleanup)
    modify fun b => { b with whiteInput := prepared.2 }
    pure prepared.1
  else pure 0

/-- One of the optional gaps; zero unless the build is debuggable. -/
def gap (debuggable : Bool) (name : String) : Submission Duration := do
  let configured : Int ←
    if debuggable then intProperty name kColorQualityGuardMs
    else pure kColorQualityGuardMs
  pure (clamp configured 0 1000 * nsPerMs)

def planGaps (frame : Frame) (c : Configuration) : Submission QualityGaps := do
  if c.qualityEnabled && frame.diagnosticRequest = 0 && frame.diagnosticRefresh = .none &&
      frame.sleepImageEpoch = 0 && isDifferential frame then do
    let debuggable ← boolProperty "ro.debuggable" false
    let before ← gap debuggable "debug.neo2.eink.quality_before_ms"
    let between ← gap debuggable "debug.neo2.eink.quality_between_ms"
    let after ← gap debuggable "debug.neo2.eink.quality_after_ms"
    pure ⟨true, before, between, after⟩
  else pure {}

/-- `InvokeUpdate`: the colour engine takes the mapped plane, the monochrome one the handle. -/
def invokeUpdate (p : EinkDeviceProfile) (handle : Option GraphicBuffer)
    (mappedRgba : Option (List UInt8)) (gray : List UInt8) (envelope : ObservedUpdateEnvelope) :
    Submission Int :=
  if p.variant = .auraC then update ⟨none, mappedRgba, gray, envelope⟩
  else update ⟨handle, none, gray, envelope⟩

/-- Map `input` to the panel and derive its gray plane; `poisoned` is what a failure makes of the
backend. -/
def mapColor (handle : Option GraphicBuffer) (input : List UInt8) (poisoned : Backend → Backend) :
    Submission (List UInt8 × List UInt8) := do
  let mapping ← mapVpcoa input
  modify fun b => { b with colorOutput := mapping.2 }
  if mapping.1 ≠ 0 then refuseUnlocked handle poisoned
  else do
    let gray ← auraGray mapping.2
    modify fun b => { b with colorGrayscale := gray }
    pure (mapping.2, gray)

/-- The white update of a pair. -/
def submitWhite (p : EinkDeviceProfile) (frame : Frame) (handle : Option GraphicBuffer)
    (gaps : QualityGaps) : Submission White := do
  let b ← get
  let limit ← activeSubmissionLimit p
  if b.submissions + 2 > limit then refuseUnlocked handle id
  else do
    let (mapped, gray) ← mapColor handle b.whiteInput Backend.poison
    onlyIf (gaps.automatic && b.submissions ≠ 0) (sleepUntil (b.lastSubmission + gaps.before))
    let _started ← now
    let before ← submittedMarker
    if !canTrackNextEngineMarker before then refuseUnlocked handle Backend.poison
    else do
      let result ← invokeUpdate p handle (some mapped) gray ⟨3, 0, 0⟩
      let returned ← now
      modify fun b => { b with
        submissions := b.submissions + 1
        differentialSubmissions := b.differentialSubmissions + 1
        lastSubmission := returned }
      if result ≠ kObservedUpdateAcceptedResult then
        -- never retry an uncertain partially submitted sequence
        refuseUnlocked handle fun b => { b.poison with
          updateResult := result
          differentialFailures := b.differentialFailures + 1 }
      else do
        modify fun b => { b with
          completionObserver := b.completionObserver.recordAccepted frame.sequence returned }
        pure ⟨before + 1, returned⟩

/-- The colour path up to the target update. -/
def prepareColorTarget (p : EinkDeviceProfile) (frame : Frame) (c : Configuration) :
    Submission Target := do
  let handle ← acquireColor p frame
  modify (treatColor c)
  let whitenedPixels ← prepareWhite frame c
  if whitenedPixels = 0 then do
    let b ← get
    let (mapped, gray) ← mapColor handle b.colorInput fun b => b.countRejected.poison
    pure { composeHandle := handle, mappedRgba := some mapped, gray := gray }
  else do
    let gaps ← planGaps frame c
    let white ← submitWhite p frame handle gaps
    let b ← get
    let (mapped, gray) ← mapColor handle b.colorInput fun b => b.countRejected.poison
    pure { composeHandle := handle, mappedRgba := some mapped, gray := gray,
           white := some white, whitenedPixels := whitenedPixels, gaps := gaps }

/-- The target of a pair waits until the white is being displayed. -/
def awaitWhite (target : Target) : Submission Unit :=
  match target.white with
  | none => pure ()
  | some white => do
    let minimumInterval ← minimumSubmissionInterval
    let b ← get
    sleepUntil (b.lastSubmission + max minimumInterval target.gaps.between)
    let started ← waitForMarkerStart (white.marker - 1) white.callReturned
    if started then pure () else refuseUnlocked target.composeHandle id

/-- `before_target_marker`, which must still be the white's marker. -/
def readTargetMarker (target : Target) : Submission UInt32 :=
  match target.white with
  | none => pure 0
  | some white => do
    let before ← submittedMarker
    if before ≠ white.marker || !canTrackNextEngineMarker before then
      refuseUnlocked target.composeHandle fun b => b.poison.resetQualityHistory
    else pure before

/-- The target update; the marker before it, and when its call returned. -/
def submitTarget (p : EinkDeviceProfile) (frame : Frame) (target : Target)
    (envelope : ObservedUpdateEnvelope) : Submission White := do
  let _started ← now
  let before ← readTargetMarker target
  let result ← invokeUpdate p target.composeHandle target.mappedRgba target.gray envelope
  let returned ← now
  onlyIf (p.variant = .auraC) (unlockHandle target.composeHandle)
  modify fun b =>
    let b := { b with updateResult := result, submissions := b.submissions + 1 }
    if isDifferential frame then
      { b with differentialSubmissions := b.differentialSubmissions + 1 }
    else { b with fullControlSubmissions := b.fullControlSubmissions + 1 }
  refuseIf (result ≠ kObservedUpdateAcceptedResult) fun b => { b.poison with
    differentialFailures := b.differentialFailures + (isDifferential frame).toNat }
  pure ⟨before, returned⟩

/-- The target of a pair must be seen started as well. -/
def awaitTarget (target : Target) (submitted : White) : Submission Unit :=
  onlyIf target.white.isSome do
    let displayed ← waitForMarkerStart submitted.marker submitted.callReturned
    refuseIf (!displayed) id

/-- An accepted target defines the quality history. -/
def acceptTarget (p : EinkDeviceProfile) (frame : Frame) (c : Configuration) (started : TimePoint)
    (target : Target) (submitted : White) : Submission Unit :=
  onlyIf p.hasColorCfa do
    awaitTarget target submitted
    modify fun b =>
      if c.qualityEnabled && frame.sleepImageEpoch = 0 then
        { b with qualityHistory := b.qualityHistory.accept b.colorInput }
      else b.resetQualityHistory
    onlyIf target.white.isSome do
      let time ← now
      modify fun b => { b with
        qualitySequences := b.qualitySequences + 1
        qualityWhitenedPixels := target.whitenedPixels
        latestQualityNs := time - started }

/-- Hold a pair, then record the accepted submission. -/
def finish (p : EinkDeviceProfile) (frame : Frame) (target : Target) (returned : TimePoint) :
    Submission Unit := do
  onlyIf (target.gaps.automatic && target.white.isSome) (sleepUntil (returned + target.gaps.after))
  let time ← now
  modify fun b =>
    let observer := b.completionObserver.recordAccepted frame.sequence time
    { b with
      lastSubmission := time
      completionObserver := observer
      completionUnknownSubmissions := observer.completionUnknownSubmissions
      completionTimeoutObservations := observer.timeoutObservations
      pendingSubmissionId := observer.latestSubmissionId
      pendingTimeoutElapsedNs := observer.latestTimeoutElapsedNs
      pendingCompletionUnknown := observer.pendingCompletionUnknown }
  let continuous ← continuousModeEnabled p
  modify fun b =>
    if !continuous && b.submissions = kM4HardSubmissionLimit then { b with state := .submitted }
    else b

/-- The monochrome and the colour path up to the target update. -/
def prepareTarget (p : EinkDeviceProfile) (frame : Frame) (c : Configuration) :
    Submission Target := do
  let gray ← arrangeGrayscale p frame
  if p.hasColorCfa then prepareColorTarget p frame c else pure { gray := gray }

/-- `LowerEngineDirectBackend::Submit`. -/
def submit (p : EinkDeviceProfile) (frame : Frame) : Submission Unit := do
  entryChecks p frame
  let started ← now
  let c ← loadConfiguration frame
  let envelope ← selectEnvelope p frame
  let target ← prepareTarget p frame c
  awaitWhite target
  let submitted ← submitTarget p frame target envelope
  acceptTarget p frame c started target submitted
  finish p frame target submitted.callReturned

/-! ### The backend as a labelled system -/

/-- One `Submit` with the answers of the environment. -/
structure SubmitAction where
  frame : Frame
  calls : List VendorEvent

/-- A `Submit` that has returned. -/
structure Submitted where
  frame : Frame
  calls : List VendorEvent
  accepted : Bool

/-- `Submit`s follow one another; `calls` must be exactly the calls that the `Submit` makes. -/
def system (p : EinkDeviceProfile) : System Backend SubmitAction Submitted where
  step b a :=
    ((submit p a.frame).run b |>.replay a.calls).map fun r =>
      (r.2, [⟨a.frame, a.calls, r.1.isSome⟩])

end EinkLab.LowerEngine
