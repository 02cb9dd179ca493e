import EinkLab.Frame.DeviceProfile
import EinkLab.Frame.Frame

/-!
# Contracts of the lower engine

What the direct backend requires of a frame's planes (`eink_lower_engine_plane_contract.h`), the
byte order of the owned gray plane (`eink_lower_engine_layout.cpp`), the guard over the engine's
progress markers (`eink_engine_marker_guard.h`) and the observer of accepted submissions
(`eink_submission_observer.cpp`).
-/

namespace EinkLab.LowerEngine

/-! ### Planes -/

inductive LowerEnginePlaneStatus
  | ready | unexpectedSourcePlane | missingGrayscalePlane | invalidGrayscaleSize
  | missingColorPlane | unexpectedColorPlane
  deriving DecidableEq, Repr

/-- `ValidateLowerEnginePlanes`.  Panel sizes are 32-bit, so their product fits a `size_t`. -/
def validateLowerEnginePlanes (profile : EinkDeviceProfile) (frame : Frame) :
    LowerEnginePlaneStatus :=
  if frame.sourceBuffer.isSome then .unexpectedSourcePlane
  else
    match frame.grayscaleBuffer with
    | none => .missingGrayscalePlane
    | some gray =>
      if gray.byteCount ≠ profile.panelWidth * profile.panelHeight then .invalidGrayscaleSize
      else if profile.hasColorCfa then
        if frame.composeBuffer.isSome || frame.sleepImageEpoch ≠ 0 then .ready
        else .missingColorPlane
      else if frame.composeBuffer.isNone then .ready
      else .unexpectedColorPlane

/-- The gray value of a sleep image as an opaque pixel, its high nibble repeated. -/
def expandGray (gray : UInt8) : List UInt8 :=
  let value := (gray &&& (0xf0 : UInt8)) ||| (gray >>> (4 : UInt8))
  [value, value, value, 0xff]

/-- `ExpandSleepGrayscaleToRgba`; `none` is its refusal. -/
def expandSleepGrayscaleToRgba (frame : Frame) : Option (List UInt8) :=
  if frame.sleepImageEpoch = 0 || frame.composeBuffer.isSome || frame.sourceBuffer.isSome then none
  else
    match frame.grayscaleBuffer with
    | none => none
    | some gray => if gray.pixels.isEmpty then none else some (gray.pixels.flatMap expandGray)

/-! ### Layout -/

/-- Two rows, pixel by pixel in turn. -/
def interleaveRows (first second : List UInt8) : List UInt8 :=
  (first.zip second).flatMap fun p => [p.1, p.2]

/-- `pairs` pairs of adjacent rows of the given width. -/
def interleaveRowPairs (width : Nat) : Nat → List UInt8 → List UInt8
  | 0, _ => []
  | pairs + 1, source =>
    interleaveRows (source.take width) ((source.drop width).take width) ++
      interleaveRowPairs width pairs (source.drop (2 * width))

/-- `InterleaveAdjacentGrayscaleRows`; `none` is its refusal. -/
def interleaveAdjacentGrayscaleRows (source : List UInt8) (width height : Int) :
    Option (List UInt8) :=
  if width ≤ 0 || height ≤ 0 || height % 2 ≠ 0 then none
  else if source.length ≠ width.toNat * height.toNat then none
  else some (interleaveRowPairs width.toNat (height.toNat / 2) source)

/-! ### Markers -/

inductive EngineMarkerProgress
  | waiting | started | drift | timeout
  deriving DecidableEq, Repr

/-- The retained engine special-cases `UINT32_MAX`. -/
def canTrackNextEngineMarker (before : UInt32) : Bool := before < 0xffffffff - 1

def checkEngineMarkerStart (before submitted displaying : UInt32) (elapsedMs timeoutMs : Nat) :
    EngineMarkerProgress :=
  if !canTrackNextEngineMarker before || submitted ≠ before + 1 ||
    displaying > submitted then .drift
  else if elapsedMs ≥ timeoutMs then .timeout
  else if displaying = submitted then .started
  else .waiting

theorem checkEngineMarkerStart_started {before submitted displaying : UInt32}
    {elapsed timeout : Nat}
    (h : checkEngineMarkerStart before submitted displaying elapsed timeout = .started) :
    canTrackNextEngineMarker before = true ∧ submitted = before + 1 ∧ displaying = submitted := by
  unfold checkEngineMarkerStart at h
  split at h
  · cases h
  · next hdrift =>
    simp only [Bool.or_eq_true, Bool.not_eq_true', decide_eq_true_eq, not_or, Bool.not_eq_false,
      not_not] at hdrift
    split at h
    · cases h
    · split at h
      · next heq => exact ⟨hdrift.1.1, hdrift.1.2, heq⟩
      · cases h

theorem checkEngineMarkerStart_waiting {before submitted displaying : UInt32}
    {elapsed timeout : Nat}
    (h : checkEngineMarkerStart before submitted displaying elapsed timeout = .waiting) :
    elapsed < timeout := by
  unfold checkEngineMarkerStart at h
  split at h
  · cases h
  · split at h
    · cases h
    · next helapsed => exact Nat.lt_of_not_le helapsed

/-! ### Accepted submissions -/

structure SubmissionObserver where
  acceptedSubmissions : Nat := 0
  completionUnknownSubmissions : Nat := 0
  timeoutObservations : Nat := 0
  latestSubmissionId : Nat := 0
  latestSubmitNs : Int := 0
  latestTimeoutElapsedNs : Int := 0
  pendingCompletionUnknown : Bool := false
  latestTimeoutRecorded : Bool := false
  deriving DecidableEq, Repr

def SubmissionObserver.recordAccepted (o : SubmissionObserver) (submissionId : Nat)
    (submittedAtNs : Int) : SubmissionObserver :=
  { o with
    acceptedSubmissions := o.acceptedSubmissions + 1
    completionUnknownSubmissions := o.completionUnknownSubmissions + 1
    latestSubmissionId := submissionId
    latestSubmitNs := submittedAtNs
    latestTimeoutElapsedNs := 0
    pendingCompletionUnknown := true
    latestTimeoutRecorded := false }

end EinkLab.LowerEngine
