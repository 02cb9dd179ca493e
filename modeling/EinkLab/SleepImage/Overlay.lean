import EinkLab.SleepImage.Catalog

/-!
# Sleep images over the page

`ComposeSleepImageOverlay` (`eink_sleep_image_overlay.cpp`) blends a sleep image with a background
plane; `SleepImageBackground` (`eink_sleep_image_background.cpp`) retains the last ordinary full
frame the engine accepted, as the background of the next overlay.
-/

namespace EinkLab

/-! ### Composition -/

inductive SleepImageOverlayResult
  | composited | rejectedBytes | rejectedPanelGray
  deriving DecidableEq, Repr

structure SleepImageOverlayOutput where
  result : SleepImageOverlayResult
  panelGray : List UInt8 := []
  rgba : List UInt8 := []
  deriving DecidableEq, Repr

/-- The nearest of the 16 panel levels. -/
def quantizePanelGray (gray : Nat) : UInt8 := UInt8.ofNat (min 15 ((gray + 8) / 16) * 16)

/-- Source-over with the given coverage, rounded once. -/
def blend (foreground background alpha : Nat) : Nat :=
  (foreground * alpha + background * (255 - alpha) + 127) / 255

/-- The blended panel plane. -/
def blendGray (foreground alpha background : List UInt8) : List UInt8 :=
  (foreground.zip (alpha.zip background)).map fun p =>
    quantizePanelGray (blend p.1.toNat p.2.2.toNat p.2.1.toNat)

/-- The blended colour plane: the background counts as gray, and the result is opaque. -/
def blendRgba : List UInt8 → List UInt8 → List UInt8 → List UInt8
  | red :: green :: blue :: _ :: rgba, alpha :: alphas, background :: backgrounds =>
    let gray := (background ||| (background >>> (4 : UInt8))).toNat
    let channel (c : UInt8) : UInt8 := UInt8.ofNat (blend c.toNat gray alpha.toNat)
    channel red :: channel green :: channel blue :: 255 :: blendRgba rgba alphas backgrounds
  | _, _, _ => []

def composeSleepImageOverlay (foreground alpha background rgba : List UInt8) :
    SleepImageOverlayOutput :=
  if foreground.isEmpty || foreground.length ≠ alpha.length ||
      foreground.length ≠ background.length ||
      (!rgba.isEmpty && (rgba.length / 4 ≠ foreground.length || rgba.length % 4 ≠ 0)) then
    ⟨.rejectedBytes, [], []⟩
  else if !isPanelGray foreground || !isPanelGray background then ⟨.rejectedPanelGray, [], []⟩
  else ⟨.composited, blendGray foreground alpha background, blendRgba rgba alpha background⟩

/-! ### The background -/

inductive SleepImageBackgroundResult
  | retained | rejectedSubmission | rejectedSleepImage | rejectedGeometry | rejectedBytes
  | rejectedPanelGray | rejectedStale
  deriving DecidableEq, Repr

inductive SleepImageOverlayPreparationResult
  | composited | rejectedNoBackground | rejectedForeground
  deriving DecidableEq, Repr

/-- The retained frame: its sequence (`0` when there is none) and its panel plane. -/
structure SleepImageBackground where
  sequence : Nat := 0
  panelGray : List UInt8 := []
  deriving DecidableEq, Repr

namespace SleepImageBackground

/-- The checks of `ObserveSubmission` before it takes its lock. -/
def refusal (p : EinkDeviceProfile) (frame : Frame) (accepted : Bool) :
    Option SleepImageBackgroundResult :=
  if !accepted then some .rejectedSubmission
  else if frame.sleepImageEpoch ≠ 0 then some .rejectedSleepImage
  else if frame.sequence = 0 then some .rejectedStale
  else if frame.dirtyRect ≠ Rect.full p.panelWidth p.panelHeight then some .rejectedGeometry
  else
    match frame.grayscaleBuffer with
    | none => some .rejectedBytes
    | some gray =>
      if p.panelWidth = 0 || p.panelHeight = 0 || gray.byteCount ≠ p.panelBytes then
        some .rejectedBytes
      else if !isPanelGray gray.pixels then some .rejectedPanelGray
      else none

/-- The owned plane of a frame. -/
def pixelsOf (frame : Frame) : List UInt8 :=
  (frame.grayscaleBuffer.map OwnedGrayscaleBuffer.pixels).getD []

def observeSubmission (b : SleepImageBackground) (p : EinkDeviceProfile) (frame : Frame)
    (accepted : Bool) : SleepImageBackgroundResult × SleepImageBackground :=
  match refusal p frame accepted with
  | some result => (result, b)
  | none =>
    if frame.sequence ≤ b.sequence then (.rejectedStale, b)
    else (.retained, ⟨frame.sequence, pixelsOf frame⟩)

def release (_ : SleepImageBackground) : SleepImageBackground := {}

def available (b : SleepImageBackground) : Bool := !b.panelGray.isEmpty

def prepareOverlay (b : SleepImageBackground) (foreground alpha rgba : List UInt8) :
    SleepImageOverlayPreparationResult × List UInt8 × List UInt8 :=
  if b.panelGray.isEmpty then (.rejectedNoBackground, [], [])
  else
    let composed := composeSleepImageOverlay foreground alpha b.panelGray rgba
    if composed.result ≠ .composited then (.rejectedForeground, [], [])
    else (.composited, composed.panelGray, composed.rgba)

end SleepImageBackground

end EinkLab
