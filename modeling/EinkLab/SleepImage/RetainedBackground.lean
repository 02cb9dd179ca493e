import EinkLab.SleepImage.Latch
import EinkLab.SleepImage.Overlay
import EinkLab.Transition.Run

/-!
# The retained background

`SleepImageBackground` (`eink_sleep_image_background.cpp`) with the dimensions it was constructed
with, which are plain `int`s, and a grayscale buffer whose `Data()` may be null.  Its methods are
the actions of a system; `PrepareOverlay` is `const`.
-/

namespace EinkLab

open Transition

structure RetainedBackground where
  expectedWidth : Int
  expectedHeight : Int
  sequence : Nat := 0
  panelGray : List UInt8 := []
  deriving DecidableEq, Repr

namespace RetainedBackground

/-- A `GrayscaleBuffer`: a byte count over a null pointer, or a plane. -/
inductive GrayscaleBuffer
  | null (byteCount : Nat)
  | plane (pixels : List UInt8)
  deriving DecidableEq, Repr

namespace GrayscaleBuffer

def byteCount : GrayscaleBuffer → Nat
  | null byteCount => byteCount
  | plane pixels => pixels.length

def data : GrayscaleBuffer → Option (List UInt8)
  | null _ => none
  | plane pixels => some pixels

end GrayscaleBuffer

/-- What `ObserveSubmission` reads of a frame. -/
structure ObservedFrame where
  sequence : Nat
  sleepImageEpoch : Nat := 0
  dirtyRect : Rect
  grayscaleBuffer : Option GrayscaleBuffer
  deriving DecidableEq, Repr

def expectedBytes (width height : Int) : Option Nat :=
  if width ≤ 0 || height ≤ 0 then none
  else if width.toNat > sizeMax / height.toNat then none
  else some (width.toNat * height.toNat)

def observeSubmission (b : RetainedBackground) (frame : ObservedFrame) (accepted : Bool) :
    SleepImageBackgroundResult × RetainedBackground :=
  if !accepted then (.rejectedSubmission, b)
  else if frame.sleepImageEpoch ≠ 0 then (.rejectedSleepImage, b)
  else if frame.sequence = 0 then (.rejectedStale, b)
  else if frame.dirtyRect.left ≠ 0 || frame.dirtyRect.top ≠ 0 ||
      frame.dirtyRect.right ≠ b.expectedWidth || frame.dirtyRect.bottom ≠ b.expectedHeight then
    (.rejectedGeometry, b)
  else
    match expectedBytes b.expectedWidth b.expectedHeight, frame.grayscaleBuffer with
    | some expectedBytes, some buffer =>
      if buffer.byteCount ≠ expectedBytes then (.rejectedBytes, b)
      else
        match buffer.data with
        | none => (.rejectedBytes, b)
        | some pixels =>
          if !isPanelGray pixels then (.rejectedPanelGray, b)
          else if frame.sequence ≤ b.sequence then (.rejectedStale, b)
          else (.retained, { b with panelGray := pixels, sequence := frame.sequence })
    | _, _ => (.rejectedBytes, b)

structure PreparedOverlay where
  result : SleepImageOverlayPreparationResult
  panelGray : List UInt8 := []
  rgba : List UInt8 := []
  deriving DecidableEq, Repr

def prepareOverlay (b : RetainedBackground) (foreground alpha rgba : List UInt8) :
    PreparedOverlay :=
  if b.panelGray.isEmpty then ⟨.rejectedNoBackground, [], []⟩
  else
    let composed := composeSleepImageOverlay foreground alpha b.panelGray rgba
    if composed.result ≠ .composited then ⟨.rejectedForeground, [], []⟩
    else ⟨.composited, composed.panelGray, composed.rgba⟩

def release (b : RetainedBackground) : RetainedBackground :=
  { b with panelGray := [], sequence := 0 }

/-! ### The system -/

inductive Action
  | observe (frame : ObservedFrame) (accepted : Bool)
  | prepare (foreground alpha rgba : List UInt8)
  | release

inductive Event
  | observed (frame : ObservedFrame) (accepted : Bool) (result : SleepImageBackgroundResult)
  | prepared (overlay : PreparedOverlay)
  | released

def step (b : RetainedBackground) : Action → Option (RetainedBackground × List Event)
  | .observe frame accepted =>
    let (result, b) := b.observeSubmission frame accepted
    some (b, [.observed frame accepted result])
  | .prepare foreground alpha rgba => some (b, [.prepared (b.prepareOverlay foreground alpha rgba)])
  | .release => some (b.release, [.released])

def system : System RetainedBackground Action Event := ⟨step⟩

end RetainedBackground

end EinkLab
