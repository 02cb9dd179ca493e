import Mathlib.Data.List.Basic

/-!
# Frames

The values that travel from the capture seam to the panel engine: rectangles, owned grayscale
planes, captured graphic buffers and `Frame` (`eink_presentation_adapter.h`).

A `GraphicBuffer` carries what a CPU lock of it returns (`LockResult`), so that a captured buffer
fixes every byte the converter or the engine can read from it.  Times are the nanosecond count of
the steady clock; `0` is the default `time_point{}`.
-/

namespace EinkLab

abbrev TimePoint := Int
abbrev Duration := Int

/-- `RefreshMode`: the engine mode values observed on stock devices. -/
inductive RefreshMode
  | automatic | duPartial | gc16Partial | gl16Partial | glr16Partial | animationPartial
  | autoPartial | fullUpdate
  deriving DecidableEq, Repr

def toEngineMode : RefreshMode → Int
  | .automatic => 0
  | .duPartial => 1
  | .gc16Partial => 2
  | .gl16Partial => 3
  | .glr16Partial => 4
  | .animationPartial => 6
  | .autoPartial => 15
  | .fullUpdate => 32

structure Rect where
  left : Int := 0
  top : Int := 0
  right : Int := 0
  bottom : Int := 0
  deriving DecidableEq, Repr

def Rect.isValid (r : Rect) : Bool :=
  r.left ≥ 0 && r.top ≥ 0 && r.right > r.left && r.bottom > r.top

/-- The full-frame rectangle of a `width × height` buffer. -/
def Rect.full (width height : Int) : Rect where
  right := width
  bottom := height

/-- An owned grayscale plane; its byte count is the length of `pixels`. -/
structure OwnedGrayscaleBuffer where
  width : Int
  height : Int
  pixels : List UInt8
  deriving DecidableEq, Repr

def OwnedGrayscaleBuffer.byteCount (b : OwnedGrayscaleBuffer) : Nat := b.pixels.length

inductive PixelFormat
  | rgba8888 | rgbx8888 | bgra8888 | other
  deriving DecidableEq, Repr

/-- What `lockAsync` for a CPU read returns: status (`0` is `NO_ERROR`), the mapped bytes (`none`
is a null address), and the bytes per pixel and per row. -/
structure LockResult where
  status : Int
  address : Option (List UInt8)
  bytesPerPixel : Int
  bytesPerStride : Int
  deriving DecidableEq, Repr

structure GraphicBuffer where
  protectedUsage : Bool
  pixelFormat : PixelFormat
  width : Nat
  height : Nat
  mapping : LockResult
  deriving DecidableEq, Repr

/-- An opaque `ComposeBuffer`: a portable one (type tag `0`), or an `AndroidComposeBuffer` with its
graphic buffer and the snapshot lease it owns. -/
inductive ComposeBuffer
  | portable
  | android (buffer : Option GraphicBuffer) (ownershipLease : Option Nat)
  deriving DecidableEq, Repr

inductive DiagnosticRefresh
  | none | differential | full | whiteThenTarget | colorCleanup
  deriving DecidableEq, Repr

structure Frame where
  sequence : Nat := 0
  /-- Nonzero only for a lifecycle-driven sleep-image submission. -/
  sleepImageEpoch : Nat := 0
  capturedAt : TimePoint := 0
  enqueuedAt : TimePoint := 0
  composeBuffer : Option ComposeBuffer := none
  sourceBuffer : Option ComposeBuffer := none
  grayscaleBuffer : Option OwnedGrayscaleBuffer := none
  /-- Owned, composited RGBA only for a color sleep-image frame. -/
  sleepImageRgba : Option (List UInt8) := none
  dirtyRect : Rect := {}
  engineMode : Int := toEngineMode .gl16Partial
  policyFlag : Int := 0
  handwriting : Bool := false
  diagnosticRefresh : DiagnosticRefresh := .none
  diagnosticRequest : Nat := 0
  deriving DecidableEq, Repr

namespace Frame

/-- A frame of ordinary content, as opposed to a lifecycle sleep image. -/
abbrev IsOrdinary (f : Frame) : Prop := f.sleepImageEpoch = 0

/-- The frame without the diagnostic request it carries. -/
def clearDiagnostic (f : Frame) : Frame :=
  { f with diagnosticRefresh := .none, diagnosticRequest := 0 }

/-- `f`, carrying the diagnostic request of `g` in place of its own. -/
def withDiagnosticOf (f g : Frame) : Frame :=
  { f with diagnosticRefresh := g.diagnosticRefresh, diagnosticRequest := g.diagnosticRequest }

@[simp] theorem clearDiagnostic_withDiagnosticOf (f g : Frame) :
    (f.withDiagnosticOf g).clearDiagnostic = f.clearDiagnostic := rfl

end Frame

end EinkLab
