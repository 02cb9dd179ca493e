import EinkLab.Frame.Frame
import EinkLab.Transition.Program
import Mathlib.Algebra.Group.Nat.Defs

/-!
# The grayscale converter

`AndroidGrayscaleConverter::Convert` as a `Procedure`: the fence's `dup`, the lock and the unlock of
the buffer are calls that the environment answers, and `return nullptr` is an early return.  The
signature of the source, by `RgbFrameTracker::Update` or `FingerprintRgb`, is a parameter; its state
is the tracker's.
-/

namespace EinkLab.AndroidGrayscaleConverter

open Transition Procedure

/-! ### `ConvertToGrayscale` -/

inductive RgbaLayout
  | rgba8888 | bgra8888
  deriving DecidableEq, Repr

inductive Rotation
  | none | clockwise90 | counterClockwise90
  deriving DecidableEq, Repr

structure RgbaSource where
  pixels : List UInt8
  width : Int
  height : Int
  stridePixels : Int
  layout : RgbaLayout
  deriving DecidableEq, Repr

def RgbaSource.isValid (s : RgbaSource) : Bool :=
  s.width > 0 && s.height > 0 && s.stridePixels ≥ s.width

def canAllocatePixels (width height : Int) : Bool :=
  width > 0 && height > 0 && width.toNat ≤ (2 ^ 64 - 1) / height.toNat

/-- `PanelGray` of the pixel at an offset. -/
def panelGray (s : RgbaSource) (offset : Nat) : UInt8 :=
  let byte (i : Nat) : Nat := (s.pixels.getD (offset + i) 0).toNat
  let red := if s.layout = .rgba8888 then byte 0 else byte 2
  let blue := if s.layout = .rgba8888 then byte 2 else byte 0
  .ofNat ((38 * red + 75 * byte 1 + 15 * blue) >>> 7) &&& 0xf0

/-- Where the pixel at `(x, y)` goes. -/
def destination (s : RgbaSource) (rotation : Rotation) (x y : Nat) : Nat × Nat :=
  match rotation with
  | .none => (x, y)
  | .clockwise90 => (s.height.toNat - 1 - y, x)
  | .counterClockwise90 => (y, s.width.toNat - 1 - x)

def convertToGrayscale (s : RgbaSource) (rotation : Rotation) : Option OwnedGrayscaleBuffer :=
  if !s.isValid then none
  else
    let outputWidth := if rotation ≠ .none then s.height else s.width
    let outputHeight := if rotation ≠ .none then s.width else s.height
    if !canAllocatePixels outputWidth outputHeight then none
    else
      let blank := List.replicate (outputWidth.toNat * outputHeight.toNat) (0 : UInt8)
      let output := (List.range s.height.toNat).foldl (fun output y =>
        (List.range s.width.toNat).foldl (fun output x =>
          let d := destination s rotation x y
          output.set (d.2 * outputWidth.toNat + d.1)
            (panelGray s ((y * s.stridePixels.toNat + x) * 4))) output) blank
      some ⟨outputWidth, outputHeight, output⟩

/-! ### `Convert` -/

inductive ConverterCall
  | dup (fence : Nat)
  | lockAsync (buffer : GraphicBuffer) (fenceFd : Int)
  | unlock (buffer : GraphicBuffer)
  deriving DecidableEq, Repr

abbrev ConverterAnswer : ConverterCall → Type
  | .dup _ => Int
  | .lockAsync _ _ => LockResult
  | .unlock _ => Unit

abbrev ConverterEvent := Answered ConverterCall ConverterAnswer

variable {σ : Type}

abbrev Converting (σ : Type) := Procedure ConverterCall ConverterAnswer σ

def layoutOf : PixelFormat → Option RgbaLayout
  | .rgba8888 | .rgbx8888 => some .rgba8888
  | .bgra8888 => some .bgra8888
  | .other => none

def dupFence (readyFence : Option Nat) : Converting σ Int :=
  match readyFence with
  | none => pure (-1)
  | some fence => call (ConverterCall.dup fence)

/-- The mapped pixels, or `return nullptr`. -/
def mapBuffer (buffer : GraphicBuffer) (layout : RgbaLayout) (fenceFd : Int) :
    Converting σ RgbaSource := do
  let lock ← (call (ConverterCall.lockAsync buffer fenceFd) : Converting σ LockResult)
  match lock.address with
  | none => refuse id
  | some address =>
    if lock.status ≠ 0 then refuse id
    else if lock.bytesPerPixel ≠ 4 ∨ lock.bytesPerStride ≤ 0 ∨
        lock.bytesPerStride.tmod lock.bytesPerPixel ≠ 0 then do
      let _ ← (call (ConverterCall.unlock buffer) : Converting σ Unit)
      refuse id
    else
      pure ⟨address, buffer.width, buffer.height,
        lock.bytesPerStride.tdiv lock.bytesPerPixel, layout⟩

/-- The plane, which is missing where the source is not valid, and the signature of a source that
has one. -/
def convert (sign : RgbaSource → σ → Nat × σ) (composeBuffer : Option GraphicBuffer)
    (readyFence : Option Nat) (rotation : Rotation) :
    Converting σ (Option OwnedGrayscaleBuffer × Option Nat) := do
  match composeBuffer with
  | none => refuse id
  | some buffer =>
    if buffer.protectedUsage then refuse id
    else
      match layoutOf buffer.pixelFormat with
      | none => refuse id
      | some layout => do
        let fenceFd ← dupFence readyFence
        let source ← mapBuffer buffer layout fenceFd
        let grayscale := convertToGrayscale source rotation
        let s ← get
        onlyIf grayscale.isSome (modify fun s => (sign source s).2)
        let _ ← (call (ConverterCall.unlock buffer) : Converting σ Unit)
        pure (grayscale, grayscale.map fun _ => (sign source s).1)

end EinkLab.AndroidGrayscaleConverter
