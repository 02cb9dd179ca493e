import EinkLab.Pipeline.Converter

/-!
# Conversion and damage rectangles

`software_grayscale.cpp`, of which there are two copies.  The core library's `ConvertToGrayscale` is
the generic loop (`AndroidGrayscaleConverter.convertToGrayscale`); the device's has a loop of its
own for an image that is not rotated.  `TransformRect` is the same in both.
-/

namespace EinkLab.SoftwareGrayscale

open AndroidGrayscaleConverter

/-! ### The device's conversion -/

/-- `convert_rows<layout>`: row by row, with a pointer to the source row and one to the destination
row. -/
def convertRows (s : RgbaSource) (layout : RgbaLayout) (output : List UInt8) : List UInt8 :=
  (List.range s.height.toNat).foldl (fun output y =>
    let row := y * s.stridePixels.toNat * 4
    let destination := y * s.width.toNat
    (List.range s.width.toNat).foldl (fun output x =>
      output.set (destination + x) (panelGray { s with layout } (row + x * 4))) output) output

/-- `ConvertToGrayscale` of the device. -/
def convertToGrayscale (s : RgbaSource) (rotation : Rotation) : Option OwnedGrayscaleBuffer :=
  if !s.isValid then none
  else
    let outputWidth := if rotation ≠ .none then s.height else s.width
    let outputHeight := if rotation ≠ .none then s.width else s.height
    if !canAllocatePixels outputWidth outputHeight then none
    else
      let output := List.replicate (outputWidth.toNat * outputHeight.toNat) (0 : UInt8)
      if rotation = .none then
        let output :=
          if s.layout = .rgba8888 then convertRows s .rgba8888 output
          else convertRows s .bgra8888 output
        some ⟨outputWidth, outputHeight, output⟩
      else
        let output := (List.range s.height.toNat).foldl (fun output y =>
          (List.range s.width.toNat).foldl (fun output x =>
            let d := destination s rotation x y
            output.set (d.2 * outputWidth.toNat + d.1)
              (panelGray s ((y * s.stridePixels.toNat + x) * 4))) output) output
        some ⟨outputWidth, outputHeight, output⟩

/-! ### Rectangles -/

def transformRect (r : Rect) (sourceWidth sourceHeight : Int) (rotation : Rotation) : Rect :=
  if !r.isValid || sourceWidth ≤ 0 || sourceHeight ≤ 0 || r.right > sourceWidth ||
      r.bottom > sourceHeight then {}
  else
    match rotation with
    | .none => r
    | .clockwise90 =>
      { left := sourceHeight - r.bottom, top := r.left
        right := sourceHeight - r.top, bottom := r.right }
    | .counterClockwise90 =>
      { left := r.top, top := sourceWidth - r.right
        right := r.bottom, bottom := sourceWidth - r.left }

/-! ### A plane as an image -/

/-- A gray plane as an opaque image, each byte in the three channels. -/
def opaqueGray (b : OwnedGrayscaleBuffer) : RgbaSource where
  pixels := b.pixels.flatMap fun value => [value, value, value, 255]
  width := b.width
  height := b.height
  stridePixels := b.width
  layout := .rgba8888

end EinkLab.SoftwareGrayscale
