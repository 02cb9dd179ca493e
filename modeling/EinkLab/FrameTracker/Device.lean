import EinkLab.FrameTracker.Basic

/-!
# The RGB frame tracker of the device library

`RgbFrameTracker` of `software_grayscale.cpp`, which the conversion worker uses.  It compares as the
tracker of the core library does, without the limits that the core tracker is given: its images are
buffers that are mapped whole.
-/

namespace EinkLab

open AndroidGrayscaleConverter

structure DeviceRgbFrameTracker where
  previous : List UInt32 := []
  width : Int := 0
  height : Int := 0
  generation : Nat := 0
  deriving DecidableEq, Repr

namespace DeviceRgbFrameTracker

/-- The generation stays, so that no earlier signature comes back. -/
def reset (t : DeviceRgbFrameTracker) : DeviceRgbFrameTracker :=
  { t with previous := [], width := 0, height := 0 }

/-- `maxSize` is `previous_.max_size()`. -/
def update (maxSize : Nat) (t : DeviceRgbFrameTracker) (source : RgbaSource) :
    Nat × DeviceRgbFrameTracker :=
  if !source.isValid then (0, t)
  else
    let width := source.width.toNat
    let height := source.height.toNat
    if width > maxSize / height || source.stridePixels.toNat > sizeMax / height / 4 then (0, t)
    else
      let geometryChanged := t.width ≠ source.width || t.height ≠ source.height
      let (difference, previous) := RgbFrameTracker.compareRows source.layout source.pixels
        source.stridePixels.toNat width height (RowMajor.resize 0 t.previous (width * height))
      let generation :=
        if geometryChanged || difference ≠ 0 then
          GrayscaleFrameTracker.nextGeneration t.generation
        else t.generation
      (generation, ⟨previous, source.width, source.height, generation⟩)

end DeviceRgbFrameTracker

end EinkLab
