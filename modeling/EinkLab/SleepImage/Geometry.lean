import EinkLab.SleepImage.Transforms

/-!
# Previews and oriented images

The rest of `SleepImageTransforms`: `panelToPresentationPixels`, which shows the planes of the panel
in portrait space again, and `exifSourceIndex`, which reads an oriented image from its encoded
raster.
-/

namespace EinkLab.SleepImageTransforms

/-! ### The panel in presentation space -/

/-- `(opacity << 24) | (red << 16) | (green << 8) | blue`. -/
def argb (opacity red green blue : UInt8) : UInt32 :=
  (opacity.toUInt32 <<< 24) ||| (red.toUInt32 <<< 16) ||| (green.toUInt32 <<< 8) ||| blue.toUInt32

/-- The color of one element of the planes. -/
def Planes.pixel (planes : Planes) (source : Int) : Option UInt32 := do
  let value ← load planes.gray source
  let opacity ← load planes.alpha source
  match planes.rgba with
  | none => some (argb opacity value value value)
  | some rgba =>
    let c ← load rgba source
    some (argb opacity c.red c.green c.blue)

/-- The pixel of the loops at `(x, y)`. -/
def previewPixel (planes : Planes) (panelWidth presentationWidth presentationHeight outputWidth
    outputHeight rotation : Int) (pixels : List UInt32) (x y : Int) : Option (List UInt32) := do
  let presentationY := min (presentationHeight - 1) ((y * presentationHeight).tdiv outputHeight)
  let presentationX := min (presentationWidth - 1) ((x * presentationWidth).tdiv outputWidth)
  let panelX := if rotation = 270 then presentationY else presentationX
  let panelY := if rotation = 270 then presentationWidth - 1 - presentationX else presentationY
  let pixel ← planes.pixel (panelY * panelWidth + panelX)
  store pixels (y * outputWidth + x) pixel

def panelToPresentationPixels (planes : Planes)
    (panelWidth panelHeight outputWidth outputHeight rotation : Int) : Option (List UInt32) := do
  validatePlanes planes panelWidth panelHeight
  if outputWidth ≤ 0 || outputHeight ≤ 0 then none
  else
    requirePanelRotation rotation
    let presentationWidth := if rotation = 270 then panelHeight else panelWidth
    let presentationHeight := if rotation = 270 then panelWidth else panelHeight
    let size ← IntType.int32.exact (outputWidth * outputHeight)
    forEachPixel outputWidth.toNat outputHeight.toNat
      (previewPixel planes panelWidth presentationWidth presentationHeight outputWidth outputHeight
        rotation)
      (.replicate size.toNat 0)

/-! ### Oriented images -/

def exifSourceIndex (x y width height orientation : Int) : Option Int :=
  let check (sourceX sourceY : Int) : Option Int :=
    if sourceX < 0 || sourceY < 0 || sourceX ≥ width || sourceY ≥ height then none
    else some (sourceY * width + sourceX)
  if orientation = 1 then check x y
  else if orientation = 2 then check (width - 1 - x) y
  else if orientation = 3 then check (width - 1 - x) (height - 1 - y)
  else if orientation = 4 then check x (height - 1 - y)
  else if orientation = 5 then check y x
  else if orientation = 6 then check y (height - 1 - x)
  else if orientation = 7 then check (width - 1 - y) (height - 1 - x)
  else if orientation = 8 then check (width - 1 - y) x
  else none

/-! ### What a rendering accesses -/

/-- The element of the pixel array that is read at `(x, y)`. -/
def readIndex (source target : Crop) (width height rotation x y : Int) : Option Int :=
  let rotatedY := source.top + min (source.height - 1) ((y * source.height).tdiv target.height)
  let rotatedX := source.left + min (source.width - 1) ((x * source.width).tdiv target.width)
  sourceIndex rotatedX rotatedY width height rotation

/-- The element of the planes that is written at `(x, y)`. -/
def writeIndex (target : Crop) (outputWidth x y : Int) : Int :=
  (target.top + y) * outputWidth + target.left + x

end EinkLab.SleepImageTransforms
