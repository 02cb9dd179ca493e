import EinkLab.Arithmetic.Checked
import EinkLab.SleepImage.Overlay

/-!
# Panel planes from an image

`SleepImageTransforms` of the controls app, from the decoded pixels to the planes of the panel, and
`ReadEntry` of `sleep_image_binder_service.cpp`, which reads the planes on the native side.

An exception is `none`: an index outside an array, a refused argument, a `multiplyExact` that does
not fit.  The results of the floating-point roundings are arguments (`Roundings`).  Areas and
indices fit 32 bits; the casts of `crop` may wrap.
-/

namespace EinkLab

namespace SleepImageTransforms

/-! ### Planes -/

/-- One element of the colour plane, four bytes in the source. -/
structure Rgba where
  red : UInt8 := 0
  green : UInt8 := 0
  blue : UInt8 := 0
  alpha : UInt8 := 0
  deriving DecidableEq, Repr

def Rgba.bytes (c : Rgba) : List UInt8 := [c.red, c.green, c.blue, c.alpha]

structure Planes where
  gray : List UInt8
  alpha : List UInt8
  rgba : Option (List Rgba)
  deriving DecidableEq, Repr

/-- The transmitted bytes of a colour plane. -/
def rgbaBytes (rgba : List Rgba) : List UInt8 := rgba.flatMap Rgba.bytes

/-- `(77 r + 150 g + 29 b) >> 8 & 0xf0`, in both languages. -/
def luma (red green blue : UInt8) : UInt8 :=
  UInt8.ofNat ((77 * red.toNat + 150 * green.toNat + 29 * blue.toNat) / 256) &&& 0xf0

def expandGrayToRgba (gray alpha : List UInt8) : List Rgba :=
  (gray.zip alpha).map fun (value, coverage) =>
    let full := value ||| (value >>> (4 : UInt8))
    { red := full, green := full, blue := full, alpha := coverage }

/-- An array is read at an index. -/
def load {α : Type} (array : List α) (index : Int) : Option α :=
  if 0 ≤ index then array[index.toNat]? else none

/-- An array is written at an index. -/
def store {α : Type} (array : List α) (index : Int) (value : α) : Option (List α) :=
  if 0 ≤ index ∧ index.toNat < array.length then some (array.set index.toNat value) else none

/-! ### Geometry -/

inductive Framing
  | FIT | CROP
  deriving DecidableEq, Repr

structure Crop where
  left : Int
  top : Int
  width : Int
  height : Int
  deriving DecidableEq, Repr

/-- What the floating-point arithmetic of one rendering rounds to. -/
structure Roundings where
  /-- `Math.round((width - cropWidth) * horizontal)` -/
  left : Int
  /-- `Math.round((height - cropHeight) * vertical)` -/
  top : Int
  /-- `Math.round(source.width * scale)` -/
  targetWidth : Int
  /-- `Math.round(source.height * scale)` -/
  targetHeight : Int

def crop (r : Roundings) (width height aspectWidth aspectHeight : Int) : Option Crop :=
  if width ≤ 0 || height ≤ 0 || aspectWidth ≤ 0 || aspectHeight ≤ 0 then none
  else
    let wide := IntType.int32.wrap ((width * aspectHeight).tdiv aspectWidth)
    let cropWidth :=
      if wide > height then IntType.int32.wrap ((height * aspectWidth).tdiv aspectHeight) else width
    let cropHeight := if wide > height then height else wide
    let cropWidth := max 1 (min width cropWidth)
    let cropHeight := max 1 (min height cropHeight)
    some
      { left := max 0 (min (width - cropWidth) r.left)
        top := max 0 (min (height - cropHeight) r.top)
        width := cropWidth, height := cropHeight }

def sourceIndex (x y width height rotation : Int) : Option Int :=
  let at' (sourceX sourceY : Int) : Int := sourceY * width + sourceX
  if rotation = 0 then some (at' x y)
  else if rotation = 90 then some (at' y (height - 1 - x))
  else if rotation = 180 then some (at' (width - 1 - x) (height - 1 - y))
  else if rotation = 270 then some (at' (width - 1 - y) x)
  else none

def normalizeRotation (rotation : Int) : Option Int :=
  let normalized := (rotation.tmod 360 + 360).tmod 360
  if normalized.tmod 90 ≠ 0 then none else some normalized

def requirePanelRotation (rotation : Int) : Option Unit :=
  if rotation ≠ 0 ∧ rotation ≠ 270 then none else some ()

def validatePlanes (planes : Planes) (width height : Int) : Option Unit :=
  if width ≤ 0 || height ≤ 0 || planes.gray.length ≠ width * height ||
      planes.alpha.length ≠ planes.gray.length ||
      planes.rgba.any fun rgba => rgba.length ≠ planes.gray.length then none
  else some ()

/-! ### Rendering -/

def channel (argb : UInt32) (shift : UInt32) : UInt8 := ((argb >>> shift) &&& 0xff).toUInt8

/-- One pixel of the image, written to the planes. -/
def Planes.write (planes : Planes) (destination : Int) (argb : UInt32) : Option Planes := do
  let red := channel argb 16
  let green := channel argb 8
  let blue := channel argb 0
  let coverage := channel argb 24
  let gray ← store planes.gray destination (luma red green blue)
  let alpha ← store planes.alpha destination coverage
  match planes.rgba with
  | none => some { gray, alpha, rgba := none }
  | some rgba =>
    let rgba ← store rgba destination { red, green, blue, alpha := coverage }
    some { gray, alpha, rgba := some rgba }

/-- The planes before anything is drawn: white, and transparent. -/
def Planes.blank (size : Nat) (color : Bool) : Planes where
  gray := .replicate size 0xf0
  alpha := .replicate size 0
  rgba := if color then some (.replicate size {}) else none

/-- The part of the turned image that is shown. -/
def source (r : Roundings) (framing : Framing)
    (rotatedWidth rotatedHeight outputWidth outputHeight : Int) : Option Crop :=
  match framing with
  | .CROP => crop r rotatedWidth rotatedHeight outputWidth outputHeight
  | .FIT => some { left := 0, top := 0, width := rotatedWidth, height := rotatedHeight }

/-- The part of the output that the image fills. -/
def target (r : Roundings) (framing : Framing) (outputWidth outputHeight : Int) : Crop :=
  match framing with
  | .FIT =>
    let width := max 1 r.targetWidth
    let height := max 1 r.targetHeight
    { left := (outputWidth - width).tdiv 2, top := (outputHeight - height).tdiv 2, width, height }
  | .CROP => { left := 0, top := 0, width := outputWidth, height := outputHeight }

/-- The pixel of the loops at `(x, y)`. -/
def renderPixel (pixels : List UInt32) (width height rotation outputWidth : Int)
    (source target : Crop) (planes : Planes) (x y : Int) : Option Planes := do
  let rotatedY := source.top + min (source.height - 1) ((y * source.height).tdiv target.height)
  let rotatedX := source.left + min (source.width - 1) ((x * source.width).tdiv target.width)
  let index ← sourceIndex rotatedX rotatedY width height rotation
  let argb ← load pixels index
  planes.write ((target.top + y) * outputWidth + target.left + x) argb

/-- Row by row, and in a row from left to right. -/
def forEachPixel {σ : Type} (width height : Nat) (body : σ → Int → Int → Option σ) (s : σ) :
    Option σ :=
  (List.range height).foldlM (fun s y => (List.range width).foldlM (fun s x => body s x y) s) s

def render (r : Roundings) (pixels : List UInt32) (width height userRotation : Int)
    (framing : Framing) (outputWidth outputHeight : Int) (color : Bool) : Option Planes := do
  if pixels.length ≠ width * height || outputWidth ≤ 0 || outputHeight ≤ 0 then none
  else
    let rotation ← normalizeRotation userRotation
    let rotated := rotation = 90 ∨ rotation = 270
    let rotatedWidth := if rotated then height else width
    let rotatedHeight := if rotated then width else height
    let source ← source r framing rotatedWidth rotatedHeight outputWidth outputHeight
    let target := target r framing outputWidth outputHeight
    if color ∧ ¬IntType.int32.Holds (outputWidth * outputHeight * 4) then none
    else
      forEachPixel target.width.toNat target.height.toNat
        (renderPixel pixels width height rotation outputWidth source target)
        (.blank (outputWidth * outputHeight).toNat color)

/-- The elements of an array at the panel's positions, row by row. -/
def panelOrder {α : Type} (array : List α) (width height : Int) : Option (List α) :=
  ((List.range width.toNat).mapM fun panelY : Nat =>
    (List.range height.toNat).mapM fun panelX : Nat =>
      (sourceIndex panelX panelY width height 270).bind (load array)).map List.flatten

def presentationToPanel (presentation : Planes) (width height rotation : Int) : Option Planes := do
  validatePlanes presentation width height
  requirePanelRotation rotation
  if rotation = 0 then some presentation
  else
    let gray ← panelOrder presentation.gray width height
    let alpha ← panelOrder presentation.alpha width height
    match presentation.rgba with
    | none => some { gray, alpha, rgba := none }
    | some rgba =>
      let rgba ← panelOrder rgba width height
      some { gray, alpha, rgba := some rgba }

def renderForPanel (r : Roundings) (pixels : List UInt32) (width height userRotation : Int)
    (framing : Framing) (panelWidth panelHeight rotation : Int) (color : Bool) : Option Planes := do
  requirePanelRotation rotation
  let presentationWidth := if rotation = 270 then panelHeight else panelWidth
  let presentationHeight := if rotation = 270 then panelWidth else panelHeight
  let presentation ← render r pixels width height userRotation framing presentationWidth
    presentationHeight color
  presentationToPanel presentation presentationWidth presentationHeight rotation

end SleepImageTransforms

/-! ### The native side -/

namespace EinkSleepImageCatalog

/-- The gray plane of a colour plane; `none` where its alpha is not that of the alpha plane. -/
def grayOfRgba : List UInt8 → List UInt8 → Option (List UInt8)
  | red :: green :: blue :: coverage :: rgba, alpha :: alphas =>
    if coverage ≠ alpha then none
    else (grayOfRgba rgba alphas).map (SleepImageTransforms.luma red green blue :: ·)
  | _, _ => some []

/-- `ReadEntry`, from the geometry and the two shared planes that are sent. -/
def readEntry (p : EinkDeviceProfile) (width height : Int) (plane alpha : List UInt8) :
    Option Entry :=
  if width ≠ p.panelWidth ∨ height ≠ p.panelHeight then none
  else if p.hasColorCfa then
    if plane.length ≠ p.panelBytes * 4 ∨ alpha.length ≠ p.panelBytes then none
    else (grayOfRgba plane alpha).map fun gray =>
      { width, height, panelGray := gray, alpha, rgba := plane }
  else if plane.length ≠ p.panelBytes ∨ alpha.length ≠ p.panelBytes then none
  else some { width, height, panelGray := plane, alpha }

end EinkSleepImageCatalog

end EinkLab
