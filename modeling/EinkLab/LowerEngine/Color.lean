import Mathlib.Data.List.Basic
import Mathlib.Order.Basic

/-!
# Colour treatment and colour quality history

`eink_gray_preference.cpp` (the scalar path) and `eink_color_quality.cpp`: what the lower-engine
backend does to packed RGBA before it is mapped to the panel.  A buffer is a byte list in R, G, B, A
order; buffers whose length is not a multiple of four are left alone.
-/

namespace EinkLab.LowerEngine

/-! ### Pixels -/

/-- Apply `f` to the colour of every whole pixel; alpha and a trailing rest stay. -/
def mapPixels (f : UInt8 → UInt8 → UInt8 → UInt8 × UInt8 × UInt8) : List UInt8 → List UInt8
  | red :: green :: blue :: alpha :: rest =>
    let c := f red green blue
    c.1 :: c.2.1 :: c.2.2 :: alpha :: mapPixels f rest
  | rest => rest

/-- `static_cast<std::uint8_t>`. -/
def toByte (value : Int) : UInt8 := .ofNat (value % 256).toNat

def channelMax (red green blue : UInt8) : Int := max (max red.toNat green.toNat) blue.toNat

def channelMin (red green blue : UInt8) : Int := min (min red.toNat green.toNat) blue.toNat

/-! ### Gray preference -/

inductive GrayPreference
  | original | balanced | stronger
  deriving DecidableEq, Repr

/-- `static_cast<GrayPreference>(config & 3)`; the value 3 names no preference. -/
def grayPreference (config : UInt64) : Option GrayPreference :=
  match (config &&& 3).toNat with
  | 0 => some .original
  | 1 => some .balanced
  | 2 => some .stronger
  | _ => none

/-- The smoothstep numerator of `Weights<Low, High>`. -/
def weight (low high spread : Int) : Int :=
  let width := high - low
  let t := max 0 (min (spread - low) width)
  t * t * (3 * width - 2 * t)

/-- One pixel of `Apply<Low, High>`. -/
def applyPixel (low high : Int) (red green blue : UInt8) : UInt8 × UInt8 × UInt8 :=
  let spread := channelMax red green blue - channelMin red green blue
  if spread = 0 ∨ spread ≥ high then (red, green, blue)
  else
    let width := high - low
    let denominator := width * width * width
    let luma : Int := (38 * red.toNat + 75 * green.toNat + 15 * blue.toNat + 64) / 128
    let w := weight low high spread
    let neutral := (denominator - w) * luma + denominator / 2
    let channel (c : UInt8) : UInt8 := toByte ((neutral + w * c.toNat) / denominator)
    (channel red, channel green, channel blue)

def applyGrayPreference (rgba : List UInt8) (preference : Option GrayPreference) : List UInt8 :=
  if rgba.length % 4 ≠ 0 then rgba
  else
    match preference with
    | some .balanced => mapPixels (applyPixel 8 24) rgba
    | some .stronger => mapPixels (applyPixel 16 40) rgba
    | _ => rgba

/-! ### Vivid colour -/

def vividPixel (red green blue : UInt8) : UInt8 × UInt8 × UInt8 :=
  let maximum := channelMax red green blue
  let minimum := channelMin red green blue
  let spread := maximum - minimum
  if spread ≤ 24 ∨ minimum = 0 then (red, green, blue)
  else
    let strength := min (spread - 24) 40
    let denominator := 160 * spread
    let channel (c : UInt8) : UInt8 :=
      toByte (c.toNat - (minimum * strength * (maximum - c.toNat) + denominator / 2) / denominator)
    (channel red, channel green, channel blue)

def applyVividColor (rgba : List UInt8) : List UInt8 :=
  if rgba.length % 4 ≠ 0 then rgba else mapPixels vividPixel rgba

/-! ### Colour quality history -/

structure ColorQualityThresholds where
  chroma : Int := 24
  change : Int := 12
  nearWhite : Int := 232
  deriving DecidableEq, Repr

/-- `std::clamp`. -/
def clamp (value low high : Int) : Int := max low (min value high)

def ColorQualityThresholds.clamped (t : ColorQualityThresholds) : ColorQualityThresholds where
  chroma := clamp t.chroma 1 255
  change := clamp t.change 1 255
  nearWhite := clamp t.nearWhite 0 255

/-- The last accepted target, packed RGBA; empty when there is no history. -/
structure ColorQualityHistory where
  previous : List UInt8 := []
  deriving DecidableEq, Repr

namespace ColorQualityHistory

/-- A pixel that goes through white: chromatic enough and, outside cleanup mode, not near white
before and changed enough. -/
def qualifies (t : ColorQualityThresholds) (cleanup : Bool) (target previous : List UInt8) : Bool :=
  match target, previous with
  | red :: green :: blue :: _, oldRed :: oldGreen :: oldBlue :: _ =>
    channelMax red green blue - channelMin red green blue ≥ t.chroma &&
      (cleanup ||
        (channelMin oldRed oldGreen oldBlue < t.nearWhite &&
          max (max ((red.toNat : Int) - oldRed.toNat).natAbs
            ((green.toNat : Int) - oldGreen.toNat).natAbs)
            ((blue.toNat : Int) - oldBlue.toNat).natAbs ≥ t.change))
  | red :: green :: blue :: _, _ =>
    channelMax red green blue - channelMin red green blue ≥ t.chroma && cleanup
  | _, _ => false

/-- The loop of `Prepare`: the number of qualifying pixels, and the target with these in white. -/
def sweep (t : ColorQualityThresholds) (cleanup : Bool) :
    List UInt8 → List UInt8 → Nat × List UInt8
  | red :: green :: blue :: alpha :: target, previous =>
    let tail := sweep t cleanup target (previous.drop 4)
    if qualifies t cleanup [red, green, blue] previous then
      (tail.1 + 1, 255 :: 255 :: 255 :: 255 :: tail.2)
    else (tail.1, red :: green :: blue :: alpha :: tail.2)
  | target, _ => (0, target)

/-- The number of whitened pixels, and the intermediate frame (empty when there are none). -/
def prepare (history : ColorQualityHistory) (target : List UInt8)
    (thresholds : ColorQualityThresholds) (cleanup : Bool) : Nat × List UInt8 :=
  if target.isEmpty || target.length % 4 ≠ 0 then (0, [])
  else if history.previous.length ≠ target.length && !cleanup then (0, [])
  else
    let swept := sweep thresholds.clamped cleanup target history.previous
    (swept.1, if swept.1 = 0 then [] else swept.2)

def reset (_ : ColorQualityHistory) : ColorQualityHistory := {}

def accept (history : ColorQualityHistory) (target : List UInt8) : ColorQualityHistory :=
  if target.isEmpty || target.length % 4 ≠ 0 then history.reset else ⟨target⟩

end ColorQualityHistory

end EinkLab.LowerEngine
