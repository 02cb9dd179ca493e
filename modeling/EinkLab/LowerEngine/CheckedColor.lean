import EinkLab.Arithmetic.Checked
import EinkLab.LowerEngine.ColorVectors

/-!
# Colour treatment, operation by operation

The arithmetic of `eink_gray_preference.cpp` with every operation in the type the source gives it.
A step that would wrap is `none`; so a pixel that is `some` was computed without one.
-/

namespace EinkLab.LowerEngine

open IntType Neon

/-! ### The scalar path -/

/-- One entry of `Weights<Low, High>`. -/
def weightChecked (low high spread : Int) : Option Int := do
  let width ← int32.exact (high - low)
  let offset ← int32.exact (spread - low)
  let t := max 0 (min offset width)
  let square ← int32.exact (t * t)
  let three ← int32.exact (3 * width)
  let two ← int32.exact (2 * t)
  let factor ← int32.exact (three - two)
  int32.exact (square * factor)

/-- `width * width * width`. -/
def denominatorChecked (low high : Int) : Option Int := do
  let width ← int32.exact (high - low)
  let square ← int32.exact (width * width)
  int32.exact (square * width)

/-- The luma of a pixel, rounded. -/
def lumaChecked (red green blue : UInt8) : Option Int := do
  let r ← int32.exact (38 * red.toNat)
  let g ← int32.exact (75 * green.toNat)
  let b ← int32.exact (15 * blue.toNat)
  let sum ← int32.exact (r + g)
  let sum ← int32.exact (sum + b)
  let sum ← int32.exact (sum + 64)
  int32.exact (sum / 128)

/-- One channel of a blended pixel: `static_cast<std::uint8_t>` keeps the quotient. -/
def blendChecked (denominator weight neutral : Int) (c : UInt8) : Option UInt8 := do
  let colored ← int32.exact (weight * c.toNat)
  let sum ← int32.exact (neutral + colored)
  let quotient ← int32.exact (sum / denominator)
  (uint8.exact quotient).map toByte

/-- One pixel of `Apply<Low, High>`. -/
def applyPixelChecked (low high : Int) (red green blue : UInt8) :
    Option (UInt8 × UInt8 × UInt8) := do
  let spread ← int32.exact (channelMax red green blue - channelMin red green blue)
  if spread = 0 ∨ spread ≥ high then some (red, green, blue)
  else
    let denominator ← denominatorChecked low high
    let luma ← lumaChecked red green blue
    let weight ← weightChecked low high spread
    let rest ← int32.exact (denominator - weight)
    let product ← int32.exact (rest * luma)
    let neutral ← int32.exact (product + denominator / 2)
    let r ← blendChecked denominator weight neutral red
    let g ← blendChecked denominator weight neutral green
    let b ← blendChecked denominator weight neutral blue
    some (r, g, b)

/-- One channel of `ApplyVividColor`. -/
def vividChannelChecked (maximum minimum strength denominator : Int) (c : UInt8) :
    Option UInt8 := do
  let product ← int32.exact (minimum * strength)
  let distance ← int32.exact (maximum - c.toNat)
  let product ← int32.exact (product * distance)
  let sum ← int32.exact (product + denominator / 2)
  let reduction ← int32.exact (sum / denominator)
  let value ← int32.exact (c.toNat - reduction)
  (uint8.exact value).map toByte

/-- One pixel of `ApplyVividColor`. -/
def vividPixelChecked (red green blue : UInt8) : Option (UInt8 × UInt8 × UInt8) := do
  let maximum := channelMax red green blue
  let minimum := channelMin red green blue
  let spread ← int32.exact (maximum - minimum)
  if spread ≤ 24 ∨ minimum = 0 then some (red, green, blue)
  else
    let excess ← int32.exact (spread - 24)
    let strength := min excess 40
    let denominator ← int32.exact (160 * spread)
    let r ← vividChannelChecked maximum minimum strength denominator red
    let g ← vividChannelChecked maximum minimum strength denominator green
    let b ← vividChannelChecked maximum minimum strength denominator blue
    some (r, g, b)

/-! ### One lane of the vector path -/

/-- The luma, in 16 bits; narrowed to a byte where a whole block is gray. -/
def lumaLaneChecked (red green blue : UInt8) : Option Int := do
  let luma ← uint16.exact (red.toNat * 38)
  let luma ← uint16.exact (luma + green.toNat * 75)
  let luma ← uint16.exact (luma + blue.toNat * 15)
  let luma ← uint16.exact (luma + 64)
  uint8.exact (luma / 128)

/-- The weight of a spread, from the two bytes of the tables. -/
def weightLaneChecked (f : Fade) (spread : UInt8) : Option Int := do
  let low := vqtbl4qU8 (Fade.loadTable (f.weightBytes 0)) (fun _ => spread) 0
  let high := vqtbl4qU8 (Fade.loadTable (f.weightBytes 8)) (fun _ => spread) 0
  let shifted ← uint16.exact (high.toNat * 256)
  some (low.toNat ||| shifted.toNat : Nat)

/-- `Blend<Denominator>`: products and sums in 32 bits, narrowed to 16 and then to 8. -/
def blendLaneChecked (denominator luma weight : Int) (c : UInt8) : Option UInt8 := do
  let neutralWeight ← uint16.exact (denominator - weight)
  let sum ← uint32.exact (luma * neutralWeight)
  let sum ← uint32.exact (sum + c.toNat * weight)
  let sum ← uint32.exact (sum + denominator / 2)
  let quotient ← uint16.exact (sum / denominator)
  (uint8.exact quotient).map toByte

/-- One lane of `ApplyVectors<Low, High>`: it is blended also where the mask keeps the pixel. -/
def laneChecked (f : Fade) (red green blue : UInt8) : Option (UInt8 × UInt8 × UInt8) := do
  let spread ← uint8.exact (channelMax red green blue - channelMin red green blue)
  let luma ← lumaLaneChecked red green blue
  let weight ← weightLaneChecked f (toByte spread)
  let r ← blendLaneChecked f.denominator luma weight red
  let g ← blendLaneChecked f.denominator luma weight green
  let b ← blendLaneChecked f.denominator luma weight blue
  some (if spread < f.high then (r, g, b) else (red, green, blue))

end EinkLab.LowerEngine
