import EinkLab.Lanes.Neon
import EinkLab.LowerEngine.Color
import Mathlib.Algebra.Group.Nat.Defs

/-!
# The vector path of the gray preference

`ApplyVectors` of `eink_gray_preference.cpp`, for AArch64: blocks of 64 bytes, 16 pixels, in vector
registers; what is left over goes through the scalar loop.
-/

namespace EinkLab.LowerEngine

open Neon

/-- The template parameters.  "Both supported fades end below 64 and their integer smoothstep
numerators fit in 16 bits." -/
structure Fade where
  low : Nat
  high : Nat
  low_lt : low < high
  high_le : high ≤ 64
  fits : (high - low) ^ 3 < 2 ^ 16

namespace Fade

def balanced : Fade := ⟨8, 24, by decide, by decide, by decide⟩

def stronger : Fade := ⟨16, 40, by decide, by decide, by decide⟩

def width (f : Fade) : Nat := f.high - f.low

def denominator (f : Fade) : Nat := f.width * f.width * f.width

/-- `WeightBytes<Low, High, Shift>`. -/
def weightBytes (f : Fade) (shift : Nat) (i : Nat) : UInt8 :=
  .ofNat ((weight f.low f.high i).toNat >>> shift &&& 255)

/-- `LoadTable`. -/
def loadTable (table : Nat → UInt8) : Fin 4 → Lanes 16 UInt8 := fun v k => table (16 * v + k)

/-- `Blend<Denominator>`. -/
def blend (denominator : Nat) (channel luma weight : Lanes 8 UInt16) : Lanes 8 UInt16 :=
  let neutralWeight := vsubqU16 (vdupqU16 (.ofNat denominator)) weight
  let lower := vmullU16 (vgetLowU16 luma) (vgetLowU16 neutralWeight)
  let upper := vmullU16 (vgetHighU16 luma) (vgetHighU16 neutralWeight)
  let lower := vmlalU16 lower (vgetLowU16 channel) (vgetLowU16 weight)
  let upper := vmlalU16 upper (vgetHighU16 channel) (vgetHighU16 weight)
  let lower := vaddqU32 lower (vdupqU32 (.ofNat (denominator / 2)))
  let upper := vaddqU32 upper (vdupqU32 (.ofNat (denominator / 2)))
  let lower := divqU32 lower (vdupqU32 (.ofNat denominator))
  let upper := divqU32 upper (vdupqU32 (.ofNat denominator))
  vcombineU16 (vmovnU32 lower) (vmovnU32 upper)

/-- The luma of eight pixels, one half of the registers. -/
def luma (red green blue : Lanes 8 UInt8) : Lanes 8 UInt16 :=
  let luma := vmullU8 red (vdupU8 38)
  let luma := vmlalU8 luma green (vdupU8 75)
  let luma := vmlalU8 luma blue (vdupU8 15)
  vshrqU16 (vaddqU16 luma (vdupqU16 64)) 7

/-- The weights of eight pixels, from the two bytes of the table. -/
def weights (weightLow weightHigh : Lanes 8 UInt8) : Lanes 8 UInt16 :=
  vorrqU16 (vmovlU8 weightLow) (vshlqU16 (vmovlU8 weightHigh) 8)

/-- One iteration of `ApplyVectors`: the 64 bytes at `i`. -/
def applyBlock (f : Fade) (block : List UInt8) : List UInt8 :=
  let val := vld4qU8 block
  let maximum := vmaxqU8 (vmaxqU8 (val 0) (val 1)) (val 2)
  let minimum := vminqU8 (vminqU8 (val 0) (val 1)) (val 2)
  let spread := vsubqU8 maximum minimum
  let maxSpread := vmaxvqU8 spread
  if maxSpread = 0 ∨ (vminvqU8 spread).toNat ≥ f.high then block
  else
    let mask := vcltqU8 spread (vdupqU8 (.ofNat f.high))
    let luma0 := luma (vgetLowU8 (val 0)) (vgetLowU8 (val 1)) (vgetLowU8 (val 2))
    let luma1 := luma (vgetHighU8 (val 0)) (vgetHighU8 (val 1)) (vgetHighU8 (val 2))
    if maxSpread.toNat ≤ f.low then
      let gray := vcombineU8 (vmovnU16 luma0) (vmovnU16 luma1)
      vst4qU8 fun c => if c = 3 then val 3 else gray
    else
      let weightLow := vqtbl4qU8 (loadTable (f.weightBytes 0)) spread
      let weightHigh := vqtbl4qU8 (loadTable (f.weightBytes 8)) spread
      let weights0 := weights (vgetLowU8 weightLow) (vgetLowU8 weightHigh)
      let weights1 := weights (vgetHighU8 weightLow) (vgetHighU8 weightHigh)
      vst4qU8 fun c =>
        if c = 3 then val 3
        else
          let lower := blend f.denominator (vmovlU8 (vgetLowU8 (val c))) luma0 weights0
          let upper := blend f.denominator (vmovlU8 (vgetHighU8 (val c))) luma1 weights1
          vbslqU8 mask (vcombineU8 (vmovnU16 lower) (vmovnU16 upper)) (val c)

/-- `ApplyVectors`: the number of bytes it went through, and the buffer after it. -/
def applyVectors (f : Fade) (rgba : List UInt8) : Nat × List UInt8 :=
  if 64 ≤ rgba.length then
    let rest := applyVectors f (rgba.drop 64)
    (rest.1 + 64, f.applyBlock (rgba.take 64) ++ rest.2)
  else (0, rgba)
termination_by rgba.length
decreasing_by
  rw [List.length_drop]
  omega

/-- `Apply<Low, High>`: the vector loop, and the scalar loop from where it stopped. -/
def apply (f : Fade) (rgba : List UInt8) : List UInt8 :=
  let vectors := f.applyVectors rgba
  vectors.2.take vectors.1 ++ mapPixels (applyPixel f.low f.high) (vectors.2.drop vectors.1)

end Fade

/-- `ApplyGrayPreference` on AArch64. -/
def applyGrayPreferenceVectors (rgba : List UInt8) (preference : Option GrayPreference) :
    List UInt8 :=
  if rgba.length % 4 ≠ 0 then rgba
  else
    match preference with
    | some .balanced => Fade.balanced.apply rgba
    | some .stronger => Fade.stronger.apply rgba
    | _ => rgba

/-! ### A function of pixels, on registers -/

/-- A colour by its channels. -/
def component (c : UInt8 × UInt8 × UInt8) (channel : Fin 4) : UInt8 :=
  if channel = 0 then c.1 else if channel = 1 then c.2.1 else c.2.2

/-- The registers after `g` on each pixel. -/
def mapLanes (g : UInt8 → UInt8 → UInt8 → UInt8 × UInt8 × UInt8) (val : Fin 4 → Lanes 16 UInt8) :
    Fin 4 → Lanes 16 UInt8 :=
  fun c k => if c = 3 then val 3 k else component (g (val 0 k) (val 1 k) (val 2 k)) c

end EinkLab.LowerEngine
