import EinkLab.LowerEngine.ColorVectors
import Mathlib.Tactic.Linarith
import Mathlib.Tactic.Ring

/-!
# The vector path computes the scalar path

Each lane of a block computes what the scalar loop computes for its pixel, whichever shortcut the
block takes (`applyBlock_eq`); so the vector path gives the same bytes for every buffer
(`applyGrayPreferenceVectors_eq`).
-/

namespace EinkLab.LowerEngine

open Neon Fade

variable {f : Fade} {red green blue : UInt8}

/-! ### The smoothstep numerator -/

/-- The rest of the denominator is `(width - t)² (width + 2t)`. -/
theorem weight_le (low high spread : Int) (h : low ≤ high) :
    0 ≤ weight low high spread ∧
      weight low high spread ≤ (high - low) * (high - low) * (high - low) := by
  unfold weight
  dsimp only
  generalize ht : max 0 (min (spread - low) (high - low)) = t
  have h0 : 0 ≤ t := by omega
  have hw : t ≤ high - low := by omega
  generalize high - low = w at hw
  have hrest : w * w * w - t * t * (3 * w - 2 * t) = (w - t) * (w - t) * (w + 2 * t) := by ring
  have hnonneg : 0 ≤ (w - t) * (w - t) * (w + 2 * t) :=
    mul_nonneg (mul_self_nonneg _) (by omega)
  exact ⟨mul_nonneg (mul_self_nonneg t) (by omega), by omega⟩

/-- There is no weight up to the lower end. -/
theorem weight_eq_zero {low high spread : Int} (h : spread ≤ low) : weight low high spread = 0 := by
  have ht : max 0 (min (spread - low) (high - low)) = 0 := by omega
  simp [weight, ht]

theorem Fade.denominator_lt (f : Fade) : f.denominator < 2 ^ 16 := by
  have h := f.fits
  rwa [Nat.pow_succ, Nat.pow_two] at h

theorem Fade.denominator_pos (f : Fade) : 0 < f.denominator := by
  have hwidth : 0 < f.width := Nat.sub_pos_of_lt f.low_lt
  exact Nat.mul_pos (Nat.mul_pos hwidth hwidth) hwidth

theorem Fade.denominator_cast (f : Fade) :
    ((f.high : Int) - f.low) * (f.high - f.low) * (f.high - f.low) = f.denominator := by
  have hwidth : ((f.high : Int) - f.low) = (f.width : Nat) := by
    have := f.low_lt
    unfold Fade.width
    omega
  rw [hwidth, denominator]
  norm_cast

/-- The weight as a number of 16 bits. -/
def Fade.weightNat (f : Fade) (spread : Nat) : Nat := (weight f.low f.high spread).toNat

theorem Fade.weightNat_cast (f : Fade) (spread : Nat) :
    (f.weightNat spread : Int) = weight f.low f.high spread :=
  Int.toNat_of_nonneg (weight_le _ _ _ (by have := f.low_lt; omega)).1

theorem Fade.weightNat_le (f : Fade) (spread : Nat) : f.weightNat spread ≤ f.denominator := by
  have hle := (weight_le f.low f.high spread (by have := f.low_lt; omega)).2
  rw [f.denominator_cast, ← f.weightNat_cast] at hle
  exact_mod_cast hle

/-! ### One lane -/

/-- The spread of a pixel. -/
def spreadByte (red green blue : UInt8) : UInt8 :=
  max (max red green) blue - min (min red green) blue

theorem spreadByte_toNat (red green blue : UInt8) :
    ((spreadByte red green blue).toNat : Int) =
      channelMax red green blue - channelMin red green blue := by
  have hle : min (min red green) blue ≤ max (max red green) blue := by
    rw [UInt8.le_iff_toNat_le]
    simp only [UInt8.toNat_max, UInt8.toNat_min]
    omega
  rw [spreadByte, UInt8.toNat_sub_of_le _ _ hle]
  simp only [UInt8.toNat_max, UInt8.toNat_min, channelMax, channelMin]
  omega

/-- The luma of a pixel. -/
def lumaNat (red green blue : UInt8) : Nat :=
  (38 * red.toNat + 75 * green.toNat + 15 * blue.toNat + 64) / 128

theorem lumaNat_le (red green blue : UInt8) : lumaNat red green blue ≤ 255 := by
  have hr := red.toNat_lt
  have hg := green.toNat_lt
  have hb := blue.toNat_lt
  unfold lumaNat
  omega

/-- One lane of the luma. -/
def lumaLane (red green blue : UInt8) : UInt16 :=
  (red.toUInt16 * (38 : UInt8).toUInt16 + green.toUInt16 * (75 : UInt8).toUInt16 +
    blue.toUInt16 * (15 : UInt8).toUInt16 + 64) >>> 7

theorem lumaLane_toNat (red green blue : UInt8) :
    (lumaLane red green blue).toNat = lumaNat red green blue := by
  have hr := red.toNat_lt
  have hg := green.toNat_lt
  have hb := blue.toNat_lt
  simp only [lumaLane, UInt16.toNat_shiftRight, UInt16.toNat_add, UInt16.toNat_mul,
    UInt8.toNat_toUInt16, UInt8.toNat_ofNat, UInt16.toNat_ofNat, lumaNat,
    Nat.shiftRight_eq_div_pow, Nat.reduceMod, Nat.reducePow]
  omega

/-- A pixel without spread is its own luma. -/
theorem lumaNat_of_spread_eq_zero (h : spreadByte red green blue = 0) :
    lumaNat red green blue = red.toNat ∧ green = red ∧ blue = red := by
  have hspread := spreadByte_toNat red green blue
  rw [h] at hspread
  simp only [channelMax, channelMin, UInt8.toNat_zero] at hspread
  have hg : green.toNat = red.toNat := by omega
  have hb : blue.toNat = red.toNat := by omega
  refine ⟨?_, UInt8.toNat_inj.mp hg, UInt8.toNat_inj.mp hb⟩
  rw [lumaNat, hg, hb]
  omega

/-- Two bytes, put together. -/
theorem toNat_bytes {w : Nat} (h : w < 2 ^ 16) :
    ((UInt8.ofNat (w >>> 0 &&& 255)).toUInt16 |||
      (UInt8.ofNat (w >>> 8 &&& 255)).toUInt16 <<< 8).toNat = w := by
  have hlow : w >>> 0 &&& 255 = w % 256 := Nat.and_two_pow_sub_one_eq_mod w 8
  have hhigh : w >>> 8 &&& 255 = w / 256 := by
    rw [Nat.shiftRight_eq_div_pow, Nat.and_two_pow_sub_one_eq_mod _ 8]
    omega
  have hshift : (w / 256) <<< 8 = 256 * (w / 256) := by
    rw [Nat.shiftLeft_eq, Nat.mul_comm]
  rw [hlow, hhigh, UInt16.toNat_or, UInt16.toNat_shiftLeft, UInt8.toNat_toUInt16,
    UInt8.toNat_toUInt16, UInt8.toNat_ofNat_of_lt' (by simp only [UInt8.size]; omega),
    UInt8.toNat_ofNat_of_lt' (by simp only [UInt8.size]; omega)]
  have hmod : (w / 256) <<< 8 % 2 ^ 16 = (w / 256) <<< 8 := by
    rw [hshift]
    omega
  have hor := Nat.shiftLeft_add_eq_or_of_lt (i := 8) (b := w % 256) (by omega) (w / 256)
  change w % 256 ||| (w / 256) <<< 8 % 2 ^ 16 = w
  rw [hmod, Nat.or_comm, ← hor, hshift]
  omega

/-- One lane of the weights. -/
def weightLane (f : Fade) (spread : Lanes 16 UInt8) (i : Fin 16) : UInt16 :=
  (vqtbl4qU8 (loadTable (f.weightBytes 0)) spread i).toUInt16 |||
    (vqtbl4qU8 (loadTable (f.weightBytes 8)) spread i).toUInt16 <<< 8

theorem weightLane_toNat (f : Fade) {spread : Lanes 16 UInt8} {i : Fin 16}
    (h : (spread i).toNat < 64) :
    (weightLane f spread i).toNat = f.weightNat (spread i).toNat := by
  have hlt : f.weightNat (spread i).toNat < 2 ^ 16 :=
    Nat.lt_of_le_of_lt (f.weightNat_le _) f.denominator_lt
  have hidx : 16 * ((spread i).toNat / 16) + (spread i).toNat % 16 = (spread i).toNat :=
    Nat.div_add_mod _ _
  simp only [weightLane, vqtbl4qU8, dif_pos h, loadTable, hidx, weightBytes]
  exact toNat_bytes hlt

/-! ### Blending -/

/-- One lane of `Blend`. -/
def blendLane (denominator : Nat) (channel luma weight : UInt16) : UInt16 :=
  ((luma.toUInt32 * (.ofNat denominator - weight).toUInt32 + channel.toUInt32 * weight.toUInt32 +
    .ofNat (denominator / 2)) / .ofNat denominator).toUInt16

theorem blend_eq (denominator : Nat) (channel luma weight : Lanes 8 UInt16) :
    blend denominator channel luma weight =
      fun i => blendLane denominator (channel i) (luma i) (weight i) :=
  combine_lanes (n := 4) fun i => blendLane denominator (channel i) (luma i) (weight i)

/-- The blend of a channel and the luma lies between them. -/
theorem blendLane_toNat {d : Nat} {channel luma weight : UInt16} (hd : 0 < d) (hlt : d < 2 ^ 16)
    (hweight : weight.toNat ≤ d) (hchannel : channel.toNat ≤ 255) (hluma : luma.toNat ≤ 255) :
    (blendLane d channel luma weight).toNat =
        ((d - weight.toNat) * luma.toNat + d / 2 + weight.toNat * channel.toNat) / d ∧
      ((d - weight.toNat) * luma.toNat + d / 2 + weight.toNat * channel.toNat) / d ≤ 255 := by
  have hneutral : (d - weight.toNat) * luma.toNat ≤ (d - weight.toNat) * 255 :=
    Nat.mul_le_mul_left _ hluma
  have hcolor : weight.toNat * channel.toNat ≤ weight.toNat * 255 := Nat.mul_le_mul_left _ hchannel
  have hsum : (d - weight.toNat) * luma.toNat + d / 2 + weight.toNat * channel.toNat ≤
      255 * d + d / 2 := by omega
  have hquot : ((d - weight.toNat) * luma.toNat + d / 2 + weight.toNat * channel.toNat) / d ≤
    255 := by
    rw [Nat.div_le_iff_le_mul hd]
    omega
  refine ⟨?_, hquot⟩
  have hd16 : (UInt16.ofNat d).toNat = d := UInt16.toNat_ofNat_of_lt' hlt
  have hd32 : (UInt32.ofNat d).toNat = d := UInt32.toNat_ofNat_of_lt'
    (by simp only [UInt32.size]; omega)
  have hhalf : (UInt32.ofNat (d / 2)).toNat = d / 2 :=
    UInt32.toNat_ofNat_of_lt' (by simp only [UInt32.size]; omega)
  have hsub : (UInt16.ofNat d - weight).toNat = d - weight.toNat := by
    rw [UInt16.toNat_sub_of_le _ _ (by rw [UInt16.le_iff_toNat_le, hd16]; exact hweight), hd16]
  have hmul : luma.toNat * (d - weight.toNat) = (d - weight.toNat) * luma.toNat := Nat.mul_comm _ _
  have hmul' : channel.toNat * weight.toNat = weight.toNat * channel.toNat := Nat.mul_comm _ _
  rw [blendLane, UInt32.toNat_toUInt16, UInt32.toNat_div, UInt32.toNat_add, UInt32.toNat_add,
    UInt32.toNat_mul, UInt32.toNat_mul, UInt16.toNat_toUInt32, UInt16.toNat_toUInt32,
    UInt16.toNat_toUInt32, UInt16.toNat_toUInt32, hsub, hd32, hhalf, hmul, hmul']
  generalize (d - weight.toNat) * luma.toNat = a at *
  generalize weight.toNat * channel.toNat = b at *
  have hnowrap : (((a % 2 ^ 32 + b % 2 ^ 32) % 2 ^ 32 + d / 2) % 2 ^ 32) = a + d / 2 + b := by omega
  rw [hnowrap]
  exact Nat.mod_eq_of_lt (Nat.lt_of_le_of_lt hquot (by decide))

/-- A channel that is blended with the luma. -/
def Fade.blendNat (f : Fade) (spread luma channel : Nat) : Nat :=
  ((f.denominator - f.weightNat spread) * luma + f.denominator / 2 + f.weightNat spread * channel) /
    f.denominator

theorem Fade.blendNat_le (f : Fade) {spread luma channel : Nat} (hluma : luma ≤ 255)
    (hchannel : channel ≤ 255) : f.blendNat spread luma channel ≤ 255 := by
  have hle := f.weightNat_le spread
  have hneutral : (f.denominator - f.weightNat spread) * luma ≤
      (f.denominator - f.weightNat spread) * 255 := Nat.mul_le_mul_left _ hluma
  have hcolor : f.weightNat spread * channel ≤ f.weightNat spread * 255 :=
    Nat.mul_le_mul_left _ hchannel
  have hpos := f.denominator_pos
  rw [blendNat, Nat.div_le_iff_le_mul hpos]
  omega

/-- Without weight the channel becomes the luma. -/
theorem Fade.blendNat_of_le_low (f : Fade) {spread luma channel : Nat} (h : spread ≤ f.low) :
    f.blendNat spread luma channel = luma := by
  have hzero : f.weightNat spread = 0 := by
    rw [weightNat, weight_eq_zero (by exact_mod_cast h)]
    rfl
  have hpos := f.denominator_pos
  rw [blendNat, hzero, Nat.sub_zero, Nat.zero_mul, Nat.add_zero, Nat.add_comm,
    Nat.add_mul_div_left _ _ hpos, Nat.div_eq_of_lt (by omega), Nat.zero_add]

theorem blendLane_eq (f : Fade) {spread channel : UInt8} {luma weight : UInt16}
    (hluma : luma.toNat ≤ 255) (hweight : weight.toNat = f.weightNat spread.toNat) :
    (blendLane f.denominator channel.toUInt16 luma weight).toUInt8 =
      .ofNat (f.blendNat spread.toNat luma.toNat channel.toNat) := by
  have hchannel : channel.toUInt16.toNat ≤ 255 := Nat.le_of_lt_succ channel.toNat_lt
  have hle : weight.toNat ≤ f.denominator := hweight ▸ f.weightNat_le _
  have hblend := blendLane_toNat f.denominator_pos f.denominator_lt hle hchannel hluma
  have hvalue : (blendLane f.denominator channel.toUInt16 luma weight).toNat =
      f.blendNat spread.toNat luma.toNat channel.toNat := by
    rw [hblend.1, hweight]
    rfl
  rw [← hvalue]
  apply UInt8.toNat_inj.mp
  rw [UInt16.toNat_toUInt8, UInt8.toNat_ofNat']

/-! ### The scalar pixel -/

theorem toByte_natCast (n : Nat) : toByte n = .ofNat n := by
  apply UInt8.toNat_inj.mp
  rw [toByte, UInt8.toNat_ofNat', UInt8.toNat_ofNat']
  omega

theorem applyPixel_of_high_le (f : Fade) (h : f.high ≤ (spreadByte red green blue).toNat) :
    applyPixel f.low f.high red green blue = (red, green, blue) := by
  have hspread := spreadByte_toNat red green blue
  exact if_pos (Or.inr (by omega))

theorem applyPixel_of_eq_zero (f : Fade) (h : spreadByte red green blue = 0) :
    applyPixel f.low f.high red green blue = (red, green, blue) := by
  have hspread := spreadByte_toNat red green blue
  rw [h] at hspread
  exact if_pos (Or.inl hspread.symm)

/-- The scalar formula is the same number. -/
theorem toByte_blend (f : Fade) (spread : Nat) (red green blue channel : UInt8) :
    toByte ((((f.denominator : Int) - f.weightNat spread) *
        ((38 * red.toNat + 75 * green.toNat + 15 * blue.toNat + 64) / 128) +
          (f.denominator : Int) / 2 + f.weightNat spread * channel.toNat) / f.denominator) =
      .ofNat (f.blendNat spread (lumaNat red green blue) channel.toNat) := by
  rw [← toByte_natCast, blendNat, lumaNat]
  push_cast [Nat.cast_sub (f.weightNat_le spread)]
  rfl

/-- Below the upper end a pixel is blended with its luma. -/
theorem applyPixel_of_lt_high (f : Fade) (h : (spreadByte red green blue).toNat < f.high) :
    applyPixel f.low f.high red green blue =
      (.ofNat (f.blendNat (spreadByte red green blue).toNat (lumaNat red green blue) red.toNat),
        .ofNat (f.blendNat (spreadByte red green blue).toNat (lumaNat red green blue) green.toNat),
        .ofNat (f.blendNat (spreadByte red green blue).toNat
          (lumaNat red green blue) blue.toNat)) := by
  by_cases hzero : spreadByte red green blue = 0
  · obtain ⟨hluma, rfl, rfl⟩ := lumaNat_of_spread_eq_zero hzero
    rw [applyPixel_of_eq_zero f hzero, hzero, UInt8.toNat_zero,
      f.blendNat_of_le_low (Nat.zero_le _),
      hluma]
    simp
  · have hspread := spreadByte_toNat red green blue
    have hpos : (spreadByte red green blue).toNat ≠ 0 := fun heq => hzero (UInt8.toNat_inj.mp heq)
    have hno : ¬(((spreadByte red green blue).toNat : Int) = 0 ∨
        ((spreadByte red green blue).toNat : Int) ≥ f.high) := by omega
    simp only [applyPixel, ← hspread, if_neg hno, f.denominator_cast, ← f.weightNat_cast]
    refine Prod.ext ?_ (Prod.ext ?_ ?_)
    · exact toByte_blend f _ red green blue red
    · exact toByte_blend f _ red green blue green
    · exact toByte_blend f _ red green blue blue

/-! ### Blocks -/

theorem getD_mapPixels (g : UInt8 → UInt8 → UInt8 → UInt8 × UInt8 × UInt8) {l : List UInt8}
    {k : Nat}
    (h : 4 * k + 3 < l.length) :
    (mapPixels g l).getD (4 * k) 0 =
        (g (l.getD (4 * k) 0) (l.getD (4 * k + 1) 0) (l.getD (4 * k + 2) 0)).1 ∧
      (mapPixels g l).getD (4 * k + 1) 0 =
        (g (l.getD (4 * k) 0) (l.getD (4 * k + 1) 0) (l.getD (4 * k + 2) 0)).2.1 ∧
      (mapPixels g l).getD (4 * k + 2) 0 =
        (g (l.getD (4 * k) 0) (l.getD (4 * k + 1) 0) (l.getD (4 * k + 2) 0)).2.2 ∧
      (mapPixels g l).getD (4 * k + 3) 0 = l.getD (4 * k + 3) 0 := by
  induction k generalizing l with
  | zero =>
    match l, h with
    | _ :: _ :: _ :: _ :: _, _ => exact ⟨rfl, rfl, rfl, rfl⟩
  | succ k ih =>
    match l, h with
    | _ :: _ :: _ :: _ :: rest, h =>
      have hrest : 4 * k + 3 < rest.length := by
        simp only [List.length_cons] at h
        omega
      exact ih hrest

theorem length_mapPixels (g : UInt8 → UInt8 → UInt8 → UInt8 × UInt8 × UInt8) (l : List UInt8) :
    (mapPixels g l).length = l.length := by
  fun_induction mapPixels g l with
  | case1 => simp_all
  | case2 => rfl

/-- A block of 16 pixels, in registers. -/
theorem mapPixels_eq_vst4qU8 (g : UInt8 → UInt8 → UInt8 → UInt8 × UInt8 × UInt8)
    {block : List UInt8}
    (h : block.length = 64) : mapPixels g block = vst4qU8 (mapLanes g (vld4qU8 block)) := by
  have hlength : (mapPixels g block).length = 64 := (length_mapPixels g block).trans h
  rw [← vst4qU8_vld4qU8 hlength]
  congr 1
  funext c k
  have hk := k.isLt
  obtain ⟨h0, h1, h2, h3⟩ := getD_mapPixels g (k := k) (by omega : 4 * k.val + 3 < block.length)
  match c with
  | 0 => exact h0
  | 1 => exact h1
  | 2 => exact h2
  | 3 => exact h3

theorem mapPixels_append (g : UInt8 → UInt8 → UInt8 → UInt8 × UInt8 × UInt8) {a : List UInt8}
    (ha : a.length % 4 = 0) (b : List UInt8) :
    mapPixels g (a ++ b) = mapPixels g a ++ mapPixels g b := by
  fun_induction mapPixels g a with
  | case1 red green blue alpha rest c ih =>
    rw [List.cons_append, List.cons_append, List.cons_append, List.cons_append, mapPixels, ih]
    · rfl
    · simp only [List.length_cons] at ha
      omega
  | case2 a hshort =>
    match a, ha with
    | [], _ => rfl
    | _ :: _ :: _ :: _ :: _, _ => exact absurd rfl (hshort _ _ _ _ _)

theorem toNat_ofNat_high (f : Fade) : (UInt8.ofNat f.high).toNat = f.high :=
  UInt8.toNat_ofNat_of_lt' (by have := f.high_le; simp only [UInt8.size]; omega)

/-- The lanes of a blended channel. -/
theorem blended_lane (f : Fade) (val : Fin 4 → Lanes 16 UInt8) (spread : Lanes 16 UInt8) (c : Fin 4)
    (k : Fin 16) :
    vcombineU8
        (vmovnU16 (blend f.denominator (vmovlU8 (vgetLowU8 (val c)))
          (luma (vgetLowU8 (val 0)) (vgetLowU8 (val 1)) (vgetLowU8 (val 2)))
          (weights (vgetLowU8 (vqtbl4qU8 (loadTable (f.weightBytes 0)) spread))
            (vgetLowU8 (vqtbl4qU8 (loadTable (f.weightBytes 8)) spread)))))
        (vmovnU16 (blend f.denominator (vmovlU8 (vgetHighU8 (val c)))
          (luma (vgetHighU8 (val 0)) (vgetHighU8 (val 1)) (vgetHighU8 (val 2)))
          (weights (vgetHighU8 (vqtbl4qU8 (loadTable (f.weightBytes 0)) spread))
            (vgetHighU8 (vqtbl4qU8 (loadTable (f.weightBytes 8)) spread))))) k =
      (blendLane f.denominator (val c k).toUInt16 (lumaLane (val 0 k) (val 1 k) (val 2 k))
        (weightLane f spread k)).toUInt8 := by
  rw [blend_eq, blend_eq]
  exact congrFun (combine_lanes (n := 8) fun k =>
    (blendLane f.denominator (val c k).toUInt16 (lumaLane (val 0 k) (val 1 k) (val 2 k))
      (weightLane f spread k)).toUInt8) k

/-- A lane is blended below the upper end, and kept above it, as the scalar pixel is. -/
theorem selected_lane (f : Fade) {val : Fin 4 → Lanes 16 UInt8} {spread : Lanes 16 UInt8}
    {k : Fin 16}
    (hlane : spread k = spreadByte (val 0 k) (val 1 k) (val 2 k)) {c : Fin 4} (hc : c ≠ 3) :
    (if spread k < UInt8.ofNat f.high then
      (blendLane f.denominator (val c k).toUInt16 (lumaLane (val 0 k) (val 1 k) (val 2 k))
        (weightLane f spread k)).toUInt8
    else val c k) = component (applyPixel f.low f.high (val 0 k) (val 1 k) (val 2 k)) c := by
  have hhigh := toNat_ofNat_high f
  split
  · next hlt =>
    have hlt : (spread k).toNat < f.high := hhigh ▸ UInt8.lt_iff_toNat_lt.mp hlt
    have hluma : (lumaLane (val 0 k) (val 1 k) (val 2 k)).toNat ≤ 255 :=
      lumaLane_toNat _ _ _ ▸ lumaNat_le _ _ _
    have hweight := weightLane_toNat f (Nat.lt_of_lt_of_le hlt f.high_le)
    rw [blendLane_eq f hluma hweight, lumaLane_toNat, hlane,
      applyPixel_of_lt_high f (hlane ▸ hlt)]
    match c with
    | 0 | 1 | 2 => rfl
    | 3 => exact absurd rfl hc
  · next hnot =>
    have hle : f.high ≤ (spread k).toNat :=
      Nat.not_lt.mp fun hlt => hnot (UInt8.lt_iff_toNat_lt.mpr (hhigh.symm ▸ hlt))
    rw [applyPixel_of_high_le f (hlane ▸ hle)]
    match c with
    | 0 | 1 | 2 => rfl
    | 3 => exact absurd rfl hc

/-- The three ways through a block agree with the scalar pixels. -/
theorem applyBlock_eq (f : Fade) {block : List UInt8} (h : block.length = 64) :
    f.applyBlock block = mapPixels (applyPixel f.low f.high) block := by
  rw [mapPixels_eq_vst4qU8 _ h]
  unfold applyBlock
  generalize hval : vld4qU8 block = val
  have hblock : block = vst4qU8 val := by rw [← hval, vst4qU8_vld4qU8 h]
  dsimp only
  generalize hspread : vsubqU8 (vmaxqU8 (vmaxqU8 (val 0) (val 1)) (val 2))
    (vminqU8 (vminqU8 (val 0) (val 1)) (val 2)) = spread
  have hlane : ∀ k, spread k = spreadByte (val 0 k) (val 1 k) (val 2 k) := fun k => by
    rw [← hspread]
    rfl
  split
  · next hskip =>
    -- no lane has a spread, or every lane has too much
    have hsame : ∀ k, applyPixel f.low f.high (val 0 k) (val 1 k) (val 2 k) =
        (val 0 k, val 1 k, val 2 k) := by
      intro k
      rcases hskip with hzero | hhigh
      · have hle := le_vmaxvqU8 spread k
        rw [hzero, UInt8.toNat_zero] at hle
        exact applyPixel_of_eq_zero f (hlane k ▸ UInt8.toNat_inj.mp (Nat.le_zero.mp hle))
      · have hle := vminvqU8_le spread k
        exact applyPixel_of_high_le f (hlane k ▸ Nat.le_trans hhigh hle)
    rw [hblock]
    congr 1
    funext c k
    match c with
    | 0 | 1 | 2 | 3 => simp [mapLanes, component, hsame k]
  · split
    · next hlow =>
      -- every lane has its luma
      congr 1
      funext c k
      have hle : (spreadByte (val 0 k) (val 1 k) (val 2 k)).toNat ≤ f.low :=
        hlane k ▸ Nat.le_trans (le_vmaxvqU8 spread k) hlow
      have hgray : vcombineU8
          (vmovnU16 (luma (vgetLowU8 (val 0)) (vgetLowU8 (val 1)) (vgetLowU8 (val 2))))
          (vmovnU16 (luma (vgetHighU8 (val 0)) (vgetHighU8 (val 1)) (vgetHighU8 (val 2)))) k =
            .ofNat (lumaNat (val 0 k) (val 1 k) (val 2 k)) := by
        have hcombined := congrFun (combine_lanes (n := 8) fun k =>
          (lumaLane (val 0 k) (val 1 k) (val 2 k)).toUInt8) k
        refine hcombined.trans (UInt8.toNat_inj.mp ?_)
        rw [UInt16.toNat_toUInt8, lumaLane_toNat, UInt8.toNat_ofNat']
      have hpixel := applyPixel_of_lt_high f (Nat.lt_of_le_of_lt hle f.low_lt)
      simp only [f.blendNat_of_le_low hle] at hpixel
      match c with
      | 0 | 1 | 2 => simp [mapLanes, component, hpixel, hgray]
      | 3 => rfl
    · -- each lane below the upper end is blended
      congr 1
      funext c k
      by_cases hc : c = 3
      · simp [mapLanes, hc]
      · rw [if_neg hc, vbslqU8_vcltqU8, blended_lane, mapLanes, if_neg hc]
        exact selected_lane f (hlane k) hc

/-! ### Buffers -/

/-- The vector loop and the scalar loop over what it left are the scalar loop over the buffer. -/
theorem apply_eq (f : Fade) (rgba : List UInt8) :
    f.apply rgba = mapPixels (applyPixel f.low f.high) rgba := by
  unfold Fade.apply
  fun_induction applyVectors f rgba with
  | case1 rgba hlong rest ih =>
    have htake : (rgba.take 64).length = 64 := by
      rw [List.length_take]
      omega
    have hblock := applyBlock_eq f htake
    have hlength : (f.applyBlock (rgba.take 64)).length = 64 := by
      rw [hblock, length_mapPixels, htake]
    dsimp only at ih ⊢
    generalize f.applyBlock (rgba.take 64) = block at hblock hlength ⊢
    rw [Nat.add_comm, ← hlength, List.take_length_add_append, List.drop_length_add_append,
      List.append_assoc, ih, hblock, ← mapPixels_append _ (by rw [htake]), List.take_append_drop]
  | case2 rgba hshort => rfl

/-- **The vector path is the scalar path**: the same bytes for every buffer and every preference. -/
theorem applyGrayPreferenceVectors_eq (rgba : List UInt8) (preference : Option GrayPreference) :
    applyGrayPreferenceVectors rgba preference = applyGrayPreference rgba preference := by
  unfold applyGrayPreferenceVectors applyGrayPreference
  split
  · rfl
  · match preference with
    | some .balanced => exact apply_eq .balanced rgba
    | some .stronger => exact apply_eq .stronger rgba
    | some .original | none => rfl

end EinkLab.LowerEngine
