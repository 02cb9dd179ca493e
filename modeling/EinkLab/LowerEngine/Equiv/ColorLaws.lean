import EinkLab.LowerEngine.CheckedColor
import EinkLab.LowerEngine.Equiv.ColorVectors
import Mathlib.Data.List.GetD

/-!
# What the colour treatments keep

Both treatments take the channels of a pixel through one function (`applyPixel_eq`,
`vividPixel_eq`), which is monotone.  The gray preference stays between the least and the greatest
channel, and the vivid treatment keeps the greatest and lowers the others by at most a quarter of
the least.  Every operation of the source fits its type.
-/

namespace EinkLab.LowerEngine

open IntType Neon Fade

variable {f : Fade} {red green blue : UInt8}

/-! ### The laws -/

/-- A channel of a pixel of a buffer. -/
def channelAt (rgba : List UInt8) (pixel c : Nat) : Nat := (rgba.getD (4 * pixel + c) 0).toNat

def leastAt (rgba : List UInt8) (pixel : Nat) : Nat :=
  min (min (channelAt rgba pixel 0) (channelAt rgba pixel 1)) (channelAt rgba pixel 2)

def greatestAt (rgba : List UInt8) (pixel : Nat) : Nat :=
  max (max (channelAt rgba pixel 0) (channelAt rgba pixel 1)) (channelAt rgba pixel 2)

/-- What both treatments keep. -/
structure KeepsAlpha (before after : List UInt8) : Prop where
  length : after.length = before.length
  alpha : ∀ pixel, 4 * pixel + 3 < before.length →
    after[4 * pixel + 3]? = before[4 * pixel + 3]?
  malformed : before.length % 4 ≠ 0 → after = before

/-- The channels of a pixel keep their weak order. -/
def KeepsOrder (before after : List UInt8) (pixel : Nat) : Prop :=
  ∀ c < 3, ∀ d < 3, channelAt before pixel c ≤ channelAt before pixel d →
    channelAt after pixel c ≤ channelAt after pixel d

structure GrayLaws (before after : List UInt8) : Prop extends KeepsAlpha before after where
  between : ∀ pixel, 4 * pixel + 3 < before.length → ∀ c < 3,
    leastAt before pixel ≤ channelAt after pixel c ∧
      channelAt after pixel c ≤ greatestAt before pixel
  order : ∀ pixel, 4 * pixel + 3 < before.length → KeepsOrder before after pixel

structure VividLaws (before after : List UInt8) : Prop extends KeepsAlpha before after where
  greatest : ∀ pixel, 4 * pixel + 3 < before.length → ∀ c < 3,
    channelAt before pixel c = greatestAt before pixel →
      channelAt after pixel c = channelAt before pixel c
  order : ∀ pixel, 4 * pixel + 3 < before.length → KeepsOrder before after pixel
  le : ∀ pixel, 4 * pixel + 3 < before.length → ∀ c < 3,
    channelAt after pixel c ≤ channelAt before pixel c
  /-- By a quarter of the least channel at most, rounded up. -/
  lowered : ∀ pixel, 4 * pixel + 3 < before.length → ∀ c < 3,
    channelAt before pixel c - channelAt after pixel c ≤ (leastAt before pixel + 3) / 4

/-! ### One function for the three channels -/

abbrev Treatment := UInt8 → UInt8 → UInt8 → UInt8 × UInt8 × UInt8

/-- The treatment takes each channel of a pixel through `φ`. -/
def Treatment.ActsBy (g : Treatment) (red green blue : UInt8) (φ : Nat → Nat) : Prop :=
  g red green blue = (.ofNat (φ red.toNat), .ofNat (φ green.toNat), .ofNat (φ blue.toNat))

def least (red green blue : UInt8) : Nat := min (min red.toNat green.toNat) blue.toNat

def greatest (red green blue : UInt8) : Nat := max (max red.toNat green.toNat) blue.toNat

theorem greatest_le (red green blue : UInt8) : greatest red green blue ≤ 255 := by
  have hr := red.toNat_lt
  have hg := green.toNat_lt
  have hb := blue.toNat_lt
  unfold greatest
  omega

theorem channelMax_eq (red green blue : UInt8) :
    channelMax red green blue = greatest red green blue := by
  simp only [channelMax, greatest, Nat.cast_max]

theorem channelMin_eq (red green blue : UInt8) : channelMin red green blue =
    least red green blue := by
  simp only [channelMin, least, Nat.cast_min]

theorem channelAt_mapPixels {g : Treatment} {rgba : List UInt8} {pixel : Nat} {φ : Nat → Nat}
    (h : 4 * pixel + 3 < rgba.length)
    (hφ : g.ActsBy (rgba.getD (4 * pixel) 0) (rgba.getD (4 * pixel + 1) 0)
      (rgba.getD (4 * pixel + 2) 0) φ)
    (hle : ∀ c < 3, φ (channelAt rgba pixel c) ≤ 255) :
    ∀ c < 3, channelAt (mapPixels g rgba) pixel c = φ (channelAt rgba pixel c) := by
  have hbyte : ∀ c < 3, (UInt8.ofNat (φ (channelAt rgba pixel c))).toNat =
      φ (channelAt rgba pixel c) := fun c hc =>
    UInt8.toNat_ofNat_of_lt' (Nat.lt_succ_of_le (hle c hc))
  obtain ⟨h0, h1, h2, -⟩ := getD_mapPixels g h
  rw [hφ] at h0 h1 h2
  intro c hc
  match c, hc with
  | 0, _ => exact (congrArg UInt8.toNat h0).trans (hbyte 0 (by omega))
  | 1, _ => exact (congrArg UInt8.toNat h1).trans (hbyte 1 (by omega))
  | 2, _ => exact (congrArg UInt8.toNat h2).trans (hbyte 2 (by omega))

theorem keepsAlpha_mapPixels (g : Treatment) {rgba : List UInt8} (h : rgba.length % 4 = 0) :
    KeepsAlpha rgba (mapPixels g rgba) where
  length := length_mapPixels g rgba
  alpha := by
    intro pixel hpixel
    have halpha := (getD_mapPixels g hpixel).2.2.2
    have hlength : 4 * pixel + 3 < (mapPixels g rgba).length := by
      rw [length_mapPixels]
      exact hpixel
    rw [List.getD_eq_getElem _ _ hpixel, List.getD_eq_getElem _ _ hlength] at halpha
    rw [List.getElem?_eq_getElem hpixel, List.getElem?_eq_getElem hlength, halpha]
  malformed := fun hno => absurd h hno

theorem keepsAlpha_refl (rgba : List UInt8) : KeepsAlpha rgba rgba :=
    ⟨rfl, fun _ _ => rfl, fun _ => rfl⟩

theorem channelAt_bounds (rgba : List UInt8) (pixel : Nat) {c : Nat} (hc : c < 3) :
    leastAt rgba pixel ≤ channelAt rgba pixel c ∧
      channelAt rgba pixel c ≤ greatestAt rgba pixel := by
  unfold leastAt greatestAt
  match c, hc with
  | 0, _ | 1, _ | 2, _ => constructor <;> omega

theorem greatestAt_le (rgba : List UInt8) (pixel : Nat) : greatestAt rgba pixel ≤ 255 :=
  greatest_le _ _ _

/-! ### Gray preference -/

/-- A blend of two values lies between what bounds both. -/
theorem Fade.blendNat_between (f : Fade) {spread luma channel m M : Nat}
    (hluma : m ≤ luma ∧ luma ≤ M)
    (hchannel : m ≤ channel ∧ channel ≤ M) :
    m ≤ f.blendNat spread luma channel ∧ f.blendNat spread luma channel ≤ M := by
  have hpos := f.denominator_pos
  have hle := f.weightNat_le spread
  unfold blendNat
  generalize f.weightNat spread = w at hle ⊢
  generalize f.denominator = d at hpos hle ⊢
  -- the two weights add up to the denominator, so a bound of both values bounds the numerator
  have hsplit (x : Nat) : (d - w) * x + w * x = d * x := by
    rw [← Nat.add_mul, Nat.sub_add_cancel hle]
  constructor
  · have hneutral : (d - w) * m ≤ (d - w) * luma := Nat.mul_le_mul_left _ hluma.1
    have hcolor : w * m ≤ w * channel := Nat.mul_le_mul_left _ hchannel.1
    rw [Nat.le_div_iff_mul_le hpos, Nat.mul_comm, ← hsplit]
    omega
  · have hneutral : (d - w) * luma ≤ (d - w) * M := Nat.mul_le_mul_left _ hluma.2
    have hcolor : w * channel ≤ w * M := Nat.mul_le_mul_left _ hchannel.2
    rw [← Nat.lt_succ_iff, Nat.div_lt_iff_lt_mul hpos, Nat.succ_mul, Nat.mul_comm M, ← hsplit]
    omega

theorem Fade.blendNat_mono (f : Fade) (spread luma : Nat) : Monotone (f.blendNat spread luma) := by
  intro c d hcd
  have hcolor : f.weightNat spread * c ≤ f.weightNat spread * d := Nat.mul_le_mul_left _ hcd
  exact Nat.div_le_div_right (Nat.add_le_add_left hcolor _)

theorem lumaNat_between (red green blue : UInt8) :
    least red green blue ≤ lumaNat red green blue ∧
      lumaNat red green blue ≤ greatest red green blue := by
  unfold least greatest lumaNat
  omega

theorem applyPixel_actsBy (f : Fade) (red green blue : UInt8) :
    ∃ φ : Nat → Nat, Treatment.ActsBy (applyPixel f.low f.high) red green blue φ ∧ Monotone φ ∧
      ∀ c, least red green blue ≤ c → c ≤ greatest red green blue →
        least red green blue ≤ φ c ∧ φ c ≤ greatest red green blue := by
  by_cases h : (spreadByte red green blue).toNat < f.high
  · have hluma := lumaNat_between red green blue
    exact ⟨f.blendNat (spreadByte red green blue).toNat (lumaNat red green blue),
      applyPixel_of_lt_high f h, f.blendNat_mono _ _,
      fun c hleast hgreatest => f.blendNat_between hluma ⟨hleast, hgreatest⟩⟩
  · -- a pixel of this spread keeps its colour
    refine ⟨id, ?_, monotone_id, fun c hleast hgreatest => ⟨hleast, hgreatest⟩⟩
    rw [Treatment.ActsBy, applyPixel_of_high_le f (Nat.not_lt.mp h)]
    simp

theorem grayLaws_mapPixels (f : Fade) {rgba : List UInt8} (h : rgba.length % 4 = 0) :
    GrayLaws rgba (mapPixels (applyPixel f.low f.high) rgba) := by
  have hpixel : ∀ pixel, 4 * pixel + 3 < rgba.length → ∃ φ : Nat → Nat, Monotone φ ∧
      ∀ c < 3, channelAt (mapPixels (applyPixel f.low f.high) rgba) pixel c =
          φ (channelAt rgba pixel c) ∧
        leastAt rgba pixel ≤ φ (channelAt rgba pixel c) ∧
          φ (channelAt rgba pixel c) ≤ greatestAt rgba pixel := by
    intro pixel hlt
    obtain ⟨φ, hacts, hmono, hbetween⟩ := applyPixel_actsBy f (rgba.getD (4 * pixel) 0)
      (rgba.getD (4 * pixel + 1) 0) (rgba.getD (4 * pixel + 2) 0)
    have hbounds : ∀ c < 3, leastAt rgba pixel ≤ φ (channelAt rgba pixel c) ∧
        φ (channelAt rgba pixel c) ≤ greatestAt rgba pixel := fun c hc =>
      hbetween _ (channelAt_bounds rgba pixel hc).1 (channelAt_bounds rgba pixel hc).2
    have hvalue := channelAt_mapPixels hlt hacts fun c hc =>
      (hbounds c hc).2.trans (greatestAt_le rgba pixel)
    exact ⟨φ, hmono, fun c hc => ⟨hvalue c hc, hbounds c hc⟩⟩
  refine ⟨keepsAlpha_mapPixels _ h, ?_, ?_⟩
  · intro pixel hlt c hc
    obtain ⟨φ, -, hall⟩ := hpixel pixel hlt
    obtain ⟨hvalue, hbetween⟩ := hall c hc
    rw [hvalue]
    exact hbetween
  · intro pixel hlt c hc d hd hcd
    obtain ⟨φ, hmono, hall⟩ := hpixel pixel hlt
    rw [(hall c hc).1, (hall d hd).1]
    exact hmono hcd

theorem grayLaws_refl (rgba : List UInt8) : GrayLaws rgba rgba :=
  ⟨keepsAlpha_refl rgba, fun pixel _ _ hc => channelAt_bounds rgba pixel hc,
    fun _ _ _ _ _ _ hcd => hcd⟩

theorem grayLaws_applyGrayPreference (rgba : List UInt8) (preference : Option GrayPreference) :
    GrayLaws rgba (applyGrayPreference rgba preference) := by
  unfold applyGrayPreference
  split
  · exact grayLaws_refl rgba
  · next h =>
    have hwhole : rgba.length % 4 = 0 := not_not.mp h
    match preference with
    | some .balanced => exact grayLaws_mapPixels .balanced hwhole
    | some .stronger => exact grayLaws_mapPixels .stronger hwhole
    | some .original | none => exact grayLaws_refl rgba

/-! ### Vivid colour -/

/-- The rounded reduction of a channel that is `distance` below the greatest. -/
def reduction (numerator denominator distance : Nat) : Nat :=
  (numerator * distance + denominator / 2) / denominator

/-- With a slope of at most one, it grows no faster than the distance. -/
theorem reduction_add_le {p d : Nat} (hd : 0 < d) (hslope : p ≤ d) (x n : Nat) :
    reduction p d (x + n) ≤ reduction p d x + n := by
  have hstep : p * (x + n) + d / 2 ≤ p * x + d / 2 + n * d := by
    have hn : p * n ≤ d * n := Nat.mul_le_mul_right n hslope
    rw [Nat.mul_add, Nat.mul_comm n d]
    omega
  unfold reduction
  rw [← Nat.add_mul_div_right _ _ hd]
  exact Nat.div_le_div_right hstep

theorem reduction_mono (p d : Nat) : Monotone (reduction p d) := by
  intro x y hxy
  exact Nat.div_le_div_right (Nat.add_le_add_right (Nat.mul_le_mul_left p hxy) _)

/-- What `ApplyVividColor` makes of a channel, from the least and the greatest one. -/
def vividNat (m M c : Nat) : Nat :=
  if M - m ≤ 24 ∨ m = 0 then c else c - reduction (m * min (M - m - 24) 40) (160 * (M - m)) (M - c)

/-- The slope is at most one: the least channel is at most `255` less the spread. -/
theorem slope_le {m M : Nat} (hM : M ≤ 255) (hspread : 24 < M - m) :
    m * min (M - m - 24) 40 ≤ 160 * (M - m) := by
  generalize hs : M - m = s at hspread
  -- from a spread of 58 on, full strength is bounded by the least channel that leaves such a
  -- spread; below it the strength itself is small
  by_cases hlarge : 58 ≤ s
  · have hproduct : m * min (s - 24) 40 ≤ 197 * 40 := Nat.mul_le_mul (by omega) (by omega)
    omega
  · have hproduct : m * min (s - 24) 40 ≤ 230 * (s - 24) := Nat.mul_le_mul (by omega) (by omega)
    omega

/-- At full strength and over the whole spread, a quarter of the least channel. -/
theorem reduction_le {m M x : Nat} (hspread : 24 < M - m) (hx : x ≤ M - m) :
    reduction (m * min (M - m - 24) 40) (160 * (M - m)) x ≤ (m + 3) / 4 := by
  refine (reduction_mono _ _ hx).trans ?_
  generalize hs : M - m = s at hspread
  have hpos : 0 < s := by omega
  have hproduct : m * min (s - 24) 40 * s ≤ m * 40 * s :=
    Nat.mul_le_mul_right s (Nat.mul_le_mul_left m (by omega))
  have hnumerator : m * min (s - 24) 40 * s + 160 * s / 2 ≤ (m + 2) * (40 * s) := by
    have hexpand : (m + 2) * (40 * s) = m * 40 * s + 80 * s := by ring
    rw [hexpand]
    omega
  unfold reduction
  calc (m * min (s - 24) 40 * s + 160 * s / 2) / (160 * s)
      ≤ (m + 2) * (40 * s) / (4 * (40 * s)) := by
        rw [show 4 * (40 * s) = 160 * s by omega]
        exact Nat.div_le_div_right hnumerator
    _ = (m + 2) / 4 := Nat.mul_div_mul_right _ _ (by omega)
    _ ≤ (m + 3) / 4 := Nat.div_le_div_right (by omega)

theorem vividNat_mono {m M : Nat} (hM : M ≤ 255) {c d : Nat} (hcd : c ≤ d) (hd : d ≤ M) :
    vividNat m M c ≤ vividNat m M d := by
  unfold vividNat
  split
  · exact hcd
  · next h =>
    have hspread : 24 < M - m := by omega
    -- a channel that is lower by `d - c` is reduced by at most that much more
    have hslope := reduction_add_le (by omega) (slope_le hM hspread) (M - d) (d - c)
    rw [show M - d + (d - c) = M - c by omega] at hslope
    have hmore := reduction_mono (m * min (M - m - 24) 40) (160 * (M - m))
      (show M - d ≤ M - c by omega)
    omega

theorem vividNat_greatest (m M : Nat) : vividNat m M M = M := by
  unfold vividNat
  split
  · rfl
  · next h =>
    -- at distance zero only the rounding is left, and it is less than one
    have hhalf : 160 * (M - m) / 2 < 160 * (M - m) := Nat.div_lt_self (by omega) (by omega)
    rw [Nat.sub_self, reduction, Nat.mul_zero, Nat.zero_add, Nat.div_eq_of_lt hhalf, Nat.sub_zero]

theorem vividNat_lowered {m M c : Nat} (hm : m ≤ c) :
    vividNat m M c ≤ c ∧ c - vividNat m M c ≤ (m + 3) / 4 := by
  unfold vividNat
  split
  · omega
  · next h =>
    have hle := reduction_le (by omega) (show M - c ≤ M - m by omega)
    omega

theorem reduction_le_channel {m M c : Nat} (hm : m ≤ c) (hspread : 24 < M - m) (hpos : m ≠ 0) :
    reduction (m * min (M - m - 24) 40) (160 * (M - m)) (M - c) ≤ c := by
  have hle := reduction_le hspread (show M - c ≤ M - m by omega)
  omega

/-- The source's formula is the same number. -/
theorem vividChannel_eq {m M c : Nat} (hm : m ≤ c) (hc : c ≤ M) (hspread : 24 < M - m)
    (hpos : m ≠ 0) :
    (c : Int) - ((m : Int) * min ((M : Int) - m - 24) 40 * ((M : Int) - c) +
        160 * ((M : Int) - m) / 2) / (160 * ((M : Int) - m)) = (vividNat m M c : Nat) := by
  have hle := reduction_le_channel hm hspread hpos
  have hstrength : min ((M : Int) - m - 24) 40 = (min (M - m - 24) 40 : Nat) := by omega
  have hdifference : (M : Int) - m = (M - m : Nat) := by omega
  have hdistance : (M : Int) - c = (M - c : Nat) := by omega
  rw [vividNat, if_neg (by omega), Nat.cast_sub hle, hstrength, hdifference, hdistance, reduction]
  push_cast
  rfl

theorem least_le (red green blue : UInt8) : least red green blue ≤ red.toNat ∧
    least red green blue ≤ green.toNat ∧ least red green blue ≤ blue.toNat := by
  unfold least
  omega

theorem le_greatest (red green blue : UInt8) : red.toNat ≤ greatest red green blue ∧
    green.toNat ≤ greatest red green blue ∧ blue.toNat ≤ greatest red green blue := by
  unfold greatest
  omega

theorem vividPixel_actsBy (red green blue : UInt8) :
    Treatment.ActsBy vividPixel red green blue
      (vividNat (least red green blue) (greatest red green blue)) := by
  obtain ⟨hr, hg, hb⟩ := least_le red green blue
  obtain ⟨hr', hg', hb'⟩ := le_greatest red green blue
  unfold Treatment.ActsBy vividPixel
  simp only [channelMax_eq, channelMin_eq]
  generalize least red green blue = m at *
  generalize greatest red green blue = M at *
  split
  · next h =>
    have hkept : ∀ c, vividNat m M c = c := fun c => if_pos (by omega)
    simp [hkept]
  · next h =>
    have hspread : 24 < M - m := by omega
    have hpos : m ≠ 0 := by omega
    rw [vividChannel_eq hr hr' hspread hpos, vividChannel_eq hg hg' hspread hpos,
      vividChannel_eq hb hb' hspread hpos, toByte_natCast, toByte_natCast, toByte_natCast]

theorem vividLaws_mapPixels {rgba : List UInt8} (h : rgba.length % 4 = 0) :
    VividLaws rgba (mapPixels vividPixel rgba) := by
  have hvalue : ∀ pixel, 4 * pixel + 3 < rgba.length → ∀ c < 3,
      channelAt (mapPixels vividPixel rgba) pixel c =
        vividNat (leastAt rgba pixel) (greatestAt rgba pixel) (channelAt rgba pixel c) := by
    intro pixel hlt
    refine channelAt_mapPixels hlt (vividPixel_actsBy _ _ _) fun c hc => ?_
    have hbounds := channelAt_bounds rgba pixel hc
    exact (vividNat_lowered hbounds.1).1.trans (hbounds.2.trans (greatestAt_le rgba pixel))
  refine ⟨keepsAlpha_mapPixels _ h, ?_, ?_, ?_, ?_⟩
  · intro pixel hlt c hc hgreatest
    rw [hvalue pixel hlt c hc, hgreatest, vividNat_greatest]
  · intro pixel hlt c hc d hd hcd
    rw [hvalue pixel hlt c hc, hvalue pixel hlt d hd]
    exact vividNat_mono (greatestAt_le rgba pixel) hcd (channelAt_bounds rgba pixel hd).2
  · intro pixel hlt c hc
    rw [hvalue pixel hlt c hc]
    exact (vividNat_lowered (channelAt_bounds rgba pixel hc).1).1
  · intro pixel hlt c hc
    rw [hvalue pixel hlt c hc]
    exact (vividNat_lowered (channelAt_bounds rgba pixel hc).1).2

theorem vividLaws_applyVividColor (rgba : List UInt8) : VividLaws rgba (applyVividColor rgba) := by
  unfold applyVividColor
  split
  · exact ⟨keepsAlpha_refl rgba, fun _ _ _ _ _ => rfl, fun _ _ _ _ _ _ hcd => hcd,
      fun _ _ _ _ => le_rfl, fun _ _ _ _ => by omega⟩
  · next h => exact vividLaws_mapPixels (not_not.mp h)

/-! ### Nothing wraps -/

theorem denominatorChecked_eq (f : Fade) :
    denominatorChecked f.low f.high = some (f.denominator : Int) := by
  have hlow := f.low_lt
  have hhigh := f.high_le
  have hwidth : (f.high : Int) - f.low = (f.width : Nat) := by
    unfold Fade.width
    omega
  have hle : f.width ≤ 64 := by
    unfold Fade.width
    omega
  -- every fade is at most 64 wide
  have hsquare : f.width * f.width ≤ 64 * 64 := Nat.mul_le_mul hle hle
  have hcube : f.denominator < 2 ^ 16 := f.denominator_lt
  have hvalue : f.width * f.width * f.width = f.denominator := rfl
  unfold denominatorChecked
  rw [hwidth, int32_bind _ (by omega), ← Nat.cast_mul, int32_bind _ (by omega), ← Nat.cast_mul,
    hvalue]
  exact int32_exact (by omega)

theorem weightChecked_eq (f : Fade) {spread : Nat} (h : spread < 256) :
    weightChecked f.low f.high spread = some (f.weightNat spread : Int) := by
  have hlow := f.low_lt
  have hhigh := f.high_le
  have hweight : (f.weightNat spread : Int) < 2 ^ 16 := by
    have := (f.weightNat_le spread).trans_lt f.denominator_lt
    exact_mod_cast this
  have hnonneg : (0 : Int) ≤ f.weightNat spread := Int.natCast_nonneg _
  rw [f.weightNat_cast] at hweight hnonneg ⊢
  unfold weightChecked weight at *
  dsimp only at *
  rw [int32_bind _ (by omega), int32_bind _ (by omega)]
  generalize ht : max 0 (min ((spread : Int) - f.low) (f.high - f.low)) = t at *
  have ht0 : 0 ≤ t := by omega
  have ht64 : t ≤ 64 := by omega
  have hsquare : t * t ≤ 64 * 64 := Int.mul_le_mul ht64 ht64 ht0 (by omega)
  have hsquare0 : 0 ≤ t * t := mul_self_nonneg t
  rw [int32_bind _ (by omega), int32_bind _ (by omega), int32_bind _ (by omega),
    int32_bind _ (by omega)]
  exact int32_exact (by omega)

theorem lumaChecked_eq (red green blue : UInt8) :
    lumaChecked red green blue = some (lumaNat red green blue : Int) := by
  have hr := red.toNat_lt
  have hg := green.toNat_lt
  have hb := blue.toNat_lt
  unfold lumaChecked lumaNat
  rw [int32_bind _ (by omega), int32_bind _ (by omega), int32_bind _ (by omega),
    int32_bind _ (by omega), int32_bind _ (by omega), int32_bind _ (by omega)]
  refine (int32_exact (by omega)).trans ?_
  push_cast
  rfl

/-- The two products of a blend, which add up to at most 255 times the denominator. -/
theorem Fade.products_le (f : Fade) (spread : Nat) {luma channel : Nat} (hluma : luma ≤ 255)
    (hchannel : channel ≤ 255) :
    (f.denominator - f.weightNat spread) * luma + f.weightNat spread * channel ≤
      255 * f.denominator := by
  have hle := f.weightNat_le spread
  have hneutral : (f.denominator - f.weightNat spread) * luma ≤
      (f.denominator - f.weightNat spread) * 255 := Nat.mul_le_mul_left _ hluma
  have hcolor : f.weightNat spread * channel ≤ f.weightNat spread * 255 :=
    Nat.mul_le_mul_left _ hchannel
  omega

theorem blendChecked_eq (f : Fade) (spread : Nat) {luma : Nat} (hluma : luma ≤ 255) (c : UInt8) :
    blendChecked f.denominator (f.weightNat spread)
        (((f.denominator - f.weightNat spread) * luma + f.denominator / 2 : Nat) : Int) c =
      some (.ofNat (f.blendNat spread luma c.toNat)) := by
  have hc : c.toNat ≤ 255 := Nat.le_of_lt_succ c.toNat_lt
  have hd := f.denominator_lt
  have hproducts := f.products_le spread hluma hc
  have hblend : f.blendNat spread luma c.toNat ≤ 255 := f.blendNat_le hluma hc
  unfold blendNat at hblend ⊢
  -- the products are opaque to the bounds from here on
  generalize f.weightNat spread = w at *
  generalize f.denominator = d at *
  generalize hn : (d - w) * luma + d / 2 = n at *
  generalize hp : w * c.toNat = p at *
  unfold blendChecked
  rw [← Nat.cast_mul, hp, int32_bind _ (by omega), ← Nat.cast_add, int32_bind _ (by omega),
    ← Int.natCast_ediv]
  generalize (n + p) / d = quotient at *
  rw [int32_bind _ (by omega), uint8_exact (by omega),
    Option.map_some, toByte_natCast]

theorem spread_eq (red green blue : UInt8) :
    channelMax red green blue - channelMin red green blue = (spreadByte red green blue).toNat :=
  (spreadByte_toNat red green blue).symm

/-- The scalar loop computes each pixel without wrapping. -/
theorem applyPixelChecked_eq (f : Fade) (red green blue : UInt8) :
    applyPixelChecked f.low f.high red green blue =
    some (applyPixel f.low f.high red green blue) := by
  have hspread := (spreadByte red green blue).toNat_lt
  unfold applyPixelChecked
  rw [spread_eq, int32_bind _ (by omega)]
  split
  · next h =>
    rw [← spread_eq] at h
    rw [applyPixel, if_pos h]
  · next h =>
    have hlt : (spreadByte red green blue).toNat < f.high := by omega
    have hluma := lumaNat_le red green blue
    have hd := f.denominator_lt
    have hw := f.weightNat_le (spreadByte red green blue).toNat
    have hproducts := f.products_le (spreadByte red green blue).toNat hluma (Nat.zero_le 255)
    have hblend (c : UInt8) := blendChecked_eq f (spreadByte red green blue).toNat hluma c
    have hrest : (f.denominator : Int) - f.weightNat (spreadByte red green blue).toNat =
        (f.denominator - f.weightNat (spreadByte red green blue).toNat : Nat) := by omega
    rw [applyPixel_of_lt_high f hlt, denominatorChecked_eq, lumaChecked_eq,
      weightChecked_eq f hspread]
    simp only [Option.bind_eq_bind, Option.bind_some, hrest]
    generalize f.weightNat (spreadByte red green blue).toNat = w at *
    generalize lumaNat red green blue = luma at *
    generalize hdenominator : f.denominator = d at *
    generalize hproduct : (d - w) * luma = product at *
    simp only [← Option.bind_eq_bind]
    rw [int32_bind _ (by omega), ← Nat.cast_mul, hproduct, int32_bind _ (by omega),
      int32_bind _ (by omega)]
    have hhalf : (product : Int) + (d : Int) / 2 = (product + d / 2 : Nat) := by omega
    rw [hhalf, hblend red, hblend green, hblend blue]
    rfl

/-! ### The vivid treatment -/

theorem vividChannelChecked_eq {m M : Nat} {c : UInt8} (hm : m ≤ c.toNat) (hc : c.toNat ≤ M)
    (hM : M ≤ 255) (hspread : 24 < M - m) (hpos : m ≠ 0) :
    vividChannelChecked M m (min ((M : Int) - m - 24) 40) (160 * ((M : Int) - m)) c =
      some (.ofNat (vividNat m M c.toNat)) := by
  have hvalue := vividChannel_eq hm hc hspread hpos
  have hlowered := (vividNat_lowered (M := M) hm).1
  have hreduction : ((m : Int) * min ((M : Int) - m - 24) 40 * ((M : Int) - c.toNat) +
      160 * ((M : Int) - m) / 2) / (160 * ((M : Int) - m)) =
      c.toNat - vividNat m M c.toNat := by omega
  have hstrength : 0 ≤ min ((M : Int) - m - 24) 40 ∧ min ((M : Int) - m - 24) 40 ≤ 40 := by omega
  have hproduct : (m : Int) * min ((M : Int) - m - 24) 40 ≤ 255 * 40 :=
    Int.mul_le_mul (by omega) hstrength.2 hstrength.1 (by omega)
  have hproduct0 : 0 ≤ (m : Int) * min ((M : Int) - m - 24) 40 :=
    mul_nonneg (Int.natCast_nonneg m) hstrength.1
  have hdistance : 0 ≤ (M : Int) - c.toNat ∧ (M : Int) - c.toNat ≤ 255 := by omega
  unfold vividChannelChecked
  generalize (m : Int) * min ((M : Int) - m - 24) 40 = p at *
  generalize (M : Int) - c.toNat = x at *
  have hscaled : p * x ≤ 255 * 40 * 255 := Int.mul_le_mul hproduct hdistance.2 hdistance.1
    (by omega)
  have hscaled0 : 0 ≤ p * x := mul_nonneg hproduct0 hdistance.1
  generalize hscaledEq : p * x = scaled at *
  have hbyte : c.toNat < 256 := c.toNat_lt
  rw [int32_bind _ (by omega), int32_bind _ (by omega), hscaledEq, int32_bind _ (by omega),
    int32_bind _ (by omega), hreduction, int32_bind _ (by omega), int32_bind _ (by omega),
    uint8_exact (by omega), Option.map_some, sub_sub_cancel, toByte_natCast]

/-- The vivid treatment computes each pixel without wrapping. -/
theorem vividPixelChecked_eq (red green blue : UInt8) :
    vividPixelChecked red green blue = some (vividPixel red green blue) := by
  obtain ⟨hr, hg, hb⟩ := least_le red green blue
  obtain ⟨hr', hg', hb'⟩ := le_greatest red green blue
  have hM := greatest_le red green blue
  have hacts := vividPixel_actsBy red green blue
  rw [Treatment.ActsBy] at hacts
  rw [hacts]
  unfold vividPixelChecked
  simp only [channelMax_eq, channelMin_eq]
  generalize least red green blue = m at *
  generalize greatest red green blue = M at *
  rw [int32_bind _ (by omega)]
  split
  · next h =>
    have hkept : ∀ c, vividNat m M c = c := fun c => if_pos (by omega)
    simp [hkept]
  · next h =>
    have hspread : 24 < M - m := by omega
    have hpos : m ≠ 0 := by omega
    rw [int32_bind _ (by omega), int32_bind _ (by omega),
      vividChannelChecked_eq hr hr' hM hspread hpos, vividChannelChecked_eq hg hg' hM hspread hpos,
      vividChannelChecked_eq hb hb' hM hspread hpos]
    rfl

/-! ### One lane -/

theorem lumaLaneChecked_eq (red green blue : UInt8) :
    lumaLaneChecked red green blue = some (lumaNat red green blue : Int) := by
  have hr := red.toNat_lt
  have hg := green.toNat_lt
  have hb := blue.toNat_lt
  unfold lumaLaneChecked lumaNat
  rw [uint16_bind _ (by omega), uint16_bind _ (by omega), uint16_bind _ (by omega),
    uint16_bind _ (by omega),
    uint8_exact (by omega)]
  congr 1
  omega

theorem shifted_byte (high : UInt8) : (high.toUInt16 <<< (8 : UInt16)).toNat =
    high.toNat * 256 := by
  have hlt := high.toNat_lt
  rw [UInt16.toNat_shiftLeft, UInt8.toNat_toUInt16, Nat.shiftLeft_eq]
  exact Nat.mod_eq_of_lt (by simp only [UInt16.toNat_ofNat, Nat.reduceMod, Nat.reducePow]; omega)

/-- Beyond the tables there is no weight; the mask keeps such a pixel. -/
theorem weightLaneChecked_eq (f : Fade) (spread : UInt8) : ∃ weight : Nat,
    weightLaneChecked f spread = some (weight : Int) ∧ weight ≤ f.denominator ∧
      (spread.toNat < 64 → weight = f.weightNat spread.toNat) := by
  refine ⟨(weightLane f (fun _ => spread) 0).toNat, ?_, ?_, fun h => weightLane_toNat f h⟩
  · unfold weightLaneChecked weightLane
    rw [UInt16.toNat_or, UInt8.toNat_toUInt16, shifted_byte]
    dsimp only
    generalize vqtbl4qU8 (loadTable (f.weightBytes 8)) (fun _ => spread) 0 = high
    have hlt := high.toNat_lt
    have hnat : ((high.toNat : Int) * 256).toNat = high.toNat * 256 := by omega
    rw [uint16_bind _ (by omega), hnat]
  · by_cases h : spread.toNat < 64
    · rw [weightLane_toNat f h]
      exact f.weightNat_le _
    · -- a table look-up beyond its 64 bytes is zero
      have hzero (table : Nat → UInt8) : vqtbl4qU8 (loadTable table) (fun _ => spread) 0 = 0 :=
        dif_neg h
      rw [weightLane, hzero, hzero]
      exact Nat.zero_le _

theorem blendLaneChecked_eq (f : Fade) {luma weight : Nat} (hluma : luma ≤ 255)
    (hweight : weight ≤ f.denominator) (c : UInt8) :
    blendLaneChecked f.denominator luma weight c = some (.ofNat
      (((f.denominator - weight) * luma + f.denominator / 2 +
        weight * c.toNat) / f.denominator)) := by
  have hpos := f.denominator_pos
  have hd := f.denominator_lt
  have hc : c.toNat ≤ 255 := Nat.le_of_lt_succ c.toNat_lt
  have hneutral : (f.denominator - weight) * luma ≤ (f.denominator - weight) * 255 :=
    Nat.mul_le_mul_left _ hluma
  have hcolor : weight * c.toNat ≤ weight * 255 := Nat.mul_le_mul_left _ hc
  have hquotient : ((f.denominator - weight) * luma + f.denominator / 2 + weight * c.toNat) /
      f.denominator ≤ 255 := by
    rw [Nat.div_le_iff_le_mul hpos]
    omega
  generalize f.denominator = d at *
  generalize hn : (d - weight) * luma = n at *
  generalize hp : weight * c.toNat = p at *
  unfold blendLaneChecked
  rw [uint16_bind _ (by omega), ← Nat.cast_sub hweight, mul_comm, ← Nat.cast_mul, hn,
    uint32_bind _ (by omega), mul_comm, ← Nat.cast_mul, hp, ← Nat.cast_add,
    uint32_bind _ (by omega)]
  have hsum : ((n + p : Nat) : Int) + (d : Int) / 2 = (n + d / 2 + p : Nat) := by omega
  rw [hsum, uint32_bind _ (by omega), ← Int.natCast_ediv]
  generalize (n + d / 2 + p) / d = quotient at *
  rw [uint16_bind _ (by omega), uint8_exact (by omega),
    Option.map_some, toByte_natCast]

/-- A lane of the vector loop computes its pixel without wrapping, the lanes that the mask keeps
included. -/
theorem laneChecked_eq (f : Fade) (red green blue : UInt8) :
    laneChecked f red green blue = some (applyPixel f.low f.high red green blue) := by
  have hspread := (spreadByte red green blue).toNat_lt
  have hluma := lumaNat_le red green blue
  obtain ⟨weight, hweight, hle, hvalue⟩ := weightLaneChecked_eq f (spreadByte red green blue)
  unfold laneChecked
  rw [spread_eq, uint8_bind _ (by omega), toByte_natCast, UInt8.ofNat_toNat,
    lumaLaneChecked_eq, hweight]
  simp only [Option.bind_eq_bind, Option.bind_some, blendLaneChecked_eq f hluma hle]
  congr 1
  by_cases h : (spreadByte red green blue).toNat < f.high
  · rw [if_pos (by exact_mod_cast h), applyPixel_of_lt_high f h,
      hvalue (Nat.lt_of_lt_of_le h f.high_le)]
    rfl
  · rw [if_neg (by exact_mod_cast h), applyPixel_of_high_le f (Nat.not_lt.mp h)]

/-- **The treatments keep their laws**, on both paths of the gray preference, and every operation of
both fits its type. -/
theorem color_treatment_laws (rgba : List UInt8) :
    (∀ preference, GrayLaws rgba (applyGrayPreference rgba preference) ∧
      GrayLaws rgba (applyGrayPreferenceVectors rgba preference)) ∧
    VividLaws rgba (applyVividColor rgba) ∧
    (∀ (f : Fade) (spread : UInt8), weightChecked f.low f.high spread.toNat =
      some (weight f.low f.high spread.toNat)) ∧
    (∀ (f : Fade) (red green blue : UInt8),
      applyPixelChecked f.low f.high red green blue =
          some (applyPixel f.low f.high red green blue) ∧
        laneChecked f red green blue = some (applyPixel f.low f.high red green blue)) ∧
    ∀ red green blue, vividPixelChecked red green blue = some (vividPixel red green blue) := by
  refine ⟨fun preference => ?_, vividLaws_applyVividColor rgba, fun f spread => ?_,
    fun f red green blue => ⟨applyPixelChecked_eq f red green blue,
      laneChecked_eq f red green blue⟩,
    vividPixelChecked_eq⟩
  · have hscalar := grayLaws_applyGrayPreference rgba preference
    refine ⟨hscalar, ?_⟩
    unfold applyGrayPreferenceVectors
    unfold applyGrayPreference at hscalar
    split
    · exact grayLaws_refl rgba
    · next h =>
      rw [if_neg h] at hscalar
      match preference with
      | some .balanced => exact (apply_eq .balanced rgba).symm ▸ hscalar
      | some .stronger => exact (apply_eq .stronger rgba).symm ▸ hscalar
      | some .original | none => exact hscalar
  · rw [weightChecked_eq f spread.toNat_lt, f.weightNat_cast]

end EinkLab.LowerEngine
