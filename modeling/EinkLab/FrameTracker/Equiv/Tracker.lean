import EinkLab.FrameTracker.Basic
import EinkLab.Transition.Versions

/-!
# The tracker is a counter of versions

The content of an image is its size and its RGB pixels (`RgbaSource.content`), in which neither
alpha nor the row padding nor the order of the channels shows (`content_eq_iff`).  One update of an
acceptable image is one answer of the abstract counter (`update_of_accepts`); everything else is
refused without a trace (`update_of_not_accepts`).
-/

namespace EinkLab.RgbFrameTracker

open Transition Versions RowMajor AndroidGrayscaleConverter

variable {maxSize : Nat} {t : RgbFrameTracker} {source source' : RgbaSource} {availableBytes : Nat}

/-! ### The content of an image -/

/-- Red, green and blue at a place. -/
def RgbaSource.rgbAt (s : RgbaSource) (x y : Nat) : UInt8 × UInt8 × UInt8 :=
  let byte (i : Nat) := (s.pixels.getD []).getD ((y * s.stridePixels.toNat + x) * 4 + i) 0
  if s.layout = some .bgra8888 then (byte 2, byte 1, byte 0) else (byte 0, byte 1, byte 2)

/-- Two images of one size that agree in RGB everywhere. -/
structure SameImage (s s' : RgbaSource) : Prop where
  width : s.width = s'.width
  height : s.height = s'.height
  rgb : ∀ x y, x < s.width.toNat → y < s.height.toNat → s.rgbAt x y = s'.rgbAt x y

def pack (rgb : UInt8 × UInt8 × UInt8) : UInt32 :=
  rgb.1.toUInt32 ||| rgb.2.1.toUInt32 <<< 8 ||| rgb.2.2.toUInt32 <<< 16

theorem toNat_pack (rgb : UInt8 × UInt8 × UInt8) :
    (pack rgb).toNat = rgb.2.2.toNat * 65536 + (rgb.2.1.toNat * 256 + rgb.1.toNat) := by
  obtain ⟨r, g, b⟩ := rgb
  have hr := r.toNat_lt
  have hg := g.toNat_lt
  have hb := b.toNat_lt
  have hlow : g.toNat <<< 8 ||| r.toNat = g.toNat * 256 + r.toNat := by
    rw [← Nat.shiftLeft_add_eq_or_of_lt hr, Nat.shiftLeft_eq]
  have hall : b.toNat <<< 16 ||| (g.toNat * 256 + r.toNat) =
      b.toNat * 65536 + (g.toNat * 256 + r.toNat) := by
    rw [← Nat.shiftLeft_add_eq_or_of_lt (by omega), Nat.shiftLeft_eq]
  have hg32 : g.toNat <<< 8 % 2 ^ 32 = g.toNat <<< 8 := by
    rw [Nat.shiftLeft_eq]
    omega
  have hb32 : b.toNat <<< 16 % 2 ^ 32 = b.toNat <<< 16 := by
    rw [Nat.shiftLeft_eq]
    omega
  calc (pack (r, g, b)).toNat
      = r.toNat ||| g.toNat <<< 8 % 2 ^ 32 ||| b.toNat <<< 16 % 2 ^ 32 := by simp [pack]
    _ = b.toNat <<< 16 ||| (g.toNat <<< 8 ||| r.toNat) := by
        rw [hg32, hb32, Nat.or_comm, Nat.or_comm r.toNat]
    _ = b.toNat * 65536 + (g.toNat * 256 + r.toNat) := by rw [hlow, hall]

/-- The packed pixel has every channel in a byte of its own. -/
theorem pack_inj {rgb rgb' : UInt8 × UInt8 × UInt8} (h : pack rgb = pack rgb') : rgb = rgb' := by
  have hnat := congrArg UInt32.toNat h
  rw [toNat_pack, toNat_pack] at hnat
  have hr := rgb.1.toNat_lt
  have hg := rgb.2.1.toNat_lt
  have hr' := rgb'.1.toNat_lt
  have hg' := rgb'.2.1.toNat_lt
  refine Prod.ext (UInt8.toNat_inj.mp ?_) (Prod.ext (UInt8.toNat_inj.mp ?_) (UInt8.toNat_inj.mp ?_))
  all_goals omega

/-- What the tracker remembers of an image. -/
def RgbaSource.content (s : RgbaSource) : Int × Int × List UInt32 :=
  (s.width, s.height, (places s.width.toNat s.height.toNat).map fun p => pack (s.rgbAt p.1 p.2))

/-- Alpha, padding and layout do not show. -/
theorem content_eq_iff : source.content = source'.content ↔ SameImage source source' := by
  simp only [RgbaSource.content, Prod.mk.injEq]
  constructor
  · rintro ⟨hwidth, hheight, hpixels⟩
    rw [← hwidth, ← hheight] at hpixels
    refine ⟨hwidth, hheight, fun x y hx hy => pack_inj ?_⟩
    exact List.map_inj_left.mp hpixels (x, y) (mem_places.mpr ⟨hx, hy⟩)
  · rintro ⟨hwidth, hheight, hrgb⟩
    rw [← hwidth, ← hheight]
    refine ⟨rfl, rfl, List.map_congr_left fun p hp => ?_⟩
    rw [hrgb p.1 p.2 (mem_places.mp hp).1 (mem_places.mp hp).2]

theorem packedRgb_eq {pixels : List UInt8} {layout : RgbaLayout}
    (hpixels : source.pixels = some pixels)
    (hlayout : source.layout = some layout) (x y : Nat) :
    packedRgb layout pixels (y * source.stridePixels.toNat * 4 + x * 4) =
      pack (source.rgbAt x y) := by
  have hoffset : y * source.stridePixels.toNat * 4 + x * 4 =
      (y * source.stridePixels.toNat + x) * 4 := by omega
  rw [hoffset, RgbaSource.rgbAt, hpixels, hlayout, Option.getD_some]
  cases layout <;> rfl

/-! ### The comparison -/

theorem or_eq_zero {a b : UInt32} : a ||| b = 0 ↔ a = 0 ∧ b = 0 := by
  simp only [← UInt32.toNat_inj, UInt32.toNat_or, UInt32.toNat_zero, Nat.or_eq_zero_iff]

/-- Each item is compared with what is stored at its position, and stored there. -/
theorem compare_eq {ι : Type} (target : ι → Nat) (value : ι → UInt32) {items : List ι}
    (hinj : (items.map target).Nodup) (difference : UInt32) (previous : List UInt32) :
    let result := items.foldl (fun (s : UInt32 × List UInt32) i =>
      (s.1 ||| (s.2.getD (target i) 0 ^^^ value i), s.2.set (target i) (value i)))
        (difference, previous)
    result.2 = scatter target value items previous ∧
      (result.1 = 0 ↔ difference = 0 ∧ ∀ i ∈ items, previous.getD (target i) 0 = value i) := by
  induction items generalizing difference previous with
  | nil => exact ⟨rfl, by simp⟩
  | cons i items ih =>
    rw [List.map_cons, List.nodup_cons] at hinj
    obtain ⟨hstored, hdifference⟩ := ih hinj.2
      (difference ||| (previous.getD (target i) 0 ^^^ value i))
      (previous.set (target i) (value i))
    refine ⟨hstored, hdifference.trans ?_⟩
    -- what is stored for `i` is not what the later items are compared with
    have hlater : ∀ j ∈ items, (previous.set (target i) (value i)).getD (target j) 0 =
        previous.getD (target j) 0 := by
      intro j hj
      have hne : target i ≠ target j := fun heq => hinj.1 (heq ▸ List.mem_map_of_mem hj)
      rw [List.getD_eq_getElem?_getD, List.getElem?_set_ne hne, List.getD_eq_getElem?_getD]
    rw [or_eq_zero, UInt32.xor_eq_zero_iff, and_assoc, List.forall_mem_cons]
    refine and_congr_right fun _ => and_congr_right fun _ => forall₂_congr fun j hj => ?_
    rw [hlater j hj]

theorem compareRows_eq {pixels : List UInt8} {layout : RgbaLayout} {previous : List UInt32}
    (hpixels : source.pixels = some pixels) (hlayout : source.layout = some layout)
    (hlength : previous.length = source.width.toNat * source.height.toNat) :
    let result := compareRows layout pixels source.stridePixels.toNat source.width.toNat
      source.height.toNat previous
    result.2 = source.content.2.2 ∧ (result.1 = 0 ↔ previous = source.content.2.2) := by
  obtain ⟨hstored, hdifference⟩ := compare_eq (position source.width.toNat)
    (fun p => pack (source.rgbAt p.1 p.2)) (nodup_positions _ _) 0 previous
  have hloop : compareRows layout pixels source.stridePixels.toNat source.width.toNat
      source.height.toNat previous =
        (places source.width.toNat source.height.toNat).foldl (fun (s : UInt32 × List UInt32) p =>
          (s.1 ||| (s.2.getD (position source.width.toNat p) 0 ^^^ pack (source.rgbAt p.1 p.2)),
            s.2.set (position source.width.toNat p) (pack (source.rgbAt p.1 p.2))))
            (0, previous) := by
    unfold compareRows
    dsimp only
    simp only [packedRgb_eq hpixels hlayout]
    exact foldl_rows (fun (s : UInt32 × List UInt32) x y =>
      (s.1 ||| (s.2.getD (y * source.width.toNat + x) 0 ^^^ pack (source.rgbAt x y)),
        s.2.set (y * source.width.toNat + x) (pack (source.rgbAt x y)))) _ _ _
  dsimp only
  rw [hloop]
  refine ⟨hstored.trans (scatter_position _ hlength), hdifference.trans ?_⟩
  -- equal at every place is equal as lists
  simp only [true_and]
  constructor
  · intro hsame
    refine List.ext_getElem (by simp [RgbaSource.content, length_places, hlength])
      fun n hn hn' => ?_
    have hlt : n < source.width.toNat * source.height.toNat := by omega
    have hplace := hsame (place source.width.toNat n) (mem_places.mpr (within_place hlt))
    rw [position_place, List.getD_eq_getElem?_getD, List.getElem?_eq_getElem hn] at hplace
    simpa [RgbaSource.content, places] using hplace
  · intro hsame p hp
    have hwithin := mem_places.mp hp
    rw [hsame, List.getD_eq_getElem?_getD, RgbaSource.content, List.getElem?_map,
      getElem?_places hwithin]
    rfl

/-! ### One update -/

/-- An image that the tracker accepts: its pixels fit the tracker and the vector, its rows and its
last pixel the address space and the memory that may be read. -/
structure Accepts (maxPixels maxSize : Nat) (source : RgbaSource) (availableBytes : Nat) :
    Prop where
  pixels : source.pixels ≠ none
  layout : source.layout ≠ none
  width : 0 < source.width
  height : 0 < source.height
  stride : source.width ≤ source.stridePixels
  fits : source.width.toNat * source.height.toNat ≤ maxPixels
  storable : source.width.toNat * source.height.toNat ≤ maxSize
  addressable : source.stridePixels.toNat * 4 * source.height.toNat ≤ sizeMax
  readable : ((source.height.toNat - 1) * source.stridePixels.toNat + source.width.toNat) * 4 ≤
    availableBytes

/-- What the tracker remembers, if anything. -/
def last (t : RgbFrameTracker) : Option (Int × Int × List UInt32) :=
  if t.width = 0 then none else some (t.width, t.height, t.previous)

/-- The stored pixels are those of an image of the stored size. -/
def WellFormed (t : RgbFrameTracker) : Prop :=
  t.previous.length = t.width.toNat * t.height.toNat

/-- The bounds that `Update` tests with divisions. -/
theorem bounds_iff (hheight : 0 < source.height) :
    ¬(source.width.toNat > t.maxPixels / source.height.toNat ∨
        source.width.toNat > maxSize / source.height.toNat ∨
        source.stridePixels.toNat > sizeMax / source.height.toNat / 4) ↔
      source.width.toNat * source.height.toNat ≤ t.maxPixels ∧
        source.width.toNat * source.height.toNat ≤ maxSize ∧
        source.stridePixels.toNat * 4 * source.height.toNat ≤ sizeMax := by
  have hpos : 0 < source.height.toNat := by omega
  rw [not_or, not_or, Nat.not_lt, Nat.not_lt, Nat.not_lt, Nat.le_div_iff_mul_le hpos,
    Nat.le_div_iff_mul_le hpos, Nat.le_div_iff_mul_le (by decide), Nat.le_div_iff_mul_le hpos]

theorem required_eq (source : RgbaSource) :
    (source.height.toNat - 1) * (source.stridePixels.toNat * 4) + source.width.toNat * 4 =
      ((source.height.toNat - 1) * source.stridePixels.toNat + source.width.toNat) * 4 := by
  rw [← Nat.mul_assoc, Nat.add_mul]

/-- Invalid input returns `0` and changes nothing. -/
theorem update_of_not_accepts (h : ¬Accepts t.maxPixels maxSize source availableBytes) :
    t.update maxSize source availableBytes = (0, t) := by
  unfold update
  split
  · next pixels layout hpixels hlayout =>
    by_cases hvalid : source.isValid = true
    · have hdims := hvalid
      simp only [RgbaSource.isValid, Bool.and_eq_true, decide_eq_true_eq] at hdims
      obtain ⟨⟨⟨-, hwidth⟩, hheight⟩, hstride⟩ := hdims
      simp only [hvalid, Bool.not_true, Bool.false_eq_true, if_false, Bool.or_eq_true,
        decide_eq_true_eq, or_assoc]
      split
      · rfl
      · next hbounds =>
        obtain ⟨hfits, hstorable, haddressable⟩ := (bounds_iff hheight).mp hbounds
        split
        · rfl
        · next hreadable =>
          rw [required_eq, Nat.not_lt] at hreadable
          exact absurd ⟨by simp [hpixels], by simp [hlayout], hwidth, hheight, hstride, hfits,
            hstorable, haddressable, hreadable⟩ h
    · simp [hvalid]
  · rfl

theorem nextGeneration_of_lt {generation : Nat} (h : generation + 1 < 2 ^ 64) :
    GrayscaleFrameTracker.nextGeneration generation = generation + 1 := by
  unfold GrayscaleFrameTracker.nextGeneration
  rw [Nat.mod_eq_of_lt h, if_neg (by omega)]

/-- The test of `Update` decides whether the content is the one remembered. -/
theorem changed_iff {difference : UInt32} (ht : t.WellFormed) (hwidth : 0 < source.width)
    (hdifference : difference = 0 ↔
      resize 0 t.previous (source.width.toNat * source.height.toNat) = source.content.2.2) :
    ¬((t.width ≠ source.width ∨ t.height ≠ source.height) ∨ difference ≠ 0) ↔
      t.last = some source.content := by
  rw [not_or, not_or, not_not, not_not, not_not, hdifference, last]
  by_cases hnone : t.width = 0
  · rw [if_pos hnone]
    constructor
    · rintro ⟨⟨hsame, -⟩, -⟩
      omega
    · rintro ⟨⟩
  · rw [if_neg hnone, Option.some_inj, RgbaSource.content, Prod.mk.injEq, Prod.mk.injEq, and_assoc]
    refine and_congr_right fun hw => and_congr_right fun hh => ?_
    rw [← hw, ← hh, resize_length ht]

/-- An acceptable image is answered as the abstract counter answers its content. -/
theorem update_of_accepts (ht : t.WellFormed)
    (h : Accepts t.maxPixels maxSize source availableBytes) (hcount : t.generation + 1 < 2 ^ 64) :
    t.update maxSize source availableBytes =
      (answer t.last t.generation source.content,
        { t with
          previous := source.content.2.2
          width := source.width
          height := source.height
          generation := answer t.last t.generation source.content }) := by
  obtain ⟨pixels, hpixels⟩ := Option.ne_none_iff_exists'.mp h.pixels
  obtain ⟨layout, hlayout⟩ := Option.ne_none_iff_exists'.mp h.layout
  have hvalid : source.isValid = true := by
    simp [RgbaSource.isValid, hpixels, h.width, h.height, h.stride]
  have hbounds := (bounds_iff (t := t) h.height).mpr ⟨h.fits, h.storable, h.addressable⟩
  have hreadable : ¬(source.height.toNat - 1) * (source.stridePixels.toNat * 4) +
      source.width.toNat * 4 > availableBytes := by
    rw [required_eq]
    exact Nat.not_lt.mpr h.readable
  obtain ⟨hstored, hdifference⟩ := compareRows_eq hpixels hlayout
    (length_resize 0 t.previous (source.width.toNat * source.height.toNat))
  have hchanged := changed_iff ht h.width hdifference
  unfold update
  simp only [hpixels, hlayout, hvalid, Bool.not_true, Bool.false_eq_true, if_false, Bool.or_eq_true,
    decide_eq_true_eq, or_assoc, if_neg hbounds, if_neg hreadable, hstored, ne_eq,
    nextGeneration_of_lt hcount] at hchanged ⊢
  unfold answer
  by_cases hsame : t.last = some source.content
  · simp only [if_neg (hchanged.mpr hsame), if_pos hsame]
  · have hnew := not_not.mp fun hno => hsame (hchanged.mp hno)
    simp only [if_pos hnew, if_neg hsame]

end EinkLab.RgbFrameTracker
