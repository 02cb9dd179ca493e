import EinkLab.SleepImage.Overlay
import Mathlib.Data.List.GetD

/-!
# Overlay composition

One sample of the result is the nearest panel level of a weighted mean.  The mean lies between what
it is a mean of and moves with the weight (`blend_between`, `blend_mono`); a panel gray is its own
nearest level and the level is monotone, so both survive the quantization (`overlaySample_laws`).
-/

namespace EinkLab.SleepImageOverlay

variable {foreground alpha background rgba : List UInt8} {f b a a' : Nat}

/-! ### The mean -/

theorem blend_comm (ha : a ≤ 255) : blend f b a = blend b f (255 - a) := by
  rw [blend, blend, Nat.sub_sub_self ha, Nat.add_comm (b * (255 - a))]

theorem blend_eq (h : b ≤ f) (ha : a ≤ 255) : blend f b a =
    (b * 255 + (f - b) * a + 127) / 255 := by
  obtain ⟨d, rfl⟩ := Nat.le.dest h
  obtain ⟨r, hr⟩ := Nat.le.dest ha
  have hrest : 255 - a = r := by omega
  rw [blend, Nat.add_sub_cancel_left, hrest, ← hr, Nat.add_mul, Nat.mul_add]
  congr 2
  omega

theorem blend_mono (h : b ≤ f) (ha : a ≤ a') (ha' : a' ≤ 255) : blend f b a ≤ blend f b a' := by
  rw [blend_eq h (Nat.le_trans ha ha'), blend_eq h ha']
  have hweight : (f - b) * a ≤ (f - b) * a' := Nat.mul_le_mul_left _ ha
  exact Nat.div_le_div_right (by omega)

theorem blend_zero : blend f b 0 = b := by
  unfold blend
  omega

theorem blend_full : blend f b 255 = f := by
  unfold blend
  omega

/-- The mean lies between the two. -/
theorem blend_between (ha : a ≤ 255) : min f b ≤ blend f b a ∧ blend f b a ≤ max f b := by
  -- over a lighter foreground the mean moves up from the background
  have hup {f b a : Nat} (h : b ≤ f) (ha : a ≤ 255) : b ≤ blend f b a ∧ blend f b a ≤ f := by
    have hlow := blend_mono h (Nat.zero_le a) ha
    have hhigh := blend_mono h ha (Nat.le_refl 255)
    rw [blend_zero] at hlow
    rw [blend_full] at hhigh
    exact ⟨hlow, hhigh⟩
  rcases Nat.le_total b f with h | h
  · obtain ⟨hlow, hhigh⟩ := hup h ha
    omega
  · -- a darker one is the background of the exchanged mean
    obtain ⟨hlow, hhigh⟩ := hup h (Nat.sub_le 255 a)
    rw [← blend_comm ha] at hlow hhigh
    omega

/-- More weight moves the mean towards the foreground. -/
theorem blend_towards (ha : a ≤ a') (ha' : a' ≤ 255) :
    (b ≤ f → blend f b a ≤ blend f b a') ∧ (f ≤ b → blend f b a' ≤ blend f b a) := by
  refine ⟨fun h => blend_mono h ha ha', fun h => ?_⟩
  rw [blend_comm ha', blend_comm (Nat.le_trans ha ha')]
  exact blend_mono h (by omega) (Nat.sub_le 255 a)

/-! ### The panel level -/

theorem toNat_quantizePanelGray (gray : Nat) :
    (quantizePanelGray gray).toNat = min 15 ((gray + 8) / 16) * 16 := by
  rw [quantizePanelGray, UInt8.toNat_ofNat']
  omega

theorem lowNibble_iff (value : UInt8) : value &&& 0x0f = 0 ↔ value.toNat % 16 = 0 := by
  have hmask := Nat.and_two_pow_sub_one_eq_mod value.toNat 4
  rw [← UInt8.toNat_inj, UInt8.toNat_and]
  exact iff_of_eq (congrArg (· = 0) hmask)

theorem quantizePanelGray_panelGray (gray : Nat) : quantizePanelGray gray &&& 0x0f = 0 := by
  rw [lowNibble_iff, toNat_quantizePanelGray]
  exact Nat.mul_mod_left _ _

theorem quantizePanelGray_mono {gray gray' : Nat} (h : gray ≤ gray') :
    quantizePanelGray gray ≤ quantizePanelGray gray' := by
  rw [UInt8.le_iff_toNat_le, toNat_quantizePanelGray, toNat_quantizePanelGray]
  omega

/-- A panel gray is its own nearest level. -/
theorem quantizePanelGray_toNat {value : UInt8} (h : value &&& 0x0f = 0) :
    quantizePanelGray value.toNat = value := by
  rw [lowNibble_iff] at h
  have hlt := value.toNat_lt
  rw [← UInt8.toNat_inj, toNat_quantizePanelGray]
  omega

/-! ### One sample -/

/-- The gray sample of a pixel. -/
def overlaySample (foreground alpha background : UInt8) : UInt8 :=
  quantizePanelGray (blend foreground.toNat background.toNat alpha.toNat)

theorem toNat_le_255 (value : UInt8) : value.toNat ≤ 255 := Nat.le_of_lt_succ value.toNat_lt

theorem min_or (x y : UInt8) : min x y = x ∧ x.toNat ≤ y.toNat ∨ min x y = y ∧
    y.toNat ≤ x.toNat := by
  by_cases h : x ≤ y
  · exact Or.inl ⟨if_pos h, h⟩
  · exact Or.inr ⟨if_neg h, Nat.le_of_not_le h⟩

theorem max_or (x y : UInt8) : max x y = y ∧ x.toNat ≤ y.toNat ∨ max x y = x ∧
    y.toNat ≤ x.toNat := by
  by_cases h : x ≤ y
  · exact Or.inl ⟨if_pos h, h⟩
  · exact Or.inr ⟨if_neg h, Nat.le_of_not_le h⟩

theorem toNat_min (x y : UInt8) : (min x y).toNat = min x.toNat y.toNat := by
  rcases min_or x y with ⟨h, hle⟩ | ⟨h, hle⟩ <;> rw [h] <;> omega

theorem toNat_max (x y : UInt8) : (max x y).toNat = max x.toNat y.toNat := by
  rcases max_or x y with ⟨h, hle⟩ | ⟨h, hle⟩ <;> rw [h] <;> omega

/-- The gray sample lies between the two panel grays and has their values at the ends. -/
theorem overlaySample_laws {f b : UInt8} (hf : f &&& 0x0f = 0) (hb : b &&& 0x0f = 0) (a : UInt8) :
    overlaySample f a b &&& 0x0f = 0 ∧ min f b ≤ overlaySample f a b ∧
      overlaySample f a b ≤ max f b ∧ (a = 0 → overlaySample f a b = b) ∧
        (a = 255 → overlaySample f a b = f) := by
  obtain ⟨hlow, hhigh⟩ := blend_between (f := f.toNat) (b := b.toNat) (toNat_le_255 a)
  -- the bounds are panel grays themselves, so rounding to a level keeps the mean between them
  have hmin : min f b &&& 0x0f = 0 := by rcases min_or f b with ⟨h, -⟩ | ⟨h, -⟩ <;> rwa [h]
  have hmax : max f b &&& 0x0f = 0 := by rcases max_or f b with ⟨h, -⟩ | ⟨h, -⟩ <;> rwa [h]
  rw [← toNat_min] at hlow
  rw [← toNat_max] at hhigh
  refine ⟨quantizePanelGray_panelGray _, ?_, ?_, ?_, ?_⟩
  · calc min f b = quantizePanelGray (min f b).toNat := (quantizePanelGray_toNat hmin).symm
      _ ≤ overlaySample f a b := quantizePanelGray_mono hlow
  · calc overlaySample f a b ≤ quantizePanelGray (max f b).toNat := quantizePanelGray_mono hhigh
      _ = max f b := quantizePanelGray_toNat hmax
  · rintro rfl
    exact (congrArg quantizePanelGray blend_zero).trans (quantizePanelGray_toNat hb)
  · rintro rfl
    exact (congrArg quantizePanelGray blend_full).trans (quantizePanelGray_toNat hf)

theorem overlaySample_towards (f b : UInt8) {a a' : UInt8} (h : a ≤ a') :
    (b ≤ f → overlaySample f a b ≤ overlaySample f a' b) ∧
      (f ≤ b → overlaySample f a' b ≤ overlaySample f a b) := by
  -- rounding to a level keeps the order
  obtain ⟨hup, hdown⟩ := blend_towards (f := f.toNat) (b := b.toNat) (UInt8.le_iff_toNat_le.mp h)
    (toNat_le_255 a')
  exact ⟨fun hbf => quantizePanelGray_mono (hup (UInt8.le_iff_toNat_le.mp hbf)),
    fun hfb => quantizePanelGray_mono (hdown (UInt8.le_iff_toNat_le.mp hfb))⟩

/-- The background as a colour channel. -/
def expanded (background : UInt8) : UInt8 := background ||| (background >>> (4 : UInt8))

def channelSample (channel alpha background : UInt8) : UInt8 :=
  UInt8.ofNat (blend channel.toNat (expanded background).toNat alpha.toNat)

theorem channelSample_between (channel alpha background : UInt8) :
    min channel (expanded background) ≤ channelSample channel alpha background ∧
      channelSample channel alpha background ≤ max channel (expanded background) := by
  obtain ⟨hlow, hhigh⟩ := blend_between (f := channel.toNat) (b := (expanded background).toNat)
    (toNat_le_255 alpha)
  have hchannel := toNat_le_255 channel
  have hexpanded := toNat_le_255 (expanded background)
  have hsample : (channelSample channel alpha background).toNat =
      blend channel.toNat (expanded background).toNat alpha.toNat := by
    rw [channelSample, UInt8.toNat_ofNat', Nat.mod_eq_of_lt (by omega)]
  rw [UInt8.le_iff_toNat_le, UInt8.le_iff_toNat_le, toNat_min, toNat_max, hsample]
  exact ⟨hlow, hhigh⟩

/-! ### The planes -/

theorem length_blendGray (halpha : alpha.length = foreground.length)
    (hbackground : background.length = foreground.length) :
    (blendGray foreground alpha background).length = foreground.length := by
  simp [blendGray, halpha, hbackground]

theorem getD_blendGray (halpha : alpha.length = foreground.length)
    (hbackground : background.length = foreground.length) {n : Nat} (hn : n < foreground.length) :
    (blendGray foreground alpha background).getD n 0 =
      overlaySample (foreground.getD n 0) (alpha.getD n 0) (background.getD n 0) := by
  simp only [blendGray, List.getD_eq_getElem?_getD, List.getElem?_map]
  rw [List.getElem?_eq_getElem (by simp [halpha, hbackground, hn]), List.getElem?_eq_getElem hn,
    List.getElem?_eq_getElem (by omega : n < alpha.length),
    List.getElem?_eq_getElem (by omega : n < background.length)]
  simp [overlaySample]

/-- The colour plane, pixel by pixel. -/
theorem blendRgba_cons (red green blue rest a b : UInt8) :
    blendRgba (red :: green :: blue :: rest :: rgba) (a :: alpha) (b :: background) =
      channelSample red a b :: channelSample green a b :: channelSample blue a b :: 255 ::
        blendRgba rgba alpha background := rfl

/-- Each pixel of the colour plane. -/
theorem getD_blendRgba (hrgba : rgba.length = 4 * alpha.length)
    (hbackground : background.length = alpha.length) :
    (blendRgba rgba alpha background).length = rgba.length ∧ ∀ n < alpha.length,
      (blendRgba rgba alpha background).getD (4 * n + 3) 0 = 255 ∧ ∀ k < 3,
        (blendRgba rgba alpha background).getD (4 * n + k) 0 =
          channelSample (rgba.getD (4 * n + k) 0) (alpha.getD n 0) (background.getD n 0) := by
  induction alpha generalizing rgba background with
  | nil =>
    have hnil : rgba = [] := List.eq_nil_of_length_eq_zero hrgba
    subst hnil
    exact ⟨rfl, fun n hn => absurd hn (Nat.not_lt_zero n)⟩
  | cons a alpha ih =>
    obtain _ | ⟨b, background⟩ := background
    · simp at hbackground
    obtain _ | ⟨red, _ | ⟨green, _ | ⟨blue, _ | ⟨rest, rgba⟩⟩⟩⟩ := rgba
    case cons.cons.cons.cons =>
      rw [List.length_cons, List.length_cons, List.length_cons, List.length_cons,
        List.length_cons] at hrgba
      have hrest : rgba.length = 4 * alpha.length := by omega
      obtain ⟨hlength, hpixels⟩ := ih hrest (by simpa using hbackground)
      rw [blendRgba_cons]
      refine ⟨by simp [hlength], fun n hn => ?_⟩
      cases n with
      | zero =>
        refine ⟨rfl, fun k hk => ?_⟩
        match k, hk with
        | 0, _ | 1, _ | 2, _ => rfl
      | succ n =>
        have hindex (k : Nat) : 4 * (n + 1) + k = 4 * n + k + 4 := by omega
        simp only [hindex]
        exact hpixels n (by simpa using hn)
    -- a colour plane that ends within its first pixel is not four times as long
    all_goals simp at hrgba <;> omega

/-! ### The composition -/

/-- Planes that belong together: one sample for each pixel, colour or none, in panel gray. -/
structure Composable (foreground alpha background rgba : List UInt8) : Prop where
  nonempty : foreground ≠ []
  coverage : alpha.length = foreground.length
  page : background.length = foreground.length
  colour : rgba = [] ∨ rgba.length = 4 * foreground.length
  foregroundGray : ∀ value ∈ foreground, value &&& 0x0f = 0
  backgroundGray : ∀ value ∈ background, value &&& 0x0f = 0

theorem isPanelGray_iff (pixels : List UInt8) :
    isPanelGray pixels = true ↔ ∀ value ∈ pixels, value &&& 0x0f = 0 := by
  simp [isPanelGray]

theorem compose_of_composable (h : Composable foreground alpha background rgba) :
    composeSleepImageOverlay foreground alpha background rgba =
      ⟨.composited, blendGray foreground alpha background, blendRgba rgba alpha background⟩ := by
  -- the source compares a quarter of the length, and requires whole pixels
  have hrgba : rgba = [] ∨ rgba.length / 4 = foreground.length ∧ rgba.length % 4 = 0 :=
    h.colour.imp_right fun hlength => by omega
  unfold composeSleepImageOverlay
  rw [if_neg, if_neg]
  · simp [(isPanelGray_iff _).mpr h.foregroundGray, (isPanelGray_iff _).mpr h.backgroundGray]
  · rcases hrgba with rfl | ⟨hpixels, hwhole⟩
    · simp [h.nonempty, h.coverage, h.page]
    · simp [h.nonempty, h.coverage, h.page, hpixels, hwhole]

theorem compose_of_not_composable (h : ¬Composable foreground alpha background rgba) :
    ∃ result, result ≠ .composited ∧
      composeSleepImageOverlay foreground alpha background rgba = ⟨result, [], []⟩ := by
  unfold composeSleepImageOverlay
  split
  · exact ⟨_, by decide, rfl⟩
  · next hbytes =>
    split
    · exact ⟨_, by decide, rfl⟩
    · next hgray =>
      simp only [Bool.or_eq_true, Bool.and_eq_true, Bool.not_eq_true', decide_eq_true_eq, not_or,
        not_and, List.isEmpty_iff, Bool.not_eq_false, ne_eq, not_not] at hbytes hgray
      obtain ⟨⟨⟨hne, halpha⟩, hbackground⟩, hrgba⟩ := hbytes
      refine absurd ⟨hne, halpha.symm, hbackground.symm, ?_, (isPanelGray_iff _).mp hgray.1,
        (isPanelGray_iff _).mp hgray.2⟩ h
      by_cases hempty : rgba = []
      · exact Or.inl hempty
      · obtain ⟨hpixels, hwhole⟩ := hrgba (by simpa using hempty)
        exact Or.inr (by omega)

/-- **Overlay composition**, for every four planes. -/
theorem overlay_composition (foreground alpha background rgba : List UInt8) :
    let output := composeSleepImageOverlay foreground alpha background rgba
    -- planes that belong together
    (Composable foreground alpha background rgba →
      output.result = .composited ∧ output.panelGray.length = foreground.length ∧
      output.rgba.length = rgba.length ∧ ∀ n < foreground.length,
        let f := foreground.getD n 0
        let a := alpha.getD n 0
        let b := background.getD n 0
        let sample := output.panelGray.getD n 0
        sample &&& 0x0f = 0 ∧ min f b ≤ sample ∧ sample ≤ max f b ∧ (a = 0 → sample = b) ∧
        (a = 255 → sample = f) ∧
        (∀ alpha', Composable foreground alpha' background rgba → a ≤ alpha'.getD n 0 →
          let sample' :=
            (composeSleepImageOverlay foreground alpha' background rgba).panelGray.getD n 0
          (b ≤ f → sample ≤ sample') ∧ (f ≤ b → sample' ≤ sample)) ∧
        (rgba ≠ [] → output.rgba.getD (4 * n + 3) 0 = 255 ∧ ∀ k < 3,
          min (rgba.getD (4 * n + k) 0) (expanded b) ≤ output.rgba.getD (4 * n + k) 0 ∧
            output.rgba.getD (4 * n + k) 0 ≤ max (rgba.getD (4 * n + k) 0) (expanded b))) ∧
    -- all others
    (¬Composable foreground alpha background rgba →
      output.result ≠ .composited ∧ output.panelGray = [] ∧ output.rgba = []) := by
  dsimp only
  refine ⟨fun h => ?_, fun h => ?_⟩
  · -- outside a plane `getD` reads zero, which is a panel gray too
    have hgray (values : List UInt8) (hvalues : ∀ value ∈ values, value &&& 0x0f = 0) (n : Nat) :
        values.getD n 0 &&& 0x0f = 0 := by
      rw [List.getD_eq_getElem?_getD]
      cases hn : values[n]? with
      | none => rfl
      | some value => exact hvalues value (List.mem_of_getElem? hn)
    rw [compose_of_composable h]
    refine ⟨rfl, length_blendGray h.coverage h.page, ?_, fun n hn => ?_⟩
    · rcases h.colour with rfl | hlength
      · rfl
      · exact (getD_blendRgba (by rw [hlength, h.coverage]) (h.page.trans h.coverage.symm)).1
    · dsimp only
      obtain ⟨hnibble, hlow, hhigh, hzero, hfull⟩ := overlaySample_laws
        (hgray foreground h.foregroundGray n) (hgray background h.backgroundGray n) (alpha.getD n 0)
      rw [getD_blendGray h.coverage h.page hn]
      refine ⟨hnibble, hlow, hhigh, hzero, hfull, fun alpha' h' hle => ?_, fun hne => ?_⟩
      · rw [compose_of_composable h']
        dsimp only
        rw [getD_blendGray h'.coverage h'.page hn]
        exact overlaySample_towards _ _ hle
      · have hlength := h.colour.resolve_left hne
        obtain ⟨-, hpixels⟩ := getD_blendRgba (by rw [hlength, h.coverage])
          (h.page.trans h.coverage.symm)
        obtain ⟨hsolid, hchannels⟩ := hpixels n (h.coverage ▸ hn)
        refine ⟨hsolid, fun k hk => ?_⟩
        rw [hchannels k hk]
        exact channelSample_between _ _ _
  · obtain ⟨result, hresult, heq⟩ := compose_of_not_composable h
    rw [heq]
    exact ⟨hresult, rfl, rfl⟩

end EinkLab.SleepImageOverlay
