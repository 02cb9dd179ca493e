import EinkLab.SleepImage.Transforms

/-!
# The same overlay from either gray plane

At every place the planes of a rendering agree (`Texel.Agrees`): the alpha channel of the colour is
the alpha, and the gray is the luma of the colour or the place is transparent.  Writing a pixel and
carrying the planes to the panel keep this; blending forgets the gray of a transparent place
(`nativeReads_of_renderForPanel`).
-/

namespace EinkLab.SleepImageTransforms

open EinkSleepImageCatalog

/-! ### One place -/

/-- What the planes hold at one place. -/
structure Texel where
  gray : UInt8
  alpha : UInt8
  rgba : Rgba

def Rgba.luma (c : Rgba) : UInt8 := SleepImageTransforms.luma c.red c.green c.blue

structure Texel.Agrees (t : Texel) : Prop where
  alpha : t.rgba.alpha = t.alpha
  panelGray : t.gray &&& 0x0f = 0
  gray : t.rgba.luma = t.gray ∨ t.alpha = 0

theorem luma_panelGray (red green blue : UInt8) : luma red green blue &&& 0x0f = 0 := by
  rw [luma, UInt8.and_assoc, show (0xf0 : UInt8) &&& 0x0f = 0 by decide, UInt8.and_zero]

/-- Three planes that hold the same list of places. -/
structure Planes.Holds (planes : Planes) (texels : List Texel) : Prop where
  gray : planes.gray = texels.map Texel.gray
  alpha : planes.alpha = texels.map Texel.alpha
  rgba : planes.rgba = some (texels.map Texel.rgba)

/-- The planes agree at every place. -/
def Planes.Agrees (planes : Planes) (size : Nat) : Prop :=
  ∃ texels : List Texel, planes.Holds texels ∧ texels.length = size ∧ ∀ t ∈ texels, t.Agrees

theorem agrees_blank (size : Nat) : (Planes.blank size true).Agrees size := by
  refine ⟨.replicate size ⟨0xf0, 0, {}⟩, ⟨?_, ?_, ?_⟩, List.length_replicate, ?_⟩
  · rw [List.map_replicate]
    rfl
  · rw [List.map_replicate]
    rfl
  · rw [List.map_replicate]
    rfl
  · intro t ht
    rw [List.eq_of_mem_replicate ht]
    exact ⟨rfl, by decide, Or.inr rfl⟩

/-! ### Writing -/

theorem store_map {α β : Type} (f : α → β) (array : List α) (index : Int) (value : α) :
    store (array.map f) index (f value) = (store array index value).map (List.map f) := by
  unfold store
  rw [List.length_map]
  split
  · rw [Option.map_some, List.map_set]
  · rfl

theorem load_map {α β : Type} (f : α → β) (array : List α) (index : Int) :
    load (array.map f) index = (load array index).map f := by
  unfold load
  split
  · rw [List.getElem?_map]
  · rfl

theorem mem_of_load {α : Type} {array : List α} {index : Int} {value : α}
    (h : load array index = some value) : value ∈ array := by
  unfold load at h
  split at h
  · exact List.mem_of_getElem? h
  · cases h

theorem write_agrees {planes written : Planes} {size : Nat} {destination : Int} {argb : UInt32}
    (hplanes : planes.Agrees size) (h : planes.write destination argb = some written) :
    written.Agrees size := by
  obtain ⟨texels, ⟨hgray, halpha, hrgba⟩, hlength, hall⟩ := hplanes
  let texel : Texel :=
    { gray := luma (channel argb 16) (channel argb 8) (channel argb 0)
      alpha := channel argb 24
      rgba := { red := channel argb 16, green := channel argb 8, blue := channel argb 0,
                alpha := channel argb 24 } }
  have htexel : texel.Agrees := ⟨rfl, luma_panelGray _ _ _, Or.inl rfl⟩
  have hg := store_map Texel.gray texels destination texel
  have ha := store_map Texel.alpha texels destination texel
  have hc := store_map Texel.rgba texels destination texel
  unfold Planes.write at h
  rw [hrgba, hgray, halpha] at h
  change (store (texels.map Texel.gray) destination texel.gray).bind (fun gray =>
    (store (texels.map Texel.alpha) destination texel.alpha).bind fun alpha =>
      (store (texels.map Texel.rgba) destination texel.rgba).bind fun rgba =>
        some { gray, alpha, rgba := some rgba }) = some written at h
  rw [hg, ha, hc] at h
  cases hstore : store texels destination texel with
  | none =>
    rw [hstore] at h
    cases h
  | some texels' =>
    rw [hstore] at h
    simp only [Option.map_some, Option.bind_some, Option.some_inj] at h
    rw [← h]
    unfold store at hstore
    split at hstore
    · rw [← Option.some_inj.mp hstore]
      refine ⟨_, ⟨rfl, rfl, rfl⟩, by rw [List.length_set, hlength], fun t ht => ?_⟩
      rcases List.mem_or_eq_of_mem_set ht with ht | rfl
      · exact hall t ht
      · exact htexel
    · cases hstore

/-- What every step of a fold keeps, the fold keeps. -/
theorem foldlM_invariant {σ ι : Type} {step : σ → ι → Option σ} {P : σ → Prop}
    (hstep : ∀ s i t, P s → step s i = some t → P t) {is : List ι} {s t : σ} (hs : P s)
    (h : is.foldlM step s = some t) : P t := by
  induction is generalizing s with
  | nil =>
    rw [List.foldlM_nil] at h
    rw [← Option.some_inj.mp h]
    exact hs
  | cons i is ih =>
    rw [List.foldlM_cons] at h
    obtain ⟨u, hu, hrest⟩ := Option.bind_eq_some_iff.mp h
    exact ih (hstep s i u hs hu) hrest

theorem forEachPixel_invariant {σ : Type} {width height : Nat} {body : σ → Int → Int → Option σ}
    {P : σ → Prop} (hbody : ∀ s x y t, P s → body s x y = some t → P t) {s t : σ} (hs : P s)
    (h : forEachPixel width height body s = some t) : P t :=
  foldlM_invariant
    (fun _ y _ hu hrow => foldlM_invariant (fun u x v hu hv => hbody u x y v hu hv) hu hrow) hs h

theorem renderPixel_agrees {pixels : List UInt32} {width height rotation outputWidth x y : Int}
    {source target : Crop} {planes drawn : Planes} {size : Nat} (hplanes : planes.Agrees size)
    (h : renderPixel pixels width height rotation outputWidth source target planes x y =
      some drawn) : drawn.Agrees size := by
  unfold renderPixel at h
  obtain ⟨index, -, h⟩ := Option.bind_eq_some_iff.mp h
  obtain ⟨argb, -, h⟩ := Option.bind_eq_some_iff.mp h
  exact write_agrees hplanes h

theorem render_agrees {r : Roundings} {pixels : List UInt32} {width height userRotation : Int}
    {framing : Framing} {outputWidth outputHeight : Int} {planes : Planes}
    (h : render r pixels width height userRotation framing outputWidth outputHeight true =
      some planes) : planes.Agrees (outputWidth * outputHeight).toNat := by
  unfold render at h
  split at h
  · cases h
  · obtain ⟨rotation, -, h⟩ := Option.bind_eq_some_iff.mp h
    obtain ⟨source, -, h⟩ := Option.bind_eq_some_iff.mp h
    dsimp only at h
    split at h
    · cases h
    · exact forEachPixel_invariant (fun _ _ _ _ hs ht => renderPixel_agrees hs ht)
        (agrees_blank _) h

/-! ### The panel's order -/

theorem mapM_option_map {α β γ : Type} (f : β → γ) (g : α → Option β) (xs : List α) :
    xs.mapM (fun x => (g x).map f) = (xs.mapM g).map (List.map f) := by
  induction xs with
  | nil => rfl
  | cons x xs ih =>
    rw [List.mapM_cons, List.mapM_cons, ih]
    cases g x with
    | none => rfl
    | some b =>
      cases xs.mapM g with
      | none => rfl
      | some bs => rfl

/-- Every result of a list of steps comes from one of them. -/
theorem mem_of_mapM {α β : Type} {g : α → Option β} {xs : List α} {ys : List β}
    (h : xs.mapM g = some ys) : ys.length = xs.length ∧ ∀ y ∈ ys, ∃ x ∈ xs, g x = some y := by
  induction xs generalizing ys with
  | nil =>
    rw [List.mapM_nil] at h
    rw [← Option.some_inj.mp h]
    exact ⟨rfl, fun y hy => absurd hy List.not_mem_nil⟩
  | cons x xs ih =>
    rw [List.mapM_cons] at h
    obtain ⟨b, hb, h⟩ := Option.bind_eq_some_iff.mp h
    obtain ⟨bs, hbs, h⟩ := Option.bind_eq_some_iff.mp h
    obtain ⟨hlength, hall⟩ := ih hbs
    rw [← Option.some_inj.mp h]
    refine ⟨by rw [List.length_cons, List.length_cons, hlength], fun y hy => ?_⟩
    rcases List.mem_cons.mp hy with rfl | hy
    · exact ⟨x, List.mem_cons_self, hb⟩
    · obtain ⟨x', hx', hg⟩ := hall y hy
      exact ⟨x', List.mem_cons_of_mem _ hx', hg⟩

theorem panelOrder_map {α β : Type} (f : α → β) (array : List α) (width height : Int) :
    panelOrder (array.map f) width height = (panelOrder array width height).map (List.map f) := by
  have hplace : ∀ panelX panelY : Nat,
      (sourceIndex panelX panelY width height 270).bind (load (array.map f)) =
        ((sourceIndex panelX panelY width height 270).bind (load array)).map f := by
    intro panelX panelY
    cases sourceIndex panelX panelY width height 270 with
    | none => rfl
    | some index => exact load_map f array index
  unfold panelOrder
  simp only [hplace, mapM_option_map, Option.map_map]
  apply congrFun
  apply congrArg
  funext rows
  show (rows.map (List.map f)).flatten = rows.flatten.map f
  rw [List.map_flatten]

theorem panelOrder_spec {α : Type} {array ordered : List α} {width height : Int}
    (h : panelOrder array width height = some ordered) :
    ordered.length = width.toNat * height.toNat ∧ ∀ a ∈ ordered, a ∈ array := by
  unfold panelOrder at h
  obtain ⟨rows, hrows, hflat⟩ := Option.map_eq_some_iff.mp h
  obtain ⟨hcount, hall⟩ := mem_of_mapM hrows
  rw [List.length_range] at hcount
  have hrow : ∀ row ∈ rows, row.length = height.toNat ∧ ∀ a ∈ row, a ∈ array := by
    intro row hmem
    obtain ⟨panelY, -, hy⟩ := hall row hmem
    obtain ⟨hlength, hplaces⟩ := mem_of_mapM hy
    rw [List.length_range] at hlength
    refine ⟨hlength, fun a ha => ?_⟩
    obtain ⟨panelX, -, hx⟩ := hplaces a ha
    obtain ⟨index, -, hload⟩ := Option.bind_eq_some_iff.mp hx
    exact mem_of_load hload
  rw [← hflat]
  constructor
  · rw [List.length_flatten, List.map_congr_left fun row hmem => (hrow row hmem).1]
    simp [hcount]
  · intro a ha
    obtain ⟨row, hmem, ha⟩ := List.mem_flatten.mp ha
    exact (hrow row hmem).2 a ha

theorem presentationToPanel_agrees {presentation planes : Planes} {width height rotation : Int}
    (hpresentation : presentation.Agrees (width * height).toNat)
    (h : presentationToPanel presentation width height rotation = some planes) :
    planes.Agrees (width * height).toNat := by
  obtain ⟨texels, ⟨hgray, halpha, hrgba⟩, hlength, hall⟩ := hpresentation
  unfold presentationToPanel at h
  obtain ⟨_, hvalid, h⟩ := Option.bind_eq_some_iff.mp h
  obtain ⟨-, -, h⟩ := Option.bind_eq_some_iff.mp h
  have hwidth : 0 < width ∧ 0 < height := by
    unfold validatePlanes at hvalid
    split at hvalid
    · cases hvalid
    · next hok =>
      simp only [Bool.or_eq_true, decide_eq_true_eq, not_or] at hok
      omega
  split at h
  · rw [← Option.some_inj.mp h]
    exact ⟨texels, ⟨hgray, halpha, hrgba⟩, hlength, hall⟩
  · rw [hrgba, hgray, halpha] at h
    simp only [panelOrder_map] at h
    cases hordered : panelOrder texels width height with
    | none =>
      rw [hordered] at h
      cases h
    | some ordered =>
      rw [hordered] at h
      obtain ⟨hcount, hmem⟩ := panelOrder_spec hordered
      have hplanes : planes = ⟨ordered.map Texel.gray, ordered.map Texel.alpha,
          some (ordered.map Texel.rgba)⟩ := (Option.some_inj.mp h).symm
      rw [hplanes]
      refine ⟨ordered, ⟨rfl, rfl, rfl⟩, ?_, fun t ht => hall t (hmem t ht)⟩
      rw [hcount, Int.toNat_mul (Int.le_of_lt hwidth.1) (Int.le_of_lt hwidth.2)]

theorem renderForPanel_agrees {r : Roundings} {pixels : List UInt32}
    {width height userRotation : Int} {framing : Framing} {panelWidth panelHeight rotation : Int}
    {planes : Planes}
    (h : renderForPanel r pixels width height userRotation framing panelWidth panelHeight rotation
      true = some planes) : planes.Agrees (panelWidth * panelHeight).toNat := by
  unfold renderForPanel at h
  obtain ⟨-, -, h⟩ := Option.bind_eq_some_iff.mp h
  obtain ⟨presentation, hrender, h⟩ := Option.bind_eq_some_iff.mp h
  have hpresentation := render_agrees hrender
  have hplanes := presentationToPanel_agrees hpresentation h
  by_cases hrotation : rotation = 270
  · rw [if_pos hrotation, if_pos hrotation, Int.mul_comm] at hplanes
    exact hplanes
  · rw [if_neg hrotation, if_neg hrotation] at hplanes
    exact hplanes

/-! ### The native gray plane -/

theorem grayOfRgba_texels {texels : List Texel} (hall : ∀ t ∈ texels, t.Agrees) :
    grayOfRgba (rgbaBytes (texels.map Texel.rgba)) (texels.map Texel.alpha) =
      some (texels.map fun t => t.rgba.luma) := by
  induction texels with
  | nil => rfl
  | cons t texels ih =>
    have hrest := ih fun u hu => hall u (List.mem_cons_of_mem _ hu)
    have halpha := (hall t List.mem_cons_self).alpha
    rw [rgbaBytes] at hrest
    rw [rgbaBytes, List.map_cons, List.map_cons, List.flatMap_cons]
    show (if t.rgba.alpha ≠ t.alpha then none
      else (grayOfRgba ((texels.map Texel.rgba).flatMap Rgba.bytes) (texels.map Texel.alpha)).map
        (luma t.rgba.red t.rgba.green t.rgba.blue :: ·)) = _
    rw [if_neg (not_not.mpr halpha), hrest]
    rfl

theorem rgbaBytes_length (rgba : List Rgba) : (rgbaBytes rgba).length = rgba.length * 4 := by
  induction rgba with
  | nil => rfl
  | cons c rgba ih =>
    rw [rgbaBytes] at ih
    rw [rgbaBytes, List.flatMap_cons, List.length_append, ih, List.length_cons]
    simp only [Rgba.bytes, List.length_cons, List.length_nil]
    omega

/-- A transparent place shows the background, whatever its gray. -/
theorem blend_transparent (foreground background : Nat) : blend foreground background 0 =
    background := by
  unfold blend
  omega

theorem blendGray_texels {texels : List Texel} (hall : ∀ t ∈ texels, t.Agrees)
    (background : List UInt8) :
    blendGray (texels.map fun t => t.rgba.luma) (texels.map Texel.alpha) background =
      blendGray (texels.map Texel.gray) (texels.map Texel.alpha) background := by
  induction texels generalizing background with
  | nil => rfl
  | cons t texels ih =>
    cases background with
    | nil => rfl
    | cons b background =>
      have hrest := ih (fun u hu => hall u (List.mem_cons_of_mem _ hu)) background
      have hplace : blend t.rgba.luma.toNat b.toNat t.alpha.toNat =
          blend t.gray.toNat b.toNat t.alpha.toNat := by
        rcases (hall t List.mem_cons_self).gray with hgray | htransparent
        · rw [hgray]
        · rw [htransparent]
          exact (blend_transparent _ _).trans (blend_transparent _ _).symm
      show quantizePanelGray (blend t.rgba.luma.toNat b.toNat t.alpha.toNat) :: blendGray _ _ _ =
        quantizePanelGray (blend t.gray.toNat b.toNat t.alpha.toNat) :: blendGray _ _ _
      rw [hplace, hrest]

theorem isPanelGray_map {texels : List Texel} {f : Texel → UInt8}
    (h : ∀ t ∈ texels, f t &&& 0x0f = 0) : isPanelGray (texels.map f) = true := by
  rw [isPanelGray, List.all_map, List.all_eq_true]
  intro t ht
  exact decide_eq_true (h t ht)

/-- The overlay does not depend on which of the two gray planes it is composed from. -/
theorem compose_texels {texels : List Texel} (hall : ∀ t ∈ texels, t.Agrees)
    (background rgba : List UInt8) :
    composeSleepImageOverlay (texels.map fun t => t.rgba.luma) (texels.map Texel.alpha) background
        rgba =
      composeSleepImageOverlay (texels.map Texel.gray)
        (texels.map Texel.alpha) background rgba := by
  have hluma : isPanelGray (texels.map fun t => t.rgba.luma) = true :=
    isPanelGray_map fun t _ => luma_panelGray _ _ _
  have hgray : isPanelGray (texels.map Texel.gray) = true :=
    isPanelGray_map fun t ht => (hall t ht).panelGray
  unfold composeSleepImageOverlay
  simp only [List.length_map, List.isEmpty_map, hluma, hgray, blendGray_texels hall background]

/-- The native side reads the transmitted planes, keeps their alpha, and composes over any
background what it would compose from the gray plane that was rendered. -/
def NativeReads (p : EinkDeviceProfile) (planes : Planes) : Prop :=
  ∃ rgba entry, planes.rgba = some rgba ∧
    readEntry p p.panelWidth p.panelHeight (rgbaBytes rgba) planes.alpha = some entry ∧
    entry.alpha = planes.alpha ∧ entry.rgba = rgbaBytes rgba ∧
    ∀ background : List UInt8,
      composeSleepImageOverlay entry.panelGray entry.alpha background entry.rgba =
        composeSleepImageOverlay planes.gray planes.alpha background (rgbaBytes rgba)

theorem nativeReads_of_agrees {p : EinkDeviceProfile} {planes : Planes}
    (hcolor : p.hasColorCfa = true) (hplanes : planes.Agrees p.panelBytes) :
    NativeReads p planes := by
  obtain ⟨texels, ⟨hgray, halpha, hrgba⟩, hlength, hall⟩ := hplanes
  have hread : readEntry p p.panelWidth p.panelHeight (rgbaBytes (texels.map Texel.rgba))
      (texels.map Texel.alpha) =
        some { width := p.panelWidth, height := p.panelHeight,
               panelGray := texels.map fun t => t.rgba.luma, alpha := texels.map Texel.alpha,
               rgba := rgbaBytes (texels.map Texel.rgba) } := by
    unfold readEntry
    rw [hcolor, grayOfRgba_texels hall, rgbaBytes_length, List.length_map, List.length_map, hlength]
    simp
  rw [← halpha] at hread
  refine ⟨texels.map Texel.rgba, _, hrgba, hread, rfl, rfl, fun background => ?_⟩
  rw [hgray, halpha]
  exact compose_texels hall background _

/-- Of every image rendered in colour, for the panel of a colour device or with the size of its
planes directly. -/
theorem nativeReads_of_rendered (r : Roundings) (pixels : List UInt32)
    (width height userRotation : Int) (framing : Framing) (p : EinkDeviceProfile)
    (hcolor : p.hasColorCfa = true) (planes : Planes)
    (h : (∃ rotation, renderForPanel r pixels width height userRotation framing p.panelWidth
        p.panelHeight rotation true = some planes) ∨
      ∃ outputWidth outputHeight : Int, (outputWidth * outputHeight).toNat = p.panelBytes ∧
        render r pixels width height userRotation framing outputWidth outputHeight true =
          some planes) :
    NativeReads p planes := by
  have hbytes : ((p.panelWidth : Int) * p.panelHeight).toNat = p.panelBytes := by
    rw [EinkDeviceProfile.panelBytes, ← Int.natCast_mul, Int.toNat_natCast]
  rcases h with ⟨rotation, h⟩ | ⟨outputWidth, outputHeight, hsize, h⟩
  · have hplanes := renderForPanel_agrees h
    rw [hbytes] at hplanes
    exact nativeReads_of_agrees hcolor hplanes
  · have hplanes := render_agrees h
    rw [hsize] at hplanes
    exact nativeReads_of_agrees hcolor hplanes

/-- A colour panel with room for one pixel of a fit image and one of the letterbox. -/
def twoPixelProfile : EinkDeviceProfile :=
  { auraCDeviceProfile with panelWidth := 1, panelHeight := 2 }

theorem nativeReads_twoPixel : NativeReads twoPixelProfile
    ⟨[0xf0, 0x40], [0, 0xff], some [{}, ⟨0x80, 0x40, 0x20, 0xff⟩]⟩ :=
  nativeReads_of_rendered ⟨0, 0, 1, 1⟩ [0xff804020] 1 1 0 .FIT twoPixelProfile rfl _
    (Or.inl ⟨270, by decide⟩)

end EinkLab.SleepImageTransforms
