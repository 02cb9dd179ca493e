import EinkLab.Plane.Symmetry
import EinkLab.SleepImage.Equiv.Transforms
import EinkLab.SleepImage.Geometry
import Mathlib.Algebra.Group.Int.Defs
import Mathlib.Algebra.Group.Nat.Defs
import Mathlib.Data.Int.Order.Basic
import Mathlib.Data.List.GetD
import Mathlib.Data.Set.Function

/-!
# The geometry of the transforms

`sourceIndex` and `exifSourceIndex` read through the symmetries of a plane (`sourceIndex_eq`,
`exifSourceIndex_eq`), so an orientation is a bijection of the pixels and a preview at the native
size undoes the transform to the panel.  A rendering stays inside its arrays, because the crop lies
in the turned image and the target in the output (`Crop.Inside`).
-/

namespace EinkLab.SleepImageTransforms

open RowMajor

variable {α : Type}

/-! ### Index mappings are symmetries -/

/-- What `sourceIndex` reads, by rotation. -/
def rotationSymmetry (rotation : Int) : Symmetry :=
  if rotation = 90 then { exchange := true, mirrorY := true }
  else if rotation = 180 then { mirrorX := true, mirrorY := true }
  else if rotation = 270 then { exchange := true, mirrorX := true }
  else {}

/-- What `exifSourceIndex` reads, by orientation. -/
def exifSymmetry (orientation : Int) : Symmetry :=
  if orientation = 2 then { mirrorX := true }
  else if orientation = 3 then { mirrorX := true, mirrorY := true }
  else if orientation = 4 then { mirrorY := true }
  else if orientation = 5 then { exchange := true }
  else if orientation = 6 then { exchange := true, mirrorY := true }
  else if orientation = 7 then { exchange := true, mirrorX := true, mirrorY := true }
  else if orientation = 8 then { exchange := true, mirrorX := true }
  else {}

/-- The index of a place whose coordinates are computed in `int`. -/
theorem index_eq {w : Nat} {x y : Int} {p : Nat × Nat} (hx : x = p.1) (hy : y = p.2) :
    y * w + x = (position w p : Nat) := by
  rw [hx, hy, position]
  push_cast
  rfl

/-- A coordinate that counts from the other side. -/
theorem mirror_eq {n x : Nat} (h : x < n) : (n : Int) - 1 - x = (n - 1 - x : Nat) := by omega

def IsRotation (rotation : Int) : Prop :=
  rotation = 0 ∨ rotation = 90 ∨ rotation = 180 ∨ rotation = 270

theorem sourceIndex_eq {rotation : Int} (hrotation : IsRotation rotation) {w h : Nat}
    {p : Nat × Nat}
    (hp : Within ((rotationSymmetry rotation).width w h)
      ((rotationSymmetry rotation).height w h) p) :
    sourceIndex p.1 p.2 w h rotation =
      some ((position w ((rotationSymmetry rotation).source w h p) : Nat) : Int) := by
  obtain ⟨hx, hy⟩ := hp
  rcases hrotation with rfl | rfl | rfl | rfl
  · exact congrArg some (index_eq rfl rfl)
  · have hy' : p.1 < h := hx
    exact congrArg some (index_eq rfl (mirror_eq hy'))
  · have hx' : p.1 < w := hx
    have hy' : p.2 < h := hy
    exact congrArg some (index_eq (mirror_eq hx') (mirror_eq hy'))
  · have hy' : p.2 < w := hy
    exact congrArg some (index_eq (mirror_eq hy') rfl)

theorem check_eq {w h : Nat} {x y : Int} {q : Nat × Nat} (hq : Within w h q) (hx : x = q.1)
    (hy : y = q.2) :
    (if x < 0 || y < 0 || x ≥ w || y ≥ h then none else some (y * w + x)) =
      some ((position w q : Nat) : Int) := by
  obtain ⟨hqx, hqy⟩ := hq
  rw [index_eq hx hy]
  refine if_neg fun hout => ?_
  simp only [Bool.or_eq_true, decide_eq_true_eq] at hout
  omega

/-- No coordinate of the oriented image is refused. -/
theorem exifSourceIndex_eq {orientation : Int} (hlow : 1 ≤ orientation) (hhigh : orientation ≤ 8)
    {w h : Nat} {p : Nat × Nat}
    (hp : Within ((exifSymmetry orientation).width w h) ((exifSymmetry orientation).height w h) p) :
    exifSourceIndex p.1 p.2 w h orientation =
      some ((position w ((exifSymmetry orientation).source w h p) : Nat) : Int) := by
  have hsource := (exifSymmetry orientation).within_source hp
  obtain ⟨hx, hy⟩ := hp
  obtain rfl | rfl | rfl | rfl | rfl | rfl | rfl | rfl : orientation = 1 ∨ orientation = 2 ∨
    orientation = 3 ∨ orientation = 4 ∨ orientation = 5 ∨ orientation = 6 ∨ orientation = 7 ∨
      orientation = 8 := by omega
  · exact check_eq hsource rfl rfl
  · have hx' : p.1 < w := hx
    exact check_eq hsource (mirror_eq hx') rfl
  · have hx' : p.1 < w := hx
    have hy' : p.2 < h := hy
    exact check_eq hsource (mirror_eq hx') (mirror_eq hy')
  · have hy' : p.2 < h := hy
    exact check_eq hsource rfl (mirror_eq hy')
  · exact check_eq hsource rfl rfl
  · have hx' : p.1 < h := hx
    exact check_eq hsource rfl (mirror_eq hx')
  · have hx' : p.1 < h := hx
    have hy' : p.2 < w := hy
    exact check_eq hsource (mirror_eq hy') (mirror_eq hx')
  · have hy' : p.2 < w := hy
    exact check_eq hsource (mirror_eq hy') rfl

/-- The width of the oriented image: from orientation 5 on, width and height are exchanged. -/
def orientedWidth (orientation width height : Int) : Int :=
    if 5 ≤ orientation then height else width

def orientedHeight (orientation width height : Int) : Int :=
    if 5 ≤ orientation then width else height

theorem oriented_eq {orientation : Int} (hlow : 1 ≤ orientation) (hhigh : orientation ≤ 8)
    (w h : Nat) :
    orientedWidth orientation w h = ((exifSymmetry orientation).width w h : Nat) ∧
      orientedHeight orientation w h = ((exifSymmetry orientation).height w h : Nat) := by
  obtain rfl | rfl | rfl | rfl | rfl | rfl | rfl | rfl : orientation = 1 ∨ orientation = 2 ∨
    orientation = 3 ∨ orientation = 4 ∨ orientation = 5 ∨ orientation = 6 ∨ orientation = 7 ∨
      orientation = 8 := by omega
  all_goals exact ⟨rfl, rfl⟩

/-- The places of an image, as the loops count them. -/
def Coordinates (width height : Int) : Set (Int × Int) :=
  {p | 0 ≤ p.1 ∧ p.1 < width ∧ 0 ≤ p.2 ∧ p.2 < height}

theorem exists_place {w h : Nat} {p : Int × Int} (hp : p ∈ Coordinates w h) :
    ∃ q : Nat × Nat, Within w h q ∧ p = ((q.1 : Int), (q.2 : Int)) := by
  obtain ⟨hx, hxw, hy, hyh⟩ := hp
  refine ⟨(p.1.toNat, p.2.toNat), ⟨?_, ?_⟩, Prod.ext ?_ ?_⟩
  all_goals dsimp only
  all_goals omega

/-- An oriented image shows every pixel of the source once, and throws for none. -/
theorem exifSourceIndex_bijOn {orientation : Int} (hlow : 1 ≤ orientation) (hhigh : orientation ≤ 8)
    {width height : Int} (hwidth : 0 < width) (hheight : 0 < height) :
    Set.BijOn (fun p : Int × Int => exifSourceIndex p.1 p.2 width height orientation)
      (Coordinates (orientedWidth orientation width height)
        (orientedHeight orientation width height))
      (some '' {index : Int | 0 ≤ index ∧ index < width * height}) := by
  obtain ⟨w, rfl⟩ := Int.eq_ofNat_of_zero_le hwidth.le
  obtain ⟨h, rfl⟩ := Int.eq_ofNat_of_zero_le hheight.le
  obtain ⟨hw, hh⟩ := oriented_eq hlow hhigh w h
  rw [hw, hh]
  have hvalue {q : Nat × Nat} := exifSourceIndex_eq (w := w) (h := h) (p := q) hlow hhigh
  generalize exifSymmetry orientation = s at *
  refine ⟨?_, ?_, ?_⟩
  · -- into the pixels of the source
    intro p hp
    obtain ⟨q, hq, rfl⟩ := exists_place hp
    have hlt : position w (s.source w h q) < w * h := position_lt (s.within_source hq)
    refine ⟨(position w (s.source w h q) : Nat), ⟨Int.natCast_nonneg _, ?_⟩, (hvalue hq).symm⟩
    exact_mod_cast hlt
  · -- each pixel once, since the symmetry has an inverse
    intro p hp p' hp' heq
    obtain ⟨q, hq, rfl⟩ := exists_place hp
    obtain ⟨q', hq', rfl⟩ := exists_place hp'
    have hposition := (hvalue hq).symm.trans (heq.trans (hvalue hq'))
    have hsource := position_inj (s.within_source hq).1 (s.within_source hq').1
      (Int.natCast_inj.mp (Option.some_inj.mp hposition))
    rw [← s.target_source hq, hsource, s.target_source hq']
  · -- and every pixel: the one with this index went to the target of its place
    rintro _ ⟨index, ⟨hindex, hlt⟩, rfl⟩
    obtain ⟨n, rfl⟩ := Int.eq_ofNat_of_zero_le hindex
    have hn : n < w * h := by exact_mod_cast hlt
    have hplace : Within w h (place w n) := within_place hn
    have htarget := s.within_target hplace
    refine ⟨((s.target w h (place w n)).1, (s.target w h (place w n)).2),
      ⟨Int.natCast_nonneg _, ?_, Int.natCast_nonneg _, ?_⟩, ?_⟩
    · exact Int.ofNat_lt.mpr htarget.1
    · exact Int.ofNat_lt.mpr htarget.2
    · have hread := hvalue htarget
      rwa [s.source_target hplace, position_place] at hread

/-! ### The pixels of the planes -/

theorem load_natCast (array : List α) (n : Nat) : load array n = array[n]? :=
  if_pos (Int.natCast_nonneg n)

theorem store_natCast {array : List α} {n : Nat} (h : n < array.length) (value : α) :
    store array n value = some (array.set n value) :=
  if_pos ⟨Int.natCast_nonneg n, h⟩

/-- The pixels that the planes hold: the color plane's colors where there is one, and the gray
plane's grays otherwise, with the opacity of the alpha plane. -/
def presentationPixels (planes : Planes) : List UInt32 :=
  match planes.rgba with
  | none => planes.gray.zipWith (fun value opacity => argb opacity value value value) planes.alpha
  | some rgba => rgba.zipWith (fun c opacity => argb opacity c.red c.green c.blue) planes.alpha

/-- What `validatePlanes` checks. -/
structure Planes.Fills (planes : Planes) (size : Nat) : Prop where
  gray : planes.gray.length = size
  alpha : planes.alpha.length = size
  rgba : ∀ rgba, planes.rgba = some rgba → rgba.length = size

theorem validatePlanes_eq_some_iff {planes : Planes} {w h : Nat} :
    validatePlanes planes w h = some () ↔ 0 < w ∧ 0 < h ∧ planes.Fills (w * h) := by
  have hsize : ((w : Int) * h) = (w * h : Nat) := by push_cast; rfl
  unfold validatePlanes
  rw [hsize]
  constructor
  · intro hvalid
    split at hvalid
    · cases hvalid
    · next hok =>
      simp only [Bool.or_eq_true, decide_eq_true_eq, not_or, not_not, Option.any_eq_true,
        not_exists,
        not_and] at hok
      refine ⟨by omega, by omega, by omega, by omega, fun rgba hrgba => ?_⟩
      have hlength := hok.2 rgba hrgba
      omega
  · rintro ⟨hw, hh, hgray, halpha, hrgba⟩
    refine if_neg ?_
    simp only [Bool.or_eq_true, decide_eq_true_eq, not_or, not_not, Option.any_eq_true, not_exists,
      not_and]
    refine ⟨by omega, fun rgba hsome => ?_⟩
    have hlength := hrgba rgba hsome
    omega

theorem Planes.Fills.length_pixels {planes : Planes} {size : Nat} (h : planes.Fills size) :
    (presentationPixels planes).length = size := by
  unfold presentationPixels
  cases hrgba : planes.rgba with
  | none => simp [h.gray, h.alpha]
  | some rgba => simp [h.rgba rgba hrgba, h.alpha]

theorem Planes.Fills.pixel {planes : Planes} {size : Nat} (h : planes.Fills size) {n : Nat}
    (hn : n < size) : planes.pixel n = (presentationPixels planes)[n]? := by
  have hgray : n < planes.gray.length := h.gray.symm ▸ hn
  have halpha : n < planes.alpha.length := h.alpha.symm ▸ hn
  unfold Planes.pixel presentationPixels
  rw [load_natCast, load_natCast, List.getElem?_eq_getElem hgray, List.getElem?_eq_getElem halpha]
  cases hrgba : planes.rgba with
  | none =>
    simp [List.getElem?_zipWith, List.getElem?_eq_getElem hgray, List.getElem?_eq_getElem halpha]
  | some rgba =>
    have hcolor : n < rgba.length := (h.rgba rgba hrgba).symm ▸ hn
    simp [List.getElem?_zipWith, load_natCast, List.getElem?_eq_getElem halpha,
      List.getElem?_eq_getElem hcolor]

/-! ### To the panel and back -/

/-- The transform of the supported panels. -/
def panelSymmetry : Symmetry := { exchange := true, mirrorX := true }

theorem mapM_eq_map {β γ : Type} {g : β → Option γ} {v : β → γ} {xs : List β}
    (h : ∀ x ∈ xs, g x = some (v x)) : xs.mapM g = some (xs.map v) := by
  induction xs with
  | nil => rfl
  | cons x xs ih =>
    rw [List.mapM_cons, h x List.mem_cons_self, ih fun y hy => h y (List.mem_cons_of_mem x hy)]
    rfl

theorem load_position (d : α) {array : List α} {w h : Nat} (hlength : array.length = w * h)
    {p : Nat × Nat} (hp : Within w h p) :
    load array (position w p : Nat) = some (array.getD (position w p) d) := by
  have hlt : position w p < array.length := hlength.symm ▸ position_lt hp
  rw [load_natCast, List.getElem?_eq_getElem hlt, List.getD_eq_getElem _ _ hlt]

theorem panelOrder_eq (d : α) {array : List α} {w h : Nat} (hlength : array.length = w * h) :
    panelOrder array w h =
      some (panelSymmetry.turned w h fun p => array.getD (position w p) d) := by
  have hplace : ∀ panelY ∈ List.range w, ∀ panelX ∈ List.range h,
      (sourceIndex panelX panelY w h 270).bind (load array) =
        some (array.getD (position w (panelSymmetry.source w h (panelX, panelY))) d) := by
    intro panelY hy panelX hx
    have hp : Within (panelSymmetry.width w h) (panelSymmetry.height w h) (panelX, panelY) :=
      ⟨List.mem_range.mp hx, List.mem_range.mp hy⟩
    have hindex := sourceIndex_eq (show IsRotation 270 by simp [IsRotation]) hp
    rw [hindex, Option.bind_some]
    exact load_position d hlength (panelSymmetry.within_source hp)
  unfold panelOrder
  rw [Int.toNat_natCast, Int.toNat_natCast,
    mapM_eq_map fun panelY hy => mapM_eq_map (hplace panelY hy), Option.map_some, Symmetry.turned]
  change _ = some ((places h w).map _)
  rw [places_eq_flatMap, List.map_flatMap, List.flatMap_def]
  simp only [List.map_map]
  rfl

/-- Each plane of the panel is the presentation's, turned. -/
theorem presentationToPanel_eq {presentation : Planes} {w h : Nat} (hw : 0 < w) (hh : 0 < h)
    (hfills : presentation.Fills (w * h)) :
    presentationToPanel presentation w h 270 =
      some { gray := panelSymmetry.turned w h fun p => presentation.gray.getD (position w p) 0
             alpha := panelSymmetry.turned w h fun p => presentation.alpha.getD (position w p) 0
             rgba := presentation.rgba.map fun rgba =>
               panelSymmetry.turned w h fun p => rgba.getD (position w p) {} } := by
  have hvalid := validatePlanes_eq_some_iff.mpr ⟨hw, hh, hfills⟩
  unfold presentationToPanel
  rw [hvalid, panelOrder_eq 0 hfills.gray, panelOrder_eq 0 hfills.alpha]
  cases hrgba : presentation.rgba with
  | none => rfl
  | some rgba =>
    have horder := panelOrder_eq {} (hfills.rgba rgba hrgba)
    simp only [horder]
    rfl

/-- The loops go through the places row by row. -/
theorem forEachPixel_eq {σ : Type} (w h : Nat) (body : σ → Int → Int → Option σ) (s : σ) :
    forEachPixel w h body s = (places w h).foldlM (fun s p => body s p.1 p.2) s := by
  unfold forEachPixel
  simp only [bind_pure_comp, List.map_eq_map, List.foldlM_map]
  exact foldlM_rows (fun s x y => body s x y) w h s

/-- Loops that write each place of an array once. -/
theorem forEachPixel_fill {w h : Nat} {body : List α → Int → Int → Option (List α)}
    (value : Nat × Nat → α)
    (hbody : ∀ s : List α, s.length = w * h → ∀ p : Nat × Nat, Within w h p →
      body s p.1 p.2 = store s (position w p : Nat) (value p))
    {out : List α} (hlength : out.length = w * h) :
    forEachPixel w h body out = some ((places w h).map value) := by
  have hstep : ∀ s : List α, s.length = w * h → ∀ p ∈ places w h,
      body s p.1 p.2 = some (s.set (position w p) (value p)) ∧
        (s.set (position w p) (value p)).length = w * h := by
    intro s hs p hp
    have hp := mem_places.mp hp
    rw [hbody s hs p hp, store_natCast (hs.symm ▸ position_lt hp), List.length_set]
    exact ⟨rfl, hs⟩
  rw [forEachPixel_eq, foldlM_eq_some hstep hlength]
  exact congrArg some (scatter_position value hlength)

/-- At the native size the place of a pixel is its own. -/
theorem native_eq {n : Nat} {x : Nat} (hx : x < n) :
    min ((n : Int) - 1) (((x : Int) * n).tdiv n) = x := by
  rw [Int.mul_tdiv_cancel _ (by omega)]
  omega

/-- A preview of the native size, from the elements that the panel holds. -/
theorem panelToPresentationPixels_eq {panel : Planes} {pw ph w h : Nat} {rotation : Int}
    (hrotation : rotation = 0 ∨ rotation = 270) (hw : 0 < w) (hh : 0 < h) (harea : w * h < 2 ^ 31)
    (hpanel : panel.Fills (pw * ph)) (hsize : w = (if rotation = 270 then ph else pw) ∧
      h = if rotation = 270 then pw else ph) {pixels : List UInt32}
    (hlength : pixels.length = w * h)
    (hpixel : ∀ p, Within w h p → panel.pixel ((position pw
      (if rotation = 270 then panelSymmetry.target w h p else p) : Nat) : Int) =
        pixels[position w p]?) :
    panelToPresentationPixels panel pw ph w h rotation = some pixels := by
  have hvalid : validatePlanes panel pw ph = some () := by
    refine validatePlanes_eq_some_iff.mpr ⟨?_, ?_, hpanel⟩
    · split at hsize <;> omega
    · split at hsize <;> omega
  have hwidth : (if rotation = 270 then (ph : Int) else pw) = w := by
    split at hsize <;> simp_all
  have hheight : (if rotation = 270 then (pw : Int) else ph) = h := by
    split at hsize <;> simp_all
  have hrequire : requirePanelRotation rotation = some () := if_neg (by omega)
  have hpositive : ¬((decide ((w : Int) ≤ 0) || decide ((h : Int) ≤ 0)) = true) := by
    simp only [Bool.or_eq_true, decide_eq_true_eq]
    omega
  have hexact : IntType.int32.exact ((w : Int) * h) = some ((w * h : Nat) : Int) := by
    rw [← Int.natCast_mul]
    exact IntType.int32_exact (by omega)
  unfold panelToPresentationPixels
  rw [hvalid, hrequire, if_neg hpositive, hwidth, hheight, hexact]
  simp only [Option.bind_eq_bind, Option.bind_some, Int.toNat_natCast]
  have hout : (List.replicate (w * h) (0 : UInt32)).length = w * h := List.length_replicate
  rw [forEachPixel_fill (fun p => pixels.getD (position w p) 0) (fun s hs p hp => ?_) hout]
  · -- the elements in storage order are the array itself
    refine congrArg some (List.ext_getElem? fun n => ?_)
    by_cases hn : n < w * h
    · have hplace : Within w h (place w n) := within_place hn
      have hget := getElem?_places hplace
      rw [position_place] at hget
      rw [List.getElem?_map, hget, Option.map_some, position_place,
        List.getD_eq_getElem _ _ (by omega), List.getElem?_eq_getElem (by omega)]
    · rw [List.getElem?_eq_none (by rw [List.length_map, length_places]; omega),
        List.getElem?_eq_none (by omega)]
  · -- at the native size the loop reads the element that the panel has for this place
    have hlt : position w p < pixels.length := hlength.symm ▸ position_lt hp
    have hindex : (if rotation = 270 then (w : Int) - 1 - p.1 else p.2) * pw +
        (if rotation = 270 then (p.2 : Int) else p.1) =
          ((position pw (if rotation = 270 then panelSymmetry.target w h p else p) : Nat) :
            Int) := by
      split
      · have hx := hp.1
        exact index_eq rfl (mirror_eq hx)
      · exact index_eq rfl rfl
    unfold previewPixel
    simp only [native_eq hp.1, native_eq hp.2, hindex, hpixel p hp, List.getElem?_eq_getElem hlt,
      Option.bind_eq_bind, Option.bind_some, List.getD_eq_getElem _ _ hlt, index_eq rfl rfl]

theorem length_panel {w h : Nat} (value : Nat × Nat → α) :
    (panelSymmetry.turned w h value).length = h * w := panelSymmetry.length_turned value

/-- Where a pixel went, the panel holds its element. -/
theorem load_turned (d : α) {array : List α} {w h : Nat} (hlength : array.length = w * h)
    {p : Nat × Nat} (hp : Within w h p) :
    load (panelSymmetry.turned w h fun q => array.getD (position w q) d)
        ((position h (panelSymmetry.target w h p) : Nat) : Int) =
      load array ((position w p : Nat) : Int) := by
  have hget := panelSymmetry.getElem?_turned (fun q => array.getD (position w q) d)
    (panelSymmetry.within_target hp)
  rw [panelSymmetry.source_target hp] at hget
  rw [load_position d hlength hp, load_natCast]
  exact hget

/-- The dimensions of the panel on which a presentation plane is shown. -/
def panelSize (rotation width height : Int) : Int × Int :=
  if rotation = 270 then (height, width) else (width, height)

/-- A preview at the native size undoes the transform to the panel. -/
theorem preview_presentationToPanel {presentation : Planes} {w h : Nat} (hw : 0 < w) (hh : 0 < h)
    (harea : w * h < 2 ^ 31) (hfills : presentation.Fills (w * h)) {rotation : Int}
    (hrotation : rotation = 0 ∨ rotation = 270) :
    ∃ panel, presentationToPanel presentation w h rotation = some panel ∧
      panelToPresentationPixels panel (panelSize rotation w h).1 (panelSize rotation w h).2 w h
        rotation = some (presentationPixels presentation) := by
  have hpixel {p : Nat × Nat} (hp : Within w h p) := hfills.pixel (position_lt hp)
  rcases hrotation with rfl | rfl
  · have hvalid := validatePlanes_eq_some_iff.mpr ⟨hw, hh, hfills⟩
    refine ⟨presentation, ?_, ?_⟩
    · unfold presentationToPanel
      rw [hvalid]
      rfl
    · exact panelToPresentationPixels_eq (Or.inl rfl) hw hh harea hfills ⟨rfl, rfl⟩
        hfills.length_pixels fun p hp => hpixel hp
  · refine ⟨_, presentationToPanel_eq hw hh hfills, ?_⟩
    refine panelToPresentationPixels_eq (Or.inr rfl) hw hh harea ⟨?_, ?_, ?_⟩ ⟨rfl, rfl⟩
      hfills.length_pixels fun p hp => ?_
    · exact length_panel fun p => presentation.gray.getD (position w p) 0
    · exact length_panel fun p => presentation.alpha.getD (position w p) 0
    · intro rgba hrgba
      obtain ⟨_, -, rfl⟩ := Option.map_eq_some_iff.mp hrgba
      exact length_panel _
    · rw [← hpixel hp, if_pos rfl]
      unfold Planes.pixel
      dsimp only
      rw [load_turned 0 hfills.gray hp, load_turned 0 hfills.alpha hp]
      cases hrgba : presentation.rgba with
      | none => rfl
      | some rgba => simp only [Option.map_some, load_turned {} (hfills.rgba rgba hrgba) hp]

/-! ### Renderings stay inside their arrays -/

/-- A rectangle with at least one place, inside a plane. -/
structure Crop.Inside (c : Crop) (planeWidth planeHeight : Int) : Prop where
  left : 0 ≤ c.left
  top : 0 ≤ c.top
  width : 0 < c.width
  height : 0 < c.height
  right : c.left + c.width ≤ planeWidth
  bottom : c.top + c.height ≤ planeHeight

theorem normalizeRotation_isRotation {rotation normalized : Int}
    (h : normalizeRotation rotation = some normalized) : IsRotation normalized := by
  unfold normalizeRotation at h
  dsimp only at h
  have hhigh := Int.tmod_lt_of_pos rotation (show (0 : Int) < 360 by decide)
  have hlow := Int.lt_tmod_of_pos rotation (show (0 : Int) < 360 by decide)
  -- the first remainder has the sign of the rotation; one more turn makes it positive
  generalize rotation.tmod 360 = remainder at *
  rw [Int.tmod_eq_emod_of_nonneg (show 0 ≤ remainder + 360 by omega)] at h
  rw [Int.tmod_eq_emod_of_nonneg (show 0 ≤ (remainder + 360) % 360 by omega)] at h
  split at h
  · cases h
  · rw [← Option.some_inj.mp h, IsRotation]
    omega

/-- Whatever the casts and the roundings give, the crop is clamped into the image. -/
theorem source_inside (r : Roundings) (framing : Framing)
    {width height outputWidth outputHeight : Int}
    (hwidth : 0 < width) (hheight : 0 < height) (houtput : 0 < outputWidth ∧ 0 < outputHeight) :
    ∃ c, source r framing width height outputWidth outputHeight = some c ∧
      c.Inside width height := by
  cases framing with
  | FIT => exact ⟨_, rfl, ⟨le_rfl, le_rfl, hwidth, hheight, by simp, by simp⟩⟩
  | CROP =>
    have hvalid : ¬((decide (width ≤ 0) || decide (height ≤ 0) || decide (outputWidth ≤ 0) ||
        decide (outputHeight ≤ 0)) = true) := by
      simp only [Bool.or_eq_true, decide_eq_true_eq]
      omega
    refine ⟨_, if_neg hvalid, ?_⟩
    -- the width and the height are clamped first, and the corner by what they leave
    constructor
    all_goals dsimp only
    all_goals omega

theorem target_inside {r : Roundings} (framing : Framing) {outputWidth outputHeight : Int}
    (houtput : 0 < outputWidth ∧ 0 < outputHeight)
    (hscale : r.targetWidth ≤ outputWidth ∧ r.targetHeight ≤ outputHeight) :
    (target r framing outputWidth outputHeight).Inside outputWidth outputHeight := by
  cases framing with
  | CROP => exact ⟨le_rfl, le_rfl, houtput.1, houtput.2, by simp [target], by simp [target]⟩
  | FIT =>
    have hleft := Int.tdiv_eq_ediv_of_nonneg (a := outputWidth - max 1 r.targetWidth) (b := 2)
      (by omega)
    have htop := Int.tdiv_eq_ediv_of_nonneg (a := outputHeight - max 1 r.targetHeight) (b := 2)
      (by omega)
    constructor
    all_goals simp only [target, hleft, htop]
    all_goals omega

/-- The quotient that scales a coordinate of the target to one of the source. -/
theorem scaled_inside {start size bound x n : Int} (hstart : 0 ≤ start) (hsize : 0 < size)
    (hbound : start + size ≤ bound) (hx : 0 ≤ x) (hn : 0 < n) :
    0 ≤ start + min (size - 1) ((x * size).tdiv n) ∧
      start + min (size - 1) ((x * size).tdiv n) < bound := by
  have hquotient : 0 ≤ (x * size).tdiv n := Int.tdiv_nonneg (Int.mul_nonneg hx hsize.le) hn.le
  omega

/-- The dimensions of the turned image. -/
def rotatedSize (rotation width height : Int) : Int × Int :=
  if rotation = 90 ∨ rotation = 270 then (height, width) else (width, height)

theorem rotated_eq {rotation : Int} (hrotation : IsRotation rotation) (w h : Nat) :
    rotatedSize rotation w h = ((((rotationSymmetry rotation).width w h : Nat) : Int),
      (((rotationSymmetry rotation).height w h : Nat) : Int)) := by
  rcases hrotation with rfl | rfl | rfl | rfl
  all_goals rfl

theorem readIndex_inside {rotation : Int} (hrotation : IsRotation rotation) {w h : Nat}
    {source target : Crop}
    (hsource : source.Inside (rotatedSize rotation w h).1 (rotatedSize rotation w h).2)
    (htarget : 0 < target.width ∧ 0 < target.height) {x y : Int} (hx : 0 ≤ x) (hy : 0 ≤ y) :
    ∃ index : Nat, readIndex source target w h rotation x y = some (index : Int) ∧
      index < w * h := by
  have hcolumn := scaled_inside hsource.left hsource.width hsource.right hx htarget.1
  have hrow := scaled_inside hsource.top hsource.height hsource.bottom hy htarget.2
  rw [rotated_eq hrotation] at hcolumn hrow
  unfold readIndex
  dsimp only at hcolumn hrow ⊢
  generalize source.left + min (source.width - 1) ((x * source.width).tdiv target.width) =
    column at *
  generalize source.top + min (source.height - 1) ((y * source.height).tdiv target.height) =
    row at *
  obtain ⟨p, hp, hplace⟩ := exists_place (show (column, row) ∈ Coordinates _ _ from
    ⟨hcolumn.1, hcolumn.2, hrow.1, hrow.2⟩)
  obtain ⟨rfl, rfl⟩ := Prod.mk.inj hplace
  exact ⟨_, sourceIndex_eq hrotation hp,
    position_lt ((rotationSymmetry rotation).within_source hp)⟩

theorem writeIndex_inside {target : Crop} {w h : Nat} (htarget : target.Inside w h) {x y : Int}
    (hx : 0 ≤ x ∧ x < target.width) (hy : 0 ≤ y ∧ y < target.height) :
    ∃ index : Nat, writeIndex target w x y = (index : Int) ∧ index < w * h := by
  have hleft := htarget.left
  have htop := htarget.top
  have hright := htarget.right
  have hbottom := htarget.bottom
  have hplace : (target.left + x, target.top + y) ∈ Coordinates w h := by
    refine ⟨?_, ?_, ?_, ?_⟩
    all_goals dsimp only
    all_goals omega
  obtain ⟨p, hp, hpair⟩ := exists_place hplace
  obtain ⟨hcolumn, hrow⟩ := Prod.mk.inj hpair
  refine ⟨position w p, ?_, position_lt hp⟩
  rw [writeIndex, Int.add_assoc]
  exact index_eq hcolumn hrow

theorem write_fills {planes : Planes} {size n : Nat} (hfills : planes.Fills size) (hn : n < size)
    (value : UInt32) : ∃ written, planes.write n value = some written ∧ written.Fills size := by
  have hgray := hfills.gray
  have halpha := hfills.alpha
  unfold Planes.write
  dsimp only
  rw [store_natCast (by omega), store_natCast (by omega)]
  cases hrgba : planes.rgba with
  | none =>
    refine ⟨_, rfl, ?_, ?_, fun rgba h => nomatch h⟩
    · rw [List.length_set, hgray]
    · rw [List.length_set, halpha]
  | some rgba =>
    have hcolor := hfills.rgba rgba hrgba
    simp only [Option.bind_eq_bind, Option.bind_some]
    rw [store_natCast (by omega)]
    refine ⟨_, rfl, ?_, ?_, fun rgba' h => ?_⟩
    · rw [List.length_set, hgray]
    · rw [List.length_set, halpha]
    · rw [← Option.some_inj.mp h, List.length_set, hcolor]

/-- One pixel of the loops is read and written inside the arrays. -/
theorem renderPixel_fills {pixels : List UInt32} {rotation : Int} (hrotation : IsRotation rotation)
    {w h ow oh : Nat} (hpixels : pixels.length = w * h) {source target : Crop}
    (hsource : source.Inside (rotatedSize rotation w h).1 (rotatedSize rotation w h).2)
    (htarget : target.Inside ow oh) {planes : Planes} (hfills : planes.Fills (ow * oh)) {x y : Int}
    (hx : 0 ≤ x ∧ x < target.width) (hy : 0 ≤ y ∧ y < target.height) :
    ∃ written, renderPixel pixels w h rotation ow source target planes x y = some written ∧
      written.Fills (ow * oh) := by
  obtain ⟨index, hread, hindex⟩ :=
    readIndex_inside hrotation hsource ⟨htarget.width, htarget.height⟩ hx.1 hy.1
  obtain ⟨destination, hwrite, hdestination⟩ := writeIndex_inside htarget hx hy
  have hlt : index < pixels.length := hpixels.symm ▸ hindex
  obtain ⟨written, hwritten, hafter⟩ := write_fills hfills hdestination pixels[index]
  refine ⟨written, ?_, hafter⟩
  change (readIndex source target w h rotation x y).bind (fun index =>
    (load pixels index).bind (planes.write (writeIndex target ow x y))) = some written
  rw [hread, Option.bind_some, load_natCast, List.getElem?_eq_getElem hlt, Option.bind_some, hwrite]
  exact hwritten

theorem blank_fills (size : Nat) (color : Bool) : (Planes.blank size color).Fills size := by
  refine ⟨List.length_replicate, List.length_replicate, fun rgba hrgba => ?_⟩
  unfold Planes.blank at hrgba
  cases color
  · cases hrgba
  · rw [← Option.some_inj.mp hrgba, List.length_replicate]

/-- The loops run to their end. -/
theorem loops_fill {pixels : List UInt32} {rotation : Int} (hrotation : IsRotation rotation)
    {w h ow oh : Nat} (hpixels : pixels.length = w * h) {source target : Crop}
    (hsource : source.Inside (rotatedSize rotation w h).1 (rotatedSize rotation w h).2)
    (htarget : target.Inside ow oh) (color : Bool) :
    ∃ planes, forEachPixel target.width.toNat target.height.toNat
        (renderPixel pixels w h rotation ow source target) (.blank (ow * oh) color) = some planes ∧
      planes.Fills (ow * oh) := by
  rw [forEachPixel_eq]
  refine foldlM_isSome (fun planes hfills p hp => ?_) (blank_fills (ow * oh) color)
  obtain ⟨hx, hy⟩ := mem_places.mp hp
  exact renderPixel_fills hrotation hpixels hsource htarget hfills ⟨by omega, by omega⟩
    ⟨by omega, by omega⟩

/-- The loops of a rendering stay inside the pixel array and the output planes, and nothing but the
checks of the arguments stops it. -/
structure RenderSafe (r : Roundings) (pixels : List UInt32) (width height userRotation : Int)
    (framing : Framing) (outputWidth outputHeight : Int) (color : Bool) : Prop where
  inside : ∀ rotation, normalizeRotation userRotation = some rotation →
    ∃ crop, source r framing (rotatedSize rotation width height).1
        (rotatedSize rotation width height).2 outputWidth outputHeight = some crop ∧
      ∀ x y, 0 ≤ x → x < (target r framing outputWidth outputHeight).width →
        0 ≤ y → y < (target r framing outputWidth outputHeight).height →
          (∃ index : Nat, readIndex crop (target r framing outputWidth outputHeight) width height
            rotation x y = some (index : Int) ∧ index < pixels.length) ∧
          0 ≤ writeIndex (target r framing outputWidth outputHeight) outputWidth x y ∧
            writeIndex (target r framing outputWidth outputHeight) outputWidth x y <
              outputWidth * outputHeight
  runs : (render r pixels width height userRotation framing outputWidth outputHeight color).isSome ↔
    (normalizeRotation userRotation).isSome ∧
      (color = true → IntType.int32.Holds (outputWidth * outputHeight * 4))
  fills : ∀ planes, render r pixels width height userRotation framing outputWidth outputHeight
    color = some planes → planes.Fills (outputWidth * outputHeight).toNat

theorem render_safe {r : Roundings} {pixels : List UInt32} {w h ow oh : Nat} (userRotation : Int)
    (framing : Framing) (color : Bool) (hw : 0 < w ∧ 0 < h) (how : 0 < ow ∧ 0 < oh)
    (hpixels : pixels.length = w * h) (hscale : r.targetWidth ≤ ow ∧ r.targetHeight ≤ oh) :
    RenderSafe r pixels w h userRotation framing ow oh color := by
  have houtput : (0 : Int) < ow ∧ (0 : Int) < oh := by omega
  have htarget := target_inside framing houtput hscale
  have hsource : ∀ rotation, IsRotation rotation →
      ∃ c, source r framing (rotatedSize rotation w h).1 (rotatedSize rotation w h).2 ow oh =
      some c ∧
        c.Inside (rotatedSize rotation w h).1 (rotatedSize rotation w h).2 := by
    intro rotation _
    refine source_inside r framing ?_ ?_ houtput
    all_goals unfold rotatedSize
    all_goals split
    all_goals dsimp only
    all_goals omega
  have hsize : ((ow : Int) * oh).toNat = ow * oh := by rw [← Int.natCast_mul, Int.toNat_natCast]
  have hchecks : ¬((decide ((pixels.length : Int) ≠ w * h) || decide ((ow : Int) ≤ 0) ||
      decide ((oh : Int) ≤ 0)) = true) := by
    rw [← Int.natCast_mul]
    simp only [Bool.or_eq_true, decide_eq_true_eq]
    omega
  -- past the checks a rendering is its loops
  have hrender : ∀ rotation, normalizeRotation userRotation = some rotation →
      (color = true → IntType.int32.Holds ((ow : Int) * oh * 4)) →
        ∃ planes, render r pixels w h userRotation framing ow oh color = some planes ∧
          planes.Fills (ow * oh) := by
    intro rotation hnormalized hcolor
    have hrotation := normalizeRotation_isRotation hnormalized
    obtain ⟨c, hc, hinside⟩ := hsource rotation hrotation
    obtain ⟨planes, hloops, hfills⟩ := loops_fill hrotation hpixels hinside htarget color
    have hallowed : ¬((color = true) ∧ ¬IntType.int32.Holds ((ow : Int) * oh * 4)) :=
      fun hno => hno.2 (hcolor hno.1)
    refine ⟨planes, ?_, hfills⟩
    unfold render
    rw [if_neg hchecks, hnormalized]
    simp only [rotatedSize, apply_ite Prod.fst, apply_ite Prod.snd] at hc
    simp only [Option.bind_eq_bind, Option.bind_some, hc, if_neg hallowed, hsize]
    exact hloops
  have hruns : (render r pixels w h userRotation framing ow oh color).isSome ↔
      (normalizeRotation userRotation).isSome ∧
        (color = true → IntType.int32.Holds ((ow : Int) * oh * 4)) := by
    constructor
    · -- the three checks come before the loops
      intro hsome
      unfold render at hsome
      rw [if_neg hchecks] at hsome
      cases hnormalized : normalizeRotation userRotation with
      | none =>
        rw [hnormalized] at hsome
        cases hsome
      | some rotation =>
        refine ⟨rfl, fun hcolor => ?_⟩
        obtain ⟨c, hc, -⟩ := hsource rotation (normalizeRotation_isRotation hnormalized)
        simp only [rotatedSize, apply_ite Prod.fst, apply_ite Prod.snd] at hc
        simp only [hnormalized, Option.bind_eq_bind, Option.bind_some, hc] at hsome
        by_contra hno
        rw [if_pos ⟨hcolor, hno⟩] at hsome
        cases hsome
    · rintro ⟨hnormalized, hcolor⟩
      obtain ⟨rotation, hnormalized⟩ := Option.isSome_iff_exists.mp hnormalized
      obtain ⟨planes, hplanes, -⟩ := hrender rotation hnormalized hcolor
      rw [hplanes]
      rfl
  refine ⟨fun rotation hnormalized => ?_, hruns, fun planes hplanes => ?_⟩
  · have hrotation := normalizeRotation_isRotation hnormalized
    obtain ⟨c, hc, hinside⟩ := hsource rotation hrotation
    refine ⟨c, hc, fun x y hx hxw hy hyh => ?_⟩
    obtain ⟨index, hread, hindex⟩ :=
      readIndex_inside hrotation hinside ⟨htarget.width, htarget.height⟩ hx hy
    obtain ⟨destination, hwrite, hdestination⟩ := writeIndex_inside htarget ⟨hx, hxw⟩ ⟨hy, hyh⟩
    refine ⟨⟨index, hread, hpixels.symm ▸ hindex⟩, ?_⟩
    rw [hwrite]
    exact ⟨Int.natCast_nonneg _, by exact_mod_cast hdestination⟩
  · obtain ⟨hnormalized, hcolor⟩ := hruns.mp (by rw [hplanes]; rfl)
    obtain ⟨rotation, hnormalized⟩ := Option.isSome_iff_exists.mp hnormalized
    obtain ⟨planes', hplanes', hfills⟩ := hrender rotation hnormalized hcolor
    rw [hsize, Option.some_inj.mp (hplanes.symm.trans hplanes')]
    exact hfills

/-- **The transforms are exact and stay inside their arrays**: a preview at the native size returns
the presentation, every orientation shows each pixel once, and every rendering reads and writes
inside its arrays. -/
theorem geometry_of_transforms {width height : Int} (hwidth : 0 < width) (hheight : 0 < height)
    (harea : width * height < 2 ^ 31) :
    (∀ presentation rotation, validatePlanes presentation width height = some () →
      requirePanelRotation rotation = some () →
        ∃ panel, presentationToPanel presentation width height rotation = some panel ∧
          panelToPresentationPixels panel (panelSize rotation width height).1
            (panelSize rotation width height).2 width height rotation =
              some (presentationPixels presentation)) ∧
    (∀ orientation, 1 ≤ orientation → orientation ≤ 8 →
      Set.BijOn (fun p : Int × Int => exifSourceIndex p.1 p.2 width height orientation)
        (Coordinates (orientedWidth orientation width height)
          (orientedHeight orientation width height))
        (some '' {index : Int | 0 ≤ index ∧ index < width * height})) ∧
    ∀ (r : Roundings) (pixels : List UInt32) (userRotation : Int) (framing : Framing)
      (outputWidth outputHeight : Int) (color : Bool), pixels.length = width * height →
        0 < outputWidth → 0 < outputHeight → outputWidth * outputHeight < 2 ^ 31 →
          r.targetWidth ≤ outputWidth → r.targetHeight ≤ outputHeight →
            RenderSafe r pixels width height userRotation framing outputWidth outputHeight
            color := by
  obtain ⟨w, rfl⟩ := Int.eq_ofNat_of_zero_le hwidth.le
  obtain ⟨h, rfl⟩ := Int.eq_ofNat_of_zero_le hheight.le
  refine ⟨fun presentation rotation hvalid hrequire => ?_, fun orientation hlow hhigh =>
    exifSourceIndex_bijOn hlow hhigh hwidth hheight, ?_⟩
  · obtain ⟨hw, hh, hfills⟩ := validatePlanes_eq_some_iff.mp hvalid
    have hrotation : rotation = 0 ∨ rotation = 270 := by
      unfold requirePanelRotation at hrequire
      by_contra hno
      rw [if_pos (by omega)] at hrequire
      cases hrequire
    exact preview_presentationToPanel hw hh (by exact_mod_cast harea) hfills hrotation
  · intro r pixels userRotation framing outputWidth outputHeight color hpixels how hoh _
      hscaleW hscaleH
    obtain ⟨ow, rfl⟩ := Int.eq_ofNat_of_zero_le how.le
    obtain ⟨oh, rfl⟩ := Int.eq_ofNat_of_zero_le hoh.le
    exact render_safe userRotation framing color ⟨by omega, by omega⟩ ⟨by omega, by omega⟩
      (by exact_mod_cast hpixels) ⟨hscaleW, hscaleH⟩

/-- An image of two pixels: to the panel and back, turned by its orientation, and rendered. -/
theorem geometry_of_transforms_two :
    (∃ panel, presentationToPanel ⟨[0x10, 0xf0], [0x80, 0xff], none⟩ 2 1 270 = some panel ∧
      panelToPresentationPixels panel 1 2 2 1 270 = some [0x80101010, 0xfff0f0f0]) ∧
    Set.BijOn (fun p : Int × Int => exifSourceIndex p.1 p.2 2 1 6) (Coordinates 1 2)
      (some '' {index : Int | 0 ≤ index ∧ index < 2}) ∧
    RenderSafe ⟨0, 0, 3, 2⟩ [0xff102030, 0x80405060] 2 1 90 .FIT 3 2 true := by
  have h := geometry_of_transforms (show (0 : Int) < 2 by decide) (show (0 : Int) < 1 by decide)
    (by decide)
  exact ⟨h.1 ⟨[0x10, 0xf0], [0x80, 0xff], none⟩ 270 (by decide) (by decide),
    h.2.1 6 (by decide) (by decide),
    h.2.2 ⟨0, 0, 3, 2⟩ [0xff102030, 0x80405060] 90 .FIT 3 2 true (by decide) (by decide) (by decide)
      (by decide) (by decide) (by decide)⟩

end EinkLab.SleepImageTransforms
