import EinkLab.Arithmetic.Checked
import EinkLab.Grayscale.Conversion
import EinkLab.Plane.Symmetry
import Mathlib.Data.List.GetD
import Mathlib.Tactic.Ring

/-!
# The conversion turns the plane

A rotation is a symmetry of the plane (`symmetry`), and the converted plane is the gray values of
the image, turned by it (`convertToGrayscale_eq`), on both paths of the device and in the core
library. `TransformRect` is the image of a rectangle under the same symmetry.
-/

namespace EinkLab.SoftwareGrayscale

open AndroidGrayscaleConverter RowMajor

variable {s : RgbaSource} {w h : Nat}

/-! ### The conversion -/

def symmetry : Rotation → Symmetry
  | .none => {}
  | .clockwise90 => { exchange := true, mirrorY := true }
  | .counterClockwise90 => { exchange := true, mirrorX := true }

/-- The gray value of a place of the image. -/
def grayAt (s : RgbaSource) (p : Nat × Nat) : UInt8 :=
    panelGray s ((p.2 * s.stridePixels.toNat + p.1) * 4)

/-- An image whose dimensions are an `int`. -/
structure IsImage (s : RgbaSource) : Prop where
  valid : s.isValid = true
  width : IntType.int32.Holds s.width
  height : IntType.int32.Holds s.height

/-- The plane that a rotation gives. -/
def turnedPlane (s : RgbaSource) (rotation : Rotation) : OwnedGrayscaleBuffer where
  width := if rotation ≠ .none then s.height else s.width
  height := if rotation ≠ .none then s.width else s.height
  pixels := (symmetry rotation).turned s.width.toNat s.height.toNat (grayAt s)

theorem destination_eq (s : RgbaSource) (rotation : Rotation) (p : Nat × Nat) :
    destination s rotation p.1 p.2 =
      (symmetry rotation).target s.width.toNat s.height.toNat p := by
  cases rotation <;> rfl

theorem width_eq (s : RgbaSource) (rotation : Rotation) :
    (if rotation ≠ .none then s.height else s.width).toNat =
      (symmetry rotation).width s.width.toNat s.height.toNat := by
  cases rotation <;> rfl

theorem height_eq (s : RgbaSource) (rotation : Rotation) :
    (if rotation ≠ .none then s.width else s.height).toNat =
      (symmetry rotation).height s.width.toNat s.height.toNat := by
  cases rotation <;> rfl

theorem IsImage.pos (himage : IsImage s) : 0 < s.width ∧ 0 < s.height := by
  have hvalid := himage.valid
  simp only [RgbaSource.isValid, Bool.and_eq_true, decide_eq_true_eq] at hvalid
  omega

/-- Any two dimensions of type `int` can be allocated. -/
theorem canAllocatePixels_of_int32 {width height : Int} (hw : 0 < width) (hh : 0 < height)
    (hwidth : IntType.int32.Holds width) (hheight : IntType.int32.Holds height) :
    canAllocatePixels width height = true := by
  have hproduct : width.toNat * height.toNat ≤ 2147483647 * 2147483647 :=
    Nat.mul_le_mul hwidth.toNat_le hheight.toNat_le
  have hquotient : width.toNat ≤ (2 ^ 64 - 1) / height.toNat := by
    rw [Nat.le_div_iff_mul_le (by omega)]
    omega
  simp only [canAllocatePixels, Bool.and_eq_true, decide_eq_true_eq]
  exact ⟨⟨hw, hh⟩, hquotient⟩

/-- The generic loop writes each place to where the rotation takes it. -/
theorem generic_eq (s : RgbaSource) (rotation : Rotation) :
    ((List.range s.height.toNat).foldl (fun output y =>
      (List.range s.width.toNat).foldl (fun output x =>
        let d := destination s rotation x y
        output.set (d.2 * (symmetry rotation).width s.width.toNat s.height.toNat + d.1)
          (panelGray s ((y * s.stridePixels.toNat + x) * 4))) output)
      (List.replicate ((symmetry rotation).width s.width.toNat s.height.toNat *
        (symmetry rotation).height s.width.toNat s.height.toNat) (0 : UInt8))) =
      (symmetry rotation).turned s.width.toNat s.height.toNat (grayAt s) := by
  rw [foldl_rows fun (output : List UInt8) x y =>
    let d := destination s rotation x y
    output.set (d.2 * (symmetry rotation).width s.width.toNat s.height.toNat + d.1)
      (panelGray s ((y * s.stridePixels.toNat + x) * 4))]
  simp only [destination_eq]
  exact (symmetry rotation).scatter_target (grayAt s) List.length_replicate

/-- The converted plane is the image's, turned. -/
theorem convertToGrayscale_eq (himage : IsImage s) (rotation : Rotation) :
    AndroidGrayscaleConverter.convertToGrayscale s rotation = some (turnedPlane s rotation) := by
  obtain ⟨hw, hh⟩ := himage.pos
  -- neither check refuses an image
  have hallocate : canAllocatePixels (if rotation ≠ .none then s.height else s.width)
      (if rotation ≠ .none then s.width else s.height) = true := by
    split
    · exact canAllocatePixels_of_int32 hh hw himage.height himage.width
    · exact canAllocatePixels_of_int32 hw hh himage.width himage.height
  unfold AndroidGrayscaleConverter.convertToGrayscale
  dsimp only
  rw [himage.valid, hallocate, width_eq, height_eq, generic_eq]
  rfl

/-- Row by row with pointers, or by offsets: the same bytes. -/
theorem convertRows_eq (s : RgbaSource) (output : List UInt8) :
    convertRows s s.layout output =
      (List.range s.height.toNat).foldl (fun output y =>
        (List.range s.width.toNat).foldl (fun output x =>
          output.set (y * s.width.toNat + x)
            (panelGray s ((y * s.stridePixels.toNat + x) * 4))) output) output := by
  have hoffset (x y : Nat) : y * s.stridePixels.toNat * 4 + x * 4 =
      (y * s.stridePixels.toNat + x) * 4 := by ring
  simp only [convertRows, hoffset]

/-- The device converts as the core library does. -/
theorem device_eq_core (s : RgbaSource) (rotation : Rotation) :
    convertToGrayscale s rotation = AndroidGrayscaleConverter.convertToGrayscale s rotation := by
  unfold convertToGrayscale AndroidGrayscaleConverter.convertToGrayscale
  by_cases hrotation : rotation = .none
  · -- the loop of each layout is the one loop at the image's layout
    subst hrotation
    have hrows (output : List UInt8) : (if s.layout = .rgba8888 then convertRows s .rgba8888 output
        else convertRows s .bgra8888 output) = convertRows s s.layout output := by
      cases s.layout <;> rfl
    simp only [hrows, convertRows_eq, if_pos]
    rfl
  · simp only [if_neg hrotation]

/-! ### Turning back -/

theorem getD_opaque (l : List UInt8) {n k : Nat} (hk : k < 3) :
    (l.flatMap fun value => [value, value, value, 255]).getD (n * 4 + k) 0 = l.getD n 0 := by
  induction l generalizing n with
  | nil => rfl
  | cons value l ih =>
    rw [List.flatMap_cons]
    cases n with
    | zero =>
      match k, hk with
      | 0, _ | 1, _ | 2, _ => rfl
    | succ n =>
      have hindex : (n + 1) * 4 + k = n * 4 + k + 4 := by omega
      rw [hindex]
      exact ih

/-- The three weights add up to 128, so a gray pixel has its own gray value. -/
theorem luma_opaque (value : UInt8) :
    UInt8.ofNat ((38 * value.toNat + 75 * value.toNat + 15 * value.toNat) >>> 7) = value := by
  have hsum : 38 * value.toNat + 75 * value.toNat + 15 * value.toNat = value.toNat * 128 := by omega
  rw [hsum, Nat.shiftRight_eq_div_pow, Nat.mul_div_cancel _ (by decide), UInt8.ofNat_toNat]

theorem grayAt_opaqueGray (b : OwnedGrayscaleBuffer) (p : Nat × Nat) :
    grayAt (opaqueGray b) p = b.pixels.getD (position b.width.toNat p) 0 &&& 0xf0 := by
  -- the three channels of a place are its gray value
  have hbyte (k : Nat) (hk : k < 3) := getD_opaque b.pixels (n := position b.width.toNat p) hk
  have hfirst := hbyte 0 (by decide)
  rw [Nat.add_zero] at hfirst
  change UInt8.ofNat ((38 * ((opaqueGray b).pixels.getD (position b.width.toNat p * 4) 0).toNat +
    75 * ((opaqueGray b).pixels.getD (position b.width.toNat p * 4 + 1) 0).toNat +
    15 * ((opaqueGray b).pixels.getD (position b.width.toNat p * 4 + 2) 0).toNat) >>> 7) &&&
      0xf0 = _
  unfold opaqueGray
  dsimp only
  rw [hfirst, hbyte 1 (by decide), hbyte 2 (by decide), luma_opaque]

theorem grayAt_panelGray (s : RgbaSource) (p : Nat × Nat) : grayAt s p &&& 0xf0 = grayAt s p := by
  rw [grayAt, panelGray, UInt8.and_assoc, UInt8.and_self]

theorem getD_turned (t : Symmetry) (value : Nat × Nat → UInt8) {p : Nat × Nat}
    (hp : Within (t.width w h) (t.height w h) p) :
    (t.turned w h value).getD (position (t.width w h) p) 0 = value (t.source w h p) := by
  rw [List.getD_eq_getElem?_getD, t.getElem?_turned value hp, Option.getD_some]

theorem isImage_opaqueGray (himage : IsImage s) (rotation : Rotation) :
    IsImage (opaqueGray (turnedPlane s rotation)) := by
  obtain ⟨hw, hh⟩ := himage.pos
  refine ⟨?_, ?_, ?_⟩
  · cases rotation <;> simp [RgbaSource.isValid, opaqueGray, turnedPlane, hw, hh]
  · simp only [opaqueGray, turnedPlane]
    split
    · exact himage.height
    · exact himage.width
  · simp only [opaqueGray, turnedPlane]
    split
    · exact himage.width
    · exact himage.height

/-- A clockwise plane, turned counter-clockwise, is the plane that is not turned. -/
theorem turnedPlane_counterClockwise (s : RgbaSource) :
    turnedPlane (opaqueGray (turnedPlane s .clockwise90)) .counterClockwise90 =
      turnedPlane s .none := by
  have hpixels : (symmetry .counterClockwise90).turned s.height.toNat s.width.toNat
      (grayAt (opaqueGray (turnedPlane s .clockwise90))) =
        (places s.width.toNat s.height.toNat).map (grayAt s) := by
    -- the counter-clockwise rotation reads where the clockwise one wrote
    rw [← (symmetry .clockwise90).inverse_turned (grayAt s)]
    refine Symmetry.turned_congr _ fun p hp => ?_
    rw [grayAt_opaqueGray]
    have hvalue := getD_turned (w := s.width.toNat) (h := s.height.toNat) (symmetry .clockwise90)
      (grayAt s) hp
    change ((symmetry .clockwise90).turned s.width.toNat s.height.toNat (grayAt s)).getD
      (position ((symmetry .clockwise90).width s.width.toNat s.height.toNat) p) 0 &&& 0xf0 = _
    rw [hvalue, grayAt_panelGray]
  unfold turnedPlane at hpixels ⊢
  exact congrArg (OwnedGrayscaleBuffer.mk s.width s.height) hpixels

/-! ### Rectangles -/

/-- The places of a rectangle. -/
def rectPlaces (r : Rect) : Set (Nat × Nat) :=
  {p | r.left ≤ p.1 ∧ p.1 < r.right ∧ r.top ≤ p.2 ∧ p.2 < r.bottom}

/-- A non-empty rectangle of an image. -/
structure IsDirtyRect (r : Rect) (width height : Int) : Prop where
  valid : r.isValid = true
  right : r.right ≤ width
  bottom : r.bottom ≤ height

theorem IsDirtyRect.bounds {r : Rect} {width height : Int} (h : IsDirtyRect r width height) :
    0 ≤ r.left ∧ r.left < r.right ∧ r.right ≤ width ∧
      0 ≤ r.top ∧ r.top < r.bottom ∧ r.bottom ≤ height := by
  have hvalid := h.valid
  have hright := h.right
  have hbottom := h.bottom
  simp only [Rect.isValid, Bool.and_eq_true, decide_eq_true_eq] at hvalid
  omega

theorem transformRect_eq {r : Rect} {width height : Int} (h : IsDirtyRect r width height)
    (rotation : Rotation) :
    transformRect r width height rotation =
      match rotation with
      | .none => r
      | .clockwise90 => ⟨height - r.bottom, r.left, height - r.top, r.right⟩
      | .counterClockwise90 => ⟨r.top, width - r.right, r.bottom, width - r.left⟩ := by
  have hbounds := h.bounds
  refine if_neg fun hno => ?_
  simp only [h.valid, Bool.not_true, Bool.false_or, Bool.or_eq_true, decide_eq_true_eq] at hno
  omega

theorem transformRect_of_not {r : Rect} {width height : Int} (h : ¬IsDirtyRect r width height)
    (rotation : Rotation) : transformRect r width height rotation = {} := by
  refine if_pos ?_
  by_contra hno
  simp only [Bool.or_eq_true, Bool.not_eq_true', decide_eq_true_eq, not_or, Bool.not_eq_false,
    not_le, not_lt, gt_iff_lt] at hno
  exact h ⟨hno.1.1.1.1, hno.1.2, hno.2⟩

/-- The transformed rectangle covers the places that the rectangle's pixels go to. -/
theorem rectPlaces_transformRect {r : Rect} (h : IsDirtyRect r s.width s.height)
    (rotation : Rotation) :
    rectPlaces (transformRect r s.width s.height rotation) =
      (fun q : Nat × Nat => destination s rotation q.1 q.2) '' rectPlaces r := by
  have hbounds := h.bounds
  rw [transformRect_eq h]
  ext p
  cases rotation with
  | none => simp [destination]
  | clockwise90 =>
    constructor
    · -- the pixel that comes here
      rintro ⟨hleft, hright, htop, hbottom⟩
      refine ⟨(p.2, s.height.toNat - 1 - p.1), ⟨?_, ?_, ?_, ?_⟩, Prod.ext ?_ rfl⟩
      all_goals dsimp only [destination] at *
      all_goals omega
    · rintro ⟨q, ⟨hleft, hright, htop, hbottom⟩, rfl⟩
      refine ⟨?_, ?_, ?_, ?_⟩
      all_goals dsimp only [destination] at *
      all_goals omega
  | counterClockwise90 =>
    constructor
    · rintro ⟨hleft, hright, htop, hbottom⟩
      refine ⟨(s.width.toNat - 1 - p.2, p.1), ⟨?_, ?_, ?_, ?_⟩, Prod.ext rfl ?_⟩
      all_goals dsimp only [destination] at *
      all_goals omega
    · rintro ⟨q, ⟨hleft, hright, htop, hbottom⟩, rfl⟩
      refine ⟨?_, ?_, ?_, ?_⟩
      all_goals dsimp only [destination] at *
      all_goals omega

theorem transformRect_counterClockwise {r : Rect} {width height : Int}
    (h : IsDirtyRect r width height) :
    transformRect (transformRect r width height .clockwise90) height width .counterClockwise90 =
      r := by
  obtain ⟨hleft, hwidth, hright, htop, hheight, hbottom⟩ := h.bounds
  -- the turned rectangle is one of the turned image, so it is not refused either
  have hturned : IsDirtyRect (transformRect r width height .clockwise90) height width := by
    rw [transformRect_eq h]
    refine ⟨?_, by dsimp only; omega, hright⟩
    simp only [Rect.isValid, Bool.and_eq_true, decide_eq_true_eq]
    omega
  rw [transformRect_eq hturned, transformRect_eq h]
  simp only [Int.sub_sub_self]

/-! ### The conversion as a whole -/

/-- The gray values of the image, each where the rotation takes it. -/
structure Converted (s : RgbaSource) (rotation : Rotation) (b : OwnedGrayscaleBuffer) : Prop where
  width : b.width = if rotation = .none then s.width else s.height
  height : b.height = if rotation = .none then s.height else s.width
  length : b.pixels.length = b.width.toNat * b.height.toNat
  pixel : ∀ x y : Nat, x < s.width → y < s.height →
    b.pixels[(destination s rotation x y).2 * b.width.toNat + (destination s rotation x y).1]? =
      some (grayAt s (x, y))
  perm : b.pixels.Perm ((places s.width.toNat s.height.toNat).map (grayAt s))

theorem converted_turnedPlane (s : RgbaSource) (rotation : Rotation) :
    Converted s rotation (turnedPlane s rotation) := by
  refine ⟨?_, ?_, ?_, fun x y hx hy => ?_, (symmetry rotation).turned_perm (grayAt s)⟩
  · cases rotation <;> rfl
  · cases rotation <;> rfl
  · dsimp only [turnedPlane]
    rw [width_eq, height_eq]
    exact (symmetry rotation).length_turned (grayAt s)
  · have hp : Within s.width.toNat s.height.toNat (x, y) := ⟨by omega, by omega⟩
    have hvalue := (symmetry rotation).getElem?_turned (grayAt s)
      ((symmetry rotation).within_target hp)
    rw [(symmetry rotation).source_target hp] at hvalue
    have hplace := destination_eq s rotation (x, y)
    dsimp only at hplace
    dsimp only [turnedPlane]
    rw [width_eq, hplace]
    exact hvalue

/-- **The conversion is exact**: the same bytes on every path, the gray values turned by the
rotation, dirty rectangles turned with them, and a counter-clockwise rotation undoes a clockwise
one. -/
theorem conversion_exact {s : RgbaSource} (himage : IsImage s) :
    (∀ rotation, ∃ b, convertToGrayscale s rotation = some b ∧
      AndroidGrayscaleConverter.convertToGrayscale s rotation = some b ∧ Converted s rotation b) ∧
    (∀ r rotation, (IsDirtyRect r s.width s.height →
        rectPlaces (transformRect r s.width s.height rotation) =
          (fun q : Nat × Nat => destination s rotation q.1 q.2) '' rectPlaces r) ∧
      (¬IsDirtyRect r s.width s.height → transformRect r s.width s.height rotation = {})) ∧
    (∀ b, convertToGrayscale s .clockwise90 = some b →
      convertToGrayscale (opaqueGray b) .counterClockwise90 = convertToGrayscale s .none) ∧
    ∀ r, IsDirtyRect r s.width s.height →
      transformRect (transformRect r s.width s.height .clockwise90) s.height s.width
        .counterClockwise90 = r := by
  have hconverted (rotation : Rotation) : convertToGrayscale s rotation =
      some (turnedPlane s rotation) :=
    (device_eq_core s rotation).trans (convertToGrayscale_eq himage rotation)
  refine ⟨fun rotation => ⟨turnedPlane s rotation, hconverted rotation,
    convertToGrayscale_eq himage rotation, converted_turnedPlane s rotation⟩,
    fun r rotation => ⟨fun h => rectPlaces_transformRect h rotation,
      fun h => transformRect_of_not h rotation⟩, fun b hb => ?_, fun r h =>
    transformRect_counterClockwise h⟩
  obtain rfl := Option.some_inj.mp ((hconverted .clockwise90).symm.trans hb)
  rw [device_eq_core, convertToGrayscale_eq (isImage_opaqueGray himage .clockwise90), hconverted,
    turnedPlane_counterClockwise]

/-- Two pixels in a row, with padding. -/
def paddedSource : RgbaSource where
  pixels := [255, 255, 255, 255, 128, 0, 0, 255, 1, 2, 3, 4]
  width := 2
  height := 1
  stridePixels := 3
  layout := .bgra8888

theorem conversion_exact_padded :
    (∃ b, convertToGrayscale paddedSource .clockwise90 = some b ∧ b.pixels.length = 2) ∧
      transformRect (transformRect ⟨0, 0, 1, 1⟩ 2 1 .clockwise90) 1 2 .counterClockwise90 =
        ⟨0, 0, 1, 1⟩ := by
  have himage : IsImage paddedSource := ⟨by decide, by decide, by decide⟩
  obtain ⟨hconverted, -, -, hrect⟩ := conversion_exact himage
  obtain ⟨b, hb, -, hexact⟩ := hconverted .clockwise90
  refine ⟨⟨b, hb, ?_⟩, hrect ⟨0, 0, 1, 1⟩ ⟨by decide, by decide, by decide⟩⟩
  rw [hexact.length, hexact.width, hexact.height]
  rfl

end EinkLab.SoftwareGrayscale
