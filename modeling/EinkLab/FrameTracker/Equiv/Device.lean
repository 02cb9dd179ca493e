import EinkLab.FrameTracker.Device
import EinkLab.FrameTracker.Equiv.Tracker

/-!
# The device trackers are counters of versions

The RGB tracker of the device library is the core tracker with limits that a mapped buffer meets
(`update_eq_core`), so it answers as the abstract counter does (`update_of_image`).  The grayscale
tracker does the same for planes (`update_of_plane`).
-/

namespace EinkLab

open Transition Versions RowMajor AndroidGrayscaleConverter

/-! ### Colors -/

namespace DeviceRgbFrameTracker

variable {maxSize : Nat} {t : DeviceRgbFrameTracker} {source : RgbaSource}

/-- The image as the core tracker takes it. -/
def coreSource (source : RgbaSource) : RgbFrameTracker.RgbaSource where
  pixels := some source.pixels
  width := source.width
  height := source.height
  stridePixels := source.stridePixels
  layout := some source.layout

/-- The core tracker with the same pixels. -/
def core (maxSize : Nat) (t : DeviceRgbFrameTracker) : RgbFrameTracker where
  maxPixels := maxSize
  previous := t.previous
  width := t.width
  height := t.height
  generation := t.generation

/-- The bytes from the first pixel to the last. -/
def requiredBytes (source : RgbaSource) : Nat :=
  (source.height.toNat - 1) * (source.stridePixels.toNat * 4) + source.width.toNat * 4

/-- The device tracker is the core tracker on memory that is large enough. -/
theorem update_eq_core (maxSize : Nat) (t : DeviceRgbFrameTracker) (source : RgbaSource) :
    (t.core maxSize).update maxSize (coreSource source) (requiredBytes source) =
      ((t.update maxSize source).1, (t.update maxSize source).2.core maxSize) := by
  have hvalid : (coreSource source).isValid = source.isValid := by
    simp [RgbFrameTracker.RgbaSource.isValid, RgbaSource.isValid, coreSource]
  unfold RgbFrameTracker.update update
  rw [hvalid]
  cases source.isValid with
  | false => rfl
  | true =>
    -- one limit stands for both, and no byte is missing
    simp only [coreSource, core, requiredBytes, Bool.or_self, Bool.not_true, Bool.false_eq_true,
      if_false, gt_iff_lt, lt_irrefl]
    split
    · rfl
    · rfl

/-- An image that the tracker's vector and the address space hold. -/
structure Fits (maxSize : Nat) (source : RgbaSource) : Prop where
  storable : source.width.toNat * source.height.toNat ≤ maxSize
  addressable : source.stridePixels.toNat * 4 * source.height.toNat ≤ sizeMax

theorem accepts_of_fits (h : Fits maxSize source) (hvalid : source.isValid = true) :
    RgbFrameTracker.Accepts maxSize maxSize (coreSource source) (requiredBytes source) := by
  simp only [RgbaSource.isValid, Bool.and_eq_true, decide_eq_true_eq] at hvalid
  obtain ⟨⟨hwidth, hheight⟩, hstride⟩ := hvalid
  refine ⟨Option.some_ne_none _, Option.some_ne_none _, hwidth, hheight, hstride, h.storable,
    h.storable, h.addressable, ?_⟩
  exact Nat.le_of_eq (RgbFrameTracker.required_eq (coreSource source)).symm

/-- What the tracker remembers, if anything. -/
def last (t : DeviceRgbFrameTracker) : Option (Int × Int × List UInt32) := (t.core 0).last

def WellFormed (t : DeviceRgbFrameTracker) : Prop := (t.core 0).WellFormed

/-- An image that fits is answered as the abstract counter answers its content. -/
theorem update_of_image (ht : t.WellFormed) (h : Fits maxSize source)
    (hvalid : source.isValid = true) (hcount : t.generation + 1 < 2 ^ 64) :
    let content := (coreSource source).content
    t.update maxSize source = (answer t.last t.generation content,
      ⟨content.2.2, source.width, source.height, answer t.last t.generation content⟩) := by
  have hcore : (t.core maxSize).update maxSize (coreSource source) (requiredBytes source) = _ :=
    RgbFrameTracker.update_of_accepts (t := t.core maxSize) ht (accepts_of_fits h hvalid) hcount
  rw [update_eq_core, Prod.mk.injEq] at hcore
  obtain ⟨hsignature, htracker⟩ := hcore
  refine Prod.ext hsignature ?_
  -- the core tracker has the fields of the device tracker, and the limit
  have hprevious := congrArg RgbFrameTracker.previous htracker
  have hwidth := congrArg RgbFrameTracker.width htracker
  have hheight := congrArg RgbFrameTracker.height htracker
  have hgeneration := congrArg RgbFrameTracker.generation htracker
  cases hresult : (t.update maxSize source).2 with
  | mk previous width height generation =>
    rw [hresult] at hprevious hwidth hheight hgeneration
    exact DeviceRgbFrameTracker.mk.injEq .. |>.mpr ⟨hprevious, hwidth, hheight, hgeneration⟩

/-- The tracker after an image remembers it. -/
theorem last_of_image (h : Fits maxSize source) (hvalid : source.isValid = true)
    (generation : Nat) :
    let t' : DeviceRgbFrameTracker :=
      ⟨(coreSource source).content.2.2, source.width, source.height, generation⟩
    t'.last = some (coreSource source).content ∧ t'.WellFormed := by
  have hwidth : source.width ≠ 0 := by
    have := (accepts_of_fits h hvalid).width
    intro hzero
    simp only [coreSource, hzero, lt_irrefl] at this
  refine ⟨if_neg hwidth, ?_⟩
  simp [WellFormed, RgbFrameTracker.WellFormed, core, RgbFrameTracker.RgbaSource.content,
    coreSource, length_places]

end DeviceRgbFrameTracker

/-! ### Planes -/

/-- A plane whose bytes are its pixels. -/
structure OwnedGrayscaleBuffer.WellFormed (b : OwnedGrayscaleBuffer) : Prop where
  width : 0 < b.width
  height : 0 < b.height
  addressable : b.width.toNat * b.height.toNat ≤ sizeMax
  length : b.pixels.length = b.width.toNat * b.height.toNat

namespace GrayscaleFrameTracker

variable {t : GrayscaleFrameTracker} {frame : OwnedGrayscaleBuffer}

/-- What the tracker remembers, if anything. -/
def last (t : GrayscaleFrameTracker) : Option OwnedGrayscaleBuffer :=
  if t.width = 0 then none else some ⟨t.width, t.height, t.previous⟩

/-- A plane is answered as the abstract counter answers it. -/
theorem update_of_plane (h : frame.WellFormed) (hcount : t.generation + 1 < 2 ^ 64) :
    t.update frame = (answer t.last t.generation frame,
      ⟨frame.pixels, frame.width, frame.height, answer t.last t.generation frame⟩) := by
  have hwidth := h.width
  have hheight := h.height
  have hquotient : ¬frame.width.toNat > sizeMax / frame.height.toNat := by
    rw [gt_iff_lt, Nat.not_lt, Nat.le_div_iff_mul_le (by omega)]
    exact h.addressable
  have haccepts : (frame.width ≤ 0 || frame.height ≤ 0 ||
      frame.width.toNat > sizeMax / frame.height.toNat ||
      frame.byteCount ≠ frame.width.toNat * frame.height.toNat) = false := by
    simp only [Bool.or_eq_false_iff, decide_eq_false_iff_not]
    exact ⟨⟨⟨by omega, by omega⟩, hquotient⟩, not_not.mpr h.length⟩
  -- the test of `Update` decides whether the plane is the one remembered
  have hsame : ¬(t.width ≠ frame.width ∨ t.height ≠ frame.height ∨ t.previous ≠ frame.pixels) ↔
      t.last = some frame := by
    rw [not_or, not_or, not_not, not_not, not_not, last]
    by_cases hnone : t.width = 0
    · rw [if_pos hnone]
      constructor
      · rintro ⟨heq, -⟩
        omega
      · rintro ⟨⟩
    · rw [if_neg hnone, Option.some_inj]
      cases frame
      simp
  unfold update answer
  rw [haccepts, if_neg Bool.false_ne_true]
  by_cases hlast : t.last = some frame
  · obtain ⟨hw, hh, hp⟩ := by simpa only [not_or, not_not] using hsame.mpr hlast
    have hbool : (t.width ≠ frame.width || t.height ≠ frame.height || t.previous ≠ frame.pixels) =
        false := by
      simp [hw, hh, hp]
    rw [hbool, if_neg Bool.false_ne_true, if_pos hlast, ← hw, ← hh, ← hp]
  · have hchanged := not_not.mp fun hno => hlast (hsame.mp hno)
    have hbool : (t.width ≠ frame.width || t.height ≠ frame.height || t.previous ≠ frame.pixels) =
        true := by
      simpa only [Bool.or_eq_true, decide_eq_true_eq, or_assoc] using hchanged
    rw [if_pos hbool, if_neg hlast, RgbFrameTracker.nextGeneration_of_lt hcount]

theorem last_of_plane (h : frame.WellFormed) (generation : Nat) :
    last ⟨frame.pixels, frame.width, frame.height, generation⟩ = some frame := by
  have hwidth := h.width
  have hne : frame.width ≠ 0 := by omega
  exact if_neg hne

end GrayscaleFrameTracker

end EinkLab
