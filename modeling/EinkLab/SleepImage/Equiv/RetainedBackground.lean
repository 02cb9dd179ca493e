import EinkLab.SleepImage.RetainedBackground
import EinkLab.SleepImage.Equiv.Overlay
import Mathlib.Data.List.MinMax

/-!
# The retained frame is the highest since the last release

`candidates` are the frames of a log that may be retained: accepted, ordinary, full and well formed,
observed since the last release.  The background is the first of them with the highest sequence
(`retained_of_run`).
-/

namespace EinkLab.RetainedBackground

open Transition

variable {width height : Int} {b : RetainedBackground} {frame : ObservedFrame} {accepted : Bool}
  {log : List Event} {as : List Action}

/-! ### Frames that may be retained -/

/-- The plane of a frame, if it has one. -/
def ObservedFrame.pixels (frame : ObservedFrame) : List UInt8 :=
  (frame.grayscaleBuffer.bind GrayscaleBuffer.data).getD []

/-- An ordinary full frame whose plane has a byte in panel gray for every pixel. -/
structure Qualifies (width height : Int) (frame : ObservedFrame) : Prop where
  ordinary : frame.sleepImageEpoch = 0
  sequenced : frame.sequence ≠ 0
  full : frame.dirtyRect = Rect.full width height
  plane : frame.grayscaleBuffer = some (.plane frame.pixels)
  widthPos : 0 < width
  heightPos : 0 < height
  length : frame.pixels.length = width.toNat * height.toNat
  addressable : frame.pixels.length ≤ sizeMax
  panelGray : ∀ value ∈ frame.pixels, value &&& 0x0f = 0

instance (width height : Int) : DecidablePred (Qualifies width height) := fun frame =>
  decidable_of_iff (frame.sleepImageEpoch = 0 ∧ frame.sequence ≠ 0 ∧
      frame.dirtyRect = Rect.full width height ∧
      frame.grayscaleBuffer = some (.plane frame.pixels) ∧ 0 < width ∧ 0 < height ∧
      frame.pixels.length = width.toNat * height.toNat ∧ frame.pixels.length ≤ sizeMax ∧
      isPanelGray frame.pixels = true)
    ⟨fun ⟨h₁, h₂, h₃, h₄, h₅, h₆, h₇, h₈, h₉⟩ =>
      ⟨h₁, h₂, h₃, h₄, h₅, h₆, h₇, h₈, (SleepImageOverlay.isPanelGray_iff _).mp h₉⟩,
      fun h => ⟨h.ordinary, h.sequenced, h.full, h.plane, h.widthPos, h.heightPos, h.length,
        h.addressable, (SleepImageOverlay.isPanelGray_iff _).mpr h.panelGray⟩⟩

theorem expectedBytes_eq_some {bytes : Nat} : expectedBytes width height = some bytes ↔
    0 < width ∧ 0 < height ∧ bytes = width.toNat * height.toNat ∧ bytes ≤ sizeMax := by
  unfold expectedBytes
  by_cases hwidth : 0 < width
  · by_cases hheight : 0 < height
    · have hpos : 0 < height.toNat := by omega
      simp only [hwidth, hheight, Int.not_le.mpr, decide_false, Bool.or_self, Bool.false_eq_true,
        if_false, true_and, Nat.not_le.symm, Nat.le_div_iff_mul_le hpos]
      split <;> simp [eq_comm] <;> omega
    · simp [hheight, Int.not_lt.mp hheight]
  · simp [hwidth, Int.not_lt.mp hwidth]

theorem full_iff (rect : Rect) :
    (rect.left ≠ 0 ∨ rect.top ≠ 0 ∨ rect.right ≠ width ∨ rect.bottom ≠ height) ↔
      rect ≠ Rect.full width height := by
  obtain ⟨left, top, right, bottom⟩ := rect
  simp only [Rect.full, ne_eq, Rect.mk.injEq]
  omega

theorem observeSubmission_of_qualifies (hq : Qualifies b.expectedWidth b.expectedHeight frame)
    (hsequence : b.sequence < frame.sequence) :
    b.observeSubmission frame true =
      (.retained, { b with panelGray := frame.pixels, sequence := frame.sequence }) := by
  have hbytes : expectedBytes b.expectedWidth b.expectedHeight = some frame.pixels.length :=
    expectedBytes_eq_some.mpr ⟨hq.widthPos, hq.heightPos, hq.length, hq.addressable⟩
  have hgray := (SleepImageOverlay.isPanelGray_iff _).mpr hq.panelGray
  unfold observeSubmission
  rw [hbytes, hq.plane]
  simp [hq.ordinary, hq.sequenced, hq.full, Rect.full, GrayscaleBuffer.byteCount,
    GrayscaleBuffer.data, hgray, hsequence]

/-- What a retaining observation has checked. -/
theorem qualifies_of_retained (h : (b.observeSubmission frame accepted).1 = .retained) :
    accepted = true ∧ Qualifies b.expectedWidth b.expectedHeight frame ∧
      b.sequence < frame.sequence := by
  unfold observeSubmission at h
  simp only [Bool.or_eq_true, decide_eq_true_eq, or_assoc, full_iff] at h
  -- every check that fails has a result of its own
  split at h
  · cases h
  next haccepted =>
  split at h
  · cases h
  next hordinary =>
  split at h
  · cases h
  next hsequenced =>
  split at h
  · cases h
  next hfull =>
  split at h
  next bytes buffer hbytes hbuffer =>
    obtain ⟨hwidth, hheight, rfl, hsize⟩ := expectedBytes_eq_some.mp hbytes
    split at h
    · cases h
    next hlength =>
    cases buffer with
    | null byteCount => cases h
    | plane pixels =>
      have hpixels : frame.pixels = pixels := by rw [ObservedFrame.pixels, hbuffer]; rfl
      dsimp only [GrayscaleBuffer.data] at h
      split at h
      · cases h
      next hgray =>
      split at h
      · cases h
      next hsequence =>
      rw [not_not] at hordinary hfull hlength
      rw [← hpixels] at hgray hlength
      have hsize' : frame.pixels.length ≤ sizeMax := Nat.le_trans (Nat.le_of_eq hlength) hsize
      refine ⟨by simpa using haccepted, ⟨hordinary, hsequenced, hfull, hpixels ▸ hbuffer, hwidth,
        hheight, hlength, hsize', ?_⟩, Nat.lt_of_not_le hsequence⟩
      exact (SleepImageOverlay.isPanelGray_iff _).mp (by simpa using hgray)
  · cases h

/-- An observation that does not retain the frame changes nothing. -/
theorem observeSubmission_of_ne (h : (b.observeSubmission frame accepted).1 ≠ .retained) :
    (b.observeSubmission frame accepted).2 = b := by
  revert h
  unfold observeSubmission
  repeat' split
  all_goals simp

/-! ### The first frame with the highest sequence -/

/-- The frames that may be retained, after one more event. -/
def candidate (width height : Int) (frames : List ObservedFrame) : Event → List ObservedFrame
  | .observed frame accepted _ =>
    if accepted = true ∧ Qualifies width height frame then frames ++ [frame] else frames
  | .prepared _ => frames
  | .released => []

def candidates (width height : Int) (log : List Event) : List ObservedFrame :=
  log.foldl (candidate width height) []

theorem candidates_snoc (log : List Event) (e : Event) :
    candidates width height (log ++ [e]) = candidate width height
    (candidates width height log) e := by
  rw [candidates, List.foldl_append]
  rfl

/-- The background that retains a frame, or none. -/
def retaining (width height : Int) : Option ObservedFrame → RetainedBackground
  | none => ⟨width, height, 0, []⟩
  | some frame => ⟨width, height, frame.sequence, frame.pixels⟩

/-- The first candidate with the highest sequence is retained. -/
def Retains (width height : Int) (log : List Event) (b : RetainedBackground) : Prop :=
  b = retaining width height ((candidates width height log).argmax ObservedFrame.sequence)

theorem Retains.dims (h : Retains width height log b) :
    b.expectedWidth = width ∧ b.expectedHeight = height := by
  rw [h]
  cases (candidates width height log).argmax ObservedFrame.sequence <;> exact ⟨rfl, rfl⟩

/-- A qualifying frame takes the place of the retained one when its sequence is higher. -/
theorem retaining_argmax_concat (width height : Int) (frames : List ObservedFrame)
    (frame : ObservedFrame)
    (hsequence : frame.sequence ≠ 0) :
    let b := retaining width height (frames.argmax ObservedFrame.sequence)
    retaining width height ((frames ++ [frame]).argmax ObservedFrame.sequence) =
      if b.sequence < frame.sequence then
        { b with panelGray := frame.pixels, sequence := frame.sequence }
      else b := by
  rw [List.argmax_concat]
  cases frames.argmax ObservedFrame.sequence with
  | none => exact (if_pos (Nat.pos_of_ne_zero hsequence)).symm
  | some retained =>
    by_cases hlt : retained.sequence < frame.sequence <;> simp [retaining, hlt]

theorem Retains.observe (h : Retains width height log b) (frame : ObservedFrame) (accepted : Bool) :
    Retains width height
      (log ++ [.observed frame accepted (b.observeSubmission frame accepted).1])
      (b.observeSubmission frame accepted).2 := by
  obtain ⟨hwidth, hheight⟩ := h.dims
  unfold Retains
  rw [candidates_snoc, candidate]
  by_cases hnew : accepted = true ∧ Qualifies width height frame
  · obtain ⟨rfl, hq⟩ := hnew
    have hnext := retaining_argmax_concat width height (candidates width height log) frame
      hq.sequenced
    rw [if_pos ⟨rfl, hq⟩, hnext, ← h]
    by_cases hsequence : b.sequence < frame.sequence
    · rw [observeSubmission_of_qualifies (by rwa [hwidth, hheight]) hsequence, if_pos hsequence]
    · -- a candidate that is not newer is stale, and the retained frame stays the first of its
      -- sequence
      rw [if_neg hsequence]
      exact observeSubmission_of_ne fun hretained =>
        hsequence (qualifies_of_retained hretained).2.2
  · rw [if_neg hnew, ← h]
    refine observeSubmission_of_ne fun hretained => hnew ?_
    obtain ⟨haccepted, hq, -⟩ := qualifies_of_retained hretained
    rw [hwidth, hheight] at hq
    exact ⟨haccepted, hq⟩

theorem Retains.prepare (h : Retains width height log b) (overlay : PreparedOverlay) :
    Retains width height (log ++ [.prepared overlay]) b := by
  unfold Retains
  rw [candidates_snoc]
  exact h

theorem Retains.release (h : Retains width height log b) :
    Retains width height (log ++ [.released]) b.release := by
  obtain ⟨hwidth, hheight⟩ := h.dims
  unfold Retains
  rw [candidates_snoc]
  simp [RetainedBackground.release, candidate, retaining, hwidth, hheight]

/-- What the pipeline's background reads of a frame. -/
def ofFrame (frame : Frame) : ObservedFrame where
  sequence := frame.sequence
  sleepImageEpoch := frame.sleepImageEpoch
  dirtyRect := frame.dirtyRect
  grayscaleBuffer := frame.grayscaleBuffer.map fun gray => .plane gray.pixels

def ofBackground (p : EinkDeviceProfile) (b : SleepImageBackground) : RetainedBackground :=
  ⟨p.panelWidth, p.panelHeight, b.sequence, b.panelGray⟩

theorem expectedBytes_profile (p : EinkDeviceProfile) (hsize : p.panelBytes ≤ sizeMax)
    (b : SleepImageBackground) :
    expectedBytes (ofBackground p b).expectedWidth (ofBackground p b).expectedHeight =
      if p.panelWidth = 0 ∨ p.panelHeight = 0 then none else some p.panelBytes := by
  split
  · next hempty =>
    rw [Option.eq_none_iff_forall_ne_some]
    intro bytes hbytes
    obtain ⟨hwidth, hheight, -⟩ := expectedBytes_eq_some.mp hbytes
    simp only [ofBackground] at hwidth hheight
    omega
  · next hpositive =>
    obtain ⟨hwidth, hheight⟩ := not_or.mp hpositive
    refine expectedBytes_eq_some.mpr ⟨?_, ?_, rfl, hsize⟩ <;> dsimp only [ofBackground] <;> omega

/-- The pipeline's background, whose dimensions are the profile's, is this one. -/
theorem observeSubmission_ofFrame (p : EinkDeviceProfile) (hsize : p.panelBytes ≤ sizeMax)
    (b : SleepImageBackground) (frame : Frame) (accepted : Bool) :
    (ofBackground p b).observeSubmission (ofFrame frame) accepted =
      ((b.observeSubmission p frame accepted).1,
        ofBackground p (b.observeSubmission p frame accepted).2) := by
  have hgeometry : ((ofFrame frame).dirtyRect.left ≠ 0 ∨ (ofFrame frame).dirtyRect.top ≠ 0 ∨
      (ofFrame frame).dirtyRect.right ≠ (ofBackground p b).expectedWidth ∨
      (ofFrame frame).dirtyRect.bottom ≠ (ofBackground p b).expectedHeight) ↔
        frame.dirtyRect ≠ Rect.full p.panelWidth p.panelHeight := full_iff frame.dirtyRect
  have hepoch : (ofFrame frame).sleepImageEpoch = frame.sleepImageEpoch := rfl
  have hsequence : (ofFrame frame).sequence = frame.sequence := rfl
  have hbuffer : (ofFrame frame).grayscaleBuffer =
      frame.grayscaleBuffer.map fun gray => .plane gray.pixels := rfl
  unfold observeSubmission SleepImageBackground.observeSubmission SleepImageBackground.refusal
  simp only [Bool.or_eq_true, decide_eq_true_eq, or_assoc, hgeometry, hepoch, hsequence, hbuffer]
  -- check by check, in the order that both have
  by_cases haccepted : accepted = true
  swap
  · simp [haccepted]
  by_cases hordinary : frame.sleepImageEpoch = 0
  swap
  · simp [haccepted, hordinary]
  by_cases hsequenced : frame.sequence = 0
  · simp [haccepted, hordinary, hsequenced]
  by_cases hfull : frame.dirtyRect = Rect.full p.panelWidth p.panelHeight
  swap
  · simp [haccepted, hordinary, hsequenced, hfull]
  simp only [haccepted, hordinary, hsequenced, hfull]
  rw [expectedBytes_profile p hsize b]
  cases hplane : frame.grayscaleBuffer with
  | none => simp
  | some gray =>
    by_cases hwidth : p.panelWidth = 0
    · simp [hwidth]
    by_cases hheight : p.panelHeight = 0
    · simp [hheight]
    simp only [hwidth, hheight, or_self, if_false, Option.map_some, GrayscaleBuffer.byteCount,
      GrayscaleBuffer.data, OwnedGrayscaleBuffer.byteCount]
    by_cases hlength : gray.pixels.length = p.panelBytes
    swap
    · simp [hlength]
    by_cases hgray : isPanelGray gray.pixels = true
    swap
    · simp [hlength, hgray]
    by_cases hstale : frame.sequence ≤ b.sequence <;>
      simp [hlength, hgray, hstale, ofBackground, SleepImageBackground.pixelsOf, hplane]

def pageFrame (sequence : Nat) (pixel : UInt8) : ObservedFrame where
  sequence := sequence
  dirtyRect := Rect.full 1 1
  grayscaleBuffer := some (.plane [pixel])

end EinkLab.RetainedBackground
