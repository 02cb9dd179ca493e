import EinkLab.Arithmetic.Checked
import EinkLab.Grayscale.Delta
import EinkLab.Plane.Bounds
import EinkLab.Plane.RowMajor
import Mathlib.Data.Finset.Prod
import Mathlib.Data.List.MinMax

/-!
# What a delta says of its planes

Both loops are folds over the changed places in storage order (`measure_eq`, `compare_eq`), so their
counts are counts of pixels and their boxes are tight around the changed ones.
-/

namespace EinkLab.GrayscaleDelta

open RowMajor

variable {previous current : List UInt8} {width height : Nat}

/-! ### Changed pixels -/

def Changed (previous current : List UInt8) (width : Nat) (p : Nat × Nat) : Prop :=
  previous.getD (position width p) 0 ≠ current.getD (position width p) 0

def Lighter (previous current : List UInt8) (width : Nat) (p : Nat × Nat) : Prop :=
  current.getD (position width p) 0 > previous.getD (position width p) 0

def Darker (previous current : List UInt8) (width : Nat) (p : Nat × Nat) : Prop :=
  current.getD (position width p) 0 < previous.getD (position width p) 0

instance (previous current : List UInt8) (width : Nat) :
    DecidablePred (Changed previous current width) :=
  fun _ => inferInstanceAs (Decidable (_ ≠ _))

instance (previous current : List UInt8) (width : Nat) :
    DecidablePred (Lighter previous current width) :=
  fun _ => inferInstanceAs (Decidable (_ < _))

instance (previous current : List UInt8) (width : Nat) :
    DecidablePred (Darker previous current width) :=
  fun _ => inferInstanceAs (Decidable (_ < _))

/-- The places of the plane that satisfy `q`. -/
def pixels (width height : Nat) (q : Nat × Nat → Prop) [DecidablePred q] : Finset (Nat × Nat) :=
  (Finset.range width ×ˢ Finset.range height).filter q

theorem mem_pixels {q : Nat × Nat → Prop} [DecidablePred q] {p : Nat × Nat} :
    p ∈ pixels width height q ↔ Within width height p ∧ q p := by
  simp [pixels, Within]

theorem changed_iff (p : Nat × Nat) : Changed previous current width p ↔
    Lighter previous current width p ∨ Darker previous current width p := by
  simp only [Changed, Lighter, Darker, ← UInt8.toNat_inj, gt_iff_lt, UInt8.lt_iff_toNat_lt, ne_eq]
  omega

theorem not_darker_of_lighter {p : Nat × Nat} (h : Lighter previous current width p) :
    ¬Darker previous current width p := by
  simp only [Lighter, Darker, gt_iff_lt, UInt8.lt_iff_toNat_lt] at h ⊢
  omega

/-- A place is counted once. -/
theorem countP_places (q : Nat × Nat → Prop) [DecidablePred q] :
    (places width height).countP q = (pixels width height q).card := by
  have hset : ((places width height).filter q).toFinset = pixels width height q := by
    ext p
    simp [mem_pixels, mem_places]
  rw [List.countP_eq_length_filter, ← hset,
    List.toFinset_card_of_nodup ((nodup_places width height).filter _)]

/-- What changed became lighter or darker. -/
theorem changed_eq_union (previous current : List UInt8) (width height : Nat) :
    pixels width height (Changed previous current width) =
      pixels width height (Lighter previous current width) ∪
        pixels width height (Darker previous current width) := by
  ext p
  simp only [Finset.mem_union, mem_pixels, changed_iff, and_or_left]

theorem disjoint_lighter_darker (previous current : List UInt8) (width height : Nat) :
    Disjoint (pixels width height (Lighter previous current width))
      (pixels width height (Darker previous current width)) := by
  refine Finset.disjoint_left.mpr fun p hp hp' => ?_
  exact not_darker_of_lighter (mem_pixels.mp hp).2 (mem_pixels.mp hp').2

theorem card_changed (previous current : List UInt8) (width height : Nat) :
    (pixels width height (Changed previous current width)).card =
      (pixels width height (Lighter previous current width)).card +
        (pixels width height (Darker previous current width)).card := by
  rw [changed_eq_union, Finset.card_union_of_disjoint (disjoint_lighter_darker _ _ _ _)]

/-- The changed places in storage order. -/
def changedPlaces (previous current : List UInt8) (width height : Nat) : List (Nat × Nat) :=
  (places width height).filter fun p => Changed previous current width p

theorem mem_changedPlaces {p : Nat × Nat} : p ∈ changedPlaces previous current width height ↔
    p ∈ pixels width height (Changed previous current width) := by
  rw [changedPlaces, List.mem_filter, mem_places, mem_pixels, decide_eq_true_eq]

theorem length_changedPlaces : (changedPlaces previous current width height).length =
    (pixels width height (Changed previous current width)).card := by
  rw [← countP_places, List.countP_eq_length_filter]
  rfl

theorem countP_lighter : (changedPlaces previous current width height).countP
    (fun p => Lighter previous current width p) =
      (pixels width height (Lighter previous current width)).card := by
  rw [changedPlaces, List.countP_filter, ← countP_places]
  refine List.countP_congr fun p _ => ?_
  simp only [Bool.and_eq_true, decide_eq_true_eq, changed_iff]
  exact ⟨And.left, fun hlighter => ⟨hlighter, Or.inl hlighter⟩⟩

theorem countP_darker : (changedPlaces previous current width height).countP
    (fun p => ¬Lighter previous current width p) =
      (pixels width height (Darker previous current width)).card := by
  rw [changedPlaces, List.countP_filter, ← countP_places]
  refine List.countP_congr fun p _ => ?_
  simp only [decide_not, Bool.and_eq_true, Bool.not_eq_true', decide_eq_false_iff_not,
    decide_eq_true_eq, changed_iff]
  constructor
  · rintro ⟨hno, hlighter | hdarker⟩
    · exact absurd hlighter hno
    · exact hdarker
  · exact fun hdarker => ⟨fun hlighter => not_darker_of_lighter hlighter hdarker, Or.inr hdarker⟩

/-! ### The loop of the delta -/

def box (delta : GrayscaleDelta) : Box := ⟨delta.left, delta.top, delta.right, delta.bottom⟩

/-- What a changed place adds. -/
def accumulate (previous current : List UInt8) (width : Nat) (delta : GrayscaleDelta)
    (p : Nat × Nat) : GrayscaleDelta where
  changedPixels := delta.changedPixels + 1
  lighterPixels := delta.lighterPixels + if Lighter previous current width p then 1 else 0
  darkerPixels := delta.darkerPixels + if Lighter previous current width p then 0 else 1
  totalPixels := delta.totalPixels
  left := (delta.box.cover p).left
  top := (delta.box.cover p).top
  right := (delta.box.cover p).right
  bottom := (delta.box.cover p).bottom

theorem measureStep_position (delta : GrayscaleDelta) {p : Nat × Nat} (hp : p.1 < width) :
    measureStep previous current width delta (position width p) =
      if Changed previous current width p then accumulate previous current width delta p
      else delta := by
  have hplace := place_position hp
  have hx : position width p % width = p.1 := congrArg Prod.fst hplace
  have hy : position width p / width = p.2 := congrArg Prod.snd hplace
  unfold measureStep
  by_cases hsame : previous.getD (position width p) 0 = current.getD (position width p) 0
  · have hno : ¬Changed previous current width p := fun hchanged => hchanged hsame
    rw [if_pos hsame, if_neg hno]
  · have hchanged : Changed previous current width p := hsame
    rw [if_neg hsame, if_pos hchanged, hx, hy]
    by_cases hlighter : Lighter previous current width p
    · have hgt : current.getD (position width p) 0 > previous.getD (position width p) 0 := hlighter
      simp only [accumulate, if_pos hgt, if_pos hlighter]
      rfl
    · have hle : ¬current.getD (position width p) 0 > previous.getD (position width p) 0 := hlighter
      simp only [accumulate, if_neg hle, if_neg hlighter]
      rfl

theorem foldl_accumulate (previous current : List UInt8) (width : Nat) (l : List (Nat × Nat))
    (delta : GrayscaleDelta) :
    let result := l.foldl (accumulate previous current width) delta
    result.changedPixels = delta.changedPixels + l.length ∧
      result.lighterPixels = delta.lighterPixels +
        l.countP (fun p => Lighter previous current width p) ∧
      result.darkerPixels = delta.darkerPixels +
        l.countP (fun p => ¬Lighter previous current width p) ∧
      result.totalPixels = delta.totalPixels ∧ result.box = l.foldl Box.cover delta.box := by
  induction l generalizing delta with
  | nil => exact ⟨rfl, rfl, rfl, rfl, rfl⟩
  | cons p l ih =>
    obtain ⟨hchanged, hlighter, hdarker, htotal, hbox⟩ :=
      ih (accumulate previous current width delta p)
    refine ⟨hchanged.trans ?_, hlighter.trans ?_, hdarker.trans ?_, htotal, hbox⟩
    · rw [List.length_cons]
      simp only [accumulate]
      omega
    · rw [List.countP_cons]
      by_cases hp : Lighter previous current width p
      · simp [accumulate, hp]
        omega
      · simp [accumulate, hp]
    · rw [List.countP_cons]
      by_cases hp : Lighter previous current width p
      · simp [accumulate, hp]
      · simp [accumulate, hp]
        omega

/-- The loop runs over the changed places. -/
theorem measureLoop_eq (delta : GrayscaleDelta) :
    (List.range (width * height)).foldl (measureStep previous current width) delta =
      (changedPlaces previous current width height).foldl (accumulate previous current width)
        delta := by
  -- the index of the loop is the position of a place
  have hplaces : (List.range (width * height)).foldl (measureStep previous current width) delta =
      (places width height).foldl (fun delta p =>
        measureStep previous current width delta (position width p)) delta := by
    rw [places, List.foldl_map]
    simp only [position_place]
  rw [hplaces, changedPlaces, List.foldl_filter]
  refine List.foldl_ext _ _ _ fun delta p hp => ?_
  rw [measureStep_position delta (mem_places.mp hp).1]
  simp

/-- The counts and the box that the loop leaves. -/
theorem measure_eq (previous current : List UInt8) {bytes : Nat} {width height : Int}
    (hwidth : 0 < width) (hheight : 0 < height)
    (hbytes : width.toNat * height.toNat = bytes) (hsize : bytes ≤ sizeMax) :
    ∃ delta, measureGrayscaleDelta (some previous) (some current) bytes width height = some delta ∧
      delta.changedPixels =
        (pixels width.toNat height.toNat (Changed previous current width.toNat)).card ∧
      delta.lighterPixels =
        (pixels width.toNat height.toNat (Lighter previous current width.toNat)).card ∧
      delta.darkerPixels =
        (pixels width.toNat height.toNat (Darker previous current width.toNat)).card ∧
      delta.totalPixels = bytes ∧
      delta.box =
        if delta.changedPixels = 0 then ⟨0, 0, 0, 0⟩
        else (changedPlaces previous current width.toNat height.toNat).foldl Box.cover
          ⟨width, height, 0, 0⟩ := by
  have hpos : 0 < height.toNat := by omega
  have hfits : ¬width.toNat > sizeMax / height.toNat := by
    rw [Nat.not_lt, Nat.le_div_iff_mul_le hpos, hbytes]
    exact hsize
  obtain ⟨hchanged, hlighter, hdarker, htotal, hbox⟩ := foldl_accumulate previous current
    width.toNat (changedPlaces previous current width.toNat height.toNat)
    { totalPixels := bytes, left := width, top := height }
  rw [← measureLoop_eq, hbytes] at hchanged hlighter hdarker htotal hbox
  rw [Nat.zero_add, length_changedPlaces] at hchanged
  rw [Nat.zero_add, countP_lighter] at hlighter
  rw [Nat.zero_add, countP_darker] at hdarker
  simp only [measureGrayscaleDelta, Int.not_le.mpr hwidth, Int.not_le.mpr hheight, decide_false,
    Bool.or_self, Bool.false_eq_true, if_false, hfits, hbytes, ne_eq, not_true_eq_false]
  generalize (List.range bytes).foldl (measureStep previous current width.toNat)
    { totalPixels := bytes, left := width, top := height } = delta
    at hchanged hlighter hdarker htotal hbox
  -- a delta without a changed pixel gives up the box it started with
  by_cases hzero : delta.changedPixels = 0
  · rw [if_pos hzero]
    exact ⟨_, rfl, hchanged, hlighter, hdarker, htotal, (if_pos hzero).symm⟩
  · rw [if_neg hzero]
    exact ⟨_, rfl, hchanged, hlighter, hdarker, htotal, hbox.trans (if_neg hzero).symm⟩

/-! ### The loop of the comparison -/

def fidelityBox (s : FidelityAccumulators) : Box := ⟨s.minX, s.minY, s.maxX + 1, s.maxY + 1⟩

/-- What a differing place adds. -/
def differ (s : FidelityAccumulators) (p : Nat × Nat) : FidelityAccumulators where
  differingPixels := s.differingPixels + 1
  minX := min s.minX p.1
  minY := min s.minY p.2
  maxX := max s.maxX p.1
  maxY := max s.maxY p.2

theorem foldl_differ (l : List (Nat × Nat)) (s : FidelityAccumulators) :
    (l.foldl differ s).differingPixels = s.differingPixels + l.length ∧
      fidelityBox (l.foldl differ s) = l.foldl Box.cover (fidelityBox s) := by
  induction l generalizing s with
  | nil => exact ⟨rfl, rfl⟩
  | cons p l ih =>
    obtain ⟨hcount, hbox⟩ := ih (differ s p)
    -- the comparison keeps the greatest coordinates, one less than the edges of a box
    have hcover : fidelityBox (differ s p) = (fidelityBox s).cover p := by
      have hmax (a b : Int) : max a b + 1 = max (a + 1) (b + 1) := by omega
      simp only [fidelityBox, differ, Box.cover, hmax]
    refine ⟨hcount.trans ?_, ?_⟩
    · rw [List.length_cons, Nat.add_comm l.length, ← Nat.add_assoc]
      rfl
    · rw [List.foldl_cons, List.foldl_cons, hbox, hcover]

theorem compareLoop_eq (s : FidelityAccumulators) :
    (List.range height).foldl (fun s y =>
        (List.range width).foldl (fun s x => compareStep previous current width s x y) s) s =
      (changedPlaces previous current width height).foldl differ s := by
  rw [foldl_rows fun s x y => compareStep previous current width s x y, changedPlaces,
    List.foldl_filter]
  refine List.foldl_ext _ _ _ fun s p _ => ?_
  by_cases hchanged : Changed previous current width p
  · simp only [hchanged, decide_true, if_true]
    exact if_neg hchanged
  · simp only [hchanged, decide_false, Bool.false_eq_true, if_false]
    exact if_pos (not_not.mp hchanged)

/-! ### Both -/

theorem mul_eq_toNat {width height : Int} (hwidth : 0 < width) (hheight : 0 < height) :
    width * height = ((width.toNat * height.toNat : Nat) : Int) := by
  rw [Int.natCast_mul, Int.toNat_of_nonneg (Int.le_of_lt hwidth),
    Int.toNat_of_nonneg (Int.le_of_lt hheight)]

/-- Two dimensions of type `int` never overflow a `std::size_t`. -/
theorem toNat_mul_le {width height : Int} (hwidth : IntType.int32.Holds width)
    (hheight : IntType.int32.Holds height) : width.toNat * height.toNat ≤ sizeMax := by
  calc width.toNat * height.toNat ≤ 2147483647 * 2147483647 :=
        Nat.mul_le_mul hwidth.toNat_le hheight.toNat_le
    _ ≤ sizeMax := by decide

/-- Without a plane, a size or memory for it there is no delta. -/
theorem measure_eq_none_iff {previous current : Option (List UInt8)} {bytes : Nat}
    {width height : Int} (hwidth : IntType.int32.Holds width)
    (hheight : IntType.int32.Holds height) :
    measureGrayscaleDelta previous current bytes width height = none ↔
      previous = none ∨ current = none ∨ width ≤ 0 ∨ height ≤ 0 ∨ width * height ≠ bytes := by
  cases previous with
  | none => simp [measureGrayscaleDelta]
  | some previous =>
    cases current with
    | none => simp [measureGrayscaleDelta]
    | some current =>
      by_cases hw : 0 < width
      swap
      · simp [measureGrayscaleDelta, Int.not_lt.mp hw]
      by_cases hh : 0 < height
      swap
      · simp [measureGrayscaleDelta, Int.not_lt.mp hh]
      have hproduct := mul_eq_toNat hw hh
      have hfits := toNat_mul_le hwidth hheight
      by_cases hbytes : width.toNat * height.toNat = bytes
      · obtain ⟨delta, hdelta, -⟩ := measure_eq previous current hw hh hbytes (hbytes ▸ hfits)
        rw [hdelta]
        simp [hproduct, hbytes, Int.not_le.mpr hw, Int.not_le.mpr hh]
      · have hne : width * height ≠ bytes := by
          rw [hproduct]
          exact fun heq => hbytes (Int.ofNat.inj heq)
        simp [measureGrayscaleDelta, hbytes, hne, Int.not_le.mpr hw, Int.not_le.mpr hh]

/-- The direction, by which counts are zero. -/
theorem classifyDeltaDirection_iff {delta : GrayscaleDelta}
    (h : delta.lighterPixels + delta.darkerPixels = delta.changedPixels) :
    (classifyDeltaDirection delta = .unavailable ↔ delta.changedPixels = 0) ∧
      (classifyDeltaDirection delta = .lighter ↔
        delta.changedPixels ≠ 0 ∧ delta.darkerPixels = 0) ∧
      (classifyDeltaDirection delta = .darker ↔
        delta.changedPixels ≠ 0 ∧ delta.lighterPixels = 0) ∧
      (classifyDeltaDirection delta = .mixed ↔
        delta.lighterPixels ≠ 0 ∧ delta.darkerPixels ≠ 0) := by
  simp only [classifyDeltaDirection, h, ne_eq, not_true_eq_false, decide_false, Bool.or_false,
    decide_eq_true_eq]
  split_ifs with hchanged hlighter hdarker <;> simp only [true_iff, false_iff] <;> omega

theorem subset_iff_of_disjoint {s t : Finset (Nat × Nat)} (h : Disjoint s t) :
    t ⊆ s ↔ t.card = 0 := by
  rw [Finset.card_eq_zero]
  constructor
  · exact fun hsub => Finset.eq_empty_of_forall_notMem fun p hp =>
      Finset.disjoint_left.mp h (hsub hp) hp
  · rintro rfl
    exact Finset.empty_subset s

/-- The pixels that changed one way are all that changed exactly when none changed the other way. -/
theorem changed_eq_lighter_iff : pixels width height (Changed previous current width) =
    pixels width height (Lighter previous current width) ↔
      (pixels width height (Darker previous current width)).card = 0 := by
  rw [changed_eq_union, Finset.union_eq_left]
  exact subset_iff_of_disjoint (disjoint_lighter_darker _ _ _ _)

theorem changed_eq_darker_iff : pixels width height (Changed previous current width) =
    pixels width height (Darker previous current width) ↔
      (pixels width height (Lighter previous current width)).card = 0 := by
  rw [changed_eq_union, Finset.union_eq_right]
  exact subset_iff_of_disjoint (disjoint_lighter_darker _ _ _ _).symm

/-- The box of the changed pixels is tight, and every loop that starts blank finds it. -/
theorem tight_of_card_ne_zero {b : Box} {width height : Nat}
    (hne : (pixels width height (Changed previous current width)).card ≠ 0)
    (hblank : ∀ p, Within width height p → b.Blank p) :
    Box.Tight ((changedPlaces previous current width height).foldl Box.cover b)
      (changedPlaces previous current width height) := by
  refine Box.tight_foldl (fun hnil => hne ?_) fun p hp => ?_
  · rw [← length_changedPlaces, hnil, List.length_nil]
  · exact hblank p (mem_pixels.mp (mem_changedPlaces.mp hp)).1

/-- The size of the plane is a start that every place replaces. -/
theorem blank_size {width height : Int} (hwidth : 0 < width) (hheight : 0 < height)
    (p : Nat × Nat) (hp : Within width.toNat height.toNat p) :
    Box.Blank ⟨width, height, 0, 0⟩ p := by
  obtain ⟨hx, hy⟩ := hp
  simp only [Box.Blank]
  omega

/-- So is the greatest `int`. -/
theorem blank_int {width height : Int} (hwidth : IntType.int32.Holds width)
    (hheight : IntType.int32.Holds height) (p : Nat × Nat)
    (hp : Within width.toNat height.toNat p) : Box.Blank ⟨2147483647, 2147483647, 0, 0⟩ p := by
  obtain ⟨hx, hy⟩ := hp
  have hw := hwidth.toNat_le
  have hh := hheight.toNat_le
  simp only [Box.Blank]
  omega

/-- The comparison of two planes of a size that is an `int`'s. -/
theorem compare_eq {width height : Int} (hwidth : 0 < width) (hheight : 0 < height)
    (hsize : width.toNat * height.toNat ≤ sizeMax)
    (hprevious : previous.length = width.toNat * height.toNat)
    (hcurrent : current.length = width.toNat * height.toNat) :
    let changed := changedPlaces previous current width.toNat height.toNat
    let box := changed.foldl Box.cover ⟨2147483647, 2147483647, 0, 0⟩
    compareGrayscaleFidelity ⟨width, height, previous⟩ ⟨width, height, current⟩ =
      if changed.length = 0 then { comparable := true, exactMatch := true }
      else
        { comparable := true
          differingPixels := changed.length
          left := box.left
          top := box.top
          right := box.right
          bottom := box.bottom } := by
  have hpos : 0 < height.toNat := by omega
  have hfits : ¬width.toNat > sizeMax / height.toNat := by
    rw [Nat.not_lt, Nat.le_div_iff_mul_le hpos]
    exact hsize
  obtain ⟨hcount, hbox⟩ := foldl_differ
    (changedPlaces previous current width.toNat height.toNat) {}
  rw [Nat.zero_add] at hcount
  simp only [compareGrayscaleFidelity, OwnedGrayscaleBuffer.byteCount, hprevious, hcurrent,
    Int.not_le.mpr hwidth, Int.not_le.mpr hheight, ne_eq, not_true_eq_false, decide_false,
    Bool.or_self, Bool.false_eq_true, if_false, hfits, compareLoop_eq, hcount]
  congr 1
  have hbox' : fidelityBox {} = ⟨2147483647, 2147483647, 0, 0⟩ := rfl
  rw [← hbox', ← hbox]
  rfl

/-- What is known of a delta that has been measured. -/
structure Measured (previous current : List UInt8) (bytes : Nat) (width height : Int)
    (delta : GrayscaleDelta) : Prop where
  width_pos : 0 < width
  height_pos : 0 < height
  bytes_eq : width.toNat * height.toNat = bytes
  changed : delta.changedPixels =
    (pixels width.toNat height.toNat (Changed previous current width.toNat)).card
  lighter : delta.lighterPixels =
    (pixels width.toNat height.toNat (Lighter previous current width.toNat)).card
  darker : delta.darkerPixels =
    (pixels width.toNat height.toNat (Darker previous current width.toNat)).card
  total : delta.totalPixels = bytes
  box : delta.box =
    if delta.changedPixels = 0 then ⟨0, 0, 0, 0⟩
    else (changedPlaces previous current width.toNat height.toNat).foldl Box.cover
      ⟨width, height, 0, 0⟩

theorem measured_of_some {bytes : Nat} {width height : Int} {delta : GrayscaleDelta}
    (hwidth : IntType.int32.Holds width) (hheight : IntType.int32.Holds height)
    (hdelta : measureGrayscaleDelta (some previous) (some current) bytes width height =
      some delta) : Measured previous current bytes width height delta := by
  have hsome : measureGrayscaleDelta (some previous) (some current) bytes width height ≠ none := by
    simp [hdelta]
  rw [ne_eq, measure_eq_none_iff hwidth hheight] at hsome
  simp only [reduceCtorEq, false_or, not_or, not_not, Int.not_le] at hsome
  obtain ⟨hw, hh, hproduct⟩ := hsome
  rw [mul_eq_toNat hw hh] at hproduct
  have hbytes := Int.ofNat.inj hproduct
  obtain ⟨delta', hdelta', hchanged, hlighter, hdarker, htotal, hbox⟩ :=
    measure_eq previous current hw hh hbytes (hbytes ▸ toNat_mul_le hwidth hheight)
  -- the one delta there is
  obtain rfl := Option.some.inj (hdelta'.symm.trans hdelta)
  exact ⟨hw, hh, hbytes, hchanged, hlighter, hdarker, htotal, hbox⟩

/-- The box of a delta with a change is tight around the changed places. -/
theorem Measured.tight {bytes : Nat} {width height : Int} {delta : GrayscaleDelta}
    (h : Measured previous current bytes width height delta) (hne : delta.changedPixels ≠ 0) :
    delta.box.Tight (changedPlaces previous current width.toNat height.toNat) := by
  rw [h.box, if_neg hne]
  exact tight_of_card_ne_zero (h.changed ▸ hne) (blank_size h.width_pos h.height_pos)

/-- **The delta of two planes**, and the comparison of the same two. -/
theorem grayscale_delta_exact {width height : Int} (hwidth : IntType.int32.Holds width)
    (hheight : IntType.int32.Holds height) :
    -- no result
    (∀ previous current bytes, measureGrayscaleDelta previous current bytes width height = none ↔
      previous = none ∨ current = none ∨ width ≤ 0 ∨ height ≤ 0 ∨ width * height ≠ bytes) ∧
    ∀ previous current bytes delta, previous.length = bytes → current.length = bytes →
      measureGrayscaleDelta (some previous) (some current) bytes width height = some delta →
      let changed := pixels width.toNat height.toNat (Changed previous current width.toNat)
      let lighter := pixels width.toNat height.toNat (Lighter previous current width.toNat)
      let darker := pixels width.toNat height.toNat (Darker previous current width.toNat)
      -- the counts
      delta.changedPixels = changed.card ∧ delta.lighterPixels = lighter.card ∧
      delta.darkerPixels = darker.card ∧
      delta.lighterPixels + delta.darkerPixels = delta.changedPixels ∧ delta.totalPixels = bytes ∧
      -- the box
      (changed = ∅ → delta.box = ⟨0, 0, 0, 0⟩) ∧
      (changed.Nonempty →
        (∀ p ∈ changed, delta.box.Contains p) ∧
        (∃ p ∈ changed, (p.1 : Int) = delta.left) ∧ (∃ p ∈ changed, (p.2 : Int) = delta.top) ∧
        (∃ p ∈ changed, (p.1 : Int) + 1 = delta.right) ∧
        (∃ p ∈ changed, (p.2 : Int) + 1 = delta.bottom) ∧
        ∀ b : Box, (∀ p ∈ changed, b.Contains p) → b.left ≤ delta.left ∧ b.top ≤ delta.top ∧
          delta.right ≤ b.right ∧ delta.bottom ≤ b.bottom) ∧
      -- the direction
      (classifyDeltaDirection delta = .unavailable ↔ changed = ∅) ∧
      (classifyDeltaDirection delta = .lighter ↔ changed.Nonempty ∧ changed = lighter) ∧
      (classifyDeltaDirection delta = .darker ↔ changed.Nonempty ∧ changed = darker) ∧
      (classifyDeltaDirection delta = .mixed ↔ lighter.Nonempty ∧ darker.Nonempty) ∧
      -- the comparison
      compareGrayscaleFidelity ⟨width, height, previous⟩ ⟨width, height, current⟩ =
        { comparable := true
          exactMatch := delta.changedPixels = 0
          differingPixels := delta.changedPixels
          left := delta.left
          top := delta.top
          right := delta.right
          bottom := delta.bottom } := by
  refine ⟨fun previous current bytes => measure_eq_none_iff hwidth hheight, ?_⟩
  intro previous current bytes delta hprevious hcurrent hdelta
  have hmeasured := measured_of_some hwidth hheight hdelta
  have hpanel := hmeasured.tight
  obtain ⟨hw, hh, hbytes, hchanged, hlighter, hdarker, htotal, hbox⟩ := hmeasured
  have hsum : delta.lighterPixels + delta.darkerPixels = delta.changedPixels := by
    rw [hlighter, hdarker, hchanged, card_changed]
  obtain ⟨hunavailable, hup, hdown, hmixed⟩ := classifyDeltaDirection_iff hsum
  dsimp only
  refine ⟨hchanged, hlighter, hdarker, hsum, htotal, ?_, ?_, ?_, ?_, ?_, ?_, ?_⟩
  · intro hempty
    rw [hempty, Finset.card_empty] at hchanged
    rw [hbox, if_pos hchanged]
  · intro hnonempty
    have hcard := Finset.card_ne_zero.mpr hnonempty
    have htight := hpanel (hchanged ▸ hcard)
    refine ⟨fun p hp => htight.contains p (mem_changedPlaces.mpr hp), ?_, ?_, ?_, ?_, ?_⟩
    · obtain ⟨p, hp, hedge⟩ := htight.left
      exact ⟨p, mem_changedPlaces.mp hp, hedge⟩
    · obtain ⟨p, hp, hedge⟩ := htight.top
      exact ⟨p, mem_changedPlaces.mp hp, hedge⟩
    · obtain ⟨p, hp, hedge⟩ := htight.right
      exact ⟨p, mem_changedPlaces.mp hp, hedge⟩
    · obtain ⟨p, hp, hedge⟩ := htight.bottom
      exact ⟨p, mem_changedPlaces.mp hp, hedge⟩
    · exact fun b hb => htight.least fun p hp => hb p (mem_changedPlaces.mp hp)
  · rw [hunavailable, ← Finset.card_eq_zero, hchanged]
  · rw [hup, changed_eq_lighter_iff, ← Finset.card_ne_zero, hchanged, hdarker]
  · rw [hdown, changed_eq_darker_iff, ← Finset.card_ne_zero, hchanged, hlighter]
  · rw [hmixed, ← Finset.card_ne_zero, ← Finset.card_ne_zero, hlighter, hdarker]
  · rw [compare_eq hw hh (toNat_mul_le hwidth hheight) (hprevious.trans hbytes.symm)
      (hcurrent.trans hbytes.symm), length_changedPlaces, ← hchanged]
    have hleft : delta.left = delta.box.left := rfl
    have htop : delta.top = delta.box.top := rfl
    have hright : delta.right = delta.box.right := rfl
    have hbottom : delta.bottom = delta.box.bottom := rfl
    rw [hleft, htop, hright, hbottom, hbox]
    by_cases hzero : delta.changedPixels = 0
    · simp only [hzero, if_true, decide_true]
    · -- both boxes are tight around the changed pixels
      have hcard := hchanged ▸ hzero
      have hsame := (tight_of_card_ne_zero hcard (blank_int hwidth hheight)).unique
        (tight_of_card_ne_zero hcard (blank_size hw hh))
      simp only [hzero, if_false, decide_false, hsame]

/-- Two pixels that exchange their values. -/
theorem grayscale_delta_exact_exchange :
    compareGrayscaleFidelity ⟨2, 1, [0, 16]⟩ ⟨2, 1, [16, 0]⟩ =
      { comparable := true
        exactMatch := false
        differingPixels := 2
        left := 0
        top := 0
        right := 2
        bottom := 1 } := by
  have htwo : IntType.int32.Holds 2 := by decide
  have hone : IntType.int32.Holds 1 := by decide
  obtain ⟨-, hplanes⟩ := grayscale_delta_exact htwo hone
  exact (hplanes [0, 16] [16, 0] 2 ⟨2, 1, 1, 2, 0, 0, 2, 1⟩ rfl rfl rfl).2.2.2.2.2.2.2.2.2.2.2

end EinkLab.GrayscaleDelta
