import EinkLab.Grayscale.Equiv.Delta
import EinkLab.MicroDelta.Basic

/-!
# The deltas that the policy is given

The policy reads the machine's fields of a `GrayscaleDelta`, the measurement is modelled on numbers.
A measured delta fits the fields (`value_ofMeasured`), and if a pixel has changed it passes every
check of `isMicro` but those of the limits (`isMicro_ofMeasured`).
-/

namespace EinkLab.MicroDelta

open EinkLab.GrayscaleDelta

variable {previous current : List UInt8} {bytes : Nat} {measured : EinkLab.GrayscaleDelta}

/-- The numbers in the fields. -/
def GrayscaleDelta.value (d : GrayscaleDelta) : EinkLab.GrayscaleDelta where
  changedPixels := d.changedPixels.toNat
  lighterPixels := d.lighterPixels.toNat
  darkerPixels := d.darkerPixels.toNat
  totalPixels := d.totalPixels.toNat
  left := d.left.toInt
  top := d.top.toInt
  right := d.right.toInt
  bottom := d.bottom.toInt

/-- The numbers, stored in the fields. -/
def GrayscaleDelta.ofMeasured (measured : EinkLab.GrayscaleDelta) : GrayscaleDelta where
  changedPixels := UInt64.ofNat measured.changedPixels
  lighterPixels := UInt64.ofNat measured.lighterPixels
  darkerPixels := UInt64.ofNat measured.darkerPixels
  totalPixels := UInt64.ofNat measured.totalPixels
  left := Int32.ofInt measured.left
  top := Int32.ofInt measured.top
  right := Int32.ofInt measured.right
  bottom := Int32.ofInt measured.bottom

/-! ### The range of a measured delta -/

theorem card_pixels_le (width height : Nat) (q : Nat × Nat → Prop) [DecidablePred q] :
    (pixels width height q).card ≤ width * height := by
  refine (Finset.card_filter_le _ _).trans ?_
  rw [Finset.card_product, Finset.card_range, Finset.card_range]

/-- No count exceeds the number of the pixels. -/
theorem counts_le {width height : Int}
    (h : Measured previous current bytes width height measured) :
    measured.changedPixels ≤ bytes ∧ measured.lighterPixels ≤ bytes ∧
      measured.darkerPixels ≤ bytes := by
  rw [h.changed, h.lighter, h.darker, ← h.bytes_eq]
  exact ⟨card_pixels_le _ _ _, card_pixels_le _ _ _, card_pixels_le _ _ _⟩

/-- A changed pixel lies in the box, and the box in the plane. -/
theorem box_within {width height : Int}
    (h : Measured previous current bytes width height measured)
    (hne : measured.changedPixels ≠ 0) :
    0 ≤ measured.left ∧ measured.left < measured.right ∧ measured.right ≤ width ∧
      0 ≤ measured.top ∧ measured.top < measured.bottom ∧ measured.bottom ≤ height := by
  have htight := h.tight hne
  have hwithin : ∀ p ∈ changedPlaces previous current width.toNat height.toNat,
      p.1 < width.toNat ∧ p.2 < height.toNat :=
    fun p hp => (mem_pixels.mp (mem_changedPlaces.mp hp)).1
  obtain ⟨p, hp, hleft⟩ := htight.left
  obtain ⟨q, hq, htop⟩ := htight.top
  obtain ⟨p', hp', hright⟩ := htight.right
  obtain ⟨q', hq', hbottom⟩ := htight.bottom
  -- the place on one edge is on the right side of the other
  obtain ⟨-, hp, -, -⟩ := htight.contains p hp
  obtain ⟨-, -, -, hq⟩ := htight.contains q hq
  obtain ⟨hp', -⟩ := hwithin p' hp'
  obtain ⟨-, hq'⟩ := hwithin q' hq'
  change (p.1 : Int) = measured.left at hleft
  change (q.2 : Int) = measured.top at htop
  change (p'.1 : Int) + 1 = measured.right at hright
  change (q'.2 : Int) + 1 = measured.bottom at hbottom
  change (p.1 : Int) < measured.right at hp
  change (q.2 : Int) < measured.bottom at hq
  omega

/-- Every edge is an `int`. -/
theorem edges_hold {width height : Int} (hwidth : IntType.int32.Holds width)
    (hheight : IntType.int32.Holds height)
    (h : Measured previous current bytes width height measured) :
    (IntType.int32.Holds measured.left ∧ IntType.int32.Holds measured.top) ∧
      IntType.int32.Holds measured.right ∧ IntType.int32.Holds measured.bottom := by
  obtain ⟨hwl, hwh⟩ := hwidth
  obtain ⟨hhl, hhh⟩ := hheight
  simp only [IntType.int32] at hwh hhh
  simp only [IntType.Holds, IntType.int32]
  by_cases hzero : measured.changedPixels = 0
  · have hbox := h.box
    rw [if_pos hzero] at hbox
    obtain ⟨hleft, htop, hright, hbottom⟩ := RowMajor.Box.mk.inj hbox
    omega
  · have hwithin := box_within h hzero
    omega

/-! ### The fields -/

theorem toNat_ofNat_of_le {n : Nat} (hn : n ≤ bytes) (hbytes : bytes ≤ sizeMax) :
    (UInt64.ofNat n).toNat = n := by
  refine UInt64.toNat_ofNat_of_lt' (lt_of_le_of_lt (hn.trans hbytes) ?_)
  decide

theorem toInt_ofInt_of_holds {n : Int} (h : IntType.int32.Holds n) : (Int32.ofInt n).toInt = n :=
  Int32.toInt_ofInt_of_le h.1 (Int.lt_of_le_of_lt h.2 (by decide))

/-- **A measured delta fits the machine's fields.** -/
theorem value_ofMeasured {width height : Int} (hwidth : IntType.int32.Holds width)
    (hheight : IntType.int32.Holds height)
    (h : measureGrayscaleDelta (some previous) (some current) bytes width height =
      some measured) : (GrayscaleDelta.ofMeasured measured).value = measured := by
  have hmeasured := measured_of_some hwidth hheight h
  have hbytes : bytes ≤ sizeMax := hmeasured.bytes_eq ▸ toNat_mul_le hwidth hheight
  obtain ⟨hchanged, hlighter, hdarker⟩ := counts_le hmeasured
  obtain ⟨⟨hleft, htop⟩, hright, hbottom⟩ := edges_hold hwidth hheight hmeasured
  have htotal := hmeasured.total.le
  simp only [GrayscaleDelta.value, GrayscaleDelta.ofMeasured, toNat_ofNat_of_le hchanged hbytes,
    toNat_ofNat_of_le hlighter hbytes, toNat_ofNat_of_le hdarker hbytes,
    toNat_ofNat_of_le htotal hbytes, toInt_ofInt_of_holds hleft, toInt_ofInt_of_holds htop,
    toInt_ofInt_of_holds hright, toInt_ofInt_of_holds hbottom]

/-! ### The checks of the policy -/

theorem holds_toInt (n : Int32) : IntType.int32.Holds n.toInt :=
  ⟨n.le_toInt, Int.le_of_lt_add_one n.toInt_lt⟩

theorem toNat_toUInt64 {n : Int64} (h : 0 ≤ n.toInt) : n.toUInt64.toNat = n.toInt.toNat := by
  have hvalue : n.toInt = n.toBitVec.toInt := rfl
  have hbits : n.toUInt64.toNat = n.toBitVec.toNat := rfl
  have hlt := n.toBitVec.isLt
  rw [hvalue, BitVec.toInt_eq_toNat_cond] at h ⊢
  split at h
  · next hsmall => rw [hbits, if_pos hsmall, Int.toNat_natCast]
  · omega

/-- The size of a plane as the policy computes it. -/
theorem toNat_mul_toUInt64 {width height : Int32} (hwidth : 0 < width.toInt)
    (hheight : 0 < height.toInt) :
    (width.toInt64.toUInt64 * height.toInt64.toUInt64).toNat =
      width.toInt.toNat * height.toInt.toNat := by
  have hw : width.toInt64.toUInt64.toNat = width.toInt.toNat := by
    rw [toNat_toUInt64 (by rw [Int32.toInt_toInt64]; omega), Int32.toInt_toInt64]
  have hh : height.toInt64.toUInt64.toNat = height.toInt.toNat := by
    rw [toNat_toUInt64 (by rw [Int32.toInt_toInt64]; omega), Int32.toInt_toInt64]
  have hle : width.toInt.toNat * height.toInt.toNat ≤ sizeMax :=
    toNat_mul_le (holds_toInt width) (holds_toInt height)
  rw [UInt64.toNat_mul, hw, hh, Nat.mod_eq_of_lt (lt_of_le_of_lt hle (by decide))]

/-- **A measured delta with a change** passes the checks of its geometry: only the limits decide. -/
theorem isMicro_ofMeasured (c : MicroDeltaConfig) {width height : Int32}
    (h : measureGrayscaleDelta (some previous) (some current) bytes width.toInt height.toInt =
      some measured) :
    let d := GrayscaleDelta.ofMeasured measured
    let boxArea := UInt64.ofInt (measured.right - measured.left) *
      UInt64.ofInt (measured.bottom - measured.top)
    let edgeDistance := match c.chromeEdge with
      | .top => d.bottom.toInt64.toUInt64
      | .bottom => UInt64.ofInt (height.toInt - measured.top)
    c.isMicro d width height = true ↔ measured.changedPixels ≠ 0 ∧ d.coveragePpm ≤ c.changedPpm ∧
      ratioPpm boxArea d.totalPixels ≤ c.boundingBoxPpm ∧
      ratioPpm edgeDistance height.toInt64.toUInt64 ≤ c.edgeBandPpm := by
  intro d boxArea edgeDistance
  have hvalue : d.value = measured := value_ofMeasured (holds_toInt width) (holds_toInt height) h
  have hmeasured := measured_of_some (holds_toInt width) (holds_toInt height) h
  have hwidth : ¬width ≤ 0 := fun hle =>
    absurd (Int32.le_iff_toInt_le.mp hle) (Int.not_le.mpr hmeasured.width_pos)
  have hheight : ¬height ≤ 0 := fun hle =>
    absurd (Int32.le_iff_toInt_le.mp hle) (Int.not_le.mpr hmeasured.height_pos)
  have hchanged : d.changedPixels.toNat = measured.changedPixels := by rw [← hvalue]; rfl
  have hzero : d.changedPixels = 0 ↔ measured.changedPixels = 0 := by
    rw [← hchanged, ← UInt64.toNat_inj]
    rfl
  have htotal : d.totalPixels = width.toInt64.toUInt64 * height.toInt64.toUInt64 := by
    have hcount : d.totalPixels.toNat = measured.totalPixels := by rw [← hvalue]; rfl
    rw [← UInt64.toNat_inj, toNat_mul_toUInt64 hmeasured.width_pos hmeasured.height_pos, hcount,
      hmeasured.total, hmeasured.bytes_eq]
  unfold MicroDeltaConfig.isMicro
  by_cases hnone : measured.changedPixels = 0
  · rw [if_pos (Or.inr (Or.inr (Or.inl (hzero.mpr hnone))))]
    simp [hnone]
  rw [if_neg (by simp only [hwidth, hheight, hzero, hnone, htotal, ne_eq, not_true, or_self,
    not_false_iff])]
  -- the box is in the plane and not empty
  have hleft : d.left.toInt = measured.left := by rw [← hvalue]; rfl
  have htop : d.top.toInt = measured.top := by rw [← hvalue]; rfl
  have hright : d.right.toInt = measured.right := by rw [← hvalue]; rfl
  have hbottom : d.bottom.toInt = measured.bottom := by rw [← hvalue]; rfl
  have hwithin := box_within hmeasured hnone
  have hinside : ¬(measured.right - measured.left ≤ 0 ∨ measured.bottom - measured.top ≤ 0 ∨
      d.left < 0 ∨ d.top < 0 ∨ d.right > width ∨ d.bottom > height) := by
    simp only [gt_iff_lt, Int32.lt_iff_toInt_lt, hleft, htop, hright, hbottom, Int32.toInt_zero]
    omega
  simp only [hleft, htop, hright, hbottom]
  rw [if_neg hinside]
  simp only [Bool.and_eq_true, decide_eq_true_eq, and_assoc]
  exact ⟨fun hlimits => ⟨hnone, hlimits⟩, And.right⟩

end EinkLab.MicroDelta
