import EinkLab.FrontLight.DirectBackend
import Mathlib.Tactic.NormNum

/-!
# Off means off

A request with brightness zero should put the code zero on every endpoint.  With a direct table it
does.  With a calibration it looks the two codes up by power: the warm one at the first smallest
drive power, the cold one at the drive power nearest to what is left of the power of step zero.
Nothing that is checked of a calibration makes these the first entry, nor its code zero; they are
exactly when the calibration is `ZeroAnchored` (`offMeansOff_iff`).
-/

namespace EinkLab.FrontLight

/-! ### Nearest entries -/

theorem finRange_eq_zero_cons (n : Nat) [NeZero n] :
    (0 : Fin n) :: (List.finRange n).tail = List.finRange n := by
  cases n with
  | zero => exact absurd rfl (NeZero.ne 0)
  | succ n =>
    rw [List.finRange_succ]
    rfl

/-- The scan stays at the first entry exactly when no other is nearer. -/
theorem nearestIndex_eq_zero_iff {δ : Type*} [LinearOrder δ] [AddCommGroup δ] {n : Nat} [NeZero n]
    (values : Fin n → δ) (target : δ) :
    nearestIndex values target = 0 ↔ ∀ i, |values 0 - target| ≤ |values i - target| := by
  have hcons := finRange_eq_zero_cons n
  have hsorted : ((0 : Fin n) :: (List.finRange n).tail).Pairwise (· < ·) := by
    rw [hcons]
    exact List.pairwise_lt_finRange n
  rw [nearestIndex, Search.firstMinimumFrom_eq_head_iff _ hsorted]
  constructor
  · intro h i
    have hi : i ∈ (0 : Fin n) :: (List.finRange n).tail := by
      rw [hcons]
      exact List.mem_finRange i
    rcases List.mem_cons.mp hi with rfl | hi
    · exact le_refl _
    · exact h i hi
  · intro h i _
    exact h i

/-! ### Increasing codes -/

theorem isIncreasing_iff (codes : List UInt16) :
    isIncreasing codes = true ↔ codes.Pairwise (· < ·) := by
  induction codes with
  | nil => exact iff_of_true rfl List.Pairwise.nil
  | cons a codes ih =>
    cases codes with
    | nil => exact iff_of_true rfl (List.pairwise_singleton _ _)
    | cons b codes =>
      have hstep : isIncreasing (a :: b :: codes) =
        (!decide (b ≤ a) && isIncreasing (b :: codes)) :=
        rfl
      rw [hstep, Bool.and_eq_true, ih, Bool.not_eq_true', decide_eq_false_iff_not, UInt16.not_le,
        List.pairwise_cons (a := a), List.pairwise_cons (a := b)]
      constructor
      · rintro ⟨hab, hb, hrest⟩
        refine ⟨fun c hc => ?_, hb, hrest⟩
        rcases List.mem_cons.mp hc with rfl | hc
        · exact hab
        · exact UInt16.lt_trans hab (hb c hc)
      · rintro ⟨ha, hrest⟩
        exact ⟨ha b List.mem_cons_self, hrest⟩

/-- Of increasing codes only the first can be zero. -/
theorem get_eq_zero_iff {n : Nat} [NeZero n] {codes : Vector UInt16 n}
    (h : isIncreasing codes.toList = true) (i : Fin n) :
    codes.get i = 0 ↔ i = 0 ∧ codes.get 0 = 0 := by
  constructor
  · intro hi
    have hzero : i = 0 := by
      by_contra hne
      have hpos : (0 : Fin n) < i := Fin.pos_iff_ne_zero.mpr hne
      have hlt := List.pairwise_iff_getElem.mp ((isIncreasing_iff _).mp h) 0 i.val
        (by simp [Nat.pos_of_neZero]) (by simp) hpos
      have hget : codes.get i = codes[i.val] := rfl
      simp only [Vector.getElem_toList, ← hget, hi] at hlt
      exact absurd hlt UInt16.not_lt_zero
    exact ⟨hzero, hzero ▸ hi⟩
  · rintro ⟨rfl, h0⟩
    exact h0

/-! ### What the preflight admits -/

/-- The tables are checked, and so are the policy values of a calibration. -/
structure Payload.Accepted (payload : Payload) : Prop where
  usable : payload.isUsable = true
  policy : payload.directCodes = false → 0 < payload.maxPowerMultiple ∧ 0 < payload.warmPercentage

theorem parsePayload_accepted {contents : List Char} {payload : Payload}
    (hparse : parsePayload contents = some payload) (husable : payload.isUsable = true) :
    payload.Accepted := by
  refine ⟨husable, fun hdirect => ?_⟩
  obtain ⟨s, -, hfinish⟩ := Option.bind_eq_some_iff.mp hparse
  unfold ParseState.finish at hfinish
  split at hfinish
  · split at hfinish
    · rw [← Option.some_inj.mp hfinish] at hdirect
      cases hdirect
    · exact absurd hfinish (by simp)
  · split at hfinish
    · next hcalibrated =>
      rw [← Option.some_inj.mp hfinish]
      simp only [ParseState.isCalibrated, Bool.and_eq_true, decide_eq_true_eq] at hcalibrated
      exact ⟨hcalibrated.1.2, hcalibrated.2⟩
    · exact absurd hfinish (by simp)

theorem load_accepted {system : Sysfs} {backend : DirectBackend}
    (h : ∀ p ∈ backend.payload, p.Accepted) : ∀ p ∈ (backend.load system).payload, p.Accepted := by
  unfold DirectBackend.load
  split
  · exact h
  · next hnone =>
    split
    · exact h
    · next payload hread =>
      split
      · next husable =>
        obtain ⟨contents, -, hparse⟩ := Option.bind_eq_some_iff.mp hread
        intro p hp
        rw [← Option.mem_some_iff.mp hp]
        exact parsePayload_accepted hparse husable
      · exact h

/-- The backend holds only payloads that were accepted. -/
theorem poll_accepted {system : Sysfs} {backend : DirectBackend}
    (h : ∀ p ∈ backend.payload, p.Accepted) :
    ∀ p ∈ (backend.poll system).2.payload, p.Accepted := by
  have hload : ∀ p ∈ (backend.load system).payload, p.Accepted := load_accepted h
  unfold DirectBackend.poll
  split
  · exact h
  · simp only
    split
    · exact hload
    · next payload hpayload =>
      have haccepted := hload payload hpayload
      split
      · exact hload
      · intro p hp
        rw [← Option.mem_some_iff.mp hp]
        exact ⟨haccepted.usable, haccepted.policy⟩

/-! ### Step zero -/

/-- The power of step zero, under the cap. -/
def Payload.zeroPower (payload : Payload) : ℚ :=
  min (payload.calibration.coldPower.get 0 + payload.calibration.warmPower.get 0)
    (payload.calibration.coldPower.get lastStep * payload.maxPowerMultiple)

/-- The warm entry of step zero, and the cold one. -/
def Payload.zeroWarm (payload : Payload) : Fin kFrontLightDrivePoints :=
  nearestIndex payload.calibration.drivePower.get 0

def Payload.zeroCold (payload : Payload) : Fin kFrontLightDrivePoints :=
  nearestIndex payload.calibration.drivePower.get
    (max 0 (payload.zeroPower - payload.calibration.drivePower.get payload.zeroWarm))

section Calibrated

variable {payload : Payload} (haccepted : payload.Accepted) (hdirect : payload.directCodes = false)
include haccepted hdirect

theorem calibration_valid : isValidFrontLightCalibration payload.calibration = true := by
  have h := haccepted.usable
  rw [Payload.isUsable, hdirect] at h
  exact h

theorem calibration_parts :
    payload.calibration.brightnessCodes.get 0 = 0 ∧
      isIncreasing payload.calibration.driveCodes.toList = true ∧
      (∀ i, 0 ≤ payload.calibration.coldPower.get i) ∧
      (∀ i, 0 ≤ payload.calibration.warmPower.get i) ∧
      ∀ i, 0 ≤ payload.calibration.drivePower.get i := by
  have hvalid := calibration_valid haccepted hdirect
  simp only [isValidFrontLightCalibration, isValidFrontLightBrightnessCodes, Bool.and_eq_true,
    beq_iff_eq, Vector.all_eq_true, isFiniteNonNegative, decide_eq_true_eq] at hvalid
  obtain ⟨⟨⟨⟨⟨hzero, -⟩, hcodes⟩, hcold⟩, hwarm⟩, hdrive⟩ := hvalid
  exact ⟨hzero, hcodes, fun i => hcold i i.isLt, fun i => hwarm i i.isLt, fun i => hdrive i i.isLt⟩

theorem zeroPower_nonneg : 0 ≤ payload.zeroPower := by
  obtain ⟨-, -, hcold, hwarm, -⟩ := calibration_parts haccepted hdirect
  apply le_min
  · exact add_nonneg (hcold 0) (hwarm 0)
  · exact mul_nonneg (hcold _) (le_of_lt (haccepted.policy hdirect).1)

theorem nearestStep_zero : nearestStep payload.calibration.brightnessCodes 0 = 0 := by
  obtain ⟨hzero, -⟩ := calibration_parts haccepted hdirect
  have hclamp : clamp (0 : Int) 0 65535 = 0 := by decide
  rw [nearestStep, hclamp, nearestIndex_eq_zero_iff]
  intro i
  rw [hzero]
  simp

omit haccepted hdirect in
theorem stepCode_zero (codes : BrightnessCodes) : stepCode codes 0 = codes.get 0 := rfl

/-- What a request with brightness zero resolves to. -/
theorem resolve_zero {warmth : Int} (hwarmth : 0 ≤ warmth ∧ warmth ≤ 100) :
    ∃ resolution, payload.resolve ⟨0, warmth⟩ = some resolution ∧
      resolution.coldDriveCode = payload.calibration.driveCodes.get payload.zeroCold ∧
      resolution.warmDriveCode = payload.calibration.driveCodes.get payload.zeroWarm := by
  have hvalid := calibration_valid haccepted hdirect
  obtain ⟨hzero, -⟩ := calibration_parts haccepted hdirect
  obtain ⟨hmultiple, hpercentage⟩ := haccepted.policy hdirect
  have hpower := zeroPower_nonneg haccepted hdirect
  have hstep := nearestStep_zero haccepted hdirect
  have hcode : (stepCode payload.calibration.brightnessCodes 0).toNat = 0 := by
    rw [stepCode_zero, hzero]
    rfl
  have hwarmTarget : clamp (warmTargetPower payload.zeroPower 0 0 payload.warmPercentage) 0
      payload.zeroPower = 0 := by
    have htarget : warmTargetPower payload.zeroPower 0 0 payload.warmPercentage = 0 := by
      simp [warmTargetPower]
    rw [htarget, clamp, if_neg (lt_irrefl _), if_neg (not_lt.mpr hpower)]
  have hresolve : payload.resolve ⟨0, warmth⟩ =
      resolveFrontLight payload.calibration
        { coldCode := 0, warmCode := 0, maxPowerMultiple := payload.maxPowerMultiple,
          warmPercentage := payload.warmPercentage } := by
    have hlow : ¬warmth < 0 := by omega
    have hhigh : ¬warmth > 100 := by omega
    rw [Payload.resolve, hdirect, resolveFrontLightPercent]
    simp [hlow, hhigh, hvalid, hcode]
  rw [hresolve, resolveFrontLight]
  simp only [hvalid, hstep, not_le.mpr hmultiple, not_le.mpr hpercentage, Bool.not_true,
    decide_false, Bool.or_self, Bool.false_eq_true, if_false]
  refine ⟨_, rfl, ?_, ?_⟩
  · show payload.calibration.driveCodes.get (nearestIndex _ (max 0 (payload.zeroPower -
      payload.calibration.drivePower.get (nearestIndex _ (clamp (warmTargetPower payload.zeroPower
        0 0 payload.warmPercentage) 0 payload.zeroPower))))) = _
    rw [hwarmTarget]
    rfl
  · show payload.calibration.driveCodes.get (nearestIndex _ (clamp (warmTargetPower
      payload.zeroPower 0 0 payload.warmPercentage) 0 payload.zeroPower)) = _
    rw [hwarmTarget]
    rfl

end Calibrated

theorem resolve_zero_direct {payload : Payload} (haccepted : payload.Accepted)
    (hdirect : payload.directCodes = true) {warmth : Int} (hwarmth : 0 ≤ warmth ∧ warmth ≤ 100) :
    ∃ resolution, payload.resolve ⟨0, warmth⟩ = some resolution ∧
      resolution.coldDriveCode = 0 ∧ resolution.warmDriveCode = 0 := by
  have hvalid := haccepted.usable
  rw [Payload.isUsable, if_pos hdirect] at hvalid
  have hzero : payload.calibration.brightnessCodes.get 0 = 0 := by
    simp only [isValidFrontLightBrightnessCodes, Bool.and_eq_true, beq_iff_eq] at hvalid
    exact hvalid.1
  have hcode : stepCode payload.calibration.brightnessCodes 0 = 0 := by
    rw [stepCode_zero, hzero]
  have hlow : ¬warmth < 0 := by omega
  have hhigh : ¬warmth > 100 := by omega
  have hresolve : resolveDirectFrontLightPercent payload.calibration.brightnessCodes 0 warmth =
      some { coldStep := 0, warmStep := 0, coldDriveCode := 0, warmDriveCode := 0 } := by
    rw [resolveDirectFrontLightPercent]
    simp [hlow, hhigh, hvalid, hcode]
  rw [Payload.resolve, if_pos hdirect, hresolve]
  exact ⟨_, rfl, rfl, rfl⟩

/-! ### Off -/

/-- The first drive code is zero, its power is a smallest one, and no power is nearer to what that
leaves of the power of step zero. -/
structure Payload.ZeroAnchored (payload : Payload) : Prop where
  code : payload.calibration.driveCodes.get 0 = 0
  smallest : ∀ i, payload.calibration.drivePower.get 0 ≤ payload.calibration.drivePower.get i
  nearest : ∀ i,
    |payload.calibration.drivePower.get 0 -
        max 0 (payload.zeroPower - payload.calibration.drivePower.get 0)| ≤
      |payload.calibration.drivePower.get i -
        max 0 (payload.zeroPower - payload.calibration.drivePower.get 0)|

/-- Brightness zero resolves to the codes zero, and where the backend or the control above it
answers that the light is off, every code that was written with this payload is zero. -/
structure Payload.OffMeansOff (payload : Payload) : Prop where
  resolves : ∀ warmth, 0 ≤ warmth ∧ warmth ≤ 100 →
    ∃ resolution, payload.resolve ⟨0, warmth⟩ = some resolution ∧
      resolution.coldDriveCode = 0 ∧ resolution.warmDriveCode = 0
  backend : ∀ (system : Sysfs) (backend : DirectBackend) (request : ManualFrontLightRequest),
    (backend.applyManualRequest system request).backend.payload = some payload →
      (backend.applyManualRequest system request).outcome = .kOff →
        ∀ w ∈ (backend.applyManualRequest system request).written, w.2 = 0
  control : ∀ (system : Sysfs) (control : ManualFrontLightControl)
    (request : ManualFrontLightRequest),
    (control.apply system request).control.backend.payload = some payload →
      (control.apply system request).outcome = .kOff →
        ∀ w ∈ (control.apply system request).written, w.2 = 0

theorem writeAll_sublist (system : Sysfs) (writes : List (Path × UInt16)) :
    (DirectBackend.writeAll system writes).2.Sublist writes := by
  induction writes with
  | nil => exact List.Sublist.refl _
  | cons w rest ih =>
    unfold DirectBackend.writeAll
    split
    · exact ih.cons_cons w
    · exact (List.nil_sublist rest).cons_cons w

/-- The backend answers off only for brightness zero, with the codes of the resolution written. -/
theorem applyManualRequest_kOff {system : Sysfs} {backend : DirectBackend}
    {request : ManualFrontLightRequest} {payload : Payload}
    (hpayload : (backend.applyManualRequest system request).backend.payload = some payload)
    (hoff : (backend.applyManualRequest system request).outcome = .kOff) :
    request.brightnessPercent = 0 ∧ ∃ resolution, payload.resolve request = some resolution ∧
      ∀ w ∈ (backend.applyManualRequest system request).written,
        w.2 = resolution.warmDriveCode ∨ w.2 = resolution.coldDriveCode := by
  unfold DirectBackend.applyManualRequest at hpayload hoff ⊢
  generalize backend.poll system = polled at hpayload hoff ⊢
  obtain ⟨ready, backend⟩ := polled
  -- the early returns answer something else
  cases ready with
  | false => cases hoff
  | true =>
    simp only [Bool.not_true, Bool.false_eq_true, if_false] at hpayload hoff ⊢
    cases hloaded : backend.payload with
    | none =>
      rw [hloaded] at hoff
      cases hoff
    | some loaded =>
      simp only [hloaded] at hpayload hoff ⊢
      by_cases hblocked : (!backend.preflightSucceeded || backend.writesBlocked) = true
      · rw [if_pos hblocked] at hoff
        cases hoff
      · simp only [if_neg hblocked] at hpayload hoff ⊢
        cases hresolve : loaded.resolve request with
        | none =>
          rw [hresolve] at hoff
          cases hoff
        | some resolution =>
          simp only [hresolve] at hpayload hoff ⊢
          have hwritten := writeAll_sublist system (DirectBackend.writes loaded resolution)
          generalize DirectBackend.writeAll system (DirectBackend.writes loaded resolution) =
            answered at hwritten hpayload hoff ⊢
          obtain ⟨succeeded, written⟩ := answered
          cases succeeded with
          | false => cases hoff
          | true =>
            simp only [Bool.not_true, Bool.false_eq_true, if_false] at hpayload hoff ⊢
            -- of the answers after the writes, off is that to brightness zero
            by_cases hzero : request.brightnessPercent = 0
            · simp only [if_pos hzero] at hpayload ⊢
              rw [hloaded, Option.some_inj] at hpayload
              subst hpayload
              refine ⟨hzero, resolution, hresolve, fun w hw => ?_⟩
              have hmem := hwritten.subset hw
              simp only [DirectBackend.writes, List.mem_cons, List.not_mem_nil, or_false] at hmem
              rcases hmem with rfl | rfl | rfl | rfl
              · exact Or.inl rfl
              · exact Or.inl rfl
              · exact Or.inr rfl
              · exact Or.inr rfl
            · rw [if_neg hzero] at hoff
              split at hoff <;> cases hoff

/-- A request that resolves is in range. -/
theorem warmth_of_resolve {payload : Payload} {request : ManualFrontLightRequest}
    {resolution : FrontLightResolution} (h : payload.resolve request = some resolution) :
    0 ≤ request.warmthPercent ∧ request.warmthPercent ≤ 100 := by
  by_contra hout
  have hbad : (decide (request.warmthPercent < 0) || decide (request.warmthPercent > 100)) =
    true := by
    rw [Bool.or_eq_true, decide_eq_true_eq, decide_eq_true_eq]
    omega
  have hdirect : resolveDirectFrontLightPercent payload.calibration.brightnessCodes
      request.brightnessPercent request.warmthPercent = none := by
    rw [resolveDirectFrontLightPercent, if_pos]
    rw [Bool.or_assoc (decide _ || decide _), hbad]
    simp
  have hcalibrated : resolveFrontLightPercent payload.calibration request.brightnessPercent
      request.warmthPercent payload.maxPowerMultiple payload.warmPercentage = none := by
    rw [resolveFrontLightPercent, if_pos]
    rw [Bool.or_assoc (decide _ || decide _), hbad]
    simp
  rw [Payload.resolve, hdirect, hcalibrated] at h
  split at h <;> cases h

theorem control_apply_kOff {system : Sysfs} {control : ManualFrontLightControl}
    {request : ManualFrontLightRequest} (hoff : (control.apply system request).outcome = .kOff) :
    (control.backend.applyManualRequest system request).outcome = .kOff ∧
      (control.apply system request).control.backend =
        (control.backend.applyManualRequest system request).backend ∧
      (control.apply system request).written =
        (control.backend.applyManualRequest system request).written := by
  unfold ManualFrontLightControl.apply at hoff ⊢
  split at hoff
  · cases hoff
  · next hlatch =>
    rw [if_neg hlatch]
    split at hoff
    · cases hoff
    · next hvalid =>
      rw [if_neg hvalid]
      simp only at hoff ⊢
      split at hoff
      · cases hoff
      · next happlied =>
        rw [if_neg happlied]
        exact ⟨hoff, rfl, rfl⟩

/-- The rest follows from the resolution. -/
theorem offMeansOff_of_resolves {payload : Payload}
    (h : ∀ warmth, 0 ≤ warmth ∧ warmth ≤ 100 →
      ∃ resolution, payload.resolve ⟨0, warmth⟩ = some resolution ∧
        resolution.coldDriveCode = 0 ∧ resolution.warmDriveCode = 0) : payload.OffMeansOff := by
  have hbackend : ∀ (system : Sysfs) (backend : DirectBackend)
      (request : ManualFrontLightRequest),
      (backend.applyManualRequest system request).backend.payload = some payload →
        (backend.applyManualRequest system request).outcome = .kOff →
          ∀ w ∈ (backend.applyManualRequest system request).written, w.2 = 0 := by
    intro system backend request hpayload hoff w hw
    obtain ⟨hzero, resolution, hresolve, hcodes⟩ := applyManualRequest_kOff hpayload hoff
    obtain ⟨brightness, warmth⟩ := request
    have hbrightness : brightness = 0 := hzero
    subst hbrightness
    obtain ⟨resolution', hresolve', hcold, hwarm⟩ := h warmth (warmth_of_resolve hresolve)
    rw [hresolve, Option.some_inj] at hresolve'
    subst hresolve'
    rcases hcodes w hw with hcode | hcode
    · rw [hcode, hwarm]
    · rw [hcode, hcold]
  refine ⟨h, hbackend, fun system control request hpayload hoff => ?_⟩
  obtain ⟨hoff', hsame, hwritten⟩ := control_apply_kOff hoff
  rw [hsame] at hpayload
  rw [hwritten]
  exact hbackend system control.backend request hpayload hoff'

/-- The entries of step zero have the code zero exactly when the calibration is anchored. -/
theorem zeroAnchored_iff {payload : Payload} (haccepted : payload.Accepted)
    (hdirect : payload.directCodes = false) :
    payload.ZeroAnchored ↔
      payload.calibration.driveCodes.get payload.zeroCold = 0 ∧
        payload.calibration.driveCodes.get payload.zeroWarm = 0 := by
  obtain ⟨-, hcodes, -, -, hdrive⟩ := calibration_parts haccepted hdirect
  have hwarm : payload.zeroWarm = 0 ↔
      ∀ i, payload.calibration.drivePower.get 0 ≤ payload.calibration.drivePower.get i := by
    rw [Payload.zeroWarm, nearestIndex_eq_zero_iff]
    simp only [sub_zero, abs_of_nonneg (hdrive _)]
  have hcold := nearestIndex_eq_zero_iff payload.calibration.drivePower.get
    (max 0 (payload.zeroPower - payload.calibration.drivePower.get payload.zeroWarm))
  rw [get_eq_zero_iff hcodes payload.zeroCold, get_eq_zero_iff hcodes payload.zeroWarm]
  constructor
  · rintro ⟨hcode, hsmallest, hnearest⟩
    have hzero := hwarm.mpr hsmallest
    refine ⟨⟨?_, hcode⟩, hzero, hcode⟩
    rw [hzero] at hcold
    rw [Payload.zeroCold, hzero]
    exact hcold.mpr hnearest
  · rintro ⟨⟨hcoldZero, hcode⟩, hzero, -⟩
    rw [Payload.zeroCold] at hcoldZero
    have hnearest := hcold.mp hcoldZero
    rw [hzero] at hnearest
    exact ⟨hcode, hwarm.mp hzero, hnearest⟩

/-- Off means off exactly with a direct table and with an anchored calibration. -/
theorem offMeansOff_iff {payload : Payload} (haccepted : payload.Accepted) :
    payload.OffMeansOff ↔ payload.directCodes = true ∨ payload.ZeroAnchored := by
  cases hdirect : payload.directCodes with
  | true =>
    refine iff_of_true (offMeansOff_of_resolves fun warmth hwarmth => ?_) (Or.inl rfl)
    exact resolve_zero_direct haccepted hdirect hwarmth
  | false =>
    have hanchored := zeroAnchored_iff haccepted hdirect
    constructor
    · intro hoff
      obtain ⟨resolution, hresolve, hcold, hwarm⟩ := hoff.resolves 0 (by decide)
      obtain ⟨resolution', hresolve', hcold', hwarm'⟩ :=
        resolve_zero haccepted hdirect (show 0 ≤ (0 : Int) ∧ (0 : Int) ≤ 100 by decide)
      rw [hresolve, Option.some_inj] at hresolve'
      subst hresolve'
      exact Or.inr (hanchored.mpr ⟨hcold' ▸ hcold, hwarm' ▸ hwarm⟩)
    · rintro (h | h)
      · exact absurd h (by decide)
      · obtain ⟨hcoldZero, hwarmZero⟩ := hanchored.mp h
        apply offMeansOff_of_resolves
        intro warmth hwarmth
        obtain ⟨resolution, hresolve, hcold, hwarm⟩ := resolve_zero haccepted hdirect hwarmth
        exact ⟨resolution, hresolve, hcold.trans hcoldZero, hwarm.trans hwarmZero⟩

/-- Codes and powers that count up, with the cool channel at one power throughout. -/
def countingPayload (coldPower : ℚ) : Payload where
  calibration :=
    { brightnessCodes := .ofFn fun i => .ofNat i
      coldPower := .replicate _ coldPower
      driveCodes := .ofFn fun i => .ofNat i
      drivePower := .ofFn fun i => i.val }
  maxPowerMultiple := 1

theorem countingPayload_drivePower (coldPower : ℚ) (i : Fin kFrontLightDrivePoints) :
    (countingPayload coldPower).calibration.drivePower.get i = i.val := by
  show (Vector.ofFn fun i : Fin kFrontLightDrivePoints => (i.val : ℚ))[i.val] = i.val
  rw [Vector.getElem_ofFn]

theorem countingPayload_driveCodes (coldPower : ℚ) (i : Fin kFrontLightDrivePoints) :
    (countingPayload coldPower).calibration.driveCodes.get i = .ofNat i.val := by
  show (Vector.ofFn fun i : Fin kFrontLightDrivePoints => UInt16.ofNat i)[i.val] = .ofNat i.val
  rw [Vector.getElem_ofFn]

theorem countingPayload_coldPower (coldPower : ℚ) (i : Fin kFrontLightSteps) :
    (countingPayload coldPower).calibration.coldPower.get i = coldPower := by
  show (Vector.replicate kFrontLightSteps coldPower)[i.val] = coldPower
  rw [Vector.getElem_replicate]

theorem countingPayload_zeroPower (coldPower : ℚ) :
    (countingPayload coldPower).zeroPower = coldPower := by
  have hwarm : (countingPayload coldPower).calibration.warmPower.get 0 = 0 := rfl
  have hmultiple : (countingPayload coldPower).maxPowerMultiple = 1 := rfl
  rw [Payload.zeroPower, countingPayload_coldPower, countingPayload_coldPower, hwarm, hmultiple,
    add_zero, mul_one, min_self]

/-- Codes that count up are increasing. -/
theorem isIncreasing_ofFn {n : Nat} (hn : n ≤ 65536) :
    isIncreasing (Vector.ofFn fun i : Fin n => UInt16.ofNat i).toList = true := by
  rw [isIncreasing_iff, List.pairwise_iff_getElem]
  intro i j hi hj hij
  rw [Vector.length_toList] at hi hj
  simp only [Vector.getElem_toList, Vector.getElem_ofFn, UInt16.lt_iff_toNat_lt,
    UInt16.toNat_ofNat']
  omega

theorem countingPayload_accepted (coldPower : ℚ) (h : 0 ≤ coldPower) :
    (countingPayload coldPower).Accepted := by
  have hbrightness : isValidFrontLightBrightnessCodes (.ofFn fun i => .ofNat i) = true := by
    rw [isValidFrontLightBrightnessCodes, isIncreasing_ofFn (by decide), Bool.and_true]
    rfl
  have hdrive : isIncreasing
      (Vector.ofFn fun i : Fin kFrontLightDrivePoints => UInt16.ofNat i).toList = true :=
    isIncreasing_ofFn (by decide)
  have hpolicy : 0 < (countingPayload coldPower).maxPowerMultiple ∧
      0 < (countingPayload coldPower).warmPercentage := ⟨one_pos, (by decide : (0 : Int) < 100)⟩
  refine ⟨?_, fun _ => hpolicy⟩
  simp [Payload.isUsable, countingPayload, isValidFrontLightCalibration, hbrightness, hdrive,
    Vector.all_eq_true, isFiniteNonNegative, h]

theorem offMeansOff_countingPayload : (countingPayload 0).OffMeansOff := by
  apply (offMeansOff_iff (countingPayload_accepted 0 (le_refl 0))).mpr
  have hzero : (countingPayload 0).calibration.drivePower.get 0 = 0 :=
    countingPayload_drivePower 0 0
  refine Or.inr ⟨?_, fun i => ?_, fun i => ?_⟩
  · exact countingPayload_driveCodes 0 0
  · rw [hzero, countingPayload_drivePower]
    exact Nat.cast_nonneg i.val
  · rw [hzero, countingPayload_zeroPower, countingPayload_drivePower]
    simp

theorem not_forall_offMeansOff :
    ¬∀ payload : Payload, payload.Accepted → payload.OffMeansOff := by
  intro h
  have haccepted := countingPayload_accepted 1 zero_le_one
  rcases (offMeansOff_iff haccepted).mp (h _ haccepted) with hdirect | hanchored
  · cases hdirect
  · -- power one is nearer to the entry of power one than to the first
    have hnearest := hanchored.nearest ⟨1, by decide⟩
    have hzero : (countingPayload 1).calibration.drivePower.get 0 = 0 :=
      countingPayload_drivePower 1 0
    rw [hzero, countingPayload_zeroPower, countingPayload_drivePower] at hnearest
    norm_num at hnearest

end EinkLab.FrontLight
