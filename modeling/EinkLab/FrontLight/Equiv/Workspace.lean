import EinkLab.FrontLight.Workspace
import EinkLab.FrontLight.Equiv.Payload

/-!
# The owner's payload on the device

The text that `calibration` writes is read as it was meant.  What the device makes of any list in
that format depends on `DeviceReads` alone (`parsePayload_calibrationText`): it differs from the
workspace tool only in the upper bound of a code.
-/

namespace EinkLab.FrontLight.Workspace

open Text

/-! ### The line of codes -/

theorem notMem_codesText {levels : List Int} {c : Char} (hdigit : c.isDigit = false)
    (hminus : c ≠ '-') (hcomma : c ≠ ',') : c ∉ codesText levels := by
  unfold codesText
  intro h
  induction levels with
  | nil => exact absurd h List.not_mem_nil
  | cons n levels ih =>
    cases levels with
    | nil =>
      rw [List.map_cons, List.map_nil, List.intercalate_singleton] at h
      exact notMem_longText hdigit hminus h
    | cons m levels =>
      rw [List.map_cons, List.intercalate_cons_of_ne_nil (by simp), List.append_assoc,
        List.singleton_append] at h
      rcases List.mem_append.mp h with h | h
      · exact notMem_longText hdigit hminus h
      · rcases List.mem_cons.mp h with h | h
        · exact hcomma h
        · exact ih h

theorem last_codesText (levels : List Int) : ∀ c ∈ (codesText levels).getLast?, isSpace c =
    false := by
  intro c hc
  have hmem := List.mem_of_mem_getLast? hc
  by_contra hspace
  rw [Bool.not_eq_false] at hspace
  simp only [isSpace, Bool.or_eq_true, beq_iff_eq] at hspace
  rcases hspace with ((((rfl | rfl) | rfl) | rfl) | rfl) | rfl <;>
    exact notMem_codesText (by decide) (by decide) (by decide) hmem

theorem splitOn_codesText {levels : List Int} (h : levels ≠ []) :
    (codesText levels).splitOn ',' = levels.map longText := by
  apply List.splitOn_intercalate
  · intro piece hpiece
    obtain ⟨n, -, rfl⟩ := List.mem_map.mp hpiece
    exact notMem_longText (by decide) (by decide)
  · simpa using h

/-- The codes of a list of levels. -/
def codes (levels : List Int) : List UInt16 := levels.map fun n => UInt16.ofNat n.toNat

section Codes

variable {levels : List Int} {output : BrightnessCodes}

theorem parseArray_codesText :
    (parseArray parseCode (codesText levels) output).1 = true ↔
      levels.length = 31 ∧ ∀ v ∈ levels, 0 ≤ v ∧ v ≤ 65535 := by
  rw [parseArray_fst]
  by_cases hne : levels = []
  · subst hne
    exact iff_of_false (fun h => absurd h.1 (by decide)) fun h => absurd h.1 (by decide)
  · rw [splitOn_codesText hne, List.length_map, List.forall_mem_map]
    have hcode : ∀ v : Int, (parseCode (trim (longText v))).isSome ↔ 0 ≤ v ∧ v ≤ 65535 := by
      intro v
      rw [trim_longText, parseCode_longText]
      split
      · next hv => exact iff_of_true rfl hv
      · next hv => exact iff_of_false (by decide) hv
    simp only [hcode]
    exact Iff.rfl

theorem parseArray_codesText_snd
    (h : (parseArray parseCode (codesText levels) output).1 = true) :
    (parseArray parseCode (codesText levels) output).2.toList = codes levels := by
  obtain ⟨hlength, hrange⟩ := parseArray_codesText.mp h
  have hne : levels ≠ [] := by
    rintro rfl
    exact absurd hlength (by decide)
  have hprefix : parsePrefix parseCode (levels.map longText) = codes levels := by
    clear h hlength hne
    induction levels with
    | nil => rfl
    | cons n levels ih =>
      rw [List.map_cons, parsePrefix, trim_longText, parseCode_longText,
        if_pos (hrange n List.mem_cons_self), ih fun v hv => hrange v (List.mem_cons_of_mem _ hv)]
      rfl
  rw [parseArray_snd h, splitOn_codesText hne, hprefix]

theorem codes_toInt (hrange : ∀ v ∈ levels, 0 ≤ v ∧ v ≤ 65535) :
    (codes levels).map (fun c => (c.toNat : Int)) = levels := by
  rw [codes, List.map_map]
  conv_rhs => rw [← List.map_id levels]
  exact List.map_congr_left fun v hv => toNat_code (hrange v hv)

theorem isIncreasing_codes (hrange : ∀ v ∈ levels, 0 ≤ v ∧ v ≤ 65535) :
    isIncreasing (codes levels) = true ↔ hasDescent levels = false := by
  have hpair : ∀ p ∈ levels.zip levels.tail,
      (UInt16.ofNat p.2.toNat ≤ UInt16.ofNat p.1.toNat ↔ p.1 ≥ p.2) := by
    intro p hp
    obtain ⟨hfirst, hsecond⟩ := List.of_mem_zip hp
    have h₁ := toNat_code (hrange _ hfirst)
    have h₂ := toNat_code (hrange _ (List.mem_of_mem_tail hsecond))
    rw [UInt16.le_iff_toNat_le]
    omega
  rw [isIncreasing, codes, ← List.map_tail, List.zip_map, List.all_map, hasDescent,
    List.all_eq_true, List.any_eq_false]
  constructor
  · intro h p hp
    have hp' := h p hp
    simpa [hpair p hp] using hp'
  · intro h p hp
    have hp' := h p hp
    simpa [hpair p hp] using hp'

theorem get_zero_of_toList (hcodes : output.toList = codes levels) (hlength : levels.length = 31)
    (hrange : ∀ v ∈ levels, 0 ≤ v ∧ v ≤ 65535) : output.get 0 = 0 ↔ levels.head? = some 0 := by
  cases levels with
  | nil => exact absurd hlength (by decide)
  | cons n levels =>
    have hhead : output.get 0 = UInt16.ofNat n.toNat := by
      have hzero : output.toList[0]? = some (output.get 0) := by simp [Vector.get]
      rw [hcodes, codes, List.map_cons, List.getElem?_cons_zero, Option.some_inj] at hzero
      exact hzero.symm
    have hn := toNat_code (hrange n List.mem_cons_self)
    rw [hhead, List.head?_cons, Option.some_inj]
    constructor
    · intro h
      rw [h] at hn
      exact hn.symm
    · rintro rfl
      rfl

end Codes

/-! ### The whole text -/

theorem newline_notMem_endpointPath {chip node : List Char} (hchip : '\n' ∉ chip)
    (hnode : '\n' ∉ node) : '\n' ∉ endpointPath chip node := by
  have hbase : '\n' ∉ base := by
    rw [show base = _ from String.toList_ofList]
    decide
  have hend : '\n' ∉ "_brightness".toList := by
    rw [show "_brightness".toList = _ from String.toList_ofList]
    decide
  have hbus : '\n' ∉ "2-".toList := by decide
  have hslash : '\n' ∉ "/".toList := by decide
  simp only [endpointPath, List.mem_append, not_or]
  exact ⟨⟨⟨⟨⟨hbase, hbus⟩, hchip⟩, hslash⟩, hnode⟩, hend⟩

theorem newline_notMem_calibrationLines (levels : List Int) :
    ∀ line ∈ calibrationLines levels, '\n' ∉ line := by
  have hcodes : '\n' ∉ codesText levels :=
    notMem_codesText (by decide) (by decide) (by decide)
  have hschema : '\n' ∉ "schema=neo2-frontlight-direct-v1".toList := by
    rw [show "schema=neo2-frontlight-direct-v1".toList = _ from String.toList_ofList]
    decide
  have hid : '\n' ∉ "calibration_id=owner-aura-c".toList := by
    rw [show "calibration_id=owner-aura-c".toList = _ from String.toList_ofList]
    decide
  have hpath : ∀ {chip node : List Char}, '\n' ∉ chip → '\n' ∉ node →
      '\n' ∉ endpointPath chip node := newline_notMem_endpointPath
  simp only [calibrationLines, List.forall_mem_cons]
  exact ⟨hschema, hid, Key.brightnessCodes.newline_notMem_start String.toList_ofList hcodes,
    Key.coldPrimaryPath.newline_notMem_start String.toList_ofList (hpath (by decide) (by decide)),
    Key.coldSecondaryPath.newline_notMem_start String.toList_ofList (hpath (by decide) (by decide)),
    Key.warmPrimaryPath.newline_notMem_start String.toList_ofList (hpath (by decide) (by decide)),
    Key.warmSecondaryPath.newline_notMem_start String.toList_ofList (hpath (by decide) (by decide)),
    fun _ h => absurd h List.not_mem_nil⟩

/-- Whether the codes are read, and the table that they fill. -/
def readCodes (levels : List Int) : Bool × BrightnessCodes :=
  parseArray parseCode (codesText levels) (.replicate _ 0)

/-- The payload that the device builds from the text. -/
def readPayload (levels : List Int) : Payload where
  calibration := { brightnessCodes := (readCodes levels).2 }
  calibrationId := "owner-aura-c".toList
  coldPrimaryPath := endpointPath primary cold
  coldSecondaryPath := endpointPath secondary cold
  warmPrimaryPath := endpointPath primary warm
  warmSecondaryPath := endpointPath secondary warm

/-- The state at the end of the file. -/
def readState (levels : List Int) : ParseState where
  payload := readPayload levels
  directSchemaSeen := true
  brightnessSeen := (readCodes levels).1

theorem readState_filled (levels : List Int) :
    (!(readState levels).payload.calibrationId.isEmpty && true &&
      !(readState levels).payload.coldPrimaryPath.isEmpty &&
      !(readState levels).payload.warmPrimaryPath.isEmpty) = true := by
  simp [readState, readPayload, endpointPath]

theorem readCodes_fst {levels : List Int} :
    (readCodes levels).1 = true ↔ levels.length = 31 ∧ ∀ v ∈ levels, 0 ≤ v ∧ v ≤ 65535 :=
  parseArray_codesText

theorem readCodes_valid {levels : List Int} (h : (readCodes levels).1 = true) :
    isValidFrontLightBrightnessCodes (readCodes levels).2 = true ↔
      levels.head? = some 0 ∧ hasDescent levels = false := by
  obtain ⟨hlength, hrange⟩ := readCodes_fst.mp h
  have hcodes : (readCodes levels).2.toList = codes levels := parseArray_codesText_snd h
  rw [isValidFrontLightBrightnessCodes, Bool.and_eq_true, beq_iff_eq,
    get_zero_of_toList hcodes hlength hrange, hcodes, isIncreasing_codes hrange]

theorem last_endpointPath (chip node : List Char) :
    ∀ c ∈ (endpointPath chip node).getLast?, isSpace c = false := by
  have hlast : (endpointPath chip node).getLast? = some 's' := by
    rw [endpointPath, show "_brightness".toList = _ from String.toList_ofList,
      List.getLast?_append_of_ne_nil _ (by decide)]
    decide
  exact last_of_getLast? hlast (by decide)

theorem foldlM_calibrationLines (inRange : ℚ → Bool) (levels : List Int) :
    (calibrationLines levels ++ [[]]).foldlM (parseLine inRange) {} = some (readState levels) := by
  -- one fact for each line: its key, and a value that trimming leaves alone
  have hbrightness : ∀ s, parseLine inRange s ("brightness_codes=".toList ++ codesText levels) =
      parseValue inRange s (codesText levels) .brightnessCodes :=
    fun s => parseLine_prefix inRange s .brightnessCodes (Key.start_eq _ String.toList_ofList)
      (last_codesText levels)
  have hschema : ∀ s, parseLine inRange s "schema=neo2-frontlight-direct-v1".toList =
      parseValue inRange s directSchema .schema := by
    intro s
    have hline : "schema=neo2-frontlight-direct-v1".toList =
        Key.schema.chars ++ '=' :: directSchema := by
      rw [show directSchema = _ from String.toList_ofList]
      exact String.toList_ofList
    have hlast : directSchema.getLast? = some '1' := by
      rw [show directSchema = _ from String.toList_ofList]
      decide
    rw [hline, ← Key.text_eq_chars,
      parseLine_key inRange s .schema (last_of_getLast? hlast (by decide))]
  have hid : ∀ s, parseLine inRange s "calibration_id=owner-aura-c".toList =
      parseValue inRange s "owner-aura-c".toList .calibrationId := by
    intro s
    have hline : "calibration_id=owner-aura-c".toList =
        Key.calibrationId.chars ++ '=' :: "owner-aura-c".toList := by
      rw [show "owner-aura-c".toList = _ from String.toList_ofList]
      exact String.toList_ofList
    have hlast : "owner-aura-c".toList.getLast? = some 'c' := by
      rw [show "owner-aura-c".toList = _ from String.toList_ofList]
      decide
    rw [hline, ← Key.text_eq_chars,
      parseLine_key inRange s .calibrationId (last_of_getLast? hlast (by decide))]
  have hcoldPrimary :
      ∀ s, parseLine inRange s ("cold_primary_path=".toList ++ endpointPath primary cold) =
        parseValue inRange s (endpointPath primary cold) .coldPrimaryPath :=
    fun s => parseLine_prefix inRange s .coldPrimaryPath (Key.start_eq _ String.toList_ofList)
      (last_endpointPath _ _)
  have hcoldSecondary :
      ∀ s, parseLine inRange s ("cold_secondary_path=".toList ++ endpointPath secondary cold) =
        parseValue inRange s (endpointPath secondary cold) .coldSecondaryPath :=
    fun s => parseLine_prefix inRange s .coldSecondaryPath (Key.start_eq _ String.toList_ofList)
      (last_endpointPath _ _)
  have hwarmPrimary :
      ∀ s, parseLine inRange s ("warm_primary_path=".toList ++ endpointPath primary warm) =
        parseValue inRange s (endpointPath primary warm) .warmPrimaryPath :=
    fun s => parseLine_prefix inRange s .warmPrimaryPath (Key.start_eq _ String.toList_ofList)
      (last_endpointPath _ _)
  have hwarmSecondary :
      ∀ s, parseLine inRange s ("warm_secondary_path=".toList ++ endpointPath secondary warm) =
        parseValue inRange s (endpointPath secondary warm) .warmSecondaryPath :=
    fun s => parseLine_prefix inRange s .warmSecondaryPath (Key.start_eq _ String.toList_ofList)
      (last_endpointPath _ _)
  simp only [calibrationLines, List.cons_append, List.nil_append, List.foldlM_cons, List.foldlM_nil,
    hschema, hid, hbrightness, hcoldPrimary, hcoldSecondary, hwarmPrimary, hwarmSecondary,
    parseLine_nil, parseValue, Option.bind_eq_bind, Option.bind_some]
  rfl

/-- The device reads the text exactly when the list is what it asks for. -/
theorem parsePayload_calibrationText (levels : List Int) :
    parsePayload (calibrationText levels) =
        some { readPayload levels with directCodes := true } ∧ DeviceReads levels ∨
      parsePayload (calibrationText levels) = none ∧ ¬DeviceReads levels := by
  have hparse : parsePayload (calibrationText levels) = (readState levels).finish := by
    rw [parsePayload, parsePayloadWith, calibrationText,
      splitOn_joinLines (newline_notMem_calibrationLines levels), foldlM_calibrationLines,
      Option.bind_some]
  rw [hparse, ParseState.finish]
  by_cases hseen : (readCodes levels).1 = true
  · obtain ⟨hlength, hrange⟩ := readCodes_fst.mp hseen
    have hstate : (readState levels).brightnessSeen = true := hseen
    have hdirect : (readState levels).isDirect = true := by
      have hcommon : (readState levels).commonValid = true := by
        rw [ParseState.commonValid, hstate]
        exact readState_filled levels
      rw [ParseState.isDirect, hcommon]
      rfl
    have hvalid := readCodes_valid hseen
    rw [if_pos hdirect]
    split
    · next h =>
      obtain ⟨hhead, hincreasing⟩ := hvalid.mp h
      exact Or.inl ⟨rfl, hlength, hrange, hhead, hincreasing⟩
    · next h => exact Or.inr ⟨rfl, fun hreads => h (hvalid.mpr ⟨hreads.head, hreads.increasing⟩)⟩
  · rw [Bool.not_eq_true] at hseen
    have hcommon : (readState levels).commonValid = false := by
      have hstate : (readState levels).brightnessSeen = false := hseen
      rw [ParseState.commonValid, hstate]
      simp
    have hdirect : (readState levels).isDirect = false := by
      simp [ParseState.isDirect, hcommon]
    have hcalibrated : (readState levels).isCalibrated = false := by
      simp [ParseState.isCalibrated, hcommon]
    rw [hdirect, hcalibrated]
    refine Or.inr ⟨rfl, fun hreads => ?_⟩
    have hread := readCodes_fst.mpr ⟨hreads.length, hreads.range⟩
    rw [hseen] at hread
    exact absurd hread (by decide)

theorem calibration_eq_some_iff (levels : List Int) (text : List Char) :
    calibration levels = some text ↔
      text = calibrationText levels ∧ DeviceReads levels ∧ ∀ v ∈ levels, v ≤ 255 := by
  unfold calibration
  split
  · next h =>
    refine iff_of_false (by simp) ?_
    rintro ⟨-, hreads, hsmall⟩
    simp only [Bool.or_eq_true, decide_eq_true_eq, List.any_eq_true, bne_iff_ne] at h
    rcases h with ((h | ⟨v, hv, hout⟩) | h) | h
    · exact h hreads.length
    · have hv₁ := hreads.range v hv
      have hv₂ := hsmall v hv
      simp at hout
      omega
    · exact h hreads.head
    · rw [hreads.increasing] at h
      exact absurd h (by decide)
  · next h =>
    simp only [Bool.or_eq_true, decide_eq_true_eq, List.any_eq_true, bne_iff_ne, not_or,
      Bool.not_eq_true, ne_eq, not_not] at h
    obtain ⟨⟨⟨hlength, hrange⟩, hhead⟩, hincreasing⟩ := h
    have hbounds : ∀ v ∈ levels, 0 ≤ v ∧ v ≤ 255 := by
      intro v hv
      by_contra hout
      refine hrange ⟨v, hv, ?_⟩
      simp
      omega
    have hreads : DeviceReads levels :=
      ⟨hlength, fun v hv => ⟨(hbounds v hv).1, by have := (hbounds v hv).2; omega⟩, hhead,
        hincreasing⟩
    rw [Option.some_inj]
    constructor
    · intro htext
      exact ⟨htext.symm, hreads, fun v hv => (hbounds v hv).2⟩
    · rintro ⟨htext, -⟩
      exact htext.symm

/-- What the tool generates is read back as direct codes, with its codes and its four paths; a list
that it refuses is refused on the device too, unless nothing is wrong but codes from 256 on. -/
theorem calibration_roundTrip (levels : List Int) :
    (∀ text, calibration levels = some text →
      ∃ payload, parsePayload text = some payload ∧ payload.directCodes = true ∧
        payload.calibration.brightnessCodes.toList.map (fun c => (c.toNat : Int)) = levels ∧
        payload.coldPrimaryPath = endpointPath primary cold ∧
        payload.coldSecondaryPath = endpointPath secondary cold ∧
        payload.warmPrimaryPath = endpointPath primary warm ∧
        payload.warmSecondaryPath = endpointPath secondary warm ∧
        isValidFrontLightBrightnessCodes payload.calibration.brightnessCodes = true) ∧
      (calibration levels = none → ¬(DeviceReads levels ∧ ∃ v ∈ levels, 256 ≤ v) →
        parsePayload (calibrationText levels) = none) := by
  constructor
  · intro text htext
    obtain ⟨rfl, hreads, -⟩ := (calibration_eq_some_iff levels text).mp htext
    rcases parsePayload_calibrationText levels with ⟨hparse, -⟩ | ⟨-, hno⟩
    · have hseen := readCodes_fst.mpr ⟨hreads.length, hreads.range⟩
      have hcodes : (readCodes levels).2.toList = codes levels := parseArray_codesText_snd hseen
      have hvalid := (readCodes_valid hseen).mpr ⟨hreads.head, hreads.increasing⟩
      refine ⟨_, hparse, rfl, ?_, rfl, rfl, rfl, rfl, hvalid⟩
      show (readCodes levels).2.toList.map _ = levels
      rw [hcodes, codes_toInt hreads.range]
    · exact absurd hreads hno
  · intro hrefused hfault
    rcases parsePayload_calibrationText levels with ⟨-, hreads⟩ | ⟨hnone, -⟩
    · have hsmall : ∀ v ∈ levels, v ≤ 255 := by
        intro v hv
        by_contra hlarge
        exact hfault ⟨hreads, v, hv, by omega⟩
      have haccepted := (calibration_eq_some_iff levels _).mpr ⟨rfl, hreads, hsmall⟩
      rw [hrefused] at haccepted
      exact absurd haccepted (by simp)
    · exact hnone

/-- A list with the last code of a byte is accepted, and read back. -/
example : ((calibration ((List.range 30).map (fun i => 8 * (i : Int)) ++ [255])).bind
    parsePayload).map (fun payload =>
      (payload.directCodes, payload.calibration.brightnessCodes.toList.getLast?)) =
        some (true, some 255) := by
  decide +kernel

end EinkLab.FrontLight.Workspace
