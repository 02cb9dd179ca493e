import EinkLab.FrontLight.Equiv.Validator
import Mathlib.Algebra.Order.Ring.Rat

/-!
# What an accepted payload may contain

The flag of an array is that of its last line, so a malformed line that another line of its key
follows goes unnoticed; the direct schema asks for flags that are not set, which a malformed line
gives as well; and an empty text is read as the number 0.  An accepted payload is well formed
exactly when it has none of these (`closed_iff`).
-/

namespace EinkLab.FrontLight

open Text Workspace

variable {inRange : ℚ → Bool} {es : List Entry} {e : Entry} {key key' : Key} {value : List Char}
  {s t : ParseState} {contents : List Char} {payload : Payload}

/-! ### The lines of a payload -/

/-- What a line says, if it is to be read and its key is known. -/
def keyLine (rawLine : List Char) : Option Entry :=
  let line := trim rawLine
  if !isContent line then none
  else (keyValue line).bind fun (key, value) => (Key.ofText key).map fun key => (key, value)

def keyLines (contents : List Char) : List Entry := (contents.splitOn '\n').filterMap keyLine

/-- The value of the last line of a key. -/
def lastValue (key : Key) (es : List Entry) : Option (List Char) :=
  (es.reverse.find? fun e => e.1 = key).map Prod.snd

/-- A later line of the same key follows the line. -/
def Overridden (es : List Entry) (e : Entry) : Prop :=
  ∃ pre post value, es = pre ++ e :: post ∧ (e.1, value) ∈ post

theorem lastValue_append (key : Key) (es : List Entry) (e : Entry) :
    lastValue key (es ++ [e]) = if e.1 = key then some e.2 else lastValue key es := by
  rw [lastValue, List.reverse_append, List.reverse_singleton, List.singleton_append]
  by_cases h : e.1 = key
  · rw [List.find?_cons_of_pos (by simpa using h), if_pos h]
    rfl
  · rw [List.find?_cons_of_neg (by simpa using h), if_neg h, lastValue]

theorem mem_of_lastValue (h : lastValue key es = some value) : (key, value) ∈ es := by
  obtain ⟨⟨key', value'⟩, hfind, rfl⟩ := Option.map_eq_some_iff.mp h
  have hkey := List.find?_some hfind
  obtain rfl : key' = key := by simpa using hkey
  exact List.mem_reverse.mp (List.mem_of_find?_eq_some hfind)

theorem exists_lastValue (h : (key, value) ∈ es) : ∃ last, lastValue key es = some last := by
  rw [← Option.isSome_iff_exists, lastValue, Option.isSome_map, List.find?_isSome]
  exact ⟨(key, value), List.mem_reverse.mpr h, by simp⟩

/-- A line is the last of its key, or a later one follows it. -/
theorem lastValue_or_overridden (he : e ∈ es) :
    lastValue e.1 es = some e.2 ∨ Overridden es e := by
  induction es using List.reverseRecOn with
  | nil => exact absurd he List.not_mem_nil
  | append_singleton es x ih =>
    rw [lastValue_append]
    rcases List.mem_append.mp he with he | he
    · have hlater (h : Overridden es e) : Overridden (es ++ [x]) e := by
        obtain ⟨pre, post, value, rfl, hmem⟩ := h
        exact ⟨pre, post ++ [x], value, by simp, List.mem_append_left _ hmem⟩
      by_cases hkey : x.1 = e.1
      · obtain ⟨pre, post, rfl⟩ := List.append_of_mem he
        exact Or.inr ⟨pre, post ++ [x], x.2, by simp, by simp [← hkey]⟩
      · rw [if_neg hkey]
        exact (ih he).imp_right hlater
    · obtain rfl := List.mem_singleton.mp he
      exact Or.inl (if_pos rfl)

theorem Overridden.mem (h : Overridden es e) : e ∈ es := by
  obtain ⟨pre, post, value, rfl, -⟩ := h
  simp

/-! ### What the parser has read -/

/-- The array has the right number of pieces, and the parser reads each. -/
def ArrayRead {α : Type*} (parser : List Char → Option α) (n : Nat) (value : List Char) : Prop :=
  (value.splitOn ',').length = n ∧ ∀ piece ∈ value.splitOn ',', (parser (trim piece)).isSome

/-- The last line of a key is an array that is read. -/
def LastRead {α : Type*} (parser : List Char → Option α) (n : Nat) (key : Key)
    (es : List Entry) : Prop :=
  ∃ value ∈ lastValue key es, ArrayRead parser n value

/-- The state is that of the last line of each key. -/
structure Read (inRange : ℚ → Bool) (es : List Entry) (s : ParseState) : Prop where
  calibrated : s.calibratedSchemaSeen = true ↔ lastValue .schema es = some calibratedSchema
  direct : s.directSchemaSeen = true ↔ lastValue .schema es = some directSchema
  brightness : s.brightnessSeen = true ↔ LastRead parseCode kFrontLightSteps .brightnessCodes es
  cold : s.coldSeen = true ↔ LastRead (parseDouble inRange) kFrontLightSteps .coldPower es
  warm : s.warmSeen = true ↔ LastRead (parseDouble inRange) kFrontLightSteps .warmPower es
  driveCodes : s.driveCodesSeen = true ↔ LastRead parseCode kFrontLightDrivePoints .driveCodes es
  drivePower : s.drivePowerSeen = true ↔
    LastRead (parseDouble inRange) kFrontLightDrivePoints .drivePower es
  calibrationId : s.payload.calibrationId = (lastValue .calibrationId es).getD []
  coldPrimaryPath : s.payload.coldPrimaryPath = (lastValue .coldPrimaryPath es).getD []
  warmPrimaryPath : s.payload.warmPrimaryPath = (lastValue .warmPrimaryPath es).getD []
  maxPowerMultiple : s.payload.maxPowerMultiple =
    ((lastValue .maxPowerMultiple es).bind (parseDouble inRange)).getD 0
  numbers : ∀ e ∈ es, (e.1 = .warmPercentage → (parseInt e.2).isSome = true) ∧
    (e.1 = .maxPowerMultiple → (parseDouble inRange e.2).isSome = true)

theorem read_nil : Read inRange [] {} := by
  constructor
  all_goals simp [lastValue, LastRead]

theorem lastRead_append_of_ne {α : Type*} {parser : List Char → Option α} {n : Nat}
    (h : e.1 ≠ key) : LastRead parser n key (es ++ [e]) ↔ LastRead parser n key es := by
  rw [LastRead, lastValue_append, if_neg h, LastRead]

theorem lastRead_append_self {α : Type*} {parser : List Char → Option α} {n : Nat}
    {output : Vector α n} :
    LastRead parser n key (es ++ [(key, value)]) ↔ (parseArray parser value output).1 = true := by
  rw [LastRead, lastValue_append, if_pos rfl, parseArray_fst]
  simp [ArrayRead]

/-- One line changes what its key stands for. -/
theorem Read.parseValue (h : Read inRange es s) (ht : parseValue inRange s value key = some t) :
    Read inRange (es ++ [(key, value)]) t := by
  have hnumbers (hnew : (key = .warmPercentage → (parseInt value).isSome = true) ∧
      (key = .maxPowerMultiple → (parseDouble inRange value).isSome = true)) :
      ∀ e ∈ es ++ [(key, value)], (e.1 = .warmPercentage → (parseInt e.2).isSome = true) ∧
        (e.1 = .maxPowerMultiple → (parseDouble inRange e.2).isSome = true) := by
    intro e he
    rcases List.mem_append.mp he with he | he
    · exact h.numbers e he
    · rw [List.mem_singleton.mp he]
      exact hnew
  cases key with
  | maxPowerMultiple =>
    obtain ⟨parsed, hparsed, rfl⟩ := Option.map_eq_some_iff.mp ht
    constructor
    case numbers => exact hnumbers ⟨by simp, fun _ => by rw [hparsed]; rfl⟩
    all_goals simp [lastValue_append, lastRead_append_of_ne, hparsed, h.calibrated, h.direct,
      h.brightness, h.cold, h.warm, h.driveCodes, h.drivePower, h.calibrationId, h.coldPrimaryPath,
      h.warmPrimaryPath]
  | warmPercentage =>
    obtain ⟨parsed, hparsed, rfl⟩ := Option.map_eq_some_iff.mp ht
    constructor
    case numbers => exact hnumbers ⟨fun _ => by rw [hparsed]; rfl, by simp⟩
    all_goals simp [lastValue_append, lastRead_append_of_ne, h.calibrated, h.direct,
      h.brightness, h.cold, h.warm, h.driveCodes, h.drivePower, h.calibrationId, h.coldPrimaryPath,
      h.warmPrimaryPath, h.maxPowerMultiple]
  | brightnessCodes | coldPower | warmPower | driveCodes | drivePower =>
    obtain rfl := Option.some.inj ht
    constructor
    case brightness | cold | warm | driveCodes | drivePower =>
      first
      | exact lastRead_append_self.symm
      | simp [lastRead_append_of_ne, h.brightness, h.cold, h.warm, h.driveCodes, h.drivePower]
    case numbers => exact hnumbers ⟨by simp, by simp⟩
    all_goals simp [lastValue_append, h.calibrated, h.direct, h.calibrationId, h.coldPrimaryPath,
      h.warmPrimaryPath, h.maxPowerMultiple]
  | schema | calibrationId | coldPrimaryPath | coldSecondaryPath | warmPrimaryPath
  | warmSecondaryPath =>
    obtain rfl := Option.some.inj ht
    constructor
    case numbers => exact hnumbers ⟨by simp, by simp⟩
    all_goals simp [lastValue_append, lastRead_append_of_ne, h.calibrated, h.direct,
      h.brightness, h.cold, h.warm, h.driveCodes, h.drivePower, h.calibrationId, h.coldPrimaryPath,
      h.warmPrimaryPath, h.maxPowerMultiple]

/-- A line that is read is skipped, or it is that of a key. -/
theorem parseLine_cases {rawLine : List Char} (h : parseLine inRange s rawLine = some t) :
    (keyLine rawLine = none ∧ t = s) ∨
      ∃ key value, keyLine rawLine = some (key, value) ∧ parseValue inRange s value key =
      some t := by
  unfold parseLine at h
  unfold keyLine
  by_cases hcontent : isContent (trim rawLine) = true
  · simp only [hcontent, Bool.not_true, Bool.false_eq_true, if_false] at h ⊢
    obtain ⟨⟨name, value⟩, hread, h⟩ := Option.bind_eq_some_iff.mp h
    obtain ⟨key, hkey, h⟩ := Option.bind_eq_some_iff.mp h
    exact Or.inr ⟨key, value, by simp [hread, hkey], h⟩
  · simp only [hcontent, Bool.not_false, if_true, Option.some.injEq] at h ⊢
    exact Or.inl ⟨trivial, h.symm⟩

theorem Read.foldlM {lines : List (List Char)} (h : Read inRange es s)
    (ht : lines.foldlM (parseLine inRange) s = some t) :
    Read inRange (es ++ lines.filterMap keyLine) t := by
  induction lines generalizing es s with
  | nil =>
    obtain rfl := Option.some.inj ht
    simpa using h
  | cons line lines ih =>
    obtain ⟨s', hline, hrest⟩ := Option.bind_eq_some_iff.mp ht
    rcases parseLine_cases hline with ⟨hkey, rfl⟩ | ⟨key, value, hkey, hvalue⟩
    · rw [List.filterMap_cons_none hkey]
      exact ih h hrest
    · rw [List.filterMap_cons_some hkey, ← List.singleton_append, ← List.append_assoc]
      exact ih (h.parseValue hvalue) hrest

/-- The state at the end of an accepted payload. -/
theorem exists_read (h : parsePayloadWith inRange contents = some payload) :
    ∃ s, Read inRange (keyLines contents) s ∧ s.finish = some payload := by
  obtain ⟨s, hlines, hfinish⟩ := Option.bind_eq_some_iff.mp h
  exact ⟨s, read_nil.foldlM hlines, hfinish⟩

/-! ### What the end of the file asks for -/

/-- The keys that only the calibrated schema has. -/
def powerKeys : List Key := [.maxPowerMultiple, .coldPower, .warmPower, .driveCodes, .drivePower]

def requiredKeys : List Key :=
  [.schema, .calibrationId, .brightnessCodes, .coldPrimaryPath, .warmPrimaryPath]

theorem isSome_lastValue {f : List Char → Bool} (h : f ((lastValue key es).getD []) = true)
    (hnil : f [] = false) : (lastValue key es).isSome = true := by
  cases hlast : lastValue key es with
  | none =>
    rw [hlast, Option.getD_none, hnil] at h
    exact absurd h (by decide)
  | some value => rfl

theorem LastRead.isSome {α : Type*} {parser : List Char → Option α} {n : Nat}
    (h : LastRead parser n key es) : (lastValue key es).isSome = true := by
  obtain ⟨value, hvalue, -⟩ := h
  rw [hvalue]
  rfl

theorem Read.isSome_of_commonValid (h : Read inRange es s) (hcommon : s.commonValid = true)
    (hschema : (lastValue .schema es).isSome = true) :
    ∀ key ∈ requiredKeys, (lastValue key es).isSome = true := by
  simp only [ParseState.commonValid, Bool.and_eq_true, h.calibrationId, h.coldPrimaryPath,
    h.warmPrimaryPath] at hcommon
  obtain ⟨⟨⟨hid, hbrightness⟩, hcold⟩, hwarm⟩ := hcommon
  simp only [requiredKeys, List.forall_mem_cons]
  exact ⟨hschema, isSome_lastValue (f := fun text => !text.isEmpty) hid rfl,
    (h.brightness.mp hbrightness).isSome,
    isSome_lastValue (f := fun text => !text.isEmpty) hcold rfl,
    isSome_lastValue (f := fun text => !text.isEmpty) hwarm rfl, by simp⟩

/-- Either schema is that of the last line, and the flags are those it asks for. -/
theorem Read.finish (h : Read inRange es s) (hfinish : s.finish = some payload) :
    (lastValue .schema es = some directSchema ∧ s.commonValid = true ∧ s.coldSeen = false ∧
        s.warmSeen = false ∧ s.driveCodesSeen = false ∧ s.drivePowerSeen = false) ∨
      (lastValue .schema es = some calibratedSchema ∧ s.commonValid = true ∧ s.coldSeen = true ∧
        s.warmSeen = true ∧ s.driveCodesSeen = true ∧ s.drivePowerSeen = true ∧
        0 < s.payload.maxPowerMultiple) := by
  unfold ParseState.finish at hfinish
  by_cases hdirect : s.isDirect = true
  · simp only [ParseState.isDirect, Bool.and_eq_true, Bool.not_eq_true', h.direct] at hdirect
    obtain ⟨⟨⟨⟨⟨⟨⟨hschema, -⟩, hcommon⟩, hcold⟩, hwarm⟩, hcodes⟩, hpower⟩, -⟩ := hdirect
    exact Or.inl ⟨hschema, hcommon, hcold, hwarm, hcodes, hpower⟩
  · by_cases hcalibrated : s.isCalibrated = true
    · simp only [ParseState.isCalibrated, Bool.and_eq_true, h.calibrated, gt_iff_lt,
        decide_eq_true_eq] at hcalibrated
      obtain ⟨⟨⟨⟨⟨⟨⟨⟨hschema, -⟩, hcommon⟩, hcold⟩, hwarm⟩, hcodes⟩, hpower⟩, hmax⟩, -⟩ :=
        hcalibrated
      exact Or.inr ⟨hschema, hcommon, hcold, hwarm, hcodes, hpower, hmax⟩
    · rw [if_neg hdirect, if_neg hcalibrated] at hfinish
      exact absurd hfinish (by simp)

/-! ### Closed payloads -/

/-- The pieces of an array of decimals, none of them empty. -/
def NoEmptyPiece (value : List Char) : Prop := ∀ piece ∈ value.splitOn ',', trim piece ≠ []

/-- The value of a key was parsed completely. -/
def WellFormed (inRange : ℚ → Bool) : Key → List Char → Prop
  | .schema, value => value = calibratedSchema ∨ value = directSchema
  | .maxPowerMultiple, value => value ≠ [] ∧ (parseDouble inRange value).isSome = true
  | .warmPercentage, value => (parseInt value).isSome = true
  | .brightnessCodes, value => ArrayRead parseCode kFrontLightSteps value
  | .coldPower, value | .warmPower, value =>
      NoEmptyPiece value ∧ ArrayRead (parseDouble inRange) kFrontLightSteps value
  | .driveCodes, value => ArrayRead parseCode kFrontLightDrivePoints value
  | .drivePower, value =>
    NoEmptyPiece value ∧ ArrayRead (parseDouble inRange) kFrontLightDrivePoints value
  | .calibrationId, _ | .coldPrimaryPath, _ | .coldSecondaryPath, _ | .warmPrimaryPath, _
  | .warmSecondaryPath, _ => True

/-- What the payload holds is complete, and of one schema. -/
structure Closed (inRange : ℚ → Bool) (es : List Entry) : Prop where
  wellFormed : ∀ e ∈ es, WellFormed inRange e.1 e.2
  required : ∀ key ∈ requiredKeys, ∃ value, (key, value) ∈ es
  power : (.schema, directSchema) ∈ es ∨ ∀ key ∈ powerKeys, ∃ value, (key, value) ∈ es
  direct : (.schema, directSchema) ∈ es → ∀ key ∈ powerKeys, ∀ value, (key, value) ∉ es

/-- No malformed line is covered by a later one, nor a direct schema by the other; no unread array
or empty number goes unnoticed at the end, and no multiple stands under the direct schema. -/
structure Plain (inRange : ℚ → Bool) (es : List Entry) : Prop where
  overridden : ∀ e, Overridden es e → WellFormed inRange e.1 e.2
  schema : Overridden es (.schema, directSchema) → lastValue .schema es = some directSchema
  unread : ∀ key ∈ powerKeys, ∀ value, lastValue key es = some value → WellFormed inRange key value
  multiple : lastValue .schema es = some directSchema → lastValue .maxPowerMultiple es = none

theorem ArrayRead.of_lastRead {α : Type*} {parser : List Char → Option α} {n : Nat}
    (h : LastRead parser n key es) (hvalue : lastValue key es = some value) :
    ArrayRead parser n value := by
  obtain ⟨read, hread, harray⟩ := h
  rw [hvalue, Option.mem_some_iff] at hread
  rwa [hread]

theorem lastRead_of_wellFormed {α : Type*} {parser : List Char → Option α} {n : Nat}
    (hvalue : lastValue key es = some value) (h : ArrayRead parser n value) :
    LastRead parser n key es := ⟨value, hvalue, h⟩

/-- Under the direct schema an array that is well formed in its last line is not there. -/
theorem Plain.notMem_of_lastRead {n : Nat} {α : Type*} {parser : List Char → Option α}
    (h : Plain inRange es) (hkey : key ∈ powerKeys)
    (hread : ∀ value, WellFormed inRange key value → ArrayRead parser n value)
    (hnot : ¬LastRead parser n key es) (value : List Char) : (key, value) ∉ es := by
  intro hmem
  obtain ⟨last, hlast⟩ := exists_lastValue hmem
  exact hnot (lastRead_of_wellFormed hlast (hread last (h.unread key hkey last hlast)))

/-- A line is well formed where it is covered, and where it is the last of its key. -/
theorem Plain.wellFormed (h : Plain inRange es) (hr : Read inRange es s)
    (hfinish : s.finish = some payload) :
    ∀ e ∈ es, WellFormed inRange e.1 e.2 := by
  rintro ⟨key, value⟩ he
  rcases lastValue_or_overridden he with hlast | hover
  · -- the end of the file answers for the last line of every key but those of power
    cases key with
    | schema =>
      rcases hr.finish hfinish with ⟨hschema, -⟩ | ⟨hschema, -⟩
      · exact Or.inr (Option.some.inj (hlast.symm.trans hschema))
      · exact Or.inl (Option.some.inj (hlast.symm.trans hschema))
    | warmPercentage => exact (hr.numbers _ he).1 rfl
    | brightnessCodes =>
      have hcommon : s.commonValid = true := by
        rcases hr.finish hfinish with ⟨-, hcommon, -⟩ | ⟨-, hcommon, -⟩ <;> exact hcommon
      simp only [ParseState.commonValid, Bool.and_eq_true] at hcommon
      exact ArrayRead.of_lastRead (hr.brightness.mp hcommon.1.1.2) hlast
    | maxPowerMultiple | coldPower | warmPower | driveCodes | drivePower =>
      exact h.unread _ (by simp [powerKeys]) value hlast
    | calibrationId | coldPrimaryPath | coldSecondaryPath | warmPrimaryPath
    | warmSecondaryPath => trivial
  · exact h.overridden _ hover

theorem Read.isSome_of_calibrated (h : Read inRange es s) (hcold : s.coldSeen = true)
    (hwarm : s.warmSeen = true) (hcodes : s.driveCodesSeen = true)
    (hpower : s.drivePowerSeen = true) (hmax : 0 < s.payload.maxPowerMultiple) :
    ∀ key ∈ powerKeys, (lastValue key es).isSome = true := by
  have hmultiple : (lastValue .maxPowerMultiple es).isSome = true := by
    cases hlast : lastValue .maxPowerMultiple es with
    | none =>
      rw [h.maxPowerMultiple, hlast] at hmax
      exact absurd hmax (lt_irrefl _)
    | some value => rfl
  simp only [powerKeys, List.forall_mem_cons]
  exact ⟨hmultiple, (h.cold.mp hcold).isSome, (h.warm.mp hwarm).isSome,
    (h.driveCodes.mp hcodes).isSome, (h.drivePower.mp hpower).isSome, by simp⟩

/-- Under the direct schema no line of the other is there. -/
theorem Plain.notMem_of_direct (h : Plain inRange es) (hr : Read inRange es s)
    (hfinish : s.finish = some payload) (hschema : lastValue .schema es = some directSchema) :
    ∀ key ∈ powerKeys, ∀ value, (key, value) ∉ es := by
  rcases hr.finish hfinish with ⟨-, -, hcold, hwarm, hcodes, hpower⟩ | ⟨hother, -⟩
  · simp only [powerKeys, List.forall_mem_cons]
    refine ⟨?_, ?_, ?_, ?_, ?_, by simp⟩
    · intro value hmem
      obtain ⟨last, hlast⟩ := exists_lastValue hmem
      rw [h.multiple hschema] at hlast
      exact absurd hlast (by simp)
    · exact h.notMem_of_lastRead (by simp [powerKeys]) (fun _ hwell => hwell.2)
        (hr.cold.not.mp (by simp [hcold]))
    · exact h.notMem_of_lastRead (by simp [powerKeys]) (fun _ hwell => hwell.2)
        (hr.warm.not.mp (by simp [hwarm]))
    · exact h.notMem_of_lastRead (by simp [powerKeys]) (fun _ hwell => hwell)
        (hr.driveCodes.not.mp (by simp [hcodes]))
    · exact h.notMem_of_lastRead (by simp [powerKeys]) (fun _ hwell => hwell.2)
        (hr.drivePower.not.mp (by simp [hpower]))
  · rw [hschema] at hother
    exact absurd (Option.some.inj hother) (by decide)

theorem Closed.plain (hc : Closed inRange es) (hr : Read inRange es s)
    (hfinish : s.finish = some payload) :
    Plain inRange es := by
  refine ⟨fun e he => hc.wellFormed e he.mem, fun hover => ?_,
    fun key _ value hlast => hc.wellFormed (key, value) (mem_of_lastValue hlast),
    fun hschema => ?_⟩
  · rcases hr.finish hfinish with ⟨hschema, -⟩ | ⟨-, -, hcold, -⟩
    · exact hschema
    · -- the calibrated schema asks for a cold power, which a direct payload must not have
      obtain ⟨value, hvalue, -⟩ := hr.cold.mp hcold
      exact absurd (mem_of_lastValue hvalue)
        (hc.direct hover.mem .coldPower (by simp [powerKeys]) value)
  · refine Option.eq_none_iff_forall_ne_some.mpr fun value hvalue => ?_
    exact hc.direct (mem_of_lastValue hschema) .maxPowerMultiple (by simp [powerKeys]) value
      (mem_of_lastValue hvalue)

theorem Plain.closed (hp : Plain inRange es) (hr : Read inRange es s)
    (hfinish : s.finish = some payload) :
    Closed inRange es := by
  have hsome : ∀ {key}, (lastValue key es).isSome = true → ∃ value, (key, value) ∈ es := by
    intro key hkey
    obtain ⟨value, hvalue⟩ := Option.isSome_iff_exists.mp hkey
    exact ⟨value, mem_of_lastValue hvalue⟩
  refine ⟨hp.wellFormed hr hfinish, fun key hkey => hsome ?_, ?_, fun hmem => ?_⟩
  · rcases hr.finish hfinish with ⟨hschema, hcommon, -⟩ | ⟨hschema, hcommon, -⟩
    · exact hr.isSome_of_commonValid hcommon (by rw [hschema]; rfl) key hkey
    · exact hr.isSome_of_commonValid hcommon (by rw [hschema]; rfl) key hkey
  · rcases hr.finish hfinish with ⟨hschema, -⟩ | ⟨-, -, hcold, hwarm, hcodes, hpower, hmax⟩
    · exact Or.inl (mem_of_lastValue hschema)
    · exact Or.inr fun key hkey =>
        hsome (hr.isSome_of_calibrated hcold hwarm hcodes hpower hmax key hkey)
  · -- a direct line that is covered has the direct schema behind it
    have hschema : lastValue .schema es = some directSchema := by
      rcases lastValue_or_overridden hmem with hlast | hover
      · exact hlast
      · exact hp.schema hover
    exact hp.notMem_of_direct hr hfinish hschema

/-- What an accepted payload holds is complete and of one schema exactly when nothing of it went
unnoticed. -/
theorem closed_iff (h : parsePayloadWith inRange contents = some payload) :
    Closed inRange (keyLines contents) ↔ Plain inRange (keyLines contents) := by
  obtain ⟨s, hr, hfinish⟩ := exists_read h
  exact ⟨fun hc => hc.plain hr hfinish, fun hp => hp.closed hr hfinish⟩

/-! ### Direct payloads -/

theorem keyLine_line {e : Entry} (hlast : ∀ c ∈ e.2.getLast?, isSpace c = false) :
    keyLine e.line = some e := by
  have hread : keyValue (e.1.text ++ '=' :: e.2) = some (e.1.text, e.2) :=
    keyValue_append e.1.equals_notMem_text
  unfold keyLine Entry.line
  simp only [e.1.trim_line hlast, e.1.isContent_line, hread, Bool.not_true, Bool.false_eq_true,
    if_false, Option.bind_some, Key.ofText_text, Option.map_some]

/-- A value that stands in a line as it is. -/
def IsValue (value : List Char) : Prop :=
  '\n' ∉ value ∧ ∀ c ∈ value.getLast?, isSpace c = false

theorem splitOn_lines (h : ∀ e ∈ es, IsValue e.2) :
    (joinLines (es.map Entry.line)).splitOn '\n' = es.map Entry.line ++ [[]] := by
  refine splitOn_joinLines fun line hline => ?_
  obtain ⟨e, he, rfl⟩ := List.mem_map.mp hline
  simp [Entry.line, e.1.newline_notMem_text, (h e he).1]

/-- The lines of a text that is written line by line. -/
theorem keyLines_lines (h : ∀ e ∈ es, IsValue e.2) :
    keyLines (joinLines (es.map Entry.line)) = es := by
  rw [keyLines, splitOn_lines h, List.filterMap_append, List.filterMap_map]
  have hline : ∀ e ∈ es, (keyLine ∘ Entry.line) e = some e :=
    fun e he => keyLine_line (h e he).2
  rw [List.filterMap_congr hline]
  simp [keyLine, isContent, trim]

theorem foldlM_lines (h : ∀ e ∈ es, IsValue e.2) (s : ParseState) :
    (es.map Entry.line).foldlM (parseLine inRange) s = readEntries inRange s es := by
  induction es generalizing s with
  | nil => rfl
  | cons e es ih =>
    have hline := parseLine_key inRange s e.1 (h e List.mem_cons_self).2
    rw [List.map_cons, List.foldlM_cons, Entry.line, hline, readEntries, List.foldlM_cons]
    exact congrArg _ (funext (ih fun e he => h e (List.mem_cons_of_mem _ he)))

theorem parsePayload_lines (h : ∀ e ∈ es, IsValue e.2) :
    parsePayloadWith inRange (joinLines (es.map Entry.line)) =
      (readEntries inRange {} es).bind ParseState.finish := by
  rw [parsePayloadWith, splitOn_lines h, List.foldlM_append, foldlM_lines h]
  simp [parseLine_nil]

theorem not_overridden (h : (es.map Prod.fst).Nodup) : ¬Overridden es e := by
  rintro ⟨pre, post, value, rfl, hmem⟩
  rw [List.map_append, List.nodup_append, List.map_cons, List.nodup_cons] at h
  exact h.2.1.1 (List.mem_map.mpr ⟨_, hmem, rfl⟩)

/-- A direct payload with counting codes. -/
def directEntries : List Entry :=
  [(.schema, directSchema), (.calibrationId, ['a']),
    (.brightnessCodes, codesText ((List.range 31).map Int.ofNat)),
    (.coldPrimaryPath, ['c']), (.warmPrimaryPath, ['w'])]

theorem isValue_directEntries : ∀ e ∈ directEntries, IsValue e.2 := by
  simp only [directEntries, List.forall_mem_cons]
  refine ⟨?_, ⟨by decide, last_of_getLast? rfl (by decide)⟩, ⟨?_, last_codesText _⟩,
    ⟨by decide, last_of_getLast? rfl (by decide)⟩, ⟨by decide, last_of_getLast? rfl (by decide)⟩,
    by simp⟩
  · rw [show directSchema = _ from String.toList_ofList]
    exact ⟨by decide, last_of_getLast? rfl (by decide)⟩
  · exact notMem_codesText (by decide) (by decide) (by decide)

theorem plain_directEntries (inRange : ℚ → Bool) : Plain inRange directEntries := by
  have hnodup : (directEntries.map Prod.fst).Nodup := by decide
  refine ⟨fun e h => absurd h (not_overridden hnodup), fun h => absurd h (not_overridden hnodup),
    ?_, fun _ => rfl⟩
  intro key hkey value hvalue
  have hnone : lastValue key directEntries = none := by
    simp only [powerKeys, List.mem_cons, List.not_mem_nil, or_false] at hkey
    rcases hkey with rfl | rfl | rfl | rfl | rfl <;> rfl
  rw [hnone] at hvalue
  exact absurd hvalue (by simp)

theorem closed_iff_direct :
    Closed inDoubleRange (keyLines (joinLines (directEntries.map Entry.line))) := by
  have hsome : ((readEntries inDoubleRange {} directEntries).bind ParseState.finish).isSome =
    true := by
    decide +kernel
  obtain ⟨payload, hpayload⟩ := Option.isSome_iff_exists.mp hsome
  have hplain := plain_directEntries inDoubleRange
  rw [← keyLines_lines isValue_directEntries] at hplain
  exact (closed_iff ((parsePayload_lines isValue_directEntries).trans hpayload)).mpr hplain

/-- A direct payload may hold a power line, which is no array. -/
theorem not_forall_closed :
    ¬∀ contents payload, parsePayload contents = some payload →
      Closed inDoubleRange (keyLines contents) := by
  intro h
  have hvalue : ∀ e ∈ directEntries ++ [(.coldPower, ['x'])], IsValue e.2 := by
    intro e he
    rcases List.mem_append.mp he with he | he
    · exact isValue_directEntries e he
    · rw [List.mem_singleton.mp he]
      exact ⟨by decide, last_of_getLast? rfl (by decide)⟩
  have hsome : ((readEntries inDoubleRange {} (directEntries ++ [(.coldPower, ['x'])])).bind
      ParseState.finish).isSome = true := by
    decide +kernel
  obtain ⟨payload, hpayload⟩ := Option.isSome_iff_exists.mp hsome
  have hclosed := h _ payload ((parsePayload_lines hvalue).trans hpayload)
  rw [keyLines_lines hvalue] at hclosed
  exact hclosed.direct (by simp [directEntries]) .coldPower (by simp [powerKeys]) ['x'] (by simp)

-- of an array of the right size, a number out of range goes unnoticed as well
example : ((readEntries inDoubleRange {} (directEntries ++ [(.coldPower,
    "1e999".toList ++ (List.replicate 30 ",0".toList).flatten)])).bind ParseState.finish).isSome =
      true := by
  decide +kernel

end EinkLab.FrontLight
