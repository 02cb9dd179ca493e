import EinkLab.FrontLight.Equiv.Workspace
import EinkLab.FrontLight.Equiv.Numbers
import Mathlib.Data.List.Forall2

/-!
# What the validator and the device accept

A file that the tool reads holds one line `key=value` for each key (`load_entries`), and the device
reads such lines in any order to one state (`Reads`).  The device parses the numbers of the tool
where they are written as C writes them, and it asks for one thing more: the first brightness code
is zero.
-/

namespace EinkLab.FrontLight

open Text Workspace

/-! ### Lines -/

abbrev Entry := Key × List Char

def Entry.line (entry : Entry) : List Char := entry.1.text ++ '=' :: entry.2

/-- The lines that the device reads. -/
def deviceLines (contents : List Char) : List (List Char) :=
  ((contents.splitOn '\n').map trim).filter isContent

def parseContent (inRange : ℚ → Bool) (s : ParseState) (line : List Char) : Option ParseState :=
  (keyValue line).bind fun (key, value) => (Key.ofText key).bind (parseValue inRange s value)

def readEntries (inRange : ℚ → Bool) (s : ParseState) (entries : List Entry) : Option ParseState :=
  entries.foldlM (fun s entry => parseValue inRange s entry.2 entry.1) s

section Lines

variable {inRange : ℚ → Bool}

theorem foldlM_parseLine (lines : List (List Char)) (s : ParseState) :
    lines.foldlM (parseLine inRange) s =
      ((lines.map trim).filter isContent).foldlM (parseContent inRange) s := by
  induction lines generalizing s with
  | nil => rfl
  | cons line lines ih =>
    rw [List.map_cons, List.filter_cons, List.foldlM_cons]
    cases hcontent : isContent (trim line) with
    | false =>
      have hline : parseLine inRange s line = some s := by
        unfold parseLine
        simp [hcontent]
      rw [hline, if_neg (by decide)]
      exact ih s
    | true =>
      have hline : parseLine inRange s line = parseContent inRange s (trim line) := by
        unfold parseLine parseContent
        simp [hcontent]
      rw [hline, if_pos rfl, List.foldlM_cons]
      exact congrArg _ (funext ih)

theorem foldlM_parseContent (entries : List Entry) (s : ParseState) :
    (entries.map Entry.line).foldlM (parseContent inRange) s = readEntries inRange s entries := by
  have hline : ∀ (s : ParseState) (entry : Entry),
      parseContent inRange s entry.line = parseValue inRange s entry.2 entry.1 := by
    intro s entry
    rw [parseContent, Entry.line, keyValue_append entry.1.equals_notMem_text, Option.bind_some]
    simp only [Key.ofText_text, Option.bind_some]
  rw [List.foldlM_map, readEntries]
  simp only [hline]

theorem Key.text_of_ofText {text : List Char} {key : Key} (h : Key.ofText text = some key) :
    key.text = text :=
  beq_iff_eq.mp (List.find?_some (p := fun key : Key => key.text == text) h)

/-- The lines that the tool loads: one for each key that was not there before. -/
theorem foldlM_loadLine {lines : List (List Char)} {start values : Key → Option (List Char)}
    (h : lines.foldlM loadLine start = some values) :
    ∃ entries : List Entry, lines = entries.map Entry.line ∧ (entries.map Prod.fst).Nodup ∧
      (∀ entry ∈ entries, start entry.1 = none) ∧
      ∀ key value, values key = some value ↔ start key = some value ∨ (key, value) ∈ entries := by
  induction lines generalizing start with
  | nil =>
    rw [List.foldlM_nil] at h
    obtain rfl := Option.some_inj.mp h
    exact ⟨[], rfl, List.nodup_nil, by simp, by simp⟩
  | cons line lines ih =>
    rw [List.foldlM_cons] at h
    obtain ⟨next, hnext, hrest⟩ := Option.bind_eq_some_iff.mp h
    obtain ⟨⟨text, value⟩, hread, hkey⟩ := Option.bind_eq_some_iff.mp hnext
    obtain ⟨key, hof, hset⟩ := Option.bind_eq_some_iff.mp hkey
    split at hset
    · exact absurd hset (by simp)
    · next hfresh =>
      have hfresh : start key = none := by simpa using hfresh
      obtain rfl := Option.some_inj.mp hset
      obtain ⟨entries, hlines, hnodup, hnew, hvalues⟩ := ih hrest
      have hother : ∀ entry ∈ entries, entry.1 ≠ key := by
        intro entry hentry heq
        have hnone := hnew entry hentry
        rw [heq, Function.update_self] at hnone
        exact absurd hnone (by simp)
      refine ⟨(key, value) :: entries, ?_, ?_, ?_, ?_⟩
      · rw [List.map_cons, ← hlines, Entry.line, Key.text_of_ofText hof, ← keyValue_eq_some hread]
      · rw [List.map_cons, List.nodup_cons]
        refine ⟨fun hmem => ?_, hnodup⟩
        obtain ⟨entry, hentry, heq⟩ := List.mem_map.mp hmem
        exact hother entry hentry heq
      · intro entry hentry
        rcases List.mem_cons.mp hentry with rfl | hentry
        · exact hfresh
        · have hnone := hnew entry hentry
          rwa [Function.update_of_ne (hother entry hentry)] at hnone
      · intro k v
        rw [hvalues]
        by_cases hk : k = key
        · subst hk
          have hnot : (k, v) ∉ entries := fun hmem => hother _ hmem rfl
          simp [hfresh, hnot, eq_comm]
        · rw [Function.update_of_ne hk]
          simp [hk]

/-- A file that the tool loads has one line for each key. -/
theorem load_entries {file : List Char} {values : Key → List Char} (h : load file = some values) :
    ∃ entries : List Entry, contentLines file = entries.map Entry.line ∧
      (entries.map Prod.fst).Nodup ∧ ∀ key value, (key, value) ∈ entries ↔ values key = value := by
  obtain ⟨loaded, hloaded, hall⟩ := Option.bind_eq_some_iff.mp h
  split at hall
  · next hsome =>
    obtain rfl := Option.some_inj.mp hall
    obtain ⟨entries, hlines, hnodup, -, hvalues⟩ := foldlM_loadLine hloaded
    refine ⟨entries, hlines, hnodup, fun key value => ?_⟩
    have hkey : (loaded key).isSome := List.all_eq_true.mp hsome key (by cases key <;> decide)
    obtain ⟨v, hv⟩ := Option.isSome_iff_exists.mp hkey
    have hiff := hvalues key value
    simp only [reduceCtorEq, false_or] at hiff
    show _ ↔ (loaded key).getD [] = value
    rw [← hiff, hv, Option.some_inj, Option.getD_some]
  · exact absurd hall (by simp)

/-! ### What the device reads -/

/-- What a state says of the value of a key. -/
def Reads (inRange : ℚ → Bool) (s : ParseState) (value : List Char) : Key → Prop
  | .schema => s.calibratedSchemaSeen = (value == calibratedSchema) ∧
      s.directSchemaSeen = (value == directSchema)
  | .calibrationId => s.payload.calibrationId = value
  | .maxPowerMultiple => parseDouble inRange value = some s.payload.maxPowerMultiple
  | .warmPercentage => parseInt value = some s.payload.warmPercentage
  | .coldPrimaryPath => s.payload.coldPrimaryPath = value
  | .coldSecondaryPath => s.payload.coldSecondaryPath = value
  | .warmPrimaryPath => s.payload.warmPrimaryPath = value
  | .warmSecondaryPath => s.payload.warmSecondaryPath = value
  | .brightnessCodes => ∃ output, parseArray parseCode value output =
      (s.brightnessSeen, s.payload.calibration.brightnessCodes)
  | .coldPower => ∃ output, parseArray (parseDouble inRange) value output =
      (s.coldSeen, s.payload.calibration.coldPower)
  | .warmPower => ∃ output, parseArray (parseDouble inRange) value output =
      (s.warmSeen, s.payload.calibration.warmPower)
  | .driveCodes => ∃ output, parseArray parseCode value output =
      (s.driveCodesSeen, s.payload.calibration.driveCodes)
  | .drivePower => ∃ output, parseArray (parseDouble inRange) value output =
      (s.drivePowerSeen, s.payload.calibration.drivePower)

theorem reads_parseValue {s s' : ParseState} {value : List Char} {key : Key}
    (h : parseValue inRange s value key = some s') : Reads inRange s' value key := by
  cases key
  case maxPowerMultiple | warmPercentage =>
    obtain ⟨parsed, hparsed, rfl⟩ := Option.map_eq_some_iff.mp h
    exact hparsed
  case brightnessCodes | coldPower | warmPower | driveCodes | drivePower =>
    obtain rfl := Option.some_inj.mp h
    exact ⟨_, rfl⟩
  case schema =>
    obtain rfl := Option.some_inj.mp h
    exact ⟨rfl, rfl⟩
  all_goals
    obtain rfl := Option.some_inj.mp h
    rfl

/-- A line leaves what was read of the other keys. -/
theorem reads_of_ne {s s' : ParseState} {value value' : List Char} {key key' : Key}
    (h : parseValue inRange s value key = some s') (hne : key ≠ key')
    (hreads : Reads inRange s value' key') : Reads inRange s' value' key' := by
  cases key
  case maxPowerMultiple | warmPercentage =>
    obtain ⟨parsed, -, rfl⟩ := Option.map_eq_some_iff.mp h
    cases key' <;> first | exact absurd rfl hne | exact hreads
  all_goals
    obtain rfl := Option.some_inj.mp h
    cases key' <;> first | exact absurd rfl hne | exact hreads

theorem reads_readEntries_of_notMem {s s' : ParseState} {entries : List Entry} {key : Key}
    {value : List Char} (h : readEntries inRange s entries = some s')
    (hkey : key ∉ entries.map Prod.fst) (hreads : Reads inRange s value key) :
      Reads inRange s' value key := by
  induction entries generalizing s with
  | nil =>
    obtain rfl := Option.some_inj.mp h
    exact hreads
  | cons entry entries ih =>
    rw [readEntries, List.foldlM_cons] at h
    obtain ⟨next, hnext, hrest⟩ := Option.bind_eq_some_iff.mp h
    rw [List.map_cons, List.mem_cons, not_or] at hkey
    exact ih hrest hkey.2 (reads_of_ne hnext (Ne.symm hkey.1) hreads)

/-- After lines with different keys the state says of each key what its line says. -/
theorem reads_readEntries {s s' : ParseState} {entries : List Entry}
    (h : readEntries inRange s entries = some s') (hnodup : (entries.map Prod.fst).Nodup) :
    ∀ entry ∈ entries, Reads inRange s' entry.2 entry.1 := by
  induction entries generalizing s with
  | nil => exact fun entry hentry => absurd hentry List.not_mem_nil
  | cons entry entries ih =>
    rw [readEntries, List.foldlM_cons] at h
    obtain ⟨next, hnext, hrest⟩ := Option.bind_eq_some_iff.mp h
    rw [List.map_cons, List.nodup_cons] at hnodup
    intro e he
    rcases List.mem_cons.mp he with rfl | he
    · exact reads_readEntries_of_notMem hrest hnodup.1 (reads_parseValue hnext)
    · exact ih hrest hnodup.2 e he

/-- Only a number that is not read ends the lines early. -/
theorem exists_readEntries (s : ParseState) {entries : List Entry}
    (hmaximum : ∀ value, (Key.maxPowerMultiple, value) ∈ entries →
      (parseDouble inRange value).isSome)
    (hwarm : ∀ value, (Key.warmPercentage, value) ∈ entries → (parseInt value).isSome) :
    ∃ s', readEntries inRange s entries = some s' := by
  induction entries generalizing s with
  | nil => exact ⟨s, rfl⟩
  | cons entry entries ih =>
    have hnext : ∃ next, parseValue inRange s entry.2 entry.1 = some next := by
      obtain ⟨key, value⟩ := entry
      cases key
      case maxPowerMultiple =>
        obtain ⟨parsed, hparsed⟩ := Option.isSome_iff_exists.mp (hmaximum value List.mem_cons_self)
        exact ⟨_, Option.map_eq_some_iff.mpr ⟨parsed, hparsed, rfl⟩⟩
      case warmPercentage =>
        obtain ⟨parsed, hparsed⟩ := Option.isSome_iff_exists.mp (hwarm value List.mem_cons_self)
        exact ⟨_, Option.map_eq_some_iff.mpr ⟨parsed, hparsed, rfl⟩⟩
      all_goals exact ⟨_, rfl⟩
    obtain ⟨next, hnext⟩ := hnext
    obtain ⟨s', hrest⟩ := ih next (fun value hmem => hmaximum value (List.mem_cons_of_mem _ hmem))
      fun value hmem => hwarm value (List.mem_cons_of_mem _ hmem)
    refine ⟨s', ?_⟩
    rw [readEntries, List.foldlM_cons, hnext]
    exact hrest

end Lines

/-! ### Arrays -/

theorem mapM_eq_some_iff {α β : Type*} {f : α → Option β} {l : List α} {r : List β} :
    l.mapM f = some r ↔ List.Forall₂ (fun a b => f a = some b) l r := by
  induction l generalizing r with
  | nil => simp [eq_comm]
  | cons a l ih =>
    rw [List.mapM_cons, List.forall₂_cons_left_iff]
    constructor
    · intro h
      obtain ⟨b, hb, hrest⟩ := Option.bind_eq_some_iff.mp h
      obtain ⟨bs, hbs, hr⟩ := Option.bind_eq_some_iff.mp hrest
      exact ⟨b, bs, hb, ih.mp hbs, (Option.some_inj.mp hr).symm⟩
    · rintro ⟨b, bs, hb, hbs, rfl⟩
      rw [hb]
      show (l.mapM f >>= fun bs => pure (b :: bs)) = _
      rw [ih.mpr hbs]
      rfl

theorem exists_of_forall₂ {α β : Type*} {R : α → β → Prop} {l : List α} {r : List β}
    (h : List.Forall₂ R l r) : ∀ a ∈ l, ∃ b ∈ r, R a b := by
  induction h with
  | nil => exact fun a ha => absurd ha List.not_mem_nil
  | cons hhead _ ih =>
    intro a ha
    rcases List.mem_cons.mp ha with rfl | ha
    · exact ⟨_, List.mem_cons_self, hhead⟩
    · obtain ⟨b, hb, hab⟩ := ih a ha
      exact ⟨b, List.mem_cons_of_mem _ hb, hab⟩

theorem parsePrefix_forall₂ {α : Type*} {parser : List Char → Option α} {pieces : List (List Char)}
    {parsed : List α}
    (h : List.Forall₂ (fun piece value => parser (trim piece) = some value) pieces parsed) :
    parsePrefix parser pieces = parsed := by
  induction h with
  | nil => rfl
  | cons hpiece _ ih => rw [parsePrefix, hpiece, ih]

theorem isAscii_of_mem_splitOn {value piece : List Char} (h : IsAscii value)
    (hpiece : piece ∈ value.splitOn ',') : IsAscii piece := by
  intro c hc
  by_cases hcomma : c = ','
  · rw [hcomma]
    decide
  · exact h c ((mem_splitOn_iff hcomma).mpr ⟨piece, hpiece, hc⟩)

section Powers

variable {n : Nat} {value : List Char} {output : Vector ℚ n} (hascii : IsAscii value)
  (hvalid : powerArray n value = true)
include hascii hvalid

/-- The device reads an array of powers exactly when it has no underscore. -/
theorem parseArray_powers_fst :
    (parseArray (parseDouble anyRange) value output).1 = true ↔ '_' ∉ value := by
  unfold powerArray at hvalid
  split at hvalid
  · exact absurd hvalid (by decide)
  · next parsed hparsed =>
    have hforall := mapM_eq_some_iff.mp hparsed
    simp only [Bool.and_eq_true, beq_iff_eq] at hvalid
    rw [parseArray_fst, mem_splitOn_iff (by decide : '_' ≠ ',')]
    constructor
    · rintro ⟨-, hall⟩ ⟨piece, hpiece, hmem⟩
      obtain ⟨v, hv⟩ := Option.isSome_iff_exists.mp (hall piece hpiece)
      exact underscore_notMem_of_parseDouble hv (mem_trim hmem (by decide))
    · intro hnot
      refine ⟨hforall.length_eq.trans hvalid.1, fun piece hpiece => ?_⟩
      obtain ⟨v, -, hv⟩ := exists_of_forall₂ hforall piece hpiece
      rw [parseDouble_of_pythonFloat (isAscii_of_mem_splitOn hascii hpiece)
        (fun hmem => hnot ⟨piece, hpiece, hmem⟩) hv]
      rfl

/-- The powers that are read are those of the tool. -/
theorem parseArray_powers_snd (h : (parseArray (parseDouble anyRange) value output).1 = true) :
    (parseArray (parseDouble anyRange) value output).2.all isFiniteNonNegative = true := by
  have hnot := (parseArray_powers_fst hascii hvalid).mp h
  have hsnd := parseArray_snd h
  unfold powerArray at hvalid
  split at hvalid
  · exact absurd hvalid (by decide)
  · next parsed hparsed =>
    have hforall := mapM_eq_some_iff.mp hparsed
    simp only [Bool.and_eq_true, beq_iff_eq, List.all_eq_true, Bool.not_eq_true',
      decide_eq_false_iff_not, not_lt] at hvalid
    have hdevice : List.Forall₂ (fun piece value => parseDouble anyRange (trim piece) = some value)
        (value.splitOn ',') parsed := by
      have hplain : ∀ piece ∈ value.splitOn ',', IsAscii piece ∧ '_' ∉ piece := fun piece hpiece =>
        ⟨isAscii_of_mem_splitOn hascii hpiece,
          fun hmem => hnot ((mem_splitOn_iff (by decide)).mpr ⟨piece, hpiece, hmem⟩)⟩
      exact ((List.forall₂_and_left _ _).mpr ⟨hplain, hforall⟩).imp fun piece v hv =>
        parseDouble_of_pythonFloat hv.1.1 hv.1.2 hv.2
    rw [parsePrefix_forall₂ hdevice] at hsnd
    rw [Vector.all_eq_true]
    intro i hi
    have hmem : (parseArray (parseDouble anyRange) value output).2[i] ∈ parsed := by
      rw [← hsnd]
      simp
    exact decide_eq_true (hvalid.2 _ hmem)

end Powers

section Codes

variable {n : Nat} {value : List Char} {output : Vector UInt16 n} (hascii : IsAscii value)
  (hvalid : integerArray n value = true)

/-- A code of the tool is one of the device where it is written as C writes it. -/
theorem parseCode_of_pythonInt {piece : List Char} {code : Int} (hascii : IsAscii piece)
    (hread : pythonInt piece = some code) (hrange : 0 ≤ code ∧ code ≤ 65535)
    (hdecimal : (decimalInt (trim piece)).isSome) :
    parseCode (trim piece) = some (UInt16.ofNat code.toNat) := by
  obtain ⟨m, hm⟩ := Option.isSome_iff_exists.mp hdecimal
  have hcode : m = code := by
    rw [pythonInt_of_decimalInt hascii hm] at hread
    exact Option.some_inj.mp hread
  have hint : IsInt code := by
    unfold IsInt
    omega
  have hnot : ¬(code < 0 ∨ code > 65535) := by omega
  rw [parseCode, parseInt, hm, hcode, Option.filter_some]
  simp [hint, hnot]

include hascii hvalid

theorem parseArray_codes_fst :
    (parseArray parseCode value output).1 = true ↔
      ∀ piece ∈ value.splitOn ',', (decimalInt (trim piece)).isSome := by
  unfold integerArray at hvalid
  split at hvalid
  · exact absurd hvalid (by decide)
  · next parsed hparsed =>
    have hforall := mapM_eq_some_iff.mp hparsed
    simp only [Bool.and_eq_true, beq_iff_eq, List.all_eq_true, Bool.not_eq_true',
      Bool.or_eq_false_iff, decide_eq_false_iff_not, not_lt] at hvalid
    rw [parseArray_fst]
    constructor
    · rintro ⟨-, hall⟩ piece hpiece
      have hsome := hall piece hpiece
      unfold parseCode parseInt at hsome
      cases hdecimal : decimalInt (trim piece) with
      | none =>
        rw [hdecimal] at hsome
        exact absurd hsome (by decide)
      | some m => rfl
    · intro hall
      refine ⟨hforall.length_eq.trans hvalid.1.1, fun piece hpiece => ?_⟩
      obtain ⟨code, hcode, hread⟩ := exists_of_forall₂ hforall piece hpiece
      rw [parseCode_of_pythonInt (isAscii_of_mem_splitOn hascii hpiece) hread
        (hvalid.1.2 code hcode) (hall piece hpiece)]
      rfl

/-- The codes that are read are those of the tool. -/
theorem parseArray_codes_snd (h : (parseArray parseCode value output).1 = true) :
    ∃ parsed, (value.splitOn ',').mapM pythonInt = some parsed ∧ parsed.length = n ∧
      (∀ code ∈ parsed, 0 ≤ code ∧ code ≤ 65535) ∧ hasDescent parsed = false ∧
      (parseArray parseCode value output).2.toList = codes parsed := by
  have hall := (parseArray_codes_fst hascii hvalid).mp h
  have hsnd := parseArray_snd h
  unfold integerArray at hvalid
  split at hvalid
  · exact absurd hvalid (by decide)
  · next parsed hparsed =>
    have hforall := mapM_eq_some_iff.mp hparsed
    simp only [Bool.and_eq_true, beq_iff_eq, List.all_eq_true, Bool.not_eq_true',
      Bool.or_eq_false_iff, decide_eq_false_iff_not, not_lt] at hvalid
    refine ⟨parsed, hparsed, hvalid.1.1, hvalid.1.2, hvalid.2, ?_⟩
    have hdecimal : ∀ piece ∈ value.splitOn ',',
        IsAscii piece ∧ (decimalInt (trim piece)).isSome := fun piece hpiece =>
      ⟨isAscii_of_mem_splitOn hascii hpiece, hall piece hpiece⟩
    have hdevice : List.Forall₂ (fun piece code => 0 ≤ code ∧ code ≤ 65535 →
        parseCode (trim piece) = some (UInt16.ofNat code.toNat)) (value.splitOn ',') parsed :=
      ((List.forall₂_and_left _ _).mpr ⟨hdecimal, hforall⟩).imp fun piece code hread hrange =>
        parseCode_of_pythonInt hread.1.1 hread.2 hrange hread.1.2
    have hcodes : List.Forall₂ (fun piece code => parseCode (trim piece) = some code)
        (value.splitOn ',') (codes parsed) := by
      have hrange := hvalid.1.2
      clear hsnd hforall hparsed hall hdecimal hvalid h
      rw [codes, List.forall₂_map_right_iff]
      generalize value.splitOn ',' = pieces at hdevice
      induction hdevice with
      | nil => exact .nil
      | cons hhead _ ih =>
        exact .cons (hhead (hrange _ List.mem_cons_self))
          (ih fun code hcode => hrange code (List.mem_cons_of_mem _ hcode))
    rw [hsnd, parsePrefix_forall₂ hcodes]

end Codes

/-! ### Files -/

/-- The device finds the lines of the tool, and they are of ASCII. -/
structure ReadAlike (file : List Char) : Prop where
  lines : deviceLines (deviceText file) = contentLines file
  ascii : ∀ line ∈ contentLines file, IsAscii line

/-- The numbers are written as C writes them: an integer has at most a minus sign before its digits,
and no number has an underscore. -/
structure PlainNumbers (values : Key → List Char) : Prop where
  maximum : '_' ∉ values .maxPowerMultiple
  warm : (decimalInt (values .warmPercentage)).isSome
  brightness : ∀ piece ∈ (values .brightnessCodes).splitOn ',', (decimalInt (trim piece)).isSome
  drive : ∀ piece ∈ (values .driveCodes).splitOn ',', (decimalInt (trim piece)).isSome
  coldPower : '_' ∉ values .coldPower
  warmPower : '_' ∉ values .warmPower
  drivePower : '_' ∉ values .drivePower

/-- The first brightness code is zero. -/
def IsZeroAnchored (values : Key → List Char) : Prop :=
  ((values .brightnessCodes).splitOn ',').head?.bind pythonInt = some 0

/-- The payload is complete exactly when every array was read. -/
theorem finish_eq_some_iff {s : ParseState} {values : Key → List Char} {payload : Payload}
    (hreads : ∀ key, Reads anyRange s (values key) key) (hvalid : isCalibrationFile values = true)
    (hmaximum : 0 < s.payload.maxPowerMultiple) (hwarm : 0 < s.payload.warmPercentage) :
    s.finish = some payload ↔ s.payload = payload ∧ s.brightnessSeen = true ∧ s.coldSeen = true ∧
      s.warmSeen = true ∧ s.driveCodesSeen = true ∧ s.drivePowerSeen = true := by
  unfold isCalibrationFile at hvalid
  simp only [Bool.and_eq_true, beq_iff_eq] at hvalid
  obtain ⟨⟨⟨⟨⟨⟨⟨⟨⟨⟨⟨hschema, hid⟩, -⟩, hcold⟩, hwarmPath⟩, -⟩, -⟩, -⟩, -⟩, -⟩, -⟩, -⟩ := hvalid
  have hnonempty : ∀ {text : List Char}, isEndpoint text = true → text.isEmpty = false := by
    intro text htext
    cases text with
    | nil => exact absurd htext (by decide)
    | cons c text => rfl
  -- the file has one schema line, the calibrated one
  obtain ⟨hcalibrated, hdirect⟩ := hreads .schema
  rw [hschema] at hcalibrated hdirect
  have hcalibrated : s.calibratedSchemaSeen = true := by rw [hcalibrated, beq_self_eq_true]
  have hdirect : s.directSchemaSeen = false := by
    rw [hdirect]
    decide +kernel
  have hid : s.payload.calibrationId.isEmpty = false := by
    rw [show s.payload.calibrationId = values .calibrationId from hreads .calibrationId]
    cases htext : values .calibrationId with
    | nil =>
      rw [htext] at hid
      exact absurd hid (by decide)
    | cons c text => rfl
  have hcold : s.payload.coldPrimaryPath.isEmpty = false := by
    rw [show s.payload.coldPrimaryPath = values .coldPrimaryPath from hreads .coldPrimaryPath]
    exact hnonempty hcold
  have hwarmPath : s.payload.warmPrimaryPath.isEmpty = false := by
    rw [show s.payload.warmPrimaryPath = values .warmPrimaryPath from hreads .warmPrimaryPath]
    exact hnonempty hwarmPath
  have hisDirect : s.isDirect = false := by
    rw [ParseState.isDirect, hdirect]
    rfl
  have hisCalibrated : s.isCalibrated = (s.brightnessSeen && s.coldSeen && s.warmSeen &&
      s.driveCodesSeen && s.drivePowerSeen) := by
    rw [ParseState.isCalibrated, ParseState.commonValid, hcalibrated, hdirect, hid, hcold,
      hwarmPath, decide_eq_true hmaximum, decide_eq_true hwarm]
    simp
  rw [ParseState.finish, hisDirect, if_neg (by decide), hisCalibrated]
  split
  · next hseen =>
    simp only [Bool.and_eq_true] at hseen
    simp [hseen]
  · next hseen =>
    simp only [Bool.and_eq_true] at hseen
    refine iff_of_false (by simp) ?_
    rintro ⟨-, hbrightness, hcoldSeen, hwarmSeen, hdriveCodes, hdrivePower⟩
    exact hseen ⟨⟨⟨⟨hbrightness, hcoldSeen⟩, hwarmSeen⟩, hdriveCodes⟩, hdrivePower⟩

/-- A value that the tool loads from a file that is read alike. -/
theorem ReadAlike.value {file : List Char} {values : Key → List Char} (h : ReadAlike file)
    {entries : List Entry} (hlines : contentLines file = entries.map Entry.line)
    (hvalues : ∀ key value, (key, value) ∈ entries ↔ values key = value) (key : Key) :
    IsAscii (values key) ∧ ∀ c ∈ (values key).getLast?, isSpace c = false := by
  have hmem : Entry.line (key, values key) ∈ contentLines file := by
    rw [hlines]
    exact List.mem_map_of_mem ((hvalues key _).mpr rfl)
  constructor
  · intro c hc
    exact h.ascii _ hmem c (List.mem_append_right _ (List.mem_cons_of_mem _ hc))
  · intro c hc
    rw [← h.lines] at hmem
    obtain ⟨line, -, hline⟩ := List.mem_map.mp (List.mem_filter.mp hmem).1
    apply getLast_trim line c
    rw [hline, Entry.line, List.getLast?_append, List.getLast?_cons]
    rw [Option.mem_def] at hc
    rw [hc]
    rfl

theorem parse_policy {values : Key → List Char} (hascii : ∀ key, IsAscii (values key))
    (hlast : ∀ key, ∀ c ∈ (values key).getLast?, isSpace c = false)
    (hpolicy : isPolicy values = true) :
    (∀ maximum, parseDouble anyRange (values .maxPowerMultiple) = some maximum → 0 < maximum) ∧
      (∀ warm, parseInt (values .warmPercentage) = some warm → 0 < warm) ∧
      ((parseDouble anyRange (values .maxPowerMultiple)).isSome ↔ '_' ∉ values .maxPowerMultiple) ∧
      ((parseInt (values .warmPercentage)).isSome ↔
        (decimalInt (values .warmPercentage)).isSome) := by
  unfold isPolicy at hpolicy
  split at hpolicy
  · next maximum warm hmaximum hwarm =>
    simp only [Bool.and_eq_true, Bool.not_eq_true', Bool.or_eq_false_iff, decide_eq_false_iff_not,
      not_le, not_lt] at hpolicy
    -- both numbers are read alike by the tool and the device
    have hdouble : '_' ∉ values .maxPowerMultiple →
        parseDouble anyRange (values .maxPowerMultiple) = some maximum := by
      intro hunderscore
      rw [← parseDouble_trim (hlast _)]
      exact parseDouble_of_pythonFloat (hascii _) hunderscore hmaximum
    have hint : ∀ n, decimalInt (values .warmPercentage) = some n → n = warm := by
      intro n hn
      have htrim : trim (values .warmPercentage) = values .warmPercentage := by
        refine trim_eq_self (fun c hc => ?_) (hlast _)
        rcases decimalInt_chars hn c (List.mem_of_mem_head? hc) with hdigit | rfl
        · obtain ⟨hlow, -⟩ := isDigit_bounds hdigit
          by_contra hspace
          have hne : c.toNat < 48 := by
            simp only [Bool.not_eq_false, isSpace, Bool.or_eq_true, beq_iff_eq] at hspace
            rcases hspace with ((((rfl | rfl) | rfl) | rfl) | rfl) | rfl <;> decide
          omega
        · rfl
      have hpython := pythonInt_of_decimalInt (hascii _) (htrim.symm ▸ hn)
      rw [hwarm] at hpython
      exact (Option.some_inj.mp hpython).symm
    refine ⟨?_, ?_, ?_, ?_⟩
    · intro v hv
      rw [hdouble (underscore_notMem_of_parseDouble hv), Option.some_inj] at hv
      rw [← hv]
      exact hpolicy.1.1
    · intro n hn
      have hdecimal := (Option.filter_eq_some_iff.mp hn).1
      have hone := hpolicy.2.1
      rw [hint n hdecimal]
      omega
    · constructor
      · intro hsome
        obtain ⟨v, hv⟩ := Option.isSome_iff_exists.mp hsome
        exact underscore_notMem_of_parseDouble hv
      · intro hunderscore
        rw [hdouble hunderscore]
        rfl
    · constructor
      · intro hsome
        obtain ⟨n, hn⟩ := Option.isSome_iff_exists.mp hsome
        rw [(Option.filter_eq_some_iff.mp hn).1]
        rfl
      · intro hsome
        obtain ⟨n, hn⟩ := Option.isSome_iff_exists.mp hsome
        have hisInt : IsInt n := by
          have hone := hpolicy.2.1
          have htop := hpolicy.2.2
          rw [hint n hn]
          unfold IsInt
          omega
        rw [parseInt, hn, Option.filter_some]
        simp [hisInt]
  · exact absurd hpolicy (by decide)

theorem head_of_mapM {α β : Type*} {f : α → Option β} {l : List α} {r : List β}
    (h : l.mapM f = some r) : l.head?.bind f = r.head? := by
  cases mapM_eq_some_iff.mp h with
  | nil => rfl
  | cons hhead _ => exact hhead

/-- Of the step codes of the tool the device also asks that the first is zero. -/
theorem isValidFrontLightBrightnessCodes_iff {values : Key → List Char} {codes : BrightnessCodes}
    {output : BrightnessCodes} (hascii : IsAscii (values .brightnessCodes))
    (hvalid : integerArray kFrontLightSteps (values .brightnessCodes) = true)
    (hread : parseArray parseCode (values .brightnessCodes) output = (true, codes)) :
    isValidFrontLightBrightnessCodes codes = true ↔ IsZeroAnchored values := by
  obtain ⟨parsed, hparsed, hlength, hrange, hdescent, hlist⟩ :=
    parseArray_codes_snd hascii hvalid (congrArg Prod.fst hread)
  rw [congrArg Prod.snd hread] at hlist
  rw [isValidFrontLightBrightnessCodes, hlist, (isIncreasing_codes hrange).mpr hdescent,
    Bool.and_true, beq_iff_eq, get_zero_of_toList hlist hlength hrange, IsZeroAnchored,
    head_of_mapM hparsed]

/-- **What the device adds**: of a file whose lines are read alike, that the tool accepts, the
device accepts the table exactly when its numbers are plain and its first brightness code is
zero. -/
theorem deviceAccepts_iff {file : List Char} (hread : ReadAlike file)
    (hvalid : validate file = true) :
    deviceAccepts file = true ↔
      ∀ values ∈ load file, PlainNumbers values ∧ IsZeroAnchored values := by
  obtain ⟨values, hload, hfile⟩ := (Option.any_eq_true _ _).mp hvalid
  obtain ⟨entries, hlines, hnodup, hvalues⟩ := load_entries hload
  have hascii : ∀ key, IsAscii (values key) := fun key => (hread.value hlines hvalues key).1
  have hlast := fun key => (hread.value hlines hvalues key).2
  have hparse : parsePayloadWith anyRange (deviceText file) =
      (readEntries anyRange {} entries).bind ParseState.finish := by
    rw [parsePayloadWith, foldlM_parseLine, ← foldlM_parseContent, ← hlines, ← hread.lines]
    rfl
  -- each key occurs once, so the state holds the value of its line
  have hreads : ∀ {s}, readEntries anyRange {} entries = some s →
      ∀ key, Reads anyRange s (values key) key :=
    fun hs key => reads_readEntries hs hnodup (key, values key) ((hvalues key _).mpr rfl)
  have hchecks := hfile
  unfold isCalibrationFile at hchecks
  simp only [Bool.and_eq_true] at hchecks
  obtain ⟨⟨⟨⟨⟨⟨⟨⟨⟨⟨-, hpolicy⟩, -⟩, -⟩, -⟩, -⟩, hbrightness⟩, hdrive⟩, hcold⟩, hwarm⟩, hpower⟩ :=
    hchecks
  obtain ⟨hmaximumPos, hwarmPos, hmaximum, hwarmInt⟩ := parse_policy hascii hlast hpolicy
  unfold deviceAccepts
  rw [hparse, Option.any_eq_true]
  constructor
  · -- `finish` has seen plain numbers, and the table starts at zero
    rintro ⟨payload, hpayload, htable⟩ values' hvalues'
    obtain rfl := Option.some_inj.mp (hload.symm.trans hvalues')
    obtain ⟨s, hs, hfinish⟩ := Option.bind_eq_some_iff.mp hpayload
    have hread := hreads hs
    have hpositive : 0 < s.payload.maxPowerMultiple := hmaximumPos _ (hread .maxPowerMultiple)
    have hpercentage : 0 < s.payload.warmPercentage := hwarmPos _ (hread .warmPercentage)
    obtain ⟨rfl, hb, hc, hw, hd, hp⟩ :=
      (finish_eq_some_iff hread hfile hpositive hpercentage).mp hfinish
    obtain ⟨brightness, hbrightnessRead⟩ := hread .brightnessCodes
    obtain ⟨cold, hcoldRead⟩ := hread .coldPower
    obtain ⟨warm, hwarmRead⟩ := hread .warmPower
    obtain ⟨drive, hdriveRead⟩ := hread .driveCodes
    obtain ⟨power, hpowerRead⟩ := hread .drivePower
    rw [hb] at hbrightnessRead
    refine ⟨⟨?_, ?_, ?_, ?_, ?_, ?_, ?_⟩, ?_⟩
    · exact hmaximum.mp (by rw [hread .maxPowerMultiple]; rfl)
    · exact hwarmInt.mp (by rw [hread .warmPercentage]; rfl)
    · exact (parseArray_codes_fst (hascii _) hbrightness).mp (congrArg Prod.fst hbrightnessRead)
    · exact (parseArray_codes_fst (hascii _) hdrive).mp ((congrArg Prod.fst hdriveRead).trans hd)
    · exact (parseArray_powers_fst (hascii _) hcold).mp ((congrArg Prod.fst hcoldRead).trans hc)
    · exact (parseArray_powers_fst (hascii _) hwarm).mp ((congrArg Prod.fst hwarmRead).trans hw)
    · exact (parseArray_powers_fst (hascii _) hpower).mp ((congrArg Prod.fst hpowerRead).trans hp)
    · unfold isValidFrontLightCalibration at htable
      simp only [Bool.and_eq_true] at htable
      exact (isValidFrontLightBrightnessCodes_iff (hascii _) hbrightness hbrightnessRead).mp
        htable.1.1.1.1
  · intro h
    -- every line is read to its end, so `finish` has all that it asks for
    obtain ⟨hplain, hzero⟩ := h values hload
    obtain ⟨s, hs⟩ := exists_readEntries {}
      (fun value hmem => (hvalues _ value).mp hmem ▸ hmaximum.mpr hplain.maximum)
      fun value hmem => (hvalues _ value).mp hmem ▸ hwarmInt.mpr hplain.warm
    have hread := hreads hs
    have hpositive : 0 < s.payload.maxPowerMultiple := hmaximumPos _ (hread .maxPowerMultiple)
    have hpercentage : 0 < s.payload.warmPercentage := hwarmPos _ (hread .warmPercentage)
    obtain ⟨brightness, hbrightnessRead⟩ := hread .brightnessCodes
    obtain ⟨cold, hcoldRead⟩ := hread .coldPower
    obtain ⟨warm, hwarmRead⟩ := hread .warmPower
    obtain ⟨drive, hdriveRead⟩ := hread .driveCodes
    obtain ⟨power, hpowerRead⟩ := hread .drivePower
    have hb : (parseArray parseCode (values .brightnessCodes) brightness).1 = true :=
      (parseArray_codes_fst (hascii _) hbrightness).mpr hplain.brightness
    have hd : (parseArray parseCode (values .driveCodes) drive).1 = true :=
      (parseArray_codes_fst (hascii _) hdrive).mpr hplain.drive
    have hc : (parseArray (parseDouble anyRange) (values .coldPower) cold).1 = true :=
      (parseArray_powers_fst (hascii _) hcold).mpr hplain.coldPower
    have hw : (parseArray (parseDouble anyRange) (values .warmPower) warm).1 = true :=
      (parseArray_powers_fst (hascii _) hwarm).mpr hplain.warmPower
    have hp : (parseArray (parseDouble anyRange) (values .drivePower) power).1 = true :=
      (parseArray_powers_fst (hascii _) hpower).mpr hplain.drivePower
    -- what the tool checks of the tables is what the device checks
    have hcoldTable := parseArray_powers_snd (hascii _) hcold hc
    have hwarmTable := parseArray_powers_snd (hascii _) hwarm hw
    have hpowerTable := parseArray_powers_snd (hascii _) hpower hp
    obtain ⟨parsed, -, -, hrange, hdescent, hlist⟩ := parseArray_codes_snd (hascii _) hdrive hd
    rw [hbrightnessRead] at hb
    rw [hdriveRead] at hd hlist
    rw [hcoldRead] at hc hcoldTable
    rw [hwarmRead] at hw hwarmTable
    rw [hpowerRead] at hp hpowerTable
    simp only at hb hd hlist hc hcoldTable hw hwarmTable hp hpowerTable
    rw [hb] at hbrightnessRead
    refine ⟨s.payload, ?_, ?_⟩
    · rw [hs]
      exact (finish_eq_some_iff hread hfile hpositive hpercentage).mpr ⟨rfl, hb, hc, hw, hd, hp⟩
    · rw [isValidFrontLightCalibration, hlist, (isIncreasing_codes hrange).mpr hdescent, hcoldTable,
        hwarmTable, hpowerTable, (isValidFrontLightBrightnessCodes_iff (hascii _) hbrightness
          hbrightnessRead).mpr hzero]
      rfl

/-! ### A file that the device refuses -/

/-- A file with counting codes and no power, whose brightness codes start at the given one. -/
def countingValue (first : Nat) : Key → List Char
  | .schema => calibratedSchema
  | .calibrationId => "counting".toList
  | .maxPowerMultiple => "1".toList
  | .warmPercentage => "100".toList
  | .coldPrimaryPath | .warmPrimaryPath => "/sys/led".toList
  | .coldSecondaryPath | .warmSecondaryPath => []
  | .brightnessCodes => codesText ((List.range' first 31).map Int.ofNat)
  | .driveCodes => codesText ((List.range 252).map Int.ofNat)
  | .coldPower | .warmPower => codesText (List.replicate 31 0)
  | .drivePower => codesText (List.replicate 252 0)

def countingFile (first : Nat) : List Char :=
  joinLines (Key.all.map fun key => Entry.line (key, countingValue first key))

theorem readAlike_counting : ReadAlike (countingFile 0) where
  lines := by decide +kernel
  ascii := by
    have hall : ((contentLines (countingFile 0)).all fun line =>
        line.all fun c => decide (c.toNat < 0x80)) = true := by decide +kernel
    intro line hline c hc
    exact of_decide_eq_true (List.all_eq_true.mp (List.all_eq_true.mp hall line hline) c hc)

theorem deviceAccepts_iff_counting :
    deviceAccepts (countingFile 0) = true ↔
      ∀ values ∈ load (countingFile 0), PlainNumbers values ∧ IsZeroAnchored values :=
  deviceAccepts_iff readAlike_counting (by decide +kernel)

/-- The tool accepts step codes that start at one. -/
theorem not_forall_deviceAccepts :
    ¬∀ file : List Char, validate file = true → deviceAccepts file = true := by
  intro h
  have haccepts := h (countingFile 1) (by decide +kernel)
  have hrefuses : deviceAccepts (countingFile 1) = false := by decide +kernel
  rw [hrefuses] at haccepts
  exact absurd haccepts (by decide)

end EinkLab.FrontLight
