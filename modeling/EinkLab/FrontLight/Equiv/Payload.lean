import EinkLab.FrontLight.Payload

/-!
# What the payload parser reads

The lines of a file are read one by one; a line `key=value` sets one field (`parseLine_key`).  An
array of codes is read exactly when it has the right number of pieces and each of them is a code
(`parseArray_eq_some`, `parseArray_eq_none`).
-/

namespace EinkLab.FrontLight

open Text

/-! ### Lines -/

/-- The characters of a key, one by one. -/
def Key.chars : Key → List Char
  | .schema => ['s', 'c', 'h', 'e', 'm', 'a']
  | .calibrationId => ['c', 'a', 'l', 'i', 'b', 'r', 'a', 't', 'i', 'o', 'n', '_', 'i', 'd']
  | .maxPowerMultiple =>
      ['m', 'a', 'x', '_', 'p', 'o', 'w', 'e', 'r', '_', 'm', 'u', 'l', 't', 'i', 'p', 'l', 'e']
  | .warmPercentage => ['w', 'a', 'r', 'm', '_', 'p', 'e', 'r', 'c', 'e', 'n', 't', 'a', 'g', 'e']
  | .coldPrimaryPath =>
      ['c', 'o', 'l', 'd', '_', 'p', 'r', 'i', 'm', 'a', 'r', 'y', '_', 'p', 'a', 't', 'h']
  | .coldSecondaryPath =>
      ['c', 'o', 'l', 'd', '_', 's', 'e', 'c', 'o', 'n', 'd', 'a', 'r', 'y', '_', 'p', 'a', 't',
        'h']
  | .warmPrimaryPath =>
      ['w', 'a', 'r', 'm', '_', 'p', 'r', 'i', 'm', 'a', 'r', 'y', '_', 'p', 'a', 't', 'h']
  | .warmSecondaryPath =>
      ['w', 'a', 'r', 'm', '_', 's', 'e', 'c', 'o', 'n', 'd', 'a', 'r', 'y', '_', 'p', 'a', 't',
        'h']
  | .brightnessCodes =>
      ['b', 'r', 'i', 'g', 'h', 't', 'n', 'e', 's', 's', '_', 'c', 'o', 'd', 'e', 's']
  | .coldPower => ['c', 'o', 'l', 'd', '_', 'p', 'o', 'w', 'e', 'r']
  | .warmPower => ['w', 'a', 'r', 'm', '_', 'p', 'o', 'w', 'e', 'r']
  | .driveCodes => ['d', 'r', 'i', 'v', 'e', '_', 'c', 'o', 'd', 'e', 's']
  | .drivePower => ['d', 'r', 'i', 'v', 'e', '_', 'p', 'o', 'w', 'e', 'r']

theorem Key.text_eq_chars (key : Key) : key.text = key.chars := by
  cases key <;> exact String.toList_ofList

theorem Key.ofText_text (key : Key) : Key.ofText key.text = some key := by
  simp only [Key.ofText, Key.text_eq_chars]
  cases key <;> rfl

theorem Key.equals_notMem_text (key : Key) : '=' ∉ key.text := by
  rw [key.text_eq_chars]
  cases key <;> decide

theorem Key.newline_notMem_text (key : Key) : '\n' ∉ key.text := by
  rw [key.text_eq_chars]
  cases key <;> decide

theorem Key.head_text (key : Key) :
    ∃ c text, key.text = c :: text ∧ isSpace c = false ∧ c ≠ '#' := by
  rw [key.text_eq_chars]
  cases key <;> exact ⟨_, _, rfl, by decide, by decide⟩

/-- A line that sets a key has no white space to drop. -/
theorem Key.trim_line (key : Key) {value : List Char}
    (hlast : ∀ c ∈ value.getLast?, isSpace c = false) :
    trim (key.text ++ '=' :: value) = key.text ++ '=' :: value := by
  obtain ⟨c, text, htext, hspace, -⟩ := key.head_text
  apply trim_eq_self
  · intro d hd
    rw [htext, List.cons_append, List.head?_cons, Option.mem_some_iff] at hd
    rw [← hd]
    exact hspace
  · intro d hd
    rw [List.getLast?_append, List.getLast?_cons, Option.some_or, Option.mem_some_iff] at hd
    cases hvalue : value.getLast? with
    | none =>
      rw [hvalue] at hd
      rw [← hd]
      decide
    | some e =>
      rw [hvalue] at hd
      exact hlast d (by rw [hvalue, ← hd]; rfl)

theorem Key.isContent_line (key : Key) (value : List Char) :
    isContent (key.text ++ '=' :: value) = true := by
  obtain ⟨c, text, htext, -, hcomment⟩ := key.head_text
  rw [htext, isContent]
  simp [hcomment]

/-- A line that sets a key. -/
theorem parseLine_key (inRange : ℚ → Bool) (s : ParseState) (key : Key) {value : List Char}
    (hlast : ∀ c ∈ value.getLast?, isSpace c = false) :
    parseLine inRange s (key.text ++ '=' :: value) = parseValue inRange s value key := by
  have hread : keyValue (key.text ++ '=' :: value) = some (key.text, value) :=
    keyValue_append key.equals_notMem_text
  unfold parseLine
  simp only [key.trim_line hlast, key.isContent_line, hread, Bool.not_true, Bool.false_eq_true,
    if_false, Option.bind_some, Key.ofText_text]

theorem last_of_getLast? {value : List Char} {last : Char} (h : value.getLast? = some last)
    (hspace : isSpace last = false) : ∀ c ∈ value.getLast?, isSpace c = false := by
  intro c hc
  rw [h, Option.mem_some_iff] at hc
  rw [← hc]
  exact hspace

theorem parseLine_prefix (inRange : ℚ → Bool) (s : ParseState) (key : Key) {start value : List Char}
    (hstart : start = key.text ++ ['=']) (hlast : ∀ c ∈ value.getLast?, isSpace c = false) :
    parseLine inRange s (start ++ value) = parseValue inRange s value key := by
  rw [hstart, List.append_assoc, List.singleton_append, parseLine_key inRange s key hlast]

theorem Key.start_eq (key : Key) {start : List Char} (h : start = key.chars ++ ['=']) :
    start = key.text ++ ['='] := by
  rw [key.text_eq_chars]
  exact h

theorem Key.newline_notMem_start (key : Key) {start value : List Char}
    (hstart : start = key.chars ++ ['=']) (hvalue : '\n' ∉ value) : '\n' ∉ start ++ value := by
  rw [key.start_eq hstart]
  simp [key.newline_notMem_text, hvalue]

/-- The empty piece after the last line end. -/
theorem parseLine_nil (inRange : ℚ → Bool) (s : ParseState) : parseLine inRange s [] = some s := rfl

theorem splitOn_joinLines {lines : List (List Char)} (h : ∀ line ∈ lines, '\n' ∉ line) :
    (joinLines lines).splitOn '\n' = lines ++ [[]] := by
  induction lines with
  | nil => rfl
  | cons line lines ih =>
    have hrest := ih fun l hl => h l (List.mem_cons_of_mem _ hl)
    show ((line ++ ['\n']) ++ joinLines lines).splitOn '\n' = _
    rw [List.append_assoc, List.singleton_append,
      List.splitOn_append_cons_self_of_not_mem (h line List.mem_cons_self), hrest]
    rfl

/-! ### Arrays -/

section Arrays

variable {α : Type*} {n : Nat} {parser : List Char → Option α} {value : List Char}
  {output : Vector α n}

/-- Nothing is refused exactly when every piece is read. -/
theorem parsePrefix_length_eq_iff (pieces : List (List Char)) :
    (parsePrefix parser pieces).length = pieces.length ↔
      ∀ piece ∈ pieces, (parser (trim piece)).isSome := by
  induction pieces with
  | nil => exact iff_of_true rfl fun _ h => absurd h List.not_mem_nil
  | cons piece pieces ih =>
    unfold parsePrefix
    split
    · next hnone => simp [hnone]
    · next v hsome =>
      rw [List.length_cons, List.length_cons, Nat.add_right_cancel_iff, ih, List.forall_mem_cons,
        hsome]
      simp

/-- The array is read exactly when it has the right number of pieces and each is a value. -/
theorem parseArray_fst :
    (parseArray parser value output).1 = true ↔
      (value.splitOn ',').length = n ∧
        ∀ piece ∈ value.splitOn ',', (parser (trim piece)).isSome := by
  unfold parseArray
  simp only
  split
  · next hlength => simp [hlength]
  · next hlength =>
    have hlength := not_not.mp hlength
    rw [beq_iff_eq, ← parsePrefix_length_eq_iff, hlength]
    simp

/-- An array that is read holds the values of its pieces. -/
theorem parseArray_snd (h : (parseArray parser value output).1 = true) :
    (parseArray parser value output).2.toList = parsePrefix parser (value.splitOn ',') := by
  obtain ⟨hlength, hall⟩ := parseArray_fst.mp h
  have hparsed := (parsePrefix_length_eq_iff (value.splitOn ',')).mpr hall
  rw [hlength] at hparsed
  unfold parseArray
  simp only [hlength, ne_eq, not_true_eq_false, if_false]
  apply List.ext_getElem
  · simp [hparsed]
  · intro i hi hi'
    simp only [Vector.getElem_toList, Vector.getElem_ofFn]
    rw [List.getElem?_eq_getElem hi', Option.getD_some]

end Arrays

/-! ### Codes -/

theorem parseInt_longText (n : Int) : parseInt (longText n) = if IsInt n then some n else none := by
  rw [parseInt, decimalInt_longText, Option.filter_some]
  simp

/-- A number that is written is read as a code when it is one. -/
theorem parseCode_longText (n : Int) :
    parseCode (longText n) =
      if 0 ≤ n ∧ n ≤ 65535 then some (UInt16.ofNat n.toNat) else none := by
  rw [parseCode, parseInt_longText]
  by_cases hn : 0 ≤ n ∧ n ≤ 65535
  · have hint : IsInt n := by
      unfold IsInt
      omega
    have hrange : ¬(n < 0 ∨ n > 65535) := by omega
    rw [if_pos hint, if_pos hn, Option.bind_some, if_neg hrange]
  · have hrange : n < 0 ∨ n > 65535 := by omega
    rw [if_neg hn]
    split
    · rw [Option.bind_some, if_pos hrange]
    · rfl

theorem toNat_code {n : Int} (h : 0 ≤ n ∧ n ≤ 65535) :
    ((UInt16.ofNat n.toNat).toNat : Int) = n := by
  rw [UInt16.toNat_ofNat']
  omega

end EinkLab.FrontLight
