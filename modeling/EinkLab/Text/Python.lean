import EinkLab.Text.Fields

/-!
# Text of Python

`str.splitlines`, `str.strip`, and the text of a number that `int` and `float` read: digits and
white space of any script are taken as those of ASCII, white space at both ends is dropped, and an
underscore may stand between two digits.
-/

namespace EinkLab.Text

/-! ### Lines -/

/-- `str.isspace` of one character. -/
def isUnicodeSpace (c : Char) : Bool :=
  let n := c.toNat
  (0x09 ≤ n && n ≤ 0x0d) || (0x1c ≤ n && n ≤ 0x20) || n == 0x85 || n == 0xa0 || n == 0x1680 ||
  (0x2000 ≤ n && n ≤ 0x200a) || n == 0x2028 || n == 0x2029 || n == 0x202f || n == 0x205f ||
    n == 0x3000

def strip (text : List Char) : List Char :=
  (text.dropWhile isUnicodeSpace).rdropWhile isUnicodeSpace

def isLineEnd (c : Char) : Bool :=
  let n := c.toNat
  (0x0a ≤ n && n ≤ 0x0d) || (0x1c ≤ n && n ≤ 0x1e) || n == 0x85 || n == 0x2028 || n == 0x2029

/-- The lines of a text, after the reversed start `acc` of one; no line follows the last line
end. -/
def splitlinesAfter (acc : List Char) : List Char → List (List Char)
  | [] => if acc.isEmpty then [] else [acc.reverse]
  | '\r' :: '\n' :: text => acc.reverse :: splitlinesAfter [] text
  | c :: text =>
    if isLineEnd c then acc.reverse :: splitlinesAfter [] text else splitlinesAfter (c :: acc) text

def splitlines (text : List Char) : List (List Char) := splitlinesAfter [] text

/-! ### Numbers -/

/-- The code points of the digit zero beyond the basic plane, as of Unicode 15. -/
def supplementaryZeroDigits : List Nat :=
  [0x104a0, 0x10d30, 0x11066, 0x110f0, 0x11136, 0x111d0, 0x112f0, 0x11450, 0x114d0, 0x11650,
   0x116c0, 0x11730, 0x118e0, 0x11950, 0x11c50, 0x11d50, 0x11da0, 0x11f50, 0x16a60, 0x16ac0,
   0x16b50, 0x1d7ce, 0x1d7d8, 0x1d7e2, 0x1d7ec, 0x1d7f6, 0x1e140, 0x1e2f0, 0x1e4f0, 0x1e950,
   0x1fbf0]

/-- A character as a number has it: digits and white space become those of ASCII. -/
def numberChar (c : Char) : Char :=
  if c.toNat < 0x80 then c
  else if isUnicodeSpace c then ' '
  else
    match digitAfter (zeroDigits ++ supplementaryZeroDigits) c with
    | some digit => Char.ofNat (48 + digit)
    | none => '?'

/-- The text without its underscores, each of which must stand between two digits; `previous` stands
before the text. -/
def dropUnderscores (previous : Char) : List Char → Option (List Char)
  | [] => if previous = '_' then none else some []
  | c :: text =>
    if c = '_' then
      if previous.isDigit then dropUnderscores c text else none
    else if previous = '_' ∧ !c.isDigit then none
    else (dropUnderscores c text).map (c :: ·)

/-- What `int` and `float` read of a text. -/
def numberText (text : List Char) : Option (List Char) :=
  dropUnderscores '\x00' (trim (text.map numberChar))

/-- `int(text, 10)`. -/
def pythonInt (text : List Char) : Option Int :=
  (numberText text).bind fun number =>
    match number with
    | '+' :: digits => (decimalNat digits).map fun n : Nat => (n : Int)
    | _ => decimalInt number

theorem dropUnderscores_eq_some {previous : Char} {text : List Char} (h : '_' ∉ text)
    (hprevious : previous ≠ '_') : dropUnderscores previous text = some text := by
  induction text generalizing previous with
  | nil => rw [dropUnderscores, if_neg hprevious]
  | cons c text ih =>
    have hc : c ≠ '_' := fun heq => h (heq ▸ List.mem_cons_self)
    rw [dropUnderscores, if_neg hc, if_neg fun hand => hprevious hand.1,
      ih (fun hmem => h (List.mem_cons_of_mem _ hmem)) hc]
    rfl

theorem map_numberChar {text : List Char} (h : IsAscii text) :
    text.map numberChar = text := by
  conv_rhs => rw [← List.map_id text]
  exact List.map_congr_left fun c hc => if_pos (h c hc)

/-- An ASCII number without underscores is read as it stands. -/
theorem numberText_eq_some {text : List Char} (hascii : IsAscii text)
    (h : '_' ∉ trim text) : numberText text = some (trim text) := by
  rw [numberText, map_numberChar hascii]
  exact dropUnderscores_eq_some h (by decide)

/-! ### Decimal integers -/

theorem decimalNat_chars {digits : List Char} {m : Nat} (h : decimalNat digits = some m) :
    ∀ c ∈ digits, c.isDigit = true := by
  intro c hc
  unfold decimalNat at h
  split at h
  · exact absurd h (by simp)
  · next hall =>
    simp only [Bool.or_eq_true, Bool.not_eq_true', not_or, Bool.not_eq_false] at hall
    exact List.all_eq_true.mp hall.2 c hc

theorem decimalInt_chars {text : List Char} {n : Int} (h : decimalInt text = some n) :
    ∀ c ∈ text, c.isDigit = true ∨ c = '-' := by
  unfold decimalInt at h
  split at h
  · next digits =>
    obtain ⟨_, hmap, -⟩ := Option.map_eq_some_iff.mp h
    obtain ⟨m, hm, -⟩ := Option.bind_eq_some_iff.mp hmap
    intro c hc
    rcases List.mem_cons.mp hc with rfl | hc
    · exact Or.inr rfl
    · exact Or.inl (decimalNat_chars hm c hc)
  · obtain ⟨_, hmap, -⟩ := Option.map_eq_some_iff.mp h
    obtain ⟨m, hm, -⟩ := Option.bind_eq_some_iff.mp hmap
    exact fun c hc => Or.inl (decimalNat_chars hm c hc)

/-- Where C reads an integer, Python reads the same. -/
theorem pythonInt_of_decimalInt {text : List Char} {n : Int} (hascii : IsAscii text)
    (h : decimalInt (trim text) = some n) : pythonInt text = some n := by
  have hchars := decimalInt_chars h
  have hunderscore : '_' ∉ trim text := fun hmem => by
    rcases hchars _ hmem with hd | hd <;> exact absurd hd (by decide)
  rw [pythonInt, numberText_eq_some hascii hunderscore, Option.bind_some]
  split
  · next digits heq =>
    have hplus := hchars '+' (by rw [heq]; exact List.mem_cons_self)
    exact absurd hplus (by decide)
  · exact h

end EinkLab.Text
