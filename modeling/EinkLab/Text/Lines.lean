import EinkLab.Text.Utf8
import Mathlib.Algebra.Group.Int.Defs

/-!
# Lines, fields and decimal numbers

`readLines` cuts a text as a `BufferedReader` does: a line ends at `\n`, `\r` or `\r\n`, and the
last one may lack its end.  `parseLong` reads a signed 64-bit decimal number as `Long.parseLong`
does, with the decimal digits of every script of the basic plane, and `longText` writes one.

What is written line by line and field by field is read back: `readLines_joinLines`,
`parseLong_longText`.
-/

namespace EinkLab.Text

/-! ### Lines -/

/-- The lines of a text; `acc` holds, reversed, what the current line has so far. -/
def readLinesAfter (acc : List Char) : List Char → List (List Char)
  | [] => if acc.isEmpty then [] else [acc.reverse]
  | '\n' :: cs => acc.reverse :: readLinesAfter [] cs
  | '\r' :: '\n' :: cs => acc.reverse :: readLinesAfter [] cs
  | '\r' :: cs => acc.reverse :: readLinesAfter [] cs
  | c :: cs => readLinesAfter (c :: acc) cs

def readLines (text : List Char) : List (List Char) := readLinesAfter [] text

/-- Every line with its end. -/
def joinLines (lines : List (List Char)) : List Char := lines.flatMap fun line => line ++ ['\n']

/-- The text can stand on one line. -/
def IsLine (text : List Char) : Prop := ∀ c ∈ text, c ≠ '\n' ∧ c ≠ '\r'

theorem readLinesAfter_line {line : List Char} (h : IsLine line) (acc rest : List Char) :
    readLinesAfter acc (line ++ '\n' :: rest) =
      (acc.reverse ++ line) :: readLinesAfter [] rest := by
  induction line generalizing acc with
  | nil => simp [readLinesAfter]
  | cons c line ih =>
    obtain ⟨hn, hr⟩ := h c List.mem_cons_self
    have hline : IsLine line := fun d hd => h d (List.mem_cons_of_mem _ hd)
    rw [List.cons_append, readLinesAfter, ih hline]
    · simp
    · exact hn
    · exact fun _ hc _ => hr hc
    · exact hr

/-- What is written line by line is read back. -/
theorem readLines_joinLines {lines : List (List Char)} (h : ∀ line ∈ lines, IsLine line) :
    readLines (joinLines lines) = lines := by
  induction lines with
  | nil => rfl
  | cons line lines ih =>
    have hline : IsLine line := h line List.mem_cons_self
    have hlines : readLines (joinLines lines) = lines :=
      ih fun l hl => h l (List.mem_cons_of_mem _ hl)
    show readLinesAfter [] ((line ++ ['\n']) ++ joinLines lines) = line :: lines
    rw [List.append_assoc, List.singleton_append, readLinesAfter_line hline]
    show (line :: readLines (joinLines lines)) = line :: lines
    rw [hlines]

/-! ### Decimal numbers -/

/-- The code points of the digit zero in the basic plane. -/
def zeroDigits : List Nat :=
  [0x0030, 0x0660, 0x06f0, 0x07c0, 0x0966, 0x09e6, 0x0a66, 0x0ae6, 0x0b66, 0x0be6, 0x0c66, 0x0ce6,
   0x0d66, 0x0de6, 0x0e50, 0x0ed0, 0x0f20, 0x1040, 0x1090, 0x17e0, 0x1810, 0x1946, 0x19d0, 0x1a80,
   0x1a90, 0x1b50, 0x1bb0, 0x1c40, 0x1c50, 0xa620, 0xa8d0, 0xa900, 0xa9d0, 0xa9f0, 0xaa50, 0xabf0,
   0xff10]

/-- The value of a digit; nine more follow each of the zeros. -/
def digitAfter (zeros : List Nat) (c : Char) : Option Nat :=
  (zeros.find? fun z => z ≤ c.toNat && c.toNat < z + 10).map (c.toNat - ·)

/-- `Character.digit(c, 10)`. -/
def digitValue (c : Char) : Option Nat := digitAfter zeroDigits c

/-- The value of a text of digits, after the value `acc`. -/
def digitsValue : Nat → List Char → Option Nat
  | acc, [] => some acc
  | acc, c :: cs => (digitValue c).bind fun d => digitsValue (acc * 10 + d) cs

/-- An unsigned number has at least one digit. -/
def parseDigits (text : List Char) : Option Nat :=
  if text.isEmpty then none else digitsValue 0 text

def longMin : Int := -2 ^ 63
def longMax : Int := 2 ^ 63 - 1

/-- A signed 64-bit number. -/
def IsLong (n : Int) : Prop := longMin ≤ n ∧ n ≤ longMax

instance (n : Int) : Decidable (IsLong n) := inferInstanceAs (Decidable (_ ∧ _))

/-- `n + 1` in 64-bit arithmetic. -/
def longSucc (n : Int) : Int := if n = longMax then longMin else n + 1

/-- `Long.parseLong`; `none` is its `NumberFormatException`. -/
def parseLong (text : List Char) : Option Int :=
  let value : Option Int :=
    match text with
    | '-' :: digits => (parseDigits digits).map fun n => -(n : Int)
    | '+' :: digits => (parseDigits digits).map Int.ofNat
    | digits => (parseDigits digits).map Int.ofNat
  value.filter fun n => IsLong n

/-- `Long.toString`. -/
def longText : Int → List Char
  | .ofNat n => Nat.toDigits 10 n
  | .negSucc n => '-' :: Nat.toDigits 10 (n + 1)

theorem isDigit_of_mem_toDigits {c : Char} {n : Nat} (h : c ∈ Nat.toDigits 10 n) :
    c.isDigit = true := Nat.isDigit_of_mem_toDigits (by decide) (by decide) h

theorem isDigit_bounds {c : Char} (h : c.isDigit = true) : 48 ≤ c.toNat ∧ c.toNat ≤ 57 := by
  simpa [Char.isDigit, UInt32.le_iff_toNat_le] using h

theorem digitValue_of_isDigit {c : Char} (h : c.isDigit = true) :
    digitValue c = some (c.toNat - 48) := by
  obtain ⟨hlow, hhigh⟩ := isDigit_bounds h
  have hlt : c.toNat < 0x30 + 10 := by omega
  rw [digitValue, digitAfter, zeroDigits, List.find?_cons_of_pos]
  · rfl
  · simp only [Bool.and_eq_true, decide_eq_true_eq]
    exact ⟨hlow, hlt⟩

theorem digitsValue_of_isDigit {cs : List Char} (h : ∀ c ∈ cs, c.isDigit = true) (acc : Nat) :
    digitsValue acc cs = some (Nat.ofDigitChars 10 cs acc) := by
  induction cs generalizing acc with
  | nil => rfl
  | cons c cs ih =>
    rw [digitsValue, digitValue_of_isDigit (h c List.mem_cons_self), Option.bind_some,
      ih fun d hd => h d (List.mem_cons_of_mem _ hd), Nat.ofDigitChars_cons, Nat.mul_comm]
    rfl

theorem parseDigits_toDigits (n : Nat) : parseDigits (Nat.toDigits 10 n) = some n := by
  rw [parseDigits, if_neg (by simp [Nat.toDigits_ne_nil]),
    digitsValue_of_isDigit fun c => isDigit_of_mem_toDigits, Nat.ofDigitChars_ten_toDigits]

/-- What is written as a number is read back. -/
theorem parseLong_longText {n : Int} (h : IsLong n) : parseLong (longText n) = some n := by
  cases n with
  | ofNat m =>
    have hdigits := parseDigits_toDigits m
    have hall : ∀ c ∈ Nat.toDigits 10 m, c.isDigit = true := fun c => isDigit_of_mem_toDigits
    show parseLong (Nat.toDigits 10 m) = some (Int.ofNat m)
    generalize Nat.toDigits 10 m = text at hdigits hall
    unfold parseLong
    split
    · next hneg => exact absurd (hall '-' List.mem_cons_self) (by decide)
    · next hplus => exact absurd (hall '+' List.mem_cons_self) (by decide)
    · rw [hdigits]
      simpa using h
  | negSucc m =>
    show parseLong ('-' :: Nat.toDigits 10 (m + 1)) = some (Int.negSucc m)
    rw [parseLong, parseDigits_toDigits]
    show Option.filter (fun n => decide (IsLong n)) (some (Int.negSucc m)) = some (Int.negSucc m)
    simpa using h

/-- Every character of a number is a digit or the minus sign. -/
theorem longText_chars {n : Int} {c : Char} (h : c ∈ longText n) : c.isDigit = true ∨ c = '-' := by
  cases n with
  | ofNat m => exact Or.inl (isDigit_of_mem_toDigits h)
  | negSucc m =>
    rcases List.mem_cons.mp h with rfl | h
    · exact Or.inr rfl
    · exact Or.inl (isDigit_of_mem_toDigits h)

end EinkLab.Text
