import EinkLab.Text.Lines
import Mathlib.Data.List.DropRight
import Mathlib.Data.List.TakeDrop

/-!
# Fields of a line, and the decimal numbers of C

A string of C is here a list of characters, one for each byte.  `trim` drops the ASCII white space
at both ends, as `android::base::Trim` does; `android::base::Split` at one separator is `splitOn`.
`decimalInt` reads an integer as `std::from_chars` does.
-/

namespace EinkLab.Text

/-- `isspace` in the C locale. -/
def isSpace (c : Char) : Bool :=
  c == ' ' || c == '\t' || c == '\n' || c == '\x0b' || c == '\x0c' || c == '\r'

def trim (text : List Char) : List Char := (text.dropWhile isSpace).rdropWhile isSpace

/-- A text with no white space at either end. -/
theorem trim_eq_self {text : List Char} (hhead : ∀ c ∈ text.head?, isSpace c = false)
    (hlast : ∀ c ∈ text.getLast?, isSpace c = false) : trim text = text := by
  have hfront : text.dropWhile isSpace = text := by
    cases text with
    | nil => rfl
    | cons c text =>
      have hc : isSpace c = false := hhead c rfl
      simp [hc]
  rw [trim, hfront, List.rdropWhile_eq_self_iff]
  intro hne hspace
  have hc := hlast (text.getLast hne) (List.getLast?_eq_getLast_of_ne_nil hne)
  rw [hc] at hspace
  exact absurd hspace (by decide)

theorem mem_of_mem_trim {text : List Char} {c : Char} (h : c ∈ trim text) : c ∈ text :=
  (List.dropWhile_sublist _).subset ((List.rdropWhile_prefix _ _).subset h)

theorem mem_trim {text : List Char} {c : Char} (hmem : c ∈ text) (hspace : isSpace c = false) :
    c ∈ trim text := by
  have hdrop : ∀ {t : List Char}, c ∈ t → c ∈ t.dropWhile isSpace := by
    intro t ht
    rw [← List.takeWhile_append_dropWhile (p := isSpace) (l := t)] at ht
    refine (List.mem_append.mp ht).resolve_left fun htake => ?_
    rw [List.mem_takeWhile_imp htake] at hspace
    exact absurd hspace (by decide)
  exact List.mem_reverse.mpr (hdrop (List.mem_reverse.mpr (hdrop hmem)))

theorem getLast_trim (text : List Char) : ∀ c ∈ (trim text).getLast?, isSpace c = false := by
  intro c hc
  have hne : trim text ≠ [] := by
    intro hnil
    rw [hnil] at hc
    exact absurd hc (by simp)
  have hlast := List.rdropWhile_last_not isSpace (text.dropWhile isSpace) hne
  rw [List.getLast?_eq_getLast_of_ne_nil hne, Option.mem_some_iff] at hc
  rw [← hc]
  exact Bool.eq_false_iff.mpr hlast

theorem head_trim (text : List Char) : ∀ c ∈ (trim text).head?, isSpace c = false := by
  intro c hc
  obtain ⟨rest, hrest⟩ := List.rdropWhile_prefix isSpace (text.dropWhile isSpace)
  have hhead : (text.dropWhile isSpace).head? = some c := by
    rw [← hrest, List.head?_append, ← trim, hc]
    rfl
  have hnot := List.head?_dropWhile_not isSpace text
  rw [hhead] at hnot
  simpa using hnot

theorem dropWhile_trim (text : List Char) : (trim text).dropWhile isSpace = trim text := by
  have hhead := head_trim text
  cases htrim : trim text with
  | nil => rfl
  | cons c rest =>
    have hc : isSpace c = false := hhead c (by rw [htrim]; rfl)
    simp [hc]

theorem mem_splitOn_iff {value : List Char} {sep c : Char} (hne : c ≠ sep) :
    c ∈ value ↔ ∃ piece ∈ value.splitOn sep, c ∈ piece := by
  have hvalue : [sep].intercalate (value.splitOn sep) = value := List.intercalate_splitOn sep
  conv_lhs => rw [← hvalue]
  generalize value.splitOn sep = pieces
  induction pieces with
  | nil => simp
  | cons piece pieces ih =>
    cases pieces with
    | nil => simp
    | cons next pieces =>
      rw [List.intercalate_cons_cons, List.mem_append, List.mem_append, ih]
      simp [hne]

/-- What stands before and after the first `=`; `none` when there is none. -/
def keyValue (line : List Char) : Option (List Char × List Char) :=
  match line.span (· ≠ '=') with
  | (_, []) => none
  | (key, _ :: value) => some (key, value)

theorem keyValue_append {key value : List Char} (h : '=' ∉ key) :
    keyValue (key ++ '=' :: value) = some (key, value) := by
  have hall : ∀ c ∈ key, (decide (c ≠ '=')) = true := fun c hc =>
    decide_eq_true fun heq => h (heq ▸ hc)
  have hspan : (key ++ '=' :: value).span (· ≠ '=') = (key, '=' :: value) := by
    rw [List.span_eq_takeWhile_dropWhile, List.takeWhile_append_of_pos hall,
      List.dropWhile_append_of_pos hall]
    simp
  rw [keyValue, hspan]

theorem keyValue_eq_some {line key value : List Char} (h : keyValue line = some (key, value)) :
    line = key ++ '=' :: value := by
  unfold keyValue at h
  rw [List.span_eq_takeWhile_dropWhile] at h
  split at h
  · exact absurd h (by simp)
  · next heq =>
    rw [Prod.mk.injEq] at heq
    obtain ⟨hkey, hrest⟩ := heq
    rw [Option.some_inj, Prod.mk.injEq] at h
    obtain ⟨rfl, rfl⟩ := h
    have hhead := List.head?_dropWhile_not (fun c : Char => decide (c ≠ '=')) line
    rw [hrest, List.head?_cons] at hhead
    simp only [ne_eq, decide_not] at hhead
    rw [← List.takeWhile_append_dropWhile (p := fun c : Char => decide (c ≠ '=')) (l := line), hkey,
      hrest]
    simp_all

/-! ### Decimal numbers -/

/-- One or more ASCII digits. -/
def decimalNat (digits : List Char) : Option Nat :=
  if digits.isEmpty || !digits.all Char.isDigit then none else some (Nat.ofDigitChars 10 digits 0)

/-- A minus sign may stand before the digits. -/
def decimalInt (text : List Char) : Option Int :=
  match text with
  | '-' :: digits => (decimalNat digits).map fun n => -(n : Int)
  | digits => (decimalNat digits).map fun n => (n : Int)

theorem decimalNat_toDigits (n : Nat) : decimalNat (Nat.toDigits 10 n) = some n := by
  have hdigits : (Nat.toDigits 10 n).all Char.isDigit = true :=
    List.all_eq_true.mpr fun c hc => isDigit_of_mem_toDigits hc
  have hne : (Nat.toDigits 10 n).isEmpty = false := by simp [Nat.toDigits_ne_nil]
  rw [decimalNat, hdigits, hne, Nat.ofDigitChars_ten_toDigits]
  rfl

theorem decimalInt_longText (n : Int) : decimalInt (longText n) = some n := by
  cases n with
  | ofNat m =>
    have hnat := decimalNat_toDigits m
    have hall : ∀ c ∈ Nat.toDigits 10 m, c.isDigit = true := fun c => isDigit_of_mem_toDigits
    show decimalInt (Nat.toDigits 10 m) = some (Int.ofNat m)
    generalize Nat.toDigits 10 m = text at hnat hall
    unfold decimalInt
    split
    · next digits => exact absurd (hall '-' List.mem_cons_self) (by decide)
    · rw [hnat]
      rfl
  | negSucc m =>
    rw [longText, decimalInt, decimalNat_toDigits]
    rfl

/-- No character of a number is white space. -/
theorem isSpace_of_mem_longText {n : Int} {c : Char} (h : c ∈ longText n) : isSpace c = false := by
  rcases longText_chars h with hdigit | rfl
  · obtain ⟨hlow, hhigh⟩ := isDigit_bounds hdigit
    have hne : ∀ d : Char, d.toNat < 48 → (c == d) = false := fun d hd =>
      beq_eq_false_iff_ne.mpr fun heq => by
        rw [heq] at hlow
        omega
    simp only [isSpace, hne _ (by decide : (' ' : Char).toNat < 48),
      hne _ (by decide : ('\t' : Char).toNat < 48), hne _ (by decide : ('\n' : Char).toNat < 48),
      hne _ (by decide : ('\x0b' : Char).toNat < 48),
        hne _ (by decide : ('\x0c' : Char).toNat < 48),
      hne _ (by decide : ('\r' : Char).toNat < 48), Bool.or_self]
  · rfl

theorem trim_longText (n : Int) : trim (longText n) = longText n :=
  trim_eq_self (fun _ hc => isSpace_of_mem_longText (List.mem_of_mem_head? hc))
    fun _ hc => isSpace_of_mem_longText (List.mem_of_mem_getLast? hc)

/-- No character of a number is the given one, unless that is a digit or a minus sign. -/
theorem notMem_longText {n : Int} {c : Char} (hdigit : c.isDigit = false) (hminus : c ≠ '-') :
    c ∉ longText n := fun h => by
  rcases longText_chars h with hd | hm
  · rw [hdigit] at hd
    exact absurd hd (by decide)
  · exact hminus hm

end EinkLab.Text
