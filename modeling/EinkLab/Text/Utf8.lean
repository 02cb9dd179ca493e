import Mathlib.Data.List.Basic

/-!
# UTF-8

`decodeUtf8` is the decoder that never fails: a byte that cannot start or continue a character ends
what was read so far, which becomes one replacement character, and is then read afresh.  (Decoders
differ in how many replacement characters stand for one malformed sequence.)
`encodeUtf8` encodes a text.  A text of ASCII characters survives the round trip
(`decodeUtf8_encodeUtf8`), which is all that a format with an ASCII alphabet needs.
-/

namespace EinkLab.Text

abbrev Bytes := List UInt8

/-- The bytes of an ASCII literal, as in `b"OKAY"`. -/
def ascii (s : String) : Bytes := s.toList.map fun c => UInt8.ofNat c.toNat

instance lawfulBEqBytes : LawfulBEq Bytes := List.instLawfulBEq

instance lawfulBEqText : LawfulBEq (List Char) := List.instLawfulBEq

/-- `U+FFFD`. -/
def replacement : Char := '\uFFFD'

/-- A character that has begun: the continuation bytes it still needs, the range of the next one,
and the code point so far. -/
structure PendingChar where
  needed : Nat
  lower : UInt8 := 0x80
  upper : UInt8 := 0xbf
  code : Nat
  deriving DecidableEq, Repr

/-- What a byte starts. -/
inductive Start
  | char (c : Char)
  | lead (p : PendingChar)
  | invalid
  deriving DecidableEq, Repr

def startOf (b : UInt8) : Start :=
  if b < 0x80 then .char (Char.ofNat b.toNat)
  else if b < 0xc2 then .invalid
  else if b < 0xe0 then .lead { needed := 1, code := b.toNat - 0xc0 }
  else if b = 0xe0 then .lead { needed := 2, lower := 0xa0, code := 0 }
  else if b = 0xed then .lead { needed := 2, upper := 0x9f, code := b.toNat - 0xe0 }
  else if b < 0xf0 then .lead { needed := 2, code := b.toNat - 0xe0 }
  else if b = 0xf0 then .lead { needed := 3, lower := 0x90, code := 0 }
  else if b < 0xf4 then .lead { needed := 3, code := b.toNat - 0xf0 }
  else if b = 0xf4 then .lead { needed := 3, upper := 0x8f, code := b.toNat - 0xf0 }
  else .invalid

/-- Decode, after a character that may have begun. -/
def decodeAfter : Option PendingChar → Bytes → List Char
  | none, [] => []
  | some _, [] => [replacement]
  | none, b :: bs =>
    match startOf b with
    | .char c => c :: decodeAfter none bs
    | .lead p => decodeAfter (some p) bs
    | .invalid => replacement :: decodeAfter none bs
  | some p, b :: bs =>
    if p.lower ≤ b ∧ b ≤ p.upper then
      let code := p.code * 64 + (b.toNat - 0x80)
      if p.needed ≤ 1 then Char.ofNat code :: decodeAfter none bs
      else decodeAfter (some { needed := p.needed - 1, code := code }) bs
    else
      -- the byte does not continue the character: it is read afresh
      match startOf b with
      | .char c => replacement :: c :: decodeAfter none bs
      | .lead q => replacement :: decodeAfter (some q) bs
      | .invalid => replacement :: replacement :: decodeAfter none bs

def decodeUtf8 (bytes : Bytes) : List Char := decodeAfter none bytes

def encodeUtf8 (text : List Char) : Bytes := text.flatMap String.utf8EncodeChar

/-- Every character is an ASCII one. -/
def IsAscii (text : List Char) : Prop := ∀ c ∈ text, c.toNat < 0x80

theorem IsAscii.append {s t : List Char} (hs : IsAscii s) (ht : IsAscii t) : IsAscii (s ++ t) := by
  intro c hc
  rcases List.mem_append.mp hc with h | h
  · exact hs c h
  · exact ht c h

theorem encodeChar_ascii {c : Char} (h : c.toNat < 0x80) :
    String.utf8EncodeChar c = [UInt8.ofNat c.toNat] := by
  unfold String.utf8EncodeChar
  simp
  omega

theorem startOf_ascii {c : Char} (h : c.toNat < 0x80) : startOf (UInt8.ofNat c.toNat) =
    .char c := by
  have hnat : (UInt8.ofNat c.toNat).toNat = c.toNat := by
    rw [UInt8.toNat_ofNat']
    omega
  have hlt : UInt8.ofNat c.toNat < 0x80 := by
    rw [UInt8.lt_iff_toNat_lt, hnat]
    exact h
  rw [startOf, if_pos hlt, hnat, Char.ofNat_toNat]

/-- **Round trip** of an ASCII text. -/
theorem decodeUtf8_encodeUtf8 {text : List Char} (h : IsAscii text) :
    decodeUtf8 (encodeUtf8 text) = text := by
  induction text with
  | nil => rfl
  | cons c text ih =>
    have hc : c.toNat < 0x80 := h c List.mem_cons_self
    have htext : decodeUtf8 (encodeUtf8 text) = text :=
      ih fun d hd => h d (List.mem_cons_of_mem _ hd)
    show decodeAfter none (String.utf8EncodeChar c ++ encodeUtf8 text) = c :: text
    rw [encodeChar_ascii hc, List.singleton_append, decodeAfter, startOf_ascii hc]
    show c :: decodeUtf8 (encodeUtf8 text) = c :: text
    rw [htext]

end EinkLab.Text
