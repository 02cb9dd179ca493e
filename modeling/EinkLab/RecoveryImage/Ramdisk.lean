import EinkLab.Binary.Splice
import EinkLab.Text.Hex
import EinkLab.Text.Replace

/-!
# The recovery ramdisk

The rewrite of a newc archive in `prepare-aura-recovery.py`: the entries are walked by the sizes in
their headers, three of them are edited, and the walk ends at the first trailer.

The header fields are read as plain hexadecimal digits; the other spellings that `int(field, 16)`
knows (signs, blanks, underscores, `0x`) are refused here.
-/

namespace EinkLab.RecoveryImage

open EinkLab.Text EinkLab.Binary

/-- `(n + 3) & ~3` -/
def align4 (n : Nat) : Nat := (n + 3) / 4 * 4

/-- `bs.extend(bytes(-len(bs) % k))` -/
def extendTo (k : Nat) (bs : Bytes) : Bytes := bs ++ List.replicate ((k - bs.length % k) % k) 0

/-- Whether `bytes.decode()` accepts the bytes, after a character that may have begun. -/
def decodes : Option PendingChar → Bytes → Bool
  | none, [] => true
  | some _, [] => false
  | none, b :: bs =>
    match startOf b with
    | .char _ => decodes none bs
    | .lead p => decodes (some p) bs
    | .invalid => false
  | some p, b :: bs =>
    if p.lower ≤ b ∧ b ≤ p.upper then
      if p.needed ≤ 1 then decodes none bs
      else decodes (some { needed := p.needed - 1, code := 0 }) bs
    else false

/-- An entry of the archive; `name_bytes` ends with the zero byte. -/
structure Entry where
  header : Bytes
  name_bytes : Bytes
  data : Bytes
  deriving DecidableEq, Repr

def Entry.name (e : Entry) : Bytes := e.name_bytes.dropLast

def MAGIC : Bytes := ascii "070701"
def TRAILER : Bytes := ascii "TRAILER!!!"

/-- The archive is walked while a whole header is left. -/
def hasHeader (archive : Bytes) (position : Nat) : Prop := position + 110 ≤ archive.length

instance (archive : Bytes) (position : Nat) : Decidable (hasHeader archive position) :=
  inferInstanceAs (Decidable (_ ≤ _))

/-- The entry at `position` and the position of the next one. -/
def readEntry (archive : Bytes) (position : Nat) : Option (Entry × Nat) := do
  let header := slice archive position 110
  guard (header.take 6 = MAGIC)
  let namesize ← hexNat (slice header 94 8)
  let size ← hexNat (slice header 54 8)
  guard (1 ≤ namesize ∧ namesize ≤ 4096)
  let name_bytes := slice archive (position + 110) namesize
  guard (name_bytes.length = namesize ∧ name_bytes.getLast? = some 0)
  guard (decodes none name_bytes.dropLast)
  let data_offset := align4 (position + 110 + namesize)
  guard (data_offset + size ≤ archive.length)
  return (⟨header, name_bytes, slice archive data_offset size⟩, align4 (data_offset + size))

theorem le_align4 (n : Nat) : n ≤ align4 n := by
  unfold align4
  omega

theorem lt_of_readEntry {archive : Bytes} {position next : Nat} {e : Entry}
    (h : readEntry archive position = some (e, next)) : position < next := by
  simp only [readEntry, Option.bind_eq_bind, Option.bind_eq_some_iff, guard, pure] at h
  obtain ⟨-, -, namesize, -, size, -, -, -, -, -, -, -, -, -, h⟩ := h
  have hname := le_align4 (position + 110 + namesize)
  have hdata := le_align4 (align4 (position + 110 + namesize) + size)
  have hnext := congrArg Prod.snd (Option.some.inj h)
  dsimp only at hnext
  omega

/-! ### The edits -/

def CABLE_FILES : List Bytes := [ascii "init.recovery.mt6771.rc", ascii "init.recovery.mt8788.rc"]
def INIT_RC : Bytes := ascii "system/etc/init/hw/init.rc"

def CMODE_2 : Bytes := ascii "write /sys/class/udc/musb-hdrc/device/cmode 2"
def CMODE_1 : Bytes := ascii "write /sys/class/udc/musb-hdrc/device/cmode 1"
def SERVICE : Bytes := ascii "service recovery /system/bin/recovery\n"
def DISABLED : Bytes := ascii "    disabled\n"

def BOOT_BLOCK : Bytes :=
  ascii "\non boot\n    setprop sys.usb.controller musb-hdrc\n" ++
    ascii "    write /sys/class/udc/musb-hdrc/device/cmode 1\n" ++
    ascii "    setprop sys.usb.config fastboot\n"

/-- The new data of an entry and the names changed until now. -/
def editData (name data : Bytes) (changed : List Bytes) : Option (Bytes × List Bytes) :=
  if name ∈ CABLE_FILES then
    if occurrences CMODE_2 data = 1 ∧ name ∉ changed then
      some (replaceAll CMODE_2 CMODE_1 data, name :: changed)
    else none
  else if name = INIT_RC then
    if occurrences SERVICE data = 1 ∧ name ∉ changed ∧
        occurrences (SERVICE ++ DISABLED) data = 0 then
      some (replaceAll SERVICE (SERVICE ++ DISABLED) data ++ BOOT_BLOCK, name :: changed)
    else none
  else some (data, changed)

/-- `header[54:62] = f'{size:08x}'` -/
def withSize (header : Bytes) (size : Nat) : Bytes :=
  header.take 54 ++ (hexText 8 size ++ header.drop 62)

/-- What is appended for an entry. -/
def appendEntry (rebuilt : Bytes) (e : Entry) : Bytes :=
  extendTo 4 (extendTo 4 (rebuilt ++ (e.header ++ e.name_bytes)) ++ e.data)

/-! ### The walk -/

/-- The loop, to the first trailer: the rebuilt archive and the names changed. -/
def rewriteFrom (archive : Bytes) (position : Nat) (rebuilt : Bytes) (changed : List Bytes) :
    Option (Bytes × List Bytes) :=
  if hasHeader archive position then
    match _h : readEntry archive position with
    | none => none
    | some (e, next) =>
      match editData e.name e.data changed with
      | none => none
      | some (data, changed) =>
        let rebuilt := appendEntry rebuilt ⟨withSize e.header data.length, e.name_bytes, data⟩
        if e.name = TRAILER then some (rebuilt, changed)
        else rewriteFrom archive next rebuilt changed
  else none
termination_by archive.length - position
decreasing_by
  have := lt_of_readEntry _h
  have hheader : hasHeader archive position := by assumption
  unfold hasHeader at hheader
  omega

abbrev MAX_ARCHIVE : Nat := 64 * 1024 * 1024

/-- The rebuilt archive; `none` where the tool refuses the decompressed source. -/
def rewrite (archive : Bytes) : Option Bytes := do
  guard (archive.length ≤ MAX_ARCHIVE)
  let (rebuilt, changed) ← rewriteFrom archive 0 [] []
  guard (changed ⊆ INIT_RC :: CABLE_FILES ∧ INIT_RC :: CABLE_FILES ⊆ changed)
  return extendTo 512 rebuilt

/-! ### Reading an archive by the same rules -/

/-- The entries to the first trailer, and where it ends. -/
def entriesFrom (archive : Bytes) (position : Nat) : Option (List Entry × Nat) :=
  if hasHeader archive position then
    match _h : readEntry archive position with
    | none => none
    | some (e, next) =>
      if e.name = TRAILER then some ([e], next)
      else (entriesFrom archive next).map fun r => (e :: r.1, r.2)
  else none
termination_by archive.length - position
decreasing_by
  have := lt_of_readEntry _h
  have hheader : hasHeader archive position := by assumption
  unfold hasHeader at hheader
  omega

/-- The entries of every segment: a further one may follow a trailer, behind zeros. -/
def segmentsFrom : Nat → Bytes → Nat → Option (List Entry)
  | 0, _, _ => none
  | fuel + 1, archive, position =>
    let zeros := ((archive.drop position).takeWhile (· = 0)).length
    if archive.length ≤ position + zeros then some []
    else do
      let (es, next) ← entriesFrom archive (position + zeros)
      let rest ← segmentsFrom fuel archive next
      return es ++ rest

/-- All entries of the archive. -/
def allEntries (archive : Bytes) : Option (List Entry) :=
  segmentsFrom (archive.length + 1) archive 0

end EinkLab.RecoveryImage
