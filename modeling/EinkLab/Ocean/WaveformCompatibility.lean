import EinkLab.PartialMemory.Reader

/-!
# The import patch of the Ocean waveform library

`InstallOceanWaveformScalarStrncpyCompatibility` of `ocean_waveform_compatibility.cpp`: the tables
of a loaded ELF image are walked to the import slot of `strncpy`, which is then overwritten.  The
image is a partial memory, and the outcomes of the calls into the system are given.
-/

namespace EinkLab.Ocean

open PartialMemory

inductive OceanWaveformCompatibilityResult
  | kApplied | kInvalidEngine | kUnexpectedElf | kRelocationNotFound | kUnexpectedRelocationTarget
  | kProtectionChangeFailed
  deriving DecidableEq, Repr

/-- The tables of an image. -/
inductive Table
  | programHeaders | dynamic | relocations | symbols | strings
  deriving DecidableEq, Repr

abbrev Walk (α : Type) := Reader Table OceanWaveformCompatibilityResult α

open OceanWaveformCompatibilityResult Reader

/-! ### The calls -/

/-- What the system answers; a null pointer is 0. -/
structure Calls where
  engine_handle : UInt64
  /-- `dlsym(engine_handle, kEngineInitializer)` -/
  initializer : UInt64
  /-- `info.dli_fbase`, where `dladdr` succeeds. -/
  dli_fbase : Option UInt64
  /-- `dlsym(RTLD_DEFAULT, kTargetSymbol)` -/
  expected : UInt64
  /-- `sysconf(_SC_PAGESIZE)` -/
  page_size : Int
  /-- Whether the first and the second `mprotect` succeed. -/
  unprotected : Bool
  reprotected : Bool
  /-- The address of `ScalarStrncpy`. -/
  replacement : UInt64
  deriving DecidableEq

/-! ### Ranges -/

def kMaximumLoadSegments : Nat := 8

/-- `std::numeric_limits<std::uintptr_t>::max()` -/
def maxAddress : Nat := 2 ^ 64 - 1

structure MemoryRange where
  begin : Nat := 0
  finish : Nat := 0
  deriving DecidableEq, Repr

def MemoryRange.Contains (range : MemoryRange) (address size : Nat) : Prop :=
  range.begin ≤ address ∧ address ≤ range.finish ∧ size ≤ range.finish - address

instance (range : MemoryRange) (address size : Nat) : Decidable (range.Contains address size) :=
  inferInstanceAs (Decidable (_ ∧ _))

def IsLoadedRange (ranges : List MemoryRange) (address size : Nat) : Prop :=
  ∃ range ∈ ranges, range.Contains address size

instance (ranges : List MemoryRange) (address size : Nat) :
    Decidable (IsLoadedRange ranges address size) := inferInstanceAs (Decidable (∃ _ ∈ _, _))

/-! ### The header -/

/-- A loaded image, and where its program headers are. -/
structure Image where
  base : Nat
  e_phoff : Nat
  e_phnum : Nat
  deriving DecidableEq, Repr

abbrev PT_LOAD : Nat := 1
abbrev PT_DYNAMIC : Nat := 2
abbrev PT_GNU_RELRO : Nat := 0x6474e552

/-- The checks of the header of the image at a base. -/
def readHeader (m : Memory) (base : Nat) : Walk Image := do
  let magic ← load (m.read 4 base)
  refuse (magic ≠ 0x464c457f) kUnexpectedElf
  let ei_class ← load (m.read 1 (base + 4))
  refuse (ei_class ≠ 2) kUnexpectedElf
  let ei_data ← load (m.read 1 (base + 5))
  refuse (ei_data ≠ 1) kUnexpectedElf
  let e_machine ← load (m.read 2 (base + 18))
  refuse (e_machine ≠ 183) kUnexpectedElf
  let e_type ← load (m.read 2 (base + 16))
  refuse (e_type ≠ 3) kUnexpectedElf
  let e_phentsize ← load (m.read 2 (base + 54))
  refuse (e_phentsize ≠ 56) kUnexpectedElf
  let e_phnum ← load (m.read 2 (base + 56))
  refuse (e_phnum = 0) kUnexpectedElf
  let e_phoff ← load (m.read 8 (base + 32))
  return { base, e_phoff, e_phnum }

def readImage (calls : Calls) (m : Memory) : Walk Image := do
  refuse (calls.engine_handle = 0) kInvalidEngine
  refuse (calls.initializer = 0 ∨ calls.dli_fbase.getD 0 = 0) kInvalidEngine
  readHeader m (calls.dli_fbase.getD 0).toNat

/-! ### The program headers -/

structure Segments where
  load_ranges : List MemoryRange := []
  dynamic : Nat := 0
  dynamic_count : Nat := 0
  relro : MemoryRange := {}
  deriving DecidableEq, Repr

/-- The program header of an index. -/
def Image.header (image : Image) (index : Nat) : Access Table :=
  ⟨.programHeaders, wrap (image.base + image.e_phoff + index * 56), 56⟩

def readProgramHeader (m : Memory) (image : Image) (index : Nat) (s : Segments) :
    Walk Segments := do
  let program := image.header index
  examine program
  let p_vaddr ← load (m.read 8 (program.address + 16))
  let p_memsz ← load (m.read 8 (program.address + 40))
  refuse (p_vaddr > maxAddress - image.base ∨ p_memsz > maxAddress - (image.base + p_vaddr))
    kUnexpectedElf
  let range : MemoryRange := ⟨image.base + p_vaddr, image.base + p_vaddr + p_memsz⟩
  let p_type ← load (m.read 4 program.address)
  -- loaded segments add up; of the other two kinds the last header counts
  if p_type = PT_LOAD then
    refuse (s.load_ranges.length = kMaximumLoadSegments) kUnexpectedElf
    return { s with load_ranges := s.load_ranges ++ [range] }
  else if p_type = PT_DYNAMIC then
    return { s with dynamic := range.begin, dynamic_count := p_memsz / 16 }
  else if p_type = PT_GNU_RELRO then
    return { s with relro := range }
  else return s

/-- What the first program headers say. -/
def readSegments (m : Memory) (image : Image) (count : Nat) : Walk Segments :=
  loop (readProgramHeader m image) {} count

/-! ### The dynamic section -/

structure Tables where
  string_table : Nat := 0
  string_table_size : Nat := 0
  symbol_table : Nat := 0
  jump_relocations : Nat := 0
  jump_relocations_size : Nat := 0
  relocation_entry_size : Nat := 0
  relocation_kind : Nat := 0
  deriving DecidableEq, Repr

abbrev DT_NULL : Nat := 0
abbrev DT_PLTRELSZ : Nat := 2
abbrev DT_STRTAB : Nat := 5
abbrev DT_SYMTAB : Nat := 6
abbrev DT_RELA : Nat := 7
abbrev DT_STRSZ : Nat := 10
abbrev DT_RELAENT : Nat := 9
abbrev DT_PLTREL : Nat := 20
abbrev DT_JMPREL : Nat := 23

/-- The tables with the value of one tag. -/
def Tables.set (t : Tables) (base d_tag d_un : Nat) : Tables :=
  if d_tag = DT_STRTAB then { t with string_table := wrap (base + d_un) }
  else if d_tag = DT_STRSZ then { t with string_table_size := d_un }
  else if d_tag = DT_SYMTAB then { t with symbol_table := wrap (base + d_un) }
  else if d_tag = DT_JMPREL then { t with jump_relocations := wrap (base + d_un) }
  else if d_tag = DT_PLTRELSZ then { t with jump_relocations_size := d_un }
  else if d_tag = DT_RELAENT then { t with relocation_entry_size := d_un }
  else if d_tag = DT_PLTREL then { t with relocation_kind := d_un }
  else t

/-- The dynamic entry of an index. -/
def Segments.dynamicEntry (s : Segments) (index : Nat) : Access Table :=
  ⟨.dynamic, wrap (s.dynamic + index * 16), 16⟩

/-- Whether the section has ended, and the tables so far. -/
def readDynamicEntry (m : Memory) (image : Image) (s : Segments) (index : Nat)
    (state : Bool × Tables) : Walk (Bool × Tables) := do
  let (ended, t) := state
  if ended then return (true, t)
  else
    let entry := s.dynamicEntry index
    examine entry
    let d_tag ← load (m.read 8 entry.address)
    if d_tag = DT_NULL then return (true, t)
    else if d_tag ∈ [DT_STRTAB, DT_STRSZ, DT_SYMTAB, DT_JMPREL, DT_PLTRELSZ, DT_RELAENT, DT_PLTREL]
    then
      let d_un ← load (m.read 8 (entry.address + 8))
      return (false, t.set image.base d_tag d_un)
    else return (false, t)

/-- What the first dynamic entries say. -/
def readDynamic (m : Memory) (image : Image) (s : Segments) (count : Nat) : Walk (Bool × Tables) :=
  loop (readDynamicEntry m image s) (false, {}) count

/-! ### The relocations -/

def kTargetSymbol : List UInt8 := [0x73, 0x74, 0x72, 0x6e, 0x63, 0x70, 0x79]

abbrev R_AARCH64_JUMP_SLOT : Nat := 1026

/-- The slot of one relocation more; a null pointer is 0. -/
def readRelocation (m : Memory) (image : Image) (s : Segments) (t : Tables) (index : Nat)
    (target_slot : Nat) : Walk Nat := do
  let relocation := wrap (t.jump_relocations + index * 24)
  examine ⟨.relocations, relocation, 24⟩
  let r_info ← load (m.read 8 (relocation + 8))
  let symbol_index := r_info / 2 ^ 32
  refuse (symbol_index > (maxAddress - t.symbol_table) / 24) kUnexpectedElf
  let symbol_address := t.symbol_table + symbol_index * 24
  -- the size of the symbol table is not known, so each symbol is checked by itself
  refuse (¬IsLoadedRange s.load_ranges symbol_address 24) kUnexpectedElf
  examine ⟨.symbols, symbol_address, 24⟩
  let st_name ← load (m.read 4 symbol_address)
  refuse (st_name ≥ t.string_table_size) kUnexpectedElf
  let name := t.string_table + st_name
  let remaining := t.string_table_size - st_name
  examine ⟨.strings, name, remaining⟩
  let text ← load (m.cString remaining name)
  refuse (text = none) kUnexpectedElf
  if text ≠ some kTargetSymbol then return target_slot
  else
    refuse (r_info % 2 ^ 32 ≠ R_AARCH64_JUMP_SLOT ∨ target_slot ≠ 0) kUnexpectedElf
    let r_offset ← load (m.read 8 relocation)
    refuse (r_offset > maxAddress - image.base) kUnexpectedElf
    return image.base + r_offset

/-- The slot among the first relocations. -/
def readRelocations (m : Memory) (image : Image) (s : Segments) (t : Tables) (count : Nat) :
    Walk Nat :=
  loop (readRelocation m image s t) 0 count

/-! ### The patch -/

/-- The checks of the tables that the dynamic section names. -/
def Tables.Valid (t : Tables) (s : Segments) : Prop :=
  t.string_table ≠ 0 ∧ t.string_table_size ≠ 0 ∧ t.symbol_table ≠ 0 ∧ t.jump_relocations ≠ 0 ∧
    t.jump_relocations_size ≠ 0 ∧ t.relocation_entry_size = 24 ∧ t.relocation_kind = DT_RELA ∧
    t.jump_relocations_size % 24 = 0 ∧
    IsLoadedRange s.load_ranges t.string_table t.string_table_size ∧
    IsLoadedRange s.load_ranges t.jump_relocations t.jump_relocations_size

instance (t : Tables) (s : Segments) : Decidable (t.Valid s) :=
  inferInstanceAs (Decidable (_ ∧ _))

def Tables.relocation_count (t : Tables) : Nat := t.jump_relocations_size / 24

/-- The slot that is overwritten: all that comes before, to the first `mprotect`. -/
def findTarget (calls : Calls) (m : Memory) : Walk Nat := do
  let image ← readImage calls m
  let s ← readSegments m image image.e_phnum
  refuse (s.dynamic = 0 ∨ s.dynamic_count = 0 ∨ s.relro.begin = 0) kUnexpectedElf
  let (_, t) ← readDynamic m image s s.dynamic_count
  refuse (¬t.Valid s) kUnexpectedElf
  let target_slot ← readRelocations m image s t t.relocation_count
  refuse (target_slot = 0) kRelocationNotFound
  refuse (¬s.relro.Contains target_slot 8) kUnexpectedElf
  let current ← load (m.read 8 target_slot)
  refuse (calls.expected = 0 ∨ current ≠ calls.expected.toNat) kUnexpectedRelocationTarget
  refuse (calls.page_size ≤ 0 ∨ calls.page_size.toNat &&& (calls.page_size.toNat - 1) ≠ 0)
    kProtectionChangeFailed
  refuse (calls.unprotected = false) kProtectionChangeFailed
  return target_slot

/-- How the function ends, and the memory behind it. -/
structure Run where
  examined : List (Access Table)
  outcome : Outcome OceanWaveformCompatibilityResult Empty
  memory : Memory

def installOceanWaveformScalarStrncpyCompatibility (calls : Calls) (m : Memory) : Run :=
  let walk := findTarget calls m
  match walk.outcome with
  | .ok target_slot =>
    -- written in any case, before the page is protected again
    ⟨walk.examined, .returned (if calls.reprotected then kApplied else kProtectionChangeFailed),
      m.write target_slot calls.replacement.toNat⟩
  | .returned result => ⟨walk.examined, .returned result, m⟩
  | .fault => ⟨walk.examined, .fault, m⟩

end EinkLab.Ocean
