import EinkLab.Ocean.WaveformCompatibility

/-!
# What the import patch reads and writes

The relocations, symbols and names that the walk examines lie in loaded segments, as the program
headers and the dynamic section need not (`allOrNothing_iff`).  The slot it finds is that of the
only relocation of `strncpy` (`onlyTarget_readRelocations`); it is overwritten before the page is
protected again, so the second `mprotect` decides whether a failure leaves it alone.
-/

namespace EinkLab.Ocean

open PartialMemory Reader

variable {calls : Calls} {m : Memory} {image : Image} {s : Segments} {t : Tables}
  {a : Access Table} {i count slot : Nat} {ended : Bool}

/-! ### Loaded segments -/

/-- A segment that one of the first program headers loads. -/
def Image.LoadSegment (image : Image) (m : Memory) (count : Nat) (range : MemoryRange) : Prop :=
  ∃ i < count, ∃ p_vaddr p_memsz, m.read 4 (image.header i).address = some PT_LOAD ∧
    m.read 8 ((image.header i).address + 16) = some p_vaddr ∧
    m.read 8 ((image.header i).address + 40) = some p_memsz ∧
    range = ⟨image.base + p_vaddr, image.base + p_vaddr + p_memsz⟩ ∧ range.finish ≤ maxAddress

/-- The entry lies in a loaded segment. -/
def Image.Loaded (image : Image) (m : Memory) (a : Access Table) : Prop :=
  ∃ range, image.LoadSegment m image.e_phnum range ∧ range.Contains a.address a.size

/-- What the first program headers say is so. -/
structure Segments.Sound (s : Segments) (m : Memory) (image : Image) (count : Nat) : Prop where
  load : ∀ range ∈ s.load_ranges, image.LoadSegment m count range
  relro : s.relro.finish ≤ maxAddress

theorem Image.LoadSegment.mono {range : MemoryRange} {n : Nat}
    (h : image.LoadSegment m count range) (hle : count ≤ n) : image.LoadSegment m n range := by
  obtain ⟨i, hi, h⟩ := h
  exact ⟨i, by omega, h⟩

@[simp] theorem mem_examined_readProgramHeader :
    a ∈ (readProgramHeader m image i s).examined ↔ a = image.header i := by
  simp [readProgramHeader]

/-- One program header more. -/
theorem Segments.Sound.readProgramHeader {s' : Segments} (hbase : image.base ≤ maxAddress)
    (h : s.Sound m image i) (hread : (readProgramHeader m image i s).outcome = .ok s') :
    s'.Sound m image (i + 1) := by
  simp only [Ocean.readProgramHeader, outcome_bind, outcome_load, outcome_refuse, not_or,
    gt_iff_lt, not_lt] at hread
  obtain ⟨-, -, p_vaddr, hvaddr, p_memsz, hmemsz, -, hrange, p_type, htype, hread⟩ := hread
  have hload : ∀ range ∈ s.load_ranges, image.LoadSegment m (i + 1) range :=
    fun range hmem => (h.load range hmem).mono (Nat.le_succ i)
  have hfinish : image.base + p_vaddr + p_memsz ≤ maxAddress := by omega
  split at hread
  · next hkind =>
    simp only [outcome_bind, outcome_refuse, outcome_pure, Outcome.ok.injEq] at hread
    obtain ⟨-, -, rfl⟩ := hread
    refine ⟨fun range hmem => ?_, h.relro⟩
    rcases List.mem_append.mp hmem with hmem | hmem
    · exact hload range hmem
    · rw [List.mem_singleton.mp hmem]
      exact ⟨i, Nat.lt_succ_self i, p_vaddr, p_memsz, by rw [htype, hkind], hvaddr, hmemsz, rfl,
        hfinish⟩
  · split at hread
    · simp only [outcome_pure, Outcome.ok.injEq] at hread
      rw [← hread]
      exact ⟨hload, h.relro⟩
    · split at hread
      · simp only [outcome_pure, Outcome.ok.injEq] at hread
        rw [← hread]
        exact ⟨hload, hfinish⟩
      · simp only [outcome_pure, Outcome.ok.injEq] at hread
        rw [← hread]
        exact ⟨hload, h.relro⟩

theorem sound_readSegments (hbase : image.base ≤ maxAddress)
    (h : (readSegments m image count).outcome = .ok s) : s.Sound m image count :=
  loop_induction (I := fun n s => s.Sound m image n) ⟨by simp, by simp⟩
    (fun _ _ _ _ hs hread => hs.readProgramHeader hbase hread) h

theorem Segments.Sound.loaded {address size : Nat} {table : Table}
    (h : s.Sound m image image.e_phnum) (hloaded : IsLoadedRange s.load_ranges address size) :
    image.Loaded m ⟨table, address, size⟩ := by
  obtain ⟨range, hmem, hcontains⟩ := hloaded
  exact ⟨range, h.load range hmem, hcontains⟩

/-- A part of a loaded range is loaded, and its addresses do not wrap. -/
theorem Segments.Sound.loaded_part {address size address' size' : Nat}
    (h : s.Sound m image image.e_phnum) (hloaded : IsLoadedRange s.load_ranges address size)
    (hbegin : address ≤ address') (hend : address' + size' ≤ address + size) :
    IsLoadedRange s.load_ranges address' size' ∧ address' + size' ≤ maxAddress := by
  obtain ⟨range, hmem, hcontains⟩ := hloaded
  obtain ⟨-, -, -, -, -, -, -, -, hfinish⟩ := h.load range hmem
  obtain ⟨hfirst, hmiddle, hlast⟩ := hcontains
  exact ⟨⟨range, hmem, by omega, by omega, by omega⟩, by omega⟩

/-! ### The dynamic section -/

@[simp] theorem mem_examined_readDynamicEntry :
    a ∈ (readDynamicEntry m image s i (ended, t)).examined ↔
      ended = false ∧ a = s.dynamicEntry i := by
  cases ended <;> simp [readDynamicEntry]

/-! ### The relocations -/

/-- Where the relocation of an index is. -/
def Tables.relocation (t : Tables) (index : Nat) : Nat := wrap (t.jump_relocations + index * 24)

/-- The relocation is that of `strncpy`. -/
def Tables.Named (t : Tables) (m : Memory) (index : Nat) : Prop :=
  ∃ r_info st_name, m.read 8 (t.relocation index + 8) = some r_info ∧
    m.read 4 (t.symbol_table + r_info / 2 ^ 32 * 24) = some st_name ∧
    m.cString (t.string_table_size - st_name) (t.string_table + st_name) =
      some (some kTargetSymbol)

/-- The relocation is that of a jump slot. -/
def Tables.IsJumpSlot (t : Tables) (m : Memory) (image : Image) (index slot : Nat) : Prop :=
  ∃ r_info r_offset, m.read 8 (t.relocation index + 8) = some r_info ∧
    r_info % 2 ^ 32 = R_AARCH64_JUMP_SLOT ∧ m.read 8 (t.relocation index) = some r_offset ∧
    slot = image.base + r_offset

/-- Of the first relocations only one is that of `strncpy`, for the jump slot. -/
def Tables.OnlyTarget (t : Tables) (m : Memory) (image : Image) (count slot : Nat) : Prop :=
  ∃ i < count, t.Named m i ∧ t.IsJumpSlot m image i slot ∧ ∀ j < count, t.Named m j → j = i

/-- A relocation of another symbol leaves the slot, and one of `strncpy` sets it. -/
theorem readRelocation_eq_ok {slot' : Nat}
    (h : (readRelocation m image s t i slot).outcome = .ok slot') :
    (¬t.Named m i ∧ slot' = slot) ∨ (t.Named m i ∧ slot = 0 ∧ t.IsJumpSlot m image i slot') := by
  simp only [readRelocation, outcome_bind, outcome_load, outcome_refuse, not_not] at h
  obtain ⟨-, -, r_info, hinfo, -, -, -, -, -, -, st_name, hname, -, -, -, -, text, htext, -, -,
    h⟩ := h
  split at h
  · next hother =>
    simp only [outcome_pure, Outcome.ok.injEq] at h
    refine Or.inl ⟨?_, h.symm⟩
    rintro ⟨r_info', st_name', hinfo', hname', htext'⟩
    rw [Tables.relocation, hinfo, Option.some_inj] at hinfo'
    rw [← hinfo', hname, Option.some_inj] at hname'
    rw [← hname', htext, Option.some_inj] at htext'
    exact hother htext'
  · next hsame =>
    simp only [outcome_bind, outcome_load, outcome_refuse, outcome_pure, not_or, not_not,
      Outcome.ok.injEq] at h
    obtain ⟨-, ⟨hkind, hslot⟩, r_offset, hoffset, -, -, rfl⟩ := h
    exact Or.inr ⟨⟨r_info, st_name, hinfo, hname, htext.trans (congrArg some (not_not.mp hsame))⟩,
      hslot, r_info, r_offset, hinfo, hkind, hoffset, rfl⟩

/-- A slot that is found is that of the only relocation of `strncpy`. -/
theorem onlyTarget_readRelocations (hbase : image.base ≠ 0)
    (h : (readRelocations m image s t count).outcome = .ok slot) :
    (slot = 0 ∧ ∀ j < count, ¬t.Named m j) ∨ (slot ≠ 0 ∧ t.OnlyTarget m image count slot) := by
  refine loop_induction (I := fun n slot => (slot = 0 ∧ ∀ j < n, ¬t.Named m j) ∨
    (slot ≠ 0 ∧ t.OnlyTarget m image n slot)) (Or.inl ⟨rfl, by simp⟩) ?_ h
  intro n slot slot' _ hslot hread
  -- a second relocation of `strncpy` would find the slot set, and be refused
  rcases readRelocation_eq_ok hread with ⟨hother, rfl⟩ | ⟨hnamed, rfl, hjump⟩
  · rcases hslot with ⟨rfl, hnone⟩ | ⟨hne, i, hi, hnamed, hjump, honly⟩
    · refine Or.inl ⟨rfl, fun j hj => ?_⟩
      rcases Nat.lt_succ_iff_lt_or_eq.mp hj with hj | rfl
      · exact hnone j hj
      · exact hother
    · refine Or.inr ⟨hne, i, Nat.lt_succ_of_lt hi, hnamed, hjump, fun j hj hj' => ?_⟩
      rcases Nat.lt_succ_iff_lt_or_eq.mp hj with hj | rfl
      · exact honly j hj hj'
      · exact absurd hj' hother
  · rcases hslot with ⟨-, hnone⟩ | ⟨hne, -⟩
    · have hpositive : slot' ≠ 0 := by
        obtain ⟨-, r_offset, -, -, -, rfl⟩ := hjump
        omega
      refine Or.inr ⟨hpositive, n, Nat.lt_succ_self n, hnamed, hjump, fun j hj hj' => ?_⟩
      rcases Nat.lt_succ_iff_lt_or_eq.mp hj with hj | rfl
      · exact absurd hj' (hnone j hj)
      · rfl
    · exact absurd rfl hne

/-- What the walk over the relocations examines is loaded. -/
theorem loaded_readRelocation (hs : s.Sound m image image.e_phnum) (ht : t.Valid s)
    (hi : i < t.relocation_count) (ha : a ∈ (readRelocation m image s t i slot).examined) :
    image.Loaded m a := by
  obtain ⟨-, -, -, -, -, -, -, -, hstrings, hrelocations⟩ := ht
  unfold Tables.relocation_count at hi
  have hrelocation : image.Loaded m ⟨.relocations, t.relocation i, 24⟩ := by
    obtain ⟨hloaded, hmax⟩ : IsLoadedRange s.load_ranges (t.jump_relocations + i * 24) 24 ∧
        t.jump_relocations + i * 24 + 24 ≤ maxAddress :=
      hs.loaded_part hrelocations (by omega) (by omega)
    rw [Tables.relocation, wrap_of_lt (by unfold maxAddress at hmax; omega)]
    exact hs.loaded hloaded
  simp only [readRelocation, mem_examined_bind, examined_examine, outcome_examine, examined_load,
    examined_refuse, outcome_refuse, outcome_load, mem_examined_ite, examined_pure, not_not,
    List.mem_singleton, List.not_mem_nil, false_or, exists_and_left, exists_const, and_false,
    ite_self, or_false, true_and] at ha
  rcases ha with rfl | ⟨r_info, -, -, hsymbol, rfl | ⟨st_name, -, hname, rfl⟩⟩
  · exact hrelocation
  · exact hs.loaded hsymbol
  · exact hs.loaded (hs.loaded_part hstrings (by omega) (by omega)).1

theorem loaded_readRelocations (hs : s.Sound m image image.e_phnum) (ht : t.Valid s)
    (ha : a ∈ (readRelocations m image s t t.relocation_count).examined) : image.Loaded m a := by
  obtain ⟨i, hi, slot, -, ha⟩ := mem_examined_loop.mp ha
  exact loaded_readRelocation hs ht hi ha

/-! ### The whole walk -/

theorem readHeader_eq_ok {base : Nat} (h : (readHeader m base).outcome = .ok image) :
    image.base = base := by
  simp only [readHeader, outcome_bind, outcome_refuse, outcome_load, outcome_pure, exists_const,
    Outcome.ok.injEq] at h
  obtain ⟨-, -, -, -, -, -, -, -, -, -, -, -, -, -, -, -, -, -, -, -, -, -, -, rfl⟩ := h
  rfl

theorem readImage_eq_ok (h : (readImage calls m).outcome = .ok image) :
    image.base ≠ 0 ∧ image.base ≤ maxAddress := by
  simp only [readImage, outcome_bind, outcome_refuse, not_or, exists_const] at h
  obtain ⟨-, ⟨-, hbase⟩, h⟩ := h
  have hlt := (calls.dli_fbase.getD 0).toNat_lt
  have hne : (calls.dli_fbase.getD 0).toNat ≠ 0 := fun h =>
    hbase (UInt64.toNat_inj.mp (by simpa using h))
  rw [readHeader_eq_ok h]
  unfold maxAddress
  exact ⟨hne, by omega⟩

theorem notMem_examined_readImage : a ∉ (readImage calls m).examined := by
  simp [readImage, readHeader]

/-- What the walk examines: the program headers, the dynamic entries, and the relocations with what
they lead to. -/
theorem mem_examined_findTarget : a ∈ (findTarget calls m).examined ↔
    ∃ image, (readImage calls m).outcome = .ok image ∧
      (a ∈ (readSegments m image image.e_phnum).examined ∨
        ∃ s, (readSegments m image image.e_phnum).outcome = .ok s ∧
          ¬(s.dynamic = 0 ∨ s.dynamic_count = 0 ∨ s.relro.begin = 0) ∧
          (a ∈ (readDynamic m image s s.dynamic_count).examined ∨
            ∃ e t, (readDynamic m image s s.dynamic_count).outcome = .ok (e, t) ∧ t.Valid s ∧
              a ∈ (readRelocations m image s t t.relocation_count).examined)) := by
  simp only [findTarget, mem_examined_bind, notMem_examined_readImage, false_or, examined_refuse,
    outcome_refuse, List.not_mem_nil, exists_const, not_not, examined_load, examined_pure,
    and_false, or_false, Prod.exists, not_or]

/-- What holds where the walk ends at a slot. -/
theorem findTarget_eq_ok (h : (findTarget calls m).outcome = .ok slot) :
    ∃ image s e t, (readImage calls m).outcome = .ok image ∧
      (readSegments m image image.e_phnum).outcome = .ok s ∧
      (readDynamic m image s s.dynamic_count).outcome = .ok (e, t) ∧ t.Valid s ∧
      (readRelocations m image s t t.relocation_count).outcome = .ok slot ∧ slot ≠ 0 ∧
      s.relro.Contains slot 8 ∧ m.read 8 slot = some calls.expected.toNat := by
  simp only [findTarget, outcome_bind, outcome_refuse, outcome_load, outcome_pure, exists_const,
    not_not, not_or, Outcome.ok.injEq, Prod.exists] at h
  obtain ⟨image, himage, s, hs, -, e, t, ht, hvalid, found, hfound, hne, hrelro, current, hcurrent,
    ⟨-, hexpected⟩, -, -, rfl⟩ := h
  rw [hexpected] at hcurrent
  exact ⟨image, s, e, t, himage, hs, ht, hvalid, hfound, hne, hrelro, hcurrent⟩

theorem loaded_readSegments :
    (∀ a ∈ (readSegments m image image.e_phnum).examined, image.Loaded m a) ↔
      ∀ i < image.e_phnum, ∀ s, (readSegments m image i).outcome = .ok s →
        image.Loaded m (image.header i) := by
  simp only [readSegments, mem_examined_loop, mem_examined_readProgramHeader]
  constructor
  · intro h i hi s hs
    exact h _ ⟨i, hi, s, hs, rfl⟩
  · rintro h a ⟨i, hi, s, hs, rfl⟩
    exact h i hi s hs

theorem loaded_readDynamic :
    (∀ a ∈ (readDynamic m image s s.dynamic_count).examined, image.Loaded m a) ↔
      ∀ i < s.dynamic_count, ∀ t, (readDynamic m image s i).outcome = .ok (false, t) →
        image.Loaded m (s.dynamicEntry i) := by
  simp only [readDynamic, mem_examined_loop, Prod.exists, mem_examined_readDynamicEntry]
  constructor
  · intro h i hi t ht
    exact h _ ⟨i, hi, false, t, ht, rfl, rfl⟩
  · rintro h a ⟨i, hi, e, t, ht, rfl, rfl⟩
    exact h i hi t ht

/-! ### All or nothing -/

/-- The import slot of `strncpy`, which the patch is for. -/
structure IsTarget (calls : Calls) (m : Memory) (slot : Nat) : Prop where
  only : ∃ image s e t, (readImage calls m).outcome = .ok image ∧
    (readSegments m image image.e_phnum).outcome = .ok s ∧
    (readDynamic m image s s.dynamic_count).outcome = .ok (e, t) ∧
    t.OnlyTarget m image t.relocation_count slot ∧ s.relro.Contains slot 8
  previous : m.read 8 slot = some calls.expected.toNat

/-- The patch changes the slot or nothing, and what it examines is loaded. -/
structure AllOrNothing (calls : Calls) (m : Memory) : Prop where
  refused :
    (installOceanWaveformScalarStrncpyCompatibility calls m).outcome ≠ .returned .kApplied →
      (installOceanWaveformScalarStrncpyCompatibility calls m).memory = m
  applied :
    (installOceanWaveformScalarStrncpyCompatibility calls m).outcome = .returned .kApplied →
      ∃ slot, IsTarget calls m slot ∧
        (installOceanWaveformScalarStrncpyCompatibility calls m).memory =
          m.write slot calls.replacement.toNat ∧
        (m.write slot calls.replacement.toNat).read 8 slot = some calls.replacement.toNat
  examined : ∀ a ∈ (installOceanWaveformScalarStrncpyCompatibility calls m).examined,
    ∃ image, (readImage calls m).outcome = .ok image ∧ image.Loaded m a

/-- The second `mprotect` succeeds where it is reached (or the pointer is there already), and the
program headers and the dynamic section lie in loaded segments as far as they are followed. -/
structure PatchPremise (calls : Calls) (m : Memory) : Prop where
  reprotected : ∀ slot, (findTarget calls m).outcome = .ok slot →
    calls.reprotected = true ∨ calls.replacement = calls.expected
  headers : ∀ image, (readImage calls m).outcome = .ok image → ∀ i < image.e_phnum,
    ∀ s, (readSegments m image i).outcome = .ok s → image.Loaded m (image.header i)
  dynamic : ∀ image s, (readImage calls m).outcome = .ok image →
    (readSegments m image image.e_phnum).outcome = .ok s →
    ¬(s.dynamic = 0 ∨ s.dynamic_count = 0 ∨ s.relro.begin = 0) → ∀ i < s.dynamic_count,
    ∀ t, (readDynamic m image s i).outcome = .ok (false, t) → image.Loaded m (s.dynamicEntry i)

theorem examined_install :
    (installOceanWaveformScalarStrncpyCompatibility calls m).examined =
      (findTarget calls m).examined := by
  unfold installOceanWaveformScalarStrncpyCompatibility
  cases h : (findTarget calls m).outcome <;> simp only [h]

/-- The entries that are examined are loaded exactly when those of the two unchecked tables are. -/
theorem forall_examined_iff :
    (∀ a ∈ (findTarget calls m).examined,
        ∃ image, (readImage calls m).outcome = .ok image ∧ image.Loaded m a) ↔
      (∀ image, (readImage calls m).outcome = .ok image → ∀ i < image.e_phnum,
        ∀ s, (readSegments m image i).outcome = .ok s → image.Loaded m (image.header i)) ∧
      ∀ image s, (readImage calls m).outcome = .ok image →
        (readSegments m image image.e_phnum).outcome = .ok s →
        ¬(s.dynamic = 0 ∨ s.dynamic_count = 0 ∨ s.relro.begin = 0) → ∀ i < s.dynamic_count,
        ∀ t, (readDynamic m image s i).outcome = .ok (false, t) →
          image.Loaded m (s.dynamicEntry i) := by
  have hsame : ∀ {image image' : Image}, (readImage calls m).outcome = .ok image →
      (readImage calls m).outcome = .ok image' → image' = image := by
    intro image image' h h'
    rw [h] at h'
    exact (Outcome.ok.inj h').symm
  constructor
  · intro h
    constructor
    · intro image himage
      refine loaded_readSegments.mp fun a ha => ?_
      obtain ⟨image', himage', hloaded⟩ :=
        h a (mem_examined_findTarget.mpr ⟨image, himage, Or.inl ha⟩)
      rwa [hsame himage himage'] at hloaded
    · intro image s himage hs hvalid
      refine loaded_readDynamic.mp fun a ha => ?_
      obtain ⟨image', himage', hloaded⟩ :=
        h a (mem_examined_findTarget.mpr ⟨image, himage, Or.inr ⟨s, hs, hvalid, Or.inl ha⟩⟩)
      rwa [hsame himage himage'] at hloaded
  · rintro ⟨hheaders, hdynamic⟩ a ha
    obtain ⟨image, himage, ha⟩ := mem_examined_findTarget.mp ha
    refine ⟨image, himage, ?_⟩
    rcases ha with ha | ⟨s, hs, hvalid, ha | ⟨e, t, ht, htables, ha⟩⟩
    · exact loaded_readSegments.mpr (hheaders image himage) a ha
    · exact loaded_readDynamic.mpr (hdynamic image s himage hs hvalid) a ha
    · have hsound := sound_readSegments (readImage_eq_ok himage).2 hs
      exact loaded_readRelocations hsound htables ha

/-- A slot that is reached is the target. -/
theorem isTarget_of_findTarget (h : (findTarget calls m).outcome = .ok slot) :
    IsTarget calls m slot ∧ slot + 8 ≤ 2 ^ 64 := by
  obtain ⟨image, s, e, t, himage, hs, ht, -, hfound, hne, hrelro, hprevious⟩ := findTarget_eq_ok h
  obtain ⟨hbase, hmax⟩ := readImage_eq_ok himage
  have hsound := sound_readSegments hmax hs
  have honly : t.OnlyTarget m image t.relocation_count slot := by
    rcases onlyTarget_readRelocations hbase hfound with ⟨hzero, -⟩ | ⟨-, honly⟩
    · exact absurd hzero hne
    · exact honly
  refine ⟨⟨⟨image, s, e, t, himage, hs, ht, honly, hrelro⟩, hprevious⟩, ?_⟩
  have hfinish := hsound.relro
  obtain ⟨hfirst, hmiddle, hlast⟩ := hrelro
  unfold maxAddress at hfinish
  omega

/-- Before the write nothing is reported as applied. -/
theorem findTarget_ne_applied : (findTarget calls m).outcome ≠ .returned .kApplied := by
  have himage : (readImage calls m).outcome ≠ .returned .kApplied := by
    simp [readImage, readHeader]
  have hsegments : ∀ image n, (readSegments m image n).outcome ≠ .returned .kApplied := by
    intro image n h
    obtain ⟨i, s, h⟩ := returned_loop h
    simp [readProgramHeader] at h
  have hdynamic : ∀ image s n, (readDynamic m image s n).outcome ≠ .returned .kApplied := by
    intro image s n h
    obtain ⟨i, ⟨e, t⟩, h⟩ := returned_loop h
    simp [readDynamicEntry] at h
  have hrelocations :
      ∀ image s t n, (readRelocations m image s t n).outcome ≠ .returned .kApplied := by
    intro image s t n h
    obtain ⟨i, slot, h⟩ := returned_loop h
    simp [readRelocation] at h
  simp [findTarget, himage, hsegments, hdynamic, hrelocations]

theorem AllOrNothing.premise (h : AllOrNothing calls m) : PatchPremise calls m := by
  have hexamined := h.examined
  rw [examined_install] at hexamined
  obtain ⟨hheaders, hdynamic⟩ := forall_examined_iff.mp hexamined
  refine ⟨fun slot hslot => ?_, hheaders, hdynamic⟩
  obtain ⟨htarget, hfits⟩ := isTarget_of_findTarget hslot
  have hrefused := h.refused
  simp only [installOceanWaveformScalarStrncpyCompatibility, hslot] at hrefused
  cases hprotect : calls.reprotected with
  | true => exact Or.inl rfl
  | false =>
    -- the slot reads as the replacement, so an unchanged memory held it before
    have hmemory := hrefused (by simp [hprotect])
    have hread := read_write (m := m) hfits calls.replacement.toNat_lt
    rw [hmemory, htarget.previous, Option.some_inj] at hread
    exact Or.inr (UInt64.toNat_inj.mp hread.symm)

theorem PatchPremise.allOrNothing (h : PatchPremise calls m) : AllOrNothing calls m := by
  have hexamined := forall_examined_iff.mpr ⟨h.headers, h.dynamic⟩
  rw [← examined_install] at hexamined
  cases hwalk : (findTarget calls m).outcome with
  | ok slot =>
    obtain ⟨htarget, hfits⟩ := isTarget_of_findTarget hwalk
    refine ⟨fun hrefused => ?_, fun _ => ?_, hexamined⟩
    · simp only [installOceanWaveformScalarStrncpyCompatibility, hwalk] at hrefused ⊢
      rcases h.reprotected slot hwalk with hprotect | hsame
      · exact absurd (by simp [hprotect]) hrefused
      · rw [hsame]
        exact write_of_read hfits htarget.previous
    · simp only [installOceanWaveformScalarStrncpyCompatibility, hwalk]
      exact ⟨slot, htarget, rfl, read_write hfits calls.replacement.toNat_lt⟩
  | returned result =>
    refine ⟨fun _ => ?_, fun happlied => ?_, hexamined⟩
    · simp only [installOceanWaveformScalarStrncpyCompatibility, hwalk]
    · simp only [installOceanWaveformScalarStrncpyCompatibility, hwalk] at happlied
      rw [Outcome.returned.inj happlied] at hwalk
      exact absurd hwalk findTarget_ne_applied
  | fault =>
    refine ⟨fun _ => ?_, fun happlied => ?_, hexamined⟩
    · simp only [installOceanWaveformScalarStrncpyCompatibility, hwalk]
    · simp only [installOceanWaveformScalarStrncpyCompatibility, hwalk] at happlied
      exact absurd happlied nofun

/-- The patch is all or nothing exactly when the second `mprotect` succeeds and the two tables that
are not checked are loaded. -/
theorem allOrNothing_iff (calls : Calls) (m : Memory) :
    AllOrNothing calls m ↔ PatchPremise calls m :=
  ⟨AllOrNothing.premise, PatchPremise.allOrNothing⟩

/-! ### A failure that leaves the slot changed -/

/-- The words of an image of one segment that are not zero.  Its only relocation is that of
`strncpy`, and the slot of it, the last word, holds `0x5000`. -/
def sampleWords : List (Nat × Nat) :=
  [(0, 0x00010102464c457f), (16, 0x0000000000b70003), (32, 64), (48, 0x0038000000000000), (56, 3),
   (64, PT_LOAD), (104, 424),
   (120, PT_DYNAMIC), (136, 232), (160, 128),
   (176, PT_GNU_RELRO), (192, 416), (216, 8),
   (232, DT_STRTAB), (240, 360), (248, DT_STRSZ), (256, 8), (264, DT_SYMTAB), (272, 368),
   (280, DT_JMPREL), (288, 392), (296, DT_PLTRELSZ), (304, 24), (312, DT_RELAENT), (320, 24),
   (328, DT_PLTREL), (336, DT_RELA),
   (360, 0x007970636e727473), (392, 416), (400, R_AARCH64_JUMP_SLOT), (416, 0x5000)]

/-- The image, loaded at `0x1000`. -/
def sampleMemory : Memory := fun address =>
  if 0x1000 ≤ address ∧ address < 0x1000 + 424 then
    let word := (sampleWords.lookup (address / 8 * 8 - 0x1000)).getD 0
    some (.ofNat (word / 256 ^ (address % 8)))
  else none

/-- The second `mprotect` fails. -/
def sampleCalls : Calls where
  engine_handle := 1
  initializer := 0x1100
  dli_fbase := some 0x1000
  expected := 0x5000
  page_size := 4096
  unprotected := true
  reprotected := false
  replacement := 0x6000

theorem not_forall_allOrNothing : ¬∀ calls m, AllOrNothing calls m := by
  intro h
  have hwalk : (findTarget sampleCalls sampleMemory).outcome = .ok 0x11a0 := by decide +kernel
  have hrefused := (h sampleCalls sampleMemory).refused
  simp only [installOceanWaveformScalarStrncpyCompatibility, hwalk] at hrefused
  have hmemory := congrFun (hrefused (by decide)) 0x11a1
  exact absurd hmemory (by decide +kernel)

end EinkLab.Ocean
