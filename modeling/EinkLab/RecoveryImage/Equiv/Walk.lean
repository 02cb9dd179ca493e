import EinkLab.RecoveryImage.Walk
import EinkLab.RecoveryImage.Equiv.Ramdisk

/-!
# How far the walk goes

An iteration that reads no negative size moves the position forward, and what it slices are parts of
the archive (`exact_of_size`).  Where every iteration does, the walk ends (`walkEnds_iff`).  The
reader of plain digits is such an iteration (`readIteration_of_readEntry`).
-/

namespace EinkLab.RecoveryImage

open EinkLab.Text EinkLab.Binary

variable {archive bs : Bytes} {position size : Int} {it : Iteration} {w w' : Walk}

/-! ### Slices -/

/-- The bytes are a part of the archive of exactly the given size. -/
structure IsPart (archive : Bytes) (offset size : Int) (bs : Bytes) : Prop where
  offset_nonneg : 0 ≤ offset
  fits : offset + size ≤ archive.length
  length : (bs.length : Int) = size
  eq_slice : bs = slice archive offset.toNat size.toNat

theorem sliceBound_of_le {length : Nat} {i : Int} (h : 0 ≤ i) (hi : i ≤ length) :
    sliceBound length i = i.toNat := by
  rw [sliceBound, if_neg (by omega)]
  omega

theorem pySlice_of_fits (hoffset : 0 ≤ position) (hsize : 0 ≤ size)
    (hfits : position + size ≤ bs.length) :
    pySlice bs position (position + size) = slice bs position.toNat size.toNat := by
  rw [pySlice, sliceBound_of_le hoffset (by omega), sliceBound_of_le (by omega) hfits, slice,
    List.drop_take]
  congr 1
  omega

theorem isPart_pySlice (hoffset : 0 ≤ position) (hsize : 0 ≤ size)
    (hfits : position + size ≤ archive.length) :
    IsPart archive position size (pySlice archive position (position + size)) := by
  refine ⟨hoffset, hfits, ?_, pySlice_of_fits hoffset hsize hfits⟩
  rw [pySlice_of_fits hoffset hsize hfits, length_slice (by omega)]
  omega

theorem le_pyAlign4 (n : Int) : n ≤ pyAlign4 n := by
  unfold pyAlign4
  omega

/-! ### One iteration -/

/-- The position moves forward, and every slice is what the header says. -/
structure Iteration.Exact (it : Iteration) (archive : Bytes) (start : Int) : Prop where
  progress : start < it.position
  header : IsPart archive start 110 it.header
  name : IsPart archive (start + 110) it.namesize it.name_bytes
  data : IsPart archive it.data_offset it.size it.data

/-- What an iteration has checked. -/
theorem readIteration_eq_some (h : readIteration archive position = some it) :
    announcedSize archive position = some it.size ∧ it.header = headerAt archive position ∧
      1 ≤ it.namesize ∧ (it.name_bytes.length : Int) = it.namesize ∧
      it.name_bytes = pySlice archive (position + 110) (position + 110 + it.namesize) ∧
      it.data_offset = pyAlign4 (position + 110 + it.namesize) ∧
      it.data_offset + it.size ≤ archive.length ∧
      it.data = pySlice archive it.data_offset (it.data_offset + it.size) ∧
      it.position = pyAlign4 (it.data_offset + it.size) := by
  simp only [readIteration, Option.bind_eq_bind, Option.bind_eq_some_iff, guard_eq_some, pure,
    Option.some_inj] at h
  obtain ⟨-, -, namesize, -, size, hsize, -, hnamesize, -, hname, -, -, -, hfits, rfl⟩ := h
  exact ⟨hsize, rfl, hnamesize.1, hname.1, rfl, rfl, hfits, rfl, rfl⟩

theorem exact_of_size (h : readIteration archive position = some it) (hposition : 0 ≤ position)
    (hheader : position + 110 ≤ archive.length) (hsize : 0 ≤ it.size) :
    it.Exact archive position := by
  obtain ⟨-, hhead, hnamesize, hlength, hname, hoffset, hfits, hdata, hnext⟩ :=
    readIteration_eq_some h
  have haligned := le_pyAlign4 (position + 110 + it.namesize)
  have hend := le_pyAlign4 (it.data_offset + it.size)
  rw [← hoffset] at haligned
  rw [← hnext] at hend
  refine ⟨by omega, ?_, ?_, ?_⟩
  · rw [hhead]
    exact isPart_pySlice hposition (by omega) hheader
  · rw [hname]
    exact isPart_pySlice (by omega) (by omega) (by omega)
  · rw [hdata]
    exact isPart_pySlice (by omega) hsize hfits

theorem readIteration_of_iterate (h : iterate archive w = some (it, w')) :
    readIteration archive w.position = some it ∧ w'.position = it.position := by
  simp only [iterate, Option.bind_eq_bind, Option.bind_eq_some_iff, pure] at h
  obtain ⟨read, hread, edited, -, h⟩ := h
  obtain ⟨rfl, rfl⟩ := Prod.mk.inj (Option.some.inj h)
  exact ⟨hread, rfl⟩

/-! ### Runs -/

theorem walkAfter_succ {n : Nat} (h : walkAfter archive (n + 1) = some w') :
    ∃ w it, walkAfter archive n = some w ∧ w.HasHeader archive ∧
      iterate archive w = some (it, w') := by
  obtain ⟨w, hw, hstep⟩ := Option.bind_eq_some_iff.mp h
  split at hstep
  · next hheader =>
    obtain ⟨⟨it, next⟩, hit, hleft⟩ := Option.bind_eq_some_iff.mp hstep
    dsimp only at hleft
    split at hleft
    · exact absurd hleft (by simp)
    · obtain rfl := Option.some.inj hleft
      exact ⟨w, it, hw, hheader, hit⟩
  · exact absurd hstep (by simp)

/-- Every iteration that does not raise moves forward and slices parts of the archive, and there is
a last iteration. -/
structure WalkEnds (archive : Bytes) : Prop where
  exact : ∀ n w it w', walkAfter archive n = some w → w.HasHeader archive →
    iterate archive w = some (it, w') → it.Exact archive w.position
  ends : ∃ n, walkAfter archive n = none

/-- No iteration that is reached and does not raise reads a negative size. -/
def NoNegativeSize (archive : Bytes) : Prop :=
  ∀ n w, walkAfter archive n = some w → w.HasHeader archive → (iterate archive w).isSome →
    ∀ size ∈ announcedSize archive w.position, 0 ≤ size

/-- An iteration of such a walk, from a position inside the archive. -/
theorem NoNegativeSize.exact {n : Nat} (h : NoNegativeSize archive)
    (hw : walkAfter archive n = some w) (hposition : 0 ≤ w.position)
    (hheader : w.HasHeader archive) (hit : iterate archive w = some (it, w')) :
    it.Exact archive w.position := by
  have hread := (readIteration_of_iterate hit).1
  have hsize := h n w hw hheader (by rw [hit]; rfl) it.size (readIteration_eq_some hread).1
  exact exact_of_size hread hposition hheader hsize

/-- Each iteration moves the position by one at least. -/
theorem NoNegativeSize.le_position {n : Nat} (h : NoNegativeSize archive)
    (hw : walkAfter archive n = some w) : (n : Int) ≤ w.position := by
  induction n generalizing w with
  | zero =>
    obtain rfl := Option.some.inj hw
    exact le_refl _
  | succ n ih =>
    obtain ⟨w₀, it, hw₀, hheader, hit⟩ := walkAfter_succ hw
    have hbefore := ih hw₀
    have hexact := h.exact hw₀ (by omega) hheader hit
    have hprogress := hexact.progress
    rw [(readIteration_of_iterate hit).2]
    push_cast
    omega

/-- The walk ends as it should exactly when no iteration reads a negative size. -/
theorem walkEnds_iff (archive : Bytes) : WalkEnds archive ↔ NoNegativeSize archive := by
  constructor
  · intro h n w hw hheader hsome size hsize
    obtain ⟨⟨it, w'⟩, hit⟩ := Option.isSome_iff_exists.mp hsome
    have hread := readIteration_eq_some (readIteration_of_iterate hit).1
    have hlength := (h.exact n w it w' hw hheader hit).data.length
    rw [hread.1, Option.mem_some_iff] at hsize
    omega
  · intro h
    refine ⟨fun n w it w' hw hheader hit => ?_, archive.length + 1, ?_⟩
    · have hposition := h.le_position hw
      exact h.exact hw (by omega) hheader hit
    · refine Option.eq_none_iff_forall_ne_some.mpr fun w' hw' => ?_
      obtain ⟨w, it, hw, hheader, -⟩ := walkAfter_succ hw'
      have hposition := h.le_position hw
      unfold Walk.HasHeader at hheader
      omega

/-- An archive whose first header announces the size `-0000070`, which leads back to it. -/
def loopingArchive : Bytes :=
  MAGIC ++ List.replicate 48 0x30 ++ [0x2d, 0x30, 0x30, 0x30, 0x30, 0x30, 0x37, 0x30] ++
    List.replicate 39 0x30 ++ [0x31] ++ List.replicate 8 0x30 ++ [0, 0]

theorem editData_nil (data : Bytes) (changed : List Bytes) :
    editData [] data changed = some (data, changed) := by
  obtain ⟨hfirst, hsecond, hinit, -, -⟩ := length_names
  have hne : ∀ {name : Bytes}, 0 < name.length → [] ≠ name := by
    rintro name hpos rfl
    exact absurd hpos (lt_irrefl 0)
  have hfiles : ([] : Bytes) ∉ CABLE_FILES := by
    simp [CABLE_FILES, hne (by omega : 0 < (ascii "init.recovery.mt6771.rc").length),
      hne (by omega : 0 < (ascii "init.recovery.mt8788.rc").length)]
  rw [editData, if_neg hfiles, if_neg (hne (by omega))]

/-- An entry without a name is not edited. -/
theorem iterate_of_name_eq_nil (hread : readIteration archive w.position = some it)
    (hname : it.name = []) : ∃ w', iterate archive w = some (it, w') := by
  rw [iterate, hread]
  simp only [Option.bind_eq_bind, Option.bind_some, hname, editData_nil, pure, Option.some_inj,
    Prod.mk.injEq, true_and]
  exact ⟨_, rfl⟩

theorem not_forall_walkEnds :
    ¬∀ archive : Bytes, archive.length ≤ MAX_ARCHIVE → WalkEnds archive := by
  intro h
  have hread : readIteration loopingArchive 0 =
      some ⟨loopingArchive.take 110, 1, -112, [0], 112, [], 0⟩ := by
    decide +kernel
  obtain ⟨w', hit⟩ := iterate_of_name_eq_nil (w := {}) hread rfl
  have hends := h loopingArchive (by decide +kernel)
  have hexact := hends.exact 0 {} _ w' rfl (by decide +kernel) hit
  exact absurd hexact.progress (lt_irrefl _)

/-! ### Plain digits -/

theorem headerAt_of_hasHeader {position : Nat} (h : hasHeader archive position) :
    headerAt archive position = slice archive position 110 := by
  unfold hasHeader at h
  have hslice : pySlice archive position ((position : Int) + 110) =
      slice archive (position : Int).toNat (110 : Int).toNat :=
    pySlice_of_fits (by omega) (by omega) (by omega)
  rw [headerAt, hslice]
  rfl

theorem pyAlign4_natCast (n : Nat) : pyAlign4 n = align4 n := by
  unfold pyAlign4 align4
  omega

theorem slice_ne_nil {offset : Nat} (h : offset + 8 ≤ bs.length) : slice bs offset 8 ≠ [] := by
  intro hnil
  have hlength := length_slice h
  rw [hnil] at hlength
  exact absurd hlength (by decide)

/-- An entry with plain digits is what the iteration reads. -/
theorem readIteration_of_readEntry {position next : Nat} {e : Entry}
    (hheader : hasHeader archive position) (h : readEntry archive position = some (e, next)) :
    ∃ it, readIteration archive position = some it ∧ it.header = e.header ∧
      it.name_bytes = e.name_bytes ∧ it.data = e.data ∧ it.position = next ∧ 0 ≤ it.size := by
  simp only [readEntry, Option.bind_eq_bind, Option.bind_eq_some_iff, guard_eq_some, pure,
    Option.some_inj] at h
  obtain ⟨-, hmagic, namesize, hnamesize, size, hsize, -, hrange, -, ⟨hlength, hlast⟩, -, hdecodes,
    -, hfits, h⟩ := h
  obtain ⟨rfl, rfl⟩ := Prod.mk.inj h
  have hhead := headerAt_of_hasHeader hheader
  have hheadLength : (slice archive position 110).length = 110 := length_slice hheader
  have hreadName := int16_of_hexNat (slice_ne_nil (by omega)) hnamesize
  have hreadSize : announcedSize archive position = some (size : Int) := by
    rw [announcedSize, hhead]
    exact int16_of_hexNat (slice_ne_nil (by omega)) hsize
  have hoffset : pyAlign4 ((position : Int) + 110 + namesize) =
      (align4 (position + 110 + namesize) : Nat) := by
    rw [← pyAlign4_natCast]
    push_cast
    rfl
  have haligned := le_align4 (position + 110 + namesize)
  have hname : pySlice archive ((position : Int) + 110) ((position : Int) + 110 + namesize) =
      slice archive (position + 110) namesize := by
    rw [pySlice_of_fits (by omega) (by omega) (by omega)]
    rfl
  have hdata : pySlice archive (align4 (position + 110 + namesize) : Nat)
      ((align4 (position + 110 + namesize) : Nat) + (size : Int)) =
      slice archive (align4 (position + 110 + namesize)) size := by
    rw [pySlice_of_fits (by omega) (by omega) (by omega)]
    rfl
  have hnext : pyAlign4 ((align4 (position + 110 + namesize) : Nat) + (size : Int)) =
      (align4 (align4 (position + 110 + namesize) + size) : Nat) := by
    rw [← pyAlign4_natCast]
    push_cast
    rfl
  refine ⟨⟨slice archive position 110, namesize, size, slice archive (position + 110) namesize,
    (align4 (position + 110 + namesize) : Nat),
    slice archive (align4 (position + 110 + namesize)) size,
    (align4 (align4 (position + 110 + namesize) + size) : Nat)⟩, ?_, rfl, rfl, rfl, rfl, by simp⟩
  simp only [readIteration, Option.bind_eq_bind, Option.bind_eq_some_iff, guard_eq_some, pure,
    Option.some_inj, hhead]
  refine ⟨(), hmagic, namesize, hreadName, size, hreadSize, (), by omega, ?_⟩
  simp only [hname, hoffset, hdata, hnext]
  exact ⟨(), ⟨by omega, hlast⟩, (), hdecodes, (), by omega, trivial⟩

end EinkLab.RecoveryImage
