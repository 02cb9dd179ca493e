import EinkLab.RecoveryImage.Ramdisk
import Mathlib.Data.List.Forall2
import Mathlib.Data.List.TakeWhile
import Mathlib.Tactic.SplitIfs

/-!
# What the rewrite keeps

The entries of the rebuilt archive are those of the source to its first trailer, one for one
(`Rewritten`).  Nothing else is read, so no entry is dropped exactly if only zeros follow that
trailer (`rewrite_keeps_iff`).
-/

namespace EinkLab.RecoveryImage

open EinkLab.Text EinkLab.Binary

/-! ### Padding -/

/-- The padding after `n` bytes. -/
def padding (n : Nat) : Bytes := List.replicate ((4 - n % 4) % 4) 0

theorem length_padding (n : Nat) : n + (padding n).length = align4 n := by
  rw [padding, List.length_replicate, align4]
  omega

/-- An entry with the padding after its name and its data. -/
def chunk (e : Entry) : Bytes :=
  e.header ++ (e.name_bytes ++ (padding (e.header.length + e.name_bytes.length) ++
    (e.data ++ padding e.data.length)))

/-- Behind a whole number of words, an entry is appended with its own padding. -/
theorem appendEntry_eq {rebuilt : Bytes} (e : Entry) (hrebuilt : rebuilt.length % 4 = 0) :
    appendEntry rebuilt e = rebuilt ++ chunk e := by
  have hname : (rebuilt ++ (e.header ++ e.name_bytes)).length % 4 =
      (e.header.length + e.name_bytes.length) % 4 := by
    rw [List.length_append, List.length_append]
    omega
  have hpadded : extendTo 4 (rebuilt ++ (e.header ++ e.name_bytes)) = rebuilt ++
      (e.header ++ (e.name_bytes ++ padding (e.header.length + e.name_bytes.length))) := by
    rw [extendTo, hname, padding, List.append_assoc, List.append_assoc]
  have hdata : (extendTo 4 (rebuilt ++ (e.header ++ e.name_bytes)) ++ e.data).length % 4 =
      e.data.length % 4 := by
    have := length_padding (e.header.length + e.name_bytes.length)
    rw [hpadded]
    simp only [List.length_append]
    unfold align4 at this
    omega
  rw [appendEntry, extendTo, hdata, hpadded, chunk]
  simp only [padding, List.append_assoc]

theorem length_chunk (e : Entry) :
    (chunk e).length = align4 (e.header.length + e.name_bytes.length) + align4 e.data.length := by
  have hname := length_padding (e.header.length + e.name_bytes.length)
  have hdata := length_padding e.data.length
  rw [chunk]
  simp only [List.length_append]
  omega

theorem length_chunk_mod (e : Entry) : (chunk e).length % 4 = 0 := by
  rw [length_chunk]
  unfold align4
  omega

/-! ### Reading an entry back -/

/-- An entry that can be read: its header declares the sizes. -/
structure Entry.Plain (e : Entry) : Prop where
  header : e.header.length = 110
  magic : e.header.take 6 = MAGIC
  namesize : hexNat (slice e.header 94 8) = some e.name_bytes.length
  size : hexNat (slice e.header 54 8) = some e.data.length
  nonempty : 1 ≤ e.name_bytes.length
  bounded : e.name_bytes.length ≤ 4096
  ended : e.name_bytes.getLast? = some 0
  decodes : decodes none e.name = true

theorem guard_eq_some {c : Prop} [Decidable c] {u : Unit} :
    (guard c : Option Unit) = some u ↔ c := by
  unfold guard
  split_ifs with hc
  · exact iff_of_true rfl hc
  · exact iff_of_false nofun hc

/-- A read entry is plain. -/
theorem plain_of_readEntry {archive : Bytes} {position next : Nat} {e : Entry}
    (hheader : hasHeader archive position) (h : readEntry archive position = some (e, next)) :
    e.Plain ∧ e.data.length ≤ archive.length := by
  simp only [readEntry, Option.bind_eq_bind, Option.bind_eq_some_iff, guard_eq_some, pure,
    Option.some_inj] at h
  obtain ⟨-, hmagic, namesize, hnamesize, size, hsize, -, hbounds, -, ⟨hlen, hlast⟩, -, hdecodes,
    -, hfits, h⟩ := h
  unfold hasHeader at hheader
  have hentry := congrArg Prod.fst h
  dsimp only at hentry
  have hdata : (slice archive (align4 (position + 110 + namesize)) size).length = size := by
    rw [slice, List.length_take, List.length_drop]
    omega
  have hhead : (slice archive position 110).length = 110 := by
    rw [slice, List.length_take, List.length_drop]
    omega
  rw [← hentry]
  refine ⟨⟨hhead, hmagic, ?_, ?_, ?_, ?_, hlast, hdecodes⟩, ?_⟩
  · exact hnamesize.trans (congrArg some hlen.symm)
  · exact hsize.trans (congrArg some hdata.symm)
  · exact hbounds.1.trans_eq hlen.symm
  · exact hlen.trans_le hbounds.2
  · rw [hdata]
    omega

/-- A plain entry behind a whole number of words is read back. -/
theorem readEntry_chunk {pre : Bytes} {e : Entry} (he : e.Plain)
    (hpre : pre.length % 4 = 0) (rest : Bytes) :
    hasHeader (pre ++ (chunk e ++ rest)) pre.length ∧
      readEntry (pre ++ (chunk e ++ rest)) pre.length =
        some (e, pre.length + (chunk e).length) := by
  have hlen := length_chunk e
  have hpad := length_padding (e.header.length + e.name_bytes.length)
  have hhead := he.header
  -- each part of the chunk lies where the lengths before it say
  have hheader : slice (pre ++ (chunk e ++ rest)) pre.length 110 = e.header := by
    have := slice_append_right pre (chunk e ++ rest) 0 110
    rw [Nat.add_zero] at this
    rw [this, chunk, List.append_assoc, slice_left hhead]
  have hname : slice (pre ++ (chunk e ++ rest)) (pre.length + 110) e.name_bytes.length =
      e.name_bytes := by
    rw [slice_append_right, chunk, List.append_assoc, List.append_assoc, slice_mid hhead rfl]
  have hoffset : align4 (pre.length + 110 + e.name_bytes.length) =
      pre.length + align4 (e.header.length + e.name_bytes.length) := by
    unfold align4
    omega
  have hdata : slice (pre ++ (chunk e ++ rest))
      (pre.length + align4 (e.header.length + e.name_bytes.length)) e.data.length = e.data := by
    have hsplit : chunk e ++ rest =
        (e.header ++ (e.name_bytes ++ padding (e.header.length + e.name_bytes.length))) ++
          (e.data ++ (padding e.data.length ++ rest)) := by
      rw [chunk]
      simp only [List.append_assoc]
    rw [slice_append_right, hsplit]
    apply slice_mid _ rfl
    rw [List.length_append, List.length_append, ← hpad, Nat.add_assoc]
  have hend : align4 (pre.length + align4 (e.header.length + e.name_bytes.length) +
      e.data.length) = pre.length + (chunk e).length := by
    rw [hlen]
    unfold align4
    omega
  have htotal : (pre ++ (chunk e ++ rest)).length =
      pre.length + ((chunk e).length + rest.length) := by
    rw [List.length_append, List.length_append]
  have hfits : pre.length + align4 (e.header.length + e.name_bytes.length) + e.data.length ≤
      (pre ++ (chunk e ++ rest)).length := by
    have := le_align4 e.data.length
    omega
  constructor
  · have := le_align4 (e.header.length + e.name_bytes.length)
    unfold hasHeader
    omega
  · have hdecodes : decodes none e.name_bytes.dropLast = true := he.decodes
    simp only [readEntry, hheader, he.magic, he.namesize, he.size, guard, Option.bind_eq_bind,
      Option.bind_some, hname, he.ended, hdecodes, hoffset, hdata, hend, if_pos hfits,
      if_pos (And.intro he.nonempty he.bounded), and_self, if_true, pure]

/-! ### The edits -/

/-- Before the digit of the cable mode. -/
def CMODE : Bytes := ascii "write /sys/class/udc/musb-hdrc/device/cmode "

/-- The new contents: one digit in a cable-mode file, one line and the boot block in `init.rc`. -/
def Edited (name data data' : Bytes) : Prop :=
  if name ∈ CABLE_FILES then
    ∃ pre post, data = pre ++ (CMODE ++ 0x32 :: post) ∧ data' = pre ++ (CMODE ++ 0x31 :: post)
  else if name = INIT_RC then
    ∃ pre post, data = pre ++ (SERVICE ++ post) ∧
      data' = pre ++ (SERVICE ++ (DISABLED ++ post)) ++ BOOT_BLOCK
  else data' = data

/-- The bytes of a text whose characters are given. -/
theorem ascii_ofList (l : List Char) :
    ascii (String.ofList l) = l.map fun c => UInt8.ofNat c.toNat :=
  congrArg (List.map _) String.toList_ofList

theorem cmode_two : CMODE_2 = CMODE ++ [0x32] := by
  rw [CMODE_2, CMODE, ascii_ofList, ascii_ofList]
  rfl

theorem cmode_one : CMODE_1 = CMODE ++ [0x31] := by
  rw [CMODE_1, CMODE, ascii_ofList, ascii_ofList]
  rfl

theorem length_texts : SERVICE.length = 38 ∧ DISABLED.length = 13 ∧ BOOT_BLOCK.length = 136 := by
  rw [SERVICE, DISABLED, BOOT_BLOCK, ascii_ofList, ascii_ofList, ascii_ofList, ascii_ofList,
    ascii_ofList]
  exact ⟨rfl, rfl, rfl⟩

/-- The edits add at most a line and a block. -/
theorem Edited.length_le {name data data' : Bytes} (h : Edited name data data') :
    data'.length ≤ data.length + 200 := by
  obtain ⟨-, hdisabled, hblock⟩ := length_texts
  unfold Edited at h
  split_ifs at h
  · obtain ⟨pre, post, rfl, rfl⟩ := h
    simp only [List.length_append, List.length_cons]
    omega
  · obtain ⟨pre, post, rfl, rfl⟩ := h
    simp only [List.length_append]
    omega
  · rw [h]
    exact Nat.le_add_right _ _

theorem edited_of_editData {name data data' : Bytes} {changed changed' : List Bytes}
    (h : editData name data changed = some (data', changed')) : Edited name data data' := by
  unfold editData at h
  unfold Edited
  split_ifs at h ⊢ with hcable honce hinit honce
  · have hne : CMODE_2 ≠ [] := by
      rw [cmode_two]
      exact List.concat_ne_nil _ _
    obtain ⟨pre, post, hdata, hreplace⟩ := replaceAll_of_once hne honce.1 CMODE_1
    obtain ⟨hnew, -⟩ := Prod.mk.inj (Option.some.inj h)
    rw [hreplace, cmode_one, List.append_assoc] at hnew
    rw [cmode_two, List.append_assoc] at hdata
    exact ⟨pre, post, hdata, hnew.symm⟩
  · obtain ⟨hservice, -, -⟩ := length_texts
    have hne : SERVICE ≠ [] := List.length_pos_iff.mp (by omega)
    obtain ⟨pre, post, hdata, hreplace⟩ :=
      replaceAll_of_once hne honce.1 (SERVICE ++ DISABLED)
    obtain ⟨hnew, -⟩ := Prod.mk.inj (Option.some.inj h)
    rw [hreplace, List.append_assoc SERVICE] at hnew
    exact ⟨pre, post, hdata, hnew.symm⟩
  · exact (Prod.mk.inj (Option.some.inj h)).1.symm

/-- An entry and what the rewrite makes of it: the header differs in the file size only. -/
structure Rewritten (e e' : Entry) : Prop where
  name_bytes : e'.name_bytes = e.name_bytes
  before : e'.header.take 54 = e.header.take 54
  after : e'.header.drop 62 = e.header.drop 62
  data : Edited e.name e.data e'.data

theorem slice_withSize {header size : Bytes} (hheader : header.length = 110)
    (hsize : size.length = 8) :
    (header.take 54 ++ (size ++ header.drop 62)).length = 110 ∧
      (header.take 54 ++ (size ++ header.drop 62)).take 6 = header.take 6 ∧
      slice (header.take 54 ++ (size ++ header.drop 62)) 54 8 = size ∧
      slice (header.take 54 ++ (size ++ header.drop 62)) 94 8 = slice header 94 8 := by
  have htake : (header.take 54).length = 54 := by
    rw [List.length_take]
    omega
  have hfront : (header.take 54 ++ size).length = 62 := by
    rw [List.length_append]
    omega
  refine ⟨?_, ?_, slice_mid htake hsize, ?_⟩
  · rw [List.length_append, List.length_append, List.length_drop]
    omega
  · rw [List.take_append_of_le_length (by omega), List.take_take]
    rfl
  · have hsplit := slice_append_right (header.take 54 ++ size) (header.drop 62) 32 8
    rw [hfront, List.append_assoc] at hsplit
    rw [hsplit, slice, slice, List.drop_drop]

/-- An edited entry can be read, and is the old one but for its size and data. -/
theorem plain_rewritten {e : Entry} {data' : Bytes} (he : e.Plain)
    (hsize : data'.length < 16 ^ 8) (hedited : Edited e.name e.data data') :
    Entry.Plain ⟨withSize e.header data'.length, e.name_bytes, data'⟩ ∧
      Rewritten e ⟨withSize e.header data'.length, e.name_bytes, data'⟩ := by
  have htext := hexText_of_lt (by decide) hsize
  have hlen : (hexText 8 data'.length).length = 8 := by
    rw [htext, length_hexDigits]
  obtain ⟨hheader, hmagic, hfield, hname⟩ := slice_withSize he.header hlen
  have htake : (e.header.take 54).length = 54 := by
    rw [List.length_take, he.header]
    rfl
  have hfront : (e.header.take 54 ++ hexText 8 data'.length).length = 62 := by
    rw [List.length_append, htake, hlen]
  constructor
  · refine ⟨hheader, hmagic.trans he.magic, ?_, ?_, he.nonempty, he.bounded, he.ended, he.decodes⟩
    · exact (congrArg hexNat hname).trans he.namesize
    · exact (congrArg hexNat hfield).trans (hexNat_hexText 8 _)
  · refine ⟨rfl, List.take_left' htake, ?_, hedited⟩
    show (withSize e.header data'.length).drop 62 = _
    rw [withSize, ← List.append_assoc, List.drop_left' hfront]

/-! ### The walk -/

/-- The last entry, and no other, is a trailer. -/
def Closed : List Entry → Prop
  | [] => False
  | [e] => e.name = TRAILER
  | e :: es => e.name ≠ TRAILER ∧ Closed es

theorem Closed.cons {e : Entry} {es : List Entry} (hname : e.name ≠ TRAILER) (hes : Closed es) :
    Closed (e :: es) := by
  cases es with
  | nil => exact hes.elim
  | cons e' es => exact ⟨hname, hes⟩

theorem Rewritten.name {e e' : Entry} (h : Rewritten e e') : e'.name = e.name :=
  congrArg List.dropLast h.name_bytes

section Step

variable {archive : Bytes} {position next : Nat} {e : Entry}
  (hheader : hasHeader archive position) (hread : readEntry archive position = some (e, next))

include hheader hread

theorem entriesFrom_of_read : entriesFrom archive position =
    if e.name = TRAILER then some ([e], next)
    else (entriesFrom archive next).map fun r => (e :: r.1, r.2) := by
  rw [entriesFrom, if_pos hheader]
  split
  · next hnone =>
    rw [hread] at hnone
    cases hnone
  · next hsome =>
    rw [hread] at hsome
    cases hsome
    rfl

theorem rewriteFrom_of_read {rebuilt data : Bytes} {changed changed' : List Bytes}
    (hedit : editData e.name e.data changed = some (data, changed')) :
    rewriteFrom archive position rebuilt changed =
      if e.name = TRAILER then
        some (appendEntry rebuilt ⟨withSize e.header data.length, e.name_bytes, data⟩, changed')
      else rewriteFrom archive next
        (appendEntry rebuilt ⟨withSize e.header data.length, e.name_bytes, data⟩) changed' := by
  rw [rewriteFrom, if_pos hheader]
  split
  · next hnone =>
    rw [hread] at hnone
    cases hnone
  · next hsome =>
    rw [hread] at hsome
    cases hsome
    rw [hedit]

end Step

/-- What the loop appends: the entries it reads, each rewritten. -/
theorem rewriteFrom_entries {archive rebuilt rebuilt' : Bytes} {position : Nat}
    {changed changed' : List Bytes} (hmax : archive.length ≤ MAX_ARCHIVE)
    (hwords : rebuilt.length % 4 = 0)
    (h : rewriteFrom archive position rebuilt changed = some (rebuilt', changed')) :
    ∃ es es' next, entriesFrom archive position = some (es, next) ∧
      List.Forall₂ Rewritten es es' ∧ (∀ e ∈ es', e.Plain) ∧ Closed es' ∧
      rebuilt' = rebuilt ++ (es'.map chunk).flatten := by
  fun_induction rewriteFrom archive position rebuilt changed with
  | case1 => cases h
  | case2 => cases h
  | case3 position rebuilt changed hheader e next hread data changed₁ hedit rebuilt₁ htrailer =>
    obtain ⟨hplain, hsize⟩ := plain_of_readEntry hheader hread
    have hedited := edited_of_editData hedit
    have hgrown := hedited.length_le
    have hfits : data.length < 16 ^ 8 := by
      unfold MAX_ARCHIVE at hmax
      omega
    obtain ⟨hplain', hrewritten⟩ := plain_rewritten hplain hfits hedited
    refine ⟨[e], [_], next, ?_, .cons hrewritten .nil, ?_, hrewritten.name.trans htrailer, ?_⟩
    · rw [entriesFrom_of_read hheader hread, if_pos htrailer]
    · intro e' he'
      rwa [List.mem_singleton.mp he']
    · rw [← (Prod.mk.inj (Option.some.inj h)).1, List.map_singleton, List.flatten_singleton]
      exact appendEntry_eq _ hwords
  | case4 position rebuilt changed hheader e next hread data changed₁ hedit rebuilt₁ htrailer ih =>
    obtain ⟨hplain, hsize⟩ := plain_of_readEntry hheader hread
    have hedited := edited_of_editData hedit
    have hgrown := hedited.length_le
    have hfits : data.length < 16 ^ 8 := by
      unfold MAX_ARCHIVE at hmax
      omega
    obtain ⟨hplain', hrewritten⟩ := plain_rewritten hplain hfits hedited
    have happend : rebuilt₁ = rebuilt ++ chunk _ := appendEntry_eq _ hwords
    have hwords₁ : rebuilt₁.length % 4 = 0 := by
      have hchunk := length_chunk_mod ⟨withSize e.header data.length, e.name_bytes, data⟩
      rw [happend, List.length_append]
      omega
    obtain ⟨es, es', fin, hentries, hall, hplains, hclosed, hrebuilt⟩ := ih hwords₁ h
    refine ⟨e :: es, _ :: es', fin, ?_, .cons hrewritten hall, ?_, ?_, ?_⟩
    · rw [entriesFrom_of_read hheader hread, if_neg htrailer, hentries, Option.map_some]
    · intro e' he'
      rcases List.mem_cons.mp he' with rfl | he'
      · exact hplain'
      · exact hplains e' he'
    · exact hclosed.cons (hrewritten.name ▸ htrailer)
    · rw [hrebuilt, happend, List.map_cons, List.flatten_cons, List.append_assoc]
  | case5 => cases h

/-- Appended entries are read back. -/
theorem entriesFrom_chunks {es : List Entry} (hplain : ∀ e ∈ es, e.Plain) (hclosed : Closed es)
    (pre rest : Bytes) (hwords : pre.length % 4 = 0) :
    entriesFrom (pre ++ ((es.map chunk).flatten ++ rest)) pre.length =
      some (es, pre.length + (es.map chunk).flatten.length) := by
  induction es generalizing pre with
  | nil => exact hclosed.elim
  | cons e es ih =>
    have hsplit : pre ++ (((e :: es).map chunk).flatten ++ rest) =
        pre ++ (chunk e ++ ((es.map chunk).flatten ++ rest)) := by
      rw [List.map_cons, List.flatten_cons, List.append_assoc]
    obtain ⟨hheader, hread⟩ := readEntry_chunk (hplain e List.mem_cons_self) hwords
      ((es.map chunk).flatten ++ rest)
    rw [hsplit, entriesFrom_of_read hheader hread]
    cases es with
    | nil =>
      have hname : e.name = TRAILER := hclosed
      rw [if_pos hname, List.map_singleton, List.flatten_singleton]
    | cons e' es =>
      have hname : e.name ≠ TRAILER := hclosed.1
      have hchunk := length_chunk_mod e
      have hnext : (pre ++ chunk e).length = pre.length + (chunk e).length := List.length_append
      have htail := ih (fun x hx => hplain x (List.mem_cons_of_mem _ hx)) hclosed.2
        (pre ++ chunk e) (by omega)
      rw [List.append_assoc, hnext] at htail
      rw [if_neg hname, htail, Option.map_some, List.map_cons (a := e), List.flatten_cons,
        List.length_append, Nat.add_assoc]

/-! ### What follows the trailer -/

/-- Only zeros are left. -/
def OnlyZeros (bs : Bytes) : Prop := ∀ b ∈ bs, b = 0

theorem takeWhile_zeros {bs : Bytes} :
    bs.length ≤ (bs.takeWhile (· = 0)).length ↔ OnlyZeros bs := by
  constructor
  · intro hle b hb
    have hall : bs.takeWhile (· = 0) = bs :=
      (List.takeWhile_prefix _).eq_of_length
        (Nat.le_antisymm (List.takeWhile_prefix _).length_le hle)
    rw [← hall] at hb
    have hzero := List.mem_takeWhile_imp hb
    exact of_decide_eq_true hzero
  · intro hzeros
    rw [List.takeWhile_eq_self_iff.mpr fun b hb => decide_eq_true (hzeros b hb)]

/-- Without a further entry, only zeros are left. -/
theorem segmentsFrom_eq_nil (archive : Bytes) (position fuel : Nat) :
    segmentsFrom (fuel + 1) archive position = some [] ↔ OnlyZeros (archive.drop position) := by
  have hlen : (archive.drop position).length = archive.length - position := List.length_drop
  rw [← takeWhile_zeros, hlen, segmentsFrom]
  dsimp only
  split_ifs with hend
  · exact iff_of_true rfl (by omega)
  · refine iff_of_false ?_ (by omega)
    intro h
    obtain ⟨⟨es, next⟩, hentries, h⟩ := Option.bind_eq_some_iff.mp h
    obtain ⟨rest, -, h⟩ := Option.bind_eq_some_iff.mp h
    have hes : es = [] := (List.append_eq_nil_iff.mp (Option.some.inj h)).1
    -- a segment that can be read has an entry
    rw [hes, entriesFrom] at hentries
    split_ifs at hentries
    split at hentries
    · cases hentries
    · split_ifs at hentries
      · cases hentries
      · obtain ⟨r, -, hr⟩ := Option.map_eq_some_iff.mp hentries
        cases hr

/-- The entries of the first segment come first. -/
theorem allEntries_eq {archive : Bytes} {es : List Entry} {next : Nat}
    (h : entriesFrom archive 0 = some (es, next)) :
    ∃ n, allEntries archive = (segmentsFrom (n + 1) archive next).map (es ++ ·) := by
  -- the first byte is the first one of the magic number
  have hfirst : (archive.takeWhile (· = 0)).length = 0 ∧ ∃ n, archive.length = n + 1 := by
    rw [entriesFrom] at h
    split_ifs at h with hheader
    split at h
    · cases h
    · next e next' hread =>
      have hmagic := (plain_of_readEntry hheader hread).1.magic
      have hhead : e.header = slice archive 0 110 := by
        simp only [readEntry, Option.bind_eq_bind, Option.bind_eq_some_iff, pure,
          Option.some_inj] at hread
        obtain ⟨_, _, _, _, _, _, _, _, _, _, _, _, _, _, hentry⟩ := hread
        exact (congrArg (Entry.header ∘ Prod.fst) hentry).symm
      rw [hhead] at hmagic
      cases archive with
      | nil => cases hmagic
      | cons b archive =>
        have hb : b = 0x30 := (List.cons.inj hmagic).1
        rw [hb]
        exact ⟨rfl, archive.length, rfl⟩
  obtain ⟨hzeros, n, hn⟩ := hfirst
  refine ⟨n, ?_⟩
  rw [allEntries, segmentsFrom, List.drop_zero]
  simp only [hzeros]
  rw [if_neg (by omega), Nat.zero_add, h, hn]
  show (segmentsFrom (n + 1) archive next).bind _ = _
  cases segmentsFrom (n + 1) archive next <;> rfl

/-- The archive has no entry besides those of its first segment exactly if only zeros follow. -/
theorem allEntries_eq_iff {archive : Bytes} {es : List Entry} {next : Nat}
    (h : entriesFrom archive 0 = some (es, next)) :
    (∃ es₁, allEntries archive = some es₁ ∧ es₁.length = es.length) ↔
      OnlyZeros (archive.drop next) := by
  obtain ⟨n, hall⟩ := allEntries_eq h
  rw [hall, ← segmentsFrom_eq_nil archive next n]
  constructor
  · rintro ⟨es₁, hes₁, hlen⟩
    obtain ⟨rest, hrest, rfl⟩ := Option.map_eq_some_iff.mp hes₁
    rw [List.length_append] at hlen
    have hnil : rest = [] := List.eq_nil_of_length_eq_zero (by omega)
    rw [hrest, hnil]
  · intro hrest
    refine ⟨es, ?_, rfl⟩
    rw [hrest, Option.map_some, List.append_nil]

/-! ### The rewrite -/

/-- What the rewrite owes: the entries of the rebuilt archive are those of the source, one for
one, and no entry of the source is missing. -/
def Keeps (archive rebuilt : Bytes) : Prop :=
  ∃ es es' next, entriesFrom rebuilt 0 = some (es', next) ∧ List.Forall₂ Rewritten es es' ∧
    allEntries archive = some es

/-- Where the first trailer of the archive ends. -/
def segmentEnd (archive : Bytes) : Nat :=
  match entriesFrom archive 0 with
  | some (_, next) => next
  | none => 0

/-- The rebuilt archive holds the entries to the first trailer, each rewritten. -/
theorem rewrite_entries {archive rebuilt : Bytes} (h : rewrite archive = some rebuilt) :
    ∃ es es' next, entriesFrom archive 0 = some (es, segmentEnd archive) ∧
      entriesFrom rebuilt 0 = some (es', next) ∧ List.Forall₂ Rewritten es es' := by
  obtain ⟨_, hmax, h⟩ := Option.bind_eq_some_iff.mp h
  obtain ⟨⟨rebuilt₁, changed⟩, hwalk, h⟩ := Option.bind_eq_some_iff.mp h
  obtain ⟨_, -, h⟩ := Option.bind_eq_some_iff.mp h
  obtain ⟨es, es', next, hentries, hall, hplain, hclosed, hrebuilt⟩ :=
    rewriteFrom_entries (guard_eq_some.mp hmax) rfl hwalk
  have hflat : rebuilt₁ = (es'.map chunk).flatten := hrebuilt
  have hread := entriesFrom_chunks hplain hclosed []
    (List.replicate ((512 - rebuilt₁.length % 512) % 512) 0) rfl
  have hend : segmentEnd archive = next := by
    rw [segmentEnd, hentries]
  rw [← hflat, List.nil_append, List.length_nil, Nat.zero_add] at hread
  have hpadded : extendTo 512 rebuilt₁ = rebuilt := Option.some.inj h
  rw [extendTo] at hpadded
  rw [hpadded] at hread
  exact ⟨es, es', _, by rw [hentries, hend], hread, hall⟩

/-- The rebuilt archive has as many entries as the first segment. -/
theorem Keeps.onlyZeros {archive rebuilt : Bytes} (h : rewrite archive = some rebuilt)
    (hkeeps : Keeps archive rebuilt) : OnlyZeros (archive.drop (segmentEnd archive)) := by
  obtain ⟨es, es', next, hentries, hread, hall⟩ := rewrite_entries h
  obtain ⟨es₁, es₁', next₁, hread₁, hall₁, hsource⟩ := hkeeps
  have hsame : es₁' = es' := (Prod.mk.inj (Option.some.inj (hread₁.symm.trans hread))).1
  rw [hsame] at hall₁
  exact (allEntries_eq_iff hentries).mp
    ⟨es₁, hsource, hall₁.length_eq.trans hall.length_eq.symm⟩

/-- **The rewrite of an accepted archive keeps what it owes exactly if only zeros follow the first
trailer of the source.** -/
theorem rewrite_keeps_iff {archive rebuilt : Bytes} (h : rewrite archive = some rebuilt) :
    Keeps archive rebuilt ↔ OnlyZeros (archive.drop (segmentEnd archive)) := by
  refine ⟨Keeps.onlyZeros h, fun hzeros => ?_⟩
  obtain ⟨es, es', next, hentries, hread, hall⟩ := rewrite_entries h
  obtain ⟨es₁, hsource, hlen⟩ := (allEntries_eq_iff hentries).mpr hzeros
  obtain ⟨n, hfirst⟩ := allEntries_eq hentries
  obtain ⟨rest, -, rfl⟩ := Option.map_eq_some_iff.mp (hfirst.symm.trans hsource)
  rw [List.length_append] at hlen
  have hnil : rest = [] := List.eq_nil_of_length_eq_zero (by omega)
  rw [hnil, List.append_nil] at hsource
  exact ⟨es, es', next, hread, hall, hsource⟩

/-! ### A small ramdisk -/

/-- An entry with zeros in the other header fields. -/
def plainEntry (name data : Bytes) : Entry where
  header := MAGIC ++ (List.replicate 48 0x30 ++ (hexDigits 8 data.length ++
    (List.replicate 32 0x30 ++ (hexDigits 8 (name.length + 1) ++ List.replicate 8 0x30))))
  name_bytes := name ++ [0]
  data := data

theorem plain_plainEntry {name data : Bytes} (hname : name.length < 4096)
    (hdata : data.length < 16 ^ 8) (hdecodes : decodes none name = true) :
    (plainEntry name data).Plain := by
  have hmagic : MAGIC.length = 6 := rfl
  have hsize : hexNat (hexDigits 8 data.length) = some data.length := hexNat_hexDigits hdata
  have hnamesize : hexNat (hexDigits 8 (name.length + 1)) = some (name.length + 1) :=
    hexNat_hexDigits (by omega)
  have hlen : (name ++ [0]).length = name.length + 1 := List.length_append
  refine ⟨?_, List.take_left' hmagic, ?_, ?_, ?_, ?_, List.getLast?_concat, ?_⟩
  · simp only [plainEntry, List.length_append, hmagic, List.length_replicate, length_hexDigits]
  · have hfield : slice (plainEntry name data).header 94 8 = hexDigits 8 (name.length + 1) := by
      have hsplit : (plainEntry name data).header = (MAGIC ++ (List.replicate 48 0x30 ++
          (hexDigits 8 data.length ++ List.replicate 32 0x30))) ++
            (hexDigits 8 (name.length + 1) ++ List.replicate 8 0x30) := by
        simp only [plainEntry, List.append_assoc]
      rw [hsplit]
      apply slice_mid _ (length_hexDigits _ _)
      simp only [List.length_append, hmagic, List.length_replicate, length_hexDigits]
    rw [hfield]
    exact hnamesize.trans (congrArg some hlen.symm)
  · have hfield : slice (plainEntry name data).header 54 8 = hexDigits 8 data.length := by
      rw [plainEntry, ← List.append_assoc]
      exact slice_mid rfl (length_hexDigits _ _)
    rw [hfield]
    exact hsize
  · exact hlen ▸ Nat.le_add_left 1 _
  · exact hlen ▸ hname
  · show decodes none (name ++ [0]).dropLast = true
    rwa [List.dropLast_concat]

/-- The names that the edits of the entries change. -/
def edits : List Entry → List Bytes → Option (List Bytes)
  | [], changed => some changed
  | e :: es, changed => (editData e.name e.data changed).bind fun r => edits es r.2

/-- An archive of plain entries whose edits succeed is walked to its trailer. -/
theorem exists_rewriteFrom {es : List Entry} (hplain : ∀ e ∈ es, e.Plain) (hclosed : Closed es)
    {changed changed' : List Bytes} (hedits : edits es changed = some changed')
    (pre rebuilt rest : Bytes) (hwords : pre.length % 4 = 0) :
    ∃ rebuilt', rewriteFrom (pre ++ ((es.map chunk).flatten ++ rest)) pre.length rebuilt changed =
      some (rebuilt', changed') := by
  induction es generalizing pre rebuilt changed with
  | nil => exact hclosed.elim
  | cons e es ih =>
    obtain ⟨⟨data, changed₁⟩, hedit, hedits⟩ := Option.bind_eq_some_iff.mp hedits
    obtain ⟨hheader, hread⟩ := readEntry_chunk (hplain e List.mem_cons_self) hwords
      ((es.map chunk).flatten ++ rest)
    rw [List.map_cons, List.flatten_cons, List.append_assoc,
      rewriteFrom_of_read hheader hread hedit]
    cases es with
    | nil =>
      have hname : e.name = TRAILER := hclosed
      obtain rfl := Option.some.inj hedits
      rw [if_pos hname]
      exact ⟨_, rfl⟩
    | cons e' es =>
      have hname : e.name ≠ TRAILER := hclosed.1
      have hchunk := length_chunk_mod e
      have hnext : (pre ++ chunk e).length = pre.length + (chunk e).length := List.length_append
      rw [if_neg hname, ← List.append_assoc, ← hnext]
      exact ih (fun x hx => hplain x (List.mem_cons_of_mem _ hx)) hclosed.2 hedits _ _ (by omega)

/-- The files that the tool asks for. -/
def smallRamdisk : List Entry :=
  [plainEntry (ascii "init.recovery.mt6771.rc") CMODE_2,
    plainEntry (ascii "init.recovery.mt8788.rc") CMODE_2, plainEntry INIT_RC SERVICE,
    plainEntry TRAILER []]

theorem name_plainEntry (name data : Bytes) : (plainEntry name data).name = name :=
  List.dropLast_concat

theorem length_names : (ascii "init.recovery.mt6771.rc").length = 23 ∧
    (ascii "init.recovery.mt8788.rc").length = 23 ∧ INIT_RC.length = 26 ∧ TRAILER.length = 10 ∧
    CMODE_2.length = 45 := by
  rw [INIT_RC, TRAILER, CMODE_2, ascii_ofList, ascii_ofList, ascii_ofList, ascii_ofList,
    ascii_ofList]
  exact ⟨rfl, rfl, rfl, rfl, rfl⟩

theorem decodes_names : decodes none (ascii "init.recovery.mt6771.rc") = true ∧
    decodes none (ascii "init.recovery.mt8788.rc") = true ∧ decodes none INIT_RC = true ∧
    decodes none TRAILER = true := by
  rw [INIT_RC, TRAILER, ascii_ofList, ascii_ofList, ascii_ofList, ascii_ofList]
  exact ⟨rfl, rfl, rfl, rfl⟩

/-- The names of the files differ, and none is that of the trailer. -/
theorem names_ne : (ascii "init.recovery.mt8788.rc" ≠ ascii "init.recovery.mt6771.rc" ∧
      INIT_RC ≠ ascii "init.recovery.mt8788.rc" ∧ INIT_RC ≠ ascii "init.recovery.mt6771.rc") ∧
    TRAILER ≠ ascii "init.recovery.mt6771.rc" ∧ TRAILER ≠ ascii "init.recovery.mt8788.rc" ∧
      TRAILER ≠ INIT_RC := by
  obtain ⟨hfirst, hsecond, hinit, htrailer, -⟩ := length_names
  have hne : ∀ {name name' : Bytes}, name.length ≠ name'.length → name ≠ name' :=
    fun h heq => h (congrArg List.length heq)
  have hcables : ascii "init.recovery.mt8788.rc" ≠ ascii "init.recovery.mt6771.rc" := by
    rw [ascii_ofList, ascii_ofList]
    exact fun h => absurd (congrArg (fun name => name[16]?) h) (by decide)
  exact ⟨⟨hcables, hne (by omega), hne (by omega)⟩, hne (by omega), hne (by omega), hne (by omega)⟩

theorem plain_smallRamdisk : ∀ e ∈ smallRamdisk, e.Plain := by
  obtain ⟨hfirst, hsecond, hinit, htrailer, hcmode⟩ := length_names
  obtain ⟨hfirstText, hsecondText, hinitText, htrailerText⟩ := decodes_names
  obtain ⟨hservice, -, -⟩ := length_texts
  intro e he
  simp only [smallRamdisk, List.mem_cons, List.not_mem_nil, or_false] at he
  rcases he with rfl | rfl | rfl | rfl
  · exact plain_plainEntry (by omega) (by omega) hfirstText
  · exact plain_plainEntry (by omega) (by omega) hsecondText
  · exact plain_plainEntry (by omega) (by omega) hinitText
  · exact plain_plainEntry (by omega) (by simp) htrailerText

theorem closed_smallRamdisk : Closed smallRamdisk := by
  obtain ⟨-, hfirst, hsecond, hinit⟩ := names_ne
  refine ⟨?_, ?_, ?_, name_plainEntry TRAILER []⟩
  · rw [name_plainEntry]
    exact hfirst.symm
  · rw [name_plainEntry]
    exact hsecond.symm
  · rw [name_plainEntry]
    exact hinit.symm

theorem editData_cable (name : Bytes) (changed : List Bytes) (hname : name ∈ CABLE_FILES)
    (hnew : name ∉ changed) : ∃ data, editData name CMODE_2 changed =
    some (data, name :: changed) := by
  have hne : CMODE_2 ≠ [] := by
    rw [cmode_two]
    exact List.concat_ne_nil _ _
  refine ⟨replaceAll CMODE_2 CMODE_1 CMODE_2, ?_⟩
  rw [editData, if_pos hname, if_pos ⟨occurrences_self hne, hnew⟩]

theorem editData_init (changed : List Bytes) (hnew : INIT_RC ∉ changed) :
    ∃ data, editData INIT_RC SERVICE changed = some (data, INIT_RC :: changed) := by
  obtain ⟨hservice, hdisabled, -⟩ := length_texts
  have hne : SERVICE ≠ [] := List.length_pos_iff.mp (by omega)
  have hshort : SERVICE.length < (SERVICE ++ DISABLED).length := by
    rw [List.length_append]
    omega
  have hcable : INIT_RC ∉ CABLE_FILES := by
    simp [CABLE_FILES, names_ne.1.2.1, names_ne.1.2.2]
  refine ⟨replaceAll SERVICE (SERVICE ++ DISABLED) SERVICE ++ BOOT_BLOCK, ?_⟩
  rw [editData, if_neg hcable, if_pos rfl,
    if_pos ⟨occurrences_self hne, hnew, occurrences_of_short hshort⟩]

theorem edits_smallRamdisk : edits smallRamdisk [] =
    some [INIT_RC, ascii "init.recovery.mt8788.rc", ascii "init.recovery.mt6771.rc"] := by
  obtain ⟨⟨hcables, hinitSecond, hinitFirst⟩, hfirst, hsecond, hinit⟩ := names_ne
  obtain ⟨data₁, h₁⟩ := editData_cable (ascii "init.recovery.mt6771.rc") []
    (by simp [CABLE_FILES]) List.not_mem_nil
  obtain ⟨data₂, h₂⟩ := editData_cable (ascii "init.recovery.mt8788.rc")
    [ascii "init.recovery.mt6771.rc"] (by simp [CABLE_FILES]) (by simp [hcables])
  obtain ⟨data₃, h₃⟩ := editData_init
    [ascii "init.recovery.mt8788.rc", ascii "init.recovery.mt6771.rc"]
    (by simp [hinitSecond, hinitFirst])
  have htrailer : TRAILER ∉ CABLE_FILES ∧ TRAILER ≠ INIT_RC :=
    ⟨by simp [CABLE_FILES, hfirst, hsecond], hinit⟩
  simp only [smallRamdisk, edits, name_plainEntry]
  show (editData _ CMODE_2 []).bind _ = _
  rw [h₁, Option.bind_some]
  show (editData _ CMODE_2 _).bind _ = _
  rw [h₂, Option.bind_some]
  show (editData _ SERVICE _).bind _ = _
  rw [h₃, Option.bind_some]
  show (editData TRAILER _ _).bind _ = _
  rw [editData, if_neg htrailer.1, if_neg htrailer.2]
  rfl

/-- The ramdisk with whatever follows its trailer. -/
def followedBy (rest : Bytes) : Bytes := (smallRamdisk.map chunk).flatten ++ rest

theorem length_chunk_plainEntry (name data : Bytes) :
    (chunk (plainEntry name data)).length = align4 (111 + name.length) + align4 data.length := by
  have hheader : (plainEntry name data).header.length = 110 := by
    simp [plainEntry, show MAGIC.length = 6 from rfl]
  have hname : (plainEntry name data).name_bytes.length = name.length + 1 := List.length_append
  rw [length_chunk, hheader, hname, show 110 + (name.length + 1) = 111 + name.length by omega]
  rfl

theorem length_followedBy (rest : Bytes) : (followedBy rest).length = 672 + rest.length := by
  obtain ⟨hfirst, hsecond, hinit, htrailer, hcmode⟩ := length_names
  obtain ⟨hservice, -, -⟩ := length_texts
  have hnil : ([] : Bytes).length = 0 := rfl
  have hfirstChunk : (chunk (plainEntry (ascii "init.recovery.mt6771.rc") CMODE_2)).length =
    184 := by
    rw [length_chunk_plainEntry, hfirst, hcmode]
    rfl
  have hsecondChunk : (chunk (plainEntry (ascii "init.recovery.mt8788.rc") CMODE_2)).length =
    184 := by
    rw [length_chunk_plainEntry, hsecond, hcmode]
    rfl
  have hinitChunk : (chunk (plainEntry INIT_RC SERVICE)).length = 180 := by
    rw [length_chunk_plainEntry, hinit, hservice]
    rfl
  have htrailerChunk : (chunk (plainEntry TRAILER [])).length = 124 := by
    rw [length_chunk_plainEntry, htrailer, hnil]
    rfl
  rw [followedBy, List.length_append, smallRamdisk, List.map_cons, List.map_cons, List.map_cons,
    List.map_cons, List.map_nil, List.flatten_cons, List.flatten_cons, List.flatten_cons,
    List.flatten_cons, List.flatten_nil, List.length_append, List.length_append, List.length_append,
    List.length_append, hnil, hfirstChunk, hsecondChunk, hinitChunk, htrailerChunk]

theorem exists_rewrite (rest : Bytes) (hlen : (followedBy rest).length ≤ MAX_ARCHIVE) :
    ∃ rebuilt, rewrite (followedBy rest) = some rebuilt := by
  obtain ⟨rebuilt, hwalk⟩ := exists_rewriteFrom plain_smallRamdisk closed_smallRamdisk
    edits_smallRamdisk [] [] rest rfl
  refine ⟨extendTo 512 rebuilt, ?_⟩
  have hwalked : rewriteFrom (followedBy rest) 0 [] [] = _ := hwalk
  have hchanged : [INIT_RC, ascii "init.recovery.mt8788.rc", ascii "init.recovery.mt6771.rc"] ⊆
      INIT_RC :: CABLE_FILES ∧ INIT_RC :: CABLE_FILES ⊆
        [INIT_RC, ascii "init.recovery.mt8788.rc", ascii "init.recovery.mt6771.rc"] := by
    simp [CABLE_FILES]
  simp only [rewrite, hwalked, guard, if_pos hlen, if_pos hchanged, Option.bind_eq_bind,
    Option.bind_some, pure]

theorem drop_segmentEnd (rest : Bytes) :
    (followedBy rest).drop (segmentEnd (followedBy rest)) = rest := by
  have hentries := entriesFrom_chunks plain_smallRamdisk closed_smallRamdisk [] rest rfl
  rw [List.nil_append, List.length_nil, Nat.zero_add] at hentries
  rw [segmentEnd, followedBy, hentries]
  exact List.drop_left

/-- The rebuilt ramdisk is small, whatever follows the source. -/
theorem length_rewrite_le {rest rebuilt : Bytes} (h : rewrite (followedBy rest) = some rebuilt) :
    0 < rebuilt.length ∧ rebuilt.length ≤ 2000 := by
  have hsource : entriesFrom (followedBy rest) 0 = some (smallRamdisk, _) :=
    entriesFrom_chunks plain_smallRamdisk closed_smallRamdisk [] rest rfl
  generalize followedBy rest = archive at h hsource
  obtain ⟨_, hmax, h⟩ := Option.bind_eq_some_iff.mp h
  obtain ⟨⟨rebuilt₁, changed⟩, hwalk, h⟩ := Option.bind_eq_some_iff.mp h
  obtain ⟨_, -, h⟩ := Option.bind_eq_some_iff.mp h
  obtain ⟨es, es', next, hentries, hall, hplain, hclosed, hrebuilt⟩ :=
    rewriteFrom_entries (guard_eq_some.mp hmax) rfl hwalk
  have hes : es = smallRamdisk :=
    congrArg Prod.fst (Option.some.inj (hentries.symm.trans hsource))
  have hgrown : ∀ {es es' : List Entry}, List.Forall₂ Rewritten es es' → (∀ e ∈ es', e.Plain) →
      (es'.map chunk).flatten.length ≤
        (es.map fun e => e.name_bytes.length + e.data.length + 316).sum := by
    intro es es' hall hplain
    induction hall with
    | nil => exact Nat.zero_le _
    | cons he hall ih =>
      rename_i e e' es es'
      have htail := ih fun x hx => hplain x (List.mem_cons_of_mem _ hx)
      have hheader := (hplain e' List.mem_cons_self).header
      have hdata := he.data.length_le
      have hname := congrArg List.length he.name_bytes
      rw [List.map_cons, List.flatten_cons, List.length_append, length_chunk, List.map_cons,
        List.sum_cons]
      unfold align4
      omega
  have hsmall : (smallRamdisk.map fun e => e.name_bytes.length + e.data.length + 316).sum ≤
    1488 := by
    obtain ⟨hfirst, hsecond, hinit, htrailer, hcmode⟩ := length_names
    obtain ⟨hservice, -, -⟩ := length_texts
    simp [smallRamdisk, plainEntry, hfirst, hsecond, hinit, htrailer, hcmode, hservice]
  have hflat := hgrown hall hplain
  rw [hes] at hflat
  have hpadded : extendTo 512 rebuilt₁ = rebuilt := Option.some.inj h
  have hlen : rebuilt₁.length = (es'.map chunk).flatten.length := by
    rw [hrebuilt, List.nil_append]
  have hpos : 0 < (es'.map chunk).flatten.length := by
    cases es' with
    | nil => exact hclosed.elim
    | cons e es' =>
      have hheader := (hplain e List.mem_cons_self).header
      rw [List.map_cons, List.flatten_cons, List.length_append, length_chunk]
      unfold align4
      omega
  rw [← hpadded, extendTo, List.length_append, List.length_replicate]
  omega

/-- The ramdisk with nothing behind it. -/
theorem rewrite_keeps_small :
    ∃ rebuilt, rewrite (followedBy []) = some rebuilt ∧ Keeps (followedBy []) rebuilt := by
  obtain ⟨rebuilt, h⟩ := exists_rewrite [] (by
    rw [length_followedBy]
    exact Nat.le_of_ble_eq_true rfl)
  refine ⟨rebuilt, h, (rewrite_keeps_iff h).mpr ?_⟩
  rw [drop_segmentEnd]
  exact fun _ hb => absurd hb List.not_mem_nil

/-- A second segment: an entry and its trailer. -/
def secondSegment : Bytes := chunk (plainEntry (ascii "init") []) ++ chunk (plainEntry TRAILER [])

theorem not_forall_rewrite_keeps :
    ¬∀ archive rebuilt, rewrite archive = some rebuilt → Keeps archive rebuilt := by
  intro hall
  have hlength : secondSegment.length ≤ 1000 := by
    obtain ⟨-, -, -, htrailer, -⟩ := length_names
    simp [secondSegment, length_chunk_plainEntry, htrailer, align4, ascii]
  obtain ⟨rebuilt, h⟩ := exists_rewrite secondSegment
    (by rw [length_followedBy, MAX_ARCHIVE]; omega)
  have hzeros := (hall _ _ h).onlyZeros h
  rw [drop_segmentEnd] at hzeros
  have hheader : 0x30 ∈ (plainEntry (ascii "init") []).header :=
    List.mem_append_right _ (List.mem_append_left _ (List.mem_replicate.mpr ⟨by decide, rfl⟩))
  have hmem : 0x30 ∈ secondSegment := List.mem_append_left _ (List.mem_append_left _ hheader)
  have hzero := hzeros _ hmem
  cases hzero

end EinkLab.RecoveryImage
