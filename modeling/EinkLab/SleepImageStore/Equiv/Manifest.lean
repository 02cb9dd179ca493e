import EinkLab.SleepImageStore.Basic
import Mathlib.Tactic.SplitIfs
import Mathlib.Tactic.Tauto

/-!
# Manifests are read back

The file names of the store do not collide (`planeFile_inj` and the `head?` lemmas), and a published
manifest whose entries have their planes on disk reads back as those entries, in order
(`read_of_manifest`).  What `read` returns depends on the manifest and on the planes of the ids it
mentions only (`read_congr`), and its entries are well formed (`read_wellFormed`).
-/

namespace EinkLab.SleepImageStore

open Text Files

variable {store : SleepImageStore} {d d' : Directory} {id : EntryId} {e : Entry}
  {es : List Entry} {g : Int}

/-! ### File names -/

@[simp] theorem head_planeFile (p : Plane) (id : EntryId) : (planeFile p id).head? = some 'e' := rfl

@[simp] theorem head_temporaryName (name : FileName) :
    (temporaryName name).head? = some '.' := rfl

@[simp] theorem head_manifestTemporary (g : Int) :
    (manifestTemporary g).head? = some '.' := rfl

theorem planeFile_ne {name : FileName} {c : Char} (hname : name.head? = some c) (hc : c ≠ 'e')
    (p : Plane) (id : EntryId) : planeFile p id ≠ name := by
  intro h
  rw [← h, head_planeFile] at hname
  exact hc (Option.some.inj hname).symm

theorem suffix_reverse (p : Plane) : p.suffix.reverse =
    match p with
    | .gray => ['y', 'a', 'r', 'g', '.']
    | .alpha => ['a', 'h', 'p', 'l', 'a', '.']
    | .rgba => ['a', 'b', 'g', 'r', '.'] := by
  cases p <;> decide +kernel

theorem planeFile_inj {p q : Plane} {id id' : EntryId} :
    planeFile p id = planeFile q id' ↔ p = q ∧ id = id' := by
  constructor
  · intro h
    have h' : id ++ p.suffix = id' ++ q.suffix := by
      rw [planeFile, planeFile, List.append_assoc, List.append_assoc] at h
      exact List.append_cancel_left h
    -- the last two characters tell the planes apart
    have hrev := congrArg List.reverse h'
    rw [List.reverse_append, List.reverse_append, suffix_reverse, suffix_reverse] at hrev
    have hpq : p = q := by
      cases p <;> cases q <;> simp at hrev ⊢
    subst hpq
    exact ⟨rfl, List.append_cancel_right h'⟩
  · rintro ⟨rfl, rfl⟩
    rfl

theorem head_of_isEntryFile {name : FileName} (h : isEntryFile name = true) :
    name.head? = some 'e' := by
  rw [isEntryFile, Bool.and_eq_true, List.isPrefixOf_iff_prefix] at h
  obtain ⟨rest, rfl⟩ := h.1
  rfl

theorem head_of_isLegacyFile {name : FileName} (h : isLegacyFile name = true) :
    name.head? = some 'c' := by
  rw [isLegacyFile, Bool.and_eq_true, List.isPrefixOf_iff_prefix] at h
  obtain ⟨rest, rfl⟩ := h.1
  rfl

/-! ### Ids -/

theorem isAlphanum_lt {c : Char} (h : c.isAlphanum = true) : c.toNat < 0x80 := by
  delta Char.isAlphanum Char.isAlpha Char.isUpper Char.isLower Char.isDigit at h
  simp only [Bool.or_eq_true, Bool.and_eq_true, decide_eq_true_eq, ge_iff_le,
    UInt32.le_iff_toNat_le] at h
  show c.val.toNat < 128
  have hZ : 'Z'.val.toNat = 90 := rfl
  have hz : 'z'.val.toNat = 122 := rfl
  have h9 : '9'.val.toNat = 57 := rfl
  omega

/-- The characters of a safe id. -/
theorem safeId_chars (h : safeId id = true) {c : Char} (hc : c ∈ id) :
    c.isAlphanum = true ∨ c = '.' ∨ c = '_' ∨ c = '-' := by
  cases id with
  | nil => cases hc
  | cons x xs =>
    simp only [safeId, Bool.and_eq_true, List.all_eq_true, Bool.or_eq_true, decide_eq_true_eq] at h
    rcases List.mem_cons.mp hc with rfl | hc
    · exact Or.inl h.1.1
    · have := h.2 c hc
      tauto

theorem safeId_ascii (h : safeId id = true) : IsAscii id := by
  intro c hc
  rcases safeId_chars h hc with hc | rfl | rfl | rfl
  · exact isAlphanum_lt hc
  all_goals decide

theorem safeId_not_mem (h : safeId id = true) {c : Char} (hc : c.isAlphanum = false)
    (hs : c ≠ '.' ∧ c ≠ '_' ∧ c ≠ '-') : c ∉ id := by
  intro hmem
  rcases safeId_chars h hmem with h | h | h | h
  · exact absurd h (by simp [hc])
  · exact hs.1 h
  · exact hs.2.1 h
  · exact hs.2.2 h

theorem builtInId_ne_of_head {c : Char} (hc : c ≠ 'b') (rest : List Char) :
    c :: rest ≠ store.builtInId := by
  obtain ⟨tail, htail⟩ := store.builtInId_named
  rw [← htail]
  intro h
  exact hc (List.head_eq_of_cons_eq h)

/-- The built-in id of this product is not one of the retired built-in ids. -/
theorem isLegacyBuiltInId_builtInId : store.isLegacyBuiltInId store.builtInId = false := by
  have hdiffer : BUILT_IN_ID_AURA_C_V2 ≠ BUILT_IN_ID_AURA_C_V1 := by
    intro heq
    have hstrings := String.toList_inj.mp heq
    simp at hstrings
  refine Bool.eq_false_iff.mpr fun h => ?_
  simp only [isLegacyBuiltInId, Bool.or_eq_true, Bool.and_eq_true, decide_eq_true_eq] at h
  rcases h with ⟨h₁, h₂⟩ | ⟨h₁, h₂⟩
  · exact h₁ h₂
  · exact hdiffer (h₁.symm.trans h₂)

/-! ### Planes on disk -/

/-- The gray and alpha planes of the entry are on disk. -/
structure Holds (d : Directory) (e : Entry) : Prop where
  gray : d.content (grayFile e.id) = some e.gray
  alpha : d.content (alphaFile e.id) = some e.alpha

/-- An entry that the store can write: its id is safe and its planes are valid. -/
structure Writable (store : SleepImageStore) (e : Entry) : Prop where
  safe : safeId e.id = true
  valid : store.validPlanes e.gray e.alpha = true

theorem validPlanes_length {gray alpha : Bytes} (h : store.validPlanes gray alpha = true) :
    gray.length = store.bytes ∧ alpha.length = store.bytes := by
  simp only [validPlanes, Bool.and_eq_true, decide_eq_true_eq] at h
  exact h.1

theorem readExact_eq_some {name : FileName} {content : Bytes} :
    store.readExact d name = some content ↔
      d.content name = some content ∧ content.length = store.bytes := by
  rw [readExact, Option.filter_eq_some_iff, decide_eq_true_eq]

theorem loadEntry_of_holds (h : Holds d e) (hw : Writable store e) (builtIn rotation : Bool) :
    store.loadEntry d e.id builtIn rotation =
    some (Entry.new e.id builtIn rotation e.gray e.alpha) := by
  obtain ⟨hgray, halpha⟩ := validPlanes_length hw.valid
  rw [loadEntry, readExact_eq_some.mpr ⟨h.gray, hgray⟩, readExact_eq_some.mpr ⟨h.alpha, halpha⟩]
  show (if store.validPlanes e.gray e.alpha then _ else none) = _
  rw [if_pos hw.valid]

theorem loadEntry_eq_some {builtIn rotation : Bool}
    (h : store.loadEntry d id builtIn rotation = some e) :
    e = Entry.new id builtIn rotation e.gray e.alpha ∧ Holds d e ∧
      store.validPlanes e.gray e.alpha = true := by
  obtain ⟨gray, hgray, h⟩ := Option.bind_eq_some_iff.mp h
  obtain ⟨alpha, halpha, h⟩ := Option.bind_eq_some_iff.mp h
  split at h
  · next hvalid =>
    obtain rfl := Option.some.inj h
    exact ⟨rfl, ⟨(readExact_eq_some.mp hgray).1, (readExact_eq_some.mp halpha).1⟩, hvalid⟩
  · cases h

/-- Loading depends on the two planes only. -/
theorem loadEntry_congr {builtIn rotation : Bool}
    (hgray : d'.content (grayFile id) = d.content (grayFile id))
    (halpha : d'.content (alphaFile id) = d.content (alphaFile id)) :
    store.loadEntry d' id builtIn rotation = store.loadEntry d id builtIn rotation := by
  simp only [loadEntry, readExact, hgray, halpha]

/-! ### The text of a manifest -/

/-- What is read back of an entry: the manifest tells its rotation only if it is the built-in one,
and the colour plane is not loaded. -/
def normalize (store : SleepImageStore) (e : Entry) : Entry :=
  Entry.new e.id (decide (e.id = store.builtInId)) e.rotationEnabled e.gray e.alpha

@[simp] theorem normalize_id (e : Entry) : (store.normalize e).id = e.id := rfl

@[simp] theorem normalize_gray (e : Entry) : (store.normalize e).gray = e.gray := rfl

@[simp] theorem normalize_alpha (e : Entry) : (store.normalize e).alpha = e.alpha := rfl

theorem normalize_new (id : EntryId) (rotation : Bool) (gray alpha : Bytes) :
    store.normalize (Entry.new id (decide (id = store.builtInId)) rotation gray alpha) =
      Entry.new id (decide (id = store.builtInId)) rotation gray alpha := by
  by_cases hb : id = store.builtInId <;> simp [normalize, Entry.new, hb]

theorem manifestLine_chars {c : Char} (hc : c ∈ store.manifestLine e) :
    c ∈ e.id ∨ c = '\t' ∨ c = '0' ∨ c = '1' := by
  rw [manifestLine, List.mem_append] at hc
  rcases hc with hc | hc
  · exact Or.inl hc
  · simp only [List.mem_cons, List.not_mem_nil, or_false] at hc
    split_ifs at hc <;> tauto

theorem manifestLine_ascii (hs : safeId e.id = true) : IsAscii (store.manifestLine e) := by
  intro c hc
  rcases manifestLine_chars hc with hc | rfl | rfl | rfl
  · exact safeId_ascii hs c hc
  all_goals decide

theorem manifestLine_isLine (hs : safeId e.id = true) : IsLine (store.manifestLine e) := by
  intro c hc
  rcases manifestLine_chars hc with hc | rfl | rfl | rfl
  · constructor
    · rintro rfl
      exact safeId_not_mem hs (by decide) (by decide) hc
    · rintro rfl
      exact safeId_not_mem hs (by decide) (by decide) hc
  all_goals decide

theorem manifestLine_fields (hs : safeId e.id = true) :
    (store.manifestLine e).splitOn '\t' =
      [e.id, [if e.id = store.builtInId then '1' else '0'],
        [if e.id = store.builtInId ∧ e.rotationEnabled = false then '0' else '1']] := by
  have hid : '\t' ∉ e.id := safeId_not_mem hs (by decide) (by decide)
  rw [manifestLine, List.splitOn_append_cons_self_of_not_mem hid]
  split_ifs <;> rfl

theorem longText_ascii (n : Int) : IsAscii (longText n) := by
  intro c hc
  rcases longText_chars hc with h | rfl
  · have := isDigit_bounds h
    omega
  · decide

theorem header_ascii : IsAscii HEADER := by
  have hall : HEADER.all (fun c => c.toNat < 128) = true := by decide
  intro c hc
  exact of_decide_eq_true (List.all_eq_true.mp hall c hc)

theorem header_isLine (n : Int) : IsLine (HEADER ++ longText n) := by
  intro c hc
  rcases List.mem_append.mp hc with hc | hc
  · have hall : HEADER.all (fun c => c ≠ '\n' && c ≠ '\r') = true := by decide
    have hchar := List.all_eq_true.mp hall c hc
    rw [Bool.and_eq_true] at hchar
    exact ⟨of_decide_eq_true hchar.1, of_decide_eq_true hchar.2⟩
  · rcases longText_chars hc with h | rfl
    · have hbounds := isDigit_bounds h
      constructor
      · rintro rfl
        exact absurd hbounds.1 (by decide)
      · rintro rfl
        exact absurd hbounds.1 (by decide)
    · decide

theorem isAscii_joinLines {lines : List (List Char)} (h : ∀ line ∈ lines, IsAscii line) :
    IsAscii (joinLines lines) := by
  intro c hc
  obtain ⟨line, hline, hc⟩ := List.mem_flatMap.mp hc
  rcases List.mem_append.mp hc with hc | hc
  · exact h line hline c hc
  · obtain rfl := List.mem_singleton.mp hc
    decide

/-- The header and the lines of a published manifest are read back. -/
theorem parseManifest_manifestBytes (hlong : IsLong g) (hs : ∀ e ∈ es, safeId e.id = true) :
    parseManifest (store.manifestBytes g es) =
      if g ≤ 0 then none else some (g, es.map store.manifestLine) := by
  have hascii : IsAscii (joinLines ((HEADER ++ longText g) :: es.map store.manifestLine)) := by
    refine isAscii_joinLines fun line hline => ?_
    rcases List.mem_cons.mp hline with rfl | hline
    · exact IsAscii.append header_ascii (longText_ascii g)
    · obtain ⟨e, he, rfl⟩ := List.mem_map.mp hline
      exact manifestLine_ascii (hs e he)
  have hlines : readLines (joinLines ((HEADER ++ longText g) :: es.map store.manifestLine)) =
      (HEADER ++ longText g) :: es.map store.manifestLine := by
    refine readLines_joinLines fun line hline => ?_
    rcases List.mem_cons.mp hline with rfl | hline
    · exact header_isLine g
    · obtain ⟨e, he, rfl⟩ := List.mem_map.mp hline
      exact manifestLine_isLine (hs e he)
  have hpre : HEADER.isPrefixOf (HEADER ++ longText g) = true := by
    rw [List.isPrefixOf_iff_prefix]
    exact List.prefix_append _ _
  rw [parseManifest, manifestBytes, decodeUtf8_encodeUtf8 hascii, hlines]
  dsimp only
  rw [if_pos hpre, List.drop_left, parseLong_longText hlong]

/-! ### Reading a published manifest -/

/-- Entries that can be published together. -/
structure Publishable (store : SleepImageStore) (es : List Entry) : Prop where
  nonempty : es ≠ []
  fits : es.length ≤ MAXIMUM_ENTRIES
  writable : ∀ e ∈ es, Writable store e
  distinct : (es.map Entry.id).Nodup

/-- A line of a published manifest is accepted without a conflict. -/
theorem scanLine_manifestLine {scan : Scan} (hw : Writable store e) (hh : Holds d e)
    (hnew : e.id ∉ scan.ids) :
    store.scanLine d scan (store.manifestLine e) =
      { entries := scan.entries ++ [store.normalize e], ids := e.id :: scan.ids,
        metadataConflict := scan.metadataConflict } := by
  rw [scanLine, manifestLine_fields hw.safe]
  dsimp only
  have hskip : (!safeId e.id || decide (e.id ∈ scan.ids)) = false := by simp [hw.safe, hnew]
  rw [scanFields, if_neg (by rw [hskip]; decide)]
  by_cases hb : e.id = store.builtInId
  · -- the built-in entry: its rotation is told by the third field
    have hauthoritative : (e.id = store.builtInId) = True := eq_true hb
    cases hr : e.rotationEnabled <;>
      simp [hauthoritative, hr, loadEntry_of_holds hh hw, normalize]
  · simp [hb, loadEntry_of_holds hh hw, normalize, Entry.new]

/-- A line whose planes are lost adds no entry. -/
theorem scanLine_lost {scan : Scan} (hsafe : safeId e.id = true) (hnew : e.id ∉ scan.ids)
    (hlost : d.content (grayFile e.id) = none) :
    store.scanLine d scan (store.manifestLine e) = { scan with ids := e.id :: scan.ids } := by
  have hload : ∀ builtIn rotation, store.loadEntry d e.id builtIn rotation = none := by
    intro builtIn rotation
    rw [loadEntry, readExact, hlost]
    rfl
  rw [scanLine, manifestLine_fields hsafe]
  dsimp only
  have hskip : (!safeId e.id || decide (e.id ∈ scan.ids)) = false := by simp [hsafe, hnew]
  rw [scanFields, if_neg (by rw [hskip]; decide)]
  by_cases hb : e.id = store.builtInId
  · have hauthoritative : (e.id = store.builtInId) = True := eq_true hb
    cases e.rotationEnabled <;> simp [hauthoritative, hload]
  · simp [hb, hload]

theorem scanLines_manifestLines {scan : Scan} (hw : ∀ e ∈ es, Writable store e)
    (hh : ∀ e ∈ es, Holds d e) (hdistinct : (es.map Entry.id).Nodup)
    (hnew : ∀ e ∈ es, e.id ∉ scan.ids) (hfits : scan.entries.length + es.length ≤ MAXIMUM_ENTRIES) :
    store.scanLines d scan (es.map store.manifestLine) =
      { entries := scan.entries ++ es.map store.normalize,
        ids := (es.map Entry.id).reverse ++ scan.ids,
        metadataConflict := scan.metadataConflict } := by
  induction es generalizing scan with
  | nil => simp [scanLines]
  | cons e es ih =>
    rw [List.length_cons] at hfits
    rw [List.map_cons, List.nodup_cons] at hdistinct
    have he : e ∈ e :: es := List.mem_cons_self
    rw [List.map_cons, scanLines, if_pos (by omega),
      scanLine_manifestLine (hw e he) (hh e he) (hnew e he)]
    rw [ih (fun x hx => hw x (List.mem_cons_of_mem _ hx))
      (fun x hx => hh x (List.mem_cons_of_mem _ hx)) hdistinct.2]
    · simp
    · intro x hx hmem
      rcases List.mem_cons.mp hmem with heq | hmem
      · exact hdistinct.1 (heq ▸ List.mem_map_of_mem hx)
      · exact hnew x (List.mem_cons_of_mem _ hx) hmem
    · simp only [List.length_append, List.length_singleton]
      omega

/-- **A published manifest is read back**: the same generation and entries, in the same order. -/
theorem readManifest_manifestBytes {name : FileName} (hlong : IsLong g) (hpos : 0 < g)
    (hp : Publishable store es) (hh : ∀ e ∈ es, Holds d e)
    (hm : d.content name = some (store.manifestBytes g es)) :
    store.readManifest d name = ⟨g, es.map store.normalize, false⟩ := by
  have hscan : store.scanLines d {} (es.map store.manifestLine) = _ :=
    scanLines_manifestLines hp.writable hh hp.distinct
    (fun _ _ => List.not_mem_nil) (by simpa using hp.fits)
  rw [readManifest, hm, Option.bind_some,
    parseManifest_manifestBytes hlong fun e he => (hp.writable e he).safe, if_neg (by omega)]
  dsimp only
  rw [hscan]
  rfl

/-- A manifest whose generation has wrapped is invalid. -/
theorem readManifest_wrapped {name : FileName} (hlong : IsLong g) (hneg : g ≤ 0)
    (hw : ∀ e ∈ es, Writable store e)
    (hm : d.content name = some (store.manifestBytes g es)) : store.readManifest d name = {} := by
  rw [readManifest, hm, Option.bind_some, parseManifest_manifestBytes hlong
    fun e he => (hw e he).safe,
    if_pos hneg]

theorem read_of_manifest (hlong : IsLong g) (hpos : 0 < g) (hp : Publishable store es)
    (hh : ∀ e ∈ es, Holds d e) (hm : d.content MANIFEST = some (store.manifestBytes g es)) :
    store.read d = ⟨g, es.map store.normalize, false⟩ :=
  readManifest_manifestBytes hlong hpos hp hh hm

theorem read_of_wrapped (hlong : IsLong g) (hneg : g ≤ 0) (hw : ∀ e ∈ es, Writable store e)
    (hm : d.content MANIFEST = some (store.manifestBytes g es)) : store.read d = {} :=
  readManifest_wrapped hlong hneg hw hm

/-! ### What reading depends on -/

/-- The ids that the lines of a manifest begin with. -/
def mentioned (lines : List (List Char)) : List EntryId :=
  lines.map fun line => (line.splitOn '\t').headD []

/-- The ids that the catalog's manifest mentions. -/
def catalogIds (d : Directory) : List EntryId :=
  match (d.content MANIFEST).bind parseManifest with
  | none => []
  | some (_, lines) => mentioned lines

/-- The two directories have the same gray and alpha planes of the entry. -/
def SamePlanes (d d' : Directory) (id : EntryId) : Prop :=
  d'.content (grayFile id) = d.content (grayFile id) ∧
    d'.content (alphaFile id) = d.content (alphaFile id)

theorem scanFields_congr {scan : Scan} {declared : List Char} {rotation : Option (List Char)}
    (h : SamePlanes d d' id) :
    store.scanFields d' scan id declared rotation =
      store.scanFields d scan id declared rotation := by
  simp only [scanFields, loadEntry_congr h.1 h.2]

theorem scanLine_congr {scan : Scan} {line : List Char}
    (h : ∀ id ∈ mentioned [line], SamePlanes d d' id) :
    store.scanLine d' scan line = store.scanLine d scan line := by
  unfold scanLine
  cases hfields : line.splitOn '\t' with
  | nil => rfl
  | cons id rest =>
    have hsame : SamePlanes d d' id := h id (by simp [mentioned, hfields])
    split
    · next heq =>
      obtain ⟨rfl, -⟩ := List.cons.inj heq
      exact scanFields_congr hsame
    · next heq =>
      obtain ⟨rfl, -⟩ := List.cons.inj heq
      exact scanFields_congr hsame
    · rfl

theorem scanLines_congr {scan : Scan} {lines : List (List Char)}
    (h : ∀ id ∈ mentioned lines, SamePlanes d d' id) :
    store.scanLines d' scan lines = store.scanLines d scan lines := by
  induction lines generalizing scan with
  | nil => rfl
  | cons line lines ih =>
    have hline : store.scanLine d' scan line = store.scanLine d scan line :=
      scanLine_congr fun id hid => h id (by
        simp only [mentioned, List.map_cons, List.map_nil, List.mem_singleton] at hid
        simp [mentioned, hid])
    have hlines : ∀ id ∈ mentioned lines, SamePlanes d d' id := fun id hid =>
      h id (List.mem_cons_of_mem _ hid)
    simp only [scanLines, hline, ih hlines]

/-- **Reading depends on little**: the manifest, and the planes of the ids it mentions. -/
theorem read_congr (hm : d'.content MANIFEST = d.content MANIFEST)
    (h : ∀ id ∈ catalogIds d, SamePlanes d d' id) : store.read d' = store.read d := by
  unfold read readManifest
  rw [hm]
  unfold catalogIds at h
  split
  · rfl
  · next generation lines heq =>
    rw [heq] at h
    rw [scanLines_congr h]

/-! ### What reading guarantees -/

/-- The entries that were loaded so far. -/
structure Scanned (store : SleepImageStore) (d : Directory) (scan : Scan) : Prop where
  seen : ∀ e ∈ scan.entries, e.id ∈ scan.ids
  distinct : (scan.entries.map Entry.id).Nodup
  loaded : ∀ e ∈ scan.entries, Writable store e ∧ Holds d e ∧ e.rgba = none
  canonical : scan.metadataConflict = false → ∀ e ∈ scan.entries, store.normalize e = e

variable (store) in
/-- What one accepted line does. -/
theorem scanFields_cases (d : Directory) (scan : Scan) (id declared : List Char)
    (rotation : Option (List Char)) :
    store.scanFields d scan id declared rotation = scan ∨
    (safeId id = true ∧ id ∉ scan.ids ∧ ∃ conflict,
      (conflict = false → scan.metadataConflict = false) ∧
      (store.scanFields d scan id declared rotation =
          { scan with ids := id :: scan.ids, metadataConflict := conflict } ∨
        ∃ builtIn rotates e, store.loadEntry d id builtIn rotates = some e ∧
          (conflict = false → builtIn = decide (id = store.builtInId)) ∧
          store.scanFields d scan id declared rotation =
            { entries := scan.entries ++ [e], ids := id :: scan.ids,
              metadataConflict := conflict })) := by
  unfold scanFields
  split
  · exact Or.inl rfl
  next hskip =>
  simp only [Bool.or_eq_true, Bool.not_eq_true', decide_eq_true_eq, not_or,
    Bool.not_eq_false] at hskip
  refine Or.inr ⟨hskip.1, hskip.2, ?_⟩
  split
  · exact ⟨scan.metadataConflict, fun h => h, Or.inl rfl⟩
  · dsimp only
    split
    · refine ⟨_, fun h => ?_, Or.inl rfl⟩
      exact (Bool.or_eq_false_iff.mp h).1
    · refine ⟨scan.metadataConflict || (decide (declared = ['1'])) !=
        (decide (id = store.builtInId)) ||
        (!decide (id = store.builtInId) && !decide (rotation = none ∨ rotation = some ['1'])),
        fun h => (Bool.or_eq_false_iff.mp (Bool.or_eq_false_iff.mp h).1).1, ?_⟩
      split
      · exact Or.inl rfl
      · next e he =>
        refine Or.inr ⟨_, _, e, he, fun h => ?_, rfl⟩
        -- without a conflict the line declares the built-in entry only, which is no retired one
        have hdeclared := (Bool.or_eq_false_iff.mp (Bool.or_eq_false_iff.mp h).1).2
        rw [bne_eq_false_iff_eq] at hdeclared
        rw [hdeclared]
        by_cases hb : id = store.builtInId
        · simp [hb]
        · simp [hb]

theorem Scanned.fields {scan : Scan} (h : Scanned store d scan) (id declared : List Char)
    (rotation : Option (List Char)) :
    Scanned store d (store.scanFields d scan id declared rotation) := by
  rcases scanFields_cases store d scan id declared rotation with
    heq | ⟨hsafe, hnew, conflict, hconflict, heq | ⟨builtIn, rotates, e, he, hcanonical, heq⟩⟩
  · rwa [heq]
  · rw [heq]
    exact ⟨fun x hx => List.mem_cons_of_mem _ (h.seen x hx), h.distinct, h.loaded,
      fun hc => h.canonical (hconflict hc)⟩
  · obtain ⟨hnew', hholds, hvalid⟩ := loadEntry_eq_some he
    have hid : e.id = id := by rw [hnew']; rfl
    rw [heq]
    refine ⟨fun x hx => ?_, ?_, fun x hx => ?_, fun hc x hx => ?_⟩
    · rcases List.mem_append.mp hx with hx | hx
      · exact List.mem_cons_of_mem _ (h.seen x hx)
      · rw [List.mem_singleton.mp hx, hid]
        exact List.mem_cons_self
    · rw [List.map_append, List.nodup_append]
      refine ⟨h.distinct, List.nodup_singleton _, ?_⟩
      intro a ha b hb hab
      obtain ⟨x, hx, rfl⟩ := List.mem_map.mp ha
      rw [List.map_singleton, List.mem_singleton] at hb
      exact hnew (hid ▸ hb ▸ hab ▸ h.seen x hx)
    · rcases List.mem_append.mp hx with hx | hx
      · exact h.loaded x hx
      · obtain rfl := List.mem_singleton.mp hx
        refine ⟨⟨hid ▸ hsafe, hvalid⟩, hholds, ?_⟩
        rw [hnew']
        rfl
    · rcases List.mem_append.mp hx with hx | hx
      · exact h.canonical (hconflict hc) x hx
      · obtain rfl := List.mem_singleton.mp hx
        have hb := hcanonical hc
        rw [hnew', hb]
        exact normalize_new _ _ _ _

theorem Scanned.lines {scan : Scan} (h : Scanned store d scan) (lines : List (List Char)) :
    Scanned store d (store.scanLines d scan lines) := by
  induction lines generalizing scan with
  | nil => exact h
  | cons line lines ih =>
    rw [scanLines]
    split
    · refine ih ?_
      unfold scanLine
      split
      · exact h.fields _ _ _
      · exact h.fields _ _ _
      · exact h
    · exact h

theorem scanLines_length {scan : Scan} (h : scan.entries.length ≤ MAXIMUM_ENTRIES)
    (lines : List (List Char)) :
    (store.scanLines d scan lines).entries.length ≤ MAXIMUM_ENTRIES := by
  induction lines generalizing scan with
  | nil => exact h
  | cons line lines ih =>
    rw [scanLines]
    split
    · next hlt =>
      refine ih ?_
      have hfields : ∀ id declared rotation,
          (store.scanFields d scan id declared rotation).entries.length ≤ MAXIMUM_ENTRIES := by
        intro id declared rotation
        rcases scanFields_cases store d scan id declared rotation with
          heq | ⟨-, -, _, -, heq | ⟨_, _, e, -, -, heq⟩⟩ <;> rw [heq]
        · exact h
        · exact h
        · rw [List.length_append, List.length_singleton]
          exact hlt
      unfold scanLine
      split
      · exact hfields _ _ _
      · exact hfields _ _ _
      · exact h
    · exact h

variable (store) in
/-- **What reading a manifest returns is well formed**: at most eight entries with distinct safe ids
and valid planes that are on disk. -/
theorem readManifest_wellFormed (d : Directory) (name : FileName) :
    (store.readManifest d name).entries.length ≤ MAXIMUM_ENTRIES ∧
    ((store.readManifest d name).entries.map Entry.id).Nodup ∧
    (∀ e ∈ (store.readManifest d name).entries, Writable store e ∧ Holds d e ∧ e.rgba = none) ∧
    ((store.readManifest d name).metadataConflict = false →
      ∀ e ∈ (store.readManifest d name).entries, store.normalize e = e) := by
  have hnil : Scanned store d {} := ⟨by simp, List.nodup_nil, by simp, by simp⟩
  unfold readManifest
  split
  · exact ⟨by simp, List.nodup_nil, by simp, by simp⟩
  · next generation lines _ =>
    have hscan := hnil.lines lines
    exact ⟨scanLines_length (by simp) lines, hscan.distinct, hscan.loaded, hscan.canonical⟩

variable (store) in
theorem read_wellFormed (d : Directory) :
    (store.read d).entries.length ≤ MAXIMUM_ENTRIES ∧
    ((store.read d).entries.map Entry.id).Nodup ∧
    (∀ e ∈ (store.read d).entries, Writable store e ∧ Holds d e ∧ e.rgba = none) ∧
    ((store.read d).metadataConflict = false →
      ∀ e ∈ (store.read d).entries, store.normalize e = e) :=
  readManifest_wellFormed store d MANIFEST

theorem parseManifest_generation {bytes : Bytes} {lines : List (List Char)}
    (h : parseManifest bytes = some (g, lines)) : 0 < g ∧ IsLong g := by
  unfold parseManifest at h
  split at h
  · cases h
  · split at h
    · split at h
      · cases h
      · next generation hparse =>
        split at h
        · cases h
        · next hpos =>
          obtain ⟨rfl, -⟩ := Prod.mk.inj (Option.some.inj h)
          have hlong : IsLong generation := by
            have hfilter := (Option.filter_eq_some_iff.mp hparse).2
            simpa using hfilter
          exact ⟨by omega, hlong⟩
    · cases h

/-- A directory without a valid manifest reads as the empty catalog, whatever its planes are. -/
def Void (d : Directory) : Prop := (d.content MANIFEST).bind parseManifest = none

theorem read_void (h : Void d) : store.read d = {} := by
  rw [read, readManifest, h]

theorem readManifest_generation {name : FileName}
    (h : (store.readManifest d name).entries ≠ []) :
    0 < (store.readManifest d name).generation ∧ IsLong (store.readManifest d name).generation := by
  unfold readManifest at h ⊢
  split at h
  · exact absurd rfl h
  · next generation lines hparse =>
    obtain ⟨content, -, hcontent⟩ := Option.bind_eq_some_iff.mp hparse
    exact parseManifest_generation hcontent

theorem isLong_read (d : Directory) : IsLong (store.read d).generation := by
  unfold read readManifest
  split
  · decide
  · next generation lines hparse =>
    obtain ⟨content, -, hcontent⟩ := Option.bind_eq_some_iff.mp hparse
    exact (parseManifest_generation hcontent).2

variable (store) in
theorem read_generation_nonneg (d : Directory) : 0 ≤ (store.read d).generation := by
  unfold read readManifest
  split
  · decide
  · next generation lines hparse =>
    obtain ⟨content, -, hcontent⟩ := Option.bind_eq_some_iff.mp hparse
    exact Int.le_of_lt (parseManifest_generation hcontent).1

/-- The ids that a published manifest mentions. -/
theorem catalogIds_of_manifest (hlong : IsLong g) (hpos : 0 < g) (hw : ∀ e ∈ es, Writable store e)
    (hm : d.content MANIFEST = some (store.manifestBytes g es)) :
    catalogIds d = es.map Entry.id := by
  have hsafe : ∀ e ∈ es, safeId e.id = true := fun e he => (hw e he).safe
  unfold catalogIds mentioned
  rw [hm, Option.bind_some, parseManifest_manifestBytes hlong hsafe, if_neg (by omega)]
  dsimp only
  rw [List.map_map]
  refine List.map_congr_left fun e he => ?_
  rw [Function.comp_apply, manifestLine_fields (hsafe e he)]
  rfl

/-- A line adds no entry but the one that it begins with. -/
theorem mem_scanLine {scan : Scan} {line : List Char}
    (he : e ∈ (store.scanLine d scan line).entries) :
    e ∈ scan.entries ∨ e.id ∈ mentioned [line] := by
  have hfields : ∀ id declared rotation, (line.splitOn '\t').headD [] = id →
      e ∈ (store.scanFields d scan id declared rotation).entries →
      e ∈ scan.entries ∨ e.id ∈ mentioned [line] := by
    intro id declared rotation hid hmem
    rcases scanFields_cases store d scan id declared rotation with
      heq | ⟨-, -, _, -, heq | ⟨_, _, x, hx, -, heq⟩⟩ <;> rw [heq] at hmem
    · exact Or.inl hmem
    · exact Or.inl hmem
    · rcases List.mem_append.mp hmem with hmem | hmem
      · exact Or.inl hmem
      · obtain rfl := List.mem_singleton.mp hmem
        refine Or.inr ?_
        rw [(loadEntry_eq_some hx).1]
        simp [mentioned, ← hid, Entry.new]
  unfold scanLine at he
  split at he
  · next id declared heq => exact hfields id _ _ (by simp [heq]) he
  · next id declared rotation heq => exact hfields id _ _ (by simp [heq]) he
  · exact Or.inl he

theorem mem_scanLines {scan : Scan} {lines : List (List Char)}
    (he : e ∈ (store.scanLines d scan lines).entries) :
    e ∈ scan.entries ∨ e.id ∈ mentioned lines := by
  induction lines generalizing scan with
  | nil => exact Or.inl he
  | cons line lines ih =>
    rw [scanLines] at he
    split at he
    · rcases ih he with hline | hlines
      · refine (mem_scanLine hline).imp_right fun hmem => ?_
        rw [show line :: lines = [line] ++ lines from rfl, mentioned, List.map_append]
        exact List.mem_append_left _ hmem
      · exact Or.inr (List.mem_cons_of_mem _ hlines)
    · exact Or.inl he

/-- Every entry of the catalog is mentioned by its manifest. -/
theorem mem_catalogIds (he : e ∈ (store.read d).entries) : e.id ∈ catalogIds d := by
  unfold read readManifest at he
  split at he
  · cases he
  · next generation lines hparse =>
    have hids : catalogIds d = mentioned lines := by
      unfold catalogIds
      rw [hparse]
    rw [hids]
    exact (mem_scanLines he).resolve_left List.not_mem_nil

end EinkLab.SleepImageStore
