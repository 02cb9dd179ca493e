import EinkLab.SleepImageStore.Equiv.Settled

/-!
# What opening repairs

Without a fault and without a pending retirement, `openAndRepair` leaves a catalog in order
(`InOrder`): it keeps every entry that is no retired built-in one, evicts from the front only where
the new built-in entry needs the room, and opening again changes nothing.  The exception is a
repair of the last generation: its successor wraps to a negative number, and the manifest that is
written reads as none (`opened_inOrder_iff`).
-/

namespace EinkLab.SleepImageStore

open Text Files Transition Procedure

variable {store : SleepImageStore} {d d' d₁ : Directory} {e : Entry} {es next : List Entry}
  {s : Snapshot} {gray alpha : Bytes}

/-! ### Opening without a fault -/

/-- The result of opening, and the directory after it, when no fault is injected. -/
def opened (store : SleepImageStore) (gray alpha : Bytes) (d : Directory) :
    Option Snapshot × Directory :=
  (((store.openAndRepair (some gray) (some alpha)).run d).drive fun _ => false).2

/-- A retirement is not pending. -/
def Retired (d : Directory) : Prop :=
  d.content LEGACY_RETIRED = none ∨ d.content LEGACY_RETIRED = some RETIRED

theorem Retired.not_pending (h : Retired d) : pendingManifest d = none := by
  rcases h with h | h
  · unfold pendingManifest
    rw [h]
  · exact pendingManifest_of_retired h

theorem opens_opened (hvalid : store.validPlanes gray alpha = true)
    (hpending : pendingManifest d = none) :
    ∃ s, (store.opened gray alpha d).1 = some s ∧
      Opens store gray alpha d (store.opened gray alpha d).2 s := by
  have hquiet : ¬Faulted
      (((store.openAndRepair (some gray) (some alpha)).run d).drive fun _ => false).1 := by
    rintro ⟨x, hx, hfault⟩
    rw [Program.drive_answers _ _ x hx] at hfault
    cases hfault
  have hsat : (store.openAndRepair (some gray) (some alpha)).Sat _ _ [] d :=
    sat_openAndRepair not_faulted_nil
  have hrun := Program.replay_drive (fun _ => false)
    ((store.openAndRepair (some gray) (some alpha)).run d)
  have hends : (∀ s, (store.opened gray alpha d).1 = some s → _) ∧
      ((store.opened gray alpha d).1 = none → _) := sat_replay hsat hrun
  obtain ⟨hreturn, hthrow⟩ := hends
  rw [List.nil_append] at hreturn hthrow
  cases hresult : (store.opened gray alpha d).1 with
  | none =>
    -- opening throws for a reason only, and there is none
    rcases hthrow hresult with ⟨hplanes, -⟩ | ⟨⟨manifest, hmanifest, -⟩, -⟩ | ⟨hfaulted, -⟩
    · exact absurd hvalid hplanes
    · rw [hpending] at hmanifest
      cases hmanifest
    · exact absurd hfaulted hquiet
  | some s =>
    obtain ⟨-, gr, al, d₁, hgray, halpha, -, hrecovered, hopens⟩ := hreturn s hresult
    have hsame : d₁ = d := by
      unfold Recovered at hrecovered
      rw [hpending] at hrecovered
      exact hrecovered
    rw [← Option.some_inj.mp hgray, ← Option.some_inj.mp halpha, hsame] at hopens
    exact ⟨s, rfl, hopens⟩

/-! ### Entries that are read -/

/-- How an entry is marked built-in: the given id always is, and of the other ids only a retired one
may be. -/
structure Marked (store : SleepImageStore) (e : Entry) : Prop where
  builtIn : e.id = store.builtInId → e.builtIn = true
  retired : e.builtIn = true → e.id = store.builtInId ∨ store.isLegacyBuiltInId e.id = true

theorem marked_loadEntry {id : EntryId} {declared rotation : Bool}
    (h : store.loadEntry d id (decide (id = store.builtInId) ||
      store.isLegacyBuiltInId id && declared) rotation = some e) : Marked store e := by
  obtain ⟨hnew, -, -⟩ := loadEntry_eq_some h
  have hid : e.id = id := by rw [hnew]; rfl
  have hbuiltIn : e.builtIn =
      (decide (id = store.builtInId) || store.isLegacyBuiltInId id && declared) := by
    rw [hnew]
    rfl
  constructor
  · intro hgiven
    rw [hbuiltIn, ← hid, hgiven]
    simp
  · intro htrue
    rw [hbuiltIn, Bool.or_eq_true, Bool.and_eq_true, decide_eq_true_eq] at htrue
    rw [hid]
    exact htrue.imp_right And.left

theorem marked_scanFields {scan : Scan} (h : ∀ e ∈ scan.entries, Marked store e)
    (id declared : List Char) (rotation : Option (List Char)) :
    ∀ e ∈ (store.scanFields d scan id declared rotation).entries, Marked store e := by
  unfold scanFields
  split
  · exact h
  · split
    · exact h
    · dsimp only
      split
      · exact h
      · split
        · exact h
        · next entry hload =>
          intro e he
          rcases List.mem_append.mp he with he | he
          · exact h e he
          · rw [List.mem_singleton.mp he]
            exact marked_loadEntry hload

theorem marked_scanLines {scan : Scan} (h : ∀ e ∈ scan.entries, Marked store e)
    (lines : List (List Char)) :
    ∀ e ∈ (store.scanLines d scan lines).entries, Marked store e := by
  induction lines generalizing scan with
  | nil => exact h
  | cons line lines ih =>
    rw [scanLines]
    split
    · apply ih
      unfold scanLine
      split
      · exact marked_scanFields h _ _ _
      · exact marked_scanFields h _ _ _
      · exact h
    · exact h

theorem marked_read (d : Directory) : ∀ e ∈ (store.read d).entries, Marked store e := by
  unfold read readManifest
  split
  · exact fun e he => absurd he List.not_mem_nil
  · exact marked_scanLines (fun e he => absurd he List.not_mem_nil) _

/-- Only a retired built-in entry is published otherwise than it was read. -/
theorem normalize_of_read (he : e ∈ (store.read d).entries)
    (hretired : store.retiredBuiltIn e = false) : store.normalize e = e := by
  have hrgba : e.rgba = none := ((read_wellFormed store d).2.2.1 e he).2.2
  obtain ⟨hgiven, hmarked⟩ := marked_read d e he
  have hbuiltIn : decide (e.id = store.builtInId) = e.builtIn := by
    cases hb : e.builtIn with
    | false =>
      refine decide_eq_false fun hid => ?_
      rw [hgiven hid] at hb
      cases hb
    | true =>
      rw [retiredBuiltIn, hb, Bool.true_and] at hretired
      rcases hmarked hb with hid | hlegacy
      · exact decide_eq_true hid
      · rw [hlegacy] at hretired
        cases hretired
  have hrotates : (if e.builtIn then e.rotationEnabled else true) = e.rotationEnabled := by
    cases hb : e.builtIn with
    | false => exact (e.rotates hb).symm
    | true => rfl
  obtain ⟨id, builtIn, rotationEnabled, gray, alpha, rgba, rotates⟩ := e
  subst hrgba
  simp only [normalize, Entry.new] at hbuiltIn hrotates ⊢
  simp only [hbuiltIn, hrotates]

/-! ### A catalog in order -/

/-- The entries that every repair is to keep. -/
def lasting (store : SleepImageStore) (es : List Entry) : List Entry :=
  es.filter fun e => !store.retiredBuiltIn e

/-- What opening should establish of the catalog `s` that it returns: `d` is the directory before,
and `d'` the one after. -/
structure InOrder (store : SleepImageStore) (d : Directory) (s : Snapshot) (d' : Directory) :
    Prop where
  nonempty : 1 ≤ s.entries.length
  fits : s.entries.length ≤ MAXIMUM_ENTRIES
  safe : ∀ e ∈ s.entries, safeId e.id = true
  distinct : (s.entries.map Entry.id).Nodup
  builtIn : ∃ b ∈ s.entries, b.id = store.builtInId ∧ b.builtIn = true ∧
    ∀ e ∈ s.entries, e.id = store.builtInId ∨ e.builtIn = true → e = b
  agrees : s.metadataConflict = false
  preserved : ∃ evicted, ((store.lasting (store.read d).entries).drop evicted).Sublist s.entries ∧
    (0 < evicted → s.entries.length = MAXIMUM_ENTRIES)
  written : d' = d ∨ d'.content MANIFEST = some (store.manifestBytes s.generation s.entries)
  reads : store.read d' = s
  again : ∀ gray alpha, store.validPlanes gray alpha = true →
    store.opened gray alpha d' = (some s, d')

theorem Whole.opened_eq (hw : Whole store d) (hpending : pendingManifest d = none)
    (hvalid : store.validPlanes gray alpha = true) :
    store.opened gray alpha d = (some (store.read d), d) := by
  obtain ⟨s, hresult, hopens⟩ := opens_opened hvalid hpending
  cases hopens with
  | asIs _ _ _ hs hd =>
    rw [hs] at hresult
    exact Prod.ext hresult hd
  | repaired next _ hbad =>
    rcases hbad with hconflict | hmissing
    · rw [hw.agrees] at hconflict
      cases hconflict
    · exact absurd hw.builtIn hmissing
  | first _ hempty => exact absurd hempty hw.nonempty

/-- One entry of distinct ids has the given one, and among canonical entries only that is marked. -/
theorem exists_builtIn (hdistinct : (es.map Entry.id).Nodup)
    (hcanonical : ∀ e ∈ es, store.normalize e = e)
    (hb : store.builtInId ∈ es.map Entry.id) :
    ∃ b ∈ es, b.id = store.builtInId ∧ b.builtIn = true ∧
      ∀ e ∈ es, e.id = store.builtInId ∨ e.builtIn = true → e = b := by
  obtain ⟨b, hmem, hid⟩ := List.mem_map.mp hb
  have hmarked : ∀ e ∈ es, e.builtIn = decide (e.id = store.builtInId) := fun e he =>
    (congrArg Entry.builtIn (hcanonical e he)).symm
  refine ⟨b, hmem, hid, ?_, fun e he h => ?_⟩
  · rw [hmarked b hmem, hid]
    exact decide_eq_true rfl
  · have heid : e.id = store.builtInId := by
      rcases h with h | h
      · exact h
      · rw [hmarked e he] at h
        exact of_decide_eq_true h
    exact List.inj_on_of_nodup_map hdistinct he hmem (heid.trans hid.symm)

/-- Without a repair the catalog was in order. -/
theorem inOrder_of_whole (hw : Whole store d) (hpending : pendingManifest d = none) :
    InOrder store d (store.read d) d := by
  obtain ⟨hfits, hdistinct, hloaded, hcanonical⟩ := read_wellFormed store d
  refine ⟨List.length_pos_iff.mpr hw.nonempty, hfits, fun e he => (hloaded e he).1.safe, hdistinct,
    exists_builtIn hdistinct (hcanonical hw.agrees) hw.builtIn, hw.agrees, ⟨0, ?_, ?_⟩, Or.inl rfl,
    rfl, fun gray alpha hvalid => hw.opened_eq hpending hvalid⟩
  · exact List.filter_sublist
  · exact fun h => absurd h (Nat.lt_irrefl 0)

theorem manifestLine_normalize (e : Entry) :
    store.manifestLine (store.normalize e) = store.manifestLine e := by
  by_cases hb : e.id = store.builtInId
  · simp [manifestLine, normalize, Entry.new, hb]
  · simp [manifestLine, normalize, Entry.new, hb]

theorem manifestBytes_normalize (g : Int) (es : List Entry) :
    store.manifestBytes g (es.map store.normalize) = store.manifestBytes g es := by
  rw [manifestBytes, manifestBytes, List.map_map]
  congr 3
  exact List.map_congr_left fun e _ => manifestLine_normalize e

theorem normalize_normalize (e : Entry) : store.normalize (store.normalize e) = store.normalize e :=
  normalize_new e.id e.rotationEnabled e.gray e.alpha

/-- A catalog that was published under a positive generation is in order. -/
theorem inOrder_of_committed {retireLegacy : Bool} {g : Int}
    (hcommitted : Committed store retireLegacy g next d d' s) (hp : Publishable store next)
    (hlong : IsLong g) (hpos : 0 < g) (hretired : Retired d)
    (hb : store.builtInId ∈ next.map Entry.id)
    (hpreserved : ∃ evicted, ((store.lasting (store.read d).entries).drop evicted).Sublist
      (next.map store.normalize) ∧ (0 < evicted → next.length = MAXIMUM_ENTRIES)) :
    InOrder store d s d' := by
  have hread := hcommitted.read hp hlong hpos
  have hs : s = ⟨g, next.map store.normalize, false⟩ := hcommitted.snapshot_eq.trans hread
  have hids : (next.map store.normalize).map Entry.id = next.map Entry.id := by
    rw [List.map_map]
    rfl
  have hpending : pendingManifest d' = none := by
    have hmarker := hcommitted.marker
    cases retireLegacy with
    | true => exact pendingManifest_of_retired hmarker
    | false => exact (pendingManifest_congr hmarker).trans hretired.not_pending
  have hwhole : Whole store d' := by
    refine ⟨?_, ?_, ?_⟩
    · rw [hread]
      simpa using hp.nonempty
    · rw [hread]
    · rw [hread, hids]
      exact hb
  have hcanonical : ∀ e ∈ next.map store.normalize, store.normalize e = e := by
    intro e he
    obtain ⟨x, -, rfl⟩ := List.mem_map.mp he
    exact normalize_normalize x
  rw [hs]
  refine ⟨?_, ?_, ?_, ?_, ?_, rfl, ?_, ?_, hread, ?_⟩
  · rw [List.length_map]
    exact List.length_pos_iff.mpr hp.nonempty
  · rw [List.length_map]
    exact hp.fits
  · intro e he
    obtain ⟨x, hx, rfl⟩ := List.mem_map.mp he
    exact (hp.writable x hx).safe
  · rw [hids]
    exact hp.distinct
  · exact exists_builtIn (hids ▸ hp.distinct) hcanonical (hids ▸ hb)
  · obtain ⟨evicted, hsub, hfull⟩ := hpreserved
    exact ⟨evicted, hsub, fun h => (List.length_map _).trans (hfull h)⟩
  · right
    rw [manifestBytes_normalize]
    exact hcommitted.manifest
  · intro gray alpha hvalid
    rw [hwhole.opened_eq hpending hvalid, hread]

/-! ### What a repair keeps -/

theorem lasting_keptEntries (es : List Entry) : store.lasting (store.keptEntries es) =
    store.lasting es := by
  induction es with
  | nil => rfl
  | cons e es ih =>
    unfold keptEntries lasting at ih ⊢
    cases hretired : store.retiredBuiltIn e with
    | true =>
      rw [List.eraseP_cons_of_pos hretired, List.filter_cons_of_neg (by simp [hretired])]
    | false =>
      rw [List.eraseP_cons_of_neg (by simp [hretired]),
        List.filter_cons_of_pos (by simp [hretired]),
        List.filter_cons_of_pos (by simp [hretired]), ih]

/-- The lasting entries of a part of the catalog are published as they were read. -/
theorem lasting_sublist_normalize (hsub : es.Sublist (store.read d).entries) :
    (store.lasting es).Sublist (es.map store.normalize) := by
  have hsame : (store.lasting es).map store.normalize = store.lasting es := by
    conv_rhs => rw [← List.map_id (store.lasting es)]
    apply List.map_congr_left
    intro e he
    obtain ⟨hmem, hkept⟩ := List.mem_filter.mp he
    exact normalize_of_read (hsub.subset hmem) (by simpa using hkept)
  rw [← hsame]
  exact List.filter_sublist.map store.normalize

/-- Making room takes at most the first entry, and that only from a full catalog. -/
theorem makeRoom_of_missing (hb : store.builtInId ∉ es.map Entry.id) :
    Catalog.makeRoom Entry.id store.builtInId MAXIMUM_ENTRIES es = es ∧
        es.length < MAXIMUM_ENTRIES ∨
      Catalog.makeRoom Entry.id store.builtInId MAXIMUM_ENTRIES es = es.tail ∧
        MAXIMUM_ENTRIES ≤ es.length := by
  unfold Catalog.makeRoom
  split
  · next hfew => exact Or.inl ⟨rfl, hfew⟩
  · next hfull =>
    refine Or.inr ⟨?_, Nat.le_of_not_lt hfull⟩
    cases es with
    | nil => rfl
    | cons e es =>
      have hne : e.id ≠ store.builtInId := fun h =>
        hb (by rw [List.map_cons, h]; exact List.mem_cons_self)
      rw [List.eraseP_cons_of_pos (by simpa using hne), List.tail_cons]

/-- The entries kept by a repair without the built-in entry: all but at most the first. -/
theorem preserved_makeRoom (hmissing : store.builtInId ∉ (store.read d).entries.map Entry.id)
    (rotation : Bool) :
    ∃ evicted, ((store.lasting (store.read d).entries).drop evicted).Sublist
        ((store.builtInEntry rotation gray alpha ::
          Catalog.makeRoom Entry.id store.builtInId MAXIMUM_ENTRIES
            (store.keptEntries (store.read d).entries)).map store.normalize) ∧
      (0 < evicted → (store.builtInEntry rotation gray alpha ::
        Catalog.makeRoom Entry.id store.builtInId MAXIMUM_ENTRIES
          (store.keptEntries (store.read d).entries)).length = MAXIMUM_ENTRIES) := by
  obtain ⟨hfits, -⟩ := read_wellFormed store d
  have hkept : (store.keptEntries (store.read d).entries).Sublist (store.read d).entries :=
    keptEntries_sublist
  have hlasting : store.lasting (store.keptEntries (store.read d).entries) = _ :=
    lasting_keptEntries (store.read d).entries
  generalize store.keptEntries (store.read d).entries = kept at hkept hlasting
  have hb : store.builtInId ∉ kept.map Entry.id := fun h => hmissing ((hkept.map Entry.id).subset h)
  rcases makeRoom_of_missing hb with ⟨hroom, -⟩ | ⟨hroom, hfull⟩
  · refine ⟨0, ?_, fun h => absurd h (Nat.lt_irrefl 0)⟩
    rw [hroom, ← hlasting, List.drop_zero, List.map_cons]
    exact (lasting_sublist_normalize hkept).cons _
  · rw [hroom, ← hlasting]
    have hlength : (store.builtInEntry rotation gray alpha :: kept.tail).length =
      MAXIMUM_ENTRIES := by
      have hle := Nat.le_trans hkept.length_le hfits
      unfold MAXIMUM_ENTRIES at hfull hle ⊢
      rw [List.length_cons, List.length_tail]
      omega
    have htail : (store.lasting kept.tail).Sublist (kept.tail.map store.normalize) :=
      lasting_sublist_normalize ((List.tail_sublist kept).trans hkept)
    cases kept with
    | nil => exact absurd hfull (by decide)
    | cons e rest =>
      rw [List.tail_cons] at htail hlength ⊢
      unfold lasting at htail ⊢
      cases hretired : store.retiredBuiltIn e with
      | true =>
        refine ⟨0, ?_, fun h => absurd h (Nat.lt_irrefl 0)⟩
        rw [List.filter_cons_of_neg (by simp [hretired]), List.drop_zero, List.map_cons]
        exact htail.cons _
      | false =>
        refine ⟨1, ?_, fun _ => hlength⟩
        rw [List.filter_cons_of_pos (by simp [hretired]), List.drop_succ_cons, List.drop_zero,
          List.map_cons]
        exact htail.cons _

/-! ### Opening -/

theorem longSucc_pos {n : Int} (hnonneg : 0 ≤ n) (hlong : IsLong n) :
    0 < longSucc n ↔ n < longMax := by
  unfold IsLong at hlong
  unfold longSucc longMax longMin at *
  split
  · next h => omega
  · next h => omega

/-- A commit whose generation has wrapped leaves no catalog. -/
theorem not_inOrder_of_wrapped {retireLegacy : Bool} {g : Int}
    (hcommitted : Committed store retireLegacy g next d d' s) (hp : Publishable store next)
    (hlong : IsLong g) (hneg : ¬0 < g) : ¬InOrder store d s d' := by
  intro horder
  have hvoid := hcommitted.void hp hlong (by omega)
  have hempty : s = {} := hcommitted.snapshot_eq.trans (read_void hvoid)
  have hcount := horder.nonempty
  rw [hempty] at hcount
  exact absurd hcount (by decide)

/-- **Opening** puts the catalog in order exactly when there is nothing to repair or a generation is
left for the repair. -/
theorem opened_inOrder_iff (hvalid : store.validPlanes gray alpha = true) (hretired : Retired d) :
    (∃ s, (store.opened gray alpha d).1 = some s ∧
      InOrder store d s (store.opened gray alpha d).2) ↔
      Whole store d ∨ (store.read d).generation < longMax := by
  obtain ⟨s, hresult, hopens⟩ := opens_opened hvalid hretired.not_pending
  have hlong : IsLong (store.read d).generation := isLong_read d
  have hnonneg := read_generation_nonneg store d
  have hone : (∃ s', (store.opened gray alpha d).1 = some s' ∧
      InOrder store d s' (store.opened gray alpha d).2) ↔
        InOrder store d s (store.opened gray alpha d).2 := by
    rw [hresult]
    constructor
    · rintro ⟨s', hs, horder⟩
      rwa [Option.some_inj.mp hs]
    · exact fun horder => ⟨s, rfl, horder⟩
  rw [hone]
  cases hopens with
  | asIs hne hagrees hbuiltIn hs hd =>
    have hwhole : Whole store d := ⟨hne, hagrees, hbuiltIn⟩
    rw [hs, hd]
    exact iff_of_true (inOrder_of_whole hwhole hretired.not_pending) (Or.inl hwhole)
  | repaired next hne hbad hnext hp hcommitted =>
    have hnot : ¬Whole store d := by
      rintro ⟨-, hagrees, hbuiltIn⟩
      rcases hbad with hconflict | hmissing
      · rw [hagrees] at hconflict
        cases hconflict
      · exact hmissing hbuiltIn
    have hsucc := isLong_longSucc hlong
    rw [or_iff_right hnot, ← longSucc_pos hnonneg hlong]
    refine ⟨fun horder => ?_, fun hpos => ?_⟩
    · by_contra hneg
      exact not_inOrder_of_wrapped hcommitted hp hsucc hneg horder
    · obtain ⟨hfits, hdistinct, -⟩ := read_wellFormed store d
      obtain ⟨rotation, heq⟩ := repairedEntries_eq store gray alpha hfits hdistinct
      have hentries := Option.some.inj (hnext.symm.trans heq)
      by_cases hb : store.builtInId ∈ (store.read d).entries.map Entry.id
      · -- the metadata disagrees: the kept entries are published again
        rw [if_pos hb] at hentries
        rw [hentries] at hcommitted hp
        refine inOrder_of_committed hcommitted hp hsucc hpos hretired
          (builtInId_mem_keptEntries.mpr hb) ⟨0, ?_, fun h => absurd h (Nat.lt_irrefl 0)⟩
        rw [List.drop_zero, ← lasting_keptEntries]
        exact lasting_sublist_normalize keptEntries_sublist
      · rw [if_neg hb] at hentries
        rw [hentries] at hcommitted hp
        refine inOrder_of_committed hcommitted hp hsucc hpos hretired ?_
          (preserved_makeRoom hb rotation)
        rw [List.map_cons]
        exact List.mem_cons_self
  | first retireLegacy hempty hp hcommitted =>
    have hnot : ¬Whole store d := fun hwhole => hwhole.nonempty hempty
    have hmax : max 0 (store.read d).generation = (store.read d).generation := by omega
    rw [hmax] at hcommitted
    have hsucc := isLong_longSucc hlong
    rw [or_iff_right hnot, ← longSucc_pos hnonneg hlong]
    refine ⟨fun horder => ?_, fun hpos => ?_⟩
    · by_contra hneg
      exact not_inOrder_of_wrapped hcommitted hp hsucc hneg horder
    · obtain ⟨legacy, -, heq⟩ := migratedEntries_eq store d gray alpha
      refine inOrder_of_committed hcommitted hp hsucc hpos hretired ?_
        ⟨0, ?_, fun h => absurd h (Nat.lt_irrefl 0)⟩
      · rw [heq, List.map_cons]
        exact List.mem_cons_self
      · rw [hempty]
        exact List.nil_sublist _

/-- One image is listed twice, the planes of another are lost, one line is no entry, and the
built-in image is that of an earlier release. -/
def damagedManifest : List (List Char) :=
  ["generation=41", "photo\t0", "ghost\t0\t1", "photo\t0\t1", "no entry", "painting\t0\t1",
    "built-in-fallback-aura-c-v1\t1\t0"].map String.toList

def damagedPixel : Directory :=
  ["photo".toList, "painting".toList, BUILT_IN_ID_AURA_C_V1].foldl
    (fun d id => (d.write (grayFile id) [0x20]).write (alphaFile id) [0xff])
    (Directory.empty.write MANIFEST (encodeUtf8 (joinLines damagedManifest)))

/-- The new built-in image takes the place of the old one and its rotation. -/
theorem opened_inOrder_damaged :
    ∃ s, (pixelStore.opened [0xf0] [0xff] damagedPixel).1 = some s ∧
      InOrder pixelStore damagedPixel s (pixelStore.opened [0xf0] [0xff] damagedPixel).2 ∧
      s.generation = 42 ∧ s.entries.map (fun e => (e.id, e.rotationEnabled)) =
        [(pixelStore.builtInId, false), ("photo".toList, true), ("painting".toList, true)] := by
  have hleft : (pixelStore.read damagedPixel).generation < longMax := by
    decide +kernel
  have hvalid : pixelStore.validPlanes [0xf0] [0xff] = true := by decide
  obtain ⟨s, hs, horder⟩ :=
    (opened_inOrder_iff hvalid (Or.inl (by decide +kernel))).mpr (Or.inr hleft)
  have hsnapshot : ((pixelStore.opened [0xf0] [0xff] damagedPixel).1.map fun s =>
      (s.generation, s.entries.map fun e => (e.id, e.rotationEnabled))) = some (42,
        [(pixelStore.builtInId, false), ("photo".toList, true), ("painting".toList, true)]) := by
    decide +kernel
  rw [hs, Option.map_some] at hsnapshot
  obtain ⟨hgeneration, hentries⟩ := Prod.mk.inj (Option.some.inj hsnapshot)
  exact ⟨s, hs, horder, hgeneration, hentries⟩

/-- The last generation, with no entry left. -/
def exhausted : Directory := Directory.empty.write MANIFEST (pixelStore.manifestBytes longMax [])

theorem read_exhausted : pixelStore.read exhausted = ⟨longMax, [], false⟩ := by
  have hparse : parseManifest (pixelStore.manifestBytes longMax []) = some (longMax, []) := by
    rw [parseManifest_manifestBytes (by decide) fun e he => absurd he List.not_mem_nil,
      if_neg (by decide)]
    rfl
  rw [read, readManifest, exhausted, Directory.content_write, Option.bind_some, hparse]
  rfl

theorem not_forall_opened_inOrder :
    ¬∀ (store : SleepImageStore) (d : Directory) (gray alpha : Bytes),
      store.validPlanes gray alpha = true → Retired d →
        ∃ s, (store.opened gray alpha d).1 = some s ∧
          InOrder store d s (store.opened gray alpha d).2 := by
  intro h
  have hvalid : pixelStore.validPlanes [0xf0] [0xff] = true := by decide
  have hmarker : exhausted.content LEGACY_RETIRED = none := by
    rw [exhausted, Directory.content_write_ne (by decide), Directory.content_empty]
  have horder := h pixelStore exhausted [0xf0] [0xff] hvalid (Or.inl hmarker)
  rcases (opened_inOrder_iff hvalid (Or.inl hmarker)).mp horder with hwhole | hlast
  · exact hwhole.nonempty (by rw [read_exhausted])
  · rw [read_exhausted] at hlast
    exact absurd hlast (by decide)

end EinkLab.SleepImageStore
