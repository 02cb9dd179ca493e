import EinkLab.SleepImageStore.Equiv.Mutations

/-!
# Opening the store

`openAndRepair` first completes a pending retirement (`Recovered`), and then returns the catalog as
it is, repairs it, or makes the first one (`Opens`).  It throws only on planes it does not accept,
on a pending retirement that cannot be completed, or on a fault (`Throws`): `sat_openAndRepair`.
-/

namespace EinkLab.SleepImageStore

open Text Files Transition Procedure

variable {store : SleepImageStore} {d d' d₁ : Directory} {id : EntryId} {e : Entry}
  {es next : List Entry} {g : Int} {h : List FaultEvent} {new : EntryId → Prop} {manifest : Bytes}

/-! ### The pending marker -/

theorem content_of_pendingManifest (h : pendingManifest d = some manifest) :
    d.content LEGACY_RETIRED = some (PENDING ++ manifest) := by
  unfold pendingManifest at h
  split at h
  · cases h
  · next content hcontent =>
    split at h
    · cases h
    · split at h
      · next hpre =>
        obtain ⟨rest, rfl⟩ := List.isPrefixOf_iff_prefix.mp hpre
        rw [List.drop_left] at h
        rw [hcontent, Option.some.inj h]
      · cases h

theorem pendingManifest_congr (h : d'.content LEGACY_RETIRED = d.content LEGACY_RETIRED) :
    pendingManifest d' = pendingManifest d := by
  simp only [pendingManifest, h]

theorem pendingManifest_of_retired (h : d.content LEGACY_RETIRED = some RETIRED) :
    pendingManifest d = none := by
  have hlen : RETIRED.length ≤ PENDING.length := by decide
  simp only [pendingManifest, h]
  rw [if_pos (Or.inl hlen)]

/-- What a completed pending retirement leaves: the pending manifest is published unless the catalog
is already past it. -/
structure Completed (store : SleepImageStore) (pending : Snapshot) (d d' : Directory) : Prop where
  nonempty : pending.entries ≠ []
  agrees : pending.metadataConflict = false
  planes : ∀ p id, d'.content (planeFile p id) = d.content (planeFile p id)
  manifest : d'.content MANIFEST =
    if (store.read d).entries = [] ∨ (store.read d).generation ≤ pending.generation
    then some (store.manifestBytes pending.generation pending.entries) else d.content MANIFEST
  marker : d'.content LEGACY_RETIRED = some RETIRED

/-- The snapshot that a pending manifest stands for. -/
def pendingSnapshot (store : SleepImageStore) (d : Directory) (manifest : Bytes) : Snapshot :=
  store.readManifest (d.write RECOVERY manifest) RECOVERY

/-- A pending retirement, if there is one, was completed. -/
def Recovered (store : SleepImageStore) (d d' : Directory) : Prop :=
  match pendingManifest d with
  | none => d' = d
  | some manifest => Completed store (store.pendingSnapshot d manifest) d d'

theorem Recovered.pending (hr : Recovered store d d') : pendingManifest d' = none := by
  unfold Recovered at hr
  split at hr
  · next hnone => rwa [hr]
  · exact pendingManifest_of_retired hr.marker

/-- The pending manifest is not usable. -/
def Unrecoverable (store : SleepImageStore) (d : Directory) : Prop :=
  ∃ manifest, pendingManifest d = some manifest ∧
    ((store.pendingSnapshot d manifest).entries = [] ∨
      (store.pendingSnapshot d manifest).metadataConflict = true)

theorem head_RECOVERY : RECOVERY.head? = some '.' := rfl

theorem frame_recovery : Frame (fun _ => False) d
    ((d.write RECOVERY manifest).delete RECOVERY) := by
  intro name hdot _
  have hne : name ≠ RECOVERY := fun h => hdot (h ▸ head_RECOVERY)
  rw [Directory.content_delete_ne hne, Directory.content_write_ne hne]

theorem frame_read (hm : Frame new d d') (hnew : ∀ id ∈ catalogIds d, ¬ new id) :
    store.read d' = store.read d :=
  read_congr hm.manifest fun id hid => ⟨hm.plane (hnew id hid) .gray, hm.plane (hnew id hid) .alpha⟩

/-- Completing a pending retirement meets no fault point. -/
theorem sat_recoverPendingLegacyRetirement :
    store.recoverPendingLegacyRetirement.Sat
      (fun h' d' => h' = h ∧ Unrecoverable store d ∧ Frame (fun _ => False) d d')
      (fun _ h' d' => h' = h ∧ Recovered store d d') h d := by
  unfold recoverPendingLegacyRetirement Recovered
  rw [sat_bind, sat_get]
  cases hpending : pendingManifest d with
  | none => exact ⟨rfl, rfl⟩
  | some manifest =>
    rw [sat_bind, sat_modify, sat_bind, sat_get]
    rw [sat_bind, sat_modify, sat_bind, sat_refuseIf]
    rw [show store.readManifest (d.write RECOVERY manifest) RECOVERY =
      store.pendingSnapshot d manifest from rfl]
    have hframe : Frame (fun _ => False) d ((d.write RECOVERY manifest).delete RECOVERY) :=
      frame_recovery
    generalize (d.write RECOVERY manifest).delete RECOVERY = d₁ at hframe
    have hread : store.read d₁ = store.read d := frame_read hframe fun _ _ hid => hid
    refine ⟨fun hbad => ⟨rfl, ⟨manifest, hpending, ?_⟩, hframe⟩, fun hgood => ?_⟩
    · -- a pending manifest that cannot be used is given up
      rw [Bool.or_eq_true, List.isEmpty_iff] at hbad
      exact hbad
    · rw [Bool.or_eq_false_iff, List.isEmpty_eq_false_iff] at hgood
      rw [sat_bind, sat_get]
      dsimp only
      rw [hread, sat_bind, onlyIf, sat_ite]
      have hpublish : Placed MANIFEST (store.manifestBytes
          (store.pendingSnapshot d manifest).generation
          (store.pendingSnapshot d manifest).entries) d₁
          (store.publishManifest (store.pendingSnapshot d manifest).generation
            (store.pendingSnapshot d manifest).entries d₁) := placed_publishManifest
      refine ⟨fun hpast => ⟨rfl, hgood.1, hgood.2, fun p id => ?_, ?_, ?_⟩,
        fun hpast => ⟨rfl, hgood.1, hgood.2, fun p id => ?_, ?_, ?_⟩⟩
      · rw [completeLegacyRetirement_planes]
        exact (hpublish.planes (c := 'c') rfl (by decide) p id).trans
          (hframe.plane (fun hid => hid) p)
      · rw [content_completeLegacyRetirement (by decide) (by decide), if_neg (by decide),
          hpublish.content (by decide), if_pos (by simpa using hpast)]
      · rw [content_completeLegacyRetirement (by decide) (by decide), if_pos rfl]
      · rw [completeLegacyRetirement_planes]
        exact hframe.plane (fun hid => hid) p
      · rw [content_completeLegacyRetirement (by decide) (by decide), if_neg (by decide),
          if_neg (by simpa using hpast), hframe.manifest]
      · rw [content_completeLegacyRetirement (by decide) (by decide), if_pos rfl]

/-! ### The entries of a repair -/

/-- The built-in entry with the given planes. -/
def builtInEntry (store : SleepImageStore) (rotation : Bool) (gray alpha : Bytes) : Entry :=
  Entry.new store.builtInId true rotation gray alpha

theorem findBuiltIn_isSome : (store.findBuiltIn es).isSome = true ↔
    store.builtInId ∈ es.map Entry.id := by
  rw [findBuiltIn, List.findIdx?_isSome, List.any_eq_true, List.mem_map]
  simp only [decide_eq_true_eq]

/-- An entry of a retired built-in id. -/
def retiredBuiltIn (store : SleepImageStore) (e : Entry) : Bool :=
  e.builtIn && store.isLegacyBuiltInId e.id

/-- The entries that a repair keeps. -/
def keptEntries (store : SleepImageStore) (es : List Entry) : List Entry :=
  es.eraseP store.retiredBuiltIn

theorem keptEntries_sublist : (store.keptEntries es).Sublist es := List.eraseP_sublist

theorem eraseFound_findLegacyBuiltIn :
    eraseFound es (store.findLegacyBuiltIn es) = store.keptEntries es := by
  rw [keptEntries, List.eraseP_eq_eraseIdx, findLegacyBuiltIn]
  unfold eraseFound retiredBuiltIn
  rfl

theorem builtInId_mem_keptEntries :
    store.builtInId ∈ (store.keptEntries es).map Entry.id ↔ store.builtInId ∈ es.map Entry.id := by
  constructor
  · exact fun h => (keptEntries_sublist.map Entry.id).subset h
  · intro h
    obtain ⟨e, he, hid⟩ := List.mem_map.mp h
    refine List.mem_map.mpr ⟨e, (List.mem_eraseP_of_neg ?_).mpr he, hid⟩
    rw [retiredBuiltIn, hid, isLegacyBuiltInId_builtInId]
    simp

variable (store) in
/-- A repair keeps entries of the catalog, and puts the built-in one in front if it is missing. -/
theorem repairedEntries_eq (gray alpha : Bytes) (hfits : es.length ≤ MAXIMUM_ENTRIES)
    (hdistinct : (es.map Entry.id).Nodup) :
    ∃ rotation, store.repairedEntries es gray alpha =
      some (if store.builtInId ∈ es.map Entry.id then store.keptEntries es
        else store.builtInEntry rotation gray alpha ::
          Catalog.makeRoom Entry.id store.builtInId MAXIMUM_ENTRIES (store.keptEntries es)) := by
  refine ⟨((store.findLegacyBuiltIn es).bind (es[·]?)).all Entry.rotationEnabled, ?_⟩
  have hsub : (store.keptEntries es).Sublist es := keptEntries_sublist
  unfold repairedEntries
  dsimp only
  rw [eraseFound_findLegacyBuiltIn]
  have hfits' : (store.keptEntries es).length ≤ MAXIMUM_ENTRIES := Nat.le_trans hsub.length_le hfits
  by_cases hb : store.builtInId ∈ es.map Entry.id
  · rw [if_pos (findBuiltIn_isSome.mpr (builtInId_mem_keptEntries.mpr hb)), if_pos hb]
  · have hb' : ¬ (store.findBuiltIn (store.keptEntries es)).isSome = true := fun h =>
      hb (builtInId_mem_keptEntries.mp (findBuiltIn_isSome.mp h))
    rw [if_neg hb', if_neg hb]
    have hsome : (store.makeRoom (store.keptEntries es)).isSome = true :=
      makeRoom_isSome (hdistinct.sublist (hsub.map Entry.id)) hfits'
    obtain ⟨room, hroom⟩ := Option.isSome_iff_exists.mp hsome
    rw [hroom, makeRoom_eq hfits' hroom]
    rfl

theorem writable_builtInEntry {rotation : Bool} {gray alpha : Bytes}
    (hvalid : store.validPlanes gray alpha = true) :
    Writable store (store.builtInEntry rotation gray alpha) :=
  ⟨store.builtInId_safe, hvalid⟩

/-! ### The entries of the first catalog -/

def legacyId (n : Nat) : EntryId := "legacy-".toList ++ Nat.toDigits 10 n

theorem legacyId_injective {m n : Nat} (h : legacyId m = legacyId n) : m = n := by
  have hdigits : Nat.toDigits 10 m = Nat.toDigits 10 n := List.append_cancel_left h
  calc
    m = Nat.ofDigitChars 10 (Nat.toDigits 10 m) 0 := Nat.ofDigitChars_ten_toDigits.symm
    _ = Nat.ofDigitChars 10 (Nat.toDigits 10 n) 0 := by rw [hdigits]
    _ = n := Nat.ofDigitChars_ten_toDigits

theorem safeId_legacyId {n : Nat} (hn : n < MAXIMUM_ENTRIES) : safeId (legacyId n) = true := by
  have hall : ∀ n < MAXIMUM_ENTRIES, safeId (legacyId n) = true := by decide
  exact hall n hn

/-- The entries of the retired format so far: the next ids in turn. -/
structure LegacyEntries (store : SleepImageStore) (es : List Entry) : Prop where
  few : es.length < MAXIMUM_ENTRIES
  ids : es.map Entry.id = (List.range es.length).map legacyId
  writable : ∀ e ∈ es, Writable store e
  plain : ∀ e ∈ es, e.rgba = none

theorem LegacyEntries.add (hl : LegacyEntries store es) (d : Directory) (name : FileName) :
    LegacyEntries store (store.addLegacyEntry d es name) := by
  unfold addLegacyEntry
  split
  · exact hl
  · next hfew =>
    dsimp only
    split
    · next gray alpha _ _ =>
      split
      · next hvalid =>
        have hfew' : es.length + 1 < MAXIMUM_ENTRIES := by
          unfold MAXIMUM_ENTRIES at hfew ⊢
          omega
        refine ⟨by simpa using hfew', ?_, fun e he => ?_, fun e he => ?_⟩
        · rw [List.length_append, List.length_singleton, List.range_succ, List.map_append,
            List.map_append, hl.ids]
          rfl
        · rcases List.mem_append.mp he with he | he
          · exact hl.writable e he
          · rw [List.mem_singleton.mp he]
            exact ⟨safeId_legacyId hl.few, hvalid⟩
        · rcases List.mem_append.mp he with he | he
          · exact hl.plain e he
          · rw [List.mem_singleton.mp he]
            rfl
      · exact hl
    · exact hl

theorem legacyEntries_foldl (hl : LegacyEntries store es) (d : Directory) (names : List FileName) :
    LegacyEntries store (names.foldl (store.addLegacyEntry d) es) := by
  induction names generalizing es with
  | nil => exact hl
  | cons name names ih => exact ih (hl.add d name)

theorem legacyEntries_legacyEntries (d : Directory) : LegacyEntries store (store.legacyEntries d) :=
  legacyEntries_foldl ⟨by decide, rfl, by simp, by simp⟩ d _

variable (store) in
/-- The first catalog has the built-in entry in front of the retired format's. -/
theorem migratedEntries_eq (d : Directory) (gray alpha : Bytes) :
    ∃ legacy, LegacyEntries store legacy ∧
      store.migratedEntries d gray alpha = store.builtInEntry true gray alpha :: legacy := by
  have hlegacy : LegacyEntries store (if isLegacyRetired d then [] else store.legacyEntries d) := by
    split
    · exact ⟨by decide, rfl, by simp, by simp⟩
    · exact legacyEntries_legacyEntries d
  refine ⟨_, hlegacy, ?_⟩
  unfold migratedEntries
  dsimp only
  rw [if_pos hlegacy.few]
  rfl

theorem publishable_migratedEntries {gray alpha : Bytes}
    (hvalid : store.validPlanes gray alpha = true) :
    Publishable store (store.migratedEntries d gray alpha) := by
  obtain ⟨legacy, hl, heq⟩ := migratedEntries_eq store d gray alpha
  have hfew := hl.few
  rw [heq]
  refine ⟨by simp, hfew, fun e he => ?_, ?_⟩
  · rcases List.mem_cons.mp he with rfl | he
    · exact writable_builtInEntry hvalid
    · exact hl.writable e he
  · rw [List.map_cons, hl.ids, List.nodup_cons]
    refine ⟨fun hmem => ?_, List.nodup_range.map fun m n => legacyId_injective⟩
    obtain ⟨n, -, hn⟩ := List.mem_map.mp hmem
    exact builtInId_ne_of_head (c := 'l') (by decide) _ hn

/-! ### Opening -/

/-- How opening ends well; `d₁` is the directory after the recovery. -/
inductive Opens (store : SleepImageStore) (gray alpha : Bytes) (d₁ d' : Directory) (s : Snapshot) :
    Prop
  | asIs (hne : (store.read d₁).entries ≠ []) (hagrees : (store.read d₁).metadataConflict = false)
      (hbuiltIn : store.builtInId ∈ (store.read d₁).entries.map Entry.id)
      (hsnapshot : s = store.read d₁) (hdirectory : d' = d₁)
  | repaired (next : List Entry) (hne : (store.read d₁).entries ≠ [])
      (hbad : (store.read d₁).metadataConflict = true ∨
        store.builtInId ∉ (store.read d₁).entries.map Entry.id)
      (hnext : store.repairedEntries (store.read d₁).entries gray alpha = some next)
      (hpublishable : Publishable store next)
      (hcommitted : Committed store false (longSucc (store.read d₁).generation) next d₁ d' s)
  | first (retireLegacy : Bool) (hempty : (store.read d₁).entries = [])
      (hpublishable : Publishable store (store.migratedEntries d₁ gray alpha))
      (hcommitted : Committed store retireLegacy (longSucc (max 0 (store.read d₁).generation))
        (store.migratedEntries d₁ gray alpha) d₁ d' s)

/-- How a fault ends opening. -/
inductive Aborts (store : SleepImageStore) (gray alpha : Bytes) (d₁ d' : Directory) : Prop
  | repair (new : EntryId → Prop) (hne : (store.read d₁).entries ≠ [])
      (hnew : ∀ id, new id → id = store.builtInId ∧ id ∉ (store.read d₁).entries.map Entry.id)
      (hframe : Frame new d₁ d')
  | first (retireLegacy : Bool) (hempty : (store.read d₁).entries = [])
      (hpublishable : Publishable store (store.migratedEntries d₁ gray alpha))
      (haborted : Aborted store (fun _ => True) retireLegacy
        (longSucc (max 0 (store.read d₁).generation)) (store.migratedEntries d₁ gray alpha) d₁ d')

/-- The fallback planes are accepted. -/
def AcceptsPlanes (store : SleepImageStore) : Option Bytes → Option Bytes → Prop
  | some gray, some alpha => store.validPlanes gray alpha = true
  | _, _ => False

/-- Why opening throws, and what it leaves behind. -/
def Throws (store : SleepImageStore) (gray alpha : Option Bytes) (d : Directory) :
    Assertion FaultPoint (fun _ => Bool) Directory := fun h' d' =>
  (¬ AcceptsPlanes store gray alpha ∧ d' = d) ∨
  (Unrecoverable store d ∧ Frame (fun _ => False) d d') ∨
  (Faulted h' ∧ ∃ gr al d₁, store.validPlanes gr al = true ∧ Recovered store d d₁ ∧
    Aborts store gr al d₁ d')

theorem isLong_max_zero {n : Int} (hn : IsLong n) : IsLong (max 0 n) := by
  unfold IsLong longMin longMax at *
  omega

/-- The kept entries, when the built-in one is among them. -/
theorem publishable_keptEntries
    (hb : store.builtInId ∈ (store.read d).entries.map Entry.id) :
    Publishable store (store.keptEntries (store.read d).entries) := by
  obtain ⟨hfits, hdistinct, hloaded, -⟩ := read_wellFormed store d
  have hkept : (store.keptEntries (store.read d).entries).Sublist (store.read d).entries :=
    keptEntries_sublist
  refine ⟨fun hnil => ?_, Nat.le_trans hkept.length_le hfits,
    fun e he => (hloaded e (hkept.subset he)).1, hdistinct.sublist (hkept.map Entry.id)⟩
  have hmem := builtInId_mem_keptEntries.mpr hb
  rw [hnil] at hmem
  cases hmem

theorem makeRoom_keptEntries_sublist (store : SleepImageStore) (es : List Entry) :
    (Catalog.makeRoom Entry.id store.builtInId MAXIMUM_ENTRIES (store.keptEntries es)).Sublist es :=
  Catalog.makeRoom_sublist.trans keptEntries_sublist

/-- A new built-in entry in front of the kept ones, when there was none. -/
theorem publishable_builtInEntry {gray alpha : Bytes} {rotation : Bool}
    (hvalid : store.validPlanes gray alpha = true)
    (hb : store.builtInId ∉ (store.read d).entries.map Entry.id) :
    Publishable store (store.builtInEntry rotation gray alpha ::
      Catalog.makeRoom Entry.id store.builtInId MAXIMUM_ENTRIES
        (store.keptEntries (store.read d).entries)) := by
  obtain ⟨hfits, hdistinct, hloaded, -⟩ := read_wellFormed store d
  have hkept : (store.keptEntries (store.read d).entries).Sublist (store.read d).entries :=
    keptEntries_sublist
  have hroom := makeRoom_keptEntries_sublist store (store.read d).entries
  refine ⟨by simp, ?_, fun e he => ?_, ?_⟩
  · have hlt := Catalog.length_makeRoom_lt store.builtInId (by decide)
      (hdistinct.sublist (hkept.map Entry.id)) (Nat.le_trans hkept.length_le hfits)
    exact hlt
  · rcases List.mem_cons.mp he with rfl | he
    · exact writable_builtInEntry hvalid
    · exact (hloaded e (hroom.subset he)).1
  · rw [List.map_cons, List.nodup_cons]
    exact ⟨fun hmem => hb ((hroom.map Entry.id).subset hmem),
      hdistinct.sublist (hroom.map Entry.id)⟩

variable (new) in
/-- A repair may write the planes of a new built-in entry, and of no other. -/
theorem sat_commitRepaired {gray alpha : Bytes} (hh : ¬ Faulted h)
    (hvalid : store.validPlanes gray alpha = true) (hrecovered : Recovered store d d₁)
    (hne : (store.read d₁).entries ≠ [])
    (hbad : (store.read d₁).metadataConflict = true ∨
      store.builtInId ∉ (store.read d₁).entries.map Entry.id)
    (hnext : store.repairedEntries (store.read d₁).entries gray alpha = some es)
    (hp : Publishable store es) (hplain : ∀ e ∈ es, e.rgba = none)
    (hk : ∀ e ∈ es, NewOrKept new d₁ e)
    (hnew : ∀ id, new id → id = store.builtInId ∧ id ∉ (store.read d₁).entries.map Entry.id) :
    (store.commitEntries (store.read d₁).generation es false).Sat
      (Throws store (some gray) (some alpha) d)
      (fun s h' d' => ¬ Faulted h' ∧ Opens store gray alpha d₁ d' s) h d₁ := by
  have hr : ∀ e ∈ es, RgbaFits store e := by
    intro e he content hcontent
    rw [hplain e he] at hcontent
    cases hcontent
  refine (sat_commitEntries new hp hr hk (isLong_read d₁) hh).mono ?_ ?_
  · rintro h' d' ⟨hf, hframe | ⟨hretire, -⟩⟩
    · exact Or.inr (Or.inr ⟨hf, gray, alpha, d₁, hvalid, hrecovered,
        .repair _ hne hnew hframe⟩)
    · cases hretire
  · rintro s h' d' ⟨hh', hcommitted⟩
    exact ⟨hh', .repaired _ hne hbad hnext hp hcommitted⟩

/-- The repair of a catalog keeps every entry but the built-in one. -/
theorem sat_repair {gray alpha : Bytes} (hh : ¬ Faulted h)
    (hvalid : store.validPlanes gray alpha = true) (hrecovered : Recovered store d d₁)
    (hne : (store.read d₁).entries ≠ [])
    (hbad : (store.read d₁).metadataConflict = true ∨
      store.builtInId ∉ (store.read d₁).entries.map Entry.id)
    (hnext : store.repairedEntries (store.read d₁).entries gray alpha = some es) :
    (store.commitEntries (store.read d₁).generation es false).Sat
      (Throws store (some gray) (some alpha) d)
      (fun s h' d' => ¬ Faulted h' ∧ Opens store gray alpha d₁ d' s) h d₁ := by
  obtain ⟨hfits, hdistinct, hloaded, -⟩ := read_wellFormed store d₁
  obtain ⟨rotation, heq⟩ := repairedEntries_eq store gray alpha hfits hdistinct
  have hes := Option.some.inj (hnext.symm.trans heq)
  by_cases hb : store.builtInId ∈ (store.read d₁).entries.map Entry.id
  · -- the metadata disagrees: the same entries are published again
    rw [if_pos hb] at hes
    subst hes
    have hkept : (store.keptEntries (store.read d₁).entries).Sublist (store.read d₁).entries :=
      keptEntries_sublist
    refine sat_commitRepaired (fun _ => False) hh hvalid hrecovered hne hbad hnext
      (publishable_keptEntries hb) (fun e he => ?_) (fun e he => ?_) fun _ hid => hid.elim
    · exact (hloaded e (hkept.subset he)).2.2
    · exact Or.inr ⟨fun hid => hid, (hloaded e (hkept.subset he)).2⟩
  · -- the built-in entry is missing: the fallback planes become it
    rw [if_neg hb] at hes
    subst hes
    have hroom := makeRoom_keptEntries_sublist store (store.read d₁).entries
    refine sat_commitRepaired (fun id => id = store.builtInId) hh hvalid hrecovered hne hbad hnext
      (publishable_builtInEntry hvalid hb) (fun e he => ?_) (fun e he => ?_) ?_
    · rcases List.mem_cons.mp he with rfl | he
      · rfl
      · exact (hloaded e (hroom.subset he)).2.2
    · rcases List.mem_cons.mp he with rfl | he
      · exact Or.inl rfl
      · refine Or.inr ⟨fun hid => hb ?_, (hloaded e (hroom.subset he)).2⟩
        exact List.mem_map.mpr ⟨e, hroom.subset he, hid⟩
    · rintro id rfl
      exact ⟨rfl, hb⟩

/-- Without a catalog the first one is published. -/
theorem sat_migrate {gray alpha : Bytes} {retireLegacy : Bool} (hh : ¬ Faulted h)
    (hvalid : store.validPlanes gray alpha = true) (hrecovered : Recovered store d d₁)
    (hempty : (store.read d₁).entries = []) :
    (store.commitEntries (max 0 (store.read d₁).generation) (store.migratedEntries d₁ gray alpha)
        retireLegacy).Sat (Throws store (some gray) (some alpha) d)
      (fun s h' d' => ¬ Faulted h' ∧ Opens store gray alpha d₁ d' s) h d₁ := by
  obtain ⟨legacy, hl, heq⟩ := migratedEntries_eq store d₁ gray alpha
  have hp := publishable_migratedEntries (d := d₁) hvalid
  refine (sat_commitEntries (fun _ => True) hp ?_ (fun _ _ => Or.inl trivial)
    (isLong_max_zero (isLong_read d₁)) hh).mono ?_ ?_
  · rw [heq]
    intro e he content hcontent
    rcases List.mem_cons.mp he with rfl | he
    · cases hcontent
    · rw [hl.plain e he] at hcontent
      cases hcontent
  · rintro h' d' ⟨hf, haborted⟩
    exact Or.inr (Or.inr ⟨hf, gray, alpha, d₁, hvalid, hrecovered,
      .first _ hempty hp haborted⟩)
  · rintro s h' d' ⟨hh', hcommitted⟩
    exact ⟨hh', .first _ hempty hp hcommitted⟩

/-- **Opening** throws only for a reason, and otherwise returns the catalog it leaves behind. -/
theorem sat_openAndRepair {gray alpha : Option Bytes} (hh : ¬ Faulted h) :
    (store.openAndRepair gray alpha).Sat (Throws store gray alpha d)
      (fun s h' d' => ¬ Faulted h' ∧ ∃ gr al d₁, gray = some gr ∧ alpha = some al ∧
        store.validPlanes gr al = true ∧ Recovered store d d₁ ∧ Opens store gr al d₁ d' s) h d := by
  unfold openAndRepair
  rw [sat_bind]
  unfold validatePlanes
  split
  · next gr al =>
    rw [sat_bind, sat_refuseIf]
    refine ⟨fun hinvalid => Or.inl ⟨?_, rfl⟩, fun hvalid => ?_⟩
    · simpa [AcceptsPlanes] using hinvalid
    have hvalid : store.validPlanes gr al = true := by simpa using hvalid
    rw [sat_pure]
    dsimp only
    rw [sat_bind]
    refine sat_recoverPendingLegacyRetirement.mono ?_ ?_
    · rintro h' d' ⟨-, hbad, hframe⟩
      exact Or.inr (Or.inl ⟨hbad, hframe⟩)
    rintro - h₁ d₁ ⟨rfl, hrecovered⟩
    obtain ⟨hfits, hdistinct, -⟩ := read_wellFormed store d₁
    have hopened : ∀ s (h' : List FaultEvent) d',
        ¬ Faulted h' ∧ Opens store gr al d₁ d' s →
        ¬ Faulted h' ∧ ∃ gr' al' d₁', some gr = some gr' ∧ some al = some al' ∧
          store.validPlanes gr' al' = true ∧ Recovered store d d₁' ∧
            Opens store gr' al' d₁' d' s := by
      rintro s h' d' ⟨hh', ho⟩
      exact ⟨hh', gr, al, d₁, rfl, rfl, hvalid, hrecovered, ho⟩
    rw [sat_bind, sat_get, sat_ite]
    refine ⟨fun hgood => hopened _ _ _ ⟨hh, ?_⟩, fun hbad => ?_⟩
    · simp only [Bool.and_eq_true, Bool.not_eq_true', List.isEmpty_eq_false_iff] at hgood
      exact .asIs hgood.1.1 hgood.1.2 (findBuiltIn_isSome.mp hgood.2) rfl rfl
    rw [sat_ite]
    refine ⟨fun hne => ?_, fun hempty => ?_⟩
    · have hne : (store.read d₁).entries ≠ [] := by simpa using hne
      have hbad : (store.read d₁).metadataConflict = true ∨
          store.builtInId ∉ (store.read d₁).entries.map Entry.id := by
        by_contra hnot
        rw [not_or, not_not, Bool.not_eq_true] at hnot
        refine hbad ?_
        simp only [Bool.and_eq_true, Bool.not_eq_true', List.isEmpty_eq_false_iff]
        exact ⟨⟨hne, hnot.1⟩, findBuiltIn_isSome.mpr hnot.2⟩
      obtain ⟨rotation, hnext⟩ := repairedEntries_eq store gr al hfits hdistinct
      rw [hnext]
      exact (sat_repair hh hvalid hrecovered hne hbad hnext).mono (fun _ _ ht => ht) hopened
    · have hempty : (store.read d₁).entries = [] := by simpa using hempty
      exact (sat_migrate hh hvalid hrecovered hempty).mono (fun _ _ ht => ht) hopened
  · next hnull =>
    refine Or.inl ⟨fun haccepts => ?_, rfl⟩
    unfold AcceptsPlanes at haccepts
    split at haccepts
    · exact hnull _ _ rfl rfl
    · exact haccepts

end EinkLab.SleepImageStore
