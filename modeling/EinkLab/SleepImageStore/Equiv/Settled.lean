import EinkLab.SleepImageStore.Equiv.Opening

/-!
# Settled catalogs

Once the store has been opened, its directory is settled for good (`Settled`): it has no valid
manifest, or one that the store has published and whose planes are all on disk (`Stored`), or a
whole one of foreign origin (`Whole`).  Mutations, openings and aborted openings keep it so, and
openings never lower the generation: `Settled.mutated`, `settled_of_opened`, `Settled.thrown`.
-/

namespace EinkLab.SleepImageStore

open Text Files Transition Procedure

variable {store : SleepImageStore} {d d' d₁ : Directory} {es next : List Entry} {g : Int}
  {h : List FaultEvent} {new : EntryId → Prop} {manifest : Bytes} {s : Snapshot} {r : Request}

/-! ### Stored and whole catalogs -/

/-- The catalog that the store has published. -/
structure Stored (store : SleepImageStore) (g : Int) (es : List Entry) (d : Directory) : Prop where
  manifest : d.content MANIFEST = some (store.manifestBytes g es)
  publishable : Publishable store es
  holds : ∀ e ∈ es, Holds d e
  positive : 0 < g
  long : IsLong g

theorem Stored.read (hs : Stored store g es d) : store.read d =
    ⟨g, es.map store.normalize, false⟩ :=
  read_of_manifest hs.long hs.positive hs.publishable hs.holds hs.manifest

theorem Stored.catalogIds (hs : Stored store g es d) : catalogIds d = es.map Entry.id :=
  catalogIds_of_manifest hs.long hs.positive hs.publishable.writable hs.manifest

theorem Stored.read_ids (hs : Stored store g es d) :
    (store.read d).entries.map Entry.id = es.map Entry.id := by
  rw [hs.read, List.map_map]
  rfl

theorem Stored.entries_ne_nil (hs : Stored store g es d) : (store.read d).entries ≠ [] := by
  have hne := hs.publishable.nonempty
  rw [hs.read]
  simpa using hne

/-- The catalog stays as it is when only planes of other ids change. -/
theorem Stored.frame (hs : Stored store g es d) (hf : Frame new d d')
    (hnew : ∀ id ∈ es.map Entry.id, ¬ new id) : Stored store g es d' := by
  refine { hs with manifest := hf.manifest.trans hs.manifest, holds := fun e he => ?_ }
  exact hf.holds (hnew e.id (List.mem_map_of_mem he)) (hs.holds e he)

/-- What a commit publishes is stored, unless its generation has wrapped. -/
theorem Committed.stored {retireLegacy : Bool}
    (hc : Committed store retireLegacy g es d d' s) (hp : Publishable store es) (hlong : IsLong g)
    (hpos : 0 < g) : Stored store g es d' :=
  ⟨hc.manifest, hp, fun e he => (hc.written hpos e he).holds, hpos, hlong⟩

theorem Committed.void {retireLegacy : Bool} (hc : Committed store retireLegacy g es d d' s)
    (hp : Publishable store es) (hlong : IsLong g) (hneg : g ≤ 0) : Void d' := by
  unfold Void
  rw [hc.manifest, Option.bind_some,
    parseManifest_manifestBytes hlong fun e he => (hp.writable e he).safe, if_pos hneg]

/-- A catalog that opening returns as it is. -/
structure Whole (store : SleepImageStore) (d : Directory) : Prop where
  nonempty : (store.read d).entries ≠ []
  agrees : (store.read d).metadataConflict = false
  builtIn : store.builtInId ∈ (store.read d).entries.map Entry.id

theorem Whole.of_read (hw : Whole store d) (hr : store.read d' = store.read d) : Whole store d' :=
  ⟨hr ▸ hw.nonempty, hr ▸ hw.agrees, hr ▸ hw.builtIn⟩

theorem Void.of_manifest (hv : Void d) (hm : d'.content MANIFEST = d.content MANIFEST) :
    Void d' := by
  unfold Void at hv ⊢
  rw [hm, hv]

/-- The directory of a store that has been opened. -/
inductive Settled (store : SleepImageStore) (d : Directory) : Prop
  | void (h : Void d)
  | stored (g : Int) (es : List Entry) (h : Stored store g es d)
  | whole (h : Whole store d)

theorem Settled.agrees (hs : Settled store d) : (store.read d).metadataConflict = false := by
  cases hs with
  | void h => rw [read_void h]
  | stored g es h => rw [h.read]
  | whole h => exact h.agrees

/-- An empty catalog has no generation. -/
theorem Settled.void_of_empty (hs : Settled store d) (hempty : (store.read d).entries = []) :
    Void d := by
  cases hs with
  | void h => exact h
  | stored g es h => exact absurd hempty h.entries_ne_nil
  | whole h => exact absurd hempty h.nonempty

theorem Settled.frame (hs : Settled store d) (hf : Frame new d d')
    (hnew : ∀ id ∈ catalogIds d, ¬ new id) : Settled store d' := by
  cases hs with
  | void h => exact .void (h.of_manifest hf.manifest)
  | stored g es h => exact .stored g es (h.frame hf (h.catalogIds ▸ hnew))
  | whole h => exact .whole (h.of_read (frame_read hf hnew))

theorem settled_of_committed {retireLegacy : Bool} (hc : Committed store retireLegacy g es d d' s)
    (hp : Publishable store es) (hlong : IsLong g) : Settled store d' := by
  by_cases hpos : 0 < g
  · exact .stored g es (hc.stored hp hlong hpos)
  · exact .void (hc.void hp hlong (by omega))

/-- A mutation whose new id is not in the catalog keeps it settled. -/
theorem Settled.mutated {m : Mutation} (hs : Settled store d) (he : Ends store d r m h d')
    (hfresh : ∀ id ∈ catalogIds d, ¬ r.newId store d id) : Settled store d' := by
  rcases he with ⟨-, hframe, -⟩ | ⟨-, -, next, -, hp, hc⟩
  · exact hs.frame hframe hfresh
  · exact settled_of_committed hc hp (isLong_longSucc (isLong_read d))

/-! ### Opening a settled catalog -/

/-- The pending manifest is published with the planes that were loaded for it. -/
theorem Completed.stored (hc : Completed store (store.pendingSnapshot d manifest) d d')
    (hpast : (store.read d).entries = [] ∨
      (store.read d).generation ≤ (store.pendingSnapshot d manifest).generation) :
    Stored store (store.pendingSnapshot d manifest).generation
      (store.pendingSnapshot d manifest).entries d' := by
  have hwell := readManifest_wellFormed store (d.write RECOVERY manifest) RECOVERY
  obtain ⟨hfits, hdistinct, hloaded, -⟩ := hwell
  have hgeneration := readManifest_generation hc.nonempty
  have hm := hc.manifest
  rw [if_pos hpast] at hm
  have hrecovery : ∀ p id, d'.content (planeFile p id) =
      (d.write RECOVERY manifest).content (planeFile p id) := by
    intro p id
    rw [Directory.content_write_ne (planeFile_ne (c := '.') rfl (by decide) p id), hc.planes]
  refine ⟨hm, ⟨hc.nonempty, hfits, fun e he => (hloaded e he).1, hdistinct⟩, fun e he => ?_,
    hgeneration.1, hgeneration.2⟩
  obtain ⟨-, hholds, -⟩ := hloaded e he
  exact ⟨(hrecovery .gray e.id).trans hholds.gray, (hrecovery .alpha e.id).trans hholds.alpha⟩

/-- A pending manifest that is behind the catalog leaves it as it is. -/
theorem Completed.read_eq (hc : Completed store s d d')
    (hpast : ¬ ((store.read d).entries = [] ∨ (store.read d).generation ≤ s.generation)) :
    store.read d' = store.read d := by
  have hm := hc.manifest
  rw [if_neg hpast] at hm
  exact read_congr hm fun id _ => ⟨hc.planes .gray id, hc.planes .alpha id⟩

/-- Completing a pending retirement keeps the catalog settled. -/
theorem Settled.recovered (hs : Settled store d) (hr : Recovered store d d') :
    Settled store d' := by
  unfold Recovered at hr
  split at hr
  · rwa [hr]
  · next manifest hpending =>
    by_cases hpast : (store.read d).entries = [] ∨
        (store.read d).generation ≤ (store.pendingSnapshot d manifest).generation
    · exact .stored _ _ (hr.stored hpast)
    · have hm := hr.manifest
      rw [if_neg hpast] at hm
      cases hs with
      | void h => exact .void (h.of_manifest hm)
      | stored g es h =>
        refine .stored g es { h with manifest := hm.trans h.manifest, holds := fun e he => ?_ }
        exact ⟨(hr.planes .gray e.id).trans (h.holds e he).gray,
          (hr.planes .alpha e.id).trans (h.holds e he).alpha⟩
      | whole h => exact .whole (h.of_read (hr.read_eq hpast))

/-- Opening settles any directory, and leaves no pending retirement behind. -/
theorem settled_of_opened {gray alpha : Bytes} (ho : Opens store gray alpha d₁ d' s)
    (hpending : pendingManifest d₁ = none) : Settled store d' ∧ pendingManifest d' = none := by
  cases ho with
  | asIs hne hagrees hbuiltIn _ hd =>
    rw [hd]
    exact ⟨.whole ⟨hne, hagrees, hbuiltIn⟩, hpending⟩
  | repaired next _ _ _ hp hc =>
    refine ⟨settled_of_committed hc hp (isLong_longSucc (isLong_read d₁)), ?_⟩
    have hmarker := hc.marker
    rw [if_neg (by decide)] at hmarker
    rwa [pendingManifest_congr hmarker]
  | first retireLegacy _ hp hc =>
    refine ⟨settled_of_committed hc hp (isLong_longSucc (isLong_max_zero (isLong_read d₁))), ?_⟩
    have hmarker := hc.marker
    split at hmarker
    · exact pendingManifest_of_retired hmarker
    · rwa [pendingManifest_congr hmarker]

/-- A pending retirement holds the manifest of a first catalog. -/
def PendingFirst (store : SleepImageStore) (d : Directory) : Prop :=
  ∀ manifest, pendingManifest d = some manifest →
    ∃ es, (∀ e ∈ es, Writable store e) ∧ manifest = store.manifestBytes 1 es

theorem PendingFirst.congr (hp : PendingFirst store d)
    (h : d'.content LEGACY_RETIRED = d.content LEGACY_RETIRED) : PendingFirst store d' := by
  intro manifest hm
  rw [pendingManifest_congr h] at hm
  exact hp manifest hm

theorem pendingFirst_of_none (h : pendingManifest d = none) : PendingFirst store d := by
  intro manifest hm
  rw [h] at hm
  cases hm

theorem PendingFirst.mutated {m : Mutation} (hp : PendingFirst store d)
    (he : Ends store d r m h d') : PendingFirst store d' := by
  rcases he with ⟨-, hframe, -⟩ | ⟨-, -, next, -, -, hc⟩
  · exact hp.congr hframe.marker
  · have hmarker := hc.marker
    rw [if_neg (by decide)] at hmarker
    exact hp.congr hmarker

theorem pendingManifest_of_placed {content : Bytes}
    (hp : Placed LEGACY_RETIRED (PENDING ++ content) d d')
    (hm : pendingManifest d' = some manifest) :
    manifest = content := by
  have hcontent := content_of_pendingManifest hm
  rw [hp.content (by decide)] at hcontent
  exact (List.append_cancel_left (Option.some.inj hcontent)).symm

/-- The built-in entry, the only one that a repair may write, is not in the catalog. -/
theorem Settled.repair_fresh (hs : Settled store d) (hne : (store.read d).entries ≠ [])
    (hnew : ∀ id, new id → id = store.builtInId ∧ id ∉ (store.read d).entries.map Entry.id) :
    ∀ id ∈ catalogIds d, ¬ new id := by
  intro id hmem hid
  obtain ⟨rfl, hmissing⟩ := hnew id hid
  cases hs with
  | void h => exact hne (by rw [read_void h])
  | stored g es h => exact hmissing (h.read_ids ▸ h.catalogIds ▸ hmem)
  | whole h => exact hmissing h.builtIn

/-- An opening that throws keeps the catalog settled, and so is what it leaves pending. -/
theorem Settled.thrown {gray alpha : Option Bytes} (hs : Settled store d)
    (hp : PendingFirst store d) (ht : Throws store gray alpha d h d') :
    Settled store d' ∧ PendingFirst store d' := by
  rcases ht with ⟨-, hd⟩ | ⟨-, hframe⟩ | ⟨-, gr, al, d₁, -, hr, ha⟩
  · rw [hd]
    exact ⟨hs, hp⟩
  · exact ⟨hs.frame hframe fun _ _ hid => hid, hp.congr hframe.marker⟩
  have hs₁ := hs.recovered hr
  cases ha with
  | repair new hne hnew hframe =>
    refine ⟨hs₁.frame hframe (hs₁.repair_fresh hne hnew), pendingFirst_of_none ?_⟩
    rw [pendingManifest_congr hframe.marker]
    exact hr.pending
  | first retireLegacy hempty hpublishable haborted =>
    have hvoid := hs₁.void_of_empty hempty
    rcases haborted with hframe | ⟨-, d₂, hframe, -, hplaced⟩
    · refine ⟨.void (hvoid.of_manifest hframe.manifest), pendingFirst_of_none ?_⟩
      rw [pendingManifest_congr hframe.marker]
      exact hr.pending
    · have hmanifest : d'.content MANIFEST = d₁.content MANIFEST := by
        rw [hplaced _ (by decide), if_neg (by decide), hframe.manifest]
      refine ⟨.void (hvoid.of_manifest hmanifest), fun manifest hm => ?_⟩
      refine ⟨_, hpublishable.writable, ?_⟩
      rw [pendingManifest_of_placed hplaced hm, read_void hvoid]
      rfl

/-! ### Generations -/

theorem pendingSnapshot_generation (hw : ∀ e ∈ es, Writable store e) :
    (store.pendingSnapshot d (store.manifestBytes 1 es)).generation = 1 := by
  have hparse : parseManifest (store.manifestBytes 1 es) = some (1, es.map store.manifestLine) := by
    rw [parseManifest_manifestBytes (by decide) fun e he => (hw e he).safe]
    rfl
  rw [pendingSnapshot, readManifest, Directory.content_write, Option.bind_some, hparse]

/-- Completing a pending retirement does not lower the generation, and reaches the first one at
most. -/
theorem generation_recovered (hs : Settled store d) (hp : PendingFirst store d)
    (hr : Recovered store d d') :
    (store.read d).generation ≤ (store.read d').generation ∧
      (store.read d').generation ≤ max 1 (store.read d).generation := by
  unfold Recovered at hr
  split at hr
  · rw [hr]
    omega
  · next manifest hpending =>
    by_cases hpast : (store.read d).entries = [] ∨
        (store.read d).generation ≤ (store.pendingSnapshot d manifest).generation
    · obtain ⟨es, hw, rfl⟩ := hp manifest hpending
      have hgeneration : (store.read d').generation = 1 := by
        rw [(hr.stored hpast).read]
        exact pendingSnapshot_generation (d := d) hw
      rw [pendingSnapshot_generation hw] at hpast
      have hle : (store.read d).generation ≤ 1 := by
        rcases hpast with hempty | hle
        · rw [read_void (hs.void_of_empty hempty)]
          decide
        · exact hle
      omega
    · rw [hr.read_eq hpast]
      omega

theorem longSucc_of_lt {n : Int} (hn : n < longMax) : longSucc n = n + 1 := by
  rw [longSucc, if_neg (by omega)]

/-- The generation after a commit of an unexhausted one. -/
theorem Committed.generation {retireLegacy : Bool} {n : Int}
    (hc : Committed store retireLegacy (longSucc n) es d d' s) (hp : Publishable store es)
    (hlong : IsLong n) (hnonneg : 0 ≤ n) (hlt : n < longMax) : (store.read d').generation =
      n + 1 := by
  have hsucc := longSucc_of_lt hlt
  rw [hc.read hp (isLong_longSucc hlong) (by omega)]
  exact hsucc

/-- Opening does not lower the generation. -/
theorem generation_opened {gray alpha : Bytes} (hs : Settled store d) (hp : PendingFirst store d)
    (hr : Recovered store d d₁) (ho : Opens store gray alpha d₁ d' s)
    (hlt : (store.read d).generation < longMax) :
    (store.read d).generation ≤ (store.read d').generation := by
  have hrecovered := generation_recovered hs hp hr
  have hnonneg := read_generation_nonneg store d₁
  have hlt₁ : (store.read d₁).generation < longMax := by
    unfold longMax at *
    omega
  cases ho with
  | asIs _ _ _ _ hd => exact hd ▸ hrecovered.1
  | repaired next _ _ _ hp hc =>
    rw [hc.generation hp (isLong_read d₁) hnonneg hlt₁]
    omega
  | first retireLegacy _ hp hc =>
    rw [hc.generation hp (isLong_max_zero (isLong_read d₁)) (by omega) (by omega)]
    omega

/-- Opening that throws does not lower the generation. -/
theorem generation_thrown {gray alpha : Option Bytes} (hs : Settled store d)
    (hp : PendingFirst store d) (ht : Throws store gray alpha d h d') :
    (store.read d).generation ≤ (store.read d').generation := by
  rcases ht with ⟨-, hd⟩ | ⟨-, hframe⟩ | ⟨-, gr, al, d₁, -, hr, ha⟩
  · exact Int.le_of_eq (by rw [hd])
  · exact Int.le_of_eq (by rw [frame_read hframe fun _ _ hid => hid])
  have hs₁ := hs.recovered hr
  have hrecovered := (generation_recovered hs hp hr).1
  cases ha with
  | repair new hne hnew hframe =>
    rw [frame_read hframe (hs₁.repair_fresh hne hnew)]
    exact hrecovered
  | first retireLegacy hempty hpublishable haborted =>
    rw [read_void (hs₁.void_of_empty hempty)] at hrecovered
    exact Int.le_trans hrecovered (read_generation_nonneg store d')

/-- A store of one pixel, of the colour product. -/
def pixelStore : SleepImageStore where
  width := 1
  height := 1
  builtInId := BUILT_IN_ID_AURA_C_V2
  builtInId_safe := safeId_BUILT_IN_ID_AURA_C_V2
  builtInId_named := named_BUILT_IN_ID_AURA_C_V2

end EinkLab.SleepImageStore
