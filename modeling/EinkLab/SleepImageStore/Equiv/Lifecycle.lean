import EinkLab.SleepImageStore.Equiv.Publication

/-!
# The catalog over a run

While no generation wraps (`Left`), a catalog that has been opened stays whole, and every snapshot
that a call returns is the catalog it leaves behind (`whole_step`); so whatever is published of it
is accepted by the manager (`published_accepted`).
-/

namespace EinkLab.SleepImageStore

open Text Files Transition SleepImageManager SleepImageCatalogService

variable {store : SleepImageStore} {d d' d₀ d₁ : Directory} {s : Snapshot} {e : Entry}
  {es next : List Entry} {r : Request} {m : Mutation} {h : List FaultEvent} {x : Executed}
  {a : StoreAction} {as : List StoreAction} {log evs : List Executed} {gray alpha : Bytes}

/-- A generation is left for the call, also after a pending retirement is completed. -/
structure Left (store : SleepImageStore) (d : Directory) : Prop where
  catalog : (store.read d).generation < longMax
  pending : ∀ manifest, pendingManifest d = some manifest →
    (store.pendingSnapshot d manifest).generation < longMax

/-- The id that an `add` generates is none of the catalog's. -/
def NewIds (store : SleepImageStore) (d : Directory) (a : StoreAction) : Prop :=
  ∀ id ∈ catalogIds d, ¬a.request.newId store d id

/-- The condition on every call of a run. -/
def Ready (store : SleepImageStore) (d : Directory) (a : StoreAction) : Prop :=
  NewIds store d a ∧ Left store d

theorem NewIds.entries (hnew : NewIds store d a) :
    ∀ e ∈ (store.read d).entries, ¬a.request.newId store d e.id :=
  fun _ he => hnew _ (mem_catalogIds he)

/-- The catalog is whole and no retirement is pending. -/
def Sound (store : SleepImageStore) (d : Directory) : Prop :=
  Whole store d ∧ pendingManifest d = none

/-- The snapshot that a call returns. -/
def Executed.Returns (x : Executed) (s : Snapshot) : Prop :=
  x.outcome = .opened s ∨ ∃ m, x.outcome = .mutated m ∧ m.snapshot = s

theorem Recovered.left (hr : Recovered store d d₁) (hl : Left store d) :
    (store.read d₁).generation < longMax := by
  unfold Recovered at hr
  split at hr
  · rw [hr]
    exact hl.catalog
  · next manifest hpending =>
    by_cases hpast : (store.read d).entries = [] ∨
        (store.read d).generation ≤ (store.pendingSnapshot d manifest).generation
    · rw [(hr.stored hpast).read]
      exact hl.pending manifest hpending
    · rw [hr.read_eq hpast]
      exact hl.catalog

/-- What is published under a generation that has not wrapped is whole. -/
theorem Committed.whole {retireLegacy : Bool} {g : Int}
    (hc : Committed store retireLegacy g next d d' s) (hp : Publishable store next)
    (hlong : IsLong g) (hpos : 0 < g) (hb : store.builtInId ∈ next.map Entry.id) :
    Whole store d' := by
  have hread := hc.read hp hlong hpos
  refine ⟨?_, ?_, ?_⟩
  · rw [hread]
    simpa using hp.nonempty
  · rw [hread]
  · rw [hread, List.map_map]
    exact hb

theorem Committed.pending {retireLegacy : Bool} {g : Int}
    (hc : Committed store retireLegacy g next d d' s) (hpending : pendingManifest d = none) :
    pendingManifest d' = none := by
  have hmarker := hc.marker
  cases retireLegacy with
  | true => exact pendingManifest_of_retired hmarker
  | false => exact (pendingManifest_congr hmarker).trans hpending

theorem builtInId_mem_repairedEntries
    (hnext : store.repairedEntries (store.read d).entries gray alpha = some next) :
    store.builtInId ∈ next.map Entry.id := by
  obtain ⟨hfits, hdistinct, -⟩ := read_wellFormed store d
  obtain ⟨rotation, heq⟩ := repairedEntries_eq store gray alpha hfits hdistinct
  have hentries := Option.some.inj (hnext.symm.trans heq)
  by_cases hb : store.builtInId ∈ (store.read d).entries.map Entry.id
  · rw [if_pos hb] at hentries
    rw [hentries]
    exact builtInId_mem_keptEntries.mpr hb
  · rw [if_neg hb] at hentries
    rw [hentries, List.map_cons]
    exact List.mem_cons_self

theorem Opens.sound (ho : Opens store gray alpha d₁ d' s) (hpending : pendingManifest d₁ = none)
    (hleft : (store.read d₁).generation < longMax) : Sound store d' ∧ s = store.read d' := by
  have hlong : IsLong (store.read d₁).generation := isLong_read d₁
  have hnonneg := read_generation_nonneg store d₁
  have hpos := (longSucc_pos hnonneg hlong).mpr hleft
  cases ho with
  | asIs hne hagrees hbuiltIn hs hd =>
    rw [hd]
    exact ⟨⟨⟨hne, hagrees, hbuiltIn⟩, hpending⟩, hs⟩
  | repaired next _ _ hnext hp hc =>
    refine ⟨⟨hc.whole hp (isLong_longSucc hlong) hpos ?_, hc.pending hpending⟩, hc.snapshot_eq⟩
    exact builtInId_mem_repairedEntries hnext
  | first retireLegacy _ hp hc =>
    have hmax : max 0 (store.read d₁).generation = (store.read d₁).generation := by omega
    rw [hmax] at hc
    obtain ⟨legacy, -, heq⟩ := migratedEntries_eq store d₁ gray alpha
    refine ⟨⟨hc.whole hp (isLong_longSucc hlong) hpos ?_, hc.pending hpending⟩, hc.snapshot_eq⟩
    rw [heq, List.map_cons]
    exact List.mem_cons_self

/-- Opening a whole catalog finds nothing to repair. -/
theorem Opens.same (ho : Opens store gray alpha d d' s) (hw : Whole store d) : d' = d := by
  cases ho with
  | asIs _ _ _ _ hd => exact hd
  | repaired _ _ hbad =>
    rcases hbad with hconflict | hmissing
    · rw [hw.agrees] at hconflict
      cases hconflict
    · exact absurd hw.builtIn hmissing
  | first _ hempty => exact absurd hempty hw.nonempty

/-- A mutation never commits entries without the built-in one. -/
theorem builtInId_mem_of_accepts (hw : Whole store d) (ha : Accepts store d r next) :
    store.builtInId ∈ next.map Entry.id := by
  obtain ⟨hfits, hdistinct, -⟩ := read_wellFormed store d
  obtain ⟨b, hb, hid⟩ := List.mem_map.mp hw.builtIn
  cases r with
  | openAndRepair gray alpha => exact ha.elim
  | add expected gray alpha rgba nanos =>
    obtain ⟨-, -, gr, al, room, -, -, -, hroom, rfl⟩ := ha
    rw [makeRoom_eq hfits hroom]
    refine List.mem_map.mpr ⟨b, List.mem_append_left _ ?_, hid⟩
    exact Catalog.mem_makeRoom_of_anchor hb hid
  | remove expected id =>
    obtain ⟨-, hne, selected, hselected, rfl⟩ := ha
    rw [eraseIdx_lastIndexOf hdistinct hselected]
    refine List.mem_map.mpr ⟨b, List.mem_filter.mpr ⟨hb, ?_⟩, hid⟩
    rw [hid]
    exact decide_eq_true fun heq => hne heq.symm
  | setBuiltInRotation expected enabled =>
    obtain ⟨-, selected, hselected, rfl⟩ := ha
    rw [modify_findBuiltIn hdistinct hselected]
    refine List.mem_map.mpr ⟨b.withRotation enabled, List.mem_map.mpr ⟨b, hb, ?_⟩, hid⟩
    rw [if_pos hid]

theorem Ends.sound (he : Ends store d r m h d') (hs : Sound store d)
    (hfresh : ∀ id ∈ catalogIds d, ¬r.newId store d id)
    (hleft : (store.read d).generation < longMax) : Sound store d' ∧
      m.snapshot = store.read d' := by
  rcases he with ⟨-, hframe, hsnapshot, -⟩ | ⟨-, -, next, ha, hp, hc⟩
  · have hread : store.read d' = store.read d := frame_read hframe hfresh
    exact ⟨⟨hs.1.of_read hread, (pendingManifest_congr hframe.marker).trans hs.2⟩, hsnapshot⟩
  · have hpos := (longSucc_pos (read_generation_nonneg store d) (isLong_read d)).mpr hleft
    exact ⟨⟨hc.whole hp (isLong_longSucc (isLong_read d)) hpos (builtInId_mem_of_accepts hs.1 ha),
      hc.pending hs.2⟩, hc.snapshot_eq⟩

/-- Opening that throws changes nothing of a whole catalog. -/
theorem Throws.sound {gray alpha : Option Bytes} (ht : Throws store gray alpha d h d')
    (hs : Sound store d) : Sound store d' := by
  obtain ⟨hw, hpending⟩ := hs
  rcases ht with ⟨-, hd⟩ | ⟨⟨manifest, hmanifest, -⟩, -⟩ | ⟨-, gr, al, d₁, -, hrecovered, haborts⟩
  · rw [hd]
    exact ⟨hw, hpending⟩
  · rw [hpending] at hmanifest
    cases hmanifest
  · have hsame : d₁ = d := by
      unfold Recovered at hrecovered
      rw [hpending] at hrecovered
      exact hrecovered
    rw [hsame] at haborts
    cases haborts with
    | repair new _ hnew hframe =>
      have hread : store.read d' = store.read d := frame_read hframe fun id _ hid => by
        obtain ⟨rfl, hmissing⟩ := hnew id hid
        exact hmissing hw.builtIn
      exact ⟨hw.of_read hread, (pendingManifest_congr hframe.marker).trans hpending⟩
    | first _ hempty => exact absurd hempty hw.nonempty

/-- One call keeps the catalog whole, and what it returns is the catalog. -/
theorem whole_step (he : Ended store x)
    (hfresh : ∀ id ∈ catalogIds x.before, ¬x.request.newId store x.before id)
    (hleft : Left store x.before)
    (hopened : (∃ s, x.outcome = .opened s) ∨ Sound store x.before) :
    Sound store x.after ∧ ∀ s, x.Returns s → s = store.read x.after := by
  cases he with
  | opened gray alpha d₁ s _ houtcome _ _ hrecovered hopens =>
    obtain ⟨hsound, hs⟩ := hopens.sound hrecovered.pending (hrecovered.left hleft)
    refine ⟨hsound, fun s' hreturns => ?_⟩
    rcases hreturns with hr | ⟨m, hm, -⟩
    · rw [houtcome] at hr
      rw [← Outcome.opened.inj hr]
      exact hs
    · rw [houtcome] at hm
      cases hm
  | threw gray alpha _ houtcome hthrows =>
    have hbefore : Sound store x.before := by
      refine hopened.resolve_left ?_
      rintro ⟨s, hs⟩
      rw [houtcome] at hs
      cases hs
    refine ⟨hthrows.sound hbefore, fun s hreturns => ?_⟩
    rcases hreturns with hr | ⟨m, hm, -⟩
    · rw [houtcome] at hr
      cases hr
    · rw [houtcome] at hm
      cases hm
  | mutated m _ houtcome hends =>
    have hbefore : Sound store x.before := by
      refine hopened.resolve_left ?_
      rintro ⟨s, hs⟩
      rw [houtcome] at hs
      cases hs
    obtain ⟨hsound, hsnapshot⟩ := hends.sound hbefore hfresh hleft.catalog
    refine ⟨hsound, fun s hreturns => ?_⟩
    rcases hreturns with hr | ⟨m', hm, hs⟩
    · rw [houtcome] at hr
      cases hr
    · rw [houtcome] at hm
      rw [← hs, ← Outcome.mutated.inj hm]
      exact hsnapshot

/-- Once the store has been opened, the catalog is whole. -/
theorem sound_of_run (hrun : (system store).Run (Ready store) d₀ as log d) :
    (HasOpened log → Sound store d) ∧ EachEvent (fun pre x => HasOpened (pre ++ [x]) →
      ∀ s, x.Returns s → ∃ d, Whole store d ∧ s = store.read d) log := by
  refine hrun.induct (fun _ log d => (HasOpened log → Sound store d) ∧
    EachEvent (fun pre x => HasOpened (pre ++ [x]) →
      ∀ s, x.Returns s → ∃ d, Whole store d ∧ s = store.read d) log) ?_ ?_
  · refine ⟨?_, eachEvent_nil _⟩
    rintro ⟨x, hx, -⟩
    cases hx
  · rintro as log d a d' evs ⟨hsound, heach⟩ ⟨hfresh, hleft⟩ hstep
    obtain ⟨x, rfl, rfl, rfl, hrequest, -, hends⟩ := step_cases hstep hfresh.entries
    have hcall : HasOpened (log ++ [x]) →
        Sound store x.after ∧ ∀ s, x.Returns s → s = store.read x.after := by
      intro hopened
      apply whole_step hends (hrequest ▸ hfresh) hleft
      rcases hasOpened_append_singleton.mp hopened with hbefore | hnow
      · exact Or.inr (hsound hbefore)
      · exact Or.inl hnow
    refine ⟨fun hopened => (hcall hopened).1, eachEvent_append_singleton.mpr ⟨heach, ?_⟩⟩
    intro hopened s hreturns
    exact ⟨x.after, (hcall hopened).1.1, (hcall hopened).2 s hreturns⟩

/-- **Every publication is accepted** of every snapshot that a call returns once the store has been
opened, if no generation wraps and no id is generated twice. -/
theorem published_accepted {service : SleepImageCatalogService} (ha : service.IsAura)
    (hrun : (system service.store).Run (Ready service.store) d₀ as log d) :
    EachEvent (fun pre x => HasOpened (pre ++ [x]) →
      ∀ s, x.Returns s → service.PublishesWell s) log := by
  intro pre x post hlog hopened s hreturns
  obtain ⟨d, hwhole, rfl⟩ := (sound_of_run hrun).2 pre x post hlog hopened s hreturns
  exact publishesWell_of_whole ha hwhole

/-! ### Calls without a fault -/

/-- The call without a fault. -/
def quietly (store : SleepImageStore) (r : Request) (d : Directory) : StoreAction where
  request := r
  calls := (((store.execute r).run d).drive fun _ => false).1

/-- Such a call is possible. -/
theorem exists_quietly (hnew : NewIds store d (quietly store r d)) :
    ∃ x : Executed, (system store).step d (quietly store r d) = some (x.after, [x]) ∧
      x.before = d ∧ x.request = r ∧ ¬Faulted x.calls ∧ Ended store x := by
  have hreplay := Program.replay_drive (fun _ => false) ((store.execute r).run d)
  obtain ⟨evs, d', hstep⟩ :
      ∃ evs d', (system store).step d (quietly store r d) = some (d', evs) := by
    simp only [system, quietly, hreplay, Option.map_some, Option.some_inj, Prod.mk.injEq]
    exact ⟨_, _, rfl, rfl⟩
  obtain ⟨x, rfl, hbefore, rfl, hrequest, hcalls, hends⟩ := step_cases hstep hnew.entries
  refine ⟨x, hstep, hbefore, hrequest, ?_, hends⟩
  rw [hcalls]
  rintro ⟨c, hc, hfault⟩
  rw [Program.drive_answers _ _ c hc] at hfault
  cases hfault

/-- Opening with the given fallback, without a fault. -/
def openQuietly (store : SleepImageStore) (gray alpha : Bytes) (d : Directory) : StoreAction :=
  quietly store (.openAndRepair (some gray) (some alpha)) d

/-- Such a call opens the store. -/
theorem exists_openQuietly (hvalid : store.validPlanes gray alpha = true)
    (hpending : pendingManifest d = none) :
    ∃ x : Executed, (system store).step d (openQuietly store gray alpha d) = some (x.after, [x]) ∧
      x.before = d ∧ ∃ s, x.outcome = .opened s ∧ Opens store gray alpha d x.after s := by
  obtain ⟨x, hstep, hbefore, hrequest, hquiet, hends⟩ :=
    exists_quietly (r := .openAndRepair (some gray) (some alpha)) fun _ _ hid => hid
  refine ⟨x, hstep, hbefore, ?_⟩
  have hsame : ∀ d₁, Recovered store x.before d₁ → d₁ = d := by
    intro d₁ hr
    unfold Recovered at hr
    rw [hbefore, hpending] at hr
    exact hr
  cases hends with
  | opened gray alpha d₁ s hr houtcome _ _ hrecovered hopens =>
    have hplanes := Request.openAndRepair.inj (hrequest.symm.trans hr)
    rw [hsame d₁ hrecovered, ← Option.some_inj.mp hplanes.1,
      ← Option.some_inj.mp hplanes.2] at hopens
    exact ⟨s, houtcome, hopens⟩
  | threw gray alpha hr houtcome hthrows =>
    have hplanes := Request.openAndRepair.inj (hrequest.symm.trans hr)
    rw [← hplanes.1, ← hplanes.2] at hthrows
    rcases hthrows with ⟨hrefused, -⟩ | ⟨⟨manifest, hmanifest, -⟩, -⟩ | ⟨hfaulted, -⟩
    · exact absurd hvalid hrefused
    · rw [hbefore, hpending] at hmanifest
      cases hmanifest
    · exact absurd hfaulted hquiet
  | mutated m hr => exact absurd hrequest (hr _ _)

/-- Switching the rotation of the built-in image, without a fault. -/
def rotateQuietly (store : SleepImageStore) (enabled : Bool) (d : Directory) : StoreAction :=
  quietly store (.setBuiltInRotation (store.read d).generation enabled) d

/-- Of a whole catalog, such a call commits. -/
theorem exists_rotateQuietly (hw : Whole store d) (enabled : Bool) :
    ∃ x : Executed, (system store).step d (rotateQuietly store enabled d) = some (x.after, [x]) ∧
      x.before = d ∧ ∃ m, x.outcome = .mutated m ∧ m.result = .committed := by
  have hnew : NewIds store d (rotateQuietly store enabled d) := fun _ _ hid => hid
  obtain ⟨x, hstep, hbefore, hrequest, hquiet, hends⟩ := exists_quietly hnew
  refine ⟨x, hstep, hbefore, ?_⟩
  cases hends with
  | opened gray alpha d₁ s hr => rw [hrequest] at hr; cases hr
  | threw gray alpha hr => rw [hrequest] at hr; cases hr
  | mutated m _ houtcome hends =>
    refine ⟨m, houtcome, ?_⟩
    rw [hbefore, hrequest] at hends
    obtain ⟨selected, hselected⟩ := Option.isSome_iff_exists.mp (findBuiltIn_isSome.mpr hw.builtIn)
    have haccepts : Accepts store d (.setBuiltInRotation (store.read d).generation enabled)
        ((store.read d).entries.modify selected fun e => e.withRotation enabled) :=
      ⟨rfl, selected, hselected, rfl⟩
    refine hends.commits hquiet haccepts ?_
    rintro ⟨expected, id, hremove⟩
    cases hremove

/-! ### A catalog that has lost images -/

/-- The colour product, with an opaque white fallback. -/
def auraStore : SleepImageStore where
  width := 2480
  height := 1860
  builtInId := BUILT_IN_ID_AURA_C_V2
  builtInId_safe := safeId_BUILT_IN_ID_AURA_C_V2
  builtInId_named := named_BUILT_IN_ID_AURA_C_V2

def auraService : SleepImageCatalogService where
  store := auraStore
  hasColorCfa := true
  fallback := none

def white : Bytes := .replicate auraStore.bytes 0xf0
def solid : Bytes := .replicate auraStore.bytes 0xff

theorem validPlanes_white : auraStore.validPlanes white solid = true := by
  have hwhite : (0xf0 : UInt8) &&& 0x0f = 0 := by decide
  simp [validPlanes, white, solid, List.all_replicate, hwhite]

/-- Opening the colour product with its white fallback, without a fault. -/
def openWhite (d : Directory) : StoreAction :=
  openQuietly auraStore white solid d

/-- The same in colour. -/
def whiteColors : Bytes :=
  SleepImageTransforms.rgbaBytes (SleepImageTransforms.expandGrayToRgba white solid)

/-- An image of the user, in the white of the fallback. -/
def whiteEntry (id : String) : Entry := Entry.new id.toList false true white solid

/-- The catalog lists three images, not the built-in one; the planes of the first are lost, and the
second has a colour plane. -/
def lostImages : Directory :=
  let d := Directory.empty.write MANIFEST
    (auraStore.manifestBytes 41 [whiteEntry "ghost", whiteEntry "photo", whiteEntry "painting"])
  ["photo".toList, "painting".toList].foldl
    (fun d id => (d.write (grayFile id) white).write (alphaFile id) solid)
    (d.write (rgbaFile "photo".toList) whiteColors)

theorem pendingManifest_lostImages : pendingManifest lostImages = none := by
  have hmarker : lostImages.content LEGACY_RETIRED = none := by
    simp only [lostImages, List.foldl_cons, List.foldl_nil]
    simp (disch := decide) only [Directory.content_write_ne, Directory.content_empty]
  unfold pendingManifest
  rw [hmarker]

theorem content_lostImages {id : EntryId}
    (hid : id ∈ ["photo".toList, "painting".toList]) :
    lostImages.content (grayFile id) = some white ∧
      lostImages.content (alphaFile id) = some solid := by
  simp only [List.mem_cons, List.not_mem_nil, or_false] at hid
  simp only [lostImages, List.foldl_cons, List.foldl_nil]
  rcases hid with rfl | rfl <;> constructor <;>
    simp (disch := decide) only [Directory.content_write_ne, Directory.content_write]

theorem read_lostImages :
    auraStore.read lostImages = ⟨41, [whiteEntry "photo", whiteEntry "painting"], false⟩ := by
  have hmanifest : lostImages.content MANIFEST = some (auraStore.manifestBytes 41
      [whiteEntry "ghost", whiteEntry "photo", whiteEntry "painting"]) := by
    simp only [lostImages, List.foldl_cons, List.foldl_nil]
    simp (disch := decide) only [Directory.content_write_ne, Directory.content_write]
  have hlost : lostImages.content (grayFile (whiteEntry "ghost").id) = none := by
    simp only [lostImages, List.foldl_cons, List.foldl_nil]
    simp (disch := decide) only [Directory.content_write_ne, Directory.content_empty]
  have hholds : ∀ e ∈ [whiteEntry "photo", whiteEntry "painting"], Holds lostImages e := by
    intro e he
    simp only [List.mem_cons, List.not_mem_nil, or_false] at he
    rcases he with rfl | rfl
    · have hphoto : "photo".toList ∈ ["photo".toList, "painting".toList] := by decide
      exact ⟨(content_lostImages hphoto).1, (content_lostImages hphoto).2⟩
    · have hpainting : "painting".toList ∈ ["photo".toList, "painting".toList] := by decide
      exact ⟨(content_lostImages hpainting).1, (content_lostImages hpainting).2⟩
  have hwritable : ∀ id ∈ ["ghost", "photo", "painting"], Writable auraStore (whiteEntry id) := by
    intro id hid
    refine ⟨?_, validPlanes_white⟩
    simp only [List.mem_cons, List.not_mem_nil, or_false] at hid
    rcases hid with rfl | rfl | rfl <;> decide
  have hparse : parseManifest (auraStore.manifestBytes 41
      [whiteEntry "ghost", whiteEntry "photo", whiteEntry "painting"]) = some (41,
        [whiteEntry "ghost", whiteEntry "photo", whiteEntry "painting"].map
          auraStore.manifestLine) := by
    rw [parseManifest_manifestBytes (by decide), if_neg (by decide)]
    intro e he
    simp only [List.mem_cons, List.not_mem_nil, or_false] at he
    rcases he with rfl | rfl | rfl <;> exact (hwritable _ (by decide)).safe
  generalize lostImages = d at hmanifest hlost hholds ⊢
  have hrest : ∀ e ∈ [whiteEntry "photo", whiteEntry "painting"], Writable auraStore e := by
    intro e he
    simp only [List.mem_cons, List.not_mem_nil, or_false] at he
    rcases he with rfl | rfl <;> exact hwritable _ (by decide)
  have hscan := @scanLines_manifestLines auraStore d _ ⟨[], ["ghost".toList], false⟩ hrest hholds
    (by decide) (by
      intro e he
      simp only [List.mem_cons, List.not_mem_nil, or_false] at he
      rcases he with rfl | rfl <;> decide) (by decide)
  have hghost : auraStore.scanLine d {} (auraStore.manifestLine (whiteEntry "ghost")) =
      ⟨[], ["ghost".toList], false⟩ :=
    scanLine_lost (hwritable "ghost" (by decide)).safe List.not_mem_nil hlost
  rw [read, readManifest, hmanifest, Option.bind_some, hparse]
  dsimp only
  rw [List.map_cons, scanLines, if_pos (by decide), hghost, hscan]
  rfl

/-- What opening publishes of it: the images that are left, behind the built-in one. -/
def repairedImages : List Entry :=
  [auraStore.builtInEntry true white solid, whiteEntry "photo", whiteEntry "painting"]

theorem committed_lostImages (ho : Opens auraStore white solid lostImages d' s) :
    Publishable auraStore repairedImages ∧
      Committed auraStore false 42 repairedImages lostImages d' s := by
  have hread := read_lostImages
  cases ho with
  | asIs _ _ hbuiltIn =>
    rw [hread] at hbuiltIn
    exact absurd hbuiltIn (by decide)
  | repaired next _ _ hnext hp hc =>
    rw [hread] at hnext hc
    have hnone : auraStore.findLegacyBuiltIn [whiteEntry "photo", whiteEntry "painting"] =
      none := by
      simp [findLegacyBuiltIn, whiteEntry, Entry.new]
    have hmissing :
        (auraStore.findBuiltIn [whiteEntry "photo", whiteEntry "painting"]).isSome = false := by
      rw [Bool.eq_false_iff, Ne, findBuiltIn_isSome]
      decide
    have heq : auraStore.repairedEntries [whiteEntry "photo", whiteEntry "painting"] white solid =
        some repairedImages := by
      unfold repairedEntries
      rw [hnone]
      dsimp only [eraseFound]
      rw [hmissing]
      rfl
    obtain rfl := Option.some.inj (hnext.symm.trans heq)
    exact ⟨hp, hc⟩
  | first _ hempty =>
    rw [hread] at hempty
    cases hempty

theorem left_lostImages : Left auraStore lostImages := by
  refine ⟨by rw [read_lostImages]; decide, fun manifest hmanifest => ?_⟩
  rw [pendingManifest_lostImages] at hmanifest
  cases hmanifest

/-- The catalog is repaired, and then the built-in image is taken out of the rotation. -/
theorem published_accepted_lostImages :
    ∃ x y s m, (system auraStore).Run (Ready auraStore) lostImages
        [openWhite lostImages, rotateQuietly auraStore false x.after] [x, y] y.after ∧
      x.outcome = .opened s ∧ s.generation = 42 ∧
      s.entries.map Entry.id = [auraStore.builtInId, "photo".toList, "painting".toList] ∧
      y.outcome = .mutated m ∧ m.result = .committed ∧
      auraService.PublishesWell s ∧ auraService.PublishesWell m.snapshot := by
  have hpending := pendingManifest_lostImages
  obtain ⟨x, hstep, hbefore, s, houtcome, hopens⟩ := exists_openQuietly validPlanes_white hpending
  have hleft := left_lostImages
  obtain ⟨hsound, hs⟩ := hopens.sound hpending hleft.catalog
  obtain ⟨hp, hc⟩ := committed_lostImages hopens
  have hread := hc.read hp (by decide) (by decide)
  obtain ⟨y, hstep', -, m, hmutated, hcommitted⟩ := exists_rotateQuietly hsound.1 false
  have hleft' : Left auraStore x.after := by
    refine ⟨by rw [hread]; decide, fun manifest hmanifest => ?_⟩
    rw [hsound.2] at hmanifest
    cases hmanifest
  have hfirst : (system auraStore).Run (Ready auraStore) _ _ _ _ :=
    System.Run.nil.snoc ⟨fun _ _ => id, hleft⟩ hstep
  have hrun := hfirst.snoc ⟨fun _ _ => id, hleft'⟩ hstep'
  have haura : auraService.IsAura := ⟨rfl, rfl, rfl⟩
  have hwell := published_accepted haura hrun
  have hopened : HasOpened [x] := ⟨x, List.mem_singleton_self x, s, houtcome⟩
  refine ⟨x, y, s, m, hrun, houtcome, ?_, ?_, hmutated, hcommitted,
    hwell [] x [y] rfl hopened s (Or.inl houtcome),
    hwell [x] y [] rfl ⟨x, List.mem_cons_self, s, houtcome⟩ _ (Or.inr ⟨m, hmutated, rfl⟩)⟩
  · rw [hs, hread]
  · rw [hs, hread]
    rfl

/-- The last generation, with no entry left. -/
def lastGeneration : Directory :=
  Directory.empty.write MANIFEST (auraStore.manifestBytes longMax [])

theorem read_lastGeneration : auraStore.read lastGeneration = ⟨longMax, [], false⟩ := by
  have hparse : parseManifest (auraStore.manifestBytes longMax []) = some (longMax, []) := by
    rw [parseManifest_manifestBytes (by decide) fun e he => absurd he List.not_mem_nil,
      if_neg (by decide)]
    rfl
  rw [read, readManifest, lastGeneration, Directory.content_write, Option.bind_some, hparse]
  rfl

theorem not_forall_published_accepted :
    ¬∀ (service : SleepImageCatalogService) (d₀ d : Directory) (as : List StoreAction)
      (log : List Executed), service.IsAura →
        (system service.store).Run (FreshIds service.store) d₀ as log d →
          EachEvent (fun pre x => HasOpened (pre ++ [x]) →
            ∀ s, x.Returns s → service.PublishesWell s) log := by
  intro hall
  have hpending : pendingManifest lastGeneration = none := by
    unfold pendingManifest
    rw [lastGeneration, Directory.content_write_ne (by decide), Directory.content_empty]
  obtain ⟨x, hstep, -, s, houtcome, hopens⟩ := exists_openQuietly validPlanes_white hpending
  have hfresh : FreshIds auraStore lastGeneration (openWhite lastGeneration) :=
    fun _ hid => hid.elim
  have hrun := System.Run.nil.snoc hfresh hstep
  have hwell := hall auraService lastGeneration x.after _ _ ⟨rfl, rfl, rfl⟩ hrun [] x [] rfl
    ⟨x, List.mem_singleton_self x, s, houtcome⟩ s (Or.inl houtcome)
  -- the generation wraps, and the snapshot is empty
  have hempty : s = {} := by
    cases hopens with
    | asIs hne => exact absurd (by rw [read_lastGeneration]) hne
    | repaired _ hne => exact absurd (by rw [read_lastGeneration]) hne
    | first _ _ hp hc =>
      have hvoid := hc.void hp (isLong_longSucc (isLong_max_zero (isLong_read _)))
        (by rw [read_lastGeneration]; decide)
      exact hc.snapshot_eq.trans (read_void hvoid)
  rw [hempty] at hwell
  exact (hwell.acceptable false none none).nonempty rfl

end EinkLab.SleepImageStore
