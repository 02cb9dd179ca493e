import EinkLab.SleepImageStore.Equiv.Atomicity

/-!
# What recovery keeps

A `Ledger` holds what the committed mutations of a run have promised: the entries they added and
have not given up since, and the rotation of the built-in entry.  From a directory without a
catalog, and whatever faults are injected, opening the store keeps all of it and never fails without
a reason, unless an entry is committed while a retirement is pending: `recovery_keeps_committed`.
-/

namespace EinkLab.SleepImageStore

open Text Files Transition Procedure System

variable {store : SleepImageStore} {d d' d₀ d₁ : Directory} {e o : Entry} {es next : List Entry}
  {g : Int} {id : EntryId} {calls : List FaultEvent} {s : Snapshot} {r : Request} {a : StoreAction}
  {m : Mutation} {x : Executed} {as : List StoreAction} {log evs : List Executed}
  {manifest : Bytes} {items : List Item} {nanos : UInt64}

/-! ### The ledger -/

structure Ledger where
  entries : List Entry := []
  rotation : Option Bool := none

def Executed.committed (x : Executed) : Bool :=
  match x.outcome with
  | .mutated m => decide (m.result = .committed)
  | _ => false

def Executed.hasOpened (x : Executed) : Bool :=
  match x.outcome with
  | .opened _ => true
  | _ => false

/-- The entry is in the catalog, and is given up when room is made in it. -/
def evicted (store : SleepImageStore) (d : Directory) (o : Entry) : Bool :=
  decide (o.id ∈ (store.read d).entries.map Entry.id) &&
    !decide (o.id ∈ (Catalog.makeRoom Entry.id store.builtInId MAXIMUM_ENTRIES
      (store.read d).entries).map Entry.id)

/-- What is promised after one more call: a committed mutation adds its change and takes back what
it removes or evicts; a repair evicts to restore a missing built-in entry. -/
def Ledger.record (store : SleepImageStore) (l : Ledger) (x : Executed) : Ledger :=
  match x.request with
  | .openAndRepair _ _ =>
    if x.hasOpened && !decide (store.builtInId ∈ (store.read x.before).entries.map Entry.id) then
      { l with entries := l.entries.filter fun o => !store.evicted x.before o }
    else l
  | .add _ gray alpha rgba nanos =>
    if x.committed then
      { l with entries := (l.entries.filter fun o => !store.evicted x.before o) ++
          [Entry.new (generatedId (store.read x.before).generation nanos) false true (gray.getD [])
            (alpha.getD []) rgba] }
    else l
  | .remove _ id =>
    if x.committed then { l with entries := l.entries.filter fun o => o.id ≠ id } else l
  | .setBuiltInRotation _ enabled => if x.committed then { l with rotation := some enabled } else l

def ledger (store : SleepImageStore) (log : List Executed) : Ledger :=
  log.foldl (Ledger.record store) {}

/-- The promised entry is in the catalog, with the promised planes. -/
def KeepsEntry (items : List Item) (o : Entry) : Prop :=
  ∃ color, (Entry.new o.id false true o.gray o.alpha, color) ∈ items ∧
    ∀ rgba, o.rgba = some rgba → color = some rgba

/-- The catalog keeps all that was promised. -/
structure Keeps (store : SleepImageStore) (items : List Item) (l : Ledger) : Prop where
  entries : ∀ o ∈ l.entries, KeepsEntry items o
  rotation : ∀ enabled, l.rotation = some enabled →
    ∃ x ∈ items, x.id = store.builtInId ∧ x.1.rotationEnabled = enabled

theorem ledger_append_singleton :
    ledger store (log ++ [x]) = (ledger store log).record store x := by
  simp [ledger]

/-! ### Ids tell generations -/

theorem append_dash_inj {xs ys us vs : List Char} (hu : '-' ∉ us) (hv : '-' ∉ vs)
    (h : xs ++ '-' :: us = ys ++ '-' :: vs) : xs = ys := by
  rcases List.append_eq_append_iff.mp h with ⟨zs, hys, hus⟩ | ⟨zs, hxs, hvs⟩
  · cases zs with
    | nil => simp [hys]
    | cons z zs =>
      obtain ⟨-, rfl⟩ := List.cons.inj hus
      simp at hu
  · cases zs with
    | nil => simp [hxs]
    | cons z zs =>
      obtain ⟨-, rfl⟩ := List.cons.inj hvs
      simp at hv

theorem dash_not_mem_toDigits (n : Nat) : '-' ∉ Nat.toDigits 10 n := by
  intro hmem
  have := isDigit_of_mem_toDigits hmem
  revert this
  decide

/-- The generation can be told from the id. -/
theorem generatedId_inj {k : Int} {nanos' : UInt64} (hk : IsLong k) (hg : IsLong g)
    (h : generatedId k nanos = generatedId g nanos') : longSucc k = longSucc g := by
  have htext : longText (longSucc k) = longText (longSucc g) :=
    append_dash_inj (dash_not_mem_toDigits _) (dash_not_mem_toDigits _) (List.cons.inj h).2
  have hparse := parseLong_longText (isLong_longSucc hk)
  rw [htext, parseLong_longText (isLong_longSucc hg)] at hparse
  exact (Option.some.inj hparse).symm

/-- No id is from a generation beyond `g`. -/
def IdsUpTo (g : Int) (ids : List EntryId) : Prop :=
  ∀ id ∈ ids, ∀ k nanos, IsLong k → id = generatedId k nanos → longSucc k ≤ g

theorem IdsUpTo.mono {ids ids' : List EntryId} {g' : Int} (h : IdsUpTo g ids) (hsub : ids' ⊆ ids)
    (hle : g ≤ g') : IdsUpTo g' ids' := by
  intro id hid k nanos hk heq
  have := h id (hsub hid) k nanos hk heq
  omega

theorem idsUpTo_of_head {ids : List EntryId} (h : ∀ id ∈ ids, id.head? ≠ some 'g') :
    IdsUpTo g ids := by
  intro id hid k nanos _ heq
  exact absurd (by rw [heq]; rfl) (h id hid)

theorem IdsUpTo.append_generated {ids : List EntryId} (h : IdsUpTo g ids) (hg : IsLong g)
    (hlt : g < longMax) : IdsUpTo (g + 1) (ids ++ [generatedId g nanos]) := by
  intro id hid k nanos' hk heq
  rcases List.mem_append.mp hid with hid | hid
  · have := h id hid k nanos' hk heq
    omega
  · rw [List.mem_singleton.mp hid] at heq
    have hsame := generatedId_inj hg hk heq
    have hsucc := longSucc_of_lt hlt
    omega

/-- The next id that is generated is a new one. -/
theorem IdsUpTo.generated_not_mem {ids : List EntryId} (h : IdsUpTo g ids) (hg : IsLong g)
    (hlt : g < longMax) : generatedId g nanos ∉ ids := by
  intro hmem
  have := h _ hmem g nanos hg rfl
  rw [longSucc_of_lt hlt] at this
  omega

/-! ### Keeping promises -/

theorem keepsEntry_iff : KeepsEntry (store.items d) o ↔
    Entry.new o.id false true o.gray o.alpha ∈ (store.read d).entries ∧
      ∀ rgba, o.rgba = some rgba → d.content (rgbaFile o.id) = some rgba := by
  unfold KeepsEntry SleepImageStore.items
  constructor
  · rintro ⟨color, hmem, hcolor⟩
    obtain ⟨e, he, heq⟩ := List.mem_map.mp hmem
    obtain ⟨rfl, rfl⟩ := Prod.mk.inj heq
    exact ⟨he, hcolor⟩
  · rintro ⟨he, hcolor⟩
    exact ⟨_, List.mem_map_of_mem he, hcolor⟩

theorem KeepsEntry.mono {items' : List Item} (hk : KeepsEntry items o) (hsub : items ⊆ items') :
    KeepsEntry items' o := by
  obtain ⟨color, hmem, hcolor⟩ := hk
  exact ⟨color, hsub hmem, hcolor⟩

/-- A promised entry is not the built-in one. -/
theorem KeepsEntry.ne_builtInId (hk : KeepsEntry (store.items d) o)
    (hagrees : (store.read d).metadataConflict = false) : o.id ≠ store.builtInId := by
  obtain ⟨-, -, -, hcanonical⟩ := read_wellFormed store d
  intro hid
  have hbuiltIn := congrArg Entry.builtIn (hcanonical hagrees _ (keepsEntry_iff.mp hk).1)
  simp [normalize, Entry.new, hid] at hbuiltIn

/-- Making room keeps the promised entries that are not evicted. -/
theorem KeepsEntry.makeRoom (hk : KeepsEntry (store.items d) o)
    (hkept : store.evicted d o = false) :
    KeepsEntry ((Catalog.makeRoom Entry.id store.builtInId MAXIMUM_ENTRIES
      (store.read d).entries).map (item d)) o := by
  obtain ⟨-, hdistinct, -⟩ := read_wellFormed store d
  obtain ⟨hmem, hcolor⟩ := keepsEntry_iff.mp hk
  refine ⟨_, List.mem_map_of_mem (f := item d) ?_, hcolor⟩
  have hid : o.id ∈ (store.read d).entries.map Entry.id := List.mem_map.mpr ⟨_, hmem, rfl⟩
  simp only [evicted, hid, decide_true, Bool.true_and, Bool.not_eq_false',
    decide_eq_true_eq] at hkept
  obtain ⟨e, he, heq⟩ := List.mem_map.mp hkept
  have hsame : e = Entry.new o.id false true o.gray o.alpha :=
    List.inj_on_of_nodup_map hdistinct (Catalog.makeRoom_sublist.subset he) hmem heq
  exact hsame ▸ he

theorem record_of_not_committed {l : Ledger} (hm : m.result ≠ .committed) :
    l.record store ⟨r, calls, .mutated m, d, d'⟩ = l := by
  unfold Ledger.record Executed.committed Executed.hasOpened
  cases r <;> simp [hm]

/-- The built-in entry is never evicted. -/
theorem Keeps.builtIn_makeRoom {l : Ledger} (hk : Keeps store (store.items d) l) :
    ∀ enabled, l.rotation = some enabled →
      ∃ x ∈ (Catalog.makeRoom Entry.id store.builtInId MAXIMUM_ENTRIES
        (store.read d).entries).map (item d), x.id = store.builtInId ∧
        x.1.rotationEnabled = enabled := by
  intro enabled henabled
  obtain ⟨x, hx, hid, hrotation⟩ := hk.rotation enabled henabled
  obtain ⟨e, he, rfl⟩ := List.mem_map.mp hx
  exact ⟨_, List.mem_map_of_mem (Catalog.mem_makeRoom_of_anchor he hid), hid, hrotation⟩

/-- **A committed mutation keeps its own promise and the earlier ones.** -/
theorem Keeps.committed {l : Ledger} (hk : Keeps store (store.items d) l)
    (hagrees : (store.read d).metadataConflict = false) (ha : Accepts store d r next)
    (hm : m.result = .committed) :
    Keeps store (next.map (store.committedItem d))
      (l.record store ⟨r, calls, .mutated m, d, d'⟩) := by
  obtain ⟨hfits, hdistinct, -⟩ := read_wellFormed store d
  cases r with
  | openAndRepair gray alpha => exact ha.elim
  | add expected gray alpha rgba nanos =>
    obtain ⟨-, -, gr, al, room, rfl, rfl, -, hroom, rfl⟩ := ha
    have hroom' := makeRoom_eq hfits hroom
    rw [List.map_append, committedItems_kept hagrees (hroom' ▸ Catalog.makeRoom_sublist).subset,
      List.map_singleton, committedItem_new, hroom']
    simp only [Ledger.record, Executed.committed, hm, decide_true, if_true, Option.getD_some]
    refine ⟨fun o ho => ?_, fun enabled henabled => ?_⟩
    · rcases List.mem_append.mp ho with ho | ho
      · -- an earlier promise goes with an entry that is evicted, and is kept otherwise
        obtain ⟨ho, hkept⟩ := List.mem_filter.mp ho
        have hkept' : store.evicted d o = false := by simpa using hkept
        exact ((hk.entries o ho).makeRoom hkept').mono (List.subset_append_left _ _)
      · -- the promise of this request
        rw [List.mem_singleton.mp ho]
        refine ⟨_, List.mem_append_right _ List.mem_cons_self, fun content hcontent => ?_⟩
        have hsome : rgba = some content := hcontent
        rw [hsome]
        rfl
    · obtain ⟨x, hx, hx'⟩ := hk.builtIn_makeRoom enabled henabled
      exact ⟨x, List.mem_append_left _ hx, hx'⟩
  | remove expected id =>
    obtain ⟨-, hbuiltIn, selected, hselected, rfl⟩ := ha
    rw [committedItems_kept hagrees (List.eraseIdx_sublist _ _).subset,
      eraseIdx_lastIndexOf hdistinct hselected]
    simp only [Ledger.record, Executed.committed, hm, decide_true, if_true]
    refine ⟨fun o ho => ?_, fun enabled henabled => ?_⟩
    · -- the promise of the removed entry is withdrawn with it
      obtain ⟨ho, hne⟩ := List.mem_filter.mp ho
      obtain ⟨hmem, hcolor⟩ := keepsEntry_iff.mp (hk.entries o ho)
      refine ⟨_, List.mem_map_of_mem (f := item d) (List.mem_filter.mpr ⟨hmem, ?_⟩), hcolor⟩
      exact hne
    · obtain ⟨x, hx, hid, hrotation⟩ := hk.rotation enabled henabled
      obtain ⟨e, he, rfl⟩ := List.mem_map.mp hx
      refine ⟨_, List.mem_map_of_mem (List.mem_filter.mpr ⟨he, ?_⟩), hid, hrotation⟩
      have hne : e.id ≠ id := fun h => hbuiltIn (h ▸ hid)
      simpa using hne
  | setBuiltInRotation expected enabled =>
    obtain ⟨-, selected, hselected, rfl⟩ := ha
    have hmem : store.builtInId ∈ (store.read d).entries.map Entry.id :=
      findBuiltIn_isSome.mp (by rw [hselected]; rfl)
    rw [modify_findBuiltIn hdistinct hselected, committedItems_withRotation hagrees]
    simp only [Ledger.record, Executed.committed, hm, decide_true, if_true]
    refine ⟨fun o ho => ?_, fun enabled' henabled => ?_⟩
    · -- no promise about an added entry is about the built-in one
      have hne := (hk.entries o ho).ne_builtInId hagrees
      obtain ⟨color, hitem, hcolor⟩ := hk.entries o ho
      refine ⟨color, List.mem_map.mpr ⟨_, hitem, ?_⟩, hcolor⟩
      exact if_neg hne
    · obtain rfl := Option.some.inj henabled
      obtain ⟨e, he, hid⟩ := List.mem_map.mp hmem
      obtain ⟨-, -, -, hcanonical⟩ := read_wellFormed store d
      have hbuiltIn : e.builtIn = true := by
        rw [← hcanonical hagrees e he]
        simp [normalize, Entry.new, hid]
      refine ⟨Item.rotated enabled (item d e), List.mem_map.mpr ⟨item d e, List.mem_map_of_mem he,
        if_pos hid⟩, hid, ?_⟩
      simp [Item.rotated, item, Entry.new, hbuiltIn]

/-! ### What can be recovered -/

/-- The first catalog, which is pending: its planes are on disk. -/
structure Replayable (store : SleepImageStore) (d : Directory) (es : List Entry) : Prop where
  publishable : Publishable store es
  holds : ∀ e ∈ es, Holds d e
  builtIn : store.builtInId ∈ es.map Entry.id
  given : ∀ id ∈ es.map Entry.id, id.head? ≠ some 'g'

/-- A pending retirement can be completed. -/
def PendingReplayable (store : SleepImageStore) (d : Directory) : Prop :=
  ∀ manifest, pendingManifest d = some manifest →
    ∃ es, manifest = store.manifestBytes 1 es ∧ Replayable store d es

/-- The directory of a store that has kept its promises. -/
inductive Recoverable (store : SleepImageStore) (l : Ledger) (d : Directory) : Prop
  | void (hvoid : Void d) (hpending : PendingReplayable store d) (hnothing : l = {})
  | stored (g : Int) (es : List Entry) (hstored : Stored store g es d)
      (hpending : pendingManifest d = none) (hids : IdsUpTo g (es.map Entry.id))
      (hkeeps : Keeps store (store.items d) l)

theorem pendingReplayable_of_none (h : pendingManifest d = none) : PendingReplayable store d := by
  intro manifest hm
  rw [h] at hm
  cases hm

theorem Replayable.frame {new : EntryId → Prop} (hr : Replayable store d es) (hf : Frame new d d')
    (hnew : ∀ id, new id → id.head? = some 'g') : Replayable store d' es := by
  refine { hr with holds := fun e he => hf.holds (fun hid => ?_) (hr.holds e he) }
  exact hr.given e.id (List.mem_map_of_mem he) (hnew e.id hid)

theorem head_of_newId (h : r.newId store d id) : id.head? = some 'g' := by
  cases r with
  | add expected gray alpha rgba nanos =>
    obtain ⟨-, rfl⟩ := h
    rfl
  | openAndRepair gray alpha => exact h.elim
  | remove expected id => exact h.elim
  | setBuiltInRotation expected enabled => exact h.elim

/-- No id of the catalog is generated again. -/
theorem Recoverable.fresh {l : Ledger} (hr : Recoverable store l d)
    (hlt : (store.read d).generation < longMax) : ∀ id ∈ catalogIds d, ¬ r.newId store d id := by
  intro id hid hnew
  cases hr with
  | void hvoid =>
    unfold catalogIds at hid
    rw [hvoid] at hid
    cases hid
  | stored g es hstored _ hids =>
    rw [hstored.catalogIds] at hid
    cases r with
    | add expected gray alpha rgba nanos =>
      obtain ⟨-, rfl⟩ := hnew
      rw [hstored.read] at hid hlt
      exact hids.generated_not_mem hstored.long hlt hid
    | openAndRepair gray alpha => exact hnew
    | remove expected id => exact hnew
    | setBuiltInRotation expected enabled => exact hnew

/-- An accepted request generates no id, or the next one. -/
theorem idsUpTo_of_accepts (ha : Accepts store d r next) (hlt : (store.read d).generation < longMax)
    (hids : IdsUpTo (store.read d).generation ((store.read d).entries.map Entry.id)) :
    IdsUpTo ((store.read d).generation + 1) (next.map Entry.id) := by
  obtain ⟨hfits, hdistinct, -⟩ := read_wellFormed store d
  have hsubset : ∀ {es : List Entry}, es.Sublist (store.read d).entries →
      es.map Entry.id ⊆ (store.read d).entries.map Entry.id :=
      fun hsub => (hsub.map Entry.id).subset
  cases r with
  | openAndRepair gray alpha => exact ha.elim
  | add expected gray alpha rgba nanos =>
    obtain ⟨-, -, gr, al, room, -, -, -, hroom, rfl⟩ := ha
    have hroom' := makeRoom_eq hfits hroom
    rw [List.map_append, List.map_singleton]
    refine IdsUpTo.append_generated (hids.mono (hsubset ?_) (Int.le_refl _)) (isLong_read d) hlt
    exact hroom' ▸ Catalog.makeRoom_sublist
  | remove expected id =>
    obtain ⟨-, -, selected, -, rfl⟩ := ha
    exact hids.mono (hsubset (List.eraseIdx_sublist _ _)) (by omega)
  | setBuiltInRotation expected enabled =>
    obtain ⟨-, selected, hselected, rfl⟩ := ha
    refine hids.mono ?_ (by omega)
    rw [modify_findBuiltIn hdistinct hselected, Catalog.update, List.map_map]
    intro id hid
    obtain ⟨e, he, rfl⟩ := List.mem_map.mp hid
    rw [Function.comp_apply]
    split
    · exact List.mem_map.mpr ⟨e, he, rfl⟩
    · exact List.mem_map_of_mem he

/-! ### Steps -/

/-- The call cannot wrap the generation, and commits no entry while a retirement is pending. -/
def Orderly (store : SleepImageStore) (d : Directory) (a : StoreAction) : Prop :=
  (store.read d).generation < longMax ∧
    ∀ next, Accepts store d a.request next → Faulted a.calls ∨ pendingManifest d = none

theorem Recoverable.idsUpTo {l : Ledger} (hr : Recoverable store l d) :
    IdsUpTo (store.read d).generation ((store.read d).entries.map Entry.id) := by
  cases hr with
  | void hvoid =>
    rw [read_void hvoid]
    simp [IdsUpTo]
  | stored g es hstored _ hids =>
    rw [hstored.read_ids, hstored.read]
    exact hids

theorem Recoverable.agrees {l : Ledger} (hr : Recoverable store l d) :
    (store.read d).metadataConflict = false := by
  cases hr with
  | void hvoid => rw [read_void hvoid]
  | stored g es hstored => rw [hstored.read]

theorem Recoverable.keeps {l : Ledger} (hr : Recoverable store l d) : Keeps store
    (store.items d) l := by
  cases hr with
  | void _ _ hnothing =>
    rw [hnothing]
    exact ⟨by simp, by simp⟩
  | stored _ _ _ _ _ hkeeps => exact hkeeps

/-- What a commit at an unexhausted generation leaves is recoverable. -/
theorem recoverable_of_committed {retireLegacy : Bool} {n : Int} {l : Ledger}
    (hc : Committed store retireLegacy (longSucc n) next d d' s) (hp : Publishable store next)
    (hlong : IsLong n) (hnonneg : 0 ≤ n) (hlt : n < longMax) (hpending : pendingManifest d' = none)
    (hids : IdsUpTo (n + 1) (next.map Entry.id))
    (hkeeps : Keeps store (next.map (store.committedItem d)) l) : Recoverable store l d' := by
  have hsucc := longSucc_of_lt hlt
  have hpos : 0 < longSucc n := by omega
  refine .stored _ next (hc.stored hp (isLong_longSucc hlong) hpos) hpending (hsucc ▸ hids) ?_
  rw [items_committed (hc.read hp (isLong_longSucc hlong) hpos) (hc.written hpos)]
  exact hkeeps

theorem Recoverable.mutated {l : Ledger} (hr : Recoverable store l d)
    (he : Ends store d r m calls d')
    (hlt : (store.read d).generation < longMax)
    (hguard : ∀ next, Accepts store d r next → Faulted calls ∨ pendingManifest d = none) :
    Recoverable store (l.record store ⟨r, calls, .mutated m, d, d'⟩) d' := by
  have hfresh : ∀ id ∈ catalogIds d, ¬ r.newId store d id := hr.fresh hlt
  rcases he with ⟨hresult, hframe, -⟩ | ⟨hresult, hfaultless, next, ha, hp, hc⟩
  · rw [record_of_not_committed hresult]
    cases hr with
    | void hvoid hpending hnothing =>
      refine .void (hvoid.of_manifest hframe.manifest) (fun manifest hm => ?_) hnothing
      rw [pendingManifest_congr hframe.marker] at hm
      obtain ⟨es, hes, hreplay⟩ := hpending manifest hm
      exact ⟨es, hes, hreplay.frame hframe fun id hid => head_of_newId hid⟩
    | stored g es hstored hpending hids hkeeps =>
      refine .stored g es (hstored.frame hframe (hstored.catalogIds ▸ hfresh)) ?_ hids ?_
      · rw [pendingManifest_congr hframe.marker]
        exact hpending
      · rw [items_of_frame hframe hfresh]
        exact hkeeps
  · have hpending := (hguard next ha).resolve_left hfaultless
    have hmarker := hc.marker
    rw [if_neg (by decide)] at hmarker
    refine recoverable_of_committed hc hp (isLong_read d) (read_generation_nonneg store d) hlt ?_
      (idsUpTo_of_accepts ha hlt hr.idsUpTo) (hr.keeps.committed hr.agrees ha hresult)
    rwa [pendingManifest_congr hmarker]

/-! ### Opening -/

/-- A replayable catalog is read back from the pending marker. -/
theorem Replayable.pendingSnapshot (hr : Replayable store d es) :
    store.pendingSnapshot d (store.manifestBytes 1 es) = ⟨1, es.map store.normalize, false⟩ := by
  have hkept : ∀ p id, (d.write RECOVERY (store.manifestBytes 1 es)).content (planeFile p id) =
      d.content (planeFile p id) := fun p id =>
    Directory.content_write_ne (planeFile_ne (c := '.') rfl (by decide) p id)
  have hholds : ∀ e ∈ es, Holds (d.write RECOVERY (store.manifestBytes 1 es)) e := fun e he =>
    ⟨(hkept .gray e.id).trans (hr.holds e he).gray, (hkept .alpha e.id).trans (hr.holds e he).alpha⟩
  exact readManifest_manifestBytes (by decide) (by decide) hr.publishable hholds
    Directory.content_write

/-- What completing a pending retirement leaves: nothing was pending, or the first catalog. -/
theorem Recoverable.recovered {l : Ledger} (hr : Recoverable store l d) (h : Recovered store d d₁) :
    Recoverable store l d₁ ∧ (d₁ = d ∨ Whole store d₁ ∧ store.read d = {} ∧ l = {}) := by
  unfold Recovered at h
  split at h
  · rw [h]
    exact ⟨hr, Or.inl rfl⟩
  · next manifest hm =>
    cases hr with
    | void hvoid hpending hnothing =>
      obtain ⟨es, rfl, hreplay⟩ := hpending manifest hm
      have hread : store.read _ = {} := read_void hvoid
      have hstored := h.stored (Or.inl (by rw [hread]))
      rw [hreplay.pendingSnapshot] at hstored
      have hids : (es.map store.normalize).map Entry.id = es.map Entry.id := by
        rw [List.map_map]
        rfl
      refine ⟨.stored _ _ hstored (pendingManifest_of_retired h.marker) ?_ ?_,
        Or.inr ⟨?_, hread, hnothing⟩⟩
      · rw [hids]
        exact idsUpTo_of_head hreplay.given
      · rw [hnothing]
        exact ⟨by simp, by simp⟩
      · refine ⟨hstored.entries_ne_nil, by rw [hstored.read], ?_⟩
        rw [hstored.read_ids, hids]
        exact hreplay.builtIn
    | stored g es _ hpending =>
      rw [hpending] at hm
      cases hm

/-- A pending retirement of a store that has kept its promises can be completed. -/
theorem Recoverable.not_unrecoverable {l : Ledger} (hr : Recoverable store l d) :
    ¬ Unrecoverable store d := by
  rintro ⟨manifest, hm, hbad⟩
  cases hr with
  | void hvoid hpending _ =>
    obtain ⟨es, rfl, hreplay⟩ := hpending manifest hm
    rw [hreplay.pendingSnapshot] at hbad
    rcases hbad with hempty | hconflict
    · exact hreplay.publishable.nonempty (by simpa using hempty)
    · cases hconflict
  | stored g es _ hpending =>
    rw [hpending] at hm
    cases hm

theorem head_builtInId : store.builtInId.head? = some 'b' := by
  obtain ⟨rest, hrest⟩ := store.builtInId_named
  rw [← hrest]
  rfl

/-- The ids of a first catalog are not generated ones. -/
theorem head_migratedEntries {gray alpha : Bytes} :
    ∀ id ∈ (store.migratedEntries d gray alpha).map Entry.id, id.head? ≠ some 'g' := by
  obtain ⟨legacy, hl, heq⟩ := migratedEntries_eq store d gray alpha
  rw [heq, List.map_cons, hl.ids]
  intro id hid
  rcases List.mem_cons.mp hid with rfl | hid
  · rw [show (store.builtInEntry true gray alpha).id = store.builtInId from rfl, head_builtInId]
    decide
  · obtain ⟨n, -, rfl⟩ := List.mem_map.mp hid
    show some 'l' ≠ some 'g'
    decide

theorem builtInId_mem_migratedEntries {gray alpha : Bytes} :
    store.builtInId ∈ (store.migratedEntries d gray alpha).map Entry.id := by
  obtain ⟨legacy, -, heq⟩ := migratedEntries_eq store d gray alpha
  rw [heq]
  exact List.mem_cons_self

/-- Without a conflict there is no entry of a retired built-in id. -/
theorem keptEntries_eq (hagrees : (store.read d).metadataConflict = false) :
    store.keptEntries (store.read d).entries = (store.read d).entries := by
  obtain ⟨-, -, -, hcanonical⟩ := read_wellFormed store d
  refine List.eraseP_of_forall_not fun e he hretired => ?_
  rw [retiredBuiltIn, Bool.and_eq_true] at hretired
  have hbuiltIn := congrArg Entry.builtIn (hcanonical hagrees e he)
  rw [hretired.1] at hbuiltIn
  have hid : e.id = store.builtInId := by simpa [normalize, Entry.new] using hbuiltIn
  rw [hid, isLegacyBuiltInId_builtInId] at hretired
  cases hretired.2

/-- A repair keeps what it does not evict. -/
theorem Keeps.repaired {l : Ledger} {gray alpha : Bytes} (hk : Keeps store (store.items d) l)
    (hagrees : (store.read d).metadataConflict = false)
    (hmissing : store.builtInId ∉ (store.read d).entries.map Entry.id)
    (hnext : store.repairedEntries (store.read d).entries gray alpha = some next) :
    Keeps store (next.map (store.committedItem d))
      { l with entries := l.entries.filter fun o => !store.evicted d o } := by
  obtain ⟨hfits, hdistinct, -⟩ := read_wellFormed store d
  obtain ⟨rotation, heq⟩ := repairedEntries_eq store gray alpha hfits hdistinct
  rw [heq, if_neg hmissing, keptEntries_eq hagrees] at hnext
  obtain rfl := Option.some.inj hnext
  rw [List.map_cons, committedItems_kept hagrees Catalog.makeRoom_sublist.subset]
  refine ⟨fun o ho => ?_, fun enabled henabled => ?_⟩
  · obtain ⟨ho, hkept⟩ := List.mem_filter.mp ho
    have hkept' : store.evicted d o = false := by simpa using hkept
    exact ((hk.entries o ho).makeRoom hkept').mono (List.subset_cons_self _ _)
  · obtain ⟨x, hx, hid, -⟩ := hk.rotation enabled henabled
    exact absurd (items_ids ▸ List.mem_map.mpr ⟨x, hx, hid⟩) hmissing

theorem idsUpTo_repaired {gray alpha : Bytes}
    (hids : IdsUpTo g ((store.read d).entries.map Entry.id))
    (hnext : store.repairedEntries (store.read d).entries gray alpha = some next) :
    IdsUpTo (g + 1) (next.map Entry.id) := by
  obtain ⟨hfits, hdistinct, -⟩ := read_wellFormed store d
  obtain ⟨rotation, heq⟩ := repairedEntries_eq store gray alpha hfits hdistinct
  rw [heq] at hnext
  obtain rfl := Option.some.inj hnext
  split
  · exact hids.mono (keptEntries_sublist.map Entry.id).subset (by omega)
  · intro id hid k nanos hk heq
    rcases List.mem_cons.mp hid with rfl | hid
    · have hhead := congrArg List.head? heq
      rw [show (store.builtInEntry rotation gray alpha).id = store.builtInId from rfl,
        head_builtInId] at hhead
      cases hhead
    · have hsub : ((Catalog.makeRoom Entry.id store.builtInId MAXIMUM_ENTRIES
          (store.keptEntries (store.read d).entries)).map Entry.id).Sublist
          ((store.read d).entries.map Entry.id) :=
        (Catalog.makeRoom_sublist.trans keptEntries_sublist).map Entry.id
      exact (hids.mono hsub.subset (by omega)) id hid k nanos hk heq

/-- The promises after an opening, in terms of the directory that its recovery leaves. -/
theorem record_opened {l : Ledger} {gray alpha : Option Bytes}
    (hd₁ : d₁ = d ∨ Whole store d₁ ∧ store.read d = {} ∧ l = {}) :
    l.record store ⟨.openAndRepair gray alpha, calls, .opened s, d, d'⟩ =
      if store.builtInId ∈ (store.read d₁).entries.map Entry.id then l
      else { l with entries := l.entries.filter fun o => !store.evicted d₁ o } := by
  rcases hd₁ with rfl | ⟨-, -, rfl⟩
  · by_cases hmem : store.builtInId ∈ (store.read d₁).entries.map Entry.id <;>
      simp [Ledger.record, Executed.hasOpened, hmem]
  · unfold Ledger.record
    dsimp only
    split <;> split <;> rfl

theorem Recoverable.opened {l : Ledger} {gray alpha : Bytes}
    {fallbackGray fallbackAlpha : Option Bytes}
    (hr : Recoverable store l d) (hlt : (store.read d).generation < longMax)
    (h : Recovered store d d₁) (ho : Opens store gray alpha d₁ d' s) :
    Recoverable store (l.record store
      ⟨.openAndRepair fallbackGray fallbackAlpha, calls, .opened s, d, d'⟩) d' := by
  obtain ⟨hr₁, hd₁⟩ := hr.recovered h
  rw [record_opened hd₁]
  have hnonneg := read_generation_nonneg store d₁
  cases ho with
  | asIs _ _ hbuiltIn _ hd =>
    -- the catalog was complete already
    rw [if_pos hbuiltIn, hd]
    exact hr₁
  | repaired next hne hbad hnext hp hc =>
    -- as the metadata agree, the built-in entry is what was missing
    have hmissing := hbad.resolve_left (by rw [hr₁.agrees]; decide)
    have hlt₁ : (store.read d₁).generation < longMax := by
      rcases hd₁ with rfl | ⟨hwhole, -⟩
      · exact hlt
      · exact absurd hwhole.builtIn hmissing
    have hmarker := hc.marker
    rw [if_neg (by decide)] at hmarker
    rw [if_neg hmissing]
    refine recoverable_of_committed hc hp (isLong_read d₁) hnonneg hlt₁ ?_
      (idsUpTo_repaired hr₁.idsUpTo hnext) (hr₁.keeps.repaired hr₁.agrees hmissing hnext)
    rw [pendingManifest_congr hmarker]
    exact h.pending
  | first retireLegacy hempty hp hc =>
    -- a first catalog, before which nothing can have been promised
    have hmissing : store.builtInId ∉ (store.read d₁).entries.map Entry.id := by
      rw [hempty]
      exact List.not_mem_nil
    rw [if_neg hmissing]
    cases hr₁ with
    | stored g es hstored => exact absurd hempty hstored.entries_ne_nil
    | void hvoid _ hnothing =>
      rw [hnothing]
      rw [read_void hvoid] at hc
      refine recoverable_of_committed hc hp (by decide) (by decide) (by decide) ?_
        (idsUpTo_of_head head_migratedEntries) ⟨by simp, by simp⟩
      have hmarker := hc.marker
      split at hmarker
      · exact pendingManifest_of_retired hmarker
      · rw [pendingManifest_congr hmarker]
        exact h.pending

/-- An opening that throws breaks no promise. -/
theorem Recoverable.thrown {l : Ledger} {gray alpha : Option Bytes} (hr : Recoverable store l d)
    (ht : Throws store gray alpha d calls d') : Recoverable store l d' := by
  rcases ht with ⟨-, hd⟩ | ⟨hbad, -⟩ | ⟨-, gr, al, d₁, -, h, ha⟩
  · rw [hd]
    exact hr
  · exact absurd hbad hr.not_unrecoverable
  obtain ⟨hr₁, -⟩ := hr.recovered h
  cases hr₁ with
  | stored g es hstored hpending hids hkeeps =>
    cases ha with
    | first _ hempty => exact absurd hempty hstored.entries_ne_nil
    | repair new hne hnew hframe =>
      -- only planes of an id that the catalog lacks have been touched
      have hfresh := (Settled.stored g es hstored).repair_fresh hne hnew
      refine .stored g es (hstored.frame hframe (hstored.catalogIds ▸ hfresh)) ?_ hids ?_
      · rw [pendingManifest_congr hframe.marker]
        exact hpending
      · rw [items_of_frame hframe hfresh]
        exact hkeeps
  | void hvoid _ hnothing =>
    cases ha with
    | repair new hne => exact absurd (by rw [read_void hvoid]) hne
    | first retireLegacy hempty hp haborted =>
      -- the fault came before the marker, or after it
      rcases haborted with hframe | ⟨-, d₂, hframe, hwritten, hplaced⟩
      · refine .void (hvoid.of_manifest hframe.manifest) (pendingReplayable_of_none ?_) hnothing
        rw [pendingManifest_congr hframe.marker]
        exact h.pending
      · have hmanifest : d'.content MANIFEST = d₁.content MANIFEST := by
          rw [hplaced _ (by decide), if_neg (by decide), hframe.manifest]
        refine .void (hvoid.of_manifest hmanifest) (fun manifest hm => ?_) hnothing
        refine ⟨_, (pendingManifest_of_placed hplaced hm).trans ?_, hp, fun e he => ?_,
          builtInId_mem_migratedEntries, head_migratedEntries⟩
        · rw [read_void hvoid]
          rfl
        · exact ((hwritten e he).of_planes (hplaced.planes (c := 'l') rfl (by decide))).holds

/-! ### Runs -/

/-- Opening has succeeded, and its catalog keeps all that was promised. -/
def Recovers (store : SleepImageStore) (earlier : List Executed) (x : Executed) : Prop :=
  ∃ s, x.outcome = .opened s ∧ s = store.read x.after ∧
    Keeps store (store.items x.after) (ledger store (earlier ++ [x]))

theorem Opens.snapshot_eq {gray alpha : Bytes} (ho : Opens store gray alpha d₁ d' s) :
    s = store.read d' := by
  cases ho with
  | asIs _ _ _ hs hd => rw [hs, hd]
  | repaired _ _ _ _ _ hc => exact hc.snapshot_eq
  | first _ _ _ hc => exact hc.snapshot_eq

/-- One step: the store stays recoverable, and an opening recovers. -/
theorem Recoverable.step {l : Ledger} (hr : Recoverable store l d) (hok : Orderly store d a)
    (hstep : (system store).step d a = some (d', evs)) :
    ∃ x, evs = [x] ∧ Recoverable store (l.record store x) d' ∧
      ∀ gray alpha, x.request = .openAndRepair gray alpha → AcceptsPlanes store gray alpha →
        ¬ Faulted x.calls → ∃ s, x.outcome = .opened s ∧ s = store.read x.after ∧ x.after = d' := by
  have hfresh : ∀ e ∈ (store.read d).entries, ¬ a.request.newId store d e.id := fun e he =>
    hr.fresh hok.1 _ (mem_catalogIds he)
  obtain ⟨x, rfl, rfl, rfl, hrequest, hcalls, he⟩ := step_cases hstep hfresh
  obtain ⟨request, calls, outcome, before, after⟩ := x
  obtain ⟨request', calls'⟩ := a
  dsimp only at hrequest hcalls he hr hok ⊢
  subst hrequest
  subst hcalls
  refine ⟨_, rfl, ?_⟩
  cases he with
  | opened gray alpha d₁ s hrequest houtcome _ _ h ho =>
    dsimp only at hrequest houtcome h ho
    subst hrequest
    subst houtcome
    exact ⟨hr.opened hok.1 h ho, fun _ _ _ _ _ => ⟨s, rfl, ho.snapshot_eq, rfl⟩⟩
  | threw gray alpha hrequest houtcome ht =>
    dsimp only at hrequest houtcome ht
    subst hrequest
    subst houtcome
    refine ⟨hr.thrown ht, ?_⟩
    rintro _ _ hsame haccepts hfaultless
    cases hsame
    rcases ht with ⟨hrefused, -⟩ | ⟨hbad, -⟩ | ⟨hfault, -⟩
    · exact absurd haccepts hrefused
    · exact absurd hbad hr.not_unrecoverable
    · exact absurd hfault hfaultless
  | mutated m hmutation houtcome he =>
    dsimp only at hmutation houtcome he
    subst houtcome
    exact ⟨hr.mutated he hok.1 hok.2, fun gray alpha h => absurd h (hmutation gray alpha)⟩

/-- **Recovery keeps what was committed.** -/
theorem recovery_keeps_committed (hvoid : Void d₀) (hpending : pendingManifest d₀ = none)
    (hrun : (system store).Run (Orderly store) d₀ as log d) :
    EachEvent (fun earlier x => ∀ gray alpha, x.request = .openAndRepair gray alpha →
      AcceptsPlanes store gray alpha → ¬ Faulted x.calls → Recovers store earlier x) log := by
  have hinvariant : Recoverable store (ledger store log) d ∧
      EachEvent (fun earlier x => ∀ gray alpha, x.request = .openAndRepair gray alpha →
        AcceptsPlanes store gray alpha → ¬ Faulted x.calls → Recovers store earlier x) log := by
    refine hrun.induct (fun _ log d => Recoverable store (ledger store log) d ∧
      EachEvent (fun earlier x => ∀ gray alpha, x.request = .openAndRepair gray alpha →
        AcceptsPlanes store gray alpha → ¬ Faulted x.calls → Recovers store earlier x) log) ?_ ?_
    · exact ⟨.void hvoid (pendingReplayable_of_none hpending) rfl, eachEvent_nil _⟩
    · rintro _ log d a d' evs ⟨hr, heach⟩ hok hstep
      obtain ⟨x, rfl, hr', hopens⟩ := hr.step hok hstep
      rw [← ledger_append_singleton] at hr'
      refine ⟨hr', eachEvent_append_singleton.mpr
        ⟨heach, fun gray alpha hrequest haccepts hfaultless => ?_⟩⟩
      obtain ⟨s, houtcome, hs, rfl⟩ := hopens gray alpha hrequest haccepts hfaultless
      exact ⟨s, houtcome, hs, hr'.keeps⟩
  exact hinvariant.2

/-- The generation can grow, and only opening meets a pending retirement. -/
def Unhurried (store : SleepImageStore) (d : Directory) (a : StoreAction) : Prop :=
  (store.read d).generation < longMax ∧
    (pendingManifest d = none ∨ a.request = openPixel)

instance (store : SleepImageStore) (d : Directory) (a : StoreAction) :
    Decidable (Unhurried store d a) :=
  inferInstanceAs (Decidable (_ ∧ _))

theorem Unhurried.orderly (h : Unhurried store d a) : Orderly store d a := by
  refine ⟨h.1, fun next ha => Or.inr (h.2.resolve_right fun hopen => ?_)⟩
  rw [hopen] at ha
  exact ha

/-- A directory with one candidate of the retired format. -/
def legacyPixel : Directory := Directory.empty.write "candidate-a.gray".toList [0x30]

/-- The first opening fails at the manifest, with a retirement pending; then adding an image fails
at its colour plane, is tried again, and switching the rotation fails at the manifest. -/
def faultsAroundAdd : List StoreAction :=
  [⟨openPixel, [⟨.gray, false⟩, ⟨.alpha, false⟩, ⟨.gray, false⟩, ⟨.alpha, false⟩,
      ⟨.legacyRetirement, false⟩, ⟨.manifest, true⟩]⟩,
    ⟨openPixel, []⟩,
    ⟨addPixel 1, [⟨.gray, false⟩, ⟨.alpha, false⟩, ⟨.rgba, true⟩]⟩,
    ⟨addPixel 1, [⟨.gray, false⟩, ⟨.alpha, false⟩, ⟨.rgba, false⟩, ⟨.manifest, false⟩]⟩,
    ⟨.setBuiltInRotation 2 false, [⟨.manifest, true⟩]⟩]

/-- The image that was added is there when the store is opened again. -/
theorem recovery_keeps_committed_of_faults :
    ∃ log x d, (system pixelStore).Run (Orderly pixelStore) legacyPixel
        (faultsAroundAdd ++ [⟨openPixel, []⟩]) (log ++ [x]) d ∧
      log.map Executed.committed = [false, false, false, true, false] ∧
      Recovers pixelStore log x ∧ KeepsEntry (pixelStore.items x.after)
        (Entry.new (generatedId 1 7) false true [0x20] [0xff] (some [1, 2, 3, 4])) := by
  have hexec : ((system pixelStore).exec (Unhurried pixelStore) legacyPixel
      (faultsAroundAdd ++ [⟨openPixel, []⟩])).any (fun r =>
        decide (r.2.map Executed.committed = [false, false, false, true, false, false]) &&
        (r.2.drop 5).all (fun x => x.request = openPixel ∧ x.calls = []) &&
        decide ((ledger pixelStore r.2).entries =
          [Entry.new (generatedId 1 7) false true [0x20] [0xff] (some [1, 2, 3, 4])])) = true := by
    decide +kernel
  obtain ⟨⟨d, log⟩, hlog, hall⟩ := (Option.any_eq_true _ _).mp hexec
  have hrun := (System.Run.of_exec hlog).mono fun d a h => h.orderly
  simp only [Bool.and_eq_true, decide_eq_true_eq] at hall
  obtain ⟨⟨hcommitted, hlast⟩, hledger⟩ := hall
  -- the last call opens the store
  obtain ⟨x, hx⟩ : ∃ x, log.drop 5 = [x] := by
    refine List.length_eq_one_iff.mp ?_
    rw [List.length_drop, ← List.length_map (f := Executed.committed), hcommitted]
    rfl
  have hsplit : log = log.take 5 ++ [x] := by
    rw [← hx, List.take_append_drop]
  obtain ⟨hrequest, hcalls⟩ :=
    of_decide_eq_true (List.all_eq_true.mp hlast x (hx ▸ List.mem_singleton_self x))
  have hfaultless : ¬Faulted x.calls := by
    rw [hcalls]
    exact not_faulted_nil
  have haccepts : AcceptsPlanes pixelStore (some [0x10]) (some [0xff]) := by
    show pixelStore.validPlanes [0x10] [0xff] = true
    decide
  have hvoid : Void legacyPixel := by
    unfold Void
    decide +kernel
  rw [hsplit] at hrun hledger
  obtain ⟨s, hopened, hread, hkeeps⟩ := recovery_keeps_committed hvoid (by decide +kernel) hrun
    _ x [] rfl _ _ hrequest haccepts hfaultless
  refine ⟨log.take 5, x, d, hrun, ?_, ⟨s, hopened, hread, hkeeps⟩, hkeeps.entries _ ?_⟩
  · rw [List.map_take, hcommitted]
    rfl
  · rw [hledger]
    exact List.mem_singleton_self _

/-! ### What recovery does not keep -/

/-- An image added to the pixel store at the given generation. -/
def addAt (generation : Int) : StoreAction where
  request := .add generation (some [0x20]) (some [0xff]) none 7
  calls := [⟨.gray, false⟩, ⟨.alpha, false⟩, ⟨.manifest, false⟩]

def openAlone (calls : List FaultEvent) : StoreAction := ⟨openPixel, calls⟩

/-- Eight images are added before the store is ever opened, and it is opened without a fault. -/
def eightImages : List StoreAction :=
  (List.range 8).map (fun n => addAt n) ++
    [openAlone [⟨.gray, false⟩, ⟨.alpha, false⟩, ⟨.manifest, false⟩]]

/-- The first opening fails at the manifest, an image is added, and the store is opened again
without a fault. -/
def imageWhilePending : List StoreAction :=
  [openAlone [⟨.gray, false⟩, ⟨.alpha, false⟩, ⟨.gray, false⟩, ⟨.alpha, false⟩,
    ⟨.legacyRetirement, false⟩, ⟨.manifest, true⟩], addAt 0, openAlone []]

/-- **A committed image can be lost, and the store can wedge.**  After eight images are committed to
a store that was never opened, each without evicting another, opening gives up the first one to make
room for the built-in image.  And after an image is committed while a retirement is pending, opening
without a fault throws. -/
theorem committed_image_lost_or_store_wedged :
    ((system pixelStore).exec System.anyAction .empty eightImages).any (fun r =>
      r.2.length = 9 && (r.2.take 8).all (fun x =>
        x.committed && (pixelStore.read x.before).entries.length < MAXIMUM_ENTRIES) &&
      (r.2.drop 8).all Executed.hasOpened &&
      !((pixelStore.read r.1).entries.map Entry.id).contains (generatedId 0 7)) = true ∧
    ((system pixelStore).exec System.anyAction legacyPixel imageWhilePending).any (fun r =>
      (r.2.map Executed.committed = [false, true, false]) &&
      (r.2.drop 2).all fun x => x.outcome = .threw) = true := by
  constructor <;> decide +kernel

end EinkLab.SleepImageStore
