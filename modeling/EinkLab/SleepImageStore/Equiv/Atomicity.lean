import EinkLab.SleepImageStore.Equiv.Settled

/-!
# Mutations are atomic

A mutation of a store that has been opened either leaves the catalog as it was or changes it exactly
as intended (`Atomic`), whatever faults are injected.  So the generation grows by one with every
committed mutation, and no two of them had the same expected generation: `mutations_atomic`.
-/

namespace EinkLab.SleepImageStore

open Text Files Transition Procedure System

variable {store : SleepImageStore} {d d' d₀ d₁ : Directory} {e : Entry} {es next : List Entry}
  {h calls : List FaultEvent} {s : Snapshot} {r : Request} {a : StoreAction} {m : Mutation}
  {x : Executed} {as : List StoreAction} {log evs : List Executed}

/-! ### The steps of the store -/

/-- How a call ends. -/
inductive Ended (store : SleepImageStore) (x : Executed) : Prop
  | opened (gray alpha : Bytes) (d₁ : Directory) (s : Snapshot)
      (request : x.request = .openAndRepair (some gray) (some alpha))
      (outcome : x.outcome = .opened s)
      (faultless : ¬ Faulted x.calls) (valid : store.validPlanes gray alpha = true)
      (recovered : Recovered store x.before d₁) (opens : Opens store gray alpha d₁ x.after s)
  | threw (gray alpha : Option Bytes) (request : x.request = .openAndRepair gray alpha)
      (outcome : x.outcome = .threw) (throws : Throws store gray alpha x.before x.calls x.after)
  | mutated (m : Mutation) (request : ∀ gray alpha, x.request ≠ .openAndRepair gray alpha)
      (outcome : x.outcome = .mutated m)
      (ends : Ends store x.before x.request m x.calls x.after)

/-- A mutation does not throw. -/
theorem sat_execute_mutation {work : Work Mutation}
    {F : Assertion FaultPoint (fun _ => Bool) Directory}
    (hm : work.Sat (fun _ _ => False) (Ends store d r) h d) :
    (do let m ← work; pure (Outcome.mutated m) : Work Outcome).Sat F
      (fun o h' d' => ∃ m, o = .mutated m ∧ Ends store d r m h' d') h d := by
  rw [sat_bind]
  refine hm.mono (fun _ _ hf => hf.elim) ?_
  exact fun m h' d' he => ⟨m, rfl, he⟩

/-- **The steps of the store**, if an id is not generated twice. -/
theorem step_cases (hstep : (system store).step d a = some (d', evs))
    (hfresh : ∀ e ∈ (store.read d).entries, ¬ a.request.newId store d e.id) :
    ∃ x, evs = [x] ∧ x.before = d ∧ x.after = d' ∧ x.request = a.request ∧ x.calls = a.calls ∧
      Ended store x := by
  obtain ⟨⟨result, t⟩, hreplay, heq⟩ := Option.map_eq_some_iff.mp hstep
  obtain ⟨rfl, rfl⟩ := Prod.mk.inj heq
  refine ⟨_, rfl, rfl, rfl, rfl, rfl, ?_⟩
  obtain ⟨request, calls⟩ := a
  dsimp only at hreplay hfresh ⊢
  -- a mutation ends with a result
  have hmutation : (∀ gray alpha, request ≠ .openAndRepair gray alpha) →
      (store.execute request).Sat (fun _ _ => False)
      (fun o h' d' => ∃ m, o = .mutated m ∧ Ends store d request m h' d') [] d →
      Ended store ⟨request, calls, result.getD .threw, d, t⟩ := by
    intro hrequest hsat
    obtain ⟨hdone, hthrew⟩ := sat_replay hsat hreplay
    cases result with
    | none => exact (hthrew rfl).elim
    | some o =>
      obtain ⟨m, rfl, he⟩ := hdone o rfl
      exact .mutated m hrequest rfl he
  cases request with
  | openAndRepair gray alpha =>
    have hsat : (store.openAndRepair gray alpha).Sat (Throws store gray alpha d) _ [] d :=
      sat_openAndRepair not_faulted_nil
    have hopen : (store.execute (.openAndRepair gray alpha)).Sat (Throws store gray alpha d)
        (fun o h' d' => ∃ s, o = .opened s ∧ ¬ Faulted h' ∧ ∃ gr al d₁, gray = some gr ∧
          alpha = some al ∧ store.validPlanes gr al = true ∧ Recovered store d d₁ ∧
          Opens store gr al d₁ d' s) [] d := by
      unfold execute
      rw [sat_bind]
      exact hsat.mono (fun _ _ ht => ht) fun s h' d' ho => ⟨s, rfl, ho⟩
    obtain ⟨hdone, hthrew⟩ := sat_replay hopen hreplay
    cases result with
    | none => exact .threw gray alpha rfl rfl (hthrew rfl)
    | some o =>
      obtain ⟨s, rfl, hh, gr, al, d₁, rfl, rfl, hvalid, hr, ho⟩ := hdone o rfl
      exact .opened gr al d₁ s rfl rfl hh hvalid hr ho
  | add expected gray alpha rgba nanos =>
    exact hmutation nofun (sat_execute_mutation (sat_add hfresh not_faulted_nil))
  | remove expected id => exact hmutation nofun (sat_execute_mutation (sat_remove not_faulted_nil))
  | setBuiltInRotation expected enabled =>
    exact hmutation nofun (sat_execute_mutation (sat_setBuiltInRotation not_faulted_nil))

/-! ### The catalog and what mutations intend -/

/-- An entry with its colour plane on disk. -/
abbrev Item := Entry × Option Bytes

def Item.id (x : Item) : EntryId := x.1.id

def item (d : Directory) (e : Entry) : Item := (e, d.content (rgbaFile e.id))

theorem id_item (d : Directory) (e : Entry) : (item d e).id = e.id := rfl

/-- The catalog, colour planes included. -/
def items (store : SleepImageStore) (d : Directory) : List Item :=
  (store.read d).entries.map (item d)

theorem items_ids : (store.items d).map Item.id = (store.read d).entries.map Entry.id := by
  rw [items, List.map_map]
  exact List.map_congr_left fun e _ => id_item d e

/-- The item with the rotation switched, and nothing else. -/
def Item.rotated (enabled : Bool) (x : Item) : Item :=
  (Entry.new x.1.id x.1.builtIn enabled x.1.gray x.1.alpha x.1.rgba, x.2)

/-- The catalog that a mutation of a catalog with generation `g` is asked for. -/
def Intended (store : SleepImageStore) (g : Int) (before after : List Item) : Request → Prop
  | .openAndRepair _ _ => False
  | .add _ gray alpha rgba nanos => ∃ gr al, gray = some gr ∧ alpha = some al ∧
      after = Catalog.append Item.id store.builtInId MAXIMUM_ENTRIES before
        (Entry.new (generatedId g nanos) false true gr al, rgba)
  | .remove _ id => id ≠ store.builtInId ∧ id ∈ before.map Item.id ∧
      after = Catalog.remove Item.id before id
  | .setBuiltInRotation _ enabled => store.builtInId ∈ before.map Item.id ∧
      after = Catalog.update Item.id before store.builtInId (Item.rotated enabled)

def Request.expectedGeneration : Request → Option Int
  | .openAndRepair _ _ => none
  | .add expected _ _ _ _ | .remove expected _ | .setBuiltInRotation expected _ => some expected

/-- A mutation does nothing, or all that it is asked for. -/
def Atomic (store : SleepImageStore) (x : Executed) (m : Mutation) : Prop :=
  m.snapshot = store.read x.after ∧
  if m.result = .committed then
    x.request.expectedGeneration = some (store.read x.before).generation ∧
    (store.read x.after).generation = (store.read x.before).generation + 1 ∧
    (store.read x.after).metadataConflict = false ∧
    Intended store (store.read x.before).generation (store.items x.before) (store.items x.after)
      x.request
  else store.read x.after = store.read x.before ∧ store.items x.after = store.items x.before

/-- The id that an `add` generates is in no use, neither by the catalog nor by a file. -/
def FreshIds (store : SleepImageStore) (d : Directory) (a : StoreAction) : Prop :=
  ∀ id, a.request.newId store d id → id ∉ catalogIds d ∧ ∀ p, d.content (planeFile p id) = none

instance (store : SleepImageStore) (d : Directory) :
    (a : StoreAction) → Decidable (FreshIds store d a)
  | ⟨.add expected _ _ _ nanos, _⟩ =>
    decidable_of_iff (expected = (store.read d).generation →
        generatedId (store.read d).generation nanos ∉ catalogIds d ∧
          ∀ p ∈ [Plane.gray, .alpha, .rgba],
            d.content (planeFile p (generatedId (store.read d).generation nanos)) = none) <| by
      constructor
      · rintro h id ⟨hexpected, rfl⟩
        refine ⟨(h hexpected).1, fun p => (h hexpected).2 p ?_⟩
        cases p <;> decide
      · exact fun h hexpected => ⟨(h _ ⟨hexpected, rfl⟩).1, fun p _ => (h _ ⟨hexpected, rfl⟩).2 p⟩
  | ⟨.openAndRepair _ _, _⟩ => isTrue fun _ hid => hid.elim
  | ⟨.remove _ _, _⟩ => isTrue fun _ hid => hid.elim
  | ⟨.setBuiltInRotation _ _, _⟩ => isTrue fun _ hid => hid.elim

theorem FreshIds.entries (hf : FreshIds store d a) :
    ∀ e ∈ (store.read d).entries, ¬ a.request.newId store d e.id :=
  fun _ he hid => (hf _ hid).1 (mem_catalogIds he)

theorem FreshIds.catalogIds (hf : FreshIds store d a) :
    ∀ id ∈ catalogIds d, ¬ a.request.newId store d id :=
  fun id hmem hid => (hf id hid).1 hmem

/-! ### Atomicity of one mutation -/

/-- The item that an entry committed in `d` becomes. -/
def committedItem (store : SleepImageStore) (d : Directory) (e : Entry) : Item :=
  (store.normalize e, e.rgba.or (d.content (rgbaFile e.id)))

theorem items_committed (hread : store.read d' = ⟨g, next.map store.normalize, false⟩)
    (hw : ∀ e ∈ next, Written d d' e) : store.items d' = next.map (store.committedItem d) := by
  unfold items
  rw [hread, List.map_map]
  refine List.map_congr_left fun e he => ?_
  rw [Function.comp_apply, item, normalize_id, (hw e he).color, committedItem]

/-- An entry of the catalog that is committed once more is the item that it was. -/
theorem committedItem_kept (hagrees : (store.read d).metadataConflict = false)
    (he : e ∈ (store.read d).entries) : store.committedItem d e = item d e := by
  obtain ⟨-, -, hloaded, hcanonical⟩ := read_wellFormed store d
  rw [committedItem, hcanonical hagrees e he, (hloaded e he).2.2]
  rfl

/-- The new item of an `add`. -/
theorem committedItem_new (g : Int) (nanos : UInt64) (gray alpha : Bytes) (rgba : Option Bytes) :
    store.committedItem d (Entry.new (generatedId g nanos) false true gray alpha rgba) =
      (Entry.new (generatedId g nanos) false true gray alpha,
        rgba.or (d.content (rgbaFile (generatedId g nanos)))) := by
  have hnew : store.normalize (Entry.new (generatedId g nanos) false true gray alpha rgba) =
      Entry.new (generatedId g nanos) false true gray alpha := by
    simp [normalize, Entry.new, generatedId_ne_builtInId]
  rw [committedItem, hnew]
  rfl

/-- The built-in item with its rotation switched. -/
theorem committedItem_withRotation (hagrees : (store.read d).metadataConflict = false)
    (he : e ∈ (store.read d).entries) (hid : e.id = store.builtInId) (enabled : Bool) :
    store.committedItem d (e.withRotation enabled) = Item.rotated enabled (item d e) := by
  obtain ⟨-, -, hloaded, hcanonical⟩ := read_wellFormed store d
  have hbuiltIn : e.builtIn = true := by
    rw [← hcanonical hagrees e he]
    simp [normalize, Entry.new, hid]
  simp [committedItem, normalize, Entry.withRotation, Item.rotated, item, Entry.new, hid, hbuiltIn,
    (hloaded e he).2.2]

theorem items_of_frame {new : EntryId → Prop} (hf : Frame new d d')
    (hnew : ∀ id ∈ catalogIds d, ¬ new id) : store.items d' = store.items d := by
  unfold items
  rw [frame_read hf hnew]
  refine List.map_congr_left fun e he => ?_
  exact congrArg (Prod.mk e) (hf.plane (hnew e.id (mem_catalogIds he)) .rgba)

theorem committedItems_kept (hagrees : (store.read d).metadataConflict = false)
    (hsub : es ⊆ (store.read d).entries) : es.map (store.committedItem d) = es.map (item d) :=
  List.map_congr_left fun _ he => committedItem_kept hagrees (hsub he)

/-- The items of the catalog with the rotation switched. -/
theorem committedItems_withRotation (hagrees : (store.read d).metadataConflict = false)
    (enabled : Bool) :
    (Catalog.update Entry.id (store.read d).entries store.builtInId
        fun e => e.withRotation enabled).map (store.committedItem d) =
      Catalog.update Item.id (store.items d) store.builtInId (Item.rotated enabled) := by
  rw [items, Catalog.update, Catalog.update, List.map_map, List.map_map]
  refine List.map_congr_left fun e he => ?_
  rw [Function.comp_apply, Function.comp_apply, id_item]
  split
  · next hid => exact committedItem_withRotation hagrees he hid enabled
  · exact committedItem_kept hagrees he

/-- What a request that is accepted commits is what it asks for. -/
theorem intended_of_accepts (hagrees : (store.read d).metadataConflict = false)
    (hfresh : FreshIds store d a) (ha : Accepts store d a.request next) :
    Intended store (store.read d).generation (store.items d) (next.map (store.committedItem d))
      a.request := by
  obtain ⟨hfits, hdistinct, -⟩ := read_wellFormed store d
  obtain ⟨request, calls⟩ := a
  dsimp only at ha hfresh ⊢
  cases request with
  | openAndRepair gray alpha => exact ha
  | add expected gray alpha rgba nanos =>
    obtain ⟨hexpected, -, gr, al, room, rfl, rfl, -, hroom, rfl⟩ := ha
    have hroom' := makeRoom_eq hfits hroom
    have hnone : d.content (rgbaFile (generatedId (store.read d).generation nanos)) = none :=
      (hfresh _ ⟨hexpected, rfl⟩).2 .rgba
    refine ⟨gr, al, rfl, rfl, ?_⟩
    rw [List.map_append, committedItems_kept hagrees (hroom' ▸ Catalog.makeRoom_sublist).subset,
      List.map_singleton,
      committedItem_new, hnone, Option.or_none, Catalog.append, items,
      Catalog.makeRoom_map _ (id_item d), hroom']
  | remove expected id =>
    obtain ⟨-, hbuiltIn, selected, hselected, rfl⟩ := ha
    have hmem : id ∈ (store.read d).entries.map Entry.id := by
      by_contra hmem
      rw [lastIndexOf_eq_none.mpr hmem] at hselected
      cases hselected
    refine ⟨hbuiltIn, items_ids ▸ hmem, ?_⟩
    rw [committedItems_kept hagrees (List.eraseIdx_sublist _ _).subset,
      eraseIdx_lastIndexOf hdistinct hselected, items, Catalog.remove_map _ (id_item d)]
  | setBuiltInRotation expected enabled =>
    obtain ⟨-, selected, hselected, rfl⟩ := ha
    have hmem : store.builtInId ∈ (store.read d).entries.map Entry.id :=
      findBuiltIn_isSome.mp (by rw [hselected]; rfl)
    refine ⟨items_ids ▸ hmem, ?_⟩
    rw [modify_findBuiltIn hdistinct hselected, committedItems_withRotation hagrees]

theorem expectedGeneration_of_accepts (ha : Accepts store d r next) :
    r.expectedGeneration = some (store.read d).generation := by
  cases r with
  | openAndRepair gray alpha => exact ha.elim
  | add expected gray alpha rgba nanos => exact congrArg some ha.1
  | remove expected id => exact congrArg some ha.1
  | setBuiltInRotation expected enabled => exact congrArg some ha.1

/-- **A mutation is atomic.** -/
theorem atomic_of_ends (hagrees : (store.read d).metadataConflict = false)
    (hlt : (store.read d).generation < longMax) (hfresh : FreshIds store d a)
    (he : Ends store d a.request m h d') :
    Atomic store ⟨a.request, calls, .mutated m, d, d'⟩ m := by
  rcases he with ⟨hresult, hframe, hsnapshot, -⟩ | ⟨hresult, -, next, ha, hp, hc⟩
  · refine ⟨hsnapshot, ?_⟩
    rw [if_neg hresult]
    exact ⟨frame_read hframe hfresh.catalogIds, items_of_frame hframe hfresh.catalogIds⟩
  · have hnonneg := read_generation_nonneg store d
    have hsucc := longSucc_of_lt hlt
    have hread := hc.read hp (isLong_longSucc (isLong_read d)) (by omega)
    refine ⟨hc.snapshot_eq, ?_⟩
    rw [if_pos hresult, hread]
    refine ⟨expectedGeneration_of_accepts ha, hsucc, rfl, ?_⟩
    rw [items_committed hread (hc.written (by omega))]
    exact intended_of_accepts hagrees hfresh ha

/-! ### Runs -/

/-- Some earlier call has opened the store. -/
def HasOpened (log : List Executed) : Prop := ∃ x ∈ log, ∃ s, x.outcome = .opened s

/-- The call was made at a generation that can still grow. -/
def Executed.Unexhausted (store : SleepImageStore) (x : Executed) : Prop :=
  (store.read x.before).generation < longMax

/-- The call is a mutation with this expected generation, and it was committed. -/
def Executed.Commits (x : Executed) (expected : Int) : Prop :=
  x.request.expectedGeneration = some expected ∧ ∃ m, x.outcome = .mutated m ∧ m.result = .committed

theorem hasOpened_append_singleton :
    HasOpened (log ++ [x]) ↔ HasOpened log ∨ ∃ s, x.outcome = .opened s := by
  constructor
  · rintro ⟨y, hy, s, hs⟩
    rcases List.mem_append.mp hy with hy | hy
    · exact Or.inl ⟨y, hy, s, hs⟩
    · obtain rfl := List.mem_singleton.mp hy
      exact Or.inr ⟨s, hs⟩
  · rintro (⟨y, hy, s, hs⟩ | ⟨s, hs⟩)
    · exact ⟨y, List.mem_append_left _ hy, s, hs⟩
    · exact ⟨x, List.mem_append_right _ List.mem_cons_self, s, hs⟩

/-- A step of a store that has been opened keeps it settled. -/
theorem settled_step (he : Ended store x)
    (hfresh : ∀ id ∈ catalogIds x.before, ¬ x.request.newId store x.before id)
    (hopened : (∃ s, x.outcome = .opened s) ∨
      Settled store x.before ∧ PendingFirst store x.before) :
    Settled store x.after ∧ PendingFirst store x.after := by
  cases he with
  | opened gray alpha d₁ s _ _ _ _ hr ho =>
    obtain ⟨hsettled, hpending⟩ := settled_of_opened ho hr.pending
    exact ⟨hsettled, pendingFirst_of_none hpending⟩
  | threw gray alpha _ hthrew ht =>
    obtain ⟨hs, hp⟩ := hopened.resolve_left (by rw [hthrew]; rintro ⟨s, hs⟩; cases hs)
    exact hs.thrown hp ht
  | mutated m _ hm he =>
    obtain ⟨hs, hp⟩ := hopened.resolve_left (by rw [hm]; rintro ⟨s, hs⟩; cases hs)
    exact ⟨hs.mutated he hfresh, hp.mutated he⟩

/-- A step of a settled store does not lower the generation. -/
theorem generation_step (he : Ended store x) (hs : Settled store x.before)
    (hp : PendingFirst store x.before) (hlt : x.Unexhausted store)
    (hatomic : ∀ m, x.outcome = .mutated m → Atomic store x m) :
    (store.read x.before).generation ≤ (store.read x.after).generation ∧
      ∀ expected, x.Commits expected → expected < (store.read x.after).generation := by
  have hnone : ∀ {expected}, x.request.expectedGeneration = none → ¬ x.Commits expected := by
    rintro expected hnone ⟨hsome, -⟩
    rw [hnone] at hsome
    cases hsome
  cases he with
  | opened gray alpha d₁ s hrequest _ _ _ hr ho =>
    exact ⟨generation_opened hs hp hr ho hlt, fun _ hc => (hnone (by rw [hrequest]; rfl) hc).elim⟩
  | threw gray alpha hrequest _ ht =>
    exact ⟨generation_thrown hs hp ht, fun _ hc => (hnone (by rw [hrequest]; rfl) hc).elim⟩
  | mutated m _ hm _ =>
    obtain ⟨-, hatomic⟩ := hatomic m hm
    split at hatomic
    · obtain ⟨hexpected, hgeneration, -⟩ := hatomic
      refine ⟨by omega, fun expected hc => ?_⟩
      obtain rfl := Option.some.inj (hexpected.symm.trans hc.1)
      omega
    · next hresult =>
      refine ⟨Int.le_of_eq (by rw [hatomic.1]), fun expected hc => ?_⟩
      obtain ⟨-, m', hm', hcommitted⟩ := hc
      rw [hm] at hm'
      cases hm'
      exact absurd hcommitted hresult

/-- What is committed had the generation of the catalog for its expected one. -/
theorem eq_of_commits {expected : Int} (he : Ended store x) (hc : x.Commits expected) :
    expected = (store.read x.before).generation := by
  obtain ⟨hexpected, m, hm, hcommitted⟩ := hc
  cases he with
  | opened gray alpha d₁ s _ houtcome => rw [houtcome] at hm; cases hm
  | threw gray alpha _ houtcome => rw [houtcome] at hm; cases hm
  | mutated m' _ houtcome he =>
    rw [houtcome] at hm
    cases hm
    rcases he with ⟨hresult, -⟩ | ⟨-, -, next, ha, -⟩
    · exact absurd hcommitted hresult
    · exact Option.some.inj (hexpected.symm.trans (expectedGeneration_of_accepts ha))

/-- What a run of the store keeps. -/
structure Invariant (store : SleepImageStore) (log : List Executed) (d : Directory) : Prop where
  settled : HasOpened log → Settled store d ∧ PendingFirst store d
  atomic : EachEvent (fun pre x => HasOpened pre → x.Unexhausted store →
    ∀ m, x.outcome = .mutated m → Atomic store x m) log
  increasing : ∀ pre x mid, log = pre ++ x :: mid → HasOpened pre →
    (∀ z ∈ x :: mid, z.Unexhausted store) → ∀ expected, x.Commits expected →
      expected < (store.read d).generation
  distinct : EachEvent (fun earlier y => ∀ pre x mid, earlier = pre ++ x :: mid → HasOpened pre →
    (∀ z ∈ x :: mid, z.Unexhausted store) → ∀ m n, x.Commits m → y.Commits n → m < n) log

theorem Invariant.step (hi : Invariant store log d) (hfresh : FreshIds store d a)
    (hstep : (system store).step d a = some (d', evs)) : Invariant store (log ++ evs) d' := by
  obtain ⟨y, rfl, rfl, rfl, hrequest, -, he⟩ := step_cases hstep hfresh.entries
  have hatomic : HasOpened log → y.Unexhausted store →
      ∀ m, y.outcome = .mutated m → Atomic store y m := by
    intro hopened hlt m hm
    cases he with
    | opened gray alpha d₁ s _ houtcome => rw [houtcome] at hm; cases hm
    | threw gray alpha _ houtcome => rw [houtcome] at hm; cases hm
    | mutated m' _ houtcome he =>
      rw [houtcome] at hm
      cases hm
      rw [hrequest] at he
      have : Atomic store ⟨a.request, y.calls, .mutated m, y.before, y.after⟩ m :=
        atomic_of_ends (hi.settled hopened).1.agrees hlt hfresh he
      rw [← houtcome, ← hrequest] at this
      exact this
  have hgrows : HasOpened log → y.Unexhausted store → _ := fun hopened hlt =>
    generation_step he (hi.settled hopened).1 (hi.settled hopened).2 hlt (hatomic hopened hlt)
  refine ⟨fun hopened => ?_, ?_, ?_, ?_⟩
  · refine settled_step he (hrequest ▸ hfresh.catalogIds) ?_
    exact (hasOpened_append_singleton.mp hopened).symm.imp_right hi.settled
  · exact eachEvent_append_singleton.mpr ⟨hi.atomic, hatomic⟩
  · intro pre x mid hlog hopened hlt expected hx
    rcases append_singleton_eq_append_cons hlog with ⟨rfl, rfl, rfl⟩ | ⟨mid', rfl, rfl⟩
    · exact (hgrows hopened (hlt x List.mem_cons_self)).2 expected hx
    · have hbefore := hi.increasing pre x mid' rfl hopened
        (fun z hz => hlt z (by simp at hz ⊢; tauto)) expected hx
      have hopened' : HasOpened (pre ++ x :: mid') := by
        obtain ⟨w, hw, hs⟩ := hopened
        exact ⟨w, List.mem_append_left _ hw, hs⟩
      have hafter := (hgrows hopened' (hlt y (by simp))).1
      omega
  · refine eachEvent_append_singleton.mpr ⟨hi.distinct, ?_⟩
    intro pre x mid hlog hopened hlt m n hx hy
    have hbefore := hi.increasing pre x mid hlog hopened hlt m hx
    have hn := eq_of_commits he hy
    omega

/-- **Mutations are atomic** in every run that has opened the store, from any directory, and as long
as the generation can grow, no two that were committed had the same expected generation. -/
theorem mutations_atomic (hrun : (system store).Run (FreshIds store) d₀ as log d) :
    EachEvent (fun pre x => HasOpened pre → x.Unexhausted store →
      ∀ m, x.outcome = .mutated m → Atomic store x m) log ∧
    EachEvent (fun earlier y => ∀ pre x mid, earlier = pre ++ x :: mid → HasOpened pre →
      (∀ z ∈ x :: mid, z.Unexhausted store) → ∀ m n, x.Commits m → y.Commits n → m < n) log := by
  have hinvariant : Invariant store log d := by
    refine hrun.induct (fun _ log d => Invariant store log d) ?_ ?_
    · refine ⟨?_, eachEvent_nil _, by simp, eachEvent_nil _⟩
      rintro ⟨x, hx, -⟩
      cases hx
    · exact fun _ _ _ _ _ _ hi hfresh hstep => hi.step hfresh hstep
  exact ⟨hinvariant.atomic, hinvariant.distinct⟩

/-- The entries of a full catalog. -/
def fullEntries : List Entry :=
  Entry.new pixelStore.builtInId true true [0x10] [0xff] ::
    ["a", "b", "c", "d", "e", "f", "g"].map fun id => Entry.new id.toList false true [0x20] [0xff]

def fullPixel : Directory :=
  fullEntries.foldl (fun d e => (d.write (grayFile e.id) e.gray).write (alphaFile e.id) e.alpha)
    (Directory.empty.write MANIFEST (pixelStore.manifestBytes 5 fullEntries))

def openPixel : Request := .openAndRepair (some [0x10]) (some [0xff])

def addPixel (expectedGeneration : Int) : Request :=
  .add expectedGeneration (some [0x20]) (some [0xff]) (some [1, 2, 3, 4]) 7

/-- The full catalog is opened, an image is added, and the colour plane of another cannot be
written. -/
def fullThenFault : List StoreAction :=
  [⟨openPixel, []⟩,
    ⟨addPixel 5, [⟨.gray, false⟩, ⟨.alpha, false⟩, ⟨.rgba, false⟩, ⟨.manifest, false⟩]⟩,
    ⟨addPixel 6, [⟨.gray, false⟩, ⟨.alpha, false⟩, ⟨.rgba, true⟩]⟩]

/-- The first image evicts another one, and nothing is left of the second. -/
theorem mutations_atomic_fullThenFault :
    ∃ x y z d, (system pixelStore).Run (FreshIds pixelStore) fullPixel fullThenFault [x, y, z] d ∧
      (pixelStore.items y.before).length = MAXIMUM_ENTRIES ∧ y.Commits 5 ∧
      pixelStore.items y.after = Catalog.append Item.id pixelStore.builtInId MAXIMUM_ENTRIES
        (pixelStore.items y.before)
        (Entry.new (generatedId 5 7) false true [0x20] [0xff], some [1, 2, 3, 4]) ∧
      (∃ s, z.outcome = .mutated ⟨.ioFailure, s⟩) ∧
      pixelStore.items z.after = pixelStore.items z.before := by
  have hexec : ((system pixelStore).exec (FreshIds pixelStore) fullPixel fullThenFault).any
    (fun r =>
      decide (r.2.length = 3) &&
      (r.2.take 1).all (fun x => x.outcome = .opened (pixelStore.read x.after)) &&
      ((r.2.drop 1).take 1).all (fun y => y.request = addPixel 5 ∧
        (pixelStore.items y.before).length = MAXIMUM_ENTRIES ∧
        (pixelStore.read y.before).generation = 5 ∧
        y.outcome = .mutated ⟨.committed, pixelStore.read y.after⟩) &&
      (r.2.drop 2).all fun z => (pixelStore.read z.before).generation = 6 ∧
        z.outcome = .mutated ⟨.ioFailure, pixelStore.read z.after⟩) = true := by
    decide +kernel
  obtain ⟨⟨d, log⟩, hlog, hall⟩ := (Option.any_eq_true _ _).mp hexec
  have hrun := System.Run.of_exec hlog
  simp only [Bool.and_eq_true, decide_eq_true_eq] at hall
  obtain ⟨⟨⟨hlength, hx⟩, hy⟩, hz⟩ := hall
  obtain ⟨x, y, z, rfl⟩ := List.length_eq_three.mp hlength
  have hopened := of_decide_eq_true (List.all_eq_true.mp hx x (List.mem_singleton_self x))
  obtain ⟨hrequest, hfull, hgeneration, hcommitted⟩ :=
    of_decide_eq_true (List.all_eq_true.mp hy y (List.mem_singleton_self y))
  obtain ⟨hnext, hfailed⟩ :=
    of_decide_eq_true (List.all_eq_true.mp hz z (List.mem_singleton_self z))
  obtain ⟨hatomic, -⟩ := mutations_atomic hrun
  have hy := hatomic [x] y [z] rfl ⟨x, List.mem_singleton_self x, _, hopened⟩
    (by unfold Executed.Unexhausted; rw [hgeneration]; decide) _ hcommitted
  have hz := hatomic [x, y] z [] rfl ⟨x, List.mem_cons_self, _, hopened⟩
    (by unfold Executed.Unexhausted; rw [hnext]; decide) _ hfailed
  obtain ⟨hexpected, -, -, hintended⟩ := hy.2
  rw [hrequest, hgeneration] at hintended
  obtain ⟨gr, al, hgr, hal, hitems⟩ := hintended
  rw [← Option.some.inj hgr, ← Option.some.inj hal] at hitems
  refine ⟨x, y, z, d, hrun, hfull, ⟨?_, _, hcommitted, rfl⟩, hitems, ⟨_, hfailed⟩, hz.2.2⟩
  rw [hexpected, hgeneration]

end EinkLab.SleepImageStore
