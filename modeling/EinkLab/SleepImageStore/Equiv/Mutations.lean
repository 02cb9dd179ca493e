import EinkLab.Catalog.Bounded
import EinkLab.SleepImageStore.Equiv.Commit

/-!
# Mutations

The list surgery of the mutations is that of a bounded catalog whose anchor is the built-in entry
(`makeRoom_eq`, `eraseIdx_lastIndexOf`, `modify_findBuiltIn`), and every mutation either leaves the
catalog as it was or commits exactly its entries: `sat_mutation`.
-/

namespace EinkLab.SleepImageStore

open Text Files Transition Procedure

variable {store : SleepImageStore} {d d' : Directory} {id : EntryId} {e : Entry}
  {es next : List Entry} {g : Int} {h : List FaultEvent} {new : EntryId → Prop}

/-! ### The lists -/

theorem makeRoom_eq (hfits : es.length ≤ MAXIMUM_ENTRIES) {room : List Entry}
    (hroom : store.makeRoom es = some room) :
    room = Catalog.makeRoom Entry.id store.builtInId MAXIMUM_ENTRIES es := by
  unfold makeRoom at hroom
  unfold Catalog.makeRoom
  by_cases hlt : es.length < MAXIMUM_ENTRIES
  · have hexcess : es.length + 1 - MAXIMUM_ENTRIES = 0 := by omega
    rw [hexcess] at hroom
    rw [if_pos hlt]
    exact (Option.some.inj hroom).symm
  · have hexcess : es.length + 1 - MAXIMUM_ENTRIES = 1 := by omega
    rw [hexcess] at hroom
    obtain ⟨prune, hprune, hroom⟩ := Option.bind_eq_some_iff.mp hroom
    rw [if_neg hlt, List.eraseP_eq_eraseIdx]
    have hfirst : es.findIdx? (fun e => decide (e.id ≠ store.builtInId)) = some prune := hprune
    rw [hfirst]
    exact (Option.some.inj hroom).symm

theorem makeRoom_isSome (hdistinct : (es.map Entry.id).Nodup)
    (hfits : es.length ≤ MAXIMUM_ENTRIES) :
    (store.makeRoom es).isSome = true := by
  unfold makeRoom
  by_cases hlt : es.length < MAXIMUM_ENTRIES
  · have hexcess : es.length + 1 - MAXIMUM_ENTRIES = 0 := by omega
    rw [hexcess]
    rfl
  · have hexcess : es.length + 1 - MAXIMUM_ENTRIES = 1 := by omega
    have hlen : 2 ≤ es.length := by unfold MAXIMUM_ENTRIES at hlt; omega
    obtain ⟨e, he, hne⟩ := Catalog.exists_ne_anchor store.builtInId hdistinct hlen
    have hfound : (store.firstRemovable es).isSome = true := by
      rw [firstRemovable, List.findIdx?_isSome, List.any_eq_true]
      exact ⟨e, he, by simpa using hne⟩
    obtain ⟨prune, hprune⟩ := Option.isSome_iff_exists.mp hfound
    rw [hexcess, removeFirst, hprune]
    rfl

theorem lastIndexOf_eq_none : lastIndexOf id es = none ↔ id ∉ es.map Entry.id := by
  induction es with
  | nil => simp [lastIndexOf]
  | cons e es ih =>
    rw [lastIndexOf, List.map_cons, List.mem_cons, not_or, ← ih]
    cases lastIndexOf id es with
    | none => by_cases he : e.id = id <;> simp [he, Ne.symm]
    | some index => simp

/-- With distinct ids, dropping the entry found is dropping the entries with its id. -/
theorem eraseIdx_lastIndexOf (hdistinct : (es.map Entry.id).Nodup) {selected : Nat}
    (hs : lastIndexOf id es = some selected) :
    es.eraseIdx selected = Catalog.remove Entry.id es id := by
  unfold Catalog.remove
  induction es generalizing selected with
  | nil => cases hs
  | cons e es ih =>
    rw [List.map_cons, List.nodup_cons] at hdistinct
    rw [lastIndexOf] at hs
    cases hrest : lastIndexOf id es with
    | some index =>
      rw [hrest] at hs
      obtain rfl := Option.some.inj hs
      have hmem : id ∈ es.map Entry.id := by
        by_contra hmem
        rw [lastIndexOf_eq_none.mpr hmem] at hrest
        cases hrest
      have hne : e.id ≠ id := fun heq => hdistinct.1 (heq ▸ hmem)
      rw [List.eraseIdx_cons_succ, ih hdistinct.2 hrest,
        List.filter_cons_of_pos (by simpa using hne)]
    | none =>
      rw [hrest] at hs
      dsimp only at hs
      split at hs
      · next heq =>
        obtain rfl := Option.some.inj hs
        rw [List.eraseIdx_cons_zero, List.filter_cons_of_neg (by simpa using heq)]
        refine (List.filter_eq_self.mpr fun x hx => ?_).symm
        have hne : x.id ≠ id := fun hid =>
          lastIndexOf_eq_none.mp hrest (hid ▸ List.mem_map_of_mem hx)
        simpa using hne
      · cases hs

theorem lastIndexOf_lt {selected : Nat} (hs : lastIndexOf id es = some selected) :
    selected < es.length := by
  induction es generalizing selected with
  | nil => cases hs
  | cons e es ih =>
    rw [lastIndexOf] at hs
    cases hrest : lastIndexOf id es with
    | some index =>
      rw [hrest] at hs
      obtain rfl := Option.some.inj hs
      have := ih hrest
      simp only [List.length_cons]
      omega
    | none =>
      rw [hrest] at hs
      dsimp only at hs
      split at hs
      · obtain rfl := Option.some.inj hs
        simp
      · cases hs

/-- With distinct ids, changing the built-in entry found is changing the entries with its id. -/
theorem modify_findBuiltIn (hdistinct : (es.map Entry.id).Nodup) {selected : Nat}
    (hs : store.findBuiltIn es = some selected) (f : Entry → Entry) :
    es.modify selected f = Catalog.update Entry.id es store.builtInId f := by
  unfold Catalog.update
  unfold findBuiltIn at hs
  induction es generalizing selected with
  | nil => cases hs
  | cons e es ih =>
    rw [List.map_cons, List.nodup_cons] at hdistinct
    rw [List.findIdx?_cons] at hs
    split at hs
    · next hb =>
      obtain rfl := Option.some.inj hs
      have hid : e.id = store.builtInId := by simpa using hb
      have hrest : es.map (fun x => if x.id = store.builtInId then f x else x) = es := by
        refine (List.map_congr_left fun x hx => ?_).trans (List.map_id es)
        refine if_neg fun hx' => hdistinct.1 ?_
        rw [hid, ← hx']
        exact List.mem_map_of_mem hx
      rw [List.modify_zero_cons, List.map_cons, if_pos hid, hrest]
    · next hb =>
      have hid : e.id ≠ store.builtInId := by simpa using hb
      obtain ⟨index, hindex, rfl⟩ := Option.map_eq_some_iff.mp hs
      rw [List.modify_succ_cons, List.map_cons, if_neg hid, ih hdistinct.2 hindex]

/-! ### Generated ids -/

theorem length_longText_le {n : Int} (hn : IsLong n) : (longText n).length ≤ 20 := by
  unfold IsLong longMin longMax at hn
  cases n with
  | ofNat m =>
    have hm : m < 10 ^ 20 := by
      have := hn.2
      rw [Int.ofNat_eq_natCast] at this
      omega
    exact (Nat.length_toDigits_le_iff (by decide) (by decide)).mpr hm
  | negSucc m =>
    have hm : m + 1 < 10 ^ 19 := by omega
    have := (Nat.length_toDigits_le_iff (b := 10) (k := 19) (by decide) (by decide)).mpr hm
    simp only [longText, List.length_cons]
    omega

theorem isAlphanum_of_isDigit {c : Char} (h : c.isDigit = true) : c.isAlphanum = true := by
  rw [Char.isAlphanum, h, Bool.or_true]

theorem safeId_generatedId (hg : IsLong (longSucc g)) (nanos : UInt64) :
    safeId (generatedId g nanos) = true := by
  have hlong := length_longText_le hg
  have hnanos : (Nat.toDigits 10 nanos.toNat).length ≤ 20 := by
    have hlt := nanos.toNat_lt
    exact (Nat.length_toDigits_le_iff (by decide) (by decide)).mpr (by omega)
  rw [generatedId, List.cons_append, safeId]
  simp only [Bool.and_eq_true, decide_eq_true_eq, List.all_eq_true, Bool.or_eq_true,
    List.length_append, List.length_cons]
  refine ⟨⟨by decide, by omega⟩, fun c hc => ?_⟩
  rcases List.mem_append.mp hc with hc | hc
  · rcases longText_chars hc with hc | rfl
    · simp [isAlphanum_of_isDigit hc]
    · simp
  · rcases List.mem_cons.mp hc with rfl | hc
    · simp
    · simp [isAlphanum_of_isDigit (isDigit_of_mem_toDigits hc)]

theorem generatedId_ne_builtInId (g : Int) (nanos : UInt64) :
    generatedId g nanos ≠ store.builtInId :=
  builtInId_ne_of_head (by decide) _

/-! ### What a mutation commits -/

/-- The id that an `add` which is not stale gives to its entry. -/
def Request.newId (store : SleepImageStore) (d : Directory) : Request → EntryId → Prop
  | .add expected _ _ _ nanos, id =>
    expected = (store.read d).generation ∧ id = generatedId (store.read d).generation nanos
  | _, _ => False

/-- The request is accepted, and these are the entries it commits. -/
def Accepts (store : SleepImageStore) (d : Directory) : Request → List Entry → Prop
  | .add expected gray alpha rgba nanos, next =>
    expected = (store.read d).generation ∧ store.invalidRgba rgba = false ∧ ∃ gr al room,
      gray = some gr ∧ alpha = some al ∧ store.validPlanes gr al = true ∧
      store.makeRoom (store.read d).entries = some room ∧
      next = room ++ [Entry.new (generatedId (store.read d).generation nanos) false true gr al rgba]
  | .remove expected id, next =>
    expected = (store.read d).generation ∧ id ≠ store.builtInId ∧
      ∃ selected, lastIndexOf id (store.read d).entries = some selected ∧
        next = (store.read d).entries.eraseIdx selected
  | .setBuiltInRotation expected enabled, next =>
    expected = (store.read d).generation ∧
      ∃ selected, store.findBuiltIn (store.read d).entries = some selected ∧
        next = (store.read d).entries.modify selected fun e => e.withRotation enabled
  | .openAndRepair _ _, _ => False

/-- Why a mutation does not commit: a fault, a request that is not accepted, or one for the removal
of the last entry. -/
def Declined (store : SleepImageStore) (d : Directory) (r : Request)
    (h' : List FaultEvent) : Prop :=
  Faulted h' ∨ (∀ next, ¬Accepts store d r next) ∨
    (∃ expected id, r = .remove expected id) ∧ (store.read d).entries.length ≤ 1

/-- How a mutation ends: nothing but files of the new id has changed, or it has committed. -/
def Ends (store : SleepImageStore) (d : Directory) (r : Request) (m : Mutation) :
    Assertion FaultPoint (fun _ => Bool) Directory := fun h' d' =>
  (m.result ≠ .committed ∧ Frame (r.newId store d) d d' ∧ m.snapshot = store.read d' ∧
    Declined store d r h') ∨
  (m.result = .committed ∧ ¬ Faulted h' ∧ ∃ next, Accepts store d r next ∧ Publishable store next ∧
    Committed store false (longSucc (store.read d).generation) next d d' m.snapshot)

theorem ends_unchanged {r : Request} {m : Mutation} (hm : m.result ≠ .committed)
    (hs : m.snapshot = store.read d) (hwhy : Declined store d r h) : Ends store d r m h d :=
  Or.inl ⟨hm, Frame.refl d, hs, hwhy⟩

/-- A request that is accepted commits, unless a fault prevents it. -/
theorem Ends.commits {r : Request} {m : Mutation} (he : Ends store d r m h d') (hh : ¬Faulted h)
    (ha : Accepts store d r next)
    (hlast : (∃ expected id, r = .remove expected id) → 1 < (store.read d).entries.length) :
    m.result = .committed := by
  rcases he with ⟨-, -, -, hfault | hrefused | ⟨hremove, hone⟩⟩ | ⟨hresult, -⟩
  · exact absurd hfault hh
  · exact absurd ha (hrefused next)
  · exact absurd hone (Nat.not_le.mpr (hlast hremove))
  · exact hresult

/-- Committing what a request accepts. -/
theorem sat_commitMutation {r : Request} (ha : Accepts store d r next)
    (hp : Publishable store next) (hr : ∀ e ∈ next, RgbaFits store e)
    (hk : ∀ e ∈ next, NewOrKept (r.newId store d) d e) (hh : ¬ Faulted h) :
    (store.commitMutation (store.read d).generation next).Sat
      (store.ioFailure.Sat (fun _ _ => False) (Ends store d r)) (Ends store d r) h d := by
  unfold commitMutation
  rw [sat_bind]
  refine (sat_commitEntries _ hp hr hk (isLong_read d) hh).mono ?_ ?_
  · rintro h' d' ⟨hfault, hframe | ⟨hretire, -⟩⟩
    · show (store.ioFailure).Sat _ _ h' d'
      unfold ioFailure
      rw [sat_bind, sat_get, sat_pure]
      exact Or.inl ⟨by simp, hframe, rfl, Or.inl hfault⟩
    · cases hretire
  · rintro snapshot h' d' ⟨hh', hcommitted⟩
    exact Or.inr ⟨rfl, hh', next, ha, hp, hcommitted⟩

/-- The entries of the catalog are kept by any request that does not reuse their ids. -/
theorem kept_of_mem {r : Request} (hfresh : ∀ e ∈ (store.read d).entries, ¬ r.newId store d e.id)
    (he : e ∈ (store.read d).entries) : NewOrKept (r.newId store d) d e := by
  obtain ⟨-, hholds, hrgba⟩ := (read_wellFormed store d).2.2.1 e he
  exact Or.inr ⟨hfresh e he, hholds, hrgba⟩

theorem sat_add {expected : Int} {gray alpha rgba : Option Bytes} {nanos : UInt64}
    (hfresh : ∀ e ∈ (store.read d).entries,
      ¬ (Request.add expected gray alpha rgba nanos).newId store d e.id) (hh : ¬ Faulted h) :
    (store.add expected gray alpha rgba nanos).Sat (fun _ _ => False)
      (Ends store d (.add expected gray alpha rgba nanos)) h d := by
  obtain ⟨hfits, hdistinct, hloaded, -⟩ := read_wellFormed store d
  -- what is refused ends in the catch clause, with nothing changed
  have hrefuse : (∀ next, ¬Accepts store d (.add expected gray alpha rgba nanos) next) →
      store.ioFailure.Sat (fun _ _ => False)
        (Ends store d (.add expected gray alpha rgba nanos)) h d := by
    intro hno
    unfold ioFailure
    rw [sat_bind, sat_get, sat_pure]
    exact ends_unchanged (by simp) rfl (Or.inr (Or.inl hno))
  unfold add
  rw [sat_rescue, sat_bind]
  unfold validatePlanes
  split
  · next gr al =>
    rw [sat_bind, sat_refuseIf]
    refine ⟨fun hinvalid => hrefuse ?_, fun hvalid => ?_⟩
    · rintro next ⟨-, -, gr', al', room, hgr, hal, hvalid, -⟩
      rw [← Option.some.inj hgr, ← Option.some.inj hal] at hvalid
      simp [hvalid] at hinvalid
    rw [sat_pure]
    dsimp only
    rw [sat_bind, sat_get, sat_ite]
    refine ⟨fun hstale => ends_unchanged (by simp) rfl (Or.inr (Or.inl fun next ha => ?_)),
      fun hexpected => ?_⟩
    · exact hstale ha.1.symm
    cases hroom : store.makeRoom (store.read d).entries with
    | none =>
      refine ends_unchanged (by simp) rfl (Or.inr (Or.inl ?_))
      rintro next ⟨-, -, gr', al', room, -, -, -, hroom', -⟩
      rw [hroom] at hroom'
      cases hroom'
    | some room =>
      dsimp only
      rw [sat_bind, sat_refuseIf]
      refine ⟨fun hrgba => hrefuse fun next ha => ?_, fun hrgba => ?_⟩
      · rw [ha.2.1] at hrgba
        cases hrgba
      -- the request is accepted: the id is new, and room has been made for the entry
      have hexpected : expected = (store.read d).generation := (of_not_not hexpected).symm
      have hunused : generatedId (store.read d).generation nanos ∉
          (store.read d).entries.map Entry.id := by
        intro hmem
        obtain ⟨e, he, hid⟩ := List.mem_map.mp hmem
        exact hfresh e he ⟨hexpected, hid⟩
      have hroom' := makeRoom_eq hfits hroom
      have hsub : room.Sublist (store.read d).entries := hroom' ▸ Catalog.makeRoom_sublist
      have hvalid' : store.validPlanes gr al = true := by simpa using hvalid
      have hnew : Writable store
          (Entry.new (generatedId (store.read d).generation nanos) false true gr al rgba) :=
        ⟨safeId_generatedId (isLong_longSucc (isLong_read d)) nanos, hvalid'⟩
      refine sat_commitMutation (r := .add expected (some gr) (some al) rgba nanos)
        ⟨hexpected, hrgba, gr, al, room, rfl, rfl, hvalid', hroom, rfl⟩ ?_ ?_ ?_ hh
      · refine ⟨by simp, ?_, fun e he => ?_, ?_⟩
        · rw [hroom']
          exact Catalog.length_append_le (by decide) hdistinct hfits
        · rcases List.mem_append.mp he with he | he
          · exact (hloaded e (hsub.subset he)).1
          · rw [List.mem_singleton.mp he]
            exact hnew
        · rw [hroom']
          exact Catalog.nodup_append hdistinct hunused
      · intro e he content hcontent
        rcases List.mem_append.mp he with he | he
        · rw [(hloaded e (hsub.subset he)).2.2] at hcontent
          cases hcontent
        · rw [List.mem_singleton.mp he] at hcontent
          have hsome : rgba = some content := hcontent
          rw [hsome] at hrgba
          simp only [invalidRgba, Bool.or_eq_false_iff, decide_eq_false_iff_not, not_not] at hrgba
          exact hrgba.2
      · intro e he
        rcases List.mem_append.mp he with he | he
        · exact kept_of_mem hfresh (hsub.subset he)
        · rw [List.mem_singleton.mp he]
          exact Or.inl ⟨hexpected, rfl⟩
  · next hnull =>
    refine hrefuse ?_
    rintro next ⟨-, -, gr, al, room, rfl, rfl, -⟩
    exact hnull gr al rfl rfl

theorem sat_remove {expected : Int} (hh : ¬ Faulted h) :
    (store.remove expected id).Sat (fun _ _ => False) (Ends store d (.remove expected id)) h d := by
  obtain ⟨hfits, hdistinct, hloaded, -⟩ := read_wellFormed store d
  unfold remove
  rw [sat_bind, sat_get]
  dsimp only
  rw [sat_ite]
  refine ⟨fun hstale => ends_unchanged (by simp) rfl (Or.inr (Or.inl fun next ha => ?_)),
    fun hexpected => ?_⟩
  · exact hstale ha.1.symm
  cases hselected : lastIndexOf id (store.read d).entries with
  | none =>
    refine ends_unchanged (by simp) rfl (Or.inr (Or.inl ?_))
    rintro next ⟨-, -, selected, hselected', -⟩
    rw [hselected] at hselected'
    cases hselected'
  | some selected =>
    dsimp only
    rw [sat_ite]
    refine ⟨fun hprotected => ends_unchanged (by simp) rfl (Or.inr (Or.inl fun next ha => ?_)),
      fun hbuiltIn => ?_⟩
    · exact ha.2.1 hprotected
    rw [sat_ite]
    refine ⟨fun hlast => ends_unchanged (by simp) rfl
      (Or.inr (Or.inr ⟨⟨expected, id, rfl⟩, hlast⟩)),
      fun hmany => ?_⟩
    rw [sat_rescue]
    have hsub : ((store.read d).entries.eraseIdx selected).Sublist (store.read d).entries :=
      List.eraseIdx_sublist _ _
    have hlen := List.length_eraseIdx_of_lt (lastIndexOf_lt hselected)
    refine sat_commitMutation (r := .remove expected id)
      ⟨(of_not_not hexpected).symm, hbuiltIn, selected, hselected, rfl⟩ ?_ ?_ ?_ hh
    · refine ⟨?_, by omega, fun e he => (hloaded e (hsub.subset he)).1,
        hdistinct.sublist (hsub.map Entry.id)⟩
      rw [← List.length_pos_iff_ne_nil]
      omega
    · intro e he content hcontent
      rw [(hloaded e (hsub.subset he)).2.2] at hcontent
      cases hcontent
    · exact fun e he => kept_of_mem (fun _ _ hid => hid) (hsub.subset he)

theorem sat_setBuiltInRotation {expected : Int} {enabled : Bool} (hh : ¬ Faulted h) :
    (store.setBuiltInRotation expected enabled).Sat (fun _ _ => False)
      (Ends store d (.setBuiltInRotation expected enabled)) h d := by
  obtain ⟨hfits, hdistinct, hloaded, -⟩ := read_wellFormed store d
  unfold setBuiltInRotation
  rw [sat_bind, sat_get]
  dsimp only
  rw [sat_ite]
  refine ⟨fun hstale => ends_unchanged (by simp) rfl (Or.inr (Or.inl fun next ha => ?_)),
    fun hexpected => ?_⟩
  · exact hstale ha.1.symm
  cases hselected : store.findBuiltIn (store.read d).entries with
  | none =>
    refine ends_unchanged (by simp) rfl (Or.inr (Or.inl ?_))
    rintro next ⟨-, selected, hselected', -⟩
    rw [hselected] at hselected'
    cases hselected'
  | some selected =>
    dsimp only
    rw [sat_rescue]
    have hupdate := modify_findBuiltIn hdistinct hselected fun e => e.withRotation enabled
    -- every committed entry has the id and the planes of a loaded one
    have hentries : ∀ e ∈ (store.read d).entries.modify selected (fun e => e.withRotation enabled),
        Writable store e ∧ Holds d e ∧ e.rgba = none := by
      rw [hupdate]
      intro e he
      obtain ⟨x, hx, rfl⟩ := List.mem_map.mp he
      obtain ⟨hw, hholds, hrgba⟩ := hloaded x hx
      split
      · exact ⟨⟨hw.safe, hw.valid⟩, ⟨hholds.gray, hholds.alpha⟩, rfl⟩
      · exact ⟨hw, hholds, hrgba⟩
    have hids : ((store.read d).entries.modify selected
      fun e => e.withRotation enabled).map Entry.id =
        (store.read d).entries.map Entry.id := by
      rw [hupdate, Catalog.update, List.map_map]
      refine List.map_congr_left fun e _ => ?_
      simp only [Function.comp_apply]
      split <;> rfl
    refine sat_commitMutation (r := .setBuiltInRotation expected enabled)
      ⟨(of_not_not hexpected).symm, selected, hselected, rfl⟩ ?_ ?_ ?_ hh
    · refine ⟨?_, by simpa using hfits, fun e he => (hentries e he).1, hids ▸ hdistinct⟩
      rw [← List.length_pos_iff_ne_nil, List.length_modify]
      rw [findBuiltIn] at hselected
      have := (List.findIdx?_eq_some_iff_getElem.mp hselected).1
      omega
    · intro e he content hcontent
      rw [(hentries e he).2.2] at hcontent
      cases hcontent
    · exact fun e he => Or.inr ⟨fun hid => hid, (hentries e he).2.1, (hentries e he).2.2⟩

end EinkLab.SleepImageStore
