import EinkLab.SleepImageManager.Descriptors
import EinkLab.SleepImageStore.Equiv.Atomicity
import EinkLab.SleepImageStore.Equiv.Repair
import EinkLab.SleepImageStore.Publication

/-!
# What is published is accepted

A whole catalog has one built-in entry, and its publication one fallback candidate and something
eligible (`acceptable_publication`); a transaction with such candidates, and one without any that
says so, pass the manager's checks (`managerAccepts_ok`, `managerAccepts_unavailable`).  Once the
store has been opened the catalog stays whole, unless a generation wraps (`Left`).
-/

namespace EinkLab

namespace SleepImageStore

open Text Files Transition SleepImageManager

variable {store : SleepImageStore} {d d' d₀ d₁ : Directory} {s : Snapshot} {e : Entry}
  {es next : List Entry} {r : Request} {m : Mutation} {h : List FaultEvent} {x : Executed}
  {as : List StoreAction} {log : List Executed}

/-! ### The publication of a whole catalog -/

/-- What the manager asks of the candidates' flags and number. -/
structure Acceptable (publication : List PublicationEntry) : Prop where
  nonempty : publication ≠ []
  fits : publication.length ≤ MAXIMUM_ENTRIES
  fallback : publication.countP PublicationEntry.fallback = 1
  eligible : 0 < publication.countP PublicationEntry.eligible

/-- Every plane that is transmitted has the panel's size. -/
def Sized (store : SleepImageStore) (publication : List PublicationEntry) : Prop :=
  ∀ c ∈ publication, c.entry.alpha.length = store.bytes

theorem countP_builtIn (hdistinct : (es.map Entry.id).Nodup)
    (hcanonical : ∀ e ∈ es, store.normalize e = e) (hb : store.builtInId ∈ es.map Entry.id) :
    es.countP Entry.builtIn = 1 := by
  have hmarked : ∀ e ∈ es, e.builtIn = (e.id == store.builtInId) := by
    intro e he
    have hnormal : decide (e.id = store.builtInId) = e.builtIn :=
      congrArg Entry.builtIn (hcanonical e he)
    rw [← hnormal, Bool.eq_iff_iff, decide_eq_true_eq, beq_iff_eq]
  have hcount : es.countP Entry.builtIn = (es.map Entry.id).count store.builtInId := by
    rw [List.count, List.countP_map]
    apply List.countP_congr
    intro e he
    rw [hmarked e he]
    exact Iff.rfl
  rw [hcount]
  exact List.count_eq_one_of_mem hdistinct hb

theorem findBuiltIn_spec (hb : store.builtInId ∈ es.map Entry.id) :
    ∃ index e, store.findBuiltIn es = some index ∧ es[index]? = some e ∧ e ∈ es ∧
      e.id = store.builtInId := by
  obtain ⟨index, hindex⟩ := Option.isSome_iff_exists.mp (findBuiltIn_isSome.mpr hb)
  obtain ⟨hlt, hid, -⟩ := List.findIdx?_eq_some_iff_getElem.mp hindex
  exact ⟨index, es[index], hindex, List.getElem?_eq_getElem hlt, List.getElem_mem hlt,
    of_decide_eq_true hid⟩

theorem coverEntry_eq_some {gray alpha : Option Bytes} (h : store.coverEntry gray alpha = some e) :
    e.alpha.length = store.bytes := by
  unfold coverEntry at h
  split at h
  · split at h
    · next hvalid =>
      rw [← Option.some_inj.mp h]
      exact (validPlanes_length hvalid).2
    · cases h
  · cases h

theorem set_of_getElem? {α : Type} {xs : List α} {index : Nat} {a : α} (h : xs[index]? = some a) :
    xs.set index a = xs := by
  obtain ⟨hlt, heq⟩ := List.getElem?_eq_some_iff.mp h
  rw [← heq, List.set_getElem_self]

/-- The flags of the fallback candidate may be set again without changing any count but one. -/
theorem set_fallback (es : List Entry) {index : Nat} (hget : es[index]? = some e)
    (hbuiltIn : e.builtIn = true) :
    ((candidates es).set index ⟨e, true, true⟩).map PublicationEntry.fallback =
        (candidates es).map PublicationEntry.fallback ∧
      ((candidates es).set index ⟨e, true, true⟩).map PublicationEntry.entry = es ∧
      0 < ((candidates es).set index ⟨e, true, true⟩).countP PublicationEntry.eligible := by
  have hlt : index < es.length := (List.getElem?_eq_some_iff.mp hget).1
  have hentries : (candidates es).map PublicationEntry.entry = es := by
    rw [candidates, List.map_map]
    exact List.map_id es
  have hflag : ((candidates es).map PublicationEntry.fallback)[index]? = some true := by
    rw [candidates, List.map_map, List.getElem?_map, hget, Option.map_some]
    exact congrArg some hbuiltIn
  refine ⟨?_, ?_, ?_⟩
  · rw [List.map_set]
    exact set_of_getElem? hflag
  · rw [List.map_set, hentries]
    exact set_of_getElem? hget
  · rw [List.countP_pos_iff]
    refine ⟨⟨e, true, true⟩, List.mem_iff_getElem?.mpr ⟨index, ?_⟩, rfl⟩
    rw [List.getElem?_set_self (by simpa [candidates] using hlt)]

variable (store) in
theorem acceptable_publication (hw : Whole store d) (coverMode : Bool) (gray alpha : Option Bytes) :
    Acceptable (store.publication (store.read d) coverMode gray alpha) ∧
      Sized store (store.publication (store.read d) coverMode gray alpha) := by
  obtain ⟨hfits, hdistinct, hloaded, hcanonical⟩ := read_wellFormed store d
  have hcanonical := hcanonical hw.agrees
  have hsized : ∀ e ∈ (store.read d).entries, e.alpha.length = store.bytes := fun e he =>
    (validPlanes_length (hloaded e he).1.valid).2
  obtain ⟨index, fallback, hfind, hget, hmem, hid⟩ := findBuiltIn_spec hw.builtIn
  have hmarked : fallback.builtIn = true := by
    have hnormal := congrArg Entry.builtIn (hcanonical fallback hmem)
    rw [← hnormal]
    exact decide_eq_true hid
  unfold publication
  rw [hfind]
  dsimp only
  rw [hget]
  dsimp only
  cases coverMode with
  | true =>
    rw [if_pos rfl]
    -- the fallback, and the cover if there is one
    cases hcover : store.coverEntry gray alpha with
    | some cover =>
      refine ⟨⟨by simp, by simp [MAXIMUM_ENTRIES], rfl, by simp⟩, fun c hc => ?_⟩
      rcases List.mem_cons.mp hc with rfl | hc
      · exact hsized fallback hmem
      · rw [List.mem_singleton.mp hc]
        exact coverEntry_eq_some hcover
    | none =>
      refine ⟨⟨by simp, by simp [MAXIMUM_ENTRIES], rfl, by simp⟩, fun c hc => ?_⟩
      rw [List.mem_singleton.mp hc]
      exact hsized fallback hmem
  | false =>
    rw [if_neg (by decide)]
    have hone : (candidates (store.read d).entries).countP PublicationEntry.fallback = 1 := by
      rw [candidates, List.countP_map]
      exact countP_builtIn hdistinct hcanonical hw.builtIn
    have hlength : (candidates (store.read d).entries).length = (store.read d).entries.length :=
      List.length_map _
    have hpos : 0 < (store.read d).entries.length := List.length_pos_iff.mpr hw.nonempty
    split
    · -- some image is eligible
      next hany =>
      obtain ⟨c, hc, heligible⟩ := List.any_eq_true.mp hany
      refine ⟨⟨List.length_pos_iff.mp (by omega), by omega, hone,
        List.countP_pos_iff.mpr ⟨c, hc, heligible⟩⟩, fun c hc => ?_⟩
      obtain ⟨e, he, rfl⟩ := List.mem_map.mp hc
      exact hsized e he
    · -- none is, so the fallback is made eligible
      obtain ⟨hflags, hentries, heligible⟩ := set_fallback _ hget hmarked
      have hsame : ((candidates (store.read d).entries).set index ⟨fallback, true, true⟩).countP
          PublicationEntry.fallback = 1 := by
        have hcount := congrArg (List.countP id) hflags
        rw [List.countP_map, List.countP_map] at hcount
        exact hcount.trans hone
      refine ⟨⟨List.length_pos_iff.mp ?_, ?_, hsame, heligible⟩, fun c hc => ?_⟩
      · rw [List.length_set]
        omega
      · rw [List.length_set]
        omega
      · apply hsized
        rw [← hentries]
        exact List.mem_map_of_mem hc

/-! ### The manager's checks -/

end SleepImageStore

namespace SleepImageCatalogService

open Text Files Transition SleepImageManager SleepImageStore

variable {service : SleepImageCatalogService} {d : Directory} {s : Snapshot}

/-- A candidate in the parcel. -/
def Transmitted.entry (c : Transmitted) : SleepImageManager.Entry where
  fallback := if c.fallback then 1 else 0
  eligible := if c.eligible then 1 else 0
  width := c.width
  height := c.height
  grayTransport := some ⟨.opened c.pixels.length, true⟩
  alphaTransport := some ⟨.opened c.alpha.length, true⟩

def Transmitted.candidate (c : Transmitted) : Candidate where
  width := c.width
  height := c.height
  fallback := c.fallback
  eligible := c.eligible

/-- What is read past the end of a parcel. -/
def pastEnd : SleepImageManager.Entry := ⟨0, 0, 0, 0, none, none⟩

/-- The transaction as it arrives, its shared memories open. -/
def Transaction.callback (t : Transaction) : ProviderCallback where
  fromProvider := true
  interfaceToken := true
  version := t.version
  generation := t.requestGeneration
  storeGeneration := t.storeGeneration
  result := t.result
  reason := t.reason
  count := t.candidates.length
  entry index := (t.candidates[index]?.map Transmitted.entry).getD pastEnd
  dataAvail := 0

/-- The transaction passes every check: it is posted as valid, with all of its candidates, and one
of them can be selected if the result is that there are some. -/
def ManagerAccepts (t : Transaction) : Prop :=
  ∀ h : Handles, ∃ message h', onTransact h t.callback = (some message, h') ∧
    message.valid = true ∧ message.result = t.result ∧
    message.candidates.map (·.candidate) = t.candidates.map Transmitted.candidate ∧
    (t.result = RESULT_OK → ∀ pick,
      (selectCandidateIndex (message.candidates.map (·.candidate)) pick).isSome = true)

theorem callback_entries (t : Transaction) :
    t.callback.entries = t.candidates.map Transmitted.entry := by
  rw [ProviderCallback.entries, show t.callback.count.toNat = t.candidates.length from rfl]
  apply List.ext_getElem
  · simp
  · intro index h h'
    rw [List.length_map, List.length_range] at h
    simp [Transaction.callback, h]

/-- The candidate has the planes of the colour panel. -/
structure Transmitted.Fits (c : Transmitted) : Prop where
  width : c.width = PANEL_WIDTH
  height : c.height = PANEL_HEIGHT
  pixels : (c.pixels.length : Int) = PANEL_BYTES * 4
  alpha : (c.alpha.length : Int) = PANEL_BYTES

theorem Transmitted.Fits.panelBytes {c : Transmitted} (hc : c.Fits) :
    panelBytesFor c.width c.height = PANEL_BYTES := by
  rw [hc.width, hc.height]
  decide

theorem readCandidate_fits {c : Transmitted} (hc : c.Fits) (h : Handles) :
    ∃ held h', readCandidate h c.entry = (.ok held, h') ∧ held.candidate = c.candidate := by
  have hbytes : panelBytesFor c.entry.width c.entry.height = PANEL_BYTES := hc.panelBytes
  have hmetadata : c.entry.validMetadata = true := by
    unfold SleepImageManager.Entry.validMetadata
    rw [hbytes]
    cases hf : c.fallback <;> cases he : c.eligible <;>
      simp [Transmitted.entry, hf, he, PANEL_BYTES]
  have hflags : (decide (c.entry.fallback = 1), decide (c.entry.eligible = 1)) =
      (c.fallback, c.eligible) := by
    cases hf : c.fallback <;> cases he : c.eligible <;> simp [Transmitted.entry, hf, he]
  obtain ⟨hfallback, heligible⟩ := Prod.mk.inj hflags
  unfold readCandidate
  simp only [hmetadata, hbytes, Bool.not_true, Bool.false_eq_true, if_false]
  simp only [Transmitted.entry, readFileDescriptor, duplicateValidatedSharedMemory, hc.pixels,
    hc.alpha, ne_eq, not_true_eq_false, if_false, if_true]
  refine ⟨_, _, rfl, ?_⟩
  show Candidate.mk c.entry.width c.entry.height (decide (c.entry.fallback = 1))
    (decide (c.entry.eligible = 1)) = c.candidate
  rw [hfallback, heligible]
  rfl

theorem readCandidates_fits {cs : List Transmitted} (hcs : ∀ c ∈ cs, c.Fits) (h : Handles)
    (acc : List HeldCandidate) :
    ∃ held h', readCandidates h acc (cs.map Transmitted.entry) = (none, acc ++ held, h') ∧
      held.map (·.candidate) = cs.map Transmitted.candidate := by
  induction cs generalizing h acc with
  | nil => exact ⟨[], h, by rw [List.append_nil]; rfl, rfl⟩
  | cons c cs ih =>
    obtain ⟨first, h₁, hfirst, hcandidate⟩ := readCandidate_fits (hcs c List.mem_cons_self) h
    obtain ⟨rest, h₂, hrest, hcandidates⟩ :=
      ih (fun x hx => hcs x (List.mem_cons_of_mem _ hx)) h₁ (acc ++ [first])
    refine ⟨first :: rest, h₂, ?_, ?_⟩
    · rw [List.map_cons, readCandidates, hfirst]
      dsimp only
      rw [hrest, List.append_assoc, List.singleton_append]
    · rw [List.map_cons, List.map_cons, hcandidate, hcandidates]

theorem selectCandidateIndex_isSome {catalog : List Candidate}
    (h : 0 < catalog.countP (·.eligible)) (pick : Nat) :
    (selectCandidateIndex catalog pick).isSome = true := by
  unfold selectCandidateIndex
  dsimp only
  have hne : 0 < (catalog.findIdxs (·.eligible)).length := by
    rw [List.length_findIdxs]
    exact h
  have hlt : pick % (catalog.findIdxs (·.eligible)).length <
      (catalog.findIdxs (·.eligible)).length := Nat.mod_lt _ hne
  rw [List.getElem?_eq_getElem hlt]
  rfl

/-- A transaction whose candidates fit the panel, one of them the fallback and some eligible. -/
theorem managerAccepts_ok {t : Transaction} (hversion : t.version = 5)
    (hrequest : 0 < t.requestGeneration) (hstore : 0 < t.storeGeneration)
    (hresult : t.result = RESULT_OK) (hreason : t.reason = REASON_NONE)
    (hne : t.candidates ≠ []) (hcount : t.candidates.length ≤ SleepImageManager.MAXIMUM_ENTRIES)
    (hfits : ∀ c ∈ t.candidates, c.Fits)
    (hfallback : t.candidates.countP Transmitted.fallback = 1)
    (heligible : 0 < t.candidates.countP Transmitted.eligible) : ManagerAccepts t := by
  intro h
  have hpos : 0 < t.candidates.length := List.length_pos_iff.mpr hne
  -- the checks of the header, of the geometry and of the flags, in this order
  have hheader : t.callback.validHeader = true := by
    simp [ProviderCallback.validHeader, ProviderCallback.validResult, Transaction.callback,
      hversion, hrequest, hstore, hresult, hreason, RESULT_OK, REASON_NONE, hcount, hpos,
      ProviderCallback.PROVIDER_PROTOCOL_VERSION, ProviderCallback.RESULT_OK,
      ProviderCallback.REASON_NONE]
  obtain ⟨held, h', hread, hcandidates⟩ := readCandidates_fits hfits h []
  rw [List.nil_append, ← callback_entries] at hread
  have hcandidate : ∀ c ∈ held.map (·.candidate), c.width = PANEL_WIDTH ∧
    c.height = PANEL_HEIGHT := by
    rw [hcandidates]
    intro c hc
    obtain ⟨sent, hsent, rfl⟩ := List.mem_map.mp hc
    exact ⟨(hfits sent hsent).width, (hfits sent hsent).height⟩
  have hhomogeneous : isHomogeneousExpected held = true := by
    rw [isHomogeneousExpected, Bool.and_eq_true, List.all_eq_true]
    constructor
    · apply decide_eq_true
      rintro rfl
      exact hne (List.map_eq_nil_iff.mp hcandidates.symm)
    · intro c hc
      obtain ⟨hwidth, hheight⟩ := hcandidate c.candidate (List.mem_map_of_mem hc)
      rw [hwidth, hheight]
      decide
  have hmetadata : validCandidateMetadata (held.map (·.candidate)) = true := by
    rw [validCandidateMetadata, Bool.and_eq_true, Bool.and_eq_true]
    refine ⟨⟨?_, ?_⟩, ?_⟩
    · rw [List.all_eq_true]
      intro c hc
      rw [List.all_eq_true]
      intro c' hc'
      obtain ⟨hw, hh⟩ := hcandidate c hc
      obtain ⟨hw', hh'⟩ := hcandidate c' hc'
      simp [hw, hh, hw', hh']
    · rw [hcandidates, List.countP_map]
      exact decide_eq_true hfallback
    · rw [hcandidates, List.countP_map]
      exact decide_eq_true heligible
  refine ⟨⟨t.requestGeneration, t.storeGeneration, t.result, held, true, false⟩, h', ?_, rfl, rfl,
    hcandidates, fun _ pick => ?_⟩
  · unfold onTransact
    rw [hheader, hread]
    simp [Transaction.callback, hresult, RESULT_OK, ProviderCallback.RESULT_OK, hhomogeneous,
      hmetadata]
  · apply selectCandidateIndex_isSome
    rw [hcandidates, List.countP_map]
    exact heligible

/-- A transaction that says that the shared memories could not be made. -/
theorem managerAccepts_unavailable {t : Transaction} (hversion : t.version = 5)
    (hrequest : 0 < t.requestGeneration) (hstore : 0 < t.storeGeneration)
    (hresult : t.result = RESULT_UNAVAILABLE) (hreason : t.reason = REASON_SHARED_MEMORY)
    (hnone : t.candidates = []) : ManagerAccepts t := by
  intro h
  have hheader : t.callback.validHeader = true := by
    simp [ProviderCallback.validHeader, ProviderCallback.validResult, Transaction.callback,
      hversion, hrequest, hstore, hresult, hreason, hnone, RESULT_UNAVAILABLE,
      REASON_SHARED_MEMORY, ProviderCallback.PROVIDER_PROTOCOL_VERSION,
      ProviderCallback.RESULT_UNAVAILABLE, ProviderCallback.REASON_SHARED_MEMORY,
      SleepImageManager.MAXIMUM_ENTRIES]
  refine ⟨⟨t.requestGeneration, t.storeGeneration, t.result, [], true, false⟩, h, ?_, rfl, rfl,
    by rw [hnone]; rfl, fun hok => ?_⟩
  · unfold onTransact
    rw [hheader]
    simp [Transaction.callback, hresult, RESULT_UNAVAILABLE, ProviderCallback.RESULT_OK]
  · rw [hresult] at hok
    exact absurd hok (by decide)

/-! ### What is sent -/

theorem mapM_transmitted {memory : Nat → Bool} {cover : Option SleepImageTransforms.Planes}
    {publication : List PublicationEntry} {start : Nat} {sent : List Transmitted}
    (h : (publication.zipIdx start).mapM (fun (c, index) =>
      service.transmit d (memory index) cover c) = some sent) :
    sent.map Transmitted.fallback = publication.map PublicationEntry.fallback ∧
      sent.map Transmitted.eligible = publication.map PublicationEntry.eligible ∧
      ∀ t ∈ sent, ∃ c ∈ publication, service.pixels d cover c = some t.pixels ∧
        t.alpha = c.entry.alpha ∧ t.width = service.store.width ∧
        t.height = service.store.height := by
  induction publication generalizing start sent with
  | nil =>
    rw [List.zipIdx_nil, List.mapM_nil] at h
    rw [← Option.some_inj.mp h]
    exact ⟨rfl, rfl, fun t ht => absurd ht List.not_mem_nil⟩
  | cons c publication ih =>
    rw [List.zipIdx_cons, List.mapM_cons] at h
    obtain ⟨t, ht, h⟩ := Option.bind_eq_some_iff.mp h
    obtain ⟨rest, hrest, h⟩ := Option.bind_eq_some_iff.mp h
    obtain ⟨hfallback, heligible, hall⟩ := ih hrest
    obtain ⟨pixels, hpixels, ht⟩ := Option.bind_eq_some_iff.mp ht
    split at ht
    · rw [← Option.some_inj.mp h, ← Option.some_inj.mp ht]
      refine ⟨by rw [List.map_cons, List.map_cons, hfallback],
        by rw [List.map_cons, List.map_cons, heligible], fun u hu => ?_⟩
      rcases List.mem_cons.mp hu with rfl | hu
      · exact ⟨c, List.mem_cons_self, hpixels, rfl, rfl, rfl⟩
      · obtain ⟨c', hc', hrest⟩ := hall u hu
        exact ⟨c', List.mem_cons_of_mem _ hc', hrest⟩
    · cases ht

/-- The colour product whose manager this is. -/
structure IsAura (service : SleepImageCatalogService) : Prop where
  width : service.store.width = 2480
  height : service.store.height = 1860
  color : service.hasColorCfa = true

theorem IsAura.bytes (ha : service.IsAura) : (service.store.bytes : Int) = PANEL_BYTES := by
  rw [SleepImageStore.bytes, ha.width, ha.height]
  decide

/-- Every publication of the snapshot is acceptable, and every transaction that is sent for it
passes the manager's checks; none says that there is no candidate. -/
structure PublishesWell (service : SleepImageCatalogService) (s : Snapshot) : Prop where
  acceptable : ∀ (coverMode : Bool) (gray alpha : Option Bytes),
    Acceptable (service.store.publication s coverMode gray alpha)
  accepted : ∀ (d : Directory) (memory : Nat → Bool) (requestGeneration mode : Int)
    (decoded : Option SleepImageTransforms.Planes), 0 < requestGeneration →
      ∀ t ∈ service.publishResult d memory s requestGeneration mode decoded,
        ManagerAccepts t ∧ t.result ≠ RESULT_EMPTY

theorem fits_of_transmitted (ha : service.IsAura) {cover : Option SleepImageTransforms.Planes}
    {c : PublicationEntry} {t : Transmitted} (hpixels : service.pixels d cover c = some t.pixels)
    (halpha : t.alpha.length = service.store.bytes) (hwidth : t.width = service.store.width)
    (hheight : t.height = service.store.height) : t.Fits := by
  have hbytes := ha.bytes
  refine ⟨?_, ?_, ?_, ?_⟩
  · rw [hwidth, ha.width]
    rfl
  · rw [hheight, ha.height]
    rfl
  · unfold pixels at hpixels
    rw [if_pos ha.color] at hpixels
    have hlength := of_decide_eq_true (Option.filter_eq_some_iff.mp hpixels).2
    omega
  · omega

theorem publishesWell_of_whole (ha : service.IsAura) (hw : Whole service.store d) :
    service.PublishesWell (service.store.read d) := by
  have hpublication := acceptable_publication service.store hw
  refine ⟨fun coverMode gray alpha => (hpublication coverMode gray alpha).1, ?_⟩
  intro d₁ memory requestGeneration mode decoded hrequest t ht
  have hstore : 0 < (service.store.read d).generation := (readManifest_generation hw.nonempty).1
  have hversion : service.PROVIDER_PROTOCOL_VERSION = 5 := by
    rw [PROVIDER_PROTOCOL_VERSION, if_pos ha.color]
  unfold publishResult at ht
  dsimp only at ht
  generalize (if mode = MODE_KOREADER_COVER then decoded else none) = cover at ht
  obtain ⟨hacceptable, hsized⟩ := hpublication (mode = MODE_KOREADER_COVER)
    (cover.map SleepImageTransforms.Planes.gray) (cover.map SleepImageTransforms.Planes.alpha)
  generalize service.store.publication (service.store.read d) (mode = MODE_KOREADER_COVER)
    (cover.map SleepImageTransforms.Planes.gray) (cover.map SleepImageTransforms.Planes.alpha) =
      publication at ht hacceptable hsized
  have hne : publication.isEmpty = false := List.isEmpty_eq_false_iff.mpr hacceptable.nonempty
  rw [hne, if_neg (by decide)] at ht
  split at ht
  · -- the memories could be made: what is sent fits the panel
    next sent hsent =>
    rw [List.mem_singleton.mp ht]
    unfold sendResult at hsent
    rw [if_pos rfl] at hsent
    obtain ⟨candidates, hcandidates, rfl⟩ := Option.map_eq_some_iff.mp hsent
    obtain ⟨hfallback, heligible, hall⟩ := mapM_transmitted hcandidates
    have hlength : candidates.length = publication.length := by
      have hcount := congrArg List.length hfallback
      rwa [List.length_map, List.length_map] at hcount
    refine ⟨managerAccepts_ok hversion hrequest hstore rfl rfl ?_ ?_ ?_ ?_ ?_, by
      show RESULT_OK ≠ RESULT_EMPTY
      decide⟩
    · apply List.length_pos_iff.mp
      rw [hlength]
      exact List.length_pos_iff.mpr hacceptable.nonempty
    · rw [hlength]
      exact hacceptable.fits
    · intro c hc
      obtain ⟨entry, hentry, hpixels, halpha, hwidth, hheight⟩ := hall c hc
      exact fits_of_transmitted ha hpixels (halpha ▸ hsized entry hentry) hwidth hheight
    · have hcount := congrArg (List.countP id) hfallback
      rw [List.countP_map, List.countP_map] at hcount
      exact hcount.trans hacceptable.fallback
    · have hcount := congrArg (List.countP id) heligible
      rw [List.countP_map, List.countP_map] at hcount
      exact Nat.lt_of_lt_of_eq hacceptable.eligible hcount.symm
  · -- they could not, and the transaction says so
    rw [sendResult, if_neg (by decide), Option.map_some, Option.toList_some,
      List.mem_singleton] at ht
    rw [ht]
    refine ⟨managerAccepts_unavailable hversion hrequest hstore rfl rfl rfl, ?_⟩
    show RESULT_UNAVAILABLE ≠ RESULT_EMPTY
    decide

end SleepImageCatalogService

end EinkLab
