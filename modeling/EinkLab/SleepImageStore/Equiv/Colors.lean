import EinkLab.SleepImage.Equiv.Transforms
import EinkLab.SleepImageStore.Equiv.Lifecycle

/-!
# The colour planes of a publication

A candidate is sent with the alpha plane of the store and a colour plane from one of four places.
`Consistent` says of an opened catalog that they match; then, and only then, every candidate of
every publication is one that the native catalog takes (`colors_taken_iff`).
-/

namespace EinkLab

open Text Files Transition SleepImageTransforms

/-! ### What the native side takes -/

namespace EinkSleepImageCatalog

/-- A colour plane with the alpha of the alpha plane has a gray plane. -/
theorem grayOfRgba_of_alphaChannel {plane alpha : List UInt8}
    (hlen : plane.length = alpha.length * 4) (halpha : alphaChannel plane = alpha) :
    ∃ gray, grayOfRgba plane alpha = some gray ∧ gray.length = alpha.length ∧
      isPanelGray gray = true := by
  induction alpha generalizing plane with
  | nil =>
    have hnil : plane = [] := List.eq_nil_of_length_eq_zero (by simpa using hlen)
    rw [hnil]
    exact ⟨[], rfl, rfl, rfl⟩
  | cons a alpha ih =>
    match plane, hlen, halpha with
    | red :: green :: blue :: coverage :: rest, hlen, halpha =>
      obtain ⟨rfl, hrest⟩ := List.cons.inj halpha
      have hlength : rest.length = alpha.length * 4 := by
        simp only [List.length_cons] at hlen
        omega
      obtain ⟨gray, hgray, hcount, hpanel⟩ := ih hlength hrest
      refine ⟨luma red green blue :: gray, ?_, ?_, ?_⟩
      · rw [grayOfRgba, if_neg (not_not.mpr rfl), hgray, Option.map_some]
      · rw [List.length_cons, List.length_cons, hcount]
      · rw [isPanelGray, List.all_cons, Bool.and_eq_true]
        exact ⟨decide_eq_true (luma_panelGray red green blue), hpanel⟩

end EinkSleepImageCatalog

namespace SleepImageCatalogService

open SleepImageStore
open EinkSleepImageCatalog (alphaChannel readEntry validateEntry grayOfRgba_of_alphaChannel)

variable {service : SleepImageCatalogService} {p : EinkDeviceProfile} {d d₀ : Directory}
  {e : Entry} {as : List StoreAction} {log : List Executed}

/-- The native side takes a candidate: its colour plane is four times the panel, has the alpha of
its alpha plane, and `ReadEntry` and `Validate` accept the entry. -/
structure NativeTakes (p : EinkDeviceProfile) (c : Transmitted) : Prop where
  plane : c.pixels.length = p.panelBytes * 4
  alpha : alphaChannel c.pixels = c.alpha
  accepted : ∃ entry, readEntry p c.width c.height c.pixels c.alpha = some entry ∧
    validateEntry p entry = none

/-- A colour service with the geometry of the product. -/
structure MadeFor (service : SleepImageCatalogService) (p : EinkDeviceProfile) : Prop where
  width : (service.store.width : Int) = p.panelWidth
  height : (service.store.height : Int) = p.panelHeight
  bytes : service.store.bytes = p.panelBytes
  color : service.hasColorCfa = true
  colorPanel : p.hasColorCfa = true
  fallback : ∀ planes, service.fallback = some planes → planes.Agrees p.panelBytes

/-- Every publication of the opened catalog is sent, and the native side takes every candidate. -/
def ColorsTaken (service : SleepImageCatalogService) (p : EinkDeviceProfile) (d : Directory) :
    Prop :=
  ∀ (requestGeneration mode : Int) (decoded : Option Planes),
    (∀ planes, decoded = some planes → planes.Agrees p.panelBytes) →
      ∃ t, service.publishResult d (fun _ => true) (service.store.read d) requestGeneration mode
          decoded = [t] ∧ t.result = RESULT_OK ∧ ∀ c ∈ t.candidates, NativeTakes p c

/-- The colour plane that goes with a stored entry has its alpha: that of the fallback for the
built-in entry, else a stored file, if there is one. -/
def ConsistentEntry (service : SleepImageCatalogService) (d : Directory)
    (e : Entry) : Prop :=
  match e.builtIn, service.fallback with
  | true, some planes => planes.alpha = e.alpha
  | _, _ => ∀ file, d.content (rgbaFile e.id) = some file →
      file.length = service.store.bytes * 4 ∧ alphaChannel file = e.alpha

def Consistent (service : SleepImageCatalogService) (d : Directory) : Prop :=
  ∀ e ∈ (service.store.read d).entries, service.ConsistentEntry d e

/-- The colour plane of rendered planes. -/
theorem rgbaOf_agrees {planes : Planes} {size : Nat} (h : planes.Agrees size) :
    ∃ rgba, rgbaOf (some planes) = some rgba ∧ rgba.length = size * 4 ∧
      alphaChannel rgba = planes.alpha := by
  obtain ⟨texels, ⟨-, halpha, hrgba⟩, hlength, hall⟩ := h
  refine ⟨rgbaBytes (texels.map Texel.rgba), ?_, ?_, ?_⟩
  · rw [rgbaOf, Option.bind_some, hrgba, Option.map_some]
  · rw [rgbaBytes_length, List.length_map, hlength]
  · rw [halpha]
    clear hlength halpha hrgba
    induction texels with
    | nil => rfl
    | cons t texels ih =>
      have hrest := ih fun u hu => hall u (List.mem_cons_of_mem _ hu)
      have ht := (hall t List.mem_cons_self).alpha
      rw [rgbaBytes] at hrest
      rw [List.map_cons, rgbaBytes, List.flatMap_cons, List.map_cons, ← hrest, ← ht]
      rfl

/-- An expansion of a stored entry has its alpha. -/
theorem alphaChannel_expand {gray alpha : Bytes} (hlen : gray.length = alpha.length) :
    (rgbaBytes (expandGrayToRgba gray alpha)).length = alpha.length * 4 ∧
      alphaChannel (rgbaBytes (expandGrayToRgba gray alpha)) = alpha := by
  constructor
  · rw [rgbaBytes_length, expandGrayToRgba, List.length_map, List.length_zip, hlen, Nat.min_self]
  · induction gray generalizing alpha with
    | nil =>
      rw [List.eq_nil_of_length_eq_zero hlen.symm]
      rfl
    | cons g gray ih =>
      match alpha, hlen with
      | a :: alpha, hlen =>
        have hrest := ih (Nat.succ_inj.mp hlen)
        rw [expandGrayToRgba, rgbaBytes] at hrest
        rw [expandGrayToRgba, List.zip_cons_cons, List.map_cons, rgbaBytes, List.flatMap_cons]
        exact congrArg (a :: ·) hrest

/-- The colour plane of a candidate is there and matches. -/
def PlaneMatches (service : SleepImageCatalogService) (d : Directory) (cover : Option Planes)
    (c : PublicationEntry) : Prop :=
  ∃ pixels, service.pixels d cover c = some pixels ∧
    pixels.length = service.store.bytes * 4 ∧ alphaChannel pixels = c.entry.alpha

section Made

variable (hm : service.MadeFor p)

include hm

/-- A candidate of the catalog matches exactly if its entry is consistent. -/
theorem planeMatches_iff {cover : Option Planes} {c : PublicationEntry}
    (hcover : (cover.isSome && !c.fallback) = false)
    (hgray : c.entry.gray.length = service.store.bytes)
    (halpha : c.entry.alpha.length = service.store.bytes) (hrgba : c.entry.rgba = none) :
    service.PlaneMatches d cover c ↔ service.ConsistentEntry d c.entry := by
  have hpixels : service.pixels d cover c =
      (if c.entry.builtIn && (rgbaOf service.fallback).isSome then rgbaOf service.fallback
        else service.store.colorPlane d c.entry).filter
          fun pixels => pixels.length = service.store.bytes * 4 := by
    rw [pixels, if_pos hm.color, hcover]
    rfl
  have hstored : (∃ pixels, (service.store.colorPlane d c.entry).filter
        (fun pixels => pixels.length = service.store.bytes * 4) = some pixels ∧
        pixels.length = service.store.bytes * 4 ∧ alphaChannel pixels = c.entry.alpha) ↔
      ∀ file, d.content (rgbaFile c.entry.id) = some file →
        file.length = service.store.bytes * 4 ∧ alphaChannel file = c.entry.alpha := by
    rw [colorPlane, hrgba]
    dsimp only
    unfold readColorPlane
    cases hfile : d.content (rgbaFile c.entry.id) with
    | none =>
      -- the stored gray is expanded
      obtain ⟨hlen, hchannel⟩ := alphaChannel_expand (hgray.trans halpha.symm)
      rw [halpha] at hlen
      refine iff_of_true ⟨_, ?_, hlen, hchannel⟩ nofun
      rw [Option.filter_some, if_pos (decide_eq_true hlen)]
    | some file =>
      by_cases hlen : file.length = service.store.bytes * 4
      · simp [hlen]
      · simp [hlen]
  rw [PlaneMatches, hpixels, ConsistentEntry]
  cases hb : c.entry.builtIn with
  | false => exact hstored
  | true =>
    cases hf : service.fallback with
    | none => exact hstored
    | some planes =>
      obtain ⟨rgba, hplane, hlen, hchannel⟩ := rgbaOf_agrees (hm.fallback planes hf)
      rw [← hm.bytes] at hlen
      rw [hplane]
      simp only [Option.isSome_some, Bool.and_self, if_true, Option.filter_some,
        decide_eq_true hlen, Option.some_inj]
      rw [← hchannel]
      constructor
      · rintro ⟨pixels, rfl, -, h⟩
        exact h
      · exact fun h => ⟨rgba, rfl, hlen, h⟩

/-- The native side takes a candidate with a matching plane. -/
theorem nativeTakes_of_matches {cover : Option Planes} {c : PublicationEntry}
    (hmatch : service.PlaneMatches d cover c)
    (halpha : c.entry.alpha.length = service.store.bytes) :
    ∃ t, service.transmit d true cover c = some t ∧ NativeTakes p t := by
  obtain ⟨pixels, hpixels, hlen, hchannel⟩ := hmatch
  obtain ⟨gray, hgray, hcount, hpanel⟩ :=
    grayOfRgba_of_alphaChannel (hlen.trans (by rw [halpha])) hchannel
  rw [hm.bytes] at hlen halpha
  refine ⟨_, by rw [transmit, hpixels, Option.bind_some, if_pos rfl], hlen, hchannel,
    { width := service.store.width, height := service.store.height, panelGray := gray,
      alpha := c.entry.alpha, rgba := pixels }, ?_, ?_⟩
  · have hgeometry : ¬((service.store.width : Int) ≠ p.panelWidth ∨
        (service.store.height : Int) ≠ p.panelHeight) := by
      rw [hm.width, hm.height]
      simp
    have hplanes : ¬(pixels.length ≠ p.panelBytes * 4 ∨ c.entry.alpha.length ≠ p.panelBytes) := by
      simp [hlen, halpha]
    show readEntry p service.store.width service.store.height pixels c.entry.alpha = _
    rw [readEntry, if_neg hgeometry, if_pos hm.colorPanel, if_neg hplanes, hgray, Option.map_some]
  · have hgraylen : gray.length = p.panelBytes := hcount.trans halpha
    simp only [validateEntry, hm.width, hm.height, hgraylen, hpanel, halpha, hm.colorPanel, hlen,
      hchannel]
    simp

end Made

/-- What is sent, candidate by candidate. -/
theorem mapM_transmit_iff {cover : Option Planes} {publication : List PublicationEntry}
    {start : Nat} {sent : List Transmitted} :
    (publication.zipIdx start).mapM (fun (c, _) => service.transmit d true cover c) = some sent ↔
      List.Forall₂ (fun c t => service.transmit d true cover c = some t) publication sent := by
  induction publication generalizing start sent with
  | nil =>
    rw [List.zipIdx_nil, List.mapM_nil]
    constructor
    · intro h
      rw [← Option.some.inj h]
      exact .nil
    · intro h
      cases h
      rfl
  | cons c publication ih =>
    rw [List.zipIdx_cons, List.mapM_cons]
    constructor
    · intro h
      obtain ⟨t, ht, h⟩ := Option.bind_eq_some_iff.mp h
      obtain ⟨rest, hrest, h⟩ := Option.bind_eq_some_iff.mp h
      rw [← Option.some.inj h]
      exact .cons ht (ih.mp hrest)
    · intro h
      cases h with
      | cons ht hrest =>
        rename_i t rest
        show (service.transmit d true cover c).bind _ = _
        rw [ht, Option.bind_some]
        show Option.bind (List.mapM _ _) _ = _
        rw [ih.mpr hrest]
        rfl

theorem exists_of_mem_left {α β : Type} {R : α → β → Prop} {xs : List α} {ys : List β} {a : α}
    (h : List.Forall₂ R xs ys) (ha : a ∈ xs) : ∃ b ∈ ys, R a b := by
  induction h with
  | nil => cases ha
  | cons hab _ ih =>
    rcases List.mem_cons.mp ha with rfl | ha
    · exact ⟨_, List.mem_cons_self, hab⟩
    · obtain ⟨b, hb, hr⟩ := ih ha
      exact ⟨b, List.mem_cons_of_mem _ hb, hr⟩

/-- Whatever each candidate can be sent as is sent. -/
theorem exists_transmitted {cover : Option Planes} {publication : List PublicationEntry}
    {P : Transmitted → Prop}
    (h : ∀ c ∈ publication, ∃ t, service.transmit d true cover c = some t ∧ P t) :
    ∃ sent, List.Forall₂ (fun c t => service.transmit d true cover c = some t) publication sent ∧
      ∀ t ∈ sent, P t := by
  induction publication with
  | nil => exact ⟨[], .nil, fun t ht => absurd ht List.not_mem_nil⟩
  | cons c publication ih =>
    obtain ⟨t, ht, hP⟩ := h c List.mem_cons_self
    obtain ⟨sent, hsent, hall⟩ := ih fun c hc => h c (List.mem_cons_of_mem _ hc)
    refine ⟨t :: sent, .cons ht hsent, fun u hu => ?_⟩
    rcases List.mem_cons.mp hu with rfl | hu
    · exact hP
    · exact hall u hu

/-- A published candidate is an entry of the catalog or the cover. -/
theorem entry_of_mem_publication (hw : Whole service.store d) {coverMode : Bool}
    {gray alpha : Option Bytes} {c : PublicationEntry}
    (hc : c ∈ service.store.publication (service.store.read d) coverMode gray alpha) :
    (c.entry ∈ (service.store.read d).entries ∧ (coverMode = true → c.fallback = true)) ∨
      (coverMode = true ∧ c.fallback = false ∧ alpha = some c.entry.alpha) := by
  obtain ⟨index, fallback, hfind, hget, hmem, hid⟩ := findBuiltIn_spec hw.builtIn
  unfold publication at hc
  rw [hfind] at hc
  dsimp only at hc
  rw [hget] at hc
  dsimp only at hc
  cases coverMode with
  | true =>
    rw [if_pos rfl] at hc
    cases hcover : service.store.coverEntry gray alpha with
    | none =>
      rw [hcover] at hc
      rw [List.mem_singleton.mp hc]
      exact Or.inl ⟨hmem, fun _ => rfl⟩
    | some cover =>
      rw [hcover] at hc
      rcases List.mem_cons.mp hc with rfl | hc
      · exact Or.inl ⟨hmem, fun _ => rfl⟩
      · rw [List.mem_singleton.mp hc]
        refine Or.inr ⟨rfl, rfl, ?_⟩
        unfold coverEntry at hcover
        split at hcover
        · split at hcover
          · rw [← Option.some.inj hcover]
            rfl
          · cases hcover
        · cases hcover
  | false =>
    rw [if_neg (by decide)] at hc
    refine Or.inl ⟨?_, nofun⟩
    split at hc
    · obtain ⟨e, he, rfl⟩ := List.mem_map.mp hc
      exact he
    · rcases List.mem_or_eq_of_mem_set hc with hc | rfl
      · obtain ⟨e, he, rfl⟩ := List.mem_map.mp hc
        exact he
      · exact hmem

/-- The ordinary modes publish every entry. -/
theorem mem_publication_of_entry (hw : Whole service.store d) (gray alpha : Option Bytes)
    (he : e ∈ (service.store.read d).entries) :
    ∃ c ∈ service.store.publication (service.store.read d) false gray alpha, c.entry = e := by
  obtain ⟨-, -, -, hcanonical⟩ := read_wellFormed service.store d
  obtain ⟨index, fallback, hfind, hget, hmem, hid⟩ := findBuiltIn_spec hw.builtIn
  have hmarked : fallback.builtIn = true := by
    rw [← congrArg Entry.builtIn (hcanonical hw.agrees fallback hmem)]
    exact decide_eq_true hid
  unfold publication
  rw [hfind]
  dsimp only
  rw [hget]
  dsimp only
  rw [if_neg (by decide)]
  split
  · exact ⟨_, List.mem_map_of_mem he, rfl⟩
  · obtain ⟨-, hentries, -⟩ := set_fallback _ hget hmarked
    rw [← hentries] at he
    exact List.mem_map.mp he

/-- A transaction that succeeds has sent the publication. -/
theorem sendResult_of_publishResult {memory : Nat → Bool} {snapshot : Snapshot}
    {requestGeneration : Int} {t : Transaction}
    (hne : (service.store.publication snapshot false none none).isEmpty = false)
    (hsent : service.publishResult d memory snapshot requestGeneration 1 none = [t])
    (hresult : t.result = RESULT_OK) :
    service.sendResult d memory requestGeneration snapshot.generation RESULT_OK REASON_NONE
      (service.store.publication snapshot false none none) none = some t := by
  have hmode : (1 : Int) ≠ MODE_KOREADER_COVER := by decide
  simp only [publishResult, hmode, decide_false, if_false, Option.map_none, hne,
    Bool.false_eq_true] at hsent
  split at hsent
  · next sent hsend => rw [hsend, List.singleton_inj.mp hsent]
  · -- without memory for a candidate the transaction says so
    have hunavailable : t.result = RESULT_UNAVAILABLE := by
      rw [← List.singleton_inj.mp hsent]
    rw [hresult] at hunavailable
    exact absurd hunavailable (by decide)

/-- An opened catalog is consistent exactly if the native side takes every candidate of it. -/
theorem colorsTaken_iff (hm : service.MadeFor p) (hw : Whole service.store d) :
    service.ColorsTaken p d ↔ service.Consistent d := by
  obtain ⟨-, -, hloaded, -⟩ := read_wellFormed service.store d
  have hplanes : ∀ e ∈ (service.store.read d).entries, e.gray.length = service.store.bytes ∧
      e.alpha.length = service.store.bytes ∧ e.rgba = none := fun e he =>
    ⟨(validPlanes_length (hloaded e he).1.valid).1, (validPlanes_length (hloaded e he).1.valid).2,
      (hloaded e he).2.2⟩
  constructor
  · -- an ordinary publication holds every entry
    intro htaken e he
    obtain ⟨t, hsent, hresult, hall⟩ :=
      htaken 1 1 none fun _ hnone => absurd hnone.symm (Option.some_ne_none _)
    obtain ⟨hgray, halpha, hrgba⟩ := hplanes e he
    have hacceptable := (acceptable_publication service.store hw false none none).1
    obtain ⟨c, hc, rfl⟩ := mem_publication_of_entry hw none none he
    have hne : (service.store.publication (service.store.read d) false none none).isEmpty = false :=
      List.isEmpty_eq_false_iff.mpr hacceptable.nonempty
    have hsend := sendResult_of_publishResult hne hsent hresult
    obtain ⟨candidates, hcandidates, rfl⟩ := Option.map_eq_some_iff.mp hsend
    rw [if_pos rfl] at hcandidates
    have hpairs := mapM_transmit_iff.mp hcandidates
    obtain ⟨t, ht, htransmit⟩ := exists_of_mem_left hpairs hc
    have htakes := hall t ht
    obtain ⟨pixels, hpixels, hrest⟩ := Option.bind_eq_some_iff.mp htransmit
    rw [if_pos rfl] at hrest
    obtain rfl := Option.some.inj hrest
    refine (planeMatches_iff hm rfl hgray halpha hrgba).mp ⟨pixels, hpixels, ?_, htakes.alpha⟩
    rw [hm.bytes]
    exact htakes.plane
  · intro hconsistent requestGeneration mode decoded hdecoded
    obtain ⟨cover, hcover⟩ : ∃ cover, cover = if mode =
      MODE_KOREADER_COVER then decoded else none :=
      ⟨_, rfl⟩
    -- a candidate is an entry or the cover, and each brings its plane
    have hmatch : ∀ c ∈ service.store.publication (service.store.read d)
        (mode = MODE_KOREADER_COVER) (cover.map Planes.gray) (cover.map Planes.alpha),
          service.PlaneMatches d cover c := by
      intro c hc
      rcases entry_of_mem_publication hw hc with ⟨he, hfallback⟩ | ⟨hmode, hfallback, halpha⟩
      · obtain ⟨hgray, halpha, hrgba⟩ := hplanes c.entry he
        refine (planeMatches_iff hm ?_ hgray halpha hrgba).mpr (hconsistent c.entry he)
        by_cases hmode : mode = MODE_KOREADER_COVER
        · rw [hfallback (decide_eq_true hmode)]
          exact Bool.and_false _
        · rw [hcover, if_neg hmode]
          rfl
      · -- the cover brings its own colour plane
        obtain ⟨planes, hsome, hplane⟩ := Option.map_eq_some_iff.mp halpha
        have hdecodes : decoded = some planes := by
          rw [← hsome, hcover, if_pos (of_decide_eq_true hmode)]
        obtain ⟨rgba, hrgba, hlen, hchannel⟩ := rgbaOf_agrees (hdecoded planes hdecodes)
        rw [← hm.bytes] at hlen
        refine ⟨rgba, ?_, hlen, hchannel.trans hplane⟩
        rw [pixels, if_pos hm.color, hsome, hfallback]
        show (rgbaOf (some planes)).filter _ = _
        rw [hrgba, Option.filter_some, if_pos (decide_eq_true hlen)]
    have hacceptable := acceptable_publication service.store hw (mode = MODE_KOREADER_COVER)
      (cover.map Planes.gray) (cover.map Planes.alpha)
    obtain ⟨sent, hpairs, htakes⟩ := exists_transmitted fun c hc =>
      nativeTakes_of_matches hm (hmatch c hc) (hacceptable.2 c hc)
    have hne := List.isEmpty_eq_false_iff.mpr hacceptable.1.nonempty
    obtain ⟨t, hsend, hresult, hcandidates⟩ : ∃ t, service.sendResult d (fun _ => true)
        requestGeneration (service.store.read d).generation RESULT_OK REASON_NONE
          (service.store.publication (service.store.read d) (mode = MODE_KOREADER_COVER)
            (cover.map Planes.gray) (cover.map Planes.alpha)) cover = some t ∧
        t.result = RESULT_OK ∧ t.candidates = sent := by
      rw [sendResult, if_pos rfl]
      dsimp only
      rw [mapM_transmit_iff.mpr hpairs, Option.map_some]
      exact ⟨_, rfl, rfl, rfl⟩
    refine ⟨t, ?_, hresult, hcandidates ▸ htakes⟩
    unfold publishResult
    dsimp only
    rw [← hcover, hne, if_neg (by decide), hsend]

/-! ### What keeps the catalog consistent -/

/-- What `ConsistentEntry` asks of an entry and its colour plane on disk. -/
def ConsistentItem (service : SleepImageCatalogService) (i : Item) : Prop :=
  match i.1.builtIn, service.fallback with
  | true, some planes => planes.alpha = i.1.alpha
  | _, _ => ∀ file, i.2 = some file →
      file.length = service.store.bytes * 4 ∧ alphaChannel file = i.1.alpha

theorem consistent_iff_items :
    service.Consistent d ↔ ∀ i ∈ service.store.items d, service.ConsistentItem i :=
  ⟨fun h i hi => by obtain ⟨e, he, rfl⟩ := List.mem_map.mp hi; exact h e he,
    fun h _ he => h _ (List.mem_map_of_mem he)⟩

theorem consistentItem_rotated {i : Item} (enabled : Bool) :
    service.ConsistentItem (Item.rotated enabled i) ↔ service.ConsistentItem i := Iff.rfl

/-- A colour plane that comes with an image has the alpha of its alpha plane. -/
def ColorsMatch (service : SleepImageCatalogService) : Request → Prop
  | .add _ _ alpha rgba _ => ∀ plane file, alpha = some plane → rgba = some file →
      file.length = service.store.bytes * 4 ∧ alphaChannel file = plane
  | _ => True

theorem Consistent.intended {g : Int} {d' : Directory} {r : Request} (h : service.Consistent d)
    (hcolors : service.ColorsMatch r)
    (hi : Intended service.store g (service.store.items d) (service.store.items d') r) :
    service.Consistent d' := by
  rw [consistent_iff_items] at h ⊢
  intro i hmem
  cases r with
  | openAndRepair gray alpha => exact hi.elim
  | add expected gray alpha rgba nanos =>
    obtain ⟨gr, al, -, halpha, hitems⟩ := hi
    rw [hitems] at hmem
    rcases List.mem_append.mp hmem with hmem | hmem
    · exact h i (Catalog.makeRoom_sublist.subset hmem)
    · -- the image that was added is not built in
      rw [List.mem_singleton.mp hmem]
      exact fun file hfile => hcolors al file halpha hfile
  | remove expected id =>
    obtain ⟨-, -, hitems⟩ := hi
    rw [hitems] at hmem
    exact h i (List.mem_filter.mp hmem).1
  | setBuiltInRotation expected enabled =>
    obtain ⟨-, hitems⟩ := hi
    rw [hitems] at hmem
    obtain ⟨j, hj, rfl⟩ := List.mem_map.mp hmem
    split
    · exact (consistentItem_rotated enabled).mpr (h j hj)
    · exact h j hj

/-- The condition on a call that keeps the catalog consistent. -/
def Matching (service : SleepImageCatalogService) (d : Directory) (a : StoreAction) : Prop :=
  FreshIds service.store d a ∧ Left service.store d ∧ service.ColorsMatch a.request

theorem Consistent.step {a : StoreAction} {d' : Directory} {evs : List Executed}
    (h : service.Consistent d) (hs : Sound service.store d) (hok : service.Matching d a)
    (hstep : (system service.store).step d a = some (d', evs)) :
    Sound service.store d' ∧ service.Consistent d' := by
  obtain ⟨hfresh, hleft, hcolors⟩ := hok
  obtain ⟨x, rfl, rfl, rfl, hrequest, -, hends⟩ := step_cases hstep hfresh.entries
  have hnew : ∀ id ∈ catalogIds x.before, ¬x.request.newId service.store x.before id :=
    hrequest ▸ hfresh.catalogIds
  refine ⟨(whole_step hends hnew hleft (Or.inr hs)).1, ?_⟩
  have hsame : ∀ d₁, Recovered service.store x.before d₁ → d₁ = x.before := by
    intro d₁ hr
    unfold Recovered at hr
    rwa [hs.2] at hr
  cases hends with
  | opened gray alpha d₁ s _ _ _ _ hrecovered hopens =>
    rw [hsame d₁ hrecovered] at hopens
    rw [hopens.same hs.1]
    exact h
  | threw gray alpha _ _ hthrows =>
    rcases hthrows with ⟨-, hd⟩ | ⟨⟨manifest, hmanifest, -⟩, -⟩ | ⟨-, gr, al, d₁, -, hr, haborts⟩
    · rw [hd]
      exact h
    · rw [hs.2] at hmanifest
      cases hmanifest
    · -- the built-in entry is there, so that nothing new was written
      rw [hsame d₁ hr] at haborts
      cases haborts with
      | repair new _ hmissing hframe =>
        have hitems : service.store.items x.after = service.store.items x.before := by
          refine items_of_frame hframe fun id _ hid => ?_
          obtain ⟨rfl, hnot⟩ := hmissing id hid
          exact hnot hs.1.builtIn
        rw [consistent_iff_items, hitems, ← consistent_iff_items]
        exact h
      | first _ hempty => exact absurd hempty hs.1.nonempty
  | mutated m _ houtcome hends =>
    rw [hrequest] at hends
    have hatomic : Atomic service.store ⟨a.request, x.calls, .mutated m, x.before, x.after⟩ m :=
      atomic_of_ends hs.1.agrees hleft.catalog hfresh hends
    unfold Atomic at hatomic
    split at hatomic
    · exact h.intended hcolors hatomic.2.2.2.2
    · rw [consistent_iff_items, show service.store.items x.after = service.store.items x.before from
        hatomic.2.2, ← consistent_iff_items]
      exact h

/-- A consistent catalog stays so, whatever is added with a matching colour plane. -/
theorem Consistent.run (h : service.Consistent d₀) (hs : Sound service.store d₀)
    (hrun : (system service.store).Run service.Matching d₀ as log d) :
    Sound service.store d ∧ service.Consistent d := by
  refine hrun.induct (fun _ _ d => Sound service.store d ∧ service.Consistent d) ⟨hs, h⟩ ?_
  rintro - - d a d' evs ⟨hsound, hconsistent⟩ hok hstep
  exact hconsistent.step hsound hok hstep

/-! ### What is transmitted -/

/-- **What a colour provider transmits the native catalog accepts, exactly if the catalog is
consistent**, in every state of a run in which the store has been opened. -/
theorem colors_taken_iff (hm : service.MadeFor p)
    (hrun : (system service.store).Run (Ready service.store) d₀ as log d)
    (hopened : HasOpened log) :
    service.ColorsTaken p d ↔ service.Consistent d :=
  colorsTaken_iff hm ((sound_of_run hrun).1 hopened).1

theorem content_rgbaFile_lostImages {e : Entry} (he : e ∈ repairedImages) {file : Bytes}
    (hfile : lostImages.content (rgbaFile e.id) = some file) : file = whiteColors := by
  have hphoto : lostImages.content (rgbaFile "photo".toList) = some whiteColors := by
    simp only [lostImages, List.foldl_cons, List.foldl_nil]
    simp (disch := decide) only [Directory.content_write_ne, Directory.content_write]
  have hnone : ∀ id ∈ [auraStore.builtInId, "painting".toList],
      lostImages.content (rgbaFile id) = none := by
    intro id hid
    simp only [List.mem_cons, List.not_mem_nil, or_false] at hid
    simp only [lostImages, List.foldl_cons, List.foldl_nil]
    rcases hid with rfl | rfl <;>
      simp (disch := decide) only [Directory.content_write_ne, Directory.content_empty]
  simp only [repairedImages, List.mem_cons, List.not_mem_nil, or_false] at he
  rcases he with rfl | rfl | rfl
  · cases (hnone auraStore.builtInId List.mem_cons_self).symm.trans hfile
  · exact (Option.some.inj (hphoto.symm.trans hfile)).symm
  · cases (hnone "painting".toList (by decide)).symm.trans hfile

/-- The repaired catalog is consistent: the product has no fallback of its own, and the one colour
plane on disk is that of a white image. -/
theorem consistent_repaired {d' : Directory} {s : Snapshot}
    (ho : Opens auraStore white solid lostImages d' s) : auraService.Consistent d' := by
  obtain ⟨hp, hc⟩ := committed_lostImages ho
  have hread := hc.read hp (by decide) (by decide)
  have hwhite : white.length = solid.length := by
    rw [white, solid, List.length_replicate, List.length_replicate]
  obtain ⟨hlength, hchannel⟩ := alphaChannel_expand hwhite
  have hsolid : solid.length = auraStore.bytes := List.length_replicate
  intro e he
  rw [show auraService.store.read d' = _ from hread] at he
  obtain ⟨e', he', rfl⟩ := List.mem_map.mp he
  have hplain : e'.rgba = none ∧ e'.alpha = solid := by
    simp only [repairedImages, List.mem_cons, List.not_mem_nil, or_false] at he'
    rcases he' with rfl | rfl | rfl <;> exact ⟨rfl, rfl⟩
  have hfiles : ∀ file, d'.content (rgbaFile e'.id) = some file →
      file.length = auraStore.bytes * 4 ∧ alphaChannel file = e'.alpha := by
    intro file hfile
    rw [(hc.written (by decide) e' he').color, hplain.1, Option.none_or] at hfile
    rw [content_rgbaFile_lostImages he' hfile, hplain.2, ← hsolid]
    exact ⟨hlength, hchannel⟩
  unfold ConsistentEntry
  split
  · next hfallback => cases hfallback
  · exact hfiles

/-- The catalog is repaired, and the built-in image taken out of the rotation. -/
theorem colors_taken_lostImages :
    ∃ x y m, (system auraStore).Run (Ready auraStore) lostImages
        [openWhite lostImages, rotateQuietly auraStore false x.after] [x, y] y.after ∧
      (auraStore.read x.after).entries.map Entry.id =
        [auraStore.builtInId, "photo".toList, "painting".toList] ∧
      y.outcome = .mutated m ∧ m.result = .committed ∧
      auraService.ColorsTaken auraCDeviceProfile y.after := by
  have hpending := pendingManifest_lostImages
  obtain ⟨x, hstep, -, s, houtcome, hopens⟩ := exists_openQuietly validPlanes_white hpending
  have hleft := left_lostImages
  obtain ⟨hsound, -⟩ := hopens.sound hpending hleft.catalog
  obtain ⟨hp, hc⟩ := committed_lostImages hopens
  have hread := hc.read hp (by decide) (by decide)
  obtain ⟨y, hstep', -, m, hmutated, hcommitted⟩ := exists_rotateQuietly hsound.1 false
  have hleft' : Left auraStore x.after := by
    refine ⟨by rw [hread]; decide, fun manifest hmanifest => ?_⟩
    rw [hsound.2] at hmanifest
    cases hmanifest
  have hfirst : (system auraStore).Run (Ready auraStore) _ _ _ _ :=
    System.Run.nil.snoc ⟨fun _ _ => id, hleft⟩ hstep
  have hrun := hfirst.snoc ⟨fun _ _ => id, hleft'⟩ hstep'
  have hm : auraService.MadeFor auraCDeviceProfile := ⟨rfl, rfl, rfl, rfl, rfl, nofun⟩
  have hopened : HasOpened [x, y] := ⟨x, List.mem_cons_self, s, houtcome⟩
  -- the mutation keeps the catalog consistent
  have hconsistent : auraService.Consistent y.after :=
    ((consistent_repaired hopens).step (a := rotateQuietly auraStore false x.after) hsound
      ⟨fun _ hid => hid.elim, hleft', trivial⟩ hstep').2
  refine ⟨x, y, m, hrun, ?_, hmutated, hcommitted,
    (colors_taken_iff hm hrun hopened).mpr hconsistent⟩
  rw [hread]
  rfl

/-! ### A new fallback -/

/-- A first opening: what is stored then. -/
theorem exists_firstOpening {store : SleepImageStore} {gray alpha : Bytes}
    (hvalid : store.validPlanes gray alpha = true) :
    ∃ x : Executed, (system store).step .empty (openQuietly store gray alpha .empty) =
        some (x.after, [x]) ∧ (∃ s, x.outcome = .opened s) ∧ Sound store x.after ∧
      (store.read x.after).generation = 1 ∧
      (∃ e ∈ (store.read x.after).entries, e.id = store.builtInId ∧ e.builtIn = true ∧
        e.alpha = alpha) ∧
      ∀ e ∈ (store.read x.after).entries, x.after.content (rgbaFile e.id) = none := by
  obtain ⟨x, hstep, -, s, houtcome, hopens⟩ := exists_openQuietly hvalid (d := .empty) rfl
  have hempty : store.read .empty = {} := rfl
  have hsound := hopens.sound rfl (by rw [hempty]; decide)
  refine ⟨x, hstep, ⟨s, houtcome⟩, hsound.1, ?_⟩
  cases hopens with
  | asIs hne => exact absurd (by rw [hempty]) hne
  | repaired _ hne => exact absurd (by rw [hempty]) hne
  | first retireLegacy _ hp hc =>
    have hone : longSucc (max 0 (store.read .empty).generation) = 1 := by
      rw [hempty]
      decide
    rw [hone] at hc
    obtain ⟨legacy, hlegacy, heq⟩ := migratedEntries_eq store .empty gray alpha
    have hread := hc.read hp (by decide) (by decide)
    rw [hread]
    refine ⟨rfl, ⟨store.normalize (store.builtInEntry true gray alpha), ?_, rfl, ?_, rfl⟩, ?_⟩
    · rw [heq, List.map_cons]
      exact List.mem_cons_self
    · exact decide_eq_true rfl
    · intro e he
      obtain ⟨e', he', rfl⟩ := List.mem_map.mp he
      have hcolor := (hc.written (by decide) e' he').color
      have hrgba : e'.rgba = none := by
        rw [heq] at he'
        rcases List.mem_cons.mp he' with rfl | he'
        · rfl
        · exact hlegacy.plain e' he'
      rw [hrgba] at hcolor
      exact hcolor

/-- The colour product with a transparent fallback. -/
def blankService : SleepImageCatalogService where
  store := auraStore
  hasColorCfa := true
  fallback := some (Planes.blank auraStore.bytes true)

theorem not_forall_colors_taken :
    ¬∀ (service : SleepImageCatalogService) (p : EinkDeviceProfile) (d₀ d : Directory)
      (as : List StoreAction) (log : List Executed), service.MadeFor p →
        (system service.store).Run (Ready service.store) d₀ as log d → HasOpened log →
          service.ColorsTaken p d := by
  intro hall
  -- the store is opened with an opaque fallback, and then with a transparent one
  obtain ⟨x, hstep, -, hsound, hgeneration, ⟨e, he, -, hbuiltIn, halpha⟩, -⟩ :=
    exists_firstOpening validPlanes_white
  have hblank : auraStore.validPlanes (Planes.blank auraStore.bytes true).gray
      (Planes.blank auraStore.bytes true).alpha = true := by
    have hgray : (0xf0 : UInt8) &&& 0x0f = 0 := by decide
    simp [validPlanes, Planes.blank, List.all_replicate, hgray]
  obtain ⟨y, hstep', -, s, houtcome, hopens⟩ := exists_openQuietly hblank hsound.2
  have hready : Ready auraStore .empty (openWhite .empty) := by
    refine ⟨fun _ _ => id, by decide, fun manifest hmanifest => ?_⟩
    cases hmanifest
  have hready' : Ready auraStore x.after (openQuietly auraStore
      (Planes.blank auraStore.bytes true).gray (Planes.blank auraStore.bytes true).alpha
        x.after) := by
    refine ⟨fun _ _ => id, by rw [hgeneration]; decide, fun manifest hmanifest => ?_⟩
    rw [hsound.2] at hmanifest
    cases hmanifest
  have hrun := (System.Run.nil.snoc hready hstep).snoc hready' hstep'
  have hm : blankService.MadeFor auraCDeviceProfile := by
    refine ⟨rfl, rfl, rfl, rfl, rfl, ?_⟩
    rintro planes hplanes
    rw [← Option.some.inj hplanes]
    exact agrees_blank _
  have htaken := hall blankService auraCDeviceProfile _ _ _ _ hm hrun
    ⟨y, List.mem_append_right _ (List.mem_singleton_self y), s, houtcome⟩
  have hsame : y.after = x.after := hopens.same hsound.1
  rw [hsame] at htaken
  have hconsistent := (colorsTaken_iff hm hsound.1).mp htaken e he
  have hopaque : (Planes.blank auraStore.bytes true).alpha = solid := by
    unfold ConsistentEntry at hconsistent
    rw [hbuiltIn] at hconsistent
    exact (show (Planes.blank auraStore.bytes true).alpha = e.alpha from hconsistent).trans halpha
  have hzero : (0 : UInt8) ∈ solid := by
    rw [← hopaque]
    exact List.mem_replicate.mpr ⟨by decide, rfl⟩
  exact absurd (List.eq_of_mem_replicate hzero) (by decide)

end SleepImageCatalogService

end EinkLab
