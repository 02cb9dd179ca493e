import EinkLab.SleepImageStore.Equiv.Manifest

/-!
# What a commit does to the directory

Until its manifest is published, a commit changes only temporary files and the planes of the entries
that are new to the directory (`Frame`); a fault then leaves everything else as it was.  Once it is
published, the catalog is the new one (`Committed`), with every plane on disk.
`sat_commitEntries` says both.
-/

namespace EinkLab.SleepImageStore

open Text Files Transition Procedure

variable {store : SleepImageStore} {d d' d₁ d₂ : Directory} {id : EntryId} {e : Entry}
  {es : List Entry} {g : Int} {h : List FaultEvent} {new new' : EntryId → Prop}

/-! ### Frames -/

/-- Only temporary files and planes of new ids have changed. -/
def Frame (new : EntryId → Prop) (d d' : Directory) : Prop :=
  ∀ name, name.head? ≠ some '.' → (∀ id p, new id → name ≠ planeFile p id) →
    d'.content name = d.content name

theorem Frame.refl (d : Directory) : Frame new d d := fun _ _ _ => rfl

theorem Frame.trans (h₁ : Frame new d d₁) (h₂ : Frame new d₁ d₂) : Frame new d d₂ :=
  fun name hdot hnew => (h₂ name hdot hnew).trans (h₁ name hdot hnew)

theorem Frame.mono (hf : Frame new d d') (hle : ∀ id, new id → new' id) : Frame new' d d' :=
  fun name hdot hnew => hf name hdot fun id p hid => hnew id p (hle id hid)

theorem Frame.plane (hf : Frame new d d') (hid : ¬ new id) (p : Plane) :
    d'.content (planeFile p id) = d.content (planeFile p id) := by
  refine hf _ (by simp) fun id' q hnew heq => hid ?_
  rw [(planeFile_inj.mp heq).2]
  exact hnew

theorem Frame.other (hf : Frame new d d') {name : FileName} {c : Char} (hname : name.head? = some c)
    (hdot : c ≠ '.') (he : c ≠ 'e') : d'.content name = d.content name := by
  refine hf name (by rw [hname]; simpa using hdot) fun id p _ heq => ?_
  rw [heq, head_planeFile] at hname
  exact he (Option.some.inj hname).symm

theorem Frame.manifest (hf : Frame new d d') : d'.content MANIFEST = d.content MANIFEST :=
  hf.other rfl (by decide) (by decide)

theorem Frame.marker (hf : Frame new d d') :
    d'.content LEGACY_RETIRED = d.content LEGACY_RETIRED :=
  hf.other rfl (by decide) (by decide)

theorem Frame.holds (hf : Frame new d d') (hid : ¬ new e.id) (hh : Holds d e) : Holds d' e :=
  ⟨(hf.plane hid .gray).trans hh.gray, (hf.plane hid .alpha).trans hh.alpha⟩

/-- A file was put in place of another, by way of temporary files. -/
def Placed (target : FileName) (content : Bytes) (d d' : Directory) : Prop :=
  ∀ name, name.head? ≠ some '.' →
    d'.content name = if name = target then some content else d.content name

theorem placed_write_move {source target : FileName} {content : Bytes}
    (hs : source.head? = some '.') (ht : target.head? ≠ some '.') :
    Placed target content d ((d.write source content).move source target) := by
  intro name hname
  have hne : source ≠ target := fun h => ht (h ▸ hs)
  have hname' : name ≠ source := fun h => hname (h ▸ hs)
  rw [Directory.content_write_move hne, if_neg hname']

theorem placed_publishManifest :
    Placed MANIFEST (store.manifestBytes g es) d (store.publishManifest g es d) :=
  placed_write_move (head_manifestTemporary g) (by decide)

theorem placed_publishLegacyMarker (content : Bytes) :
    Placed LEGACY_RETIRED content d (publishLegacyMarker content d) :=
  placed_write_move (head_temporaryName _) (by decide)

theorem Placed.content {target : FileName} {content : Bytes} (hp : Placed target content d d')
    (ht : target.head? ≠ some '.') : d'.content target = some content := by
  rw [hp target ht, if_pos rfl]

theorem Placed.plane {p : Plane} {content : Bytes} (hp : Placed (planeFile p id) content d d') :
    Frame (· = id) d d' := by
  intro name hdot hnew
  rw [hp name hdot, if_neg (hnew id p rfl)]

/-! ### Faults -/

/-- A fault was injected. -/
def Faulted (h : List FaultEvent) : Prop := ∃ x ∈ h, x.2 = true

theorem not_faulted_nil : ¬ Faulted [] := by
  rintro ⟨x, hx, -⟩
  cases hx

theorem faulted_append {op : FaultPoint} {fault : Bool} :
    Faulted (h ++ [⟨op, fault⟩]) ↔ Faulted h ∨ fault = true := by
  constructor
  · rintro ⟨x, hx, hfault⟩
    rcases List.mem_append.mp hx with hx | hx
    · exact Or.inl ⟨x, hx, hfault⟩
    · obtain rfl := List.mem_singleton.mp hx
      exact Or.inr hfault
  · rintro (⟨x, hx, hfault⟩ | hfault)
    · exact ⟨x, List.mem_append_left _ hx, hfault⟩
    · exact ⟨_, List.mem_append_right _ List.mem_cons_self, hfault⟩

theorem sat_before {op : FaultPoint} {F : Assertion FaultPoint (fun _ => Bool) Directory}
    {Q : Unit → Assertion FaultPoint (fun _ => Bool) Directory} (hh : ¬ Faulted h)
    (hF : ∀ h', Faulted h' → F h' d) (hQ : ∀ h', ¬ Faulted h' → Q () h' d) :
    (before op).Sat F Q h d := by
  unfold before
  rw [sat_bind, sat_call]
  intro fault
  rw [sat_refuseIf]
  refine ⟨fun hfault => hF _ (faulted_append.mpr (Or.inr hfault)), fun hfault => hQ _ ?_⟩
  rw [faulted_append, hfault]
  simpa using hh

/-! ### Entries -/

/-- The planes of the entry are on disk; without a colour plane of its own it has the one that was
there before. -/
structure Written (d₀ d : Directory) (e : Entry) : Prop where
  holds : Holds d e
  color : d.content (rgbaFile e.id) = e.rgba.or (d₀.content (rgbaFile e.id))

theorem Frame.written (hf : Frame new d₁ d₂) (hid : ¬ new e.id) (hw : Written d d₁ e) :
    Written d d₂ e :=
  ⟨hf.holds hid hw.holds, (hf.plane hid .rgba).trans hw.color⟩

/-- Changing the planes of other entries beforehand makes no difference. -/
theorem Written.of_frame (hw : Written d₁ d₂ e) (hf : Frame new d d₁) (hid : ¬ new e.id) :
    Written d d₂ e :=
  ⟨hw.holds, by rw [hw.color, show d₁.content (rgbaFile e.id) = d.content (rgbaFile e.id) from
    hf.plane hid .rgba]⟩

/-- A colour plane has four bytes a pixel. -/
def RgbaFits (store : SleepImageStore) (e : Entry) : Prop :=
  ∀ rgba, e.rgba = some rgba → rgba.length = store.bytes * 4

theorem written_of_alreadyWritten (h : store.alreadyWritten d e = true) : Written d d e := by
  simp only [alreadyWritten, Bool.and_eq_true, Bool.or_eq_true, decide_eq_true_eq] at h
  obtain ⟨⟨hgray, halpha⟩, hcolor⟩ := h
  refine ⟨⟨(readExact_eq_some.mp hgray).1, (readExact_eq_some.mp halpha).1⟩, ?_⟩
  cases hr : e.rgba with
  | none => rfl
  | some rgba =>
    rw [hr] at hcolor
    rcases hcolor with hnone | hcolor
    · cases hnone
    · rw [readColorPlane] at hcolor
      split at hcolor
      · cases hcolor
      · next content hcontent =>
        split at hcolor
        · rw [hcontent]
          exact Option.some.inj hcolor
        · cases hcolor

theorem alreadyWritten_of_holds (hw : Writable store e) (hh : Holds d e) (hr : e.rgba = none) :
    store.alreadyWritten d e = true := by
  obtain ⟨hgray, halpha⟩ := validPlanes_length hw.valid
  simp [alreadyWritten, readExact_eq_some.mpr ⟨hh.gray, hgray⟩,
    readExact_eq_some.mpr ⟨hh.alpha, halpha⟩, hr]

/-- The planes stay as they are when another file is put in place. -/
theorem Placed.planes {target : FileName} {content : Bytes} (hp : Placed target content d d')
    {c : Char}
    (ht : target.head? = some c) (hc : c ≠ 'e') (p : Plane) (id : EntryId) :
    d'.content (planeFile p id) = d.content (planeFile p id) := by
  rw [hp _ (by simp), if_neg (planeFile_ne ht hc p id)]

theorem Written.of_planes (hw : Written d d₁ e)
    (hp : ∀ p id, d₂.content (planeFile p id) = d₁.content (planeFile p id)) : Written d d₂ e :=
  ⟨⟨(hp .gray e.id).trans hw.holds.gray, (hp .alpha e.id).trans hw.holds.alpha⟩,
    (hp .rgba e.id).trans hw.color⟩

theorem sat_writeAtomic {target : FileName} {content : Bytes} {op : FaultPoint}
    {F : Assertion FaultPoint (fun _ => Bool) Directory}
    {Q : Unit → Assertion FaultPoint (fun _ => Bool) Directory} (hh : ¬ Faulted h)
    (ht : target.head? ≠ some '.') (hF : ∀ h', Faulted h' → F h' d)
    (hQ : ∀ h' d', ¬ Faulted h' → Placed target content d d' → Q () h' d') :
    (writeAtomic target content op).Sat F Q h d := by
  unfold writeAtomic
  rw [sat_bind]
  refine sat_before hh hF fun h' hh' => ?_
  exact hQ h' _ hh' (placed_write_move (head_temporaryName _) ht)

/-- Writing an entry touches its own planes only, and a fault is the only way to fail. -/
theorem sat_writeEntry (hw : Writable store e) (hr : RgbaFits store e) (hh : ¬ Faulted h) :
    (store.writeEntry e).Sat (fun h' d' => Faulted h' ∧ Frame (· = e.id) d d')
      (fun _ h' d' => ¬ Faulted h' ∧ Frame (· = e.id) d d' ∧ Written d d' e) h d := by
  unfold writeEntry
  rw [sat_bind, sat_refuseIf]
  refine ⟨fun hunsafe => absurd hw.safe (by simpa using hunsafe), fun _ => ?_⟩
  rw [sat_bind, sat_get, sat_ite]
  refine ⟨fun halready => ⟨hh, Frame.refl d, written_of_alreadyWritten halready⟩, fun _ => ?_⟩
  rw [sat_bind]
  refine sat_writeAtomic hh (by simp [grayFile]) (fun h' hf => ⟨hf, Frame.refl d⟩) ?_
  intro h₁ d₁ hh₁ hgray
  have hframe₁ : Frame (· = e.id) d d₁ := hgray.plane
  have hgray₁ : d₁.content (grayFile e.id) = some e.gray := hgray.content (by simp [grayFile])
  -- whatever fails from here on, the gray plane is deleted again
  have hfail : ∀ h' d', Faulted h' → Frame (· = e.id) d d' →
      (refuse fun d => d.delete (grayFile e.id) : Work Unit).Sat
        (fun h' d' => Faulted h' ∧ Frame (· = e.id) d d')
        (fun _ h' d' => ¬ Faulted h' ∧ Frame (· = e.id) d d' ∧ Written d d' e) h' d' := by
    intro h' d' hf hframe
    refine ⟨hf, hframe.trans fun name _ hnew => ?_⟩
    exact Directory.content_delete_ne (hnew e.id .gray rfl)
  rw [sat_rescue, sat_bind]
  refine sat_writeAtomic hh₁ (by simp [alphaFile]) (fun h' hf => hfail h' d₁ hf hframe₁) ?_
  intro h₂ d₂ hh₂ halpha
  have hframe₂ : Frame (· = e.id) d d₂ := hframe₁.trans halpha.plane
  have hholds₂ : Holds d₂ e := by
    refine ⟨?_, halpha.content (by simp [alphaFile])⟩
    rw [halpha _ (by simp [grayFile]), if_neg, hgray₁]
    simp [grayFile, alphaFile, planeFile_inj]
  have hcolor₂ : d₂.content (rgbaFile e.id) = d.content (rgbaFile e.id) := by
    rw [halpha _ (by simp [rgbaFile]), if_neg, hgray _ (by simp [rgbaFile]), if_neg]
    · simp [grayFile, rgbaFile, planeFile_inj]
    · simp [alphaFile, rgbaFile, planeFile_inj]
  unfold writeColorPlane
  cases hrgba : e.rgba with
  | none => exact ⟨hh₂, hframe₂, hholds₂, by rw [hcolor₂, hrgba]; rfl⟩
  | some rgba =>
    dsimp only
    rw [sat_bind, sat_refuseIf]
    refine ⟨fun hlen => absurd (hr rgba hrgba) (by simpa using hlen), fun _ => ?_⟩
    refine sat_writeAtomic hh₂ (by simp [rgbaFile]) (fun h' hf => hfail h' d₂ hf hframe₂) ?_
    intro h₃ d₃ hh₃ hcolor
    refine ⟨hh₃, hframe₂.trans hcolor.plane, ⟨?_, ?_⟩, ?_⟩
    · rw [hcolor _ (by simp [grayFile]), if_neg, hholds₂.gray]
      simp [grayFile, rgbaFile, planeFile_inj]
    · rw [hcolor _ (by simp [alphaFile]), if_neg, hholds₂.alpha]
      simp [alphaFile, rgbaFile, planeFile_inj]
    · rw [hcolor.content (by simp [rgbaFile]), hrgba]
      rfl

/-- The entry is new, or it is already on disk as it is. -/
def NewOrKept (new : EntryId → Prop) (d : Directory) (e : Entry) : Prop :=
  new e.id ∨ (¬ new e.id ∧ Holds d e ∧ e.rgba = none)

/-- Writing the entries touches the planes of the new ones only. -/
theorem sat_writeEntries (hw : ∀ e ∈ es, Writable store e) (hr : ∀ e ∈ es, RgbaFits store e)
    (hdistinct : (es.map Entry.id).Nodup) (hk : ∀ e ∈ es, NewOrKept new d e) (hh : ¬ Faulted h) :
    (store.writeEntries es).Sat (fun h' d' => Faulted h' ∧ Frame new d d')
      (fun _ h' d' => ¬ Faulted h' ∧ Frame (fun id => new id ∧ id ∈ es.map Entry.id) d d' ∧
        ∀ e ∈ es, Written d d' e) h d := by
  induction es generalizing h d with
  | nil => exact ⟨hh, Frame.refl d, by simp⟩
  | cons e es ih =>
    rw [List.map_cons, List.nodup_cons] at hdistinct
    have he : e ∈ e :: es := List.mem_cons_self
    unfold writeEntries
    rw [sat_bind, sat_refuseIf]
    refine ⟨fun hinvalid => absurd (hw e he).valid (by simpa using hinvalid), fun _ => ?_⟩
    have hrest : ∀ h₁ d₁, ¬ Faulted h₁ → Frame (fun id => new id ∧ id = e.id) d d₁ →
      Written d d₁ e →
        (store.writeEntries es).Sat (fun h' d' => Faulted h' ∧ Frame new d d')
          (fun _ h' d' => ¬ Faulted h' ∧
            Frame (fun id => new id ∧ id ∈ (e :: es).map Entry.id) d d' ∧
            ∀ x ∈ e :: es, Written d d' x) h₁ d₁ := by
      intro h₁ d₁ hh₁ hframe hwritten
      have hkept : ∀ x ∈ es, NewOrKept new d₁ x := by
        intro x hx
        refine (hk x (List.mem_cons_of_mem _ hx)).imp_right ?_
        rintro ⟨hnew, hholds, hrgba⟩
        exact ⟨hnew, hframe.holds (fun hid => hnew hid.1) hholds, hrgba⟩
      refine (ih (fun x hx => hw x (List.mem_cons_of_mem _ hx))
        (fun x hx => hr x (List.mem_cons_of_mem _ hx)) hdistinct.2 hkept hh₁).mono ?_ ?_
      · rintro h' d' ⟨hf, hframe'⟩
        exact ⟨hf, (hframe.mono fun id hid => hid.1).trans hframe'⟩
      · rintro - h' d' ⟨hh', hframe', hwritten'⟩
        refine ⟨hh', (hframe.mono ?_).trans (hframe'.mono ?_), fun x hx => ?_⟩
        · rintro id ⟨hid, rfl⟩
          exact ⟨hid, by simp⟩
        · rintro id ⟨hid, hmem⟩
          exact ⟨hid, List.mem_cons_of_mem _ hmem⟩
        · rcases List.mem_cons.mp hx with rfl | hx
          · exact hframe'.written (fun hid => hdistinct.1 hid.2) hwritten
          · refine (hwritten' x hx).of_frame hframe fun hid => hdistinct.1 ?_
            rw [← hid.2]
            exact List.mem_map_of_mem hx
    rw [sat_bind]
    rcases hk e he with hnew | ⟨hnew, hholds, hrgba⟩
    · refine (sat_writeEntry (hw e he) (hr e he) hh).mono ?_ ?_
      · rintro h' d' ⟨hf, hframe⟩
        exact ⟨hf, hframe.mono fun id hid => hid ▸ hnew⟩
      · rintro - h₁ d₁ ⟨hh₁, hframe, hwritten⟩
        exact hrest h₁ d₁ hh₁ (hframe.mono fun id hid => ⟨hid ▸ hnew, hid⟩) hwritten
    · -- a kept entry is on disk already, and nothing is written
      have halready := alreadyWritten_of_holds (hw e he) hholds hrgba
      unfold writeEntry
      rw [sat_bind, sat_refuseIf]
      refine ⟨fun hunsafe => absurd (hw e he).safe (by simpa using hunsafe), fun _ => ?_⟩
      rw [sat_bind, sat_get, sat_ite]
      refine ⟨fun _ => ?_, fun hne => absurd halready hne⟩
      exact hrest h d hh (Frame.refl d) (written_of_alreadyWritten halready)

/-! ### Publishing -/

theorem content_deleteLegacyFiles {name : FileName} :
    (deleteLegacyFiles d).content name =
      if isLegacyFile name then none else d.content name :=
  Directory.content_deleteAll_listFiles

theorem content_completeLegacyRetirement {name : FileName} (hdot : name.head? ≠ some '.')
    (hlegacy : isLegacyFile name = false) :
    (completeLegacyRetirement d).content name =
      if name = LEGACY_RETIRED then some RETIRED else d.content name := by
  rw [completeLegacyRetirement, content_deleteLegacyFiles, if_neg (by simp [hlegacy]),
    placed_publishLegacyMarker RETIRED _ hdot]

theorem isLegacyFile_planeFile (p : Plane) (id : EntryId) : isLegacyFile (planeFile p id) =
    false := by
  refine Bool.eq_false_iff.mpr fun hl => ?_
  have hhead := head_of_isLegacyFile hl
  simp at hhead

theorem completeLegacyRetirement_planes (p : Plane) (id : EntryId) :
    (completeLegacyRetirement d).content (planeFile p id) = d.content (planeFile p id) := by
  rw [content_completeLegacyRetirement (by simp) (isLegacyFile_planeFile p id),
    if_neg (planeFile_ne (c := 'l') rfl (by decide) p id)]

theorem content_pruneUnreferenced {name : FileName} (retained : List Entry) :
    (pruneUnreferenced retained d).content name =
      if isEntryFile name && !(retained.flatMap fun e =>
          [grayFile e.id, alphaFile e.id, rgbaFile e.id]).contains name
        then none else d.content name :=
  Directory.content_deleteAll_listFiles

theorem content_pruneUnreferenced_of_head {name : FileName} (retained : List Entry)
    (hname : name.head? ≠ some 'e') :
    (pruneUnreferenced retained d).content name = d.content name := by
  rw [content_pruneUnreferenced, if_neg]
  rw [Bool.and_eq_true]
  exact fun h => hname (head_of_isEntryFile h.1)

/-- The planes of a retained entry survive. -/
theorem content_pruneUnreferenced_plane {retained : List Entry} (p : Plane)
    (hid : id ∈ retained.map Entry.id) :
    (pruneUnreferenced retained d).content (planeFile p id) = d.content (planeFile p id) := by
  obtain ⟨e, he, rfl⟩ := List.mem_map.mp hid
  have hmem : planeFile p e.id ∈
      retained.flatMap fun e => [grayFile e.id, alphaFile e.id, rgbaFile e.id] := by
    refine List.mem_flatMap.mpr ⟨e, he, ?_⟩
    cases p <;> simp [grayFile, alphaFile, rgbaFile]
  rw [content_pruneUnreferenced, if_neg]
  simp [hmem]

/-- The catalog after its manifest was published: `d` is the directory before the commit. -/
structure Committed (store : SleepImageStore) (retireLegacy : Bool) (g : Int) (es : List Entry)
    (d d' : Directory) (snapshot : Snapshot) : Prop where
  manifest : d'.content MANIFEST = some (store.manifestBytes g es)
  marker : d'.content LEGACY_RETIRED =
    if retireLegacy then some RETIRED else d.content LEGACY_RETIRED
  written : 0 < g → ∀ e ∈ es, Written d d' e
  snapshot_eq : snapshot = store.read d'

theorem Committed.read {snapshot : Snapshot} {retireLegacy : Bool}
    (hc : Committed store retireLegacy g es d d' snapshot) (hp : Publishable store es)
    (hlong : IsLong g) (hpos : 0 < g) :
    store.read d' = ⟨g, es.map store.normalize, false⟩ :=
  read_of_manifest hlong hpos hp (fun e he => (hc.written hpos e he).holds) hc.manifest

/-- The steps after the manifest fault point. -/
theorem committed_of_published {retireLegacy : Bool} (hp : Publishable store es) (hlong : IsLong g)
    (hmarker : retireLegacy = false → d₁.content LEGACY_RETIRED = d.content LEGACY_RETIRED)
    (hwritten : ∀ e ∈ es, Written d d₁ e)
    (hd₂ : d₂ = if retireLegacy then completeLegacyRetirement (store.publishManifest g es d₁)
      else store.publishManifest g es d₁) :
    Committed store retireLegacy g es d (pruneUnreferenced (store.read d₂).entries d₂)
      (store.read d₂) := by
  have hpublish : Placed MANIFEST (store.manifestBytes g es) d₁ (store.publishManifest g es d₁) :=
    placed_publishManifest
  have hmanifest : d₂.content MANIFEST = some (store.manifestBytes g es) := by
    have hpublished := hpublish.content (by decide)
    rw [hd₂]
    split
    · rw [content_completeLegacyRetirement (by decide) (by decide), if_neg (by decide), hpublished]
    · exact hpublished
  have hplane : ∀ p id, d₂.content (planeFile p id) = d₁.content (planeFile p id) := by
    intro p id
    have hpublished := hpublish.planes (c := 'c') rfl (by decide) p id
    rw [hd₂]
    split
    · rw [completeLegacyRetirement_planes, hpublished]
    · exact hpublished
  have hwritten₂ : ∀ e ∈ es, Written d d₂ e := fun e he => (hwritten e he).of_planes hplane
  have hsafe : ∀ e ∈ es, Writable store e := hp.writable
  -- the published entries are retained by the prune
  have hretained : 0 < g → ∀ e ∈ es, ∀ p,
      (pruneUnreferenced (store.read d₂).entries d₂).content (planeFile p e.id) =
        d₂.content (planeFile p e.id) := by
    intro hpos e he p
    refine content_pruneUnreferenced_plane p ?_
    rw [read_of_manifest hlong hpos hp (fun e he => (hwritten₂ e he).holds) hmanifest]
    simp only [List.map_map]
    exact List.mem_map.mpr ⟨e, he, rfl⟩
  have hmanifest' : (pruneUnreferenced (store.read d₂).entries d₂).content MANIFEST =
      some (store.manifestBytes g es) := by
    rw [content_pruneUnreferenced_of_head _ (by decide), hmanifest]
  have hwritten' : 0 < g → ∀ e ∈ es,
      Written d (pruneUnreferenced (store.read d₂).entries d₂) e := fun hpos e he =>
    ⟨⟨(hretained hpos e he .gray).trans (hwritten₂ e he).holds.gray,
      (hretained hpos e he .alpha).trans (hwritten₂ e he).holds.alpha⟩,
      (hretained hpos e he .rgba).trans (hwritten₂ e he).color⟩
  refine ⟨hmanifest', ?_, hwritten', ?_⟩
  · rw [content_pruneUnreferenced_of_head _ (by decide), hd₂]
    cases retireLegacy with
    | true =>
      rw [if_pos rfl, if_pos rfl, content_completeLegacyRetirement (by decide) (by decide),
        if_pos rfl]
    | false =>
      rw [if_neg (by decide), if_neg (by decide), hpublish _ (by decide), if_neg (by decide)]
      exact hmarker rfl
  · by_cases hpos : 0 < g
    · rw [read_of_manifest hlong hpos hp (fun e he => (hwritten' hpos e he).holds) hmanifest',
        read_of_manifest hlong hpos hp (fun e he => (hwritten₂ e he).holds) hmanifest]
    · rw [read_of_wrapped hlong (by omega) hsafe hmanifest',
        read_of_wrapped hlong (by omega) hsafe hmanifest]

theorem isLong_longSucc {n : Int} (hn : IsLong n) : IsLong (longSucc n) := by
  unfold IsLong longSucc longMin longMax at *
  split <;> omega

/-- A commit that a fault ended: the manifest is as it was, and the pending marker may have been
published. -/
def Aborted (store : SleepImageStore) (new : EntryId → Prop) (retireLegacy : Bool) (g : Int)
    (es : List Entry) (d d' : Directory) : Prop :=
  Frame new d d' ∨ (retireLegacy = true ∧ ∃ d₁, Frame new d d₁ ∧ (∀ e ∈ es, Written d d₁ e) ∧
    Placed LEGACY_RETIRED (PENDING ++ store.manifestBytes g es) d₁ d')

variable (new) in
/-- **A commit** aborts only on a fault, and otherwise publishes its entries. -/
theorem sat_commitEntries {old : Int} {retireLegacy : Bool} (hp : Publishable store es)
    (hr : ∀ e ∈ es, RgbaFits store e) (hk : ∀ e ∈ es, NewOrKept new d e) (hlong : IsLong old)
    (hh : ¬ Faulted h) :
    (store.commitEntries old es retireLegacy).Sat
      (fun h' d' => Faulted h' ∧ Aborted store new retireLegacy (longSucc old) es d d')
      (fun snapshot h' d' => ¬ Faulted h' ∧
        Committed store retireLegacy (longSucc old) es d d' snapshot) h d := by
  have hcount : (es.isEmpty || decide (es.length > MAXIMUM_ENTRIES)) = false := by
    have hfits := hp.fits
    simp [hp.nonempty, hfits]
  unfold commitEntries
  rw [sat_bind, sat_refuseIf]
  refine ⟨fun hbad => absurd hbad (by simp [hcount]), fun _ => ?_⟩
  dsimp only
  rw [sat_bind]
  refine (sat_writeEntries hp.writable hr hp.distinct hk hh).mono ?_ ?_
  · rintro h' d' ⟨hf, hframe⟩
    exact ⟨hf, Or.inl hframe⟩
  rintro - h₁ d₁ ⟨hh₁, hframe, hwritten⟩
  have hframe₁ : Frame new d d₁ := hframe.mono fun id hid => hid.1
  rw [sat_bind]
  cases retireLegacy with
  | false =>
    show (pure () : Work Unit).Sat _ _ h₁ d₁
    rw [sat_pure, sat_bind]
    refine sat_before hh₁ (fun h' hf => ⟨hf, Or.inl hframe₁⟩) fun h' hh' => ?_
    exact ⟨hh', committed_of_published hp (isLong_longSucc hlong) (fun _ => hframe₁.marker)
      hwritten rfl⟩
  | true =>
    -- the marker holds the manifest as well, so a fault after it leaves something to recover
    show (store.publishPendingLegacyRetirement (longSucc old) es).Sat _ _ h₁ d₁
    unfold publishPendingLegacyRetirement
    rw [sat_bind]
    refine sat_before hh₁ (fun h' hf => ⟨hf, Or.inl hframe₁⟩) fun h₂ hh₂ => ?_
    rw [sat_modify, sat_bind]
    have hplaced := placed_publishLegacyMarker (d := d₁)
      (PENDING ++ store.manifestBytes (longSucc old) es)
    refine sat_before hh₂ (fun h' hf => ⟨hf, Or.inr ⟨rfl, d₁, hframe₁, hwritten, hplaced⟩⟩)
      fun h' hh' => ?_
    exact ⟨hh', committed_of_published hp (isLong_longSucc hlong) nofun
      (fun e he => (hwritten e he).of_planes (hplaced.planes (c := 'l') rfl (by decide))) rfl⟩

end EinkLab.SleepImageStore
