import EinkLab.SleepImageTransport.Equiv.Endpoint

/-!
# What is sent arrives

A sleep image goes from the catalog service to the manager and from there to the capture session,
each time through a parcel.  What the manager reads is what the service has written
(`readCallback_sent`), and what the endpoint reads is what the manager has written (`sendEpoch_eq`,
`sendCatalog_eq`); a candidate that the manager keeps refers to the service's own memory.  So the
images that the session holds after an accepted publication are those of the store's publication,
byte for byte (`published_images_arrive`).
-/

namespace EinkLab

open Transition Binder Pipeline CaptureSession SleepImageManager

namespace SleepImageTransport

variable {D : Type} {api : Parcels D} {c : Settings} {memory : SharedMemory D}
  {p : EinkDeviceProfile}
  {m : M3State} {data : api.Parcel} {rest : List (Item D)}

/-! ### Replies -/

theorem replyItems_fits (p : EinkDeviceProfile) {result : Int} (h : IntType.int32.Holds result) :
    ∀ item ∈ (SleepImageBinder.replyItems p result : List (Item D)), item.Fits := by
  intro item hitem
  simp only [SleepImageBinder.replyItems, List.mem_cons, List.not_mem_nil, or_false] at hitem
  rcases hitem with rfl | rfl | rfl
  · trivial
  · show IntType.int32.Holds (SleepImageBinder.kProtocolVersion p)
    unfold SleepImageBinder.kProtocolVersion
    split <;> decide
  · exact h

/-- A reply on a color product says whether the call was accepted. -/
theorem readReply_replyItems (hcolor : p.hasColorCfa = true) {result : Int}
    (h : IntType.int32.Holds result) :
    readReply api (some (api.writeAll (SleepImageBinder.replyItems p result))) =
      decide (result = RESULT_OK) := by
  have hunread := api.unread_writeAll (replyItems_fits (D := D) p h)
  obtain ⟨hreturned, hunread⟩ := api.unread_readException hunread
  obtain ⟨hversion, hunread⟩ := api.unread_readInt32 hunread
  obtain ⟨hresult, -⟩ := api.unread_readInt32 hunread
  have hprotocol : SleepImageBinder.kProtocolVersion p = SF_PROTOCOL_VERSION := by
    unfold SleepImageBinder.kProtocolVersion
    rw [if_pos hcolor]
    rfl
  unfold readReply
  dsimp only
  rw [hreturned, hversion, hresult, hprotocol]
  simp

theorem presentationCode_fits (result : SleepImagePresentationResult) :
    IntType.int32.Holds (SleepImageBinder.presentationCode result) ∧
      (SleepImageBinder.presentationCode result = RESULT_OK ↔ result = .accepted) := by
  cases result <;> decide

theorem disarmCode_fits (result : SleepImageDisarmResult) :
    IntType.int32.Holds (SleepImageBinder.disarmCode result) ∧
      (SleepImageBinder.disarmCode result = RESULT_OK ↔ result = .accepted) := by
  cases result <;> decide

theorem publishCode_fits (result : EinkSleepImageCatalog.PublishResult) :
    IntType.int32.Holds (SleepImageBinder.publishCode result) ∧
      (SleepImageBinder.publishCode result = RESULT_OK ↔ result = .accepted) := by
  cases result <;> decide

/-! ### The head of a request -/

/-- A parcel of the manager passes the checks of the caller, the interface and the version. -/
theorem onTransact_head (api : Parcels D) (memory : SharedMemory D) (m : M3State)
    (hcolor : c.profile.hasColorCfa = true) {items : List (Item D)}
    (hfits : ∀ item ∈ items, item.Fits) (code : Nat) (now : TimePoint) :
    ∃ data, api.Unread data items ∧
      SleepImageBinder.onTransact api c memory AID_SYSTEM code
          (api.writeAll (.interfaceToken SF_DESCRIPTOR :: .int32 SF_PROTOCOL_VERSION :: items)) true
          now (some m) =
        SleepImageBinder.serve api c memory code data now m := by
  have hall : ∀ item ∈ (.interfaceToken SF_DESCRIPTOR :: .int32 SF_PROTOCOL_VERSION :: items :
      List (Item D)), item.Fits := by
    intro item hitem
    rcases List.mem_cons.mp hitem with rfl | hitem
    · trivial
    rcases List.mem_cons.mp hitem with rfl | hitem
    · exact (by decide : IntType.int32.Holds SF_PROTOCOL_VERSION)
    · exact hfits item hitem
  have hunread := api.unread_writeAll hall
  obtain ⟨htoken, hunread⟩ := api.unread_checkInterface hunread SleepImageBinder.kDescriptor
  obtain ⟨hversion, hunread⟩ := api.unread_readInt32 hunread
  have hprotocol : SleepImageBinder.kProtocolVersion c.profile = SF_PROTOCOL_VERSION := by
    unfold SleepImageBinder.kProtocolVersion
    rw [if_pos hcolor]
    rfl
  refine ⟨_, hunread, ?_⟩
  unfold SleepImageBinder.onTransact
  dsimp only
  rw [if_neg (by rw [htoken]; decide), if_neg]
  rw [api.unread_sound hunread, hversion, hprotocol]
  decide

/-- An epoch of the manager. -/
structure IsEpoch (epoch : Nat) : Prop where
  positive : epoch ≠ 0
  fits : IntType.int64.Holds epoch

theorem IsEpoch.unsigned64 {epoch : Nat} (h : IsEpoch epoch) :
    SleepImageBinder.unsigned64 epoch = epoch := by
  have hfits : (epoch : Int) ≤ 9223372036854775807 := h.fits.2
  unfold SleepImageBinder.unsigned64
  omega

theorem IsEpoch.item {epoch : Nat} (h : IsEpoch epoch) :
    ∀ item ∈ ([.int64 epoch] : List (Item D)), item.Fits := by
  intro item hitem
  rw [List.mem_singleton.mp hitem]
  exact h.fits

/-! ### Epochs -/

/-- What the manager learns of a call that is answered. -/
theorem transact_answered (hcolor : c.profile.hasColorCfa = true) {code : Nat}
    {items : List (Item D)}
    {now : TimePoint} {result : Int} (hresult : IntType.int32.Holds result) {m' : M3State}
    {called : Option SleepImageBinder.Call} (carriage : Carriage)
    (hanswer : SleepImageBinder.onTransact api c memory AID_SYSTEM code
      (api.writeAll items) true now (some m) =
        { status := .ok, reply := SleepImageBinder.replyItems c.profile result
          session := some m', called := called }) :
    let r := transact api c memory carriage code items now (some m)
    (readReply api r.1, r.2) =
      if carriage.delivered then (carriage.replied && decide (result = RESULT_OK), some m')
      else (false, some m) := by
  unfold transact
  dsimp only
  rw [hanswer]
  obtain ⟨delivered, replied⟩ := carriage
  cases delivered with
  | false => rfl
  | true =>
    cases replied with
    | false => rfl
    | true => exact congrArg (·, some m') (readReply_replyItems hcolor hresult)

/-- `sendEpoch(SF_SCREEN_OFF, ..)` presents, and the manager learns whether that was accepted. -/
theorem sendEpoch_screenOff (hcolor : c.profile.hasColorCfa = true) {epoch : Nat}
    (h : IsEpoch epoch)
    (carriage : Carriage) (now : TimePoint) :
    sendEpoch api c memory carriage SF_SCREEN_OFF epoch now (some m) =
      if carriage.delivered then
        (carriage.replied && decide ((m.presentSleepImage c epoch now).1 = .accepted),
          some (m.presentSleepImage c epoch now).2)
      else (false, some m) := by
  obtain ⟨data, hunread, hserve⟩ := onTransact_head api memory m hcolor h.item SF_SCREEN_OFF now
  obtain ⟨hepoch, hunread⟩ := api.unread_readInt64 hunread
  have hanswer : SleepImageBinder.serve api c memory SF_SCREEN_OFF data now m =
      { status := .ok
        reply := SleepImageBinder.replyItems c.profile
          (SleepImageBinder.presentationCode (m.presentSleepImage c epoch now).1)
        session := some (m.presentSleepImage c epoch now).2
        called := some (.presented epoch (m.presentSleepImage c epoch now).1) } := by
    unfold SleepImageBinder.serve
    dsimp only
    rw [if_pos (by decide), hepoch, h.unsigned64, api.unread_sound hunread, if_neg]
    · exact if_pos rfl
    · simp [h.positive]
  obtain ⟨hfits, hcode⟩ := presentationCode_fits (m.presentSleepImage c epoch now).1
  have hsent := transact_answered hcolor hfits carriage (hserve.trans hanswer)
  rwa [decide_eq_decide.mpr hcode] at hsent

/-- `sendEpoch(SF_SCREEN_ON, ..)` disarms. -/
theorem sendEpoch_screenOn (hcolor : c.profile.hasColorCfa = true) {epoch : Nat} (h : IsEpoch epoch)
    (carriage : Carriage) (now : TimePoint) :
    sendEpoch api c memory carriage SF_SCREEN_ON epoch now (some m) =
      if carriage.delivered then
        (carriage.replied && decide ((m.disarmSleepCycle epoch).1 = .accepted),
          some (m.disarmSleepCycle epoch).2)
      else (false, some m) := by
  obtain ⟨data, hunread, hserve⟩ := onTransact_head api memory m hcolor h.item SF_SCREEN_ON now
  obtain ⟨hepoch, hunread⟩ := api.unread_readInt64 hunread
  have hanswer : SleepImageBinder.serve api c memory SF_SCREEN_ON data now m =
      { status := .ok
        reply := SleepImageBinder.replyItems c.profile
          (SleepImageBinder.disarmCode (m.disarmSleepCycle epoch).1)
        session := some (m.disarmSleepCycle epoch).2
        called := some (.disarmed epoch (m.disarmSleepCycle epoch).1) } := by
    unfold SleepImageBinder.serve
    dsimp only
    rw [if_pos (by decide), hepoch, h.unsigned64, api.unread_sound hunread, if_neg]
    · exact if_neg (by decide)
    · simp [h.positive]
  obtain ⟨hfits, hcode⟩ := disarmCode_fits (m.disarmSleepCycle epoch).1
  have hsent := transact_answered hcolor hfits carriage (hserve.trans hanswer)
  rwa [decide_eq_decide.mpr hcode] at hsent

/-! ### Catalogs -/

/-- The descriptor refers to these bytes. -/
structure Backs (memory : SharedMemory D) (fd : D) (bytes : List UInt8) : Prop where
  size : ∃ getSize, memory.getSize = some getSize ∧ getSize fd = bytes.length
  mapped : memory.mmap fd bytes.length = some bytes

/-- A candidate of the manager, and the planes that its descriptors refer to. -/
structure Planed (D : Type) where
  shared : SharedCandidate D
  plane : List UInt8
  alpha : List UInt8

structure Planed.Backed (memory : SharedMemory D) (s : Planed D) : Prop where
  plane : Backs memory s.shared.grayFd s.plane
  alpha : Backs memory s.shared.alphaFd s.alpha

/-- What the native side makes of the planes. -/
def Planed.nativeEntry (p : EinkDeviceProfile) (s : Planed D) :
    Option EinkSleepImageCatalog.Entry :=
  EinkSleepImageCatalog.readEntry p s.shared.candidate.width s.shared.candidate.height
    s.plane s.alpha

/-- A plane is read if it has the expected size. -/
theorem readPlane_eq {fd : D} {bytes : List UInt8}
    (hunread : api.Unread data (.fileDescriptor fd :: rest))
    (hbacks : Backs memory fd bytes) (expectedBytes : Nat) :
    ∃ data', api.Unread data' rest ∧ SleepImageBinder.readPlane api memory data expectedBytes =
      if bytes.length = expectedBytes then some (bytes, data') else none := by
  obtain ⟨hfd, hunread⟩ := api.unread_readFileDescriptor hunread
  obtain ⟨getSize, hgetSize, hsize⟩ := hbacks.size
  refine ⟨_, hunread, ?_⟩
  unfold SleepImageBinder.readPlane
  dsimp only
  rw [hfd, hgetSize]
  dsimp only
  rw [api.unread_sound hunread, if_neg (by decide), hsize]
  by_cases hexpected : bytes.length = expectedBytes
  · rw [if_neg (not_not.mpr hexpected), if_pos hexpected, ← hexpected, hbacks.mapped]
    rfl
  · rw [if_pos hexpected, if_neg hexpected]

/-- The entry of a candidate is read as what its planes make. -/
theorem readEntry_eq {s : Planed D} (hbacked : s.Backed memory)
    (hunread : api.Unread data (candidateItems s.shared ++ rest)) :
    ∃ data', api.Unread data' rest ∧ SleepImageBinder.readEntry api p memory data =
      (s.nativeEntry p).map (·, data') := by
  obtain ⟨hwidth, hunread⟩ := api.unread_readInt32 hunread
  obtain ⟨hheight, hunread⟩ := api.unread_readInt32 hunread
  obtain ⟨data₁, hunread, hplane⟩ := readPlane_eq hunread hbacked.plane
    (SleepImageBinder.planeBytes p)
  obtain ⟨data₂, hunread, halpha⟩ := readPlane_eq hunread hbacked.alpha p.panelBytes
  refine ⟨data₂, hunread, ?_⟩
  unfold SleepImageBinder.readEntry
  dsimp only
  rw [hwidth, hheight, hplane]
  unfold Planed.nativeEntry EinkSleepImageCatalog.readEntry SleepImageBinder.planeBytes
  split
  · rfl
  -- planes of other sizes are refused in one place or the other
  by_cases hplaneSize : s.plane.length = if p.hasColorCfa then p.panelBytes * 4 else p.panelBytes
  swap
  · rw [if_neg hplaneSize]
    split at hplaneSize
    · rw [if_pos ‹_›, if_pos (Or.inl hplaneSize)]
      rfl
    · rw [if_neg ‹_›, if_pos (Or.inl hplaneSize)]
      rfl
  rw [if_pos hplaneSize, Option.bind_some]
  dsimp only
  rw [halpha]
  by_cases halphaSize : s.alpha.length = p.panelBytes
  · rw [if_pos halphaSize]
    rfl
  · rw [if_neg halphaSize]
    split
    · rw [if_pos (Or.inr halphaSize)]
      rfl
    · rw [if_pos (Or.inr halphaSize)]
      rfl

theorem readEntries_eq {catalog : List (Planed D)} (hbacked : ∀ s ∈ catalog, s.Backed memory)
    (hunread : api.Unread data (catalog.flatMap fun s => candidateItems s.shared)) :
    SleepImageBinder.readEntries api p memory data catalog.length =
      catalog.mapM (Planed.nativeEntry p) := by
  induction catalog generalizing data with
  | nil => rfl
  | cons s catalog ih =>
    rw [List.flatMap_cons] at hunread
    obtain ⟨data', hunread', hentry⟩ := readEntry_eq (p := p) (hbacked s List.mem_cons_self) hunread
    rw [List.length_cons, SleepImageBinder.readEntries, hentry, List.mapM_cons]
    cases s.nativeEntry p with
    | none => rfl
    | some e =>
      have hrest := ih (fun t ht => hbacked t (List.mem_cons_of_mem _ ht)) hunread'
      show (SleepImageBinder.readEntries api p memory data' catalog.length).map (e :: ·) = _
      rw [hrest]
      cases catalog.mapM (Planed.nativeEntry p) <;> rfl

/-- The mode in which the native side presents a catalog of the manager. -/
def presentedMode : SleepImageMode → SleepImagePresentationMode
  | .overlaySleepImage => .overlay
  | _ => .opaqueImage

/-- The publication that the manager asks for. -/
def requestOf (p : EinkDeviceProfile) (epoch : Nat) (entries : List EinkSleepImageCatalog.Entry)
    (selected : Nat) (mode : SleepImageMode) : SleepImageCatalogRequest where
  epoch := epoch
  width := p.panelWidth
  height := p.panelHeight
  entries := entries
  selectedIndex := selected
  mode := presentedMode mode

/-- A catalog that the manager sends: its geometries are integers of the parcel, there are not too
many candidates, and one of them is selected. -/
structure Sendable (catalog : List (SharedCandidate D)) (selected : Nat) : Prop where
  geometry : ∀ s ∈ catalog, IntType.int32.Holds s.candidate.width ∧
    IntType.int32.Holds s.candidate.height
  count : catalog.length ≤ SleepImageManager.MAXIMUM_ENTRIES
  selected : selected < catalog.length

theorem fits_candidateItems {s : SharedCandidate D}
    (h : IntType.int32.Holds s.candidate.width ∧ IntType.int32.Holds s.candidate.height) :
    ∀ item ∈ candidateItems s, item.Fits := by
  intro item hitem
  simp only [candidateItems, List.mem_cons, List.not_mem_nil, or_false] at hitem
  rcases hitem with rfl | rfl | rfl | rfl
  · exact h.1
  · exact h.2
  · trivial
  · trivial

theorem holds_of_le {n : Nat} (h : n ≤ SleepImageManager.MAXIMUM_ENTRIES) :
    IntType.int32.Holds n := by
  have hle : n ≤ 8 := h
  show (-2147483648 : Int) ≤ n ∧ (n : Int) ≤ 2147483647
  omega

theorem presentationMode_modeValue {mode : SleepImageMode} (h : mode ≠ .keepLastScreen) :
    SleepImageBinder.presentationMode
        (modeValue (if mode = .koreaderCover then .sleepImage else mode)) =
      some (presentedMode mode) ∧
    IntType.int32.Holds (modeValue (if mode = .koreaderCover then .sleepImage else mode)) := by
  cases mode with
  | keepLastScreen => exact absurd rfl h
  | sleepImage => decide
  | overlaySleepImage => decide
  | koreaderCover => decide

/-- `sendCatalog` publishes what the planes of its candidates make, and the manager learns whether
that was accepted; planes that make no entries are refused before they reach the session. -/
theorem sendCatalog_eq (api : Parcels D) (m : M3State) (hcolor : c.profile.hasColorCfa = true)
    {epoch : Nat} (h : IsEpoch epoch)
    {catalog : List (Planed D)} (hbacked : ∀ s ∈ catalog, s.Backed memory) {selected : Nat}
    (hsendable : Sendable (catalog.map Planed.shared) selected) {mode : SleepImageMode}
    (hmode : mode ≠ .keepLastScreen) (carriage : Carriage) (now : TimePoint) :
    sendCatalog api c memory carriage epoch (catalog.map Planed.shared) selected mode now (some m) =
      if carriage.delivered then
        match catalog.mapM (Planed.nativeEntry c.profile) with
        | none => (false, some m)
        | some entries =>
          let r := m.publishSleepImageCatalog c (requestOf c.profile epoch entries selected mode)
          (carriage.replied && decide (r.1 = .accepted), some r.2)
      else (false, some m) := by
  obtain ⟨hmodeRead, hmodeFits⟩ := presentationMode_modeValue hmode
  have hcount : catalog.length ≤ SleepImageManager.MAXIMUM_ENTRIES := by
    simpa using hsendable.count
  have hselected : selected < catalog.length := by simpa using hsendable.selected
  have hflat : (catalog.map Planed.shared).flatMap candidateItems =
      catalog.flatMap fun s => candidateItems s.shared := List.flatMap_map _ _ _
  -- what is left of the parcel once its version has been read
  let items : List (Item D) := .int64 epoch :: .int32 (catalog.map Planed.shared).length ::
    .int32 selected :: .int32 (modeValue (if mode = .koreaderCover then .sleepImage else mode)) ::
      (catalog.map Planed.shared).flatMap candidateItems
  have hitems : ∀ item ∈ items, item.Fits := by
    intro item hitem
    rcases List.mem_cons.mp hitem with rfl | hitem
    · exact h.fits
    rcases List.mem_cons.mp hitem with rfl | hitem
    · exact holds_of_le hsendable.count
    rcases List.mem_cons.mp hitem with rfl | hitem
    · exact holds_of_le (Nat.le_of_lt (Nat.lt_of_lt_of_le hselected hcount))
    rcases List.mem_cons.mp hitem with rfl | hitem
    · exact hmodeFits
    obtain ⟨s, hs, hitem⟩ := List.mem_flatMap.mp hitem
    exact fits_candidateItems (hsendable.geometry s hs) item hitem
  obtain ⟨data, hunread, hserve⟩ := onTransact_head api memory m hcolor hitems SF_PUBLISH now
  have hrequest : SleepImageBinder.readRequest api c.profile memory data =
      (catalog.mapM (Planed.nativeEntry c.profile)).map fun entries =>
        requestOf c.profile epoch entries selected mode := by
    obtain ⟨hepoch, hunread⟩ := api.unread_readInt64 hunread
    obtain ⟨hlength, hunread⟩ := api.unread_readInt32 hunread
    obtain ⟨hindex, hunread⟩ := api.unread_readInt32 hunread
    obtain ⟨hmodeInt, hunread⟩ := api.unread_readInt32 hunread
    rw [hflat] at hunread
    have hentries := readEntries_eq (p := c.profile) hbacked hunread
    unfold SleepImageBinder.readRequest
    dsimp only
    rw [hepoch, hlength, hindex, hmodeInt, h.unsigned64, api.unread_sound hunread, if_neg]
    · rw [hmodeRead, Option.bind_some, List.length_map, Int.toNat_natCast, Int.toNat_natCast,
        hentries]
      rfl
    · have hle : catalog.length ≤ 8 := hcount
      simp only [List.length_map, h.positive, Bool.or_eq_true, decide_eq_true_eq, Bool.not_true,
        Bool.false_eq_true, false_or, EinkSleepImageCatalog.kMaximumEntries]
      omega
  have hwhole : catalogItems epoch (catalog.map Planed.shared) selected mode =
      .interfaceToken SF_DESCRIPTOR :: .int32 SF_PROTOCOL_VERSION :: items := rfl
  unfold sendCatalog
  rw [hwhole]
  cases hentries : catalog.mapM (Planed.nativeEntry c.profile) with
  | none =>
    -- `BAD_VALUE`: the session is not called
    have hanswer : SleepImageBinder.serve api c memory SF_PUBLISH data now m =
        { status := .badValue, session := some m } := by
      unfold SleepImageBinder.serve
      rw [if_neg (by decide), if_neg (by decide), hrequest, hentries]
      rfl
    unfold transact
    dsimp only
    rw [hserve, hanswer]
    obtain ⟨delivered, replied⟩ := carriage
    cases delivered <;> cases replied <;> rfl
  | some entries =>
    let request := requestOf c.profile epoch entries selected mode
    have hanswer : SleepImageBinder.serve api c memory SF_PUBLISH data now m =
        { status := .ok
          reply := SleepImageBinder.replyItems c.profile
            (SleepImageBinder.publishCode (m.publishSleepImageCatalog c request).1)
          session := some (m.publishSleepImageCatalog c request).2
          called := some (.published request (m.publishSleepImageCatalog c request).1) } := by
      unfold SleepImageBinder.serve
      rw [if_neg (by decide), if_neg (by decide), hrequest, hentries]
      rfl
    obtain ⟨hfits, hcode⟩ := publishCode_fits (m.publishSleepImageCatalog c request).1
    have hsent := transact_answered hcolor hfits carriage (hserve.trans hanswer)
    rwa [decide_eq_decide.mpr hcode] at hsent

/-! ### The service's result -/

open SleepImageCatalogService (Transaction Transmitted)

/-- The shared memories of a candidate hold its planes, and the manager can open them. -/
structure SharedPlanes.Delivered (memory : SharedMemory D) (opened : D → Transport)
    (s : SharedPlanes D) : Prop where
  pixels : Backs memory s.pixelsFd s.sent.pixels
  alpha : Backs memory s.alphaFd s.sent.alpha
  openedPixels : opened s.pixelsFd = ⟨.opened s.sent.pixels.length, true⟩
  openedAlpha : opened s.alphaFd = ⟨.opened s.sent.alpha.length, true⟩

/-- What the manager reads of a candidate. -/
def SharedPlanes.received (s : SharedPlanes D) : ReceivedEntry D where
  fallback := if s.sent.fallback then 1 else 0
  eligible := if s.sent.eligible then 1 else 0
  width := s.sent.width
  height := s.sent.height
  grayTransport := some s.pixelsFd
  alphaTransport := some s.alphaFd

/-- What the manager keeps of it, with the service's planes. -/
def SharedPlanes.planed (s : SharedPlanes D) : Planed D where
  shared := ⟨s.sent.candidate, s.pixelsFd, s.alphaFd⟩
  plane := s.sent.pixels
  alpha := s.sent.alpha

theorem received_shared (s : SharedPlanes D) : s.received.shared = some s.planed.shared := by
  obtain ⟨⟨fallback, eligible, width, height, pixels, alpha⟩, pixelsFd, alphaFd⟩ := s
  cases fallback <;> cases eligible <;> rfl

theorem received_entry {opened : D → Transport} {s : SharedPlanes D}
    (h : s.Delivered memory opened) : s.received.entry opened = s.sent.entry := by
  unfold ReceivedEntry.entry SharedPlanes.received Transmitted.entry
  dsimp only
  rw [Option.map_some, Option.map_some, h.openedPixels, h.openedAlpha]

theorem readReceived_eq {s : SharedPlanes D} (hunread : api.Unread data (sentItems s ++ rest)) :
    (readReceived api data).1 = s.received ∧ api.Unread (readReceived api data).2 rest := by
  obtain ⟨hfallback, hunread⟩ := api.unread_readInt32 hunread
  obtain ⟨heligible, hunread⟩ := api.unread_readInt32 hunread
  obtain ⟨hwidth, hunread⟩ := api.unread_readInt32 hunread
  obtain ⟨hheight, hunread⟩ := api.unread_readInt32 hunread
  obtain ⟨hgray, hunread⟩ := api.unread_readFileDescriptor hunread
  obtain ⟨halpha, hunread⟩ := api.unread_readFileDescriptor hunread
  refine ⟨?_, hunread⟩
  unfold readReceived SharedPlanes.received
  dsimp only
  rw [hfallback, heligible, hwidth, hheight, hgray, halpha]

theorem unread_afterRounds {shared : List (SharedPlanes D)}
    (hunread : api.Unread data (shared.flatMap sentItems)) {rounds : Nat}
    (h : rounds ≤ shared.length) :
    api.Unread (afterRounds api data rounds) ((shared.drop rounds).flatMap sentItems) := by
  induction rounds with
  | zero => exact hunread
  | succ rounds ih =>
    have hbefore := ih (Nat.le_of_succ_le h)
    rw [List.drop_eq_getElem_cons h, List.flatMap_cons] at hbefore
    exact (readReceived_eq hbefore).2

theorem received_eq {shared : List (SharedPlanes D)}
    (hunread : api.Unread data (shared.flatMap sentItems)) {index : Nat}
    (h : index < shared.length) :
    (readReceived api (afterRounds api data index)).1 = shared[index].received := by
  have hbefore := unread_afterRounds hunread (Nat.le_of_lt h)
  rw [List.drop_eq_getElem_cons h, List.flatMap_cons] at hbefore
  exact (readReceived_eq hbefore).1

/-- The rounds of the callback read the candidates in the order in which they were sent. -/
theorem received_rounds {shared : List (SharedPlanes D)}
    (hunread : api.Unread data (shared.flatMap sentItems)) :
    (List.range shared.length).map
        (fun index => (readReceived api (afterRounds api data index)).1) =
      shared.map SharedPlanes.received := by
  apply List.ext_getElem
  · simp
  · intro index hindex hindex'
    rw [List.length_map, List.length_range] at hindex
    rw [List.getElem_map, List.getElem_range, received_eq hunread hindex, List.getElem_map]

/-- The values of a result fit their types. -/
structure Transaction.Writable (t : Transaction) (shared : List (SharedPlanes D)) : Prop where
  version : IntType.int32.Holds t.version
  requestGeneration : IntType.int64.Holds t.requestGeneration
  storeGeneration : IntType.int64.Holds t.storeGeneration
  result : IntType.int32.Holds t.result
  reason : IntType.int32.Holds t.reason
  count : shared.length ≤ SleepImageManager.MAXIMUM_ENTRIES
  geometry : ∀ s ∈ shared, IntType.int32.Holds s.sent.width ∧ IntType.int32.Holds s.sent.height

theorem fits_sentItems {s : SharedPlanes D}
    (h : IntType.int32.Holds s.sent.width ∧ IntType.int32.Holds s.sent.height) :
    ∀ item ∈ sentItems s, item.Fits := by
  have hflag (b : Bool) : IntType.int32.Holds (if b then 1 else 0) := by cases b <;> decide
  intro item hitem
  simp only [sentItems, List.mem_cons, List.not_mem_nil, or_false] at hitem
  rcases hitem with rfl | rfl | rfl | rfl | rfl | rfl
  · exact hflag s.sent.fallback
  · exact hflag s.sent.eligible
  · exact h.1
  · exact h.2
  · trivial
  · trivial

/-- The rounds that are not made do not matter. -/
theorem onTransact_congr {d d' : ProviderCallback} (hrounds : d.entries = d'.entries)
    (h : d = { d' with entry := d.entry }) (handles : Handles) :
    SleepImageManager.onTransact handles d = SleepImageManager.onTransact handles d' := by
  rw [h] at hrounds ⊢
  unfold SleepImageManager.onTransact
  rw [hrounds]
  rfl

/-- What the callback reads is what the service has sent: the fields, the rounds and nothing else,
and the candidates with the service's memory. -/
theorem readCallback_sent (api : Parcels D) {opened : D → Transport} {t : Transaction}
    {shared : List (SharedPlanes D)} (hwritable : Transaction.Writable t shared)
    (hresult : t.result = RESULT_OK)
    (hshared : shared.map SharedPlanes.sent = t.candidates)
    (hdelivered : ∀ s ∈ shared, s.Delivered memory opened) :
    let r := readCallback api opened (api.writeAll (resultItems t shared))
    (∀ h, SleepImageManager.onTransact h r.1 = SleepImageManager.onTransact h t.callback) ∧
      r.2 = shared.map fun s => s.planed.shared := by
  have hlength : shared.length = t.candidates.length := by rw [← hshared, List.length_map]
  have hfits : ∀ item ∈ (resultItems t shared : List (Item D)), item.Fits := by
    intro item hitem
    rcases List.mem_append.mp hitem with hitem | hitem
    · simp only [List.mem_cons, List.not_mem_nil, or_false] at hitem
      rcases hitem with rfl | rfl | rfl | rfl | rfl | rfl | rfl
      · trivial
      · exact hwritable.version
      · exact hwritable.requestGeneration
      · exact hwritable.storeGeneration
      · exact hwritable.result
      · exact hwritable.reason
      · exact holds_of_le hwritable.count
    · obtain ⟨s, hs, hitem⟩ := List.mem_flatMap.mp hitem
      exact fits_sentItems (hwritable.geometry s hs) item hitem
  have hunread : api.Unread (api.writeAll (resultItems t shared))
    (.interfaceToken CALLBACK_DESCRIPTOR ::
      .int32 t.version :: .int64 t.requestGeneration :: .int64 t.storeGeneration ::
      .int32 t.result ::
        .int32 t.reason :: .int32 shared.length :: shared.flatMap sentItems) :=
    api.unread_writeAll hfits
  obtain ⟨htoken, hunread⟩ := api.unread_checkInterface hunread CALLBACK_DESCRIPTOR
  obtain ⟨hversion, hunread⟩ := api.unread_readInt32 hunread
  obtain ⟨hgeneration, hunread⟩ := api.unread_readInt64 hunread
  obtain ⟨hstore, hunread⟩ := api.unread_readInt64 hunread
  obtain ⟨hresultRead, hunread⟩ := api.unread_readInt32 hunread
  obtain ⟨hreason, hunread⟩ := api.unread_readInt32 hunread
  obtain ⟨hcount, hunread⟩ := api.unread_readInt32 hunread
  unfold readCallback
  dsimp only
  rw [htoken, hversion, hgeneration, hstore, hresultRead, hreason, hcount, hresult, if_pos rfl,
    Int.toNat_natCast]
  -- nothing is left behind the last round
  have hdone := unread_afterRounds hunread (Nat.le_refl shared.length)
  rw [List.drop_length] at hdone
  have havail := (api.unread_dataAvail hdone).mpr rfl
  have hrounds := received_rounds hunread
  constructor
  · intro h
    have hentries := congrArg (List.map fun e : ReceivedEntry D => e.entry opened) hrounds
    rw [List.map_map, List.map_map] at hentries
    have hsent : shared.map (fun s => s.received.entry opened) =
      t.candidates.map Transmitted.entry := by
      rw [← hshared, List.map_map]
      exact List.map_congr_left fun s hs => received_entry (hdelivered s hs)
    have hentries := hentries.trans hsent
    rw [← SleepImageCatalogService.callback_entries] at hentries
    refine onTransact_congr (Eq.trans ?_ hentries) ?_ h
    · unfold ProviderCallback.entries
      rw [Int.toNat_natCast]
      rfl
    · rw [havail, hlength, ← hresult]
      simp [SleepImageCatalogService.Transaction.callback]
  · have hfilter := congrArg (List.filterMap ReceivedEntry.shared) hrounds
    rw [List.filterMap_map, List.filterMap_map] at hfilter
    refine hfilter.trans ?_
    have hshared' : (ReceivedEntry.shared ∘ SharedPlanes.received : SharedPlanes D → _) =
        fun s => some s.planed.shared := funext received_shared
    rw [hshared']
    exact congrFun List.filterMap_eq_map shared

/-! ### From the store to the session -/

open SleepImageStore (Whole)
open EinkSleepImageCatalog (alphaChannel)

variable {service : SleepImageCatalogService} {d d₁ : Files.Directory}
  {available : Nat → Bool} {requestGeneration mode : Int}
  {decoded : Option SleepImageTransforms.Planes} {t : Transaction}

/-- What the service of the color product sends for a whole catalog, if it sends images. -/
theorem sent_of_publishResult (ha : service.IsAura) (hw : Whole service.store d)
    (ht : t ∈ service.publishResult d₁ available
      (service.store.read d) requestGeneration mode decoded)
    (hresult : t.result = RESULT_OK) :
    t.version = 5 ∧ t.requestGeneration = requestGeneration ∧
      t.storeGeneration = (service.store.read d).generation ∧ t.reason = 0 ∧
      t.candidates.length ≤ SleepImageManager.MAXIMUM_ENTRIES ∧ ∀ c ∈ t.candidates, c.Fits := by
  have hpublication := SleepImageStore.acceptable_publication service.store hw
  have hversion : service.PROVIDER_PROTOCOL_VERSION = 5 := by
    rw [SleepImageCatalogService.PROVIDER_PROTOCOL_VERSION, if_pos ha.color]
  unfold SleepImageCatalogService.publishResult at ht
  dsimp only at ht
  generalize (if mode = SleepImageCatalogService.MODE_KOREADER_COVER then decoded else none) = cover
    at ht
  obtain ⟨hacceptable, hsized⟩ := hpublication
    (mode = SleepImageCatalogService.MODE_KOREADER_COVER)
    (cover.map SleepImageTransforms.Planes.gray) (cover.map SleepImageTransforms.Planes.alpha)
  generalize service.store.publication (service.store.read d)
    (mode = SleepImageCatalogService.MODE_KOREADER_COVER)
    (cover.map SleepImageTransforms.Planes.gray) (cover.map SleepImageTransforms.Planes.alpha) =
      publication at ht hacceptable hsized
  have hne : publication.isEmpty = false := List.isEmpty_eq_false_iff.mpr hacceptable.nonempty
  rw [hne, if_neg (by decide)] at ht
  split at ht
  · next sent hsent =>
    rw [List.mem_singleton.mp ht]
    unfold SleepImageCatalogService.sendResult at hsent
    rw [if_pos rfl] at hsent
    obtain ⟨candidates, hcandidates, rfl⟩ := Option.map_eq_some_iff.mp hsent
    obtain ⟨hfallback, -, hall⟩ := SleepImageCatalogService.mapM_transmitted hcandidates
    have hlength : candidates.length = publication.length := by
      have hcount := congrArg List.length hfallback
      rwa [List.length_map, List.length_map] at hcount
    refine ⟨hversion, rfl, rfl, rfl, hlength ▸ hacceptable.fits, fun c hc => ?_⟩
    obtain ⟨entry, hentry, hpixels, halpha, hwidth, hheight⟩ := hall c hc
    exact SleepImageCatalogService.fits_of_transmitted ha hpixels (halpha ▸ hsized entry hentry)
      hwidth hheight
  · -- the result says that there is no memory
    have hother : ¬ SleepImageCatalogService.RESULT_UNAVAILABLE =
        SleepImageCatalogService.RESULT_OK := by decide
    rw [SleepImageCatalogService.sendResult, if_neg hother, Option.map_some, Option.toList_some,
      List.mem_singleton] at ht
    rw [ht] at hresult
    exact absurd hresult hother

theorem writable_of_sent {shared : List (SharedPlanes D)} (ha : service.IsAura)
    (hw : Whole service.store d)
    (ht : t ∈ service.publishResult d₁ available
      (service.store.read d) requestGeneration mode decoded)
    (hresult : t.result = RESULT_OK) (hshared : shared.map SharedPlanes.sent = t.candidates)
    (hrequest : IntType.int64.Holds requestGeneration) : Transaction.Writable t shared := by
  obtain ⟨hversion, hgeneration, hstore, hreason, hcount, hfits⟩ :=
    sent_of_publishResult ha hw ht hresult
  have hlength : shared.length = t.candidates.length := by rw [← hshared, List.length_map]
  refine ⟨hversion ▸ by decide, hgeneration ▸ hrequest, ?_, hresult ▸ by decide,
    hreason ▸ by decide,    hlength ▸ hcount, fun s hs => ?_⟩
  · rw [hstore]
    exact SleepImageStore.isLong_read d
  · have hfit := hfits s.sent (hshared ▸ List.mem_map_of_mem hs)
    rw [hfit.width, hfit.height]
    decide

/-- A plane of the color product becomes an entry exactly if its alpha is that of the alpha
plane. -/
theorem nativeEntry_eq {s : SharedPlanes D} (hfits : s.sent.Fits) :
    (alphaChannel s.sent.pixels = s.sent.alpha → ∃ e,
      s.planed.nativeEntry auraCDeviceProfile = some e ∧ e.rgba = s.sent.pixels ∧
        e.alpha = s.sent.alpha) ∧
    (alphaChannel s.sent.pixels ≠ s.sent.alpha →
      s.planed.nativeEntry auraCDeviceProfile = none) := by
  have hpixels : s.sent.pixels.length = auraCDeviceProfile.panelBytes * 4 := by
    have h : (s.sent.pixels.length : Int) = 4612800 * 4 := hfits.pixels
    have hpanel : auraCDeviceProfile.panelBytes = 4612800 := by decide
    omega
  have halpha : s.sent.alpha.length = auraCDeviceProfile.panelBytes := by
    have h : (s.sent.alpha.length : Int) = 4612800 := hfits.alpha
    have hpanel : auraCDeviceProfile.panelBytes = 4612800 := by decide
    omega
  have hread : s.planed.nativeEntry auraCDeviceProfile =
      (EinkSleepImageCatalog.grayOfRgba s.sent.pixels s.sent.alpha).map fun gray =>
        { width := s.sent.width, height := s.sent.height, panelGray := gray, alpha := s.sent.alpha
          rgba := s.sent.pixels } := by
    unfold Planed.nativeEntry EinkSleepImageCatalog.readEntry
    rw [if_neg, if_pos (by decide), if_neg]
    · rfl
    · exact not_or.mpr ⟨not_not.mpr hpixels, not_not.mpr halpha⟩
    · exact not_or.mpr ⟨not_not.mpr hfits.width, not_not.mpr hfits.height⟩
  have hlen : s.sent.pixels.length = s.sent.alpha.length * 4 := by rw [hpixels, halpha]
  rw [hread]
  constructor
  · intro hchannel
    obtain ⟨gray, hgray, -⟩ := EinkSleepImageCatalog.grayOfRgba_of_alphaChannel hlen hchannel
    rw [hgray]
    exact ⟨_, rfl, rfl, rfl⟩
  · intro hchannel
    cases hgray : EinkSleepImageCatalog.grayOfRgba s.sent.pixels s.sent.alpha with
    | none => rfl
    | some gray =>
      exact absurd (EinkSleepImageCatalog.alphaChannel_of_grayOfRgba hlen hgray) hchannel

/-- The planes of a catalog become its entries, or one of them does not match. -/
theorem nativeEntries_eq {shared : List (SharedPlanes D)} (hfits : ∀ s ∈ shared, s.sent.Fits) :
    ((∀ s ∈ shared, alphaChannel s.sent.pixels = s.sent.alpha) → ∃ entries,
      (shared.map SharedPlanes.planed).mapM (Planed.nativeEntry auraCDeviceProfile) = some entries ∧
        entries.map (fun e => (e.rgba, e.alpha)) =
          shared.map fun s => (s.sent.pixels, s.sent.alpha)) ∧
    ((¬ ∀ s ∈ shared, alphaChannel s.sent.pixels = s.sent.alpha) →
      (shared.map SharedPlanes.planed).mapM (Planed.nativeEntry auraCDeviceProfile) = none) := by
  induction shared with
  | nil =>
    exact ⟨fun _ => ⟨[], rfl, rfl⟩, fun h => absurd (fun s hs => absurd hs List.not_mem_nil) h⟩
  | cons s shared ih =>
    obtain ⟨hsome, hnone⟩ := ih fun s hs => hfits s (List.mem_cons_of_mem _ hs)
    obtain ⟨hentry, hmismatch⟩ := nativeEntry_eq (hfits s List.mem_cons_self)
    rw [List.map_cons, List.mapM_cons]
    constructor
    · intro hall
      obtain ⟨e, he, hrgba, halpha⟩ := hentry (hall s List.mem_cons_self)
      obtain ⟨entries, hentries, hplanes⟩ := hsome fun s hs => hall s (List.mem_cons_of_mem _ hs)
      refine ⟨e :: entries, ?_, ?_⟩
      · rw [he, hentries]
        rfl
      · rw [List.map_cons, List.map_cons, hplanes, hrgba, halpha]
    · intro hnot
      by_cases hfirst : alphaChannel s.sent.pixels = s.sent.alpha
      · obtain ⟨e, he, -⟩ := hentry hfirst
        have hrest : ¬ ∀ s ∈ shared, alphaChannel s.sent.pixels = s.sent.alpha := by
          intro hall
          exact hnot (List.forall_mem_cons.mpr ⟨hfirst, hall⟩)
        rw [he, hnone hrest]
        rfl
      · rw [hmismatch hfirst]
        rfl

/-- The entries are as many as the planes, and pass the checks of the catalog. -/
theorem nativeEntries_spec (hcolor : p.hasColorCfa = true) {catalog : List (Planed D)}
    {entries : List EinkSleepImageCatalog.Entry}
    (h : catalog.mapM (Planed.nativeEntry p) = some entries) :
    entries.length = catalog.length ∧
      ∀ e ∈ entries, EinkSleepImageCatalog.validateEntry p e = none := by
  induction catalog generalizing entries with
  | nil =>
    rw [List.mapM_nil] at h
    rw [← Option.some.inj h]
    exact ⟨rfl, fun e he => absurd he List.not_mem_nil⟩
  | cons s catalog ih =>
    rw [List.mapM_cons] at h
    obtain ⟨e, hentry, h⟩ := Option.bind_eq_some_iff.mp h
    obtain ⟨rest, hrest, h⟩ := Option.bind_eq_some_iff.mp h
    obtain rfl := Option.some.inj h
    obtain ⟨hlength, hvalid⟩ := ih hrest
    refine ⟨congrArg (· + 1) hlength, fun e' he' => ?_⟩
    rcases List.mem_cons.mp he' with rfl | he'
    · exact EinkSleepImageCatalog.validateEntry_of_readEntry hcolor hentry
    · exact hvalid e' he'

/-- Such entries are a catalog that the session takes if its epoch is new. -/
theorem valid_requestOf (hproduct : c.profile ∈ deviceProfiles)
    (hcolor : c.profile.hasColorCfa = true) {epoch selected : Nat} (hepoch : epoch ≠ 0)
    {catalog : List (Planed D)} {entries : List EinkSleepImageCatalog.Entry}
    (hentries : catalog.mapM (Planed.nativeEntry c.profile) = some entries)
    (hcount : catalog.length ≤ SleepImageManager.MAXIMUM_ENTRIES)
    (hselected : selected < catalog.length)
    (mode : SleepImageMode) : (requestOf c.profile epoch entries selected mode).valid c = true := by
  obtain ⟨hlength, hvalid⟩ := nativeEntries_spec hcolor hentries
  have hvalidate := validate_of_entries hproduct (by omega) (hlength ▸ hcount) hvalid
  have hselectedEntry : selected < entries.length := hlength ▸ hselected
  simp [SleepImageCatalogRequest.valid, requestOf, hepoch, hvalidate, hselectedEntry]

/-- The images of a publication arrive: the manager takes what the service has sent, and when it
sends that on, the session holds the service's own planes exactly if they match and the epoch is
new, which is what the manager learns if the reply comes back. -/
theorem published_images_arrive (api : Parcels D) (memory : SharedMemory D) (opened : D → Transport)
    (hp : c.profile = auraCDeviceProfile) (ha : service.IsAura) (hw : Whole service.store d)
    (hrequest : 0 < requestGeneration ∧ IntType.int64.Holds requestGeneration)
    (ht : t ∈ service.publishResult d₁ available
      (service.store.read d) requestGeneration mode decoded)
    (hresult : t.result = RESULT_OK) {shared : List (SharedPlanes D)}
    (hshared : shared.map SharedPlanes.sent = t.candidates)
    (hdelivered : ∀ s ∈ shared, s.Delivered memory opened)
    {as : List (Endpoint.Action api.Parcel)} {log : List SleepImageBinder.Call} {x : Endpoint}
    (hrun : (Endpoint.system api c memory).Run System.anyAction {} as log x) :
    let received := readCallback api opened (api.writeAll (resultItems t shared))
    (∀ h, ∃ message h', SleepImageManager.onTransact h received.1 = (some message, h') ∧
      message.valid = true ∧
      message.candidates.map (·.candidate) = received.2.map SharedCandidate.candidate) ∧
    ∀ epoch, IsEpoch epoch → ∀ selected < received.2.length, ∀ presented ≠ .keepLastScreen,
      ∀ replied now,
        let sent := sendCatalog api c memory ⟨true, replied⟩ epoch received.2 selected presented now
          (some x.session)
        let accepted := (∀ candidate ∈ t.candidates,
          alphaChannel candidate.pixels = candidate.alpha) ∧
          x.session.sleepImageCatalogEpoch < epoch
        (sent.1 = true ↔ replied = true ∧ accepted) ∧
        (accepted → ∃ entries, sent.2.bind held =
            some ⟨epoch, entries, selected, presentedMode presented⟩ ∧
          entries.map (fun e => (e.rgba, e.alpha)) = t.candidates.map fun c =>
            (c.pixels, c.alpha)) ∧
        (¬ accepted → sent.2.bind held = held x.session) := by
  obtain ⟨-, -, -, -, hcount, hfits⟩ := sent_of_publishResult ha hw ht hresult
  have hwritable := writable_of_sent ha hw ht hresult hshared hrequest.2
  obtain ⟨hcallback, hreceived⟩ := readCallback_sent api hwritable hresult hshared hdelivered
  have hcoherent := (ran_of_run hrun).coherent
  have hcolor : c.profile.hasColorCfa = true := by
    rw [hp]
    rfl
  dsimp only at hcallback hreceived ⊢
  have hcandidates : (shared.map fun s => s.planed.shared).map SharedCandidate.candidate =
      t.candidates.map Transmitted.candidate := by
    rw [← hshared, List.map_map, List.map_map]
    rfl
  constructor
  · -- the callback reads the message that the service meant
    intro h
    obtain ⟨message, h', htaken, hvalid, -, hmessage, -⟩ :=
      ((SleepImageCatalogService.publishesWell_of_whole ha hw).accepted d₁ available
        requestGeneration
        mode decoded hrequest.1 t ht).1 h
    refine ⟨message, h', (hcallback h).trans htaken, hvalid, ?_⟩
    rw [hreceived, hcandidates]
    exact hmessage
  intro epoch hepoch selected hselected presented hpresented replied now
  -- what the manager sends on is what it has read: sendable, and backed by the memory
  have hplaned : (shared.map fun s => s.planed.shared) =
      (shared.map SharedPlanes.planed).map Planed.shared := by
    rw [List.map_map]
    rfl
  have hlength : shared.length = t.candidates.length := by rw [← hshared, List.length_map]
  have hsendable : Sendable ((shared.map SharedPlanes.planed).map Planed.shared) selected := by
    refine ⟨fun s hs => ?_, ?_, ?_⟩
    · rw [List.map_map] at hs
      obtain ⟨s', hs', rfl⟩ := List.mem_map.mp hs
      exact hwritable.geometry s' hs'
    · rw [List.length_map, List.length_map, hlength]
      exact hcount
    · rw [← hplaned, ← hreceived]
      exact hselected
  have hbacked : ∀ s ∈ shared.map SharedPlanes.planed, s.Backed memory := by
    intro s hs
    obtain ⟨s', hs', rfl⟩ := List.mem_map.mp hs
    exact ⟨(hdelivered s' hs').pixels, (hdelivered s' hs').alpha⟩
  have hsent := sendCatalog_eq api x.session hcolor hepoch hbacked hsendable
    hpresented ⟨true, replied⟩ now
  rw [if_pos rfl, hp] at hsent
  have hmatches : (∀ candidate ∈ t.candidates, alphaChannel candidate.pixels = candidate.alpha) ↔
      ∀ s ∈ shared, alphaChannel s.sent.pixels = s.sent.alpha := by
    rw [← hshared, List.forall_mem_map]
  have hpublished : t.candidates.map (fun c => (c.pixels, c.alpha)) =
      shared.map fun s => (s.sent.pixels, s.sent.alpha) := by
    rw [← hshared, List.map_map]
    rfl
  have hsharedFits : ∀ s ∈ shared, s.sent.Fits := fun s hs =>
    hfits s.sent (hshared ▸ List.mem_map_of_mem hs)
  obtain ⟨hsome, hnone⟩ := nativeEntries_eq hsharedFits
  rw [hreceived, hplaned, hmatches, hpublished]
  -- the endpoint compares every plane with its alpha; one that differs refuses them all
  by_cases hall : ∀ s ∈ shared, alphaChannel s.sent.pixels = s.sent.alpha
  swap
  · -- the endpoint refuses the planes, and the session is not called
    rw [hnone hall] at hsent
    dsimp only at hsent
    rw [hsent]
    simp only [hall, false_and, and_false, not_false_eq_true, Option.bind_some, forall_const]
    exact ⟨⟨nofun, False.elim⟩, nofun, trivial⟩
  -- the planes are taken, and the epoch decides in the session
  obtain ⟨entries, hentries, hplanes⟩ := hsome hall
  rw [hentries] at hsent
  dsimp only at hsent
  have hproduct : c.profile ∈ deviceProfiles := by
    rw [hp]
    decide
  have hselected' : selected < (shared.map SharedPlanes.planed).length := by
    have hlt := hsendable.selected
    rwa [List.length_map] at hlt
  have hcount' : (shared.map SharedPlanes.planed).length ≤ SleepImageManager.MAXIMUM_ENTRIES := by
    have hle := hsendable.count
    rwa [List.length_map] at hle
  have hvalid := valid_requestOf hproduct hcolor hepoch.positive (hp ▸ hentries) hcount' hselected'
    presented
  rw [hp] at hvalid
  obtain ⟨hanswer, -, hheld, -⟩ := hcoherent.publishSleepImageCatalog hvalid
  have hrequested : (requestOf auraCDeviceProfile epoch entries selected presented).epoch =
    epoch := rfl
  rw [hsent, Option.bind_some, hanswer, hheld, hrequested]
  by_cases hnew : x.session.sleepImageCatalogEpoch < epoch
  · rw [if_neg (Nat.not_le.mpr hnew), if_neg (Nat.not_le.mpr hnew)]
    refine ⟨?_, fun _ => ⟨entries, rfl, hplanes⟩, fun h => absurd ⟨hall, hnew⟩ h⟩
    show (replied && true) = true ↔ _
    rw [Bool.and_true]
    exact (and_iff_left ⟨hall, hnew⟩).symm
  · rw [if_pos (Nat.not_lt.mp hnew), if_pos (Nat.not_lt.mp hnew)]
    refine ⟨?_, fun h => absurd h.2 hnew, fun _ => rfl⟩
    simp [hnew]

/-! ### The image of a first opening -/

def openedByContents (fd : List UInt8) : Transport := ⟨.opened fd.length, true⟩

def shareContents (c : Transmitted) : SharedPlanes (List UInt8) := ⟨c, c.pixels, c.alpha⟩

theorem delivered_shareContents (c : Transmitted) :
    (shareContents c).Delivered namedByContents openedByContents where
  pixels := ⟨⟨_, rfl, rfl⟩, if_pos rfl⟩
  alpha := ⟨⟨_, rfl, rfl⟩, if_pos rfl⟩
  openedPixels := rfl
  openedAlpha := rfl

/-- The first publication of the color product arrives, whether or not the manager learns of it. -/
theorem published_images_arrive_first :
    ∃ (d : Files.Directory) (t : Transaction), Whole SleepImageStore.auraStore d ∧
      t.candidates ≠ [] ∧ ∀ replied,
        let received := readCallback (Parcels.ofItems _) openedByContents
          ((Parcels.ofItems _).writeAll (resultItems t (t.candidates.map shareContents)))
        let sent := sendCatalog (Parcels.ofItems _) auraSettings namedByContents ⟨true, replied⟩ 1
          received.2 0 .sleepImage 0 (some {})
        (sent.1 = true ↔ replied = true) ∧ ∃ entries,
          sent.2.bind held = some ⟨1, entries, 0, .opaqueImage⟩ ∧
            entries.map (fun e => (e.rgba, e.alpha)) =
              t.candidates.map fun c => (c.pixels, c.alpha) := by
  obtain ⟨y, -, ⟨s, -⟩, hsound, -, -, hfiles⟩ :=
    SleepImageCatalogService.exists_firstOpening SleepImageStore.validPlanes_white
  have hw : Whole SleepImageStore.auraStore y.after := hsound.1
  have ha : SleepImageStore.auraService.IsAura := ⟨rfl, rfl, rfl⟩
  have hm : SleepImageStore.auraService.MadeFor auraCDeviceProfile :=
    ⟨rfl, rfl, rfl, rfl, rfl, fun _ hnone => nomatch hnone⟩
  -- there is no color file yet, and no color image in the package
  have hconsistent : SleepImageStore.auraService.Consistent y.after := by
    intro e he
    unfold SleepImageCatalogService.ConsistentEntry
    split
    · next hfallback => cases hfallback
    · intro file hfile
      rw [hfiles e he] at hfile
      cases hfile
  obtain ⟨t, hsent, hresult, htakes⟩ :=
    (SleepImageCatalogService.colorsTaken_iff hm hw).mpr hconsistent 1 1 none
      fun _ hnone => nomatch hnone
  have ht : t ∈ SleepImageStore.auraService.publishResult y.after (fun _ => true)
      (SleepImageStore.auraService.store.read y.after) 1 1 none := by
    rw [hsent]
    exact List.mem_singleton_self t
  have hrun := (System.Run.of_exec rfl :
    (Endpoint.system (Parcels.ofItems (List UInt8)) auraSettings namedByContents).Run
      System.anyAction {} [.registerSleepImageCaptureSession] [] ⟨{}, true⟩)
  have hshared : (t.candidates.map shareContents).map SharedPlanes.sent = t.candidates :=
    List.map_map.trans (List.map_id _)
  have hdelivered : ∀ s ∈ t.candidates.map shareContents,
      s.Delivered namedByContents openedByContents := by
    intro s hs
    obtain ⟨c, -, rfl⟩ := List.mem_map.mp hs
    exact delivered_shareContents c
  obtain ⟨-, harrive⟩ := published_images_arrive (Parcels.ofItems (List UInt8)) namedByContents
    openedByContents rfl ha hw (by decide) ht hresult hshared hdelivered hrun
  -- the manager could not choose among no candidates
  have hnonempty : t.candidates ≠ [] := by
    intro hnil
    obtain ⟨message, -, -, -, -, hcandidates, hselects⟩ :=
      ((SleepImageCatalogService.publishesWell_of_whole ha hw).accepted _ _ 1 1 none (by decide) t
        ht).1 {}
    have hselected := hselects hresult 0
    rw [hcandidates, hnil] at hselected
    cases hselected
  have hwritable := writable_of_sent ha hw ht hresult hshared (by decide)
  have hpositive : 0 < (readCallback (Parcels.ofItems _) openedByContents
      ((Parcels.ofItems _).writeAll
        (resultItems t (t.candidates.map shareContents)))).2.length := by
    rw [(readCallback_sent (Parcels.ofItems _) hwritable hresult hshared hdelivered).2,
      List.length_map, List.length_map]
    exact List.length_pos_iff.mpr hnonempty
  refine ⟨y.after, t, hw, hnonempty, fun replied => ?_⟩
  obtain ⟨hlearns, hholds, -⟩ := harrive 1 ⟨by decide, by decide⟩ 0 hpositive .sleepImage
    (by decide) replied 0
  have haccepted : (∀ c ∈ t.candidates, alphaChannel c.pixels = c.alpha) ∧ 0 < 1 :=
    ⟨fun c hc => (htakes c hc).alpha, by decide⟩
  exact ⟨hlearns.trans (and_iff_left haccepted), hholds haccepted⟩

end SleepImageTransport

end EinkLab
