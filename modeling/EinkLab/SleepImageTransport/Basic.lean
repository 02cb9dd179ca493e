import EinkLab.Binder.Parcel
import EinkLab.CaptureSession.SleepRequests
import EinkLab.SleepImageManager.Descriptors
import EinkLab.SleepImageStore.Publication

/-!
# The transactions of a sleep image

A sleep image passes through three processes: `sendResult` of the catalog service writes a parcel
that the manager's `mProviderCallback` reads (`Neo2SleepImageManagerService`), and the manager's
`sendCatalog` and `sendEpoch` write parcels that `SleepImageBinder::onTransact`
(`sleep_image_binder_service.cpp`) reads for the capture session of SurfaceFlinger.

The parcels and the shared memory are parameters.  `onTransact` holds `g_session_mutex` from the
check of the session on, so a transaction is one step.
-/

namespace EinkLab

open Binder Pipeline CaptureSession SleepImageManager

/-! ### A presentation on the session -/

namespace CaptureSession.M3State

def presentSleepImage (c : Settings) (m : M3State) (epoch : Nat) (now : TimePoint) :
    SleepImagePresentationResult × M3State :=
  if epoch = 0 then (.rejectedZero, m)
  else if epoch ≠ m.sleepImageCatalogEpoch then (.rejectedCatalog, m)
  else
    match m.pipeline with
    | none => (.rejectedUnavailable, m)
    | some pipeline =>
      let (result, pipeline) := pipeline.presentSleepImage c epoch now
      (result, { m with pipeline := some pipeline })

end CaptureSession.M3State

namespace SleepImageTransport

/-- What the receiver of a descriptor can do with the shared memory that it refers to. -/
structure SharedMemory (D : Type) where
  /-- `ASharedMemory_getSize`, where the platform has it. -/
  getSize : Option (D → Nat)
  /-- The bytes that are copied from a read-only mapping; `none` is `MAP_FAILED`. -/
  mmap : D → Nat → Option (List UInt8)
  length_mmap : ∀ {fd expectedBytes bytes}, mmap fd expectedBytes = some bytes →
    bytes.length = expectedBytes

variable {D : Type} (api : Parcels D)

/-! ### The native endpoint -/

namespace SleepImageBinder

def kDescriptor : String := "android.neo2.INeo2SleepImage"

def kPublishCatalog : Nat := FIRST_CALL_TRANSACTION
def kScreenOff : Nat := kPublishCatalog + 1
def kScreenOn : Nat := kPublishCatalog + 2

def kProtocolVersion (p : EinkDeviceProfile) : Int := if p.hasColorCfa then 3 else 2

inductive Status
  | ok | permissionDenied | nameNotFound | badValue | unknownTransaction
  deriving DecidableEq, Repr

/-- A call of the session, and what it returns. -/
inductive Call
  | presented (epoch : Nat) (result : SleepImagePresentationResult)
  | disarmed (epoch : Nat) (result : SleepImageDisarmResult)
  | published (request : SleepImageCatalogRequest) (result : EinkSleepImageCatalog.PublishResult)
  deriving DecidableEq, Repr

/-- What a transaction does: its status, what it writes to the reply, the session after it, and the
call that it makes there. -/
structure Answer (D : Type) where
  status : Status
  reply : List (Item D) := []
  session : Option M3State
  called : Option Call := none
  deriving DecidableEq

/-- `static_cast<std::uint64_t>` -/
def unsigned64 (value : Int) : Nat := (value % 2 ^ 64).toNat

/-- `static_cast<SleepImagePresentationMode>`, to one byte; `none` is neither mode. -/
def presentationMode (value : Int) : Option SleepImagePresentationMode :=
  if value % 256 = 1 then some .opaqueImage
  else if value % 256 = 2 then some .overlay
  else none

def presentationCode : SleepImagePresentationResult → Int
  | .accepted => 0
  | .rejectedZero => 1
  | .rejectedStale => 2
  | .rejectedInactive => 3
  | .rejectedMismatched => 4
  | .rejectedDuplicate => 5
  | .rejectedCatalog => 6
  | .rejectedUnavailable => 7
  | .rejectedEnqueue => 8
  | .rejectedAlpha => 9
  | .rejectedBackground => 10

def disarmCode : SleepImageDisarmResult → Int
  | .accepted => 0
  | .rejectedZero => 1
  | .rejectedInactive => 2
  | .rejectedMismatched => 3

def publishCode : EinkSleepImageCatalog.PublishResult → Int
  | .accepted => 0
  | .rejectedEmpty => 1
  | .rejectedCount => 2
  | .rejectedGeometry => 3
  | .rejectedBytes => 4
  | .rejectedPanelGray => 5
  | .rejectedAlphaBytes => 6
  | .rejectedSelection => 7

/-- `ReadPlane`, with what is left of the parcel. -/
def readPlane (memory : SharedMemory D) (data : api.Parcel) (expectedBytes : Nat) :
    Option (List UInt8 × api.Parcel) :=
  let (fd, data) := api.readFileDescriptor data
  match fd, memory.getSize with
  | some fd, some getSize =>
    if !api.sound data then none
    else if getSize fd ≠ expectedBytes then none
    else (memory.mmap fd expectedBytes).map (·, data)
  | _, _ => none

/-- The bytes of the first plane: four a pixel on a color panel. -/
def planeBytes (p : EinkDeviceProfile) : Nat :=
  if p.hasColorCfa then p.panelBytes * 4 else p.panelBytes

/-- `ReadEntry` -/
def readEntry (p : EinkDeviceProfile) (memory : SharedMemory D) (data : api.Parcel) :
    Option (EinkSleepImageCatalog.Entry × api.Parcel) :=
  let (width, data) := api.readInt32 data
  let (height, data) := api.readInt32 data
  -- no plane is mapped for another geometry
  if width ≠ p.panelWidth ∨ height ≠ p.panelHeight then none
  else
    (readPlane api memory data (planeBytes p)).bind fun (plane, data) =>
      (readPlane api memory data p.panelBytes).bind fun (alpha, data) =>
        (EinkSleepImageCatalog.readEntry p width height plane alpha).map (·, data)

/-- The loop over the entries of a catalog. -/
def readEntries (p : EinkDeviceProfile) (memory : SharedMemory D) (data : api.Parcel) :
    Nat → Option (List EinkSleepImageCatalog.Entry)
  | 0 => some []
  | count + 1 =>
    (readEntry api p memory data).bind fun (entry, data) =>
      (readEntries p memory data count).map (entry :: ·)

/-- What `kPublishCatalog` reads; `none` is `BAD_VALUE`. -/
def readRequest (p : EinkDeviceProfile) (memory : SharedMemory D) (data : api.Parcel) :
    Option SleepImageCatalogRequest :=
  let (epoch, data) := api.readInt64 data
  let (count, data) := api.readInt32 data
  let (selectedIndex, data) := api.readInt32 data
  let (mode, data) := api.readInt32 data
  if !api.sound data || unsigned64 epoch = 0 || count ≤ 0 ||
      count > EinkSleepImageCatalog.kMaximumEntries || selectedIndex < 0 ||
      selectedIndex ≥ count then
    none
  else
    (presentationMode mode).bind fun mode =>
      (readEntries api p memory data count.toNat).map fun entries =>
        { epoch := unsigned64 epoch, width := p.panelWidth, height := p.panelHeight, entries
          selectedIndex := selectedIndex.toNat, mode }

/-- The values of a reply. -/
def replyItems (p : EinkDeviceProfile) (result : Int) : List (Item D) :=
  [.noException, .int32 (kProtocolVersion p), .int32 result]

/-- `onTransact` once the caller and the protocol version have been checked. -/
def serve (c : Settings) (memory : SharedMemory D) (code : Nat) (data : api.Parcel)
    (now : TimePoint)
    (m : M3State) : Answer D :=
  if code = kScreenOff || code = kScreenOn then
    let (epoch, data) := api.readInt64 data
    let epoch := unsigned64 epoch
    if !api.sound data || epoch = 0 then { status := .badValue, session := some m }
    else if code = kScreenOff then
      let (result, m) := m.presentSleepImage c epoch now
      { status := .ok, reply := replyItems c.profile (presentationCode result)
        session := some m, called := some (.presented epoch result) }
    else
      let (result, m) := m.disarmSleepCycle epoch
      { status := .ok, reply := replyItems c.profile (disarmCode result)
        session := some m, called := some (.disarmed epoch result) }
  else if code ≠ kPublishCatalog then { status := .unknownTransaction, session := some m }
  else
    match readRequest api c.profile memory data with
    | none => { status := .badValue, session := some m }
    | some request =>
      let (result, m) := m.publishSleepImageCatalog c request
      { status := .ok, reply := replyItems c.profile (publishCode result)
        session := some m, called := some (.published request result) }

/-- `onTransact` for a caller with this user id; `reply` says that there is one, and `session` is
`g_session`. -/
def onTransact (c : Settings) (memory : SharedMemory D) (uid code : Nat) (data : api.Parcel)
    (reply : Bool) (now : TimePoint) (session : Option M3State) : Answer D :=
  let (isInterface, data) := api.checkInterface data kDescriptor
  if !reply || uid ≠ AID_SYSTEM || !isInterface then { status := .permissionDenied, session }
  else
    match session with
    | none => { status := .nameNotFound, session := none }
    | some m =>
      let (protocolVersion, data) := api.readInt32 data
      if !api.sound data || protocolVersion ≠ kProtocolVersion c.profile then
        { status := .badValue, session := some m }
      else serve api c memory code data now m

end SleepImageBinder

/-! ### The endpoint over time -/

/-- The session, and whether it is registered (`g_session`). -/
structure Endpoint where
  session : M3State := {}
  registered : Bool := false
  deriving DecidableEq, Repr

namespace Endpoint

/-- A step that a pipeline takes without its sleep-image methods, and other than to stop. -/
def isOwnStep : Pipeline.Action → Bool
  | .publishSleepImageCatalog .. | .armSleepCycle _ | .presentSleepImage .. | .disarmSleepCycle _
  | .stop => false
  | _ => true

inductive Action (P : Type)
  | registerSleepImageCaptureSession
  | unregisterSleepImageCaptureSession
  /-- A transaction of any caller, with any parcel. -/
  | onTransact (uid code : Nat) (data : P) (reply : Bool) (now : TimePoint)
  | maybeStartM3
  | pipeline (action : Pipeline.Action)

def step (c : Settings) (memory : SharedMemory D) (x : Endpoint) :
    Action api.Parcel → Option (Endpoint × List SleepImageBinder.Call)
  | .registerSleepImageCaptureSession => some ({ x with registered := true }, [])
  | .unregisterSleepImageCaptureSession => some ({ x with registered := false }, [])
  | .onTransact uid code data reply now =>
    let answer := SleepImageBinder.onTransact api c memory uid code data reply now
      (if x.registered then some x.session else none)
    some ({ x with session := answer.session.getD x.session }, answer.called.toList)
  | .maybeStartM3 => some ({ x with session := x.session.maybeStartM3 c }, [])
  | .pipeline action =>
    if isOwnStep action then
      x.session.pipeline.bind fun pipeline => (pipeline.step c action).map fun r =>
        ({ x with session := { x.session with pipeline := some r.1 } }, [])
    else none

def system (c : Settings) (memory : SharedMemory D) :
    Transition.System Endpoint (Action api.Parcel) SleepImageBinder.Call where
  step := step api c memory

end Endpoint

/-! ### The manager's calls -/

def SF_DESCRIPTOR : String := "android.neo2.INeo2SleepImage"
def SF_PUBLISH : Nat := FIRST_CALL_TRANSACTION
def SF_SCREEN_OFF : Nat := SF_PUBLISH + 1
def SF_SCREEN_ON : Nat := SF_PUBLISH + 2
def SF_PROTOCOL_VERSION : Int := 3
def RESULT_OK : Int := 0

/-- A `Candidate` with what its descriptors refer to. -/
structure SharedCandidate (D : Type) where
  candidate : Candidate
  grayFd : D
  alphaFd : D
  deriving DecidableEq

def modeValue : SleepImageMode → Int
  | .keepLastScreen => 0
  | .sleepImage => 1
  | .overlaySleepImage => 2
  | .koreaderCover => 3

/-- What `sendEpoch` writes. -/
def epochItems (epoch : Int) : List (Item D) :=
  [.interfaceToken SF_DESCRIPTOR, .int32 SF_PROTOCOL_VERSION, .int64 epoch]

/-- What `sendCatalog` writes for a candidate. -/
def candidateItems (c : SharedCandidate D) : List (Item D) :=
  [.int32 c.candidate.width, .int32 c.candidate.height, .fileDescriptor c.grayFd,
    .fileDescriptor c.alphaFd]

/-- What `sendCatalog` writes; a KOReader cover is presented as an ordinary sleep image. -/
def catalogItems (epoch : Int) (catalog : List (SharedCandidate D)) (selected : Nat)
    (mode : SleepImageMode) : List (Item D) :=
  [.interfaceToken SF_DESCRIPTOR, .int32 SF_PROTOCOL_VERSION, .int64 epoch, .int32 catalog.length,
    .int32 selected,
    .int32 (modeValue (if mode = .koreaderCover then .sleepImage else mode))] ++
    catalog.flatMap candidateItems

/-- `endpoint.transact`: the reply parcel; an error status, like a dead endpoint, is an
exception. -/
def transact (c : Settings) (memory : SharedMemory D) (carriage : Carriage) (code : Nat)
    (items : List (Item D)) (now : TimePoint) (session : Option M3State) :
    Option api.Parcel × Option M3State :=
  if !carriage.delivered then (none, session)
  else
    let answer := SleepImageBinder.onTransact api c memory AID_SYSTEM code
      (api.writeAll items) true now session
    (if carriage.replied && answer.status = .ok then some (api.writeAll answer.reply) else none,
      answer.session)

/-- What the manager makes of a reply. -/
def readReply (reply : Option api.Parcel) : Bool :=
  match reply with
  | none => false
  | some reply =>
    let (returned, reply) := api.readException reply
    let (version, reply) := api.readInt32 reply
    let (result, _) := api.readInt32 reply
    returned && version = SF_PROTOCOL_VERSION && result = RESULT_OK

def sendEpoch (c : Settings) (memory : SharedMemory D) (carriage : Carriage) (transaction : Nat)
    (epoch : Int) (now : TimePoint) (session : Option M3State) : Bool × Option M3State :=
  let (reply, session) := transact api c memory carriage transaction (epochItems epoch) now session
  (readReply api reply, session)

def sendCatalog (c : Settings) (memory : SharedMemory D) (carriage : Carriage) (epoch : Int)
    (catalog : List (SharedCandidate D)) (selected : Nat) (mode : SleepImageMode) (now : TimePoint)
    (session : Option M3State) : Bool × Option M3State :=
  let (reply, session) := transact api c memory carriage SF_PUBLISH
    (catalogItems epoch catalog selected mode) now session
  (readReply api reply, session)

/-! ### The service's result -/

def CALLBACK_DESCRIPTOR : String := "org.neo2.controls.ISleepImageCatalogCallback"

open SleepImageCatalogService (Transaction Transmitted)

/-- A candidate of a transaction with the shared memories of its planes. -/
structure SharedPlanes (D : Type) where
  sent : Transmitted
  pixelsFd : D
  alphaFd : D

/-- What `sendResult` writes for a candidate. -/
def sentItems (c : SharedPlanes D) : List (Item D) :=
  [.int32 (if c.sent.fallback then 1 else 0), .int32 (if c.sent.eligible then 1 else 0),
    .int32 c.sent.width, .int32 c.sent.height, .fileDescriptor c.pixelsFd,
    .fileDescriptor c.alphaFd]

/-- What `sendResult` writes for a transaction, whose candidates have these shared memories. -/
def resultItems (t : Transaction) (shared : List (SharedPlanes D)) : List (Item D) :=
  [.interfaceToken CALLBACK_DESCRIPTOR, .int32 t.version, .int64 t.requestGeneration,
    .int64 t.storeGeneration, .int32 t.result, .int32 t.reason, .int32 shared.length] ++
    shared.flatMap sentItems

/-- One round of the loop of the callback, as it is read. -/
structure ReceivedEntry (D : Type) where
  fallback : Int
  eligible : Int
  width : Int
  height : Int
  grayTransport : Option D
  alphaTransport : Option D

def readReceived (data : api.Parcel) : ReceivedEntry D × api.Parcel :=
  let (fallback, data) := api.readInt32 data
  let (eligible, data) := api.readInt32 data
  let (width, data) := api.readInt32 data
  let (height, data) := api.readInt32 data
  let (grayTransport, data) := api.readFileDescriptor data
  let (alphaTransport, data) := api.readFileDescriptor data
  (⟨fallback, eligible, width, height, grayTransport, alphaTransport⟩, data)

/-- The parcel after some rounds. -/
def afterRounds (data : api.Parcel) : Nat → api.Parcel
  | 0 => data
  | rounds + 1 => (readReceived api (afterRounds data rounds)).2

/-- What a round reads, with what the manager can do with the descriptors. -/
def ReceivedEntry.entry (e : ReceivedEntry D) (opened : D → Transport) :
    SleepImageManager.Entry where
  fallback := e.fallback
  eligible := e.eligible
  width := e.width
  height := e.height
  grayTransport := e.grayTransport.map opened
  alphaTransport := e.alphaTransport.map opened

/-- The candidate of a round that was read to its end; duplicates refer to the same memory. -/
def ReceivedEntry.shared (e : ReceivedEntry D) : Option (SharedCandidate D) :=
  e.grayTransport.bind fun grayFd => e.alphaTransport.map fun alphaFd =>
    ⟨⟨e.width, e.height, e.fallback = 1, e.eligible = 1⟩, grayFd, alphaFd⟩

/-- What `mProviderCallback` reads of the provider's parcel, and the candidates of its rounds. -/
def readCallback (opened : D → Transport) (data : api.Parcel) :
    ProviderCallback × List (SharedCandidate D) :=
  let (interfaceToken, data) := api.checkInterface data CALLBACK_DESCRIPTOR
  let (version, data) := api.readInt32 data
  let (generation, data) := api.readInt64 data
  let (storeGeneration, data) := api.readInt64 data
  let (result, data) := api.readInt32 data
  let (reason, data) := api.readInt32 data
  let (count, data) := api.readInt32 data
  let rounds := if result = RESULT_OK then count.toNat else 0
  let received index := (readReceived api (afterRounds api data index)).1
  ({ fromProvider := true, interfaceToken, version, generation, storeGeneration, result, reason
     count
     entry := fun index => (received index).entry opened
     dataAvail := api.dataAvail (afterRounds api data rounds) },
    (List.range rounds).filterMap fun index => (received index).shared)

end SleepImageTransport

end EinkLab
