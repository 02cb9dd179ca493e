import EinkLab.SleepImageManager.Basic
import EinkLab.Transition.Handles

/-!
# The descriptors of the sleep-image manager

What `Neo2SleepImageManagerService` (`aura/frameworks/base.patch`) does to file descriptors: the
provider's callback receives two for each image and duplicates them for retention, the handler
thread installs the candidates as the retained catalog, and a publication duplicates that catalog
and closes the duplicates.  The manager's other state is that of `World`; it is read here, and
`Holdings` is what owns descriptors between two methods.

What Android's calls do is part of the input: whether the parcel holds a descriptor, what
`SharedMemory.fromFileDescriptor` makes of it, and which duplications succeed.
-/

namespace EinkLab.SleepImageManager

open Transition

/-! ### Transports -/

/-- `SharedMemory.fromFileDescriptor`: a handle of this size, which owns the descriptor from then
on, or an exception, with the descriptor still the transport's or already detached from it. -/
inductive Opening
  | opened (size : Int)
  | refused (detached : Bool)
  deriving DecidableEq, Repr

/-- A received descriptor: how it opens, and whether `ParcelFileDescriptor.dup` of it succeeds. -/
structure Transport where
  opening : Opening
  duplicates : Bool
  deriving DecidableEq, Repr

/-- `Parcel.readFileDescriptor`; `none` is null. -/
def readFileDescriptor (h : Handles) (transport : Option Transport) :
    Option (Nat × Transport) × Handles :=
  match transport with
  | none => (none, h)
  | some t => (some (h.obtain.1, t), h.obtain.2)

/-- `duplicateValidatedSharedMemory`; `none` is an exception. -/
def duplicateValidatedSharedMemory (h : Handles) (transport : Option (Nat × Transport))
    (expectedBytes : Int) : Option Nat × Handles :=
  match transport with
  | none => (none, h)
  | some (fd, t) =>
    match t.opening with
    | .refused detached => (none, if detached then h else h.close fd)
    | .opened size =>
      if size ≠ expectedBytes then (none, h.close fd)
      else if t.duplicates then (some h.obtain.1, h.obtain.2.close fd)
      else (none, h.close fd)

/-! ### Candidates -/

/-- A `Candidate` with its descriptors. -/
structure HeldCandidate where
  grayFd : Nat
  alphaFd : Nat
  candidate : Candidate
  deriving DecidableEq, Repr

/-- The descriptors of a catalog, in the order in which `closeAll` closes them. -/
def descriptors (catalog : List HeldCandidate) : List Nat :=
  catalog.flatMap fun c => [c.grayFd, c.alphaFd]

def closeAll (h : Handles) (catalog : List HeldCandidate) : Handles :=
  h.closeAll (descriptors catalog)

def PANEL_WIDTH : Int := 2480
def PANEL_HEIGHT : Int := 1860
def PANEL_BYTES : Int := 4612800

/-- `Neo2SleepImageGeometry.panelBytesFor` -/
def panelBytesFor (width height : Int) : Int :=
  if width = PANEL_WIDTH && height = PANEL_HEIGHT then PANEL_BYTES else -1

/-- `Neo2SleepImageGeometry.isHomogeneousExpected` -/
def isHomogeneousExpected (catalog : List HeldCandidate) : Bool :=
  catalog ≠ [] &&
    catalog.all fun c => panelBytesFor c.candidate.width c.candidate.height = PANEL_BYTES

/-- What one round of the loop of the callback reads; past the end of the parcel zeros and null. -/
structure Entry where
  fallback : Int
  eligible : Int
  width : Int
  height : Int
  grayTransport : Option Transport
  alphaTransport : Option Transport
  deriving DecidableEq, Repr

/-- The checks before the descriptors are read. -/
def Entry.validMetadata (e : Entry) : Bool :=
  !((e.fallback ≠ 0 && e.fallback ≠ 1) || (e.eligible ≠ 0 && e.eligible ≠ 1) ||
    panelBytesFor e.width e.height ≤ 0)

/-- One round of the loop; an exception carries `fdFailure`.  `Math.multiplyExact` is exact for the
one size there is, and the duplicates are never null. -/
def readCandidate (h : Handles) (e : Entry) : Except Bool HeldCandidate × Handles :=
  let panelBytes := panelBytesFor e.width e.height
  if !e.validMetadata then (.error false, h)
  else
    let (grayTransport, h) := readFileDescriptor h e.grayTransport
    let (alphaTransport, h) := readFileDescriptor h e.alphaTransport
    match duplicateValidatedSharedMemory h grayTransport (panelBytes * 4) with
    -- nothing closes `alphaTransport`
    | (none, h) => (.error true, h)
    | (some grayFd, h) =>
      match duplicateValidatedSharedMemory h alphaTransport panelBytes with
      -- the `catch` closes `grayFd`
      | (none, h) => (.error true, h.close grayFd)
      | (some alphaFd, h) =>
        (.ok ⟨grayFd, alphaFd, ⟨e.width, e.height, e.fallback = 1, e.eligible = 1⟩⟩, h)

/-- The loop, with the candidates so far; the exception of a round ends it. -/
def readCandidates (h : Handles) (candidates : List HeldCandidate) :
    List Entry → Option Bool × List HeldCandidate × Handles
  | [] => (none, candidates, h)
  | e :: entries =>
    match readCandidate h e with
    | (.error fdFailure, h) => (some fdFailure, candidates, h)
    | (.ok candidate, h) => readCandidates h (candidates ++ [candidate]) entries

/-! ### The provider's callback -/

/-- A transaction on `mProviderCallback`. -/
structure ProviderCallback where
  /-- The code, the one-way flag and the calling uid are the provider's. -/
  fromProvider : Bool
  interfaceToken : Bool
  version : Int
  generation : Int
  storeGeneration : Int
  result : Int
  reason : Int
  count : Int
  entry : Nat → Entry
  /-- `dataAvail()` after everything has been read. -/
  dataAvail : Nat

namespace ProviderCallback

def PROVIDER_PROTOCOL_VERSION : Int := 5
def RESULT_OK : Int := 0
def RESULT_UNAVAILABLE : Int := 1
def RESULT_EMPTY : Int := 2
def REASON_NONE : Int := 0
def REASON_STORE_IO : Int := 1
def REASON_SHARED_MEMORY : Int := 2
def REASON_NO_VALID_CANDIDATE : Int := 3

/-- `validProviderResult` on what was read. -/
def validResult (result reason count : Int) : Bool :=
  (result = RESULT_OK && reason = REASON_NONE && count > 0) ||
    (result = RESULT_UNAVAILABLE && count = 0 &&
      (reason = REASON_STORE_IO || reason = REASON_SHARED_MEMORY)) ||
    (result = RESULT_EMPTY && reason = REASON_NO_VALID_CANDIDATE && count = 0)

/-- The checks up to the loop. -/
def validHeader (d : ProviderCallback) : Bool :=
  d.interfaceToken && d.version = PROVIDER_PROTOCOL_VERSION && d.generation > 0 &&
    d.storeGeneration > 0 && d.count ≥ 0 && d.count ≤ MAXIMUM_ENTRIES &&
    validResult d.result d.reason d.count

/-- The generation that has been read when an exception is thrown. -/
def readGeneration (d : ProviderCallback) : Int :=
  if d.interfaceToken && d.version = PROVIDER_PROTOCOL_VERSION then d.generation else 0

/-- The rounds of the loop. -/
def entries (d : ProviderCallback) : List Entry := (List.range d.count.toNat).map d.entry

end ProviderCallback

/-- A posted `handleProviderCallback`, with its arguments. -/
structure Message where
  generation : Int
  storeGeneration : Int
  result : Int
  candidates : List HeldCandidate
  valid : Bool
  fdFailure : Bool
  deriving DecidableEq, Repr

/-- What is posted from the `catch`. -/
def Message.invalid (generation : Int) (fdFailure : Bool) : Message where
  generation := generation
  storeGeneration := 0
  result := ProviderCallback.RESULT_UNAVAILABLE
  candidates := []
  valid := false
  fdFailure := fdFailure

/-- `onTransact`: what it posts.  A transaction that is not the provider's is not read. -/
def onTransact (h : Handles) (d : ProviderCallback) : Option Message × Handles :=
  if !d.fromProvider then (none, h)
  else if !d.validHeader then (some (.invalid d.readGeneration false), h)
  else
    let (thrown, candidates, h) :=
      if d.result = ProviderCallback.RESULT_OK then readCandidates h [] d.entries
      else (none, [], h)
    match thrown with
    | some fdFailure => (some (.invalid d.generation fdFailure), closeAll h candidates)
    | none =>
      if (d.result = ProviderCallback.RESULT_OK && (!isHomogeneousExpected candidates ||
          !validCandidateMetadata (candidates.map (·.candidate)))) || d.dataAvail ≠ 0 then
        (some (.invalid d.generation false), closeAll h candidates)
      else (some ⟨d.generation, d.storeGeneration, d.result, candidates, true, false⟩, h)

/-! ### Publications -/

/-- Which duplications succeed for the candidate of an index. -/
abbrev Copies := Nat → Bool × Bool

/-- The loop of `copyRetainedCatalog`, with the index and the copies so far; `none` is null. -/
def copyCandidates (copies : Copies) (h : Handles) (index : Nat) (copy : List HeldCandidate) :
    List HeldCandidate → Option (List HeldCandidate) × Handles
  | [] => (some copy, h)
  | c :: catalog =>
    if (copies index).1 then
      let (grayFd, h) := h.obtain
      if (copies index).2 then
        let (alphaFd, h) := h.obtain
        copyCandidates copies h (index + 1) (copy ++ [⟨grayFd, alphaFd, c.candidate⟩]) catalog
      -- the first duplicate is in no candidate, and `closeAll` does not reach it
      else (none, closeAll h copy)
    else (none, closeAll h copy)

def copyRetainedCatalog (copies : Copies) (h : Handles) (retained : List HeldCandidate) :
    Option (List HeldCandidate) × Handles :=
  copyCandidates copies h 0 [] retained

/-- `sendCatalog`: without an endpoint at once, else in the `finally`. -/
def sendCatalog (h : Handles) (catalog : List HeldCandidate) : Handles := closeAll h catalog

/-- What becomes of a copy: it is sent if a candidate can be selected, else closed. -/
def publishCopy (h : Handles) (publication : Option (List HeldCandidate)) (pick : Nat) : Handles :=
  match publication with
  | none => h
  | some catalog =>
    match selectCandidateIndex (catalog.map (·.candidate)) pick with
    | some _ => sendCatalog h catalog
    | none => closeAll h catalog

/-! ### The handler and the other holders of the lock -/

/-- Who owns descriptors between two methods: the messages posted to the handler and
`mRetainedCatalog`. -/
structure Holdings where
  handles : Handles := {}
  posted : List Message := []
  retained : List HeldCandidate := []
  deriving DecidableEq, Repr

/-- The callback's candidates become the retained catalog: a valid one of the current generation
with the screen on, and of the awaited store generation if a refresh is pending. -/
def installs (m : Manager) (msg : Message) : Bool :=
  msg.valid && msg.generation = m.requestGeneration && !m.screenOff &&
    !(m.pendingRefreshCallback.isSome && (msg.result ≠ ProviderCallback.RESULT_OK ||
      msg.storeGeneration ≠ m.pendingStoreGeneration)) &&
    msg.result = ProviderCallback.RESULT_OK

namespace Holdings

/-- `handleProviderCallback`, once the handler has taken its message. -/
def handleProviderCallback (s : Holdings) (m : Manager) (msg : Message) (copies : Copies)
    (pick : Nat) : Holdings :=
  if !installs m msg then { s with handles := closeAll s.handles msg.candidates }
  else
    let previous := s.retained
    let (publication, h) := copyRetainedCatalog copies s.handles msg.candidates
    let h :=
      if m.sleepImageMode = .keepLastScreen then closeAll h (publication.getD [])
      else publishCopy h publication pick
    { s with handles := closeAll h previous, retained := msg.candidates }

/-- The renewal in `cancelScreenOffLocked`. -/
def renewEpoch (s : Holdings) (copies : Copies) (pick : Nat) : Holdings :=
  let (publication, h) := copyRetainedCatalog copies s.handles s.retained
  { s with handles := publishCopy h publication pick }

/-- The change of mode in `refreshSleepImageMode`. -/
def dropCatalog (s : Holdings) : Holdings :=
  { s with handles := closeAll s.handles s.retained, retained := [] }

inductive Action
  | onTransact (d : ProviderCallback)
  | handleProviderCallback (m : Manager) (copies : Copies) (pick : Nat)
  | renewEpoch (copies : Copies) (pick : Nat)
  | dropCatalog

/-- The manager's flags are arbitrary at each step. -/
def step (s : Holdings) : Action → Option Holdings
  | .onTransact d =>
    let (message, h) := SleepImageManager.onTransact s.handles d
    some { s with handles := h, posted := s.posted ++ message.toList }
  | .handleProviderCallback m copies pick =>
    match s.posted with
    | [] => none
    | msg :: posted => some ({ s with posted := posted }.handleProviderCallback m msg copies pick)
  | .renewEpoch copies pick => some (s.renewEpoch copies pick)
  | .dropCatalog => some s.dropCatalog

/-- Nothing is logged: the handles themselves say what has been obtained and closed. -/
def system : System Holdings Action Unit where
  step s a := (s.step a).map fun t => (t, [])

end Holdings

end EinkLab.SleepImageManager
