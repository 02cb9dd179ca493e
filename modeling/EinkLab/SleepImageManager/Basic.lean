import EinkLab.SleepImageManager.Native
import EinkLab.Transition.Run

/-!
# The sleep-image manager

`Neo2SleepImageManagerService` (`aura/frameworks/base.patch`) with the native side it calls.

The manager's state is guarded by `mStateLock`, so every method body is one step.  Provider work
and display observations run on one handler thread; after a wake, `observeDefaultDisplayState`
leaves the lock and then calls `requestRetainedCatalog`, which is why the two are separate steps
(`wakeRequest`), with the handler occupied in between.  `begin`, `cancel` and the control service
are called on binder threads at any time.

A call to the native side is a `Link`: whether it is executed, whether its reply is read, and the
native conditions it meets.  The provider answers with any callback at any time, and a delayed
timeout may run at any time.  `restart` is a restart of the framework process: the manager is new,
the native side is not.

Left out: counters, logging, and the file descriptors of the candidates; `PowerOff` has the
power-off guard.
-/

namespace EinkLab.SleepImageManager

open Transition

/-! ### Settings, candidates, results -/

inductive SleepImageMode
  | keepLastScreen | sleepImage | overlaySleepImage | koreaderCover
  deriving DecidableEq, Repr

/-- The setting's value; an invalid one counts as `MODE_SLEEP_IMAGE`. -/
def SleepImageMode.ofSetting (mode : Int) : SleepImageMode :=
  if mode = 0 then .keepLastScreen
  else if mode = 2 then .overlaySleepImage
  else if mode = 3 then .koreaderCover
  else .sleepImage

inductive Result
  | ok | unavailable | empty
  deriving DecidableEq, Repr

structure Candidate where
  width : Int
  height : Int
  fallback : Bool
  eligible : Bool
  deriving DecidableEq, Repr

/-- `validCandidateMetadata`: one geometry, exactly one fallback, something eligible. -/
def validCandidateMetadata (candidates : List Candidate) : Bool :=
  (candidates.all fun c => candidates.all fun d => c.width = d.width && c.height = d.height) &&
    candidates.countP (·.fallback) = 1 && candidates.countP (·.eligible) > 0

def MAXIMUM_ENTRIES : Nat := 8

/-- What the provider's binder thread posts as a valid callback. -/
def validProviderResult (result : Result) (candidates : List Candidate) : Bool :=
  match result with
  | .ok => candidates ≠ [] && candidates.length ≤ MAXIMUM_ENTRIES &&
      validCandidateMetadata candidates
  | _ => candidates = []

/-- `selectCandidateIndex`; `pick` is what `mRandom` draws. -/
def selectCandidateIndex (catalog : List Candidate) (pick : Nat) : Option Nat :=
  let eligible := catalog.findIdxs (·.eligible)
  match eligible[pick % eligible.length]? with
  | some index => some index
  | none => (catalog.findIdxs (·.fallback)).getLast?

def MAXIMUM_REQUESTS_PER_CONNECTION : Nat := 2

/-- `Display.STATE_OFF`; `DISPLAY_STATE_UNINITIALIZED`. -/
def STATE_OFF : Int := 1
def DISPLAY_STATE_UNINITIALIZED : Int := -1

/-! ### States -/

structure Manager where
  /-- `mProvider` is not null. -/
  provider : Bool := false
  /-- `mProviderUid` is not negative. -/
  providerUid : Bool := false
  epoch : Nat := 0
  requestGeneration : Nat := 0
  defaultDisplayState : Int := DISPLAY_STATE_UNINITIALIZED
  screenOff : Bool := false
  sleepImageMode : SleepImageMode := .sleepImage
  sleepPresentationRequested : Bool := false
  userAvailable : Bool := false
  requestInFlight : Bool := false
  requestsThisConnection : Nat := 0
  pendingStoreGeneration : Int := 0
  /-- The pending callback, by the number of the refresh that brought it. -/
  pendingRefreshCallback : Option Nat := none
  retainedCatalog : List Candidate := []
  /-- Armed `handleRequestTimeout` messages, by generation. -/
  timeouts : List Nat := []
  /-- The handler thread is between `handleScreenOnLocked` and `requestRetainedCatalog`. -/
  wakeRequest : Bool := false
  /-- How many refreshes have been accepted. -/
  refreshes : Nat := 0
  deriving DecidableEq, Repr

structure World where
  manager : Manager := {}
  native : Native := {}
  deriving DecidableEq, Repr

/-- One call to the native side. -/
structure Link where
  delivered : Bool := true
  replied : Bool := true
  conditions : NativeConditions := {}
  deriving DecidableEq, Repr

/-- The call is executed and its result returned. -/
def Link.Reliable (link : Link) : Prop := link.delivered = true ∧ link.replied = true

instance (link : Link) : Decidable link.Reliable := inferInstanceAs (Decidable (_ ∧ _))

/-- Why a `SCREEN_ON` is sent. -/
inductive Cause
  | keepLast | wake | cancelled
  deriving DecidableEq, Repr

inductive Event
  /-- A `SCREEN_OFF`: its epoch, whether a catalog was retained, the native latch it found, and the
  native result if it was executed. -/
  | screenOff (epoch : Nat) (retained : Bool) (before : SleepImageLatch)
      (result : Option SleepImagePresentationResult)
  /-- A `SCREEN_ON`, and the native result if it was executed. -/
  | screenOn (cause : Cause) (epoch : Nat) (result : Option SleepImageDisarmResult)
  /-- A catalog publication under a new epoch: the call, the epoch the native session remembered,
  and whether it accepted. -/
  | published (epoch : Nat) (link : Link) (remembered : Nat) (accepted : Bool)
  /-- A provider request was sent and its timeout armed. -/
  | requested (generation : Nat)
  /-- A refresh was accepted. -/
  | accepted (refresh : Nat)
  /-- `finishRefreshLocked` notified the callback of a refresh. -/
  | notified (refresh : Nat) (result : Result)
  /-- The framework restarted, with this epoch active in the native latch. -/
  | restarted (activeEpoch : Nat)
  deriving DecidableEq, Repr

namespace World

/-! ### Calls to the native side -/

/-- `sendEpoch(SF_SCREEN_OFF, epoch)`: what the manager learns, and what happens. -/
def sendScreenOff (w : World) (link : Link) : Bool × World × List Event :=
  let m := w.manager
  let retained := m.retainedCatalog ≠ []
  if link.delivered then
    let (result, native) := w.native.presentSleepImage m.epoch link.conditions
    (link.replied && result = .accepted, { w with native := native },
      [.screenOff m.epoch retained w.native.latch (some result)])
  else (false, w, [.screenOff m.epoch retained w.native.latch none])

/-- `sendEpoch(SF_SCREEN_ON, epoch)`. -/
def sendScreenOn (w : World) (cause : Cause) (link : Link) : World × List Event :=
  let m := w.manager
  if link.delivered then
    let (result, native) := w.native.disarmSleepCycle m.epoch
    ({ w with native := native }, [.screenOn cause m.epoch (some result)])
  else (w, [.screenOn cause m.epoch none])

/-- `sendCatalog(++mEpoch, ..)`. -/
def sendCatalog (w : World) (link : Link) : World × List Event :=
  let epoch := w.manager.epoch + 1
  let w := { w with manager := { w.manager with epoch := epoch } }
  if link.delivered then
    let (accepted, native) := w.native.publishSleepImageCatalog epoch link.conditions
    ({ w with native := native }, [.published epoch link w.native.catalogEpoch accepted])
  else (w, [.published epoch link w.native.catalogEpoch false])

/-- The copy of the retained catalog, if its descriptors can be duplicated, is published under a
new epoch when a candidate can be selected from it. -/
def publishRetained (w : World) (copied : Bool) (pick : Nat) (link : Link) : World × List Event :=
  if copied && w.manager.retainedCatalog ≠ [] &&
      (selectCandidateIndex w.manager.retainedCatalog pick).isSome then w.sendCatalog link
  else (w, [])

/-! ### Refresh results and provider requests -/

/-- `finishRefreshLocked`. -/
def finishRefresh (w : World) (result : Result) : World × List Event :=
  let callback := w.manager.pendingRefreshCallback
  ({ w with
    manager := { w.manager with pendingRefreshCallback := none, pendingStoreGeneration := 0 } },
    match callback with
    | none => []
    | some refresh => [.notified refresh result])

/-- The guard of `requestRetainedCatalog`. -/
def canRequest (m : Manager) : Bool :=
  !m.screenOff && m.userAvailable && m.provider && m.providerUid && !m.requestInFlight &&
    m.requestsThisConnection < MAXIMUM_REQUESTS_PER_CONNECTION

/-- `requestRetainedCatalog`; `transacted` says that the one-way transaction succeeds. -/
def requestRetainedCatalog (w : World) (transacted : Bool) : World × List Event :=
  if !canRequest w.manager then (w, [])
  else
    let generation := w.manager.requestGeneration + 1
    let m := { w.manager with
      requestGeneration := generation
      requestsThisConnection := w.manager.requestsThisConnection + 1 }
    if transacted then
      ({ w with
        manager := { m with requestInFlight := true, timeouts := generation :: m.timeouts } },
        [.requested generation])
    else { w with manager := { m with requestInFlight := false } }.finishRefresh .unavailable

/-- The request state is dropped: a new generation, nothing in flight, a new budget. -/
def dropRequest (m : Manager) : Manager :=
  { m with
    requestGeneration := m.requestGeneration + 1
    requestInFlight := false
    requestsThisConnection := 0 }

/-! ### Screen edges -/

/-- `beginScreenOffLocked` -/
def beginScreenOff (w : World) (link : Link) : World × List Event :=
  if w.manager.screenOff then (w, [])
  else
    let w := { w with
      manager := { w.manager with screenOff := true, sleepPresentationRequested := false } }
    if w.manager.sleepImageMode ≠ .keepLastScreen then
      let (sent, w, events) := w.sendScreenOff link
      ({ w with manager := { w.manager with sleepPresentationRequested := sent } }, events)
    else w.sendScreenOn .keepLast link

/-- The `SCREEN_ON` of a wake or a cancel, which only follows a requested presentation. -/
def endPresentation (w : World) (cause : Cause) (link : Link) : World × List Event :=
  let (w, events) :=
    if w.manager.sleepPresentationRequested then w.sendScreenOn cause link else (w, [])
  ({ w with
    manager := { w.manager with sleepPresentationRequested := false, screenOff := false } }, events)

/-- `cancelScreenOffLocked` -/
def cancelScreenOff (w : World) (epochLink catalogLink : Link) (copied : Bool) (pick : Nat) :
    World × List Event :=
  if !w.manager.screenOff then (w, [])
  else
    let renewEpoch := w.manager.sleepPresentationRequested
    let (w, events) := w.endPresentation .cancelled epochLink
    if renewEpoch then
      let (w, published) := w.publishRetained copied pick catalogLink
      (w, events ++ published)
    else (w, events)

/-- `handleScreenOnLocked`; the handler goes on to `requestRetainedCatalog`. -/
def handleScreenOn (w : World) (link : Link) : World × List Event :=
  if !w.manager.screenOff then (w, [])
  else
    let (w, events) := w.endPresentation .wake link
    ({ w with manager := { dropRequest w.manager with wakeRequest := true } }, events)

/-- `observeDefaultDisplayState`, up to the end of the lock. -/
def observeDefaultDisplayState (w : World) (state : Int) (link : Link) : World × List Event :=
  let previous := w.manager.defaultDisplayState
  if previous = state then (w, [])
  else
    let w := { w with manager := { w.manager with defaultDisplayState := state } }
    if previous = DISPLAY_STATE_UNINITIALIZED then (w, [])
    else if previous ≠ STATE_OFF ∧ state = STATE_OFF then
      -- `reconcileScreenOffLocked` never arms
      ({ w with manager := { w.manager with screenOff := true } }, [])
    else if previous = STATE_OFF ∧ state ≠ STATE_OFF then w.handleScreenOn link
    else (w, [])

/-! ### The provider and the control service -/

def serviceConnected (w : World) (uidResolved transacted : Bool) : World × List Event :=
  { w with
    manager := { w.manager with
      provider := true, providerUid := uidResolved, requestsThisConnection := 0 } }
    |>.requestRetainedCatalog transacted

def serviceDisconnected (w : World) : World × List Event :=
  { w with manager := { dropRequest w.manager with provider := false, providerUid := false } }
    |>.finishRefresh .unavailable

def refreshSleepImageMode (w : World) (mode : SleepImageMode) (transacted : Bool) :
    World × List Event :=
  if mode = w.manager.sleepImageMode then (w, [])
  else
    let w := { w with
      manager := { dropRequest w.manager with sleepImageMode := mode, retainedCatalog := [] } }
    if !w.manager.screenOff && mode ≠ .keepLastScreen then w.requestRetainedCatalog transacted
    else (w, [])

/-- `CONTROL_REFRESH_CATALOG` with a callback; a store generation below `1` is an exception. -/
def refreshCatalog (w : World) (storeGeneration : Int) (transacted : Bool) : World × List Event :=
  let m := w.manager
  if storeGeneration ≤ 0 then (w, [])
  else if m.screenOff || !m.userAvailable || !m.provider || !m.providerUid then (w, [])
  else
    let (w, finished) := w.finishRefresh .unavailable
    let refresh := w.manager.refreshes + 1
    let m := dropRequest { w.manager with
      pendingStoreGeneration := storeGeneration
      pendingRefreshCallback := some refresh
      refreshes := refresh }
    let (w, requested) := { w with manager := m }.requestRetainedCatalog transacted
    (w, finished ++ .accepted refresh :: requested)

/-- `handleRequestTimeout`; the message leaves the handler's queue. -/
def handleRequestTimeout (w : World) (generation : Nat) (transacted : Bool) : World × List Event :=
  let w := { w with
    manager := { w.manager with timeouts := w.manager.timeouts.erase generation } }
  if !w.manager.requestInFlight || generation ≠ w.manager.requestGeneration then (w, [])
  else
    let w := { w with manager := { w.manager with requestInFlight := false } }
    let (w, requested) :=
      if !w.manager.screenOff then w.requestRetainedCatalog transacted else (w, [])
    if w.manager.screenOff || (!w.manager.requestInFlight &&
        w.manager.requestsThisConnection ≥ MAXIMUM_REQUESTS_PER_CONNECTION) then
      let (w, finished) := w.finishRefresh .unavailable
      (w, requested ++ finished)
    else (w, requested)

/-- `handleProviderCallback` for a callback that could not be read. -/
def handleInvalidCallback (w : World) (generation : Nat) : World × List Event :=
  if generation = 0 || generation = w.manager.requestGeneration then
    { w with manager := { w.manager with requestInFlight := false } }.finishRefresh .unavailable
  else (w, [])

/-- A valid callback of the current generation installs its catalog and publishes it. -/
def installCatalog (w : World) (candidates : List Candidate) (copied : Bool) (pick : Nat)
    (link : Link) : World × List Event :=
  let w := { w with manager := { w.manager with retainedCatalog := candidates } }
  if w.manager.sleepImageMode = .keepLastScreen then (w, [])
  else w.publishRetained copied pick link

/-- `handleProviderCallback` for a valid callback. -/
def handleProviderCallback (w : World) (generation : Nat) (storeGeneration : Int) (result : Result)
    (candidates : List Candidate) (copied : Bool) (pick : Nat) (link : Link) :
    World × List Event :=
  if generation ≠ w.manager.requestGeneration then (w, [])
  else
    let w := { w with manager := { w.manager with requestInFlight := false } }
    let m := w.manager
    if m.screenOff then w.finishRefresh .unavailable
    else if m.pendingRefreshCallback.isSome &&
        (result ≠ .ok || storeGeneration ≠ m.pendingStoreGeneration) then
      w.finishRefresh .unavailable
    else if result = .ok then
      let (w, published) := w.installCatalog candidates copied pick link
      if storeGeneration = m.pendingStoreGeneration then
        let (w, finished) := w.finishRefresh .ok
        (w, published ++ finished)
      else (w, published)
    else (w, [])

end World

/-! ### The system -/

inductive Action
  | userUnlocked
  | serviceConnected (uidResolved transacted : Bool)
  | serviceDisconnected
  | observeDefaultDisplayState (state : Int) (link : Link)
  | wakeRequest (transacted : Bool)
  | beginDefaultDisplayOff (link : Link)
  | cancelDefaultDisplayOff (epochLink catalogLink : Link) (copied : Bool) (pick : Nat)
  | refreshSleepImageMode (setting : Int) (transacted : Bool)
  | refreshCatalog (storeGeneration : Int) (transacted : Bool)
  | requestTimeout (generation : Nat) (transacted : Bool)
  | providerCallback (generation : Nat) (storeGeneration : Int) (result : Result)
      (candidates : List Candidate) (copied : Bool) (pick : Nat) (link : Link)
  | invalidCallback (generation : Nat)
  /-- The native side on its own: the pipeline is set up, the worker evaluates a frame. -/
  | maybeStartM3
  | evaluate (frame : ConvertedFrame OwnedGrayscaleBuffer)
      (selector : Option (Selector OwnedGrayscaleBuffer))
  | restart

namespace World

/-- A message of the handler thread, which is free. -/
def onHandler (w : World) (r : World × List Event) : Option (World × List Event) :=
  if w.manager.wakeRequest then none else some r

def step (w : World) : Action → Option (World × List Event)
  | .userUnlocked =>
    w.onHandler ({ w with manager := { w.manager with userAvailable := true } }, [])
  | .serviceConnected uidResolved transacted =>
    w.onHandler (w.serviceConnected uidResolved transacted)
  | .serviceDisconnected => w.onHandler w.serviceDisconnected
  | .observeDefaultDisplayState state link =>
    w.onHandler (w.observeDefaultDisplayState state link)
  | .wakeRequest transacted =>
    if w.manager.wakeRequest then
      some ({ w with manager := { w.manager with wakeRequest := false } }
        |>.requestRetainedCatalog transacted)
    else none
  | .beginDefaultDisplayOff link => some (w.beginScreenOff link)
  | .cancelDefaultDisplayOff epochLink catalogLink copied pick =>
    some (w.cancelScreenOff epochLink catalogLink copied pick)
  | .refreshSleepImageMode setting transacted =>
    -- the boot phase calls it on another thread than the handler
    some (w.refreshSleepImageMode (.ofSetting setting) transacted)
  | .refreshCatalog storeGeneration transacted =>
    some (w.refreshCatalog storeGeneration transacted)
  | .requestTimeout generation transacted =>
    if generation ∈ w.manager.timeouts then
      w.onHandler (w.handleRequestTimeout generation transacted)
    else none
  | .providerCallback generation storeGeneration result candidates copied pick link =>
    if 0 < generation ∧ 0 < storeGeneration ∧ validProviderResult result candidates = true then
      w.onHandler
        (w.handleProviderCallback generation storeGeneration result candidates copied pick link)
    else none
  | .invalidCallback generation => w.onHandler (w.handleInvalidCallback generation)
  | .maybeStartM3 => some ({ w with native := w.native.maybeStartM3 }, [])
  | .evaluate frame selector => some ({ w with native := w.native.evaluate frame selector }, [])
  | .restart => some ({ w with manager := {} }, [.restarted w.native.latch.activeEpoch])

end World

def system : System World Action Event where
  step := World.step

end EinkLab.SleepImageManager
