import EinkLab.Transition.Run
import Mathlib.Logic.Function.Basic

/-!
# The front-light manager

`Neo2FrontLightManagerService`: binder threads accept field updates, one handler thread applies
them and drives the physical front-light service.  A binder call increments `latestGeneration` and
then posts a message; the two are separate steps (`submit`, `post`), so that any number of calls can
stand between them.  A handler message is one step, except for `drainOne`, which calls the physical
service in the middle:

    idle --drainOne--> invoking --serviceReturn--> consuming --consume--> idle

The handler's queue is a list of which any element may be handled next; this covers every order in
which the posts of several threads can be delivered.  `latestGeneration` and the epochs do not wrap.
What the environment decides (settings writes that fail, the display state that is read, the answer
of the physical service) are arguments of the actions.
-/

namespace EinkLab

open Transition

namespace FrontLight

/-! ### Constants -/

def RESULT_APPLIED : Int := 0
def RESULT_CAPPED : Int := 1
def RESULT_OFF : Int := 2

/-- Private same-build signal of `submitManualRequest`. -/
def PRESERVE_MANAGER_BRIGHTNESS : Int := -1

def INITIAL_BRIGHTNESS : Int := 50
def INITIAL_WARMTH : Int := 50

def SYSTEM_UID : Int := 1000
def DEFAULT_DISPLAY : Int := 0

def isPercent (value : Int) : Bool := value ≥ 0 && value ≤ 100

def sanitizePercent (value fallback : Int) : Int := if isPercent value then value else fallback

def sanitizeNonzero (value fallback : Int) : Int :=
  if value ≥ 1 ∧ value ≤ 100 then value else fallback

/-! ### Secure settings -/

inductive SettingKey
  | initializationMarker | statePresent | stateEnabled | stateBrightness | stateWarmth
  | stateLastBrightness | stateLastWarmth | userSetupComplete
  deriving DecidableEq, Repr

abbrev SecureSettings := SettingKey → Option Int

def SecureSettings.getInt (s : SecureSettings) (key : SettingKey) (defaultValue : Int) : Int :=
  (s key).getD defaultValue

/-- `putIntForUser`; `puts` says for which keys the write succeeds. -/
def SecureSettings.putInt (s : SecureSettings) (puts : SettingKey → Bool) (key : SettingKey)
    (value : Int) : SecureSettings :=
  if puts key then Function.update s key (some value) else s

/-! ### Requests -/

inductive Kind
  | manual | brightness | off | restore | initialization | warmth
  deriving DecidableEq, Repr

structure Request where
  kind : Kind
  generation : Int
  epoch : Int
  brightness : Int
  warmth : Int
  deriving DecidableEq, Repr

namespace Request

def user (kind : Kind) (generation brightness warmth : Int) : Request :=
  ⟨kind, generation, -1, brightness, warmth⟩

def off (generation epoch : Int) : Request := ⟨.off, generation, epoch, 0, 0⟩

def restore (generation brightness warmth : Int) : Request :=
  ⟨.restore, generation, -1, brightness, warmth⟩

/-- The request turns the light off. -/
def IsOff (r : Request) : Prop := r.brightness = 0 ∧ r.warmth = 0

end Request

/-- Native brightness preserves the manager-owned warmth. -/
def nativeBrightnessRequest (generation brightness acceptedWarmth : Int) : Request :=
  .user .brightness generation brightness acceptedWarmth

/-- Native warmth preserves the manager-owned brightness. -/
def nativeWarmthRequest (generation warmth acceptedBrightness : Int) : Request :=
  .user .warmth generation acceptedBrightness warmth

def selectPhysicalRequest (generation : Int) (kind : Kind)
    (displayOn offCompleted wakeRestorePending enabled : Bool) (brightness warmth epoch : Int) :
    Option Request :=
  if !displayOn && offCompleted then none
  else if !displayOn || wakeRestorePending || !enabled then some (.off generation epoch)
  else some (.user kind generation brightness warmth)

/-! ### The initialization tracker -/

structure InitializationTracker where
  loaded : Bool := false
  attempted : Bool := false
  consumed : Bool := false
  initializationGeneration : Int := -1
  deriving DecidableEq, Repr

namespace InitializationTracker

def loadConsumed (t : InitializationTracker) (consumed : Bool) : InitializationTracker :=
  { t with loaded := true, consumed := consumed }

def begin (t : InitializationTracker) (generation : Int) : Bool × InitializationTracker :=
  if !t.loaded || t.attempted || t.consumed then (false, t)
  else (true, { t with attempted := true, initializationGeneration := generation })

def finishInitialization (t : InitializationTracker) (generation currentGeneration : Int)
    (success : Bool) : Bool × InitializationTracker :=
  if t.consumed || !success || generation ≠ currentGeneration
      || generation ≠ t.initializationGeneration then (false, t)
  else (true, { t with consumed := true })

def finishUserRequest (t : InitializationTracker) (generation currentGeneration : Int)
    (success : Bool) : Bool × InitializationTracker :=
  if t.consumed || !success || generation ≠ currentGeneration then (false, t)
  else (true, { t with consumed := true })

end InitializationTracker

/-! ### Binder calls -/

/-- What an accepted binder call posts, apart from its generation. -/
inductive Update
  | manual (brightness warmth : Int)
  | brightness (brightness : Int)
  | warmth (warmth : Int)
  | enabled (enabled : Bool)
  deriving DecidableEq, Repr

/-- The kind of the request that the update's handler queues. -/
def Update.kind : Update → Kind
  | .manual _ _ => .manual
  | .brightness _ => .brightness
  | .warmth _ => .warmth
  | .enabled _ => .manual

/-- The accepted state of the light, as the handlers of the updates see it. -/
@[ext] structure Desired where
  enabled : Bool
  brightness : Int
  warmth : Int
  deriving DecidableEq, Repr

/-- `updateDesired` on the accepted state. -/
def Desired.update (d : Desired) (brightness warmth : Int) : Desired :=
  if brightness > 0 then ⟨true, brightness, warmth⟩ else { d with enabled := false }

/-- What the handler of an update does to the accepted state. -/
def Update.apply (d : Desired) : Update → Desired
  | .manual b w => d.update b w
  | .brightness b => d.update b d.warmth
  | .warmth w => d.update d.brightness w
  | .enabled on => { d with enabled := on }

inductive BinderCall
  | submitManualRequest (brightnessPercent warmthPercent : Int)
  | submitBrightnessRequest (brightnessPercent : Int)
  | submitWarmthRequest (warmthPercent : Int)
  | setEnabled (enabled : Bool)
  deriving DecidableEq, Repr

/-- What the call posts when it is answered `RESULT_QUEUED`; `none` is `RESULT_REJECTED`. -/
def BinderCall.update? : BinderCall → Option Update
  | .submitManualRequest brightness warmth =>
    if brightness = PRESERVE_MANAGER_BRIGHTNESS then
      if !isPercent warmth then none else some (.warmth warmth)
    else if !isPercent brightness || !isPercent warmth then none
    else some (.manual brightness warmth)
  | .submitBrightnessRequest brightness =>
    if !isPercent brightness then none else some (.brightness brightness)
  | .submitWarmthRequest warmth => if !isPercent warmth then none else some (.warmth warmth)
  | .setEnabled enabled => some (.enabled enabled)

structure Caller where
  uid : Int
  hasControlPermission : Bool
  deriving DecidableEq, Repr

/-- `enforceManagerAccess` returns normally. -/
def enforceManagerAccess (c : Caller) : Bool := c.uid = SYSTEM_UID || c.hasControlPermission

inductive Message
  | loadState
  | setupChanged
  | displayChanged (displayId : Int)
  | update (generation : Int) (update : Update)
  | drainOne
  deriving DecidableEq, Repr

structure PublishedState where
  enabled : Bool
  brightness : Int
  warmth : Int
  deriving DecidableEq, Repr

/-- Where the handler thread stands. -/
inductive HandlerPhase
  | idle
  | invoking (request : Request)
  | consuming (request : Request) (result : Int)
  deriving DecidableEq, Repr

/-- The request whose service call has been made and not been dealt with. -/
def HandlerPhase.request : HandlerPhase → Option Request
  | .idle => none
  | .invoking r => some r
  | .consuming r _ => some r

end FrontLight

open FrontLight in
/-- The service's fields, its handler thread and queue, and the binder calls that have incremented
the generation and not yet posted. -/
structure FrontLightManager where
  latestGeneration : Int := 0
  screenEpoch : Int := 0
  completedOffEpoch : Int := -1
  displayOn : Bool := false
  setupComplete : Bool := false
  stateLoaded : Bool := false
  wakeRestorePending : Bool := false
  drainScheduled : Bool := false
  pending : Option Request := none
  enabled : Bool := true
  desiredBrightness : Int := INITIAL_BRIGHTNESS
  desiredWarmth : Int := INITIAL_WARMTH
  lastBrightness : Int := INITIAL_BRIGHTNESS
  lastWarmth : Int := INITIAL_WARMTH
  publishedState : PublishedState := ⟨true, INITIAL_BRIGHTNESS, INITIAL_WARMTH⟩
  initialization : InitializationTracker := {}
  settings : SecureSettings := fun _ => none
  queue : List Message := []
  handler : HandlerPhase := .idle
  calls : List (Int × Update) := []
  booted : Bool := false

namespace FrontLightManager

open FrontLight

variable (m : FrontLightManager)

/-! ### State and persistence -/

def desired : Desired := ⟨m.enabled, m.desiredBrightness, m.desiredWarmth⟩

def persistState (puts : SettingKey → Bool) : FrontLightManager :=
  { m with
    settings := ((((((m.settings.putInt puts .stateEnabled (if m.enabled then 1 else 0)).putInt
      puts .stateBrightness m.desiredBrightness).putInt
      puts .stateWarmth m.desiredWarmth).putInt
      puts .stateLastBrightness m.lastBrightness).putInt
      puts .stateLastWarmth m.lastWarmth).putInt puts .statePresent 1) }

def publishState : FrontLightManager :=
  { m with
    publishedState :=
      ⟨m.enabled, if m.enabled then m.desiredBrightness else m.lastBrightness,
        if m.enabled then m.desiredWarmth else m.lastWarmth⟩ }

def updateDesired (puts : SettingKey → Bool) (brightness warmth : Int) : FrontLightManager :=
  let m :=
    if brightness > 0 then
      { m with
        enabled := true
        desiredBrightness := brightness
        desiredWarmth := warmth
        lastBrightness := brightness
        lastWarmth := warmth }
    else { m with enabled := false }
  (m.persistState puts).publishState

/-! ### The drain -/

def post (message : Message) : FrontLightManager := { m with queue := m.queue ++ [message] }

def scheduleDrain : FrontLightManager :=
  if m.drainScheduled then m else { m with drainScheduled := true }.post .drainOne

def continueDrain : FrontLightManager :=
  if m.pending.isSome then m.post .drainOne else { m with drainScheduled := false }

def queueDesiredOrOff (generation : Int) (kind : Kind) : FrontLightManager :=
  if !m.stateLoaded || !m.setupComplete then m
  else
    let m := { m with
      pending := selectPhysicalRequest generation kind m.displayOn
        (m.completedOffEpoch = m.screenEpoch) m.wakeRestorePending m.enabled
        m.desiredBrightness m.desiredWarmth m.screenEpoch }
    if m.pending.isNone then m else m.scheduleDrain

def queueDesired : FrontLightManager :=
  let generation := m.latestGeneration + 1
  { m with
    wakeRestorePending := false
    latestGeneration := generation
    pending := some <|
      if m.enabled then .restore generation m.desiredBrightness m.desiredWarmth
      else .off generation m.screenEpoch }.scheduleDrain

/-! ### Field updates -/

def queueManual (puts : SettingKey → Bool) (generation brightness warmth : Int) :
    FrontLightManager :=
  if generation ≠ m.latestGeneration then m
  else (m.updateDesired puts brightness warmth).queueDesiredOrOff generation .manual

def queueBrightness (puts : SettingKey → Bool) (generation brightness : Int) :
    FrontLightManager :=
  if generation ≠ m.latestGeneration then m
  else
    let request := nativeBrightnessRequest generation brightness m.desiredWarmth
    (m.updateDesired puts request.brightness request.warmth).queueDesiredOrOff
      generation .brightness

def queueWarmth (puts : SettingKey → Bool) (generation warmth : Int) : FrontLightManager :=
  if generation ≠ m.latestGeneration then m
  else
    let request := nativeWarmthRequest generation warmth m.desiredBrightness
    (m.updateDesired puts request.brightness request.warmth).queueDesiredOrOff generation .warmth

def queueEnabled (puts : SettingKey → Bool) (generation : Int) (enabled : Bool) :
    FrontLightManager :=
  if generation ≠ m.latestGeneration then m
  else
    (({ m with enabled := enabled }.persistState puts).publishState).queueDesiredOrOff
      generation .manual

/-! The four handlers differ in what they assign and in the kind of the request. -/

/-- The assignment that the handler of an update makes, persists and publishes. -/
def applyUpdate (puts : SettingKey → Bool) : Update → FrontLightManager
  | .manual brightness warmth => m.updateDesired puts brightness warmth
  | .brightness brightness => m.updateDesired puts brightness m.desiredWarmth
  | .warmth warmth => m.updateDesired puts m.desiredBrightness warmth
  | .enabled enabled => ({ m with enabled := enabled }.persistState puts).publishState

/-! ### Lifecycle -/

def handleSetupStateChanged : FrontLightManager :=
  if !m.stateLoaded || m.setupComplete || m.settings.getInt .userSetupComplete 0 = 0 then m
  else
    let generation := m.latestGeneration + 1
    { m with
      setupComplete := true
      latestGeneration := generation
      initialization := (m.initialization.begin generation).2 }.queueDesiredOrOff
        generation .initialization

/-- The fields that `loadState` reads from the settings. -/
def restoreState : FrontLightManager :=
  let get := m.settings.getInt
  if get .statePresent 0 = 0 then m
  else
    let brightness := sanitizeNonzero (get .stateBrightness INITIAL_BRIGHTNESS) INITIAL_BRIGHTNESS
    let warmth := sanitizePercent (get .stateWarmth INITIAL_WARMTH) INITIAL_WARMTH
    { m with
      enabled := get .stateEnabled 1 ≠ 0
      desiredBrightness := brightness
      desiredWarmth := warmth
      lastBrightness := sanitizeNonzero (get .stateLastBrightness brightness) brightness
      lastWarmth := sanitizePercent (get .stateLastWarmth warmth) warmth }

/-- `loadState`; `displayOn` is what `readDisplayOn` returns. -/
def loadState (puts : SettingKey → Bool) (displayOn : Bool) : FrontLightManager :=
  let m := m.restoreState
  let m := { m with
    initialization :=
      m.initialization.loadConsumed (m.settings.getInt .initializationMarker 0 ≠ 0)
    displayOn := displayOn
    stateLoaded := true }
  (m.publishState.persistState puts).handleSetupStateChanged

def handleDisplayOff : FrontLightManager :=
  let generation := m.latestGeneration + 1
  let epoch := m.screenEpoch + 1
  { m with
    displayOn := false
    wakeRestorePending := false
    completedOffEpoch := -1
    screenEpoch := epoch
    latestGeneration := generation
    pending := some (.off generation epoch) }.scheduleDrain

def handleDisplayOn : FrontLightManager :=
  let m := { m with displayOn := true }
  if !m.setupComplete then m
  else if m.completedOffEpoch = m.screenEpoch then m.queueDesired
  else { m with wakeRestorePending := true }

def handleDisplayState (displayOn : Bool) : FrontLightManager :=
  if !m.stateLoaded || displayOn = m.displayOn then m
  else if displayOn then m.handleDisplayOn
  else m.handleDisplayOff

/-! ### Draining a request -/

/-- `drainOne` up to the call of the physical service. -/
def drainOne : FrontLightManager :=
  match m.pending with
  | none => { m with drainScheduled := false }
  | some request =>
    let m := { m with pending := none }
    if request.generation ≠ m.latestGeneration then m.continueDrain
    else { m with handler := .invoking request }

/-- Whether the tracker is consumed by this result, and the tracker afterwards. -/
def finishResult (request : Request) (successful : Bool) : Bool × InitializationTracker :=
  match request.kind with
  | .initialization =>
    m.initialization.finishInitialization request.generation m.latestGeneration successful
  | .manual | .brightness | .warmth =>
    m.initialization.finishUserRequest request.generation m.latestGeneration successful
  | .off | .restore => (false, m.initialization)

def consumeCurrentResult (puts : SettingKey → Bool) (request : Request) (result : Int) :
    FrontLightManager :=
  let successful : Bool :=
    result = RESULT_APPLIED || result = RESULT_CAPPED || result = RESULT_OFF
  let consumed := m.finishResult request successful
  let m := { m with
    initialization := consumed.2
    settings :=
      if consumed.1 then m.settings.putInt puts .initializationMarker 1 else m.settings }
  if request.kind = .off then
    if result = RESULT_OFF then
      let m := { m with completedOffEpoch := request.epoch }
      if m.wakeRestorePending && m.displayOn then m.queueDesired else m
    else { m with wakeRestorePending := false }
  else if successful && request.kind = .initialization then m.persistState puts
  else m

/-- The service call returns; the result is dropped unless the generation is still current. -/
def serviceReturn (request : Request) (result : Int) : FrontLightManager :=
  if request.generation = m.latestGeneration then { m with handler := .consuming request result }
  else { m with handler := .idle }.continueDrain

/-- The rest of `drainOne`, once the result is known to be current. -/
def consume (puts : SettingKey → Bool) (request : Request) (result : Int) : FrontLightManager :=
  ({ m with handler := .idle }.consumeCurrentResult puts request result).continueDrain

/-! ### The manager as a labelled system -/

/-- One handler message. -/
def handle (message : Message) (displayOn : Bool) (puts : SettingKey → Bool) :
    FrontLightManager :=
  match message with
  | .loadState => m.loadState puts displayOn
  | .setupChanged => m.handleSetupStateChanged
  | .displayChanged displayId =>
    if displayId ≠ DEFAULT_DISPLAY then m else m.handleDisplayState displayOn
  | .update generation (.manual brightness warmth) =>
    m.queueManual puts generation brightness warmth
  | .update generation (.brightness brightness) => m.queueBrightness puts generation brightness
  | .update generation (.warmth warmth) => m.queueWarmth puts generation warmth
  | .update generation (.enabled enabled) => m.queueEnabled puts generation enabled
  | .drainOne => m.drainOne

end FrontLightManager

namespace FrontLight

inductive Action
  /-- `onBootPhase` registers the observers and posts `loadState`. -/
  | bootPhase
  /-- Someone writes `USER_SETUP_COMPLETE`. -/
  | writeSetup (value : Int)
  /-- An observer posts to the handler. -/
  | notifySetup
  | notifyDisplay (displayId : Int)
  /-- A binder call runs up to its increment; a refused call changes nothing. -/
  | submit (caller : Caller) (call : BinderCall)
  /-- The `i`-th such call posts its message and is answered `RESULT_QUEUED`. -/
  | post (i : Nat)
  /-- The idle handler takes the `i`-th message; `displayOn` is what `readDisplayOn` returns. -/
  | handle (i : Nat) (displayOn : Bool) (puts : SettingKey → Bool)
  | serviceReturn (result : Int)
  | consume (puts : SettingKey → Bool)

inductive Event
  /-- An accepted update got its generation. -/
  | accepted (generation : Int) (update : Update)
  /-- The physical service was called; `displayOn` is the display state on record. -/
  | sent (request : Request) (displayOn : Bool)
  | answered (request : Request) (result : Int)

open FrontLightManager

def step (m : FrontLightManager) : Action → Option (FrontLightManager × List Event)
  | .bootPhase => if m.booted then none else some ({ m with booted := true }.post .loadState, [])
  | .writeSetup value =>
    some ({ m with settings := Function.update m.settings .userSetupComplete (some value) }, [])
  | .notifySetup => if m.booted then some (m.post .setupChanged, []) else none
  | .notifyDisplay displayId =>
    if m.booted then some (m.post (.displayChanged displayId), []) else none
  | .submit caller call =>
    if !enforceManagerAccess caller then some (m, [])
    else
      match call.update? with
      | none => some (m, [])
      | some update =>
        let generation := m.latestGeneration + 1
        some ({ m with
          latestGeneration := generation
          calls := m.calls ++ [(generation, update)] }, [.accepted generation update])
  | .post i =>
    match m.calls[i]? with
    | none => none
    | some (generation, update) =>
      some ({ m with calls := m.calls.eraseIdx i }.post (.update generation update), [])
  | .handle i displayOn puts =>
    match m.handler, m.queue[i]? with
    | .idle, some message =>
      let m' := { m with queue := m.queue.eraseIdx i }.handle message displayOn puts
      some (m', m'.handler.request.toList.map (.sent · m'.displayOn))
    | _, _ => none
  | .serviceReturn result =>
    match m.handler with
    | .invoking request => some (m.serviceReturn request result, [.answered request result])
    | _ => none
  | .consume puts =>
    match m.handler with
    | .consuming request result => some (m.consume puts request result, [])
    | _ => none

def system : System FrontLightManager Action Event where
  step := step

end FrontLight

end EinkLab
