import EinkLab.Binder.Parcel
import EinkLab.FrontLight.DirectBackend
import EinkLab.LowerEngine.Color
import EinkLab.Pipeline.Basic
import EinkLab.Transition.Run

/-!
# The control endpoint

`ControlBinder`, the service `neo2_frontlight_controls`: the front light, the color treatment of the
panel and the refreshes that a user asks for.  A transaction is a step, under the locks that it
takes; `readCall` is what it makes of its parcel, and `perform` is the call.

The treatments are kept in configuration words: the value is in the lowest bits, and above it stands
how often it has changed, so that a reader of the word notices that.
-/

namespace EinkLab.ControlService

open Binder FrontLight Text

/-! ### Configuration words -/

/-- A word takes a value in the bits of `mask`, and counts that, unless it has it; what
`compare_exchange_weak` comes to. -/
def revise (mask value config : UInt64) : UInt64 :=
  if config &&& mask = value then config else ((config + (mask + 1)) &&& ~~~mask) ||| value

def bit (enabled : Bool) : UInt64 := if enabled then 1 else 0

def getColorQualityEnabled (config : UInt64) : Bool := config &&& 1 ≠ 0

def setColorQualityEnabled (p : EinkDeviceProfile) (enabled : Bool) (config : UInt64) : UInt64 :=
  if !p.hasColorCfa then config else revise 1 (bit enabled) config

def getVividColorEnabled (config : UInt64) : Bool := config &&& 1 ≠ 0

def setVividColorEnabled (p : EinkDeviceProfile) (enabled : Bool) (config : UInt64) : UInt64 :=
  if !p.hasColorCfa then config else revise 1 (bit enabled) config

def isGrayPreference (value : Int) : Bool := value ≥ 0 && value ≤ 2

/-- `static_cast<int>(GetGrayPreference())` -/
def getGrayPreference (config : UInt64) : Int := (config &&& 3).toNat

/-- `SetGrayPreference` of a value that is cast to the preference. -/
def setGrayPreference (p : EinkDeviceProfile) (preference : Int) (config : UInt64) : UInt64 :=
  if !p.hasColorCfa then config
  else if !isGrayPreference preference then config
  else revise 3 (UInt64.ofNat preference.toNat) config

/-! ### The process -/

/-- The front light of the process, its configuration words, and the pipeline of the registered
capture session; `none` is a session that has none, or none that can request a composition, or no
session. -/
structure Controls where
  control : ManualFrontLightControl := {}
  qualityConfig : UInt64 := 0
  vividConfig : UInt64 := 0
  grayConfig : UInt64 := 1
  pipeline : Option Pipeline := none

/-- The answers of the operating system to the front light, and whether the composer accepts the
request for a composition. -/
structure World where
  sysfs : Sysfs
  composition : Bool

def refreshUnavailable : List Char := "refresh unavailable\n".toList

def refreshQueued : List Char := "refresh queued id=".toList

def selectedRefresh (mode : List Char) : DiagnosticRefresh :=
  if mode = "differential".toList then .differential
  else if mode = "full".toList then .full
  else if mode = "white".toList then .whiteThenTarget
  else if mode = "color-clean".toList then .colorCleanup
  else .none

/-- `RenderSurfaceCaptureSession::RequestDiagnosticRefresh`: the receipt, and the pipeline. -/
def requestDiagnosticRefresh (c : Pipeline.Settings) (world : World) (pipeline : Option Pipeline)
    (mode : List Char) : List Char × Option Pipeline :=
  match pipeline with
  | none => (refreshUnavailable, none)
  | some s =>
    if mode = "status".toList then
      ("refresh requested=".toList ++ longText s.refreshRequested ++
        " submitted=".toList ++ longText s.refreshSubmitted ++
        " failed=".toList ++ longText s.refreshFailed ++
        " cancelled=".toList ++ longText s.refreshCancelled ++
          " completion=unknown\n".toList, some s)
    else if selectedRefresh mode = .none then
      (("refresh modes: differential full white color-clean status quality-on quality-off " ++
        "quality-status\n").toList, some s)
    else
      let (id, s) := s.requestDiagnosticRefresh c (selectedRefresh mode)
      if id = 0 then
        ("refresh rejected: unavailable, asleep, disabled, or pending\n".toList, some s)
      else if !world.composition then
        ("refresh rejected: composition request failed\n".toList,
          some (s.cancelDiagnosticRefresh id))
      else (refreshQueued ++ longText id ++ " mode=".toList ++ mode ++ "\n".toList, some s)

namespace Controls

/-- A refresh that is asked for, and its receipt. -/
def refresh (c : Pipeline.Settings) (world : World) (s : Controls) (mode : List Char) :
    List Char × Controls :=
  let (receipt, pipeline) := requestDiagnosticRefresh c world s.pipeline mode
  (receipt, { s with pipeline })

/-- `ConfigureNeo2EinkColorQuality`; `-1` only asks. -/
def configureColorQuality (p : EinkDeviceProfile) (s : Controls) (enabled : Int) : Int × Controls :=
  if !p.hasColorCfa then (-1, s)
  else
    let s := if enabled = 0 ∨ enabled = 1 then
      { s with qualityConfig := setColorQualityEnabled p (enabled = 1) s.qualityConfig } else s
    (if getColorQualityEnabled s.qualityConfig then 1 else 0, s)

structure GrayPreferenceResult where
  mode : Int := -1
  redrawQueued : Bool := false
  deriving DecidableEq, Repr

/-- `ConfigureNeo2EinkGrayPreference` -/
def configureGrayPreference (c : Pipeline.Settings) (world : World) (s : Controls)
    (requested : Int) :
    GrayPreferenceResult × Controls :=
  if !c.profile.hasColorCfa then ({}, s)
  else if requested ≠ -1 ∧ !isGrayPreference requested then ({}, s)
  else
    let previous := getGrayPreference s.grayConfig
    if requested = -1 ∨ requested = previous then (⟨previous, false⟩, s)
    else
      let s := { s with grayConfig := setGrayPreference c.profile requested s.grayConfig }
      let (receipt, s) := s.refresh c world "differential".toList
      (⟨requested, refreshQueued.isPrefixOf receipt⟩, s)

/-- `ConfigureNeo2EinkVividColor` -/
def configureVividColor (c : Pipeline.Settings) (world : World) (s : Controls) (requested : Int) :
    GrayPreferenceResult × Controls :=
  if !c.profile.hasColorCfa then ({}, s)
  else if requested ≠ -1 ∧ (requested < 0 ∨ requested > 1) then ({}, s)
  else
    let previous : Int := if getVividColorEnabled s.vividConfig then 1 else 0
    if requested = -1 ∨ requested = previous then (⟨previous, false⟩, s)
    else
      let s := { s with
        vividConfig := setVividColorEnabled c.profile (requested = 1) s.vividConfig }
      let (receipt, s) := s.refresh c world "full".toList
      (⟨requested, refreshQueued.isPrefixOf receipt⟩, s)

end Controls

/-! ### Transactions -/

def kDescriptor : String := "org.neo2.controls.IFrontLightControl"

/-- A caller, and the permissions that it has. -/
structure Caller where
  uid : Nat
  refreshDisplay : Bool
  controlFrontlight : Bool
  deriving DecidableEq, Repr

inductive Status
  | ok | permissionDenied | badValue
  deriving DecidableEq, Repr

/-- What a transaction asks of the process. -/
inductive Call
  | frontLight (request : ManualFrontLightRequest)
  | fullRefresh
  | colorQuality (enabled : Int)
  | colorCleanup
  | grayPreference (requested : Int)
  | fullWaveformRefresh
  | vividColor (requested : Int)
  deriving DecidableEq, Repr

variable {D : Type} (api : Parcels D)

/-- The checks of `onTransact`, and what it reads. -/
def readCall (caller : Caller) (code : Nat) (data : api.Parcel) (reply : Bool) :
    Except Status Call :=
  let (isInterface, data) := api.checkInterface data kDescriptor
  if (code = FIRST_CALL_TRANSACTION + 2 || code = FIRST_CALL_TRANSACTION + 3 ||
      code = FIRST_CALL_TRANSACTION + 4 || code = FIRST_CALL_TRANSACTION + 6) && reply then
    if !caller.refreshDisplay || !isInterface then .error .permissionDenied
    else if code = FIRST_CALL_TRANSACTION + 2 then
      let (enabled, data) := api.readInt32 data
      if !api.sound data || api.dataAvail data ≠ 0 || enabled < -1 || enabled > 1 then
        .error .badValue
      else .ok (.colorQuality enabled)
    else if code = FIRST_CALL_TRANSACTION + 4 || code = FIRST_CALL_TRANSACTION + 6 then
      let vivid : Bool := code = FIRST_CALL_TRANSACTION + 6
      let (requested, data) := api.readInt32 data
      if !api.sound data || api.dataAvail data ≠ 0 || requested < -1 ||
          requested > (if vivid then 1 else 2) then .error .badValue
      else .ok (if vivid then .vividColor requested else .grayPreference requested)
    else if api.dataAvail data ≠ 0 then .error .badValue
    else .ok .colorCleanup
  else if (code = FIRST_CALL_TRANSACTION + 1 || code = FIRST_CALL_TRANSACTION + 5) && reply then
    if !caller.refreshDisplay || !isInterface || api.dataAvail data ≠ 0 then
      .error .permissionDenied
    else .ok (if code = FIRST_CALL_TRANSACTION + 5 then .fullWaveformRefresh else .fullRefresh)
  else if code ≠ FIRST_CALL_TRANSACTION || !reply ||
      (caller.uid ≠ AID_SYSTEM && !caller.controlFrontlight) then .error .permissionDenied
  else if !isInterface then .error .permissionDenied
  else
    let (brightness, data) := api.readInt32 data
    let (warmth, data) := api.readInt32 data
    if !api.sound data then .error .badValue
    else .ok (.frontLight ⟨brightness, warmth⟩)

/-- `static_cast<std::int32_t>(outcome)` -/
def outcomeCode : FrontLightControlOutcome → Int
  | .kApplied => 0
  | .kCapped => 1
  | .kOff => 2
  | .kUnavailable => 3
  | .kRejected => 4
  | .kFailed => 5
  | .kFailureLatched => 6

/-- What a call writes to the reply, the process after it, the codes that it has tried to write to
the light, and those of them that the operating system has not taken. -/
structure Performed (D : Type) where
  reply : List (Item D)
  controls : Controls
  written : List (Path × UInt16) := []
  refused : List (Path × UInt16) := []

def modeItems (result : Controls.GrayPreferenceResult) : List (Item D) :=
  [.noException, .int32 result.mode, .int32 (if result.redrawQueued then 1 else 0)]

def receiptItems (receipt : List Char) : List (Item D) := [.noException, .string16 receipt]

def perform (c : Pipeline.Settings) (world : World) (s : Controls) : Call → Performed D
  | .frontLight request =>
    let result := s.control.apply world.sysfs request
    { reply := [.noException, .int32 (outcomeCode result.outcome)]
      controls := { s with control := result.control }
      written := result.written
      refused := result.written.filter fun w => !world.sysfs.writeCode w.1 w.2 }
  | .fullRefresh =>
    let (receipt, s) := s.refresh c world "white".toList
    { reply := receiptItems receipt, controls := s }
  | .colorQuality enabled =>
    let (state, s) := s.configureColorQuality c.profile enabled
    { reply := [.noException, .int32 state], controls := s }
  | .colorCleanup =>
    let (receipt, s) := s.refresh c world "color-clean".toList
    { reply := receiptItems receipt, controls := s }
  | .grayPreference requested =>
    let (result, s) := s.configureGrayPreference c world requested
    { reply := modeItems result, controls := s }
  | .fullWaveformRefresh =>
    let (receipt, s) := s.refresh c world "full".toList
    { reply := receiptItems receipt, controls := s }
  | .vividColor requested =>
    let (result, s) := s.configureVividColor c world requested
    { reply := modeItems result, controls := s }

/-- A call that was performed, for whom, and what it has done. -/
structure Served (D : Type) where
  caller : Caller
  call : Call
  reply : List (Item D)
  written : List (Path × UInt16)
  refused : List (Path × UInt16)

/-- A transaction: its status, the process after it, and the call that it has made. -/
structure Answer (D : Type) where
  status : Status
  controls : Controls
  served : Option (Served D) := none

def Answer.reply (answer : Answer D) : List (Item D) := answer.served.elim [] Served.reply

def Answer.written (answer : Answer D) : List (Path × UInt16) :=
    answer.served.elim [] Served.written

def onTransact (c : Pipeline.Settings) (world : World) (caller : Caller) (code : Nat)
    (data : api.Parcel) (reply : Bool) (s : Controls) : Answer D :=
  match readCall api caller code data reply with
  | .error status => { status, controls := s }
  | .ok call =>
    let performed : Performed D := perform c world s call
    { status := .ok, controls := performed.controls
      served := some ⟨caller, call, performed.reply, performed.written, performed.refused⟩ }

/-! ### The process over time -/

inductive Action (P : Type)
  | onTransact (world : World) (caller : Caller) (code : Nat) (data : P) (reply : Bool)
  /-- The capture session has gone on. -/
  | session (pipeline : Option Pipeline)

def step (c : Pipeline.Settings) (s : Controls) :
    Action api.Parcel → Option (Controls × List (Served D))
  | .onTransact world caller code data reply =>
    let answer := onTransact api c world caller code data reply s
    some (answer.controls, answer.served.toList)
  | .session pipeline => some ({ s with pipeline }, [])

def system (c : Pipeline.Settings) :
    Transition.System Controls (Action api.Parcel) (Served D) where
  step := step api c

end EinkLab.ControlService
