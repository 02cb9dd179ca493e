import EinkLab.FrontLight.Payload

/-!
# The direct front-light backend

`FrontLightDirectBackend` and `ManualFrontLightControl`.  A request is one call, under the backend's
lock; the operating system's answers during it are its `Sysfs`.  Every `WriteCode` that is reached
is recorded, whether it succeeds or not.  The diagnostics, the audit counters and the log are left
out: no outcome depends on them.
-/

namespace EinkLab.FrontLight

open Text

inductive FrontLightControlOutcome
  | kApplied | kCapped | kOff | kUnavailable | kRejected | kFailed | kFailureLatched
  deriving DecidableEq, Repr

structure ManualFrontLightRequest where
  brightnessPercent : Int
  warmthPercent : Int
  deriving DecidableEq, Repr

def isValidManualFrontLightRequest (request : ManualFrontLightRequest) : Bool :=
  request.brightnessPercent ≥ 0 && request.brightnessPercent ≤ 100 &&
  request.warmthPercent ≥ 0 && request.warmthPercent ≤ 100

/-! ### The operating system -/

abbrev Path := List Char

/-- What `access(path, W_OK)` answers. -/
inductive Access
  | granted | missing | denied
  deriving DecidableEq, Repr

/-- The answers of one request.  A path is asked about twice when it cannot be written. -/
structure Sysfs where
  calibrationFile : Option (List Char)
  access : Path → Access
  accessAgain : Path → Access
  write : Path → List Char → Bool

namespace Sysfs

variable (system : Sysfs)

def canWrite (path : Path) : Bool := !path.isEmpty && system.access path == .granted

def isMissingEndpoint (path : Path) : Bool := !path.isEmpty && system.accessAgain path == .missing

/-- An endpoint that the payload does not name needs no write. -/
def writeCode (path : Path) (code : UInt16) : Bool :=
  path.isEmpty || system.write path (longText code.toNat ++ ['\n'])

end Sysfs

/-! ### The backend -/

structure DirectBackend where
  payload : Option Payload := none
  preflightComplete : Bool := false
  preflightSucceeded : Bool := false
  writesBlocked : Bool := false

/-- The tables of the payload are those that its schema asks for. -/
def Payload.isUsable (payload : Payload) : Bool :=
  if payload.directCodes then isValidFrontLightBrightnessCodes payload.calibration.brightnessCodes
  else isValidFrontLightCalibration payload.calibration

/-- A secondary endpoint after the preflight, or `none` where it cannot be used. -/
def secondaryPreflight (system : Sysfs) (path : Path) : Option Path :=
  if path.isEmpty || system.canWrite path then some path
  else if system.isMissingEndpoint path then some []
  else none

/-- The payload with the endpoints that are there, and whether no failure was noted. -/
def preflight (system : Sysfs) (payload : Payload) : Payload × Bool :=
  let cold := secondaryPreflight system payload.coldSecondaryPath
  let warm := secondaryPreflight system payload.warmSecondaryPath
  ({ payload with coldSecondaryPath := cold.getD payload.coldSecondaryPath,
                  warmSecondaryPath := warm.getD payload.warmSecondaryPath },
   system.canWrite payload.coldPrimaryPath && system.canWrite payload.warmPrimaryPath &&
     cold.isSome && warm.isSome)

/-- A resolution without powers. -/
def DirectFrontLightResolution.resolution (direct : DirectFrontLightResolution) :
    FrontLightResolution where
  coldStep := direct.coldStep
  warmStep := direct.warmStep
  coldDriveStep := direct.coldStep
  warmDriveStep := direct.warmStep
  normalizedColdCode := direct.coldDriveCode
  normalizedWarmCode := direct.warmDriveCode
  coldDriveCode := direct.coldDriveCode
  warmDriveCode := direct.warmDriveCode

/-- What the payload makes of a request. -/
def Payload.resolve (payload : Payload) (request : ManualFrontLightRequest) :
    Option FrontLightResolution :=
  if payload.directCodes then
    (resolveDirectFrontLightPercent payload.calibration.brightnessCodes request.brightnessPercent
      request.warmthPercent).map DirectFrontLightResolution.resolution
  else
    resolveFrontLightPercent payload.calibration request.brightnessPercent request.warmthPercent
      payload.maxPowerMultiple payload.warmPercentage

/-- The disarmed request of `Poll`: both raw codes zero. -/
def Payload.resolveDisarmed (payload : Payload) : Option FrontLightResolution :=
  if payload.directCodes then
    (resolveDirectFrontLightPercent payload.calibration.brightnessCodes 0 0).map
      DirectFrontLightResolution.resolution
  else
    resolveFrontLight payload.calibration
      { coldCode := 0, warmCode := 0
        maxPowerMultiple := payload.maxPowerMultiple, warmPercentage := payload.warmPercentage }

namespace DirectBackend

/-- The payload, read and checked once. -/
def load (system : Sysfs) (backend : DirectBackend) : DirectBackend :=
  match backend.payload with
  | some _ => backend
  | none =>
    match system.calibrationFile.bind parsePayload with
    | none => { backend with preflightComplete := true }
    | some payload =>
      if payload.isUsable then { backend with payload := some payload }
      else { backend with preflightComplete := true }

/-- `Poll`, which never writes: its request is disarmed. -/
def poll (system : Sysfs) (backend : DirectBackend) : Bool × DirectBackend :=
  if backend.preflightComplete && !backend.preflightSucceeded then (false, backend)
  else
    let backend := backend.load system
    match backend.payload with
    | none => (false, backend)
    | some payload =>
      if backend.preflightComplete then
        (backend.preflightSucceeded && payload.resolveDisarmed.isSome, backend)
      else
        let (payload, succeeded) := preflight system payload
        let backend := { backend with payload := some payload, preflightComplete := true,
                                      preflightSucceeded := succeeded }
        (succeeded && payload.resolveDisarmed.isSome, backend)

/-- What a call leaves behind. -/
structure Result where
  outcome : FrontLightControlOutcome
  backend : DirectBackend
  written : List (Path × UInt16)

/-- The endpoints with the codes that are to be written to them: warm before cool. -/
def writes (payload : Payload) (resolution : FrontLightResolution) : List (Path × UInt16) :=
  [(payload.warmPrimaryPath, resolution.warmDriveCode),
   (payload.warmSecondaryPath, resolution.warmDriveCode),
   (payload.coldPrimaryPath, resolution.coldDriveCode),
   (payload.coldSecondaryPath, resolution.coldDriveCode)]

/-- Write one after the other, up to and with the first that fails. -/
def writeAll (system : Sysfs) : List (Path × UInt16) → Bool × List (Path × UInt16)
  | [] => (true, [])
  | (path, code) :: rest =>
    if system.writeCode path code then
      let (succeeded, written) := writeAll system rest
      (succeeded, (path, code) :: written)
    else (false, [(path, code)])

def applyManualRequest (system : Sysfs) (backend : DirectBackend)
    (request : ManualFrontLightRequest) : Result :=
  let (ready, backend) := backend.poll system
  if !ready then ⟨.kUnavailable, backend, []⟩
  else
    match backend.payload with
    | none => ⟨.kUnavailable, backend, []⟩
    | some payload =>
      if !backend.preflightSucceeded || backend.writesBlocked then ⟨.kUnavailable, backend, []⟩
      else
        match payload.resolve request with
        | none => ⟨.kRejected, backend, []⟩
        | some resolution =>
          let (succeeded, written) := writeAll system (writes payload resolution)
          if !succeeded then ⟨.kFailed, { backend with writesBlocked := true }, written⟩
          else if request.brightnessPercent = 0 then ⟨.kOff, backend, written⟩
          else if resolution.capped then ⟨.kCapped, backend, written⟩
          else ⟨.kApplied, backend, written⟩

end DirectBackend

/-! ### The control above it -/

structure ManualFrontLightControl where
  backend : DirectBackend := {}
  failureLatched : Bool := false

namespace ManualFrontLightControl

structure Result where
  outcome : FrontLightControlOutcome
  control : ManualFrontLightControl
  written : List (Path × UInt16)

def apply (system : Sysfs) (control : ManualFrontLightControl)
    (request : ManualFrontLightRequest) : Result :=
  if control.failureLatched then ⟨.kFailureLatched, control, []⟩
  else if !isValidManualFrontLightRequest request then ⟨.kRejected, control, []⟩
  else
    let result := control.backend.applyManualRequest system request
    let control : ManualFrontLightControl :=
      { backend := result.backend, failureLatched := result.outcome == .kFailed }
    -- the backend never answers that a zero request was applied; the control would not believe it
    if request.brightnessPercent = 0 ∧ result.outcome = .kApplied then
      ⟨.kFailed, control, result.written⟩
    else ⟨result.outcome, control, result.written⟩

end ManualFrontLightControl

end EinkLab.FrontLight
