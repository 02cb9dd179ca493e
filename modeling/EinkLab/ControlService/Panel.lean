import EinkLab.ControlService.Basic
import EinkLab.LowerEngine.Backend

/-!
# The treatments of the panel

The lower engine and the control endpoint run in one process.  `LowerEngineDirectBackend::Submit`
loads the three configuration words while transactions change them, each in one atomic step; so here
a `Submit` goes on call by call, and any number of transactions may come between two of its calls.
A transaction about the gray preference or vivid color holds the lock of the registered session; one
about color quality holds none, and others may come between its change and the load that it answers
with.

The shell command `--neo2-eink-refresh quality-on` (and `quality-off`), which
`RequestNeo2EinkDiagnosticRefresh` serves on builds with `ro.debuggable` only, sets the color
quality past the endpoint.  It is not among the actions: what is said here is about builds that are
not debuggable.
-/

namespace EinkLab.ControlService

open Binder LowerEngine Transition

/-- What a caller can choose about the colors of the panel. -/
inductive Treatment
  | quality | gray | vivid
  deriving DecidableEq, Repr

namespace Treatment

/-- The configuration word of a treatment. -/
def word (s : Controls) : Treatment → UInt64
  | quality => s.qualityConfig
  | gray => s.grayConfig
  | vivid => s.vividConfig

/-- The word as a `Submit` has loaded it. -/
def loaded (config : Configuration) : Treatment → UInt64
  | quality => config.quality
  | gray => config.gray
  | vivid => config.vivid

/-- The load of the word. -/
def load (config : Configuration) : Treatment → VendorEvent
  | quality => ⟨.qualityConfig, config.quality⟩
  | gray => ⟨.grayConfig, config.gray⟩
  | vivid => ⟨.vividConfig, config.vivid⟩

/-- The value that a word holds. -/
def value (w : UInt64) : Treatment → Int
  | quality => if getColorQualityEnabled w then 1 else 0
  | gray => getGrayPreference w
  | vivid => if getVividColorEnabled w then 1 else 0

/-- The largest value. -/
def limit : Treatment → Int
  | gray => 2
  | _ => 1

/-- The treatment that a call is about, and the value that it asks for; `-1` only asks. -/
def asked : Call → Option (Treatment × Int)
  | .colorQuality enabled => some (quality, enabled)
  | .grayPreference requested => some (gray, requested)
  | .vividColor requested => some (vivid, requested)
  | _ => none

end Treatment

/-- What a reply tells about a treatment. -/
def Served.told {D : Type} (e : Served D) : Option (Treatment × Int) :=
  (Treatment.asked e.call).bind fun ask =>
    match e.reply with
    | .noException :: .int32 value :: _ => some (ask.1, value)
    | _ => none

/-! ### The process -/

/-- A `Submit` on its way: its frame, the calls that were answered, and what is left of it. -/
structure Running where
  frame : Frame
  calls : List VendorEvent := []
  rest : Program VendorCall VendorAnswer (Option Unit × Backend)

/-- The control endpoint, the lower engine as the last `Submit` left it, the `Submit` on its way,
and the transactions about color quality that have made their change and not loaded the answer. -/
structure Panel where
  controls : Controls := {}
  backend : Backend := {}
  running : Option Running := none
  asking : List (Caller × Int) := []

namespace Panel

variable {D : Type} (api : Parcels D)

inductive Action (P : Type)
  /-- What the endpoint does; of a transaction about color quality the change. -/
  | control (action : ControlService.Action P)
  /-- A transaction about color quality answers. -/
  | tellQuality (index : Nat)
  /-- The adapter's worker calls `Submit`. -/
  | submit (frame : Frame)
  /-- The next call of the `Submit` returns. -/
  | call (answered : VendorEvent)

inductive Event (D : Type)
  | turned (caller : Caller) (enabled : Int)
  | served (e : Served D)
  | called (e : VendorEvent)
  | submitted (x : Submitted)

/-- It is about a transaction. -/
def Event.isTransaction {D : Type} : Event D → Bool
  | .turned _ _ => true
  | .served _ => true
  | _ => false

/-- A transaction about color quality. -/
def qualityCall : ControlService.Action api.Parcel → Option (Caller × Int)
  | .session _ => none
  | .onTransact _ caller code data reply =>
    match readCall api caller code data reply with
    | .ok (.colorQuality enabled) => some (caller, enabled)
    | _ => none

/-- A load gets the word as it is; all else is up to the environment. -/
def answers (s : Controls) : VendorEvent → Bool
  | ⟨.qualityConfig, w⟩ => w == s.qualityConfig
  | ⟨.grayConfig, w⟩ => w == s.grayConfig
  | ⟨.vividConfig, w⟩ => w == s.vividConfig
  | _ => true

/-- The `Submit` waits for its next call, or has returned. -/
def proceed (s : Panel) (r : Running) : Panel × List (Event D) :=
  match r.rest with
  | .ret (result, backend) =>
    ({ s with backend, running := none }, [.submitted ⟨r.frame, r.calls, result.isSome⟩])
  | .call _ _ => ({ s with running := some r }, [])

def step (c : Pipeline.Settings) (s : Panel) : Action api.Parcel → Option (Panel × List (Event D))
  | .control action =>
    match qualityCall api action with
    | some (caller, enabled) =>
      some ({ s with
        controls := (s.controls.configureColorQuality c.profile enabled).2
        asking := s.asking ++ [(caller, enabled)] }, [.turned caller enabled])
    | none =>
      (ControlService.step api c s.controls action).map fun r =>
        ({ s with controls := r.1 }, r.2.map .served)
  | .tellQuality index =>
    match s.asking[index]? with
    | none => none
    | some (caller, enabled) =>
      let state := (s.controls.configureColorQuality c.profile (-1)).1
      some ({ s with asking := s.asking.eraseIdx index },
        [.served ⟨caller, .colorQuality enabled, [.noException, .int32 state], [], []⟩])
  | .submit frame =>
    match s.running with
    | some _ => none
    | none => some (s.proceed { frame, rest := (LowerEngine.submit c.profile frame).run s.backend })
  | .call answered =>
    match s.running with
    | none => none
    | some r =>
      if answers s.controls answered then
        (r.rest.answer answered).map fun rest =>
          let (s, events) := s.proceed { r with calls := r.calls ++ [answered], rest }
          (s, .called answered :: events)
      else none

def system (c : Pipeline.Settings) : System Panel (Action api.Parcel) (Event D) where
  step := step api c

end Panel

end EinkLab.ControlService
