import EinkLab.ControlService.Basic
import EinkLab.FrontLight.Basic

/-!
# The front light from the manager to its nodes

The manager calls the control endpoint of another process, which writes to the nodes of the light.
`invoke` is that call, `invokeCalibratedService`, up to its return; the manager's own steps, the
transactions of other clients and the capture session go on around it, and the other process may die
and start again.
-/

namespace EinkLab.FrontLight

open Binder Transition

variable {D : Type} (api : Parcels D)

/-! ### The call -/

def CONTROL_DESCRIPTOR : String := "org.neo2.controls.IFrontLightControl"
def CONTROL_TRANSACTION : Nat := FIRST_CALL_TRANSACTION

def RESULT_UNAVAILABLE : Int := 3
def RESULT_FAILED : Int := 5

/-- The manager runs as the system. -/
def systemServer : ControlService.Caller := ⟨AID_SYSTEM, true, true⟩

/-- What `invokeCalibratedService` writes. -/
def requestItems (brightness warmth : Int) : List (Item D) :=
  [.interfaceToken CONTROL_DESCRIPTOR, .int32 brightness, .int32 warmth]

/-- What it reads of the reply; an exception is a failure. -/
def readResult (reply : api.Parcel) : Int :=
  let (returned, reply) := api.readException reply
  let (result, _) := api.readInt32 reply
  if returned then result else RESULT_FAILED

/-- What a call leaves behind: the result, the other process, and what it has tried to write. -/
structure Invoked where
  result : Int
  controls : ControlService.Controls
  written : List (Path × UInt16)

/-- `invokeCalibratedService`; `available` says that there is a service. -/
def invokeCalibratedService (c : Pipeline.Settings) (world : ControlService.World)
    (available : Bool)
    (carriage : Carriage) (brightness warmth : Int) (s : ControlService.Controls) : Invoked :=
  if !available then ⟨RESULT_UNAVAILABLE, s, []⟩
  else if !carriage.delivered then ⟨RESULT_FAILED, s, []⟩
  else
    let answer := ControlService.onTransact api c world systemServer CONTROL_TRANSACTION
      (api.writeAll (requestItems brightness warmth)) true s
    ⟨if carriage.replied && answer.status = .ok then readResult api (api.writeAll answer.reply)
      else RESULT_FAILED, answer.controls, answer.written⟩

/-! ### The nodes -/

/-- What a node holds, where that is known: the text that was last written, if that succeeded. -/
abbrev Nodes := Path → Option (List Char)

/-- The text of a code. -/
def codeText (code : UInt16) : List Char := Text.longText code.toNat ++ ['\n']

/-- `WriteCode`, as the node sees it. -/
def Nodes.write (sysfs : Sysfs) (nodes : Nodes) (w : Path × UInt16) : Nodes :=
  if w.1.isEmpty then nodes
  else
    Function.update nodes w.1 (if sysfs.write w.1 (codeText w.2) then some (codeText w.2) else none)

/-! ### The whole -/

structure Stack where
  manager : FrontLightManager := {}
  controls : ControlService.Controls := {}
  nodes : Nodes := fun _ => none

namespace Stack

inductive Action (P : Type)
  /-- A step of the manager, other than the return of its call. -/
  | manager (action : FrontLight.Action)
  | invoke (available : Bool) (carriage : Carriage) (world : ControlService.World)
  /-- A transaction of another client. -/
  | transact (caller : ControlService.Caller) (code : Nat) (data : P) (reply : Bool)
      (world : ControlService.World)
  /-- The capture session has gone on. -/
  | session (pipeline : Option Pipeline)
  /-- The process dies, and starts again. -/
  | restart

def step (c : Pipeline.Settings) (s : Stack) : Action api.Parcel → Option (Stack × List Event)
  | .manager (.serviceReturn _) => none
  | .manager action =>
    (FrontLight.step s.manager action).map fun r => ({ s with manager := r.1 }, r.2)
  | .invoke available carriage world =>
    match s.manager.handler with
    | .invoking request =>
      let invoked := invokeCalibratedService api c world available carriage request.brightness
        request.warmth s.controls
      (FrontLight.step s.manager (.serviceReturn invoked.result)).map fun r =>
        ({ manager := r.1, controls := invoked.controls
           nodes := invoked.written.foldl (Nodes.write world.sysfs) s.nodes }, r.2)
    | _ => none
  | .transact caller code data reply world =>
    let answer := ControlService.onTransact api c world caller code data reply s.controls
    some ({ s with
      controls := answer.controls
      nodes := answer.written.foldl (Nodes.write world.sysfs) s.nodes }, [])
  | .session pipeline => some ({ s with controls := { s.controls with pipeline } }, [])
  | .restart => some ({ s with controls := {} }, [])

def system (c : Pipeline.Settings) : System Stack (Action api.Parcel) Event where
  step := step api c

end Stack

end EinkLab.FrontLight
