import EinkLab.Arithmetic.Checked
import EinkLab.Transition.Run

/-!
# The app-switch refresh policy

`SwitchPolicy.java`, and the handlers of `RefreshService.java` as the calls they make on it.

Times are `long` milliseconds; a call whose deadline would overflow is not enabled (`none`).  The
system (`system`) has the calls as actions, in any order; `Keeps` is the discipline of the service.
All handlers run on one worker thread, so each is one step of `service`; what the operating system
answers (the state of the screen, the foreground task, the receipt of the refresh service) is in the
handler.  Left out: notifications, preferences, logging, and when the callbacks are posted.
-/

namespace EinkLab

open Transition

structure SwitchPolicy where
  ownPackage : String
  cooldown : Int
  delay : Int
  lastQueued : Int := -1
  observed : Option String := none
  pending : Option String := none
  due : Int := 0
  deriving DecidableEq, Repr

namespace SwitchPolicy

/-! ### The policy -/

def reset (p : SwitchPolicy) : SwitchPolicy := { p with observed := none, pending := none }

/-- Where the sums do not overflow. -/
def deadline (p : SwitchPolicy) (now : Int) : Option Int :=
  (IntType.int64.exact (now + p.delay)).bind fun byDelay =>
    (if p.lastQueued < 0 then some 0 else IntType.int64.exact (p.lastQueued + p.cooldown)).map
      fun byCooldown => max byDelay byCooldown

def configure (p : SwitchPolicy) (value now : Int) : Option SwitchPolicy :=
  let p := { p with delay := value }
  if p.pending.isSome then (p.deadline now).map fun due => { p with due } else some p

/-- The packages that are never refreshed. -/
def Excluded (ownPackage next : String) : Prop :=
  next = ownPackage ∨ next = "com.android.systemui" ∨ next = "android"

instance (ownPackage next : String) : Decidable (Excluded ownPackage next) :=
  inferInstanceAs (Decidable (_ ∨ _))

def observe (p : SwitchPolicy) (next : Option String) (now : Int) : Option (Bool × SwitchPolicy) :=
  match next with
  | none => some (false, p.reset)
  | some next =>
    if next.isEmpty then some (false, p.reset)
    else if p.observed = some next then some (false, p)
    else
      let first := p.observed.isNone
      let p := { p with observed := some next, pending := none }
      if first = true ∨ Excluded p.ownPackage next then some (false, p)
      else (p.deadline now).map fun due => (true, { p with pending := some next, due })

def dueAt (p : SwitchPolicy) : Int := if p.pending.isNone then -1 else p.due

def take (p : SwitchPolicy) (now : Int) : Option String × SwitchPolicy :=
  if p.pending.isNone || now < p.due then (none, p) else (p.pending, { p with pending := none })

def queued (p : SwitchPolicy) (now : Int) : SwitchPolicy := { p with lastQueued := now }

/-! ### Calls in any order -/

/-- The policy, the time of the last call, and the time of a successful `take` that no call has
followed yet. -/
structure Worker where
  policy : SwitchPolicy
  clock : Int := 0
  taken : Option Int := none
  deriving DecidableEq, Repr

inductive Call
  | observe (next : Option String) (now : Int)
  | configure (value now : Int)
  | reset
  | take (now : Int)
  | queued (now : Int)
  deriving DecidableEq, Repr

inductive Event
  | observed (next : Option String) (now : Int) (armed : Bool)
  | configured (value now : Int)
  | reset
  | taken (now : Int) (result : Option String)
  | queued (now : Int)
  deriving DecidableEq, Repr

def step (w : Worker) : Call → Option (Worker × List Event)
  | .observe next now => (w.policy.observe next now).map fun (armed, policy) =>
    (⟨policy, now, none⟩, [.observed next now armed])
  | .configure value now => (w.policy.configure value now).map fun policy =>
    (⟨policy, now, none⟩, [.configured value now])
  | .reset => some ({ w with policy := w.policy.reset, taken := none }, [.reset])
  | .take now =>
    let (result, policy) := w.policy.take now
    some (⟨policy, now, if result.isSome then some now else none⟩, [.taken now result])
  | .queued now => some (⟨w.policy.queued now, now, none⟩, [.queued now])

def system : System Worker Call Event := ⟨step⟩

/-- Times do not go back, and `queued` follows a successful `take`, with its time. -/
def Keeps (w : Worker) : Call → Prop
  | .observe _ now | .configure _ now | .take now => w.clock ≤ now
  | .reset => True
  | .queued now => w.taken = some now

instance (w : Worker) : (c : Call) → Decidable (Keeps w c)
  | .observe _ now | .configure _ now | .take now => inferInstanceAs (Decidable (w.clock ≤ now))
  | .reset => inferInstanceAs (Decidable True)
  | .queued now => inferInstanceAs (Decidable (w.taken = some now))

def start (ownPackage : String) (delay cooldown : Int) : Worker where
  policy := { ownPackage, cooldown, delay }

/-! ### The handlers of the service -/

/-- What `observe` meets: the service is stopped or the screen is off, the foreground package at a
time, or an exception before or after the policy was told. -/
inductive Foreground
  | inactive
  | package (name : Option String) (now : Int)
  | failed
  | failedAfter (name : Option String) (now : Int)
  deriving DecidableEq, Repr

inductive Handler
  | screen
  | observe (foreground : Foreground)
  | fireInactive
  | fire (foreground : Foreground) (now : Int) (accepted : Bool)
  | start (delay now : Int) (registered : Option Foreground)
  | stop
  deriving DecidableEq, Repr

def Foreground.calls : Foreground → List Call
  | .inactive | .failed => [.reset]
  | .package name now => [.observe name now]
  | .failedAfter name now => [.observe name now, .reset]

/-- The calls of a handler on the policy; `fire` reports a refresh only when it took a package. -/
def Handler.calls (w : Worker) : Handler → List Call
  | .screen | .stop | .fireInactive => [.reset]
  | .observe foreground => foreground.calls
  | .fire foreground now accepted =>
    match system.exec System.anyAction w foreground.calls with
    | none => foreground.calls
    | some (w, _) =>
      if (w.policy.take now).1.isSome && accepted then
        foreground.calls ++ [.take now, .queued now]
      else foreground.calls ++ [.take now]
  | .start delay now none => [.configure delay now]
  | .start delay now (some foreground) => .configure delay now :: foreground.calls

def service : System Worker Handler Event where
  step w handler := system.exec System.anyAction w (handler.calls w)

end SwitchPolicy

end EinkLab
