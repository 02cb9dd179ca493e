import EinkLab.SleepImageManager.Basic
import EinkLab.Text.Lines

/-!
# The power-off gate

On Aura the panel's controller stops when the display goes off, so that the manager's guard keeps
the power on for a while after a sleep image was accepted.  The display power controller asks the
manager before the policy is told that the display turns off (`turningOff`), before it sets the
state to off (`gate`), when the policy's turning off is abandoned (`changedMind`) and when another
state is wanted (`animate`); a gate that is closed posts a retry.  Between these the controller is
free: what the rest of its code does only decides which of them comes next.
-/

namespace EinkLab.SleepImageManager

open Transition

/-- `Neo2SleepImagePowerOffGuard` -/
structure PowerOffGuard where
  deadline : Int := -1
  deriving DecidableEq, Repr

namespace PowerOffGuard

def SETTLE_MILLIS : Int := 2000

/-- `none` is an exception. -/
def start (now : Int) : Option PowerOffGuard :=
  if now < 0 ∨ now > Text.longMax - SETTLE_MILLIS then none else some ⟨now + SETTLE_MILLIS⟩

def remaining (g : PowerOffGuard) (now : Int) : Int :=
  if g.deadline < 0 then 0 else max 0 (min SETTLE_MILLIS (g.deadline - now))

end PowerOffGuard

/-- The manager with its guard, and the display power controller: whether an off is pending, and
when the retries in its handler are due. -/
structure PowerOff where
  world : World := {}
  guard : PowerOffGuard := {}
  /-- `mNeo2SleepImagePowerOffPending` -/
  pending : Bool := false
  retries : List Int := []
  clock : Int := 0
  deriving DecidableEq

namespace PowerOff

/-- What `cancelScreenOffLocked` finds. -/
structure Cancel where
  epochLink : Link := {}
  catalogLink : Link := {}
  copied : Bool := true
  pick : Nat := 0
  deriving DecidableEq, Repr

inductive Call
  /-- A step of the manager service, but for those that the display power controller asks for. -/
  | manager (action : SleepImageManager.Action)
  | turningOff (link : Link)
  /-- The gate is asked; a retry would be posted at this time. -/
  | gate (posted : Int)
  | changedMind (cancel : Cancel)
  | animate (target : Int) (cancel : Cancel)
  /-- The handler delivers a retry. -/
  | retry (due : Int)

inductive Event
  | manager (e : SleepImageManager.Event)
  /-- A sleep image was accepted, and its settling time begins. -/
  | presented (now : Int)
  /-- The guard is cancelled. -/
  | withdrawn
  /-- The gate is open: the display may go off. -/
  | proceeds (now : Int)
  | delayed (now due : Int)
  | retried
  | restarted
  deriving DecidableEq, Repr

/-- The edge that `handleScreenOnLocked` acts upon. -/
def wakes (w : World) : SleepImageManager.Action → Bool
  | .observeDefaultDisplayState state _ =>
    w.manager.defaultDisplayState = STATE_OFF && state ≠ STATE_OFF && w.manager.screenOff
  | _ => false

/-- `cancelDefaultDisplayOff` -/
def cancelDefaultDisplayOff (s : PowerOff) (c : Cancel) : PowerOff × List Event :=
  let (world, events) := s.world.cancelScreenOff c.epochLink c.catalogLink c.copied c.pick
  if s.world.manager.screenOff then
    ({ s with world, guard := {} }, events.map .manager ++ [.withdrawn])
  else ({ s with world }, events.map .manager)

/-- `beginDefaultDisplayOff`; an exception of the guard ends the process. -/
def beginDefaultDisplayOff (aura : Bool) (now : Int) (s : PowerOff) (link : Link) :
    Option (PowerOff × List Event) :=
  let (world, events) := s.world.beginScreenOff link
  if !s.world.manager.screenOff && world.manager.sleepPresentationRequested && aura then
    (PowerOffGuard.start now).map fun guard =>
      ({ s with world, guard }, events.map .manager ++ [.presented now])
  else some ({ s with world }, events.map .manager)

/-- The part of `setScreenState` that keeps the display from going off. -/
def gate (now posted : Int) (s : PowerOff) : PowerOff × List Event :=
  let delay := s.guard.remaining now
  if delay > 0 then
    ({ s with pending := true, retries := [posted + delay] }, [.delayed now (posted + delay)])
  else ({ s with pending := false, retries := [] }, [.proceeds now])

/-- The part of `animateScreenStateChange` before the animations. -/
def animate (s : PowerOff) (target : Int) (c : Cancel) : PowerOff × List Event :=
  if target ≠ STATE_OFF ∧ s.pending = true then
    { s with pending := false, retries := [] }.cancelDefaultDisplayOff c
  else (s, [])

/-- A step of the manager service on its own. -/
def managerStep (s : PowerOff) : SleepImageManager.Action → Option (PowerOff × List Event)
  | .beginDefaultDisplayOff _ | .cancelDefaultDisplayOff _ _ _ _ => none
  | .restart =>
    (s.world.step .restart).map fun r => ({ world := r.1, clock := s.clock }, [.restarted])
  | action =>
    (s.world.step action).map fun r =>
      if wakes s.world action then
        ({ s with world := r.1, guard := {} }, r.2.map .manager ++ [.withdrawn])
      else ({ s with world := r.1 }, r.2.map .manager)

def call (aura : Bool) (now : Int) (s : PowerOff) : Call → Option (PowerOff × List Event)
  | .manager action => s.managerStep action
  | .turningOff link => s.beginDefaultDisplayOff aura now link
  | .gate posted => if now ≤ posted then some (s.gate now posted) else none
  | .changedMind c => some (s.cancelDefaultDisplayOff c)
  | .animate target c => some (s.animate target c)
  | .retry due =>
    if due ∈ s.retries ∧ due ≤ now then
      some ({ s with retries := s.retries.erase due }, [.retried])
    else none

/-- A call at a time that is not before the last one. -/
def step (aura : Bool) (s : PowerOff) (a : Int × Call) : Option (PowerOff × List Event) :=
  if s.clock ≤ a.1 then { s with clock := a.1 }.call aura a.1 a.2 else none

def system (aura : Bool) : System PowerOff (Int × Call) Event where
  step := step aura

end PowerOff

end EinkLab.SleepImageManager
