import EinkLab.PresentationAdapter.Basic

/-!
# The times of the adapter's submissions

`Timeline` is not in the source.  It keeps, for a run of the adapter, when the last accepted
`Submit` returned and, for every `Submit`, when it started, the interval that was read when its
frame was dequeued and the last accepted return before it.  `Timed` is the adapter with it.
-/

namespace EinkLab

open Transition

namespace PresentationAdapter

/-- One call of `Engine::Submit`. -/
structure SubmitStart where
  start : TimePoint
  /-- The interval that was read when the frame was dequeued. -/
  interval : Duration
  /-- When the last accepted call before this one returned. -/
  lastFinish : Option TimePoint
  deriving DecidableEq, Repr

structure Timeline where
  lastFinish : Option TimePoint := none
  interval : Duration := 0
  starts : List SubmitStart := []
  deriving DecidableEq, Repr

/-- A dequeue reads the interval, `submitStart` calls the engine and `submitReturn` is its
answer. -/
def Timeline.step (t : Timeline) (a : PresentationAdapter) : Action → Timeline
  | .wake interval now =>
    match (a.wake interval now).map worker with
    | some (.taken _ _) => { t with interval := interval }
    | _ => t
  | .submitStart now =>
    { t with starts := ⟨now, t.interval, t.lastFinish⟩ :: t.starts }
  | .submitReturn true now => { t with lastFinish := some now }
  | _ => t

end PresentationAdapter

structure Timed where
  adapter : PresentationAdapter := {}
  timeline : PresentationAdapter.Timeline := {}
  deriving DecidableEq, Repr

namespace Timed

def step (x : Timed) (act : PresentationAdapter.Action) :
    Option (Timed × List PresentationAdapter.Event) :=
  (x.adapter.step act).map fun r => (⟨r.1, x.timeline.step x.adapter act⟩, r.2)

def system : System Timed PresentationAdapter.Action PresentationAdapter.Event where
  step := step

end Timed

end EinkLab
