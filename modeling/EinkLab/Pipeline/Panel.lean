import EinkLab.LowerEngine.Backend
import EinkLab.Pipeline.Basic

/-!
# The pipeline on its engine

`Panel` is the pipeline with the lower-engine backend as its `Engine`: the frame that the adapter's
worker hands over is submitted to the backend, and the backend's answer is what the adapter records.
-/

namespace EinkLab

open Transition LowerEngine

structure Panel where
  pipeline : Pipeline := {}
  backend : Backend

namespace Panel

inductive Action
  /-- A step of the pipeline, other than the return of a `Submit`. -/
  | pipeline (a : Pipeline.Action)
  /-- The backend's `Submit` of the frame in hand, with the calls it makes. -/
  | submit (calls : List VendorEvent) (now : TimePoint)

inductive Event
  | pipeline (e : Pipeline.Event)
  | submitted (x : Submitted)

/-- `Submit` of the frame in hand, and its return. -/
def submit (c : Pipeline.Settings) (x : Panel) (calls : List VendorEvent) (now : TimePoint) :
    Option (Panel × List Event) :=
  match x.pipeline.adapter.worker with
  | .submitting frame _ _ =>
    match ((LowerEngine.submit c.profile frame).run x.backend).replay calls with
    | none => none
    | some (result, backend) =>
      (x.pipeline.step c (.submitReturn result.isSome now)).map fun r =>
        (⟨r.1, backend⟩, r.2.map .pipeline ++ [.submitted ⟨frame, calls, result.isSome⟩])
  | _ => none

def step (c : Pipeline.Settings) (x : Panel) : Action → Option (Panel × List Event)
  | .pipeline (.submitReturn _ _) => none
  | .pipeline a =>
    (x.pipeline.step c a).map fun r => ({ x with pipeline := r.1 }, r.2.map .pipeline)
  | .submit calls now => x.submit c calls now

def system (c : Pipeline.Settings) : System Panel Action Event where
  step := step c

end Panel

end EinkLab
