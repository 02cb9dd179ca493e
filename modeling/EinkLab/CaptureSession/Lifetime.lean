import EinkLab.CaptureSession.Basic
import EinkLab.CaptureSession.SleepRequests
import EinkLab.Pipeline.Holdings

/-!
# The lifetime of a snapshot pool

The capture session (`render_surface_capture_session.cpp`) as the owner of the snapshot pool and the
pipeline.  `MaybeStartM3` makes a pool and a pipeline, which are numbered by generation.  A capture
takes a lease of the pool; it travels in the composition, from the capture thread (`hand`) to the
pipeline's slot and its conversion worker, and on a colour product in the frame, until the adapter's
worker has observed its submission.  Where its last owner lets it go, `~SnapshotLease` calls
`ReleaseAfterConversion` on the pool that it refers to, which frees the slot.  So the busy slots of
a pool are those of its leases, and `TryCopy` returns null when there are `kM3SnapshotSlots` of
them.

`Stop` takes the pipeline out of `m3_` and destroys the pool in one critical section.  It calls the
pipeline's `Stop` after that, which joins the threads (`stopReturned`).

`CaptureM3` is three steps: it reads the pipeline of `m3_`, it copies into the pool, and it hands
the composition over.  A `Stop` may come between any two of them.  After it, `m3_->snapshot_pool` is
null and what `TryCopy` does is undefined; the lease that it may still make refers to the destroyed
pool.

The capture thread reads `started_` before it enters `MaybeStartM3` or `CaptureM3`, and by then it
may have changed, so it guards neither.  No lease of a pool exists before `MaybeStartM3` has
returned, so that call is one step.

Left out: admission, and the other ways in which `TryCopy` or a copy before it may fail, which come
to a capture without a lease; and the end of the process.
-/

namespace EinkLab.CaptureSession

open Transition Pipeline

/-- The lease that an `AndroidComposeBuffer` owns. -/
def bufferLease : Option ComposeBuffer → Option Nat
  | some (.android _ lease) => lease
  | _ => none

/-- A pipeline, with the lease of the composition that lingers at its worker. -/
structure LeasedPipeline where
  pipeline : Pipeline
  lingering : Option Nat := none
  deriving DecidableEq, Repr

namespace LeasedPipeline

/-- The leases in the pipeline. -/
def leases (x : LeasedPipeline) : List Nat :=
  x.pipeline.compositions.filterMap CapturedComposition.ownershipLease ++
    x.pipeline.frames.filterMap (fun frame => bufferLease frame.composeBuffer) ++
      x.lingering.toList

/-- The lease of the worker's composition. -/
def workerLease (x : LeasedPipeline) : Option Nat :=
  match x.pipeline.worker.job with
  | some job => job.composition.ownershipLease
  | none => x.lingering

def step (c : Settings) (x : LeasedPipeline) (a : Pipeline.Action) : Option LeasedPipeline :=
  (Pipeline.step c x.pipeline a).map fun r =>
    { pipeline := r.1, lingering := if r.1.worker.lingers then x.workerLease else none }

end LeasedPipeline

/-- Where the capture thread is in `CaptureM3`, once that has read the pipeline of a generation. -/
inductive Hand
  /-- `TryCopy` has not returned. -/
  | copying (generation : Nat)
  /-- `OnCapturedComposition` has not returned. -/
  | handingOver (generation : Nat) (composition : CapturedComposition)
  deriving DecidableEq, Repr

def Hand.generation : Hand → Nat
  | .copying generation => generation
  | .handingOver generation _ => generation

/-- The session, as far as pools and leases are concerned. -/
structure PoolSession where
  started : Bool := false
  /-- By generation; a pipeline is here from its creation on. -/
  pipelines : List LeasedPipeline := []
  /-- The generation of `m3_->pipeline` and `m3_->snapshot_pool`. -/
  current : Option Nat := none
  /-- The generations whose pipeline a `Stop` is stopping. -/
  stops : List Nat := []
  hand : Option Hand := none
  nextLease : Nat := 0
  deriving DecidableEq, Repr

namespace PoolSession

/-- The lease of this generation that the capture thread has. -/
def handLease (s : PoolSession) (k : Nat) : Option Nat :=
  match s.hand with
  | some (.handingOver generation composition) =>
    if generation = k then composition.ownershipLease else none
  | _ => none

/-- The leases of the pool of this generation. -/
def live (s : PoolSession) (k : Nat) : List Nat :=
  s.pipelines[k]?.elim [] LeasedPipeline.leases ++ (s.handLease k).toList

/-- A step of a pipeline. -/
def onPipeline (c : Settings) (s : PoolSession) (k : Nat) (a : Pipeline.Action) :
    Option PoolSession :=
  match s.pipelines[k]? with
  | some x => (x.step c a).map fun x' => { s with pipelines := s.pipelines.set k x' }
  | none => none

/-- Which steps a pipeline may take by itself or by a call of this kind.  Requests of the framework
go to `m3_->pipeline`; its `Stop` is called by the session's. -/
def allows (s : PoolSession) (k : Nat) : Pipeline.Action → Bool
  | .onCapturedComposition _ | .start => false
  | .stop => k ∈ s.stops
  | .publishSleepImageCatalog .. | .armSleepCycle _ | .presentSleepImage .. | .disarmSleepCycle _ =>
    s.current = some k
  | _ => true

/-- `StartMetadataOnly` -/
def startMetadataOnly (s : PoolSession) : PoolSession := { s with started := true }

/-- `MaybeStartM3`, once its setup has succeeded. -/
def maybeStartM3 (c : Settings) (s : PoolSession) (m : M3State) : Option PoolSession :=
  if s.current.isNone && s.hand.isNone then
    some { s with
      pipelines := s.pipelines ++ [{ pipeline := m.replayed c }]
      current := some s.pipelines.length }
  else none

/-- `CaptureM3`, as far as the pipeline of `m3_`. -/
def captureM3 (s : PoolSession) : Option PoolSession :=
  match s.current with
  | some k => if s.hand.isNone then some { s with hand := some (.copying k) } else none
  | none => none

/-- `TryCopy` with the composition that its snapshot goes into, or the end of a `CaptureM3` that has
no snapshot. -/
def tryCopy (s : PoolSession) (captured : Option CapturedComposition) : Option PoolSession :=
  match s.hand, captured with
  | some (.copying _), none => some { s with hand := none }
  | some (.copying k), some composition =>
    if (s.live k).dedup.length < kM3SnapshotSlots then
      some { s with
        hand := some (.handingOver k { composition with ownershipLease := some s.nextLease })
        nextLease := s.nextLease + 1 }
    else none
  | _, _ => none

/-- `OnCapturedComposition` -/
def handOver (c : Settings) (s : PoolSession) : Option (Nat × PoolSession) :=
  match s.hand with
  | some (.handingOver k composition) =>
    (s.onPipeline c k (.onCapturedComposition composition)).map fun s' =>
      (k, { s' with hand := none })
  | _ => none

/-- `Stop` up to the call of the pipeline's. -/
def stop (s : PoolSession) : PoolSession :=
  if !s.started then s
  else
    match s.current with
    -- `started_` is cleared only after the pipeline's `Stop`
    | some k => { s with current := none, stops := k :: s.stops }
    | none => { s with started := false }

/-- The generation of the pool that `Stop` destroys. -/
def dropped (s : PoolSession) : Option Nat := if s.started then s.current else none

/-- The pipeline's `Stop` has returned. -/
def stopReturned (s : PoolSession) (k : Nat) : Option PoolSession :=
  match s.pipelines[k]? with
  | some x =>
    if k ∈ s.stops && x.pipeline.worker = .exited && x.pipeline.adapter.worker = .exited then
      some { s with started := false, stops := s.stops.erase k }
    else none
  | none => none

/-! ### The session as a labelled system -/

inductive Action
  | startMetadataOnly
  | maybeStartM3 (m : M3State)
  | captureM3
  | tryCopy (captured : Option CapturedComposition)
  | handOver
  | stop
  | stopReturned (k : Nat)
  | onPipeline (k : Nat) (a : Pipeline.Action)
  deriving DecidableEq, Repr

inductive Event
  /-- `ReleaseAfterConversion` on the pool of this generation, and whether there still is one. -/
  | released (generation lease : Nat) (alive : Bool)
  /-- The pool is destroyed, with its leases at this moment. -/
  | poolDropped (generation : Nat) (live : List Nat)
  deriving DecidableEq, Repr

/-- The leases of this generation that a step has let go. -/
def releases (s s' : PoolSession) (k : Nat) : List Event :=
  ((s.live k).filter (· ∉ s'.live k)).map fun lease => .released k lease (s.current = some k)

def step (c : Settings) (s : PoolSession) : Action → Option (PoolSession × List Event)
  | .startMetadataOnly => some (s.startMetadataOnly, [])
  | .maybeStartM3 m => (s.maybeStartM3 c m).map (·, [])
  | .captureM3 => s.captureM3.map (·, [])
  | .tryCopy captured => (s.tryCopy captured).map (·, [])
  | .handOver => (s.handOver c).map fun r => (r.2, s.releases r.2 r.1)
  | .stop => some (s.stop, s.dropped.toList.map fun k => .poolDropped k (s.live k))
  | .stopReturned k => (s.stopReturned k).map (·, [])
  | .onPipeline k a =>
    if s.allows k a then (s.onPipeline c k a).map fun s' => (s', s.releases s' k) else none

def system (c : Settings) : System PoolSession Action Event where
  step := step c

end PoolSession

end EinkLab.CaptureSession
