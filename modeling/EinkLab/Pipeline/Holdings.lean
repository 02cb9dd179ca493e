import EinkLab.Pipeline.Basic

/-!
# What a pipeline holds

The compositions and the frames that a pipeline owns, up to where they go out of scope: a worker
whose conversion has failed, or whose frame was unchanged, keeps its composition to the end of the
iteration.
-/

namespace EinkLab.Pipeline

/-- The job whose composition the worker has. -/
def WorkerPhase.job : WorkerPhase → Option Job
  | .converting job | .converted job _ | .checked job _ | .evaluated job _ _ _ _ => some job
  | _ => none

/-- The job is done for, but its composition lives to the end of the iteration. -/
def WorkerPhase.lingers : WorkerPhase → Bool
  | .failed | .unchanged => true
  | _ => false

def WorkerPhase.assembledFrame : WorkerPhase → Option Frame
  | .assembled frame => some frame
  | _ => none

/-- The compositions in the pipeline: the pending one and the worker's. -/
def compositions (s : Pipeline) : List CapturedComposition :=
  s.pending.toList ++ (s.worker.job.map Job.composition).toList

/-- The frames in the pipeline: the assembled one and the adapter's. -/
def frames (s : Pipeline) : List Frame :=
  s.worker.assembledFrame.toList ++ s.adapter.pending.toList ++ s.adapter.worker.carried.toList

/-- The pipeline has no composition, nor a frame with the plane of one. -/
def idle (s : Pipeline) : Bool :=
  s.compositions.isEmpty && !s.worker.lingers && s.frames.all (·.composeBuffer.isNone)

end EinkLab.Pipeline
