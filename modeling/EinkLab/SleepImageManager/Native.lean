import EinkLab.SleepImage.Equiv.Latch

/-!
# The native side of the sleep-image protocol

The control plane of the capture session and of the pipeline: which catalog epoch is remembered,
and the latch (`RenderSurfaceCaptureSession` and `AndroidEinkPipeline`, `PublishSleepImageCatalog`,
`PresentSleepImage`, `DisarmSleepCycle`; `sleep_image_binder_service.cpp`).

A catalog's images do not matter here: whether the images of a publication are well formed, whether
a presentation could be composed and whether the adapter took it are arguments.  The binder service
has no transaction that reaches `ArmSleepCycle`, so nothing arms before a presentation.
-/

namespace EinkLab.SleepImageManager

/-- Why a presentation cannot be composed: the candidate does not fit the panel, there is no
background for an overlay, or the planes do not compose. -/
inductive CompositionFailure
  | catalog | background | alpha
  deriving DecidableEq, Repr

def CompositionFailure.result : CompositionFailure → SleepImagePresentationResult
  | .catalog => .rejectedCatalog
  | .background => .rejectedBackground
  | .alpha => .rejectedAlpha

/-- What a call to the native side depends on besides the control plane. -/
structure NativeConditions where
  /-- `PublishSleepImageCatalog`: geometry, mode, entries and selection are valid. -/
  catalogValid : Bool := true
  /-- `PresentSleepImage`: the pipeline is started, not stopping, and enabled. -/
  available : Bool := true
  /-- Why the presentation could not be composed, if it could not. -/
  uncomposed : Option CompositionFailure := none
  /-- The adapter took the frame. -/
  enqueued : Bool := true
  deriving DecidableEq, Repr

/-- The control plane of `AndroidEinkPipeline`. -/
structure NativePipeline where
  catalogEpoch : Nat := 0
  hasCatalog : Bool := false
  latch : SleepImageLatch := {}
  deriving DecidableEq, Repr

namespace NativePipeline

def publishSleepImageCatalog (p : NativePipeline) (epoch : Nat) (conditions : NativeConditions) :
    Bool × NativePipeline :=
  if epoch = 0 then (false, p)
  else if !conditions.catalogValid then (false, p)
  else if epoch ≤ p.catalogEpoch then (false, p)
  else (true, { p with catalogEpoch := epoch, hasCatalog := true })

/-- The result of an arm that failed, as a presentation result. -/
def rejectedArm : SleepImageArmResult → SleepImagePresentationResult
  | .accepted => .accepted
  | .rejectedZero => .rejectedZero
  | .rejectedStale => .rejectedStale
  | .rejectedDuplicate => .rejectedDuplicate
  | .rejectedMismatched => .rejectedMismatched

def presentSleepImage (p : NativePipeline) (epoch : Nat) (conditions : NativeConditions) :
    SleepImagePresentationResult × NativePipeline :=
  if epoch = 0 then (.rejectedZero, p)
  else if !conditions.available then (.rejectedUnavailable, p)
  else if !p.hasCatalog || epoch ≠ p.catalogEpoch then (.rejectedCatalog, p)
  else match conditions.uncomposed with
  | some failure => (failure.result, p)
  | none =>
    let (arm, latch) := p.latch.armSleepCycle epoch
    if arm ≠ .accepted then (rejectedArm arm, { p with latch := latch })
    else
      let (begun, latch) := latch.beginPresentation epoch
      if begun ≠ .accepted then (begun, { p with latch := latch })
      else if !conditions.enqueued then
        -- the cycle is closed again, but its epoch stays used
        (.rejectedEnqueue, { p with latch := (latch.disarmSleepCycle epoch).2 })
      else (.accepted, { p with latch := latch })

def disarmSleepCycle (p : NativePipeline) (epoch : Nat) :
    SleepImageDisarmResult × NativePipeline :=
  let (result, latch) := p.latch.disarmSleepCycle epoch
  (result, { p with latch := latch })

end NativePipeline

/-- The session: its own copy of the catalog epoch, and the pipeline once it is set up. -/
structure Native where
  catalogEpoch : Nat := 0
  pendingCatalog : Option Nat := none
  pipeline : Option NativePipeline := none
  deriving DecidableEq, Repr

namespace Native

/-- The latch of the pipeline; without one, no cycle was ever armed. -/
def latch (n : Native) : SleepImageLatch :=
  match n.pipeline with
  | some p => p.latch
  | none => {}

def publishSleepImageCatalog (n : Native) (epoch : Nat) (conditions : NativeConditions) :
    Bool × Native :=
  if epoch = 0 then (false, n)
  else if !conditions.catalogValid then (false, n)
  else if epoch ≤ n.catalogEpoch then (false, n)
  else match n.pipeline with
  | some p =>
    let (accepted, p) := p.publishSleepImageCatalog epoch conditions
    (accepted,
      { n with pipeline := some p, catalogEpoch := if accepted then epoch else n.catalogEpoch })
  | none => (true, { n with pendingCatalog := some epoch, catalogEpoch := epoch })

def presentSleepImage (n : Native) (epoch : Nat) (conditions : NativeConditions) :
    SleepImagePresentationResult × Native :=
  if epoch = 0 then (.rejectedZero, n)
  else if epoch ≠ n.catalogEpoch then (.rejectedCatalog, n)
  else match n.pipeline with
  | none => (.rejectedUnavailable, n)
  | some p =>
    let (result, p) := p.presentSleepImage epoch conditions
    (result, { n with pipeline := some p })

def disarmSleepCycle (n : Native) (epoch : Nat) : SleepImageDisarmResult × Native :=
  if epoch = 0 then (.rejectedZero, n)
  else match n.pipeline with
  | none => (.rejectedInactive, n)
  | some p =>
    let (result, p) := p.disarmSleepCycle epoch
    (result, { n with pipeline := some p })

/-- `MaybeStartM3`: the pipeline is made and takes the catalog that waited for it. -/
def maybeStartM3 (n : Native) : Native :=
  match n.pipeline with
  | some _ => n
  | none =>
    let p : NativePipeline := {}
    let p := match n.pendingCatalog with
      | some epoch => (p.publishSleepImageCatalog epoch {}).2
      | none => p
    { n with pendingCatalog := none, pipeline := some p }

/-- The conversion worker evaluates a frame. -/
def evaluate (n : Native) (frame : ConvertedFrame OwnedGrayscaleBuffer)
    (selector : Option (Selector OwnedGrayscaleBuffer)) : Native :=
  match n.pipeline with
  | none => n
  | some p =>
    { n with pipeline := some { p with latch := (p.latch.evaluate frame selector).latch } }

end Native

end EinkLab.SleepImageManager
