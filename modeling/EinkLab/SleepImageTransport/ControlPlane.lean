import EinkLab.SleepImageManager.Native
import EinkLab.SleepImageTransport.Basic

/-!
# The control plane of the endpoint

The native side as the manager's protocol knows it (`Native`), as a system of its own, and what of
the capture session and its pipeline it stands for (`control`).
-/

namespace EinkLab

open Transition Pipeline CaptureSession

namespace SleepImageManager.Native

/-- A call, and what it returns. -/
inductive Call
  | presented (epoch : Nat) (result : SleepImagePresentationResult)
  | disarmed (epoch : Nat) (result : SleepImageDisarmResult)
  | published (epoch : Nat) (accepted : Bool)
  deriving DecidableEq, Repr

inductive Action
  | presentSleepImage (epoch : Nat) (conditions : NativeConditions)
  | disarmSleepCycle (epoch : Nat)
  | publishSleepImageCatalog (epoch : Nat) (conditions : NativeConditions)
  | maybeStartM3
  | evaluate (frame : ConvertedFrame OwnedGrayscaleBuffer)
      (selector : Option (Selector OwnedGrayscaleBuffer))

def step (n : Native) : Action → Native × List Call
  | .presentSleepImage epoch conditions =>
    let (result, n) := n.presentSleepImage epoch conditions
    (n, [.presented epoch result])
  | .disarmSleepCycle epoch =>
    let (result, n) := n.disarmSleepCycle epoch
    (n, [.disarmed epoch result])
  | .publishSleepImageCatalog epoch conditions =>
    let (accepted, n) := n.publishSleepImageCatalog epoch conditions
    (n, [.published epoch accepted])
  | .maybeStartM3 => (n.maybeStartM3, [])
  | .evaluate frame selector => (n.evaluate frame selector, [])

def system : System Native Action Call where
  step n a := some (n.step a)

end SleepImageManager.Native

namespace SleepImageTransport

open SleepImageManager

def controlPipeline (s : Pipeline) : NativePipeline where
  catalogEpoch := s.sleepImageCatalogEpoch
  hasCatalog := s.sleepImageCatalog.isSome
  latch := s.sleepImageLatch

def control (m : M3State) : Native where
  catalogEpoch := m.sleepImageCatalogEpoch
  pendingCatalog := m.pendingSleepImageCatalog.map SleepImageCatalogRequest.epoch
  pipeline := m.pipeline.map controlPipeline

/-- A call of the session, without the images. -/
def SleepImageBinder.Call.control : SleepImageBinder.Call → Native.Call
  | .presented epoch result => .presented epoch result
  | .disarmed epoch result => .disarmed epoch result
  | .published request result => .published request.epoch (result = .accepted)

/-! ### What the session holds -/

/-- A catalog as it would be presented. -/
structure HeldCatalog where
  epoch : Nat
  entries : List EinkSleepImageCatalog.Entry
  selectedIndex : Nat
  mode : SleepImagePresentationMode
  deriving DecidableEq

/-- The catalog of the pipeline; before there is one, that which waits for it. -/
def held (m : M3State) : Option HeldCatalog :=
  match m.pipeline with
  | some s => s.sleepImageCatalog.map fun catalog =>
    ⟨s.sleepImageCatalogEpoch, catalog.snapshot, s.sleepImageSelectedIndex, s.sleepImageMode⟩
  | none => m.pendingSleepImageCatalog.map fun r => ⟨r.epoch, r.entries, r.selectedIndex, r.mode⟩

/-- The catalog of a publication that was accepted. -/
def acceptedCatalog : SleepImageBinder.Call → Option HeldCatalog
  | .published r .accepted => some ⟨r.epoch, r.entries, r.selectedIndex, r.mode⟩
  | _ => none

end SleepImageTransport

end EinkLab
