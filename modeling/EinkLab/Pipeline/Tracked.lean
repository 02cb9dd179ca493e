import EinkLab.FrameTracker.Device

/-!
# The pipeline on its converter

`TrackedPipeline` is the pipeline with the two members of the conversion worker that `Pipeline`
leaves to its environment: the converter, which reads the captured buffer, and the RGB tracker,
which signs what it has read.  What the converter is answered when it locks a buffer is an argument
of the step; that a lock which succeeds maps what the buffer holds is a condition of the runs
(`Honest`).

`shown` is the content a frame asks the panel to show: the RGB pixels of its captured buffer on a
color panel, the plane on a monochrome one.
-/

namespace EinkLab

open Transition AndroidGrayscaleConverter

/-- The pipeline with `rgb_tracker`. -/
structure TrackedPipeline where
  pipeline : Pipeline := {}
  rgbTracker : DeviceRgbFrameTracker := {}
  deriving DecidableEq, Repr

/-- What a panel shows: packed RGB pixels of a size, or a plane. -/
inductive PanelContent
  | color (image : Int × Int × List UInt32)
  | gray (plane : OwnedGrayscaleBuffer)
  deriving DecidableEq, Repr

namespace TrackedPipeline

/-- The constants of a pipeline with its converter: `rotation_`, and `max_size()` of the tracker's
vector. -/
structure Settings extends Pipeline.Settings where
  rotation : Rotation
  maxSize : Nat

/-! ### Contents -/

/-- The image in a buffer that can be locked. -/
def imageOf (buffer : GraphicBuffer) : Option RgbaSource :=
  match layoutOf buffer.pixelFormat, buffer.mapping.address with
  | some layout, some address =>
    some ⟨address, buffer.width, buffer.height,
      buffer.mapping.bytesPerStride.tdiv buffer.mapping.bytesPerPixel, layout⟩
  | _, _ => none

/-- The packed RGB pixels of an image, with its size. -/
def colorsOf (source : RgbaSource) : Int × Int × List UInt32 :=
  (source.width, source.height,
    (RowMajor.places source.width.toNat source.height.toNat).map fun p =>
      RgbFrameTracker.packedRgb source.layout source.pixels
        ((p.2 * source.stridePixels.toNat + p.1) * 4))

/-- The plane of a capture: its own where that is selected, else the converted one. -/
def captureGrayscale (c : Settings) (composition : CapturedComposition) :
    Option OwnedGrayscaleBuffer :=
  if composition.directGrayscaleSelected then composition.directGrayscale
  else (composition.composeBuffer.bind imageOf).bind (convertToGrayscale · c.rotation)

/-- What a capture shows. -/
def captured (c : Settings) (composition : CapturedComposition) : Option PanelContent :=
  if c.profile.hasColorCfa then
    (composition.composeBuffer.bind imageOf).map fun source => .color (colorsOf source)
  else (captureGrayscale c composition).map .gray

/-- What a frame asks the panel to show. -/
def shown (c : Settings) (frame : Frame) : Option PanelContent :=
  if c.profile.hasColorCfa then
    match frame.composeBuffer with
    | some (.android (some buffer) _) => (imageOf buffer).map fun source => .color (colorsOf source)
    | _ => none
  else frame.grayscaleBuffer.map .gray

/-! ### The steps -/

/-- The signature that the worker asks the converter for, which a monochrome profile does not. -/
def sign (c : Settings) (source : RgbaSource) (t : DeviceRgbFrameTracker) :
    Nat × DeviceRgbFrameTracker :=
  if c.profile.hasColorCfa then t.update c.maxSize source else (0, t)

/-- What the converter has returned, if it has a plane. -/
def conversionOf : Option (Option OwnedGrayscaleBuffer × Option Nat) → Option Conversion
  | some (some grayscale, signature) => some ⟨grayscale, signature.getD 0⟩
  | _ => none

/-- The worker takes a capture; a source change makes the tracker forget. -/
def dequeuedTracker (x : TrackedPipeline) : DeviceRgbFrameTracker :=
  if !x.pipeline.stopping && x.pipeline.resetSourceState then x.rgbTracker.reset else x.rgbTracker

inductive Action
  /-- A step of the pipeline, other than the return of the converter. -/
  | pipeline (a : Pipeline.Action)
  /-- `converter_.Convert`, with the fence of the capture and the calls it makes. -/
  | convert (readyFence : Option Nat) (calls : List ConverterEvent)

inductive Event
  | pipeline (e : Pipeline.Event)
  /-- The demand gate has evaluated this capture. -/
  | evaluated (composition : CapturedComposition)

/-- The capture that is being evaluated. -/
def evaluatedEvents (s : Pipeline) : List Event :=
  match s.worker with
  | .checked job _ => [.evaluated job.composition]
  | _ => []

def convert (c : Settings) (x : TrackedPipeline) (readyFence : Option Nat)
    (calls : List ConverterEvent) : Option (TrackedPipeline × List Event) :=
  match x.pipeline.worker with
  | .converting job =>
    match ((AndroidGrayscaleConverter.convert (sign c) job.composition.composeBuffer readyFence
        c.rotation).run x.rgbTracker).replay calls with
    | none => none
    | some (result, tracker) =>
      (x.pipeline.step c.toSettings (.convert (conversionOf result))).map fun r =>
        (⟨r.1, tracker⟩, r.2.map .pipeline)
  | _ => none

def step (c : Settings) (x : TrackedPipeline) : Action → Option (TrackedPipeline × List Event)
  | .convert readyFence calls => x.convert c readyFence calls
  | .pipeline (.convert _) => none
  | .pipeline .dequeue =>
    (x.pipeline.step c.toSettings .dequeue).map fun r =>
      (⟨r.1, x.dequeuedTracker⟩, r.2.map .pipeline)
  | .pipeline .evaluate =>
    (x.pipeline.step c.toSettings .evaluate).map fun r =>
      (⟨r.1, x.rgbTracker⟩, evaluatedEvents x.pipeline ++ r.2.map .pipeline)
  | .pipeline a =>
    (x.pipeline.step c.toSettings a).map fun r => ({ x with pipeline := r.1 }, r.2.map .pipeline)

def system (c : Settings) : System TrackedPipeline Action Event where
  step := step c

/-! ### The newest ordinary frame -/

/-- The capture in the worker's hands that goes on to the adapter. -/
def leaving (c : Settings) : Pipeline.WorkerPhase → List (Option PanelContent)
  | .evaluated job _ .passThrough _ demand =>
    if demand = .unchanged then [] else [captured c job.composition]
  | .assembled frame => if frame.IsOrdinary then [shown c frame] else []
  | _ => []

/-- The frame that the adapter's worker has taken and the engine has not returned. -/
def taken : PresentationAdapter.WorkerPhase → Option Frame
  | .taken frame _ => some frame
  | .submitting frame _ _ => some frame
  | _ => none

/-- What the ordinary frames among some show. -/
def ordinary (c : Settings) (frames : List Frame) : List (Option PanelContent) :=
  (frames.filter fun frame => decide frame.IsOrdinary).map (shown c)

/-- The frame of a submission. -/
def Event.offered : Event → Option Frame
  | .pipeline (.submitted frame _) => some frame
  | _ => none

/-- What the engine has been asked to show, the newest first. -/
def offered (c : Settings) (log : List Event) : List (Option PanelContent) :=
  ordinary c (log.filterMap Event.offered).reverse

/-- What is on its way to the engine, the newest first. -/
def onItsWay (c : Settings) (s : Pipeline) : List (Option PanelContent) :=
  leaving c s.worker ++ ordinary c s.adapter.pending.toList ++
    ordinary c (taken s.adapter.worker).toList

/-- What the newest ordinary frame shows, wherever it is by now. -/
def newest (c : Settings) (log : List Event) (s : Pipeline) : Option (Option PanelContent) :=
  (onItsWay c s ++ offered c log).head?

/-- A sleep cycle has been consumed, or the worker forgets its baseline before the next capture. -/
def Unsettled (s : Pipeline) : Prop :=
  s.sleepImageLatch.state = .consumed ∨ s.resetDemandGate = true ∨ s.resetSourceState = true

instance (s : Pipeline) : Decidable (Unsettled s) := inferInstanceAs (Decidable (_ ∨ _ ∨ _))

/-- The capture that the gate has evaluated. -/
def Event.capture : Event → Option CapturedComposition
  | .evaluated composition => some composition
  | _ => none

/-- The last capture that the demand gate evaluated. -/
def lastEvaluated (log : List Event) : Option CapturedComposition :=
  (log.filterMap Event.capture).getLast?

end TrackedPipeline

end EinkLab
