import EinkLab.Frame.Frame
import EinkLab.Transition.Run
import Mathlib.Algebra.GroupWithZero.Nat

/-!
# The sleep-image latch

`SleepImageLatch` (`eink_sleep_image_latch.cpp`): one sleep cycle is armed with a fresh epoch, is
consumed once, by a direct presentation or by the first dark full frame, and holds dark frames back
until the disarm with the same epoch.

The abstract class `GrayscaleBuffer` of the source is a Lean class, so that the latch is defined
for every implementation of the interface; `Evaluate` reads and writes two fields of a frame, which
`ConvertedFrame` collects.  Epochs are natural numbers: the latch only compares them.

`SleepImageLatch.system` is the latch as a labelled system whose log keeps the accepted calls and
every evaluation.
-/

namespace EinkLab

open Transition

/-! ### Grayscale buffers -/

/-- The interface `GrayscaleBuffer`: `Data()` may be null, else it points at `ByteCount()` bytes. -/
class GrayscaleBuffer (β : Type) where
  data : β → Option (List UInt8)
  byteCount : β → Nat
  length_of_data : ∀ b bytes, data b = some bytes → bytes.length = byteCount b

/-- An empty vector may have a null `data()`; no check of the source can tell, for a byte count of
`0` is refused first. -/
instance : GrayscaleBuffer OwnedGrayscaleBuffer where
  data b := some b.pixels
  byteCount := OwnedGrayscaleBuffer.byteCount
  length_of_data := by
    intro b bytes h
    obtain rfl := Option.some.inj h
    rfl

/-- The two fields of a `Frame` the latch reads. -/
structure ConvertedFrame (β : Type) where
  dirtyRect : Rect
  grayscaleBuffer : Option β
  deriving DecidableEq, Repr

structure SleepImageCandidate (β : Type) where
  buffer : Option β := none
  alpha : Option (List UInt8) := none
  rgba : Option (List UInt8) := none
  width : Int := 0
  height : Int := 0
  deriving DecidableEq, Repr

/-- `Selector`: a function of the panel width and height. -/
abbrev Selector (β : Type) := Int → Int → SleepImageCandidate β

/-! ### Results and states -/

inductive SleepImageDecision
  | passThrough | replace | suppress
  deriving DecidableEq, Repr

inductive SleepImageArmResult
  | accepted | rejectedZero | rejectedStale | rejectedDuplicate | rejectedMismatched
  deriving DecidableEq, Repr

inductive SleepImageDisarmResult
  | accepted | rejectedZero | rejectedInactive | rejectedMismatched
  deriving DecidableEq, Repr

inductive SleepImagePresentationResult
  | accepted | rejectedZero | rejectedStale | rejectedInactive | rejectedMismatched
  | rejectedDuplicate | rejectedCatalog | rejectedUnavailable | rejectedEnqueue | rejectedAlpha
  | rejectedBackground
  deriving DecidableEq, Repr

inductive SleepImageLatchState
  | inactive | armed | consumed | blackFallback
  deriving DecidableEq, Repr

/-- Panel-gray samples in `[0, 96]` are the early dark-fade range. -/
def kSleepImageMaximumGray : UInt8 := 96

inductive TerminalBlackOutcome
  | none | candidateReplaced | catalogMissingFallback | duplicateSuppressed | rearmed
  deriving DecidableEq, Repr

structure SleepImageEvaluationSummary where
  validFullFrame : Bool := false
  minimumGray : UInt8 := 0
  maximumGray : UInt8 := 0
  meanGray : UInt8 := 0
  threshold : UInt8 := kSleepImageMaximumGray
  stateBefore : SleepImageLatchState := .inactive
  ready : Bool := false
  holding : Bool := false
  decision : SleepImageDecision := .passThrough
  outcome : TerminalBlackOutcome := .none
  deriving DecidableEq, Repr

structure SleepImageLatch where
  state : SleepImageLatchState := .inactive
  lastArmedEpoch : Nat := 0
  activeEpoch : Nat := 0
  lastOutcome : TerminalBlackOutcome := .none
  lastEvaluation : SleepImageEvaluationSummary := {}
  deriving DecidableEq, Repr

/-! ### Full frames -/

/-- `std::numeric_limits<int>::max()` and `std::numeric_limits<std::size_t>::max()`. -/
def intMax : Int := 2147483647
def sizeMax : Nat := 18446744073709551615

/-- `FullFrameSize`: the area of an origin-aligned valid rectangle, unless it overflows. -/
def fullFrameSize (r : Rect) : Option Nat :=
  if r.left ≠ 0 ∨ r.top ≠ 0 ∨ r.isValid = false then none
  else if r.right > intMax / r.bottom then none
  else if r.right.toNat > sizeMax / r.bottom.toNat then none
  else some (r.right.toNat * r.bottom.toNat)

/-- The extrema and the mean of the converted bytes. -/
def summarize (bytes : List UInt8) (stateBefore : SleepImageLatchState) :
    SleepImageEvaluationSummary where
  validFullFrame := true
  minimumGray := bytes.foldl min 255
  maximumGray := bytes.foldl max 0
  meanGray := UInt8.ofNat ((bytes.map UInt8.toNat).sum / bytes.length)
  threshold := kSleepImageMaximumGray
  stateBefore := stateBefore
  ready := stateBefore = .armed
  holding := stateBefore = .consumed

section

variable {β : Type} [GrayscaleBuffer β]

/-- The bytes of a valid full frame: a buffer with data, of exactly the size of the geometry. -/
def ConvertedFrame.fullFrame? (f : ConvertedFrame β) : Option (List UInt8) := do
  let buffer ← f.grayscaleBuffer
  let size ← fullFrameSize f.dirtyRect
  let bytes ← GrayscaleBuffer.data buffer
  if GrayscaleBuffer.byteCount buffer = size then some bytes else none

/-- A valid full frame whose maximum gray is within the threshold. -/
def ConvertedFrame.IsDark (f : ConvertedFrame β) : Prop :=
  ∃ bytes, f.fullFrame? = some bytes ∧
    (summarize bytes .inactive).maximumGray ≤ kSleepImageMaximumGray

/-- The buffer of a candidate that can stand in for a `width × height` frame of `size` bytes. -/
def SleepImageCandidate.fitting (c : SleepImageCandidate β) (width height : Int) (size : Nat) :
    Option β := do
  let buffer ← c.buffer
  let _ ← GrayscaleBuffer.data buffer
  if c.width = width ∧ c.height = height ∧ GrayscaleBuffer.byteCount buffer = size then
    some buffer
  else none

end

namespace SleepImageLatch

/-! ### The operations -/

def armSleepCycle (l : SleepImageLatch) (epoch : Nat) : SleepImageArmResult × SleepImageLatch :=
  if epoch = 0 then (.rejectedZero, l)
  else if epoch < l.lastArmedEpoch then (.rejectedStale, l)
  else if epoch = l.lastArmedEpoch then (.rejectedDuplicate, l)
  else if l.activeEpoch ≠ 0 then (.rejectedMismatched, l)
  else (.accepted, { l with lastArmedEpoch := epoch, activeEpoch := epoch, state := .armed })

def beginPresentation (l : SleepImageLatch) (epoch : Nat) :
    SleepImagePresentationResult × SleepImageLatch :=
  if epoch = 0 then (.rejectedZero, l)
  else if l.activeEpoch = 0 then (.rejectedInactive, l)
  else if epoch ≠ l.activeEpoch then (.rejectedMismatched, l)
  else if l.state ≠ .armed then (.rejectedDuplicate, l)
  else (.accepted, { l with state := .consumed })

def disarmSleepCycle (l : SleepImageLatch) (epoch : Nat) :
    SleepImageDisarmResult × SleepImageLatch :=
  if epoch = 0 then (.rejectedZero, l)
  else if l.activeEpoch = 0 then (.rejectedInactive, l)
  else if epoch ≠ l.activeEpoch then (.rejectedMismatched, l)
  else (.accepted, { l with activeEpoch := 0, state := .inactive })

/-- What `Evaluate` leaves: the latch, the frame, the decision, and the arguments of the selector
where it was consulted. -/
structure Evaluated (β : Type) where
  latch : SleepImageLatch
  frame : ConvertedFrame β
  decision : SleepImageDecision
  consulted : Option (Int × Int)
  deriving DecidableEq, Repr

/-- `finish` of `Evaluate`: the latch with the summary of this evaluation. -/
def finish (l : SleepImageLatch) (summary : SleepImageEvaluationSummary)
    (state : SleepImageLatchState) (outcome : TerminalBlackOutcome)
    (decision : SleepImageDecision) : SleepImageLatch :=
  { l with
    state := state
    lastOutcome := outcome
    lastEvaluation := { summary with decision := decision, outcome := outcome } }

def evaluate {β : Type} [GrayscaleBuffer β] (l : SleepImageLatch) (frame : ConvertedFrame β)
    (selector : Option (Selector β)) : Evaluated β :=
  match frame.fullFrame? with
  | none => ⟨{ l with lastOutcome := .none, lastEvaluation := {} }, frame, .passThrough, none⟩
  | some bytes =>
    let summary := summarize bytes l.state
    if summary.maximumGray > kSleepImageMaximumGray then
      ⟨l.finish summary l.state .none .passThrough, frame, .passThrough, none⟩
    else match l.state with
    | .inactive => ⟨l.finish summary .inactive .none .passThrough, frame, .passThrough, none⟩
    | .consumed =>
      ⟨l.finish summary .consumed .duplicateSuppressed .suppress, frame, .suppress, none⟩
    | .blackFallback =>
      ⟨l.finish summary .blackFallback .catalogMissingFallback .passThrough, frame, .passThrough,
        none⟩
    | .armed =>
      match selector with
      | none =>
        ⟨l.finish summary .blackFallback .catalogMissingFallback .passThrough, frame,
          .passThrough, none⟩
      | some select =>
        let width := frame.dirtyRect.right
        let height := frame.dirtyRect.bottom
        match (select width height).fitting width height bytes.length with
        | none =>
          ⟨l.finish summary .blackFallback .catalogMissingFallback .passThrough, frame,
            .passThrough, some (width, height)⟩
        | some buffer =>
          ⟨l.finish summary .consumed .candidateReplaced .replace,
            { frame with grayscaleBuffer := some buffer }, .replace, some (width, height)⟩

/-- `Evaluate` on a frame of the pipeline. -/
def evaluateFrame (l : SleepImageLatch) (frame : Frame)
    (selector : Option (Selector OwnedGrayscaleBuffer)) :
    SleepImageLatch × Frame × SleepImageDecision :=
  let r := l.evaluate ⟨frame.dirtyRect, frame.grayscaleBuffer⟩ selector
  (r.latch, { frame with grayscaleBuffer := r.frame.grayscaleBuffer }, r.decision)

/-! ### The latch as a system -/

inductive Action (β : Type)
  | armSleepCycle (epoch : Nat)
  | beginPresentation (epoch : Nat)
  | disarmSleepCycle (epoch : Nat)
  | evaluate (frame : ConvertedFrame β) (selector : Option (Selector β))

/-- Accepted calls, and evaluations with what they found and what they left. -/
inductive Event (β : Type)
  | armed (epoch : Nat)
  | presented (epoch : Nat)
  | disarmed (epoch : Nat)
  | evaluated (before : SleepImageLatch) (frame : ConvertedFrame β) (result : Evaluated β)

variable {β : Type} [GrayscaleBuffer β]

def step (l : SleepImageLatch) : Action β → SleepImageLatch × List (Event β)
  | .armSleepCycle epoch =>
    let (result, l') := l.armSleepCycle epoch
    (l', if result = .accepted then [.armed epoch] else [])
  | .beginPresentation epoch =>
    let (result, l') := l.beginPresentation epoch
    (l', if result = .accepted then [.presented epoch] else [])
  | .disarmSleepCycle epoch =>
    let (result, l') := l.disarmSleepCycle epoch
    (l', if result = .accepted then [.disarmed epoch] else [])
  | .evaluate frame selector =>
    let r := l.evaluate frame selector
    (r.latch, [.evaluated l frame r])

def system (β : Type) [GrayscaleBuffer β] : System SleepImageLatch (Action β) (Event β) where
  step l a := some (l.step a)

/-! ### What a call can do -/

omit [GrayscaleBuffer β] in
/-- An accepted arm takes a fresh epoch while no cycle is active; any other changes nothing. -/
theorem armSleepCycle_cases (l : SleepImageLatch) (epoch : Nat) :
    (l.lastArmedEpoch < epoch ∧ l.activeEpoch = 0 ∧ l.armSleepCycle epoch =
        (.accepted, { l with lastArmedEpoch := epoch, activeEpoch := epoch, state := .armed })) ∨
      ((l.armSleepCycle epoch).1 ≠ .accepted ∧ (l.armSleepCycle epoch).2 = l) := by
  unfold armSleepCycle
  split_ifs with h0 h1 h2 h3
  · right; simp
  · right; simp
  · right; simp
  · right; simp
  · left
    have hlt : l.lastArmedEpoch < epoch := by omega
    exact ⟨hlt, not_not.mp h3, rfl⟩

/-- An accepted presentation consumes the armed cycle of that epoch. -/
theorem beginPresentation_cases (l : SleepImageLatch) (epoch : Nat) :
    (epoch ≠ 0 ∧ l.activeEpoch = epoch ∧ l.state = .armed ∧
        l.beginPresentation epoch = (.accepted, { l with state := .consumed })) ∨
      ((l.beginPresentation epoch).1 ≠ .accepted ∧ (l.beginPresentation epoch).2 = l) := by
  unfold beginPresentation
  split_ifs with h0 h1 h2 h3
  · right; simp
  · right; simp
  · right; simp
  · right; simp
  · left
    exact ⟨h0, (not_not.mp h2).symm, not_not.mp h3, rfl⟩

/-- An accepted disarm ends the active cycle, which has that epoch. -/
theorem disarmSleepCycle_cases (l : SleepImageLatch) (epoch : Nat) :
    (epoch ≠ 0 ∧ l.activeEpoch = epoch ∧
        l.disarmSleepCycle epoch = (.accepted, { l with activeEpoch := 0, state := .inactive })) ∨
      ((l.disarmSleepCycle epoch).1 ≠ .accepted ∧ (l.disarmSleepCycle epoch).2 = l) := by
  unfold disarmSleepCycle
  split_ifs with h0 h1 h2
  · right; simp
  · right; simp
  · right; simp
  · left
    exact ⟨h0, (not_not.mp h2).symm, rfl⟩

end SleepImageLatch

end EinkLab
