import EinkLab.Frame.Frame
import EinkLab.Transition.Run
import Mathlib.Order.Defs.LinearOrder

/-!
# The micro-delta policy

`MicroDeltaPolicy` with the integer types of the source: counts are `UInt64`, limits `UInt32`, edges
`Int32`, and unsigned arithmetic wraps.  A difference of two `int`s is exact here: where it leaves
the range of `int` the source has no defined meaning.  The settle and repeat times are in
milliseconds, as in the source, and the clock is in nanoseconds.
-/

namespace EinkLab.MicroDelta

open Transition

structure GrayscaleDelta where
  changedPixels : UInt64 := 0
  lighterPixels : UInt64 := 0
  darkerPixels : UInt64 := 0
  totalPixels : UInt64 := 0
  left : Int32 := 0
  top : Int32 := 0
  right : Int32 := 0
  bottom : Int32 := 0
  deriving DecidableEq, Repr

def GrayscaleDelta.coveragePpm (d : GrayscaleDelta) : UInt32 :=
  if d.totalPixels = 0 then 0
  else (min (d.changedPixels * 1000000 / d.totalPixels) 1000000).toUInt32

inductive MicroChromeEdge
  | top
  | bottom
  deriving DecidableEq, Repr

structure MicroDeltaConfig where
  changedPpm : UInt32 := 2000
  boundingBoxPpm : UInt32 := 5000
  edgeBandPpm : UInt32 := 120000
  chromeEdge : MicroChromeEdge := .bottom
  materialMovePixels : UInt32 := 32
  settle : Int := 300
  repeatFor : Int := 2000
  deriving DecidableEq, Repr

/-- `chrome_edge` is one of the two edges by its type. -/
def MicroDeltaConfig.isValid (c : MicroDeltaConfig) : Bool :=
  c.changedPpm ≥ 100 && c.changedPpm ≤ 10000 && c.boundingBoxPpm ≥ 100 &&
    c.boundingBoxPpm ≤ 25000 && c.edgeBandPpm ≥ 10000 && c.edgeBandPpm ≤ 250000 &&
    c.materialMovePixels > 0 && c.settle ≥ 100 && c.settle ≤ 1000 && c.repeatFor ≥ 500 &&
    c.repeatFor ≤ 5000

def milliseconds (n : Int) : Duration := n * 1000000

inductive MicroDeltaDecision
  | submitSubstantive
  | submitPromoted
  | held
  | repeatSuppressed
  deriving DecidableEq, Repr

structure Signature where
  delta : GrayscaleDelta
  width : Int32
  height : Int32
  deriving DecidableEq, Repr

structure Diagnostics where
  held : UInt64 := 0
  promoted : UInt64 := 0
  expirySubmitted : UInt64 := 0
  repeatSuppressed : UInt64 := 0
  substantiveBypass : UInt64 := 0
  deriving DecidableEq, Repr

structure MicroDeltaPolicy where
  config : MicroDeltaConfig := {}
  signature : Option Signature := none
  deadline : Option TimePoint := none
  deferred : Bool := false
  repeatGuard : Bool := false
  diagnostics : Diagnostics := {}
  deriving DecidableEq, Repr

/-! ### Classification -/

def ratioPpm (numerator denominator : UInt64) : UInt32 :=
  if denominator = 0 then 0
  else (min (numerator * 1000000 / denominator) 1000000).toUInt32

def intersects (left right : GrayscaleDelta) : Bool :=
  left.left < right.right && right.left < left.right && left.top < right.bottom &&
    right.top < left.bottom

/-- `static_cast<int>(limit)` keeps the bits: from 2³¹ on the limit is negative. -/
def withinLimit (limit : UInt32) (before after : Int32) : Bool :=
  ((before.toInt - after.toInt).natAbs : Int) ≤ limit.toInt32.toInt

def edgeMovedMaterially (left right : GrayscaleDelta) (limit : UInt32) : Bool :=
  !withinLimit limit left.left right.left || !withinLimit limit left.top right.top ||
    !withinLimit limit left.right right.right || !withinLimit limit left.bottom right.bottom

def MicroDeltaConfig.isMicro (c : MicroDeltaConfig) (d : GrayscaleDelta) (width height : Int32) :
    Bool :=
  if width ≤ 0 ∨ height ≤ 0 ∨ d.changedPixels = 0 ∨
      d.totalPixels ≠ width.toInt64.toUInt64 * height.toInt64.toUInt64 then
    false
  else
    let boxWidth := d.right.toInt - d.left.toInt
    let boxHeight := d.bottom.toInt - d.top.toInt
    if boxWidth ≤ 0 ∨ boxHeight ≤ 0 ∨ d.left < 0 ∨ d.top < 0 ∨ d.right > width ∨
      d.bottom > height then
      false
    else
      let boxArea := UInt64.ofInt boxWidth * UInt64.ofInt boxHeight
      let edgeDistance := match c.chromeEdge with
        | .top => d.bottom.toInt64.toUInt64
        | .bottom => UInt64.ofInt (height.toInt - d.top.toInt)
      d.coveragePpm ≤ c.changedPpm && ratioPpm boxArea d.totalPixels ≤ c.boundingBoxPpm &&
        ratioPpm edgeDistance height.toInt64.toUInt64 ≤ c.edgeBandPpm

def MicroDeltaConfig.isEquivalent (c : MicroDeltaConfig) (previous : Signature)
    (current : GrayscaleDelta) (width height : Int32) : Bool :=
  previous.width = width && previous.height = height && c.isMicro current width height &&
    intersects previous.delta current &&
    !edgeMovedMaterially previous.delta current c.materialMovePixels

/-! ### The policy -/

namespace MicroDeltaPolicy

/-- The constructor; an invalid configuration is replaced by the defaults. -/
def create (config : MicroDeltaConfig) : MicroDeltaPolicy :=
  if config.isValid then { config := config } else {}

def reconfigure (p : MicroDeltaPolicy) (config : MicroDeltaConfig) : Bool × MicroDeltaPolicy :=
  if !config.isValid then (false, p)
  else if p.config = config then (false, p)
  else (true, { p with config := config })

def reset (p : MicroDeltaPolicy) : MicroDeltaPolicy :=
  { p with signature := none, deadline := none, deferred := false, repeatGuard := false }

/-- The guard, its deadline and its signature go; a candidate deferred under it stays deferred. -/
def clearExpiredRepeat (p : MicroDeltaPolicy) (now : TimePoint) : MicroDeltaPolicy :=
  match p.deadline with
  | none => p
  | some deadline =>
    if !p.repeatGuard ∨ now < deadline then p
    else { p with repeatGuard := false, deadline := none, signature := none }

/-- The rest of `Evaluate`, for a micro delta. -/
def evaluateMicro (p : MicroDeltaPolicy) (delta : GrayscaleDelta) (width height : Int32)
    (now : TimePoint) : MicroDeltaDecision × MicroDeltaPolicy :=
  match p.signature with
  | none =>
    (.held,
      { p with
        signature := some ⟨delta, width, height⟩
        deadline := some (now + milliseconds p.config.settle)
        deferred := true
        diagnostics.held := p.diagnostics.held + 1 })
  | some previous =>
    if !p.config.isEquivalent previous delta width height then
      (.submitPromoted,
        { p.reset with diagnostics.promoted := p.diagnostics.promoted + 1 })
    else if p.repeatGuard then
      (.repeatSuppressed,
        { p with
          signature := some ⟨delta, width, height⟩
          deferred := true
          diagnostics.repeatSuppressed := p.diagnostics.repeatSuppressed + 1 })
    else
      (.held,
        { p with
          signature := some ⟨delta, width, height⟩
          deferred := true
          diagnostics.held := p.diagnostics.held + 1 })

/-- `Evaluate` for a delta that is missing or not micro. -/
def bypass (p : MicroDeltaPolicy) : MicroDeltaDecision × MicroDeltaPolicy :=
  let p := if p.deferred ∨ p.repeatGuard then p.reset else p
  (.submitSubstantive,
    { p with diagnostics.substantiveBypass := p.diagnostics.substantiveBypass + 1 })

def evaluate (p : MicroDeltaPolicy) (delta : Option GrayscaleDelta) (width height : Int32)
    (now : TimePoint) : MicroDeltaDecision × MicroDeltaPolicy :=
  let p := p.clearExpiredRepeat now
  match delta with
  | none => p.bypass
  | some delta =>
    if !p.config.isMicro delta width height then p.bypass
    else p.evaluateMicro delta width height now

/-- `Deadline()`: the deadline is the caller's only while a candidate is deferred. -/
def dueAt (p : MicroDeltaPolicy) : Option TimePoint := if p.deferred then p.deadline else none

def markExpirySubmitted (p : MicroDeltaPolicy) (now : TimePoint) : MicroDeltaPolicy :=
  if !p.deferred then p
  else
    { p with
      deferred := false
      repeatGuard := true
      deadline := some (now + milliseconds p.config.repeatFor)
      diagnostics.expirySubmitted := p.diagnostics.expirySubmitted + 1 }

end MicroDeltaPolicy

/-! ### Runs -/

inductive Call
  | evaluate (delta : Option GrayscaleDelta) (width height : Int32) (now : TimePoint)
  | markExpirySubmitted (now : TimePoint)
  | reset
  | reconfigure (config : MicroDeltaConfig)
  deriving DecidableEq, Repr

def Call.now : Call → Option TimePoint
  | .evaluate _ _ _ now | .markExpirySubmitted now => some now
  | .reset | .reconfigure _ => none

/-- What a call returns, and what it makes of the policy. -/
def Call.apply (p : MicroDeltaPolicy) : Call → Option MicroDeltaDecision × MicroDeltaPolicy
  | .evaluate delta width height now =>
    (some (p.evaluate delta width height now).1, (p.evaluate delta width height now).2)
  | .markExpirySubmitted now => (none, p.markExpirySubmitted now)
  | .reset => (none, p.reset)
  | .reconfigure config => (none, (p.reconfigure config).2)

/-- The longer of the two times that a candidate may wait. -/
def MicroDeltaConfig.longestWait (c : MicroDeltaConfig) : Duration :=
  max (milliseconds c.settle) (milliseconds c.repeatFor)

/-- The policy, the last time read from the clock, since when a candidate has been deferred without
a break, and the longest wait of the configuration that the present deadline was set under. -/
structure Watched where
  policy : MicroDeltaPolicy
  clock : Option TimePoint := none
  since : Option TimePoint := none
  longestWait : Duration := 0
  deriving DecidableEq, Repr

/-- One call: the policy before and after it, and the decision where it is an `Evaluate`. -/
structure Called where
  call : Call
  decision : Option MicroDeltaDecision
  before : MicroDeltaPolicy
  after : MicroDeltaPolicy
  deriving DecidableEq, Repr

def Watched.next (w : Watched) (c : Call) : Watched where
  policy := (c.apply w.policy).2
  clock := c.now <|> w.clock
  since :=
    if !(c.apply w.policy).2.deferred then none
    else if w.policy.deferred then w.since
    else c.now
  longestWait :=
    if (c.apply w.policy).2.deadline = w.policy.deadline then w.longestWait
    else w.policy.config.longestWait

def system : System Watched Call Called where
  step w c :=
    some (w.next c, [⟨c, (c.apply w.policy).1, w.policy, (c.apply w.policy).2⟩])

/-- The clock of the calls does not go back. -/
def Monotone (w : Watched) (c : Call) : Prop := ∀ last ∈ w.clock, ∀ now ∈ c.now, last ≤ now

instance (w : Watched) (c : Call) : Decidable (Monotone w c) :=
  inferInstanceAs (Decidable (∀ last ∈ w.clock, ∀ now ∈ c.now, last ≤ now))

/-- No micro delta is evaluated at or after the deadline of the repeat guard while a candidate is
deferred under it. -/
def Timely (w : Watched) : Call → Prop
  | .evaluate delta width height now =>
    ∀ d ∈ delta, ∀ deadline ∈ w.policy.deadline, w.policy.config.isMicro d width height = true →
      w.policy.deferred = true → w.policy.repeatGuard = true → now < deadline
  | .markExpirySubmitted _ | .reset | .reconfigure _ => True

instance (w : Watched) : (c : Call) → Decidable (Timely w c)
  | .evaluate delta .. =>
    inferInstanceAs (Decidable (∀ d ∈ delta, ∀ deadline ∈ w.policy.deadline, _))
  | .markExpirySubmitted _ | .reset | .reconfigure _ => inferInstanceAs (Decidable True)

end EinkLab.MicroDelta
