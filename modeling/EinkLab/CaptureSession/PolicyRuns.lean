import EinkLab.CaptureSession.Policies
import EinkLab.Transition.Run

/-!
# The policies on their own

`FullPoolResamplePolicy` and `CaptureAdmissionPolicy` as labelled systems: whatever calls come, in
whatever order, and not only those that `CaptureM3` makes.  An obligation has no identity in the
source; the number of its creation serves as one.
-/

namespace EinkLab.CaptureSession

open Transition

/-! ### The full-pool resample policy -/

namespace FullPoolResamplePolicy

/-- `FullPoolResampleConfig::IsValid`: 100 milliseconds to 2 seconds. -/
def validExpiry (expiry : Duration) : Bool := expiry ≥ 100000000 && expiry ≤ 2000000000

/-- The constructor; an invalid configuration is replaced by the defaults. -/
def create (expiry : Duration) : FullPoolResamplePolicy :=
  if validExpiry expiry then { expiry := expiry } else {}

def reconfigure (p : FullPoolResamplePolicy) (expiry : Duration) : Bool × FullPoolResamplePolicy :=
  if !validExpiry expiry || expiry = p.expiry then (false, p)
  else (true, { p with expiry := expiry }.cancel)

/-- The policy, and the decision of a capture opportunity whose outcome is still to be recorded. -/
structure Watched where
  policy : FullPoolResamplePolicy
  taken : Option FullPoolCaptureDecision := none
  deriving DecidableEq, Repr

inductive Call
  | observeFullPool (poolFull : Bool) (state : FullPoolPipelineState) (now : TimePoint)
  | onResourceReleased (now : TimePoint)
  | takeCaptureOpportunity
  | recordCaptureOutcome (decision : FullPoolCaptureDecision) (copied : Bool)
  | cancel
  | reconfigure (expiry : Duration)
  deriving DecidableEq, Repr

/-- What happens to an obligation. -/
inductive Milestone
  | created (obligation : Nat) (deadline : TimePoint)
  | released (obligation : Nat) (decision : FullPoolReleaseDecision) (now : TimePoint)
  | taken (obligation : Nat) (decision : FullPoolCaptureDecision)
  deriving DecidableEq, Repr

/-- `CaptureM3`'s order: a taken obligation is recorded, with the decision that was returned, before
the pool is observed or an opportunity taken again. -/
def InOrder (w : Watched) : Call → Prop
  | .observeFullPool .. | .takeCaptureOpportunity => w.taken = none
  | .recordCaptureOutcome decision _ => decision = .normalCapture ∨ w.taken = some decision
  | .onResourceReleased _ | .cancel | .reconfigure _ => True

instance (w : Watched) : (c : Call) → Decidable (InOrder w c)
  | .observeFullPool .. | .takeCaptureOpportunity => inferInstanceAs (Decidable (w.taken = none))
  | .recordCaptureOutcome .. => inferInstanceAs (Decidable (_ ∨ _))
  | .onResourceReleased _ | .cancel | .reconfigure _ => inferInstanceAs (Decidable True)

def step (w : Watched) : Call → Option (Watched × List Milestone)
  | .observeFullPool poolFull state now =>
    let observed := w.policy.observeFullPool poolFull state now
    some ({ w with policy := observed.2 },
      if observed.1 = .created then
        [.created observed.2.diagnostics.created observed.2.deadline]
      else [])
  | .onResourceReleased now =>
    let released := w.policy.onResourceReleased now
    some ({ w with policy := released.2 },
      if released.1 = .none then []
      else [.released released.2.diagnostics.created released.1 now])
  | .takeCaptureOpportunity =>
    let opportunity := w.policy.takeCaptureOpportunity
    if opportunity.1 = .normalCapture then some ({ w with policy := opportunity.2 }, [])
    else
      some (⟨opportunity.2, some opportunity.1⟩,
        [.taken opportunity.2.diagnostics.created opportunity.1])
  | .recordCaptureOutcome decision copied =>
    some (⟨w.policy.recordCaptureOutcome decision copied,
      if decision = .normalCapture then w.taken else none⟩, [])
  | .cancel => some ({ w with policy := w.policy.cancel }, [])
  | .reconfigure expiry => some ({ w with policy := (w.policy.reconfigure expiry).2 }, [])

def system : System Watched Call Milestone where
  step := step

end FullPoolResamplePolicy

/-! ### The admission policy -/

namespace CaptureAdmissionPolicy

/-- The constructor; an invalid configuration is replaced by the defaults. -/
def create (window : Duration) : CaptureAdmissionPolicy :=
  if validWindow window then { lateSampleWindow := window } else {}

/-- The arguments of one `Evaluate`. -/
structure Opportunity where
  retainedCandidate : Bool
  nextEligible : Option TimePoint
  now : TimePoint
  deriving DecidableEq, Repr

structure Evaluated where
  opportunity : Opportunity
  decision : CaptureAdmissionDecision
  deriving DecidableEq, Repr

def system : System CaptureAdmissionPolicy Opportunity Evaluated where
  step p o :=
    some ((p.evaluate o.retainedCandidate o.nextEligible o.now).2,
      [⟨o, (p.evaluate o.retainedCandidate o.nextEligible o.now).1⟩])

/-- The slots that a late replacement was captured for. -/
def lateSlots (log : List Evaluated) : List (Option TimePoint) :=
  (log.filter fun e => e.decision = .captureLateReplacement).map fun e => e.opportunity.nextEligible

/-- The remembered slot is not overwritten by an earlier one: where a late replacement would be
captured, its slot is later than the one remembered. -/
def NotEarlier (p : CaptureAdmissionPolicy) (o : Opportunity) : Prop :=
  ∀ slot ∈ o.nextEligible, ∀ late ∈ p.lateSampledSlot,
    o.retainedCandidate = true → o.now < slot → slot - o.now ≤ p.lateSampleWindow → late ≤ slot

end CaptureAdmissionPolicy

end EinkLab.CaptureSession
