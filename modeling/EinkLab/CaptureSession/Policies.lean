import EinkLab.Frame.Frame

/-!
# The policies of the capture seam

The four components `CaptureM3` consults: `FullPoolResamplePolicy`, `CaptureAdmissionPolicy`,
`CapturePressureAccounting` and `GpuSnapshotPool`.  Each method is a function of the component's
state; counters are natural numbers, and times are nanoseconds.
-/

namespace EinkLab.CaptureSession

/-! ### The full-pool resample policy -/

structure FullPoolPipelineState where
  conversionInFlight : Bool := false
  pendingCapture : Bool := false
  adapterRetained : Bool := false
  deriving DecidableEq, Repr

inductive FullPoolObservationDecision
  | ignored | created | coalesced
  deriving DecidableEq, Repr

inductive FullPoolReleaseDecision
  | none | dispatchResample | dispatchExpiryFallback
  deriving DecidableEq, Repr

inductive FullPoolCaptureDecision
  | normalCapture | resampleCapture | expiryFallbackCapture
  deriving DecidableEq, Repr

/-- A capture authorized by a deferred full-pool state. -/
abbrev FullPoolCaptureDecision.IsResample (d : FullPoolCaptureDecision) : Prop :=
  d ≠ .normalCapture

structure ResampleDiagnostics where
  created : Nat := 0
  coalesced : Nat := 0
  dispatched : Nat := 0
  expiryFallback : Nat := 0
  fulfilled : Nat := 0
  copyFailures : Nat := 0
  cancelled : Nat := 0
  deriving DecidableEq, Repr

structure FullPoolResamplePolicy where
  expiry : Duration := 500000000
  outstanding : Bool := false
  awaitingCapture : Bool := false
  awaitingExpiryFallback : Bool := false
  deadline : TimePoint := 0
  diagnostics : ResampleDiagnostics := {}
  deriving DecidableEq, Repr

namespace FullPoolResamplePolicy

def qualifies (poolFull : Bool) (state : FullPoolPipelineState) : Bool :=
  poolFull && state.conversionInFlight && state.pendingCapture && !state.adapterRetained

/-- Creates at most one obligation, only for a full pool with conversion and pending work. -/
def observeFullPool (p : FullPoolResamplePolicy) (poolFull : Bool) (state : FullPoolPipelineState)
    (now : TimePoint) : FullPoolObservationDecision × FullPoolResamplePolicy :=
  if !qualifies poolFull state then (.ignored, p)
  else if p.outstanding || p.awaitingCapture then
    (.coalesced,
      { p with diagnostics := { p.diagnostics with coalesced := p.diagnostics.coalesced + 1 } })
  else
    (.created,
      { p with
        outstanding := true
        deadline := now + p.expiry
        diagnostics := { p.diagnostics with created := p.diagnostics.created + 1 } })

/-- A resource return consumes the one obligation and asks for one composition. -/
def onResourceReleased (p : FullPoolResamplePolicy) (now : TimePoint) :
    FullPoolReleaseDecision × FullPoolResamplePolicy :=
  if !p.outstanding then (.none, p)
  else if now ≥ p.deadline then
    (.dispatchExpiryFallback,
      { p with
        outstanding := false
        awaitingCapture := true
        awaitingExpiryFallback := true
        diagnostics :=
          { p.diagnostics with expiryFallback := p.diagnostics.expiryFallback + 1 } })
  else
    (.dispatchResample,
      { p with
        outstanding := false
        awaitingCapture := true
        awaitingExpiryFallback := false
        diagnostics := { p.diagnostics with dispatched := p.diagnostics.dispatched + 1 } })

def takeCaptureOpportunity (p : FullPoolResamplePolicy) :
    FullPoolCaptureDecision × FullPoolResamplePolicy :=
  if !p.awaitingCapture then (.normalCapture, p)
  else
    (if p.awaitingExpiryFallback then .expiryFallbackCapture else .resampleCapture,
      { p with awaitingCapture := false })

def recordCaptureOutcome (p : FullPoolResamplePolicy) (decision : FullPoolCaptureDecision)
    (copied : Bool) : FullPoolResamplePolicy :=
  if decision = .normalCapture then p
  else
    { p with
      awaitingExpiryFallback := false
      diagnostics :=
        if copied then { p.diagnostics with fulfilled := p.diagnostics.fulfilled + 1 }
        else { p.diagnostics with copyFailures := p.diagnostics.copyFailures + 1 } }

def cancel (p : FullPoolResamplePolicy) : FullPoolResamplePolicy :=
  { p with
    outstanding := false
    awaitingCapture := false
    awaitingExpiryFallback := false
    diagnostics :=
      if p.outstanding || p.awaitingCapture then
        { p.diagnostics with cancelled := p.diagnostics.cancelled + 1 }
      else p.diagnostics }

def hasOutstandingObligation (p : FullPoolResamplePolicy) : Bool :=
  p.outstanding || p.awaitingCapture

/-- The obligation the policy holds, if any.  The policy gives obligations no identity; the number
of the creation serves as one. -/
def obligation (p : FullPoolResamplePolicy) : Option Nat :=
  if p.hasOutstandingObligation then some p.diagnostics.created else none

/-! ### What a call does to the obligation -/

/-- An observation is ignored, or counted, or creates the next obligation. -/
theorem observeFullPool_cases (p : FullPoolResamplePolicy) (poolFull : Bool)
    (state : FullPoolPipelineState) (now : TimePoint) :
    (p.observeFullPool poolFull state now).1 = .created ∧
        p.outstanding = false ∧ p.awaitingCapture = false ∧
        (p.observeFullPool poolFull state now).2 =
          { p with
            outstanding := true
            deadline := now + p.expiry
            diagnostics := { p.diagnostics with created := p.diagnostics.created + 1 } } ∨
      (p.observeFullPool poolFull state now).1 ≠ .created ∧
        ∃ d, (p.observeFullPool poolFull state now).2 = { p with diagnostics := d } ∧
          d.created = p.diagnostics.created := by
  unfold observeFullPool
  split_ifs with hqualifies hheld
  · right
    exact ⟨by simp, p.diagnostics, rfl, rfl⟩
  · right
    exact ⟨by simp, _, rfl, rfl⟩
  · left
    have hfree : p.outstanding = false ∧ p.awaitingCapture = false := by simpa using hheld
    exact ⟨rfl, hfree.1, hfree.2, rfl⟩

/-- A release does nothing, or turns the outstanding obligation into an awaited capture. -/
theorem onResourceReleased_cases (p : FullPoolResamplePolicy) (now : TimePoint) :
    (p.onResourceReleased now = (.none, p) ∧ p.outstanding = false) ∨
      ((p.onResourceReleased now).1 ≠ .none ∧ p.outstanding = true ∧
        ∃ late d, (p.onResourceReleased now).2 =
          { p with
            outstanding := false
            awaitingCapture := true
            awaitingExpiryFallback := late
            diagnostics := d } ∧ d.created = p.diagnostics.created) := by
  unfold onResourceReleased
  split_ifs with hout hlate
  · left
    exact ⟨rfl, by simpa using hout⟩
  · right
    exact ⟨by simp, by simpa using hout, true, _, rfl, rfl⟩
  · right
    exact ⟨by simp, by simpa using hout, false, _, rfl, rfl⟩

theorem takeCaptureOpportunity_cases (p : FullPoolResamplePolicy) :
    (p.takeCaptureOpportunity = (.normalCapture, p) ∧ p.awaitingCapture = false) ∨
      (p.takeCaptureOpportunity.1.IsResample ∧ p.awaitingCapture = true ∧
        p.takeCaptureOpportunity.2 = { p with awaitingCapture := false }) := by
  unfold takeCaptureOpportunity
  split_ifs with hnone hlate
  · left
    exact ⟨rfl, by simpa using hnone⟩
  · right
    exact ⟨by simp, by simpa using hnone, rfl⟩
  · right
    exact ⟨by simp, by simpa using hnone, rfl⟩

@[simp] theorem recordCaptureOutcome_outstanding (p : FullPoolResamplePolicy)
    (decision : FullPoolCaptureDecision) (copied : Bool) :
    (p.recordCaptureOutcome decision copied).outstanding = p.outstanding := by
  unfold recordCaptureOutcome
  split_ifs <;> rfl

@[simp] theorem recordCaptureOutcome_awaitingCapture (p : FullPoolResamplePolicy)
    (decision : FullPoolCaptureDecision) (copied : Bool) :
    (p.recordCaptureOutcome decision copied).awaitingCapture = p.awaitingCapture := by
  unfold recordCaptureOutcome
  split_ifs <;> rfl

@[simp] theorem recordCaptureOutcome_created (p : FullPoolResamplePolicy)
    (decision : FullPoolCaptureDecision) (copied : Bool) :
    (p.recordCaptureOutcome decision copied).diagnostics.created = p.diagnostics.created := by
  unfold recordCaptureOutcome
  split_ifs
  · rfl
  · rfl
  · rfl

@[simp] theorem cancel_created (p : FullPoolResamplePolicy) :
    p.cancel.diagnostics.created = p.diagnostics.created := by
  unfold cancel
  dsimp only
  split_ifs <;> rfl

end FullPoolResamplePolicy

/-! ### The admission policy -/

inductive CaptureAdmissionDecision
  | capture | skipRetainedCandidate | captureLateReplacement
  deriving DecidableEq, Repr

inductive CaptureAdmissionReason
  | noRetainedCandidate | noNextEligibleSlot | elapsedOutputSlot | closedSlotSkip | lateReplacement
  deriving DecidableEq, Repr

structure CaptureAdmissionPolicy where
  lateSampleWindow : Duration := 100000000
  lateSampledSlot : Option TimePoint := none
  lastReason : CaptureAdmissionReason := .noRetainedCandidate
  captureAllowed : Nat := 0
  captureSkippedRetained : Nat := 0
  lateSampleTaken : Nat := 0
  deriving DecidableEq, Repr

namespace CaptureAdmissionPolicy

/-- `CaptureAdmissionConfig::IsValid`: 25 to 250 milliseconds. -/
def validWindow (window : Duration) : Bool := 25000000 ≤ window && window ≤ 250000000

def reconfigure (p : CaptureAdmissionPolicy) (window : Duration) : CaptureAdmissionPolicy :=
  if !validWindow window then p
  else if p.lateSampleWindow = window then p
  else { p with lateSampleWindow := window, lateSampledSlot := none }

def evaluate (p : CaptureAdmissionPolicy) (retainedCandidate : Bool)
    (nextEligible : Option TimePoint) (now : TimePoint) :
    CaptureAdmissionDecision × CaptureAdmissionPolicy :=
  let allow (reason : CaptureAdmissionReason) : CaptureAdmissionDecision × CaptureAdmissionPolicy :=
    (.capture, { p with lastReason := reason, captureAllowed := p.captureAllowed + 1 })
  if !retainedCandidate then allow .noRetainedCandidate
  else match nextEligible with
  | none => allow .noNextEligibleSlot
  | some slot =>
    if now ≥ slot then allow .elapsedOutputSlot
    else if slot - now ≤ p.lateSampleWindow ∧ p.lateSampledSlot ≠ some slot then
      (.captureLateReplacement,
        { p with
          lateSampledSlot := some slot
          lastReason := .lateReplacement
          lateSampleTaken := p.lateSampleTaken + 1 })
    else
      (.skipRetainedCandidate,
        { p with
          lastReason := .closedSlotSkip
          captureSkippedRetained := p.captureSkippedRetained + 1 })

/-- The capture is skipped exactly for the reason `closedSlotSkip`. -/
theorem evaluate_skip_iff (p : CaptureAdmissionPolicy) (retainedCandidate : Bool)
    (nextEligible : Option TimePoint) (now : TimePoint) :
    (p.evaluate retainedCandidate nextEligible now).1 = .skipRetainedCandidate ↔
      (p.evaluate retainedCandidate nextEligible now).2.lastReason = .closedSlotSkip := by
  unfold evaluate
  dsimp only
  split_ifs
  · simp
  · cases nextEligible with
    | none => simp
    | some slot =>
      dsimp only
      split_ifs <;> simp

end CaptureAdmissionPolicy

/-! ### The pressure accounting -/

/-- The copy counters; the conversion-duration samples are left out. -/
structure CapturePressureAccounting where
  opportunities : Nat := 0
  noRetainedCandidate : Nat := 0
  noNextEligibleSlot : Nat := 0
  elapsedOutputSlot : Nat := 0
  closedSlotSkip : Nat := 0
  lateReplacement : Nat := 0
  attempts : Nat := 0
  attemptsBusyZero : Nat := 0
  attemptsBusyOne : Nat := 0
  attemptsBusyTwoOrMore : Nat := 0
  attemptsPoolFull : Nat := 0
  fullPoolConversionInFlight : Nat := 0
  fullPoolPendingCapture : Nat := 0
  fullPoolAdapterRetained : Nat := 0
  fullPoolDeferred : Nat := 0
  fullPoolDeferredConversionPending : Nat := 0
  resampleAttempts : Nat := 0
  copied : Nat := 0
  poolDrops : Nat := 0
  copyFailures : Nat := 0
  deriving DecidableEq, Repr

namespace CapturePressureAccounting

def recordOpportunity (a : CapturePressureAccounting) (reason : CaptureAdmissionReason) :
    CapturePressureAccounting :=
  let a := { a with opportunities := a.opportunities + 1 }
  match reason with
  | .noRetainedCandidate => { a with noRetainedCandidate := a.noRetainedCandidate + 1 }
  | .noNextEligibleSlot => { a with noNextEligibleSlot := a.noNextEligibleSlot + 1 }
  | .elapsedOutputSlot => { a with elapsedOutputSlot := a.elapsedOutputSlot + 1 }
  | .closedSlotSkip => { a with closedSlotSkip := a.closedSlotSkip + 1 }
  | .lateReplacement => { a with lateReplacement := a.lateReplacement + 1 }

/-- The occupancy buckets of `RecordAttempt`. -/
def recordBusy (a : CapturePressureAccounting) (poolBusy : Nat) : CapturePressureAccounting :=
  match poolBusy with
  | 0 => { a with attemptsBusyZero := a.attemptsBusyZero + 1 }
  | 1 => { a with attemptsBusyOne := a.attemptsBusyOne + 1 }
  | _ => { a with attemptsBusyTwoOrMore := a.attemptsBusyTwoOrMore + 1 }

def recordAttempt (a : CapturePressureAccounting) (poolBusy poolCapacity : Nat)
    (state : FullPoolPipelineState) : CapturePressureAccounting :=
  let a := { a with attempts := a.attempts + 1 }.recordBusy poolBusy
  if poolCapacity = 0 ∨ poolBusy < poolCapacity then a
  else
    { a with
      attemptsPoolFull := a.attemptsPoolFull + 1
      fullPoolConversionInFlight :=
        a.fullPoolConversionInFlight + if state.conversionInFlight then 1 else 0
      fullPoolPendingCapture := a.fullPoolPendingCapture + if state.pendingCapture then 1 else 0
      fullPoolAdapterRetained :=
        a.fullPoolAdapterRetained + if state.adapterRetained then 1 else 0 }

def recordFullPoolDeferred (a : CapturePressureAccounting) (state : FullPoolPipelineState) :
    CapturePressureAccounting :=
  { a with
    fullPoolDeferred := a.fullPoolDeferred + 1
    fullPoolDeferredConversionPending := a.fullPoolDeferredConversionPending +
      if state.conversionInFlight && state.pendingCapture && !state.adapterRetained then 1 else 0 }

def recordResampleAttempt (a : CapturePressureAccounting) : CapturePressureAccounting :=
  { a with resampleAttempts := a.resampleAttempts + 1 }

def recordCopied (a : CapturePressureAccounting) : CapturePressureAccounting :=
  { a with copied := a.copied + 1 }

def recordPoolDrop (a : CapturePressureAccounting) : CapturePressureAccounting :=
  { a with poolDrops := a.poolDrops + 1 }

def recordCopyFailure (a : CapturePressureAccounting) : CapturePressureAccounting :=
  { a with copyFailures := a.copyFailures + 1 }

def reasons (a : CapturePressureAccounting) : Nat :=
  a.noRetainedCandidate + a.noNextEligibleSlot + a.elapsedOutputSlot + a.lateReplacement +
    a.closedSlotSkip

def occupancy (a : CapturePressureAccounting) : Nat :=
  a.attemptsBusyZero + a.attemptsBusyOne + a.attemptsBusyTwoOrMore

def outcomes (a : CapturePressureAccounting) : Nat := a.copied + a.poolDrops + a.copyFailures

def hasReconciledAccounting (a : CapturePressureAccounting) : Bool :=
  a.opportunities = a.reasons &&
    a.opportunities = a.attempts + a.closedSlotSkip + a.fullPoolDeferred &&
    a.attempts = a.occupancy && a.attempts + a.resampleAttempts = a.outcomes

end CapturePressureAccounting

/-! ### The snapshot pool -/

inductive SlotState
  | free | copying | converting
  deriving DecidableEq, Repr

structure Slot where
  state : SlotState := .free
  generation : Nat := 0
  deriving DecidableEq, Repr

/-- The lease side of a `Snapshot`: which slot, and in which generation of it. -/
structure Snapshot where
  slot : Nat
  generation : Nat
  deriving DecidableEq, Repr

structure GpuSnapshotPool where
  slots : List Slot
  drops : Nat := 0
  failedSubmissions : Nat := 0
  deriving DecidableEq, Repr

namespace GpuSnapshotPool

def create (slotCount : Nat) : GpuSnapshotPool where
  slots := List.replicate slotCount {}

def capacity (p : GpuSnapshotPool) : Nat := p.slots.length

def busyCount (p : GpuSnapshotPool) : Nat := p.slots.countP fun s => s.state ≠ .free

/-- The slot of the snapshot is in that state, in the generation of the snapshot. -/
def Holds (p : GpuSnapshotPool) (x : Snapshot) (state : SlotState) : Prop :=
  p.slots[x.slot]? = some ⟨state, x.generation⟩

instance (p : GpuSnapshotPool) (x : Snapshot) (state : SlotState) : Decidable (p.Holds x state) :=
  inferInstanceAs (Decidable (_ = _))

def setState (p : GpuSnapshotPool) (x : Snapshot) (state : SlotState) : GpuSnapshotPool :=
  { p with slots := p.slots.set x.slot ⟨state, x.generation⟩ }

def fail (p : GpuSnapshotPool) : GpuSnapshotPool :=
  { p with failedSubmissions := p.failedSubmissions + 1 }

/-- The first critical section of `TryCopy`: the first free slot starts a new generation. -/
def acquire (p : GpuSnapshotPool) : Option Snapshot × GpuSnapshotPool :=
  match p.slots.findIdx? (fun s => s.state = .free) with
  | none => (none, { p with drops := p.drops + 1 })
  | some index =>
    let x : Snapshot := ⟨index, (p.slots.getD index {}).generation + 1⟩
    (some x, p.setState x .copying)

/-- The last critical section of `TryCopy`; `drawn` says that the sizes agree and the draw
succeeded. -/
def finishCopy (p : GpuSnapshotPool) (x : Snapshot) (drawn : Bool) : Bool × GpuSnapshotPool :=
  if drawn then
    if p.Holds x .copying then (true, p.setState x .converting) else (false, p.fail)
  else if p.Holds x .copying then (false, (p.setState x .free).fail)
  else (false, p.fail)

def releaseAfterConversion (p : GpuSnapshotPool) (x : Snapshot) : Bool × GpuSnapshotPool :=
  if p.Holds x .converting then (true, p.setState x .free) else (false, p)

/-! ### Slots of different snapshots -/

theorem Holds.setState_of_ne {p : GpuSnapshotPool} {x y : Snapshot} {state state' : SlotState}
    (h : p.Holds x state) (hne : y.slot ≠ x.slot) : (p.setState y state').Holds x state := by
  show (p.slots.set y.slot ⟨state', y.generation⟩)[x.slot]? = _
  rw [List.getElem?_set_ne hne]
  exact h

/-- A slot is in one state only. -/
theorem Holds.state_eq {p : GpuSnapshotPool} {x y : Snapshot} {state state' : SlotState}
    (h : p.Holds x state) (h' : p.Holds y state') (hslot : x.slot = y.slot) : state = state' := by
  have heq : some (Slot.mk state x.generation) = some ⟨state', y.generation⟩ := by
    rw [← h, ← h', hslot]
  injection heq with heq
  injection heq

theorem acquire_cases (p : GpuSnapshotPool) :
    (p.acquire = (none, { p with drops := p.drops + 1 })) ∨
      ∃ x, p.acquire = (some x, p.setState x .copying) ∧
        ∃ generation, p.Holds ⟨x.slot, generation⟩ .free := by
  unfold acquire
  cases hfind : p.slots.findIdx? (fun s => decide (s.state = .free)) with
  | none => exact Or.inl rfl
  | some index =>
    right
    obtain ⟨hlt, hfree, -⟩ := List.findIdx?_eq_some_iff_getElem.mp hfind
    refine ⟨_, rfl, p.slots[index].generation, ?_⟩
    have hstate : p.slots[index].state = .free := by simpa using hfree
    show p.slots[index]? = _
    rw [List.getElem?_eq_getElem hlt, ← hstate]

end GpuSnapshotPool

end EinkLab.CaptureSession
