import EinkLab.CaptureSession.Equiv.Steps

/-!
# The two ledgers of a capture

`capture_accounting_reconciles`: at the end of a `CaptureM3` call the pressure accounting
reconciles, every attempt has its outcome and every opportunity taken from the resample policy has
its outcome recorded, if and only if no call so far returned from direct source mode without an
output, which happens after the attempt is recorded.

`Ledger` is the invariant: each ledger is out of balance by what the current call still owes and by
the calls that returned without an outcome.
-/

namespace EinkLab.CaptureSession

open Transition

/-! ### What the current call owes -/

/-- The call is a resample capture. -/
def Admitted.resample (c : Admitted) : Bool := c.resampleCapture ≠ .normalCapture

namespace CapturePhase

/-- A recorded attempt whose outcome is still to come. -/
def openAttempts (resample : Bool) : CapturePhase → Nat
  | .attempted c | .sourced c | .copying c _ | .copied c _ | .copyFailed c _ =>
    if c.resample = resample then 1 else 0
  | _ => 0

/-- An admitted opportunity that has become neither an attempt nor a deferral yet. -/
def openOpportunities : CapturePhase → Nat
  | .admitted c | .poolRead c _ _ => if c.resample then 0 else 1
  | _ => 0

/-- A taken opportunity of the resample policy without a recorded outcome. -/
def openCaptures : CapturePhase → Nat
  | .admitted c | .poolRead c _ _ | .attempted c | .sourced c | .copying c _ | .copied c _
  | .copyFailed c _ => if c.resample then 1 else 0
  | _ => 0

end CapturePhase

namespace Event

def isCaptured : Event → Bool
  | .captured _ => true
  | _ => false

def isCaptureOutcome : Event → Bool
  | .captureOutcome _ => true
  | _ => false

/-- The event is an entry of one of the ledgers. -/
def isEntry : Event → Bool
  | .attempted _ | .outcome _ | .directNoOutput _ | .captured _ | .captureOutcome _ => true
  | _ => false

theorem isEntry_of_isCaptured {e : Event} (h : e.isCaptured = true) : e.isEntry = true := by
  cases e with
  | captured => rfl
  | _ => cases h

theorem isEntry_of_isCaptureOutcome {e : Event} (h : e.isCaptureOutcome = true) :
    e.isEntry = true := by
  cases e with
  | captureOutcome => rfl
  | _ => cases h

end Event

open Event

/-! ### The invariant -/

structure Ledger (log : List Event) (a : CapturePressureAccounting) (phase : CapturePhase) :
    Prop where
  reasons : a.opportunities = a.reasons
  occupancy : a.attempts = a.occupancy
  opportunities : a.opportunities =
    a.attempts + a.closedSlotSkip + a.fullPoolDeferred + phase.openOpportunities
  attempts : a.attempts = log.count (.attempted false)
  resampleAttempts : a.resampleAttempts = log.count (.attempted true)
  outcomes : a.outcomes = log.count (.outcome false) + log.count (.outcome true)
  open_attempts : ∀ resample, log.count (.attempted resample) =
    log.count (.outcome resample) + log.count (.directNoOutput resample) +
      phase.openAttempts resample
  open_captures : log.countP isCaptured =
    log.countP isCaptureOutcome + log.count (.directNoOutput true) + phase.openCaptures

theorem ledger_init : Ledger [] {} .idle where
  reasons := rfl
  occupancy := rfl
  opportunities := rfl
  attempts := rfl
  resampleAttempts := rfl
  outcomes := rfl
  open_attempts _ := rfl
  open_captures := rfl

namespace Ledger

variable {log : List Event} {a : CapturePressureAccounting} {phase : CapturePhase}

/-- Steps that make no entry and owe the same keep the invariant. -/
theorem of_no_entry (h : Ledger log a phase) {phase' : CapturePhase} {evs : List Event}
    (hentries : ∀ e ∈ evs, e.isEntry = false)
    (hopportunities : phase'.openOpportunities = phase.openOpportunities)
    (hattempts : ∀ r, phase'.openAttempts r = phase.openAttempts r)
    (hcaptures : phase'.openCaptures = phase.openCaptures) : Ledger (log ++ evs) a phase' := by
  have hcount (e : Event) (he : e.isEntry = true) : (log ++ evs).count e = log.count e := by
    have hnot : e ∉ evs := fun hmem => by simp [hentries e hmem] at he
    rw [List.count_append, List.count_eq_zero.mpr hnot, Nat.add_zero]
  have hcountP (p : Event → Bool) (hp : ∀ e, p e = true → e.isEntry = true) :
      (log ++ evs).countP p = log.countP p := by
    have hzero : evs.countP p = 0 := by
      rw [List.countP_eq_zero]
      intro e he hpe
      exact absurd (hp e hpe) (by simp [hentries e he])
    rw [List.countP_append, hzero, Nat.add_zero]
  have hcaptured := hcountP isCaptured fun _ => isEntry_of_isCaptured
  have houtcome := hcountP isCaptureOutcome fun _ => isEntry_of_isCaptureOutcome
  exact {
    reasons := h.reasons
    occupancy := h.occupancy
    opportunities := by rw [hopportunities]; exact h.opportunities
    attempts := by rw [hcount _ rfl]; exact h.attempts
    resampleAttempts := by rw [hcount _ rfl]; exact h.resampleAttempts
    outcomes := by rw [hcount _ rfl, hcount _ rfl]; exact h.outcomes
    open_attempts := fun r => by
      rw [hcount _ rfl, hcount _ rfl, hcount _ rfl, hattempts]
      exact h.open_attempts r
    open_captures := by
      rw [hcaptured, houtcome, hcount _ rfl, hcaptures]
      exact h.open_captures }

/-- A phase that owes the same. -/
theorem of_phase (h : Ledger log a phase) {phase' : CapturePhase}
    (hopportunities : phase'.openOpportunities = phase.openOpportunities)
    (hattempts : ∀ r, phase'.openAttempts r = phase.openAttempts r)
    (hcaptures : phase'.openCaptures = phase.openCaptures) : Ledger log a phase' := by
  have hnone : ∀ e ∈ ([] : List Event), e.isEntry = false := by simp
  have hnext := h.of_no_entry hnone hopportunities hattempts hcaptures
  rwa [List.append_nil] at hnext

/-! ### One entry each -/

/-- A normal opportunity is a closed slot, or it is admitted. -/
theorem opportunity {now : TimePoint} {admissionState : AdmissionState}
    (h : Ledger log a (.stateRead now admissionState)) (reason : CaptureAdmissionReason)
    {c : Admitted} (hc : c.resample = false) :
    Ledger log (a.recordOpportunity reason)
      (if reason = .closedSlotSkip then .idle else .admitted c) := by
  obtain ⟨h1, h2, h3, h4, h5, h6, h7, h8⟩ := h
  simp only [CapturePressureAccounting.reasons, CapturePressureAccounting.occupancy,
    CapturePressureAccounting.outcomes, CapturePhase.openOpportunities,
    CapturePhase.openAttempts, CapturePhase.openCaptures] at h1 h2 h3 h6 h7 h8
  cases reason <;>
    exact {
      reasons := by
        simp only [CapturePressureAccounting.recordOpportunity,
          CapturePressureAccounting.reasons]
        omega
      occupancy := h2
      opportunities := by
        simp only [CapturePressureAccounting.recordOpportunity, reduceCtorEq, if_true, if_false,
          CapturePhase.openOpportunities, hc]
        simp
        omega
      attempts := h4
      resampleAttempts := h5
      outcomes := h6
      open_attempts := fun r => by simpa [CapturePhase.openAttempts] using h7 r
      open_captures := by simpa [CapturePhase.openCaptures, hc] using h8 }

/-- A resample capture takes its opportunity. -/
theorem capture {now : TimePoint} {admissionState : AdmissionState}
    (h : Ledger log a (.stateRead now admissionState)) {c : Admitted} (hc : c.resample = true)
    (obligation : Nat) : Ledger (log ++ [.captured obligation]) a (.admitted c) where
  reasons := h.reasons
  occupancy := h.occupancy
  opportunities := by
    have := h.opportunities
    simpa [CapturePhase.openOpportunities, hc] using this
  attempts := by simpa using h.attempts
  resampleAttempts := by simpa using h.resampleAttempts
  outcomes := by simpa using h.outcomes
  open_attempts r := by simpa [CapturePhase.openAttempts] using h.open_attempts r
  open_captures := by
    have := h.open_captures
    simp only [CapturePhase.openCaptures] at this
    simp [isCaptured, isCaptureOutcome, CapturePhase.openCaptures, hc]
    omega

/-- A deferral closes a normal opportunity. -/
theorem deferral {c : Admitted} {poolBusy poolCapacity : Nat}
    (h : Ledger log a (.poolRead c poolBusy poolCapacity)) (hc : c.resample = false)
    (state : FullPoolPipelineState) : Ledger log (a.recordFullPoolDeferred state) .idle where
  reasons := h.reasons
  occupancy := h.occupancy
  opportunities := by
    have := h.opportunities
    simp only [CapturePhase.openOpportunities, hc] at this
    simp only [CapturePressureAccounting.recordFullPoolDeferred, CapturePhase.openOpportunities]
    simp at this
    omega
  attempts := h.attempts
  resampleAttempts := h.resampleAttempts
  outcomes := h.outcomes
  open_attempts r := by simpa [CapturePhase.openAttempts] using h.open_attempts r
  open_captures := by simpa [CapturePhase.openCaptures, hc] using h.open_captures

/-- `RecordAttempt` counts one attempt in one occupancy bucket, and nothing else the ledgers
compare. -/
theorem recordAttempt_effect (a : CapturePressureAccounting) (poolBusy poolCapacity : Nat)
    (state : FullPoolPipelineState) :
    let a' := a.recordAttempt poolBusy poolCapacity state
    a'.attempts = a.attempts + 1 ∧ a'.occupancy = a.occupancy + 1 ∧ a'.reasons = a.reasons ∧
      a'.opportunities = a.opportunities ∧ a'.closedSlotSkip = a.closedSlotSkip ∧
      a'.fullPoolDeferred = a.fullPoolDeferred ∧ a'.resampleAttempts = a.resampleAttempts ∧
      a'.outcomes = a.outcomes := by
  have hbusy : ∀ b : CapturePressureAccounting, (b.recordBusy poolBusy).occupancy =
      b.occupancy + 1 := by
    intro b
    unfold CapturePressureAccounting.recordBusy CapturePressureAccounting.occupancy
    split <;> dsimp only <;> omega
  have hrest : ∀ b : CapturePressureAccounting,
      (b.recordBusy poolBusy).attempts = b.attempts ∧
      (b.recordBusy poolBusy).reasons = b.reasons ∧
      (b.recordBusy poolBusy).opportunities = b.opportunities ∧
      (b.recordBusy poolBusy).closedSlotSkip = b.closedSlotSkip ∧
      (b.recordBusy poolBusy).fullPoolDeferred = b.fullPoolDeferred ∧
      (b.recordBusy poolBusy).resampleAttempts = b.resampleAttempts ∧
      (b.recordBusy poolBusy).outcomes = b.outcomes := by
    intro b
    unfold CapturePressureAccounting.recordBusy
    split <;> exact ⟨rfl, rfl, rfl, rfl, rfl, rfl, rfl⟩
  have hb := hbusy { a with attempts := a.attempts + 1 }
  obtain ⟨h1, h2, h3, h4, h5, h6, h7⟩ := hrest { a with attempts := a.attempts + 1 }
  unfold CapturePressureAccounting.recordAttempt
  dsimp only
  split
  · exact ⟨h1, hb, h2, h3, h4, h5, h6, h7⟩
  · exact ⟨h1, hb, h2, h3, h4, h5, h6, h7⟩

theorem attempt {c : Admitted} {poolBusy poolCapacity : Nat}
    (h : Ledger log a (.poolRead c poolBusy poolCapacity)) (hc : c.resample = false)
    (state : FullPoolPipelineState) :
    Ledger (log ++ [.attempted false]) (a.recordAttempt poolBusy poolCapacity state)
      (.attempted c) := by
  obtain ⟨hattempts, hoccupancy, hreasons, hopp, hskip, hdeferred, hresample, houtcomes⟩ :=
    recordAttempt_effect a poolBusy poolCapacity state
  exact {
    reasons := by rw [hopp, hreasons]; exact h.reasons
    occupancy := by rw [hattempts, hoccupancy, h.occupancy]
    opportunities := by
      have := h.opportunities
      simp only [CapturePhase.openOpportunities, hc] at this
      simp at this
      simp only [CapturePhase.openOpportunities]
      omega
    attempts := by
      rw [hattempts, h.attempts]
      simp
    resampleAttempts := by
      rw [hresample, h.resampleAttempts]
      simp
    outcomes := by
      rw [houtcomes, h.outcomes]
      simp
    open_attempts := fun r => by
      have := h.open_attempts r
      simp only [CapturePhase.openAttempts] at this
      cases r <;> simp [CapturePhase.openAttempts, hc] <;> omega
    open_captures := by
      have := h.open_captures
      simp only [CapturePhase.openCaptures] at this
      simpa [isCaptured, isCaptureOutcome, CapturePhase.openCaptures] using this }

theorem resampleAttempt {c : Admitted} {poolBusy poolCapacity : Nat}
    (h : Ledger log a (.poolRead c poolBusy poolCapacity)) (hc : c.resample = true) :
    Ledger (log ++ [.attempted true]) a.recordResampleAttempt (.attempted c) where
  reasons := h.reasons
  occupancy := h.occupancy
  opportunities := by
    have := h.opportunities
    simpa [CapturePressureAccounting.recordResampleAttempt, CapturePhase.openOpportunities, hc]
      using this
  attempts := by simpa [CapturePressureAccounting.recordResampleAttempt] using h.attempts
  resampleAttempts := by
    simpa [CapturePressureAccounting.recordResampleAttempt] using h.resampleAttempts
  outcomes := by
    have := h.outcomes
    simpa [CapturePressureAccounting.recordResampleAttempt, CapturePressureAccounting.outcomes]
      using this
  open_attempts r := by
    have := h.open_attempts r
    simp only [CapturePhase.openAttempts] at this
    cases r <;> simp [CapturePhase.openAttempts, hc] <;> omega
  open_captures := by
    have := h.open_captures
    simp only [CapturePhase.openCaptures] at this
    simpa [isCaptured, isCaptureOutcome, CapturePhase.openCaptures] using this

/-- A return from direct mode leaves the attempt, and the opportunity of a resample capture,
without an outcome. -/
theorem noOutput {c : Admitted} (h : Ledger log a (.attempted c)) :
    Ledger (log ++ [.directNoOutput c.resample]) a .idle where
  reasons := h.reasons
  occupancy := h.occupancy
  opportunities := h.opportunities
  attempts := by simpa using h.attempts
  resampleAttempts := by simpa using h.resampleAttempts
  outcomes := by simpa using h.outcomes
  open_attempts r := by
    have := h.open_attempts r
    simp only [CapturePhase.openAttempts] at this
    cases hr : c.resample <;> cases r <;> simp [CapturePhase.openAttempts, hr] at this ⊢ <;> omega
  open_captures := by
    have := h.open_captures
    simp only [CapturePhase.openCaptures] at this
    cases hr : c.resample <;>
      simp [isCaptured, isCaptureOutcome, CapturePhase.openCaptures, hr] at this ⊢ <;> omega

/-- The end of a copy closes the attempt, and the opportunity of a resample capture. -/
theorem outcome {c : Admitted} (h : Ledger log a phase) (copied : Bool)
    (a' : CapturePressureAccounting)
    (hopportunities : phase.openOpportunities = 0)
    (hattempts : ∀ r, phase.openAttempts r = if c.resample = r then 1 else 0)
    (hcaptures : phase.openCaptures = if c.resample then 1 else 0)
    (houtcomes : a'.outcomes = a.outcomes + 1)
    (hsame : a'.opportunities = a.opportunities ∧ a'.reasons = a.reasons ∧
      a'.attempts = a.attempts ∧ a'.occupancy = a.occupancy ∧
      a'.closedSlotSkip = a.closedSlotSkip ∧ a'.fullPoolDeferred = a.fullPoolDeferred ∧
      a'.resampleAttempts = a.resampleAttempts) :
    Ledger (log ++ ((if c.resample then [.captureOutcome copied] else []) ++
      [.outcome c.resample])) a' .idle := by
  obtain ⟨hopp, hreasons, hatt, hocc, hskip, hdeferred, hresample⟩ := hsame
  have hopen := h.open_captures
  have hopp' := h.opportunities
  rw [hcaptures] at hopen
  rw [hopportunities] at hopp'
  -- only the entries that are logged here change their count
  have hevents : ∀ e : Event, e.isEntry = true → e ≠ .captureOutcome copied →
      e ≠ Event.outcome c.resample →
      (log ++ ((if c.resample then [Event.captureOutcome copied] else []) ++
        [Event.outcome c.resample])).count e = log.count e := by
    intro e _ hne hne'
    have hnot : e ∉ ((if c.resample then [Event.captureOutcome copied] else []) ++
        [Event.outcome c.resample]) := by
      split_ifs <;> simp [hne, hne']
    rw [List.count_append, List.count_eq_zero.mpr hnot, Nat.add_zero]
  exact {
    reasons := by rw [hopp, hreasons]; exact h.reasons
    occupancy := by rw [hatt, hocc]; exact h.occupancy
    opportunities := by
      rw [hopp, hatt, hskip, hdeferred]
      exact hopp'
    attempts := by rw [hevents _ rfl (by simp) (by simp), hatt]; exact h.attempts
    resampleAttempts := by
      rw [hevents _ rfl (by simp) (by simp), hresample]
      exact h.resampleAttempts
    outcomes := by
      have := h.outcomes
      rw [houtcomes]
      cases hr : c.resample <;> simp <;> omega
    open_attempts := fun r => by
      have := h.open_attempts r
      rw [hattempts] at this
      rw [hevents _ rfl (by simp) (by simp), hevents (.directNoOutput r) rfl (by simp) (by simp)]
      cases hr : c.resample <;> cases r <;> simp [CapturePhase.openAttempts, hr] at this ⊢ <;>
        omega
    open_captures := by
      rw [hevents (.directNoOutput true) rfl (by simp) (by simp)]
      cases hr : c.resample <;>
        simp [List.countP_cons, isCaptured, isCaptureOutcome, CapturePhase.openCaptures, hr]
          at hopen ⊢ <;> omega }

end Ledger

/-! ### Every step -/

section

variable {s u : State} {log evs : List Event}

theorem Ledger.takeOpportunity {now : TimePoint} {admissionState : AdmissionState}
    (h : Ledger log s.pressureAccounting (.stateRead now admissionState)) :
    Ledger (log ++ (s.takeOpportunity now admissionState).2)
      (s.takeOpportunity now admissionState).1.pressureAccounting
      (s.takeOpportunity now admissionState).1.capture := by
  unfold State.takeOpportunity
  dsimp only
  split_ifs with hresample hskip
  · exact h.capture (by simpa [Admitted.resample] using hresample) _
  · -- the reason recorded is that of the skip
    have hreason := (CaptureAdmissionPolicy.evaluate_skip_iff _ _ _ _).mp hskip
    rw [List.append_nil, hreason]
    have := h.opportunity .closedSlotSkip
      (show Admitted.resample ⟨now, admissionState, .normalCapture⟩ = false from rfl)
    exact this
  · have hreason := (not_congr (CaptureAdmissionPolicy.evaluate_skip_iff _ _ _ _)).mp hskip
    rw [List.append_nil]
    have := h.opportunity (s.captureAdmission.evaluate admissionState.retainedCandidate
        admissionState.nextEligible now).2.lastReason
      (show Admitted.resample ⟨now, admissionState, s.policy.takeCaptureOpportunity.1⟩ = false by
        simpa [Admitted.resample] using hresample)
    rwa [if_neg hreason] at this

theorem Ledger.observe {c : Admitted} {poolBusy poolCapacity : Nat}
    (h : Ledger log s.pressureAccounting (.poolRead c poolBusy poolCapacity)) :
    Ledger (log ++ (s.observe c poolBusy poolCapacity).2)
      (s.observe c poolBusy poolCapacity).1.pressureAccounting
      (s.observe c poolBusy poolCapacity).1.capture := by
  unfold State.observe
  dsimp only
  by_cases hresample : c.resampleCapture ≠ .normalCapture
  · rw [if_pos hresample]
    exact h.resampleAttempt (by simpa [Admitted.resample] using hresample)
  · rw [if_neg hresample]
    have hc : c.resample = false := by simpa [Admitted.resample] using hresample
    generalize (if s.canRequest then
      s.policy.observeFullPool (poolCapacity ≠ 0 && poolBusy ≥ poolCapacity)
        c.admissionState.pipelineState c.now else (.ignored, s.policy)) = observed
    split
    · have hdeferral := h.deferral hc c.admissionState.pipelineState
      refine hdeferral.of_no_entry ?_ rfl (fun _ => rfl) rfl
      intro e he
      split_ifs at he
      · rw [List.mem_singleton.mp he]
        rfl
      · simp at he
    · exact h.attempt hc _

theorem Ledger.sourceCopy {c : Admitted} (converted : Bool)
    (h : Ledger log s.pressureAccounting (.attempted c)) :
    Ledger (log ++ (s.sourceCopy c converted).2)
      (s.sourceCopy c converted).1.pressureAccounting (s.sourceCopy c converted).1.capture := by
  unfold State.sourceCopy
  split_ifs
  · exact h.noOutput
  · exact h.of_no_entry (by simp) rfl (fun _ => rfl) rfl

/-- The phases of a copy owe the same. -/
theorem Ledger.tryCopy {c : Admitted} (sourceUsable : Bool)
    (h : Ledger log s.pressureAccounting (.sourced c)) :
    Ledger log (s.tryCopy c sourceUsable).pressureAccounting
      (s.tryCopy c sourceUsable).capture := by
  have hkeep : ∀ phase : CapturePhase, phase.openOpportunities = 0 →
      (∀ r, phase.openAttempts r = if c.resample = r then 1 else 0) →
      phase.openCaptures = (if c.resample then 1 else 0) →
      Ledger log s.pressureAccounting phase := fun phase h1 h2 h3 => h.of_phase h1 h2 h3
  unfold State.tryCopy
  split_ifs
  · exact hkeep _ rfl (fun _ => rfl) rfl
  · rcases s.snapshotPool.acquire_cases with hnone | ⟨x, hsome, -⟩
    · rw [hnone]
      exact hkeep _ rfl (fun _ => rfl) rfl
    · rw [hsome]
      exact hkeep _ rfl (fun _ => rfl) rfl

theorem Ledger.finishCopy {c : Admitted} {x : Snapshot} (drawn : Bool)
    (h : Ledger log s.pressureAccounting (.copying c x)) :
    Ledger log (s.finishCopy c x drawn).pressureAccounting (s.finishCopy c x drawn).capture := by
  unfold State.finishCopy
  dsimp only
  split_ifs
  · exact h.of_phase rfl (fun _ => rfl) rfl
  · exact h.of_phase rfl (fun _ => rfl) rfl

theorem Ledger.notifyRelease (x : Snapshot) (now : TimePoint)
    (h : Ledger log s.pressureAccounting s.capture) :
    Ledger (log ++ (s.notifyRelease x now).2) (s.notifyRelease x now).1.pressureAccounting
      (s.notifyRelease x now).1.capture := by
  unfold State.notifyRelease
  dsimp only
  split_ifs
  · exact h.of_no_entry (by simp) rfl (fun _ => rfl) rfl
  · exact h.of_no_entry (by simp [isEntry]) rfl (fun _ => rfl) rfl

/-- The end of a call whose copy succeeded. -/
theorem Ledger.recordCopied {c : Admitted} {x : Snapshot}
    (h : Ledger log s.pressureAccounting (.copied c x)) :
    Ledger (log ++ (s.recordCopied c x).2) (s.recordCopied c x).1.pressureAccounting
      (s.recordCopied c x).1.capture := by
  have hout := h.outcome true s.pressureAccounting.recordCopied rfl (fun _ => rfl) rfl
    (by simp only [CapturePressureAccounting.outcomes, CapturePressureAccounting.recordCopied]
        omega) ⟨rfl, rfl, rfl, rfl, rfl, rfl, rfl⟩
  simpa [State.recordCopied, State.recordCaptureOutcome, Admitted.resample] using hout

/-- The end of a call whose copy failed: for want of a slot, or in the copy itself. -/
theorem Ledger.recordFailed {c : Admitted} {dropped : Bool}
    (h : Ledger log s.pressureAccounting (.copyFailed c dropped)) :
    Ledger (log ++ (s.recordFailed c dropped).2) (s.recordFailed c dropped).1.pressureAccounting
      (s.recordFailed c dropped).1.capture := by
  have hout := h.outcome false
    (if dropped then s.pressureAccounting.recordPoolDrop
      else s.pressureAccounting.recordCopyFailure) rfl (fun _ => rfl) rfl
    (by cases dropped <;> simp [CapturePressureAccounting.outcomes,
          CapturePressureAccounting.recordPoolDrop,
          CapturePressureAccounting.recordCopyFailure] <;> omega)
    (by cases dropped <;> exact ⟨rfl, rfl, rfl, rfl, rfl, rfl, rfl⟩)
  simpa [State.recordFailed, State.recordCaptureOutcome, Admitted.resample] using hout

/-- Between two calls nothing is owed. -/
theorem Ledger.configure (settings : CaptureSettings)
    (h : Ledger log s.pressureAccounting .idle) (hidle : s.capture = .idle) :
    Ledger (log ++ []) (s.configure settings).pressureAccounting
      (s.configure settings).capture := by
  unfold State.configure
  dsimp only
  split_ifs
  · rw [hidle]; exact h.of_no_entry (by simp) rfl (fun _ => rfl) rfl
  · rw [hidle]; exact h.of_no_entry (by simp) rfl (fun _ => rfl) rfl
  · rw [hidle]; exact h.of_no_entry (by simp) rfl (fun _ => rfl) rfl
  · exact h.of_no_entry (by simp) rfl (fun _ => rfl) rfl

/-- Every step keeps the ledgers. -/
theorem Ledger.step {a : Action} (h : Ledger log s.pressureAccounting s.capture)
    (hs : s.step a = some (u, evs)) : Ledger (log ++ evs) u.pressureAccounting u.capture := by
  cases step_cases hs with
  | configure settings hidle => exact (hidle ▸ h).configure settings hidle
  | readAdmissionState now admissionState hphase =>
    rw [hphase] at h
    exact h.of_no_entry (by simp) rfl (fun _ => rfl) rfl
  | takeOpportunity now admissionState hphase =>
    rw [hphase] at h
    exact h.takeOpportunity
  | readPool c hphase =>
    rw [hphase] at h
    exact h.of_no_entry (by simp) rfl (fun _ => rfl) rfl
  | observe c poolBusy poolCapacity hphase =>
    rw [hphase] at h
    exact h.observe
  | sourceCopy c converted hphase =>
    rw [hphase] at h
    exact h.sourceCopy converted
  | tryCopy c sourceUsable hphase =>
    rw [hphase] at h
    rw [List.append_nil]
    exact h.tryCopy sourceUsable
  | finishCopy c x drawn hphase =>
    rw [hphase] at h
    rw [List.append_nil]
    exact h.finishCopy drawn
  | recordCopied c x hphase =>
    rw [hphase] at h
    exact h.recordCopied
  | recordFailed c dropped hphase =>
    rw [hphase] at h
    exact h.recordFailed
  -- what happens to the leases owes nothing
  | releaseSlot x _ => exact h.of_no_entry (by simp) rfl (fun _ => rfl) rfl
  | notifyRelease x now _ => exact h.notifyRelease x now
  | requestComposite obligation accepted _ => exact h.of_no_entry (by simp) rfl (fun _ => rfl) rfl
  | cancelFailed obligation _ =>
    exact h.of_no_entry (by simp [State.cancelFailed, isEntry]) rfl (fun _ => rfl) rfl
  | cancel => exact h.of_no_entry (by simp [isEntry]) rfl (fun _ => rfl) rfl

end

/-- Every run keeps the ledgers. -/
theorem Ledger.run {canRequest : Bool} {as : List Action} {log : List Event} {t : State}
    (h : system.Run System.anyAction (.create canRequest) as log t) :
    Ledger log t.pressureAccounting t.capture := by
  refine h.induct (fun _ log t => Ledger log t.pressureAccounting t.capture) ledger_init ?_
  intro as log t a u evs ht _ hs
  exact ht.step hs

/-! ### The end of a call -/

/-- The accounting reconciles, each attempt and each resample attempt has its outcome, and each
opportunity taken from the resample policy has its outcome recorded. -/
def AccountingCloses (log : List Event) (t : State) : Prop :=
  t.pressureAccounting.hasReconciledAccounting = true ∧
    (∀ resample, log.count (.attempted resample) = log.count (.outcome resample)) ∧
      log.countP isCaptured = log.countP isCaptureOutcome

/-- **The ledgers close** at the end of a call, exactly when no call so far was in direct mode
without an output once its attempt was recorded. -/
theorem capture_accounting_reconciles {canRequest : Bool} {as : List Action} {log : List Event}
    {t : State} (h : system.Run System.anyAction (.create canRequest) as log t)
    (hidle : t.capture = .idle) :
    AccountingCloses log t ↔ ∀ resample, .directNoOutput resample ∉ log := by
  have hledger := Ledger.run h
  rw [hidle] at hledger
  obtain ⟨hreasons, hoccupancy, hopportunities, hattempts, hresample, houtcomes, hopen,
    hcaptures⟩ :=
    hledger
  simp only [CapturePhase.openOpportunities, CapturePhase.openAttempts, CapturePhase.openCaptures,
    Nat.add_zero] at hopportunities hopen hcaptures
  have hfalse := hopen false
  have htrue := hopen true
  constructor
  · -- such a call leaves its attempt without an outcome
    rintro ⟨-, hpairs, -⟩ resample hmem
    have hpos := List.count_pos_iff.mpr hmem
    have hpair := hpairs resample
    have hopen' := hopen resample
    omega
  · intro hnone
    have hzero : ∀ resample, log.count (.directNoOutput resample) = 0 := fun resample =>
      List.count_eq_zero.mpr (hnone resample)
    have hzf := hzero false
    have hzt := hzero true
    refine ⟨?_, fun resample => ?_, by omega⟩
    · simp only [CapturePressureAccounting.hasReconciledAccounting, Bool.and_eq_true,
        decide_eq_true_eq]
      refine ⟨⟨⟨hreasons, hopportunities⟩, hoccupancy⟩, ?_⟩
      omega
    · have := hopen resample
      have := hzero resample
      omega

/-- One normal call in snapshot mode, to its end. -/
def snapshotCall : List Action :=
  [.configure {}, .readAdmissionState ⟨false, false, false, false, none⟩, .takeOpportunity,
    .readPool, .observe, .sourceCopy false, .tryCopy true, .finishCopy true, .recordOutcome]

/-- One call in direct mode whose source conversion gives nothing. -/
def directCall : List Action :=
  [.configure { r1Source := some .direct },
    .readAdmissionState ⟨false, false, false, false, none⟩, .takeOpportunity, .readPool, .observe,
    .sourceCopy false]

theorem capture_accounting_reconciles_of_snapshot :
    ∃ log t, system.Run System.anyAction (.create true) snapshotCall log t ∧
      log ≠ [] ∧ AccountingCloses log t := by
  have hexec : (system.exec System.anyAction (.create true) snapshotCall).map
      (fun r => (r.1.capture, r.2)) = some (.idle, [.attempted false, .outcome false]) := by
    decide
  obtain ⟨⟨t, log⟩, hr, heq⟩ := Option.map_eq_some_iff.mp hexec
  obtain ⟨hidle, hlog⟩ := Prod.mk.inj heq
  have hrun := System.Run.of_exec hr
  have hlog' : log = [.attempted false, .outcome false] := hlog
  refine ⟨log, t, hrun, by simp [hlog'], ?_⟩
  exact (capture_accounting_reconciles hrun hidle).mpr (by simp [hlog'])

/-- Direct mode without an output: the attempt stays without an outcome. -/
theorem direct_capture_without_outcome :
    ¬ ∀ (canRequest : Bool) (as : List Action) (log : List Event) (t : State),
      system.Run System.anyAction (.create canRequest) as log t → t.capture = .idle →
        AccountingCloses log t := by
  intro hall
  have hexec : (system.exec System.anyAction (.create true) directCall).map
      (fun r => (r.1.capture, r.1.pressureAccounting.hasReconciledAccounting)) =
        some (.idle, false) := by
    decide
  obtain ⟨⟨t, log⟩, hr, heq⟩ := Option.map_eq_some_iff.mp hexec
  obtain ⟨hidle, hfalse⟩ := Prod.mk.inj heq
  have hcloses := (hall true directCall log t (System.Run.of_exec hr) hidle).1
  have hfalse' : t.pressureAccounting.hasReconciledAccounting = false := hfalse
  rw [hfalse'] at hcloses
  cases hcloses

end EinkLab.CaptureSession
