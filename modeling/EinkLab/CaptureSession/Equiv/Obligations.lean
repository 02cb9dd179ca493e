import EinkLab.CaptureSession.PolicyRuns
import Mathlib.Data.List.Nodup

/-!
# The obligations of the resample policy

In every run in `CaptureM3`'s order each created obligation is accounted for, is released and taken
at most once, and is taken as what its own release decided (`obligations_of_run`).  `Counts` is the
invariant of the flags and the counters, `Marks` relates the obligation held to the milestones.
-/

namespace EinkLab.CaptureSession.FullPoolResamplePolicy

open Transition System

variable {w : Watched} {p p' : FullPoolResamplePolicy} {log : List Milestone}

/-! ### Milestones -/

def createdObligations (log : List Milestone) : List Nat :=
  log.filterMap fun
    | .created n _ => some n
    | _ => none

def releasedObligations (log : List Milestone) : List Nat :=
  log.filterMap fun
    | .released n _ _ => some n
    | _ => none

def takenObligations (log : List Milestone) : List Nat :=
  log.filterMap fun
    | .taken n _ => some n
    | _ => none

/-- The release decision that a kind of capture comes from. -/
def releaseOf : FullPoolCaptureDecision → FullPoolReleaseDecision
  | .normalCapture => .none
  | .resampleCapture => .dispatchResample
  | .expiryFallbackCapture => .dispatchExpiryFallback

/-- The obligation was released as that kind, which its deadline decides. -/
def DecidedByRelease (log : List Milestone) (n : Nat) (decision : FullPoolCaptureDecision) : Prop :=
  ∃ deadline now, .created n deadline ∈ log ∧ .released n (releaseOf decision) now ∈ log ∧
    (decision = .expiryFallbackCapture ↔ deadline ≤ now)

theorem DecidedByRelease.append {n : Nat} {decision : FullPoolCaptureDecision}
    (h : DecidedByRelease log n decision) (log' : List Milestone) :
    DecidedByRelease (log ++ log') n decision := by
  obtain ⟨deadline, now, hcreated, hreleased, hkind⟩ := h
  exact ⟨deadline, now, List.mem_append_left _ hcreated, List.mem_append_left _ hreleased, hkind⟩

/-! ### The counters -/

/-- The flags and the counters; a taken obligation is neither outstanding nor awaited any more. -/
structure Counts (w : Watched) : Prop where
  exclusive : ¬(w.policy.outstanding = true ∧ w.policy.awaitingCapture = true)
  free : w.taken.isSome = true → w.policy.hasOutstandingObligation = false
  resample : ∀ decision ∈ w.taken, decision ≠ .normalCapture
  balance : w.policy.diagnostics.created =
    w.policy.diagnostics.fulfilled + w.policy.diagnostics.copyFailures +
      w.policy.diagnostics.cancelled + w.policy.hasOutstandingObligation.toNat +
      w.taken.isSome.toNat
  dispatched : w.policy.diagnostics.dispatched + w.policy.diagnostics.expiryFallback +
    w.policy.outstanding.toNat ≤ w.policy.diagnostics.created

theorem Counts.cancel (h : Counts w) : Counts { w with policy := w.policy.cancel } := by
  have hbalance := h.balance
  have hdispatched := h.dispatched
  unfold hasOutstandingObligation at hbalance
  have hheld : w.policy.cancel.hasOutstandingObligation = false := rfl
  refine ⟨fun hboth => absurd hboth.1 (by simp [FullPoolResamplePolicy.cancel]), fun _ => hheld,
    h.resample, ?_, ?_⟩
  · show _ = _ + _ + _ + w.policy.cancel.hasOutstandingObligation.toNat + _
    rw [hheld]
    unfold FullPoolResamplePolicy.cancel
    cases hany : w.policy.outstanding || w.policy.awaitingCapture
    · simp only [hany, Bool.toNat_false, Bool.false_eq_true, if_false] at hbalance ⊢
      omega
    · simp only [hany, Bool.toNat_true, Bool.toNat_false, if_true] at hbalance ⊢
      omega
  · unfold FullPoolResamplePolicy.cancel
    dsimp only
    split
    · exact Nat.le_trans (Nat.add_le_add_left (Nat.zero_le _) _) hdispatched
    · exact Nat.le_trans (Nat.add_le_add_left (Nat.zero_le _) _) hdispatched

theorem Counts.observe (h : Counts w) (poolFull : Bool) (state : FullPoolPipelineState)
    (now : TimePoint) (htaken : w.taken = none) :
    Counts { w with policy := (w.policy.observeFullPool poolFull state now).2 } := by
  have hbalance := h.balance
  have hdispatched := h.dispatched
  unfold observeFullPool
  split
  · exact h
  · split
    · exact ⟨h.exclusive, h.free, h.resample, hbalance, hdispatched⟩
    · next hfree =>
      obtain ⟨hout, hawait⟩ : w.policy.outstanding = false ∧ w.policy.awaitingCapture = false := by
        simpa using hfree
      unfold hasOutstandingObligation at hbalance
      rw [hout, hawait, htaken] at hbalance
      rw [hout] at hdispatched
      simp only [Bool.or_self, Bool.toNat_false, Option.isSome_none] at hbalance hdispatched
      refine ⟨fun hboth => absurd hboth.2 (by simp [hawait]), fun hsome => ?_, h.resample, ?_, ?_⟩
      · rw [htaken] at hsome
        exact absurd hsome (by decide)
      · simp only [hasOutstandingObligation, Bool.true_or, Bool.toNat_true, htaken,
          Option.isSome_none, Bool.toNat_false]
        omega
      · simp only [Bool.toNat_true]
        omega

theorem Counts.release (h : Counts w) (now : TimePoint) :
    Counts { w with policy := (w.policy.onResourceReleased now).2 } := by
  have hbalance := h.balance
  have hdispatched := h.dispatched
  unfold onResourceReleased
  split
  · exact h
  · next hnone =>
    have hout : w.policy.outstanding = true := by simpa using hnone
    have hheld : w.policy.hasOutstandingObligation = true := by
      simp [hasOutstandingObligation, hout]
    have hfree : w.taken.isSome = true → False := fun hsome => by
      have hnot := h.free hsome
      rw [hheld] at hnot
      exact absurd hnot (by decide)
    rw [hheld] at hbalance
    rw [hout] at hdispatched
    simp only [Bool.toNat_true] at hbalance hdispatched
    split
    · refine ⟨fun hboth => absurd hboth.1 Bool.false_ne_true, fun hsome => absurd (hfree hsome) id,
        h.resample, ?_, ?_⟩
      · simp only [hasOutstandingObligation, Bool.or_true, Bool.toNat_true]
        omega
      · simp only [Bool.toNat_false]
        omega
    · refine ⟨fun hboth => absurd hboth.1 Bool.false_ne_true, fun hsome => absurd (hfree hsome) id,
        h.resample, ?_, ?_⟩
      · simp only [hasOutstandingObligation, Bool.or_true, Bool.toNat_true]
        omega
      · simp only [Bool.toNat_false]
        omega

theorem Counts.take (h : Counts w) (htaken : w.taken = none)
    (hresample : w.policy.takeCaptureOpportunity.1 ≠ .normalCapture) :
    Counts ⟨w.policy.takeCaptureOpportunity.2, some w.policy.takeCaptureOpportunity.1⟩ := by
  have hbalance := h.balance
  have hdispatched := h.dispatched
  rcases takeCaptureOpportunity_cases w.policy with ⟨heq, -⟩ | ⟨-, hawait, hnext⟩
  · rw [heq] at hresample
    exact absurd rfl hresample
  · have hout : w.policy.outstanding = false :=
      Bool.eq_false_iff.mpr fun hout => h.exclusive ⟨hout, hawait⟩
    unfold hasOutstandingObligation at hbalance
    rw [hout, hawait, htaken] at hbalance
    rw [hout] at hdispatched
    simp only [Bool.or_true, Bool.toNat_true, Option.isSome_none, Bool.toNat_false] at hbalance
    rw [hnext]
    refine ⟨fun hboth => absurd hboth.2 Bool.false_ne_true, fun _ => ?_, ?_, ?_, ?_⟩
    · simp [hasOutstandingObligation, hout]
    · intro decision hdecision
      rw [← Option.mem_some_iff.mp hdecision]
      exact hresample
    · simp only [hasOutstandingObligation, hout, Bool.or_self, Bool.toNat_false, Option.isSome_some,
        Bool.toNat_true]
      omega
    · simp only [hout, Bool.toNat_false]
      omega

theorem Counts.record (h : Counts w) (decision : FullPoolCaptureDecision) (copied : Bool)
    (horder : InOrder w (.recordCaptureOutcome decision copied)) :
    Counts ⟨w.policy.recordCaptureOutcome decision copied,
      if decision = .normalCapture then w.taken else none⟩ := by
  have hbalance := h.balance
  have hdispatched := h.dispatched
  by_cases hnormal : decision = .normalCapture
  · rw [recordCaptureOutcome, if_pos hnormal, if_pos hnormal]
    exact h
  · have htaken : w.taken = some decision := horder.resolve_left hnormal
    have hheld := h.free (by rw [htaken]; rfl)
    rw [hheld, htaken] at hbalance
    simp only [Option.isSome_some, Bool.toNat_true, Bool.toNat_false] at hbalance
    have hheld' : (w.policy.recordCaptureOutcome decision copied).hasOutstandingObligation =
      false := by
      rw [hasOutstandingObligation, recordCaptureOutcome_outstanding,
        recordCaptureOutcome_awaitingCapture]
      exact hheld
    rw [if_neg hnormal]
    refine ⟨?_, fun hsome => absurd hsome Bool.false_ne_true,
      fun d hd => absurd hd (by simp), ?_, ?_⟩
    · rw [recordCaptureOutcome_outstanding, recordCaptureOutcome_awaitingCapture]
      exact h.exclusive
    · rw [hheld', recordCaptureOutcome, if_neg hnormal]
      cases copied
      · simp only [Bool.false_eq_true, if_false, Option.isSome_none, Bool.toNat_false]
        omega
      · simp only [if_true, Option.isSome_none, Bool.toNat_false]
        omega
    · rw [recordCaptureOutcome_outstanding, recordCaptureOutcome, if_neg hnormal]
      cases copied
      · exact hdispatched
      · exact hdispatched

/-! ### The milestones -/

/-- The obligation that is held, and what the log says of it and of the earlier ones. -/
structure Marks (log : List Milestone) (p : FullPoolResamplePolicy) : Prop where
  created_le : ∀ n ∈ createdObligations log, n ≤ p.diagnostics.created
  released_le : ∀ n ∈ releasedObligations log, n + p.outstanding.toNat ≤ p.diagnostics.created
  taken_le : ∀ n ∈ takenObligations log,
    n + p.hasOutstandingObligation.toNat ≤ p.diagnostics.created
  held : p.hasOutstandingObligation = true → .created p.diagnostics.created p.deadline ∈ log
  awaited : p.awaitingCapture = true →
    DecidedByRelease log p.diagnostics.created
      (if p.awaitingExpiryFallback then .expiryFallbackCapture else .resampleCapture)
  created_nodup : (createdObligations log).Nodup
  released_nodup : (releasedObligations log).Nodup
  taken_nodup : (takenObligations log).Nodup
  right : ∀ n decision, .taken n decision ∈ log → DecidedByRelease log n decision

/-- A call that neither creates nor releases, and leaves the obligation as it is or drops it. -/
theorem Marks.of_dropped (h : Marks log p)
    (hcreated : p'.diagnostics.created = p.diagnostics.created)
    (hout : p'.outstanding = false) (hawait : p'.awaitingCapture = false) : Marks log p' := by
  have hheld : p'.hasOutstandingObligation = false := by
    rw [hasOutstandingObligation, hout, hawait]
    rfl
  constructor
  · rw [hcreated]
    exact h.created_le
  · intro n hn
    have hle := h.released_le n hn
    rw [hcreated, hout, Bool.toNat_false]
    omega
  · intro n hn
    have hle := h.taken_le n hn
    rw [hcreated, hheld, Bool.toNat_false]
    omega
  · intro hyes
    rw [hheld] at hyes
    exact absurd hyes Bool.false_ne_true
  · intro hyes
    rw [hawait] at hyes
    exact absurd hyes Bool.false_ne_true
  · exact h.created_nodup
  · exact h.released_nodup
  · exact h.taken_nodup
  · exact h.right

/-- Only the counter of creations matters. -/
theorem Marks.of_diagnostics (h : Marks log p) {d : ResampleDiagnostics}
    (hcreated : d.created = p.diagnostics.created) : Marks log { p with diagnostics := d } := by
  obtain ⟨hcreated_le, hreleased_le, htaken_le, hheld, hawaited, hnodup, hnodup', hnodup'',
    hright⟩ := h
  rw [← hcreated] at hcreated_le hreleased_le htaken_le hheld hawaited
  exact ⟨hcreated_le, hreleased_le, htaken_le, hheld, hawaited, hnodup, hnodup', hnodup'', hright⟩

theorem Marks.created (h : Marks log p) (hawait : p.awaitingCapture = false) (deadline : TimePoint)
    {d : ResampleDiagnostics}
    (hcreated : d.created = p.diagnostics.created + 1) :
    Marks (log ++ [.created (p.diagnostics.created + 1) deadline])
      { p with outstanding := true, deadline := deadline, diagnostics := d } := by
  -- of the three lists only that of the created obligations grows
  have hids : createdObligations (log ++ [.created (p.diagnostics.created + 1) deadline]) =
      createdObligations log ++ [p.diagnostics.created + 1] := List.filterMap_append
  have hreleased : releasedObligations (log ++ [.created (p.diagnostics.created + 1) deadline]) =
      releasedObligations log := by
    rw [releasedObligations, List.filterMap_append]
    exact List.append_nil _
  have htaken : takenObligations (log ++ [.created (p.diagnostics.created + 1) deadline]) =
      takenObligations log := by
    rw [takenObligations, List.filterMap_append]
    exact List.append_nil _
  constructor
  · intro n hn
    rw [hids, List.mem_append, List.mem_singleton] at hn
    show n ≤ d.created
    rcases hn with hn | rfl
    · have hle := h.created_le n hn
      omega
    · omega
  · intro n hn
    rw [hreleased] at hn
    have hle := h.released_le n hn
    show n + true.toNat ≤ d.created
    rw [hcreated, Bool.toNat_true]
    omega
  · intro n hn
    rw [htaken] at hn
    have hle := h.taken_le n hn
    show n + true.toNat ≤ d.created
    rw [hcreated, Bool.toNat_true]
    omega
  · intro _
    show Milestone.created d.created deadline ∈ _
    rw [hcreated]
    exact List.mem_append_right _ List.mem_cons_self
  · intro hyes
    rw [show p.awaitingCapture = true from hyes] at hawait
    exact absurd hawait.symm Bool.false_ne_true
  · rw [hids, List.nodup_append]
    refine ⟨h.created_nodup, List.nodup_singleton _, ?_⟩
    intro n hn m hm
    have hle := h.created_le n hn
    have hm := List.mem_singleton.mp hm
    omega
  · rw [hreleased]
    exact h.released_nodup
  · rw [htaken]
    exact h.taken_nodup
  · intro n decision hmem
    rcases List.mem_append.mp hmem with hmem | hmem
    · exact (h.right n decision hmem).append _
    · exact absurd (List.mem_singleton.mp hmem) (by simp)

theorem Marks.released (h : Marks log p) (hout : p.outstanding = true) (now : TimePoint)
    {fallback : Bool} (hfallback : fallback = true ↔ p.deadline ≤ now)
    {decision : FullPoolReleaseDecision} (hdecision : decision =
      releaseOf (if fallback then .expiryFallbackCapture else .resampleCapture))
    {d : ResampleDiagnostics} (hcreated : d.created = p.diagnostics.created) :
    Marks (log ++ [.released p.diagnostics.created decision now])
      { p with
        outstanding := false
        awaitingCapture := true
        awaitingExpiryFallback := fallback
        diagnostics := d } := by
  have hheld : p.hasOutstandingObligation = true := by simp [hasOutstandingObligation, hout]
  -- only the list of the released obligations grows
  have hids : createdObligations (log ++ [.released p.diagnostics.created decision now]) =
      createdObligations log := by
    rw [createdObligations, List.filterMap_append]
    exact List.append_nil _
  have hreleased : releasedObligations (log ++ [.released p.diagnostics.created decision now]) =
      releasedObligations log ++ [p.diagnostics.created] := List.filterMap_append
  have htaken : takenObligations (log ++ [.released p.diagnostics.created decision now]) =
      takenObligations log := by
    rw [takenObligations, List.filterMap_append]
    exact List.append_nil _
  -- an outstanding obligation has not been released before
  have hreleased_lt : ∀ n ∈ releasedObligations log, n < p.diagnostics.created := by
    intro n hn
    have hle := h.released_le n hn
    rw [hout, Bool.toNat_true] at hle
    omega
  constructor
  · rw [hids]
    show ∀ n ∈ _, n ≤ d.created
    rw [hcreated]
    exact h.created_le
  · intro n hn
    rw [hreleased, List.mem_append, List.mem_singleton] at hn
    show n + false.toNat ≤ d.created
    rw [hcreated, Bool.toNat_false]
    rcases hn with hn | rfl
    · exact Nat.le_of_lt (hreleased_lt n hn)
    · omega
  · intro n hn
    rw [htaken] at hn
    have hle := h.taken_le n hn
    rw [hheld] at hle
    show n + (false || true).toNat ≤ d.created
    rw [hcreated]
    exact hle
  · intro _
    show Milestone.created d.created p.deadline ∈ _
    rw [hcreated]
    exact List.mem_append_left _ (h.held hheld)
  · intro _
    show DecidedByRelease _ d.created (if fallback then _ else _)
    rw [hcreated]
    refine ⟨p.deadline, now, List.mem_append_left _ (h.held hheld), ?_, ?_⟩
    · rw [← hdecision]
      exact List.mem_append_right _ List.mem_cons_self
    · rw [← hfallback]
      cases fallback <;> simp
  · rw [hids]
    exact h.created_nodup
  · rw [hreleased, List.nodup_append]
    refine ⟨h.released_nodup, List.nodup_singleton _, ?_⟩
    intro n hn m hm
    have hlt := hreleased_lt n hn
    have hm := List.mem_singleton.mp hm
    omega
  · rw [htaken]
    exact h.taken_nodup
  · intro n decision' hmem
    rcases List.mem_append.mp hmem with hmem | hmem
    · exact (h.right n decision' hmem).append _
    · exact absurd (List.mem_singleton.mp hmem) (by simp)

theorem Marks.taken (h : Marks log p) (hout : p.outstanding = false)
    (hawait : p.awaitingCapture = true) {decision : FullPoolCaptureDecision} (hdecision : decision =
      if p.awaitingExpiryFallback then .expiryFallbackCapture else .resampleCapture) :
    Marks (log ++ [.taken p.diagnostics.created decision]) { p with awaitingCapture := false } := by
  have hheld : p.hasOutstandingObligation = true := by simp [hasOutstandingObligation, hawait]
  -- only the list of the taken obligations grows
  have hids : createdObligations (log ++ [.taken p.diagnostics.created decision]) =
      createdObligations log := by
    rw [createdObligations, List.filterMap_append]
    exact List.append_nil _
  have hreleased : releasedObligations (log ++ [.taken p.diagnostics.created decision]) =
      releasedObligations log := by
    rw [releasedObligations, List.filterMap_append]
    exact List.append_nil _
  have htaken : takenObligations (log ++ [.taken p.diagnostics.created decision]) =
      takenObligations log ++ [p.diagnostics.created] := List.filterMap_append
  have htaken_lt : ∀ n ∈ takenObligations log, n < p.diagnostics.created := by
    intro n hn
    have hle := h.taken_le n hn
    rw [hheld, Bool.toNat_true] at hle
    omega
  have hdropped : hasOutstandingObligation { p with awaitingCapture := false } = false := by
    simp [hasOutstandingObligation, hout]
  constructor
  · rw [hids]
    exact h.created_le
  · rw [hreleased]
    exact h.released_le
  · intro n hn
    rw [htaken, List.mem_append, List.mem_singleton] at hn
    rw [hdropped, Bool.toNat_false]
    rcases hn with hn | rfl
    · exact Nat.le_of_lt (htaken_lt n hn)
    · exact Nat.le_refl _
  · intro hyes
    rw [hdropped] at hyes
    exact absurd hyes Bool.false_ne_true
  · exact fun hyes => absurd hyes Bool.false_ne_true
  · rw [hids]
    exact h.created_nodup
  · rw [hreleased]
    exact h.released_nodup
  · rw [htaken, List.nodup_append]
    refine ⟨h.taken_nodup, List.nodup_singleton _, ?_⟩
    intro n hn m hm
    have hlt := htaken_lt n hn
    have hm := List.mem_singleton.mp hm
    omega
  · intro n decision' hmem
    rcases List.mem_append.mp hmem with hmem | hmem
    · exact (h.right n decision' hmem).append _
    · obtain ⟨rfl, rfl⟩ := Milestone.taken.inj (List.mem_singleton.mp hmem)
      rw [hdecision]
      exact (h.awaited hawait).append _

/-! ### Steps and runs -/

theorem marks_step {c : Call} {w' : Watched} {ms : List Milestone} (hcounts : Counts w)
    (h : Marks log w.policy) (horder : InOrder w c) (hstep : step w c = some (w', ms)) :
    Marks (log ++ ms) w'.policy := by
  cases c with
  | observeFullPool poolFull state now =>
    simp only [step, Option.some.injEq, Prod.mk.injEq] at hstep
    obtain ⟨rfl, rfl⟩ := hstep
    rcases observeFullPool_cases w.policy poolFull state now with
      ⟨hcreated, -, hawait, hnext⟩ | ⟨hignored, d, hnext, hd⟩
    · rw [if_pos hcreated, hnext]
      exact h.created hawait _ rfl
    · rw [if_neg hignored, List.append_nil, hnext]
      exact h.of_diagnostics hd
  | onResourceReleased now =>
    simp only [step, Option.some.injEq, Prod.mk.injEq] at hstep
    obtain ⟨rfl, rfl⟩ := hstep
    unfold onResourceReleased
    split
    · exact (List.append_nil log).symm ▸ h
    · next hnone =>
      have hout : w.policy.outstanding = true := by simpa using hnone
      -- after the deadline the obligation is released as a fallback capture
      split
      · next hlate => exact h.released hout now (iff_of_true rfl hlate) rfl rfl
      · next hlate => exact h.released hout now (iff_of_false Bool.false_ne_true hlate) rfl rfl
  | takeCaptureOpportunity =>
    unfold step at hstep
    dsimp only at hstep
    split at hstep
    · next hnormal =>
      simp only [Option.some.injEq, Prod.mk.injEq] at hstep
      obtain ⟨rfl, rfl⟩ := hstep
      rcases takeCaptureOpportunity_cases w.policy with ⟨heq, -⟩ | ⟨hresample, -, -⟩
      · rw [List.append_nil]
        show Marks log w.policy.takeCaptureOpportunity.2
        rw [heq]
        exact h
      · exact absurd hnormal hresample
    · next hresample =>
      simp only [Option.some.injEq, Prod.mk.injEq] at hstep
      obtain ⟨rfl, rfl⟩ := hstep
      rcases takeCaptureOpportunity_cases w.policy with ⟨heq, -⟩ | ⟨-, hawait, hnext⟩
      · rw [heq] at hresample
        exact absurd rfl hresample
      · have hout : w.policy.outstanding = false :=
          Bool.eq_false_iff.mpr fun hout => hcounts.exclusive ⟨hout, hawait⟩
        rw [hnext]
        refine h.taken hout hawait ?_
        rw [takeCaptureOpportunity, hawait]
        rfl
  | recordCaptureOutcome decision copied =>
    simp only [step, Option.some.injEq, Prod.mk.injEq] at hstep
    obtain ⟨rfl, rfl⟩ := hstep
    rw [List.append_nil]
    -- the outcome follows its capture at once, so no obligation is held in between
    by_cases hnormal : decision = .normalCapture
    · show Marks log (w.policy.recordCaptureOutcome decision copied)
      rw [recordCaptureOutcome, if_pos hnormal]
      exact h
    · have htaken : w.taken = some decision := horder.resolve_left hnormal
      have hheld := hcounts.free (by rw [htaken]; rfl)
      obtain ⟨hout, hawait⟩ : w.policy.outstanding = false ∧ w.policy.awaitingCapture = false := by
        simpa [hasOutstandingObligation] using hheld
      refine h.of_dropped (recordCaptureOutcome_created _ _ _) ?_ ?_
      · rw [recordCaptureOutcome_outstanding, hout]
      · rw [recordCaptureOutcome_awaitingCapture, hawait]
  | cancel =>
    simp only [step, Option.some.injEq, Prod.mk.injEq] at hstep
    obtain ⟨rfl, rfl⟩ := hstep
    rw [List.append_nil]
    exact h.of_dropped (cancel_created _) rfl rfl
  | reconfigure expiry =>
    simp only [step, Option.some.injEq, Prod.mk.injEq] at hstep
    obtain ⟨rfl, rfl⟩ := hstep
    rw [List.append_nil]
    show Marks log (w.policy.reconfigure expiry).2
    unfold reconfigure
    split
    · exact h
    · exact h.of_dropped (cancel_created _) rfl rfl

theorem counts_step {c : Call} {w' : Watched} {ms : List Milestone} (h : Counts w)
    (horder : InOrder w c) (hstep : step w c = some (w', ms)) : Counts w' := by
  cases c with
  | observeFullPool poolFull state now =>
    simp only [step, Option.some.injEq, Prod.mk.injEq] at hstep
    obtain ⟨rfl, -⟩ := hstep
    exact h.observe poolFull state now horder
  | onResourceReleased now =>
    simp only [step, Option.some.injEq, Prod.mk.injEq] at hstep
    obtain ⟨rfl, -⟩ := hstep
    exact h.release now
  | takeCaptureOpportunity =>
    unfold step at hstep
    dsimp only at hstep
    split at hstep
    · next hnormal =>
      simp only [Option.some.injEq, Prod.mk.injEq] at hstep
      obtain ⟨rfl, -⟩ := hstep
      rcases takeCaptureOpportunity_cases w.policy with ⟨heq, -⟩ | ⟨hresample, -, -⟩
      · show Counts { w with policy := w.policy.takeCaptureOpportunity.2 }
        rw [heq]
        exact h
      · exact absurd hnormal hresample
    · next hresample =>
      simp only [Option.some.injEq, Prod.mk.injEq] at hstep
      obtain ⟨rfl, -⟩ := hstep
      exact h.take horder hresample
  | recordCaptureOutcome decision copied =>
    simp only [step, Option.some.injEq, Prod.mk.injEq] at hstep
    obtain ⟨rfl, -⟩ := hstep
    exact h.record decision copied horder
  | cancel =>
    simp only [step, Option.some.injEq, Prod.mk.injEq] at hstep
    obtain ⟨rfl, -⟩ := hstep
    exact h.cancel
  | reconfigure expiry =>
    simp only [step, Option.some.injEq, Prod.mk.injEq] at hstep
    obtain ⟨rfl, -⟩ := hstep
    show Counts { w with policy := (w.policy.reconfigure expiry).2 }
    unfold reconfigure
    split
    · exact h
    · have hfresh : Counts { w with policy := { w.policy with expiry := expiry } } :=
        ⟨h.exclusive, h.free, h.resample, h.balance, h.dispatched⟩
      exact hfresh.cancel

/-- **Run lemma**: both invariants hold in every state that a run in order reaches. -/
theorem invariant_of_run {expiry : Duration} {calls : List Call}
    (h : system.Run InOrder ⟨create expiry, none⟩ calls log w) :
    Counts w ∧ Marks log w.policy := by
  refine h.induct (fun _ log w => Counts w ∧ Marks log w.policy) ?_ ?_
  · have hfresh : ∀ expiry : Duration, Counts ⟨{ expiry := expiry }, none⟩ ∧
        Marks [] { expiry := expiry } := by
      intro expiry
      refine ⟨⟨by simp, by simp, by simp, rfl, Nat.le_refl _⟩, ?_⟩
      constructor <;> simp [createdObligations, releasedObligations, takenObligations,
        hasOutstandingObligation]
    unfold create
    split
    · exact hfresh expiry
    · exact hfresh _
  · rintro _ log w c w' ms ⟨hcounts, hmarks⟩ horder hstep
    exact ⟨counts_step hcounts horder hstep, marks_step hcounts hmarks horder hstep⟩

/-- **The ledger of the obligations**, after every run in `CaptureM3`'s order. -/
theorem obligations_of_run {expiry : Duration} {calls : List Call}
    (h : system.Run InOrder ⟨create expiry, none⟩ calls log w) :
    ¬(w.policy.outstanding = true ∧ w.policy.awaitingCapture = true) ∧
      w.policy.diagnostics.created =
        w.policy.diagnostics.fulfilled + w.policy.diagnostics.copyFailures +
          w.policy.diagnostics.cancelled + w.policy.hasOutstandingObligation.toNat +
          w.taken.isSome.toNat ∧
      w.policy.diagnostics.dispatched + w.policy.diagnostics.expiryFallback ≤
        w.policy.diagnostics.created ∧
      (createdObligations log).Nodup ∧ (releasedObligations log).Nodup ∧
      (takenObligations log).Nodup ∧
      ∀ n decision, .taken n decision ∈ log → DecidedByRelease log n decision := by
  obtain ⟨hcounts, hmarks⟩ := invariant_of_run h
  exact ⟨hcounts.exclusive, hcounts.balance, Nat.le_trans (Nat.le_add_right _ _) hcounts.dispatched,
    hmarks.created_nodup, hmarks.released_nodup, hmarks.taken_nodup, hmarks.right⟩

def lateMilestones : List Milestone :=
  [.created 1 500000000, .released 1 .dispatchExpiryFallback 600000000,
    .taken 1 .expiryFallbackCapture]

theorem run_late : system.Run InOrder ⟨create 500000000, none⟩
    [.observeFullPool true ⟨true, true, false⟩ 0, .onResourceReleased 600000000,
      .takeCaptureOpportunity] lateMilestones
    ⟨{ deadline := 500000000, awaitingExpiryFallback := true,
       diagnostics := { created := 1, expiryFallback := 1 } }, some .expiryFallbackCapture⟩ :=
  Run.of_exec (by decide)

/-- An obligation that is released after its deadline is taken as an expiry fallback. -/
theorem obligations_of_run_late :
    DecidedByRelease lateMilestones 1 .expiryFallbackCapture :=
  (obligations_of_run run_late).2.2.2.2.2.2 1 _ (by simp [lateMilestones])

end EinkLab.CaptureSession.FullPoolResamplePolicy
