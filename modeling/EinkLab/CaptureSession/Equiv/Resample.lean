import EinkLab.CaptureSession.Equiv.Steps

/-!
# The full-pool resample obligation

The obligation is created from an occupancy that was read earlier, and a failed request is
cancelled later than it was dispatched.  Two results say when this is harmless:

* `full_pool_obligation_has_lease`: the obligation always finds a lease whose release dispatches
  it, in every run in which each creating observation still finds one;
* `failed_request_cancels_own_iff`: a failed request removes no other obligation exactly when no
  obligation created since its dispatch is still open.

`PoolInv` is the ownership of the pool's slots by the leases; `Obliged` relates the policy's
obligation to the log.
-/

namespace EinkLab.CaptureSession

open Transition

variable {s t u : State} {log evs : List Event} {a : Action} {canRequest : Bool}

/-! ### Slots and leases -/

/-- The snapshot the capture thread is about to turn into a lease, and its slot's state. -/
def CapturePhase.snapshot? : CapturePhase → Option (Snapshot × SlotState)
  | .copying _ x => some (x, .copying)
  | .copied _ x => some (x, .converting)
  | _ => none

/-- Each lease owns a converting slot, no two the same one, and the capture thread's snapshot owns
another. -/
structure PoolInv (pool : GpuSnapshotPool) (leases : List Snapshot) (capture : CapturePhase) :
    Prop where
  holds : ∀ x ∈ leases, pool.Holds x .converting
  nodup : (leases.map Snapshot.slot).Nodup
  snapshot_holds : ∀ x state, capture.snapshot? = some (x, state) → pool.Holds x state
  snapshot_slot : ∀ x state, capture.snapshot? = some (x, state) → ∀ y ∈ leases, x.slot ≠ y.slot

namespace PoolInv

variable {pool : GpuSnapshotPool} {leases : List Snapshot} {capture : CapturePhase}

/-- Only the slots matter. -/
theorem of_slots (h : PoolInv pool leases capture) {pool' : GpuSnapshotPool}
    (hslots : pool'.slots = pool.slots) : PoolInv pool' leases capture where
  holds x hx := by
    show pool'.slots[x.slot]? = _
    rw [hslots]
    exact h.holds x hx
  nodup := h.nodup
  snapshot_holds x state hx := by
    show pool'.slots[x.slot]? = _
    rw [hslots]
    exact h.snapshot_holds x state hx
  snapshot_slot := h.snapshot_slot

/-- A phase without a snapshot. -/
theorem of_capture (h : PoolInv pool leases capture) (capture' : CapturePhase)
    (hnone : capture'.snapshot? = none) : PoolInv pool leases capture' where
  holds := h.holds
  nodup := h.nodup
  snapshot_holds x state hx := by simp [hnone] at hx
  snapshot_slot x state hx := by simp [hnone] at hx

/-- The capture thread moves a slot no lease owns. -/
theorem setState (h : PoolInv pool leases capture) {x : Snapshot} {state : SlotState}
    {generation : Nat} (hold : pool.Holds ⟨x.slot, generation⟩ state)
    (hfree : ∀ y ∈ leases, x.slot ≠ y.slot) (state' : SlotState) (capture' : CapturePhase)
    (hcapture : ∀ y i, capture'.snapshot? = some (y, i) → y = x ∧ i = state') :
    PoolInv (pool.setState x state') leases capture' where
  holds y hy := (h.holds y hy).setState_of_ne (hfree y hy)
  nodup := h.nodup
  snapshot_holds y i hy := by
    obtain ⟨rfl, rfl⟩ := hcapture y i hy
    have hlt : y.slot < pool.slots.length := (List.getElem?_eq_some_iff.mp hold).1
    simp [GpuSnapshotPool.Holds, GpuSnapshotPool.setState, hlt]
  snapshot_slot y i hy := by
    obtain ⟨rfl, -⟩ := hcapture y i hy
    exact hfree

/-- The slot of a lease goes back to the pool with it. -/
theorem release (h : PoolInv pool leases capture) {x : Snapshot} (hx : x ∈ leases) :
    PoolInv (pool.setState x .free) (leases.erase x) capture := by
  have hne : ∀ y ∈ leases.erase x, x.slot ≠ y.slot := by
    intro y hy heq
    have hperm := (List.perm_cons_erase hx).map Snapshot.slot
    have hnodup := hperm.nodup_iff.mp h.nodup
    rw [List.map_cons, List.nodup_cons] at hnodup
    exact hnodup.1 (heq ▸ List.mem_map_of_mem hy)
  refine {
    holds := fun y hy => (h.holds y (List.mem_of_mem_erase hy)).setState_of_ne (hne y hy)
    nodup := h.nodup.sublist ((List.erase_sublist).map Snapshot.slot)
    snapshot_holds := fun y state hy => ?_
    snapshot_slot := fun y state hy z hz =>
      h.snapshot_slot y state hy z (List.mem_of_mem_erase hz) }
  have hslot := h.snapshot_slot y state hy x hx
  exact (h.snapshot_holds y state hy).setState_of_ne hslot.symm

/-- A lease for the snapshot that has been copied. -/
theorem lease (h : PoolInv pool leases capture) {x : Snapshot}
    (hx : capture.snapshot? = some (x, .converting)) : PoolInv pool (x :: leases) .idle where
  holds y hy := by
    rcases List.mem_cons.mp hy with rfl | hy
    · exact h.snapshot_holds y _ hx
    · exact h.holds y hy
  nodup := by
    rw [List.map_cons, List.nodup_cons]
    refine ⟨fun hmem => ?_, h.nodup⟩
    obtain ⟨y, hy, heq⟩ := List.mem_map.mp hmem
    exact h.snapshot_slot x _ hx y hy heq.symm
  snapshot_holds y state hy := by simp [CapturePhase.snapshot?] at hy
  snapshot_slot y state hy := by simp [CapturePhase.snapshot?] at hy

theorem tryCopy (h : PoolInv s.snapshotPool s.leases s.capture) (c : Admitted)
    (sourceUsable : Bool) :
    PoolInv (s.tryCopy c sourceUsable).snapshotPool (s.tryCopy c sourceUsable).leases
      (s.tryCopy c sourceUsable).capture := by
  unfold State.tryCopy
  split_ifs
  · have hfail : PoolInv s.snapshotPool.fail s.leases s.capture := h.of_slots rfl
    exact hfail.of_capture (.copyFailed c false) rfl
  · rcases s.snapshotPool.acquire_cases with hnone | ⟨x, hsome, generation, hfree⟩
    · rw [hnone]
      have hdrop : PoolInv { s.snapshotPool with drops := s.snapshotPool.drops + 1 } s.leases
          s.capture := h.of_slots rfl
      exact hdrop.of_capture (.copyFailed c true) rfl
    · rw [hsome]
      refine h.setState hfree (fun y hy heq => ?_) _ _ ?_
      · -- the slot was free, and that of a lease is converting
        cases hfree.state_eq (h.holds y hy) heq
      · rintro y i ⟨⟩
        exact ⟨rfl, rfl⟩

theorem finishCopy (h : PoolInv s.snapshotPool s.leases s.capture) {c : Admitted} {x : Snapshot}
    (hphase : s.capture = .copying c x) (drawn : Bool) :
    PoolInv (s.finishCopy c x drawn).snapshotPool (s.finishCopy c x drawn).leases
      (s.finishCopy c x drawn).capture := by
  have hx : s.capture.snapshot? = some (x, .copying) := by rw [hphase]; rfl
  have hholds := h.snapshot_holds x _ hx
  have hslot := h.snapshot_slot x _ hx
  unfold State.finishCopy GpuSnapshotPool.finishCopy
  cases drawn with
  | true =>
    simp only [if_true, hholds]
    refine h.setState hholds hslot _ _ ?_
    rintro y i ⟨⟩
    exact ⟨rfl, rfl⟩
  | false =>
    simp only [Bool.false_eq_true, if_false, if_true, hholds]
    have hfreed := h.setState hholds hslot .free (.copyFailed c false) (by
      intro y i hy
      simp [CapturePhase.snapshot?] at hy)
    exact hfreed.of_slots rfl

end PoolInv

/-! ### A lease for each obligation -/

/-- A lease whose release has not reached `OnResourceReleased`, and will. -/
def State.Unreleased (s : State) (x : Snapshot) : Prop :=
  (x ∈ s.leases ∧ s.snapshotPool.Holds x .converting) ∨ x ∈ s.returned

/-- Where the observation is about to create an obligation, a lease is still to be released. -/
def ObservationHasLease (s : State) (a : Action) : Prop :=
  match a, s.capture with
  | .observe, .poolRead c poolBusyBefore poolCapacity =>
    s.canRequest = true → c.resampleCapture = .normalCapture →
      FullPoolResamplePolicy.qualifies (poolCapacity ≠ 0 && poolBusyBefore ≥ poolCapacity)
        c.admissionState.pipelineState = true →
          s.policy.hasOutstandingObligation = false → s.leases ≠ [] ∨ s.returned ≠ []
  | _, _ => True

instance (s : State) (a : Action) : Decidable (ObservationHasLease s a) := by
  unfold ObservationHasLease
  split
  · infer_instance
  · exact .isTrue trivial

structure ObligationInv (s : State) : Prop where
  pool : PoolInv s.snapshotPool s.leases s.capture
  lease : s.policy.outstanding = true → s.leases ≠ [] ∨ s.returned ≠ []

theorem obligationInv_init : ObligationInv (.create canRequest) where
  pool := {
    holds := by simp [State.create]
    nodup := List.nodup_nil
    snapshot_holds := by simp [State.create, CapturePhase.snapshot?]
    snapshot_slot := by simp [State.create, CapturePhase.snapshot?] }
  lease h := by simp [State.create] at h

namespace ObligationInv

/-- Steps that change neither the slots nor the policy's outstanding state. -/
theorem of_same (h : ObligationInv s) (hpool : PoolInv u.snapshotPool u.leases u.capture)
    (hout : u.policy.outstanding = true → s.policy.outstanding = true)
    (hleases : s.leases ≠ [] ∨ s.returned ≠ [] → u.leases ≠ [] ∨ u.returned ≠ []) :
    ObligationInv u where
  pool := hpool
  lease hu := hleases (h.lease (hout hu))

theorem configure (h : ObligationInv s) (settings : CaptureSettings) :
    ObligationInv (s.configure settings) := by
  unfold State.configure
  dsimp only
  have hpool := h.pool
  split_ifs
  · exact h
  · exact h
  · exact h.of_same hpool id id
  · exact h.of_same (hpool.of_capture _ rfl) id id

theorem takeOpportunity (h : ObligationInv s) (now : TimePoint) (admissionState : AdmissionState) :
    ObligationInv (s.takeOpportunity now admissionState).1 := by
  have hout : s.policy.takeCaptureOpportunity.2.outstanding = s.policy.outstanding := by
    rcases s.policy.takeCaptureOpportunity_cases with ⟨heq, -⟩ | ⟨-, -, heq⟩
    · rw [heq]
    · rw [heq]
  unfold State.takeOpportunity
  dsimp only
  split_ifs
  · exact h.of_same (h.pool.of_capture _ rfl) (fun hu => hout ▸ hu) id
  · exact h.of_same (h.pool.of_capture _ rfl) (fun hu => hout ▸ hu) id
  · exact h.of_same (h.pool.of_capture _ rfl) (fun hu => hout ▸ hu) id

/-- What an observation leaves, apart from the accounting. -/
theorem observe_effect (s : State) (c : Admitted) (poolBusy poolCapacity : Nat) :
    let u := (s.observe c poolBusy poolCapacity).1
    u.snapshotPool = s.snapshotPool ∧ u.leases = s.leases ∧ u.returned = s.returned ∧
      u.capture.snapshot? = none ∧
      u.policy = (if c.resampleCapture = .normalCapture ∧ s.canRequest = true then
        (s.policy.observeFullPool (poolCapacity ≠ 0 && poolBusy ≥ poolCapacity)
          c.admissionState.pipelineState c.now).2 else s.policy) := by
  unfold State.observe
  dsimp only
  by_cases hresample : c.resampleCapture = .normalCapture
  · rw [if_neg (not_not.mpr hresample)]
    by_cases hcan : s.canRequest = true
    · simp only [hcan, hresample, and_self, if_true]
      split <;> exact ⟨rfl, rfl, rfl, rfl, rfl⟩
    · simp only [hcan, Bool.false_eq_true, and_false, if_false]
      split <;> exact ⟨rfl, rfl, rfl, rfl, rfl⟩
  · rw [if_pos hresample, if_neg fun h => hresample h.1]
    exact ⟨rfl, rfl, rfl, rfl, rfl⟩

/-- The observation is where the obligation comes from. -/
theorem observe (h : ObligationInv s) {c : Admitted} {poolBusy poolCapacity : Nat}
    (hphase : s.capture = .poolRead c poolBusy poolCapacity)
    (hok : ObservationHasLease s .observe) :
    ObligationInv (s.observe c poolBusy poolCapacity).1 := by
  obtain ⟨hpool, hleases, hreturned, hcapture, hpolicy⟩ := observe_effect s c poolBusy poolCapacity
  refine ⟨?_, fun hu => ?_⟩
  · rw [hpool, hleases]
    exact h.pool.of_capture _ hcapture
  rw [hleases, hreturned]
  rw [hpolicy] at hu
  split_ifs at hu with hcan
  · rcases s.policy.observeFullPool_cases (poolCapacity ≠ 0 && poolBusy ≥ poolCapacity)
      c.admissionState.pipelineState c.now with ⟨hcreated, hfree, hfree', -⟩ | ⟨-, d, heq, -⟩
    · have hqualifies : FullPoolResamplePolicy.qualifies
          (poolCapacity ≠ 0 && poolBusy ≥ poolCapacity) c.admissionState.pipelineState = true := by
        by_contra hnot
        rw [FullPoolResamplePolicy.observeFullPool, if_pos (by simpa using hnot)] at hcreated
        cases hcreated
      simp only [ObservationHasLease, hphase] at hok
      exact hok hcan.2 hcan.1 hqualifies
        (by simp [FullPoolResamplePolicy.hasOutstandingObligation, hfree, hfree'])
    · -- the observation is coalesced or ignored: the obligation was there before
      rw [heq] at hu
      exact h.lease hu
  · exact h.lease hu

theorem sourceCopy (h : ObligationInv s) (c : Admitted) (converted : Bool) :
    ObligationInv (s.sourceCopy c converted).1 := by
  unfold State.sourceCopy
  split_ifs
  · exact h.of_same (h.pool.of_capture _ rfl) id id
  · exact h.of_same (h.pool.of_capture _ rfl) id id

theorem releaseSlot (h : ObligationInv s) {x : Snapshot} (hx : x ∈ s.leases) :
    ObligationInv (s.releaseSlot x) := by
  unfold State.releaseSlot GpuSnapshotPool.releaseAfterConversion
  simp only [h.pool.holds x hx, if_true]
  exact h.of_same (h.pool.release hx) id fun _ => Or.inr (by simp)

/-- A release that reaches the policy leaves nothing outstanding. -/
theorem notifyRelease (h : ObligationInv s) (x : Snapshot) (now : TimePoint) :
    ObligationInv (s.notifyRelease x now).1 := by
  have hout : (s.policy.onResourceReleased now).2.outstanding = false := by
    rcases s.policy.onResourceReleased_cases now with ⟨heq, hfree⟩ | ⟨-, -, late, d, heq, -⟩
    · rw [heq]; exact hfree
    · rw [heq]
  unfold State.notifyRelease
  dsimp only
  split_ifs
  · exact ⟨h.pool, fun hu => by rw [hout] at hu; cases hu⟩
  · exact ⟨h.pool, fun hu => by rw [hout] at hu; cases hu⟩

theorem tryCopy (h : ObligationInv s) (c : Admitted) (sourceUsable : Bool) :
    ObligationInv (s.tryCopy c sourceUsable) := by
  refine h.of_same (h.pool.tryCopy c sourceUsable) (fun hu => ?_) (fun hl => ?_)
  · unfold State.tryCopy at hu
    split_ifs at hu
    · exact hu
    · split at hu <;> exact hu
  · unfold State.tryCopy
    split_ifs
    · exact hl
    · split <;> exact hl

/-- Every step keeps the invariant, if the observation finds a lease. -/
theorem step (h : ObligationInv s) (hok : ObservationHasLease s a)
    (hs : s.step a = some (u, evs)) : ObligationInv u := by
  cases step_cases hs with
  | configure settings _ => exact h.configure settings
  | readAdmissionState _ _ _ => exact h.of_same (h.pool.of_capture _ rfl) id id
  | takeOpportunity now admissionState _ => exact h.takeOpportunity now admissionState
  | readPool _ _ => exact h.of_same (h.pool.of_capture _ rfl) id id
  | observe _ _ _ hphase => exact h.observe hphase hok
  | sourceCopy c converted _ => exact h.sourceCopy c converted
  | tryCopy c sourceUsable _ => exact h.tryCopy c sourceUsable
  | finishCopy c x drawn hphase => exact h.of_same (h.pool.finishCopy hphase drawn) id id
  | recordCopied c x hphase =>
    -- the snapshot becomes a lease, which the obligation has from now on
    have hx : s.capture.snapshot? = some (x, .converting) := by rw [hphase]; rfl
    refine h.of_same (h.pool.lease hx) (fun hu => ?_) (fun _ => Or.inl (List.cons_ne_nil x _))
    simpa [State.recordCopied, State.recordCaptureOutcome] using hu
  | recordFailed c dropped _ =>
    refine h.of_same (h.pool.of_capture _ rfl) (fun hu => ?_) id
    simpa [State.recordFailed, State.recordCaptureOutcome] using hu
  | releaseSlot x hx => exact h.releaseSlot hx
  | notifyRelease x now _ => exact h.notifyRelease x now
  | requestComposite _ _ _ => exact h.of_same h.pool id id
  | cancelFailed _ _ =>
    exact ⟨h.pool, fun hu => by simp [State.cancelFailed, FullPoolResamplePolicy.cancel] at hu⟩
  | cancel => exact ⟨h.pool, fun hu => by simp [FullPoolResamplePolicy.cancel] at hu⟩

end ObligationInv

/-- A release, up to the policy. -/
def IsRelease (x : Snapshot) (b : Action) : Prop :=
  b = .releaseSlot x ∨ ∃ now, b = .notifyRelease x now

theorem ObligationInv.dispatch_returned (hout : s.policy.outstanding = true) {x : Snapshot}
    (hx : x ∈ s.returned) :
    ∃ u, s.step (.notifyRelease x 0) = some (u, [.dispatched s.policy.diagnostics.created]) := by
  rcases s.policy.onResourceReleased_cases 0 with ⟨-, hfree⟩ | ⟨hsome, -, late, d, heq, hcreated⟩
  · rw [hout] at hfree
    cases hfree
  · refine ⟨(s.notifyRelease x 0).1, ?_⟩
    have hcreated' :
        (s.policy.onResourceReleased 0).2.diagnostics.created = s.policy.diagnostics.created := by
      rw [heq]; exact hcreated
    simp only [State.step, hx, if_true, State.notifyRelease, hsome, if_false, hcreated']

/-- **An outstanding obligation has a lease**, and that lease's release dispatches it: in every run
whose creating observations still find a lease. -/
theorem full_pool_obligation_has_lease {as : List Action}
    (h : system.Run ObservationHasLease (.create canRequest) as log t)
    (hout : t.policy.outstanding = true) :
    ∃ x, t.Unreleased x ∧ ∃ bs log' u, (∀ b ∈ bs, IsRelease x b) ∧
      system.Run System.anyAction t bs log' u ∧
        .dispatched t.policy.diagnostics.created ∈ log' := by
  have hinv : ObligationInv t := h.invariant ObligationInv obligationInv_init
    fun _ _ _ _ ht hok hs => ht.step hok hs
  rcases hinv.lease hout with hleases | hreturned
  · -- the lease frees its slot first, and then tells the policy
    obtain ⟨x, hx⟩ := List.exists_mem_of_ne_nil _ hleases
    have hholds := hinv.pool.holds x hx
    refine ⟨x, Or.inl ⟨hx, hholds⟩, ?_⟩
    have hfirst : t.step (.releaseSlot x) = some (t.releaseSlot x, []) := by
      simp only [State.step, hx, if_true]
    have hout' : (t.releaseSlot x).policy.outstanding = true := hout
    have hx' : x ∈ (t.releaseSlot x).returned := by
      simp [State.releaseSlot, GpuSnapshotPool.releaseAfterConversion, hholds]
    obtain ⟨u, hsecond⟩ := ObligationInv.dispatch_returned hout' hx'
    refine ⟨[.releaseSlot x, .notifyRelease x 0], _, u, ?_,
      (System.Run.single trivial hfirst).trans (System.Run.single trivial hsecond), ?_⟩
    · intro b hb
      rcases List.mem_cons.mp hb with rfl | hb
      · exact Or.inl rfl
      · exact Or.inr ⟨0, List.mem_singleton.mp hb⟩
    · simp [State.releaseSlot]
  · obtain ⟨x, hx⟩ := List.exists_mem_of_ne_nil _ hreturned
    obtain ⟨u, hstep⟩ := ObligationInv.dispatch_returned hout hx
    refine ⟨x, Or.inr hx, [.notifyRelease x 0], _, u, ?_, System.Run.single trivial hstep, ?_⟩
    · intro b hb
      exact Or.inr ⟨0, List.mem_singleton.mp hb⟩
    · exact List.mem_singleton_self _

/-- A normal call that copies into a free slot. -/
def copyCall : List Action :=
  [.configure {}, .readAdmissionState ⟨false, false, false, false, none⟩, .takeOpportunity,
    .readPool, .observe, .sourceCopy false, .tryCopy true, .finishCopy true, .recordOutcome]

/-- A normal call with one conversion in flight and one capture pending, up to the observation. -/
def callToObservation : List Action :=
  [.configure {}, .readAdmissionState ⟨true, true, true, false, none⟩, .takeOpportunity, .readPool]

/-- Both slots are leased when the third call observes the full pool. -/
def fullPoolCalls : List Action := copyCall ++ copyCall ++ callToObservation ++ [.observe]

/-- Both leases are released between the third call's reading of the pool and its observation. -/
def lateObservation : List Action :=
  copyCall ++ copyCall ++ callToObservation ++
    [.releaseSlot ⟨0, 1⟩, .notifyRelease ⟨0, 1⟩ 0, .releaseSlot ⟨1, 1⟩, .notifyRelease ⟨1, 1⟩ 0,
      .observe]

theorem full_pool_obligation_has_lease_of_full_pool :
    ∃ log t, system.Run ObservationHasLease (.create true) fullPoolCalls log t ∧
      t.policy.outstanding = true ∧ ∃ x, t.Unreleased x ∧ ∃ bs log' u,
        (∀ b ∈ bs, IsRelease x b) ∧ system.Run System.anyAction t bs log' u ∧
          .dispatched t.policy.diagnostics.created ∈ log' := by
  have hexec : (system.exec ObservationHasLease (.create true) fullPoolCalls).map
      (fun r => r.1.policy.outstanding) = some true := by
    decide
  obtain ⟨⟨t, log⟩, hr, hout⟩ := Option.map_eq_some_iff.mp hexec
  have hrun := System.Run.of_exec hr
  exact ⟨log, t, hrun, hout, full_pool_obligation_has_lease hrun hout⟩

/-- An obligation without any lease. -/
theorem full_pool_obligation_orphaned :
    ¬ ∀ (canRequest : Bool) (as : List Action) (log : List Event) (t : State),
      system.Run System.anyAction (.create canRequest) as log t →
        t.policy.outstanding = true → ∃ x, t.Unreleased x := by
  intro hall
  have hexec : (system.exec System.anyAction (.create true) lateObservation).map
      (fun r => (r.1.policy.outstanding, r.1.leases, r.1.returned)) = some (true, [], []) := by
    decide
  obtain ⟨⟨t, log⟩, hr, heq⟩ := Option.map_eq_some_iff.mp hexec
  simp only [Prod.mk.injEq] at heq
  obtain ⟨hout, hleases, hreturned⟩ := heq
  obtain ⟨x, ⟨hx, -⟩ | hx⟩ := hall true lateObservation log t (System.Run.of_exec hr) hout
  · simp [hleases] at hx
  · simp [hreturned] at hx

/-! ### The obligation a failed request removes -/

/-- The open obligation, if any, is over: a capture took it, or it was cancelled. -/
def Closes (e : Event) : Prop :=
  (∃ obligation, e = .captured obligation) ∨ e = .cancelled ∨
    ∃ obligation removed, e = .requestFailed obligation removed

/-- An obligation created after `obligation` is still open. -/
def YoungerOpen (obligation : Nat) (log : List Event) : Prop :=
  OpenAfter (fun e => ∃ n, obligation < n ∧ e = .created n) Closes log

/-- A failed request removed its own obligation, or none, exactly when no younger one was open. -/
def CancelLaw (log : List Event) (e : Event) : Prop :=
  ∀ obligation removed, e = .requestFailed obligation removed →
    ((removed = none ∨ removed = some obligation) ↔ ¬ YoungerOpen obligation log)

/-- The events that are neither a creation nor an end of an obligation. -/
def Neutral (e : Event) : Prop := (∀ n, e ≠ .created n) ∧ ¬ Closes e

structure Obliged (log : List Event) (s : State) : Prop where
  exclusive : s.policy.awaitingCapture = true → s.policy.outstanding = false
  younger : ∀ k, YoungerOpen k log ↔ ∃ n, s.policy.obligation = some n ∧ k < n
  requesting_le : ∀ n ∈ s.requesting, n ≤ s.policy.diagnostics.created
  failed_le : ∀ n ∈ s.failed, n ≤ s.policy.diagnostics.created
  law : EachEvent CancelLaw log

theorem obliged_init : Obliged [] (.create canRequest) where
  exclusive h := by simp [State.create] at h
  younger k := by simp [YoungerOpen, not_openAfter_nil, State.create,
    FullPoolResamplePolicy.obligation, FullPoolResamplePolicy.hasOutstandingObligation]
  requesting_le n h := by simp [State.create] at h
  failed_le n h := by simp [State.create] at h
  law := eachEvent_nil _

namespace Obliged

theorem not_younger (hevs : ∀ e ∈ evs, Neutral e) (k : Nat) :
    YoungerOpen k (log ++ evs) ↔ YoungerOpen k log := by
  refine openAfter_append_of_neutral fun e he => ⟨?_, (hevs e he).2⟩
  rintro ⟨n, -, rfl⟩
  exact (hevs _ he).1 n rfl

/-- Steps that keep the obligation and log neither its creation nor its end. -/
theorem neutral (h : Obliged log s) (hevs : ∀ e ∈ evs, Neutral e)
    (hexclusive : u.policy.awaitingCapture = true → u.policy.outstanding = false)
    (hobligation : u.policy.obligation = s.policy.obligation)
    (hcreated : u.policy.diagnostics.created = s.policy.diagnostics.created)
    (hrequesting : ∀ n ∈ u.requesting, n ≤ s.policy.diagnostics.created)
    (hfailed : ∀ n ∈ u.failed, n ≤ s.policy.diagnostics.created) : Obliged (log ++ evs) u where
  exclusive := hexclusive
  younger k := by rw [not_younger hevs, hobligation]; exact h.younger k
  requesting_le := by rw [hcreated]; exact hrequesting
  failed_le := by rw [hcreated]; exact hfailed
  law := by
    refine eachEvent_append_of_forall h.law fun pre e he obligation removed heq => ?_
    exact absurd (Or.inr (Or.inr ⟨obligation, removed, heq⟩)) (hevs e he).2

/-- The same for steps that leave the policy and the releases alone. -/
theorem same (h : Obliged log s) (hevs : ∀ e ∈ evs, Neutral e) (hpolicy : u.policy = s.policy)
    (hrequesting : u.requesting = s.requesting) (hfailed : u.failed = s.failed) :
    Obliged (log ++ evs) u :=
  h.neutral hevs (by rw [hpolicy]; exact h.exclusive) (by rw [hpolicy]) (by rw [hpolicy])
    (by rw [hrequesting]; exact h.requesting_le) (by rw [hfailed]; exact h.failed_le)

/-- A step after which no obligation is held, and which logs an end of it. -/
theorem closed (h : Obliged log s) {e : Event} (he : Closes e) (hlaw : CancelLaw log e)
    (hnone : u.policy.outstanding = false ∧ u.policy.awaitingCapture = false)
    (hcreated : u.policy.diagnostics.created = s.policy.diagnostics.created)
    (hrequesting : ∀ n ∈ u.requesting, n ≤ s.policy.diagnostics.created)
    (hfailed : ∀ n ∈ u.failed, n ≤ s.policy.diagnostics.created) : Obliged (log ++ [e]) u where
  exclusive _ := hnone.1
  younger k := by
    have hclosed : ¬ YoungerOpen k (log ++ [e]) := by
      intro hopen
      rcases openAfter_append_singleton.mp hopen with ⟨n, -, rfl⟩ | ⟨-, hstop⟩
      · rcases he with ⟨m, heq⟩ | heq | ⟨m, r, heq⟩ <;> cases heq
      · exact hstop he
    simp [hclosed, FullPoolResamplePolicy.obligation,
      FullPoolResamplePolicy.hasOutstandingObligation, hnone]
  requesting_le := by rw [hcreated]; exact hrequesting
  failed_le := by rw [hcreated]; exact hfailed
  law := eachEvent_append_singleton.mpr ⟨h.law, hlaw⟩

/-- The creation of the next obligation. -/
theorem created (h : Obliged log s) (hfree : s.policy.obligation = none)
    (hcreated : u.policy.diagnostics.created = s.policy.diagnostics.created + 1)
    (hout : u.policy.outstanding = true) (hawaiting : u.policy.awaitingCapture = false)
    (hrequesting : u.requesting = s.requesting) (hfailed : u.failed = s.failed) :
    Obliged (log ++ [.created u.policy.diagnostics.created]) u where
  exclusive ha := by rw [hawaiting] at ha; cases ha
  younger k := by
    have hold : ¬ YoungerOpen k log := by
      rw [h.younger]
      simp [hfree]
    have hobligation : u.policy.obligation = some u.policy.diagnostics.created := by
      simp [FullPoolResamplePolicy.obligation, FullPoolResamplePolicy.hasOutstandingObligation,
        hout]
    rw [hobligation]
    constructor
    · intro hopen
      rcases openAfter_append_singleton.mp hopen with ⟨n, hlt, heq⟩ | ⟨hopen, -⟩
      · obtain rfl := Event.created.inj heq
        exact ⟨_, rfl, hlt⟩
      · exact absurd hopen hold
    · rintro ⟨n, heq, hlt⟩
      obtain rfl := Option.some.inj heq
      exact openAfter_append_singleton.mpr (Or.inl ⟨_, hlt, rfl⟩)
  requesting_le n hn := by
    have := h.requesting_le n (hrequesting ▸ hn)
    omega
  failed_le n hn := by
    have := h.failed_le n (hfailed ▸ hn)
    omega
  law := eachEvent_append_singleton.mpr ⟨h.law, by rintro obligation removed ⟨⟩⟩

theorem takeOpportunity (h : Obliged log s) (now : TimePoint) (admissionState : AdmissionState) :
    Obliged (log ++ (s.takeOpportunity now admissionState).2)
      (s.takeOpportunity now admissionState).1 := by
  unfold State.takeOpportunity
  dsimp only
  rcases s.policy.takeCaptureOpportunity_cases with ⟨heq, -⟩ | ⟨hresample, hawaiting, heq⟩
  · rw [heq]
    simp only [ne_eq, not_true_eq_false, if_false]
    exact h.same (by simp) rfl rfl rfl
  · rw [if_pos hresample]
    refine h.closed (Or.inl ⟨_, rfl⟩) (by rintro obligation removed ⟨⟩) ?_ ?_ h.requesting_le
      h.failed_le
    · show _ = false ∧ _ = false
      rw [heq]
      exact ⟨h.exclusive hawaiting, rfl⟩
    · show s.policy.takeCaptureOpportunity.2.diagnostics.created = _
      rw [heq]

theorem observe (h : Obliged log s) (c : Admitted) (poolBusy poolCapacity : Nat) :
    Obliged (log ++ (s.observe c poolBusy poolCapacity).2)
      (s.observe c poolBusy poolCapacity).1 := by
  unfold State.observe
  dsimp only
  by_cases hresample : c.resampleCapture ≠ .normalCapture
  · rw [if_pos hresample]
    exact h.same (by simp [Neutral, Closes]) rfl rfl rfl
  rw [if_neg hresample]
  by_cases hcan : s.canRequest = true
  · simp only [hcan, if_true]
    rcases s.policy.observeFullPool_cases (poolCapacity ≠ 0 && poolBusy ≥ poolCapacity)
      c.admissionState.pipelineState c.now with
      ⟨hcreated, hfree, hfree', heq⟩ | ⟨hother, d, heq, hd⟩
    · rw [hcreated]
      simp only [ne_eq, reduceCtorEq, not_false_eq_true, if_true]
      have hnew : ∀ (u : State) (n : Nat),
          u.policy = (s.policy.observeFullPool (poolCapacity ≠ 0 && poolBusy ≥ poolCapacity)
            c.admissionState.pipelineState c.now).2 →
          n = u.policy.diagnostics.created → u.requesting = s.requesting → u.failed = s.failed →
          Obliged (log ++ [.created n]) u := by
        rintro u _ hpolicy rfl hrequesting hfailed
        rw [heq] at hpolicy
        refine h.created ?_ (by rw [hpolicy]) (by rw [hpolicy]) (by rw [hpolicy]; exact hfree')
          hrequesting hfailed
        simp [FullPoolResamplePolicy.obligation, FullPoolResamplePolicy.hasOutstandingObligation,
          hfree, hfree']
      exact hnew _ _ rfl rfl rfl rfl
    · rw [if_neg hother]
      have hkeep : ∀ (u : State) (evs : List Event), (∀ e ∈ evs, Neutral e) →
          u.policy = (s.policy.observeFullPool (poolCapacity ≠ 0 && poolBusy ≥ poolCapacity)
            c.admissionState.pipelineState c.now).2 →
          u.requesting = s.requesting → u.failed = s.failed → Obliged (log ++ evs) u := by
        intro u evs hevs hpolicy hrequesting hfailed
        rw [heq] at hpolicy
        refine h.neutral hevs ?_ ?_ ?_ ?_ ?_
        · rw [hpolicy]; exact h.exclusive
        · rw [hpolicy]
          simp [FullPoolResamplePolicy.obligation,
            FullPoolResamplePolicy.hasOutstandingObligation, hd]
        · rw [hpolicy]; exact hd
        · rw [hrequesting]; exact h.requesting_le
        · rw [hfailed]; exact h.failed_le
      split
      · exact hkeep _ _ (by simp) rfl rfl rfl
      · exact hkeep _ _ (by simp [Neutral, Closes]) rfl rfl rfl
  · simp only [hcan, Bool.false_eq_true, if_false]
    exact h.same (by simp [Neutral, Closes]) rfl rfl rfl

theorem sourceCopy (h : Obliged log s) (c : Admitted) (converted : Bool) :
    Obliged (log ++ (s.sourceCopy c converted).2) (s.sourceCopy c converted).1 := by
  unfold State.sourceCopy
  split_ifs
  · exact h.same (by simp [Neutral, Closes]) rfl rfl rfl
  · exact h.same (by simp) rfl rfl rfl

theorem notifyRelease (h : Obliged log s) (x : Snapshot) (now : TimePoint) :
    Obliged (log ++ (s.notifyRelease x now).2) (s.notifyRelease x now).1 := by
  unfold State.notifyRelease
  dsimp only
  rcases s.policy.onResourceReleased_cases now with
    ⟨heq, hfree⟩ | ⟨hsome, hout, late, d, heq, hcreated⟩
  · rw [heq]
    simp only [if_true]
    exact h.same (by simp) rfl rfl rfl
  · rw [if_neg hsome, heq]
    refine h.neutral (by simp [Neutral, Closes]) (fun _ => rfl) ?_ hcreated ?_ h.failed_le
    · simp [FullPoolResamplePolicy.obligation, FullPoolResamplePolicy.hasOutstandingObligation,
        hout, hcreated]
    · intro n hn
      rcases List.mem_cons.mp hn with rfl | hn
      · exact Nat.le_of_eq hcreated
      · exact h.requesting_le n hn

/-- The `Cancel` after a failed request: what it removes is the open obligation. -/
theorem cancelFailed (h : Obliged log s) {obligation : Nat} (hmem : obligation ∈ s.failed) :
    Obliged (log ++ (s.cancelFailed obligation).2) (s.cancelFailed obligation).1 := by
  have hle := h.failed_le obligation hmem
  refine h.closed (Or.inr (Or.inr ⟨_, _, rfl⟩)) ?_ ⟨rfl, rfl⟩ (by simp [State.cancelFailed])
    h.requesting_le fun n hn => h.failed_le n (List.mem_of_mem_erase hn)
  rintro _ _ ⟨⟩
  rw [h.younger]
  cases hob : s.policy.obligation with
  | none => simp
  | some n =>
    have hn : n = s.policy.diagnostics.created := by
      unfold FullPoolResamplePolicy.obligation at hob
      split_ifs at hob
      exact (Option.some.inj hob).symm
    simp only [reduceCtorEq, Option.some.injEq, false_or, exists_eq_left']
    omega

/-- The end of a call leaves the obligation as it is. -/
theorem recordOutcome (h : Obliged log s) (c : Admitted) (copied : Bool)
    (hpolicy : u.policy = s.policy.recordCaptureOutcome c.resampleCapture copied)
    (hrequesting : u.requesting = s.requesting) (hfailed : u.failed = s.failed) :
    Obliged (log ++ ((if c.resampleCapture ≠ .normalCapture then
      [Event.captureOutcome copied] else []) ++
        [Event.outcome (c.resampleCapture ≠ .normalCapture)])) u := by
  refine h.neutral ?_ ?_ ?_ ?_ ?_ ?_
  · intro e he
    split_ifs at he
    · rcases List.mem_append.mp he with he | he <;> rw [List.mem_singleton.mp he] <;>
        simp [Neutral, Closes]
    · rw [List.nil_append, List.mem_singleton] at he
      simp [he, Neutral, Closes]
  · simpa [hpolicy] using h.exclusive
  · simp [hpolicy, FullPoolResamplePolicy.obligation,
      FullPoolResamplePolicy.hasOutstandingObligation]
  · simp [hpolicy]
  · rw [hrequesting]; exact h.requesting_le
  · rw [hfailed]; exact h.failed_le

/-- A request that is refused is numbered as it was dispatched. -/
theorem requestComposite (h : Obliged log s) {obligation : Nat} (accepted : Bool)
    (hmem : obligation ∈ s.requesting) :
    Obliged (log ++ []) (s.requestComposite obligation accepted) := by
  refine h.neutral (by simp) h.exclusive rfl rfl
    (fun n hn => h.requesting_le n (List.mem_of_mem_erase hn)) fun n hn => ?_
  simp only [State.requestComposite] at hn
  split_ifs at hn
  · exact h.failed_le n hn
  · rcases List.mem_cons.mp hn with rfl | hn
    · exact h.requesting_le _ hmem
    · exact h.failed_le n hn

/-- Every step keeps the invariant. -/
theorem step (h : Obliged log s) (hs : s.step a = some (u, evs)) : Obliged (log ++ evs) u := by
  cases step_cases hs with
  | configure settings _ =>
    unfold State.configure
    dsimp only
    split_ifs <;> exact h.same (by simp) rfl rfl rfl
  | readAdmissionState _ _ _ => exact h.same (by simp) rfl rfl rfl
  | takeOpportunity now admissionState _ => exact h.takeOpportunity now admissionState
  | readPool _ _ => exact h.same (by simp) rfl rfl rfl
  | observe c poolBusy poolCapacity _ => exact h.observe c poolBusy poolCapacity
  | sourceCopy c converted _ => exact h.sourceCopy c converted
  | tryCopy c sourceUsable _ =>
    unfold State.tryCopy
    split_ifs
    · exact h.same (by simp) rfl rfl rfl
    · split <;> exact h.same (by simp) rfl rfl rfl
  | finishCopy _ _ _ _ => exact h.same (by simp) rfl rfl rfl
  | recordCopied c _ _ => exact h.recordOutcome c true rfl rfl rfl
  | recordFailed c _ _ => exact h.recordOutcome c false rfl rfl rfl
  | releaseSlot _ _ => exact h.same (by simp) rfl rfl rfl
  | notifyRelease x now _ => exact h.notifyRelease x now
  | requestComposite obligation accepted hmem => exact h.requestComposite accepted hmem
  | cancelFailed obligation hmem => exact h.cancelFailed hmem
  | cancel =>
    exact h.closed (Or.inr (Or.inl rfl)) (by rintro obligation removed ⟨⟩) ⟨rfl, rfl⟩ (by simp)
      h.requesting_le h.failed_le

end Obliged

/-- **A failed request cancels its own obligation**, or none, exactly when no obligation created
since its dispatch is open. -/
theorem failed_request_cancels_own_iff {as : List Action}
    (h : system.Run System.anyAction (.create canRequest) as log t) : EachEvent CancelLaw log := by
  have hinv : Obliged log t := by
    refine h.induct (fun _ log t => Obliged log t) obliged_init ?_
    intro as log t a u evs ht _ hs
    exact ht.step hs
  exact hinv.law

/-- The first lease's release dispatches obligation `1`; before its request fails, a capture takes
the opportunity, fills the slot again, and the next call creates obligation `2`. -/
def cancelledLate : List Action :=
  fullPoolCalls ++ [.releaseSlot ⟨0, 1⟩, .notifyRelease ⟨0, 1⟩ 0] ++ copyCall ++
    callToObservation ++ [.observe, .requestComposite 1 false, .cancelFailed 1]

theorem failed_request_cancels_own_iff_of_late_cancel :
    ∃ log t, system.Run System.anyAction (.create true) cancelledLate log t ∧
      .requestFailed 1 (some 2) ∈ log ∧ EachEvent CancelLaw log := by
  have hexec : (system.exec System.anyAction (.create true) cancelledLate).map
      (fun r => decide (.requestFailed 1 (some 2) ∈ r.2)) = some true := by
    decide
  obtain ⟨⟨t, log⟩, hr, hmem⟩ := Option.map_eq_some_iff.mp hexec
  have hrun := System.Run.of_exec hr
  exact ⟨log, t, hrun, of_decide_eq_true hmem, failed_request_cancels_own_iff hrun⟩

/-- A failed request that cancels another obligation than its own. -/
theorem failed_request_cancels_younger :
    ¬ ∀ (canRequest : Bool) (as : List Action) (log : List Event) (t : State),
      system.Run System.anyAction (.create canRequest) as log t →
        ∀ obligation removed, .requestFailed obligation removed ∈ log →
          removed = none ∨ removed = some obligation := by
  intro hall
  have hexec : (system.exec System.anyAction (.create true) cancelledLate).map
      (fun r => decide (.requestFailed 1 (some 2) ∈ r.2)) = some true := by
    decide
  obtain ⟨⟨t, log⟩, hr, hmem⟩ := Option.map_eq_some_iff.mp hexec
  have hown := hall true cancelledLate log t (System.Run.of_exec hr) 1 (some 2)
    (of_decide_eq_true hmem)
  simp at hown

end EinkLab.CaptureSession
