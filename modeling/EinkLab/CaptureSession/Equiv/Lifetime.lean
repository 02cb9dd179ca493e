import EinkLab.CaptureSession.Lifetime
import EinkLab.Pipeline.Equiv.Holdings
import EinkLab.Pipeline.Equiv.SleepColor

/-!
# Leases and the end of their pool

`Stop` destroys the pool before it joins the threads that may still hold its leases.
`leases_within_pool`: if each `Stop` that destroys a pool finds its pipeline idle and the capture
thread outside `CaptureM3` (`Quiet`), no lease is held when its pool is destroyed, nor released
after that.  And where no lease is, each such `Stop` has found the pipeline idle and nothing handed
over (`Leaseless`).  A `Stop` that finds the capture thread in `TryCopy` destroys the pool under it,
which is undefined: between the two conditions the run decides.  `leases_outlive_pool` is a run in
which the conversion worker and the adapter hold one lease each.

Every composition of the session has a lease, and so has every frame with a compose buffer
(`Accounted`); so a pipeline without leases is idle.  In a careful run, every pipeline but the
current one is idle (`Retired`), and it stays so.
-/

namespace EinkLab.CaptureSession

open Transition Pipeline

variable {c : Settings}

namespace LeasedPipeline

variable {x x' : LeasedPipeline} {a : Pipeline.Action}

/-- Every composition has a lease, and so has every frame that has a compose buffer. -/
structure Accounted (x : LeasedPipeline) : Prop where
  held : Held (fun composition => composition.ownershipLease ≠ none)
    (fun buffer => bufferLease buffer = none → buffer = none) x.pipeline
  lingering : x.lingering.isSome = x.pipeline.worker.lingers

theorem accounted_of_idle {s : Pipeline} (h : s.idle = true) : Accounted { pipeline := s } := by
  obtain ⟨hheld, hlingers⟩ := idle_iff.mp h
  refine ⟨⟨?_, ?_, ?_, ?_⟩, hlingers.symm⟩
  · exact fun composition hp => (hheld.pending composition hp).elim
  · exact fun job hjob => (hheld.job job hjob).elim
  · exact fun f hf _ => hheld.assembled f hf
  · exact fun f hf _ => hheld.adapter f hf

theorem Accounted.leases_eq_nil_iff (h : x.Accounted) :
    x.leases = [] ↔ x.pipeline.idle = true := by
  obtain ⟨hcompositions, hframes⟩ := held_iff.mp h.held
  have hlingers : x.lingering = none ↔ x.pipeline.worker.lingers = false := by
    rw [← h.lingering, Option.isSome_eq_false_iff, Option.isNone_iff_eq_none]
  rw [idle_iff, held_iff, ← hlingers]
  simp only [leases, List.append_eq_nil_iff, List.filterMap_eq_nil_iff, Option.toList_eq_nil_iff]
  refine and_congr_left fun _ => and_congr ?_ ?_
  · -- a composition without a lease does not exist
    exact forall₂_congr fun composition hmem =>
      iff_of_eq (eq_false (hcompositions composition hmem))
  · refine forall₂_congr fun f hmem => ⟨hframes f hmem, fun hnone => ?_⟩
    rw [hnone]
    rfl

/-- A colour product moves the lease into the frame, and the others leave the buffer behind. -/
theorem bufferLease_engineCompose {composition : CapturedComposition}
    (hlease : composition.ownershipLease ≠ none)
    (hnone : bufferLease (engineCompose c composition) = none) :
    engineCompose c composition = none := by
  unfold engineCompose at hnone ⊢
  split at hnone
  · exact absurd hnone hlease
  next hgray =>
  rw [if_neg hgray, if_neg]
  rwa [Option.isNone_iff_eq_none]

theorem job_of_lingers {w : Pipeline.WorkerPhase} (h : w.lingers = true) : w.job = none := by
  cases w with
  | failed => rfl
  | unchanged => rfl
  | _ => cases h

theorem Accounted.step (h : x.Accounted)
    (hcapture : ∀ composition, a = .onCapturedComposition composition →
      composition.ownershipLease ≠ none) (hs : x.step c a = some x') : x'.Accounted := by
  obtain ⟨⟨s', evs⟩, hstep, rfl⟩ := Option.map_eq_some_iff.mp hs
  refine ⟨h.held.step (fun _ => rfl) (fun _ => bufferLease_engineCompose) hcapture hstep, ?_⟩
  dsimp only
  split
  swap
  · next hnot => exact (Bool.eq_false_iff.mpr hnot).symm
  next hlingers =>
  rw [hlingers]
  unfold workerLease
  -- the composition was at the worker, or it lingered there before
  cases job_of_step hstep with
  | same hw =>
    rw [hw] at hlingers
    rw [job_of_lingers hlingers]
    exact h.lingering.trans hlingers
  | taken _ _ hw =>
    rw [hw] at hlingers
    cases hlingers
  | kept _ _ _ _ hnot => cases hnot.symm.trans hlingers
  | lingers job hjob _ =>
    rw [hjob]
    exact Option.isSome_iff_ne_none.mpr (h.held.job job hjob)
  | assembled _ _ _ hw =>
    rw [hw] at hlingers
    cases hlingers
  | free _ _ hnot => cases hnot.symm.trans hlingers

end LeasedPipeline

/-- A pipeline that has just been created holds nothing. -/
theorem M3State.replayed_idle (c : Settings) (m : M3State) : (m.replayed c).idle = true := by
  have hnew : ({} : Pipeline).idle = true := rfl
  have hpublish {s : Pipeline} (h : s.idle = true) (r : SleepImageCatalogRequest) :
      (s.publishSleepImageCatalog c r.epoch r.width r.height r.entries r.selectedIndex
        r.mode).2.idle = true := by
    have hs : Pipeline.step c s (.publishSleepImageCatalog r.epoch r.width r.height r.entries
      r.selectedIndex r.mode) = some (_, []) := rfl
    exact idle_step h (fun _ => Pipeline.Action.noConfusion) hs
  have harm {s : Pipeline} (h : s.idle = true) (epoch : Nat) :
      (s.armSleepCycle epoch).2.idle = true := by
    have hs : Pipeline.step c s (.armSleepCycle epoch) = some (_, []) := rfl
    exact idle_step h (fun _ => Pipeline.Action.noConfusion) hs
  have hstart {s : Pipeline} (h : s.idle = true) : (s.start.setEnabled true).idle = true := by
    have hs : Pipeline.step c s .start = some (_, []) := rfl
    have hs' : Pipeline.step c s.start (.setEnabled true) = some (_, []) := rfl
    have hstarted := idle_step h (fun _ => Pipeline.Action.noConfusion) hs
    exact idle_step hstarted (fun _ => Pipeline.Action.noConfusion) hs'
  -- what is replayed: the catalog, then the arm, each if there is one
  unfold replayed
  refine hstart ?_
  rcases m.pendingSleepCycleArm with _ | epoch <;> rcases m.pendingSleepImageCatalog with _ | r
  · exact hnew
  · exact hpublish hnew r
  · exact harm hnew epoch
  · exact harm (hpublish hnew r) epoch

namespace PoolSession

variable {s s' : PoolSession} {k : Nat} {a : Action} {evs : List Event}

/-! ### The pool of a lease, and what `Stop` finds -/

/-- The pool is there when the lease is released, and has no lease when it is destroyed. -/
def WithinPool : Event → Prop
  | .released _ _ alive => alive = true
  | .poolDropped _ live => live = []

/-- The pipeline of this generation is idle, and no composition is being handed to it. -/
def Leaseless (s : PoolSession) (k : Nat) : Prop :=
  (∀ composition, s.hand ≠ some (.handingOver k composition)) ∧
    ∀ x, s.pipelines[k]? = some x → x.pipeline.idle = true

/-- The pipeline of this generation is idle, and the capture thread does not capture for it. -/
def Quiet (s : PoolSession) (k : Nat) : Prop :=
  (∀ hand, s.hand = some hand → hand.generation ≠ k) ∧
    ∀ x, s.pipelines[k]? = some x → x.pipeline.idle = true

instance (s : PoolSession) (k : Nat) : Decidable (s.Quiet k) :=
  inferInstanceAs (Decidable ((∀ hand ∈ s.hand, hand.generation ≠ k) ∧
    ∀ x ∈ s.pipelines[k]?, x.pipeline.idle = true))

theorem Quiet.leaseless (h : s.Quiet k) : s.Leaseless k :=
  ⟨fun _ hhand => h.1 _ hhand rfl, h.2⟩

/-- A `Stop` that destroys a pool finds its generation so. -/
def StopFinds (P : PoolSession → Nat → Prop) (s : PoolSession) (a : Action) : Prop :=
  a = .stop → s.started = true → ∀ k, s.current = some k → P s k

instance (P : PoolSession → Nat → Prop) [∀ s k, Decidable (P s k)] (s : PoolSession) (a : Action) :
    Decidable (StopFinds P s a) :=
  inferInstanceAs (Decidable (a = .stop → s.started = true → ∀ k ∈ s.current, P s k))

/-! ### The leases of a generation -/

/-- All that the session captured has a lease. -/
structure Accounted (s : PoolSession) : Prop where
  pipelines : ∀ (k : Nat) (x : LeasedPipeline), s.pipelines[k]? = some x → x.Accounted
  hand : ∀ k composition, s.hand = some (.handingOver k composition) →
    composition.ownershipLease ≠ none

theorem Accounted.live_eq_nil_iff (h : s.Accounted) : s.live k = [] ↔ s.Leaseless k := by
  unfold live Leaseless
  rw [List.append_eq_nil_iff, Option.toList_eq_nil_iff, and_comm]
  refine and_congr ?_ ?_
  · unfold handLease
    constructor
    · intro hnone composition hhand
      rw [hhand] at hnone
      dsimp only at hnone
      rw [if_pos rfl] at hnone
      exact h.hand k composition hhand hnone
    · intro hnot
      split
      · next generation composition hhand =>
        apply if_neg
        rintro rfl
        exact hnot composition hhand
      · rfl
  · rcases hx : s.pipelines[k]? with _ | x
    · exact iff_of_true rfl fun y hy => by cases hy
    · refine (h.pipelines k x hx).leases_eq_nil_iff.trans ⟨fun hidle y hy => ?_, fun hall => ?_⟩
      · obtain rfl := Option.some.inj hy
        exact hidle
      · exact hall x rfl

theorem onPipeline_cases {b : Pipeline.Action} (h : s.onPipeline c k b = some s') :
    ∃ x x', s.pipelines[k]? = some x ∧ x.step c b = some x' ∧
      s' = { s with pipelines := s.pipelines.set k x' } := by
  unfold onPipeline at h
  split at h
  · next x hx =>
    obtain ⟨x', hx', rfl⟩ := Option.map_eq_some_iff.mp h
    exact ⟨x, x', hx, hx', rfl⟩
  · cases h

theorem getElem?_set_cases {l : List LeasedPipeline} {x y : LeasedPipeline} {j : Nat}
    (h : (l.set k x)[j]? = some y) : j = k ∧ y = x ∨ j ≠ k ∧ l[j]? = some y := by
  by_cases hj : k = j
  · subst hj
    rw [List.getElem?_set_self'] at h
    obtain ⟨_, -, rfl⟩ := Option.map_eq_some_iff.mp h
    exact Or.inl ⟨rfl, rfl⟩
  · rw [List.getElem?_set_ne hj] at h
    exact Or.inr ⟨Ne.symm hj, h⟩

theorem Accounted.onPipeline {b : Pipeline.Action} (h : s.Accounted)
    (hcapture : ∀ composition, b = .onCapturedComposition composition →
      composition.ownershipLease ≠ none) (hs : s.onPipeline c k b = some s') : s'.Accounted := by
  obtain ⟨x, x', hx, hstep, rfl⟩ := onPipeline_cases hs
  refine ⟨fun j y hy => ?_, h.hand⟩
  -- only the pipeline that took the step has changed
  rcases getElem?_set_cases hy with ⟨-, rfl⟩ | ⟨-, hy⟩
  · exact (h.pipelines k x hx).step hcapture hstep
  · exact h.pipelines j y hy

/-- A quiet generation stays quiet. -/
theorem Quiet.onPipeline {b : Pipeline.Action} {j : Nat} (h : s.Quiet j)
    (hcapture : ∀ composition, b ≠ .onCapturedComposition composition)
    (hs : s.onPipeline c k b = some s') : s'.Quiet j := by
  obtain ⟨x, x', hx, hstep, rfl⟩ := onPipeline_cases hs
  refine ⟨h.1, fun y hy => ?_⟩
  rcases getElem?_set_cases hy with ⟨rfl, rfl⟩ | ⟨-, hy⟩
  · obtain ⟨⟨t, evs⟩, ht, rfl⟩ := Option.map_eq_some_iff.mp hstep
    exact idle_step (h.2 x hx) hcapture ht
  · exact h.2 y hy

theorem not_capture_of_allows {b : Pipeline.Action} (h : s.allows k b = true) :
    ∀ composition, b ≠ .onCapturedComposition composition := by
  rintro composition rfl
  cases h

/-! ### One step -/

theorem maybeStartM3_cases {m : M3State} (h : s.maybeStartM3 c m = some s') :
    s.current = none ∧ s.hand = none ∧ s' = { s with
      pipelines := s.pipelines ++ [{ pipeline := m.replayed c }]
      current := some s.pipelines.length } := by
  unfold maybeStartM3 at h
  split at h
  · next hready =>
    rw [Bool.and_eq_true, Option.isNone_iff_eq_none, Option.isNone_iff_eq_none] at hready
    exact ⟨hready.1, hready.2, (Option.some.inj h).symm⟩
  · cases h

theorem captureM3_cases (h : s.captureM3 = some s') :
    ∃ k, s.current = some k ∧ s' = { s with hand := some (.copying k) } := by
  unfold captureM3 at h
  split at h
  · next k hk =>
    split at h
    · exact ⟨k, hk, (Option.some.inj h).symm⟩
    · cases h
  · cases h

/-- The capture thread was in `TryCopy`; it leaves it without a snapshot, or it has a lease now. -/
theorem tryCopy_cases {captured : Option CapturedComposition} (h : s.tryCopy captured = some s') :
    ∃ k, s.hand = some (.copying k) ∧ (s' = { s with hand := none } ∨
      ∃ composition : CapturedComposition, s' = { s with
        hand := some (.handingOver k { composition with ownershipLease := some s.nextLease })
        nextLease := s.nextLease + 1 }) := by
  unfold tryCopy at h
  split at h
  · next k hhand => exact ⟨k, hhand, Or.inl (Option.some.inj h).symm⟩
  · next k composition hhand =>
    split at h
    · exact ⟨k, hhand, Or.inr ⟨composition, (Option.some.inj h).symm⟩⟩
    · cases h
  · cases h

theorem handOver_cases {r : Nat × PoolSession} (h : s.handOver c = some r) :
    ∃ composition t, s.hand = some (.handingOver r.1 composition) ∧
      s.onPipeline c r.1 (.onCapturedComposition composition) = some t ∧
      r.2 = { t with hand := none } := by
  unfold handOver at h
  split at h
  · next k composition hhand =>
    obtain ⟨t, ht, rfl⟩ := Option.map_eq_some_iff.mp h
    exact ⟨composition, t, hhand, ht, rfl⟩
  · cases h

theorem stopReturned_cases (h : s.stopReturned k = some s') :
    s' = { s with started := false, stops := s.stops.erase k } := by
  unfold stopReturned at h
  split at h
  · split at h
    · exact (Option.some.inj h).symm
    · cases h
  · cases h

theorem stop_cases (s : PoolSession) :
    s.stop = s ∧ s.dropped = none ∨
    s.stop = { s with started := false } ∧ s.dropped = none ∨
    ∃ k, s.started = true ∧ s.current = some k ∧ s.dropped = some k ∧
      s.stop = { s with current := none, stops := k :: s.stops } := by
  unfold stop dropped
  cases hstarted : s.started with
  | false => exact Or.inl ⟨rfl, rfl⟩
  | true =>
    rcases hcurrent : s.current with _ | k
    · exact Or.inr (Or.inl ⟨rfl, rfl⟩)
    · exact Or.inr (Or.inr ⟨k, rfl, rfl, rfl, rfl⟩)

/-- A pipeline that is there after `MaybeStartM3` is the new one or was there before. -/
theorem getElem?_started {m : M3State} {j : Nat} {y : LeasedPipeline}
    (h : (s.pipelines ++ [{ pipeline := m.replayed c }])[j]? = some y) :
    y = { pipeline := m.replayed c } ∧ j = s.pipelines.length ∨ s.pipelines[j]? = some y := by
  rw [List.getElem?_append] at h
  split at h
  · exact Or.inr h
  · next hlength =>
    rw [List.getElem?_singleton] at h
    split at h
    · exact Or.inl ⟨(Option.some.inj h).symm, by omega⟩
    · cases h

theorem Accounted.step (h : s.Accounted) (hs : (system c).step s a = some (s', evs)) :
    s'.Accounted := by
  have hmap : ∀ {r : Option PoolSession} {es : List Event}, r.map (·, es) = some (s', evs) →
      (∀ s', r = some s' → s'.Accounted) → s'.Accounted :=
    fun hr => System.result_of_map (P := fun t _ => t.Accounted) hr
  cases a with
  | startMetadataOnly =>
    obtain ⟨rfl, -⟩ := Prod.mk.inj (Option.some.inj hs)
    exact ⟨h.pipelines, h.hand⟩
  | maybeStartM3 m =>
    refine hmap hs fun t ht => ?_
    obtain ⟨-, -, rfl⟩ := maybeStartM3_cases ht
    refine ⟨fun j y hy => ?_, h.hand⟩
    rcases getElem?_started hy with ⟨rfl, -⟩ | hy
    · exact LeasedPipeline.accounted_of_idle (m.replayed_idle c)
    · exact h.pipelines j y hy
  | captureM3 =>
    refine hmap hs fun t ht => ?_
    obtain ⟨k, -, rfl⟩ := captureM3_cases ht
    exact ⟨h.pipelines, fun _ _ hhand => by cases hhand⟩
  | tryCopy captured =>
    refine hmap hs fun t ht => ?_
    obtain ⟨k, -, rfl | ⟨composition, rfl⟩⟩ := tryCopy_cases ht
    · exact ⟨h.pipelines, fun _ _ hhand => by cases hhand⟩
    · refine ⟨h.pipelines, fun j taken hhand => ?_⟩
      obtain ⟨-, rfl⟩ := Hand.handingOver.inj (Option.some.inj hhand)
      exact Option.some_ne_none s.nextLease
  | handOver =>
    obtain ⟨r, hr, heq⟩ := Option.map_eq_some_iff.mp hs
    obtain ⟨rfl, -⟩ := Prod.mk.inj heq
    obtain ⟨composition, t, hhand, ht, heq⟩ := handOver_cases hr
    have hlease := h.hand r.1 composition hhand
    have ht' : t.Accounted := by
      refine h.onPipeline (fun captured hcaptured => ?_) ht
      obtain rfl := Pipeline.Action.onCapturedComposition.inj hcaptured
      exact hlease
    rw [heq]
    exact ⟨ht'.pipelines, fun _ _ hhand => by cases hhand⟩
  | stop =>
    obtain ⟨rfl, -⟩ := Prod.mk.inj (Option.some.inj hs)
    rcases stop_cases s with ⟨heq, -⟩ | ⟨heq, -⟩ | ⟨_, -, -, -, heq⟩ <;> rw [heq]
    · exact h
    · exact ⟨h.pipelines, h.hand⟩
    · exact ⟨h.pipelines, h.hand⟩
  | stopReturned k =>
    refine hmap hs fun t ht => ?_
    rw [stopReturned_cases ht]
    exact ⟨h.pipelines, h.hand⟩
  | onPipeline k b =>
    simp only [system, step] at hs
    split at hs
    · next hallows =>
      obtain ⟨t, ht, heq⟩ := Option.map_eq_some_iff.mp hs
      obtain ⟨rfl, -⟩ := Prod.mk.inj heq
      exact h.onPipeline (fun captured hb => absurd hb (not_capture_of_allows hallows captured)) ht
    · cases hs

theorem accounted_init : Accounted {} where
  pipelines k x hx := by cases hx
  hand k composition hhand := by cases hhand

/-- Every generation but the current one is quiet. -/
def Retired (s : PoolSession) : Prop := ∀ k, s.current ≠ some k → s.Quiet k

theorem retired_init : Retired {} := by
  refine fun k _ => ⟨fun hand hhand => ?_, fun x hx => ?_⟩
  · cases hhand
  · cases hx

/-- What is released while its generation is current is released in time, and a quiet generation
releases nothing. -/
theorem withinPool_of_releases (h : s.current = some k ∨ s.live k = []) :
    ∀ e ∈ s.releases s' k, WithinPool e := by
  intro e he
  obtain ⟨lease, hlease, rfl⟩ := List.mem_map.mp he
  rcases h with hcurrent | hnil
  · exact decide_eq_true hcurrent
  · rw [hnil] at hlease
    cases hlease

theorem Retired.step (hretired : s.Retired) (hacc : s.Accounted) (hfinds : StopFinds Quiet s a)
    (hs : (system c).step s a = some (s', evs)) : s'.Retired ∧ ∀ e ∈ evs, WithinPool e := by
  have hmap : ∀ {r : Option PoolSession}, r.map (·, []) = some (s', evs) →
      (∀ s', r = some s' → s'.Retired) → s'.Retired ∧ ∀ e ∈ evs, WithinPool e :=
    fun hr hnext => System.result_of_map (P := fun t es => t.Retired ∧ ∀ e ∈ es, WithinPool e) hr
      fun t ht => ⟨hnext t ht, nofun⟩
  cases a with
  | startMetadataOnly =>
    obtain ⟨rfl, rfl⟩ := Prod.mk.inj (Option.some.inj hs)
    exact ⟨hretired, nofun⟩
  | maybeStartM3 m =>
    refine hmap hs fun t ht => ?_
    obtain ⟨hnone, -, rfl⟩ := maybeStartM3_cases ht
    intro j hj
    -- there was no current generation, so all of them are quiet
    have hquiet : s.Quiet j := hretired j (by rw [hnone]; nofun)
    refine ⟨hquiet.1, fun y hy => ?_⟩
    rcases getElem?_started hy with ⟨-, rfl⟩ | hy
    · exact absurd rfl hj
    · exact hquiet.2 y hy
  | captureM3 =>
    refine hmap hs fun t ht => ?_
    obtain ⟨k, hk, rfl⟩ := captureM3_cases ht
    intro j hj
    refine ⟨fun hand hhand hgeneration => hj ?_, (hretired j hj).2⟩
    obtain rfl := Option.some.inj hhand
    obtain rfl : k = j := hgeneration
    exact hk
  | tryCopy captured =>
    refine hmap hs fun t ht => ?_
    -- the generation of the capture is the same before and after
    obtain ⟨k, hhand, rfl | ⟨composition, rfl⟩⟩ := tryCopy_cases ht
    · exact fun j hj => ⟨fun _ hnone => (by cases hnone), (hretired j hj).2⟩
    · intro j hj
      refine ⟨fun hand hhand' hgeneration => ?_, (hretired j hj).2⟩
      obtain rfl := Option.some.inj hhand'
      exact (hretired j hj).1 _ hhand hgeneration
  | handOver =>
    obtain ⟨r, hr, heq⟩ := Option.map_eq_some_iff.mp hs
    obtain ⟨rfl, rfl⟩ := Prod.mk.inj heq
    obtain ⟨composition, t, hhand, ht, heq⟩ := handOver_cases hr
    -- a capture on its way is of the current generation
    have hcurrent : s.current = some r.1 := by
      by_contra hnot
      exact (hretired r.1 hnot).1 _ hhand rfl
    refine ⟨fun j hj => ?_, withinPool_of_releases (Or.inl hcurrent)⟩
    obtain ⟨x, x', hx, hstep, rfl⟩ := onPipeline_cases ht
    rw [heq] at hj ⊢
    refine ⟨fun _ hhand => (by cases hhand), fun y hy => ?_⟩
    rcases getElem?_set_cases hy with ⟨rfl, -⟩ | ⟨-, hy⟩
    · exact absurd hcurrent hj
    · exact (hretired j hj).2 y hy
  | stop =>
    obtain ⟨rfl, rfl⟩ := Prod.mk.inj (Option.some.inj hs)
    rcases stop_cases s with
      ⟨heq, hdropped⟩ | ⟨heq, hdropped⟩ | ⟨k, hstarted, hk, hdropped, heq⟩ <;> rw [heq, hdropped]
    · exact ⟨hretired, nofun⟩
    · exact ⟨hretired, nofun⟩
    · -- the generation that is retired now is quiet, as the call finds it so
      have hquiet : s.Quiet k := hfinds rfl hstarted k hk
      refine ⟨fun j _ => ?_, fun e he => ?_⟩
      · by_cases hj : s.current = some j
        · obtain rfl := Option.some.inj (hk.symm.trans hj)
          exact hquiet
        · exact hretired j hj
      · obtain rfl := List.mem_singleton.mp he
        exact hacc.live_eq_nil_iff.mpr hquiet.leaseless
  | stopReturned k =>
    refine hmap hs fun t ht => ?_
    rw [stopReturned_cases ht]
    exact hretired
  | onPipeline k b =>
    simp only [system, PoolSession.step] at hs
    split at hs
    swap
    · cases hs
    next hallows =>
    obtain ⟨t, ht, heq⟩ := Option.map_eq_some_iff.mp hs
    obtain ⟨rfl, rfl⟩ := Prod.mk.inj heq
    -- a pipeline's step changes none of the session's own fields
    have hcurrent : t.current = s.current := by
      obtain ⟨_, _, -, -, rfl⟩ := onPipeline_cases ht
      rfl
    refine ⟨fun j hj => ?_, withinPool_of_releases ?_⟩
    · exact (hretired j (hcurrent ▸ hj)).onPipeline (not_capture_of_allows hallows) ht
    · by_cases hk : s.current = some k
      · exact Or.inl hk
      · exact Or.inr (hacc.live_eq_nil_iff.mpr (hretired k hk).leaseless)

/-- A `Stop` whose pool has no lease finds its generation without one. -/
theorem stopFinds_leaseless (hacc : s.Accounted) (hs : (system c).step s a = some (s', evs))
    (hevs : ∀ e ∈ evs, WithinPool e) : StopFinds Leaseless s a := by
  rintro rfl hstarted k hk
  obtain ⟨-, rfl⟩ := Prod.mk.inj (Option.some.inj hs)
  have hdropped : s.dropped = some k := (if_pos hstarted).trans hk
  rw [hdropped] at hevs
  exact hacc.live_eq_nil_iff.mp (hevs _ (List.mem_singleton.mpr rfl))

/-! ### Whole runs -/

theorem accounted_of_run {ok : PoolSession → Action → Prop} {as : List Action} {log : List Event}
    (h : (system c).Run ok {} as log s) : s.Accounted :=
  h.invariant Accounted accounted_init fun _ _ _ _ hacc _ hs => hacc.step hs

theorem within_of_quiet {as : List Action} {log : List Event} {t : PoolSession}
    (h : (system c).Run (StopFinds Quiet) {} as log t) : ∀ e ∈ log, WithinPool e := by
  -- by induction on the run, with the invariant that keeps old generations quiet
  have hboth : t.Retired ∧ t.Accounted ∧ ∀ e ∈ log, WithinPool e := by
    refine h.induct (fun _ log t => t.Retired ∧ t.Accounted ∧ ∀ e ∈ log, WithinPool e) ?_ ?_
    · exact ⟨retired_init, accounted_init, fun e he => by cases he⟩
    · rintro as log t a u evs ⟨hretired, hacc, hwithin⟩ hfinds hs
      obtain ⟨hretired', hevs⟩ := hretired.step hacc hfinds hs
      refine ⟨hretired', hacc.step hs, fun e he => ?_⟩
      rcases List.mem_append.mp he with he | he
      · exact hwithin e he
      · exact hevs e he
  exact hboth.2.2

theorem leaseless_of_within {as : List Action} {log : List Event} {t : PoolSession}
    (h : (system c).Run System.anyAction {} as log t) (hwithin : ∀ e ∈ log, WithinPool e) :
    (system c).Run (StopFinds Leaseless) {} as log t := by
  induction h with
  | nil => exact .nil
  | snoc hrun _ hs ih =>
    have hbefore := ih fun e he => hwithin e (List.mem_append_left _ he)
    refine hbefore.snoc (stopFinds_leaseless (accounted_of_run hrun) hs fun e he => ?_) hs
    exact hwithin e (List.mem_append_right _ he)

/-- **The leases of a run stay within their pool** if each `Stop` that destroys a pool finds its
pipeline idle and the capture thread outside `CaptureM3`; and if they do, each has found the
pipeline idle and no composition on its way there. -/
theorem leases_within_pool (c : Settings) (as : List Action) (log : List Event) (t : PoolSession)
    (h : (system c).Run System.anyAction {} as log t) :
    ((system c).Run (StopFinds Quiet) {} as log t → ∀ e ∈ log, WithinPool e) ∧
      ((∀ e ∈ log, WithinPool e) → (system c).Run (StopFinds Leaseless) {} as log t) :=
  ⟨within_of_quiet, leaseless_of_within h⟩

def startup : List Action := [.startMetadataOnly, .maybeStartM3 {}, .onPipeline 0 .startThreads]

/-- A capture, as far as the conversion worker. -/
def capture : List Action := [.captureM3, .tryCopy (some {}), .handOver, .onPipeline 0 .dequeue]

/-- From there to the adapter's worker. -/
def conversion : List Action :=
  [.onPipeline 0 (.convert (some ⟨⟨1, 1, [0]⟩, 0⟩)), .onPipeline 0 .checkSource,
    .onPipeline 0 .evaluate, .onPipeline 0 (.readRefresh 1), .onPipeline 0 .enqueue,
    .onPipeline 0 .finish, .onPipeline 0 (.wake 0 1)]

/-- Its submission. -/
def delivery : List Action :=
  [.onPipeline 0 (.submitStart 1), .onPipeline 0 (.submitReturn true 1), .onPipeline 0 .record,
    .onPipeline 0 .observe]

/-- A pool is destroyed after its only lease has been released and a capture has failed. -/
theorem leases_within_pool_of_pause : ∃ log t,
    (system auraSettings).Run (StopFinds Quiet) {}
      (startup ++ capture ++ conversion ++ delivery ++ [.captureM3, .tryCopy none, .stop]) log t ∧
      log = [.released 0 0 true, .poolDropped 0 []] ∧ ∀ e ∈ log, WithinPool e := by
  have hrun := (System.Run.of_exec rfl : (system auraSettings).Run (StopFinds Quiet) {}
    (startup ++ capture ++ conversion ++ delivery ++ [.captureM3, .tryCopy none, .stop])
    [.released 0 0 true, .poolDropped 0 []] _)
  have hany : (system auraSettings).Run System.anyAction {} _ _ _ := hrun.mono fun _ _ _ => trivial
  exact ⟨_, _, hrun, rfl, (leases_within_pool auraSettings _ _ _ hany).1 hrun⟩

/-- While one capture is at the adapter and a second at the conversion worker, the pool is
destroyed; each releases its lease after that. -/
theorem leases_outlive_pool : ∃ log t,
    (system auraSettings).Run System.anyAction {}
      (startup ++ capture ++ conversion ++ capture ++ [.stop, .onPipeline 0 .stop,
        .onPipeline 0 (.convert none), .onPipeline 0 .conversionFailed] ++ delivery) log t ∧
      log = [.poolDropped 0 [1, 0], .released 0 1 false, .released 0 0 false] ∧
      ¬ ∀ e ∈ log, WithinPool e := by
  refine ⟨[.poolDropped 0 [1, 0], .released 0 1 false, .released 0 0 false], _,
    System.Run.of_exec rfl, rfl, fun hwithin => ?_⟩
  have hdropped : ([1, 0] : List Nat) = [] := hwithin (.poolDropped 0 [1, 0]) (by simp)
  cases hdropped

end PoolSession

end EinkLab.CaptureSession
