import EinkLab.PresentationAdapter.Equiv.Carries
import EinkLab.PresentationAdapter.Equiv.Steps
import EinkLab.Pipeline.Holdings
import EinkLab.Pipeline.Equiv.SourceBarrier

/-!
# Where a pipeline's compositions and frames come from

A composition comes in by `OnCapturedComposition` only, and moves on to the worker (`JobStep`).  A
frame's compose buffer is that of the worker's composition, or there is none.  So what holds of the
compositions that come in holds of all of them, and what follows of their compose buffers holds of
all frames (`Held.step`).  A pipeline that gets no composition stays idle (`idle_step`).
-/

namespace EinkLab.PresentationAdapter

/-- What the adapter does to a frame leaves its compose buffer alone. -/
theorem durable_composeBuffer (R : Option ComposeBuffer → Prop) :
    Durable fun f => R f.composeBuffer where
  clear _ hf := hf
  follow f old hf _ := by
    have hsame : (followPending f old).composeBuffer = f.composeBuffer := by
      unfold followPending
      split <;> rfl
    rwa [hsame]

end EinkLab.PresentationAdapter

namespace EinkLab.Pipeline

open Transition

variable {c : Settings} {s s' : Pipeline} {a : Action} {evs : List Event}

/-! ### The worker's composition -/

/-- How the worker's composition comes, stays and goes. -/
inductive JobStep (c : Settings) (s : Pipeline) (w' : WorkerPhase) : Prop
  | same (h : w' = s.worker)
  | taken (composition : CapturedComposition) (hpending : s.pending = some composition)
      (h : w' = .converting ⟨composition, s.nextSequence, s.sourceGeneration⟩)
  | kept (job : Job) (hjob : s.worker.job = some job) (h : w'.job = some job)
      (hframe : w'.assembledFrame = none) (hlingers : w'.lingers = false)
  | lingers (job : Job) (hjob : s.worker.job = some job) (h : w' = .failed ∨ w' = .unchanged)
  | assembled (job : Job) (hjob : s.worker.job = some job) (f : Frame) (h : w' = .assembled f)
      (hbuffer : f.composeBuffer = engineCompose c job.composition)
  | free (h : w'.job = none) (hframe : w'.assembledFrame = none) (hlingers : w'.lingers = false)

theorem dequeue_job (h : s.dequeue = some s') : JobStep c s s'.worker := by
  unfold dequeue at h
  split at h
  · split at h
    · obtain rfl := Option.some.inj h
      exact .free rfl rfl rfl
    split at h
    · cases h
    · next composition hpending =>
      obtain rfl := Option.some.inj h
      exact .taken composition hpending rfl
  · cases h

theorem convert_job {result : Option Conversion} (h : s.convert result = some s') :
    JobStep c s s'.worker := by
  unfold convert at h
  split at h
  · next job hw =>
    have hjob : s.worker.job = some job := by rw [hw]; rfl
    split at h
    · obtain rfl := Option.some.inj h
      exact .lingers job hjob (Or.inl rfl)
    · obtain rfl := Option.some.inj h
      exact .kept job hjob rfl rfl rfl
  · cases h

theorem conversionFailed_job (h : s.conversionFailed = some s') : JobStep c s s'.worker := by
  unfold conversionFailed at h
  split at h
  · dsimp only at h
    split at h
    · obtain rfl := Option.some.inj h
      exact .free rfl rfl rfl
    · obtain rfl := Option.some.inj h
      exact .free rfl rfl rfl
  · cases h

theorem checkSource_job (h : s.checkSource = some s') : JobStep c s s'.worker := by
  unfold checkSource at h
  split at h
  · next job conversion hw =>
    split at h
    · obtain rfl := Option.some.inj h
      exact .free rfl rfl rfl
    · obtain rfl := Option.some.inj h
      have hjob : s.worker.job = some job := by rw [hw]; rfl
      exact .kept job hjob rfl rfl rfl
  · cases h

theorem evaluate_job (h : s.evaluate c = some s') : JobStep c s s'.worker := by
  unfold evaluate at h
  split at h
  · next job conversion hw =>
    obtain rfl := Option.some.inj h
    have hjob : s.worker.job = some job := by rw [hw]; rfl
    exact .kept job hjob rfl rfl rfl
  · cases h

theorem hold_job (h : s.hold = some s') : JobStep c s s'.worker := by
  unfold hold at h
  split at h
  · obtain rfl := Option.some.inj h
    exact .free rfl rfl rfl
  · cases h

theorem readRefresh_job {now : TimePoint} (h : s.readRefresh c now = some s') :
    JobStep c s s'.worker := by
  unfold readRefresh at h
  split at h
  swap
  · cases h
  next job f decision epoch demand hw =>
  split at h
  · cases h
  have hjob : s.worker.job = some job := by rw [hw]; rfl
  dsimp only at h
  generalize (if (s.enabled && s.sleepImageLatch.activeEpoch = 0) = true then
    (s.refreshMode, s.refreshId) else (DiagnosticRefresh.none, 0)) = refresh at h
  split at h
  · obtain rfl := Option.some.inj h
    exact .lingers job hjob (Or.inr rfl)
  · obtain rfl := Option.some.inj h
    exact .assembled job hjob _ rfl rfl

theorem enqueue_job (h : s.enqueue = some s') : JobStep c s s'.worker := by
  unfold enqueue at h
  split at h
  · obtain rfl := Option.some.inj h
    exact .free rfl rfl rfl
  · cases h

theorem finish_job (h : s.finish = some s') : JobStep c s s'.worker := by
  unfold finish at h
  split at h
  · obtain rfl := Option.some.inj h
    exact .free rfl rfl rfl
  · obtain rfl := Option.some.inj h
    exact .free rfl rfl rfl
  · cases h

theorem job_of_step (h : step c s a = some (s', evs)) : JobStep c s s'.worker := by
  have hsome : ∀ {r : Pipeline} {es : List Event}, some (r, es) = some (s', evs) →
      r.worker = s.worker → JobStep c s s'.worker :=
    fun hr hsame => System.result_of_some (P := fun t _ => JobStep c s t.worker) hr (.same hsame)
  have hmap : ∀ {r : Option Pipeline} {es : List Event}, r.map (·, es) = some (s', evs) →
      (∀ s', r = some s' → JobStep c s s'.worker) → JobStep c s s'.worker :=
    fun hr => System.result_of_map (P := fun t _ => JobStep c s t.worker) hr
  have hadapter : ∀ {r : Option PresentationAdapter} {es : List Event},
      (s.onAdapter r).map (·, es) = some (s', evs) → JobStep c s s'.worker := by
    refine fun hr => hmap hr fun s₁ hs₁ => ?_
    obtain ⟨_, -, rfl⟩ := Option.map_eq_some_iff.mp hs₁
    exact .same rfl
  cases a with
  | requestDiagnosticRefresh mode => exact hsome h (requestDiagnosticRefresh_detached s mode).2
  | cancelDiagnosticRefresh id => exact hsome h (cancelDiagnosticRefresh_detached s id).2
  | start =>
    refine hsome h ?_
    unfold start
    split_ifs <;> rfl
  | startThreads =>
    refine hmap h fun s₁ hs₁ => ?_
    unfold startThreads at hs₁
    split_ifs at hs₁
    obtain rfl := Option.some.inj hs₁
    exact .free rfl rfl rfl
  | stop =>
    refine hsome h ?_
    unfold stop
    split_ifs <;> rfl
  | stopAdapter =>
    refine hmap h fun s₁ hs₁ => ?_
    unfold stopAdapter at hs₁
    split_ifs at hs₁
    obtain rfl := Option.some.inj hs₁
    exact .same rfl
  | setEnabled enabled => exact hsome h (setEnabled_adapterStep (c := c) s enabled).2
  | resetForSourceChange =>
    refine hsome h ?_
    unfold resetForSourceChange
    split_ifs <;> rfl
  | publishSleepImageCatalog epoch width height entries selectedIndex mode =>
    exact hsome h
      (publishSleepImageCatalog_detached s epoch width height entries selectedIndex mode).2
  | armSleepCycle epoch => exact hsome h (armSleepCycle_adapterStep (c := c) s epoch).2
  | presentSleepImage epoch now => exact hsome h (presentSleepImage_adapterStep s epoch now).2
  | disarmSleepCycle epoch => exact hsome h (disarmSleepCycle_adapterStep (c := c) s epoch).2
  | onCapturedComposition composition =>
    exact hsome h (onCapturedComposition_detached s composition).2
  | dequeue => exact hmap h fun _ => dequeue_job
  | convert result => exact hmap h fun _ => convert_job
  | conversionFailed => exact hmap h fun _ => conversionFailed_job
  | checkSource => exact hmap h fun _ => checkSource_job
  | evaluate => exact hmap h fun _ => evaluate_job
  | hold => exact hmap h fun _ => hold_job
  | readRefresh now => exact hmap h fun _ => readRefresh_job
  | enqueue => exact hmap h fun _ => enqueue_job
  | finish => exact hmap h fun _ => finish_job
  | wake interval now => exact hadapter h
  | rewake now => exact hadapter h
  | submitStart now => exact hadapter h
  | submitReturn accepted now => exact hadapter h
  | record => exact hadapter h
  | observe =>
    refine hmap h fun s₁ hs₁ => .same ?_
    unfold observe at hs₁
    split at hs₁
    · next f accepted _ _ =>
      obtain ⟨_, -, rfl⟩ := Option.map_eq_some_iff.mp hs₁
      exact (onEngineSubmission_detached s f accepted).2
    · cases hs₁

/-! ### Compositions and frames -/

/-- The compositions satisfy `P`, and the frames' compose buffers satisfy `R`. -/
structure Held (P : CapturedComposition → Prop) (R : Option ComposeBuffer → Prop)
    (s : Pipeline) : Prop where
  pending : ∀ composition, s.pending = some composition → P composition
  job : ∀ job, s.worker.job = some job → P job.composition
  assembled : ∀ f, s.worker.assembledFrame = some f → R f.composeBuffer
  adapter : ∀ f, s.adapter.Holds f → R f.composeBuffer

section

variable {P : CapturedComposition → Prop} {R : Option ComposeBuffer → Prop}

theorem held_iff : Held P R s ↔
    (∀ composition ∈ s.compositions, P composition) ∧ ∀ f ∈ s.frames, R f.composeBuffer := by
  simp only [compositions, frames, List.mem_append, Option.mem_toList,
    Option.map_eq_some_iff]
  constructor
  · intro h
    refine ⟨?_, ?_⟩
    · rintro composition (hpending | ⟨job, hjob, rfl⟩)
      · exact h.pending composition hpending
      · exact h.job job hjob
    · rintro f ((hassembled | hpending) | hcarried)
      · exact h.assembled f hassembled
      · exact h.adapter f (Or.inl hpending)
      · exact h.adapter f (Or.inr hcarried)
  · rintro ⟨hcompositions, hframes⟩
    refine ⟨fun composition hp => hcompositions composition (Or.inl hp), ?_, ?_, ?_⟩
    · exact fun job hjob => hcompositions job.composition (Or.inr ⟨job, hjob, rfl⟩)
    · exact fun f hf => hframes f (Or.inl (Or.inl hf))
    · rintro f (hpending | hcarried)
      · exact hframes f (Or.inl (Or.inr hpending))
      · exact hframes f (Or.inr hcarried)

/-- A step keeps it, if a composition that comes in satisfies `P`, and its compose buffer `R`. -/
theorem Held.step (h : Held P R s) (hnone : R none)
    (hcompose : ∀ composition, P composition → R (engineCompose c composition))
    (hcapture : ∀ composition, a = .onCapturedComposition composition → P composition)
    (hs : step c s a = some (s', evs)) : Held P R s' := by
  have hjob := job_of_step hs
  refine ⟨fun composition hp => ?_, fun job hj => ?_, fun f hf => ?_, ?_⟩
  · -- the slot is filled by a capture only
    rcases (captures_of_step hs).1.pending composition hp with ⟨ha, -⟩ | ⟨hbefore, -⟩
    · exact hcapture composition ha
    · exact h.pending composition hbefore
  · -- the worker's composition was in the slot, or at the worker
    cases hjob with
    | same hw => exact h.job job (hw ▸ hj)
    | taken composition hpending hw =>
      rw [hw] at hj
      obtain rfl := Option.some.inj hj
      exact h.pending composition hpending
    | kept job' hbefore hw =>
      obtain rfl := Option.some.inj (hw.symm.trans hj)
      exact h.job _ hbefore
    | lingers _ _ hw => rcases hw with hw | hw <;> rw [hw] at hj <;> cases hj
    | assembled _ _ _ hw =>
      rw [hw] at hj
      cases hj
    | free hw => cases hw.symm.trans hj
  · -- a frame is assembled from the worker's composition
    cases hjob with
    | same hw => exact h.assembled f (hw ▸ hf)
    | taken _ _ hw =>
      rw [hw] at hf
      cases hf
    | kept _ _ _ hframe => cases hframe.symm.trans hf
    | lingers _ _ hw => rcases hw with hw | hw <;> rw [hw] at hf <;> cases hf
    | assembled job hbefore g hw hbuffer =>
      rw [hw] at hf
      obtain rfl := Option.some.inj hf
      rw [hbuffer]
      exact hcompose job.composition (h.job job hbefore)
    | free _ hframe => cases hframe.symm.trans hf
  · -- what the adapter is given is a sleep image, which has no buffer, or the assembled frame
    cases (steps_of_step hs).1 with
    | same hadapter =>
      rw [hadapter]
      exact h.adapter
    | stepped act evs' hact henqueue =>
      refine PresentationAdapter.holds_step (PresentationAdapter.durable_composeBuffer R) h.adapter
        (fun f hf _ => ?_) hact
      cases henqueue f hf with
      | sleepImage epoch now image _ => exact hnone
      | capture g _ hw =>
        -- what the last critical section does to a frame leaves its compose buffer alone
        have hsame : (s.finalFrame g).composeBuffer = g.composeBuffer := by
          unfold finalFrame
          split <;> rfl
        rw [hsame]
        exact h.assembled g (by rw [hw]; rfl)

end

/-! ### Idle pipelines -/

theorem idle_iff : s.idle = true ↔
    Held (fun _ => False) (· = none) s ∧ s.worker.lingers = false := by
  have hcompositions : s.compositions = [] ↔ ∀ composition ∈ s.compositions, False :=
    List.eq_nil_iff_forall_not_mem
  rw [held_iff, ← hcompositions]
  simp only [idle, Bool.and_eq_true, List.isEmpty_iff, Bool.not_eq_true', List.all_eq_true,
    Option.isNone_iff_eq_none]
  exact and_right_comm

/-- An idle pipeline stays idle until it gets a composition. -/
theorem idle_step (h : s.idle = true)
    (hcapture : ∀ composition, a ≠ .onCapturedComposition composition)
    (hs : step c s a = some (s', evs)) : s'.idle = true := by
  obtain ⟨hheld, hlingers⟩ := idle_iff.mp h
  refine idle_iff.mpr ⟨hheld.step rfl (fun _ => False.elim) (fun _ ha => hcapture _ ha) hs, ?_⟩
  cases job_of_step hs with
  | same hw => rwa [hw]
  | taken composition hpending _ => exact (hheld.pending composition hpending).elim
  | kept _ _ _ _ hnot => exact hnot
  | lingers job hjob _ => exact (hheld.job job hjob).elim
  | assembled job hjob _ _ _ => exact (hheld.job job hjob).elim
  | free _ _ hnot => exact hnot

end EinkLab.Pipeline
