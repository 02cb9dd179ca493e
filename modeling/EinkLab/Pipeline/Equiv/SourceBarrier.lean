import EinkLab.Pipeline.Equiv.Exclusive
import EinkLab.Pipeline.Equiv.Shown

/-!
# The barrier of a source change

`source_barrier`: after `ResetForSourceChange`, the worker assembles no capture from before the
call, takes none that was pending then, and compares a capture only with captures from after it.
This holds in every run in which the call does not find the worker with a capture past its source
check (or, once the pipeline is stopping, with any capture).  `source_change_passed` is a run in
which it does.

A capture is known by its sequence: those from before the call have one below the next sequence that
the call leaves.  What a capture is compared with is in three trackers: the RGB tracker, which the
converter updates, the grayscale tracker and the demand gate, which the evaluation updates.  All
three are empty at some moment after the call, and see only captures from after it until the
comparison (`Renewed`); the invariant (`Baselines`) is that the reset is due, or has been done, or
that the pipeline is stopping.
-/

namespace EinkLab.Pipeline

open Transition

variable {c : Settings} {s s' t : Pipeline} {a : Action} {evs : List Event}

/-- The sequence of the capture that the worker holds, unless the latch has suppressed it. -/
def WorkerPhase.held : WorkerPhase → Option Nat
  | .converting job => some job.sequence
  | .converted job _ => some job.sequence
  | .checked job _ => some job.sequence
  | .evaluated _ _ .suppress _ _ => none
  | .evaluated _ frame _ _ _ => some frame.sequence
  | .assembled frame => some frame.sequence
  | _ => none

/-- The capture whose source generation is still to be checked. -/
def WorkerPhase.unchecked : WorkerPhase → Option Job
  | .converting job => some job
  | .converted job _ => some job
  | _ => none

theorem WorkerPhase.held_evaluated {job : Job} {f : Frame} {decision : SleepImageDecision}
    {epoch k : Nat} {demand : DemandDecision}
    (h : (WorkerPhase.evaluated job f decision epoch demand).held = some k) : k = f.sequence := by
  cases decision with
  | suppress => cases h
  | passThrough => exact (Option.some.inj h).symm
  | replace => exact (Option.some.inj h).symm

theorem WorkerPhase.held_of_unchecked {w : WorkerPhase} {job : Job}
    (h : w.unchecked = some job) : w.held = some job.sequence := by
  unfold unchecked at h
  split at h
  · obtain rfl := Option.some.inj h
    rfl
  · obtain rfl := Option.some.inj h
    rfl
  · cases h

/-- A source change finds no capture past its source check, and none at all in a pipeline that is
stopping. -/
def KeepsBarrier (s : Pipeline) (a : Action) : Prop :=
  a = .resetForSourceChange → s.worker.held ≠ none → s.worker.unchecked ≠ none ∧ s.stopping = false

/-! ### What a step does to the captures -/

/-- What every step does to the flags, the counters and the pending capture. -/
structure Proceeds (s : Pipeline) (a : Action) (s' : Pipeline) : Prop where
  started : s.started = true → s'.started = true
  stopping : s.stopping = true → s'.stopping = true
  generation : s.sourceGeneration ≤ s'.sourceGeneration
  next : s.nextSequence ≤ s'.nextSequence
  pending : ∀ composition, s'.pending = some composition →
    a = .onCapturedComposition composition ∧ s'.started = true ∧ s'.stopping = false ∨
      s.pending = some composition ∧ s'.stopping = s.stopping

/-- What a step does to the capture that the worker holds and to the baselines. -/
inductive CaptureStep (c : Settings) (s : Pipeline) (a : Action) (s' : Pipeline) : Prop
  | aside (hheld : s'.worker = s.worker ∨ s'.worker.held = none)
      (hlive : s'.worker = .absent ∨ s'.started = true ∨ s.worker ≠ .absent)
      (hreset : s.resetSourceState = true → s'.resetSourceState = true)
      (hgate : s'.demandGate = s.demandGate) (hgray : s'.grayscaleTracker = s.grayscaleTracker)
  | dequeued (ha : a = .dequeue) (composition : CapturedComposition)
      (htaken : s.pending = some composition) (hlive : s.stopping = false)
      (hw : s'.worker = .converting ⟨composition, s.nextSequence, s.sourceGeneration⟩)
      (hnext : s'.nextSequence = s.nextSequence + 1)
      (hpending : s'.pending = none)
      (hgate : s'.demandGate.previous = none ∨ s'.demandGate = s.demandGate)
      (hreset : s.resetSourceState = true → s'.demandGate.previous = none ∧
        s'.grayscaleTracker = s.grayscaleTracker.reset)
  | converted (job : Job) (hw : s.worker = .converting job)
      (h : s'.worker = .failed ∨ ∃ conversion, s'.worker = .converted job conversion)
      (hreset : s'.resetSourceState = s.resetSourceState) (hgate : s'.demandGate = s.demandGate)
  | checked (job : Job) (conversion : Conversion) (hw : s.worker = .converted job conversion)
      (hcurrent : job.sourceGeneration = s.sourceGeneration)
      (h : s'.worker = .checked job conversion)
      (hreset : s'.resetSourceState = s.resetSourceState) (hgate : s'.demandGate = s.demandGate)
  | evaluated (ha : a = .evaluate) (job : Job) (conversion : Conversion)
      (hw : s.worker = .checked job conversion)
      (hheld : ∀ k, s'.worker.held = some k → k = job.sequence)
      (hunchecked : s'.worker.unchecked = none)
      (hreset : s'.resetSourceState = s.resetSourceState)
  | assembled (frame frame' : Frame) (hw : s.worker.held = some frame.sequence)
      (h : s'.worker = .assembled frame') (hsame : frame'.sequence = frame.sequence)
      (hpast : s.worker.unchecked = none)
      (hreset : s'.resetSourceState = s.resetSourceState) (hgate : s'.demandGate = s.demandGate)

/-- The part of the pipeline that captures and baselines depend on. -/
def sourceView (s : Pipeline) :=
  (s.pending, s.nextSequence, s.sourceGeneration, s.resetSourceState, s.demandGate,
    s.grayscaleTracker, s.started, s.stopping)

/-- Both halves of what a step does. -/
def CaptureEffect (c : Settings) (s : Pipeline) (a : Action) (s' : Pipeline) : Prop :=
  Proceeds s a s' ∧ CaptureStep c s a s'

theorem Proceeds.of_view (h : sourceView s' = sourceView s) : Proceeds s a s' := by
  simp only [sourceView, Prod.mk.injEq] at h
  obtain ⟨hpending, hnext, hgeneration, -, -, -, hstarted, hstopping⟩ := h
  constructor
  case started => exact fun hs => hstarted.trans hs
  case stopping => exact fun hs => hstopping.trans hs
  case generation => exact Nat.le_of_eq hgeneration.symm
  case next => exact Nat.le_of_eq hnext.symm
  case pending => exact fun composition hp => Or.inr ⟨hpending.symm.trans hp, hstopping⟩

/-- Captures and baselines are left alone, or the worker lets its capture go. -/
theorem CaptureEffect.of_view (h : sourceView s' = sourceView s)
    (hheld : s'.worker = s.worker ∨ s'.worker.held = none ∧ s.worker ≠ .absent) :
    CaptureEffect c s a s' := by
  refine ⟨.of_view h, ?_⟩
  simp only [sourceView, Prod.mk.injEq] at h
  obtain ⟨-, -, -, hreset, hgate, hgray, -, -⟩ := h
  refine .aside (hheld.imp_right And.left) ?_ (fun hs => hreset.trans hs) hgate hgray
  rcases hheld with hsame | ⟨-, hworker⟩
  · by_cases habsent : s.worker = .absent
    · exact Or.inl (hsame.trans habsent)
    · exact Or.inr (Or.inr habsent)
  · exact Or.inr (Or.inr hworker)

/-- A step that leaves the source, the captures and the worker alone. -/
theorem CaptureEffect.same (h : sourceView s' = sourceView s ∧ s'.worker = s.worker) :
    CaptureEffect c s a s' :=
  .of_view h.1 (Or.inl h.2)

/-! ### The methods -/

theorem start_captures (s : Pipeline) : CaptureEffect c s .start s.start := by
  unfold start
  split
  · exact .same ⟨rfl, rfl⟩
  · refine ⟨⟨fun _ => rfl, fun h => h, Nat.le_refl _, Nat.le_refl _, ?_⟩, ?_⟩
    · exact fun composition hp => Or.inr ⟨hp, rfl⟩
    · exact .aside (Or.inl rfl) (Or.inr (Or.inl rfl)) (fun h => h) rfl rfl

theorem startThreads_captures (h : s.startThreads = some s') :
    CaptureEffect c s .startThreads s' := by
  unfold startThreads at h
  split at h
  · next hready =>
    simp only [Bool.and_eq_true] at hready
    obtain rfl := Option.some.inj h
    refine ⟨.of_view rfl, ?_⟩
    exact .aside (Or.inr rfl) (Or.inr (Or.inl hready.1)) (fun h => h) rfl rfl
  · cases h

theorem stop_captures (s : Pipeline) : CaptureEffect c s .stop s.stop := by
  unfold stop
  split
  · exact .same ⟨rfl, rfl⟩
  · next hlive =>
    have hstarted : s.started = true := by
      by_contra hunstarted
      simp [hunstarted] at hlive
    refine ⟨⟨fun h => h, fun _ => rfl, Nat.le_refl _, Nat.le_refl _, fun _ hp => by cases hp⟩, ?_⟩
    exact .aside (Or.inl rfl) (Or.inr (Or.inl hstarted)) (fun h => h) rfl rfl

theorem setEnabled_captures (s : Pipeline) (enabled : Bool) :
    CaptureEffect c s (.setEnabled enabled) (s.setEnabled enabled) := by
  unfold setEnabled
  split
  · cases enabled <;> exact .same ⟨rfl, rfl⟩
  · exact .same ⟨rfl, rfl⟩

theorem resetForSourceChange_captures (s : Pipeline) :
    CaptureEffect c s .resetForSourceChange s.resetForSourceChange := by
  unfold resetForSourceChange
  split
  · exact .same ⟨rfl, rfl⟩
  · next hlive =>
    have hstarted : s.started = true := by
      by_contra hunstarted
      simp [hunstarted] at hlive
    refine ⟨⟨fun h => h, fun h => h, Nat.le_succ _, Nat.le_refl _, fun _ hp => by cases hp⟩, ?_⟩
    exact .aside (Or.inl rfl) (Or.inr (Or.inl hstarted)) (fun _ => rfl) rfl rfl

theorem armSleepCycle_captures (s : Pipeline) (epoch : Nat) :
    CaptureEffect c s (.armSleepCycle epoch) (s.armSleepCycle epoch).2 := by
  unfold armSleepCycle
  dsimp only
  split_ifs <;> exact .same ⟨rfl, rfl⟩

theorem presentSleepImage_captures (s : Pipeline) (epoch : Nat) (now : TimePoint) :
    CaptureEffect c s (.presentSleepImage epoch now) (s.presentSleepImage c epoch now).2 := by
  unfold presentSleepImage
  split
  · exact .same ⟨rfl, rfl⟩
  split
  · exact .same ⟨rfl, rfl⟩
  next hlive =>
  have hstarted : s.started = true := by
    by_contra hunstarted
    simp [hunstarted] at hlive
  split
  · exact .same ⟨rfl, rfl⟩
  · unfold enqueueSleepImage
    dsimp only
    split_ifs
    · exact .same ⟨rfl, rfl⟩
    · exact .same ⟨rfl, rfl⟩
    all_goals
      refine ⟨⟨fun h => h, fun h => h, Nat.le_succ _, Nat.le_succ _, fun _ hp => by cases hp⟩, ?_⟩
      exact .aside (Or.inl rfl) (Or.inr (Or.inl hstarted)) (fun h => h) rfl rfl

theorem disarmSleepCycle_captures (s : Pipeline) (epoch : Nat) :
    CaptureEffect c s (.disarmSleepCycle epoch) (s.disarmSleepCycle epoch).2 := by
  unfold disarmSleepCycle
  dsimp only
  split_ifs <;> exact .same ⟨rfl, rfl⟩

theorem onCapturedComposition_captures (s : Pipeline) (composition : CapturedComposition) :
    CaptureEffect c s (.onCapturedComposition composition)
    (s.onCapturedComposition composition) := by
  unfold onCapturedComposition
  split
  · exact .same ⟨rfl, rfl⟩
  next hlive =>
  split
  · exact .same ⟨rfl, rfl⟩
  · simp only [Bool.or_eq_true, Bool.not_eq_true', not_or, Bool.not_eq_false,
      Bool.not_eq_true] at hlive
    obtain ⟨⟨hstarted, hstopping⟩, -⟩ := hlive
    refine ⟨⟨fun h => h, fun h => h, Nat.le_refl _, Nat.le_refl _, fun _ hp => ?_⟩, ?_⟩
    · obtain rfl := Option.some.inj hp
      exact Or.inl ⟨rfl, hstarted, hstopping⟩
    · exact .aside (Or.inl rfl) (Or.inr (Or.inl hstarted)) (fun h => h) rfl rfl

/-! ### The worker -/

theorem dequeue_captures (h : s.dequeue = some s') : CaptureEffect c s .dequeue s' := by
  unfold dequeue at h
  split at h
  swap
  · cases h
  next hw =>
  split at h
  · obtain rfl := Option.some.inj h
    exact .of_view rfl (Or.inr ⟨rfl, by simp [hw]⟩)
  next hlive =>
  rw [Bool.not_eq_true] at hlive
  split at h
  · cases h
  next composition hpending =>
  obtain rfl := Option.some.inj h
  refine ⟨⟨fun h => h, fun h => h, Nat.le_refl _, Nat.le_succ _, fun _ hp => by cases hp⟩, ?_⟩
  refine .dequeued rfl composition hpending hlive rfl rfl rfl ?_ fun hreset => ?_
  · cases hsource : s.resetSourceState with
    | true => exact Or.inl (by simp [FrameDemandGate.reset])
    | false =>
      cases hdemand : s.resetDemandGate with
      | true => exact Or.inl (by simp [FrameDemandGate.reset])
      | false => exact Or.inr (by simp)
  · exact ⟨by simp [hreset, FrameDemandGate.reset], by simp [hreset]⟩

theorem convert_captures {result : Option Conversion} (h : s.convert result = some s') :
    CaptureEffect c s (.convert result) s' := by
  unfold convert at h
  split at h
  swap
  · cases h
  next job hw =>
  split at h
  · obtain rfl := Option.some.inj h
    exact ⟨.of_view rfl, .converted job hw (Or.inl rfl) rfl rfl⟩
  · next conversion _ =>
    obtain rfl := Option.some.inj h
    exact ⟨.of_view rfl, .converted job hw (Or.inr ⟨conversion, rfl⟩) rfl rfl⟩

theorem conversionFailed_captures (h : s.conversionFailed = some s') :
    CaptureEffect c s .conversionFailed s' := by
  unfold conversionFailed at h
  split at h
  · next hw =>
    dsimp only at h
    split at h
    · obtain rfl := Option.some.inj h
      exact .of_view rfl (Or.inr ⟨rfl, by simp [hw]⟩)
    · obtain rfl := Option.some.inj h
      exact .of_view rfl (Or.inr ⟨rfl, by simp [hw]⟩)
  · cases h

theorem checkSource_captures (h : s.checkSource = some s') : CaptureEffect c s .checkSource s' := by
  unfold checkSource at h
  split at h
  · next job conversion hw =>
    split at h
    · obtain rfl := Option.some.inj h
      exact .of_view rfl (Or.inr ⟨rfl, by simp [hw]⟩)
    · next hcurrent =>
      obtain rfl := Option.some.inj h
      exact ⟨.of_view rfl, .checked job conversion hw (not_not.mp hcurrent) rfl rfl rfl⟩
  · cases h

theorem evaluate_captures (h : s.evaluate c = some s') : CaptureEffect c s .evaluate s' := by
  unfold evaluate at h
  split at h
  · next job conversion hw =>
    obtain rfl := Option.some.inj h
    refine ⟨⟨fun h => h, fun h => h, Nat.le_refl _, Nat.le_refl _,
      fun _ hp => Or.inr ⟨hp, rfl⟩⟩, ?_⟩
    exact .evaluated rfl job conversion hw (fun k hk => WorkerPhase.held_evaluated hk) rfl rfl
  · cases h

theorem hold_captures (h : s.hold = some s') : CaptureEffect c s .hold s' := by
  unfold hold at h
  split at h
  · next hw =>
    obtain rfl := Option.some.inj h
    exact .of_view rfl (Or.inr ⟨rfl, by simp [hw]⟩)
  · cases h

theorem readRefresh_captures {now : TimePoint} (h : s.readRefresh c now = some s') :
    CaptureEffect c s (.readRefresh now) s' := by
  unfold readRefresh at h
  split at h
  swap
  · cases h
  next job f decision epoch demand hw =>
  split at h
  · cases h
  next hkept =>
  dsimp only at h
  generalize (if (s.enabled && s.sleepImageLatch.activeEpoch = 0) = true then
    (s.refreshMode, s.refreshId) else (DiagnosticRefresh.none, 0)) = refresh at h
  split at h
  · obtain rfl := Option.some.inj h
    exact .of_view rfl (Or.inr ⟨rfl, by simp [hw]⟩)
  · obtain rfl := Option.some.inj h
    have hheld : s.worker.held = some f.sequence := by
      rw [hw]
      cases decision with
      | suppress => exact absurd rfl hkept
      | passThrough => rfl
      | replace => rfl
    have hpast : s.worker.unchecked = none := by rw [hw]; rfl
    exact ⟨.of_view rfl, .assembled f _ hheld rfl rfl hpast rfl rfl⟩

theorem enqueue_captures (h : s.enqueue = some s') : CaptureEffect c s .enqueue s' := by
  unfold enqueue at h
  split at h
  · next hw =>
    obtain rfl := Option.some.inj h
    exact .of_view rfl (Or.inr ⟨rfl, by simp [hw]⟩)
  · cases h

theorem finish_captures (h : s.finish = some s') : CaptureEffect c s .finish s' := by
  unfold finish at h
  split at h
  · next hw =>
    obtain rfl := Option.some.inj h
    exact .of_view rfl (Or.inr ⟨rfl, by simp [hw]⟩)
  · next hw =>
    obtain rfl := Option.some.inj h
    exact .of_view rfl (Or.inr ⟨rfl, by simp [hw]⟩)
  · cases h

/-- **What a step does** to the captures and the baselines. -/
theorem captures_of_step (h : step c s a = some (s', evs)) : CaptureEffect c s a s' := by
  have hsome : ∀ {r : Pipeline} {es : List Event}, some (r, es) = some (s', evs) →
      CaptureEffect c s a r → CaptureEffect c s a s' :=
    fun hr => System.result_of_some (P := fun t _ => CaptureEffect c s a t) hr
  have hmap : ∀ {r : Option Pipeline} {es : List Event}, r.map (·, es) = some (s', evs) →
      (∀ s', r = some s' → CaptureEffect c s a s') → CaptureEffect c s a s' :=
    fun hr => System.result_of_map (P := fun t _ => CaptureEffect c s a t) hr
  have hadapter : ∀ {r : Option PresentationAdapter} {es : List Event},
      (s.onAdapter r).map (·, es) = some (s', evs) → CaptureEffect c s a s' := by
    intro r es hr
    refine hmap hr fun s₁ hs₁ => ?_
    obtain ⟨a', -, rfl⟩ := Option.map_eq_some_iff.mp hs₁
    exact .same ⟨rfl, rfl⟩
  cases a with
  | requestDiagnosticRefresh mode =>
    refine hsome h ?_
    unfold requestDiagnosticRefresh
    split_ifs <;> exact .same ⟨rfl, rfl⟩
  | cancelDiagnosticRefresh id =>
    refine hsome h ?_
    unfold cancelDiagnosticRefresh
    split_ifs <;> exact .same ⟨rfl, rfl⟩
  | start => exact hsome h (start_captures s)
  | startThreads => exact hmap h fun _ => startThreads_captures
  | stop => exact hsome h (stop_captures s)
  | stopAdapter =>
    refine hmap h fun s₁ hs₁ => ?_
    unfold stopAdapter at hs₁
    split_ifs at hs₁
    obtain rfl := Option.some.inj hs₁
    exact .same ⟨rfl, rfl⟩
  | setEnabled enabled => exact hsome h (setEnabled_captures s enabled)
  | resetForSourceChange => exact hsome h (resetForSourceChange_captures s)
  | publishSleepImageCatalog epoch width height entries selectedIndex mode =>
    refine hsome h (.same ?_)
    unfold publishSleepImageCatalog
    split
    · exact ⟨rfl, rfl⟩
    split
    · exact ⟨rfl, rfl⟩
    split
    · split_ifs <;> exact ⟨rfl, rfl⟩
    · exact ⟨rfl, rfl⟩
  | armSleepCycle epoch => exact hsome h (armSleepCycle_captures s epoch)
  | presentSleepImage epoch now => exact hsome h (presentSleepImage_captures s epoch now)
  | disarmSleepCycle epoch => exact hsome h (disarmSleepCycle_captures s epoch)
  | onCapturedComposition composition =>
    exact hsome h (onCapturedComposition_captures s composition)
  | dequeue => exact hmap h fun _ => dequeue_captures
  | convert result => exact hmap h fun _ => convert_captures
  | conversionFailed => exact hmap h fun _ => conversionFailed_captures
  | checkSource => exact hmap h fun _ => checkSource_captures
  | evaluate => exact hmap h fun _ => evaluate_captures
  | hold => exact hmap h fun _ => hold_captures
  | readRefresh now => exact hmap h fun _ => readRefresh_captures
  | enqueue => exact hmap h fun _ => enqueue_captures
  | finish => exact hmap h fun _ => finish_captures
  | wake interval now => exact hadapter h
  | rewake now => exact hadapter h
  | submitStart now => exact hadapter h
  | submitReturn accepted now => exact hadapter h
  | record => exact hadapter h
  | observe =>
    refine hmap h fun s₁ hs₁ => ?_
    unfold Pipeline.observe at hs₁
    split at hs₁
    · next frame accepted _ _ =>
      obtain ⟨a', -, rfl⟩ := Option.map_eq_some_iff.mp hs₁
      refine .same ?_
      unfold onEngineSubmission
      dsimp only
      split <;> exact ⟨rfl, rfl⟩
    · cases hs₁

namespace CaptureStep

/-- The capture in the worker's hands was there before, or it has just been dequeued. -/
theorem held (h : CaptureStep c s a s') {k : Nat} (hk : s'.worker.held = some k) :
    s.worker.held = some k ∨ ∃ composition, s.pending = some composition ∧
      s'.worker = .converting ⟨composition, s.nextSequence, s.sourceGeneration⟩ ∧
      k = s.nextSequence ∧ s'.nextSequence = s.nextSequence + 1 := by
  cases h with
  | aside hheld _ _ _ _ =>
    rcases hheld with hsame | hnone
    · exact Or.inl (hsame ▸ hk)
    · cases hnone.symm.trans hk
  | dequeued _ composition htaken _ hw hnext _ _ _ =>
    rw [hw] at hk
    exact Or.inr ⟨composition, htaken, hw, (Option.some.inj hk).symm, hnext⟩
  | converted job hw h _ _ =>
    rcases h with hfailed | ⟨conversion, hconverted⟩
    · rw [hfailed] at hk
      cases hk
    · rw [hconverted] at hk
      rw [hw]
      exact Or.inl hk
  | checked job conversion hw _ h _ _ =>
    rw [h] at hk
    rw [hw]
    exact Or.inl hk
  | evaluated _ job conversion hw hheld _ _ =>
    obtain rfl := hheld k hk
    rw [hw]
    exact Or.inl rfl
  | assembled frame frame' hw h hsame _ _ _ =>
    rw [h] at hk
    obtain rfl := Option.some.inj hk
    rw [hsame]
    exact Or.inl hw

/-- A capture whose generation is to be checked was there before, or it has just been dequeued. -/
theorem unchecked (h : CaptureStep c s a s') {job : Job} (hjob : s'.worker.unchecked = some job) :
    s.worker.unchecked = some job ∨ ∃ composition, s.pending = some composition ∧
      job = ⟨composition, s.nextSequence, s.sourceGeneration⟩ := by
  cases h with
  | aside hheld _ _ _ _ =>
    rcases hheld with hsame | hnone
    · exact Or.inl (hsame ▸ hjob)
    · cases hnone.symm.trans (WorkerPhase.held_of_unchecked hjob)
  | dequeued _ composition htaken _ hw _ _ _ _ =>
    rw [hw] at hjob
    exact Or.inr ⟨composition, htaken, (Option.some.inj hjob).symm⟩
  | converted job' hw h _ _ =>
    rcases h with hfailed | ⟨conversion, hconverted⟩
    · rw [hfailed] at hjob
      cases hjob
    · rw [hconverted] at hjob
      rw [hw]
      exact Or.inl hjob
  | checked _ _ _ _ h _ _ =>
    rw [h] at hjob
    cases hjob
  | evaluated _ _ _ _ _ hunchecked _ => cases hunchecked.symm.trans hjob
  | assembled _ _ _ h _ _ _ _ =>
    rw [h] at hjob
    cases hjob

/-- A capture passes its check under the current generation. -/
theorem passed (h : CaptureStep c s a s') {k : Nat} (hk : s'.worker.held = some k)
    (hpast : s'.worker.unchecked = none) : ∀ job, s.worker.unchecked = some job →
      job.sourceGeneration = s.sourceGeneration := by
  intro job hjob
  -- only the check takes a capture past itself, and it compares the generations
  cases h with
  | aside hheld _ _ _ _ =>
    rcases hheld with hsame | hnone
    · rw [hsame, hjob] at hpast
      cases hpast
    · cases hnone.symm.trans hk
  | dequeued _ _ _ _ hw _ _ _ _ =>
    rw [hw] at hpast
    cases hpast
  | converted job' hw h _ _ =>
    rcases h with hfailed | ⟨conversion, hconverted⟩
    · rw [hfailed] at hk
      cases hk
    · rw [hconverted] at hpast
      cases hpast
  | checked job' conversion hw hcurrent _ _ _ =>
    rw [hw] at hjob
    obtain rfl := Option.some.inj hjob
    exact hcurrent
  | evaluated _ _ _ hw _ _ _ =>
    rw [hw] at hjob
    cases hjob
  | assembled _ _ _ _ _ hpast _ _ => cases hpast.symm.trans hjob

/-- A capture is dequeued, and a pending source reset takes effect; or the capture in the worker's
hands stays there or goes, and the reset stays pending. -/
theorem baselines (h : CaptureStep c s a s') :
    (a = .dequeue ∧ s.stopping = false ∧ s'.worker.held = some s.nextSequence ∧
      (s.resetSourceState = true → s'.demandGate.previous = none ∧
        s'.grayscaleTracker = s.grayscaleTracker.reset)) ∨
    (∀ k, s'.worker.held = some k → s.worker.held = some k) ∧
      (s.resetSourceState = true → s'.resetSourceState = true) := by
  cases h with
  | aside hheld _ hreset _ _ =>
    refine Or.inr ⟨fun k hk => ?_, hreset⟩
    rcases hheld with hsame | hnone
    · exact hsame ▸ hk
    · cases hnone.symm.trans hk
  | dequeued ha composition _ hlive hw _ _ _ hreset =>
    exact Or.inl ⟨ha, hlive, by rw [hw]; rfl, hreset⟩
  | converted job hw h hreset _ =>
    refine Or.inr ⟨fun k hk => ?_, fun hs => hreset.trans hs⟩
    rcases h with hfailed | ⟨conversion, hconverted⟩
    · rw [hfailed] at hk
      cases hk
    · rw [hconverted] at hk
      exact hw ▸ hk
  | checked job conversion hw _ h hreset _ =>
    refine Or.inr ⟨fun k hk => ?_, fun hs => hreset.trans hs⟩
    rw [h] at hk
    exact hw ▸ hk
  | evaluated _ job conversion hw hheld _ hreset =>
    refine Or.inr ⟨fun k hk => ?_, fun hs => hreset.trans hs⟩
    rw [hheld k hk, hw]
    rfl
  | assembled frame frame' hw h hsame _ hreset _ =>
    refine Or.inr ⟨fun k hk => ?_, fun hs => hreset.trans hs⟩
    rw [h] at hk
    obtain rfl := Option.some.inj hk
    rw [hsame]
    exact hw

/-- A gate without a frame to compare with stays so until it evaluates one. -/
theorem gate (h : CaptureStep c s a s') (hevaluate : a ≠ .evaluate)
    (hnone : s.demandGate.previous = none) : s'.demandGate.previous = none := by
  have hsame (hgate : s'.demandGate = s.demandGate) : s'.demandGate.previous = none := by
    rw [hgate, hnone]
  cases h with
  | aside _ _ _ hgate _ => exact hsame hgate
  | dequeued _ _ _ _ _ _ _ hgate _ => exact hgate.elim id hsame
  | converted _ _ _ _ hgate => exact hsame hgate
  | checked _ _ _ _ _ _ hgate => exact hsame hgate
  | evaluated ha _ _ _ _ _ _ => exact absurd ha hevaluate
  | assembled _ _ _ _ _ _ _ hgate => exact hsame hgate

end CaptureStep

theorem evaluate_ne_unchanged {gate : FrameDemandGate} (h : gate.previous = none)
    (signature : FrameSignature) : (gate.evaluate signature).1 ≠ .unchanged := by
  unfold FrameDemandGate.evaluate
  rw [h]
  dsimp only
  split <;> simp

end EinkLab.Pipeline

namespace EinkLab.TrackedPipeline

open Transition Pipeline AndroidGrayscaleConverter

variable {c : Settings} {x x' y y' : TrackedPipeline} {a : Action}

/-! ### The steps of the tracked pipeline -/

/-- A step of the tracked pipeline as one of the pipeline (`b`), and what it does to the RGB
tracker: only the converter and the dequeue touch it. -/
structure Underlying (c : Settings) (x : TrackedPipeline) (a : Action) (b : Pipeline.Action)
    (x' : TrackedPipeline) (evs : List Event) : Prop where
  effect : CaptureEffect c.toSettings x.pipeline b x'.pipeline
  captured : ∀ composition, b = .onCapturedComposition composition → a = .pipeline b
  dequeued : b = .dequeue → x'.rgbTracker = x.dequeuedTracker
  absent : x.pipeline.worker = .absent → x'.rgbTracker = x.rgbTracker
  evaluated : b = .evaluate → lastEvaluated evs ≠ none

theorem underlying_of_step {evs : List Event} (h : (system c).step x a = some (x', evs)) :
    ∃ b, Underlying c x a b x' evs := by
  cases a with
  | convert readyFence calls =>
    have h : x.convert c readyFence calls = some (x', evs) := h
    unfold TrackedPipeline.convert at h
    cases hw : x.pipeline.worker with
    | converting job =>
      rw [hw] at h
      dsimp only at h
      split at h
      · cases h
      next result tracker _ =>
      obtain ⟨⟨s', pevs⟩, hs, heq⟩ := Option.map_eq_some_iff.mp h
      obtain ⟨rfl, rfl⟩ := Prod.mk.inj heq
      refine ⟨.convert (conversionOf result), captures_of_step hs, ?_, ?_, ?_, ?_⟩
      · exact fun _ hno => by cases hno
      · exact fun hno => by cases hno
      · exact fun habsent => by cases habsent.symm.trans hw
      · exact fun hno => by cases hno
    | _ =>
      rw [hw] at h
      cases h
  | pipeline b =>
    refine ⟨b, ?_⟩
    by_cases hconvert : ∃ result, b = .convert result
    · obtain ⟨result, rfl⟩ := hconvert
      cases h
    by_cases hdequeue : b = .dequeue
    · subst hdequeue
      obtain ⟨⟨s', pevs⟩, hs, heq⟩ := Option.map_eq_some_iff.mp h
      obtain ⟨rfl, rfl⟩ := Prod.mk.inj heq
      refine ⟨captures_of_step hs, fun _ _ => rfl, fun _ => rfl, fun habsent => ?_, fun hno => ?_⟩
      swap
      · cases hno
      -- a worker that is absent takes nothing
      obtain ⟨s₁, hs₁, -⟩ := Option.map_eq_some_iff.mp hs
      unfold Pipeline.dequeue at hs₁
      rw [habsent] at hs₁
      cases hs₁
    by_cases hevaluate : b = .evaluate
    · subst hevaluate
      obtain ⟨⟨s', pevs⟩, hs, heq⟩ := Option.map_eq_some_iff.mp h
      obtain ⟨rfl, rfl⟩ := Prod.mk.inj heq
      refine ⟨captures_of_step hs, fun _ _ => rfl, fun hno => ?_, fun _ => rfl, fun _ => ?_⟩
      · cases hno
      obtain ⟨s₁, hs₁, -⟩ := Option.map_eq_some_iff.mp hs
      unfold Pipeline.evaluate at hs₁
      split at hs₁
      · next job conversion hw =>
        rw [lastEvaluated_pipeline, evaluatedEvents, hw]
        exact Option.some_ne_none job.composition
      · cases hs₁
    · obtain ⟨s', pevs, hs, rfl, rfl⟩ :=
        step_pipeline (fun result hno => hconvert ⟨result, hno⟩) hdequeue hevaluate h
      exact ⟨captures_of_step hs, fun _ _ => rfl, fun hno => absurd hno hdequeue, fun _ => rfl,
        fun hno => absurd hno hevaluate⟩

/-! ### Before the call -/

/-- The trackers are as a reset leaves them: they have no capture to compare with. -/
structure Empty (x : TrackedPipeline) : Prop where
  rgb : x.rgbTracker.reset = x.rgbTracker
  grayscale : x.pipeline.grayscaleTracker.reset = x.pipeline.grayscaleTracker
  demand : x.pipeline.demandGate.previous = none

/-- The captures that have been taken are numbered below the next sequence, under the current source
generation or an older one. -/
structure Counted (x : TrackedPipeline) : Prop where
  held : ∀ k, x.pipeline.worker.held = some k → k < x.pipeline.nextSequence
  generation : ∀ job, x.pipeline.worker.unchecked = some job →
    job.sourceGeneration ≤ x.pipeline.sourceGeneration
  started : x.pipeline.worker ≠ .absent → x.pipeline.started = true
  /-- A pipeline that has not started has compared nothing. -/
  unstarted : x.pipeline.started = false → x.Empty
  pending : x.pipeline.pending ≠ none → x.pipeline.started = true ∧ x.pipeline.stopping = false

theorem counted_init : Counted {} where
  held _ h := by cases h
  generation _ h := by cases h
  started h := absurd rfl h
  unstarted _ := ⟨rfl, rfl, rfl⟩
  pending h := absurd rfl h

theorem Counted.step {evs : List Event} (h : Counted x)
    (hs : (system c).step x a = some (x', evs)) : Counted x' := by
  obtain ⟨b, hunderlying⟩ := underlying_of_step hs
  obtain ⟨hproceeds, hcapture⟩ := hunderlying.effect
  constructor
  case held =>
    intro k hk
    rcases hcapture.held hk with hbefore | ⟨_, _, _, rfl, hnext⟩
    · exact Nat.lt_of_lt_of_le (h.held k hbefore) hproceeds.next
    · omega
  case generation =>
    intro job hjob
    rcases hcapture.unchecked hjob with hbefore | ⟨_, _, rfl⟩
    · exact Nat.le_trans (h.generation job hbefore) hproceeds.generation
    · exact hproceeds.generation
  case started =>
    intro hworker
    cases hcapture with
    | aside _ hlive _ _ _ =>
      rcases hlive with habsent | hlive | hbefore
      · exact absurd habsent hworker
      · exact hlive
      · exact hproceeds.started (h.started hbefore)
    | dequeued _ _ htaken _ _ _ _ _ _ => exact hproceeds.started (h.pending (by simp [htaken])).1
    | converted _ hw _ _ _ => exact hproceeds.started (h.started (by simp [hw]))
    | checked _ _ hw _ _ _ _ => exact hproceeds.started (h.started (by simp [hw]))
    | evaluated _ _ _ hw _ _ _ => exact hproceeds.started (h.started (by simp [hw]))
    | assembled _ _ hw _ _ _ _ _ =>
      refine hproceeds.started (h.started fun habsent => ?_)
      rw [habsent] at hw
      cases hw
  case unstarted =>
    intro hunstarted
    have hbefore : x.pipeline.started = false := by
      by_contra hlive
      rw [Bool.not_eq_false] at hlive
      cases hunstarted.symm.trans (hproceeds.started hlive)
    have hworker : x.pipeline.worker = .absent := by
      by_contra hworker
      cases hbefore.symm.trans (h.started hworker)
    have hempty := h.unstarted hbefore
    have hrgb := hunderlying.absent hworker
    cases hcapture with
    | aside _ _ _ hgate hgray =>
      exact ⟨hrgb ▸ hempty.rgb, hgray ▸ hempty.grayscale, hgate ▸ hempty.demand⟩
    | dequeued _ _ htaken _ _ _ _ _ _ =>
      cases hbefore.symm.trans (h.pending (by simp [htaken])).1
    | converted _ hw _ _ _ => cases hworker.symm.trans hw
    | checked _ _ hw _ _ _ _ => cases hworker.symm.trans hw
    | evaluated _ _ _ hw _ _ _ => cases hworker.symm.trans hw
    | assembled _ _ hw _ _ _ _ _ =>
      rw [hworker] at hw
      cases hw
  case pending =>
    intro hpending
    obtain ⟨composition, hsome⟩ := Option.ne_none_iff_exists'.mp hpending
    rcases hproceeds.pending composition hsome with ⟨_, hlive⟩ | ⟨hbefore, hsame⟩
    · exact hlive
    · obtain ⟨hlive, hstopping⟩ := h.pending (by simp [hbefore])
      exact ⟨hproceeds.started hlive, hsame.trans hstopping⟩

/-! ### After the call -/

/-- The worker holds no capture from before `n`, as the action is taken. -/
def HoldsFrom (n : Nat) (x : TrackedPipeline) (_ : Action) : Prop :=
  ∀ k, x.pipeline.worker.held = some k → n ≤ k

/-- At some moment of the run from `x` to `y` the trackers were empty, and what the worker has held
since, and so what the trackers have seen, is numbered from `n` on. -/
def Renewed (c : Settings) (n : Nat) (x : TrackedPipeline) (as : List Action)
    (y : TrackedPipeline) : Prop :=
  ∃ as₁ as₂ log₁ log₂ z, as = as₁ ++ as₂ ∧ (system c).Run System.anyAction x as₁ log₁ z ∧
    z.Empty ∧ (system c).Run (HoldsFrom n) z as₂ log₂ y

/-- Where the baselines stand towards the captures numbered from `n` on, after a run from `x`. -/
inductive Baselines (c : Settings) (n : Nat) (x : TrackedPipeline) (as : List Action)
    (log : List Event) (y : TrackedPipeline) : Prop
  /-- The next dequeue will reset them. -/
  | due (hreset : y.pipeline.resetSourceState = true)
      (hheld : ∀ k, y.pipeline.worker.held = some k → k < n)
  /-- They have been reset, and have seen only these captures since. -/
  | fresh (hrenewed : Renewed c n x as y) (hheld : ∀ k, y.pipeline.worker.held = some k → n ≤ k)
      (hgate : lastEvaluated log = none → y.pipeline.demandGate.previous = none)
  /-- There will be no more captures. -/
  | ended (hstopping : y.pipeline.stopping = true) (hheld : y.pipeline.worker.held = none)

/-- The captures numbered from `n` on are those after the call, which left the source generation
`g` and the state `x`. -/
structure Barred (c : Settings) (n g : Nat) (x : TrackedPipeline) (as : List Action)
    (log : List Event) (y : TrackedPipeline) : Prop where
  run : (system c).Run System.anyAction x as log y
  generation : g ≤ y.pipeline.sourceGeneration
  next : n ≤ y.pipeline.nextSequence
  pending : ∀ composition, y.pipeline.pending = some composition →
    .pipeline (.onCapturedComposition composition) ∈ as
  old : ∀ k, y.pipeline.worker.held = some k → k < n →
    ∃ job, y.pipeline.worker.unchecked = some job ∧ job.sourceGeneration < g
  baselines : Baselines c n x as log y

theorem barred_of_reset {evs : List Event} (h : Counted x)
    (hkept : KeepsBarrier x.pipeline .resetForSourceChange)
    (hs : (system c).step x (.pipeline .resetForSourceChange) = some (x', evs)) :
    Barred c x'.pipeline.nextSequence x'.pipeline.sourceGeneration x' [] [] x' := by
  obtain ⟨s', pevs, hstep, rfl, -⟩ := step_pipeline (by simp) (by simp) (by simp) hs
  obtain ⟨hreset, -⟩ := Prod.mk.inj (Option.some.inj hstep)
  dsimp only at hreset ⊢
  unfold resetForSourceChange at hreset
  split at hreset
  · next hidle =>
    subst hreset
    have hpending : x.pipeline.pending = none := by
      by_contra hpending
      obtain ⟨hstarted, hstopping⟩ := h.pending hpending
      simp [hstarted, hstopping] at hidle
    have hheld : x.pipeline.worker.held = none := by
      by_contra hheld
      have hstarted : x.pipeline.started = true := by
        refine h.started fun habsent => hheld ?_
        rw [habsent]
        rfl
      simp [hstarted, (hkept rfl hheld).2] at hidle
    refine ⟨.nil, Nat.le_refl _, Nat.le_refl _, ?_, ?_, ?_⟩
    · intro composition hsome
      cases hpending.symm.trans hsome
    · intro k hk
      cases hheld.symm.trans hk
    · by_cases hstarted : x.pipeline.started = true
      · exact .ended (by simpa [hstarted] using hidle) hheld
      · rw [Bool.not_eq_true] at hstarted
        have hempty : x.Empty := h.unstarted hstarted
        refine .fresh ⟨[], [], [], [], x, rfl, .nil, hempty, .nil⟩ ?_ fun _ => hempty.demand
        intro k hk
        cases hheld.symm.trans hk
  · next hlive =>
    have hworker : s'.worker = x.pipeline.worker := by rw [← hreset]
    have hnext : s'.nextSequence = x.pipeline.nextSequence := by rw [← hreset]
    have hgeneration : s'.sourceGeneration = x.pipeline.sourceGeneration + 1 := by rw [← hreset]
    refine ⟨.nil, Nat.le_refl _, Nat.le_refl _, ?_, ?_, .due ?_ ?_⟩
    · intro composition hsome
      rw [← hreset] at hsome
      cases hsome
    · intro k hk _
      dsimp only at hk ⊢
      rw [hworker] at hk ⊢
      have hunchecked := (hkept rfl (by simp [hk])).1
      obtain ⟨job, hjob⟩ := Option.ne_none_iff_exists'.mp hunchecked
      have hold := h.generation job hjob
      exact ⟨job, hjob, by omega⟩
    · rw [← hreset]
    · intro k hk
      dsimp only at hk ⊢
      rw [hnext]
      exact h.held k (hworker ▸ hk)

theorem lastEvaluated_append_eq_none {log evs : List Event} :
    lastEvaluated (log ++ evs) = none ↔ lastEvaluated log = none ∧ lastEvaluated evs = none := by
  simp only [lastEvaluated, List.filterMap_append, List.getLast?_eq_none_iff,
    List.append_eq_nil_iff]

/-- A source change that is pending at a dequeue empties the trackers. -/
theorem empty_of_dequeue {b : Pipeline.Action} {evs : List Event} (h : Underlying c x a b x' evs)
    (hb : b = .dequeue) (hlive : x.pipeline.stopping = false)
    (hsource : x.pipeline.resetSourceState = true)
    (hreset : x'.pipeline.demandGate.previous = none ∧
      x'.pipeline.grayscaleTracker = x.pipeline.grayscaleTracker.reset) : x'.Empty where
  rgb := by
    rw [h.dequeued hb, dequeuedTracker, hlive, hsource]
    rfl
  grayscale := by
    rw [hreset.2]
    rfl
  demand := hreset.1

theorem Baselines.step {n : Nat} {as : List Action} {log evs : List Event}
    (h : Baselines c n x as log y) (hrun : (system c).Run System.anyAction x as log y)
    (hnext : n ≤ y.pipeline.nextSequence) (hs : (system c).step y a = some (y', evs)) :
    Baselines c n x (as ++ [a]) (log ++ evs) y' := by
  obtain ⟨b, hunderlying⟩ := underlying_of_step hs
  obtain ⟨hproceeds, hcapture⟩ := hunderlying.effect
  -- the gate has no frame to compare with until it evaluates one
  have hgate' (hgate : lastEvaluated log = none → y.pipeline.demandGate.previous = none) :
      lastEvaluated (log ++ evs) = none → y'.pipeline.demandGate.previous = none := by
    intro hnone
    obtain ⟨hbefore, hsilent⟩ := lastEvaluated_append_eq_none.mp hnone
    exact hcapture.gate (fun hb => hunderlying.evaluated hb hsilent) (hgate hbefore)
  -- the run since the trackers were empty goes on with captures from `n` on
  have hrenewed' (hrenewed : Renewed c n x as y)
      (hheld : ∀ k, y.pipeline.worker.held = some k → n ≤ k) : Renewed c n x (as ++ [a]) y' := by
    obtain ⟨as₁, as₂, log₁, log₂, z, rfl, hrun₁, hempty, hrun₂⟩ := hrenewed
    exact ⟨as₁, as₂ ++ [a], log₁, log₂ ++ evs, z, List.append_assoc _ _ _, hrun₁, hempty,
      hrun₂.snoc hheld hs⟩
  rcases hcapture.baselines with ⟨hb, hlive, hdequeued, hreset⟩ | ⟨hheld', hreset'⟩
  · have hnew : ∀ k, y'.pipeline.worker.held = some k → n ≤ k := by
      intro k hk
      obtain rfl := Option.some.inj (hdequeued.symm.trans hk)
      exact hnext
    cases h with
    | due hsource _ =>
      have hempty := empty_of_dequeue hunderlying hb hlive hsource (hreset hsource)
      refine .fresh ⟨as ++ [a], [], log ++ evs, [], y', (List.append_nil _).symm, ?_, hempty, .nil⟩
        hnew fun _ => hempty.demand
      exact hrun.snoc trivial hs
    | fresh hrenewed hheld hgate => exact .fresh (hrenewed' hrenewed hheld) hnew (hgate' hgate)
    | ended hstopping _ => cases hlive.symm.trans hstopping
  · cases h with
    | due hreset hold => exact .due (hreset' hreset) fun k hk => hold k (hheld' k hk)
    | fresh hrenewed hheld hgate =>
      exact .fresh (hrenewed' hrenewed hheld) (fun k hk => hheld k (hheld' k hk)) (hgate' hgate)
    | ended hstopping hnone =>
      refine .ended (hproceeds.stopping hstopping) ?_
      by_contra hsome
      obtain ⟨k, hk⟩ := Option.ne_none_iff_exists'.mp hsome
      cases hnone.symm.trans (hheld' k hk)

theorem Barred.step {n g : Nat} {as : List Action} {log evs : List Event}
    (h : Barred c n g x as log y) (hs : (system c).step y a = some (y', evs)) :
    Barred c n g x (as ++ [a]) (log ++ evs) y' := by
  obtain ⟨b, hunderlying⟩ := underlying_of_step hs
  obtain ⟨hproceeds, hcapture⟩ := hunderlying.effect
  refine ⟨h.run.snoc trivial hs, Nat.le_trans h.generation hproceeds.generation,
    Nat.le_trans h.next hproceeds.next, ?_, ?_, h.baselines.step h.run h.next hs⟩
  · intro composition hsome
    rcases hproceeds.pending composition hsome with ⟨hb, _⟩ | ⟨hbefore, _⟩
    · rw [hunderlying.captured composition hb, hb]
      exact List.mem_append_right as (List.mem_singleton.mpr rfl)
    · exact List.mem_append_left [a] (h.pending composition hbefore)
  · intro k hk hlt
    rcases hcapture.held hk with hbefore | ⟨_, _, _, rfl, _⟩
    · obtain ⟨job, hjob, hold⟩ := h.old k hbefore hlt
      cases hunchecked : y'.pipeline.worker.unchecked with
      | none =>
        -- it cannot have passed the check: its generation is not the current one
        have hcurrent := hcapture.passed hk hunchecked job hjob
        have hgeneration := h.generation
        omega
      | some job' =>
        rcases hcapture.unchecked hunchecked with hsame | ⟨_, _, rfl⟩
        · obtain rfl := Option.some.inj (hjob.symm.trans hsame)
          exact ⟨job, rfl, hold⟩
        · have hsame := (WorkerPhase.held_of_unchecked hunchecked).symm.trans hk
          have hnew : y.pipeline.nextSequence = k := Option.some.inj hsame
          have hnext := h.next
          omega
    · exact absurd h.next (Nat.not_le_of_lt hlt)

/-- What the call promises about a state `y` reached from the one it left. -/
structure SourceBarrier (c : Settings) (x : TrackedPipeline) (as : List Action)
    (log : List Event) (y : TrackedPipeline) : Prop where
  /-- No capture from before the call is passed to the adapter. -/
  passed : ∀ f, Passes c.toSettings y.pipeline .enqueue f → x.pipeline.nextSequence ≤ f.sequence
  /-- The capture that was pending is gone. -/
  pending : ∀ composition, y.pipeline.pending = some composition →
    .pipeline (.onCapturedComposition composition) ∈ as
  /-- A capture from after the call is converted against such captures only, by the RGB tracker. -/
  converted : ∀ job, y.pipeline.worker = .converting job →
    x.pipeline.nextSequence ≤ job.sequence → Renewed c x.pipeline.nextSequence x as y
  /-- It is a capture from after the call that the grayscale tracker and the demand gate evaluate,
  and against such captures only. -/
  compared : ∀ job conversion, y.pipeline.worker = .checked job conversion →
    x.pipeline.nextSequence ≤ job.sequence ∧ Renewed c x.pipeline.nextSequence x as y
  /-- The first one is not judged unchanged. -/
  first : ∀ job conversion, y.pipeline.worker = .checked job conversion → lastEvaluated log = none →
    (y.pipeline.demandGate.evaluate (signature c.toSettings y.pipeline conversion)).1 ≠ .unchanged

theorem Baselines.fresh_of_held {n k : Nat} {as : List Action} {log : List Event}
    (h : Baselines c n x as log y) (hk : y.pipeline.worker.held = some k) (hnew : n ≤ k) :
    Renewed c n x as y ∧
      (lastEvaluated log = none → y.pipeline.demandGate.previous = none) := by
  cases h with
  | due _ hold => exact absurd hnew (Nat.not_le_of_lt (hold k hk))
  | fresh hrenewed _ hgate => exact ⟨hrenewed, hgate⟩
  | ended _ hnone => cases hnone.symm.trans hk

theorem Barred.sourceBarrier {as : List Action} {log : List Event}
    (h : Barred c x.pipeline.nextSequence x.pipeline.sourceGeneration x as log y) :
    SourceBarrier c x as log y := by
  have hnew : ∀ k, y.pipeline.worker.held = some k → y.pipeline.worker.unchecked = none →
      x.pipeline.nextSequence ≤ k := by
    intro k hk hpast
    by_contra hlt
    obtain ⟨job, hjob, _⟩ := h.old k hk (Nat.lt_of_not_le hlt)
    cases hpast.symm.trans hjob
  have hchecked : ∀ {job conversion}, y.pipeline.worker = .checked job conversion →
      x.pipeline.nextSequence ≤ job.sequence ∧ y.pipeline.worker.held = some job.sequence := by
    intro job conversion hw
    exact ⟨hnew job.sequence (by rw [hw]; rfl) (by rw [hw]; rfl), by rw [hw]; rfl⟩
  constructor
  case passed =>
    intro f hpass
    cases hpass with
    | capture g hw =>
      have hsequence : (y.pipeline.finalFrame g).sequence = g.sequence := by
        unfold finalFrame
        split <;> rfl
      rw [hsequence]
      exact hnew g.sequence (by rw [hw]; rfl) (by rw [hw]; rfl)
  case pending => exact h.pending
  case converted =>
    intro job hw hafter
    exact (h.baselines.fresh_of_held (by rw [hw]; rfl) hafter).1
  case compared =>
    intro job conversion hw
    obtain ⟨hafter, hheld⟩ := hchecked hw
    exact ⟨hafter, (h.baselines.fresh_of_held hheld hafter).1⟩
  case first =>
    intro job conversion hw hnone
    obtain ⟨hafter, hheld⟩ := hchecked hw
    exact evaluate_ne_unchanged ((h.baselines.fresh_of_held hheld hafter).2 hnone) _

/-- **The barrier of a source change**, for a call that finds the worker with no capture past its
source check. -/
theorem source_barrier {as₁ as₂ : List Action} {log₁ log₂ evs : List Event}
    (h₁ : (system c).Run System.anyAction {} as₁ log₁ x)
    (hkept : KeepsBarrier x.pipeline .resetForSourceChange)
    (hs : (system c).step x (.pipeline .resetForSourceChange) = some (x', evs))
    (h₂ : (system c).Run System.anyAction x' as₂ log₂ y) : SourceBarrier c x' as₂ log₂ y := by
  have hcounted : Counted x :=
    h₁.invariant Counted counted_init fun _ _ _ _ hinv _ hstep => hinv.step hstep
  have hbarred := h₂.induct
    (fun as log t => Barred c x'.pipeline.nextSequence x'.pipeline.sourceGeneration x' as log t)
    (barred_of_reset hcounted hkept hs) fun _ _ _ _ _ _ hinv _ hstep => hinv.step hstep
  exact hbarred.sourceBarrier

/-! ### Pages and a source change -/

/-- A page has been submitted, and a second capture of it is pending. -/
def submitPageTwice : List Action :=
  submitPage ++ [.pipeline (.onCapturedComposition { composeBuffer := some pageBuffer })]

/-- The page is captured once more, and about to be evaluated. -/
def checkPage : List Action := evaluatePage.dropLast

/-- A source change finds a capture of the page pending; the next capture of the page is the first
of the new source. -/
theorem source_barrier_of_page : ∃ log₁ log₂ evs x x' y,
    (system pageSettings).Run System.anyAction {} submitPageTwice log₁ x ∧
      x.pipeline.demandGate.previous ≠ none ∧ x.pipeline.pending ≠ none ∧
      (system pageSettings).step x (.pipeline .resetForSourceChange) = some (x', evs) ∧
      (system pageSettings).Run System.anyAction x' checkPage log₂ y ∧
      y.pipeline.worker.held = some x'.pipeline.nextSequence ∧
      y.pipeline.worker.unchecked = none ∧ SourceBarrier pageSettings x' checkPage log₂ y := by
  have hbefore : ((system pageSettings).exec System.anyAction {} submitPageTwice).any (fun r =>
      decide (r.1.pipeline.demandGate.previous ≠ none ∧ r.1.pipeline.pending ≠ none ∧
        r.1.pipeline.worker.held = none) &&
      ((system pageSettings).step r.1 (.pipeline .resetForSourceChange)).any (fun r' =>
        ((system pageSettings).exec System.anyAction r'.1 checkPage).any fun t =>
          decide (t.1.pipeline.worker.held = some r'.1.pipeline.nextSequence ∧
            t.1.pipeline.worker.unchecked = none))) = true := by
    decide +kernel
  obtain ⟨⟨x, log₁⟩, hx, hholds⟩ := (Option.any_eq_true _ _).mp hbefore
  obtain ⟨hstate, hafter⟩ := (Bool.and_eq_true _ _).mp hholds
  obtain ⟨⟨x', evs⟩, hreset, hafter⟩ := (Option.any_eq_true _ _).mp hafter
  obtain ⟨⟨y, log₂⟩, hy, hchecked⟩ := (Option.any_eq_true _ _).mp hafter
  obtain ⟨hgate, hpending, hheld⟩ := of_decide_eq_true hstate
  obtain ⟨hnew, hpast⟩ := of_decide_eq_true hchecked
  have h₁ : (system pageSettings).Run System.anyAction {} submitPageTwice log₁ x := .of_exec hx
  have h₂ : (system pageSettings).Run System.anyAction x' checkPage log₂ y := .of_exec hy
  have hkept : KeepsBarrier x.pipeline .resetForSourceChange := fun _ hsome => absurd hheld hsome
  exact ⟨log₁, log₂, evs, x, x', y, h₁, hgate, hpending, hreset, h₂, hnew, hpast,
    source_barrier h₁ hkept hreset h₂⟩

theorem passes_of_enqueuedFrame {s : Pipeline} {f : Frame} (h : s.enqueuedFrame = some f) :
    Passes c.toSettings s .enqueue f := by
  unfold Pipeline.enqueuedFrame at h
  split at h
  · next frame hw =>
    split at h
    · obtain rfl := Option.some.inj h
      exact .capture frame hw
    · cases h
  · cases h

/-- A source change that finds the page assembled: the page is passed to the adapter. -/
theorem source_change_passed :
    ¬ ∀ (c : Settings) (as₁ as₂ : List Action) (log₁ log₂ evs : List Event)
      (x x' y : TrackedPipeline), (system c).Run System.anyAction {} as₁ log₁ x →
      x.pipeline.started = true → x.pipeline.stopping = false →
      (system c).step x (.pipeline .resetForSourceChange) = some (x', evs) →
      (system c).Run System.anyAction x' as₂ log₂ y → SourceBarrier c x' as₂ log₂ y := by
  intro hall
  have hassembled :
      ((system pageSettings).exec System.anyAction {} (submitPage.take 9)).any (fun r =>
        decide (r.1.pipeline.started = true ∧ r.1.pipeline.stopping = false) &&
        ((system pageSettings).step r.1 (.pipeline .resetForSourceChange)).any fun r' =>
          r'.1.pipeline.enqueuedFrame.any fun f =>
            decide (f.sequence < r'.1.pipeline.nextSequence)) = true := by
    decide +kernel
  obtain ⟨⟨x, log₁⟩, hx, hholds⟩ := (Option.any_eq_true _ _).mp hassembled
  obtain ⟨hstate, hafter⟩ := (Bool.and_eq_true _ _).mp hholds
  obtain ⟨⟨x', evs⟩, hreset, hframe⟩ := (Option.any_eq_true _ _).mp hafter
  obtain ⟨f, henqueued, hold⟩ := (Option.any_eq_true _ _).mp hframe
  obtain ⟨hstarted, hstopping⟩ := of_decide_eq_true hstate
  have hbarrier := hall pageSettings _ [] log₁ [] evs x x' x'
    (.of_exec hx) hstarted hstopping hreset
    .nil
  have hpassed := hbarrier.passed f (passes_of_enqueuedFrame henqueued)
  exact absurd (of_decide_eq_true hold) (Nat.not_lt_of_le hpassed)

end EinkLab.TrackedPipeline
