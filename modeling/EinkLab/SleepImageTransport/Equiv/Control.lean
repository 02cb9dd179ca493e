import EinkLab.CaptureSession.Equiv.Deferral
import EinkLab.SleepImageTransport.ControlPlane

/-!
# The session and the control plane

`control` commutes with everything that happens to a session: a presentation, a disarm and a
publication are those of `Native` under the conditions that the session's data determine
(`control_presentSleepImage`, `control_disarmSleepCycle`, `control_publishSleepImageCatalog`), and
the pipeline's own steps are evaluations of the latch or nothing (`Own`).  `Coherent` is what makes
this so: the pipeline runs, the session's catalog epoch is that of its pipeline, and a catalog that
waits for the pipeline is valid.
-/

namespace EinkLab

open Transition Pipeline CaptureSession SleepImageManager

namespace SleepImageTransport

variable {c : Settings} {s s' : Pipeline} {m : M3State} {evs : List Pipeline.Event}
  {r : SleepImageCatalogRequest}

/-! ### The pipeline's own steps -/

/-- What a pipeline's own step leaves alone, and what it may do to the latch. -/
structure Own (s s' : Pipeline) : Prop where
  catalog : s'.sleepImageCatalog = s.sleepImageCatalog
  catalogEpoch : s'.sleepImageCatalogEpoch = s.sleepImageCatalogEpoch
  selectedIndex : s'.sleepImageSelectedIndex = s.sleepImageSelectedIndex
  mode : s'.sleepImageMode = s.sleepImageMode
  stopping : s'.stopping = s.stopping
  latch : s'.sleepImageLatch = s.sleepImageLatch ∨
    ∃ (frame : ConvertedFrame OwnedGrayscaleBuffer)
    (selector : Option (Selector OwnedGrayscaleBuffer)),
      s'.sleepImageLatch = (s.sleepImageLatch.evaluate frame selector).latch

theorem own_requestDiagnosticRefresh (s : Pipeline) (mode : DiagnosticRefresh) :
    Own s (s.requestDiagnosticRefresh c mode).2 := by
  unfold requestDiagnosticRefresh
  split_ifs <;> exact ⟨rfl, rfl, rfl, rfl, rfl, Or.inl rfl⟩

theorem own_cancelDiagnosticRefresh (s : Pipeline) (id : Nat) :
    Own s (s.cancelDiagnosticRefresh id) := by
  unfold cancelDiagnosticRefresh
  split_ifs <;> exact ⟨rfl, rfl, rfl, rfl, rfl, Or.inl rfl⟩

theorem own_start (s : Pipeline) : Own s s.start := by
  unfold start
  split_ifs <;> exact ⟨rfl, rfl, rfl, rfl, rfl, Or.inl rfl⟩

theorem own_setEnabled (s : Pipeline) (enabled : Bool) : Own s (s.setEnabled enabled) := by
  unfold setEnabled
  dsimp only
  split_ifs <;> exact ⟨rfl, rfl, rfl, rfl, rfl, Or.inl rfl⟩

theorem own_resetForSourceChange (s : Pipeline) : Own s s.resetForSourceChange := by
  unfold resetForSourceChange
  split_ifs <;> exact ⟨rfl, rfl, rfl, rfl, rfl, Or.inl rfl⟩

theorem own_onCapturedComposition (s : Pipeline) (composition : CapturedComposition) :
    Own s (s.onCapturedComposition composition) := by
  unfold onCapturedComposition
  split_ifs <;> exact ⟨rfl, rfl, rfl, rfl, rfl, Or.inl rfl⟩

theorem own_startThreads (h : s.startThreads = some s') : Own s s' := by
  unfold startThreads at h
  split_ifs at h
  obtain rfl := Option.some.inj h
  exact ⟨rfl, rfl, rfl, rfl, rfl, Or.inl rfl⟩

theorem own_stopAdapter (h : s.stopAdapter = some s') : Own s s' := by
  unfold stopAdapter at h
  split_ifs at h
  obtain rfl := Option.some.inj h
  exact ⟨rfl, rfl, rfl, rfl, rfl, Or.inl rfl⟩

theorem own_dequeue (h : s.dequeue = some s') : Own s s' := by
  unfold dequeue at h
  split at h
  · split at h
    · obtain rfl := Option.some.inj h
      exact ⟨rfl, rfl, rfl, rfl, rfl, Or.inl rfl⟩
    · split at h
      · cases h
      · obtain rfl := Option.some.inj h
        exact ⟨rfl, rfl, rfl, rfl, rfl, Or.inl rfl⟩
  · cases h

theorem own_convert {result : Option Conversion} (h : s.convert result = some s') : Own s s' := by
  unfold convert at h
  split at h
  · split at h
    · obtain rfl := Option.some.inj h
      exact ⟨rfl, rfl, rfl, rfl, rfl, Or.inl rfl⟩
    · obtain rfl := Option.some.inj h
      exact ⟨rfl, rfl, rfl, rfl, rfl, Or.inl rfl⟩
  · cases h

theorem own_conversionFailed (h : s.conversionFailed = some s') : Own s s' := by
  unfold conversionFailed at h
  split at h
  · obtain rfl := Option.some.inj h
    split_ifs <;> exact ⟨rfl, rfl, rfl, rfl, rfl, Or.inl rfl⟩
  · cases h

theorem own_checkSource (h : s.checkSource = some s') : Own s s' := by
  unfold checkSource at h
  split at h
  · obtain rfl := Option.some.inj h
    split_ifs <;> exact ⟨rfl, rfl, rfl, rfl, rfl, Or.inl rfl⟩
  · cases h

/-- The one step that reaches the latch. -/
theorem own_evaluate (h : s.evaluate c = some s') : Own s s' := by
  unfold evaluate at h
  split at h
  · obtain rfl := Option.some.inj h
    exact ⟨rfl, rfl, rfl, rfl, rfl, Or.inr ⟨_, _, rfl⟩⟩
  · cases h

theorem own_hold (h : s.hold = some s') : Own s s' := by
  unfold hold at h
  split at h
  · obtain rfl := Option.some.inj h
    exact ⟨rfl, rfl, rfl, rfl, rfl, Or.inl rfl⟩
  · cases h

theorem own_readRefresh {now : TimePoint} (h : s.readRefresh c now = some s') : Own s s' := by
  unfold readRefresh at h
  split at h
  · split at h
    · cases h
    · obtain rfl := Option.some.inj h
      exact ⟨rfl, rfl, rfl, rfl, rfl, Or.inl rfl⟩
  · cases h

theorem own_enqueue (h : s.enqueue = some s') : Own s s' := by
  unfold enqueue at h
  split at h
  · obtain rfl := Option.some.inj h
    exact ⟨rfl, rfl, rfl, rfl, rfl, Or.inl rfl⟩
  · cases h

theorem own_finish (h : s.finish = some s') : Own s s' := by
  unfold finish at h
  split at h
  · obtain rfl := Option.some.inj h
    exact ⟨rfl, rfl, rfl, rfl, rfl, Or.inl rfl⟩
  · obtain rfl := Option.some.inj h
    exact ⟨rfl, rfl, rfl, rfl, rfl, Or.inl rfl⟩
  · cases h

theorem own_onAdapter {adapter : Option PresentationAdapter} (h : s.onAdapter adapter = some s') :
    Own s s' := by
  obtain ⟨a, -, rfl⟩ := Option.map_eq_some_iff.mp h
  exact ⟨rfl, rfl, rfl, rfl, rfl, Or.inl rfl⟩

theorem own_observe (h : s.observe c = some s') : Own s s' := by
  unfold observe at h
  split at h
  · obtain ⟨adapter, -, rfl⟩ := Option.map_eq_some_iff.mp h
    unfold onEngineSubmission
    dsimp only
    split_ifs <;> exact ⟨rfl, rfl, rfl, rfl, rfl, Or.inl rfl⟩
  · cases h

theorem own_of_step {a : Pipeline.Action} (ha : Endpoint.isOwnStep a = true)
    (h : s.step c a = some (s', evs)) : Own s s' := by
  have hsome : ∀ {r : Pipeline} {es : List Pipeline.Event}, some (r, es) = some (s', evs) →
      Own s r → Own s s' := fun hr => System.result_of_some (P := fun t _ => Own s t) hr
  have hmap : ∀ {r : Option Pipeline} {es : List Pipeline.Event}, r.map (·, es) = some (s', evs) →
      (∀ s', r = some s' → Own s s') → Own s s' :=
    fun hr => System.result_of_map (P := fun t _ => Own s t) hr
  cases a with
  | requestDiagnosticRefresh mode =>
    exact hsome h (own_requestDiagnosticRefresh s mode)
  | cancelDiagnosticRefresh id => exact hsome h (own_cancelDiagnosticRefresh s id)
  | start => exact hsome h (own_start s)
  | startThreads => exact hmap h fun _ => own_startThreads
  | stop => cases ha
  | stopAdapter => exact hmap h fun _ => own_stopAdapter
  | setEnabled enabled => exact hsome h (own_setEnabled s enabled)
  | resetForSourceChange => exact hsome h (own_resetForSourceChange s)
  | publishSleepImageCatalog => cases ha
  | armSleepCycle => cases ha
  | presentSleepImage => cases ha
  | disarmSleepCycle => cases ha
  | onCapturedComposition composition =>
    exact hsome h (own_onCapturedComposition s composition)
  | dequeue => exact hmap h fun _ => own_dequeue
  | convert result => exact hmap h fun _ => own_convert
  | conversionFailed => exact hmap h fun _ => own_conversionFailed
  | checkSource => exact hmap h fun _ => own_checkSource
  | evaluate => exact hmap h fun _ => own_evaluate
  | hold => exact hmap h fun _ => own_hold
  | readRefresh now => exact hmap h fun _ => own_readRefresh
  | enqueue => exact hmap h fun _ => own_enqueue
  | finish => exact hmap h fun _ => own_finish
  | wake interval now => exact hmap h fun _ => own_onAdapter
  | rewake now => exact hmap h fun _ => own_onAdapter
  | submitStart now => exact hmap h fun _ => own_onAdapter
  | submitReturn accepted now => exact hmap h fun _ => own_onAdapter
  | record => exact hmap h fun _ => own_onAdapter
  | observe => exact hmap h fun _ => own_observe

/-! ### The calls of a pipeline -/

/-- Why a presentation cannot be composed. -/
def compositionFailure : SleepImagePresentationResult → CompositionFailure
  | .rejectedBackground => .background
  | .rejectedAlpha => .alpha
  | _ => .catalog

/-- What a presentation meets on this pipeline. -/
def presentConditions (c : Settings) (s : Pipeline) (epoch : Nat) (now : TimePoint) :
    NativeConditions where
  available := s.started && !s.stopping && s.enabled
  uncomposed :=
    match s.prepareSleepImage c epoch with
    | .error result => some (compositionFailure result)
    | .ok _ => none
  enqueued :=
    match s.prepareSleepImage c epoch with
    | .error _ => true
    | .ok image => s.adapter.accepts (s.sleepImageFrame c epoch now image)

theorem compositionFailure_result {epoch : Nat} {result : SleepImagePresentationResult}
    (h : s.prepareSleepImage c epoch = .error result) :
    (compositionFailure result).result = result := by
  have hcompose : ∀ {candidate : SleepImageCandidate OwnedGrayscaleBuffer}
      {buffer : OwnedGrayscaleBuffer} {alpha : List UInt8},
      s.composePresentation c candidate buffer alpha = .error result →
        (compositionFailure result).result = result := by
    intro candidate buffer alpha h
    unfold composePresentation at h
    dsimp only at h
    split at h
    · split at h
      · obtain rfl := Except.error.inj h
        rfl
      · obtain rfl := Except.error.inj h
        rfl
      · cases h
    · split at h
      · obtain rfl := Except.error.inj h
        rfl
      · cases h
  unfold prepareSleepImage at h
  split at h
  · obtain rfl := Except.error.inj h
    rfl
  · split at h
    · obtain rfl := Except.error.inj h
      rfl
    · dsimp only at h
      split at h
      · next buffer alpha _ _ =>
        split at h
        · obtain rfl := Except.error.inj h
          rfl
        · cases hplanes : s.composePresentation c _ buffer alpha with
          | error result' =>
            rw [hplanes] at h
            obtain rfl := Except.error.inj h
            exact hcompose hplanes
          | ok planes =>
            rw [hplanes] at h
            cases h
      · obtain rfl := Except.error.inj h
        rfl

theorem control_pipeline_presentSleepImage (c : Settings) (s : Pipeline) (epoch : Nat)
    (now : TimePoint) :
    (controlPipeline s).presentSleepImage epoch (presentConditions c s epoch now) =
      ((s.presentSleepImage c epoch now).1, controlPipeline
        (s.presentSleepImage c epoch now).2) := by
  unfold Pipeline.presentSleepImage NativePipeline.presentSleepImage
  by_cases hzero : epoch = 0
  · rw [if_pos hzero, if_pos hzero]
  rw [if_neg hzero, if_neg hzero]
  have havailable : (!(presentConditions c s epoch now).available) =
      (!s.started || s.stopping || !s.enabled) := by
    show (!(s.started && !s.stopping && s.enabled)) = _
    cases s.started <;> cases s.stopping <;> cases s.enabled <;> rfl
  rw [havailable]
  by_cases hunavailable : (!s.started || s.stopping || !s.enabled) = true
  · rw [if_pos hunavailable, if_pos hunavailable]
  rw [if_neg hunavailable, if_neg hunavailable]
  by_cases hcatalog : (!(controlPipeline s).hasCatalog ||
      decide (epoch ≠ (controlPipeline s).catalogEpoch)) = true
  · rw [if_pos hcatalog]
    have hprepare : s.prepareSleepImage c epoch = .error .rejectedCatalog := by
      unfold prepareSleepImage
      cases hheld : s.sleepImageCatalog with
      | none => rfl
      | some catalog =>
        have hne : epoch ≠ s.sleepImageCatalogEpoch := by
          simpa [controlPipeline, hheld] using hcatalog
        dsimp only
        rw [if_pos hne]
    rw [hprepare]
  rw [if_neg hcatalog]
  cases hprepare : s.prepareSleepImage c epoch with
  | error result =>
    have hconditions : (presentConditions c s epoch now).uncomposed =
        some (compositionFailure result) := by
      unfold presentConditions
      rw [hprepare]
    rw [hconditions]
    exact Prod.ext (compositionFailure_result hprepare) rfl
  | ok image =>
    have hcomposed : (presentConditions c s epoch now).uncomposed = none := by
      unfold presentConditions
      rw [hprepare]
    have henqueued : (presentConditions c s epoch now).enqueued =
        s.adapter.accepts (s.sleepImageFrame c epoch now image) := by
      unfold presentConditions
      rw [hprepare]
    rw [hcomposed, henqueued]
    dsimp only [controlPipeline]
    split
    · next harm =>
      refine Prod.ext ?_ rfl
      cases (s.sleepImageLatch.armSleepCycle epoch).1 <;> rfl
    split
    · rfl
    · unfold enqueueSleepImage
      dsimp only
      cases haccepts : s.adapter.accepts (s.sleepImageFrame c epoch now image) with
      | true =>
        -- the frame does not depend on the latch
        rw [if_neg (by decide), if_pos]
        exact haccepts
      | false =>
        rw [if_pos (by decide), if_neg]
        exact fun h => Bool.noConfusion (haccepts.symm.trans h)

theorem control_pipeline_disarmSleepCycle (s : Pipeline) (epoch : Nat) :
    (controlPipeline s).disarmSleepCycle epoch =
      ((s.disarmSleepCycle epoch).1, controlPipeline (s.disarmSleepCycle epoch).2) := by
  obtain ⟨hview, -⟩ := disarmSleepCycle_view s epoch
  have hcatalog := congrArg SleepView.catalog hview
  have hepoch := congrArg SleepView.catalogEpoch hview
  have hlatch := congrArg SleepView.latch hview
  refine Prod.ext (disarmSleepCycle_result s epoch).symm ?_
  show NativePipeline.mk _ _ _ = NativePipeline.mk _ _ _
  rw [NativePipeline.mk.injEq]
  exact ⟨hepoch.symm, congrArg Option.isSome hcatalog.symm, hlatch.symm⟩

/-- A presentation changes neither the catalog nor that the pipeline runs. -/
theorem presentSleepImage_kept (c : Settings) (s : Pipeline) (epoch : Nat) (now : TimePoint) :
    let s' := (s.presentSleepImage c epoch now).2
    sleepView s' = { sleepView s with latch := s'.sleepImageLatch } ∧ s'.stopping = s.stopping := by
  unfold Pipeline.presentSleepImage
  split
  · exact ⟨rfl, rfl⟩
  split
  · exact ⟨rfl, rfl⟩
  split
  · exact ⟨rfl, rfl⟩
  · dsimp only
    split
    · exact ⟨rfl, rfl⟩
    split
    · exact ⟨rfl, rfl⟩
    · unfold enqueueSleepImage
      dsimp only
      split <;> exact ⟨rfl, rfl⟩

/-! ### The session -/

/-- What is true of a session that is reached through its endpoint. -/
structure Coherent (c : Settings) (m : M3State) : Prop where
  unarmed : m.pendingSleepCycleArm = none
  running : ∀ s, m.pipeline = some s → s.stopping = false
  catalogEpoch : ∀ s, m.pipeline = some s → s.sleepImageCatalogEpoch = m.sleepImageCatalogEpoch
  kept : ∀ r, m.pipeline = none → m.pendingSleepImageCatalog = some r →
    r.valid c = true ∧ r.epoch = m.sleepImageCatalogEpoch
  fresh : m.pipeline = none → m.pendingSleepImageCatalog = none → m.sleepImageCatalogEpoch = 0

theorem coherent_init (c : Settings) : Coherent c {} where
  unarmed := rfl
  running _ h := nomatch h
  catalogEpoch _ h := nomatch h
  kept _ _ h := nomatch h
  fresh _ _ := rfl

/-- The catalog that a pipeline presents. -/
def heldPipeline (s : Pipeline) : Option HeldCatalog :=
  s.sleepImageCatalog.map fun catalog =>
    ⟨s.sleepImageCatalogEpoch, catalog.snapshot, s.sleepImageSelectedIndex, s.sleepImageMode⟩

theorem held_pipeline (h : m.pipeline = some s) : held m = heldPipeline s := by
  unfold held
  rw [h]
  rfl

/-- The pipeline has moved on, with the catalog that it had. -/
theorem Coherent.moved (h : Coherent c m) (hs : m.pipeline = some s)
    (hstopping : s'.stopping = false)
    (hepoch : s'.sleepImageCatalogEpoch = s.sleepImageCatalogEpoch) :
    Coherent c { m with pipeline := some s' } where
  unarmed := h.unarmed
  running t ht := by
    obtain rfl := Option.some.inj ht
    exact hstopping
  catalogEpoch t ht := by
    obtain rfl := Option.some.inj ht
    exact hepoch.trans (h.catalogEpoch s hs)
  kept _ hnone _ := nomatch hnone
  fresh hnone _ := nomatch hnone

theorem heldPipeline_of_view {latch : SleepImageLatch}
    (hview : sleepView s' = { sleepView s with latch := latch }) :
    heldPipeline s' = heldPipeline s := by
  have hcatalog : s'.sleepImageCatalog = s.sleepImageCatalog := congrArg SleepView.catalog hview
  have hepoch : s'.sleepImageCatalogEpoch = s.sleepImageCatalogEpoch :=
    congrArg SleepView.catalogEpoch hview
  have hindex : s'.sleepImageSelectedIndex = s.sleepImageSelectedIndex :=
    congrArg SleepView.selectedIndex hview
  have hmode : s'.sleepImageMode = s.sleepImageMode := congrArg SleepView.mode hview
  unfold heldPipeline
  rw [hcatalog, hepoch, hindex, hmode]

/-! ### A presentation -/

/-- What a presentation meets on this session. -/
def conditions (c : Settings) (m : M3State) (epoch : Nat) (now : TimePoint) : NativeConditions :=
  match m.pipeline with
  | some s => presentConditions c s epoch now
  | none => {}

theorem control_presentSleepImage (c : Settings) (m : M3State) (epoch : Nat) (now : TimePoint) :
    (control m).presentSleepImage epoch (conditions c m epoch now) =
      ((m.presentSleepImage c epoch now).1, control (m.presentSleepImage c epoch now).2) := by
  unfold M3State.presentSleepImage Native.presentSleepImage conditions
  by_cases hzero : epoch = 0
  · rw [if_pos hzero, if_pos hzero]
  rw [if_neg hzero, if_neg hzero]
  by_cases hepoch : epoch ≠ m.sleepImageCatalogEpoch
  · rw [if_pos hepoch, if_pos]
    exact hepoch
  rw [if_neg hepoch, if_neg (show ¬ epoch ≠ (control m).catalogEpoch from hepoch)]
  cases hs : m.pipeline with
  | none =>
    have hnone : (control m).pipeline = none := congrArg (Option.map controlPipeline) hs
    rw [hnone]
  | some s =>
    have hsome : (control m).pipeline = some (controlPipeline s) :=
      congrArg (Option.map controlPipeline) hs
    rw [hsome]
    dsimp only
    rw [control_pipeline_presentSleepImage]
    rfl

theorem Coherent.presentSleepImage (h : Coherent c m) (epoch : Nat) (now : TimePoint) :
    Coherent c (m.presentSleepImage c epoch now).2 ∧
      held (m.presentSleepImage c epoch now).2 = held m := by
  unfold M3State.presentSleepImage
  split
  · exact ⟨h, rfl⟩
  split
  · exact ⟨h, rfl⟩
  cases hs : m.pipeline with
  | none => exact ⟨h, rfl⟩
  | some s =>
    obtain ⟨hview, hstopping⟩ := presentSleepImage_kept c s epoch now
    refine ⟨h.moved hs (hstopping.trans (h.running s hs))
      (congrArg SleepView.catalogEpoch hview), ?_⟩
    rw [held_pipeline hs, held_pipeline rfl]
    exact heldPipeline_of_view hview

/-! ### A disarm -/

theorem countDisarm_control (m : M3State) (result : SleepImageDisarmResult) :
    control (m.countDisarm result) = control m := by
  unfold M3State.countDisarm
  dsimp only
  split <;> rfl

theorem Coherent.countDisarm (h : Coherent c m) (result : SleepImageDisarmResult) :
    Coherent c (m.countDisarm result) ∧ held (m.countDisarm result) = held m := by
  unfold M3State.countDisarm
  dsimp only
  split <;> exact ⟨⟨h.unarmed, h.running, h.catalogEpoch, h.kept, h.fresh⟩, rfl⟩

theorem control_disarmSleepCycle (h : Coherent c m) (epoch : Nat) :
    (control m).disarmSleepCycle epoch =
      ((m.disarmSleepCycle epoch).1, control (m.disarmSleepCycle epoch).2) := by
  unfold M3State.disarmSleepCycle Native.disarmSleepCycle
  by_cases hzero : epoch = 0
  · rw [if_pos hzero, if_pos hzero]
  rw [if_neg hzero, if_neg hzero]
  cases hs : m.pipeline with
  | none =>
    have hnone : (control m).pipeline = none := congrArg (Option.map controlPipeline) hs
    rw [hnone]
    dsimp only
    -- nothing has been armed that could be disarmed
    rw [h.unarmed, if_neg nofun, if_neg (by decide), countDisarm_control]
  | some s =>
    have hsome : (control m).pipeline = some (controlPipeline s) :=
      congrArg (Option.map controlPipeline) hs
    rw [hsome]
    dsimp only
    rw [control_pipeline_disarmSleepCycle, countDisarm_control]
    rfl

theorem Coherent.disarmSleepCycle (h : Coherent c m) (epoch : Nat) :
    Coherent c (m.disarmSleepCycle epoch).2 ∧ held (m.disarmSleepCycle epoch).2 = held m := by
  unfold M3State.disarmSleepCycle
  split
  · exact ⟨h, rfl⟩
  cases hs : m.pipeline with
  | none =>
    dsimp only
    rw [h.unarmed, if_neg nofun, if_neg (by decide)]
    exact h.countDisarm .rejectedInactive
  | some s =>
    obtain ⟨hview, hstopping⟩ := disarmSleepCycle_view s epoch
    have hmoved := h.moved hs (hstopping.trans (h.running s hs))
      (congrArg SleepView.catalogEpoch hview)
    obtain ⟨hcoherent, hheld⟩ := hmoved.countDisarm (s.disarmSleepCycle epoch).1
    refine ⟨hcoherent, hheld.trans ?_⟩
    rw [held_pipeline hs, held_pipeline rfl]
    exact heldPipeline_of_view hview

/-! ### A publication -/

theorem held_countPublication (m : M3State) (result : EinkSleepImageCatalog.PublishResult)
    (epoch : Nat) : held (m.countPublication result epoch) = held m := by
  unfold M3State.countPublication
  split <;> rfl

theorem Coherent.countRejected (h : Coherent c m) (epoch : Nat) :
    Coherent c (m.countPublication .rejectedSelection epoch) :=
  ⟨h.unarmed, h.running, h.catalogEpoch, h.kept, h.fresh⟩

/-- A valid catalog is published exactly if its epoch is above that of the session, which then holds
it; the control plane knows its epoch. -/
theorem Coherent.publishSleepImageCatalog (h : Coherent c m) (hr : r.valid c = true) :
    (m.publishSleepImageCatalog c r).1 =
        (if r.epoch ≤ m.sleepImageCatalogEpoch then .rejectedSelection else .accepted) ∧
      Coherent c (m.publishSleepImageCatalog c r).2 ∧
      held (m.publishSleepImageCatalog c r).2 =
        (if r.epoch ≤ m.sleepImageCatalogEpoch then held m
        else some ⟨r.epoch, r.entries, r.selectedIndex, r.mode⟩) ∧
      (control m).publishSleepImageCatalog r.epoch {} =
        (decide ((m.publishSleepImageCatalog c r).1 = .accepted),
          control (m.publishSleepImageCatalog c r).2) := by
  have hne : r.epoch ≠ 0 := by
    simp only [SleepImageCatalogRequest.valid, Bool.and_eq_true, decide_eq_true_eq] at hr
    exact hr.1.1.1.1
  unfold Native.publishSleepImageCatalog
  rw [if_neg hne, if_neg (show ¬ (!({} : NativeConditions).catalogValid) = true by decide)]
  cases hs : m.pipeline with
  | none =>
    have hnone : (control m).pipeline = none := congrArg (Option.map controlPipeline) hs
    -- without a pipeline the request waits for the one that is started
    rw [publish_valid_deferred hr hs, hnone]
    by_cases hstale : r.epoch ≤ m.sleepImageCatalogEpoch
    · rw [if_pos hstale, if_pos (show r.epoch ≤ (control m).catalogEpoch from hstale)]
      simp only [hstale, if_true, true_and]
      exact ⟨h.countRejected _, rfl, rfl⟩
    · rw [if_neg hstale, if_neg (show ¬ r.epoch ≤ (control m).catalogEpoch from hstale)]
      simp only [hstale, if_false, true_and]
      refine ⟨⟨h.unarmed, h.running, fun s hpipeline => ?_, fun r' _ hpending => ?_,
        fun _ hpending => absurd hpending (Option.some_ne_none r)⟩, ?_, ?_⟩
      · cases hs.symm.trans hpipeline
      · obtain rfl := Option.some.inj hpending
        exact ⟨hr, rfl⟩
      · rw [held_countPublication]
        unfold held
        rw [show ({ m with pendingSleepImageCatalog := some r } : M3State).pipeline = none from hs]
        rfl
      · refine Prod.ext rfl ?_
        show Native.mk _ _ _ = Native.mk _ _ _
        rw [Native.mk.injEq]
        refine ⟨rfl, rfl, ?_⟩
        exact congrArg (Option.map controlPipeline) hs.symm
  | some s =>
    have hsome : (control m).pipeline = some (controlPipeline s) :=
      congrArg (Option.map controlPipeline) hs
    have hepoch := h.catalogEpoch s hs
    -- a running pipeline takes it, and its epoch is that of the session
    rw [publish_valid_passed hr hs (h.running s hs) hepoch.symm, hsome, ← hepoch]
    by_cases hstale : r.epoch ≤ s.sleepImageCatalogEpoch
    · have hstale' : r.epoch ≤ (control m).catalogEpoch := by
        show r.epoch ≤ m.sleepImageCatalogEpoch
        rwa [← hepoch]
      rw [if_pos hstale, if_pos hstale']
      simp only [hstale, if_true, true_and]
      exact ⟨h.countRejected _, rfl, rfl⟩
    · have hstale' : ¬ r.epoch ≤ (control m).catalogEpoch := by
        show ¬ r.epoch ≤ m.sleepImageCatalogEpoch
        rwa [← hepoch]
      rw [if_neg hstale, if_neg hstale']
      simp only [hstale, if_false, true_and]
      refine ⟨⟨h.unarmed, fun t ht => ?_, fun t ht => ?_,
        fun _ hnone _ => absurd hnone (Option.some_ne_none _),
        fun hnone _ => absurd hnone (Option.some_ne_none _)⟩, rfl, ?_⟩
      · obtain rfl := Option.some.inj ht
        exact h.running s hs
      · obtain rfl := Option.some.inj ht
        rfl
      · have hpublish : (controlPipeline s).publishSleepImageCatalog r.epoch {} =
            (true, controlPipeline (install s r)) := by
          unfold NativePipeline.publishSleepImageCatalog
          rw [if_neg hne, if_neg (by decide),
            if_neg (show ¬ r.epoch ≤ (controlPipeline s).catalogEpoch from hstale)]
          rfl
        rw [hpublish]
        rfl

/-! ### The start of the pipeline -/

/-- The pipeline that is started holds the catalog that waited for it. -/
theorem replayed_spec (h : Coherent c m) (hs : m.pipeline = none) :
    (m.replayed c).stopping = false ∧
      (m.replayed c).sleepImageCatalogEpoch = m.sleepImageCatalogEpoch ∧
      heldPipeline (m.replayed c) = held m ∧ (m.replayed c).sleepImageLatch = {} := by
  have hheld : held m = m.pendingSleepImageCatalog.map fun r =>
      ⟨r.epoch, r.entries, r.selectedIndex, r.mode⟩ := by
    unfold held
    rw [hs]
  rw [replayed_eq, h.unarmed, hheld]
  cases hpending : m.pendingSleepImageCatalog with
  | none => exact ⟨rfl, (h.fresh hs hpending).symm, rfl, rfl⟩
  | some r =>
    obtain ⟨hvalid, hepoch⟩ := h.kept r hs hpending
    have hne : ¬ r.epoch ≤ 0 := by
      simp only [SleepImageCatalogRequest.valid, Bool.and_eq_true, decide_eq_true_eq] at hvalid
      have hzero := hvalid.1.1.1.1
      omega
    have hpublish : ({} : Pipeline).publishSleepImageCatalog c r.epoch r.width r.height r.entries
        r.selectedIndex r.mode = (.accepted, install {} r) :=
      (publish_valid_pipeline hvalid rfl).trans (if_neg hne)
    simp only [Option.elim_some, Option.elim_none, hpublish]
    exact ⟨rfl, hepoch, rfl, rfl⟩

theorem Coherent.maybeStartM3 (h : Coherent c m) :
    Coherent c (m.maybeStartM3 c) ∧ held (m.maybeStartM3 c) = held m ∧
      (control m).maybeStartM3 = control (m.maybeStartM3 c) := by
  unfold M3State.maybeStartM3 Native.maybeStartM3
  cases hs : m.pipeline with
  | some s =>
    have hsome : (control m).pipeline = some (controlPipeline s) :=
      congrArg (Option.map controlPipeline) hs
    rw [hsome, if_pos (show (some s).isSome = true from rfl)]
    exact ⟨h, rfl, rfl⟩
  | none =>
    have hnone : (control m).pipeline = none := congrArg (Option.map controlPipeline) hs
    -- the new pipeline is given what waited for it; no arm was among it
    obtain ⟨hstopping, hepoch, hheld, hlatch⟩ := replayed_spec h hs
    rw [hnone, if_neg (show ¬ (none : Option Pipeline).isSome = true by decide)]
    refine ⟨⟨rfl, fun t ht => ?_, fun t ht => ?_,
      fun _ hnone _ => absurd hnone (Option.some_ne_none _),
      fun hnone _ => absurd hnone (Option.some_ne_none _)⟩, hheld, ?_⟩
    · obtain rfl := Option.some.inj ht
      exact hstopping
    · obtain rfl := Option.some.inj ht
      exact hepoch
    · show Native.mk _ _ _ = Native.mk _ _ _
      rw [Native.mk.injEq]
      refine ⟨rfl, rfl, congrArg some ?_⟩
      have hcatalog : controlPipeline (m.replayed c) =
          ⟨m.sleepImageCatalogEpoch, (held m).isSome, {}⟩ := by
        unfold controlPipeline
        rw [hepoch, hlatch, ← hheld, heldPipeline, Option.isSome_map]
      rw [hcatalog]
      have hpendingHeld : held m = m.pendingSleepImageCatalog.map fun r =>
          ⟨r.epoch, r.entries, r.selectedIndex, r.mode⟩ := by
        unfold held
        rw [hs]
      rw [hpendingHeld, Option.isSome_map]
      have hwaiting : (control m).pendingCatalog =
          m.pendingSleepImageCatalog.map SleepImageCatalogRequest.epoch := rfl
      rw [hwaiting]
      cases hpending : m.pendingSleepImageCatalog with
      | none =>
        rw [h.fresh hs hpending]
        rfl
      | some r =>
        obtain ⟨hvalid, hepoch'⟩ := h.kept r hs hpending
        have hne : r.epoch ≠ 0 := by
          simp only [SleepImageCatalogRequest.valid, Bool.and_eq_true, decide_eq_true_eq] at hvalid
          exact hvalid.1.1.1.1
        show (({} : NativePipeline).publishSleepImageCatalog r.epoch {}).2 = _
        unfold NativePipeline.publishSleepImageCatalog
        rw [if_neg hne, if_neg (by decide), if_neg (show ¬ r.epoch ≤ 0 by omega), hepoch']
        rfl

end SleepImageTransport

end EinkLab
