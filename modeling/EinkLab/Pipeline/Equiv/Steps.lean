import EinkLab.Pipeline.Basic
import EinkLab.SleepImage.Equiv.Latch

/-!
# What a step of the pipeline does to its adapter and its worker

`steps_of_step`: the adapter is left alone or takes one of its own steps (`AdapterStep`), and what
it is given to enqueue is a sleep image's frame or the frame that the worker has assembled
(`Offers`).  `WorkerStep` says how the worker comes to an evaluated capture and to an assembled
frame.  `SleepKept` is for the methods that leave the state of the sleep image alone.
-/

namespace EinkLab.Pipeline

open Transition

variable {c : Settings} {s s' : Pipeline} {a : Action} {evs : List Event}

/-- A frame the pipeline gives to the adapter. -/
inductive Offers (c : Settings) (s : Pipeline) (a : Action) : Frame → Prop
  | sleepImage (epoch : Nat) (now : TimePoint) (image : Int × Int × List UInt8 × List UInt8)
      (hepoch : epoch ≠ 0) : Offers c s a (s.sleepImageFrame c epoch now image)
  | capture (f : Frame) (ha : a = .enqueue) (h : s.worker = .assembled f) :
      Offers c s a (s.finalFrame f)

inductive AdapterStep (c : Settings) (s : Pipeline) (a : Action) (a' : PresentationAdapter) : Prop
  | same (h : a' = s.adapter)
  | stepped (act : PresentationAdapter.Action) (evs : List PresentationAdapter.Event)
      (hs : s.adapter.step act = some (a', evs))
      (henqueue : ∀ f, act = .enqueue f → Offers c s a f)

/-- The signature of a converted capture. -/
def signature (c : Settings) (s : Pipeline) (conversion : Conversion) : FrameSignature :=
  ⟨if c.profile.hasColorCfa then conversion.rgbSignature
    else (s.grayscaleTracker.update conversion.grayscale).1,
    conversion.grayscale.byteCount, conversion.grayscale.width, conversion.grayscale.height⟩

/-- How the worker's phase changes. -/
inductive WorkerStep (c : Settings) (s : Pipeline) (a : Action) (w' : WorkerPhase) : Prop
  | same (h : w' = s.worker)
  | plain (hevaluated : ∀ job f decision epoch demand, w' ≠ .evaluated job f decision epoch demand)
      (hassembled : ∀ f, w' ≠ .assembled f)
  | evaluated (job : Job) (conversion : Conversion) (demand : DemandDecision) (ha : a = .evaluate)
      (hdemand : demand = (s.demandGate.evaluate (signature c s conversion)).1)
      (hw : s.worker = .checked job conversion)
      (h : w' = .evaluated job
        (s.sleepImageLatch.evaluateFrame (convertedFrame c job conversion.grayscale)
          s.sleepSelector).2.1
        (s.sleepImageLatch.evaluateFrame (convertedFrame c job conversion.grayscale)
          s.sleepSelector).2.2
        (s.sleepImageLatch.evaluateFrame (convertedFrame c job conversion.grayscale)
          s.sleepSelector).1.activeEpoch demand)
  | assembled (job : Job) (f : Frame) (decision : SleepImageDecision) (epoch : Nat)
      (demand : DemandDecision) (refresh : DiagnosticRefresh × Nat) (now : TimePoint)
      (ha : a = .readRefresh now) (hkept : decision ≠ .suppress)
      (hleaves : decision = .replace ∨ demand ≠ .unchanged ∨ refresh.2 ≠ 0)
      (hrefresh : refresh.2 ≠ 0 → s.sleepImageLatch.activeEpoch = 0)
      (hw : s.worker = .evaluated job f decision epoch demand)
      (h : w' = .assembled (captureFrame c job f decision epoch refresh now))

/-- The method leaves the adapter and the worker alone. -/
def Detached (s s' : Pipeline) : Prop := s'.adapter = s.adapter ∧ s'.worker = s.worker

theorem requestDiagnosticRefresh_detached (s : Pipeline) (mode : DiagnosticRefresh) :
    Detached s (s.requestDiagnosticRefresh c mode).2 := by
  unfold requestDiagnosticRefresh
  split_ifs <;> exact ⟨rfl, rfl⟩

theorem cancelDiagnosticRefresh_detached (s : Pipeline) (id : Nat) :
    Detached s (s.cancelDiagnosticRefresh id) := by
  unfold cancelDiagnosticRefresh
  split_ifs <;> exact ⟨rfl, rfl⟩

theorem publishSleepImageCatalog_detached (s : Pipeline) (epoch : Nat) (width height : Int)
    (entries : List EinkSleepImageCatalog.Entry) (selectedIndex : Nat)
    (mode : SleepImagePresentationMode) :
    Detached s (s.publishSleepImageCatalog c epoch width height entries selectedIndex mode).2 := by
  unfold publishSleepImageCatalog
  split
  · exact ⟨rfl, rfl⟩
  split
  · exact ⟨rfl, rfl⟩
  split
  · split_ifs <;> exact ⟨rfl, rfl⟩
  · exact ⟨rfl, rfl⟩

theorem onCapturedComposition_detached (s : Pipeline) (composition : CapturedComposition) :
    Detached s (s.onCapturedComposition composition) := by
  unfold onCapturedComposition
  split_ifs <;> exact ⟨rfl, rfl⟩

/-! ### The methods that reach the adapter -/

/-- The adapter's pending request is cancelled. -/
theorem adapterStep_cancelPending (c : Settings) (s : Pipeline) (a : Action) :
    AdapterStep c s a s.adapter.cancelPendingDiagnosticRefresh.2 :=
  .stepped .cancelPendingDiagnosticRefresh [] rfl (by simp)

theorem setEnabled_adapterStep (s : Pipeline) (enabled : Bool) :
    AdapterStep c s (.setEnabled enabled) (s.setEnabled enabled).adapter ∧
      (s.setEnabled enabled).worker = s.worker := by
  unfold setEnabled
  split
  · cases enabled with
    | false => exact ⟨adapterStep_cancelPending c s _, rfl⟩
    | true => exact ⟨.same rfl, rfl⟩
  · exact ⟨.same rfl, rfl⟩

theorem armSleepCycle_adapterStep (s : Pipeline) (epoch : Nat) :
    AdapterStep c s (.armSleepCycle epoch) (s.armSleepCycle epoch).2.adapter ∧
      (s.armSleepCycle epoch).2.worker = s.worker := by
  unfold armSleepCycle
  dsimp only
  split_ifs
  · exact ⟨adapterStep_cancelPending c s _, rfl⟩
  · exact ⟨.same rfl, rfl⟩
  · exact ⟨.same rfl, rfl⟩

theorem presentSleepImage_adapterStep (s : Pipeline) (epoch : Nat) (now : TimePoint) :
    AdapterStep c s (.presentSleepImage epoch now) (s.presentSleepImage c epoch now).2.adapter ∧
      (s.presentSleepImage c epoch now).2.worker = s.worker := by
  unfold presentSleepImage
  split
  · exact ⟨.same rfl, rfl⟩
  next hepoch =>
  split
  · exact ⟨.same rfl, rfl⟩
  split
  · exact ⟨.same rfl, rfl⟩
  · next image _ =>
    unfold enqueueSleepImage
    dsimp only
    split_ifs
    · exact ⟨.same rfl, rfl⟩
    · exact ⟨.same rfl, rfl⟩
    · refine ⟨.stepped (.enqueue (s.sleepImageFrame c epoch now image)) _ rfl ?_, rfl⟩
      intro f hf
      obtain rfl := PresentationAdapter.Action.enqueue.inj hf
      exact .sleepImage epoch now image hepoch
    · exact ⟨.same rfl, rfl⟩

theorem disarmSleepCycle_adapterStep (s : Pipeline) (epoch : Nat) :
    AdapterStep c s (.disarmSleepCycle epoch) (s.disarmSleepCycle epoch).2.adapter ∧
      (s.disarmSleepCycle epoch).2.worker = s.worker := by
  unfold disarmSleepCycle
  dsimp only
  split_ifs
  · exact ⟨.stepped (.cancelPendingSleepImage epoch) _ rfl (by simp), rfl⟩
  · exact ⟨.same rfl, rfl⟩

theorem onEngineSubmission_detached (s : Pipeline) (f : Frame) (accepted : Bool) :
    Detached s (s.onEngineSubmission c f accepted) := by
  unfold onEngineSubmission
  dsimp only
  split_ifs <;> exact ⟨rfl, rfl⟩

/-! ### The worker's steps -/

theorem dequeue_steps (h : s.dequeue = some s') :
    s'.adapter = s.adapter ∧ WorkerStep c s a s'.worker := by
  unfold dequeue at h
  split at h
  · split at h
    · obtain rfl := Option.some.inj h
      exact ⟨rfl, .plain (by simp) (by simp)⟩
    · split at h
      · cases h
      · obtain rfl := Option.some.inj h
        exact ⟨rfl, .plain (by simp) (by simp)⟩
  · cases h

theorem convert_steps {result : Option Conversion} (h : s.convert result = some s') :
    s'.adapter = s.adapter ∧ WorkerStep c s a s'.worker := by
  unfold convert at h
  split at h
  · split at h
    · obtain rfl := Option.some.inj h
      exact ⟨rfl, .plain (by simp) (by simp)⟩
    · obtain rfl := Option.some.inj h
      exact ⟨rfl, .plain (by simp) (by simp)⟩
  · cases h

theorem conversionFailed_steps (h : s.conversionFailed = some s') :
    s'.adapter = s.adapter ∧ WorkerStep c s a s'.worker := by
  unfold conversionFailed at h
  split at h
  · dsimp only at h
    split at h
    · obtain rfl := Option.some.inj h
      exact ⟨rfl, .plain (by simp) (by simp)⟩
    · obtain rfl := Option.some.inj h
      exact ⟨rfl, .plain (by simp) (by simp)⟩
  · cases h

theorem checkSource_steps (h : s.checkSource = some s') :
    s'.adapter = s.adapter ∧ WorkerStep c s a s'.worker := by
  unfold checkSource at h
  split at h
  · split at h
    · obtain rfl := Option.some.inj h
      exact ⟨rfl, .plain (by simp) (by simp)⟩
    · obtain rfl := Option.some.inj h
      exact ⟨rfl, .plain (by simp) (by simp)⟩
  · cases h

theorem evaluate_steps (h : s.evaluate c = some s') :
    s'.adapter = s.adapter ∧ WorkerStep c s .evaluate s'.worker := by
  unfold evaluate at h
  split at h
  · next job conversion hw =>
    obtain rfl := Option.some.inj h
    refine ⟨rfl, .evaluated job conversion _ rfl ?_ hw rfl⟩
    unfold signature
    cases c.profile.hasColorCfa <;> rfl
  · cases h

theorem hold_steps (h : s.hold = some s') :
    s'.adapter = s.adapter ∧ WorkerStep c s a s'.worker := by
  unfold hold at h
  split at h
  · obtain rfl := Option.some.inj h
    exact ⟨rfl, .plain (by simp) (by simp)⟩
  · cases h

theorem readRefresh_steps {now : TimePoint} (h : s.readRefresh c now = some s') :
    s'.adapter = s.adapter ∧ WorkerStep c s (.readRefresh now) s'.worker := by
  unfold readRefresh at h
  split at h
  · next job f decision epoch demand hw =>
    split at h
    · cases h
    next hkept =>
    dsimp only at h
    generalize hread : (if (s.enabled && s.sleepImageLatch.activeEpoch = 0) = true then
      (s.refreshMode, s.refreshId) else (DiagnosticRefresh.none, 0)) = refresh at h
    obtain rfl := Option.some.inj h
    refine ⟨rfl, ?_⟩
    have hrefresh : refresh.2 ≠ 0 → s.sleepImageLatch.activeEpoch = 0 := by
      intro hnumber
      rw [← hread] at hnumber
      split at hnumber
      · next hcond =>
        simp only [Bool.and_eq_true, decide_eq_true_eq] at hcond
        exact hcond.2
      · exact absurd rfl hnumber
    dsimp only
    split
    · exact .plain (by simp) (by simp)
    · next hcond =>
      refine .assembled job f decision epoch demand refresh now rfl hkept ?_ hrefresh hw rfl
      by_contra hstays
      simp only [not_or, not_not] at hstays
      simp [hstays.1, hstays.2.1, hstays.2.2] at hcond
  · cases h

theorem enqueue_steps (h : s.enqueue = some s') :
    AdapterStep c s .enqueue s'.adapter ∧ WorkerStep c s .enqueue s'.worker := by
  unfold enqueue at h
  split at h
  · next f hw =>
    obtain rfl := Option.some.inj h
    refine ⟨.stepped (.enqueue (s.finalFrame f)) _ rfl ?_, .plain (by simp) (by simp)⟩
    intro g hg
    obtain rfl := PresentationAdapter.Action.enqueue.inj hg
    exact .capture f rfl hw
  · cases h

theorem finish_steps (h : s.finish = some s') :
    s'.adapter = s.adapter ∧ WorkerStep c s a s'.worker := by
  unfold finish at h
  split at h
  · obtain rfl := Option.some.inj h
    exact ⟨rfl, .plain (by simp) (by simp)⟩
  · obtain rfl := Option.some.inj h
    exact ⟨rfl, .plain (by simp) (by simp)⟩
  · cases h

/-- A step of the adapter's worker is a step of the adapter. -/
theorem onAdapter_steps (act : PresentationAdapter.Action)
    {r : Option PresentationAdapter} {f : PresentationAdapter → List PresentationAdapter.Event}
    (hact : s.adapter.step act = r.map fun a' => (a', f a')) (hkind : ∀ g, act ≠ .enqueue g)
    (h : s.onAdapter r = some s') : AdapterStep c s a s'.adapter ∧ WorkerStep c s a s'.worker := by
  obtain ⟨a', ha, rfl⟩ := Option.map_eq_some_iff.mp h
  refine ⟨.stepped act (f a') ?_ fun g hg => absurd hg (hkind g), .same rfl⟩
  rw [hact, ha]
  rfl

theorem observe_steps (h : s.observe c = some s') :
    AdapterStep c s a s'.adapter ∧ WorkerStep c s a s'.worker := by
  unfold observe at h
  split at h
  · next f accepted _ _ =>
    obtain ⟨a', ha, rfl⟩ := Option.map_eq_some_iff.mp h
    refine ⟨.stepped .observe [] ?_ (by simp), .same ?_⟩
    · simp only [PresentationAdapter.step, ha, Option.map_some]
    · exact (onEngineSubmission_detached s f accepted).2
  · cases h

/-- **What a step does** to the adapter and to the worker. -/
theorem steps_of_step (h : step c s a = some (s', evs)) :
    AdapterStep c s a s'.adapter ∧ WorkerStep c s a s'.worker := by
  have hsome : ∀ {r : Pipeline} {es : List Event}, some (r, es) = some (s', evs) →
      AdapterStep c s a r.adapter ∧ r.worker = s.worker →
      AdapterStep c s a s'.adapter ∧ WorkerStep c s a s'.worker :=
    fun hr hnext => System.result_of_some
      (P := fun t _ => AdapterStep c s a t.adapter ∧ WorkerStep c s a t.worker) hr
      ⟨hnext.1, .same hnext.2⟩
  have hdetached : ∀ {r : Pipeline} {es : List Event}, some (r, es) = some (s', evs) →
      Detached s r → AdapterStep c s a s'.adapter ∧ WorkerStep c s a s'.worker :=
    fun hr hd => hsome hr ⟨.same hd.1, hd.2⟩
  have hmap : ∀ {r : Option Pipeline} {es : List Event}, r.map (·, es) = some (s', evs) →
      (∀ s', r = some s' → AdapterStep c s a s'.adapter ∧ WorkerStep c s a s'.worker) →
      AdapterStep c s a s'.adapter ∧ WorkerStep c s a s'.worker :=
    fun hr => System.result_of_map
      (P := fun t _ => AdapterStep c s a t.adapter ∧ WorkerStep c s a t.worker) hr
  have hworker : ∀ {r : Option Pipeline} {es : List Event}, r.map (·, es) = some (s', evs) →
      (∀ s', r = some s' → s'.adapter = s.adapter ∧ WorkerStep c s a s'.worker) →
      AdapterStep c s a s'.adapter ∧ WorkerStep c s a s'.worker :=
    fun hr hnext => hmap hr fun s' hs' => ⟨.same (hnext s' hs').1, (hnext s' hs').2⟩
  cases a with
  | requestDiagnosticRefresh mode => exact hdetached h (requestDiagnosticRefresh_detached s mode)
  | cancelDiagnosticRefresh id => exact hdetached h (cancelDiagnosticRefresh_detached s id)
  | start =>
    refine hdetached h ?_
    unfold start
    split_ifs <;> exact ⟨rfl, rfl⟩
  | startThreads =>
    refine hmap h fun s₁ hs₁ => ?_
    unfold startThreads at hs₁
    split_ifs at hs₁
    obtain rfl := Option.some.inj hs₁
    exact ⟨.stepped .start [] rfl (by simp), .plain (by simp) (by simp)⟩
  | stop =>
    refine hdetached h ?_
    unfold stop
    split_ifs <;> exact ⟨rfl, rfl⟩
  | stopAdapter =>
    refine hmap h fun s₁ hs₁ => ?_
    unfold stopAdapter at hs₁
    split_ifs at hs₁
    obtain rfl := Option.some.inj hs₁
    exact ⟨.stepped .stop _ rfl (by simp), .same rfl⟩
  | setEnabled enabled => exact hsome h (setEnabled_adapterStep s enabled)
  | resetForSourceChange =>
    refine hdetached h ?_
    unfold resetForSourceChange
    split_ifs <;> exact ⟨rfl, rfl⟩
  | publishSleepImageCatalog epoch width height entries selectedIndex mode =>
    exact hdetached h
      (publishSleepImageCatalog_detached s epoch width height entries selectedIndex mode)
  | armSleepCycle epoch => exact hsome h (armSleepCycle_adapterStep s epoch)
  | presentSleepImage epoch now => exact hsome h (presentSleepImage_adapterStep s epoch now)
  | disarmSleepCycle epoch => exact hsome h (disarmSleepCycle_adapterStep s epoch)
  | onCapturedComposition composition =>
    exact hdetached h (onCapturedComposition_detached s composition)
  | dequeue => exact hworker h fun _ => dequeue_steps
  | convert result => exact hworker h fun _ => convert_steps
  | conversionFailed => exact hworker h fun _ => conversionFailed_steps
  | checkSource => exact hworker h fun _ => checkSource_steps
  | evaluate => exact hworker h fun _ => evaluate_steps
  | hold => exact hworker h fun _ => hold_steps
  | readRefresh now => exact hworker h fun _ => readRefresh_steps
  | enqueue => exact hmap h fun _ => enqueue_steps
  | finish => exact hworker h fun _ => finish_steps
  | wake interval now =>
    exact hmap h fun _ => onAdapter_steps (.wake interval now) rfl (by simp)
  | rewake now => exact hmap h fun _ => onAdapter_steps (.rewake now) rfl (by simp)
  | submitStart now => exact hmap h fun _ => onAdapter_steps (.submitStart now) rfl (by simp)
  | submitReturn accepted now =>
    exact hmap h fun _ => onAdapter_steps (.submitReturn accepted now) rfl (by simp)
  | record => exact hmap h fun _ => onAdapter_steps .record rfl (by simp)
  | observe => exact hmap h fun _ => observe_steps

/-! ### The methods that leave the sleep image alone -/

/-- The method leaves the latch and the background of the sleep image alone. -/
def SleepKept (s s' : Pipeline) : Prop :=
  s'.sleepImageLatch = s.sleepImageLatch ∧ s'.sleepImageBackground = s.sleepImageBackground

theorem requestDiagnosticRefresh_sleepKept (s : Pipeline) (mode : DiagnosticRefresh) :
    SleepKept s (s.requestDiagnosticRefresh c mode).2 := by
  unfold requestDiagnosticRefresh
  split_ifs <;> exact ⟨rfl, rfl⟩

theorem cancelDiagnosticRefresh_sleepKept (s : Pipeline) (id : Nat) :
    SleepKept s (s.cancelDiagnosticRefresh id) := by
  unfold cancelDiagnosticRefresh
  split_ifs <;> exact ⟨rfl, rfl⟩

theorem start_sleepKept (s : Pipeline) : SleepKept s s.start := by
  unfold start
  split_ifs <;> exact ⟨rfl, rfl⟩

theorem startThreads_sleepKept (h : s.startThreads = some s') : SleepKept s s' := by
  unfold startThreads at h
  split_ifs at h
  obtain rfl := Option.some.inj h
  exact ⟨rfl, rfl⟩

theorem stop_sleepKept (s : Pipeline) : SleepKept s s.stop := by
  unfold stop
  split_ifs <;> exact ⟨rfl, rfl⟩

theorem stopAdapter_sleepKept (h : s.stopAdapter = some s') : SleepKept s s' := by
  unfold stopAdapter at h
  split_ifs at h
  obtain rfl := Option.some.inj h
  exact ⟨rfl, rfl⟩

theorem setEnabled_sleepKept (s : Pipeline) (enabled : Bool) :
    SleepKept s (s.setEnabled enabled) := by
  unfold setEnabled
  dsimp only
  split_ifs <;> exact ⟨rfl, rfl⟩

theorem publishSleepImageCatalog_sleepKept (s : Pipeline) (epoch : Nat) (width height : Int)
    (entries : List EinkSleepImageCatalog.Entry) (selectedIndex : Nat)
    (mode : SleepImagePresentationMode) :
    SleepKept s (s.publishSleepImageCatalog c epoch width height entries selectedIndex mode).2 := by
  unfold publishSleepImageCatalog
  split
  · exact ⟨rfl, rfl⟩
  split
  · exact ⟨rfl, rfl⟩
  split
  · split_ifs <;> exact ⟨rfl, rfl⟩
  · exact ⟨rfl, rfl⟩

theorem onCapturedComposition_sleepKept (s : Pipeline) (composition : CapturedComposition) :
    SleepKept s (s.onCapturedComposition composition) := by
  unfold onCapturedComposition
  split_ifs <;> exact ⟨rfl, rfl⟩

theorem dequeue_sleepKept (h : s.dequeue = some s') : SleepKept s s' := by
  unfold dequeue at h
  split at h
  · split at h
    · obtain rfl := Option.some.inj h
      exact ⟨rfl, rfl⟩
    · split at h
      · cases h
      · obtain rfl := Option.some.inj h
        exact ⟨rfl, rfl⟩
  · cases h

theorem convert_sleepKept {result : Option Conversion} (h : s.convert result = some s') :
    SleepKept s s' := by
  unfold convert at h
  split at h
  · split at h
    · obtain rfl := Option.some.inj h
      exact ⟨rfl, rfl⟩
    · obtain rfl := Option.some.inj h
      exact ⟨rfl, rfl⟩
  · cases h

theorem conversionFailed_sleepKept (h : s.conversionFailed = some s') : SleepKept s s' := by
  unfold conversionFailed at h
  split at h
  · obtain rfl := Option.some.inj h
    split_ifs <;> exact ⟨rfl, rfl⟩
  · cases h

theorem checkSource_sleepKept (h : s.checkSource = some s') : SleepKept s s' := by
  unfold checkSource at h
  split at h
  · obtain rfl := Option.some.inj h
    split_ifs <;> exact ⟨rfl, rfl⟩
  · cases h

theorem hold_sleepKept (h : s.hold = some s') : SleepKept s s' := by
  unfold hold at h
  split at h
  · obtain rfl := Option.some.inj h
    exact ⟨rfl, rfl⟩
  · cases h

theorem readRefresh_sleepKept {now : TimePoint} (h : s.readRefresh c now = some s') :
    SleepKept s s' := by
  unfold readRefresh at h
  split at h
  · split at h
    · cases h
    · obtain rfl := Option.some.inj h
      exact ⟨rfl, rfl⟩
  · cases h

theorem enqueue_sleepKept (h : s.enqueue = some s') : SleepKept s s' := by
  unfold enqueue at h
  split at h
  · obtain rfl := Option.some.inj h
    exact ⟨rfl, rfl⟩
  · cases h

theorem finish_sleepKept (h : s.finish = some s') : SleepKept s s' := by
  unfold finish at h
  split at h
  · obtain rfl := Option.some.inj h
    exact ⟨rfl, rfl⟩
  · obtain rfl := Option.some.inj h
    exact ⟨rfl, rfl⟩
  · cases h

theorem onAdapter_sleepKept {adapter : Option PresentationAdapter}
    (h : s.onAdapter adapter = some s') : SleepKept s s' := by
  obtain ⟨a, -, rfl⟩ := Option.map_eq_some_iff.mp h
  exact ⟨rfl, rfl⟩

end EinkLab.Pipeline
