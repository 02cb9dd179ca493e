import EinkLab.Pipeline.Equiv.Steps
import EinkLab.PresentationAdapter.Equiv.Carries

/-!
# The overlay background over a run

`background_fresh`: in every run in which the adapter holds no page when the background is released,
the retained background is always the highest-sequence frame that was both enqueued and accepted
since the last release.  A page that the adapter holds across a release is observed after it, and
`Release` has forgotten the sequence that would refuse it (`source_change_retained`).

`step_background` says what a step does to the background, `Watermark` what holds of it in every
run, and `Tidy` what the adapter holds as long as no page crosses a release.
-/

namespace EinkLab.Pipeline

open Transition

variable {c : Settings} {s s' : Pipeline}

/-! ### The purpose of the background -/

/-- The checks of `ObserveSubmission` that depend on the frame alone. -/
def Retainable (c : Settings) (f : Frame) : Prop :=
  SleepImageBackground.refusal c.profile f true = none

/-- Enqueued since the last release, up to the diagnostic request, which the adapter may change. -/
def EnqueuedSince (log : List Event) (f : Frame) : Prop :=
  OpenAfter (fun e => ∃ g : Frame, e = .enqueued g ∧ g.clearDiagnostic = f.clearDiagnostic)
    (fun e => e = .released) log

/-- Observed as accepted since the last release. -/
def AcceptedSince (c : Settings) (log : List Event) (f : Frame) : Prop :=
  Retainable c f ∧ OpenAfter (fun e => ∃ before, e = .observed f true before)
    (fun e => e = .released) log

def Fresh (c : Settings) (log : List Event) (f : Frame) : Prop :=
  AcceptedSince c log f ∧ EnqueuedSince log f

/-- The background is empty, or the fresh frame with the highest sequence. -/
def BackgroundLaw (c : Settings) (log : List Event) (b : SleepImageBackground) : Prop :=
  (b = {} ∧ ∀ f, ¬ Fresh c log f) ∨
    ∃ f, Fresh c log f ∧ b = ⟨f.sequence, SleepImageBackground.pixelsOf f⟩ ∧
      ∀ g, Fresh c log g → g.sequence ≤ f.sequence

/-- The call releases the background: a source change of a pipeline that runs, or the disarm of the
active cycle. -/
def Releases (s : Pipeline) (a : Action) : Prop :=
  (a = .resetForSourceChange ∧ s.started = true ∧ s.stopping = false) ∨
    ∃ epoch, a = .disarmSleepCycle epoch ∧ epoch ≠ 0 ∧ s.sleepImageLatch.activeEpoch = epoch

/-- No page is pending or in flight in the adapter when the background is released. -/
def ReleasesAtRest (c : Settings) (s : Pipeline) (a : Action) : Prop :=
  Releases s a → ∀ f, s.adapter.Holds f → ¬ Retainable c f

/-! ### What a step does to the background -/

theorem armSleepCycle_background (s : Pipeline) (epoch : Nat) :
    (s.armSleepCycle epoch).2.sleepImageBackground = s.sleepImageBackground := by
  unfold armSleepCycle
  dsimp only
  split_ifs <;> rfl

theorem presentSleepImage_background (s : Pipeline) (epoch : Nat) (now : TimePoint) :
    (s.presentSleepImage c epoch now).2.sleepImageBackground = s.sleepImageBackground := by
  unfold presentSleepImage enqueueSleepImage
  split
  · rfl
  split
  · rfl
  split
  · rfl
  · dsimp only
    split_ifs <;> rfl

theorem evaluate_background (h : s.evaluate c = some s') :
    s'.sleepImageBackground = s.sleepImageBackground := by
  unfold evaluate at h
  split at h
  · rw [← Option.some.inj h]
  · cases h

theorem onEngineSubmission_background (s : Pipeline) (f : Frame) (accepted : Bool) :
    (s.onEngineSubmission c f accepted).sleepImageBackground =
      (s.sleepImageBackground.observeSubmission c.profile f accepted).2 := by
  unfold onEngineSubmission
  dsimp only
  split_ifs <;> rfl

/-- The event is not about the background. -/
def Event.isAside : Event → Bool
  | .released | .observed _ _ _ => false
  | _ => true

/-- A step leaves the background alone, releases it, or observes a submission of a frame that the
adapter carries. -/
inductive BackgroundStep (c : Settings) (s : Pipeline) (a : Action) :
    SleepImageBackground → List Event → Prop
  | aside {evs} (h : ∀ e ∈ evs, e.isAside = true) :
      BackgroundStep c s a s.sleepImageBackground evs
  | released {evs} (hreleases : Releases s a) (h : ∀ e ∈ evs, e.isAside = true) :
      BackgroundStep c s a {} (.released :: evs)
  | observed (f : Frame) (accepted : Bool) (hcarried : s.adapter.worker.carried = some f) :
      BackgroundStep c s a (s.sleepImageBackground.observeSubmission c.profile f accepted).2
        [.observed f accepted s.sleepImageBackground]

theorem BackgroundStep.of_eq {a : Action} {b' : SleepImageBackground} {evs : List Event}
    (hb : b' = s.sleepImageBackground) (h : ∀ e ∈ evs, e.isAside = true) :
    BackgroundStep c s a b' evs := by
  subst hb
  exact .aside h

/-- The event of a release is that of a call that releases. -/
theorem BackgroundStep.releases {a : Action} {b' : SleepImageBackground} {evs : List Event}
    (h : BackgroundStep c s a b' evs) (hmem : .released ∈ evs) : Releases s a := by
  cases h with
  | aside hevs =>
    have haside := hevs _ hmem
    simp [Event.isAside] at haside
  | released hreleases _ => exact hreleases
  | observed f accepted _ => simp at hmem

theorem step_background {a : Action} {evs : List Event} (h : step c s a = some (s', evs)) :
    BackgroundStep c s a s'.sleepImageBackground evs := by
  have hsome : ∀ {r : Pipeline} {es : List Event}, some (r, es) = some (s', evs) →
      BackgroundStep c s a r.sleepImageBackground es →
      BackgroundStep c s a s'.sleepImageBackground evs :=
    fun hr => System.result_of_some
      (P := fun t es => BackgroundStep c s a t.sleepImageBackground es) hr
  have hmap : ∀ {r : Option Pipeline} {es : List Event}, r.map (·, es) = some (s', evs) →
      (∀ s', r = some s' → s'.sleepImageBackground = s.sleepImageBackground) →
      (∀ e ∈ es, e.isAside = true) → BackgroundStep c s a s'.sleepImageBackground evs := by
    intro r es hr hsame hes
    exact System.result_of_map
      (P := fun t es => BackgroundStep c s a t.sleepImageBackground es) hr
      fun s₁ hs₁ => .of_eq (hsame s₁ hs₁) hes
  cases a with
  | requestDiagnosticRefresh mode =>
    exact hsome h (.of_eq (requestDiagnosticRefresh_sleepKept s mode).2 (by simp [Event.isAside]))
  | cancelDiagnosticRefresh id =>
    exact hsome h (.of_eq (cancelDiagnosticRefresh_sleepKept s id).2 (by simp))
  | start => exact hsome h (.of_eq (start_sleepKept s).2 (by simp))
  | startThreads => exact hmap h (fun _ hs => (startThreads_sleepKept hs).2) (by simp)
  | stop => exact hsome h (.of_eq (stop_sleepKept s).2 (by simp))
  | stopAdapter => exact hmap h (fun _ hs => (stopAdapter_sleepKept hs).2) (by simp)
  | setEnabled enabled => exact hsome h (.of_eq (setEnabled_sleepKept s enabled).2 (by simp))
  | resetForSourceChange =>
    refine hsome h ?_
    unfold resetForSourceChange
    split_ifs with hidle
    · -- a pipeline that is not running returns at once
      exact .aside (by simp)
    · refine .released (Or.inl ⟨rfl, ?_⟩) (by simp)
      simpa using hidle
  | publishSleepImageCatalog epoch width height entries selectedIndex mode =>
    exact hsome h (.of_eq (publishSleepImageCatalog_sleepKept s epoch width height entries
      selectedIndex mode).2 (by simp))
  | armSleepCycle epoch => exact hsome h (.of_eq (armSleepCycle_background s epoch) (by simp))
  | presentSleepImage epoch now =>
    refine hsome h (.of_eq (presentSleepImage_background s epoch now) ?_)
    unfold presentEvents
    dsimp only
    split <;> simp [Event.isAside]
  | disarmSleepCycle epoch =>
    refine hsome h ?_
    unfold disarmEvents disarmSleepCycle
    dsimp only
    rcases s.sleepImageLatch.disarmSleepCycle_cases epoch with
      ⟨hepoch, hactive, heq⟩ | ⟨hrejected, -⟩
    · rw [heq]
      exact .released (Or.inr ⟨epoch, rfl, hepoch, hactive⟩) (by simp [Event.isAside])
    · rw [if_neg hrejected]
      dsimp only
      rw [if_neg hrejected]
      exact .aside (by simp [Event.isAside])
  | onCapturedComposition composition =>
    exact hsome h (.of_eq (onCapturedComposition_sleepKept s composition).2 (by simp))
  | dequeue => exact hmap h (fun _ hs => (dequeue_sleepKept hs).2) (by simp)
  | convert result => exact hmap h (fun _ hs => (convert_sleepKept hs).2) (by simp)
  | conversionFailed => exact hmap h (fun _ hs => (conversionFailed_sleepKept hs).2) (by simp)
  | checkSource => exact hmap h (fun _ hs => (checkSource_sleepKept hs).2) (by simp)
  | evaluate => exact hmap h (fun _ => evaluate_background) (by simp)
  | hold => exact hmap h (fun _ hs => (hold_sleepKept hs).2) (by simp)
  | readRefresh now => exact hmap h (fun _ hs => (readRefresh_sleepKept hs).2) (by simp)
  | enqueue => exact hmap h (fun _ hs => (enqueue_sleepKept hs).2) (by simp [Event.isAside])
  | finish => exact hmap h (fun _ hs => (finish_sleepKept hs).2) (by simp)
  | wake interval now => exact hmap h (fun _ hs => (onAdapter_sleepKept hs).2) (by simp)
  | rewake now => exact hmap h (fun _ hs => (onAdapter_sleepKept hs).2) (by simp)
  | submitStart now => exact hmap h (fun _ hs => (onAdapter_sleepKept hs).2) (by simp)
  | submitReturn accepted now =>
    refine hmap h (fun _ hs => (onAdapter_sleepKept hs).2) ?_
    unfold submittedEvents
    split <;> simp [Event.isAside]
  | record => exact hmap h (fun _ hs => (onAdapter_sleepKept hs).2) (by simp)
  | observe =>
    obtain ⟨s₁, hs₁, heq⟩ := Option.map_eq_some_iff.mp h
    obtain ⟨rfl, rfl⟩ := Prod.mk.inj heq
    unfold observe at hs₁
    unfold observedEvents
    split at hs₁
    · next f accepted _ hw =>
      obtain ⟨adapter, -, rfl⟩ := Option.map_eq_some_iff.mp hs₁
      -- only here does a frame enter the background
      show BackgroundStep c s _ (s.onEngineSubmission c f accepted).sleepImageBackground _
      rw [onEngineSubmission_background]
      refine .observed f accepted ?_
      rw [hw]
      rfl
    · cases hs₁

/-! ### Observations and releases in a log -/

section

variable {a : Action} {log evs : List Event} {f : Frame} {b : SleepImageBackground}

theorem not_acceptedSince_nil : ¬ AcceptedSince c [] f :=
  fun h => not_openAfter_nil _ _ h.2

theorem acceptedSince_append_aside (hevs : ∀ e ∈ evs, e.isAside = true) :
    AcceptedSince c (log ++ evs) f ↔ AcceptedSince c log f := by
  refine and_congr_right fun _ => openAfter_append_of_neutral fun e he => ?_
  have haside := hevs e he
  constructor
  · rintro ⟨_, rfl⟩
    simp [Event.isAside] at haside
  · rintro rfl
    simp [Event.isAside] at haside

theorem not_acceptedSince_released (hevs : ∀ e ∈ evs, e.isAside = true) :
    ¬ AcceptedSince c (log ++ .released :: evs) f := by
  rw [List.append_cons, acceptedSince_append_aside hevs]
  rintro ⟨-, hopen⟩
  rcases openAfter_append_singleton.mp hopen with ⟨_, heq⟩ | ⟨-, hstop⟩
  · cases heq
  · exact hstop rfl

theorem acceptedSince_append_observed {accepted : Bool} {g : Frame} :
    AcceptedSince c (log ++ [.observed g accepted b]) f ↔
      (Retainable c f ∧ accepted = true ∧ f = g) ∨ AcceptedSince c log f := by
  unfold AcceptedSince
  rw [openAfter_append_singleton]
  constructor
  · rintro ⟨hretainable, ⟨_, heq⟩ | ⟨hopen, -⟩⟩
    · obtain ⟨rfl, rfl, -⟩ := Event.observed.inj heq
      exact Or.inl ⟨hretainable, rfl, rfl⟩
    · exact Or.inr ⟨hretainable, hopen⟩
  · rintro (⟨hretainable, rfl, rfl⟩ | ⟨hretainable, hopen⟩)
    · exact ⟨hretainable, Or.inl ⟨b, rfl⟩⟩
    · exact ⟨hretainable, Or.inr ⟨hopen, by simp⟩⟩

/-- An enqueue is not forgotten until the next release. -/
theorem EnqueuedSince.append (h : EnqueuedSince log f) (hevs : .released ∉ evs) :
    EnqueuedSince (log ++ evs) f := by
  obtain ⟨pre, x, mid, rfl, hx, hmid⟩ := h
  refine ⟨pre, x, mid ++ evs, by simp, hx, fun y hy => ?_⟩
  rcases List.mem_append.mp hy with hy | hy
  · exact hmid y hy
  · rintro rfl
    exact hevs hy

theorem enqueuedSince_append_observed {accepted : Bool} {g : Frame} :
    EnqueuedSince (log ++ [.observed g accepted b]) f ↔ EnqueuedSince log f := by
  refine openAfter_append_of_neutral fun e he => ?_
  obtain rfl := List.mem_singleton.mp he
  exact ⟨by rintro ⟨_, ⟨⟩, -⟩, by simp⟩

theorem released_notMem_of_aside (hevs : ∀ e ∈ evs, e.isAside = true) : .released ∉ evs := by
  intro hmem
  have haside := hevs _ hmem
  simp [Event.isAside] at haside

/-! ### The invariant -/

/-- The background is empty or an accepted frame, and no accepted frame has a higher sequence. -/
structure Watermark (c : Settings) (log : List Event) (b : SleepImageBackground) : Prop where
  le : ∀ f, AcceptedSince c log f → f.sequence ≤ b.sequence
  retained : b = {} ∨
    ∃ f, AcceptedSince c log f ∧ b = ⟨f.sequence, SleepImageBackground.pixelsOf f⟩

theorem watermark_init : Watermark c [] {} where
  le _ h := absurd h not_acceptedSince_nil
  retained := Or.inl rfl

theorem observeSubmission_cases (b : SleepImageBackground) (g : Frame) (accepted : Bool) :
    (accepted = true ∧ Retainable c g ∧ b.sequence < g.sequence ∧
        (b.observeSubmission c.profile g accepted).2 =
          ⟨g.sequence, SleepImageBackground.pixelsOf g⟩) ∨
      ((accepted = true → Retainable c g → g.sequence ≤ b.sequence) ∧
        (b.observeSubmission c.profile g accepted).2 = b) := by
  unfold SleepImageBackground.observeSubmission
  cases hrefusal : SleepImageBackground.refusal c.profile g accepted with
  | some result =>
    right
    refine ⟨?_, rfl⟩
    rintro rfl hretainable
    rw [Retainable, hrefusal] at hretainable
    cases hretainable
  | none =>
    have haccepted : accepted = true := by
      by_contra hnot
      rw [Bool.not_eq_true] at hnot
      simp [SleepImageBackground.refusal, hnot] at hrefusal
    subst haccepted
    dsimp only
    split_ifs with hstale
    · right
      exact ⟨fun _ _ => hstale, rfl⟩
    · left
      exact ⟨rfl, hrefusal, Nat.lt_of_not_le hstale, rfl⟩

theorem Watermark.step {b' : SleepImageBackground} (h : Watermark c log s.sleepImageBackground)
    (hstep : BackgroundStep c s a b' evs) : Watermark c (log ++ evs) b' := by
  cases hstep with
  | aside hevs =>
    refine ⟨fun f hf => h.le f ((acceptedSince_append_aside hevs).mp hf), ?_⟩
    rcases h.retained with hempty | ⟨f, hf, hb⟩
    · exact Or.inl hempty
    · exact Or.inr ⟨f, (acceptedSince_append_aside hevs).mpr hf, hb⟩
  | released _ hevs =>
    exact ⟨fun f hf => absurd hf (not_acceptedSince_released hevs), Or.inl rfl⟩
  | observed g accepted _ =>
    rcases observeSubmission_cases s.sleepImageBackground g accepted with
      ⟨haccepted, hretainable, hlt, hnext⟩ | ⟨hstale, hnext⟩
    · -- the observed frame is above the watermark, and becomes it
      rw [hnext]
      refine ⟨fun f hf => ?_, Or.inr ⟨g, ?_, rfl⟩⟩
      · rcases acceptedSince_append_observed.mp hf with ⟨-, -, rfl⟩ | hf
        · exact Nat.le_refl _
        · have hle := h.le f hf
          show f.sequence ≤ g.sequence
          omega
      · exact acceptedSince_append_observed.mpr (Or.inl ⟨hretainable, haccepted, rfl⟩)
    · rw [hnext]
      refine ⟨fun f hf => ?_, ?_⟩
      · rcases acceptedSince_append_observed.mp hf with ⟨hretainable, haccepted, rfl⟩ | hold
        · exact hstale haccepted hretainable
        · exact h.le f hold
      · rcases h.retained with hempty | ⟨f, hf, hb⟩
        · exact Or.inl hempty
        · exact Or.inr ⟨f, acceptedSince_append_observed.mpr (Or.inr hf), hb⟩

/-- The retained frame was enqueued since the last release. -/
def RetainedInTime (c : Settings) (log : List Event) (b : SleepImageBackground) : Prop :=
  b = {} ∨ ∃ f, Fresh c log f ∧ b = ⟨f.sequence, SleepImageBackground.pixelsOf f⟩

theorem retainable_sequence (h : Retainable c f) : f.sequence ≠ 0 := by
  intro hzero
  unfold Retainable SleepImageBackground.refusal at h
  simp only [Bool.not_true, Bool.false_eq_true, if_false] at h
  split_ifs at h

theorem backgroundLaw_iff (h : Watermark c log b) :
    BackgroundLaw c log b ↔ RetainedInTime c log b := by
  constructor
  · rintro (⟨hempty, -⟩ | ⟨f, hf, hb, -⟩)
    · exact Or.inl hempty
    · exact Or.inr ⟨f, hf, hb⟩
  · rintro (rfl | ⟨f, hf, rfl⟩)
    · refine Or.inl ⟨rfl, fun f hf => ?_⟩
      have hle : f.sequence ≤ 0 := h.le f hf.1
      exact retainable_sequence hf.1.1 (Nat.le_zero.mp hle)
    · exact Or.inr ⟨f, hf, rfl, fun g hg => h.le g hg.1⟩

/-- The retained frame stays in time, if a page that the adapter carries is. -/
theorem RetainedInTime.step {b' : SleepImageBackground}
    (h : RetainedInTime c log s.sleepImageBackground)
    (hcarried : ∀ g, s.adapter.worker.carried = some g → Retainable c g → EnqueuedSince log g)
    (hstep : BackgroundStep c s a b' evs) : RetainedInTime c (log ++ evs) b' := by
  cases hstep with
  | aside hevs =>
    rcases h with hempty | ⟨f, hf, hb⟩
    · exact Or.inl hempty
    · refine Or.inr ⟨f, ⟨(acceptedSince_append_aside hevs).mpr hf.1, ?_⟩, hb⟩
      exact hf.2.append (released_notMem_of_aside hevs)
  | released _ _ => exact Or.inl rfl
  | observed g accepted hg =>
    rcases observeSubmission_cases s.sleepImageBackground g accepted with
      ⟨haccepted, hretainable, -, hnext⟩ | ⟨-, hnext⟩
    · -- the observed page is retained
      rw [hnext]
      refine Or.inr ⟨g, ⟨?_, ?_⟩, rfl⟩
      · exact acceptedSince_append_observed.mpr (Or.inl ⟨hretainable, haccepted, rfl⟩)
      · exact enqueuedSince_append_observed.mpr (hcarried g hg hretainable)
    · rw [hnext]
      rcases h with hempty | ⟨f, hf, hb⟩
      · exact Or.inl hempty
      · refine Or.inr ⟨f, ⟨acceptedSince_append_observed.mpr (Or.inr hf.1), ?_⟩, hb⟩
        exact enqueuedSince_append_observed.mpr hf.2

/-! ### The pages in the adapter -/

/-- A frame that could become the background was enqueued since the last release. -/
def InTime (c : Settings) (log : List Event) (f : Frame) : Prop :=
  Retainable c f → EnqueuedSince log f

/-- Neither side looks at the diagnostic request. -/
theorem durable_inTime (c : Settings) (log : List Event) :
    PresentationAdapter.Durable (InTime c log) where
  clear _ hf := hf
  follow f old hf _ := by
    unfold PresentationAdapter.followPending
    split
    · exact hf
    · exact hf

/-- A sleep image is never the background. -/
theorem not_retainable_sleepImageFrame {epoch : Nat} {now : TimePoint}
    {image : Int × Int × List UInt8 × List UInt8} (hepoch : epoch ≠ 0) :
    ¬ Retainable c (s.sleepImageFrame c epoch now image) := by
  have hframe : (s.sleepImageFrame c epoch now image).sleepImageEpoch ≠ 0 := hepoch
  simp [Retainable, SleepImageBackground.refusal, hframe]

/-- The last critical section logs the frame that the adapter takes. -/
theorem enqueued_of_accepts (hw : s.worker = .assembled f)
    (haccepts : s.adapter.accepts (s.finalFrame f) = true)
    (hs : step c s .enqueue = some (s', evs)) : evs = [.enqueued (s.finalFrame f)] := by
  rw [(System.eq_of_map hs).2, enqueuedFrame, hw]
  dsimp only
  rw [if_pos haccepts]
  rfl

/-- What the adapter takes in during a step is in time after it. -/
theorem inTime_step (h : ∀ g, s.adapter.Holds g → InTime c (log ++ evs) g)
    (hs : step c s a = some (s', evs)) : ∀ g, s'.adapter.Holds g → InTime c (log ++ evs) g := by
  cases (steps_of_step hs).1 with
  | same heq =>
    rw [heq]
    exact h
  | stepped act evs' hact henqueue =>
    refine PresentationAdapter.holds_step (durable_inTime c _) h (fun g hg haccepts => ?_) hact
    cases henqueue g hg with
    | sleepImage epoch now image hepoch =>
      exact fun hretainable => absurd hretainable (not_retainable_sleepImageFrame hepoch)
    | capture f ha hw =>
      subst ha
      rw [enqueued_of_accepts hw haccepts hs]
      exact fun _ => openAfter_append_singleton.mpr (Or.inl ⟨_, rfl, rfl⟩)

/-! ### Runs -/

/-- The retained frame and the pages in the adapter were enqueued since the last release. -/
structure Tidy (c : Settings) (log : List Event) (s : Pipeline) : Prop where
  mark : Watermark c log s.sleepImageBackground
  retained : RetainedInTime c log s.sleepImageBackground
  held : ∀ g, s.adapter.Holds g → InTime c log g

theorem tidy_init : Tidy c [] {} where
  mark := watermark_init
  retained := Or.inl rfl
  held g hg := by rcases hg with hpending | hcarried <;> contradiction

theorem Tidy.step (h : Tidy c log s) (hrest : ReleasesAtRest c s a)
    (hs : step c s a = some (s', evs)) : Tidy c (log ++ evs) s' := by
  have hstep := step_background hs
  have hretained := h.retained.step (fun g hg => h.held g (Or.inr hg)) hstep
  refine ⟨h.mark.step hstep, hretained, inTime_step (fun g hg hg' => ?_) hs⟩
  -- what was in time stays so, unless the step is a release, which finds no page in the adapter
  by_cases hmem : .released ∈ evs
  · exact absurd hg' (hrest (hstep.releases hmem) g hg)
  · exact (h.held g hg hg').append hmem

end

/-- **What the overlay background is**, in every run in which no page is in the adapter when the
background is released: in every state reached it is the highest-sequence frame that was enqueued
and accepted since the last release. -/
theorem background_fresh {as : List Action} {log : List Event} {t : Pipeline}
    (h : (system c).Run (ReleasesAtRest c) {} as log t) :
    BackgroundLaw c log t.sleepImageBackground := by
  have htidy : Tidy c log t := by
    refine h.induct (fun _ log s => Tidy c log s) tidy_init ?_
    intro as log s a s' evs hs hok hstep
    exact hs.step hok hstep
  exact (backgroundLaw_iff htidy.mark).mpr htidy.retained

/-! ### A submission across a source change -/

/-- The colour product with the mode of ordinary frames. -/
def auraSettings : Settings := ⟨auraCDeviceProfile, toEngineMode .glr16Partial, 0⟩

/-- A page of the panel's size. -/
def auraPage (pixels : List UInt8) : OwnedGrayscaleBuffer := ⟨2480, 1860, pixels⟩

/-- A white plane of a panel's size. -/
theorem exists_white_plane (p : EinkDeviceProfile) :
    ∃ pixels : List UInt8, pixels.length = p.panelBytes ∧ ∀ x ∈ pixels, x = 0xf0 :=
  ⟨List.replicate p.panelBytes 0xf0, List.length_replicate, fun _ hx => List.eq_of_mem_replicate hx⟩

theorem isPanelGray_of_white {pixels : List UInt8} (h : ∀ x ∈ pixels, x = 0xf0) :
    isPanelGray pixels = true := by
  unfold isPanelGray
  rw [List.all_eq_true]
  intro x hx
  rw [h x hx]
  rfl

/-- Up to the evaluation of the first capture. -/
def captureActions (gray : OwnedGrayscaleBuffer) : List Action :=
  [.start, .startThreads, .setEnabled true, .onCapturedComposition {}, .dequeue,
    .convert (some ⟨gray, 1⟩), .checkSource]

/-- The engine takes the frame, the source changes, and the engine accepts. -/
def submitActions : List Action :=
  [.readRefresh 1, .enqueue, .finish, .wake 0 1, .submitStart 1, .resetForSourceChange,
    .submitReturn true 1, .record]

/-- The engine takes the frame and accepts it. -/
def enqueueActions : List Action :=
  [.readRefresh 1, .enqueue, .finish, .wake 0 1, .submitStart 1, .submitReturn true 1, .record]

/-- An inactive latch lets every frame through. -/
theorem evaluateFrame_inactive {l : SleepImageLatch} (h : l.state = .inactive) (f : Frame)
    (selector : Option (Selector OwnedGrayscaleBuffer)) :
    ∃ l', l.evaluateFrame f selector = (l', f, .passThrough) ∧ l'.state = .inactive ∧
      l'.activeEpoch = l.activeEpoch := by
  unfold SleepImageLatch.evaluateFrame SleepImageLatch.evaluate
  split
  · exact ⟨_, rfl, h, rfl⟩
  · dsimp only
    split
    · exact ⟨_, rfl, h, rfl⟩
    · rw [h]
      exact ⟨_, rfl, rfl, rfl⟩

section

variable (pixels : List UInt8)

/-- The frame of the first capture. -/
def pageFrame : Frame :=
  { convertedFrame auraSettings ⟨{}, 1, 0⟩ (auraPage pixels) with
    enqueuedAt := 1
    composeBuffer := some (.android none none) }

theorem retainable_pageFrame (hlength : pixels.length = auraCDeviceProfile.panelBytes)
    (hgray : isPanelGray pixels = true) : Retainable auraSettings (pageFrame pixels) := by
  have hrect : (pageFrame pixels).dirtyRect = Rect.full auraCDeviceProfile.panelWidth
      auraCDeviceProfile.panelHeight := rfl
  have hbytes : (auraPage pixels).byteCount = auraCDeviceProfile.panelBytes := hlength
  have hpixels : isPanelGray (auraPage pixels).pixels = true := hgray
  unfold Retainable SleepImageBackground.refusal
  rw [show auraSettings.profile = auraCDeviceProfile from rfl, hrect]
  simp [pageFrame, convertedFrame, hbytes, hpixels, auraCDeviceProfile]

/-- The page has been converted and is current. -/
def checkedPage : Pipeline where
  adapter := ({} : PresentationAdapter).start
  worker := .checked ⟨{}, 1, 0⟩ ⟨auraPage pixels, 1⟩
  conversionInFlight := true
  nextSequence := 2
  hasBeenEnabled := true
  enabled := true
  started := true

/-- The page has been evaluated. -/
def evaluatedPage (latch : SleepImageLatch) : Pipeline :=
  { checkedPage pixels with
    worker := .evaluated ⟨{}, 1, 0⟩ (convertedFrame auraSettings ⟨{}, 1, 0⟩ (auraPage pixels))
      .passThrough latch.activeEpoch .sessionStart
    sleepImageLatch := latch
    demandGate := ⟨some ⟨1, (auraPage pixels).byteCount, 2480, 1860⟩, false⟩ }

theorem evaluate_checkedPage :
    ∃ latch, latch.activeEpoch = 0 ∧
      (system auraSettings).step (checkedPage pixels) .evaluate =
        some (evaluatedPage pixels latch, []) := by
  obtain ⟨latch, hl, -, hactive⟩ := evaluateFrame_inactive (l := {}) rfl
    (convertedFrame auraSettings ⟨{}, 1, 0⟩ (auraPage pixels)) none
  refine ⟨latch, hactive, ?_⟩
  have heq : (checkedPage pixels).evaluate auraSettings = some (evaluatedPage pixels latch) := by
    simp only [evaluate, checkedPage, sleepSelector, Option.map_none, hl]
    rfl
  simp only [system, step, heq, Option.map_some]

/-- The page is taken before the source change and accepted after it. -/
theorem submit_evaluatedPage {latch : SleepImageLatch} (hactive : latch.activeEpoch = 0) :
    ∃ s, (system auraSettings).exec System.anyAction (evaluatedPage pixels latch) submitActions =
        some (s, [.enqueued (pageFrame pixels), .released, .submitted (pageFrame pixels) true]) ∧
      s.adapter.worker = .recorded (pageFrame pixels) true 0 ∧ s.sleepImageBackground = {} := by
  obtain ⟨state, last, active, outcome, evaluation⟩ := latch
  obtain rfl : active = 0 := hactive
  exact ⟨_, rfl, rfl, rfl⟩

/-- The page is enqueued after the source change and accepted. -/
theorem submit_after_reset {latch : SleepImageLatch} (hactive : latch.activeEpoch = 0) :
    ∃ s, (system auraSettings).exec System.anyAction
        (evaluatedPage pixels latch).resetForSourceChange enqueueActions =
          some (s, [.enqueued (pageFrame pixels), .submitted (pageFrame pixels) true]) ∧
      s.adapter.worker = .recorded (pageFrame pixels) true 0 ∧ s.sleepImageBackground = {} := by
  obtain ⟨state, last, active, outcome, evaluation⟩ := latch
  obtain rfl : active = 0 := hactive
  exact ⟨_, rfl, rfl, rfl⟩

variable {pixels}

theorem observe_page {s : Pipeline} (hlength : pixels.length = auraCDeviceProfile.panelBytes)
    (hgray : isPanelGray pixels = true)
    (hphase : s.adapter.worker = .recorded (pageFrame pixels) true 0)
    (hbackground : s.sleepImageBackground = {}) :
    ∃ t, (system auraSettings).step s .observe =
        some (t, [.observed (pageFrame pixels) true {}]) ∧
      t.sleepImageBackground = ⟨1, pixels⟩ := by
  have hretained : (s.sleepImageBackground.observeSubmission auraCDeviceProfile (pageFrame pixels)
      true).2 = ⟨1, pixels⟩ := by
    rcases observeSubmission_cases (c := auraSettings) s.sleepImageBackground (pageFrame pixels)
      true with ⟨-, -, -, hnext⟩ | ⟨hstale, -⟩
    · exact hnext
    · have hle := hstale rfl (retainable_pageFrame pixels hlength hgray)
      rw [hbackground] at hle
      cases hle
  have hobserve : s.observe auraSettings =
      s.adapter.observe.map fun adapter =>
        { s.onEngineSubmission auraSettings (pageFrame pixels) true with adapter := adapter } := by
    simp only [observe, hphase]
  have hadapter : s.adapter.observe = some { s.adapter with worker := .waiting } := by
    simp only [PresentationAdapter.observe, hphase]
  have hevents : s.observedEvents = [.observed (pageFrame pixels) true {}] := by
    simp only [observedEvents, hphase, hbackground]
  refine ⟨{ s.onEngineSubmission auraSettings (pageFrame pixels) true with
    adapter := { s.adapter with worker := .waiting } }, ?_, ?_⟩
  · simp only [system, step, hobserve, hadapter, hevents, Option.map_some]
  · exact (onEngineSubmission_background s _ true).trans hretained

end

/-- A page is enqueued before the release, accepted after it, and retained. -/
theorem page_across_source_change :
    ∃ as t f, (system auraSettings).Run System.anyAction {} as
        [.enqueued f, .released, .submitted f true, .observed f true {}] t ∧
      t.sleepImageBackground.sequence = 1 := by
  obtain ⟨pixels, hlength, hwhite⟩ := exists_white_plane auraCDeviceProfile
  have hcapture : (system auraSettings).exec System.anyAction {}
    (captureActions (auraPage pixels)) =
      some (checkedPage pixels, []) := rfl
  obtain ⟨latch, hactive, hevaluate⟩ := evaluate_checkedPage pixels
  obtain ⟨s, hsubmit, hphase, hbackground⟩ := submit_evaluatedPage pixels hactive
  obtain ⟨t, hobserve, hkept⟩ :=
    observe_page hlength (isPanelGray_of_white hwhite) hphase hbackground
  have hrun : (system auraSettings).Run System.anyAction _ _ _ _ := .of_exec hcapture
  have hrun := hrun.trans (.single trivial hevaluate)
  have hrun := hrun.trans (.of_exec hsubmit)
  have hrun := hrun.trans (.single trivial hobserve)
  exact ⟨_, t, _, hrun, by rw [hkept]⟩

/-- The source changes while the worker still has the page: it is enqueued, accepted and
retained. -/
theorem background_fresh_of_page :
    ∃ as log t, (system auraSettings).Run (ReleasesAtRest auraSettings) {} as log t ∧
      .released ∈ log ∧ t.sleepImageBackground.sequence = 1 ∧
      BackgroundLaw auraSettings log t.sleepImageBackground := by
  obtain ⟨pixels, hlength, hwhite⟩ := exists_white_plane auraCDeviceProfile
  have hcapture : (system auraSettings).exec System.anyAction {}
    (captureActions (auraPage pixels)) =
      some (checkedPage pixels, []) := rfl
  obtain ⟨latch, hactive, hevaluate⟩ := evaluate_checkedPage pixels
  have hreset : (system auraSettings).step (evaluatedPage pixels latch) .resetForSourceChange =
      some ((evaluatedPage pixels latch).resetForSourceChange, [.released]) := rfl
  obtain ⟨s, hsubmit, hphase, hbackground⟩ := submit_after_reset pixels hactive
  obtain ⟨t, hobserve, hkept⟩ :=
    observe_page hlength (isPanelGray_of_white hwhite) hphase hbackground
  -- only the source change releases, and the adapter is empty then
  have hplain : ∀ a : Action, a ≠ .resetForSourceChange → (∀ epoch, a ≠ .disarmSleepCycle epoch) →
      ∀ s, ReleasesAtRest auraSettings s a := by
    rintro a hnot hnone s (⟨rfl, -⟩ | ⟨epoch, rfl, -⟩)
    · exact absurd rfl hnot
    · exact absurd rfl (hnone epoch)
  have hrest : ReleasesAtRest auraSettings (evaluatedPage pixels latch) .resetForSourceChange := by
    rintro - f (hpending | hcarried) <;> contradiction
  have hrun : (system auraSettings).Run (ReleasesAtRest auraSettings) _ _ _ _ :=
    (System.Run.of_exec hcapture).of_forall fun a ha =>
      hplain a (by rintro rfl; simp [captureActions] at ha)
        (by rintro _ rfl; simp [captureActions] at ha)
  have hrun := hrun.trans (.single (hplain _ (by simp) (by simp) _) hevaluate)
  have hrun := hrun.trans (.single hrest hreset)
  have hrun := hrun.trans <| (System.Run.of_exec hsubmit).of_forall fun a ha =>
    hplain a (by rintro rfl; simp [enqueueActions] at ha)
      (by rintro _ rfl; simp [enqueueActions] at ha)
  have hrun := hrun.trans (.single (hplain _ (by simp) (by simp) _) hobserve)
  exact ⟨_, _, t, hrun, by simp, by rw [hkept], background_fresh hrun⟩

/-- The page of before the source change becomes the background. -/
theorem source_change_retained :
    ¬ ∀ (c : Settings) (as : List Action) (log : List Event) (t : Pipeline),
      (system c).Run System.anyAction {} as log t → BackgroundLaw c log t.sleepImageBackground := by
  intro hall
  obtain ⟨as, t, f, hrun, hkept⟩ := page_across_source_change
  rcases hall _ _ _ _ hrun with ⟨hempty, -⟩ | ⟨g, hfresh, -, -⟩
  · rw [hempty] at hkept
    cases hkept
  · have henqueued : EnqueuedSince ([.enqueued f] ++ [.released] ++ [.submitted f true] ++
        [.observed f true {}]) g := hfresh.2
    rcases openAfter_append_singleton.mp (enqueuedSince_append_observed.mp henqueued) with
      ⟨_, ⟨⟩, -⟩ | ⟨hopen, -⟩
    rcases openAfter_append_singleton.mp hopen with ⟨_, ⟨⟩, -⟩ | ⟨-, hstop⟩
    exact hstop rfl

end EinkLab.Pipeline
