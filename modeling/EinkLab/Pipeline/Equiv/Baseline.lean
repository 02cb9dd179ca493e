import EinkLab.FrameTracker.Equiv.Signatures
import EinkLab.Pipeline.Equiv.Tracked

/-!
# The baseline is the newest frame

The invariant `Shows` ties the signature that the demand gate compares with to the newest ordinary
frame.  The tracker's answers are those of a counter of versions, so an equal signature is an equal
content, on either kind of panel.  It holds outside a consumed sleep cycle, as long as no reset of
the baseline is pending (`Settling`); every step keeps it (`Shows.step`).
-/

namespace EinkLab.TrackedPipeline

open Transition Versions AndroidGrayscaleConverter

variable {c : Settings} {x x' : TrackedPipeline} {s s' : Pipeline} {log : List Event}
  {versions : List (Versions.Event PanelContent)} {n : Nat}

/-! ### The conditions of a run -/

/-- The buffer of a capture fits the tracker, and its own plane has a byte for each pixel. -/
structure Sized (c : Settings) (composition : CapturedComposition) : Prop where
  image : ∀ source, composition.composeBuffer.bind imageOf = some source →
    DeviceRgbFrameTracker.Fits c.maxSize source
  plane : ∀ plane, composition.directGrayscale = some plane → plane.WellFormed

structure WellBehaved (c : Settings) (_ : TrackedPipeline) (a : Action) : Prop where
  honest : ∀ readyFence calls, a = .convert readyFence calls → Honest calls
  sized : ∀ composition, a = .pipeline (.onCapturedComposition composition) → Sized c composition

/-! ### The invariant -/

/-- What the tracker of the panel's kind remembers. -/
def remembered (c : Settings) (x : TrackedPipeline) : Option PanelContent :=
  if c.profile.hasColorCfa then x.rgbTracker.last.map .color
  else x.pipeline.grayscaleTracker.last.map .gray

def generation (c : Settings) (x : TrackedPipeline) : Nat :=
  if c.profile.hasColorCfa then x.rgbTracker.generation
  else x.pipeline.grayscaleTracker.generation

/-- The baseline need not hold: it will be forgotten, or no capture is evaluated again. -/
def Settling (s : Pipeline) : Prop := Unsettled s ∨ s.worker = .exited

/-- The adapter takes such a frame. -/
structure Presentable (f : Frame) : Prop where
  plane : f.grayscaleBuffer.isSome = true
  rect : f.dirtyRect.isValid = true

/-- The conversion is that of its capture, and signed on a color panel. -/
structure Converted (c : Settings) (versions : List (Versions.Event PanelContent))
    (composition : CapturedComposition) (conversion : Conversion) : Prop where
  grayscale : captureGrayscale c composition = some conversion.grayscale
  wellFormed : conversion.grayscale.WellFormed
  signed : ∃ κ, captured c composition = some κ ∧
    (c.profile.hasColorCfa = true → .answered κ conversion.rgbSignature ∈ versions)

/-- The gate's signature belongs to the last capture evaluated, and that is the newest frame. -/
def Baseline (c : Settings) (versions : List (Versions.Event PanelContent)) (log : List Event)
    (s : Pipeline) : Prop :=
  ∀ signature, s.demandGate.previous = some signature →
    ∃ κ, .answered κ signature.hash ∈ versions ∧ (lastEvaluated log).bind (captured c) = some κ ∧
      (Settling s ∨ newest c log s = some (some κ))

/-- The worker's evaluated capture is the last one of the gate, and passes with its own plane. -/
structure EvaluatedOwn (c : Settings) (log : List Event) (s : Pipeline) (job : Pipeline.Job)
    (frame : Frame) (decision : SleepImageDecision) : Prop where
  baseline : s.demandGate.previous ≠ none
  last : lastEvaluated log = some job.composition
  presentable : Presentable frame
  own : decision = .passThrough → frame.grayscaleBuffer = captureGrayscale c job.composition
  other : decision ≠ .passThrough → Settling s

structure Shows (c : Settings) (n : Nat) (versions : List (Versions.Event PanelContent))
    (log : List Event) (x : TrackedPipeline) : Prop where
  versioned : Versioned versions (remembered c x) (generation c x)
  counted : generation c x ≤ n
  wellFormed : x.rgbTracker.WellFormed
  active : CycleActive x.pipeline.sleepImageLatch
  pending : ∀ composition, x.pipeline.pending = some composition → Sized c composition
  converting : ∀ job, x.pipeline.worker = .converting job → Sized c job.composition
  converted : ∀ job conversion, x.pipeline.worker = .converted job conversion ∨
    x.pipeline.worker = .checked job conversion → Converted c versions job.composition conversion
  absent : x.pipeline.worker = .absent → x.pipeline.demandGate.previous = none
  started : x.pipeline.worker ≠ .absent → x.pipeline.adapter.started = true
  stopping : x.pipeline.worker ≠ .exited → x.pipeline.adapter.stopping = false
  baseline : Baseline c versions log x.pipeline
  evaluated : ∀ job frame decision epoch demand,
    x.pipeline.worker = .evaluated job frame decision epoch demand →
      EvaluatedOwn c log x.pipeline job frame decision
  assembled : ∀ frame, x.pipeline.worker = .assembled frame →
    Presentable frame ∧ (frame.IsOrdinary ∨ Settling x.pipeline)

theorem shows_init (c : Settings) : Shows c 0 [] [] {} where
  versioned := by
    have hlast : remembered c {} = none := by
      unfold remembered
      split <;> rfl
    rw [hlast]
    exact versioned_nil _
  counted := by
    unfold generation
    split <;> exact Nat.le_refl 0
  wellFormed := rfl
  active := by rintro (hno | hno) <;> cases hno
  pending := fun _ hno => nomatch hno
  converting := fun _ hno => nomatch hno
  converted := fun _ _ hno => by rcases hno with hno | hno <;> cases hno
  absent := fun _ => rfl
  started := fun hno => absurd rfl hno
  stopping := fun _ => rfl
  baseline := fun _ hno => nomatch hno
  evaluated := fun _ _ _ _ _ hno => nomatch hno
  assembled := fun _ hno => nomatch hno

theorem lastEvaluated_pipeline (log : List Event) (evs : List Pipeline.Event) :
    lastEvaluated (log ++ evs.map .pipeline) = lastEvaluated log := by
  have hnone : (evs.map Event.pipeline).filterMap Event.capture = [] := by
    rw [List.filterMap_eq_nil_iff]
    intro e he
    obtain ⟨e', -, rfl⟩ := List.mem_map.mp he
    rfl
  unfold lastEvaluated
  rw [List.filterMap_append, hnone, List.append_nil]

/-! ### Quiet steps -/

/-- More actions are allowed than counted. -/
theorem Shows.mono (h : Shows c n versions log x) : Shows c (n + 1) versions log x :=
  { h with counted := Nat.le_succ_of_le h.counted }

theorem Settling.quiet {evs : List Pipeline.Event} (h : Settling s)
    (hactive : CycleActive s.sleepImageLatch) (hquiet : Quiet c s s' evs) : Settling s' := by
  rcases h with hunsettled | hexited
  · exact Or.inl (hquiet.unsettled hactive hunsettled)
  · exact Or.inr (hquiet.worker.trans hexited)

theorem Shows.quiet {evs : List Pipeline.Event} (h : Shows c n versions log x)
    (hquiet : Quiet c x.pipeline s' evs) :
    Shows c n versions (log ++ evs.map .pipeline) { x with pipeline := s' } where
  versioned := by
    unfold remembered generation
    rw [hquiet.tracker]
    exact h.versioned
  counted := by
    unfold generation
    rw [hquiet.tracker]
    exact h.counted
  wellFormed := h.wellFormed
  active := hquiet.active h.active
  pending := by
    intro composition hpending
    rcases hquiet.pending with hsame | hnone
    · exact h.pending composition (hsame ▸ hpending)
    · rw [hnone] at hpending
      cases hpending
  converting := fun job hw => h.converting job (hquiet.worker ▸ hw)
  converted := fun job conversion hw => h.converted job conversion (hquiet.worker ▸ hw)
  absent := fun hw => hquiet.gate ▸ h.absent (hquiet.worker ▸ hw)
  started := fun hw => hquiet.started ▸ h.started (hquiet.worker ▸ hw)
  stopping := fun hw => hquiet.stopping ▸ h.stopping (hquiet.worker ▸ hw)
  baseline := by
    intro signature hprevious
    rw [hquiet.gate] at hprevious
    obtain ⟨κ, hanswered, hlast, hnewest⟩ := h.baseline signature hprevious
    refine ⟨κ, hanswered, ?_, ?_⟩
    · rw [lastEvaluated_pipeline]
      exact hlast
    · -- where nothing is unsettled, what is to be shown has not changed
      by_cases hunsettled : Unsettled s'
      · exact Or.inl (Or.inl hunsettled)
      rcases hnewest with hsettling | hnewest
      · exact Or.inl (hsettling.quiet h.active hquiet)
      · right
        show newest c (log ++ evs.map .pipeline) s' = some (some κ)
        rw [hquiet.newest log hunsettled, hnewest]
  evaluated := by
    intro job frame decision epoch demand hw
    have hown := h.evaluated job frame decision epoch demand (hquiet.worker ▸ hw)
    refine ⟨?_, ?_, hown.presentable, hown.own, fun hother => ?_⟩
    · show s'.demandGate.previous ≠ none
      rw [hquiet.gate]
      exact hown.baseline
    · rw [lastEvaluated_pipeline]
      exact hown.last
    · exact (hown.other hother).quiet h.active hquiet
  assembled := by
    intro frame hw
    obtain ⟨hpresentable, hordinary⟩ := h.assembled frame (hquiet.worker ▸ hw)
    exact ⟨hpresentable, hordinary.imp_right fun hsettling => hsettling.quiet h.active hquiet⟩

/-! ### The worker's phases -/

/-- The step keeps everything that the invariant reads, but the worker. -/
structure SameRest (s s' : Pipeline) : Prop where
  gate : s'.demandGate = s.demandGate
  tracker : s'.grayscaleTracker = s.grayscaleTracker
  pending : s'.pending = s.pending
  adapter : s'.adapter = s.adapter
  latch : s'.sleepImageLatch = s.sleepImageLatch
  resetDemand : s'.resetDemandGate = s.resetDemandGate
  resetSource : s'.resetSourceState = s.resetSourceState

theorem SameRest.unsettled (h : SameRest s s') : Unsettled s' ↔ Unsettled s := by
  unfold Unsettled
  rw [h.latch, h.resetDemand, h.resetSource]

/-- The worker's new phase has what the invariant asks of it. -/
structure PhaseHolds (c : Settings) (versions : List (Versions.Event PanelContent))
    (log : List Event) (s : Pipeline) : Prop where
  absent : s.worker ≠ .absent
  exited : s.worker ≠ .exited
  converting : ∀ job, s.worker = .converting job → Sized c job.composition
  converted : ∀ job conversion, s.worker = .converted job conversion ∨
    s.worker = .checked job conversion → Converted c versions job.composition conversion
  evaluated : ∀ job frame decision epoch demand,
    s.worker = .evaluated job frame decision epoch demand →
      EvaluatedOwn c log s job frame decision
  assembled : ∀ frame, s.worker = .assembled frame →
    Presentable frame ∧ (frame.IsOrdinary ∨ Settling s)

/-- A phase that holds no capture any more. -/
theorem phaseHolds_of_empty (h : s.worker = .waiting ∨ s.worker = .failed ∨ s.worker = .unchanged ∨
    s.worker = .enqueued) : PhaseHolds c versions log s where
  absent := by rcases h with h | h | h | h <;> simp [h]
  exited := by rcases h with h | h | h | h <;> simp [h]
  converting := by rcases h with h | h | h | h <;> simp [h]
  converted := by rcases h with h | h | h | h <;> simp [h]
  evaluated := by rcases h with h | h | h | h <;> simp [h]
  assembled := by rcases h with h | h | h | h <;> simp [h]

theorem Shows.move (h : Shows c n versions log x) (hrest : SameRest x.pipeline s')
    (habsent : x.pipeline.worker ≠ .absent) (hexited : x.pipeline.worker ≠ .exited)
    (hphase : PhaseHolds c versions log s')
    (hnewest : Unsettled x.pipeline ∨ newest c log s' = newest c log x.pipeline) :
    Shows c n versions log { x with pipeline := s' } where
  versioned := by
    unfold remembered generation
    rw [hrest.tracker]
    exact h.versioned
  counted := by
    unfold generation
    rw [hrest.tracker]
    exact h.counted
  wellFormed := h.wellFormed
  active := hrest.latch.symm ▸ h.active
  pending := fun composition hpending => h.pending composition (hrest.pending ▸ hpending)
  converting := hphase.converting
  converted := hphase.converted
  absent := fun hno => absurd hno hphase.absent
  started := fun _ => by
    show s'.adapter.started = true
    rw [hrest.adapter]
    exact h.started habsent
  stopping := fun _ => by
    show s'.adapter.stopping = false
    rw [hrest.adapter]
    exact h.stopping hexited
  baseline := by
    intro signature hprevious
    rw [hrest.gate] at hprevious
    obtain ⟨κ, hanswered, hlast, hshown⟩ := h.baseline signature hprevious
    refine ⟨κ, hanswered, hlast, ?_⟩
    rcases hnewest with hunsettled | hnewest
    · exact Or.inl (Or.inl (hrest.unsettled.mpr hunsettled))
    rcases hshown with (hunsettled | hno) | hshown
    · exact Or.inl (Or.inl (hrest.unsettled.mpr hunsettled))
    · exact absurd hno hexited
    · exact Or.inr (hnewest.trans hshown)
  evaluated := hphase.evaluated
  assembled := hphase.assembled

/-- The way through the adapter decides, where the worker has nothing that leaves. -/
theorem newest_of_leaving (hadapter : s'.adapter = s.adapter)
    (hleaving : leaving c s'.worker = leaving c s.worker) :
    newest c log s' = newest c log s := by
  rw [newest_eq, newest_eq, hadapter, hleaving]

theorem Shows.conversionFailed (h : Shows c n versions log x)
    (hs : x.pipeline.conversionFailed = some s') :
    Shows c n versions log { x with pipeline := s' } := by
  unfold Pipeline.conversionFailed at hs
  split at hs
  · next hw =>
    obtain rfl := Option.some.inj hs
    refine h.move ?_ (by simp [hw]) (by simp [hw]) (phaseHolds_of_empty ?_) (Or.inr ?_)
    · dsimp only
      split_ifs <;> exact ⟨rfl, rfl, rfl, rfl, rfl, rfl, rfl⟩
    · left
      dsimp only
      split_ifs <;> rfl
    · refine newest_of_leaving ?_ ?_
      · dsimp only
        split_ifs <;> rfl
      · rw [hw]
        dsimp only
        split_ifs <;> rfl
  · cases hs

theorem Shows.checkSource (h : Shows c n versions log x) (hs : x.pipeline.checkSource = some s') :
    Shows c n versions log { x with pipeline := s' } := by
  unfold Pipeline.checkSource at hs
  split at hs
  · next job conversion hw =>
    obtain rfl := Option.some.inj hs
    have hconverted := h.converted job conversion (Or.inl hw)
    split_ifs
    · refine h.move ⟨rfl, rfl, rfl, rfl, rfl, rfl, rfl⟩ (by simp [hw]) (by simp [hw])
        (phaseHolds_of_empty (Or.inl rfl)) (Or.inr (newest_of_leaving rfl ?_))
      rw [hw]
      rfl
    · refine h.move ⟨rfl, rfl, rfl, rfl, rfl, rfl, rfl⟩ (by simp [hw]) (by simp [hw])
        ⟨by simp, by simp, by simp, ?_, by simp, by simp⟩
        (Or.inr (newest_of_leaving rfl ?_))
      · rintro job' conversion' (hno | hchecked)
        · cases hno
        · obtain ⟨rfl, rfl⟩ := Pipeline.WorkerPhase.checked.inj hchecked
          exact hconverted
      · rw [hw]
        rfl
  · cases hs

theorem Shows.hold (h : Shows c n versions log x) (hs : x.pipeline.hold = some s') :
    Shows c n versions log { x with pipeline := s' } := by
  unfold Pipeline.hold at hs
  split at hs
  · next hw =>
    obtain rfl := Option.some.inj hs
    refine h.move ⟨rfl, rfl, rfl, rfl, rfl, rfl, rfl⟩ (by simp [hw]) (by simp [hw])
      (phaseHolds_of_empty (Or.inl rfl)) (Or.inr (newest_of_leaving rfl ?_))
    rw [hw]
    rfl
  · cases hs

theorem Shows.finish (h : Shows c n versions log x) (hs : x.pipeline.finish = some s') :
    Shows c n versions log { x with pipeline := s' } := by
  have hback : ∀ w, x.pipeline.worker = w → w = .unchanged ∨ w = .enqueued →
      some { x.pipeline with worker := .waiting, conversionInFlight := false } = some s' →
      Shows c n versions log { x with pipeline := s' } := by
    rintro w hw hphase heq
    obtain rfl := Option.some.inj heq
    have hempty : leaving c x.pipeline.worker = [] := by
      rcases hphase with rfl | rfl <;> rw [hw] <;> rfl
    refine h.move ⟨rfl, rfl, rfl, rfl, rfl, rfl, rfl⟩ ?_ ?_ (phaseHolds_of_empty (Or.inl rfl))
      (Or.inr (newest_of_leaving rfl hempty.symm))
    · rcases hphase with rfl | rfl <;> simp [hw]
    · rcases hphase with rfl | rfl <;> simp [hw]
  unfold Pipeline.finish at hs
  split at hs
  · next hw => exact hback _ hw (Or.inl rfl) hs
  · next hw => exact hback _ hw (Or.inr rfl) hs
  · cases hs

/-! ### The threads and the captures -/

theorem Shows.startThreads (h : Shows c n versions log x) (hs : x.pipeline.startThreads = some s') :
    Shows c n versions log { x with pipeline := s' } := by
  unfold Pipeline.startThreads at hs
  split_ifs at hs with hcond
  simp only [Bool.and_eq_true, decide_eq_true_eq] at hcond
  obtain rfl := Option.some.inj hs
  have hlive := h.stopping (by simp [hcond.2])
  have hadapter : x.pipeline.adapter.start.started = true ∧
      x.pipeline.adapter.start.stopping = false := by
    unfold PresentationAdapter.start
    split_ifs with hstarted hstopping
    · exact ⟨hstarted, hlive⟩
    · rw [hlive] at hstopping
      cases hstopping
    · exact ⟨rfl, hlive⟩
  -- the gate has evaluated nothing yet
  have hnone := h.absent hcond.2
  exact {
    versioned := h.versioned
    counted := h.counted
    wellFormed := h.wellFormed
    active := h.active
    pending := h.pending
    converting := by simp
    converted := by simp
    absent := by simp
    started := fun _ => hadapter.1
    stopping := fun _ => hadapter.2
    baseline := by
      intro signature hprevious
      exact absurd (hnone.symm.trans hprevious) (by simp)
    evaluated := by simp
    assembled := by simp }

theorem Shows.stopAdapter (h : Shows c n versions log x) (hs : x.pipeline.stopAdapter = some s') :
    Shows c n versions log { x with pipeline := s' } := by
  unfold Pipeline.stopAdapter at hs
  split_ifs at hs with hcond
  simp only [Bool.and_eq_true, decide_eq_true_eq] at hcond
  obtain rfl := Option.some.inj hs
  have hexited := hcond.2
  exact { h with
    started := by
      intro _
      show x.pipeline.adapter.stop.started = true
      have hstarted := h.started (by simp [hexited])
      unfold PresentationAdapter.stop
      split_ifs
      · exact hstarted
      · exact hstarted
    stopping := fun hno => absurd hexited hno
    baseline := by
      intro signature hprevious
      obtain ⟨κ, hanswered, hlast, -⟩ := h.baseline signature hprevious
      exact ⟨κ, hanswered, hlast, Or.inl (Or.inr hexited)⟩
    evaluated := fun job frame decision epoch demand hw =>
      absurd (hexited.symm.trans hw) (by simp)
    assembled := fun frame hw => absurd (hexited.symm.trans hw) (by simp) }

theorem Shows.onCapturedComposition (h : Shows c n versions log x)
    {composition : CapturedComposition} (hsized : Sized c composition) :
    Shows c n versions log
      { x with pipeline := x.pipeline.onCapturedComposition composition } := by
  unfold Pipeline.onCapturedComposition
  split_ifs
  · exact h
  · exact h
  · exact { h with
      pending := by
        intro other hpending
        obtain rfl := Option.some.inj hpending
        exact hsized
      evaluated := by
        intro job frame decision epoch demand hw
        have hown := h.evaluated job frame decision epoch demand hw
        exact ⟨hown.baseline, hown.last, hown.presentable, hown.own, hown.other⟩ }

/-- The worker has taken the pending capture, after the resets that were pending. -/
structure Takes (s s' : Pipeline) (composition : CapturedComposition) : Prop where
  was : s.worker = .waiting
  live : s.stopping = false
  captured : s.pending = some composition
  worker : ∃ job, job.composition = composition ∧ s'.worker = .converting job
  pending : s'.pending = none
  adapter : s'.adapter = s.adapter
  latch : s'.sleepImageLatch = s.sleepImageLatch
  /-- A gate that still remembers had no reset to apply. -/
  gate : ∀ signature, s'.demandGate.previous = some signature →
    s.resetDemandGate = false ∧ s.resetSourceState = false ∧
      s.demandGate.previous = some signature
  tracker : s'.grayscaleTracker =
    if s.resetSourceState then s.grayscaleTracker.reset else s.grayscaleTracker

theorem dequeue_cases (h : s.dequeue = some s') :
    (s.worker = .waiting ∧ s.stopping = true ∧ s' = { s with worker := .exited }) ∨
      ∃ composition, Takes s s' composition := by
  unfold Pipeline.dequeue at h
  split at h
  · next hw =>
    split at h
    · next hstopping => exact Or.inl ⟨hw, hstopping, (Option.some.inj h).symm⟩
    · next hstopping =>
      split at h
      · cases h
      next composition hpending =>
      obtain rfl := Option.some.inj h
      refine Or.inr ⟨composition, hw, Bool.eq_false_iff.mpr hstopping, hpending, ⟨_, rfl, rfl⟩, rfl,
        rfl, rfl, ?_, rfl⟩
      intro signature hprevious
      cases hdemand : s.resetDemandGate with
      | true => simp [hdemand, FrameDemandGate.reset] at hprevious
      | false =>
        cases hsource : s.resetSourceState with
        | true => simp [hdemand, hsource, FrameDemandGate.reset] at hprevious
        | false =>
          refine ⟨rfl, rfl, ?_⟩
          simpa [hdemand, hsource] using hprevious
  · cases h

/-- A source change makes the trackers forget, too. -/
theorem remembered_of_reset {composition : CapturedComposition}
    (htakes : Takes x.pipeline s' composition) :
    remembered c ⟨s', x.dequeuedTracker⟩ =
        (if x.pipeline.resetSourceState then none else remembered c x) ∧
      generation c ⟨s', x.dequeuedTracker⟩ = generation c x := by
  unfold remembered generation dequeuedTracker
  dsimp only
  rw [htakes.tracker, htakes.live]
  cases x.pipeline.resetSourceState with
  | false => exact ⟨rfl, rfl⟩
  | true => split <;> exact ⟨rfl, rfl⟩

theorem Shows.take (h : Shows c n versions log x) {composition : CapturedComposition}
    (htakes : Takes x.pipeline s' composition) :
    ∃ versions', Shows c n versions' log ⟨s', x.dequeuedTracker⟩ := by
  obtain ⟨hremembered, hgeneration⟩ := remembered_of_reset (c := c) htakes
  obtain ⟨job, rfl, hw⟩ := htakes.worker
  have hsized := h.pending _ htakes.captured
  have hwas := htakes.was
  -- the counter forgets where the trackers do
  obtain ⟨versions', hmem, hversioned⟩ : ∃ versions', (∀ e ∈ versions, e ∈ versions') ∧
      Versioned versions' (remembered c ⟨s', x.dequeuedTracker⟩) (generation c x) := by
    rw [hremembered]
    cases x.pipeline.resetSourceState with
    | false => exact ⟨versions, fun _ he => he, h.versioned⟩
    | true =>
      exact ⟨versions ++ [.forgot], fun _ he => List.mem_append_left _ he, h.versioned.forget⟩
  refine ⟨versions', ?_⟩
  exact {
    versioned := hgeneration ▸ hversioned
    counted := hgeneration ▸ h.counted
    wellFormed := by
      unfold dequeuedTracker
      dsimp only
      split
      · rfl
      · exact h.wellFormed
    active := htakes.latch.symm ▸ h.active
    pending := by simp [htakes.pending]
    converting := by
      intro job' hjob
      obtain rfl := Pipeline.WorkerPhase.converting.inj (hw.symm.trans hjob)
      exact hsized
    converted := by simp [hw]
    absent := by simp [hw]
    started := fun _ => htakes.adapter.symm ▸ h.started (by simp [hwas])
    stopping := fun _ => htakes.adapter.symm ▸ h.stopping (by simp [hwas])
    baseline := by
      intro signature hprevious
      obtain ⟨hdemand, hsource, hprevious⟩ := htakes.gate signature hprevious
      obtain ⟨κ, hanswered, hlast, hnewest⟩ := h.baseline signature hprevious
      refine ⟨κ, hmem _ hanswered, hlast, ?_⟩
      rcases hnewest with ((hconsumed | hno | hno) | hexited) | hnewest
      · left; left; left
        exact htakes.latch.symm ▸ hconsumed
      · exact absurd (hdemand.symm.trans hno) (by simp)
      · exact absurd (hsource.symm.trans hno) (by simp)
      · exact absurd (hwas.symm.trans hexited) (by simp)
      · right
        rw [← hnewest]
        refine newest_of_leaving htakes.adapter ?_
        rw [hw, hwas]
        rfl
    evaluated := by simp [hw]
    assembled := by simp [hw] }

theorem Shows.dequeue (h : Shows c n versions log x) (hs : x.pipeline.dequeue = some s') :
    ∃ versions', Shows c n versions' log ⟨s', x.dequeuedTracker⟩ := by
  rcases dequeue_cases hs with ⟨hwas, hstopping, rfl⟩ | ⟨composition, htakes⟩
  · have htracker : x.dequeuedTracker = x.rgbTracker := by
      unfold dequeuedTracker
      rw [hstopping]
      rfl
    rw [htracker]
    exact ⟨versions, {
      versioned := h.versioned
      counted := h.counted
      wellFormed := h.wellFormed
      active := h.active
      pending := h.pending
      converting := by simp
      converted := by simp
      absent := by simp
      started := fun _ => h.started (by simp [hwas])
      stopping := fun hno => absurd rfl hno
      baseline := by
        intro signature hprevious
        obtain ⟨κ, hanswered, hlast, -⟩ := h.baseline signature hprevious
        exact ⟨κ, hanswered, hlast, Or.inl (Or.inr rfl)⟩
      evaluated := by simp
      assembled := by simp }⟩
  · exact h.take htakes

/-! ### The trackers' answers -/

theorem Converted.mono {versions' : List (Versions.Event PanelContent)}
    {composition : CapturedComposition} {conversion : Conversion}
    (h : Converted c versions composition conversion) (hmem : ∀ e ∈ versions, e ∈ versions') :
    Converted c versions' composition conversion := by
  obtain ⟨κ, hcaptured, hsigned⟩ := h.signed
  exact ⟨h.grayscale, h.wellFormed, κ, hcaptured, fun hcolor => hmem _ (hsigned hcolor)⟩

/-- A tracker has answered; nothing else has changed. -/
theorem Shows.answer (h : Shows c n versions log x) {m : Nat}
    {versions' : List (Versions.Event PanelContent)} {gray : GrayscaleFrameTracker}
    {rgb : DeviceRgbFrameTracker} (hmem : ∀ e ∈ versions, e ∈ versions')
    (hversioned : Versioned versions'
      (remembered c ⟨{ x.pipeline with grayscaleTracker := gray }, rgb⟩)
      (generation c ⟨{ x.pipeline with grayscaleTracker := gray }, rgb⟩))
    (hcounted : generation c ⟨{ x.pipeline with grayscaleTracker := gray }, rgb⟩ ≤ m)
    (hwellFormed : rgb.WellFormed) :
    Shows c m versions' log ⟨{ x.pipeline with grayscaleTracker := gray }, rgb⟩ where
  versioned := hversioned
  counted := hcounted
  wellFormed := hwellFormed
  active := h.active
  pending := h.pending
  converting := h.converting
  converted := fun job conversion hw => (h.converted job conversion hw).mono hmem
  absent := h.absent
  started := h.started
  stopping := h.stopping
  baseline := by
    intro signature hprevious
    obtain ⟨κ, hanswered, hlast, hnewest⟩ := h.baseline signature hprevious
    exact ⟨κ, hmem _ hanswered, hlast, hnewest⟩
  evaluated := by
    intro job frame decision epoch demand hw
    have hown := h.evaluated job frame decision epoch demand hw
    exact ⟨hown.baseline, hown.last, hown.presentable, hown.own, hown.other⟩
  assembled := h.assembled

theorem answer_le {κ : Type} [DecidableEq κ] (last : Option κ) (version : Nat) (content : κ) :
    Versions.answer last version content ≤ version + 1 := by
  unfold Versions.answer
  split <;> omega

theorem content_coreSource (source : RgbaSource) :
    (DeviceRgbFrameTracker.coreSource source).content = colorsOf source := by
  unfold RgbFrameTracker.RgbaSource.content colorsOf
  refine Prod.ext rfl (Prod.ext rfl (List.map_congr_left fun p _ => ?_))
  have hoffset : (p.2 * source.stridePixels.toNat + p.1) * 4 =
      p.2 * source.stridePixels.toNat * 4 + p.1 * 4 := by omega
  rw [hoffset]
  exact (@RgbFrameTracker.packedRgb_eq (DeviceRgbFrameTracker.coreSource source) _ _ rfl rfl
    p.1 p.2).symm

/-- The RGB tracker signs an image on a color panel. -/
theorem Shows.signColor (h : Shows c n versions log x) (hcolor : c.profile.hasColorCfa = true)
    {source : RgbaSource} (hvalid : source.isValid = true)
    (hfits : DeviceRgbFrameTracker.Fits c.maxSize source) (hcount : n + 1 < 2 ^ 64) :
    let r := x.rgbTracker.update c.maxSize source
    Shows c (n + 1) (versions ++ [.answered (.color (colorsOf source)) r.1]) log
      { x with rgbTracker := r.2 } := by
  have hgeneration : generation c x = x.rgbTracker.generation := if_pos hcolor
  have hremembered : remembered c x = x.rgbTracker.last.map .color := if_pos hcolor
  have hsmall : x.rgbTracker.generation ≤ n := hgeneration ▸ h.counted
  have hupdate := DeviceRgbFrameTracker.update_of_image h.wellFormed hfits hvalid
    (Nat.lt_of_le_of_lt (Nat.succ_le_succ hsmall) hcount)
  dsimp only at hupdate
  rw [content_coreSource] at hupdate
  obtain ⟨hlast, hwellFormed⟩ := DeviceRgbFrameTracker.last_of_image hfits hvalid
    (Versions.answer x.rgbTracker.last x.rgbTracker.generation (colorsOf source))
  rw [content_coreSource] at hlast hwellFormed
  -- the counter of contents answers as the counter of images
  have hanswer : Versions.answer (remembered c x) (generation c x)
      (PanelContent.color (colorsOf source)) =
        Versions.answer x.rgbTracker.last x.rgbTracker.generation (colorsOf source) := by
    rw [hremembered, hgeneration]
    exact answer_map (fun _ _ heq => PanelContent.color.inj heq) _ _ _
  have hversioned := h.versioned.answered (PanelContent.color (colorsOf source))
  rw [hanswer] at hversioned
  dsimp only
  rw [hupdate]
  -- the other tracker is left alone
  show Shows c _ _ _ ⟨{ x.pipeline with grayscaleTracker := x.pipeline.grayscaleTracker }, _⟩
  refine h.answer (fun e he => List.mem_append_left _ he) ?_ ?_ hwellFormed
  · unfold remembered generation
    rw [if_pos hcolor, if_pos hcolor]
    dsimp only
    rw [hlast]
    exact hversioned
  · unfold generation
    rw [if_pos hcolor]
    exact Nat.le_trans (answer_le _ _ _) (Nat.succ_le_succ hsmall)

/-- The grayscale tracker signs a plane on a monochrome panel. -/
theorem Shows.signGray (h : Shows c n versions log x) (hgray : c.profile.hasColorCfa = false)
    {plane : OwnedGrayscaleBuffer} (hplane : plane.WellFormed) (hcount : n + 1 < 2 ^ 64) :
    let r := x.pipeline.grayscaleTracker.update plane
    Shows c (n + 1) (versions ++ [.answered (.gray plane) r.1]) log
      { x with pipeline := { x.pipeline with grayscaleTracker := r.2 } } := by
  have hmono : ¬c.profile.hasColorCfa = true := by simp [hgray]
  have hgeneration : generation c x = x.pipeline.grayscaleTracker.generation := if_neg hmono
  have hremembered : remembered c x = x.pipeline.grayscaleTracker.last.map .gray := if_neg hmono
  have hsmall : x.pipeline.grayscaleTracker.generation ≤ n := hgeneration ▸ h.counted
  have hupdate := GrayscaleFrameTracker.update_of_plane (t := x.pipeline.grayscaleTracker) hplane
    (Nat.lt_of_le_of_lt (Nat.succ_le_succ hsmall) hcount)
  have hlast := GrayscaleFrameTracker.last_of_plane hplane (Versions.answer
    x.pipeline.grayscaleTracker.last x.pipeline.grayscaleTracker.generation plane)
  have hanswer : Versions.answer (remembered c x) (generation c x) (PanelContent.gray plane) =
      Versions.answer x.pipeline.grayscaleTracker.last x.pipeline.grayscaleTracker.generation
        plane := by
    rw [hremembered, hgeneration]
    exact answer_map (fun _ _ heq => PanelContent.gray.inj heq) _ _ _
  have hversioned := h.versioned.answered (PanelContent.gray plane)
  rw [hanswer] at hversioned
  dsimp only
  rw [hupdate]
  refine h.answer (fun e he => List.mem_append_left _ he) ?_ ?_ h.wellFormed
  · unfold remembered generation
    rw [if_neg hmono, if_neg hmono]
    dsimp only
    rw [hlast]
    exact hversioned
  · unfold generation
    rw [if_neg hmono]
    exact Nat.le_trans (answer_le _ _ _) (Nat.succ_le_succ hsmall)

/-! ### The conversion -/

/-- The converter has returned: the worker goes on with the plane that is presented, if any. -/
theorem Shows.converted_move (h : Shows c n versions log x) {job : Pipeline.Job}
    {result : Option Conversion} (hw : x.pipeline.worker = .converting job)
    (hconverted : ∀ conversion, result.bind (Pipeline.selectGrayscale job.composition) =
      some conversion → Converted c versions job.composition conversion)
    (hs : x.pipeline.convert result = some s') :
    Shows c n versions log { x with pipeline := s' } := by
  unfold Pipeline.convert at hs
  rw [hw] at hs
  dsimp only at hs
  split at hs
  · obtain rfl := Option.some.inj hs
    refine h.move ⟨rfl, rfl, rfl, rfl, rfl, rfl, rfl⟩ (by simp [hw]) (by simp [hw])
      (phaseHolds_of_empty (Or.inr (Or.inl rfl))) (Or.inr (newest_of_leaving rfl ?_))
    rw [hw]
    rfl
  · next conversion hconversion =>
    obtain rfl := Option.some.inj hs
    refine h.move ⟨rfl, rfl, rfl, rfl, rfl, rfl, rfl⟩ (by simp [hw]) (by simp [hw])
      ⟨by simp, by simp, by simp, ?_, by simp, by simp⟩ (Or.inr (newest_of_leaving rfl ?_))
    · rintro job' conversion' (hconverting | hno)
      · obtain ⟨rfl, rfl⟩ := Pipeline.WorkerPhase.converted.inj hconverting
        exact hconverted conversion hconversion
      · cases hno
    · rw [hw]
      rfl

/-- The presented plane of a signed conversion is the plane of its capture. -/
theorem captureGrayscale_of_signed {composition : CapturedComposition}
    {t t' : DeviceRgbFrameTracker} {conversion presented : Conversion} {source : RgbaSource}
    (hsigned : Signed c composition.composeBuffer t t' conversion source)
    (hsized : Sized c composition)
    (hselect : Pipeline.selectGrayscale composition conversion = some presented) :
    captureGrayscale c composition = some presented.grayscale ∧ presented.grayscale.WellFormed ∧
      presented.rgbSignature = conversion.rgbSignature := by
  unfold Pipeline.selectGrayscale at hselect
  unfold captureGrayscale
  split at hselect
  · next hdirect =>
    obtain ⟨plane, hplane, rfl⟩ := Option.map_eq_some_iff.mp hselect
    rw [if_pos hdirect]
    exact ⟨hplane, hsized.plane plane hplane, rfl⟩
  · next hdirect =>
    obtain rfl := Option.some.inj hselect
    rw [if_neg hdirect, hsigned.image]
    exact ⟨hsigned.grayscale, (wellFormed_of_convert hsigned.grayscale).2, rfl⟩

theorem Shows.convert (h : Shows c n versions log x) {readyFence : Option Nat}
    {calls : List ConverterEvent} {evs : List Event} (hhonest : Honest calls)
    (hcount : n + 1 < 2 ^ 64) (hs : x.convert c readyFence calls = some (x', evs)) :
    ∃ versions', Shows c (n + 1) versions' (log ++ evs) x' := by
  unfold TrackedPipeline.convert at hs
  split at hs
  swap
  · cases hs
  next job hw =>
  split at hs
  · cases hs
  next result tracker hreplay =>
  obtain ⟨⟨s₁, pevs⟩, hstep, heq⟩ := Option.map_eq_some_iff.mp hs
  obtain ⟨hs₁, hpevs⟩ := System.eq_of_map (r := x.pipeline.convert (conversionOf result)) hstep
  obtain ⟨rfl, rfl⟩ := Prod.mk.inj heq
  obtain rfl : pevs = [] := hpevs
  rw [List.map_nil, List.append_nil]
  have hsized := h.converting job hw
  rcases converted_of_replay hhonest hreplay with
    ⟨hnone, rfl⟩ | ⟨conversion, source, hsome, hsigned⟩
  · -- nothing has been signed
    rw [hnone] at hs₁
    exact ⟨versions, h.mono.converted_move hw (fun _ hno => absurd hno (by simp)) hs₁⟩
  rw [hsome] at hs₁
  have hvalid := (wellFormed_of_convert hsigned.grayscale).1
  cases hcolor : c.profile.hasColorCfa with
  | true =>
    have htracker : tracker = (x.rgbTracker.update c.maxSize source).2 := by
      rw [hsigned.tracker, sign, if_pos hcolor]
    have hsignature : conversion.rgbSignature = (x.rgbTracker.update c.maxSize source).1 := by
      rw [hsigned.signature, sign, if_pos hcolor]
    have hanswered := h.signColor hcolor hvalid (hsized.image source hsigned.image) hcount
    dsimp only at hanswered
    rw [← htracker, ← hsignature] at hanswered
    refine ⟨_, hanswered.converted_move hw ?_ hs₁⟩
    intro presented hselect
    obtain ⟨hgrayscale, hwellFormed, hkept⟩ := captureGrayscale_of_signed hsigned hsized hselect
    refine ⟨hgrayscale, hwellFormed, .color (colorsOf source), ?_, fun _ => ?_⟩
    · unfold captured
      rw [if_pos hcolor, hsigned.image]
      rfl
    · rw [hkept]
      exact List.mem_append_right _ (List.mem_singleton.mpr rfl)
  | false =>
    have htracker : tracker = x.rgbTracker := by
      rw [hsigned.tracker, sign, hcolor]
      rfl
    rw [htracker]
    refine ⟨versions, h.mono.converted_move hw ?_ hs₁⟩
    intro presented hselect
    obtain ⟨hgrayscale, hwellFormed, -⟩ := captureGrayscale_of_signed hsigned hsized hselect
    refine ⟨hgrayscale, hwellFormed, .gray presented.grayscale, ?_, fun hno => ?_⟩
    · unfold captured
      rw [hcolor, hgrayscale]
      rfl
    · rw [hcolor] at hno
      cases hno

/-! ### The evaluation -/

/-- What the latch does to a frame with a plane. -/
structure LatchEvaluates (l : SleepImageLatch) (frame : Frame)
    (r : SleepImageLatch × Frame × SleepImageDecision) : Prop where
  rect : r.2.1.dirtyRect = frame.dirtyRect
  plane : frame.grayscaleBuffer.isSome = true → r.2.1.grayscaleBuffer.isSome = true
  own : r.2.2 = .passThrough → r.2.1.grayscaleBuffer = frame.grayscaleBuffer
  consumed : l.state = .consumed → r.1.state = .consumed
  other : r.2.2 ≠ .passThrough → r.1.state = .consumed
  active : CycleActive l → CycleActive r.1

theorem latchEvaluates (l : SleepImageLatch) (frame : Frame)
    (selector : Option (Selector OwnedGrayscaleBuffer)) :
    LatchEvaluates l frame (l.evaluateFrame frame selector) := by
  have hactive := (SleepImageLatch.evaluate_epochs l ⟨frame.dirtyRect, frame.grayscaleBuffer⟩
    selector).1
  have hcases := SleepImageLatch.evaluate_cases l ⟨frame.dirtyRect, frame.grayscaleBuffer⟩ selector
  unfold SleepImageLatch.evaluateFrame
  generalize l.evaluate ⟨frame.dirtyRect, frame.grayscaleBuffer⟩ selector = r at hactive hcases
  have hstill : r.latch.state = l.state → CycleActive l → CycleActive r.latch := by
    intro hstate hcycle hsome
    rw [hactive]
    exact hcycle (hstate ▸ hsome)
  cases hcases with
  | ignored _ hstate hkept hdecision _ =>
    refine ⟨rfl, ?_, ?_, hstate.trans, fun hno => absurd hdecision hno, hstill hstate⟩
    · dsimp only
      rw [hkept]
      exact id
    · exact fun _ => congrArg ConvertedFrame.grayscaleBuffer hkept
  | unarmed _ _ hstate hkept hdecision _ =>
    refine ⟨rfl, ?_, ?_, hstate.trans, fun hother => ?_, hstill hstate⟩
    · dsimp only
      rw [hkept]
      exact id
    · exact fun _ => congrArg ConvertedFrame.grayscaleBuffer hkept
    · -- outside a consumed cycle it passes
      dsimp only at hother ⊢
      rw [hdecision] at hother
      split at hother
      · next hconsumed => exact hstate.trans hconsumed
      · exact absurd rfl hother
  | fallback _ harmed hstate hkept hdecision =>
    refine ⟨rfl, ?_, ?_, ?_, fun hno => absurd hdecision hno, ?_⟩
    · dsimp only
      rw [hkept]
      exact id
    · exact fun _ => congrArg ConvertedFrame.grayscaleBuffer hkept
    · intro hconsumed
      rw [harmed] at hconsumed
      cases hconsumed
    · rintro - (hno | hno)
      · exact absurd (hstate.symm.trans hno) (by simp)
      · exact absurd (hstate.symm.trans hno) (by simp)
  | replaced buffer _ harmed hstate hreplaced _ hdecision =>
    refine ⟨rfl, fun _ => ?_, fun hno => ?_, fun _ => hstate, fun _ => hstate, fun hcycle _ => ?_⟩
    · dsimp only
      rw [hreplaced]
      rfl
    · exact absurd (hdecision.symm.trans hno) (by simp)
    · rw [hactive]
      exact hcycle (Or.inr harmed)

/-- The gate evaluates a capture whose signature a tracker has given. -/
theorem Shows.gate (h : Shows c n versions log x) {job : Pipeline.Job} {conversion : Conversion}
    (hw : x.pipeline.worker = .checked job conversion) {v : Nat} {κ : PanelContent}
    (hcaptured : captured c job.composition = some κ) (hsigned : .answered κ v ∈ versions) :
    let r := x.pipeline.sleepImageLatch.evaluateFrame
      (Pipeline.convertedFrame c.toSettings job conversion.grayscale) x.pipeline.sleepSelector
    let g := x.pipeline.demandGate.evaluate ⟨v, conversion.grayscale.byteCount,
      conversion.grayscale.width, conversion.grayscale.height⟩
    Shows c n versions (log ++ [.evaluated job.composition]) { x with pipeline := { x.pipeline with
      worker := .evaluated job r.2.1 r.2.2 r.1.activeEpoch g.1
      sleepImageLatch := r.1
      demandGate := g.2 } } := by
  intro r g
  have hlatch : LatchEvaluates _ _ r := latchEvaluates _ _ _
  obtain ⟨hgrayscale, hwellFormed, -⟩ := h.converted job conversion (Or.inr hw)
  have hprevious : g.2.previous = some ⟨v, conversion.grayscale.byteCount,
      conversion.grayscale.width, conversion.grayscale.height⟩ :=
    RgbFrameTracker.evaluate_previous _ _
  have hevaluated : lastEvaluated (log ++ [.evaluated job.composition]) = some job.composition := by
    unfold lastEvaluated
    rw [List.filterMap_append, List.getLast?_append]
    rfl
  have hoffered : offered c (log ++ [.evaluated job.composition]) = offered c log := by
    rw [offered_append]
    rfl
  -- an unsettled pipeline stays unsettled
  have hkept : ∀ s₁ : Pipeline, s₁.sleepImageLatch = r.1 →
      s₁.resetDemandGate = x.pipeline.resetDemandGate →
      s₁.resetSourceState = x.pipeline.resetSourceState → Unsettled x.pipeline → Unsettled s₁ := by
    intro s₁ hl hdemand hsource hunsettled
    unfold Unsettled at hunsettled ⊢
    rw [hl, hdemand, hsource]
    exact hunsettled.imp_left hlatch.consumed
  refine {
    versioned := h.versioned
    counted := h.counted
    wellFormed := h.wellFormed
    active := hlatch.active h.active
    pending := h.pending
    converting := by simp
    converted := by simp
    absent := by simp
    started := fun _ => h.started (by simp [hw])
    stopping := fun _ => h.stopping (by simp [hw])
    baseline := ?_
    evaluated := ?_
    assembled := by simp }
  · intro signature hsome
    obtain rfl := Option.some.inj (hprevious.symm.trans hsome)
    refine ⟨κ, hsigned, ?_, ?_⟩
    · rw [hevaluated]
      exact hcaptured
    by_cases hdecision : r.2.2 = .passThrough
    swap
    · exact Or.inl (Or.inl (Or.inl (hlatch.other hdecision)))
    by_cases hdemand : g.1 = .unchanged
    · -- the newest frame is that of the capture before, which has the same content
      obtain ⟨κ', hanswered, -, hnewest⟩ := h.baseline _
        (RgbFrameTracker.previous_of_unchanged hdemand)
      obtain rfl := h.versioned.eq_of_version κ κ' v hsigned hanswered
      rcases hnewest with (hunsettled | hno) | hnewest
      · exact Or.inl (Or.inl (hkept _ rfl rfl rfl hunsettled))
      · exact absurd (hw.symm.trans hno) (by simp)
      · right
        rw [← hnewest, newest_eq, newest_eq, hoffered, hw]
        simp only [leaving, hdecision, hdemand, if_true]
    · -- the capture itself is the newest
      right
      rw [newest_eq]
      simp only [leaving, hdecision, if_neg hdemand, hcaptured]
      rfl
  · intro job' frame decision epoch demand hphase
    obtain ⟨rfl, rfl, rfl, -, -⟩ := Pipeline.WorkerPhase.evaluated.inj hphase
    refine ⟨?_, hevaluated, ⟨hlatch.plane rfl, ?_⟩, fun hpass => ?_, fun hother => ?_⟩
    · exact fun hno => absurd (hprevious.symm.trans hno) (by simp)
    · rw [hlatch.rect]
      simp [Pipeline.convertedFrame, Rect.full, Rect.isValid, hwellFormed.width, hwellFormed.height]
    · rw [hlatch.own hpass, hgrayscale]
      rfl
    · exact Or.inl (Or.inl (hlatch.other hother))

theorem Shows.evaluate (h : Shows c n versions log x) (hcount : n + 1 < 2 ^ 64)
    (hs : x.pipeline.evaluate c.toSettings = some s') :
    ∃ versions', Shows c (n + 1) versions' (log ++ evaluatedEvents x.pipeline)
      { x with pipeline := s' } := by
  unfold Pipeline.evaluate at hs
  split at hs
  swap
  · cases hs
  next job conversion hw =>
  obtain rfl := Option.some.inj hs
  have hevents : evaluatedEvents x.pipeline = [.evaluated job.composition] := by
    unfold evaluatedEvents
    rw [hw]
  rw [hevents]
  obtain ⟨hgrayscale, hwellFormed, κ, hcaptured, hsigned⟩ := h.converted job conversion (Or.inr hw)
  cases hcolor : c.profile.hasColorCfa with
  | true => exact ⟨versions, h.mono.gate hw hcaptured (hsigned hcolor)⟩
  | false =>
    have hplane : captured c job.composition = some (.gray conversion.grayscale) := by
      unfold captured
      rw [hcolor, hgrayscale]
      rfl
    exact ⟨_, (h.signGray hcolor hwellFormed hcount).gate hw hplane
      (List.mem_append_right _ (List.mem_singleton.mpr rfl))⟩

/-! ### The frame of a capture -/

/-- The frame of a capture that passes with its own plane shows what the capture shows. -/
theorem shown_captureFrame {job : Pipeline.Job} {frame : Frame} (epoch : Nat)
    (refresh : DiagnosticRefresh × Nat) (now : TimePoint)
    (hown : frame.grayscaleBuffer = captureGrayscale c job.composition) :
    shown c (Pipeline.captureFrame c.toSettings job frame .passThrough epoch refresh now) =
      captured c job.composition := by
  unfold shown captured
  split
  · next hcolor =>
    -- a color panel is given the captured buffer itself
    dsimp only [Pipeline.captureFrame, Pipeline.engineCompose]
    rw [if_pos hcolor]
    cases job.composition.composeBuffer with
    | none => rfl
    | some buffer => rfl
  · exact congrArg (Option.map PanelContent.gray) hown

theorem Shows.readRefresh (h : Shows c n versions log x) {now : TimePoint}
    (hs : x.pipeline.readRefresh c.toSettings now = some s') :
    Shows c n versions log { x with pipeline := s' } := by
  unfold Pipeline.readRefresh at hs
  split at hs
  swap
  · cases hs
  next job frame decision epoch demand hw =>
  split at hs
  · cases hs
  next hkept =>
  dsimp only at hs
  generalize (if (x.pipeline.enabled && x.pipeline.sleepImageLatch.activeEpoch = 0) = true then
    (x.pipeline.refreshMode, x.pipeline.refreshId) else (DiagnosticRefresh.none, 0)) = refresh at hs
  obtain rfl := Option.some.inj hs
  have hown := h.evaluated job frame decision epoch demand hw
  have hsettling : decision ≠ .passThrough → Unsettled x.pipeline := fun hother =>
    (hown.other hother).resolve_right (by simp [hw])
  split
  · -- the capture is dropped: nothing of it was on its way
    next hdropped =>
    simp only [Bool.and_eq_true, decide_eq_true_eq] at hdropped
    obtain ⟨⟨hunchanged, hplain⟩, -⟩ := hdropped
    refine h.move ⟨rfl, rfl, rfl, rfl, rfl, rfl, rfl⟩ (by simp [hw]) (by simp [hw])
      (phaseHolds_of_empty (Or.inr (Or.inr (Or.inl rfl)))) ?_
    right
    refine newest_of_leaving rfl ?_
    rw [hw]
    cases decision with
    | suppress => exact absurd rfl hkept
    | replace => exact absurd rfl hplain
    | passThrough => simp only [leaving, hunchanged, if_true]
  · -- the capture goes on, with a request or without
    refine h.move ⟨rfl, rfl, rfl, rfl, rfl, rfl, rfl⟩ (by simp [hw]) (by simp [hw])
      ⟨by simp, by simp, by simp, by simp, by simp, ?_⟩ ?_
    · intro frame' hassembled
      obtain rfl := Pipeline.WorkerPhase.assembled.inj hassembled
      refine ⟨⟨hown.presentable.plane, hown.presentable.rect⟩, ?_⟩
      by_cases hpass : decision = .passThrough
      · subst hpass
        exact Or.inl rfl
      · exact Or.inr (Or.inl (hsettling hpass))
    · by_cases hpass : decision = .passThrough
      swap
      · exact Or.inl (hsettling hpass)
      subst hpass
      have hshown : shown c (Pipeline.captureFrame c.toSettings job frame .passThrough epoch refresh
          now) = captured c job.composition := shown_captureFrame epoch refresh now (hown.own rfl)
      by_cases hunsettled : Unsettled x.pipeline
      · exact Or.inl hunsettled
      right
      obtain ⟨signature, hprevious⟩ := Option.ne_none_iff_exists'.mp hown.baseline
      obtain ⟨κ, -, hlast, hnewest⟩ := h.baseline signature hprevious
      have hcaptured : captured c job.composition = some κ := by
        rw [hown.last] at hlast
        exact hlast
      -- an unchanged capture is sent for its request only, and shows the newest content again
      rw [(hnewest.resolve_left (not_or.mpr ⟨hunsettled, by simp [hw]⟩)), newest_eq]
      show ((if (0 : Nat) = 0 then [shown c _] else []) ++ _).head? = _
      rw [if_pos rfl, hshown, hcaptured]
      rfl

theorem shown_finalFrame (s : Pipeline) (frame : Frame) :
    shown c (s.finalFrame frame) = shown c frame ∧
      (s.finalFrame frame).sleepImageEpoch = frame.sleepImageEpoch ∧
      (Presentable frame → Presentable (s.finalFrame frame)) := by
  unfold Pipeline.finalFrame
  split
  · exact ⟨rfl, rfl, fun h => ⟨h.plane, h.rect⟩⟩
  · exact ⟨rfl, rfl, id⟩

theorem Shows.enqueue (h : Shows c n versions log x) (hs : x.pipeline.enqueue = some s') :
    Shows c n versions log { x with pipeline := s' } := by
  unfold Pipeline.enqueue at hs
  split at hs
  swap
  · cases hs
  next frame hw =>
  dsimp only at hs
  obtain rfl := Option.some.inj hs
  obtain ⟨hpresentable, hordinary⟩ := h.assembled frame hw
  obtain ⟨hshown, hepoch, hfinal⟩ := shown_finalFrame (c := c) x.pipeline frame
  have hstarted := h.started (by simp [hw])
  have hlive := h.stopping (by simp [hw])
  have haccepts : x.pipeline.adapter.accepts (x.pipeline.finalFrame frame) = true := by
    have hframe := hfinal hpresentable
    simp [PresentationAdapter.accepts, hstarted, hlive, hframe.plane, hframe.rect]
  have hadapter : (x.pipeline.adapter.enqueue (x.pipeline.finalFrame frame)).2.started =
      x.pipeline.adapter.started ∧
      (x.pipeline.adapter.enqueue (x.pipeline.finalFrame frame)).2.stopping =
        x.pipeline.adapter.stopping := by
    rw [PresentationAdapter.enqueue_of_accepts haccepts]
    exact ⟨rfl, rfl⟩
  exact {
    versioned := h.versioned
    counted := h.counted
    wellFormed := h.wellFormed
    active := h.active
    pending := h.pending
    converting := by simp
    converted := by simp
    absent := by simp
    started := fun _ => hadapter.1.trans hstarted
    stopping := fun _ => hadapter.2.trans hlive
    baseline := by
      intro signature hprevious
      obtain ⟨κ, hanswered, hlast, hnewest⟩ := h.baseline signature hprevious
      refine ⟨κ, hanswered, hlast, ?_⟩
      rcases hnewest with (hunsettled | hno) | hnewest
      · exact Or.inl (Or.inl hunsettled)
      · exact absurd (hw.symm.trans hno) (by simp)
      rcases hordinary with hordinary | hunsettled | hno
      · -- the frame is the newest before and after
        right
        have hway := adapterWay_enqueue (c := c) haccepts (hepoch.trans hordinary)
        rw [newest_eq] at hnewest ⊢
        rw [hw] at hnewest
        dsimp only [leaving] at hnewest ⊢
        rw [if_pos hordinary] at hnewest
        rw [hway, hshown]
        exact hnewest
      · exact Or.inl (Or.inl hunsettled)
      · exact absurd (hw.symm.trans hno) (by simp)
    evaluated := by simp
    assembled := by simp }

/-! ### Every step -/

theorem Shows.step {a : Action} {evs : List Event} (h : Shows c n versions log x)
    (hok : WellBehaved c x a) (hcount : n + 1 < 2 ^ 64)
    (hs : (system c).step x a = some (x', evs)) :
    ∃ versions', Shows c (n + 1) versions' (log ++ evs) x' := by
  have hsilent : ∀ {s' : Pipeline}, Shows c n versions log { x with pipeline := s' } →
      ∃ versions', Shows c (n + 1) versions' (log ++ []) { x with pipeline := s' } := by
    intro s' hnext
    rw [List.append_nil]
    exact ⟨versions, hnext.mono⟩
  cases steps_of_step hs with
  | quiet hquiet => exact ⟨versions, (h.quiet hquiet).mono⟩
  | startThreads hs' => exact hsilent (h.startThreads hs')
  | stopAdapter hs' => exact hsilent (h.stopAdapter hs')
  | captured composition ha => exact hsilent (h.onCapturedComposition (hok.sized composition ha))
  | dequeue hs' =>
    rw [List.append_nil]
    exact h.mono.dequeue hs'
  | converted readyFence calls ha hs' => exact h.convert (hok.honest readyFence calls ha) hcount hs'
  | failed hs' => exact hsilent (h.conversionFailed hs')
  | checked hs' => exact hsilent (h.checkSource hs')
  | held hs' => exact hsilent (h.hold hs')
  | evaluated hs' => exact h.evaluate hcount hs'
  | read now hs' => exact hsilent (h.readRefresh hs')
  | enqueued hs' =>
    -- the adapter's slot is not yet a submission
    have hevents : shownEvents c (x.pipeline.enqueuedFrame.toList.map .enqueued) = [] := by
      cases x.pipeline.enqueuedFrame <;> rfl
    refine ⟨versions, ((h.enqueue hs').quiet ?_).mono⟩
    exact .of_same rfl rfl rfl (Or.inl rfl) rfl (fun h => h) (fun h => h)
      (hevents ▸ handsOut_refl c _)
  | finished hs' => exact hsilent (h.finish hs')

end EinkLab.TrackedPipeline
