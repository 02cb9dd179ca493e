import EinkLab.Pipeline.Equiv.Shown

/-!
# The panel shows captures in their order

`offered_in_order`: what the engine is asked to show by ordinary frames is a subsequence of what the
demand gate has evaluated.  So no capture is shown twice, none before an older one, and nothing that
was not captured.

The sequences run from the newest to the oldest, as `offered` does.  The invariant (`InOrder`)
counts what is in the adapter as already shown, and what is in the worker's hands as still to come.
-/

namespace EinkLab.TrackedPipeline

open Transition Versions AndroidGrayscaleConverter

variable {c : Settings} {x x' : TrackedPipeline} {s s' : Pipeline} {log : List Event}
  {versions : List (Versions.Event PanelContent)} {n : Nat}

/-- What the captures that the gate has evaluated show, the newest first. -/
def evaluatedContents (c : Settings) (log : List Event) : List (Option PanelContent) :=
  ((log.filterMap Event.capture).map (captured c)).reverse

/-- What the adapter has been given to show, the newest first. -/
def given (c : Settings) (log : List Event) (s : Pipeline) : List (Option PanelContent) :=
  adapterWay c s.adapter ++ offered c log

/-- What the adapter has been given is in order, and so will be what the worker has in hand. -/
structure InOrder (c : Settings) (log : List Event) (s : Pipeline) : Prop where
  given : (given c log s).Sublist (evaluatedContents c log)
  evaluated : ∀ job frame decision epoch demand,
    s.worker = .evaluated job frame decision epoch demand → (decision = .replace → epoch ≠ 0) ∧
      ∃ pre, evaluatedContents c log = captured c job.composition :: pre ∧
        (TrackedPipeline.given c log s).Sublist pre
  assembled : ∀ frame, s.worker = .assembled frame → frame.IsOrdinary →
    ∃ pre, evaluatedContents c log = shown c frame :: pre ∧
      (TrackedPipeline.given c log s).Sublist pre

theorem inOrder_init (c : Settings) : InOrder c [] {} where
  given := List.Sublist.refl _
  evaluated := fun _ _ _ _ _ hno => nomatch hno
  assembled := fun _ hno => nomatch hno

theorem evaluatedContents_append (c : Settings) (log log' : List Event) :
    evaluatedContents c (log ++ log') = evaluatedContents c log' ++ evaluatedContents c log := by
  simp [evaluatedContents]

theorem evaluatedContents_pipeline (c : Settings) (evs : List Pipeline.Event) :
    evaluatedContents c (evs.map .pipeline) = [] := by
  have hnone : (evs.map Event.pipeline).filterMap Event.capture = [] := by
    rw [List.filterMap_eq_nil_iff]
    intro e he
    obtain ⟨e', -, rfl⟩ := List.mem_map.mp he
    rfl
  rw [evaluatedContents, hnone]
  rfl

/-- The adapter is given nothing, and the worker keeps what it has or puts it down. -/
theorem InOrder.keep {evs : List Pipeline.Event} (h : InOrder c log s)
    (hjoins : (adapterWay c s'.adapter ++ shownEvents c evs).Sublist (adapterWay c s.adapter))
    (hworker : s'.worker = s.worker ∨
      (∀ job frame decision epoch demand, s'.worker ≠ .evaluated job frame decision epoch demand) ∧
        ∀ frame, s'.worker ≠ .assembled frame) :
    InOrder c (log ++ evs.map .pipeline) s' := by
  have hgiven : (TrackedPipeline.given c (log ++ evs.map .pipeline) s').Sublist
      (TrackedPipeline.given c log s) := by
    unfold TrackedPipeline.given
    rw [offered_append, ← List.append_assoc]
    exact hjoins.append (List.Sublist.refl _)
  have hcontents : evaluatedContents c (log ++ evs.map .pipeline) = evaluatedContents c log := by
    rw [evaluatedContents_append, evaluatedContents_pipeline, List.nil_append]
  refine ⟨?_, ?_, ?_⟩
  · rw [hcontents]
    exact hgiven.trans h.given
  · intro job frame decision epoch demand hw
    rcases hworker with hsame | ⟨hnone, -⟩
    · obtain ⟨hepoch, pre, hpre, hsub⟩ :=
        h.evaluated job frame decision epoch demand (hsame ▸ hw)
      exact ⟨hepoch, pre, hcontents.trans hpre, hgiven.trans hsub⟩
    · exact absurd hw (hnone job frame decision epoch demand)
  · intro frame hw hordinary
    rcases hworker with hsame | ⟨-, hnone⟩
    · obtain ⟨pre, hpre, hsub⟩ := h.assembled frame (hsame ▸ hw) hordinary
      exact ⟨pre, hcontents.trans hpre, hgiven.trans hsub⟩
    · exact absurd hw (hnone frame)

/-- A step of the worker that leaves the adapter alone and ends without a frame. -/
theorem InOrder.putDown (h : InOrder c log s) (hadapter : s'.adapter = s.adapter)
    (hevaluated : ∀ job frame decision epoch demand,
      s'.worker ≠ .evaluated job frame decision epoch demand)
    (hassembled : ∀ frame, s'.worker ≠ .assembled frame) : InOrder c log s' := by
  have hjoins : (adapterWay c s'.adapter ++ shownEvents c []).Sublist (adapterWay c s.adapter) := by
    rw [hadapter]
    show (adapterWay c s.adapter ++ []).Sublist _
    rw [List.append_nil]
  have hkeep := h.keep hjoins (Or.inr ⟨hevaluated, hassembled⟩)
  rwa [List.map_nil, List.append_nil] at hkeep

/-! ### The worker's steps -/

theorem InOrder.startThreads (h : InOrder c log s) (hs : s.startThreads = some s') :
    InOrder c log s' := by
  unfold Pipeline.startThreads at hs
  split_ifs at hs
  obtain rfl := Option.some.inj hs
  have hjoins : (adapterWay c s.adapter.start).Sublist (adapterWay c s.adapter) := by
    unfold PresentationAdapter.start
    split_ifs
    · exact List.Sublist.refl _
    · exact List.Sublist.refl _
    · exact (List.Sublist.refl _).append (List.nil_sublist _)
  have hkeep : InOrder c (log ++ ([] : List Pipeline.Event).map .pipeline)
      { s with adapter := s.adapter.start, worker := .waiting } :=
    h.keep ((List.append_nil _).symm ▸ hjoins) (Or.inr ⟨by simp, by simp⟩)
  rwa [List.map_nil, List.append_nil] at hkeep

theorem InOrder.stopAdapter (h : InOrder c log s) (hs : s.stopAdapter = some s') :
    InOrder c log s' := by
  unfold Pipeline.stopAdapter at hs
  split_ifs at hs
  obtain rfl := Option.some.inj hs
  have hjoins : (adapterWay c s.adapter.stop).Sublist (adapterWay c s.adapter) := by
    unfold PresentationAdapter.stop
    split_ifs
    · exact List.Sublist.refl _
    · exact List.sublist_append_right _ _
  have hkeep : InOrder c (log ++ ([] : List Pipeline.Event).map .pipeline)
      { s with adapter := s.adapter.stop } :=
    h.keep ((List.append_nil _).symm ▸ hjoins) (Or.inl rfl)
  rwa [List.map_nil, List.append_nil] at hkeep

theorem InOrder.onCapturedComposition (h : InOrder c log s) (composition : CapturedComposition) :
    InOrder c log (s.onCapturedComposition composition) := by
  unfold Pipeline.onCapturedComposition
  split_ifs
  · exact h
  · exact h
  · exact ⟨h.given, h.evaluated, h.assembled⟩

theorem InOrder.convert {evs : List Event} {readyFence : Option Nat} {calls : List ConverterEvent}
    (h : InOrder c log x.pipeline) (hs : x.convert c readyFence calls = some (x', evs)) :
    InOrder c (log ++ evs) x'.pipeline := by
  unfold TrackedPipeline.convert at hs
  split at hs
  swap
  · cases hs
  split at hs
  · cases hs
  obtain ⟨⟨s', pevs⟩, hstep, heq⟩ := Option.map_eq_some_iff.mp hs
  obtain ⟨hs', rfl⟩ := System.eq_of_map (f := fun _ => []) hstep
  obtain ⟨rfl, rfl⟩ := Prod.mk.inj heq
  rw [List.map_nil, List.append_nil]
  unfold Pipeline.convert at hs'
  split at hs'
  · split at hs'
    · obtain rfl := Option.some.inj hs'
      exact h.putDown rfl (by simp) (by simp)
    · obtain rfl := Option.some.inj hs'
      exact h.putDown rfl (by simp) (by simp)
  · cases hs'

theorem InOrder.conversionFailed (h : InOrder c log s) (hs : s.conversionFailed = some s') :
    InOrder c log s' := by
  unfold Pipeline.conversionFailed at hs
  split at hs
  · obtain rfl := Option.some.inj hs
    dsimp only
    split_ifs <;> exact h.putDown rfl (by simp) (by simp)
  · cases hs

theorem InOrder.checkSource (h : InOrder c log s) (hs : s.checkSource = some s') :
    InOrder c log s' := by
  unfold Pipeline.checkSource at hs
  split at hs
  · obtain rfl := Option.some.inj hs
    split_ifs <;> exact h.putDown rfl (by simp) (by simp)
  · cases hs

theorem InOrder.hold (h : InOrder c log s) (hs : s.hold = some s') : InOrder c log s' := by
  unfold Pipeline.hold at hs
  split at hs
  · obtain rfl := Option.some.inj hs
    exact h.putDown rfl (by simp) (by simp)
  · cases hs

theorem InOrder.finish (h : InOrder c log s) (hs : s.finish = some s') : InOrder c log s' := by
  unfold Pipeline.finish at hs
  split at hs
  · obtain rfl := Option.some.inj hs
    exact h.putDown rfl (by simp) (by simp)
  · obtain rfl := Option.some.inj hs
    exact h.putDown rfl (by simp) (by simp)
  · cases hs

theorem InOrder.evaluate (h : InOrder c log s) (hactive : CycleActive s.sleepImageLatch)
    (hs : s.evaluate c.toSettings = some s') : InOrder c (log ++ evaluatedEvents s) s' := by
  unfold Pipeline.evaluate at hs
  split at hs
  swap
  · cases hs
  next job conversion hw =>
  obtain rfl := Option.some.inj hs
  have hlatch := latchEvaluates s.sleepImageLatch
    (Pipeline.convertedFrame c.toSettings job conversion.grayscale) s.sleepSelector
  have hevents : evaluatedEvents s = [.evaluated job.composition] := by
    unfold evaluatedEvents
    rw [hw]
  rw [hevents]
  have hcontents : evaluatedContents c (log ++ [.evaluated job.composition]) =
      captured c job.composition :: evaluatedContents c log := by
    rw [evaluatedContents_append]
    rfl
  -- the capture is the newest, and has not been given to the adapter
  have hgiven : ∀ (s₁ : Pipeline) (l : List (Option PanelContent)), s₁.adapter = s.adapter →
      (TrackedPipeline.given c log s).Sublist l →
      (TrackedPipeline.given c (log ++ [.evaluated job.composition]) s₁).Sublist l := by
    intro s₁ l hadapter hsub
    unfold TrackedPipeline.given
    rw [offered_append, hadapter]
    exact hsub
  refine ⟨?_, ?_, by simp⟩
  · rw [hcontents]
    exact hgiven _ _ rfl (h.given.cons _)
  · intro job' frame decision epoch demand hphase
    obtain ⟨rfl, -, rfl, rfl, -⟩ := Pipeline.WorkerPhase.evaluated.inj hphase
    refine ⟨fun hreplace => ?_, evaluatedContents c log, hcontents, hgiven _ _ rfl h.given⟩
    have hconsumed := hlatch.other fun hpass => absurd (hreplace.symm.trans hpass) (by simp)
    exact hlatch.active hactive (Or.inl hconsumed)

theorem InOrder.readRefresh (h : InOrder c log x.pipeline) (hshows : Shows c n versions log x)
    {now : TimePoint} (hs : x.pipeline.readRefresh c.toSettings now = some s') :
    InOrder c log s' := by
  unfold Pipeline.readRefresh at hs
  split at hs
  swap
  · cases hs
  next job frame decision epoch demand hw =>
  split at hs
  · cases hs
  next hkept =>
  dsimp only at hs
  generalize (if (x.pipeline.enabled && x.pipeline.sleepImageLatch.activeEpoch = 0) = true then
    (x.pipeline.refreshMode, x.pipeline.refreshId) else (DiagnosticRefresh.none, 0)) = refresh at hs
  obtain rfl := Option.some.inj hs
  split
  · exact h.putDown rfl (by simp) (by simp)
  obtain ⟨hepoch, pre, hpre, hsub⟩ := h.evaluated job frame decision epoch demand hw
  refine ⟨h.given, by simp, ?_⟩
  intro frame' hassembled hordinary
  obtain rfl := Pipeline.WorkerPhase.assembled.inj hassembled
  cases decision with
  | suppress => exact absurd rfl hkept
  | replace =>
    -- a replaced frame has the epoch of its cycle
    exact absurd hordinary (hepoch rfl)
  | passThrough =>
    have hown := (hshows.evaluated job frame _ epoch demand hw).own rfl
    refine ⟨pre, ?_, hsub⟩
    rw [hpre, shown_captureFrame epoch refresh now hown]

theorem InOrder.enqueue (h : InOrder c log s) (hs : s.enqueue = some s') : InOrder c log s' := by
  unfold Pipeline.enqueue at hs
  split at hs
  swap
  · cases hs
  next frame hw =>
  dsimp only at hs
  obtain rfl := Option.some.inj hs
  obtain ⟨hshown, hepoch, -⟩ := shown_finalFrame (c := c) s frame
  refine ⟨?_, by simp, by simp⟩
  by_cases hordinary : frame.IsOrdinary
  · obtain ⟨pre, hpre, hsub⟩ := h.assembled frame hw hordinary
    cases haccepts : s.adapter.accepts (s.finalFrame frame) with
    | false =>
      show (adapterWay c (s.adapter.enqueue (s.finalFrame frame)).2 ++ _).Sublist _
      rw [PresentationAdapter.enqueue_of_not_accepts haccepts]
      exact h.given
    | true =>
      -- the frame takes the slot, and what the slot held is lost
      have hway := adapterWay_enqueue (c := c) haccepts (hepoch.trans hordinary)
      show (adapterWay c (s.adapter.enqueue (s.finalFrame frame)).2 ++ _).Sublist _
      rw [hway, hshown, hpre]
      refine List.Sublist.cons_cons _ ((List.Sublist.append ?_ (List.Sublist.refl _)).trans hsub)
      exact List.sublist_append_right _ _
  · refine List.Sublist.trans ?_ h.given
    exact (adapterWay_enqueue_sleepImage fun hno => hordinary (hepoch.symm.trans hno)).append
      (List.Sublist.refl _)

/-! ### Every step -/

theorem InOrder.step {a : Action} {evs : List Event} (h : InOrder c log x.pipeline)
    (hshows : Shows c n versions log x) (hs : (system c).step x a = some (x', evs)) :
    InOrder c (log ++ evs) x'.pipeline := by
  have hput : ∀ {s' : Pipeline}, InOrder c log s' → InOrder c (log ++ []) s' := by
    intro s' hnext
    rwa [List.append_nil]
  cases steps_of_step hs with
  | quiet hquiet => exact h.keep hquiet.joins (Or.inl hquiet.worker)
  | startThreads hs' => exact hput (h.startThreads hs')
  | stopAdapter hs' => exact hput (h.stopAdapter hs')
  | captured composition _ => exact hput (h.onCapturedComposition composition)
  | dequeue hs' =>
    refine hput ?_
    rcases dequeue_cases hs' with ⟨-, -, rfl⟩ | ⟨composition, htakes⟩
    · exact h.putDown rfl (by simp) (by simp)
    · obtain ⟨job, -, hw⟩ := htakes.worker
      exact h.putDown htakes.adapter (by simp [hw]) (by simp [hw])
  | converted readyFence calls _ hs' => exact h.convert hs'
  | failed hs' => exact hput (h.conversionFailed hs')
  | checked hs' => exact hput (h.checkSource hs')
  | held hs' => exact hput (h.hold hs')
  | evaluated hs' => exact h.evaluate hshows.active hs'
  | read now hs' => exact hput (h.readRefresh hshows hs')
  | enqueued hs' =>
    have hevents : shownEvents c (x.pipeline.enqueuedFrame.toList.map .enqueued) = [] := by
      cases x.pipeline.enqueuedFrame <;> rfl
    refine (h.enqueue hs').keep ?_ (Or.inl rfl)
    rw [hevents, List.append_nil]
  | finished hs' => exact hput (h.finish hs')

/-! ### Every run -/

theorem inOrder_of_run {as : List Action} (h : (system c).Run (WellBehaved c) {} as log x)
    (hlength : as.length < 2 ^ 64) : InOrder c log x.pipeline := by
  refine (h.induct (fun as log x => as.length < 2 ^ 64 →
    (∃ versions, Shows c as.length versions log x) ∧ InOrder c log x.pipeline) ?_ ?_ hlength).2
  · exact fun _ => ⟨⟨[], shows_init c⟩, inOrder_init c⟩
  · intro as log x a x' evs ih hok hs hlength
    rw [List.length_append, List.length_singleton] at hlength ⊢
    obtain ⟨⟨versions, hshows⟩, horder⟩ := ih (by omega)
    exact ⟨hshows.step hok hlength hs, horder.step hshows hs⟩

/-- **Captures are shown in their order**, each at most once: in every run, what the ordinary frames
ask the engine to show is a subsequence of what the demand gate has evaluated. -/
theorem offered_in_order {as : List Action} (h : (system c).Run (WellBehaved c) {} as log x)
    (hlength : as.length < 2 ^ 64) :
    (ordinary c (log.filterMap Event.offered)).Sublist
      ((log.filterMap Event.capture).map (captured c)) := by
  have horder := (inOrder_of_run h hlength).given
  have hoffered : (offered c log).Sublist (evaluatedContents c log) :=
    (List.sublist_append_right _ _).trans horder
  have hreverse : offered c log = (ordinary c (log.filterMap Event.offered)).reverse := by
    simp [offered, ordinary]
  rw [hreverse, evaluatedContents, List.reverse_sublist] at hoffered
  exact hoffered

theorem offered_in_order_page :
    (ordinary pageSettings (pageShown.2.filterMap Event.offered)).Sublist
      ((pageShown.2.filterMap Event.capture).map (captured pageSettings)) :=
  offered_in_order (run_of_wellBehaved _ wellBehaved_submitPage) (by decide)

end EinkLab.TrackedPipeline
