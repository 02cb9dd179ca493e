import EinkLab.Pipeline.Equiv.Line
import EinkLab.Pipeline.Equiv.Shown

/-!
# Suppression and the frames that the engine has accepted

`dropped_is_newest`: when the worker drops a capture as unchanged, the newest content among the
adapter's pending ordinary frame, the frame in submission and the last ordinary frame that the
engine has accepted is that of the capture.  This holds in every run in which the engine refuses an
ordinary frame only behind a newer one, no capture is dropped in a consumed sleep cycle, and none is
still to be judged when such a cycle is disarmed (`Steady`).  `refused_page_dropped` is a run with
a refusal.

The invariant is `Current`: the head of the line shows what the gate has judged last, unless that
is forgotten.  The signatures tell contents apart by the invariant of `Shows`.
-/

namespace EinkLab.TrackedPipeline

open Transition Versions AndroidGrayscaleConverter

variable {c : Settings} {x x' : TrackedPipeline} {s s' : Pipeline} {log : List Event}
  {versions : List (Versions.Event PanelContent)} {n : Nat}

/-! ### The conditions of a run -/

/-- The step keeps the baseline on what the panel gets. -/
def Steady (c : Settings) (x : TrackedPipeline) : Action → Prop
  -- the engine refuses an ordinary frame
  | .pipeline (.submitReturn false _) =>
    ∀ frame ∈ taken x.pipeline.adapter.worker, frame.IsOrdinary → Overtaken c x.pipeline
  -- a capture is dropped, with a sleep image in the place of what was pending
  | .pipeline (.readRefresh _) =>
    x.pipeline.sleepImageLatch.state = .consumed → dropping x.pipeline.worker = false
  -- the gate is reset when the next capture is dequeued, which is too late for the one in hand
  | .pipeline (.disarmSleepCycle epoch) =>
    epoch ≠ 0 → x.pipeline.sleepImageLatch.activeEpoch = epoch →
      x.pipeline.sleepImageLatch.state = .consumed → judging x.pipeline = false
  | _ => True

instance (c : Settings) (x : TrackedPipeline) (a : Action) : Decidable (Steady c x a) := by
  unfold Steady
  split <;> infer_instance

structure KeepsBaseline (c : Settings) (x : TrackedPipeline) (a : Action) : Prop
    extends WellBehaved c x a where
  steady : Steady c x a

/-! ### The invariant -/

/-- The head of the line shows what the baseline stands for, unless the baseline is forgotten. -/
structure Current (c : Settings) (log : List Event) (s : Pipeline) : Prop where
  newest : s.demandGate.previous ≠ none → s.worker ≠ .exited → ¬Forgotten s →
    (line c log s).head? = some (some ((lastEvaluated log).bind (captured c)))
  evaluated : ∀ job frame decision epoch demand,
    s.worker = .evaluated job frame decision epoch demand → decision ≠ .passThrough → Forgotten s
  assembled : ∀ frame, s.worker = .assembled frame → frame.IsOrdinary ∨ Forgotten s

theorem Current.moves {evs : List Pipeline.Event} (h : Current c log s)
    (hmoves : Moves c log s s' evs) : Current c (log ++ evs.map .pipeline) s' where
  newest := by
    intro hprevious hlive hkept
    rw [hmoves.gate] at hprevious
    rw [hmoves.worker] at hlive
    rw [lastEvaluated_pipeline]
    exact hmoves.line hprevious hkept _
      (h.newest hprevious hlive fun hforgotten => hkept (hmoves.forgotten hforgotten))
  evaluated := fun job frame decision epoch demand hw hother =>
    hmoves.forgotten (h.evaluated job frame decision epoch demand (hmoves.worker ▸ hw) hother)
  assembled := fun frame hw =>
    (h.assembled frame (hmoves.worker ▸ hw)).imp_right hmoves.forgotten

/-! ### The conversion worker -/

/-- The worker goes on with nothing more or less on its way to the adapter. -/
theorem Current.work (h : Current c log s) (hrest : SameRest s s') (hlive : s.worker ≠ .exited)
    (hjudging : judging s = false → judging s' = false)
    (hleaving : leaving c s'.worker = leaving c s.worker)
    (hevaluated : ∀ job frame decision epoch demand,
      s'.worker ≠ .evaluated job frame decision epoch demand)
    (hassembled : ∀ frame, s'.worker ≠ .assembled frame) : Current c log s' where
  newest := by
    intro hprevious _ hkept
    rw [line, hleaving, hrest.adapter]
    refine h.newest (hrest.gate ▸ hprevious) hlive fun hforgotten => hkept ?_
    exact hforgotten.mono (fun hstate => hrest.latch ▸ hstate) hrest.resetDemand.trans hjudging
  evaluated := fun job frame decision epoch demand hw =>
    absurd hw (hevaluated job frame decision epoch demand)
  assembled := fun frame hw => absurd hw (hassembled frame)

/-- The worker lets go of a capture that was not on its way to the adapter. -/
theorem Current.letGo (h : Current c log s) (hrest : SameRest s s') (hlive : s.worker ≠ .exited)
    (hleaving : leaving c s.worker = [])
    (hempty : s'.worker = .waiting ∨ s'.worker = .failed ∨ s'.worker = .unchanged) :
    Current c log s' := by
  refine h.work hrest hlive (fun _ => ?_) ?_ ?_ ?_
  · unfold judging
    rcases hempty with hw | hw | hw <;> rw [hw] <;> rfl
  · rw [hleaving]
    rcases hempty with hw | hw | hw <;> rw [hw] <;> rfl
  · rcases hempty with hw | hw | hw <;> simp [hw]
  · rcases hempty with hw | hw | hw <;> simp [hw]

theorem current_of_startThreads (hnone : s.worker = .absent →
    s.demandGate.previous = none) (hs : s.startThreads = some s') : Current c log s' := by
  unfold Pipeline.startThreads at hs
  split_ifs at hs with hcond
  simp only [Bool.and_eq_true, decide_eq_true_eq] at hcond
  obtain rfl := Option.some.inj hs
  exact {
    newest := fun hprevious => absurd (hnone hcond.2) hprevious
    evaluated := by simp
    assembled := by simp }

theorem current_of_stopAdapter (hs : s.stopAdapter = some s') : Current c log s' := by
  unfold Pipeline.stopAdapter at hs
  split_ifs at hs with hcond
  simp only [Bool.and_eq_true, decide_eq_true_eq] at hcond
  obtain rfl := Option.some.inj hs
  have hexited := hcond.2
  exact {
    newest := fun _ hlive => absurd hexited hlive
    evaluated := fun job frame decision epoch demand hw => absurd (hexited.symm.trans hw) (by simp)
    assembled := fun frame hw => absurd (hexited.symm.trans hw) (by simp) }

theorem moves_onCapturedComposition (s : Pipeline) (composition : CapturedComposition) :
    Moves c log s (s.onCapturedComposition composition) [] := by
  have hsame : Moves c log s s [] :=
    ⟨rfl, rfl, id, fun _ _ κ hhead => by rw [List.map_nil, List.append_nil]; exact hhead⟩
  unfold Pipeline.onCapturedComposition
  split_ifs
  · exact hsame
  · exact hsame
  · exact ⟨rfl, rfl, id, hsame.line⟩

theorem Current.conversionFailed (h : Current c log s) (hs : s.conversionFailed = some s') :
    Current c log s' := by
  unfold Pipeline.conversionFailed at hs
  split at hs
  · next hw =>
    dsimp only at hs
    split at hs
    all_goals
      obtain rfl := Option.some.inj hs
      exact h.letGo ⟨rfl, rfl, rfl, rfl, rfl, rfl, rfl⟩ (by simp [hw]) (by rw [hw]; rfl)
        (Or.inl rfl)
  · cases hs

/-- The converter's return neither makes a stale capture current nor sends one on. -/
theorem Current.convert {result : Option Conversion} (h : Current c log s)
    (hs : s.convert result = some s') : Current c log s' := by
  unfold Pipeline.convert at hs
  split at hs
  swap
  · cases hs
  next job hw =>
  split at hs
  · obtain rfl := Option.some.inj hs
    exact h.letGo ⟨rfl, rfl, rfl, rfl, rfl, rfl, rfl⟩ (by simp [hw]) (by rw [hw]; rfl)
      (Or.inr (Or.inl rfl))
  · obtain rfl := Option.some.inj hs
    refine h.work ⟨rfl, rfl, rfl, rfl, rfl, rfl, rfl⟩ (by simp [hw]) (fun hjudging => ?_)
      (by rw [hw]; rfl) (by simp) (by simp)
    unfold judging at hjudging ⊢
    rw [hw] at hjudging
    exact hjudging

theorem Current.checkSource (h : Current c log s) (hs : s.checkSource = some s') :
    Current c log s' := by
  unfold Pipeline.checkSource at hs
  split at hs
  swap
  · cases hs
  next job conversion hw =>
  split at hs
  · obtain rfl := Option.some.inj hs
    exact h.letGo ⟨rfl, rfl, rfl, rfl, rfl, rfl, rfl⟩ (by simp [hw]) (by rw [hw]; rfl) (Or.inl rfl)
  · -- a capture that passes was to be judged before
    next hcurrent =>
    obtain rfl := Option.some.inj hs
    refine h.work ⟨rfl, rfl, rfl, rfl, rfl, rfl, rfl⟩ (by simp [hw]) (fun hjudging => ?_)
      (by rw [hw]; rfl) (by simp) (by simp)
    unfold judging at hjudging
    rw [hw] at hjudging
    exact absurd (Nat.le_of_eq (not_not.mp hcurrent).symm) (of_decide_eq_false hjudging)

theorem Current.hold (h : Current c log s) (hs : s.hold = some s') : Current c log s' := by
  unfold Pipeline.hold at hs
  split at hs
  · next hw =>
    obtain rfl := Option.some.inj hs
    exact h.letGo ⟨rfl, rfl, rfl, rfl, rfl, rfl, rfl⟩ (by simp [hw]) (by rw [hw]; rfl) (Or.inl rfl)
  · cases hs

theorem Current.finish (h : Current c log s) (hs : s.finish = some s') : Current c log s' := by
  unfold Pipeline.finish at hs
  split at hs
  · next hw =>
    obtain rfl := Option.some.inj hs
    exact h.letGo ⟨rfl, rfl, rfl, rfl, rfl, rfl, rfl⟩ (by simp [hw]) (by rw [hw]; rfl) (Or.inl rfl)
  · next hw =>
    obtain rfl := Option.some.inj hs
    exact h.letGo ⟨rfl, rfl, rfl, rfl, rfl, rfl, rfl⟩ (by simp [hw]) (by rw [hw]; rfl) (Or.inl rfl)
  · cases hs

/-- A gate that still remembers was not to be reset. -/
theorem Current.dequeue (h : Current c log s) (hs : s.dequeue = some s') : Current c log s' := by
  rcases dequeue_cases hs with ⟨-, -, rfl⟩ | ⟨composition, htakes⟩
  · exact {
      newest := fun _ hno => absurd rfl hno
      evaluated := by simp
      assembled := by simp }
  obtain ⟨job, -, hw⟩ := htakes.worker
  exact {
    newest := by
      intro hprevious _ hkept
      obtain ⟨signature, hsome⟩ := Option.ne_none_iff_exists'.mp hprevious
      obtain ⟨hdemand, -, hwas⟩ := htakes.gate signature hsome
      rw [line, hw, htakes.adapter]
      have hline := h.newest (by simp [hwas]) (by simp [htakes.was]) ?_
      · rw [line, htakes.was] at hline
        exact hline
      · rintro (hconsumed | ⟨hreset, -⟩)
        · exact hkept (Or.inl (htakes.latch.symm ▸ hconsumed))
        · exact absurd (hdemand.symm.trans hreset) (by simp)
    evaluated := by simp [hw]
    assembled := by simp [hw] }

/-- The gate's signature belongs to one content. -/
theorem Shows.last_eq (h : Shows c n versions log x) {signature : FrameSignature}
    (hprevious : x.pipeline.demandGate.previous = some signature) {κ : PanelContent}
    (hsigned : .answered κ signature.hash ∈ versions) :
    (lastEvaluated log).bind (captured c) = some κ := by
  obtain ⟨κ', hanswered, hlast, -⟩ := h.baseline signature hprevious
  rw [hlast, h.versioned.eq_of_version κ κ' _ hsigned hanswered]

/-- The capture that is evaluated shows what the last one shows, if it has the same signature. -/
theorem Shows.last_of_unchanged (h : Shows c n versions log x) (hcount : n + 1 < 2 ^ 64)
    {job : Pipeline.Job} {conversion : Conversion}
    (hw : x.pipeline.worker = .checked job conversion)
    (hprevious : x.pipeline.demandGate.previous =
      some (Pipeline.signature c.toSettings x.pipeline conversion)) :
    (lastEvaluated log).bind (captured c) = captured c job.composition := by
  obtain ⟨hgrayscale, hwellFormed, κ, hcaptured, hsigned⟩ := h.converted job conversion (Or.inr hw)
  cases hcolor : c.profile.hasColorCfa with
  | true =>
    rw [hcaptured]
    refine h.last_eq hprevious ?_
    rw [Pipeline.signature, if_pos hcolor]
    exact hsigned hcolor
  | false =>
    have hplane : captured c job.composition = some (.gray conversion.grayscale) := by
      unfold captured
      rw [hcolor, hgrayscale]
      rfl
    rw [hplane]
    refine (h.signGray hcolor hwellFormed hcount).last_eq hprevious ?_
    rw [Pipeline.signature, if_neg (by simp [hcolor])]
    exact List.mem_append_right _ (List.mem_singleton.mpr rfl)

/-- A capture that the gate calls unchanged shows what the head of the line shows; another one joins
the line. -/
theorem Current.evaluate (h : Current c log x.pipeline) (hshows : Shows c n versions log x)
    (hcount : n + 1 < 2 ^ 64) (hs : x.pipeline.evaluate c.toSettings = some s') :
    Current c (log ++ evaluatedEvents x.pipeline) s' := by
  unfold Pipeline.evaluate at hs
  split at hs
  swap
  · cases hs
  next job conversion hw =>
  have hsignature : (⟨(if c.profile.hasColorCfa then (conversion.rgbSignature,
      x.pipeline.grayscaleTracker) else x.pipeline.grayscaleTracker.update conversion.grayscale).1,
      conversion.grayscale.byteCount, conversion.grayscale.width,
      conversion.grayscale.height⟩ : FrameSignature) =
        Pipeline.signature c.toSettings x.pipeline conversion := by
    unfold Pipeline.signature
    split <;> rfl
  dsimp only at hs
  rw [hsignature] at hs
  obtain rfl := Option.some.inj hs
  have hlatch := latchEvaluates x.pipeline.sleepImageLatch
    (Pipeline.convertedFrame c.toSettings job conversion.grayscale) x.pipeline.sleepSelector
  have hevents : evaluatedEvents x.pipeline = [.evaluated job.composition] := by
    unfold evaluatedEvents
    rw [hw]
  have hlast : lastEvaluated (log ++ [.evaluated job.composition]) = some job.composition := by
    unfold lastEvaluated
    rw [List.filterMap_append, List.getLast?_append]
    rfl
  have haccepted : accepted c (log ++ [.evaluated job.composition]) = accepted c log := by
    rw [accepted_append]
    rfl
  rw [hevents]
  generalize x.pipeline.sleepImageLatch.evaluateFrame
    (Pipeline.convertedFrame c.toSettings job conversion.grayscale) x.pipeline.sleepSelector = r
    at hlatch
  obtain ⟨latch, frame, decision⟩ := r
  exact {
    newest := by
      intro _ _ hkept
      rw [hlast, line, haccepted]
      dsimp only
      -- a cycle that is not consumed lets the capture pass
      have hpass : decision = .passThrough := by
        by_contra hother
        exact hkept (Or.inl (hlatch.other hother))
      subst hpass
      generalize hdemand : x.pipeline.demandGate.evaluate _ = g
      by_cases hunchanged : g.1 = .unchanged
      · have hprevious := RgbFrameTracker.previous_of_unchanged (hdemand ▸ hunchanged)
        have hnewest := h.newest (by simp [hprevious]) (by simp [hw]) ?_
        · rw [line, hw, hshows.last_of_unchanged hcount hw hprevious] at hnewest
          simp only [leaving, hunchanged, if_true]
          exact hnewest
        · rintro (hconsumed | ⟨-, hjudging⟩)
          · exact hkept (Or.inl (hlatch.consumed hconsumed))
          · unfold judging at hjudging
            rw [hw] at hjudging
            cases hjudging
      · simp only [leaving, if_neg hunchanged]
        rfl
    evaluated := by
      intro job' frame' decision' epoch demand hphase hother
      obtain ⟨-, -, rfl, -, -⟩ := Pipeline.WorkerPhase.evaluated.inj hphase
      exact Or.inl (hlatch.other hother)
    assembled := by simp }

theorem leaving_assembled {f : Frame} (hf : f.IsOrdinary) :
    leaving c (.assembled f) = [shown c f] :=
  if_pos hf

/-- The capture is dropped or assembled: the line keeps its head. -/
theorem Current.readRefresh (h : Current c log x.pipeline) (hshows : Shows c n versions log x)
    {now : TimePoint} (hs : x.pipeline.readRefresh c.toSettings now = some s') :
    Current c log s' := by
  unfold Pipeline.readRefresh at hs
  split at hs
  swap
  · cases hs
  next job frame decision epoch demand hw =>
  split at hs
  · cases hs
  next hkept =>
  dsimp only at hs
  generalize (if (x.pipeline.enabled && x.pipeline.sleepImageLatch.activeEpoch = 0) = true then
    (x.pipeline.refreshMode, x.pipeline.refreshId) else (DiagnosticRefresh.none, 0)) = refresh at hs
  obtain rfl := Option.some.inj hs
  have hown := hshows.evaluated job frame decision epoch demand hw
  split
  · next hdropped =>
    simp only [Bool.and_eq_true, decide_eq_true_eq] at hdropped
    obtain ⟨⟨hunchanged, hplain⟩, -⟩ := hdropped
    refine h.letGo ⟨rfl, rfl, rfl, rfl, rfl, rfl, rfl⟩ (by simp [hw]) ?_ (Or.inr (Or.inr rfl))
    rw [hw]
    cases decision with
    | suppress => exact absurd rfl hkept
    | replace => exact absurd rfl hplain
    | passThrough => simp only [leaving, hunchanged, if_true]
  · by_cases hpass : decision = .passThrough
    · subst hpass
      refine ⟨fun _ _ _ => ?_, by simp, fun frame' hassembled => ?_⟩
      · have hordinary : (Pipeline.captureFrame c.toSettings job frame .passThrough epoch refresh
            now).IsOrdinary := rfl
        rw [line, hown.last, leaving_assembled hordinary, shown_captureFrame _ _ _ (hown.own rfl)]
        rfl
      · obtain rfl := Pipeline.WorkerPhase.assembled.inj hassembled
        exact Or.inl rfl
    · -- nothing is compared with a sleep image
      have hforgot : ∀ assembled, Forgotten { x.pipeline with worker := .assembled assembled } :=
        fun _ => (h.evaluated job frame decision epoch demand hw hpass).mono id id fun _ => rfl
      exact ⟨fun _ _ hkept => absurd (hforgot _) hkept, by simp, fun _ _ => Or.inr (hforgot _)⟩

/-- The assembled frame takes the slot, as the newest of the line. -/
theorem Current.enqueue (h : Current c log x.pipeline) (hshows : Shows c n versions log x)
    (hs : x.pipeline.enqueue = some s') :
    Current c (log ++ (x.pipeline.enqueuedFrame.toList.map Pipeline.Event.enqueued).map .pipeline)
      s' := by
  unfold Pipeline.enqueue at hs
  split at hs
  swap
  · cases hs
  next frame hw =>
  dsimp only at hs
  obtain rfl := Option.some.inj hs
  obtain ⟨hpresentable, -⟩ := hshows.assembled frame hw
  obtain ⟨hshown, hepoch, hfinal⟩ := shown_finalFrame (c := c) x.pipeline frame
  have haccepts : x.pipeline.adapter.accepts (x.pipeline.finalFrame frame) = true := by
    have hframe := hfinal hpresentable
    simp [PresentationAdapter.accepts, hshows.started (by simp [hw]),
      hshows.stopping (by simp [hw]), hframe.plane, hframe.rect]
  have hforgotten : ∀ {s₁ : Pipeline}, s₁.worker = .enqueued →
      s₁.sleepImageLatch = x.pipeline.sleepImageLatch →
      s₁.resetDemandGate = x.pipeline.resetDemandGate → Forgotten x.pipeline → Forgotten s₁ := by
    intro s₁ hworker hlatch hreset hforgotten
    refine hforgotten.mono (fun hstate => hlatch ▸ hstate) hreset.trans fun _ => ?_
    unfold judging
    rw [hworker]
    rfl
  refine ⟨fun hprevious _ hkept => ?_, by simp, by simp⟩
  have hwas : ¬Forgotten x.pipeline := fun hforgot => hkept (hforgotten rfl rfl rfl hforgot)
  have hordinary := (h.assembled frame hw).resolve_right hwas
  have hnewest := h.newest hprevious (by simp [hw]) hwas
  rw [lastEvaluated_pipeline]
  rw [line, hw, leaving_assembled hordinary] at hnewest
  -- the frame that takes the slot shows the same
  have hslot : ∃ g, (x.pipeline.adapter.enqueue (x.pipeline.finalFrame frame)).2.pending = some g ∧
      mark c g = some (shown c frame) := by
    rw [PresentationAdapter.enqueue_of_accepts haccepts]
    refine ⟨_, rfl, ?_⟩
    have hmark : mark c (x.pipeline.finalFrame frame) = some (shown c frame) := by
      rw [mark_of_isOrdinary (hepoch.trans hordinary), hshown]
    cases x.pipeline.adapter.pending with
    | none => exact hmark
    | some old =>
      dsimp only [Option.map_some, Option.getD_some]
      unfold PresentationAdapter.followPending
      split
      · exact (mark_congr rfl rfl).trans hmark
      · exact hmark
  obtain ⟨g, hg, hmark⟩ := hslot
  rw [line]
  dsimp only [leaving]
  rw [queue, queued, hg, Option.toList_some, List.singleton_append, List.map_cons, hmark]
  exact hnewest

/-! ### Every step -/

theorem Current.convertTracked (h : Current c log x.pipeline) {readyFence : Option Nat}
    {calls : List ConverterEvent} {evs : List Event}
    (hs : x.convert c readyFence calls = some (x', evs)) :
    Current c (log ++ evs) x'.pipeline := by
  unfold TrackedPipeline.convert at hs
  split at hs
  swap
  · cases hs
  split at hs
  · cases hs
  next result tracker hreplay =>
  obtain ⟨⟨s₁, pevs⟩, hstep, heq⟩ := Option.map_eq_some_iff.mp hs
  obtain ⟨hs₁, hpevs⟩ := System.eq_of_map (r := x.pipeline.convert (conversionOf result)) hstep
  obtain ⟨rfl, rfl⟩ := Prod.mk.inj heq
  obtain rfl : pevs = [] := hpevs
  rw [List.map_nil, List.append_nil]
  exact h.convert hs₁

/-- A method that is always enabled, a step of the adapter's worker, or one of the conversion
worker. -/
theorem Current.step {a : Action} {evs : List Event} (h : Current c log x.pipeline)
    (hshows : Shows c n versions log x) (hok : KeepsBaseline c x a) (hcount : n + 1 < 2 ^ 64)
    (hs : (system c).step x a = some (x', evs)) : Current c (log ++ evs) x'.pipeline := by
  cases a with
  | convert readyFence calls => exact h.convertTracked hs
  | pipeline a =>
    by_cases hdequeue : a = .dequeue
    · subst hdequeue
      obtain ⟨⟨s', pevs⟩, hstep, heq⟩ := Option.map_eq_some_iff.mp hs
      obtain ⟨hs', rfl⟩ := System.eq_of_map (f := fun _ => []) hstep
      obtain ⟨rfl, rfl⟩ := Prod.mk.inj heq
      rw [List.map_nil, List.append_nil]
      exact h.dequeue hs'
    by_cases hevaluate : a = .evaluate
    · subst hevaluate
      obtain ⟨⟨s', pevs⟩, hstep, heq⟩ := Option.map_eq_some_iff.mp hs
      obtain ⟨hs', rfl⟩ := System.eq_of_map (f := fun _ => []) hstep
      obtain ⟨rfl, rfl⟩ := Prod.mk.inj heq
      rw [List.map_nil, List.append_nil]
      exact h.evaluate hshows hcount hs'
    by_cases hconvert : ∃ result, a = .convert result
    · obtain ⟨result, rfl⟩ := hconvert
      cases hs
    obtain ⟨s', pevs, hstep, rfl, rfl⟩ :=
      step_pipeline (fun result hno => hconvert ⟨result, hno⟩) hdequeue hevaluate hs
    have hmoves : ∀ {r : Pipeline} {es : List Pipeline.Event}, some (r, es) = some (s', pevs) →
        Moves c log x.pipeline r es → Current c (log ++ pevs.map .pipeline) s' := by
      intro r es hr hm
      obtain ⟨rfl, rfl⟩ := Prod.mk.inj (Option.some.inj hr)
      exact h.moves hm
    have hadapter : ∀ {r : Option PresentationAdapter},
        (x.pipeline.onAdapter r).map (·, []) = some (s', pevs) →
        (∀ a', r = some a' → HandsOut c x.pipeline.adapter a' []) →
        (∀ a', r = some a' → queued a' = queued x.pipeline.adapter) →
        Current c (log ++ pevs.map .pipeline) s' := by
      intro r hr hhands hqueued
      obtain ⟨hs', rfl⟩ := System.eq_of_map (f := fun _ => []) hr
      exact h.moves (moves_of_queued hs' (quiet_onAdapter hs' hhands) rfl hqueued)
    have hworker : ∀ {r : Option Pipeline}, r.map (·, []) = some (s', pevs) →
        (r = some s' → Current c log s') → Current c (log ++ pevs.map .pipeline) s' := by
      intro r hr hnext
      obtain ⟨hs', rfl⟩ := System.eq_of_map (f := fun _ => []) hr
      rw [List.map_nil, List.append_nil]
      exact hnext hs'
    cases a with
    | convert result => exact absurd ⟨result, rfl⟩ hconvert
    | dequeue => exact absurd rfl hdequeue
    | evaluate => exact absurd rfl hevaluate
    | requestDiagnosticRefresh mode => exact hmoves hstep (moves_requestDiagnosticRefresh _ mode _)
    | cancelDiagnosticRefresh id => exact hmoves hstep (moves_cancelDiagnosticRefresh _ id)
    | start => exact hmoves hstep (moves_start _)
    | startThreads => exact hworker hstep (current_of_startThreads hshows.absent)
    | stop => exact hmoves hstep (moves_stop _)
    | stopAdapter => exact hworker hstep current_of_stopAdapter
    | setEnabled enabled => exact hmoves hstep (moves_setEnabled _ enabled)
    | resetForSourceChange =>
      refine hmoves hstep (moves_resetForSourceChange _ ?_)
      split <;> rfl
    | publishSleepImageCatalog epoch width height entries selectedIndex mode =>
      exact hmoves hstep
        (moves_publishSleepImageCatalog _ epoch width height entries selectedIndex mode)
    | armSleepCycle epoch => exact hmoves hstep (moves_armSleepCycle hshows.active epoch)
    | presentSleepImage epoch now =>
      exact hmoves hstep
        (moves_presentSleepImage hshows.active epoch now (shownEvents_presentEvents _ _ _))
    | disarmSleepCycle epoch =>
      exact hmoves hstep
        (moves_disarmSleepCycle epoch hok.steady (shownEvents_disarmEvents _ _))
    | onCapturedComposition composition =>
      exact hmoves hstep (moves_onCapturedComposition _ composition)
    | conversionFailed => exact hworker hstep h.conversionFailed
    | checkSource => exact hworker hstep h.checkSource
    | hold => exact hworker hstep h.hold
    | readRefresh now => exact hworker hstep (h.readRefresh hshows)
    | enqueue =>
      obtain ⟨hs', rfl⟩ := System.eq_of_map
        (f := fun _ => x.pipeline.enqueuedFrame.toList.map Pipeline.Event.enqueued) hstep
      exact h.enqueue hshows hs'
    | finish => exact hworker hstep h.finish
    | wake interval now => exact hadapter hstep (fun _ => handsOut_wake) fun _ => queued_wake
    | rewake now => exact hadapter hstep (fun _ => handsOut_rewake) fun _ => queued_rewake
    | submitStart now =>
      exact hadapter hstep (fun _ => handsOut_submitStart) fun _ => queued_submitStart
    | record => exact hadapter hstep (fun _ => handsOut_record) fun _ => queued_record
    | submitReturn accepted now =>
      obtain ⟨hs', rfl⟩ := System.eq_of_map
        (f := fun _ => x.pipeline.submittedEvents accepted) hstep
      have hquiet : Quiet c x.pipeline s' (x.pipeline.submittedEvents accepted) := by
        refine quiet_onAdapter hs' fun _ ha => ?_
        obtain ⟨f, trailing, start, hw, hhands⟩ := handsOut_submitReturn (c := c) ha
        rw [shownEvents_submittedEvents hw]
        exact hhands
      refine h.moves (moves_submitReturn hs' hquiet ?_)
      rintro rfl
      exact hok.steady
    | observe =>
      obtain ⟨hs', rfl⟩ := System.eq_of_map (f := fun _ => x.pipeline.observedEvents) hstep
      exact h.moves (moves_observe hs' (shownEvents_observedEvents _))

/-! ### Every run -/

end EinkLab.TrackedPipeline
