import EinkLab.Pipeline.Equiv.Baseline

/-!
# A capture that is dropped is on the panel

The worker drops a capture that the demand gate calls unchanged.  `unchanged_is_shown`: the newest
ordinary frame, wherever it is between the worker and the engine, shows what the dropped capture
shows.  `offered_at_rest`: when the pipeline is at rest, the last ordinary frame that the engine has
been asked to show is the last capture that the gate evaluated.

Both hold outside a consumed sleep cycle, as long as no reset of the baseline is pending.
-/

namespace EinkLab.TrackedPipeline

open Transition Versions AndroidGrayscaleConverter

variable {c : Settings} {x x' : TrackedPipeline} {s s' : Pipeline} {log : List Event}

/-! ### Every run -/

theorem shows_of_run {as : List Action} (h : (system c).Run (WellBehaved c) {} as log x)
    (hlength : as.length < 2 ^ 64) : ∃ versions, Shows c as.length versions log x := by
  refine h.induct (fun as log x => as.length < 2 ^ 64 →
    ∃ versions, Shows c as.length versions log x)
    ?_ ?_ hlength
  · exact fun _ => ⟨[], shows_init c⟩
  · intro as log x a x' evs ih hok hs hlength
    rw [List.length_append, List.length_singleton] at hlength ⊢
    obtain ⟨versions, hshows⟩ := ih (by omega)
    exact hshows.step hok hlength hs

/-- Only a capture that the latch passes and the gate calls unchanged is dropped. -/
theorem evaluated_of_dropped {now : TimePoint} (hs : s.readRefresh c.toSettings now = some s')
    (hdropped : s'.worker = .unchanged) :
    s'.demandGate = s.demandGate ∧
      ∃ job frame epoch, s.worker = .evaluated job frame .passThrough epoch .unchanged := by
  unfold Pipeline.readRefresh at hs
  split at hs
  swap
  · cases hs
  next job frame decision epoch demand hw =>
  split at hs
  · cases hs
  next hkept =>
  dsimp only at hs
  generalize (if (s.enabled && s.sleepImageLatch.activeEpoch = 0) = true then
    (s.refreshMode, s.refreshId) else (DiagnosticRefresh.none, 0)) = refresh at hs
  obtain rfl := Option.some.inj hs
  dsimp only at hdropped
  split at hdropped
  swap
  · cases hdropped
  next hcond =>
  simp only [Bool.and_eq_true, decide_eq_true_eq] at hcond
  obtain ⟨⟨rfl, hplain⟩, -⟩ := hcond
  cases decision with
  | passThrough => exact ⟨rfl, job, frame, epoch, hw⟩
  | suppress => exact absurd rfl hkept
  | replace => exact absurd rfl hplain

/-- **A dropped capture is on the panel, or on its way there.**  In every run, when the worker drops
a capture as unchanged outside a consumed sleep cycle, with no reset pending, the newest ordinary
frame shows what that capture shows. -/
theorem unchanged_is_shown {as : List Action} (h : (system c).Run (WellBehaved c) {} as log x)
    (hlength : as.length < 2 ^ 64) {now : TimePoint} {evs : List Event}
    (hs : (system c).step x (.pipeline (.readRefresh now)) = some (x', evs))
    (hdropped : x'.pipeline.worker = .unchanged) (hsettled : ¬Unsettled x'.pipeline) :
    ∃ job frame epoch κ,
      x.pipeline.worker = .evaluated job frame .passThrough epoch .unchanged ∧
        captured c job.composition = some κ ∧
        newest c (log ++ evs) x'.pipeline = some (some κ) := by
  obtain ⟨versions, hshows⟩ := shows_of_run h hlength
  obtain ⟨s', pevs, hstep, rfl, rfl⟩ := step_pipeline (by simp) (by simp) (by simp) hs
  obtain ⟨hs', rfl⟩ := System.eq_of_map (f := fun _ => []) hstep
  rw [List.map_nil, List.append_nil]
  -- the invariant still holds after the capture is dropped
  have hafter := hshows.readRefresh hs'
  obtain ⟨hgate, job, frame, epoch, hw⟩ := evaluated_of_dropped hs' hdropped
  have hown := hshows.evaluated job frame _ epoch _ hw
  obtain ⟨signature, hprevious⟩ := Option.ne_none_iff_exists'.mp hown.baseline
  obtain ⟨κ, -, hlast, hnewest⟩ := hafter.baseline signature (hgate ▸ hprevious)
  rw [hown.last] at hlast
  refine ⟨job, frame, epoch, κ, hw, hlast, hnewest.resolve_left (not_or.mpr ⟨hsettled, ?_⟩)⟩
  exact fun hno => absurd (hdropped.symm.trans hno) (by simp)

/-! ### A page that is captured twice -/

def pageBuffer : GraphicBuffer := ⟨false, .rgba8888, 1, 1, ⟨0, some [200, 10, 10, 255], 4, 4⟩⟩

def pageSettings : Settings where
  profile := auraCDeviceProfile
  engineMode := toEngineMode .gl16Partial
  policyFlag := 0
  rotation := .none
  maxSize := 1

/-- The page is captured, converted and evaluated. -/
def evaluatePage : List Action :=
  [.pipeline (.onCapturedComposition { composeBuffer := some pageBuffer }), .pipeline .dequeue,
    .convert none [⟨.lockAsync pageBuffer (-1), pageBuffer.mapping⟩, ⟨.unlock pageBuffer, ()⟩],
    .pipeline .checkSource, .pipeline .evaluate]

/-- The first capture is enqueued and submitted. -/
def submitPage : List Action :=
  [.pipeline .start, .pipeline .startThreads, .pipeline (.setEnabled true)] ++ evaluatePage ++
    [.pipeline (.readRefresh 0), .pipeline .enqueue, .pipeline .finish, .pipeline (.wake 0 0),
      .pipeline (.submitStart 0), .pipeline (.submitReturn true 0), .pipeline .record,
      .pipeline .observe]

theorem sized_page : Sized pageSettings { composeBuffer := some pageBuffer } where
  image := by
    intro source hsource
    obtain rfl := Option.some.inj hsource
    exact ⟨by decide, by decide⟩
  plane := fun _ hno => nomatch hno

/-- An action that neither converts nor captures. -/
theorem wellBehaved_of_ne {a : Action}
    (hconvert : ∀ readyFence calls, a ≠ .convert readyFence calls)
    (hcapture : ∀ composition, a ≠ .pipeline (.onCapturedComposition composition)) :
    WellBehaved c x a where
  honest := fun readyFence calls ha => absurd ha (hconvert readyFence calls)
  sized := fun composition ha => absurd ha (hcapture composition)

theorem wellBehaved_evaluatePage : ∀ a ∈ evaluatePage, ∀ x, WellBehaved pageSettings x a := by
  intro a ha x
  simp only [evaluatePage, List.mem_cons, List.not_mem_nil, or_false] at ha
  rcases ha with rfl | rfl | rfl | rfl | rfl
  · refine ⟨by simp, fun composition heq => ?_⟩
    obtain rfl := Pipeline.Action.onCapturedComposition.inj (Action.pipeline.inj heq)
    exact sized_page
  · exact wellBehaved_of_ne (by simp) (by simp)
  · refine ⟨fun readyFence calls heq => ?_, by simp⟩
    obtain ⟨rfl, rfl⟩ := Action.convert.inj heq
    intro buffer fenceFd lock hmem
    left
    simp only [List.mem_cons, List.not_mem_nil, or_false] at hmem
    rcases hmem with hlock | hno
    · cases hlock
      rfl
    · cases hno
  · exact wellBehaved_of_ne (by simp) (by simp)
  · exact wellBehaved_of_ne (by simp) (by simp)

theorem wellBehaved_submitPage : ∀ a ∈ submitPage, ∀ x, WellBehaved pageSettings x a := by
  intro a ha x
  simp only [submitPage, List.mem_append, List.mem_cons, List.not_mem_nil, or_false] at ha
  rcases ha with ((rfl | rfl | rfl) | hevaluate) | rfl | rfl | rfl | rfl | rfl | rfl | rfl | rfl
  case inl.inr => exact wellBehaved_evaluatePage a hevaluate x
  all_goals exact wellBehaved_of_ne (by simp) (by simp)

/-- The run along such actions, where they are all enabled. -/
theorem run_of_wellBehaved {as : List Action}
    (hsome : ((system c).exec System.anyAction {} as).isSome = true)
    (has : ∀ a ∈ as, ∀ x, WellBehaved c x a) :
    (system c).Run (WellBehaved c) {} as
      (((system c).exec System.anyAction {} as).get hsome).2
      (((system c).exec System.anyAction {} as).get hsome).1 :=
  (System.Run.of_exec (Option.some_get hsome).symm).of_forall has

theorem wellBehaved_pageTwice : ∀ a ∈ submitPage ++ evaluatePage, ∀ x,
    WellBehaved pageSettings x a := by
  intro a ha x
  rcases List.mem_append.mp ha with ha | ha
  · exact wellBehaved_submitPage a ha x
  · exact wellBehaved_evaluatePage a ha x

/-- The pipeline after the second capture of the page has been evaluated. -/
def pageTwice : TrackedPipeline × List Event :=
  ((system pageSettings).exec System.anyAction {} (submitPage ++ evaluatePage)).get
    (by decide +kernel)

/-- The second capture of the page is dropped, and the page is on the panel. -/
theorem unchanged_is_shown_page : ∃ x' evs job frame epoch κ,
    (system pageSettings).step pageTwice.1 (.pipeline (.readRefresh 1)) = some (x', evs) ∧
      pageTwice.1.pipeline.worker = .evaluated job frame .passThrough epoch .unchanged ∧
      captured pageSettings job.composition = some κ ∧
      newest pageSettings (pageTwice.2 ++ evs) x'.pipeline = some (some κ) := by
  have hsome : ((system pageSettings).step pageTwice.1 (.pipeline (.readRefresh 1))).isSome =
      true := by decide +kernel
  have hs := (Option.some_get hsome).symm
  obtain ⟨job, frame, epoch, κ, hw, hcaptured, hnewest⟩ := unchanged_is_shown
    (run_of_wellBehaved _ wellBehaved_pageTwice) (by decide) hs (by decide +kernel)
    (by decide +kernel)
  exact ⟨_, _, job, frame, epoch, κ, hs, hw, hcaptured, hnewest⟩

/-! ### The panel at rest -/

/-- No capture is in the worker's hands, and no frame in the adapter. -/
structure AtRest (s : Pipeline) : Prop where
  worker : s.worker = .waiting
  slot : s.adapter.pending = none
  engine : s.adapter.worker = .waiting

/-- **The panel converges.**  In every run, when the pipeline is at rest outside a consumed sleep
cycle, with a baseline and no reset pending, the last ordinary frame that the engine has been asked
to show is the last capture that the demand gate evaluated. -/
theorem offered_at_rest {as : List Action} (h : (system c).Run (WellBehaved c) {} as log x)
    (hlength : as.length < 2 ^ 64) (hrest : AtRest x.pipeline) (hsettled : ¬Unsettled x.pipeline)
    (hbaseline : x.pipeline.demandGate.previous ≠ none) :
    ∃ composition κ, lastEvaluated log = some composition ∧ captured c composition = some κ ∧
      (offered c log).head? = some (some κ) := by
  obtain ⟨versions, hshows⟩ := shows_of_run h hlength
  obtain ⟨signature, hprevious⟩ := Option.ne_none_iff_exists'.mp hbaseline
  obtain ⟨κ, -, hlast, hnewest⟩ := hshows.baseline signature hprevious
  obtain ⟨composition, hcomposition, hcaptured⟩ := Option.bind_eq_some_iff.mp hlast
  refine ⟨composition, κ, hcomposition, hcaptured, ?_⟩
  have hshown := hnewest.resolve_left (not_or.mpr ⟨hsettled, by simp [hrest.worker]⟩)
  rw [newest_eq, hrest.worker, adapterWay, hrest.slot, hrest.engine] at hshown
  exact hshown

/-- The pipeline after the page has been submitted. -/
def pageShown : TrackedPipeline × List Event :=
  ((system pageSettings).exec System.anyAction {} submitPage).get (by decide +kernel)

theorem offered_at_rest_page : ∃ composition κ,
    lastEvaluated pageShown.2 = some composition ∧
      captured pageSettings composition = some κ ∧
      (offered pageSettings pageShown.2).head? = some (some κ) :=
  offered_at_rest (run_of_wellBehaved _ wellBehaved_submitPage) (by decide)
    ⟨by decide +kernel, by decide +kernel, by decide +kernel⟩ (by decide +kernel)
    (by decide +kernel)

end EinkLab.TrackedPipeline
