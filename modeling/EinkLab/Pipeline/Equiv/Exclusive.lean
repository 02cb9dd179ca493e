import EinkLab.Pipeline.Equiv.Refresh

/-!
# The sleep image has the panel to itself

`sleep_image_exclusive`: from the moment the latch is consumed until the cycle is disarmed, only
frames of that cycle reach the adapter, in every run in which no bright capture is evaluated in a
consumed cycle and no presentation overtakes a capture that the worker has evaluated.
`presentation_overtakes_capture` is a run with such a presentation.
-/

namespace EinkLab.Pipeline

open Transition

variable {c : Settings} {s s' t u : Pipeline} {a : Action} {evs : List Event}

/-! ### What is passed to the adapter -/

/-- The step passes the frame to `Enqueue`. -/
inductive Passes (c : Settings) (s : Pipeline) : Action → Frame → Prop
  | capture (f : Frame) (hw : s.worker = .assembled f) : Passes c s .enqueue (s.finalFrame f)
  | sleepImage (epoch : Nat) (now : TimePoint) (image : Int × Int × List UInt8 × List UInt8)
      (hnonzero : epoch ≠ 0) (hstarted : s.started = true) (hlive : s.stopping = false)
      (henabled : s.enabled = true)
      (hfresh : s.sleepImageLatch.lastArmedEpoch < epoch)
      (hidle : s.sleepImageLatch.activeEpoch = 0)
      (himage : s.prepareSleepImage c epoch = .ok image) :
      Passes c s (.presentSleepImage epoch now) (s.sleepImageFrame c epoch now image)

/-- The capture that is about to be evaluated is not dark, and not a repetition. -/
def Bright (c : Settings) (s : Pipeline) : Prop :=
  ∃ job conversion, s.worker = .checked job conversion ∧
    ¬ ConvertedFrame.IsDark (β := OwnedGrayscaleBuffer)
      ⟨Rect.full conversion.grayscale.width conversion.grayscale.height,
        some conversion.grayscale⟩ ∧
    (s.demandGate.evaluate (signature c s conversion)).1 ≠ .unchanged

/-- The worker has a capture that goes on to the adapter. -/
def Leaving : WorkerPhase → Prop
  | .evaluated _ _ decision _ demand =>
    decision ≠ .suppress ∧ (decision = .replace ∨ demand ≠ .unchanged)
  | .assembled _ => True
  | _ => False

/-- No bright capture is evaluated in a consumed cycle, and no presentation overtakes a capture that
goes on to the adapter. -/
structure KeepsExclusive (c : Settings) (s : Pipeline) (a : Action) : Prop where
  bright : a = .evaluate → s.sleepImageLatch.state = .consumed → ¬ Bright c s
  overtaking : ∀ epoch now, a = .presentSleepImage epoch now → Leaving s.worker →
    ¬ Presents c s epoch now

/-! ### The invariant -/

/-- In a consumed cycle what the worker takes to the adapter belongs to it. -/
structure Exclusive (s : Pipeline) : Prop where
  active : s.sleepImageLatch.state = .consumed ∨ s.sleepImageLatch.state = .armed →
    s.sleepImageLatch.activeEpoch ≠ 0
  evaluated : s.sleepImageLatch.state = .consumed → ∀ job f decision epoch demand,
    s.worker = .evaluated job f decision epoch demand → Leaving s.worker →
    decision = .replace ∧ epoch = s.sleepImageLatch.activeEpoch
  assembled : s.sleepImageLatch.state = .consumed → ∀ f, s.worker = .assembled f →
    f.sleepImageEpoch = s.sleepImageLatch.activeEpoch

/-! ### How a step changes the latch -/

inductive LatchStep (c : Settings) (s : Pipeline) (a : Action) (evs : List Event)
    (l : SleepImageLatch) : Prop
  | same (ha : a ≠ .evaluate) (h : l = s.sleepImageLatch)
  | armed (epoch : Nat) (hnonzero : epoch ≠ 0) (hidle : s.sleepImageLatch.activeEpoch = 0)
      (h : l = { s.sleepImageLatch with
        lastArmedEpoch := epoch, activeEpoch := epoch, state := .armed })
  | presented (epoch : Nat) (now : TimePoint) (ha : a = .presentSleepImage epoch now)
      (hpresents : Presents c s epoch now)
      (h : l = { s.sleepImageLatch with
        lastArmedEpoch := epoch, activeEpoch := epoch, state := .consumed })
  | rejected (epoch : Nat) (hidle : s.sleepImageLatch.activeEpoch = 0)
      (h : l = { s.sleepImageLatch with
        lastArmedEpoch := epoch, activeEpoch := 0, state := .inactive })
  | disarmed (hevs : .disarmed s.sleepImageLatch.activeEpoch .accepted ∈ evs)
      (h : l = { s.sleepImageLatch with activeEpoch := 0, state := .inactive })
  | evaluated (job : Job) (conversion : Conversion) (ha : a = .evaluate)
      (hw : s.worker = .checked job conversion)
      (h : l = (s.sleepImageLatch.evaluateFrame (convertedFrame c job conversion.grayscale)
        s.sleepSelector).1)

theorem armSleepCycle_latchStep (s : Pipeline) (epoch : Nat) :
    LatchStep c s (.armSleepCycle epoch) [] (s.armSleepCycle epoch).2.sleepImageLatch := by
  unfold armSleepCycle
  split
  · rcases SleepImageLatch.armSleepCycle_cases s.sleepImageLatch epoch with
      ⟨hlt, hidle, harm⟩ | ⟨hrefused, hsame⟩
    · have hnonzero : epoch ≠ 0 := by omega
      rw [harm]
      exact .armed epoch hnonzero hidle rfl
    · dsimp only
      rw [if_neg hrefused]
      exact .same (by simp) hsame
  · exact .same (by simp) rfl

theorem presentSleepImage_latchStep (s : Pipeline) (epoch : Nat) (now : TimePoint) :
    LatchStep c s (.presentSleepImage epoch now) (s.presentEvents c epoch now)
      (s.presentSleepImage c epoch now).2.sleepImageLatch := by
  have hlatch : (s.presentSleepImage c epoch now).2.sleepImageLatch =
      (view (s.presentSleepImage c epoch now).2).latch := rfl
  rw [hlatch]
  cases presentSleepImage_cases c s epoch now with
  | refused heq => exact .same (by simp) (congrArg View.latch heq)
  | presented image hpresents heq =>
    exact .presented epoch now rfl hpresents (congrArg View.latch heq)
  | rejected hlt hidle heq => exact .rejected epoch hidle (congrArg View.latch heq)

theorem disarmSleepCycle_latchStep (s : Pipeline) (epoch : Nat) :
    LatchStep c s (.disarmSleepCycle epoch) (s.disarmEvents epoch)
      (s.disarmSleepCycle epoch).2.sleepImageLatch := by
  rcases SleepImageLatch.disarmSleepCycle_cases s.sleepImageLatch epoch with
    ⟨-, hactive, hdisarm⟩ | ⟨hrefused, -⟩
  · refine .disarmed ?_ ?_
    · simp [disarmEvents, disarmSleepCycle, hdisarm, hactive]
    · simp [disarmSleepCycle, hdisarm]
  · refine .same (by simp) ?_
    unfold disarmSleepCycle
    dsimp only
    rw [if_neg hrefused]

theorem latchStep_of_step (hs : step c s a = some (s', evs)) :
    LatchStep c s a evs s'.sleepImageLatch := by
  have hsome : ∀ {r : Pipeline} {es : List Event}, some (r, es) = some (s', evs) →
      LatchStep c s a es r.sleepImageLatch → LatchStep c s a evs s'.sleepImageLatch :=
    fun hr => System.result_of_some (P := fun t es => LatchStep c s a es t.sleepImageLatch) hr
  have hmap : ∀ {r : Option Pipeline} {es : List Event}, r.map (·, es) = some (s', evs) →
      a ≠ .evaluate → (∀ s', r = some s' → s'.sleepImageLatch = s.sleepImageLatch) →
      LatchStep c s a evs s'.sleepImageLatch := by
    intro r es hr ha hnext
    exact System.result_of_map (P := fun t es => LatchStep c s a es t.sleepImageLatch) hr
      fun s₁ hs₁ => .same ha (hnext s₁ hs₁)
  have hadapter : ∀ {r : Option PresentationAdapter} {es : List Event},
      (s.onAdapter r).map (·, es) = some (s', evs) → a ≠ .evaluate →
      LatchStep c s a evs s'.sleepImageLatch := by
    intro r es hr ha
    exact hmap hr ha fun _ hs₁ => (onAdapter_sleepKept hs₁).1
  -- only a cycle's three requests and the evaluation of a capture touch the latch
  cases a with
  | armSleepCycle epoch => exact hsome hs (armSleepCycle_latchStep s epoch)
  | presentSleepImage epoch now => exact hsome hs (presentSleepImage_latchStep s epoch now)
  | disarmSleepCycle epoch => exact hsome hs (disarmSleepCycle_latchStep s epoch)
  | evaluate =>
    obtain ⟨s₁, hs₁, heq⟩ := Option.map_eq_some_iff.mp hs
    obtain ⟨rfl, rfl⟩ := Prod.mk.inj heq
    unfold evaluate at hs₁
    split at hs₁
    · next job conversion hw =>
      obtain rfl := Option.some.inj hs₁
      exact .evaluated job conversion rfl hw rfl
    · cases hs₁
  | requestDiagnosticRefresh mode =>
    exact hsome hs (.same (by simp) (requestDiagnosticRefresh_sleepKept s mode).1)
  | cancelDiagnosticRefresh id =>
    exact hsome hs (.same (by simp) (cancelDiagnosticRefresh_sleepKept s id).1)
  | start => exact hsome hs (.same (by simp) (start_sleepKept s).1)
  | startThreads => exact hmap hs (by simp) fun _ hs₁ => (startThreads_sleepKept hs₁).1
  | stop => exact hsome hs (.same (by simp) (stop_sleepKept s).1)
  | stopAdapter => exact hmap hs (by simp) fun _ hs₁ => (stopAdapter_sleepKept hs₁).1
  | setEnabled enabled => exact hsome hs (.same (by simp) (setEnabled_sleepKept s enabled).1)
  | resetForSourceChange =>
    -- the background goes, the latch stays
    refine hsome hs (.same (by simp) ?_)
    unfold resetForSourceChange
    split <;> rfl
  | publishSleepImageCatalog epoch width height entries selectedIndex mode =>
    exact hsome hs (.same (by simp)
      (publishSleepImageCatalog_sleepKept s epoch width height entries selectedIndex mode).1)
  | onCapturedComposition composition =>
    exact hsome hs (.same (by simp) (onCapturedComposition_sleepKept s composition).1)
  | dequeue => exact hmap hs (by simp) fun _ hs₁ => (dequeue_sleepKept hs₁).1
  | convert result => exact hmap hs (by simp) fun _ hs₁ => (convert_sleepKept hs₁).1
  | conversionFailed => exact hmap hs (by simp) fun _ hs₁ => (conversionFailed_sleepKept hs₁).1
  | checkSource => exact hmap hs (by simp) fun _ hs₁ => (checkSource_sleepKept hs₁).1
  | hold => exact hmap hs (by simp) fun _ hs₁ => (hold_sleepKept hs₁).1
  | readRefresh now => exact hmap hs (by simp) fun _ hs₁ => (readRefresh_sleepKept hs₁).1
  | enqueue => exact hmap hs (by simp) fun _ hs₁ => (enqueue_sleepKept hs₁).1
  | finish => exact hmap hs (by simp) fun _ hs₁ => (finish_sleepKept hs₁).1
  | wake interval now => exact hadapter hs (by simp)
  | rewake now => exact hadapter hs (by simp)
  | submitStart now => exact hadapter hs (by simp)
  | submitReturn accepted now => exact hadapter hs (by simp)
  | record => exact hadapter hs (by simp)
  | observe =>
    refine hmap hs (by simp) fun s₁ hs₁ => ?_
    unfold observe at hs₁
    split at hs₁
    · obtain ⟨_, -, rfl⟩ := Option.map_eq_some_iff.mp hs₁
      unfold onEngineSubmission
      dsimp only
      split <;> rfl
    · cases hs₁

/-! ### The invariant over runs -/

theorem exclusive_init : Exclusive {} where
  active h := by rcases h with h | h <;> cases h
  evaluated h := by cases h
  assembled h := by cases h

/-- A step keeps it, unless it lets a bright capture through or overtakes a capture. -/
theorem Exclusive.step (h : Exclusive s) (hkept : KeepsExclusive c s a)
    (hs : step c s a = some (s', evs)) : Exclusive s' := by
  obtain ⟨-, hworker⟩ := steps_of_step hs
  -- outside a consumed cycle nothing is asked of the worker
  have hfree : s'.sleepImageLatch.state ≠ .consumed →
      (s'.sleepImageLatch.state = .armed → s'.sleepImageLatch.activeEpoch ≠ 0) → Exclusive s' := by
    intro hstate hactive
    exact ⟨fun hcycle => hactive (hcycle.resolve_left hstate), fun hc => absurd hc hstate,
      fun hc => absurd hc hstate⟩
  cases latchStep_of_step hs with
  | armed epoch hnonzero _ heq =>
    exact hfree (by rw [heq]; simp) fun _ => by rw [heq]; exact hnonzero
  | rejected epoch _ heq => exact hfree (by rw [heq]; simp) fun hc => by rw [heq] at hc; cases hc
  | disarmed _ heq => exact hfree (by rw [heq]; simp) fun hc => by rw [heq] at hc; cases hc
  | presented epoch now ha hpresents heq =>
    subst ha
    have hleaving : ¬ Leaving s.worker := fun hw => hkept.overtaking epoch now rfl hw hpresents
    refine ⟨fun _ => by rw [heq]; exact hpresents.nonzero, fun _ => ?_, fun _ => ?_⟩
    · intro job f decision e demand hw hleaves
      cases hworker with
      | same hsame => exact absurd (hsame ▸ hleaves) hleaving
      | plain hevaluated _ => exact absurd hw (hevaluated job f decision e demand)
      | evaluated _ _ _ ha => cases ha
      | assembled _ _ _ _ _ _ _ ha => cases ha
    · intro f hw
      cases hworker with
      | same hsame =>
        refine absurd ?_ hleaving
        rw [← hsame, hw]
        trivial
      | plain _ hassembled => exact absurd hw (hassembled f)
      | evaluated _ _ _ ha => cases ha
      | assembled _ _ _ _ _ _ _ ha => cases ha
  | same ha heq =>
    refine ⟨?_, ?_, ?_⟩
    · rw [heq]
      exact h.active
    · rw [heq]
      intro hstate job f decision epoch demand hw hleaves
      cases hworker with
      | same hsame =>
        rw [hsame] at hw hleaves
        exact h.evaluated hstate job f decision epoch demand hw hleaves
      | plain hevaluated _ => exact absurd hw (hevaluated job f decision epoch demand)
      | evaluated _ _ _ hevaluate => exact absurd hevaluate ha
      | assembled _ _ _ _ _ _ _ _ _ _ _ _ hnext =>
        rw [hnext] at hw
        cases hw
    · rw [heq]
      intro hstate f hw
      cases hworker with
      | same hsame => exact h.assembled hstate f (hsame ▸ hw)
      | plain _ hassembled => exact absurd hw (hassembled f)
      | evaluated _ _ _ hevaluate => exact absurd hevaluate ha
      | assembled job g decision epoch demand refresh now _ hkept hleaves hrefresh
          hbefore hnext =>
        obtain rfl := WorkerPhase.assembled.inj (hnext.symm.trans hw)
        have hrequest : refresh.2 = 0 := by
          by_contra hnumber
          exact h.active (Or.inl hstate) (hrefresh hnumber)
        have hleaving : Leaving s.worker := by
          rw [hbefore]
          refine ⟨hkept, hleaves.imp_right fun hother => ?_⟩
          exact hother.resolve_right (not_not.mpr hrequest)
        obtain ⟨hreplace, hepoch⟩ :=
          h.evaluated hstate job g decision epoch demand hbefore hleaving
        show (if decision = .replace then epoch else 0) = s.sleepImageLatch.activeEpoch
        rw [if_pos hreplace, hepoch]
  | evaluated job conversion ha hw heq =>
    subst ha
    have hepochs := SleepImageLatch.evaluate_epochs s.sleepImageLatch
      ⟨Rect.full conversion.grayscale.width conversion.grayscale.height,
        some conversion.grayscale⟩ s.sleepSelector
    have hactive : s'.sleepImageLatch.activeEpoch = s.sleepImageLatch.activeEpoch := by
      rw [heq]
      exact hepochs.1
    have hcases := SleepImageLatch.evaluate_cases s.sleepImageLatch
      ⟨Rect.full conversion.grayscale.width conversion.grayscale.height,
        some conversion.grayscale⟩ s.sleepSelector
    refine ⟨fun hcycle => ?_, fun hstate => ?_, fun hstate => ?_⟩
    · rw [hactive]
      rw [heq] at hcycle
      cases hcases with
      | ignored _ hsame _ _ _ => exact h.active (hcycle.imp hsame.symm.trans hsame.symm.trans)
      | unarmed _ _ hsame _ _ _ => exact h.active (hcycle.imp hsame.symm.trans hsame.symm.trans)
      | fallback _ hwas _ _ _ => exact h.active (Or.inr hwas)
      | replaced _ _ hwas _ _ _ _ => exact h.active (Or.inr hwas)
    · intro job' f decision epoch demand hw' hleaves
      cases hworker with
      | same hsame =>
        rw [hsame, hw] at hw'
        cases hw'
      | plain hevaluated _ => exact absurd hw' (hevaluated job' f decision epoch demand)
      | assembled _ _ _ _ _ _ _ ha => cases ha
      | evaluated job₂ conversion₂ demand₂ _ hdemand hw₂ hnext =>
        obtain ⟨rfl, rfl⟩ := WorkerPhase.checked.inj (hw.symm.trans hw₂)
        rw [hnext] at hleaves
        obtain ⟨-, -, hdecision, hepoch, -⟩ := WorkerPhase.evaluated.inj (hnext.symm.trans hw')
        rw [heq] at hstate
        refine ⟨?_, by rw [heq, ← hepoch]⟩
        rw [← hdecision]
        cases hcases with
        | ignored hbright hsame _ hpass _ =>
          have hconsumed : s.sleepImageLatch.state = .consumed := hsame.symm.trans hstate
          have hrepeated : demand₂ = .unchanged := by
            by_contra hchanged
            exact hkept.bright rfl hconsumed ⟨job, conversion, hw, hbright, hdemand ▸ hchanged⟩
          exact hleaves.2.resolve_right (not_not.mpr hrepeated)
        | unarmed _ _ hsame _ hsuppress _ =>
          have hconsumed : s.sleepImageLatch.state = .consumed := hsame.symm.trans hstate
          rw [if_pos hconsumed] at hsuppress
          exact absurd hsuppress hleaves.1
        | fallback _ _ hfallback _ _ =>
          have hboth := hfallback.symm.trans hstate
          cases hboth
        | replaced _ _ _ _ _ _ hreplace => exact hreplace
    · intro f hw'
      cases hworker with
      | same hsame =>
        rw [hsame, hw] at hw'
        cases hw'
      | plain _ hassembled => exact absurd hw' (hassembled f)
      | assembled _ _ _ _ _ _ _ ha => cases ha
      | evaluated _ _ _ _ _ _ hnext =>
        rw [hnext] at hw'
        cases hw'

/-- A consumed cycle stays consumed until it is disarmed. -/
theorem consumed_step (h : Exclusive s) (hconsumed : s.sleepImageLatch.state = .consumed)
    (hs : step c s a = some (s', evs))
    (hopen : .disarmed s.sleepImageLatch.activeEpoch .accepted ∉ evs) :
    s'.sleepImageLatch.state = .consumed ∧
      s'.sleepImageLatch.activeEpoch = s.sleepImageLatch.activeEpoch := by
  have hactive : s.sleepImageLatch.activeEpoch ≠ 0 := h.active (Or.inl hconsumed)
  -- with a cycle active the latch takes no arm and no presentation
  cases latchStep_of_step hs with
  | same _ heq => exact ⟨heq ▸ hconsumed, by rw [heq]⟩
  | armed _ _ hidle _ => exact absurd hidle hactive
  | presented _ _ _ hpresents _ => exact absurd hpresents.idle hactive
  | rejected _ hidle _ => exact absurd hidle hactive
  | disarmed hevs _ => exact absurd hevs hopen
  | evaluated job conversion _ _ heq =>
    have hepochs := SleepImageLatch.evaluate_epochs s.sleepImageLatch
      ⟨Rect.full conversion.grayscale.width conversion.grayscale.height,
        some conversion.grayscale⟩ s.sleepSelector
    rw [heq]
    refine ⟨?_, hepochs.1⟩
    cases SleepImageLatch.evaluate_cases s.sleepImageLatch
      ⟨Rect.full conversion.grayscale.width conversion.grayscale.height,
        some conversion.grayscale⟩ s.sleepSelector with
    | ignored _ hsame _ _ _ => exact hsame.trans hconsumed
    | unarmed _ _ hsame _ _ _ => exact hsame.trans hconsumed
    | fallback _ hwas _ _ _ => cases hwas.symm.trans hconsumed
    | replaced _ _ hwas _ _ _ _ => cases hwas.symm.trans hconsumed

theorem exclusive_run {as : List Action} {log : List Event} (h : Exclusive s)
    (hrun : (system c).Run (KeepsExclusive c) s as log t) : Exclusive t :=
  hrun.invariant Exclusive h fun _ _ _ _ hs hkept hstep => hs.step hkept hstep

/-- **Exclusivity of the sleep image**: the step that consumes a cycle passes only its frames to the
adapter, and until the cycle is disarmed so does every step, in every run in which no bright capture
is evaluated in a consumed cycle and no presentation overtakes an evaluated capture. -/
theorem sleep_image_exclusive {as₁ as₂ : List Action} {log₁ log₂ : List Event}
    (h₁ : (system c).Run (KeepsExclusive c) {} as₁ log₁ u)
    (hconsumed : u.sleepImageLatch.state = .consumed)
    (h₂ : (system c).Run (KeepsExclusive c) u as₂ log₂ t)
    (hopen : .disarmed u.sleepImageLatch.activeEpoch .accepted ∉ log₂) :
    (∀ s a evs f, step c s a = some (u, evs) → s.sleepImageLatch.state ≠ .consumed →
        Passes c s a f → f.sleepImageEpoch = u.sleepImageLatch.activeEpoch) ∧
      t.sleepImageLatch.state = .consumed ∧
      ∀ a f, Passes c t a f → f.sleepImageEpoch = u.sleepImageLatch.activeEpoch := by
  have hu : Exclusive u := exclusive_run exclusive_init h₁
  -- the induction is on the second run, which stays in the cycle
  have hperiod : Exclusive t ∧ t.sleepImageLatch.state = .consumed ∧
      t.sleepImageLatch.activeEpoch = u.sleepImageLatch.activeEpoch := by
    induction h₂ with
    | nil => exact ⟨hu, hconsumed, rfl⟩
    | @snoc as log t a t' evs hrun hkept hs ih =>
      obtain ⟨ht, hstate, hactive⟩ := ih fun hmem => hopen (List.mem_append_left evs hmem)
      obtain ⟨hstate', hactive'⟩ := consumed_step ht hstate hs fun hmem =>
        hopen (List.mem_append_right log (hactive ▸ hmem))
      exact ⟨ht.step hkept hs, hstate', hactive'.trans hactive⟩
  obtain ⟨ht, hstate, hactive⟩ := hperiod
  refine ⟨fun s a evs f hs hfresh hpass => ?_, hstate, fun a f hpass => ?_⟩
  · -- a step that consumes the cycle and passes a frame is a presentation
    cases hpass with
    | capture g hw =>
      cases latchStep_of_step hs with
      | same _ heq => exact absurd (heq ▸ hconsumed) hfresh
      | armed _ _ _ heq => rw [heq] at hconsumed; cases hconsumed
      | rejected _ _ heq => rw [heq] at hconsumed; cases hconsumed
      | disarmed _ heq => rw [heq] at hconsumed; cases hconsumed
      | presented _ _ ha => cases ha
      | evaluated _ _ ha => cases ha
    | sleepImage epoch now image =>
      cases latchStep_of_step hs with
      | same _ heq => exact absurd (heq ▸ hconsumed) hfresh
      | armed _ _ _ heq => rw [heq] at hconsumed; cases hconsumed
      | rejected _ _ heq => rw [heq] at hconsumed; cases hconsumed
      | disarmed _ heq => rw [heq] at hconsumed; cases hconsumed
      | presented epoch' now' ha _ heq =>
        obtain ⟨rfl, rfl⟩ := Action.presentSleepImage.inj ha
        rw [heq]
        rfl
      | evaluated _ _ ha => cases ha
  · cases hpass with
    | capture g hw =>
      have hfinal : (t.finalFrame g).sleepImageEpoch = g.sleepImageEpoch := by
        unfold finalFrame
        split <;> rfl
      rw [hfinal, ht.assembled hstate g hw, hactive]
    | sleepImage epoch now image _ _ _ _ _ hidle _ =>
      exact absurd hidle (ht.active (Or.inl hstate))

/-! ### A replaced capture, and an overtaken one -/

theorem keepsExclusive_of_aside (hevaluate : a ≠ .evaluate)
    (hpresent : ∀ epoch now, a ≠ .presentSleepImage epoch now) (s : Pipeline) :
    KeepsExclusive c s a :=
  ⟨fun ha => absurd ha hevaluate, fun epoch now ha => absurd ha (hpresent epoch now)⟩

/-- The replaced capture is assembled. -/
theorem assemble_evaluatedCapture (pixels address black : List UInt8) {latch : SleepImageLatch}
    (hactive : latch.activeEpoch = 1) :
    ∃ s, (system auraSettings).exec System.anyAction (evaluatedCapture pixels address black latch)
        [.readRefresh 1] = some (s, []) ∧ s.worker = .assembled (replacedFrame pixels address) := by
  obtain ⟨state, last, active, outcome, evaluation⟩ := latch
  obtain rfl : active = 1 := hactive
  exact ⟨_, rfl, rfl⟩

/-- A capture replaced in its cycle: the frame that the worker passes on belongs to it. -/
theorem sleep_image_exclusive_of_replacement :
    ∃ as₁ as₂ log₁ log₂ u t f, (system auraSettings).Run (KeepsExclusive auraSettings)
    {} as₁ log₁ u ∧
      (system auraSettings).Run (KeepsExclusive auraSettings) u as₂ log₂ t ∧
      u.sleepImageLatch.state = .consumed ∧ Passes auraSettings t .enqueue f ∧
      f.sleepImageEpoch = u.sleepImageLatch.activeEpoch := by
  obtain ⟨pixels, hlength, hwhite⟩ := exists_white_plane auraCDeviceProfile
  obtain ⟨black, hblack, hdark⟩ : ∃ black : List UInt8,
      black.length = auraCDeviceProfile.panelBytes ∧ ∀ x ∈ black, x = 0 :=
    ⟨List.replicate _ 0, List.length_replicate, fun _ hx => List.eq_of_mem_replicate hx⟩
  obtain ⟨latch, hstate, hactive, hevaluate⟩ := evaluate_checkedCapture [] hlength hblack hdark
  obtain ⟨s, hassemble, hw⟩ := assemble_evaluatedCapture pixels [] black hactive
  have harmed : (system auraSettings).exec System.anyAction (published pixels)
      (armedCapture [] black) = some (checkedCapture pixels [] black, []) := rfl
  have hrun := run_published hlength (isPanelGray_of_white hwhite)
  have hrun := hrun.trans (.of_exec harmed)
  have hbefore : (system auraSettings).Run (KeepsExclusive auraSettings) {} _ _ _ :=
    hrun.of_forall fun a ha =>
      keepsExclusive_of_aside (by rintro rfl; simp [publishActions, armedCapture] at ha)
        (by rintro epoch now rfl; simp [publishActions, armedCapture] at ha)
  have hkept : KeepsExclusive auraSettings (checkedCapture pixels [] black) .evaluate :=
    ⟨fun _ hconsumed => (by cases hconsumed), fun _ _ ha => (by cases ha)⟩
  have h₁ := hbefore.snoc hkept hevaluate
  have hassembled : (system auraSettings).Run System.anyAction _ _ _ _ := .of_exec hassemble
  have h₂ : (system auraSettings).Run (KeepsExclusive auraSettings) _ _ _ _ :=
    hassembled.of_forall fun a ha => by
      obtain rfl := List.mem_singleton.mp ha
      exact keepsExclusive_of_aside (by simp) (by simp)
  have hpass : Passes auraSettings s .enqueue (s.finalFrame (replacedFrame pixels [])) :=
    .capture _ hw
  have hopen : Event.disarmed latch.activeEpoch .accepted ∉ ([] : List Event) := List.not_mem_nil
  exact ⟨_, _, _, _, _, s, _, h₁, h₂, hstate, hpass,
    (sleep_image_exclusive h₁ hstate h₂ hopen).2.2 _ _ hpass⟩

/-- A capture is assembled, and the sleep image is presented before the worker enqueues it. -/
theorem present_assembledRefresh {pixels : List UInt8} {latch : SleepImageLatch}
    (hactive : latch.activeEpoch = 0) (hlast : latch.lastArmedEpoch = 0)
    (hlength : pixels.length = auraCDeviceProfile.panelBytes) (hgray : isPanelGray pixels = true) :
    ∃ s t evs, (system auraSettings).exec System.anyAction (evaluatedRefresh pixels latch)
        [.readRefresh 1] = some (s, []) ∧
      (system auraSettings).step s (.presentSleepImage 1 1) = some (t, evs) ∧
      t.sleepImageLatch.state = .consumed ∧ t.sleepImageLatch.activeEpoch = 1 ∧
      t.worker = .assembled (refreshFrame pixels) := by
  obtain ⟨plane, -, hprepare⟩ := prepareSleepImage_published hlength hgray
  obtain ⟨state, last, active, outcome, evaluation⟩ := latch
  obtain rfl : active = 0 := hactive
  obtain rfl : last = 0 := hlast
  have hprepare' : Pipeline.prepareSleepImage auraSettings
      { evaluatedRefresh pixels ⟨state, 0, 0, outcome, evaluation⟩ with
        worker := .assembled (refreshFrame pixels) } 1 = .ok (2480, 1860, plane, []) := hprepare
  refine ⟨{ evaluatedRefresh pixels ⟨state, 0, 0, outcome, evaluation⟩ with
    worker := .assembled (refreshFrame pixels) }, _, _, rfl, rfl, ?_⟩
  unfold presentSleepImage
  rw [if_neg (by decide), if_neg (by simp [evaluatedRefresh, checkedRefresh, published]), hprepare']
  exact ⟨rfl, rfl, rfl⟩

/-- The overtaken capture reaches the adapter after the sleep image. -/
theorem presentation_overtakes_capture :
    ¬ ∀ (c : Settings) (as₁ as₂ : List Action) (log₁ log₂ : List Event) (u t : Pipeline),
      (system c).Run System.anyAction {} as₁ log₁ u → u.sleepImageLatch.state = .consumed →
      (system c).Run System.anyAction u as₂ log₂ t →
      .disarmed u.sleepImageLatch.activeEpoch .accepted ∉ log₂ →
      ∀ a f, Passes c t a f → f.sleepImageEpoch = u.sleepImageLatch.activeEpoch := by
  intro hall
  obtain ⟨pixels, hlength, hwhite⟩ := exists_white_plane auraCDeviceProfile
  have hgray := isPanelGray_of_white hwhite
  obtain ⟨latch, -, hactive, hlast, hevaluate⟩ := evaluate_checkedRefresh pixels
  obtain ⟨s, t, evs, hassemble, hpresent, hconsumed, hepoch, hw⟩ :=
    present_assembledRefresh hactive hlast hlength hgray
  have hchecked : (system auraSettings).exec System.anyAction (published pixels)
      (refreshActions pixels) = some (checkedRefresh pixels, [.refreshRequested 1]) := rfl
  have hrun := run_published hlength hgray
  have hrun := hrun.trans (.of_exec hchecked)
  have hrun := hrun.trans (.single trivial hevaluate)
  have hrun := hrun.trans (.of_exec hassemble)
  have hrun := hrun.trans (.single trivial hpresent)
  have hsame := hall _ _ _ _ _ _ _ hrun hconsumed .nil List.not_mem_nil _ _ (.capture _ hw)
  have hordinary : (t.finalFrame (refreshFrame pixels)).sleepImageEpoch = 0 := by
    unfold finalFrame
    split <;> rfl
  rw [hordinary, hepoch] at hsame
  cases hsame

end EinkLab.Pipeline
