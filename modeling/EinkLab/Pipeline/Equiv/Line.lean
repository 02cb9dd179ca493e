import EinkLab.Pipeline.Equiv.Tracked

/-!
# The line of frames

The frames that the panel has, or is about to get, stand in a `line`: the capture that the worker
takes to the adapter, the adapter's slot, the frame in submission, and the ordinary frames that the
engine has accepted.  A sleep image stands there without a content.

`Moves` is for the steps that leave the conversion worker alone: the head of the line keeps its
content, unless the baseline is `Forgotten`, that is, a sleep cycle has been consumed, or the gate
is reset before it judges another capture.  An ordinary frame that the engine refuses has to be
`Overtaken`, and a consumed cycle may be disarmed only where no capture is still to be judged.
-/

namespace EinkLab.TrackedPipeline

open Transition

variable {c : Settings} {s s' : Pipeline} {log : List Event}

/-! ### The newest content -/

/-- The frame of a submission that the engine has accepted. -/
def Event.accepted : Event → Option Frame
  | .pipeline (.submitted frame true) => some frame
  | _ => none

/-- What the ordinary frames that the engine has accepted show, the newest first. -/
def accepted (c : Settings) (log : List Event) : List (Option PanelContent) :=
  ordinary c (log.filterMap Event.accepted).reverse

/-- The capture in the worker's hands passes, and has been judged unchanged. -/
def dropping : Pipeline.WorkerPhase → Bool
  | .evaluated _ _ .passThrough _ .unchanged => true
  | _ => false

/-- The worker has a capture that the gate is going to judge, or that it has judged unchanged.  One
from before a source change is not judged. -/
def judging (s : Pipeline) : Bool :=
  match s.worker with
  | .converting job => decide (s.sourceGeneration ≤ job.sourceGeneration)
  | .converted job _ => decide (s.sourceGeneration ≤ job.sourceGeneration)
  | .checked _ _ => true
  | w => dropping w

/-- A sleep cycle has been consumed, or the gate is reset before it judges another capture. -/
def Forgotten (s : Pipeline) : Prop :=
  s.sleepImageLatch.state = .consumed ∨ (s.resetDemandGate = true ∧ judging s = false)

instance (s : Pipeline) : Decidable (Forgotten s) := inferInstanceAs (Decidable (_ ∨ _ ∧ _))

/-- A newer frame stands behind the one in submission, or no capture is compared with that one. -/
def Overtaken (c : Settings) (s : Pipeline) : Prop :=
  leaving c s.worker ≠ [] ∨ s.adapter.pending ≠ none ∨ Forgotten s ∨ s.demandGate.previous = none

instance (c : Settings) (s : Pipeline) : Decidable (Overtaken c s) :=
  inferInstanceAs (Decidable (_ ∨ _ ∨ _ ∨ _))

/-- A source change only makes captures stale. -/
theorem judging_mono (hworker : s'.worker = s.worker)
    (hgeneration : s.sourceGeneration ≤ s'.sourceGeneration) (h : judging s = false) :
    judging s' = false := by
  unfold judging at h ⊢
  rw [hworker]
  split at h
  · exact decide_eq_false fun hle => of_decide_eq_false h (Nat.le_trans hgeneration hle)
  · exact decide_eq_false fun hle => of_decide_eq_false h (Nat.le_trans hgeneration hle)
  · exact h
  · exact h

theorem Forgotten.mono (h : Forgotten s)
    (hlatch : s.sleepImageLatch.state = .consumed → s'.sleepImageLatch.state = .consumed)
    (hreset : s.resetDemandGate = true → s'.resetDemandGate = true)
    (hjudging : judging s = false → judging s' = false) : Forgotten s' :=
  h.imp hlatch (And.imp hreset hjudging)

/-! ### The line of frames -/

/-- A frame in the line; a sleep image has no content there. -/
def mark (c : Settings) (frame : Frame) : Option (Option PanelContent) :=
  if frame.IsOrdinary then some (shown c frame) else none

/-- The frames that the adapter holds for the engine. -/
def queued (a : PresentationAdapter) : List Frame := a.pending.toList ++ (taken a.worker).toList

def queue (c : Settings) (a : PresentationAdapter) : List (Option (Option PanelContent)) :=
  (queued a).map (mark c)

def line (c : Settings) (log : List Event) (s : Pipeline) : List (Option (Option PanelContent)) :=
  (leaving c s.worker).map some ++ (queue c s.adapter ++ (accepted c log).map some)

theorem accepted_append (c : Settings) (log log' : List Event) :
    accepted c (log ++ log') = accepted c log' ++ accepted c log := by
  simp [accepted, ordinary_append]

/-- The engine accepts only what it has been asked to show. -/
theorem accepted_sublist (c : Settings) (log : List Event) :
    (accepted c log).Sublist (offered c log) := by
  have hframes : (log.filterMap Event.accepted).Sublist (log.filterMap Event.offered) := by
    induction log with
    | nil => exact .slnil
    | cons e log ih =>
      cases e with
      | evaluated composition => exact ih
      | pipeline e =>
        cases e with
        | submitted frame accepted =>
          cases accepted with
          | false => exact ih.cons _
          | true => exact ih.cons_cons _
        | _ => exact ih
  exact (hframes.reverse.filter _).map _

/-- A frame without content can leave the line. -/
theorem head?_of_none {α : Type} {l r : List (Option α)} {k : α}
    (h : (l ++ none :: r).head? = some (some k)) : (l ++ r).head? = some (some k) := by
  cases l with
  | nil => cases h
  | cons a l => exact h

theorem mark_congr {f g : Frame} (hepoch : g.sleepImageEpoch = f.sleepImageEpoch)
    (hshown : shown c g = shown c f) : mark c g = mark c f := by
  simp only [mark, Frame.IsOrdinary, hepoch, hshown]

theorem mark_of_isOrdinary {f : Frame} (hf : f.IsOrdinary) : mark c f = some (shown c f) :=
  if_pos hf

theorem mark_of_sleepImage {f : Frame} (hf : ¬f.IsOrdinary) : mark c f = none :=
  if_neg hf

/-- The step leaves the worker and its gate alone, and the head of the line as well. -/
structure Moves (c : Settings) (log : List Event) (s s' : Pipeline) (evs : List Pipeline.Event) :
    Prop where
  worker : s'.worker = s.worker
  gate : s'.demandGate = s.demandGate
  forgotten : Forgotten s → Forgotten s'
  line : s.demandGate.previous ≠ none → ¬Forgotten s' → ∀ κ,
    (line c log s).head? = some (some κ) →
      (line c (log ++ evs.map .pipeline) s').head? = some (some κ)

/-- What the events of a step say the engine has accepted. -/
def acceptedEvents (c : Settings) (evs : List Pipeline.Event) : List (Option PanelContent) :=
  accepted c (evs.map .pipeline)

theorem acceptedEvents_eq_nil {evs : List Pipeline.Event} (hshown : shownEvents c evs = []) :
    acceptedEvents c evs = [] :=
  List.sublist_nil.mp (hshown ▸ accepted_sublist c (evs.map .pipeline))

/-- The line after a step of the adapter, or of another part. -/
theorem line_append (c : Settings) (log : List Event) (evs : List Pipeline.Event)
    (hworker : s'.worker = s.worker) :
    line c (log ++ evs.map .pipeline) s' = (leaving c s.worker).map some ++
      (queue c s'.adapter ++ (acceptedEvents c evs).map some ++ (accepted c log).map some) := by
  rw [line, hworker, accepted_append, List.map_append, List.append_assoc]
  rfl

/-- The queue goes on as it is. -/
theorem Moves.of_queue {evs : List Pipeline.Event} (hquiet : Quiet c s s' evs)
    (hforgotten : Forgotten s → Forgotten s')
    (hqueue : queue c s'.adapter ++ (acceptedEvents c evs).map some = queue c s.adapter) :
    Moves c log s s' evs where
  worker := hquiet.worker
  gate := hquiet.gate
  forgotten := hforgotten
  line := by
    intro _ _ κ hhead
    rw [line_append c log evs hquiet.worker, hqueue]
    exact hhead

/-- The step changes neither the adapter nor what makes the gate forget. -/
theorem Moves.of_same {evs : List Pipeline.Event} (hquiet : Quiet c s s' evs)
    (hadapter : s'.adapter = s.adapter) (hevs : acceptedEvents c evs = [])
    (hlatch : s'.sleepImageLatch = s.sleepImageLatch)
    (hreset : s.resetDemandGate = true → s'.resetDemandGate = true)
    (hgeneration : s.sourceGeneration ≤ s'.sourceGeneration) : Moves c log s s' evs := by
  refine .of_queue hquiet (fun hforgotten => ?_) ?_
  · exact hforgotten.mono (fun hstate => hlatch ▸ hstate) hreset
      (judging_mono hquiet.worker hgeneration)
  · rw [hevs, hadapter]
    exact List.append_nil _

theorem queue_cancelPendingDiagnosticRefresh (c : Settings) (a : PresentationAdapter) :
    queue c a.cancelPendingDiagnosticRefresh.2 = queue c a := by
  rcases PresentationAdapter.cancelPendingDiagnosticRefresh_cases a with heq | ⟨f, hf, -, heq⟩
  · rw [heq]
  · rw [heq, queue, queue, queued, queued, hf]
    exact congrArg (· :: _) (mark_congr (c := c) rfl rfl)

theorem moves_requestDiagnosticRefresh (s : Pipeline) (mode : DiagnosticRefresh) (id : Nat) :
    Moves c log s (s.requestDiagnosticRefresh c.toSettings mode).2 [.refreshRequested id] := by
  have hquiet := quiet_requestDiagnosticRefresh (c := c) s mode id
  unfold Pipeline.requestDiagnosticRefresh at hquiet ⊢
  split_ifs at hquiet ⊢ <;> exact .of_same hquiet rfl rfl rfl (fun h => h) le_rfl

theorem moves_cancelDiagnosticRefresh (s : Pipeline) (id : Nat) :
    Moves c log s (s.cancelDiagnosticRefresh id) [] := by
  have hquiet := quiet_cancelDiagnosticRefresh (c := c) s id
  unfold Pipeline.cancelDiagnosticRefresh at hquiet ⊢
  split_ifs at hquiet ⊢ <;> exact .of_same hquiet rfl rfl rfl (fun h => h) le_rfl

theorem moves_start (s : Pipeline) : Moves c log s s.start [] := by
  have hquiet := quiet_start (c := c) s
  unfold Pipeline.start at hquiet ⊢
  split_ifs at hquiet ⊢ <;> exact .of_same hquiet rfl rfl rfl id le_rfl

theorem moves_stop (s : Pipeline) : Moves c log s s.stop [] := by
  have hquiet := quiet_stop (c := c) s
  unfold Pipeline.stop at hquiet ⊢
  split_ifs at hquiet ⊢ <;> exact .of_same hquiet rfl rfl rfl id le_rfl

/-- The cancelled request of a pending frame does not show. -/
theorem moves_setEnabled (s : Pipeline) (enabled : Bool) :
    Moves c log s (s.setEnabled enabled) [] := by
  have hquiet := quiet_setEnabled (c := c) s enabled
  unfold Pipeline.setEnabled at hquiet ⊢
  split at hquiet
  · next hlive =>
    rw [if_pos hlive]
    cases enabled with
    | false =>
      refine .of_queue hquiet (fun hforgotten => ?_) ?_
      · exact hforgotten.mono id (fun hreset => by simp [Pipeline.cancelRefresh, hreset])
          (judging_mono rfl le_rfl)
      · exact (List.append_nil _).trans (queue_cancelPendingDiagnosticRefresh c s.adapter)
    | true => exact .of_same hquiet rfl rfl rfl (fun hreset => by simp [hreset]) le_rfl
  · next hlive =>
    rw [if_neg hlive]
    exact .of_same hquiet rfl rfl rfl id le_rfl

theorem moves_resetForSourceChange (s : Pipeline) {evs : List Pipeline.Event}
    (hshown : shownEvents c evs = []) : Moves c log s s.resetForSourceChange evs := by
  have hevs := acceptedEvents_eq_nil hshown
  have hquiet := quiet_resetForSourceChange (c := c) s hshown
  unfold Pipeline.resetForSourceChange at hquiet ⊢
  split_ifs at hquiet ⊢
  · exact .of_same hquiet rfl hevs rfl id le_rfl
  · exact .of_same hquiet rfl hevs rfl id (Nat.le_succ _)

/-- A publication keeps the catalog for itself. -/
theorem publishSleepImageCatalog_kept (s : Pipeline) (epoch : Nat) (width height : Int)
    (entries : List EinkSleepImageCatalog.Entry) (selectedIndex : Nat)
    (mode : Pipeline.SleepImagePresentationMode) :
    let s' := (s.publishSleepImageCatalog c.toSettings epoch width height entries selectedIndex
      mode).2
    s'.adapter = s.adapter ∧ s'.sleepImageLatch = s.sleepImageLatch ∧
      s'.resetDemandGate = s.resetDemandGate ∧ s'.sourceGeneration = s.sourceGeneration := by
  unfold Pipeline.publishSleepImageCatalog
  split
  · exact ⟨rfl, rfl, rfl, rfl⟩
  split
  · exact ⟨rfl, rfl, rfl, rfl⟩
  split
  · split_ifs <;> exact ⟨rfl, rfl, rfl, rfl⟩
  · exact ⟨rfl, rfl, rfl, rfl⟩

theorem moves_publishSleepImageCatalog (s : Pipeline) (epoch : Nat) (width height : Int)
    (entries : List EinkSleepImageCatalog.Entry) (selectedIndex : Nat)
    (mode : Pipeline.SleepImagePresentationMode) :
    Moves c log s (s.publishSleepImageCatalog c.toSettings epoch width height entries selectedIndex
      mode).2 [] := by
  have hquiet := quiet_publishSleepImageCatalog (c := c) s epoch width height entries selectedIndex
    mode
  obtain ⟨hadapter, hlatch, hreset, hgeneration⟩ := publishSleepImageCatalog_kept (c := c) s epoch
    width height entries selectedIndex mode
  exact .of_same hquiet hadapter rfl hlatch (fun h => hreset.trans h)
    (Nat.le_of_eq hgeneration.symm)

/-- A cycle that is armed was not active, so nothing had been consumed. -/
theorem moves_armSleepCycle (hactive : CycleActive s.sleepImageLatch) (epoch : Nat) :
    Moves c log s (s.armSleepCycle epoch).2 [] := by
  have hquiet := quiet_armSleepCycle (c := c) s epoch
  unfold Pipeline.armSleepCycle at hquiet ⊢
  split at hquiet
  · next hcond =>
    rw [if_pos hcond]
    rcases SleepImageLatch.armSleepCycle_cases s.sleepImageLatch epoch with
      ⟨-, hidle, harm⟩ | ⟨hrefused, hkept⟩
    · rw [harm] at hquiet ⊢
      refine .of_queue hquiet (fun hforgotten => ?_) ?_
      · exact hforgotten.mono (fun hconsumed => absurd hidle (hactive (Or.inl hconsumed))) id
          (judging_mono rfl le_rfl)
      · exact (List.append_nil _).trans (queue_cancelPendingDiagnosticRefresh c s.adapter)
    · dsimp only at hquiet ⊢
      rw [if_neg hrefused] at hquiet ⊢
      exact .of_same hquiet rfl rfl hkept id le_rfl
  · next hcond =>
    rw [if_neg hcond]
    exact .of_same hquiet rfl rfl rfl id le_rfl

theorem presentSleepImage_resets (s : Pipeline) (epoch : Nat) (now : TimePoint) :
    let s' := (s.presentSleepImage c.toSettings epoch now).2
    s'.resetDemandGate = s.resetDemandGate ∧ s.sourceGeneration ≤ s'.sourceGeneration := by
  unfold Pipeline.presentSleepImage
  split
  · exact ⟨rfl, le_rfl⟩
  split
  · exact ⟨rfl, le_rfl⟩
  split
  · exact ⟨rfl, le_rfl⟩
  · unfold Pipeline.enqueueSleepImage
    dsimp only
    split_ifs
    · exact ⟨rfl, le_rfl⟩
    · exact ⟨rfl, le_rfl⟩
    · exact ⟨rfl, Nat.le_succ _⟩
    · exact ⟨rfl, Nat.le_succ _⟩

/-- A presentation consumes the cycle, or is refused and leaves the adapter as it was. -/
theorem moves_presentSleepImage (hactive : CycleActive s.sleepImageLatch) (epoch : Nat)
    (now : TimePoint) {evs : List Pipeline.Event} (hshown : shownEvents c evs = []) :
    Moves c log s (s.presentSleepImage c.toSettings epoch now).2 evs := by
  have hevs := acceptedEvents_eq_nil hshown
  have hquiet := quiet_presentSleepImage (c := c) s epoch now hshown
  obtain ⟨hreset, hgeneration⟩ := presentSleepImage_resets (c := c) s epoch now
  have hcases := Pipeline.presentSleepImage_cases c.toSettings s epoch now
  generalize (s.presentSleepImage c.toSettings epoch now).2 = s' at *
  have hjudging := judging_mono hquiet.worker hgeneration
  cases hcases with
  | refused heq =>
    have hlatch : s'.sleepImageLatch = s.sleepImageLatch := congrArg Pipeline.View.latch heq
    have hadapter : s'.adapter = s.adapter := congrArg Pipeline.View.adapter heq
    exact .of_same hquiet hadapter hevs hlatch hreset.trans hgeneration
  | presented image _ heq =>
    have hconsumed : Forgotten s' :=
      Or.inl (congrArg (fun v => v.latch.state) heq)
    exact ⟨hquiet.worker, hquiet.gate, fun _ => hconsumed, fun _ hkept => absurd hconsumed hkept⟩
  | rejected _ hidle heq =>
    have hadapter : s'.adapter = s.adapter := congrArg Pipeline.View.adapter heq
    refine .of_queue hquiet (fun hforgotten => ?_) ?_
    · exact hforgotten.mono (fun hconsumed => absurd hidle (hactive (Or.inl hconsumed)))
        hreset.trans hjudging
    · rw [hevs, hadapter]
      exact List.append_nil _

/-- A disarmed cycle takes its image out of the slot; a consumed one leaves no capture to judge. -/
theorem moves_disarmSleepCycle (epoch : Nat) {evs : List Pipeline.Event}
    (hsteady : epoch ≠ 0 → s.sleepImageLatch.activeEpoch = epoch →
      s.sleepImageLatch.state = .consumed → judging s = false)
    (hshown : shownEvents c evs = []) : Moves c log s (s.disarmSleepCycle epoch).2 evs := by
  have hevs := acceptedEvents_eq_nil hshown
  have hquiet := quiet_disarmSleepCycle (c := c) s epoch hshown
  unfold Pipeline.disarmSleepCycle at hquiet ⊢
  rcases SleepImageLatch.disarmSleepCycle_cases s.sleepImageLatch epoch with
    ⟨hnonzero, hactive, hdisarm⟩ | ⟨hrefused, -⟩
  · rw [hdisarm] at hquiet ⊢
    refine ⟨rfl, rfl, ?_, ?_⟩
    · rintro (hconsumed | ⟨-, hjudging⟩)
      · exact Or.inr ⟨rfl, judging_mono (s := s) rfl le_rfl (hsteady hnonzero hactive hconsumed)⟩
      · exact Or.inr ⟨rfl, judging_mono (s := s) rfl le_rfl hjudging⟩
    · intro _ _ κ hhead
      rw [line_append c log evs rfl, hevs, List.map_nil, List.append_nil]
      rcases PresentationAdapter.cancelPendingSleepImage_cases s.adapter epoch with
        heq | ⟨f, hf, hepoch, -, heq⟩
      · dsimp only
        rw [heq]
        exact hhead
      · -- the image has no content in the line
        have hmark : mark c f = none := mark_of_sleepImage fun hno => hnonzero (hepoch ▸ hno)
        dsimp only
        rw [heq]
        rw [line, queue, queued, hf, Option.toList_some, List.singleton_append, List.map_cons,
          hmark] at hhead
        exact head?_of_none hhead
  · dsimp only at hquiet ⊢
    rw [if_neg hrefused] at hquiet ⊢
    exact .of_same hquiet rfl hevs rfl id le_rfl

/-! ### The adapter's worker -/

/-- The adapter's worker goes on; what the engine has not accepted was no content to show, or has a
newer one behind it. -/
theorem moves_onAdapter {r : Option PresentationAdapter} {evs : List Pipeline.Event}
    (h : s.onAdapter r = some s')
    (hquiet : Quiet c s s' evs)
    (hline : ∀ a', r = some a' → s.demandGate.previous ≠ none → ¬Forgotten s → ∀ rest κ,
      ((leaving c s.worker).map some ++ (queue c s.adapter ++ rest)).head? = some (some κ) →
        ((leaving c s.worker).map some ++
          (queue c a' ++ (acceptedEvents c evs).map some ++ rest)).head? = some (some κ)) :
    Moves c log s s' evs := by
  obtain ⟨a', ha', rfl⟩ := Option.map_eq_some_iff.mp h
  refine ⟨rfl, rfl, id, fun hprevious hkept κ hhead => ?_⟩
  rw [line_append c log evs rfl]
  exact hline a' ha' hprevious hkept _ κ hhead

/-- A step in which the adapter keeps its frames. -/
theorem moves_of_queued {r : Option PresentationAdapter} {evs : List Pipeline.Event}
    (h : s.onAdapter r = some s') (hquiet : Quiet c s s' evs) (hshown : shownEvents c evs = [])
    (hqueued : ∀ a', r = some a' → queued a' = queued s.adapter) : Moves c log s s' evs := by
  refine moves_onAdapter h hquiet fun a' ha' _ _ rest κ hhead => ?_
  rw [acceptedEvents_eq_nil hshown, List.map_nil, List.append_nil, queue, hqueued a' ha']
  exact hhead

theorem queued_wake {a a' : PresentationAdapter} {interval : Duration} {now : TimePoint}
    (h : a.wake interval now = some a') : queued a' = queued a := by
  obtain ⟨hw, ⟨-, rfl⟩ | ⟨-, -, rfl⟩ | ⟨f, hf, -, -, -, rfl⟩⟩ := PresentationAdapter.wake_cases h
  · simp [queued, hw, taken]
  · simp [queued, hw, taken]
  · simp [queued, hw, hf, taken]

theorem queued_rewake {a a' : PresentationAdapter} {now : TimePoint}
    (h : a.rewake now = some a') : queued a' = queued a := by
  obtain ⟨t, hw, rfl | ⟨-, -, rfl⟩⟩ := PresentationAdapter.rewake_cases h
  · simp [queued, hw, taken]
  · simp [queued, hw, taken]

theorem queued_submitStart {a a' : PresentationAdapter} {now : TimePoint}
    (h : a.submitStart now = some a') : queued a' = queued a := by
  unfold PresentationAdapter.submitStart at h
  split at h
  · next f trailing hw =>
    split at h
    · cases h
    obtain rfl := Option.some.inj h
    simp [queued, hw, taken]
  · cases h

theorem queued_record {a a' : PresentationAdapter} (h : a.record = some a') :
    queued a' = queued a := by
  unfold PresentationAdapter.record at h
  split at h
  · next hw =>
    obtain rfl := Option.some.inj h
    simp [queued, hw, taken]
  · cases h

theorem queued_observe {a a' : PresentationAdapter} (h : a.observe = some a') :
    queued a' = queued a := by
  unfold PresentationAdapter.observe at h
  split at h
  · next hw =>
    obtain rfl := Option.some.inj h
    simp [queued, hw, taken]
  · cases h

theorem acceptedEvents_submittedEvents {accepted : Bool} {f : Frame} {trailing : Bool}
    {start : TimePoint} (hw : s.adapter.worker = .submitting f trailing start) :
    acceptedEvents c (s.submittedEvents accepted) =
      if accepted = true ∧ f.IsOrdinary then [shown c f] else [] := by
  unfold Pipeline.submittedEvents acceptedEvents TrackedPipeline.accepted
  rw [hw]
  cases accepted with
  | false => rfl
  | true =>
    show ordinary c [f] = _
    by_cases hf : f.IsOrdinary
    · rw [if_pos ⟨rfl, hf⟩, ordinary_of_isOrdinary hf]
    · rw [if_neg fun hno => hf hno.2, ordinary, List.filter_singleton, decide_eq_false hf]
      rfl

/-- The submission returns: an accepted ordinary frame stays in the line, and a sleep image had no
content there. -/
theorem moves_submitReturn {accepted : Bool} {now : TimePoint}
    (h : s.onAdapter (s.adapter.submitReturn accepted now) = some s')
    (hquiet : Quiet c s s' (s.submittedEvents accepted))
    (hsteady : accepted = false → ∀ frame ∈ taken s.adapter.worker, frame.IsOrdinary →
      Overtaken c s) : Moves c log s s' (s.submittedEvents accepted) := by
  refine moves_onAdapter h hquiet fun a' ha' hprevious hkept rest κ hhead => ?_
  unfold PresentationAdapter.submitReturn at ha'
  split at ha'
  swap
  · cases ha'
  next f trailing start hw =>
  split at ha'
  · cases ha'
  obtain rfl := Option.some.inj ha'
  rw [acceptedEvents_submittedEvents hw]
  have hqueue : queue c s.adapter = s.adapter.pending.toList.map (mark c) ++ [mark c f] := by
    rw [queue, queued, hw]
    exact List.map_append
  have hnext : ∀ t, queue c { s.adapter with
      worker := .returned f trailing accepted start now, clock := t } =
        s.adapter.pending.toList.map (mark c) := fun t => by
    rw [queue, queued]
    simp [taken]
  rw [hnext, List.append_assoc]
  rw [hqueue, List.append_assoc] at hhead
  by_cases hf : f.IsOrdinary
  swap
  · rw [if_neg fun hno => hf hno.2]
    rw [mark_of_sleepImage hf, ← List.append_assoc] at hhead
    rw [List.map_nil, List.nil_append, ← List.append_assoc]
    exact head?_of_none hhead
  cases accepted with
  | true =>
    rw [if_pos ⟨rfl, hf⟩]
    rw [mark_of_isOrdinary hf] at hhead
    exact hhead
  | false =>
    -- the frame has a newer one behind it
    rw [if_neg (by simp), List.map_nil, List.nil_append]
    have htaken : f ∈ taken s.adapter.worker := by rw [hw]; exact rfl
    rcases hsteady rfl f htaken hf with hleaving | hpending | hforgotten | hnone
    · obtain ⟨κ', tail, heq⟩ := List.exists_cons_of_ne_nil hleaving
      rw [heq] at hhead ⊢
      exact hhead
    · obtain ⟨g, hg⟩ := Option.ne_none_iff_exists'.mp hpending
      rw [hg] at hhead ⊢
      cases hlead : leaving c s.worker with
      | nil =>
        rw [hlead] at hhead
        exact hhead
      | cons κ' tail =>
        rw [hlead] at hhead
        exact hhead
    · exact absurd hforgotten hkept
    · exact absurd hnone hprevious

theorem moves_observe {evs : List Pipeline.Event} (h : s.observe c.toSettings = some s')
    (hshown : shownEvents c evs = []) : Moves c log s s' evs := by
  have hquiet := quiet_observe h hshown
  unfold Pipeline.observe at h
  split at h
  swap
  · cases h
  next f accepted duration hw =>
  obtain ⟨a', ha', rfl⟩ := Option.map_eq_some_iff.mp h
  have hqueue : queue c a' = queue c s.adapter := by rw [queue, queued_observe ha', queue]
  have hkept : (s.onEngineSubmission c.toSettings f accepted).sleepImageLatch =
        s.sleepImageLatch ∧
      (s.onEngineSubmission c.toSettings f accepted).resetDemandGate = s.resetDemandGate ∧
      (s.onEngineSubmission c.toSettings f accepted).sourceGeneration = s.sourceGeneration := by
    unfold Pipeline.onEngineSubmission
    dsimp only
    split_ifs <;> exact ⟨rfl, rfl, rfl⟩
  refine .of_queue hquiet (fun hforgotten => ?_) ?_
  · exact hforgotten.mono (fun hstate => hkept.1 ▸ hstate) hkept.2.1.trans
      (judging_mono hquiet.worker (Nat.le_of_eq hkept.2.2.symm))
  · rw [acceptedEvents_eq_nil hshown, List.map_nil, List.append_nil]
    exact hqueue

end EinkLab.TrackedPipeline
