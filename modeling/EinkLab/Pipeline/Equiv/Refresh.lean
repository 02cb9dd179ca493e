import EinkLab.Pipeline.Equiv.SleepColor

/-!
# The carrier of a diagnostic refresh

`refresh_carried`: in every run in which no presentation replaces a pending frame that carries the
requested refresh, a busy refresh has a carrier: it is still requested, or a frame in the adapter or
under assembly carries it.  `presentation_wedges_refresh` is a run with such a presentation.

The invariant is `Refreshing`.  It reads a few fields of the pipeline, which `View` collects, so
that a step that touches none of them keeps it at once.
-/

namespace EinkLab.PresentationAdapter

open Transition

/-- The steps of the adapter's worker, other than the return of the observer. -/
def Action.isDelivery : Action → Bool
  | .wake _ _ | .rewake _ | .submitStart _ | .submitReturn _ _ | .record => true
  | _ => false

variable {a a' : PresentationAdapter} {act : Action} {evs : List Event}

/-- What the worker does on its way does not stop the adapter, and loses no frame unless it has been
stopped. -/
theorem holds_delivery (hact : act.isDelivery = true) (hs : a.step act = some (a', evs)) :
    a'.stopping = a.stopping ∧ (a.stopping = false → ∀ f, a.Holds f → a'.Holds f) := by
  -- a worker that waits holds no frame of its own
  have hslot : a.worker.carried = none → ∀ f, a.Holds f → a.pending = some f := by
    intro hnone f hf
    refine hf.resolve_right fun hcarried => ?_
    rw [hnone] at hcarried
    cases hcarried
  cases act with
  | wake interval now =>
    obtain ⟨hphase, hcases⟩ := wake_cases (System.eq_of_map hs).1
    have hpending := hslot (by rw [hphase]; rfl)
    rcases hcases with ⟨hstopping, rfl⟩ | ⟨-, -, rfl⟩ | ⟨frame, hframe, -, -, -, rfl⟩
    · exact ⟨rfl, fun hlive => absurd (hstopping.symm.trans hlive) (by decide)⟩
    · exact ⟨rfl, fun _ f hf => Or.inl (hpending f hf)⟩
    · exact ⟨rfl, fun _ f hf => Or.inr (hframe.symm.trans (hpending f hf))⟩
  | rewake now =>
    obtain ⟨_, hphase, hcases⟩ := rewake_cases (System.eq_of_map hs).1
    have hpending := hslot (by rw [hphase]; rfl)
    rcases hcases with rfl | ⟨-, -, rfl⟩
    · exact ⟨rfl, fun _ f hf => Or.inl (hpending f hf)⟩
    · exact ⟨rfl, fun _ f hf => Or.inl (hpending f hf)⟩
  | submitStart now =>
    obtain ⟨_, _, hphase, -, rfl⟩ := submitStart_cases (System.eq_of_map hs).1
    exact ⟨rfl, fun _ f hf => hf.imp id fun hcarried => by rwa [hphase] at hcarried⟩
  | submitReturn accepted now =>
    obtain ⟨_, _, _, hphase, -, rfl⟩ := submitReturn_cases (System.eq_of_map hs).1
    exact ⟨rfl, fun _ f hf => hf.imp id fun hcarried => by rwa [hphase] at hcarried⟩
  | record =>
    obtain ⟨_, _, _, _, _, hphase, rfl⟩ := record_cases (System.eq_of_map hs).1
    exact ⟨rfl, fun _ f hf => hf.imp id fun hcarried => by rwa [hphase] at hcarried⟩
  | start | stop | enqueue | cancelPendingSleepImage | cancelPendingDiagnosticRefresh | observe =>
    cases hact

end EinkLab.PresentationAdapter

namespace EinkLab.Pipeline

open Transition

variable {c : Settings} {s s' : Pipeline} {a : Action} {evs : List Event}

/-! ### A refresh on its way -/

/-- The requested refresh is still alive: requested, in the adapter, or under assembly. -/
def Carried (s : Pipeline) : Prop :=
  s.refreshId ≠ 0 ∨ (∃ f, s.adapter.Holds f ∧ f.diagnosticRequest = s.refreshRequested) ∨
    ∃ f, s.worker = .assembled f ∧ f.diagnosticRequest = s.refreshRequested

/-- `PresentSleepImage` would enqueue its frame: everything it checks holds. -/
structure Presents (c : Settings) (s : Pipeline) (epoch : Nat) (now : TimePoint) : Prop where
  nonzero : epoch ≠ 0
  enabled : s.enabled = true
  fresh : s.sleepImageLatch.lastArmedEpoch < epoch
  idle : s.sleepImageLatch.activeEpoch = 0
  image : ∃ image, s.prepareSleepImage c epoch = .ok image ∧
    s.adapter.accepts (s.sleepImageFrame c epoch now image) = true

/-- No presentation replaces a pending frame that carries the requested refresh. -/
def KeepsRefresh (c : Settings) (s : Pipeline) (a : Action) : Prop :=
  ∀ epoch now, a = .presentSleepImage epoch now → s.refreshBusy = true →
    (∃ f, s.adapter.pending = some f ∧ f.diagnosticRequest = s.refreshRequested) →
    ¬ Presents c s epoch now

/-! ### The invariant -/

/-- What the invariant reads. -/
structure View where
  refreshId : Nat
  refreshRequested : Nat
  refreshBusy : Bool
  latch : SleepImageLatch
  worker : WorkerPhase
  adapter : PresentationAdapter
  stopping : Bool

def view (s : Pipeline) : View where
  refreshId := s.refreshId
  refreshRequested := s.refreshRequested
  refreshBusy := s.refreshBusy
  latch := s.sleepImageLatch
  worker := s.worker
  adapter := s.adapter
  stopping := s.stopping

/-- The frame's epoch has been armed, and is not active if the frame carries a request. -/
def Past (l : SleepImageLatch) (f : Frame) : Prop :=
  f.sleepImageEpoch ≤ l.lastArmedEpoch ∧
    (f.diagnosticRequest ≠ 0 → f.sleepImageEpoch ≠ 0 → f.sleepImageEpoch ≠ l.activeEpoch)

/-- No request can leave the pipeline before the worker has enqueued what it holds. -/
def Unsent : WorkerPhase → Prop
  | .absent => True
  | .evaluated _ _ decision _ _ => decision = .replace
  | .assembled f => f.sleepImageEpoch ≠ 0
  | _ => False

structure Refreshing (v : View) : Prop where
  current : v.refreshId ≠ 0 → v.refreshId = v.refreshRequested
  requested : v.refreshBusy = true → v.refreshRequested ≠ 0
  armed : v.latch.state = .armed → v.latch.activeEpoch ≠ 0 ∧ v.refreshBusy = false
  epoch : v.latch.activeEpoch ≤ v.latch.lastArmedEpoch
  unsent : Unsent v.worker → v.refreshBusy = true → v.refreshId ≠ 0
  evaluated : ∀ job f decision epoch demand,
    v.worker = .evaluated job f decision epoch demand → epoch ≤ v.latch.lastArmedEpoch
  assembled : ∀ f, v.worker = .assembled f → Past v.latch f
  frames : PresentationAdapter.Carries (Past v.latch) v.adapter
  live : v.stopping = false → v.adapter.stopping = false
  carried : v.stopping = false → v.refreshBusy = true → v.refreshId ≠ 0 ∨
    ∃ f, v.adapter.Holds f ∧ f.diagnosticRequest = v.refreshRequested

theorem durable_past (l : SleepImageLatch) : PresentationAdapter.Durable (Past l) := by
  constructor
  · intro f hf
    exact ⟨hf.1, fun hrequest => absurd rfl hrequest⟩
  · intro f old hf _
    unfold PresentationAdapter.followPending
    split
    · next hcond =>
      refine ⟨hf.1, fun _ hepoch => ?_⟩
      exact absurd hcond.1 hepoch
    · exact hf

theorem refreshing_init : Refreshing (view {}) where
  current h := absurd rfl h
  requested h := by cases h
  armed h := by cases h
  epoch := Nat.le_refl 0
  unsent _ h := by cases h
  evaluated job f decision epoch demand h := by cases h
  assembled f h := by cases h
  frames := ⟨fun f h => (by cases h), fun f h => (by cases h)⟩
  live _ := rfl
  carried _ h := by cases h

namespace Refreshing

variable {v : View}

/-- A phase that has no frame. -/
theorem setWorker (h : Refreshing v) {w : WorkerPhase} (hunsent : ¬ Unsent w)
    (hevaluated : ∀ job f decision epoch demand, w ≠ .evaluated job f decision epoch demand)
    (hassembled : ∀ f, w ≠ .assembled f) : Refreshing { v with worker := w } where
  current := h.current
  requested := h.requested
  armed := h.armed
  epoch := h.epoch
  unsent hw := absurd hw hunsent
  evaluated job f decision epoch demand hw := absurd hw (hevaluated job f decision epoch demand)
  assembled f hw := absurd hw (hassembled f)
  frames := h.frames
  live := h.live
  carried := h.carried

/-- The refresh is given up. -/
theorem release (h : Refreshing v) :
    Refreshing { v with refreshBusy := false, refreshId := 0 } where
  current hid := absurd rfl hid
  requested hbusy := by cases hbusy
  armed hstate := ⟨(h.armed hstate).1, rfl⟩
  epoch := h.epoch
  unsent _ hbusy := by cases hbusy
  evaluated := h.evaluated
  assembled := h.assembled
  frames := h.frames
  live := h.live
  carried _ hbusy := by cases hbusy

/-- The refresh is given up, and the pending frame's request with it. -/
theorem cancel (h : Refreshing v) : Refreshing { v with
    refreshBusy := false
    refreshId := 0
    adapter := v.adapter.cancelPendingDiagnosticRefresh.2 } := by
  have hstep : v.adapter.step .cancelPendingDiagnosticRefresh =
      some (v.adapter.cancelPendingDiagnosticRefresh.2, []) := rfl
  have hstopping : v.adapter.cancelPendingDiagnosticRefresh.2.stopping = v.adapter.stopping := by
    rcases PresentationAdapter.cancelPendingDiagnosticRefresh_cases v.adapter with
      heq | ⟨f, -, -, heq⟩ <;> rw [heq]
  exact { h.release with
    frames := h.frames.step (durable_past v.latch) (by simp) hstep
    live := fun hlive => hstopping.trans (h.live hlive)
    carried := fun _ hbusy => by cases hbusy }

/-- A refresh is requested, outside a sleep cycle. -/
theorem request (h : Refreshing v) (hidle : v.latch.activeEpoch = 0) : Refreshing { v with
    refreshBusy := true
    refreshRequested := v.refreshRequested + 1
    refreshId := v.refreshRequested + 1 } where
  current _ := rfl
  requested _ := Nat.succ_ne_zero _
  armed hstate := absurd hidle (h.armed hstate).1
  epoch := h.epoch
  unsent _ _ := Nat.succ_ne_zero _
  evaluated := h.evaluated
  assembled := h.assembled
  frames := h.frames
  live := h.live
  carried _ _ := Or.inl (Nat.succ_ne_zero _)

/-- The pipeline stops. -/
theorem stop (h : Refreshing v) : Refreshing { v with stopping := true } :=
  { h with
    live := fun hlive => by cases hlive
    carried := fun hlive => by cases hlive }

/-- The adapter's worker goes on. -/
theorem deliver (h : Refreshing v) {a' : PresentationAdapter} {act : PresentationAdapter.Action}
    {evs : List PresentationAdapter.Event} (hact : act.isDelivery = true)
    (hs : v.adapter.step act = some (a', evs)) : Refreshing { v with adapter := a' } := by
  obtain ⟨hstopping, hholds⟩ := PresentationAdapter.holds_delivery hact hs
  have hframes := h.frames.step (durable_past v.latch)
    (fun f hf => by rw [hf] at hact; cases hact) hs
  refine { h with
    frames := hframes
    live := fun hlive => hstopping.trans (h.live hlive)
    carried := fun hlive hbusy => ?_ }
  refine (h.carried hlive hbusy).imp (fun hid => hid) ?_
  rintro ⟨f, hf, hrequest⟩
  exact ⟨f, hholds (h.live hlive) f hf, hrequest⟩

/-- The latch changes, and keeps the frames past. -/
theorem relatch (h : Refreshing v) {l : SleepImageLatch}
    (hpast : ∀ f, Past v.latch f → Past l f) (hlast : v.latch.lastArmedEpoch ≤ l.lastArmedEpoch)
    (harmed : l.state = .armed → l.activeEpoch ≠ 0 ∧ v.refreshBusy = false)
    (hepoch : l.activeEpoch ≤ l.lastArmedEpoch) : Refreshing { v with latch := l } :=
  { h with
    armed := harmed
    epoch := hepoch
    evaluated := fun job f decision epoch demand hw =>
      Nat.le_trans (h.evaluated job f decision epoch demand hw) hlast
    assembled := fun f hw => hpast f (h.assembled f hw)
    frames := ⟨fun f hf => hpast f (h.frames.pending f hf),
      fun f hf => hpast f (h.frames.inFlight f hf)⟩ }

/-- A fresh cycle keeps them past. -/
theorem past_arm {l : SleepImageLatch} {epoch : Nat} (state : SleepImageLatchState)
    (hlt : l.lastArmedEpoch < epoch) {f : Frame} (hf : Past l f) :
    Past { l with lastArmedEpoch := epoch, activeEpoch := epoch, state := state } f := by
  have hle : f.sleepImageEpoch ≤ l.lastArmedEpoch := hf.1
  refine ⟨by dsimp only; omega, fun _ _ => ?_⟩
  dsimp only
  omega

/-- So does the end of a cycle. -/
theorem past_disarm {l : SleepImageLatch} {f : Frame} (hf : Past l f) :
    Past { l with activeEpoch := 0, state := .inactive } f :=
  ⟨hf.1, fun _ hepoch => hepoch⟩

/-- The frame of the active cycle that a disarm takes out of the slot carries no request. -/
theorem cancelSleepImage (h : Refreshing v) : Refreshing { v with
    adapter := (v.adapter.cancelPendingSleepImage v.latch.activeEpoch).2 } := by
  have hstep : v.adapter.step (.cancelPendingSleepImage v.latch.activeEpoch) = some
      ((v.adapter.cancelPendingSleepImage v.latch.activeEpoch).2, _) := rfl
  have hframes := h.frames.step (durable_past v.latch) (by simp) hstep
  rcases PresentationAdapter.cancelPendingSleepImage_cases v.adapter v.latch.activeEpoch with
    heq | ⟨g, hpending, hepoch, hne, heq⟩
  · rw [heq]
    exact h
  · refine { h with frames := hframes, live := fun hlive => ?_, carried := fun hlive hbusy => ?_ }
    · rw [heq]
      exact h.live hlive
    · refine (h.carried hlive hbusy).imp (fun hid => hid) ?_
      rintro ⟨f, hslot | hcarried, hrequest⟩
      · exfalso
        obtain rfl := Option.some.inj (hpending.symm.trans hslot)
        have hnumber : g.diagnosticRequest ≠ 0 := hrequest ▸ h.requested hbusy
        exact (h.frames.pending g hpending).2 hnumber (hepoch ▸ hne) hepoch
      · refine ⟨f, Or.inr ?_, hrequest⟩
        rw [heq]
        exact hcarried

/-- A sleep image's frame is enqueued, in place of no frame that carries the request. -/
theorem present (h : Refreshing v) {f : Frame} (hf : Past v.latch f)
    (hkept : v.refreshBusy = true →
      ¬ ∃ g, v.adapter.pending = some g ∧ g.diagnosticRequest = v.refreshRequested) :
    Refreshing { v with adapter := (v.adapter.enqueue f).2 } := by
  have hstep : v.adapter.step (.enqueue f) = some ((v.adapter.enqueue f).2, _) := rfl
  have hframes := h.frames.step (durable_past v.latch)
    (fun g hg => by
      obtain rfl := PresentationAdapter.Action.enqueue.inj hg
      exact fun _ => hf) hstep
  cases haccepts : v.adapter.accepts f with
  | false =>
    rw [PresentationAdapter.enqueue_of_not_accepts haccepts]
    exact h
  | true =>
    refine { h with frames := hframes, live := fun hlive => ?_, carried := fun hlive hbusy => ?_ }
    · rw [PresentationAdapter.enqueue_of_accepts haccepts]
      exact h.live hlive
    · refine (h.carried hlive hbusy).imp (fun hid => hid) ?_
      rintro ⟨g, hslot | hcarried, hrequest⟩
      · exact absurd ⟨g, hslot, hrequest⟩ (hkept hbusy)
      · refine ⟨g, Or.inr ?_, hrequest⟩
        rw [PresentationAdapter.enqueue_of_accepts haccepts]
        exact hcarried

/-- A frame without a request is enqueued: what it replaces hands its request over, unless the frame
is a sleep image's. -/
theorem enqueueOrdinary (h : Refreshing v) {f : Frame} (hf : Past v.latch f)
    (hnumber : f.diagnosticRequest = 0)
    (hunsent : f.sleepImageEpoch ≠ 0 → v.refreshBusy = true → v.refreshId ≠ 0) :
    Refreshing { v with worker := .enqueued, adapter := (v.adapter.enqueue f).2 } := by
  have hidle : Refreshing { v with worker := .enqueued } :=
    h.setWorker (fun hw => hw) (by simp) (by simp)
  have hstep : v.adapter.step (.enqueue f) = some ((v.adapter.enqueue f).2, _) := rfl
  have hframes := h.frames.step (durable_past v.latch)
    (fun g hg => by
      obtain rfl := PresentationAdapter.Action.enqueue.inj hg
      exact fun _ => hf) hstep
  cases haccepts : v.adapter.accepts f with
  | false =>
    rw [PresentationAdapter.enqueue_of_not_accepts haccepts]
    exact hidle
  | true =>
    rw [PresentationAdapter.enqueue_of_accepts haccepts] at hframes ⊢
    refine { hidle with frames := hframes, live := h.live, carried := fun hlive hbusy => ?_ }
    by_cases hid : v.refreshId = 0
    swap
    · exact Or.inl hid
    have hordinary : f.sleepImageEpoch = 0 := by
      by_contra hsleep
      exact hunsent hsleep hbusy hid
    obtain ⟨g, hslot | hcarried, hrequest⟩ := (h.carried hlive hbusy).resolve_left (absurd hid)
    · refine Or.inr ⟨PresentationAdapter.followPending f g, Or.inl ?_, ?_⟩
      · simp [hslot]
      · unfold PresentationAdapter.followPending
        rw [if_pos ⟨hordinary, hnumber⟩]
        exact hrequest
    · exact Or.inr ⟨g, Or.inr hcarried, hrequest⟩

/-- A frame with the requested refresh is enqueued. -/
theorem enqueueRequest (h : Refreshing v) {f : Frame} (hf : Past v.latch f)
    (hnumber : f.diagnosticRequest = v.refreshRequested) :
    Refreshing { v with
      worker := .enqueued
      adapter := (v.adapter.enqueue f).2
      refreshId := 0
      refreshBusy := v.refreshBusy && v.adapter.accepts f } := by
  have hidle : Refreshing { v with worker := .enqueued } :=
    h.setWorker (fun hw => hw) (by simp) (by simp)
  have hstep : v.adapter.step (.enqueue f) = some ((v.adapter.enqueue f).2, _) := rfl
  have hframes := h.frames.step (durable_past v.latch)
    (fun g hg => by
      obtain rfl := PresentationAdapter.Action.enqueue.inj hg
      exact fun _ => hf) hstep
  cases haccepts : v.adapter.accepts f with
  | false =>
    rw [PresentationAdapter.enqueue_of_not_accepts haccepts, Bool.and_false]
    exact hidle.release
  | true =>
    rw [PresentationAdapter.enqueue_of_accepts haccepts] at hframes ⊢
    rw [Bool.and_true]
    refine { hidle with
      current := fun hid => absurd rfl hid
      unsent := fun hw => hw.elim
      frames := hframes
      live := h.live
      carried := fun _ hbusy => Or.inr ?_ }
    have hfollow : ∀ g, PresentationAdapter.followPending f g = f := by
      intro g
      unfold PresentationAdapter.followPending
      rw [if_neg]
      rintro ⟨-, hzero⟩
      exact h.requested hbusy (hnumber.symm.trans hzero)
    refine ⟨f, Or.inl ?_, hnumber⟩
    cases hslot : v.adapter.pending with
    | none => simp
    | some g => simp [hfollow]

/-- The adapter's worker comes back from the observer. -/
theorem observe (h : Refreshing v) {frame : Frame} {accepted : Bool} {duration : Duration}
    {busy : Bool} (hphase : v.adapter.worker = .recorded frame accepted duration)
    (hbusy : busy = true → v.refreshBusy = true ∧
      (frame.diagnosticRequest ≠ 0 → frame.diagnosticRequest ≠ v.refreshRequested)) :
    Refreshing { v with
      refreshBusy := busy
      adapter := { v.adapter with worker := .waiting } } where
  current := h.current
  requested hb := h.requested (hbusy hb).1
  armed hstate := by
    have hnot := (h.armed hstate).2
    refine ⟨(h.armed hstate).1, ?_⟩
    cases busy with
    | false => rfl
    | true => rw [(hbusy rfl).1] at hnot; cases hnot
  epoch := h.epoch
  unsent hw hb := h.unsent hw (hbusy hb).1
  evaluated := h.evaluated
  assembled := h.assembled
  frames := h.frames.of_phase (Or.inl rfl) (Or.inr rfl)
  live := h.live
  carried hlive hb := by
    obtain ⟨hwas, hother⟩ := hbusy hb
    refine (h.carried hlive hwas).imp (fun hid => hid) ?_
    rintro ⟨f, hslot | hcarried, hrequest⟩
    · exact ⟨f, Or.inl hslot, hrequest⟩
    · exfalso
      rw [hphase] at hcarried
      obtain rfl := Option.some.inj hcarried
      exact hother (hrequest ▸ h.requested hwas) hrequest

end Refreshing

/-! ### The methods -/

/-- What a presentation does to the view. -/
inductive Presentation (c : Settings) (s : Pipeline) (epoch : Nat) (now : TimePoint) (v : View) :
    Prop
  | refused (h : v = view s)
  | presented (image : Int × Int × List UInt8 × List UInt8) (hpresents : Presents c s epoch now)
      (h : v = { view s with
        latch := { s.sleepImageLatch with
          lastArmedEpoch := epoch, activeEpoch := epoch, state := .consumed }
        adapter := (s.adapter.enqueue (s.sleepImageFrame c epoch now image)).2 })
  | rejected (hlt : s.sleepImageLatch.lastArmedEpoch < epoch)
      (hidle : s.sleepImageLatch.activeEpoch = 0)
      (h : v = { view s with latch := { s.sleepImageLatch with
        lastArmedEpoch := epoch, activeEpoch := 0, state := .inactive } })

theorem presentSleepImage_cases (c : Settings) (s : Pipeline) (epoch : Nat) (now : TimePoint) :
    Presentation c s epoch now (view (s.presentSleepImage c epoch now).2) := by
  unfold presentSleepImage
  split
  · exact .refused rfl
  next hepoch =>
  split
  · exact .refused rfl
  next havailable =>
  cases hprepare : s.prepareSleepImage c epoch with
  | error result => exact .refused rfl
  | ok image =>
    dsimp only
    rcases SleepImageLatch.armSleepCycle_cases s.sleepImageLatch epoch with
      ⟨hlt, hidle, harm⟩ | ⟨hrefused, hsame⟩
    · have hbegin : SleepImageLatch.beginPresentation { s.sleepImageLatch with
          lastArmedEpoch := epoch, activeEpoch := epoch, state := .armed } epoch =
          (.accepted, { s.sleepImageLatch with
            lastArmedEpoch := epoch, activeEpoch := epoch, state := .consumed }) := by
        simp [SleepImageLatch.beginPresentation, hepoch]
      have hdisarm : SleepImageLatch.disarmSleepCycle { s.sleepImageLatch with
          lastArmedEpoch := epoch, activeEpoch := epoch, state := .consumed } epoch =
          (.accepted, { s.sleepImageLatch with
            lastArmedEpoch := epoch, activeEpoch := 0, state := .inactive }) := by
        simp [SleepImageLatch.disarmSleepCycle, hepoch]
      rw [harm]
      dsimp only
      rw [if_neg (not_not.mpr rfl), hbegin]
      dsimp only
      rw [if_neg (not_not.mpr rfl)]
      unfold enqueueSleepImage
      dsimp only
      split
      · next haccepts =>
        refine .presented image ⟨hepoch, ?_, hlt, hidle, image, hprepare, haccepts⟩ rfl
        simp only [Bool.or_eq_true, Bool.not_eq_true'] at havailable
        cases henabled : s.enabled with
        | true => rfl
        | false => exact absurd (Or.inr henabled) havailable
      · rw [hdisarm]
        exact .rejected hlt hidle rfl
    · rw [if_pos hrefused]
      refine .refused ?_
      show { view s with latch := (s.sleepImageLatch.armSleepCycle epoch).2 } = view s
      rw [hsame]
      rfl

/-- The invariant of a pipeline. -/
abbrev Refreshed (s : Pipeline) : Prop := Refreshing (view s)

namespace Refreshed

theorem of_view (h : Refreshed s) (hview : view s' = view s) : Refreshed s' := by
  unfold Refreshed
  rw [hview]
  exact h

theorem of_eq {v : View} (h : Refreshing v) (hview : view s' = v) : Refreshed s' := by
  unfold Refreshed
  rw [hview]
  exact h

theorem requestDiagnosticRefresh (h : Refreshed s) (mode : DiagnosticRefresh) :
    Refreshed (s.requestDiagnosticRefresh c mode).2 := by
  unfold Pipeline.requestDiagnosticRefresh
  split
  · exact h
  · next hcond =>
    have hidle : s.sleepImageLatch.activeEpoch = 0 := by
      by_contra hactive
      simp [hactive] at hcond
    exact h.request hidle

theorem cancelDiagnosticRefresh (h : Refreshed s) (id : Nat) :
    Refreshed (s.cancelDiagnosticRefresh id) := by
  unfold Pipeline.cancelDiagnosticRefresh
  split
  · exact h.release
  · exact h

theorem setEnabled (h : Refreshed s) (enabled : Bool) : Refreshed (s.setEnabled enabled) := by
  unfold Pipeline.setEnabled
  split
  · cases enabled with
    | false => exact h.cancel
    | true => exact h
  · exact h

theorem armSleepCycle (h : Refreshed s) (epoch : Nat) : Refreshed (s.armSleepCycle epoch).2 := by
  unfold Pipeline.armSleepCycle
  split
  · next hcond =>
    rcases SleepImageLatch.armSleepCycle_cases s.sleepImageLatch epoch with
      ⟨hlt, -, harm⟩ | ⟨hrefused, hsame⟩
    · have hepoch : epoch ≠ 0 := by omega
      rw [harm]
      exact h.cancel.relatch (fun f hf => Refreshing.past_arm .armed hlt hf) (Nat.le_of_lt hlt)
        (fun _ => ⟨hepoch, rfl⟩) (Nat.le_refl epoch)
    · dsimp only
      rw [if_neg hrefused]
      refine h.of_view ?_
      show { view s with latch := (s.sleepImageLatch.armSleepCycle epoch).2 } = view s
      rw [hsame]
      rfl
  · exact h

theorem presentSleepImage (h : Refreshed s) {epoch : Nat} {now : TimePoint}
    (hkept : KeepsRefresh c s (.presentSleepImage epoch now)) :
    Refreshed (s.presentSleepImage c epoch now).2 := by
  unfold Refreshed
  cases presentSleepImage_cases c s epoch now with
  | refused heq => rwa [heq]
  | rejected hlt _ heq =>
    rw [heq]
    refine h.relatch (fun f hf => ?_) (Nat.le_of_lt hlt) (fun hstate => by cases hstate)
      (Nat.zero_le epoch)
    exact Refreshing.past_disarm (Refreshing.past_arm .consumed hlt hf)
  | presented image hpresents heq =>
    rw [heq]
    have hlatched := h.relatch (fun f hf => Refreshing.past_arm .consumed hpresents.fresh hf)
      (Nat.le_of_lt hpresents.fresh) (fun hstate => by cases hstate) (Nat.le_refl epoch)
    refine hlatched.present ⟨Nat.le_refl epoch, fun hrequest => absurd rfl hrequest⟩ ?_
    exact fun hbusy hpending => hkept epoch now rfl hbusy hpending hpresents

theorem disarmSleepCycle (h : Refreshed s) (epoch : Nat) :
    Refreshed (s.disarmSleepCycle epoch).2 := by
  unfold Pipeline.disarmSleepCycle
  rcases SleepImageLatch.disarmSleepCycle_cases s.sleepImageLatch epoch with
    ⟨-, hactive, hdisarm⟩ | ⟨hrefused, -⟩
  · rw [hdisarm]
    subst hactive
    exact h.cancelSleepImage.relatch (fun f hf => Refreshing.past_disarm hf) (Nat.le_refl _)
      (fun hstate => by cases hstate) (Nat.zero_le _)
  · dsimp only
    rw [if_neg hrefused]
    exact h

/-! ### The worker -/

theorem startThreads (h : Refreshed s) (hs : s.startThreads = some s') : Refreshed s' := by
  unfold Pipeline.startThreads at hs
  split at hs
  · next hcond =>
    obtain rfl := Option.some.inj hs
    have habsent : s.worker = .absent := by
      simp only [Bool.and_eq_true, decide_eq_true_eq] at hcond
      exact hcond.2
    have hstart : s.adapter.step .start = some (s.adapter.start, []) := rfl
    have hframes := h.frames.step (durable_past s.sleepImageLatch) (by simp) hstart
    have hstopping : s.adapter.start.stopping = s.adapter.stopping := by
      rcases PresentationAdapter.start_cases s.adapter with heq | ⟨-, heq⟩ <;> rw [heq]
    -- before the worker is there a busy request has not left the pipeline
    have hunsent : s.refreshBusy = true → s.refreshId ≠ 0 :=
      h.unsent (by rw [show (view s).worker = .absent from habsent]; trivial)
    exact { h with
      unsent := fun hw => hw.elim
      evaluated := fun _ _ _ _ _ hw => by cases hw
      assembled := fun _ hw => by cases hw
      frames := hframes
      live := fun hlive => hstopping.trans (h.live hlive)
      carried := fun _ hbusy => Or.inl (hunsent hbusy) }
  · cases hs

theorem stopAdapter (h : Refreshed s) (hs : s.stopAdapter = some s') : Refreshed s' := by
  unfold Pipeline.stopAdapter at hs
  split at hs
  · next hcond =>
    obtain rfl := Option.some.inj hs
    have hstopping : s.stopping = true := by
      simp only [Bool.and_eq_true] at hcond
      exact hcond.1
    have hstop : s.adapter.step .stop = some (s.adapter.stop, _) := rfl
    have hno : ¬ s.stopping = false := by simp [hstopping]
    exact { h with
      frames := h.frames.step (durable_past s.sleepImageLatch) (by simp) hstop
      live := fun hlive => absurd hlive hno
      carried := fun hlive => absurd hlive hno }
  · cases hs

theorem dequeue (h : Refreshed s) (hs : s.dequeue = some s') : Refreshed s' := by
  unfold Pipeline.dequeue at hs
  split at hs
  · split at hs
    · obtain rfl := Option.some.inj hs
      exact h.setWorker (fun hw => hw) (by simp) (by simp)
    · split at hs
      · cases hs
      · obtain rfl := Option.some.inj hs
        exact h.setWorker (fun hw => hw) (by simp) (by simp)
  · cases hs

theorem convert (h : Refreshed s) {result : Option Conversion} (hs : s.convert result = some s') :
    Refreshed s' := by
  unfold Pipeline.convert at hs
  split at hs
  · split at hs
    · obtain rfl := Option.some.inj hs
      exact h.setWorker (fun hw => hw) (by simp) (by simp)
    · obtain rfl := Option.some.inj hs
      exact h.setWorker (fun hw => hw) (by simp) (by simp)
  · cases hs

theorem conversionFailed (h : Refreshed s) (hs : s.conversionFailed = some s') : Refreshed s' := by
  unfold Pipeline.conversionFailed at hs
  split at hs
  · dsimp only at hs
    have hidle : Refreshing { view s with worker := .waiting } :=
      h.setWorker (fun hw => hw) (by simp) (by simp)
    split at hs
    · obtain rfl := Option.some.inj hs
      exact hidle.release
    · obtain rfl := Option.some.inj hs
      exact hidle
  · cases hs

theorem checkSource (h : Refreshed s) (hs : s.checkSource = some s') : Refreshed s' := by
  unfold Pipeline.checkSource at hs
  split at hs
  · split at hs
    · obtain rfl := Option.some.inj hs
      exact h.setWorker (fun hw => hw) (by simp) (by simp)
    · obtain rfl := Option.some.inj hs
      exact h.setWorker (fun hw => hw) (by simp) (by simp)
  · cases hs

/-- A replacement happens in an armed cycle, in which no refresh is busy. -/
theorem evaluate (h : Refreshed s) (hs : s.evaluate c = some s') : Refreshed s' := by
  unfold Pipeline.evaluate at hs
  split at hs
  · next job conversion hw =>
    obtain rfl := Option.some.inj hs
    let frame := convertedFrame c job conversion.grayscale
    let r := s.sleepImageLatch.evaluate ⟨frame.dirtyRect, frame.grayscaleBuffer⟩ s.sleepSelector
    obtain ⟨hactive, hlast⟩ := SleepImageLatch.evaluate_epochs s.sleepImageLatch
      ⟨frame.dirtyRect, frame.grayscaleBuffer⟩ s.sleepSelector
    have hcases := SleepImageLatch.evaluate_cases s.sleepImageLatch
      ⟨frame.dirtyRect, frame.grayscaleBuffer⟩ s.sleepSelector
    have hstate : r.latch.state = .armed → s.sleepImageLatch.state = .armed := by
      intro harmed
      cases hcases with
      | ignored _ hsame _ _ _ => exact hsame ▸ harmed
      | unarmed _ _ hsame _ _ _ => exact hsame ▸ harmed
      | fallback _ hwas _ _ _ => exact hwas
      | replaced _ _ hwas _ _ _ _ => exact hwas
    have hreplace : r.decision = .replace → s.sleepImageLatch.state = .armed :=
      fun hdecision => (replaces_of_decision hdecision).1
    have hlatched := h.relatch (l := r.latch)
      (fun f hf => ⟨Nat.le_trans hf.1 (Nat.le_of_eq hlast.symm),
        fun hrequest hepoch heq => hf.2 hrequest hepoch (heq.trans hactive)⟩)
      (Nat.le_of_eq hlast.symm)
      (fun harmed => ⟨fun hzero => (h.armed (hstate harmed)).1 (hactive.symm.trans hzero),
        (h.armed (hstate harmed)).2⟩)
      (Nat.le_trans (Nat.le_of_eq hactive) (Nat.le_trans h.epoch (Nat.le_of_eq hlast.symm)))
    exact { hlatched with
      unsent := fun hdecision hbusy => by
        have hidle := (h.armed (hreplace hdecision)).2
        rw [show (view s).refreshBusy = true from hbusy] at hidle
        cases hidle
      evaluated := fun _ _ _ _ _ heq => by
        obtain ⟨-, -, -, rfl, -⟩ := WorkerPhase.evaluated.inj heq
        exact hlatched.epoch
      assembled := fun _ heq => by cases heq }
  · cases hs

theorem hold (h : Refreshed s) (hs : s.hold = some s') : Refreshed s' := by
  unfold Pipeline.hold at hs
  split at hs
  · obtain rfl := Option.some.inj hs
    exact h.setWorker (fun hw => hw) (by simp) (by simp)
  · cases hs

theorem finish (h : Refreshed s) (hs : s.finish = some s') : Refreshed s' := by
  unfold Pipeline.finish at hs
  split at hs
  · obtain rfl := Option.some.inj hs
    exact h.setWorker (fun hw => hw) (by simp) (by simp)
  · obtain rfl := Option.some.inj hs
    exact h.setWorker (fun hw => hw) (by simp) (by simp)
  · cases hs

/-- A request is read outside a sleep cycle only. -/
theorem readRefresh (h : Refreshed s) {now : TimePoint} (hs : s.readRefresh c now = some s') :
    Refreshed s' := by
  unfold Pipeline.readRefresh at hs
  split at hs
  · next job f decision epoch demand hw =>
    split at hs
    · cases hs
    dsimp only at hs
    generalize hrefresh : (if (s.enabled && s.sleepImageLatch.activeEpoch = 0) = true then
      (s.refreshMode, s.refreshId) else (DiagnosticRefresh.none, 0)) = refresh at hs
    obtain rfl := Option.some.inj hs
    have hrequest : refresh.2 ≠ 0 → s.sleepImageLatch.activeEpoch = 0 := by
      intro hnumber
      rw [← hrefresh] at hnumber
      split at hnumber
      · next hcond =>
        simp only [Bool.and_eq_true, decide_eq_true_eq] at hcond
        exact hcond.2
      · exact absurd rfl hnumber
    have hlast : epoch ≤ s.sleepImageLatch.lastArmedEpoch :=
      h.evaluated job f decision epoch demand hw
    unfold Refreshed
    split
    · exact h.setWorker (fun hw => hw) (by simp) (by simp)
    · refine { h with
        unsent := fun hepoch => ?_
        evaluated := fun _ _ _ _ _ heq => by cases heq
        assembled := fun g heq => ?_ }
      · have hreplace : decision = .replace := by
          by_contra hkept
          exact hepoch (if_neg hkept)
        exact h.unsent (by rw [show (view s).worker = _ from hw]; exact hreplace)
      · obtain rfl := WorkerPhase.assembled.inj heq
        constructor
        · show (if decision = .replace then epoch else 0) ≤ _
          split
          · exact hlast
          · exact Nat.zero_le _
        · intro hnumber hepoch
          show _ ≠ s.sleepImageLatch.activeEpoch
          rw [hrequest hnumber]
          exact hepoch
  · cases hs

/-- The request leaves with the frame, or stays in the pipeline. -/
theorem enqueue (h : Refreshed s) (hs : s.enqueue = some s') : Refreshed s' := by
  unfold Pipeline.enqueue at hs
  split at hs
  swap
  · cases hs
  next f hw =>
  obtain rfl := Option.some.inj hs
  have hpast : Past s.sleepImageLatch f := h.assembled f hw
  have hfinal : Past s.sleepImageLatch (s.finalFrame f) := by
    unfold finalFrame
    split
    · exact (durable_past s.sleepImageLatch).clear f hpast
    · exact hpast
  have hcurrent : (s.finalFrame f).diagnosticRequest ≠ 0 →
      (s.finalFrame f).diagnosticRequest = s.refreshRequested := by
    unfold finalFrame
    split
    · exact fun hnumber => absurd rfl hnumber
    · next hcond =>
      intro hnumber
      have hsame : s.refreshId = f.diagnosticRequest := by
        by_contra hother
        simp [hnumber, hother] at hcond
      have hid : s.refreshId ≠ 0 := hsame ▸ hnumber
      exact hsame.symm.trans (h.current hid)
  have hepoch : (s.finalFrame f).sleepImageEpoch = f.sleepImageEpoch := by
    unfold finalFrame
    split <;> rfl
  have hunsent : (s.finalFrame f).sleepImageEpoch ≠ 0 → s.refreshBusy = true → s.refreshId ≠ 0 := by
    rw [hepoch]
    intro hsleep
    exact h.unsent (by rw [show (view s).worker = _ from hw]; exact hsleep)
  by_cases hnumber : (s.finalFrame f).diagnosticRequest = 0
  · have hnext := Refreshing.enqueueOrdinary h hfinal hnumber hunsent
    refine of_eq hnext ?_
    simp [view, hnumber]
  · have hnext := Refreshing.enqueueRequest h hfinal (hcurrent hnumber)
    refine of_eq hnext ?_
    simp [view, hnumber, PresentationAdapter.enqueue_fst]

theorem observe (h : Refreshed s) (hs : s.observe c = some s') : Refreshed s' := by
  unfold Pipeline.observe at hs
  split at hs
  · next frame accepted duration hphase =>
    obtain ⟨a', ha, rfl⟩ := Option.map_eq_some_iff.mp hs
    unfold PresentationAdapter.observe at ha
    rw [hphase] at ha
    obtain rfl := Option.some.inj ha
    have hbusy : (s.onEngineSubmission c frame accepted).refreshBusy = true → s.refreshBusy = true ∧
        (frame.diagnosticRequest ≠ 0 → frame.diagnosticRequest ≠ s.refreshRequested) := by
      unfold onEngineSubmission
      dsimp only
      split
      · intro hbusy
        simp only [Bool.and_eq_true, decide_eq_true_eq] at hbusy
        exact ⟨hbusy.1, fun _ => hbusy.2⟩
      · next hnumber => exact fun hbusy => ⟨hbusy, fun hother => absurd hother hnumber⟩
    refine of_eq (Refreshing.observe h hphase hbusy) ?_
    unfold onEngineSubmission
    dsimp only
    split <;> rfl
  · cases hs

theorem onAdapter (h : Refreshed s) (act : PresentationAdapter.Action)
    (hact : act.isDelivery = true) {r : Option PresentationAdapter}
    {f : PresentationAdapter → List PresentationAdapter.Event}
    (hr : s.adapter.step act = r.map fun a' => (a', f a')) (hs : s.onAdapter r = some s') :
    Refreshed s' := by
  obtain ⟨a', ha, rfl⟩ := Option.map_eq_some_iff.mp hs
  have hstep : s.adapter.step act = some (a', f a') := by
    rw [hr, ha]
    rfl
  exact Refreshing.deliver h hact hstep

end Refreshed

/-- Every step keeps it, unless a presentation replaces the carrier. -/
theorem refreshed_step (h : Refreshed s) (hkept : KeepsRefresh c s a)
    (hs : step c s a = some (s', evs)) : Refreshed s' := by
  have hsome : ∀ {r : Pipeline} {es : List Event}, some (r, es) = some (s', evs) →
      Refreshed r → Refreshed s' :=
    fun hr => System.result_of_some (P := fun t _ => Refreshed t) hr
  have hmap : ∀ {r : Option Pipeline} {es : List Event}, r.map (·, es) = some (s', evs) →
      (∀ s', r = some s' → Refreshed s') → Refreshed s' :=
    fun hr => System.result_of_map (P := fun t _ => Refreshed t) hr
  -- most calls leave the refresh and its carriers alone
  have hview : ∀ {r : Pipeline} {es : List Event}, some (r, es) = some (s', evs) →
      view r = view s → Refreshed s' := fun hr hsame => hsome hr (h.of_view hsame)
  cases a with
  | requestDiagnosticRefresh mode => exact hsome hs (h.requestDiagnosticRefresh mode)
  | cancelDiagnosticRefresh id => exact hsome hs (h.cancelDiagnosticRefresh id)
  | start =>
    refine hview hs ?_
    unfold start
    split <;> rfl
  | startThreads => exact hmap hs fun _ => h.startThreads
  | stop =>
    refine hsome hs ?_
    unfold stop
    split
    · exact h
    · exact Refreshing.stop h
  | stopAdapter => exact hmap hs fun _ => h.stopAdapter
  | setEnabled enabled => exact hsome hs (h.setEnabled enabled)
  | resetForSourceChange =>
    refine hview hs ?_
    unfold resetForSourceChange
    split <;> rfl
  | publishSleepImageCatalog epoch width height entries selectedIndex mode =>
    refine hview hs ?_
    unfold publishSleepImageCatalog
    split
    · rfl
    split
    · rfl
    split
    · split
      · rfl
      split
      · rfl
      split <;> rfl
    · rfl
  | armSleepCycle epoch => exact hsome hs (h.armSleepCycle epoch)
  | presentSleepImage epoch now => exact hsome hs (h.presentSleepImage hkept)
  | disarmSleepCycle epoch => exact hsome hs (h.disarmSleepCycle epoch)
  | onCapturedComposition composition =>
    refine hview hs ?_
    unfold onCapturedComposition
    split
    · rfl
    split <;> rfl
  | dequeue => exact hmap hs fun _ => h.dequeue
  | convert result => exact hmap hs fun _ => h.convert
  | conversionFailed => exact hmap hs fun _ => h.conversionFailed
  | checkSource => exact hmap hs fun _ => h.checkSource
  | evaluate => exact hmap hs fun _ => h.evaluate
  | hold => exact hmap hs fun _ => h.hold
  | readRefresh now => exact hmap hs fun _ => h.readRefresh
  | enqueue => exact hmap hs fun _ => h.enqueue
  | finish => exact hmap hs fun _ => h.finish
  | wake interval now => exact hmap hs fun _ => h.onAdapter (.wake interval now) rfl rfl
  | rewake now => exact hmap hs fun _ => h.onAdapter (.rewake now) rfl rfl
  | submitStart now => exact hmap hs fun _ => h.onAdapter (.submitStart now) rfl rfl
  | submitReturn accepted now =>
    exact hmap hs fun _ => h.onAdapter (.submitReturn accepted now) rfl rfl
  | record => exact hmap hs fun _ => h.onAdapter .record rfl rfl
  | observe => exact hmap hs fun _ => h.observe

/-- **A busy refresh has a carrier**, in every run in which no presentation replaces a pending frame
that carries it. -/
theorem refresh_carried {as : List Action} {log : List Event} {t : Pipeline}
    (h : (system c).Run (KeepsRefresh c) {} as log t) (hlive : t.stopping = false)
    (hbusy : t.refreshBusy = true) : Carried t := by
  have hinv : Refreshed t := by
    refine h.invariant Refreshed refreshing_init ?_
    exact fun s a s' evs hs hkept hstep => refreshed_step hs hkept hstep
  exact (hinv.carried hlive hbusy).imp (fun hid => hid) Or.inl

/-! ### A presentation over a carrier -/

/-- A refresh is requested, and a page comes to its evaluation. -/
def refreshActions (pixels : List UInt8) : List Action :=
  [.requestDiagnosticRefresh .full, .onCapturedComposition {}, .dequeue,
    .convert (some ⟨auraPage pixels, 1⟩), .checkSource]

def checkedRefresh (pixels : List UInt8) : Pipeline :=
  { published pixels with
    worker := .checked ⟨{}, 1, 0⟩ ⟨auraPage pixels, 1⟩
    conversionInFlight := true
    nextSequence := 2
    refreshBusy := true
    refreshRequested := 1
    refreshId := 1
    refreshMode := .full }

def evaluatedRefresh (pixels : List UInt8) (latch : SleepImageLatch) : Pipeline :=
  { checkedRefresh pixels with
    worker := .evaluated ⟨{}, 1, 0⟩ (convertedFrame auraSettings ⟨{}, 1, 0⟩ (auraPage pixels))
      .passThrough latch.activeEpoch .sessionStart
    sleepImageLatch := latch
    demandGate := ⟨some ⟨1, (auraPage pixels).byteCount, 2480, 1860⟩, false⟩ }

/-- The page carries the request. -/
def refreshFrame (pixels : List UInt8) : Frame :=
  { convertedFrame auraSettings ⟨{}, 1, 0⟩ (auraPage pixels) with
    enqueuedAt := 1
    composeBuffer := some (.android none none)
    diagnosticRefresh := .full
    diagnosticRequest := 1 }

/-- The page has been enqueued. -/
def enqueuedRefresh (pixels : List UInt8) (latch : SleepImageLatch) : Pipeline :=
  { evaluatedRefresh pixels latch with
    worker := .waiting
    conversionInFlight := false
    refreshId := 0
    refreshMode := .none
    adapter := ((published pixels).adapter.enqueue (refreshFrame pixels)).2 }

section

variable {pixels : List UInt8}

/-- An inactive latch lets the page through. -/
theorem evaluate_checkedRefresh (pixels : List UInt8) :
    ∃ latch, latch.state = .inactive ∧ latch.activeEpoch = 0 ∧ latch.lastArmedEpoch = 0 ∧
      (system auraSettings).step (checkedRefresh pixels) .evaluate =
        some (evaluatedRefresh pixels latch, []) := by
  let frame := convertedFrame auraSettings ⟨{}, 1, 0⟩ (auraPage pixels)
  obtain ⟨latch, hevaluate, hstate, hactive⟩ := evaluateFrame_inactive (l := {}) rfl frame
    (some ((sleepCatalog pixels).selector 0))
  have hlast : latch.lastArmedEpoch = 0 := by
    have hlatch : (SleepImageLatch.evaluate {} ⟨frame.dirtyRect, frame.grayscaleBuffer⟩
        (some ((sleepCatalog pixels).selector 0))).latch = latch := congrArg Prod.fst hevaluate
    rw [← hlatch]
    exact (SleepImageLatch.evaluate_epochs {} _ _).2
  refine ⟨latch, hstate, hactive, hlast, ?_⟩
  have heq : (checkedRefresh pixels).evaluate auraSettings =
      some (evaluatedRefresh pixels latch) := by
    simp only [frame] at hevaluate
    simp only [evaluate, checkedRefresh, published, sleepSelector, Option.map_some, hevaluate]
    rfl
  simp only [system, step, heq, Option.map_some]

/-- The worker brings the request to the adapter. -/
theorem run_enqueuedRefresh (hlength : pixels.length = auraCDeviceProfile.panelBytes)
    (hgray : isPanelGray pixels = true) :
    ∃ as latch, (∀ a ∈ as, ∀ epoch now, a ≠ .presentSleepImage epoch now) ∧
      latch.state = .inactive ∧ latch.activeEpoch = 0 ∧ latch.lastArmedEpoch = 0 ∧
      (system auraSettings).Run System.anyAction {} as
        [.refreshRequested 1, .enqueued (refreshFrame pixels)] (enqueuedRefresh pixels latch) := by
  obtain ⟨latch, hstate, hactive, hlast, hevaluate⟩ := evaluate_checkedRefresh pixels
  have hchecked : (system auraSettings).exec System.anyAction (published pixels)
      (refreshActions pixels) = some (checkedRefresh pixels, [.refreshRequested 1]) := rfl
  have henqueued : (system auraSettings).exec System.anyAction (evaluatedRefresh pixels latch)
      [.readRefresh 1, .enqueue, .finish] =
        some (enqueuedRefresh pixels latch, [.enqueued (refreshFrame pixels)]) := by
    obtain ⟨state, last, active, outcome, evaluation⟩ := latch
    obtain rfl : active = 0 := hactive
    rfl
  have hrun := run_published hlength hgray
  have hrun := hrun.trans (.of_exec hchecked)
  have hrun := hrun.trans (.single trivial hevaluate)
  have hrun := hrun.trans (.of_exec henqueued)
  exact ⟨_, latch, by simp [publishActions, refreshActions], hstate, hactive, hlast, hrun⟩

/-- The sleep image's frame takes the slot, and nothing has the request any more. -/
theorem present_enqueuedRefresh {latch : SleepImageLatch} (hactive : latch.activeEpoch = 0)
    (hlast : latch.lastArmedEpoch = 0) (hlength : pixels.length = auraCDeviceProfile.panelBytes)
    (hgray : isPanelGray pixels = true) :
    ∃ t evs, (system auraSettings).step (enqueuedRefresh pixels latch) (.presentSleepImage 1 1) =
        some (t, evs) ∧
      t.started = true ∧ t.stopping = false ∧ t.refreshBusy = true ∧ ¬ Carried t := by
  obtain ⟨plane, -, hprepare⟩ := prepareSleepImage_published hlength hgray
  have hprepare' : (enqueuedRefresh pixels latch).prepareSleepImage auraSettings 1 =
      .ok (2480, 1860, plane, []) := hprepare
  obtain ⟨state, last, active, outcome, evaluation⟩ := latch
  obtain rfl : active = 0 := hactive
  obtain rfl : last = 0 := hlast
  refine ⟨_, _, rfl, ?_⟩
  unfold Pipeline.presentSleepImage
  rw [if_neg (by decide), if_neg (by simp [enqueuedRefresh, evaluatedRefresh, checkedRefresh,
    published]), hprepare']
  refine ⟨rfl, rfl, rfl, ?_⟩
  rintro (hid | ⟨f, hslot | hcarried, hrequest⟩ | ⟨f, hw, -⟩)
  · exact hid rfl
  · obtain rfl := Option.some.inj hslot
    cases hrequest
  · cases hcarried
  · cases hw

/-- The page that the adapter holds carries the refresh. -/
theorem refresh_carried_of_page :
    ∃ as log t, (system auraSettings).Run (KeepsRefresh auraSettings) {} as log t ∧
      t.refreshId = 0 ∧ t.refreshBusy = true ∧ Carried t := by
  obtain ⟨pixels, hlength, hwhite⟩ := exists_white_plane auraCDeviceProfile
  obtain ⟨as, latch, hkept, -, -, -, hrun⟩ :=
    run_enqueuedRefresh hlength (isPanelGray_of_white hwhite)
  have hallowed : ∀ a ∈ as, ∀ s, KeepsRefresh auraSettings s a :=
    fun a ha s epoch now heq => absurd heq (hkept a ha epoch now)
  have hrun' := hrun.of_forall hallowed
  exact ⟨as, _, _, hrun', rfl, rfl, refresh_carried hrun' rfl rfl⟩

/-- A presentation while the adapter holds the carrier: the refresh stays busy for good. -/
theorem presentation_wedges_refresh :
    ¬ ∀ (c : Settings) (as : List Action) (log : List Event) (t : Pipeline),
      (system c).Run System.anyAction {} as log t → t.started = true → t.stopping = false →
      t.refreshBusy = true → Carried t := by
  intro hall
  obtain ⟨pixels, hlength, hwhite⟩ := exists_white_plane auraCDeviceProfile
  have hgray := isPanelGray_of_white hwhite
  obtain ⟨as, latch, -, -, hactive, hlast, hrun⟩ := run_enqueuedRefresh hlength hgray
  obtain ⟨t, evs, hpresent, hstarted, hlive, hbusy, hlost⟩ :=
    present_enqueuedRefresh hactive hlast hlength hgray
  exact hlost (hall _ _ _ _ (hrun.snoc trivial hpresent) hstarted hlive hbusy)

end

end EinkLab.Pipeline
