import EinkLab.SleepImage.Latch

/-!
# The run law of the sleep-image latch

`SleepImageLatch.latch_run_law`: in every run of `Arm`, `Begin`, `Disarm` and `Evaluate` calls, with
any epochs, frames and selectors, every armed cycle is fresh and is consumed at most once, the
selector is consulted at most once a cycle, a consumed cycle holds every dark frame back until its
disarm, malformed and bright frames change nothing, and a replacement fits its frame.

`evaluate_cases` says what one evaluation can do.  The invariant of a run, `Tracks`, relates the
log to the latch: an active cycle is the last armed one, and it has not been consumed while the
latch is `armed`.
-/

namespace EinkLab.SleepImageLatch

open Transition

variable {β : Type} [GrayscaleBuffer β]

/-! ### One evaluation -/

@[simp] theorem finish_state (l : SleepImageLatch) (summary : SleepImageEvaluationSummary)
    (state : SleepImageLatchState) (outcome : TerminalBlackOutcome)
    (decision : SleepImageDecision) :
    (l.finish summary state outcome decision).state = state := rfl

@[simp] theorem finish_activeEpoch (l : SleepImageLatch) (summary : SleepImageEvaluationSummary)
    (state : SleepImageLatchState) (outcome : TerminalBlackOutcome)
    (decision : SleepImageDecision) :
    (l.finish summary state outcome decision).activeEpoch = l.activeEpoch := rfl

@[simp] theorem finish_lastArmedEpoch (l : SleepImageLatch)
    (summary : SleepImageEvaluationSummary) (state : SleepImageLatchState)
    (outcome : TerminalBlackOutcome) (decision : SleepImageDecision) :
    (l.finish summary state outcome decision).lastArmedEpoch = l.lastArmedEpoch := rfl

@[simp] theorem summarize_maximumGray (bytes : List UInt8) (state : SleepImageLatchState) :
    (summarize bytes state).maximumGray = bytes.foldl max 0 := rfl

/-- A valid full frame has one byte for each cell of its geometry. -/
theorem length_of_fullFrame {f : ConvertedFrame β} {bytes : List UInt8}
    (h : f.fullFrame? = some bytes) :
    bytes.length = f.dirtyRect.right.toNat * f.dirtyRect.bottom.toNat := by
  simp only [ConvertedFrame.fullFrame?, Option.bind_eq_bind, Option.bind_eq_some_iff,
    Option.ite_none_right_eq_some] at h
  obtain ⟨buffer, -, size, hsize, bytes', hdata, hcount, hbytes⟩ := h
  obtain rfl := Option.some.inj hbytes
  have harea : size = f.dirtyRect.right.toNat * f.dirtyRect.bottom.toNat := by
    unfold fullFrameSize at hsize
    split_ifs at hsize
    exact (Option.some.inj hsize).symm
  rw [GrayscaleBuffer.length_of_data _ _ hdata, hcount, harea]

theorem byteCount_of_fitting {c : SleepImageCandidate β} {width height : Int} {size : Nat}
    {buffer : β} (h : c.fitting width height size = some buffer) :
    GrayscaleBuffer.byteCount buffer = size := by
  simp only [SleepImageCandidate.fitting, Option.bind_eq_bind, Option.bind_eq_some_iff,
    Option.ite_none_right_eq_some] at h
  obtain ⟨buffer', -, bytes, -, ⟨-, -, hcount⟩, hbuffer⟩ := h
  obtain rfl := Option.some.inj hbuffer
  exact hcount

/-- What an evaluation can do, apart from its summary. -/
inductive Evaluates (l : SleepImageLatch) (frame : ConvertedFrame β) (r : Evaluated β) : Prop
  /-- A malformed or bright frame passes through. -/
  | ignored (hframe : ¬ frame.IsDark) (hstate : r.latch.state = l.state)
      (hkept : r.frame = frame) (hdecision : r.decision = .passThrough)
      (hconsulted : r.consulted = none)
  /-- A dark frame outside an armed cycle is suppressed if the cycle is consumed. -/
  | unarmed (hframe : frame.IsDark) (harmed : l.state ≠ .armed) (hstate : r.latch.state = l.state)
      (hkept : r.frame = frame)
      (hdecision : r.decision = if l.state = .consumed then .suppress else .passThrough)
      (hconsulted : r.consulted = none)
  /-- No candidate fits: the cycle falls back to black. -/
  | fallback (hframe : frame.IsDark) (harmed : l.state = .armed)
      (hstate : r.latch.state = .blackFallback) (hkept : r.frame = frame)
      (hdecision : r.decision = .passThrough)
  /-- The candidate takes the place of the frame's gray and the cycle is consumed. -/
  | replaced (buffer : β) (hframe : frame.IsDark) (harmed : l.state = .armed)
      (hstate : r.latch.state = .consumed)
      (hreplaced : r.frame = { frame with grayscaleBuffer := some buffer })
      (hsize : GrayscaleBuffer.byteCount buffer =
        frame.dirtyRect.right.toNat * frame.dirtyRect.bottom.toNat)
      (hdecision : r.decision = .replace)

theorem evaluate_cases (l : SleepImageLatch) (frame : ConvertedFrame β)
    (selector : Option (Selector β)) : Evaluates l frame (l.evaluate frame selector) := by
  unfold evaluate
  cases hbytes : frame.fullFrame? with
  | none => exact .ignored (by simp [ConvertedFrame.IsDark, hbytes]) rfl rfl rfl rfl
  | some bytes =>
    by_cases hbright : (summarize bytes l.state).maximumGray > kSleepImageMaximumGray
    · simp only [hbright, if_true]
      refine .ignored ?_ rfl rfl rfl rfl
      rintro ⟨bytes', hbytes', hdark⟩
      obtain rfl := Option.some.inj (hbytes'.symm.trans hbytes)
      exact absurd hdark (UInt8.not_le.mpr hbright)
    have hdark : frame.IsDark := ⟨bytes, hbytes, UInt8.not_lt.mp hbright⟩
    simp only [hbright, if_false]
    cases hstate : l.state with
    | inactive => exact .unarmed hdark (by simp [hstate]) hstate.symm rfl (by simp [hstate]) rfl
    | consumed => exact .unarmed hdark (by simp [hstate]) hstate.symm rfl (by simp [hstate]) rfl
    | blackFallback =>
      exact .unarmed hdark (by simp [hstate]) hstate.symm rfl (by simp [hstate]) rfl
    | armed =>
      cases selector with
      | none => exact .fallback hdark hstate rfl rfl rfl
      | some select =>
        have hlength := length_of_fullFrame hbytes
        dsimp only
        cases hfit : (select frame.dirtyRect.right frame.dirtyRect.bottom).fitting
            frame.dirtyRect.right frame.dirtyRect.bottom bytes.length with
        | none => exact .fallback hdark hstate rfl rfl rfl
        | some buffer =>
          have hsize := (byteCount_of_fitting hfit).trans hlength
          exact .replaced buffer hdark hstate rfl rfl hsize rfl

/-- No evaluation touches the epochs. -/
theorem evaluate_epochs (l : SleepImageLatch) (frame : ConvertedFrame β)
    (selector : Option (Selector β)) :
    (l.evaluate frame selector).latch.activeEpoch = l.activeEpoch ∧
      (l.evaluate frame selector).latch.lastArmedEpoch = l.lastArmedEpoch := by
  unfold evaluate
  split
  · exact ⟨rfl, rfl⟩
  · dsimp only
    split_ifs
    · exact ⟨rfl, rfl⟩
    · split
      · exact ⟨rfl, rfl⟩
      · exact ⟨rfl, rfl⟩
      · exact ⟨rfl, rfl⟩
      · split
        · exact ⟨rfl, rfl⟩
        · split <;> exact ⟨rfl, rfl⟩

/-! ### Events of a cycle -/

namespace Event

/-- The epoch of an accepted arm. -/
def armedEpoch : Event β → Option Nat
  | .armed epoch => some epoch
  | _ => none

/-- The event consumes the cycle `epoch`: an accepted presentation, or a replacement. -/
def Consumes (epoch : Nat) : Event β → Prop
  | .presented e => e = epoch
  | .evaluated l _ r => r.decision = .replace ∧ l.activeEpoch = epoch
  | _ => False

/-- The selector was consulted in the cycle `epoch`. -/
def Consults (epoch : Nat) : Event β → Prop
  | .evaluated l _ r => r.consulted.isSome ∧ l.activeEpoch = epoch
  | _ => False

def Arms (epoch : Nat) (e : Event β) : Prop := e = .armed epoch

def Disarms (epoch : Nat) (e : Event β) : Prop := e = .disarmed epoch

instance (epoch : Nat) : DecidablePred (Consumes (β := β) epoch) := fun e =>
  match e with
  | .armed _ => inferInstanceAs (Decidable False)
  | .presented e => inferInstanceAs (Decidable (e = epoch))
  | .disarmed _ => inferInstanceAs (Decidable False)
  | .evaluated _ _ _ => inferInstanceAs (Decidable (_ ∧ _))

instance (epoch : Nat) : DecidablePred (Consults (β := β) epoch) := fun e =>
  match e with
  | .armed _ => inferInstanceAs (Decidable False)
  | .presented _ => inferInstanceAs (Decidable False)
  | .disarmed _ => inferInstanceAs (Decidable False)
  | .evaluated _ _ _ => inferInstanceAs (Decidable (_ ∧ _))

end Event

open Event

/-- The law of a run, read from its log. -/
structure RunLaw (log : List (Event β)) : Prop where
  /-- Accepted arm epochs are strictly increasing. -/
  arms_increase : (log.filterMap armedEpoch).Pairwise (· < ·)
  /-- At most one accepted presentation or replacement for an epoch, -/
  consumed_once : ∀ epoch, log.countP (fun e => Consumes epoch e) ≤ 1
  /-- and only in its armed cycle. -/
  consumed_armed : EachEvent (fun pre e => ∀ epoch, Consumes epoch e →
    OpenAfter (Arms epoch) (fun x => Consumes epoch x ∨ Disarms epoch x) pre) log
  /-- The selector is consulted at most once for an epoch, -/
  consulted_once : ∀ epoch, log.countP (fun e => Consults epoch e) ≤ 1
  /-- and only while the cycle is armed and unconsumed. -/
  consulted_armed : EachEvent (fun pre e => ∀ epoch, Consults epoch e →
    OpenAfter (Arms epoch) (fun x => Consumes epoch x ∨ Disarms epoch x) pre) log
  /-- After consumption, dark frames are suppressed until the disarm of that epoch. -/
  held : EachEvent (fun pre e => ∀ epoch l frame r, e = .evaluated l frame r →
    OpenAfter (Consumes epoch) (Disarms epoch) pre → frame.IsDark →
      r.decision = .suppress ∧ r.frame = frame) log
  /-- Malformed and bright frames change nothing. -/
  ignored : ∀ l frame r, .evaluated l frame r ∈ log → ¬ frame.IsDark →
    r.decision = .passThrough ∧ r.latch.state = l.state ∧
      r.latch.activeEpoch = l.activeEpoch ∧ r.latch.lastArmedEpoch = l.lastArmedEpoch ∧
      r.frame = frame
  /-- A replaced frame keeps its geometry, and its buffer has exactly that size. -/
  replaced_size : ∀ l frame r, .evaluated l frame r ∈ log → r.decision = .replace →
    r.frame.dirtyRect = frame.dirtyRect ∧ ∃ buffer, r.frame.grayscaleBuffer = some buffer ∧
      GrayscaleBuffer.byteCount buffer =
        frame.dirtyRect.right.toNat * frame.dirtyRect.bottom.toNat

/-! ### The law, event by event -/

/-- What the law asks of one event, given the log before it. -/
structure EventLaw (log : List (Event β)) (e : Event β) : Prop where
  arms_increase : ∀ epoch, e = .armed epoch → ∀ n ∈ log.filterMap armedEpoch, n < epoch
  consumed : ∀ epoch, Consumes epoch e → log.countP (fun x => Consumes epoch x) = 0 ∧
    OpenAfter (Arms epoch) (fun x => Consumes epoch x ∨ Disarms epoch x) log
  consulted : ∀ epoch, Consults epoch e → log.countP (fun x => Consults epoch x) = 0 ∧
    OpenAfter (Arms epoch) (fun x => Consumes epoch x ∨ Disarms epoch x) log
  held : ∀ epoch l frame r, e = .evaluated l frame r →
    OpenAfter (Consumes epoch) (Disarms epoch) log → frame.IsDark →
      r.decision = .suppress ∧ r.frame = frame
  ignored : ∀ l frame r, e = .evaluated l frame r → ¬ frame.IsDark →
    r.decision = .passThrough ∧ r.latch.state = l.state ∧
      r.latch.activeEpoch = l.activeEpoch ∧ r.latch.lastArmedEpoch = l.lastArmedEpoch ∧
      r.frame = frame
  replaced_size : ∀ l frame r, e = .evaluated l frame r → r.decision = .replace →
    r.frame.dirtyRect = frame.dirtyRect ∧ ∃ buffer, r.frame.grayscaleBuffer = some buffer ∧
      GrayscaleBuffer.byteCount buffer =
        frame.dirtyRect.right.toNat * frame.dirtyRect.bottom.toNat

theorem runLaw_nil : RunLaw (β := β) [] where
  arms_increase := List.Pairwise.nil
  consumed_once _ := Nat.zero_le 1
  consumed_armed := eachEvent_nil _
  consulted_once _ := Nat.zero_le 1
  consulted_armed := eachEvent_nil _
  held := eachEvent_nil _
  ignored _ _ _ h := absurd h List.not_mem_nil
  replaced_size _ _ _ h := absurd h List.not_mem_nil

omit [GrayscaleBuffer β] in
/-- A count that is at most one stays so, if what is counted was not there before. -/
theorem countP_append_singleton_le {p : Event β → Prop} [DecidablePred p] {log : List (Event β)}
    {e : Event β} (h : log.countP (fun x => p x) ≤ 1)
    (he : p e → log.countP (fun x => p x) = 0) : (log ++ [e]).countP (fun x => p x) ≤ 1 := by
  rw [List.countP_append, List.countP_singleton]
  by_cases hp : p e
  · rw [he hp]
    simp [hp]
  · simpa [hp] using h

omit [GrayscaleBuffer β] in
/-- A count of zero stays so, if the new event is not counted. -/
theorem countP_append_singleton_eq_zero {p : Event β → Prop} [DecidablePred p]
    {log : List (Event β)} {e : Event β} (h : log.countP (fun x => p x) = 0) (he : ¬ p e) :
    (log ++ [e]).countP (fun x => p x) = 0 := by
  simp [List.countP_append, h, he]

theorem RunLaw.append_singleton {log : List (Event β)} {e : Event β} (h : RunLaw log)
    (he : EventLaw log e) : RunLaw (log ++ [e]) where
  arms_increase := by
    rw [List.filterMap_append, List.pairwise_append]
    refine ⟨h.arms_increase, ?_, fun n hn m hm => ?_⟩
    · cases e with
      | armed epoch => exact List.pairwise_singleton _ epoch
      | _ => exact List.Pairwise.nil
    · cases e with
      | armed epoch =>
        obtain rfl : m = epoch := by simpa [armedEpoch] using hm
        exact he.arms_increase m rfl n hn
      | presented => simp [armedEpoch] at hm
      | disarmed => simp [armedEpoch] at hm
      | evaluated => simp [armedEpoch] at hm
  consumed_once epoch :=
    countP_append_singleton_le (h.consumed_once epoch) fun hc => (he.consumed epoch hc).1
  consumed_armed :=
    eachEvent_append_singleton.mpr ⟨h.consumed_armed, fun epoch hc => (he.consumed epoch hc).2⟩
  consulted_once epoch :=
    countP_append_singleton_le (h.consulted_once epoch) fun hc => (he.consulted epoch hc).1
  consulted_armed :=
    eachEvent_append_singleton.mpr ⟨h.consulted_armed, fun epoch hc => (he.consulted epoch hc).2⟩
  held := eachEvent_append_singleton.mpr ⟨h.held, he.held⟩
  ignored l frame r hr := by
    rcases List.mem_append.mp hr with hr | hr
    · exact h.ignored l frame r hr
    · exact he.ignored l frame r (List.mem_singleton.mp hr).symm
  replaced_size l frame r hr := by
    rcases List.mem_append.mp hr with hr | hr
    · exact h.replaced_size l frame r hr
    · exact he.replaced_size l frame r (List.mem_singleton.mp hr).symm

/-! ### The invariant -/

/-- The log of a run, seen from the latch it leads to. -/
structure Tracks (log : List (Event β)) (l : SleepImageLatch) : Prop where
  law : RunLaw log
  active : l.activeEpoch = 0 ∧ l.state = .inactive ∨
    l.activeEpoch = l.lastArmedEpoch ∧ 0 < l.activeEpoch ∧ l.state ≠ .inactive
  arms_le : ∀ n ∈ log.filterMap armedEpoch, n ≤ l.lastArmedEpoch
  /-- Epochs to come, and the one that is armed, have not been consumed or consulted for. -/
  fresh : ∀ epoch, l.lastArmedEpoch < epoch ∨ l.state = .armed ∧ epoch = l.activeEpoch →
    log.countP (fun x => Consumes epoch x) = 0 ∧ log.countP (fun x => Consults epoch x) = 0
  armed_open : l.state = .armed →
    OpenAfter (Arms l.activeEpoch)
      (fun x => Consumes l.activeEpoch x ∨ Disarms l.activeEpoch x) log
  consumed_open : ∀ epoch, OpenAfter (Consumes epoch) (Disarms epoch) log →
    l.state = .consumed ∧ l.activeEpoch = epoch

theorem tracks_init : Tracks (β := β) [] {} where
  law := runLaw_nil
  active := Or.inl ⟨rfl, rfl⟩
  arms_le := by simp
  fresh := by simp
  armed_open := by simp
  consumed_open epoch h := absurd h (not_openAfter_nil _ _)

namespace Tracks

variable {log : List (Event β)} {l : SleepImageLatch}

theorem arm (h : Tracks log l) {epoch : Nat} (hlt : l.lastArmedEpoch < epoch)
    (hactive : l.activeEpoch = 0) :
    Tracks (log ++ [.armed epoch])
      { l with lastArmedEpoch := epoch, activeEpoch := epoch, state := .armed } where
  law := h.law.append_singleton {
    arms_increase := by
      intro e he n hn
      have hle := h.arms_le n hn
      have hepoch : epoch = e := by simpa using he
      omega
    consumed := fun _ hc => hc.elim
    consulted := fun _ hc => hc.elim
    held := by simp
    ignored := by simp
    replaced_size := by simp }
  active := Or.inr ⟨rfl, show 0 < epoch by omega, by simp⟩
  arms_le n hn := by
    show n ≤ epoch
    rw [List.filterMap_append, List.mem_append] at hn
    rcases hn with hn | hn
    · have := h.arms_le n hn
      omega
    · have hepoch : n = epoch := by simpa [armedEpoch] using hn
      omega
  fresh e he := by
    have hlt' : l.lastArmedEpoch < e := by
      rcases he with he | ⟨-, rfl⟩
      · exact Nat.lt_trans hlt he
      · exact hlt
    obtain ⟨hconsumed, hconsulted⟩ := h.fresh e (Or.inl hlt')
    exact ⟨countP_append_singleton_eq_zero hconsumed id,
      countP_append_singleton_eq_zero hconsulted id⟩
  armed_open _ := openAfter_append_singleton.mpr (Or.inl rfl)
  consumed_open e he := by
    rcases openAfter_append_singleton.mp he with hc | ⟨he, -⟩
    · exact hc.elim
    · -- a consumed cycle is still active, but none is
      obtain ⟨hstate, -⟩ := h.consumed_open e he
      rcases h.active with ⟨-, hinactive⟩ | ⟨-, hpos, -⟩
      · simp [hstate] at hinactive
      · omega

theorem present (h : Tracks log l) (hstate : l.state = .armed) :
    Tracks (log ++ [.presented l.activeEpoch]) { l with state := .consumed } where
  law := h.law.append_singleton {
    arms_increase := by simp
    consumed := by
      rintro epoch rfl
      exact ⟨(h.fresh _ (Or.inr ⟨hstate, rfl⟩)).1, h.armed_open hstate⟩
    consulted := fun _ hc => hc.elim
    held := by simp
    ignored := by simp
    replaced_size := by simp }
  active := by
    rcases h.active with ⟨-, hinactive⟩ | ⟨hlast, hpos, -⟩
    · simp [hstate] at hinactive
    · exact Or.inr ⟨hlast, hpos, by simp⟩
  arms_le n hn := h.arms_le n (by simpa [armedEpoch] using hn)
  fresh e he := by
    have hlt : l.lastArmedEpoch < e := by simpa using he
    obtain ⟨hconsumed, hconsulted⟩ := h.fresh e (Or.inl hlt)
    -- the epochs to come are above the active one
    have hne : l.activeEpoch ≠ e := by
      rcases h.active with ⟨-, hinactive⟩ | ⟨hlast, -, -⟩
      · simp [hstate] at hinactive
      · omega
    exact ⟨countP_append_singleton_eq_zero hconsumed hne,
      countP_append_singleton_eq_zero hconsulted id⟩
  armed_open := by simp
  consumed_open e he := by
    rcases openAfter_append_singleton.mp he with hc | ⟨he, -⟩
    · exact ⟨rfl, hc⟩
    · exact ⟨rfl, (h.consumed_open e he).2⟩

theorem disarm (h : Tracks log l) :
    Tracks (log ++ [.disarmed l.activeEpoch]) { l with activeEpoch := 0, state := .inactive } where
  law := h.law.append_singleton {
    arms_increase := by simp
    consumed := fun _ hc => hc.elim
    consulted := fun _ hc => hc.elim
    held := by simp
    ignored := by simp
    replaced_size := by simp }
  active := Or.inl ⟨rfl, rfl⟩
  arms_le n hn := h.arms_le n (by simpa [armedEpoch] using hn)
  fresh e he := by
    have hlt : l.lastArmedEpoch < e := by simpa using he
    obtain ⟨hconsumed, hconsulted⟩ := h.fresh e (Or.inl hlt)
    exact ⟨countP_append_singleton_eq_zero hconsumed id,
      countP_append_singleton_eq_zero hconsulted id⟩
  armed_open := by simp
  consumed_open e he := by
    rcases openAfter_append_singleton.mp he with hc | ⟨he, hstop⟩
    · exact hc.elim
    · have hepoch := (h.consumed_open e he).2
      exact absurd (congrArg Event.disarmed hepoch) hstop

/-- One evaluation, by the effects `evaluate_cases` lists. -/
theorem evaluate (h : Tracks log l) (frame : ConvertedFrame β) (selector : Option (Selector β)) :
    Tracks (log ++ [.evaluated l frame (l.evaluate frame selector)])
      (l.evaluate frame selector).latch := by
  obtain ⟨hactive, hlast⟩ := evaluate_epochs l frame selector
  have hcases := evaluate_cases l frame selector
  generalize l.evaluate frame selector = r at hactive hlast hcases
  have hheld : ∀ epoch, OpenAfter (Consumes epoch) (Disarms epoch) log → frame.IsDark →
      r.decision = .suppress ∧ r.frame = frame := by
    intro epoch hopen hdark
    have hconsumed := (h.consumed_open epoch hopen).1
    cases hcases with
    | ignored hframe => exact absurd hdark hframe
    | unarmed _ _ _ hkept hdecision => exact ⟨by rw [hdecision, if_pos hconsumed], hkept⟩
    | fallback _ harmed => simp [hconsumed] at harmed
    | replaced _ _ harmed => simp [hconsumed] at harmed
  -- consulting and replacing happen in an armed cycle only
  have harmed : r.consulted.isSome ∨ r.decision = .replace → l.state = .armed := by
    intro hor
    cases hcases with
    | ignored _ _ _ hdecision hconsulted => simp [hdecision, hconsulted] at hor
    | unarmed _ _ _ _ hdecision hconsulted => split_ifs at hdecision <;> simp_all
    | fallback _ harmed => exact harmed
    | replaced _ _ harmed => exact harmed
  have hlaw : EventLaw log (.evaluated l frame r) := {
    arms_increase := by simp
    consumed := by
      rintro epoch ⟨hdecision, rfl⟩
      have hstate := harmed (Or.inr hdecision)
      exact ⟨(h.fresh _ (Or.inr ⟨hstate, rfl⟩)).1, h.armed_open hstate⟩
    consulted := by
      rintro epoch ⟨hconsulted, rfl⟩
      have hstate := harmed (Or.inl hconsulted)
      exact ⟨(h.fresh _ (Or.inr ⟨hstate, rfl⟩)).2, h.armed_open hstate⟩
    held := by
      rintro epoch _ _ _ ⟨⟩ hopen hdark
      exact hheld epoch hopen hdark
    ignored := by
      rintro _ _ _ ⟨⟩ hframe
      cases hcases with
      | ignored _ hstate hkept hdecision => exact ⟨hdecision, hstate, hactive, hlast, hkept⟩
      | unarmed hdark => exact absurd hdark hframe
      | fallback hdark => exact absurd hdark hframe
      | replaced _ hdark => exact absurd hdark hframe
    replaced_size := by
      rintro _ _ _ ⟨⟩ hdecision
      cases hcases with
      | ignored _ _ _ hpass => simp [hpass] at hdecision
      | unarmed _ _ _ _ hpass => split_ifs at hpass <;> simp [hpass] at hdecision
      | fallback _ _ _ _ hpass => simp [hpass] at hdecision
      | replaced buffer _ _ _ hreplaced hsize =>
        rw [hreplaced]
        exact ⟨rfl, buffer, rfl, hsize⟩ }
  -- the latch leaves the armed state as soon as the selector could be consulted
  have hleft : r.latch.state = .armed → l.state = .armed ∧ ¬ r.consulted.isSome ∧
      r.decision ≠ .replace := by
    intro hstate
    cases hcases with
    | ignored _ hsame _ hdecision hconsulted =>
      exact ⟨hsame ▸ hstate, by simp [hconsulted], by simp [hdecision]⟩
    | unarmed _ hnot hsame => exact absurd (hsame ▸ hstate) hnot
    | fallback _ _ hfallback => simp [hfallback] at hstate
    | replaced _ _ _ hconsumed => simp [hconsumed] at hstate
  have hinactive : r.latch.state = .inactive ↔ l.state = .inactive := by
    cases hcases with
    | ignored _ hsame => rw [hsame]
    | unarmed _ _ hsame => rw [hsame]
    | fallback _ harmed hfallback => simp [harmed, hfallback]
    | replaced _ _ harmed hconsumed => simp [harmed, hconsumed]
  refine {
    law := h.law.append_singleton hlaw
    active := by rw [hactive, hlast, hinactive, Ne, hinactive]; exact h.active
    arms_le := fun n hn => by rw [hlast]; exact h.arms_le n (by simpa [armedEpoch] using hn)
    fresh := fun e he => ?_
    armed_open := fun hstate => ?_
    consumed_open := fun e he => ?_ }
  · have hnew : ¬ Consumes e (.evaluated l frame r) ∧ ¬ Consults e (.evaluated l frame r) := by
      rw [hlast] at he
      rcases he with he | ⟨hstate, -⟩
      · have hne : l.activeEpoch ≠ e := by
          rcases h.active with ⟨hzero, -⟩ | ⟨hsame, -, -⟩ <;> omega
        exact ⟨fun hc => hne hc.2, fun hc => hne hc.2⟩
      · obtain ⟨-, hconsulted, hdecision⟩ := hleft hstate
        exact ⟨fun hc => hdecision hc.1, fun hc => hconsulted hc.1⟩
    have hold := h.fresh e (by
      rw [hlast, hactive] at he
      exact he.imp_right fun he => ⟨(hleft he.1).1, he.2⟩)
    exact ⟨countP_append_singleton_eq_zero hold.1 hnew.1,
      countP_append_singleton_eq_zero hold.2 hnew.2⟩
  · obtain ⟨hbefore, -, hdecision⟩ := hleft hstate
    rw [hactive]
    refine openAfter_append_singleton.mpr (Or.inr ⟨h.armed_open hbefore, ?_⟩)
    rintro (hc | hd)
    · exact hdecision hc.1
    · simp [Disarms] at hd
  · rw [hactive]
    rcases openAfter_append_singleton.mp he with hc | ⟨he, -⟩
    · refine ⟨?_, hc.2⟩
      cases hcases with
      | ignored _ _ _ hpass => exact absurd (hpass.symm.trans hc.1) (by simp)
      | unarmed _ _ _ _ hpass =>
        split_ifs at hpass <;> exact absurd (hpass.symm.trans hc.1) (by simp)
      | fallback _ _ _ _ hpass => exact absurd (hpass.symm.trans hc.1) (by simp)
      | replaced _ _ _ hconsumed => exact hconsumed
    · obtain ⟨hconsumed, hepoch⟩ := h.consumed_open e he
      refine ⟨?_, hepoch⟩
      cases hcases with
      | ignored _ hsame => rw [hsame, hconsumed]
      | unarmed _ _ hsame => rw [hsame, hconsumed]
      | fallback _ harmed => simp [hconsumed] at harmed
      | replaced _ _ harmed => simp [hconsumed] at harmed

/-- Every call keeps the invariant. -/
theorem step (h : Tracks log l) (a : Action β) : Tracks (log ++ (l.step a).2) (l.step a).1 := by
  cases a with
  | armSleepCycle epoch =>
    simp only [SleepImageLatch.step]
    rcases armSleepCycle_cases l epoch with ⟨hlt, hactive, heq⟩ | ⟨hrejected, hsame⟩
    · rw [heq]
      exact h.arm hlt hactive
    · rw [if_neg hrejected, hsame, List.append_nil]
      exact h
  | beginPresentation epoch =>
    simp only [SleepImageLatch.step]
    rcases beginPresentation_cases l epoch with ⟨-, rfl, hstate, heq⟩ | ⟨hrejected, hsame⟩
    · rw [heq]
      exact h.present hstate
    · rw [if_neg hrejected, hsame, List.append_nil]
      exact h
  | disarmSleepCycle epoch =>
    simp only [SleepImageLatch.step]
    rcases disarmSleepCycle_cases l epoch with ⟨-, rfl, heq⟩ | ⟨hrejected, hsame⟩
    · rw [heq]
      exact h.disarm
    · rw [if_neg hrejected, hsame, List.append_nil]
      exact h
  | evaluate frame selector => exact h.evaluate frame selector

end Tracks

/-- **The run law**: it holds of every sequence of calls. -/
theorem latch_run_law {as : List (Action β)} {log : List (Event β)} {l : SleepImageLatch}
    (h : (system β).Run System.anyAction {} as log l) : RunLaw log := by
  have htracks : Tracks log l := by
    refine h.induct (fun _ log l => Tracks log l) tracks_init ?_
    intro as log t a u evs ht _ hs
    obtain ⟨rfl, rfl⟩ : (t.step a).1 = u ∧ (t.step a).2 = evs := by
      simpa [system, Prod.ext_iff] using hs
    exact ht.step a
  exact htracks.law

/-- A `1 × 1` cycle: armed, replaced by a candidate, a second dark frame held back, disarmed. -/
theorem latch_run_law_of_cycle :
    let dark : ConvertedFrame OwnedGrayscaleBuffer := ⟨Rect.full 1 1, some ⟨1, 1, [0]⟩⟩
    let candidate : Selector OwnedGrayscaleBuffer := fun w h =>
      { buffer := some ⟨w, h, [128]⟩, width := w, height := h }
    ∃ log l, (system OwnedGrayscaleBuffer).Run System.anyAction {}
        [.armSleepCycle 7, .evaluate dark candidate, .evaluate dark candidate,
          .disarmSleepCycle 7, .armSleepCycle 7] log l ∧ log.length = 4 ∧ RunLaw log := by
  intro dark candidate
  have hexec : ((system OwnedGrayscaleBuffer).exec System.anyAction {}
      [.armSleepCycle 7, .evaluate dark candidate, .evaluate dark candidate,
        .disarmSleepCycle 7, .armSleepCycle 7]).map (fun r => r.2.length) = some 4 := by
    decide
  obtain ⟨⟨l, log⟩, hr, hlength⟩ := Option.map_eq_some_iff.mp hexec
  have hrun := System.Run.of_exec hr
  exact ⟨log, l, hrun, hlength, latch_run_law hrun⟩

end EinkLab.SleepImageLatch
