import EinkLab.ResampleDispatcher.Basic
import Mathlib.Data.List.Count

/-!
# Requests of the resample dispatcher

`dispatcher_accounting`: every issued request is dispatched, cancelled, rejected or the outstanding
one, its action runs once at most, and a stale task changes nothing.  `begun_after_stop`: once
`Stop` has returned no task is dispatched, so the invocations that begin are those of tasks
dispatched before. `action_begins_after_stop` is a run with such an invocation.

The invariant `Reconciled` relates the log to the state; it has one lemma for each way a step
changes the outstanding request.
-/

namespace EinkLab.MainThreadResampleDispatcher

open Transition

variable {s s' : MainThreadResampleDispatcher} {a : Action} {log evs : List Event} {n : Nat}

/-! ### The parts of a longer log -/

@[simp] theorem issuedSequences_append (log log' : List Event) :
    issuedSequences (log ++ log') = issuedSequences log ++ issuedSequences log' :=
  List.filterMap_append

theorem openRequests_append (log : List Event) (e : Event) :
    openRequests (log ++ [e]) =
      match e with
      | .issued sequence => sequence :: openRequests log
      | .dispatched sequence | .cancelled sequence | .rejected sequence =>
        (openRequests log).erase sequence
      | _ => openRequests log := by
  unfold openRequests
  rw [List.foldl_append]
  cases e <;> rfl

/-- No task is dispatched after the dispatcher has been stopped. -/
def Quiet (before : List Event) (e : Event) : Prop :=
  ∀ n, e = .dispatched n → .stopped ∉ before

/-! ### The invariant -/

/-- What the log says about the state. -/
structure Reconciled (log : List Event) (s : MainThreadResampleDispatcher) : Prop where
  openRequests : openRequests log = if s.outstanding then [s.sequence] else []
  issued : issuedSequences log = List.range' 1 s.sequence
  /-- A request is dispatched once at most, and neither the outstanding one nor a later one has
  been. -/
  once : ∀ n, log.count (.dispatched n) ≤ 1
  pending : ∀ n, s.sequence < n ∨ s.outstanding = true ∧ n = s.sequence →
    log.count (.dispatched n) = 0
  /-- A dispatched request has run, or it is claimed and will. -/
  runs : ∀ n, runs log n + s.claimed.count n ≤ log.count (.dispatched n)
  stopped : s.stopped = true ↔ .stopped ∈ log
  idle : s.stopped = true → s.outstanding = false
  quiet : EachEvent Quiet log

/-- The state of a dispatcher that has just been built. -/
def create (postTask action : Bool) : MainThreadResampleDispatcher :=
  { postTask := postTask, action := action }

theorem reconciled_create (postTask action : Bool) : Reconciled [] (create postTask action) where
  openRequests := rfl
  issued := rfl
  once _ := Nat.zero_le _
  pending _ _ := rfl
  runs _ := Nat.le_refl _
  stopped := by simp [create]
  idle _ := rfl
  quiet := eachEvent_nil _

namespace Reconciled

/-- An event that is neither a dispatch nor a stop. -/
theorem quiet_append (h : Reconciled log s) {e : Event} (he : ∀ n, e ≠ .dispatched n) :
    EachEvent Quiet (log ++ [e]) :=
  eachEvent_append_singleton.mpr ⟨h.quiet, fun n heq => absurd heq (he n)⟩

/-- A call returns. -/
theorem returned (h : Reconciled log s) (result : RequestResult)
    (hs : s'.outstanding = s.outstanding ∧ s'.sequence = s.sequence ∧ s'.claimed = s.claimed ∧
      s'.stopped = s.stopped) : Reconciled (log ++ [.returned result]) s' := by
  obtain ⟨houtstanding, hsequence, hclaimed, hstopped⟩ := hs
  constructor
  case openRequests =>
    rw [openRequests_append, houtstanding, hsequence]
    exact h.openRequests
  case issued =>
    rw [issuedSequences_append, hsequence, h.issued]
    exact List.append_nil _
  case once => simpa using h.once
  case pending =>
    rw [houtstanding, hsequence]
    simpa using h.pending
  case runs =>
    rw [hclaimed]
    simpa [MainThreadResampleDispatcher.runs] using h.runs
  case stopped =>
    rw [hstopped]
    simpa using h.stopped
  case idle =>
    rw [hstopped, houtstanding]
    exact h.idle
  case quiet => exact h.quiet_append (by simp)

theorem issue (h : Reconciled log s) (hidle : s.outstanding = false) (hlive : s.stopped = false)
    (hs : s'.outstanding = true ∧ s'.sequence = s.sequence + 1 ∧ s'.claimed = s.claimed ∧
      s'.stopped = s.stopped) : Reconciled (log ++ [.issued (s.sequence + 1)]) s' := by
  obtain ⟨houtstanding, hsequence, hclaimed, hstopped⟩ := hs
  constructor
  case openRequests =>
    rw [openRequests_append, houtstanding, hsequence]
    simp only [h.openRequests, hidle, if_true]
    rfl
  case issued =>
    rw [issuedSequences_append, hsequence, h.issued, List.range'_1_concat, Nat.add_comm s.sequence]
    rfl
  case once => simpa using h.once
  case pending =>
    intro n hn
    rw [houtstanding, hsequence] at hn
    have hlater : s.sequence < n := by omega
    simpa using h.pending n (Or.inl hlater)
  case runs =>
    rw [hclaimed]
    simpa [MainThreadResampleDispatcher.runs] using h.runs
  case stopped =>
    rw [hstopped]
    simpa using h.stopped
  case idle =>
    rw [hstopped, hlive]
    exact fun hfalse => absurd hfalse Bool.false_ne_true
  case quiet => exact h.quiet_append (by simp)

/-- The outstanding request ends without having been dispatched. -/
theorem settle (h : Reconciled log s) (hlive : s.outstanding = true) {e : Event}
    (he : e = .cancelled s.sequence ∨ e = .rejected s.sequence)
    (hs : s'.outstanding = false ∧ s'.sequence = s.sequence ∧ s'.claimed = s.claimed ∧
      s'.stopped = s.stopped) : Reconciled (log ++ [e]) s' := by
  obtain ⟨houtstanding, hsequence, hclaimed, hstopped⟩ := hs
  have hneither : (∀ n, e ≠ .dispatched n) ∧ (∀ n, e ≠ .begun n) ∧ e ≠ .stopped := by
    rcases he with rfl | rfl <;> simp
  have hcount : ∀ n, (log ++ [e]).count (.dispatched n) = log.count (.dispatched n) := by
    intro n
    rw [List.count_append, List.count_singleton, if_neg (by simpa using hneither.1 n)]
    rfl
  have hruns : ∀ n, MainThreadResampleDispatcher.runs (log ++ [e]) n =
      MainThreadResampleDispatcher.runs log n := by
    intro n
    unfold MainThreadResampleDispatcher.runs
    rw [List.count_append, List.count_singleton, if_neg (by simpa using hneither.2.1 n)]
    rfl
  constructor
  case openRequests =>
    rw [openRequests_append, houtstanding]
    have hopen := h.openRequests
    rw [hlive] at hopen
    rcases he with rfl | rfl <;> simp [hopen]
  case issued =>
    rw [issuedSequences_append, hsequence, h.issued]
    rcases he with rfl | rfl <;> exact List.append_nil _
  case once => exact fun n => hcount n ▸ h.once n
  case pending =>
    intro n hn
    rw [houtstanding, hsequence] at hn
    rw [hcount]
    exact h.pending n (hn.imp_right fun hfalse => absurd hfalse.1 Bool.false_ne_true)
  case runs =>
    intro n
    rw [hcount, hruns, hclaimed]
    exact h.runs n
  case stopped =>
    rw [hstopped, h.stopped]
    simp [hneither.2.2.symm]
  case idle => exact fun _ => houtstanding
  case quiet => exact h.quiet_append hneither.1

theorem dispatch (h : Reconciled log s) (hlive : s.outstanding = true)
    (hrunning : s.stopped = false)
    (hs : s'.outstanding = false ∧ s'.sequence = s.sequence ∧ s'.stopped = s.stopped)
    (hclaimed : s'.claimed = s.sequence :: s.claimed ∨ s'.claimed = s.claimed) :
    Reconciled (log ++ [.dispatched s.sequence]) s' := by
  obtain ⟨houtstanding, hsequence, hstopped⟩ := hs
  -- the outstanding request has not been dispatched, so this is its first time
  have hzero := h.pending s.sequence (Or.inr ⟨hlive, rfl⟩)
  have hcount : ∀ n, (log ++ [Event.dispatched s.sequence]).count (Event.dispatched n) =
      log.count (.dispatched n) + if n = s.sequence then 1 else 0 := by
    intro n
    rw [List.count_append, List.count_singleton]
    by_cases heq : n = s.sequence
    · subst heq
      simp
    · rw [if_neg heq, if_neg]
      simpa using fun hsame => heq hsame.symm
  constructor
  case openRequests =>
    rw [openRequests_append, houtstanding, h.openRequests, hlive]
    simp
  case issued =>
    rw [issuedSequences_append, hsequence, h.issued]
    exact List.append_nil _
  case once =>
    intro n
    rw [hcount]
    split
    · next heq =>
      subst heq
      omega
    · exact h.once n
  case pending =>
    intro n hn
    rw [houtstanding, hsequence] at hn
    have hlater : s.sequence < n := by
      rcases hn with hlater | ⟨hfalse, -⟩
      · exact hlater
      · cases hfalse
    rw [hcount, if_neg (by omega), h.pending n (Or.inl hlater)]
  case runs =>
    intro n
    have hruns := h.runs n
    have hsame : MainThreadResampleDispatcher.runs (log ++ [.dispatched s.sequence]) n =
        MainThreadResampleDispatcher.runs log n := by
      simp [MainThreadResampleDispatcher.runs]
    rw [hcount, hsame]
    rcases hclaimed with hclaimed | hclaimed
    · rw [hclaimed, List.count_cons]
      by_cases heq : n = s.sequence
      · subst heq
        simp
        omega
      · rw [if_neg heq, if_neg (by simpa using fun hsame => heq hsame.symm)]
        exact hruns
    · rw [hclaimed]
      omega
  case stopped =>
    rw [hstopped, h.stopped]
    simp
  case idle => exact fun _ => houtstanding
  case quiet =>
    refine eachEvent_append_singleton.mpr ⟨h.quiet, fun n _ hmem => ?_⟩
    cases hrunning.symm.trans (h.stopped.mpr hmem)

theorem begin (h : Reconciled log s) (hmem : n ∈ s.claimed)
    (hs : s'.outstanding = s.outstanding ∧ s'.sequence = s.sequence ∧ s'.stopped = s.stopped ∧
      s'.claimed = s.claimed.erase n) : Reconciled (log ++ [.begun n]) s' := by
  obtain ⟨houtstanding, hsequence, hstopped, hclaimed⟩ := hs
  constructor
  case openRequests =>
    rw [openRequests_append, houtstanding, hsequence]
    exact h.openRequests
  case issued =>
    rw [issuedSequences_append, hsequence, h.issued]
    exact List.append_nil _
  case once => simpa using h.once
  case pending =>
    rw [houtstanding, hsequence]
    simpa using h.pending
  case runs =>
    intro m
    have hruns := h.runs m
    have hpos : 0 < s.claimed.count n := List.count_pos_iff.mpr hmem
    unfold MainThreadResampleDispatcher.runs at hruns ⊢
    rw [hclaimed, List.count_append, List.count_append, List.count_singleton, List.count_singleton,
      List.count_erase]
    by_cases heq : n = m
    · subst heq
      simp
      omega
    · simp [heq]
      exact hruns
  case stopped =>
    rw [hstopped]
    simpa using h.stopped
  case idle =>
    rw [hstopped, houtstanding]
    exact h.idle
  case quiet => exact h.quiet_append (by simp)

theorem halt (h : Reconciled log s) (hidle : s.outstanding = false)
    (hs : s'.outstanding = s.outstanding ∧ s'.sequence = s.sequence ∧ s'.claimed = s.claimed ∧
      s'.stopped = true) : Reconciled (log ++ [.stopped]) s' := by
  obtain ⟨houtstanding, hsequence, hclaimed, hstopped⟩ := hs
  constructor
  case openRequests =>
    rw [openRequests_append, houtstanding, hsequence]
    exact h.openRequests
  case issued =>
    rw [issuedSequences_append, hsequence, h.issued]
    exact List.append_nil _
  case once => simpa using h.once
  case pending =>
    rw [houtstanding, hsequence]
    simpa using h.pending
  case runs =>
    rw [hclaimed]
    simpa [MainThreadResampleDispatcher.runs] using h.runs
  case stopped => simp [hstopped]
  case idle => exact fun _ => houtstanding.trans hidle
  case quiet => exact h.quiet_append (by simp)

theorem request (h : Reconciled log s) : Reconciled (log ++ s.request.2) s.request.1 := by
  unfold MainThreadResampleDispatcher.request
  dsimp only
  split
  · exact h.returned .stopped ⟨rfl, rfl, rfl, rfl⟩
  next hlive =>
  split
  · exact h.returned .coalesced ⟨rfl, rfl, rfl, rfl⟩
  next hidle =>
  split
  · exact h.returned .rejected ⟨rfl, rfl, rfl, rfl⟩
  · exact h.issue (by simpa using hidle) (by simpa using hlive) ⟨rfl, rfl, rfl, rfl⟩

theorem postReturned (h : Reconciled log s) (sequence : Nat) (accepted : Bool) :
    Reconciled (log ++ (s.postReturned sequence accepted).2)
      (s.postReturned sequence accepted).1 := by
  unfold MainThreadResampleDispatcher.postReturned
  dsimp only
  split
  · exact h.returned .posted ⟨rfl, rfl, rfl, rfl⟩
  split
  · next hcurrent =>
    simp only [Bool.and_eq_true, decide_eq_true_eq] at hcurrent
    obtain ⟨rfl, hlive⟩ := hcurrent
    have hsettled : Reconciled (log ++ [.rejected s.sequence]) { s with outstanding := false } :=
      h.settle hlive (Or.inr rfl) ⟨rfl, rfl, rfl, rfl⟩
    rw [List.append_cons]
    exact hsettled.returned .rejected ⟨rfl, rfl, rfl, rfl⟩
  · exact h.returned .rejected ⟨rfl, rfl, rfl, rfl⟩

theorem stop (h : Reconciled log s) : Reconciled (log ++ s.stop.2) s.stop.1 := by
  unfold MainThreadResampleDispatcher.stop
  split
  · next hstopped => exact h.halt (h.idle hstopped) ⟨rfl, rfl, rfl, hstopped⟩
  split
  · next hlive =>
    have hsettled : Reconciled (log ++ [.cancelled s.sequence]) { s with outstanding := false } :=
      h.settle hlive (Or.inl rfl) ⟨rfl, rfl, rfl, rfl⟩
    rw [List.append_cons]
    exact hsettled.halt rfl ⟨rfl, rfl, rfl, rfl⟩
  · next hidle => exact h.halt (by simpa using hidle) ⟨rfl, rfl, rfl, rfl⟩

theorem runPostedTask (h : Reconciled log s) (sequence : Nat) :
    Reconciled (log ++ (s.runPostedTask sequence).2) (s.runPostedTask sequence).1 := by
  unfold MainThreadResampleDispatcher.runPostedTask
  split
  · simpa using h
  · next hcurrent =>
    simp only [Bool.or_eq_true, Bool.not_eq_true', decide_eq_true_eq, not_or, Bool.not_eq_true,
      Bool.not_eq_false, not_not] at hcurrent
    obtain ⟨⟨hrunning, hlive⟩, rfl⟩ := hcurrent
    refine h.dispatch hlive hrunning ⟨rfl, rfl, rfl⟩ ?_
    cases s.action with
    | true => exact Or.inl rfl
    | false => exact Or.inr rfl

theorem step (h : Reconciled log s) (hs : s.step a = some (s', evs)) :
    Reconciled (log ++ evs) s' := by
  have hnext : ∀ {r : MainThreadResampleDispatcher × List Event}, some r = some (s', evs) →
      Reconciled (log ++ r.2) r.1 → Reconciled (log ++ evs) s' := by
    intro r hr hnext
    rwa [Option.some.inj hr] at hnext
  cases a with
  | request => exact hnext hs h.request
  | postReturned sequence accepted =>
    obtain ⟨-, hs⟩ := Option.ite_none_right_eq_some.mp hs
    exact hnext hs (h.postReturned sequence accepted)
  | stop => exact hnext hs h.stop
  | runPostedTask sequence =>
    obtain ⟨-, hs⟩ := Option.ite_none_right_eq_some.mp hs
    exact hnext hs (h.runPostedTask sequence)
  | beginAction sequence =>
    obtain ⟨hmem, hs⟩ := Option.ite_none_right_eq_some.mp hs
    exact hnext hs (h.begin hmem ⟨rfl, rfl, rfl, rfl⟩)

end Reconciled

/-! ### Accounting -/

variable {postTask action : Bool} {as : List Action}

theorem reconciled_of_run (h : system.Run System.anyAction (create postTask action) as log s) :
    Reconciled log s := by
  refine h.induct (fun _ log s => Reconciled log s) (reconciled_create postTask action) ?_
  exact fun _ _ _ _ _ _ ih _ hs => ih.step hs

/-- An issued request is counted where it ends; without an executor there is none. -/
structure Balanced (s : MainThreadResampleDispatcher) : Prop where
  postTask : s.postTask = true
  sequence : s.sequence = s.diagnostics.dispatched + s.diagnostics.cancelled +
    s.diagnostics.rejected + s.outstanding.toNat

namespace Balanced

theorem request (h : Balanced s) : Balanced s.request.1 := by
  obtain ⟨hpost, hsum⟩ := h
  unfold MainThreadResampleDispatcher.request
  dsimp only
  split
  · exact ⟨hpost, hsum⟩
  split
  · exact ⟨hpost, hsum⟩
  next hidle =>
  rw [Bool.not_eq_true] at hidle
  rw [hidle] at hsum
  split
  · next hnull =>
    rw [hpost] at hnull
    cases hnull
  · refine ⟨hpost, ?_⟩
    simp only [Bool.toNat_true, Bool.toNat_false] at hsum ⊢
    omega

theorem postReturned (h : Balanced s) (sequence : Nat) (accepted : Bool) :
    Balanced (s.postReturned sequence accepted).1 := by
  obtain ⟨hpost, hsum⟩ := h
  unfold MainThreadResampleDispatcher.postReturned
  dsimp only
  split
  · exact ⟨hpost, hsum⟩
  split
  · next hcurrent =>
    simp only [Bool.and_eq_true, decide_eq_true_eq] at hcurrent
    rw [hcurrent.2] at hsum
    refine ⟨hpost, ?_⟩
    simp only [Bool.toNat_true, Bool.toNat_false] at hsum ⊢
    omega
  · exact ⟨hpost, hsum⟩

theorem stop (h : Balanced s) : Balanced s.stop.1 := by
  obtain ⟨hpost, hsum⟩ := h
  unfold MainThreadResampleDispatcher.stop
  split
  · exact ⟨hpost, hsum⟩
  split
  · next hlive =>
    rw [hlive] at hsum
    refine ⟨hpost, ?_⟩
    simp only [Bool.toNat_true, Bool.toNat_false] at hsum ⊢
    omega
  · exact ⟨hpost, hsum⟩

theorem runPostedTask (h : Balanced s) (sequence : Nat) :
    Balanced (s.runPostedTask sequence).1 := by
  obtain ⟨hpost, hsum⟩ := h
  unfold MainThreadResampleDispatcher.runPostedTask
  split
  · exact ⟨hpost, hsum⟩
  · next hcurrent =>
    simp only [Bool.or_eq_true, Bool.not_eq_true', not_or, Bool.not_eq_false] at hcurrent
    rw [hcurrent.1.2] at hsum
    refine ⟨hpost, ?_⟩
    simp only [Bool.toNat_true, Bool.toNat_false] at hsum ⊢
    omega

theorem step (h : Balanced s) (hs : s.step a = some (s', evs)) : Balanced s' := by
  have hnext : ∀ {r : MainThreadResampleDispatcher × List Event}, some r = some (s', evs) →
      Balanced r.1 → Balanced s' := by
    intro r hr hnext
    rwa [Option.some.inj hr] at hnext
  cases a with
  | request => exact hnext hs h.request
  | postReturned sequence accepted =>
    obtain ⟨-, hs⟩ := Option.ite_none_right_eq_some.mp hs
    exact hnext hs (h.postReturned sequence accepted)
  | stop => exact hnext hs h.stop
  | runPostedTask sequence =>
    obtain ⟨-, hs⟩ := Option.ite_none_right_eq_some.mp hs
    exact hnext hs (h.runPostedTask sequence)
  | beginAction sequence =>
    obtain ⟨-, hs⟩ := Option.ite_none_right_eq_some.mp hs
    exact hnext hs ⟨h.postTask, h.sequence⟩

end Balanced

/-- The accounting of a dispatcher with an executor. -/
structure Accounting (log : List Event) (s : MainThreadResampleDispatcher) : Prop where
  issued : (issuedSequences log).length = s.diagnostics.dispatched + s.diagnostics.cancelled +
    s.diagnostics.rejected + s.outstanding.toNat
  /-- The action runs once at most for a sequence. -/
  once : ∀ n, runs log n ≤ 1
  /-- A stale task changes nothing. -/
  stale : ∀ n < s.sequence, s.runPostedTask n = (s, [])
  /-- The only request that has not ended is the outstanding one, under the latest sequence. -/
  openRequests : openRequests log = if s.outstanding then [s.sequence] else []
  latest : issuedSequences log = List.range' 1 s.sequence

/-- **Accounting of the dispatcher**, in every run. -/
theorem dispatcher_accounting
    (h : system.Run System.anyAction (create true action) as log s) : Accounting log s := by
  have hlog := reconciled_of_run h
  have hbalanced : Balanced s := by
    refine h.invariant Balanced ⟨rfl, rfl⟩ ?_
    exact fun _ _ _ _ hinv _ hs => hinv.step hs
  refine ⟨?_, ?_, ?_, hlog.openRequests, hlog.issued⟩
  · rw [hlog.issued, List.length_range']
    exact hbalanced.sequence
  · intro n
    have hruns := hlog.runs n
    have honce := hlog.once n
    omega
  · intro n hn
    unfold runPostedTask
    refine if_pos ?_
    simp only [Bool.or_eq_true, decide_eq_true_eq]
    exact Or.inr (Nat.ne_of_gt hn)

/-- A task that runs while it is posted, and is refused all the same: it is counted once. -/
theorem dispatcher_accounting_of_refused_run :
    ∃ as log s, system.Run System.anyAction (create true true) as log s ∧
      s.diagnostics = { requested := 1, dispatched := 1 } ∧ runs log 1 = 1 ∧ Accounting log s := by
  have hrun : system.exec System.anyAction (create true true)
      [.request, .runPostedTask 1, .beginAction 1, .postReturned 1 false] =
      some ({ diagnostics := { requested := 1, dispatched := 1 }, sequence := 1 },
        [.issued 1, .dispatched 1, .begun 1, .returned .rejected]) := by
    decide
  have h := System.Run.of_exec hrun
  exact ⟨_, _, _, h, rfl, by decide, dispatcher_accounting h⟩

/-! ### After `Stop` -/

/-- **After `Stop` has returned** no task is dispatched, and an invocation that begins is that of a
task dispatched before. -/
theorem begun_after_stop {before after : List Event}
    (h : system.Run System.anyAction (create postTask action) as log s)
    (hstop : log = before ++ .stopped :: after) :
    (∀ n, .dispatched n ∉ after) ∧
      ∀ n, .begun n ∈ after → .dispatched n ∈ before ∧ .begun n ∉ before := by
  have hlog := reconciled_of_run h
  have hquiet : ∀ n, .dispatched n ∉ after := by
    intro n hmem
    obtain ⟨mid, rest, rfl⟩ := List.append_of_mem hmem
    have hnone := hlog.quiet (before ++ .stopped :: mid) (.dispatched n) rest
      (by rw [hstop, List.append_assoc, List.cons_append]) n rfl
    exact hnone (by simp)
  refine ⟨hquiet, fun n hmem => ?_⟩
  have hruns := hlog.runs n
  have honce := hlog.once n
  have hbegun : 0 < after.count (.begun n) := List.count_pos_iff.mpr hmem
  have hsplit : runs log n = before.count (.begun n) + after.count (.begun n) := by
    simp [runs, hstop]
  have hdispatched : log.count (.dispatched n) =
      before.count (.dispatched n) + after.count (.dispatched n) := by
    simp [hstop]
  have hzero : after.count (.dispatched n) = 0 := List.count_eq_zero.mpr (hquiet n)
  constructor
  · exact List.count_pos_iff.mp (by omega)
  · exact List.count_eq_zero.mp (by omega)

/-- A task is claimed, the dispatcher is stopped, and the action runs. -/
theorem run_claimed_stop :
    system.Run System.anyAction (create true true)
      [.request, .postReturned 1 true, .runPostedTask 1, .stop, .beginAction 1]
      [.issued 1, .returned .posted, .dispatched 1, .stopped, .begun 1]
      { diagnostics := { requested := 1, posted := 1, dispatched := 1 }, stopped := true,
        sequence := 1 } :=
  .of_exec (by decide)

theorem begun_after_stop_of_claimed :
    ∃ as log s before after, system.Run System.anyAction (create true true) as log s ∧
      log = before ++ .stopped :: after ∧ .begun 1 ∈ after ∧ .dispatched 1 ∈ before := by
  have hstop : ([.issued 1, .returned .posted, .dispatched 1, .stopped, .begun 1] : List Event) =
      [.issued 1, .returned .posted, .dispatched 1] ++ .stopped :: [.begun 1] := rfl
  refine ⟨_, _, _, _, _, run_claimed_stop, hstop, by simp, ?_⟩
  exact ((begun_after_stop run_claimed_stop hstop).2 1 (by simp)).1

/-- The action begins after `Stop` has returned. -/
theorem action_begins_after_stop :
    ¬ ∀ (postTask action : Bool) (as : List Action) (log : List Event)
      (s : MainThreadResampleDispatcher) (before after : List Event) (n : Nat),
      system.Run System.anyAction (create postTask action) as log s →
      log = before ++ .stopped :: after → .begun n ∉ after := by
  intro hall
  exact hall _ _ _ _ _ [.issued 1, .returned .posted, .dispatched 1] [.begun 1] 1
    run_claimed_stop rfl (by simp)

end EinkLab.MainThreadResampleDispatcher
