import Mathlib.Data.List.Basic
import Mathlib.Data.List.Induction
import Mathlib.Tactic.TypeStar

/-!
# Labelled systems, guarded runs and event logs

A `System σ α ε` is a deterministic labelled system: an action `a : α` is enabled in a state when
`step` is `some`, and then gives the next state and the events (`ε`) the step emits, in order.
All nondeterminism (scheduling, clocks, results of external calls) is in the choice of actions.

`System.Run M ok s as log t` is a run from `s` to `t` along the actions `as`, in which every action
was taken in a state that satisfies `ok`; `log` is what the run emitted.  With `ok` constantly true
these are all runs.  The rules below are the ones a verification needs:

* `Run.invariant`, `Run.induct`: what every step keeps, every run keeps;
* `Run.unique`, `Run.forall_prefix_snoc`: the actions determine the rest; what holds in every state
  reached;
* `Run.weaken`, `Run.of_forall`: the same run under another guard, and along actions that every
  state allows;
* `Run.exists_step_of_log`: an event of the log was emitted by some step of the run;
* `Run.split_at_log`: a run up to that step, and from there;
* `result_of_some`, `result_of_map`, `eq_of_map`: what a step is, where `step` wraps an operation;
* `System.exec`, `Run.of_exec`: a run computed from a list of actions, guards included;
* `EachEvent`: every event of the log is right, given what was logged before it;
* `OpenAfter`: "a start event and no stop event since", for properties between two events.
-/

namespace EinkLab.Transition

variable {σ α ε : Type*}

/-- A deterministic labelled system whose steps emit events. -/
structure System (σ α ε : Type*) where
  step : σ → α → Option (σ × List ε)

namespace System

/-- A run of `M` from `s`: the actions taken, the log, and the state reached. -/
inductive Run (M : System σ α ε) (ok : σ → α → Prop) (s : σ) : List α → List ε → σ → Prop
  | nil : Run M ok s [] [] s
  | snoc {as log t a u evs} : Run M ok s as log t → ok t a → M.step t a = some (u, evs) →
      Run M ok s (as ++ [a]) (log ++ evs) u

/-- Every action is allowed. -/
def anyAction : σ → α → Prop := fun _ _ => True

variable {M : System σ α ε} {ok ok' : σ → α → Prop} {s t u : σ} {as bs : List α}
  {log log' : List ε}

namespace Run

/-! ### Invariants -/

/-- What holds at the start and is kept by every allowed step holds at the end of every run. -/
theorem invariant (I : σ → Prop) (h : M.Run ok s as log t) (h0 : I s)
    (hstep : ∀ t a u evs, I t → ok t a → M.step t a = some (u, evs) → I u) : I t := by
  induction h with
  | nil => exact h0
  | snoc _ hok hs ih => exact hstep _ _ _ _ ih hok hs

/-- The same for a property of the actions taken, the log and the state. -/
theorem induct (I : List α → List ε → σ → Prop) (h : M.Run ok s as log t) (h0 : I [] [] s)
    (hstep : ∀ as log t a u evs, I as log t → ok t a → M.step t a = some (u, evs) →
      I (as ++ [a]) (log ++ evs) u) : I as log t := by
  induction h with
  | nil => exact h0
  | snoc _ hok hs ih => exact hstep _ _ _ _ _ _ ih hok hs

/-- The actions of a run are allowed under another guard. -/
theorem weaken (h : M.Run ok s as log t) (hle : ∀ a ∈ as, ∀ s, ok s a → ok' s a) :
    M.Run ok' s as log t := by
  induction h with
  | nil => exact .nil
  | @snoc as log t a u evs _ hok hs ih =>
    have hrun := ih fun b hb => hle b (List.mem_append_left [a] hb)
    exact hrun.snoc (hle a (by simp) t hok) hs

theorem mono (h : M.Run ok s as log t) (hle : ∀ s a, ok s a → ok' s a) :
    M.Run ok' s as log t :=
  h.weaken fun a _ s => hle s a

/-- A run along actions that are allowed in every state. -/
theorem of_forall (h : M.Run anyAction s as log t) (hok : ∀ a ∈ as, ∀ s, ok s a) :
    M.Run ok s as log t :=
  h.weaken fun a ha s _ => hok a ha s

theorem trans (h : M.Run ok s as log t) (h' : M.Run ok t bs log' u) :
    M.Run ok s (as ++ bs) (log ++ log') u := by
  induction h' with
  | nil => simpa using h
  | snoc _ hok hs ih =>
    rw [← List.append_assoc, ← List.append_assoc]
    exact .snoc ih hok hs

theorem single {a : α} {evs : List ε} (hok : ok s a) (hs : M.step s a = some (t, evs)) :
    M.Run ok s [a] evs t := by
  have hnil : M.Run ok s [] [] s := .nil
  simpa using hnil.snoc hok hs

/-- The last step of a run. -/
theorem of_snoc {a : α} (h : M.Run ok s (as ++ [a]) log u) :
    ∃ log₁ t evs, M.Run ok s as log₁ t ∧ ok t a ∧ M.step t a = some (u, evs) ∧
      log = log₁ ++ evs := by
  generalize has : as ++ [a] = bs at h
  cases h with
  | nil => simp at has
  | snoc hrun hok hs =>
    obtain ⟨rfl, hlast⟩ := List.append_inj' has rfl
    obtain rfl := List.head_eq_of_cons_eq hlast
    exact ⟨_, _, _, hrun, hok, hs, rfl⟩

/-- The actions determine the log and the state. -/
theorem unique (h : M.Run ok s as log t) (h' : M.Run ok' s as log' u) : log = log' ∧ t = u := by
  induction h generalizing log' u with
  | nil =>
    generalize hnil : [] = bs at h'
    cases h' with
    | nil => exact ⟨rfl, rfl⟩
    | snoc _ _ _ => simp at hnil
  | snoc _ _ hs ih =>
    obtain ⟨_, _, _, hrun', _, hs', rfl⟩ := h'.of_snoc
    obtain ⟨rfl, rfl⟩ := ih hrun'
    obtain ⟨rfl, rfl⟩ := Prod.mk.inj (Option.some.inj (hs.symm.trans hs'))
    exact ⟨rfl, rfl⟩

/-- A property of every state reached, one step further. -/
theorem forall_prefix_snoc {P : List ε → σ → Prop} {a : α} {evs : List ε} (h : M.Run ok s as log t)
    (hok : ok t a) (hs : M.step t a = some (u, evs)) :
    (∀ as₁ log₁ t₁, as₁ <+: as ++ [a] → M.Run ok s as₁ log₁ t₁ → P log₁ t₁) ↔
      (∀ as₁ log₁ t₁, as₁ <+: as → M.Run ok s as₁ log₁ t₁ → P log₁ t₁) ∧ P (log ++ evs) u := by
  constructor
  · intro hall
    refine ⟨fun as₁ log₁ t₁ hpre => hall _ _ _ (hpre.trans (List.prefix_append as [a])), ?_⟩
    exact hall _ _ _ (List.prefix_refl _) (h.snoc hok hs)
  · rintro ⟨hall, hlast⟩ as₁ log₁ t₁ hpre hrun
    rcases List.prefix_concat_iff.mp hpre with rfl | hpre
    · obtain ⟨rfl, rfl⟩ := hrun.unique (h.snoc hok hs)
      exact hlast
    · exact hall as₁ log₁ t₁ hpre hrun

theorem forall_prefix_nil {P : List ε → σ → Prop} :
    (∀ as₁ log₁ t₁, as₁ <+: [] → M.Run ok s as₁ log₁ t₁ → P log₁ t₁) ↔ P [] s := by
  constructor
  · exact fun hall => hall [] [] s (List.prefix_refl _) .nil
  · intro hnil as₁ log₁ t₁ hpre hrun
    obtain rfl := List.prefix_nil.mp hpre
    obtain ⟨rfl, rfl⟩ := hrun.unique (.nil : M.Run ok s [] [] s)
    exact hnil

/-- An event of the log was emitted by some step of the run. -/
theorem exists_step_of_log (h : M.Run ok s as log t) {pre post : List ε} {e : ε}
    (hlog : log = pre ++ e :: post) :
    ∃ as₁ log₁ t₁ a t₂ evs pre' post', M.Run ok s as₁ log₁ t₁ ∧ ok t₁ a ∧
      M.step t₁ a = some (t₂, evs) ∧ evs = pre' ++ e :: post' ∧ pre = log₁ ++ pre' := by
  induction h generalizing pre post with
  | nil => simp at hlog
  | @snoc as log t a u evs hrun hok hs ih =>
    rcases List.append_eq_append_iff.mp hlog with ⟨mid, hpre, hevs⟩ | ⟨mid, hlog', hpost⟩
    · exact ⟨as, log, t, a, u, evs, mid, post, hrun, hok, hs, hevs, hpre⟩
    · -- the event lies in the log of the run so far, or opens the last step's events
      cases mid with
      | nil =>
        rw [List.nil_append] at hpost
        rw [List.append_nil] at hlog'
        exact ⟨as, log, t, a, u, evs, [], post, hrun, hok, hs, by simp [hpost], by simp [hlog']⟩
      | cons x mid =>
        obtain ⟨rfl, rfl⟩ := List.cons.inj (by simpa using hpost)
        exact ih hlog'

/-- The run up to the step that emitted an event of the log, and from there. -/
theorem split_at_log (h : M.Run ok s as log t) {pre post : List ε} {e : ε}
    (hlog : log = pre ++ e :: post) :
    ∃ as₁ log₁ t₁ a t₂ evs pre' post' as₂, M.Run ok s as₁ log₁ t₁ ∧ ok t₁ a ∧
      M.step t₁ a = some (t₂, evs) ∧ evs = pre' ++ e :: post' ∧ pre = log₁ ++ pre' ∧
      M.Run ok t₁ as₂ (pre' ++ e :: post) t := by
  induction h generalizing pre post with
  | nil => simp at hlog
  | @snoc as log t a u evs hrun hok hs ih =>
    rcases List.append_eq_append_iff.mp hlog with ⟨mid, hpre, hevs⟩ | ⟨mid, hlog', hpost⟩
    · refine ⟨as, log, t, a, u, evs, mid, post, [a], hrun, hok, hs, hevs, hpre, ?_⟩
      rw [← hevs]
      exact single hok hs
    · -- the event lies in the log of the run so far, or opens the last step's events
      cases mid with
      | nil =>
        rw [List.nil_append] at hpost
        rw [List.append_nil] at hlog'
        refine ⟨as, log, t, a, u, evs, [], post, [a], hrun, hok, hs,
          hpost.symm, by simp [hlog'], ?_⟩
        rw [List.nil_append, hpost]
        exact single hok hs
      | cons x mid =>
        obtain ⟨rfl, rfl⟩ := List.cons.inj (by simpa using hpost)
        obtain ⟨as₁, log₁, t₁, b, t₂, evs₁, pre', post', as₂, hpre, hok₁, hs₁, hevs, heq, hrest⟩ :=
          ih hlog'
        refine ⟨as₁, log₁, t₁, b, t₂, evs₁, pre', post', as₂ ++ [a], hpre, hok₁, hs₁, hevs, heq, ?_⟩
        have hall := hrest.snoc hok hs
        rwa [List.append_assoc, List.cons_append] at hall

end Run

/-! ### The result of a step -/

/-- A step that is always enabled. -/
theorem result_of_some {P : σ → List ε → Prop} {r : σ} {evs evs' : List ε}
    (h : some (r, evs) = some (t, evs')) (hr : P r evs) : P t evs' := by
  obtain ⟨rfl, rfl⟩ := Prod.mk.inj (Option.some.inj h)
  exact hr

/-- A step that is enabled where an operation is. -/
theorem result_of_map {P : σ → List ε → Prop} {r : Option σ} {evs evs' : List ε}
    (h : r.map (·, evs) = some (t, evs')) (hr : ∀ u, r = some u → P u evs) : P t evs' := by
  obtain ⟨u, hu, heq⟩ := Option.map_eq_some_iff.mp h
  exact result_of_some (congrArg some heq) (hr u hu)

/-- Such a step, read backwards. -/
theorem eq_of_map {r : Option σ} {f : σ → List ε} {evs : List ε}
    (h : r.map (fun u => (u, f u)) = some (t, evs)) : r = some t ∧ evs = f t := by
  obtain ⟨u, hu, heq⟩ := Option.map_eq_some_iff.mp h
  obtain ⟨rfl, rfl⟩ := Prod.mk.inj heq
  exact ⟨hu, rfl⟩

/-! ### Computed runs -/

instance (s : σ) (a : α) : Decidable (anyAction s a) := .isTrue trivial

/-- The run along a given list of actions, if they are all enabled and allowed in turn. -/
def exec (M : System σ α ε) (ok : σ → α → Prop) [∀ s a, Decidable (ok s a)] (s : σ) :
    List α → Option (σ × List ε)
  | [] => some (s, [])
  | a :: as =>
    if ok s a then
      match M.step s a with
      | none => none
      | some (t, evs) => (M.exec ok t as).map fun r => (r.1, evs ++ r.2)
    else none

theorem Run.of_exec [∀ s a, Decidable (ok s a)] {as : List α} {s t : σ} {log : List ε}
    (h : M.exec ok s as = some (t, log)) : M.Run ok s as log t := by
  induction as generalizing s log with
  | nil =>
    obtain ⟨rfl, rfl⟩ := Prod.mk.inj (Option.some.inj h)
    exact .nil
  | cons a as ih =>
    rw [exec] at h
    split at h
    · next hok =>
      cases hs : M.step s a with
      | none => simp [hs] at h
      | some r =>
        obtain ⟨u, evs⟩ := r
        simp only [hs, Option.map_eq_some_iff, Prod.mk.injEq] at h
        obtain ⟨⟨u', log'⟩, hu, rfl, rfl⟩ := h
        exact (Run.single hok hs).trans (ih hu)
    · cases h

end System

/-! ### Each event in the light of the earlier ones -/

/-- An event of a log with one more event is that one, or it was there before. -/
theorem append_singleton_eq_append_cons {log pre post : List ε} {x e : ε}
    (h : log ++ [x] = pre ++ e :: post) :
    (post = [] ∧ pre = log ∧ e = x) ∨ ∃ post', post = post' ++ [x] ∧ log = pre ++ e :: post' := by
  rcases List.eq_nil_or_concat post with rfl | ⟨post', y, rfl⟩
  · obtain ⟨hlog, hx⟩ := List.append_inj' h rfl
    exact Or.inl ⟨rfl, hlog.symm, (List.head_eq_of_cons_eq hx).symm⟩
  · rw [List.concat_eq_append] at h ⊢
    have h' : log ++ [x] = (pre ++ e :: post') ++ [y] := by simpa using h
    obtain ⟨hlog, hx⟩ := List.append_inj' h' rfl
    obtain rfl := List.head_eq_of_cons_eq hx
    exact Or.inr ⟨post', rfl, hlog⟩

/-- `P pre e` holds of every event `e` of the log, where `pre` is what was logged before it. -/
def EachEvent (P : List ε → ε → Prop) (log : List ε) : Prop :=
  ∀ pre e post, log = pre ++ e :: post → P pre e

theorem eachEvent_nil (P : List ε → ε → Prop) : EachEvent P [] := by
  intro pre e post h
  simp at h

theorem eachEvent_append_singleton {P : List ε → ε → Prop} {log : List ε} {x : ε} :
    EachEvent P (log ++ [x]) ↔ EachEvent P log ∧ P log x := by
  constructor
  · refine fun h => ⟨fun pre e post hlog => h pre e (post ++ [x]) (by simp [hlog]), ?_⟩
    exact h log x [] rfl
  · rintro ⟨h, hx⟩ pre e post hlog
    rcases append_singleton_eq_append_cons hlog with ⟨-, rfl, rfl⟩ | ⟨post', -, hlog'⟩
    · exact hx
    · exact h pre e post' hlog'

/-- Events that are right whatever was logged before. -/
theorem eachEvent_append_of_forall {P : List ε → ε → Prop} {log evs : List ε}
    (h : EachEvent P log) (hevs : ∀ pre, ∀ e ∈ evs, P pre e) : EachEvent P (log ++ evs) := by
  induction evs using List.reverseRecOn with
  | nil => simpa using h
  | append_singleton evs x ih =>
    rw [← List.append_assoc]
    refine eachEvent_append_singleton.mpr ⟨ih fun pre e he => hevs pre e (by simp [he]), ?_⟩
    exact hevs _ x (by simp)

/-! ### Between a start event and a stop event -/

/-- A `start` event has been logged and no `stop` event since. -/
def OpenAfter (start stop : ε → Prop) (log : List ε) : Prop :=
  ∃ pre x mid, log = pre ++ x :: mid ∧ start x ∧ ∀ y ∈ mid, ¬ stop y

theorem not_openAfter_nil (start stop : ε → Prop) : ¬ OpenAfter start stop [] := by
  rintro ⟨pre, x, mid, h, -⟩
  simp at h

/-- One more event: it opens the span, or the span was open and the event does not close it. -/
theorem openAfter_append_singleton {start stop : ε → Prop} {log : List ε} {x : ε} :
    OpenAfter start stop (log ++ [x]) ↔
      start x ∨ (OpenAfter start stop log ∧ ¬ stop x) := by
  constructor
  · rintro ⟨pre, y, mid, h, hy, hmid⟩
    rcases append_singleton_eq_append_cons h with ⟨-, -, rfl⟩ | ⟨mid', rfl, hlog⟩
    · exact Or.inl hy
    · exact Or.inr ⟨⟨pre, y, mid', hlog, hy, fun w hw => hmid w (by simp [hw])⟩,
        hmid x (by simp)⟩
  · rintro (hx | ⟨⟨pre, y, mid, rfl, hy, hmid⟩, hx⟩)
    · exact ⟨log, x, [], rfl, hx, by simp⟩
    · refine ⟨pre, y, mid ++ [x], by simp, hy, fun w hw => ?_⟩
      rcases List.mem_append.mp hw with hw | hw
      · exact hmid w hw
      · rw [List.mem_singleton.mp hw]; exact hx

/-- Events that neither open nor close the span. -/
theorem openAfter_append_of_neutral {start stop : ε → Prop} {log evs : List ε}
    (hevs : ∀ e ∈ evs, ¬ start e ∧ ¬ stop e) :
    OpenAfter start stop (log ++ evs) ↔ OpenAfter start stop log := by
  induction evs using List.reverseRecOn with
  | nil => simp
  | append_singleton evs x ih =>
    obtain ⟨hstart, hstop⟩ := hevs x (by simp)
    rw [← List.append_assoc, openAfter_append_singleton, ih fun e he => hevs e (by simp [he])]
    simp [hstart, hstop]

end EinkLab.Transition
