import EinkLab.MicroDelta.Basic

/-!
# How long a candidate is held

A deferred candidate has a signature and a deadline, stops being deferred only through a submission
or the caller's reset, and is due within the longest wait of when it was deferred, as long as no
micro delta is evaluated past the guard's deadline (`hold_of_run`).  Such an evaluation defers it
once more (`not_forall_hold`).
-/

namespace EinkLab.MicroDelta

open Transition System

variable {p : MicroDeltaPolicy} {w w' : Watched} {c : Call} {delta : Option GrayscaleDelta}
  {width height : Int32} {now : TimePoint}

/-! ### What one call does -/

/-- The signature and the deadline come and go together, and only a deferral or a guard has them. -/
structure Consistent (p : MicroDeltaPolicy) : Prop where
  together : p.signature.isSome = p.deadline.isSome
  deferred : p.deferred = true → p.signature.isSome = true
  guarded : p.repeatGuard = true → p.signature.isSome = true
  held : p.deadline.isSome = true → p.deferred = true ∨ p.repeatGuard = true

def MicroDeltaDecision.isSubmit : MicroDeltaDecision → Bool
  | .submitSubstantive | .submitPromoted => true
  | .held | .repeatSuppressed => false

theorem Consistent.reset (p : MicroDeltaPolicy) : Consistent p.reset :=
  ⟨rfl, fun h => h, fun h => h, fun h => by cases h⟩

theorem clearExpiredRepeat_cases (p : MicroDeltaPolicy) (now : TimePoint) :
    p.clearExpiredRepeat now = p ∨
      ∃ deadline, p.deadline = some deadline ∧ p.repeatGuard = true ∧ deadline ≤ now ∧
        p.clearExpiredRepeat now =
          { p with repeatGuard := false, deadline := none, signature := none } := by
  unfold MicroDeltaPolicy.clearExpiredRepeat
  cases hdeadline : p.deadline with
  | none => exact Or.inl rfl
  | some deadline =>
    dsimp only
    split
    · exact Or.inl rfl
    · next hexpired =>
      simp only [Bool.not_eq_true', not_or, Bool.not_eq_false] at hexpired
      exact Or.inr ⟨deadline, rfl, hexpired.1, Int.not_lt.mp hexpired.2, rfl⟩

@[simp] theorem clearExpiredRepeat_config (p : MicroDeltaPolicy) (now : TimePoint) :
    (p.clearExpiredRepeat now).config = p.config := by
  rcases clearExpiredRepeat_cases p now with h | ⟨_, _, _, _, h⟩
  · rw [h]
  · rw [h]

@[simp] theorem clearExpiredRepeat_deferred (p : MicroDeltaPolicy) (now : TimePoint) :
    (p.clearExpiredRepeat now).deferred = p.deferred := by
  rcases clearExpiredRepeat_cases p now with h | ⟨_, _, _, _, h⟩
  · rw [h]
  · rw [h]

/-- Nothing is held any more. -/
structure Cleared (p : MicroDeltaPolicy) : Prop where
  signature : p.signature = none
  deadline : p.deadline = none
  deferred : p.deferred = false
  repeatGuard : p.repeatGuard = false

theorem Cleared.consistent (h : Cleared p) : Consistent p := by
  refine ⟨?_, ?_, ?_, ?_⟩
  · rw [h.signature, h.deadline]
    rfl
  · rw [h.deferred]
    exact fun hno => absurd hno Bool.false_ne_true
  · rw [h.repeatGuard]
    exact fun hno => absurd hno Bool.false_ne_true
  · rw [h.deadline]
    exact fun hno => absurd hno Bool.false_ne_true

/-- A missing or broad delta clears everything. -/
theorem bypass_cleared (hp : Consistent p) (now : TimePoint) :
    (p.clearExpiredRepeat now).bypass.1 = .submitSubstantive ∧
      Cleared (p.clearExpiredRepeat now).bypass.2 := by
  refine ⟨rfl, ?_⟩
  unfold MicroDeltaPolicy.bypass
  dsimp only
  split
  · exact ⟨rfl, rfl, rfl, rfl⟩
  · next hidle =>
    obtain ⟨hdeferred, hguard⟩ := not_or.mp hidle
    rcases clearExpiredRepeat_cases p now with heq | ⟨_, _, _, _, heq⟩
    · rw [heq] at hdeferred hguard ⊢
      have hdeadline : p.deadline = none := by
        cases hdeadline : p.deadline with
        | none => rfl
        | some d => exact absurd (hp.held (by rw [hdeadline]; rfl)) (not_or.mpr ⟨hdeferred, hguard⟩)
      have hsignature : p.signature = none := by
        have htogether := hp.together
        rw [hdeadline] at htogether
        simpa using htogether
      exact ⟨hsignature, hdeadline, by simpa using hdeferred, by simpa using hguard⟩
    · rw [heq] at hdeferred ⊢
      exact ⟨rfl, rfl, by simpa using hdeferred, rfl⟩

/-- What `Evaluate` does: it submits and clears; or it starts a hold, from nothing or from a guard
that has expired; or it keeps the hold or the guard, deadline included. -/
theorem evaluate_cases (hp : Consistent p) (delta : Option GrayscaleDelta) (width height : Int32)
    (now : TimePoint) :
    ((p.evaluate delta width height now).1.isSubmit = true ∧
        Cleared (p.evaluate delta width height now).2) ∨
      (∃ d ∈ delta, p.config.isMicro d width height = true ∧
        (p.signature = none ∨
          ∃ deadline ∈ p.deadline, p.repeatGuard = true ∧ deadline ≤ now) ∧
        (p.evaluate delta width height now).2.signature = some ⟨d, width, height⟩ ∧
        (p.evaluate delta width height now).2.deadline =
          some (now + milliseconds p.config.settle) ∧
        (p.evaluate delta width height now).2.deferred = true ∧
        (p.evaluate delta width height now).2.repeatGuard = false) ∨
      (p.signature.isSome = true ∧
        (p.evaluate delta width height now).2.signature.isSome = true ∧
        (p.evaluate delta width height now).2.deadline = p.deadline ∧
        (p.evaluate delta width height now).2.deferred = true) := by
  unfold MicroDeltaPolicy.evaluate
  cases delta with
  | none => exact Or.inl ⟨rfl, (bypass_cleared hp now).2⟩
  | some d =>
    dsimp only
    split
    · exact Or.inl ⟨rfl, (bypass_cleared hp now).2⟩
    · next hmicro =>
      rw [clearExpiredRepeat_config, Bool.not_eq_true', Bool.not_eq_false] at hmicro
      unfold MicroDeltaPolicy.evaluateMicro
      split
      · next hnone =>
        refine Or.inr (Or.inl ⟨d, rfl, hmicro, ?_⟩)
        rcases clearExpiredRepeat_cases p now with heq | ⟨deadline, hdeadline, hguard, hle, heq⟩
        · rw [heq] at hnone ⊢
          refine ⟨Or.inl hnone, rfl, rfl, rfl, ?_⟩
          cases hguard : p.repeatGuard with
          | false => rfl
          | true => simpa [hnone] using hp.guarded hguard
        · rw [heq]
          exact ⟨Or.inr ⟨deadline, hdeadline, hguard, hle⟩, rfl, rfl, rfl, rfl⟩
      · next previous hsome =>
        -- a signature is left, so no guard has expired
        have heq : p.clearExpiredRepeat now = p := by
          rcases clearExpiredRepeat_cases p now with heq | ⟨_, _, _, _, heq⟩
          · exact heq
          · simp [heq] at hsome
        rw [heq] at hsome ⊢
        split
        · exact Or.inl ⟨rfl, rfl, rfl, rfl, rfl⟩
        · split
          · exact Or.inr (Or.inr ⟨by rw [hsome]; rfl, rfl, rfl, rfl⟩)
          · exact Or.inr (Or.inr ⟨by rw [hsome]; rfl, rfl, rfl, rfl⟩)

theorem Consistent.evaluate (hp : Consistent p) (delta : Option GrayscaleDelta)
    (width height : Int32) (now : TimePoint) :
    Consistent (p.evaluate delta width height now).2 := by
  rcases evaluate_cases hp delta width height now with
    ⟨-, hcleared⟩ | ⟨d, -, -, -, hsignature, hdeadline, hdeferred, -⟩ |
    ⟨hkept, hsignature, hdeadline, hdeferred⟩
  · exact hcleared.consistent
  · have hsome : (p.evaluate delta width height now).2.signature.isSome = true := by
      rw [hsignature]
      rfl
    exact ⟨by rw [hsome, hdeadline]; rfl, fun _ => hsome, fun _ => hsome, fun _ => Or.inl hdeferred⟩
  · exact ⟨by rw [hsignature, hdeadline, ← hp.together, hkept], fun _ => hsignature,
      fun _ => hsignature, fun _ => Or.inl hdeferred⟩

theorem Consistent.markExpirySubmitted (hp : Consistent p) (now : TimePoint) :
    Consistent (p.markExpirySubmitted now) := by
  unfold MicroDeltaPolicy.markExpirySubmitted
  split
  · exact hp
  · next hdeferred =>
    have hsome := hp.deferred (by simpa using hdeferred)
    exact ⟨by simpa using hsome, fun _ => hsome, fun _ => hsome, fun _ => Or.inr rfl⟩

theorem Consistent.reconfigure (hp : Consistent p) (config : MicroDeltaConfig) :
    Consistent (p.reconfigure config).2 := by
  unfold MicroDeltaPolicy.reconfigure
  split
  · exact hp
  · split
    · exact hp
    · exact ⟨hp.together, hp.deferred, hp.guarded, hp.held⟩

theorem reconfigure_deadline (p : MicroDeltaPolicy) (config : MicroDeltaConfig) :
    (p.reconfigure config).2.deadline = p.deadline ∧
      (p.reconfigure config).2.deferred = p.deferred := by
  unfold MicroDeltaPolicy.reconfigure
  split
  · exact ⟨rfl, rfl⟩
  · split
    · exact ⟨rfl, rfl⟩
    · exact ⟨rfl, rfl⟩

theorem Consistent.apply (hp : Consistent p) (c : Call) : Consistent (c.apply p).2 := by
  cases c with
  | evaluate delta width height now => exact hp.evaluate delta width height now
  | markExpirySubmitted now => exact hp.markExpirySubmitted now
  | reset => exact .reset p
  | reconfigure config => exact hp.reconfigure config

/-! ### Runs -/

/-- What the policy promises about one call. -/
structure Kept (e : Called) : Prop where
  complete : e.after.deferred = true →
    e.after.signature.isSome = true ∧ e.after.deadline.isSome = true
  notLater : e.before.deferred = true → e.after.deferred = true →
    ∀ d ∈ e.before.deadline, ∀ d' ∈ e.after.deadline, d' ≤ d
  notDropped : e.before.deferred = true → e.after.deferred = false →
    (∃ decision ∈ e.decision, decision.isSubmit = true) ∨
      (∃ now, e.call = .markExpirySubmitted now) ∨ e.call = .reset

/-- The deadline is within the longest wait of the last time read, and of the time since when a
candidate has been deferred. -/
structure Bounded (w : Watched) : Prop where
  consistent : Consistent w.policy
  clock : ∀ d ∈ w.policy.deadline, ∃ last ∈ w.clock, d ≤ last + w.longestWait
  since : w.policy.deferred = true →
    ∃ first ∈ w.since, (∃ last ∈ w.clock, first ≤ last) ∧
      ∀ d ∈ w.policy.deadline, d ≤ first + w.longestWait

theorem Consistent.kept_complete (hp : Consistent p) (hdeferred : p.deferred = true) :
    p.signature.isSome = true ∧ p.deadline.isSome = true :=
  ⟨hp.deferred hdeferred, hp.together ▸ hp.deferred hdeferred⟩

theorem kept_apply (hp : Consistent w.policy) (hok : Timely w c) :
    Kept ⟨c, (c.apply w.policy).1, w.policy, (c.apply w.policy).2⟩ := by
  refine ⟨fun hdeferred => (hp.apply c).kept_complete hdeferred, ?_, ?_⟩
  · intro hbefore hafter d hd d' hd'
    dsimp only at hbefore hafter hd hd'
    cases c with
    | evaluate delta width height now =>
      rcases evaluate_cases hp delta width height now with
        ⟨-, hcleared⟩ | ⟨d₀, hd₀, hmicro, hexpired, -⟩ | ⟨-, -, hdeadline, -⟩
      · exact absurd (hcleared.deferred.symm.trans hafter) Bool.false_ne_true
      · -- only an expired guard lets a deferred candidate be deferred anew
        rcases hexpired with hnone | ⟨deadline, hdeadline, hguard, hle⟩
        · have hsome := hp.deferred hbefore
          rw [hnone] at hsome
          cases hsome
        · have hlt := hok d₀ hd₀ deadline hdeadline hmicro hbefore hguard
          exact absurd hle (Int.not_le.mpr hlt)
      · have heq := hd'.symm.trans (hdeadline.trans hd)
        exact Int.le_of_eq (Option.some.inj heq)
    | markExpirySubmitted now =>
      simp only [Call.apply, MicroDeltaPolicy.markExpirySubmitted, hbefore, Bool.not_true,
        Bool.false_eq_true, if_false] at hafter
    | reset => cases hafter
    | reconfigure config =>
      have heq := hd'.symm.trans ((reconfigure_deadline w.policy config).1.trans hd)
      exact Int.le_of_eq (Option.some.inj heq)
  · intro hbefore hafter
    dsimp only at hbefore hafter ⊢
    cases c with
    | evaluate delta width height now =>
      rcases evaluate_cases hp delta width height now with
        ⟨hsubmit, -⟩ | ⟨d₀, -, -, -, -, -, hdeferred, -⟩ | ⟨-, -, -, hdeferred⟩
      · exact Or.inl ⟨_, rfl, hsubmit⟩
      · exact absurd (hafter.symm.trans hdeferred) Bool.false_ne_true
      · exact absurd (hafter.symm.trans hdeferred) Bool.false_ne_true
    | markExpirySubmitted now => exact Or.inr (Or.inl ⟨now, rfl⟩)
    | reset => exact Or.inr (Or.inr rfl)
    | reconfigure config =>
      have heq := (reconfigure_deadline w.policy config).2
      exact absurd (hafter.symm.trans (heq.trans hbefore)) Bool.false_ne_true

theorem exists_clock_next (hmono : Monotone w c) {last : TimePoint} (hlast : last ∈ w.clock) :
    ∃ last' ∈ (w.next c).clock, last ≤ last' := by
  cases hnow : c.now with
  | none => exact ⟨last, by simpa [Watched.next, hnow] using hlast, Int.le_refl _⟩
  | some now => exact ⟨now, by simp [Watched.next, hnow], hmono last hlast now hnow⟩

/-- A call that leaves the deadline alone. -/
theorem Bounded.of_kept (h : Bounded w) (hmono : Monotone w c)
    (hkept : (c.apply w.policy).2.deadline = w.policy.deadline) :
    (w.next c).longestWait = w.longestWait ∧
      ∀ d ∈ (w.next c).policy.deadline, ∃ last ∈ (w.next c).clock,
        d ≤ last + (w.next c).longestWait := by
  have hwait : (w.next c).longestWait = w.longestWait := if_pos hkept
  refine ⟨hwait, ?_⟩
  intro d hd
  obtain ⟨last, hlast, hle⟩ := h.clock d (hkept ▸ hd)
  obtain ⟨last', hlast', hlater⟩ := exists_clock_next hmono hlast
  refine ⟨last', hlast', ?_⟩
  rw [hwait]
  exact Int.le_trans hle (Int.add_le_add_right hlater _)

/-- A call that sets the deadline, no further off than the longest wait. -/
theorem Bounded.of_set (h : Bounded w) (hmono : Monotone w c) {wait : Duration}
    (hnow : c.now = some now) (hset : (c.apply w.policy).2.deadline = some (now + wait))
    (hwait : wait ≤ w.policy.config.longestWait) :
    ∀ d ∈ (w.next c).policy.deadline, d ≤ now + (w.next c).longestWait := by
  intro d hd
  by_cases hkept : (c.apply w.policy).2.deadline = w.policy.deadline
  · obtain ⟨hwait, hbound⟩ := h.of_kept hmono hkept
    obtain ⟨last, hlast, hle⟩ := hbound d hd
    have heq : last = now := by simpa [Watched.next, hnow] using hlast.symm
    exact heq ▸ hle
  · have hlongest : (w.next c).longestWait = w.policy.config.longestWait := if_neg hkept
    obtain rfl := Option.some.inj (hset.symm.trans hd)
    rw [hlongest]
    exact Int.add_le_add_left hwait now

theorem Bounded.of_none (h : Consistent (w.next c).policy)
    (hnone : (w.next c).policy.deadline = none) : Bounded (w.next c) := by
  refine ⟨h, by simp [hnone], ?_⟩
  intro hdeferred
  have hsome := h.kept_complete hdeferred
  rw [hnone] at hsome
  exact absurd hsome.2 Bool.false_ne_true

/-- The candidate stays deferred, under the same deadline. -/
theorem Bounded.of_still (h : Bounded w) (hmono : Monotone w c)
    (hkept : (c.apply w.policy).2.deadline = w.policy.deadline)
    (hbefore : w.policy.deferred = true) (hafter : (c.apply w.policy).2.deferred = true) :
    Bounded (w.next c) := by
  obtain ⟨hwait, hclock⟩ := h.of_kept hmono hkept
  refine ⟨h.consistent.apply c, hclock, ?_⟩
  intro _
  obtain ⟨first, hfirst, ⟨last, hlast, hle⟩, hdue⟩ := h.since hbefore
  obtain ⟨last', hlast', hlater⟩ := exists_clock_next hmono hlast
  refine ⟨first, ?_, ⟨last', hlast', Int.le_trans hle hlater⟩, ?_⟩
  · simpa [Watched.next, hafter, hbefore] using hfirst
  · intro d hd
    rw [hwait]
    exact hdue d (hkept ▸ hd)

/-- The candidate is deferred now, or a guard begins now. -/
theorem Bounded.of_now (hc : Consistent (w.next c).policy) (hnow : c.now = some now)
    (hnew : (w.next c).policy.deferred = true → w.policy.deferred = false)
    (hbound : ∀ d ∈ (w.next c).policy.deadline, d ≤ now + (w.next c).longestWait) :
    Bounded (w.next c) := by
  have hclock : now ∈ (w.next c).clock := by simp [Watched.next, hnow]
  refine ⟨hc, fun d hd => ⟨now, hclock, hbound d hd⟩, ?_⟩
  intro hdeferred
  refine ⟨now, ?_, ⟨now, hclock, Int.le_refl _⟩, hbound⟩
  have hafter : (c.apply w.policy).2.deferred = true := hdeferred
  simp [Watched.next, hafter, hnew hdeferred, hnow]

theorem Bounded.next (h : Bounded w) (hmono : Monotone w c) (hok : Timely w c) :
    Bounded (w.next c) := by
  have hconsistent := h.consistent.apply c
  cases c with
  | evaluate delta width height now =>
    rcases evaluate_cases h.consistent delta width height now with
      ⟨-, hcleared⟩ | ⟨d, hd, hmicro, hexpired, -, hset, -⟩ | ⟨hsome, -, hkept, hafter⟩
    · -- the deadline is cleared
      exact .of_none hconsistent hcleared.deadline
    · -- a new deadline: a candidate that waited for the old one is not past it
      refine .of_now hconsistent rfl ?_ (h.of_set hmono rfl hset (Int.le_max_left ..))
      intro _
      cases hdeferred : w.policy.deferred with
      | false => rfl
      | true =>
        rcases hexpired with hnone | ⟨deadline, hdeadline, hguard, hle⟩
        · simpa [hnone] using h.consistent.deferred hdeferred
        · have hlt := hok d hd deadline hdeadline hmicro hdeferred hguard
          exact absurd hle (Int.not_le.mpr hlt)
    · -- the deadline stands, and a candidate that is deferred now starts its wait
      cases hdeferred : w.policy.deferred with
      | true => exact h.of_still hmono hkept hdeferred hafter
      | false =>
        obtain ⟨-, hbound⟩ := h.of_kept hmono hkept
        refine .of_now hconsistent rfl (fun _ => hdeferred) ?_
        intro d hd
        obtain ⟨last, hlast, hle⟩ := hbound d hd
        obtain rfl := Option.some.inj hlast
        exact hle
  | markExpirySubmitted now =>
    cases hdeferred : w.policy.deferred with
    | false =>
      have hsame : w.policy.markExpirySubmitted now = w.policy := by
        simp [MicroDeltaPolicy.markExpirySubmitted, hdeferred]
      have hkept : ((Call.markExpirySubmitted now).apply w.policy).2.deadline = w.policy.deadline :=
        congrArg MicroDeltaPolicy.deadline hsame
      refine ⟨hconsistent, (h.of_kept hmono hkept).2, ?_⟩
      intro hafter
      have heq : (w.policy.markExpirySubmitted now).deferred = true := hafter
      rw [hsame, hdeferred] at heq
      exact absurd heq Bool.false_ne_true
    | true =>
      refine .of_now hconsistent rfl ?_ (h.of_set hmono rfl ?_ (Int.le_max_right ..))
      · intro hafter
        have heq : (w.policy.markExpirySubmitted now).deferred = true := hafter
        simp [MicroDeltaPolicy.markExpirySubmitted, hdeferred] at heq
      · simp [Call.apply, MicroDeltaPolicy.markExpirySubmitted, hdeferred]
  | reset => exact .of_none hconsistent rfl
  | reconfigure config =>
    obtain ⟨hkept, hstill⟩ := reconfigure_deadline w.policy config
    cases hdeferred : w.policy.deferred with
    | true => exact h.of_still hmono hkept hdeferred (hstill.trans hdeferred)
    | false =>
      refine ⟨hconsistent, (h.of_kept hmono hkept).2, ?_⟩
      exact fun hafter => absurd (hafter.symm.trans (hstill.trans hdeferred)).symm
        Bool.false_ne_true

/-- A deferred candidate is due within the longest wait of when it was deferred. -/
def DueInTime (w : Watched) : Prop :=
  ∀ d ∈ w.policy.dueAt, ∃ first ∈ w.since, d ≤ first + w.longestWait

theorem Bounded.dueInTime (h : Bounded w) : DueInTime w := by
  intro d hd
  cases hdeferred : w.policy.deferred with
  | false => simp [MicroDeltaPolicy.dueAt, hdeferred] at hd
  | true =>
    obtain ⟨first, hfirst, -, hdue⟩ := h.since hdeferred
    exact ⟨first, hfirst, hdue d (by simpa [MicroDeltaPolicy.dueAt, hdeferred] using hd)⟩

theorem bounded_create (config : MicroDeltaConfig) : Bounded ⟨.create config, none, none, 0⟩ := by
  have hcleared : Cleared (MicroDeltaPolicy.create config) := by
    unfold MicroDeltaPolicy.create
    split
    · exact ⟨rfl, rfl, rfl, rfl⟩
    · exact ⟨rfl, rfl, rfl, rfl⟩
  refine ⟨hcleared.consistent, by simp [hcleared.deadline], ?_⟩
  exact fun hdeferred => absurd (hcleared.deferred.symm.trans hdeferred) Bool.false_ne_true

/-- **A hold is bounded and loses nothing**, in every run under a monotone clock that evaluates no
micro delta past the guard's deadline while a candidate is deferred under it. -/
theorem hold_of_run {config : MicroDeltaConfig} {calls : List Call} {log : List Called}
    (h : system.Run (fun w c => Monotone w c ∧ Timely w c) ⟨.create config, none, none, 0⟩
      calls log w) :
    (∀ e ∈ log, Kept e) ∧ DueInTime w := by
  have hinv : (∀ e ∈ log, Kept e) ∧ Bounded w := by
    refine h.induct (fun _ log w => (∀ e ∈ log, Kept e) ∧ Bounded w) ?_ ?_
    · exact ⟨by simp, bounded_create config⟩
    · rintro _ log w c w' es ⟨hkept, hbounded⟩ ⟨hmono, hok⟩ hstep
      simp only [system, Option.some.injEq, Prod.mk.injEq] at hstep
      obtain ⟨rfl, rfl⟩ := hstep
      refine ⟨?_, hbounded.next hmono hok⟩
      intro e he
      rcases List.mem_append.mp he with he | he
      · exact hkept e he
      · rw [List.mem_singleton.mp he]
        exact kept_apply hbounded.consistent hok
  exact ⟨hinv.1, hinv.2.dueInTime⟩

/-- One changed pixel in the lowest row of a large frame. -/
def dot : GrayscaleDelta :=
  ⟨1, 1, 0, 1000000, 500, 999, 501, 1000⟩

/-- A candidate is deferred under the guard of the one submitted before it. -/
def suppressed : List Call :=
  [.evaluate dot 1000 1000 0, .markExpirySubmitted 300000000, .evaluate dot 1000 1000 400000000]

theorem hold_of_run_suppressed :
    ∃ log w, system.Run (fun w c => Monotone w c ∧ Timely w c) ⟨.create {}, none, none, 0⟩
        suppressed log w ∧
      w.policy.dueAt = some 2300000000 ∧ (∀ e ∈ log, Kept e) ∧ DueInTime w := by
  have hrun : ∃ log w, system.Run (fun w c => Monotone w c ∧ Timely w c)
      ⟨.create {}, none, none, 0⟩ suppressed log w ∧ w.policy.dueAt = some 2300000000 :=
    ⟨_, _, Run.of_exec rfl, by decide⟩
  obtain ⟨log, w, hrun, hdue⟩ := hrun
  exact ⟨log, w, hrun, hdue, hold_of_run hrun⟩

/-- Evaluated at its deadline, the candidate is deferred until 2.6 seconds, 2.2 seconds after it was
deferred first. -/
theorem not_forall_hold :
    ¬∀ (config : MicroDeltaConfig) (calls : List Call) (log : List Called) (w : Watched),
      system.Run Monotone ⟨.create config, none, none, 0⟩ calls log w →
        (∀ e ∈ log, Kept e) ∧ DueInTime w := by
  intro h
  have hrun : ∃ log w, system.Run Monotone ⟨.create {}, none, none, 0⟩
      (suppressed ++ [.evaluate dot 1000 1000 2300000000]) log w ∧
        w.policy.dueAt = some 2600000000 ∧ w.since = some 400000000 ∧
          w.longestWait = 2000000000 := ⟨_, _, Run.of_exec rfl, by decide, by decide, by decide⟩
  obtain ⟨log, w, hrun, hdue, hsince, hwait⟩ := hrun
  obtain ⟨first, hfirst, hle⟩ := (h _ _ _ _ hrun).2 _ hdue
  obtain rfl := Option.some.inj (hsince.symm.trans hfirst)
  rw [hwait] at hle
  exact absurd hle (by decide)

end EinkLab.MicroDelta
