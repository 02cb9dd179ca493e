import EinkLab.Transition.Program

/-!
# Procedures in an environment with a state

The environment of a program has a state `δ` of its own, and answers a call as a relation
`env : δ → Answered ι ρ → δ → Prop` allows.  `Procedure.Under` is the weakest precondition of a
procedure there, and `Procedure.under_replay` its soundness: what it promises holds wherever a trace
of the procedure that the environment follows (`Follows`) ends.  `Procedure.May` says that the
environment can answer so that the procedure ends as wanted, which gives such a trace
(`Procedure.May.exists_trace`).
-/

namespace EinkLab.Transition

variable {ι : Type} {ρ : ι → Type} {σ α β δ : Type}

/-- The environment answers the calls in turn. -/
def Follows (env : δ → Answered ι ρ → δ → Prop) : δ → List (Answered ι ρ) → δ → Prop
  | d, [], d' => d' = d
  | d, x :: trace, d' => ∃ m, env d x m ∧ Follows env m trace d'

namespace Program

/-- Whatever the environment answers, the program ends in `Q`. -/
def Under (env : δ → Answered ι ρ → δ → Prop) (p : Program ι ρ α) (Q : α → δ → Prop) (d : δ) :
    Prop :=
  match p with
  | .ret a => Q a d
  | .call o k => ∀ r d', env d ⟨o, r⟩ d' → (k r).Under env Q d'

variable {env : δ → Answered ι ρ → δ → Prop}

theorem under_bind {p : Program ι ρ α} {f : α → Program ι ρ β} {Q : β → δ → Prop} {d : δ} :
    (p.bind f).Under env Q d ↔ p.Under env (fun a => (f a).Under env Q) d := by
  induction p generalizing d with
  | ret a => rfl
  | call o k ih => exact forall_congr' fun r => forall₂_congr fun d' _ => ih r

theorem Under.mono {p : Program ι ρ α} {Q Q' : α → δ → Prop} {d : δ} (hp : p.Under env Q d)
    (hle : ∀ a d', Q a d' → Q' a d') : p.Under env Q' d := by
  induction p generalizing d with
  | ret a => exact hle a d hp
  | call o k ih => exact fun r d' henv => ih r (hp r d' henv)

theorem Under.of_replay [DecidableEq ι] {p : Program ι ρ α} {Q : α → δ → Prop} {d d' : δ}
    {trace : List (Answered ι ρ)} {a : α} (hp : p.Under env Q d) (hf : Follows env d trace d')
    (hr : p.replay trace = some a) : Q a d' := by
  induction p generalizing d trace with
  | ret b =>
    cases trace with
    | nil =>
      obtain rfl := Option.some.inj hr
      obtain rfl : d' = d := hf
      exact hp
    | cons x trace => simp [replay] at hr
  | call o k ih =>
    cases trace with
    | nil => simp [replay] at hr
    | cons x trace =>
      obtain ⟨o', r⟩ := x
      obtain ⟨m, henv, hf⟩ := hf
      rw [replay] at hr
      split at hr
      · next heq =>
        subst heq
        exact ih r (hp r m henv) hf hr
      · cases hr

/-- The environment can answer so that the program ends in `Q`. -/
def May (env : δ → Answered ι ρ → δ → Prop) (p : Program ι ρ α) (Q : α → δ → Prop) (d : δ) :
    Prop :=
  match p with
  | .ret a => Q a d
  | .call o k => ∃ r d', env d ⟨o, r⟩ d' ∧ (k r).May env Q d'

theorem May.bind {p : Program ι ρ α} {f : α → Program ι ρ β} {P : α → δ → Prop}
    {Q : β → δ → Prop} {d : δ} (hp : p.May env P d) (hf : ∀ a d', P a d' → (f a).May env Q d') :
    (p.bind f).May env Q d := by
  induction p generalizing d with
  | ret a => exact hf a d hp
  | call o k ih =>
    obtain ⟨r, d', henv, hp⟩ := hp
    exact ⟨r, d', henv, ih r hp⟩

theorem May.exists_trace [DecidableEq ι] {p : Program ι ρ α} {Q : α → δ → Prop} {d : δ}
    (hp : p.May env Q d) :
    ∃ trace a d', Follows env d trace d' ∧ p.replay trace = some a ∧ Q a d' := by
  induction p generalizing d with
  | ret a => exact ⟨[], a, d, rfl, rfl, hp⟩
  | call o k ih =>
    obtain ⟨r, m, henv, hp⟩ := hp
    obtain ⟨trace, a, d', hf, hr, hq⟩ := ih r hp
    refine ⟨⟨o, r⟩ :: trace, a, d', ⟨m, henv, hf⟩, ?_, hq⟩
    rw [replay, dif_pos rfl]
    exact hr

end Program

namespace Procedure

variable {env : δ → Answered ι ρ → δ → Prop} {m : Procedure ι ρ σ α}
  {f : α → Procedure ι ρ σ β} {F F' : σ → δ → Prop} {Q Q' : α → σ → δ → Prop}
  {R : β → σ → δ → Prop} {s t : σ} {d d' : δ}

/-- The weakest precondition for `F` at an early return and `Q` at the end. -/
def Under (env : δ → Answered ι ρ → δ → Prop) (m : Procedure ι ρ σ α) (F : σ → δ → Prop)
    (Q : α → σ → δ → Prop) (s : σ) (d : δ) : Prop :=
  (m s).Under env (fun r d' =>
    match r with
    | (some a, t) => Q a t d'
    | (none, t) => F t d') d

@[simp] theorem under_pure {a : α} :
    (pure a : Procedure ι ρ σ α).Under env F Q s d ↔ Q a s d := Iff.rfl

@[simp] theorem under_bind :
    (m >>= f).Under env F R s d ↔ m.Under env F (fun a => (f a).Under env F R) s d := by
  show ((m s).bind _).Under _ _ d ↔ _
  rw [Program.under_bind]
  unfold Under
  constructor
  all_goals
    intro hunder
    refine hunder.mono ?_
    rintro ⟨_ | a, t⟩ d' hq
    · exact hq
    · exact hq

@[simp] theorem under_call {o : ι} {Q : ρ o → σ → δ → Prop} :
    (call o : Procedure ι ρ σ (ρ o)).Under env F Q s d ↔
      ∀ r d', env d ⟨o, r⟩ d' → Q r s d' := Iff.rfl

@[simp] theorem under_modify {f : σ → σ} {Q : Unit → σ → δ → Prop} :
    (modify f : Procedure ι ρ σ Unit).Under env F Q s d ↔ Q () (f s) d := Iff.rfl

@[simp] theorem under_get {Q : σ → σ → δ → Prop} :
    (get : Procedure ι ρ σ σ).Under env F Q s d ↔ Q s s d := Iff.rfl

@[simp] theorem under_refuse {f : σ → σ} :
    (refuse f : Procedure ι ρ σ α).Under env F Q s d ↔ F (f s) d := Iff.rfl

@[simp] theorem under_refuseIf {c : Bool} {f : σ → σ} {Q : Unit → σ → δ → Prop} :
    (refuseIf c f : Procedure ι ρ σ Unit).Under env F Q s d ↔
      (c = true → F (f s) d) ∧ (c = false → Q () s d) := by
  cases c <;> simp [refuseIf]

theorem Under.mono (hm : m.Under env F Q s d) (hF : ∀ t d, F t d → F' t d)
    (hQ : ∀ a t d, Q a t d → Q' a t d) : m.Under env F' Q' s d := by
  refine Program.Under.mono hm ?_
  rintro ⟨_ | a, t⟩ d' hq
  · exact hF _ _ hq
  · exact hQ _ _ _ hq

/-- What is promised holds of every trace that the environment follows. -/
theorem under_replay [DecidableEq ι] {trace : List (Answered ι ρ)} {result : Option α}
    (hm : m.Under env F Q s d) (hf : Follows env d trace d')
    (hr : (m.run s).replay trace = some (result, t)) :
    (∀ a, result = some a → Q a t d') ∧ (result = none → F t d') := by
  have hends := Program.Under.of_replay hm hf hr
  cases result with
  | none => exact ⟨nofun, fun _ => hends⟩
  | some a =>
    refine ⟨?_, nofun⟩
    rintro b hb
    obtain rfl := Option.some.inj hb
    exact hends

/-- The environment can answer so that the procedure ends in `Q`. -/
def May (env : δ → Answered ι ρ → δ → Prop) (m : Procedure ι ρ σ α) (Q : α → σ → δ → Prop) (s : σ)
    (d : δ) : Prop :=
  (m s).May env (fun r d' => ∃ a, r.1 = some a ∧ Q a r.2 d') d

theorem may_pure {a : α} (h : Q a s d) : (pure a : Procedure ι ρ σ α).May env Q s d :=
  ⟨a, rfl, h⟩

theorem May.bind {P : α → σ → δ → Prop} (hm : m.May env P s d)
    (hf : ∀ a t d', P a t d' → (f a).May env R t d') : (m >>= f).May env R s d := by
  refine Program.May.bind hm ?_
  rintro ⟨_, t⟩ d' ⟨a, rfl, ha⟩
  exact hf a t d' ha

theorem may_call {o : ι} {r : ρ o} {Q : ρ o → σ → δ → Prop} (henv : env d ⟨o, r⟩ d')
    (h : Q r s d') : (call o : Procedure ι ρ σ (ρ o)).May env Q s d :=
  ⟨r, d', henv, r, rfl, h⟩

theorem May.exists_trace [DecidableEq ι] (hm : m.May env Q s d) :
    ∃ trace a t d', Follows env d trace d' ∧ (m.run s).replay trace = some (some a, t) ∧
      Q a t d' := by
  obtain ⟨trace, ⟨_, t⟩, d', hf, hr, a, rfl, hq⟩ := Program.May.exists_trace hm
  exact ⟨trace, a, t, d', hf, hr, hq⟩

end Procedure

end EinkLab.Transition
