import Mathlib.Data.List.Basic

/-!
# Programs that call an environment

`Program ι ρ α` is a computation that makes calls `o : ι`, each answered by the environment with an
arbitrary value of `ρ o`, and ends with an `α`.  `Program.replay` runs one along a list of answered
calls, so the traces of a program are the lists that replay it to its end; `Program.answer` takes it
one call further.

`Procedure ι ρ σ α` adds a state `σ` and an early return (`none`), after which the state still
counts and which `rescue` catches.  `Procedure.Sat m F Q h s` is the weakest precondition of `m` in
the state `s` after the calls `h`: whatever the environment answers, an early return satisfies `F`
and a normal end satisfies `Q`. The rules `sat_*` compute it, and `Procedure.sat_replay` is its
soundness: what is satisfied holds of every trace.
-/

namespace EinkLab.Transition

/-! ### Programs -/

inductive Program (ι : Type) (ρ : ι → Type) (α : Type)
  | ret (a : α)
  | call (o : ι) (k : ρ o → Program ι ρ α)

/-- A call with its answer. -/
abbrev Answered (ι : Type) (ρ : ι → Type) := (o : ι) × ρ o

namespace Program

variable {ι : Type} {ρ : ι → Type} {α β : Type}

def bind (p : Program ι ρ α) (f : α → Program ι ρ β) : Program ι ρ β :=
  match p with
  | .ret a => f a
  | .call o k => .call o fun r => (k r).bind f

/-- The result along a list of answered calls, if these are exactly the calls made. -/
def replay [DecidableEq ι] : Program ι ρ α → List (Answered ι ρ) → Option α
  | .ret a, [] => some a
  | .ret _, _ :: _ => none
  | .call _ _, [] => none
  | .call o k, ⟨o', r⟩ :: trace =>
    if h : o' = o then (k (h ▸ r)).replay trace else none

/-- The calls made and the result when an environment in the state `e` answers, which each call
takes to its next state. -/
def driveFrom {ε : Type} (answer : ε → (o : ι) → ρ o) (next : ε → ι → ε) (e : ε) :
    Program ι ρ α → List (Answered ι ρ) × α
  | .ret a => ([], a)
  | .call o k =>
    let rest := (k (answer e o)).driveFrom answer next (next e o)
    (⟨o, answer e o⟩ :: rest.1, rest.2)

/-- The calls made and the result when every call `o` is answered with `answer o`. -/
def drive (answer : (o : ι) → ρ o) (p : Program ι ρ α) : List (Answered ι ρ) × α :=
  p.driveFrom (fun _ => answer) (fun _ _ => ()) ()

/-- Every way of answering is a trace. -/
theorem replay_driveFrom [DecidableEq ι] {ε : Type} (answer : ε → (o : ι) → ρ o)
    (next : ε → ι → ε) (e : ε) (p : Program ι ρ α) :
    p.replay (p.driveFrom answer next e).1 = some (p.driveFrom answer next e).2 := by
  induction p generalizing e with
  | ret a => rfl
  | call o k ih =>
    simp only [driveFrom, replay, dif_pos]
    exact ih (answer e o) (next e o)

theorem replay_drive [DecidableEq ι] (answer : (o : ι) → ρ o) (p : Program ι ρ α) :
    p.replay (p.drive answer).1 = some (p.drive answer).2 :=
  replay_driveFrom (fun _ => answer) (fun _ _ => ()) () p

/-- Every call was answered so. -/
theorem drive_answers (answer : (o : ι) → ρ o) (p : Program ι ρ α) :
    ∀ x ∈ (p.drive answer).1, x.2 = answer x.1 := by
  induction p with
  | ret a => exact fun x hx => absurd hx List.not_mem_nil
  | call o k ih =>
    intro x hx
    rcases List.mem_cons.mp hx with rfl | hx
    · rfl
    · exact ih (answer o) x hx

/-- Whatever the environment answers, the program that has made the calls `h` ends in `Q`. -/
def All (p : Program ι ρ α) (Q : List (Answered ι ρ) → α → Prop) (h : List (Answered ι ρ)) : Prop :=
  match p with
  | .ret a => Q h a
  | .call o k => ∀ r, (k r).All Q (h ++ [⟨o, r⟩])

theorem all_bind {p : Program ι ρ α} {f : α → Program ι ρ β}
    {Q : List (Answered ι ρ) → β → Prop} {h : List (Answered ι ρ)} :
    (p.bind f).All Q h ↔ p.All (fun h' a => (f a).All Q h') h := by
  induction p generalizing h with
  | ret a => rfl
  | call o k ih => exact forall_congr' fun r => ih r

theorem All.mono {p : Program ι ρ α} {Q Q' : List (Answered ι ρ) → α → Prop}
    {h : List (Answered ι ρ)} (hp : p.All Q h) (hle : ∀ h' a, Q h' a → Q' h' a) : p.All Q' h := by
  induction p generalizing h with
  | ret a => exact hle h a hp
  | call o k ih => exact fun r => ih r (hp r)

theorem All.of_replay [DecidableEq ι] {p : Program ι ρ α} {Q : List (Answered ι ρ) → α → Prop}
    {h trace : List (Answered ι ρ)} {a : α} (hp : p.All Q h) (hr : p.replay trace = some a) :
    Q (h ++ trace) a := by
  induction p generalizing h trace with
  | ret b =>
    cases trace with
    | nil =>
      obtain rfl := Option.some.inj hr
      rwa [List.append_nil]
    | cons x trace => simp [replay] at hr
  | call o k ih =>
    cases trace with
    | nil => simp [replay] at hr
    | cons x trace =>
      obtain ⟨o', r⟩ := x
      rw [replay] at hr
      split at hr
      · next heq =>
        subst heq
        have := ih r (hp r) hr
        rwa [List.append_assoc] at this
      · cases hr

theorem All.and {p : Program ι ρ α} {Q Q' : List (Answered ι ρ) → α → Prop}
    {h : List (Answered ι ρ)} (hp : p.All Q h) (hp' : p.All Q' h) :
    p.All (fun h' a => Q h' a ∧ Q' h' a) h := by
  induction p generalizing h with
  | ret a => exact ⟨hp, hp'⟩
  | call o k ih => exact fun r => ih r (hp r) (hp' r)

/-- The calls that were made stay made. -/
theorem all_extends (p : Program ι ρ α) (h : List (Answered ι ρ)) :
    p.All (fun h' _ => ∃ l, h' = h ++ l) h := by
  induction p generalizing h with
  | ret a => exact ⟨[], (List.append_nil h).symm⟩
  | call o k ih =>
    intro r
    refine (ih r (h ++ [⟨o, r⟩])).mono ?_
    rintro _ _ ⟨l, rfl⟩
    exact ⟨⟨o, r⟩ :: l, by rw [List.append_assoc, List.singleton_append]⟩

/-! ### Programs call by call -/

/-- What is left of the program after an answered call, if it makes that call next. -/
def answer [DecidableEq ι] : Program ι ρ α → Answered ι ρ → Option (Program ι ρ α)
  | .ret _, _ => none
  | .call o k, ⟨o', r⟩ => if h : o' = o then some (k (h ▸ r)) else none

/-- What is left of it after a list of them. -/
def after [DecidableEq ι] (p : Program ι ρ α) : List (Answered ι ρ) → Option (Program ι ρ α)
  | [] => some p
  | x :: trace => (p.answer x).bind fun q => q.after trace

theorem after_append_singleton [DecidableEq ι] {p : Program ι ρ α} {trace : List (Answered ι ρ)}
    {x : Answered ι ρ} : p.after (trace ++ [x]) = (p.after trace).bind fun q => q.answer x := by
  induction trace generalizing p with
  | nil =>
    show (p.answer x).bind some = p.answer x
    exact Option.bind_fun_some _
  | cons y trace ih =>
    show (p.answer y).bind (fun q => q.after (trace ++ [x])) = _
    simp only [ih]
    exact (Option.bind_assoc _ _ _).symm

/-- A program that has come to its end call by call. -/
theorem replay_of_after [DecidableEq ι] {p : Program ι ρ α} {trace : List (Answered ι ρ)} {a : α}
    (h : p.after trace = some (.ret a)) : p.replay trace = some a := by
  induction trace generalizing p with
  | nil =>
    obtain rfl := Option.some.inj h
    rfl
  | cons x trace ih =>
    obtain ⟨q, hq, hrest⟩ := Option.bind_eq_some_iff.mp h
    cases p with
    | ret b => cases hq
    | call o k =>
      obtain ⟨o', r⟩ := x
      by_cases heq : o' = o
      · rw [answer, dif_pos heq] at hq
        obtain rfl := Option.some.inj hq
        rw [replay, dif_pos heq]
        exact ih hrest
      · rw [answer, dif_neg heq] at hq
        cases hq

end Program

/-! ### Procedures with a state and an early return -/

def Procedure (ι : Type) (ρ : ι → Type) (σ α : Type) := σ → Program ι ρ (Option α × σ)

namespace Procedure

variable {ι : Type} {ρ : ι → Type} {σ α β : Type}

def run (m : Procedure ι ρ σ α) (s : σ) : Program ι ρ (Option α × σ) := m s

protected def pure (a : α) : Procedure ι ρ σ α := fun s => .ret (some a, s)

protected def bind (m : Procedure ι ρ σ α) (f : α → Procedure ι ρ σ β) : Procedure ι ρ σ β :=
  fun s => (m s).bind fun r =>
    match r with
    | (some a, t) => f a t
    | (none, t) => .ret (none, t)

instance : Monad (Procedure ι ρ σ) where
  pure := Procedure.pure
  bind := Procedure.bind

/-- One call to the environment. -/
def call (o : ι) : Procedure ι ρ σ (ρ o) := fun s => .call o fun r => .ret (some r, s)

def get : Procedure ι ρ σ σ := fun s => .ret (some s, s)

def modify (f : σ → σ) : Procedure ι ρ σ Unit := fun s => .ret (some (), f s)

/-- Return early, after the change `f` of the state. -/
def refuse (f : σ → σ) : Procedure ι ρ σ α := fun s => .ret (none, f s)

/-- `if (c) { f; return false; }` -/
def refuseIf (c : Bool) (f : σ → σ) : Procedure ι ρ σ Unit :=
  if c then refuse f else pure ()

/-- `if (c) m;` -/
def onlyIf (c : Bool) (m : Procedure ι ρ σ Unit) : Procedure ι ρ σ Unit :=
  if c then m else pure ()

/-- `try { m } catch { handler }`, where an early return of `m` is the exception. -/
def rescue (m handler : Procedure ι ρ σ α) : Procedure ι ρ σ α := fun s =>
  (m s).bind fun r =>
    match r with
    | (some a, t) => .ret (some a, t)
    | (none, t) => handler t

/-- An assertion about the calls made so far and the state. -/
abbrev Assertion (ι : Type) (ρ : ι → Type) (σ : Type) := List (Answered ι ρ) → σ → Prop

/-- The weakest precondition for `F` at an early return and `Q` at the end. -/
def Sat (m : Procedure ι ρ σ α) (F : Assertion ι ρ σ) (Q : α → Assertion ι ρ σ) :
    Assertion ι ρ σ := fun h s =>
  (m s).All (fun h' r =>
    match r with
    | (some a, t) => Q a h' t
    | (none, t) => F h' t) h

variable {m : Procedure ι ρ σ α} {f : α → Procedure ι ρ σ β} {F F' : Assertion ι ρ σ}
  {Q Q' : α → Assertion ι ρ σ} {R : β → Assertion ι ρ σ} {h trace : List (Answered ι ρ)} {s t : σ}

@[simp] theorem sat_pure {a : α} :
    (pure a : Procedure ι ρ σ α).Sat F Q h s ↔ Q a h s := Iff.rfl

@[simp] theorem sat_bind :
    (m >>= f).Sat F R h s ↔ m.Sat F (fun a => (f a).Sat F R) h s := by
  show ((m s).bind _).All _ h ↔ _
  rw [Program.all_bind]
  unfold Sat
  constructor
  all_goals
    intro hall
    refine hall.mono ?_
    rintro h' ⟨_ | a, t⟩ hq
    · exact hq
    · exact hq

@[simp] theorem sat_call {o : ι} {Q : ρ o → Assertion ι ρ σ} :
    (call o : Procedure ι ρ σ (ρ o)).Sat F Q h s ↔ ∀ r, Q r (h ++ [⟨o, r⟩]) s := Iff.rfl

@[simp] theorem sat_get {Q : σ → Assertion ι ρ σ} :
    (get : Procedure ι ρ σ σ).Sat F Q h s ↔ Q s h s := Iff.rfl

@[simp] theorem sat_modify {f : σ → σ} {Q : Unit → Assertion ι ρ σ} :
    (modify f : Procedure ι ρ σ Unit).Sat F Q h s ↔ Q () h (f s) := Iff.rfl

@[simp] theorem sat_refuse {f : σ → σ} :
    (refuse f : Procedure ι ρ σ α).Sat F Q h s ↔ F h (f s) := Iff.rfl

@[simp] theorem sat_refuseIf {c : Bool} {f : σ → σ} {Q : Unit → Assertion ι ρ σ} :
    (refuseIf c f : Procedure ι ρ σ Unit).Sat F Q h s ↔
      (c = true → F h (f s)) ∧ (c = false → Q () h s) := by
  cases c <;> simp [refuseIf]

theorem sat_ite {c : Prop} [Decidable c] {m₁ m₂ : Procedure ι ρ σ α} :
    (if c then m₁ else m₂).Sat F Q h s ↔ (c → m₁.Sat F Q h s) ∧ (¬ c → m₂.Sat F Q h s) := by
  by_cases hc : c <;> simp [hc]

theorem sat_rescue {handler : Procedure ι ρ σ α} :
    (rescue m handler).Sat F Q h s ↔ m.Sat (handler.Sat F Q) Q h s := by
  show ((m s).bind _).All _ h ↔ _
  rw [Program.all_bind]
  unfold Sat
  constructor
  all_goals
    intro hall
    refine hall.mono ?_
    rintro h' ⟨_ | a, t⟩ hq
    · exact hq
    · exact hq

/-- The calls that were made stay made. -/
theorem Sat.extends (hm : m.Sat F Q h s) :
    m.Sat F (fun a h' t => Q a h' t ∧ ∃ l, h' = h ++ l) h s := by
  refine (Program.All.and hm (Program.all_extends _ h)).mono ?_
  rintro h' ⟨_ | a, t⟩ ⟨hq, hl⟩
  · exact hq
  · exact ⟨hq, hl⟩

theorem Sat.mono (hm : m.Sat F Q h s) (hF : ∀ h t, F h t → F' h t)
    (hQ : ∀ a h t, Q a h t → Q' a h t) : m.Sat F' Q' h s := by
  refine Program.All.mono hm ?_
  rintro h' ⟨_ | a, t⟩ hq
  · exact hF _ _ hq
  · exact hQ _ _ _ hq

/-- What is satisfied holds of every trace. -/
theorem sat_replay [DecidableEq ι] {result : Option α} (hm : m.Sat F Q h s)
    (hr : (m.run s).replay trace = some (result, t)) :
    (∀ a, result = some a → Q a (h ++ trace) t) ∧ (result = none → F (h ++ trace) t) := by
  have hall := Program.All.of_replay hm hr
  cases result with
  | none => exact ⟨nofun, fun _ => hall⟩
  | some a =>
    refine ⟨?_, nofun⟩
    rintro b hb
    obtain rfl := Option.some.inj hb
    exact hall

end Procedure

end EinkLab.Transition
