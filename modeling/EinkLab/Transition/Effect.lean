import EinkLab.Transition.Program

/-!
# What a procedure does

`Procedure.Does E R m`: through the calls `l` that it makes, `m` takes a state `s` to a state `t`
only with `R s l t`, and returns early only with `E s l t`.  Where `R` is reflexive and transitive
along the calls, and `E` closed under a preceding `R` (`Chains`), what the parts do the whole does;
so a frame condition of a long procedure is read off its parts.  `Does.sat` uses it in a weakest
precondition.
-/

namespace EinkLab.Transition.Procedure

variable {ι : Type} {ρ : ι → Type} {σ α β : Type}

/-- A relation between two states through the calls made between them. -/
abbrev Effect (ι : Type) (ρ : ι → Type) (σ : Type) := σ → List (Answered ι ρ) → σ → Prop

def Does (E R : Effect ι ρ σ) (m : Procedure ι ρ σ α) : Prop :=
  ∀ h s, m.Sat (fun h' t => ∃ l, h' = h ++ l ∧ E s l t)
    (fun _ h' t => ∃ l, h' = h ++ l ∧ R s l t) h s

/-- `R` composes, and an early return may follow it. -/
structure Chains (E R : Effect ι ρ σ) : Prop where
  refl : ∀ s, R s [] s
  trans : ∀ {s l t l' u}, R s l t → R t l' u → R s (l ++ l') u
  early : ∀ {s l t l' u}, R s l t → E t l' u → E s (l ++ l') u

/-- An early return that does not happen. -/
def Never : Effect ι ρ σ := fun _ _ _ => False

theorem Chains.never {E R : Effect ι ρ σ} (hc : Chains E R) : Chains Never R :=
  ⟨hc.refl, hc.trans, fun _ h => h⟩

variable {E E' R R' : Effect ι ρ σ} {m m₁ m₂ : Procedure ι ρ σ α} {f : α → Procedure ι ρ σ β}

namespace Does

theorem sat {F : Assertion ι ρ σ} {Q : α → Assertion ι ρ σ} {h : List (Answered ι ρ)} {s : σ}
    (hm : Does E R m) (hF : ∀ l t, E s l t → F (h ++ l) t)
    (hQ : ∀ a l t, R s l t → Q a (h ++ l) t) : m.Sat F Q h s := by
  refine (hm h s).mono ?_ ?_
  · rintro _ t ⟨l, rfl, he⟩
    exact hF l t he
  · rintro a _ t ⟨l, rfl, hr⟩
    exact hQ a l t hr

theorem mono (hm : Does E R m) (hE : ∀ s l t, E s l t → E' s l t)
    (hR : ∀ s l t, R s l t → R' s l t) : Does E' R' m :=
  fun _ s => hm.sat (fun l t he => ⟨l, rfl, hE s l t he⟩) fun _ l t hr => ⟨l, rfl, hR s l t hr⟩

theorem pure (hc : Chains E R) (a : α) : Does E R (Pure.pure a : Procedure ι ρ σ α) :=
  fun h s => ⟨[], (List.append_nil h).symm, hc.refl s⟩

theorem get (hc : Chains E R) : Does E R (get : Procedure ι ρ σ σ) :=
  fun h s => ⟨[], (List.append_nil h).symm, hc.refl s⟩

theorem modify {g : σ → σ} (hg : ∀ s, R s [] (g s)) :
    Does E R (modify g : Procedure ι ρ σ Unit) :=
  fun h s => ⟨[], (List.append_nil h).symm, hg s⟩

theorem call {o : ι} (ho : ∀ s r, R s [⟨o, r⟩] s) : Does E R (call o : Procedure ι ρ σ (ρ o)) :=
  fun _ s r => ⟨[⟨o, r⟩], rfl, ho s r⟩

theorem refuse {g : σ → σ} (hg : ∀ s, E s [] (g s)) : Does E R (refuse g : Procedure ι ρ σ α) :=
  fun h s => ⟨[], (List.append_nil h).symm, hg s⟩

theorem bind (hc : Chains E R) (hm : Does E R m) (hf : ∀ a, Does E R (f a)) :
    Does E R (m >>= f) := by
  intro h s
  rw [sat_bind]
  refine hm.sat (fun l t he => ⟨l, rfl, he⟩) fun a l t hr => ?_
  refine (hf a).sat (fun l' u he => ?_) fun b l' u hr' => ?_
  · exact ⟨l ++ l', List.append_assoc h l l', hc.early hr he⟩
  · exact ⟨l ++ l', List.append_assoc h l l', hc.trans hr hr'⟩

theorem ite {q : Prop} [Decidable q] (h₁ : Does E R m₁) (h₂ : Does E R m₂) :
    Does E R (if q then m₁ else m₂) := by
  split
  · exact h₁
  · exact h₂

theorem onlyIf (hc : Chains E R) {q : Bool} {m : Procedure ι ρ σ Unit} (hm : Does E R m) :
    Does E R (onlyIf q m) := ite hm (pure hc ())

theorem refuseIf (hc : Chains E R) {q : Bool} {g : σ → σ} (hg : ∀ s, E s [] (g s)) :
    Does E R (refuseIf q g : Procedure ι ρ σ Unit) := ite (refuse hg) (pure hc ())

end Does

end EinkLab.Transition.Procedure
