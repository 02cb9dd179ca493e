import EinkLab.PartialMemory.Basic

/-!
# Readers of a memory

A reader notes the entries of tables it examines, and ends with a value, with a result that it
returns early, or in a fault.  `Reader.loop` runs an iteration for each index below a count;
`mem_examined_loop` says what it examines.
-/

namespace EinkLab.PartialMemory

/-- An entry of a table that is examined. -/
structure Access (τ : Type) where
  table : τ
  address : Nat
  size : Nat
  deriving DecidableEq

inductive Outcome (ρ α : Type)
  | ok (value : α)
  | returned (result : ρ)
  | fault
  deriving DecidableEq

structure Reader (τ ρ α : Type) where
  examined : List (Access τ)
  outcome : Outcome ρ α

namespace Reader

variable {τ ρ α β σ : Type} {w : Reader τ ρ α} {f : α → Reader τ ρ β} {a : Access τ} {v : α}

def pure (value : α) : Reader τ ρ α := ⟨[], .ok value⟩

def bind (w : Reader τ ρ α) (f : α → Reader τ ρ β) : Reader τ ρ β :=
  match w.outcome with
  | .ok value => ⟨w.examined ++ (f value).examined, (f value).outcome⟩
  | .returned result => ⟨w.examined, .returned result⟩
  | .fault => ⟨w.examined, .fault⟩

instance : Monad (Reader τ ρ) where
  pure := pure
  bind := bind

def examine (a : Access τ) : Reader τ ρ Unit := ⟨[a], .ok ()⟩

/-- A value that is read, or a fault. -/
def load : Option α → Reader τ ρ α
  | some value => ⟨[], .ok value⟩
  | none => ⟨[], .fault⟩

def done (result : ρ) : Reader τ ρ α := ⟨[], .returned result⟩

/-- Returns early on a condition. -/
def refuse (c : Prop) [Decidable c] (result : ρ) : Reader τ ρ Unit :=
  if c then done result else pure ()

/-- The state after an iteration for each index below the count. -/
def loop (step : Nat → σ → Reader τ ρ σ) (start : σ) : Nat → Reader τ ρ σ
  | 0 => pure start
  | n + 1 => do step n (← loop step start n)

/-! ### Rules -/

@[simp] theorem outcome_pure : (Pure.pure v : Reader τ ρ α).outcome = .ok v := rfl

@[simp] theorem examined_pure : (Pure.pure v : Reader τ ρ α).examined = [] := rfl

@[simp] theorem outcome_examine : (examine a : Reader τ ρ Unit).outcome = .ok () := rfl

@[simp] theorem examined_examine : (examine a : Reader τ ρ Unit).examined = [a] := rfl

@[simp] theorem outcome_load {o : Option α} :
    (load o : Reader τ ρ α).outcome = .ok v ↔ o = some v := by
  cases o <;> simp [load]

@[simp] theorem examined_load {o : Option α} : (load o : Reader τ ρ α).examined = [] := by
  cases o <;> rfl

@[simp] theorem outcome_done {result : ρ} : (done result : Reader τ ρ α).outcome ≠ .ok v := nofun

@[simp] theorem examined_done {result : ρ} : (done result : Reader τ ρ α).examined = [] := rfl

@[simp] theorem outcome_refuse {c : Prop} [Decidable c] {result : ρ} {u : Unit} :
    (refuse c result : Reader τ ρ Unit).outcome = .ok u ↔ ¬c := by
  unfold refuse
  split
  · next h => exact iff_of_false nofun (not_not.mpr h)
  · next h => exact iff_of_true rfl h

@[simp] theorem examined_refuse {c : Prop} [Decidable c] {result : ρ} :
    (refuse c result : Reader τ ρ Unit).examined = [] := by
  unfold refuse
  split <;> rfl

@[simp] theorem mem_examined_ite {c : Prop} [Decidable c] {w' : Reader τ ρ α} :
    a ∈ (if c then w else w').examined ↔
      if c then a ∈ w.examined else a ∈ w'.examined := by
  split <;> rfl

@[simp] theorem outcome_bind {u : β} :
    (w >>= f).outcome = .ok u ↔ ∃ v, w.outcome = .ok v ∧ (f v).outcome = .ok u := by
  show (bind w f).outcome = _ ↔ _
  unfold bind
  cases w.outcome <;> simp

@[simp] theorem mem_examined_bind :
    a ∈ (w >>= f).examined ↔ a ∈ w.examined ∨ ∃ v, w.outcome = .ok v ∧ a ∈ (f v).examined := by
  show a ∈ (bind w f).examined ↔ _
  unfold bind
  cases w.outcome <;> simp

variable {step : Nat → σ → Reader τ ρ σ} {start s : σ} {n : Nat}

/-- What holds at the start and is kept by every iteration holds at the end. -/
theorem loop_induction {I : Nat → σ → Prop} (hstart : I 0 start)
    (hstep : ∀ i s s', i < n → I i s → (step i s).outcome = .ok s' → I (i + 1) s')
    (h : (loop step start n).outcome = .ok s) : I n s := by
  induction n generalizing s with
  | zero =>
    obtain rfl : start = s := by simpa [loop, pure] using h
    exact hstart
  | succ n ih =>
    obtain ⟨t, ht, hs⟩ := outcome_bind.mp h
    exact hstep n t s (Nat.lt_succ_self n)
      (ih (fun i s s' hi => hstep i s s' (Nat.lt_succ_of_lt hi)) ht) hs

/-! ### Early results -/

variable {result : ρ}

@[simp] theorem returned_pure : (Pure.pure v : Reader τ ρ α).outcome ≠ .returned result := nofun

@[simp] theorem returned_load {o : Option α} :
    (load o : Reader τ ρ α).outcome ≠ .returned result := by
  cases o <;> simp [load]

@[simp] theorem returned_refuse {c : Prop} [Decidable c] {early : ρ} :
    (refuse c early : Reader τ ρ Unit).outcome = .returned result ↔ c ∧ early = result := by
  unfold refuse
  split
  · next h => simp [done, h]
  · next h => simp [pure, h]

@[simp] theorem returned_ite {c : Prop} [Decidable c] {w' : Reader τ ρ α} :
    (if c then w else w').outcome = .returned result ↔
      if c then w.outcome = .returned result else w'.outcome = .returned result := by
  split <;> rfl

@[simp] theorem returned_bind : (w >>= f).outcome = .returned result ↔
    w.outcome = .returned result ∨ ∃ v, w.outcome = .ok v ∧ (f v).outcome = .returned result := by
  show (bind w f).outcome = _ ↔ _
  unfold bind
  cases w.outcome <;> simp

/-- A result that a loop returns is one that an iteration returns. -/
theorem returned_loop (h : (loop step start n).outcome = .returned result) :
    ∃ i s, (step i s).outcome = .returned result := by
  induction n with
  | zero => exact absurd h returned_pure
  | succ n ih =>
    rcases returned_bind.mp h with h | ⟨s, -, h⟩
    · exact ih h
    · exact ⟨n, s, h⟩

/-! ### What a loop examines -/

/-- A loop examines what the iterations it reaches examine. -/
theorem mem_examined_loop : a ∈ (loop step start n).examined ↔
    ∃ i < n, ∃ s, (loop step start i).outcome = .ok s ∧ a ∈ (step i s).examined := by
  induction n with
  | zero => simp [loop, pure]
  | succ n ih =>
    show a ∈ (loop step start n >>= step n).examined ↔ _
    rw [mem_examined_bind, ih]
    constructor
    · rintro (⟨i, hi, h⟩ | h)
      · exact ⟨i, Nat.lt_succ_of_lt hi, h⟩
      · exact ⟨n, Nat.lt_succ_self n, h⟩
    · rintro ⟨i, hi, h⟩
      rcases Nat.lt_succ_iff_lt_or_eq.mp hi with hi | rfl
      · exact Or.inl ⟨i, hi, h⟩
      · exact Or.inr h

end Reader

end EinkLab.PartialMemory
