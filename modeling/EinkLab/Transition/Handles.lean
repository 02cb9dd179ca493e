import Mathlib.Data.List.Perm.Basic

/-!
# A ledger of handles

`Handles` numbers the handles a program obtains and lists those it closes.  `Accounts held` says
that every handle obtained is closed once and not held, or not closed and held once, and that no
other is closed or held.  The rules move one handle at a time: an obtained one is held, a closed one
no longer is.  A handle that is dropped without being closed stays in the list as one that nobody
names, so an account with such a rest tells a leak from a clean end (`accounts_append_iff`).
-/

namespace EinkLab.Transition

structure Handles where
  /-- How many have been obtained; they are the numbers below. -/
  obtained : Nat := 0
  closed : List Nat := []
  deriving DecidableEq, Repr

namespace Handles

variable {h : Handles} {held held' rest : List Nat}

def obtain (h : Handles) : Nat × Handles := (h.obtained, { h with obtained := h.obtained + 1 })

def close (h : Handles) (x : Nat) : Handles := { h with closed := x :: h.closed }

def Accounts (h : Handles) (held : List Nat) : Prop :=
  ∀ x, h.closed.count x + held.count x = if x < h.obtained then 1 else 0

theorem accounts_init : Accounts {} [] := fun _ => rfl

theorem Accounts.perm (ha : h.Accounts held) (hp : held.Perm held') : h.Accounts held' := by
  intro x
  rw [← hp.count_eq x]
  exact ha x

theorem Accounts.obtain (ha : h.Accounts held) : h.obtain.2.Accounts (h.obtain.1 :: held) := by
  intro x
  have hx := ha x
  show h.closed.count x + (h.obtained :: held).count x = if x < h.obtained + 1 then 1 else 0
  rw [List.count_cons]
  by_cases heq : h.obtained = x
  · subst heq
    rw [if_neg (Nat.lt_irrefl _)] at hx
    rw [if_pos (Nat.lt_succ_self _), if_pos (beq_self_eq_true _)]
    omega
  · rw [if_neg (by simpa using heq)]
    by_cases hlt : x < h.obtained
    · rw [if_pos hlt] at hx
      rw [if_pos (by omega)]
      omega
    · rw [if_neg hlt] at hx
      rw [if_neg (by omega)]
      omega

theorem Accounts.close {x : Nat} (ha : h.Accounts (x :: held)) : (h.close x).Accounts held := by
  intro y
  have hy := ha y
  show (x :: h.closed).count y + held.count y = if y < h.obtained then 1 else 0
  rw [List.count_cons] at hy ⊢
  omega

/-- Handles closed one after another. -/
def closeAll (h : Handles) (xs : List Nat) : Handles := xs.foldl close h

theorem Accounts.closeAll {xs : List Nat} (ha : h.Accounts (xs ++ held)) :
    (h.closeAll xs).Accounts held := by
  induction xs generalizing h with
  | nil => exact ha
  | cons x xs ih => exact ih (Accounts.close ha)

/-- What is accounted for without the rest is so exactly if there is none. -/
theorem accounts_append_iff (ha : h.Accounts (held ++ rest)) : h.Accounts held ↔ rest = [] := by
  constructor
  · intro hheld
    refine List.eq_nil_iff_forall_not_mem.mpr fun x hx => ?_
    have hall := ha x
    have hsome := hheld x
    have hpos : 0 < rest.count x := List.count_pos_iff.mpr hx
    rw [List.count_append] at hall
    omega
  · rintro rfl
    rwa [List.append_nil] at ha

end Handles

end EinkLab.Transition
