import EinkLab.Transition.Run
import Mathlib.Data.UInt

/-!
# Words that count their changes

A word keeps a value in its lowest bits and in the others, its *stamp*, how often it was changed, so
that a reader who finds the word as it was knows that it was not changed and changed back.  The
stamp wraps around, so this is only right while fewer changes are made than there are stamps:
`Run.quiet_of_eq` says so of a run of a labelled system in which every change is seen in the log.

* `value_change`, `stamp_change`: the change of such a word;
* `Run.stamp_of_run`: the stamp at the end of a run;
* `Run.quiet_of_eq`: between two moments at which the word is the same nothing has changed it.
-/

namespace EinkLab.Transition

namespace Stamps

/-- What the lowest bits hold. -/
def value (bits : Nat) (w : UInt64) : Nat := w.toNat % 2 ^ bits

/-- What the other bits hold. -/
def stamp (bits : Nat) (w : UInt64) : Nat := w.toNat / 2 ^ bits

/-- The number of stamps. -/
def stamps (bits : Nat) : Nat := 2 ^ (64 - bits)

/-- The word with the next stamp and another value. -/
def change (mask v w : UInt64) : UInt64 := ((w + (mask + 1)) &&& ~~~mask) ||| v

variable {bits : Nat} {mask v w : UInt64}

theorem stamp_lt (hbits : bits ≤ 64) (w : UInt64) : stamp bits w < stamps bits := by
  unfold stamp stamps
  rw [Nat.div_lt_iff_lt_mul (Nat.two_pow_pos bits), ← pow_add, Nat.sub_add_cancel hbits]
  exact w.toNat_lt

/-- A mask of the lowest bits cuts them out. -/
theorem toNat_and_mask (hmask : mask.toNat + 1 = 2 ^ bits) :
    (w &&& mask).toNat = value bits w := by
  have hsub : mask.toNat = 2 ^ bits - 1 := by omega
  rw [UInt64.toNat_and, hsub, Nat.and_two_pow_sub_one_eq_mod]
  rfl

/-- Its complement leaves the stamp. -/
theorem toNat_and_not_mask (hbits : bits < 64) (hmask : mask.toNat + 1 = 2 ^ bits) :
    (w &&& ~~~mask).toNat = stamp bits w <<< bits := by
  have hsub : mask.toNat = 2 ^ bits - 1 := by omega
  have hlt : 2 ^ bits - 1 < 2 ^ 64 := hsub ▸ mask.toNat_lt
  have hnot : (~~~mask).toNat = 2 ^ 64 - (2 ^ bits - 1 + 1) := by
    rw [UInt64.toNat_not, hsub]
    show 2 ^ 64 - 1 - (2 ^ bits - 1) = _
    omega
  refine Nat.eq_of_testBit_eq fun i => ?_
  rw [UInt64.toNat_and, hnot, Nat.testBit_and, Nat.testBit_two_pow_sub_succ hlt,
    Nat.testBit_two_pow_sub_one, Nat.testBit_shiftLeft]
  unfold stamp
  rw [Nat.testBit_div_two_pow]
  by_cases hi : i < bits
  · have hi64 : i < 64 := hi.trans hbits
    simp [hi, hi64]
  · have hle : bits ≤ i := Nat.le_of_not_lt hi
    rw [Nat.sub_add_cancel hle]
    by_cases hi64 : i < 64
    · simp [hi, hi64, hle]
    · -- the word has no bits there
      have hzero : w.toNat.testBit i = false := by
        refine Nat.testBit_lt_two_pow (w.toNat_lt.trans_le ?_)
        exact Nat.pow_le_pow_right (by decide) (Nat.le_of_not_lt hi64)
      simp [hi, hi64, hzero]

/-- The changed word, as a number. -/
theorem toNat_change (hbits : bits < 64) (hmask : mask.toNat + 1 = 2 ^ bits)
    (hv : v.toNat < 2 ^ bits) :
    (change mask v w).toNat = stamp bits (w + (mask + 1)) * 2 ^ bits + v.toNat := by
  unfold change
  rw [UInt64.toNat_or, toNat_and_not_mask hbits hmask, ← Nat.shiftLeft_add_eq_or_of_lt hv,
    Nat.shiftLeft_eq]

theorem value_change (hbits : bits < 64) (hmask : mask.toNat + 1 = 2 ^ bits)
    (hv : v.toNat < 2 ^ bits) : value bits (change mask v w) = v.toNat := by
  unfold value
  rw [toNat_change hbits hmask hv, Nat.mul_comm, Nat.mul_add_mod, Nat.mod_eq_of_lt hv]

theorem stamp_change (hbits : bits < 64) (hmask : mask.toNat + 1 = 2 ^ bits)
    (hv : v.toNat < 2 ^ bits) :
    stamp bits (change mask v w) = (stamp bits w + 1) % stamps bits := by
  have hpos : 0 < 2 ^ bits := Nat.two_pow_pos bits
  have hstep : (w + (mask + 1)).toNat = (w.toNat + 2 ^ bits) % (2 ^ bits * stamps bits) := by
    have hone : (mask + 1).toNat = 2 ^ bits := by
      rw [UInt64.toNat_add, show (1 : UInt64).toNat = 1 from rfl, hmask]
      exact Nat.mod_eq_of_lt (Nat.pow_lt_pow_right (by decide) hbits)
    rw [UInt64.toNat_add, hone, stamps, ← pow_add, Nat.add_sub_cancel' hbits.le]
  calc stamp bits (change mask v w)
      = stamp bits (w + (mask + 1)) := by
        unfold stamp
        rw [toNat_change hbits hmask hv, Nat.mul_comm, Nat.mul_add_div hpos, Nat.div_eq_of_lt hv]
        rfl
    _ = (w.toNat + 2 ^ bits) / 2 ^ bits % stamps bits := by
        unfold stamp
        rw [hstep, Nat.mod_mul_right_div_self]
    _ = (stamp bits w + 1) % stamps bits := by
        rw [Nat.add_div_right _ hpos]
        rfl

/-- Fewer changes than there are stamps are seen. -/
theorem eq_zero_of_add_mod {m s n : Nat} (hs : s < m) (hn : n < m) (h : (s + n) % m = s) :
    n = 0 := by
  by_cases hlt : s + n < m
  · rw [Nat.mod_eq_of_lt hlt] at h
    omega
  · rw [Nat.mod_eq_sub_mod (Nat.le_of_not_lt hlt), Nat.mod_eq_of_lt (by omega)] at h
    omega

end Stamps

/-! ### Along a run -/

namespace System

open Stamps

variable {σ α ε : Type*} {M : System σ α ε} {ok : σ → α → Prop} {s t : σ} {as : List α}
  {log : List ε} {bits : Nat} {word : σ → UInt64} {counts : ε → Bool} {Q : UInt64 → ε → Prop}

/-- Every step leaves the word alone and emits what goes with it, or is a change that counts. -/
def Stamped (M : System σ α ε) (bits : Nat) (word : σ → UInt64) (counts : ε → Bool)
    (Q : UInt64 → ε → Prop) : Prop :=
  ∀ t a u evs, M.step t a = some (u, evs) →
    (word u = word t ∧ ∀ e ∈ evs, Q (word t) e) ∨
      (stamp bits (word u) = (stamp bits (word t) + 1) % stamps bits ∧ 0 < evs.countP counts)

theorem Run.stamp_of_run (hM : Stamped M bits word counts Q) (hbits : bits ≤ 64)
    (h : M.Run ok s as log t) :
    ∃ n ≤ log.countP counts, stamp bits (word t) = (stamp bits (word s) + n) % stamps bits ∧
      (n = 0 → word t = word s ∧ ∀ e ∈ log, Q (word s) e) := by
  refine h.induct (fun _ log t => ∃ n ≤ log.countP counts,
    stamp bits (word t) = (stamp bits (word s) + n) % stamps bits ∧
      (n = 0 → word t = word s ∧ ∀ e ∈ log, Q (word s) e)) ?_ ?_
  · refine ⟨0, Nat.le_refl 0, ?_, fun _ => ⟨rfl, fun e he => absurd he List.not_mem_nil⟩⟩
    rw [Nat.add_zero, Nat.mod_eq_of_lt (stamp_lt hbits _)]
  rintro - log t a u evs ⟨n, hle, hstamp, hquiet⟩ - hstep
  rw [List.countP_append]
  rcases hM t a u evs hstep with ⟨hword, hevs⟩ | ⟨hchange, hcount⟩
  · refine ⟨n, by omega, hword ▸ hstamp, fun hzero => ?_⟩
    obtain ⟨heq, hlog⟩ := hquiet hzero
    refine ⟨hword.trans heq, fun e he => ?_⟩
    rcases List.mem_append.mp he with he | he
    · exact hlog e he
    · rw [← heq]
      exact hevs e he
  · refine ⟨n + 1, by omega, ?_, fun hzero => absurd hzero (Nat.succ_ne_zero n)⟩
    rw [hchange, hstamp, Nat.mod_add_mod, Nat.add_assoc]

/-- A word that is found as it was has not been changed. -/
theorem Run.quiet_of_eq (hM : Stamped M bits word counts Q) (hbits : bits ≤ 64)
    (h : M.Run ok s as log t) (hfew : log.countP counts < stamps bits) (heq : word t = word s) :
    ∀ e ∈ log, Q (word s) e := by
  obtain ⟨n, hle, hstamp, hquiet⟩ := Run.stamp_of_run hM hbits h
  rw [heq] at hstamp
  have hzero : n = 0 := eq_zero_of_add_mod (stamp_lt hbits _) (hle.trans_lt hfew) hstamp.symm
  exact (hquiet hzero).2

end System

end EinkLab.Transition
