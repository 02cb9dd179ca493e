import Mathlib.Tactic.Ring

/-!
# Partial memories

A memory holds a byte at some of its 64-bit addresses.  A little-endian word is read where all its
bytes are there (`read_eq_some_iff`), and what is written is read back (`read_write`).
-/

namespace EinkLab.PartialMemory

/-- Arithmetic of addresses. -/
def wrap (n : Nat) : Nat := n % 2 ^ 64

abbrev Memory := Nat → Option UInt8

variable {m : Memory} {address n v slot : Nat}

/-- The little-endian word of `n` bytes at an address. -/
def Memory.read (m : Memory) : Nat → Nat → Option Nat
  | 0, _ => some 0
  | n + 1, address => do
    let low ← m (wrap address)
    let high ← m.read n (address + 1)
    return low.toNat + 256 * high

/-- The bytes of a text that ends before its limit, up to the zero byte; `some none` where no zero
byte stands before the limit. -/
def Memory.cString (m : Memory) : Nat → Nat → Option (Option (List UInt8))
  | 0, _ => some none
  | limit + 1, address => do
    let b ← m (wrap address)
    if b = 0 then return some []
    else return (← m.cString limit (address + 1)).map (b :: ·)

/-- Writes a little-endian word of eight bytes. -/
def Memory.write (m : Memory) (slot v : Nat) : Memory := fun address =>
  if slot ≤ address ∧ address < slot + 8 then some (.ofNat (v / 256 ^ (address - slot)))
  else m address

theorem wrap_of_lt (h : n < 2 ^ 64) : wrap n = n := Nat.mod_eq_of_lt h

theorem read_eq_some_iff : m.read n address = some v ↔
    v < 256 ^ n ∧ ∀ k < n, m (wrap (address + k)) = some (.ofNat (v / 256 ^ k)) := by
  induction n generalizing address v with
  | zero =>
    simp only [Memory.read, Option.some_inj, pow_zero, Nat.lt_one_iff, Nat.not_lt_zero,
      false_implies, implies_true, and_true]
    exact eq_comm
  | succ n ih =>
    have hsplit : (∀ k < n + 1, m (wrap (address + k)) = some (.ofNat (v / 256 ^ k))) ↔
        m (wrap address) = some (.ofNat v) ∧
          ∀ k < n, m (wrap (address + 1 + k)) = some (.ofNat (v / 256 / 256 ^ k)) := by
      have hdiv : ∀ k, v / 256 ^ (k + 1) = v / 256 / 256 ^ k := fun k => by
        rw [Nat.div_div_eq_div_mul, Nat.pow_succ, Nat.mul_comm]
      constructor
      · intro h
        refine ⟨by simpa using h 0 (by omega), fun k hk => ?_⟩
        have hnext := h (k + 1) (by omega)
        rwa [hdiv, show address + (k + 1) = address + 1 + k by omega] at hnext
      · rintro ⟨hlow, hhigh⟩ k hk
        cases k with
        | zero => simpa using hlow
        | succ k =>
          rw [hdiv, show address + (k + 1) = address + 1 + k by omega]
          exact hhigh k (by omega)
    simp only [Memory.read, Option.bind_eq_bind, Option.bind_eq_some_iff, ih, Option.some_inj,
      Option.pure_def, hsplit]
    constructor
    · rintro ⟨low, hlow, high, ⟨hlt, hbytes⟩, rfl⟩
      have hlowLt := low.toNat_lt
      have hdiv : (low.toNat + 256 * high) / 256 = high := by omega
      have hofNat : UInt8.ofNat (low.toNat + 256 * high) = low := by
        rw [← UInt8.toNat_inj, UInt8.toNat_ofNat']
        omega
      rw [hdiv, hofNat, Nat.pow_succ]
      exact ⟨by omega, hlow, hbytes⟩
    · rintro ⟨hlt, hlow, hbytes⟩
      rw [Nat.pow_succ] at hlt
      refine ⟨_, hlow, v / 256, ⟨by omega, hbytes⟩, ?_⟩
      rw [UInt8.toNat_ofNat']
      omega

/-- A word that is written is read back. -/
theorem read_write (hslot : slot + 8 ≤ 2 ^ 64) (hv : v < 2 ^ 64) :
    (m.write slot v).read 8 slot = some v := by
  refine read_eq_some_iff.mpr ⟨by omega, fun k hk => ?_⟩
  rw [wrap_of_lt (by omega), Memory.write, if_pos (by omega), Nat.add_sub_cancel_left]

/-- Writing the word that is there changes nothing. -/
theorem write_of_read (hslot : slot + 8 ≤ 2 ^ 64) (h : m.read 8 slot = some v) :
    m.write slot v = m := by
  funext address
  rw [Memory.write]
  split
  · next hrange =>
    have hbyte := (read_eq_some_iff.mp h).2 (address - slot) (by omega)
    rwa [Nat.add_sub_cancel' hrange.1, wrap_of_lt (by omega), eq_comm] at hbyte
  · rfl

end EinkLab.PartialMemory
