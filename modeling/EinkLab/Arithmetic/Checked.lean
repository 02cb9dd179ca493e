import Mathlib.Data.List.Basic

/-!
# Arithmetic in fixed-width types

`IntType.exact` is the result of one operation, refused where the type cannot hold it; a computation
of such operations that returns a value has wrapped nowhere.  `IntType.wrap` is a conversion that
keeps the value modulo the size of the type.
-/

namespace EinkLab

/-- A fixed-width integer type, by its least and its greatest value. -/
structure IntType where
  low : Int
  high : Int
  deriving DecidableEq, Repr

namespace IntType

def int32 : IntType := ⟨-2147483648, 2147483647⟩

def int64 : IntType := ⟨-9223372036854775808, 9223372036854775807⟩

def uint8 : IntType := ⟨0, 255⟩

def uint16 : IntType := ⟨0, 65535⟩

def uint32 : IntType := ⟨0, 4294967295⟩

/-- The type holds the value. -/
def Holds (t : IntType) (value : Int) : Prop := t.low ≤ value ∧ value ≤ t.high

instance (t : IntType) (value : Int) : Decidable (t.Holds value) :=
  inferInstanceAs (Decidable (_ ∧ _))

/-- An operation whose result is `value`. -/
def exact (t : IntType) (value : Int) : Option Int := if t.Holds value then some value else none

/-- A conversion to the type. -/
def wrap (t : IntType) (value : Int) : Int := t.low + (value - t.low) % (t.high - t.low + 1)

theorem exact_of_holds {t : IntType} {value : Int} (h : t.low ≤ value ∧ value ≤ t.high) :
    t.exact value = some value := if_pos h

/-- A value that fits goes on into the rest of the computation. -/
theorem exact_bind {t : IntType} {value : Int} {α : Type} (f : Int → Option α)
    (h : t.low ≤ value ∧ value ≤ t.high) : (t.exact value >>= f) = f value := by
  rw [exact_of_holds h]
  rfl

/-! ### The bounds of each type -/

section

variable {value : Int} {α : Type}

theorem Holds.toNat_le (h : int32.Holds value) : value.toNat ≤ 2147483647 :=
  Int.toNat_le.mpr h.2

theorem int32_exact (h : -2147483648 ≤ value ∧ value ≤ 2147483647) :
    int32.exact value = some value := exact_of_holds h

theorem uint8_exact (h : 0 ≤ value ∧ value ≤ 255) : uint8.exact value = some value :=
  exact_of_holds h

theorem int32_bind (f : Int → Option α) (h : -2147483648 ≤ value ∧ value ≤ 2147483647) :
    (int32.exact value >>= f) = f value := exact_bind f h

theorem uint8_bind (f : Int → Option α) (h : 0 ≤ value ∧ value ≤ 255) :
    (uint8.exact value >>= f) = f value := exact_bind f h

theorem uint16_bind (f : Int → Option α) (h : 0 ≤ value ∧ value ≤ 65535) :
    (uint16.exact value >>= f) = f value := exact_bind f h

theorem uint32_bind (f : Int → Option α) (h : 0 ≤ value ∧ value ≤ 4294967295) :
    (uint32.exact value >>= f) = f value := exact_bind f h

end

end IntType

end EinkLab
