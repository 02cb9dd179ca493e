import EinkLab.Arithmetic.Checked
import Mathlib.Data.List.Induction

/-!
# Parcels and transactions

A parcel is written value by value and read in the same order.  `Parcels` is an implementation with
descriptors of a type `D`, together with what its users rely on: `Unread p items` says that the
values `items` are left in `p`, and as long as each of them is read as what it was written, the
reads give them back.  What any other read gives is left open, so a reader that is given a foreign
parcel has to cope with anything.

A descriptor stands for the file it refers to, which is the same at both ends.
-/

namespace EinkLab.Binder

def FIRST_CALL_TRANSACTION : Nat := 1

def AID_SYSTEM : Nat := 1000

/-- Whether a transaction is executed by the endpoint, and whether its reply comes back. -/
structure Carriage where
  delivered : Bool := true
  replied : Bool := true
  deriving DecidableEq, Repr

inductive Item (D : Type)
  | interfaceToken (descriptor : String)
  | noException
  | int32 (value : Int)
  | int64 (value : Int)
  | fileDescriptor (fd : D)
  | string16 (value : List Char)
  deriving DecidableEq, Repr

/-- The value fits the type that it is written as. -/
def Item.Fits {D : Type} : Item D → Prop
  | .int32 value => IntType.int32.Holds value
  | .int64 value => IntType.int64.Holds value
  | _ => True

structure Parcels (D : Type) where
  Parcel : Type
  obtain : Parcel
  write : Parcel → Item D → Parcel
  checkInterface : Parcel → String → Bool × Parcel
  /-- `readException`; `false` is an exception. -/
  readException : Parcel → Bool × Parcel
  readInt32 : Parcel → Int × Parcel
  readInt64 : Parcel → Int × Parcel
  readFileDescriptor : Parcel → Option D × Parcel
  /-- `errorCheck() == OK` -/
  sound : Parcel → Bool
  dataAvail : Parcel → Nat
  Unread : Parcel → List (Item D) → Prop
  unread_obtain : Unread obtain []
  unread_write : ∀ {p items item}, Unread p items → item.Fits →
    Unread (write p item) (items ++ [item])
  unread_checkInterface : ∀ {p items descriptor}, Unread p (.interfaceToken descriptor :: items) →
    ∀ expected, (checkInterface p expected).1 = decide (descriptor = expected) ∧
      Unread (checkInterface p expected).2 items
  unread_readException : ∀ {p items}, Unread p (.noException :: items) →
    (readException p).1 = true ∧ Unread (readException p).2 items
  unread_readInt32 : ∀ {p items value}, Unread p (.int32 value :: items) →
    (readInt32 p).1 = value ∧ Unread (readInt32 p).2 items
  unread_readInt64 : ∀ {p items value}, Unread p (.int64 value :: items) →
    (readInt64 p).1 = value ∧ Unread (readInt64 p).2 items
  unread_readFileDescriptor : ∀ {p items fd}, Unread p (.fileDescriptor fd :: items) →
    (readFileDescriptor p).1 = some fd ∧ Unread (readFileDescriptor p).2 items
  unread_sound : ∀ {p items}, Unread p items → sound p = true
  unread_dataAvail : ∀ {p items}, Unread p items → (dataAvail p = 0 ↔ items = [])

namespace Parcels

variable {D : Type} (api : Parcels D)

/-- A parcel with these values. -/
def writeAll (items : List (Item D)) : api.Parcel := items.foldl api.write api.obtain

/-- The values are there to be read, in the order in which they were written. -/
theorem unread_writeAll {items : List (Item D)} (h : ∀ item ∈ items, item.Fits) :
    api.Unread (api.writeAll items) items := by
  induction items using List.reverseRecOn with
  | nil => exact api.unread_obtain
  | append_singleton items item ih =>
    rw [writeAll, List.foldl_append]
    apply api.unread_write
    · exact ih fun item' hmem => h item' (List.mem_append_left _ hmem)
    · exact h item (List.mem_append_right _ (List.mem_singleton_self item))

/-! ### The parcel that is the list of what is left -/

/-- Where something else is read than what is next, the read gives nothing and stays there. -/
def ofItems (D : Type) : Parcels D where
  Parcel := List (Item D)
  obtain := []
  write p item := p ++ [item]
  checkInterface p expected :=
    match p with
    | .interfaceToken descriptor :: rest => (decide (descriptor = expected), rest)
    | _ => (false, p)
  readException p :=
    match p with
    | .noException :: rest => (true, rest)
    | _ => (false, p)
  readInt32 p :=
    match p with
    | .int32 value :: rest => (value, rest)
    | _ => (0, p)
  readInt64 p :=
    match p with
    | .int64 value :: rest => (value, rest)
    | _ => (0, p)
  readFileDescriptor p :=
    match p with
    | .fileDescriptor fd :: rest => (some fd, rest)
    | _ => (none, p)
  sound _ := true
  dataAvail p := p.length
  Unread p items := p = items
  unread_obtain := rfl
  unread_write h _ := by rw [h]
  unread_checkInterface h expected := by
    subst h
    exact ⟨rfl, rfl⟩
  unread_readException h := by
    subst h
    exact ⟨rfl, rfl⟩
  unread_readInt32 h := by
    subst h
    exact ⟨rfl, rfl⟩
  unread_readInt64 h := by
    subst h
    exact ⟨rfl, rfl⟩
  unread_readFileDescriptor h := by
    subst h
    exact ⟨rfl, rfl⟩
  unread_sound _ := rfl
  unread_dataAvail h := by
    subst h
    exact List.length_eq_zero_iff

end Parcels

end EinkLab.Binder
