import Mathlib.Data.Fin.Tuple.Basic
import Mathlib.Data.List.OfFn

/-!
# Vector registers by lanes

A register of `n` lanes is a function on `Fin n`, and an operation acts on each lane with the
wrapping arithmetic of the lane's type.  The intrinsics below carry their names; a "q" is a register
of 128 bits.  What is computed half by half is a function of the lanes when it is put together again
(`combine_lanes`), so that a vector computation is read off lane by lane.
-/

namespace EinkLab.Neon

abbrev Lanes (n : Nat) (α : Type) := Fin n → α

variable {α : Type} {n : Nat}

/-! ### Halves -/

def low (a : Lanes (n + n) α) : Lanes n α := fun i => a (Fin.castAdd n i)

def high (a : Lanes (n + n) α) : Lanes n α := fun i => a (Fin.natAdd n i)

def combine (a b : Lanes n α) : Lanes (n + n) α := Fin.append a b

/-- What acts on the lanes of the two halves acts on the lanes of the whole. -/
theorem combine_lanes (f : Lanes (n + n) α) :
    combine (fun i => f (Fin.castAdd n i)) (fun i => f (Fin.natAdd n i)) = f :=
  Fin.append_castAdd_natAdd

/-! ### Intrinsics -/

def vmaxqU8 (a b : Lanes 16 UInt8) : Lanes 16 UInt8 := fun i => max (a i) (b i)

def vminqU8 (a b : Lanes 16 UInt8) : Lanes 16 UInt8 := fun i => min (a i) (b i)

def vsubqU8 (a b : Lanes 16 UInt8) : Lanes 16 UInt8 := fun i => a i - b i

/-- The greatest lane. -/
def vmaxvqU8 (a : Lanes 16 UInt8) : UInt8 := (List.ofFn a).foldr max 0

/-- The least lane. -/
def vminvqU8 (a : Lanes 16 UInt8) : UInt8 := (List.ofFn a).foldr min 255

def vdupqU8 (x : UInt8) : Lanes 16 UInt8 := fun _ => x

def vdupU8 (x : UInt8) : Lanes 8 UInt8 := fun _ => x

def vdupqU16 (x : UInt16) : Lanes 8 UInt16 := fun _ => x

def vdupqU32 (x : UInt32) : Lanes 4 UInt32 := fun _ => x

/-- All bits where the comparison holds, none elsewhere. -/
def vcltqU8 (a b : Lanes 16 UInt8) : Lanes 16 UInt8 := fun i => if a i < b i then 255 else 0

/-- The bits of `a` where the mask is set, and of `b` elsewhere. -/
def vbslqU8 (mask a b : Lanes 16 UInt8) : Lanes 16 UInt8 :=
  fun i => (mask i &&& a i) ||| (~~~mask i &&& b i)

def vgetLowU8 (a : Lanes 16 UInt8) : Lanes 8 UInt8 := low (n := 8) a

def vgetHighU8 (a : Lanes 16 UInt8) : Lanes 8 UInt8 := high (n := 8) a

def vcombineU8 (a b : Lanes 8 UInt8) : Lanes 16 UInt8 := combine a b

def vgetLowU16 (a : Lanes 8 UInt16) : Lanes 4 UInt16 := low (n := 4) a

def vgetHighU16 (a : Lanes 8 UInt16) : Lanes 4 UInt16 := high (n := 4) a

def vcombineU16 (a b : Lanes 4 UInt16) : Lanes 8 UInt16 := combine a b

/-- Widening multiplication. -/
def vmullU8 (a b : Lanes 8 UInt8) : Lanes 8 UInt16 := fun i => (a i).toUInt16 * (b i).toUInt16

/-- Widening multiplication and addition. -/
def vmlalU8 (acc : Lanes 8 UInt16) (a b : Lanes 8 UInt8) : Lanes 8 UInt16 :=
  fun i => acc i + (a i).toUInt16 * (b i).toUInt16

def vmullU16 (a b : Lanes 4 UInt16) : Lanes 4 UInt32 := fun i => (a i).toUInt32 * (b i).toUInt32

def vmlalU16 (acc : Lanes 4 UInt32) (a b : Lanes 4 UInt16) : Lanes 4 UInt32 :=
  fun i => acc i + (a i).toUInt32 * (b i).toUInt32

def vmovlU8 (a : Lanes 8 UInt8) : Lanes 8 UInt16 := fun i => (a i).toUInt16

/-- Narrowing: the low half of the bits. -/
def vmovnU16 (a : Lanes 8 UInt16) : Lanes 8 UInt8 := fun i => (a i).toUInt8

def vmovnU32 (a : Lanes 4 UInt32) : Lanes 4 UInt16 := fun i => (a i).toUInt16

def vaddqU16 (a b : Lanes 8 UInt16) : Lanes 8 UInt16 := fun i => a i + b i

def vsubqU16 (a b : Lanes 8 UInt16) : Lanes 8 UInt16 := fun i => a i - b i

def vorrqU16 (a b : Lanes 8 UInt16) : Lanes 8 UInt16 := fun i => a i ||| b i

def vshrqU16 (a : Lanes 8 UInt16) (n : UInt16) : Lanes 8 UInt16 := fun i => a i >>> n

def vshlqU16 (a : Lanes 8 UInt16) (n : UInt16) : Lanes 8 UInt16 := fun i => a i <<< n

def vaddqU32 (a b : Lanes 4 UInt32) : Lanes 4 UInt32 := fun i => a i + b i

/-- The `/` of two vectors. -/
def divqU32 (a b : Lanes 4 UInt32) : Lanes 4 UInt32 := fun i => a i / b i

/-- Look-up in four registers; an index of 64 or more gives 0. -/
def vqtbl4qU8 (table : Fin 4 → Lanes 16 UInt8) (index : Lanes 16 UInt8) : Lanes 16 UInt8 :=
  fun i =>
    if h : (index i).toNat < 64 then
      table ⟨(index i).toNat / 16, by omega⟩ ⟨(index i).toNat % 16, by omega⟩
    else 0

/-- Four registers from 64 bytes: byte `4 * k + c` is lane `k` of register `c`. -/
def vld4qU8 (data : List UInt8) : Fin 4 → Lanes 16 UInt8 :=
  fun c k => data.getD (4 * k + c) 0

/-- The bytes of four registers, interleaved again. -/
def vst4qU8 (val : Fin 4 → Lanes 16 UInt8) : List UInt8 :=
  List.ofFn fun j : Fin 64 => val ⟨j % 4, by omega⟩ ⟨j / 4, by omega⟩

/-! ### Horizontal operations -/

theorem le_foldr_max {l : List UInt8} {x : UInt8} (h : x ∈ l) :
    x.toNat ≤ (l.foldr max 0).toNat := by
  induction l with
  | nil => cases h
  | cons y l ih =>
    rw [List.foldr_cons, UInt8.toNat_max]
    rcases List.mem_cons.mp h with rfl | h
    · exact Nat.le_max_left _ _
    · exact Nat.le_trans (ih h) (Nat.le_max_right _ _)

theorem foldr_min_le {l : List UInt8} {x : UInt8} (h : x ∈ l) :
    (l.foldr min 255).toNat ≤ x.toNat := by
  induction l with
  | nil => cases h
  | cons y l ih =>
    rw [List.foldr_cons, UInt8.toNat_min]
    rcases List.mem_cons.mp h with rfl | h
    · exact Nat.min_le_left _ _
    · exact Nat.le_trans (Nat.min_le_right _ _) (ih h)

theorem le_vmaxvqU8 (a : Lanes 16 UInt8) (i : Fin 16) : (a i).toNat ≤ (vmaxvqU8 a).toNat :=
  le_foldr_max (List.mem_ofFn.mpr ⟨i, rfl⟩)

theorem vminvqU8_le (a : Lanes 16 UInt8) (i : Fin 16) : (vminvqU8 a).toNat ≤ (a i).toNat :=
  foldr_min_le (List.mem_ofFn.mpr ⟨i, rfl⟩)

/-! ### Selection and storage -/

theorem vbslqU8_vcltqU8 (a b x y : Lanes 16 UInt8) (i : Fin 16) :
    vbslqU8 (vcltqU8 a b) x y i = if a i < b i then x i else y i := by
  by_cases h : a i < b i
  · simp [vbslqU8, vcltqU8, h, show (255 : UInt8) = -1 from rfl]
  · simp [vbslqU8, vcltqU8, h]

theorem length_vst4qU8 (val : Fin 4 → Lanes 16 UInt8) : (vst4qU8 val).length = 64 :=
  List.length_ofFn

theorem getElem_vst4qU8 (val : Fin 4 → Lanes 16 UInt8) {j : Nat} (hj : j < 64)
    (hj' : j < (vst4qU8 val).length) :
    (vst4qU8 val)[j] = val ⟨j % 4, by omega⟩ ⟨j / 4, by omega⟩ :=
  List.getElem_ofFn hj'

/-- What is loaded and stored again is what it was. -/
theorem vst4qU8_vld4qU8 {data : List UInt8} (h : data.length = 64) :
    vst4qU8 (vld4qU8 data) = data := by
  refine List.ext_getElem ((length_vst4qU8 _).trans h.symm) ?_
  intro j hj hj'
  have hidx : 4 * (j / 4) + j % 4 = j := Nat.div_add_mod j 4
  rw [getElem_vst4qU8 _ (h ▸ hj') hj]
  simp only [vld4qU8, hidx]
  rw [List.getD_eq_getElem?_getD, List.getElem?_eq_getElem hj']
  rfl

end EinkLab.Neon
