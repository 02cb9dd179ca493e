import EinkLab.RecoveryImage.Ramdisk
import EinkLab.Text.PythonHex

/-!
# The walk over any ramdisk

The rewrite loop of `prepare-aura-recovery.py` as it runs over any archive: the sizes are whatever
`int(field, 16)` reads, so a position may be negative, and a slice counts a negative bound from the
end.
-/

namespace EinkLab.RecoveryImage

open EinkLab.Text EinkLab.Binary

/-- Where a bound of a slice stands. -/
def sliceBound (length : Nat) (i : Int) : Nat :=
  if i < 0 then (i + length).toNat else min i.toNat length

/-- `bs[start:stop]` -/
def pySlice (bs : Bytes) (start stop : Int) : Bytes :=
  (bs.take (sliceBound bs.length stop)).drop (sliceBound bs.length start)

/-- `(n + 3) & ~3` -/
def pyAlign4 (n : Int) : Int := (n + 3) / 4 * 4

def headerAt (archive : Bytes) (position : Int) : Bytes :=
  pySlice archive position (position + 110)

/-- The size in the header at `position`. -/
def announcedSize (archive : Bytes) (position : Int) : Option Int :=
  int16 (slice (headerAt archive position) 54 8)

/-- The variables of an iteration; `position` is the next one. -/
structure Iteration where
  header : Bytes
  namesize : Int
  size : Int
  name_bytes : Bytes
  data_offset : Int
  data : Bytes
  position : Int
  deriving DecidableEq

def Iteration.name (it : Iteration) : Bytes := it.name_bytes.dropLast

/-- What an iteration reads. -/
def readIteration (archive : Bytes) (position : Int) : Option Iteration := do
  let header := headerAt archive position
  guard (header.take 6 = MAGIC)
  let namesize ← int16 (slice header 94 8)
  let size ← announcedSize archive position
  -- the size itself has no lower bound
  guard (1 ≤ namesize ∧ namesize ≤ 4096)
  let name_bytes := pySlice archive (position + 110) (position + 110 + namesize)
  guard (name_bytes.length = namesize ∧ name_bytes.getLast? = some 0)
  guard (decodes none name_bytes.dropLast)
  let data_offset := pyAlign4 (position + 110 + namesize)
  guard (data_offset + size ≤ archive.length)
  return { header, namesize, size, name_bytes, data_offset,
           data := pySlice archive data_offset (data_offset + size),
           position := pyAlign4 (data_offset + size) }

/-- The variables of the loop. -/
structure Walk where
  position : Int := 0
  rebuilt : Bytes := []
  changed : List Bytes := []
  deriving DecidableEq

/-- The condition of the loop. -/
def Walk.HasHeader (w : Walk) (archive : Bytes) : Prop := w.position + 110 ≤ archive.length

instance (w : Walk) (archive : Bytes) : Decidable (w.HasHeader archive) :=
  inferInstanceAs (Decidable (_ ≤ _))

/-- One iteration: what it read, and the variables behind it; `none` where it raises. -/
def iterate (archive : Bytes) (w : Walk) : Option (Iteration × Walk) := do
  let it ← readIteration archive w.position
  let (data, changed) ← editData it.name it.data w.changed
  let entry : Entry := ⟨withSize it.header data.length, it.name_bytes, data⟩
  return (it, { position := it.position, rebuilt := appendEntry w.rebuilt entry, changed })

/-- The variables after a number of iterations, where the loop goes on that long. -/
def walkAfter (archive : Bytes) : Nat → Option Walk
  | 0 => some {}
  | n + 1 => (walkAfter archive n).bind fun w =>
      if w.HasHeader archive then
        (iterate archive w).bind fun (it, next) => if it.name = TRAILER then none else some next
      else none

end EinkLab.RecoveryImage
