import EinkLab.SnapshotPool.Basic

/-!
# The GPU snapshot pool

`GpuSnapshotPool` (`gpu_snapshot_pool.cpp`), the implementation of the portable pool's contract.
`TryCopy` holds the mutex when it reserves a slot and again when it ends, and not while the GPU
draws; between the two stretches the call is a `Copy` in flight, and other calls come in between.  A
draw gives a fence or fails.
-/

namespace EinkLab

open Transition

/-- `GpuSnapshotPool::Snapshot`; a null buffer or fence is `none`. -/
structure GpuSnapshot (β φ : Type) where
  slot : Nat := 0
  generation : Nat := 0
  buffer : Option β := none
  readyFence : Option φ := none
  deriving DecidableEq, Repr

namespace GpuSnapshotPool

/-- The source texture, and whether the usage of its buffer is protected. -/
structure Source where
  width : Nat
  height : Nat
  usageProtected : Bool := false
  deriving DecidableEq, Repr

/-- A slot has a destination texture as well. -/
structure Slot (β : Type) extends SnapshotPool.Slot β where
  width : Nat
  height : Nat
  deriving DecidableEq, Repr

/-- The locals of a `TryCopy` that has reserved a slot. -/
structure Copy (β : Type) where
  source : Source
  slot : Nat
  generation : Nat
  destinationWidth : Nat
  destinationHeight : Nat
  destinationBuffer : β
  deriving DecidableEq, Repr

end GpuSnapshotPool

open SnapshotPool (SlotState nextGeneration)

structure GpuSnapshotPool (β : Type) where
  slots : List (GpuSnapshotPool.Slot β)
  drops : Nat := 0
  failedSubmissions : Nat := 0
  deriving DecidableEq, Repr

namespace GpuSnapshotPool

variable {β φ : Type}

/-- `Create`; an allocation that failed is `none`. -/
def create (width height : Nat) (allocations : List (Option β)) : Option (GpuSnapshotPool β) :=
  if width = 0 ∨ height = 0 ∨ allocations = [] then none
  else
    (allocations.mapM id).map fun buffers =>
      { slots := buffers.map fun buffer => { buffer := buffer, width := width, height := height } }

def setSlot (p : GpuSnapshotPool β) (index : Nat) (slot : Slot β) : GpuSnapshotPool β :=
  { p with slots := p.slots.set index slot }

/-! ### `TryCopy` -/

def usable (source : Source) : Bool :=
  !(source.width = 0 || source.height = 0 || source.usageProtected)

def failSubmission (p : GpuSnapshotPool β) : GpuSnapshotPool β :=
  { p with failedSubmissions := p.failedSubmissions + 1 }

/-- The first free slot starts a new generation. -/
def reserve (p : GpuSnapshotPool β) (source : Source) : Option (Copy β) × GpuSnapshotPool β :=
  match p.slots.findIdx? (fun slot => slot.state = .free) with
  | none => (none, { p with drops := p.drops + 1 })
  | some index =>
    match p.slots[index]? with
    -- `findIdx?` gives an index in range
    | none => (none, p)
    | some slot =>
      let generation := nextGeneration slot.generation
      (some ⟨source, index, generation, slot.width, slot.height, slot.buffer⟩,
        p.setSlot index { slot with state := .copying, generation := generation })

/-- The slot of the copy, while it is the copy's. -/
def reserved (p : GpuSnapshotPool β) (c : Copy β) : Option (Slot β) :=
  p.slots[c.slot]?.filter fun slot => slot.state = .copying && slot.generation = c.generation

/-- The two failure exits: the reservation is undone. -/
def abort (p : GpuSnapshotPool β) (c : Copy β) : GpuSnapshotPool β :=
  match p.reserved c with
  | none => p.failSubmission
  | some slot => (p.setSlot c.slot { slot with state := .free }).failSubmission

/-- What follows the reservation: the comparison of the sizes, the draw and its fence. -/
def finish (p : GpuSnapshotPool β) (c : Copy β) (drawn : Option φ) :
    Option (GpuSnapshot β φ) × GpuSnapshotPool β :=
  if c.destinationWidth ≠ c.source.width ∨ c.destinationHeight ≠ c.source.height then
    (none, p.abort c)
  else
    match drawn with
    | none => (none, p.abort c)
    | some fence =>
      match p.reserved c with
      | none => (none, p.failSubmission)
      | some slot =>
        (some ⟨c.slot, c.generation, some c.destinationBuffer, some fence⟩,
          p.setSlot c.slot { slot with state := .converting })

/-- The buffer of the snapshot is not looked at. -/
def releaseAfterConversion (p : GpuSnapshotPool β) (snapshot : GpuSnapshot β φ) :
    Bool × GpuSnapshotPool β :=
  match p.slots[snapshot.slot]? with
  | none => (false, p)
  | some slot =>
    if slot.state ≠ .converting ∨ slot.generation ≠ snapshot.generation then (false, p)
    else (true, p.setSlot snapshot.slot { slot with state := .free })

/-! ### The pool as a labelled system -/

/-- The pool, and the calls of `TryCopy` that have reserved a slot and not ended. -/
structure State (β : Type) where
  pool : GpuSnapshotPool β
  copies : List (Copy β) := []
  deriving DecidableEq, Repr

inductive Action (β φ : Type)
  | tryCopy (source : Option Source)
  | finishCopy (c : Copy β) (drawn : Option φ)
  | releaseAfterConversion (snapshot : GpuSnapshot β φ)
  deriving DecidableEq, Repr

def Copy.lease (c : Copy β) : SnapshotLease β := ⟨c.slot, c.generation, some c.destinationBuffer⟩

/-- What a stretch of a call comes to. -/
inductive Event (β φ : Type)
  /-- `TryCopy` returned null for its source. -/
  | rejected
  /-- `TryCopy` returned null, as no slot is free. -/
  | dropped
  | reserved (lease : SnapshotLease β)
  /-- `TryCopy` returned null after it had reserved a slot. -/
  | failed (lease : SnapshotLease β)
  /-- `TryCopy` returned a snapshot. -/
  | returned (snapshot : GpuSnapshot β φ)
  | released (snapshot : GpuSnapshot β φ) (result : Bool)
  deriving DecidableEq, Repr

def tryCopy (s : State β) (source : Source) : State β × List (Event β φ) :=
  match s.pool.reserve source with
  | (none, p) => ({ s with pool := p }, [.dropped])
  | (some c, p) => (⟨p, c :: s.copies⟩, [.reserved c.lease])

def finishCopy [DecidableEq β] (s : State β) (c : Copy β) (drawn : Option φ) :
    State β × List (Event β φ) :=
  match s.pool.finish c drawn with
  | (none, p) => (⟨p, s.copies.erase c⟩, [.failed c.lease])
  | (some snapshot, p) => (⟨p, s.copies.erase c⟩, [.returned snapshot])

def step [DecidableEq β] (s : State β) : Action β φ → Option (State β × List (Event β φ))
  | .tryCopy source =>
    match source.filter usable with
    | none => some ({ s with pool := s.pool.failSubmission }, [.rejected])
    | some source => some (tryCopy s source)
  | .finishCopy c drawn => if c ∈ s.copies then some (finishCopy s c drawn) else none
  | .releaseAfterConversion snapshot =>
    some ({ s with pool := (s.pool.releaseAfterConversion snapshot).2 },
      [.released snapshot (s.pool.releaseAfterConversion snapshot).1])

def system [DecidableEq β] : System (State β) (Action β φ) (Event β φ) where
  step := step

/-! ### The portable pool's side -/

/-- The slots and the drops as a portable pool. -/
def toPool (p : GpuSnapshotPool β) : SnapshotPool β where
  slots := p.slots.map Slot.toSlot
  dropCount := p.drops

/-- The snapshot as a lease, buffer included. -/
def GpuSnapshot.lease (snapshot : GpuSnapshot β φ) : SnapshotLease β :=
  ⟨snapshot.slot, snapshot.generation, snapshot.buffer⟩

/-- The lease with the slot and the generation of the snapshot, and the slot's own buffer. -/
def ownLease (p : GpuSnapshotPool β) (snapshot : GpuSnapshot β φ) : SnapshotLease β :=
  ⟨snapshot.slot, snapshot.generation, p.slots[snapshot.slot]?.map fun slot => slot.buffer⟩

/-- The operation of the portable pool that a stretch corresponds to, for a reading of the released
snapshots as leases. -/
def trace (leaseOf : GpuSnapshot β φ → SnapshotLease β) :
    Event β φ → List (SnapshotPool.Action β)
  | .rejected => []
  | .dropped | .reserved _ => [.tryAcquire]
  | .failed lease => [.abortCopy lease]
  | .returned snapshot => [.handOffToConverter (GpuSnapshot.lease snapshot)]
  | .released snapshot _ => [.releaseAfterConversion (leaseOf snapshot)]

/-- What the portable pool logs there. -/
def portableEvents (leaseOf : GpuSnapshot β φ → SnapshotLease β) :
    Event β φ → List (SnapshotPool.Event β)
  | .rejected | .dropped | .returned _ => []
  | .reserved lease => [.acquired lease]
  | .failed lease => [.released lease]
  | .released snapshot result => SnapshotPool.releasedEvents (leaseOf snapshot) result

end GpuSnapshotPool

end EinkLab
