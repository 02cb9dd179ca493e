import EinkLab.Transition.Run
import Mathlib.Algebra.Group.Nat.Defs

/-!
# The snapshot pool

`SnapshotPool` (`eink_snapshot_pool.cpp`): fixed copy destinations, each free, being copied into or
being converted from.  A lease names a slot, the slot's generation and its buffer, and every
operation but `TryAcquire` compares all three.  Each method holds the pool's mutex throughout, so
each is one step; a caller may hand in any lease value.

Buffers are compared by identity in the source, so they are elements of any type with equality.  The
generation is an unsigned 64-bit counter.
-/

namespace EinkLab

open Transition

/-- A null buffer is `none`. -/
structure SnapshotLease (β : Type) where
  slot : Nat := 0
  generation : Nat := 0
  buffer : Option β := none
  deriving DecidableEq, Repr

namespace SnapshotPool

inductive SlotState
  | free | copying | converting
  deriving DecidableEq, Repr

structure Slot (β : Type) where
  buffer : β
  state : SlotState := .free
  generation : Nat := 0
  deriving DecidableEq, Repr

end SnapshotPool

open SnapshotPool

structure SnapshotPool (β : Type) where
  slots : List (Slot β) := []
  dropCount : Nat := 0
  deriving DecidableEq, Repr

namespace SnapshotPool

variable {β : Type} [DecidableEq β]

/-- The constructor: a null buffer makes a pool without slots. -/
def create (buffers : List (Option β)) : SnapshotPool β where
  slots := ((buffers.mapM id).getD []).map fun buffer => { buffer := buffer }

def capacity (p : SnapshotPool β) : Nat := p.slots.length

def busyCount (p : SnapshotPool β) : Nat := p.slots.countP fun slot => slot.state ≠ .free

/-- `++slot.generation` -/
def nextGeneration (generation : Nat) : Nat := (generation + 1) % 2 ^ 64

def setSlot (p : SnapshotPool β) (index : Nat) (slot : Slot β) : SnapshotPool β :=
  { p with slots := p.slots.set index slot }

/-- `TryAcquire`: the first free slot starts a new generation. -/
def tryAcquire (p : SnapshotPool β) : Option (SnapshotLease β) × SnapshotPool β :=
  match p.slots.findIdx? (fun slot => slot.state = .free) with
  | none => (none, { p with dropCount := p.dropCount + 1 })
  | some index =>
    match p.slots[index]? with
    -- `findIdx?` gives an index in range
    | none => (none, p)
    | some slot =>
      let generation := nextGeneration slot.generation
      (some ⟨index, generation, some slot.buffer⟩,
        p.setSlot index { slot with state := .copying, generation := generation })

/-- `Matches`: the slot of the lease, if all it names is current and the slot is in that state. -/
def matched (p : SnapshotPool β) (lease : SnapshotLease β) (expected : SlotState) :
    Option (Slot β) :=
  p.slots[lease.slot]?.filter fun slot =>
    lease.buffer = some slot.buffer && slot.generation = lease.generation && slot.state = expected

/-- A matching lease moves its slot from one state to another. -/
def transfer (p : SnapshotPool β) (lease : SnapshotLease β) (expected next : SlotState) :
    Bool × SnapshotPool β :=
  match p.matched lease expected with
  | none => (false, p)
  | some slot => (true, p.setSlot lease.slot { slot with state := next })

def handOffToConverter (p : SnapshotPool β) (lease : SnapshotLease β) : Bool × SnapshotPool β :=
  p.transfer lease .copying .converting

def abortCopy (p : SnapshotPool β) (lease : SnapshotLease β) : Bool × SnapshotPool β :=
  p.transfer lease .copying .free

def releaseAfterConversion (p : SnapshotPool β) (lease : SnapshotLease β) :
    Bool × SnapshotPool β :=
  p.transfer lease .converting .free

/-! ### The pool as a labelled system -/

inductive Action (β : Type)
  | tryAcquire
  | handOffToConverter (lease : SnapshotLease β)
  | abortCopy (lease : SnapshotLease β)
  | releaseAfterConversion (lease : SnapshotLease β)
  deriving DecidableEq, Repr

inductive Event (β : Type)
  | acquired (lease : SnapshotLease β)
  /-- `AbortCopy` or `ReleaseAfterConversion` returned true for this lease. -/
  | released (lease : SnapshotLease β)
  deriving DecidableEq, Repr

/-- What an operation that gives a lease back logs. -/
def releasedEvents (lease : SnapshotLease β) (released : Bool) : List (Event β) :=
  if released then [.released lease] else []

def step (p : SnapshotPool β) : Action β → Option (SnapshotPool β × List (Event β))
  | .tryAcquire => some (p.tryAcquire.2, p.tryAcquire.1.toList.map .acquired)
  | .handOffToConverter lease => some ((p.handOffToConverter lease).2, [])
  | .abortCopy lease => some ((p.abortCopy lease).2, releasedEvents lease (p.abortCopy lease).1)
  | .releaseAfterConversion lease =>
    some ((p.releaseAfterConversion lease).2,
      releasedEvents lease (p.releaseAfterConversion lease).1)

def system : System (SnapshotPool β) (Action β) (Event β) where
  step := step

/-! ### Leases of a log -/

/-- The leases that have been handed out. -/
def acquiredLeases (log : List (Event β)) : List (SnapshotLease β) :=
  log.filterMap fun
    | .acquired lease => some lease
    | _ => none

/-- The leases that are live after the log, the latest first. -/
def liveLeases (log : List (Event β)) : List (SnapshotLease β) :=
  log.foldl (fun live e =>
    match e with
    | .acquired lease => lease :: live
    | .released lease => live.erase lease) []

end SnapshotPool

end EinkLab
