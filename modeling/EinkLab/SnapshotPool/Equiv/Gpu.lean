import EinkLab.SnapshotPool.Equiv.Ownership
import EinkLab.SnapshotPool.Gpu

/-!
# The GPU pool refines the portable pool

In every run, with calls of `TryCopy` in flight at once and any snapshot handed back, the slots are
those of the portable pool along the corresponding operations (`gpu_refines`).  The invariant is
that each copy in flight owns a slot of its own, which nothing but the copy's end changes.
-/

namespace EinkLab.GpuSnapshotPool

open Transition SnapshotPool

variable {β φ : Type} {p : GpuSnapshotPool β} {s : State β} {c : Copy β} {index : Nat}
  {slot : Slot β}
  {log : List (Event β φ)}

/-! ### The portable pool under the GPU pool -/

theorem toPool_setSlot (p : GpuSnapshotPool β) (index : Nat) (slot : Slot β) :
    (p.setSlot index slot).toPool = p.toPool.setSlot index slot.toSlot := by
  simp [toPool, setSlot, SnapshotPool.setSlot, List.map_set]

theorem toPool_getElem? (hslot : p.slots[index]? = some slot) :
    p.toPool.slots[index]? = some slot.toSlot := by
  simp [toPool, hslot]

/-- A reservation is the portable pool's acquisition. -/
theorem reserve_cases (p : GpuSnapshotPool β) (source : Source) :
    (p.reserve source = (none, { p with drops := p.drops + 1 }) ∧
        p.toPool.tryAcquire =
          (none, ({ p with drops := p.drops + 1 } : GpuSnapshotPool β).toPool)) ∨
      ∃ index slot, ∃ c : Copy β, p.slots[index]? = some slot ∧ slot.state = .free ∧
        c.slot = index ∧ c.generation = nextGeneration slot.generation ∧
        c.destinationBuffer = slot.buffer ∧
        p.reserve source = (some c, p.setSlot index
          { slot with state := .copying, generation := nextGeneration slot.generation }) ∧
        p.toPool.tryAcquire = (some c.lease, (p.setSlot index
          { slot with
          state := .copying, generation := nextGeneration slot.generation }).toPool) := by
  have hmap : p.toPool.slots.findIdx? (fun slot => decide (slot.state = .free)) =
      p.slots.findIdx? fun slot => decide (slot.state = .free) := List.findIdx?_map ..
  unfold reserve tryAcquire
  rw [hmap]
  cases hfind : p.slots.findIdx? (fun slot => decide (slot.state = .free)) with
  | none => exact Or.inl ⟨rfl, rfl⟩
  | some index =>
    obtain ⟨hlt, hfree, -⟩ := List.findIdx?_eq_some_iff_getElem.mp hfind
    have hslot : p.slots[index]? = some p.slots[index] := List.getElem?_eq_getElem hlt
    refine Or.inr ⟨index, p.slots[index], ⟨source, index, nextGeneration p.slots[index].generation,
      p.slots[index].width, p.slots[index].height, p.slots[index].buffer⟩, hslot,
      of_decide_eq_true hfree, rfl, rfl, rfl, ?_, ?_⟩
    · simp only [hslot]
    · simp only [toPool_getElem? hslot, toPool_setSlot, Copy.lease]

/-- A copy owns a slot of the pool. -/
def Owns (p : GpuSnapshotPool β) (c : Copy β) (slot : Slot β) : Prop :=
  p.slots[c.slot]? = some slot ∧ slot.state = .copying ∧ slot.generation = c.generation ∧
    slot.buffer = c.destinationBuffer

theorem Owns.reserved (h : Owns p c slot) : p.reserved c = some slot := by
  obtain ⟨hslot, hstate, hgeneration, -⟩ := h
  simp [GpuSnapshotPool.reserved, hslot, hstate, hgeneration]

/-- The end of a copy that owns its slot: it fails and frees it, or it hands it over. -/
theorem Owns.finish_cases (h : Owns p c slot) (drawn : Option φ) :
    p.finish c drawn = (none, (p.setSlot c.slot { slot with state := .free }).failSubmission) ∨
      ∃ fence : φ, p.finish c drawn =
        (some ⟨c.slot, c.generation, some c.destinationBuffer, some fence⟩,
          p.setSlot c.slot { slot with state := .converting }) := by
  have habort : p.abort c = (p.setSlot c.slot { slot with state := .free }).failSubmission := by
    rw [abort, h.reserved]
  unfold finish
  split
  · exact Or.inl (congrArg (Prod.mk none) habort)
  · cases drawn with
    | none => exact Or.inl (congrArg (Prod.mk none) habort)
    | some fence =>
      refine Or.inr ⟨fence, ?_⟩
      rw [h.reserved]

theorem releaseAfterConversion_cases (p : GpuSnapshotPool β) (snapshot : GpuSnapshot β φ) :
    (p.releaseAfterConversion snapshot = (false, p) ∧
        ∀ slot, p.slots[snapshot.slot]? = some slot →
          slot.state ≠ .converting ∨ slot.generation ≠ snapshot.generation) ∨
      ∃ slot, p.slots[snapshot.slot]? = some slot ∧ slot.state = .converting ∧
        slot.generation = snapshot.generation ∧
        p.releaseAfterConversion snapshot =
          (true, p.setSlot snapshot.slot { slot with state := .free }) := by
  unfold releaseAfterConversion
  cases hslot : p.slots[snapshot.slot]? with
  | none => exact Or.inl ⟨rfl, fun slot hsome => by cases hsome⟩
  | some slot =>
    dsimp only
    split
    · next hstale =>
      refine Or.inl ⟨rfl, ?_⟩
      rintro slot' heq
      obtain rfl := Option.some.inj heq
      exact hstale
    · next hcurrent =>
      obtain ⟨hstate, hgeneration⟩ := not_or.mp hcurrent
      exact Or.inr ⟨slot, rfl, not_not.mp hstate, not_not.mp hgeneration, rfl⟩

theorem slots_setSlot (p : GpuSnapshotPool β) (index : Nat) (slot : Slot β) :
    (p.setSlot index slot).slots = p.slots.set index slot := rfl

theorem Owns.of_ne {new : Slot β} (h : Owns p c slot) {old : Slot β}
    (hold : p.slots[index]? = some old) (hne : index ≠ c.slot) :
    Owns (p.setSlot index new) c slot := by
  refine ⟨?_, h.2⟩
  rw [slots_setSlot, getElem?_set_of_getElem? hold, if_neg hne]
  exact h.1

/-! ### The invariant -/

/-- Each copy in flight owns a slot of its own, and nothing else has a slot being copied into. -/
structure Owned (p₀ : GpuSnapshotPool β) (s : State β) : Prop where
  buffers : s.pool.slots.map (fun slot => slot.buffer) = p₀.slots.map fun slot => slot.buffer
  owns : ∀ c ∈ s.copies, ∃ slot, Owns s.pool c slot
  slots : (s.copies.map Copy.slot).Nodup
  covered : ∀ index slot, s.pool.slots[index]? = some slot → slot.state = .copying →
    ∃ c ∈ s.copies, c.slot = index

theorem Owns.unique (h : Owns p c slot) {slot' : Slot β} (hslot : p.slots[c.slot]? = some slot') :
    slot' = slot :=
  Option.some.inj (hslot.symm.trans h.1)

namespace Owned

variable {p₀ : GpuSnapshotPool β}

/-- Only the slots matter. -/
theorem of_slots (h : Owned p₀ s) {p : GpuSnapshotPool β} (hslots : p.slots = s.pool.slots) :
    Owned p₀ { s with pool := p } := by
  refine ⟨hslots ▸ h.buffers, ?_, h.slots, fun index slot hslot =>
    h.covered index slot (hslots ▸ hslot)⟩
  intro c hc
  obtain ⟨slot, hslot, hrest⟩ := h.owns c hc
  exact ⟨slot, hslots ▸ hslot, hrest⟩

/-- A slot that no copy owns starts to be copied into. -/
theorem reserve (h : Owned p₀ s) (hslot : s.pool.slots[index]? = some slot)
    (hfree : slot.state = .free) (hc : c.slot = index)
    (hgeneration : c.generation = nextGeneration slot.generation)
    (hbuffer : c.destinationBuffer = slot.buffer) :
    Owned p₀ ⟨s.pool.setSlot index
      { slot with
      state := .copying, generation := nextGeneration slot.generation }, c :: s.copies⟩ := by
  have hother : ∀ c' ∈ s.copies, index ≠ c'.slot := by
    rintro c' hc' rfl
    obtain ⟨slot', howns⟩ := h.owns c' hc'
    obtain rfl := howns.unique hslot
    have hstate := howns.2.1
    rw [hfree] at hstate
    cases hstate
  refine ⟨(map_set_of_getElem? (fun slot : Slot β => slot.buffer) hslot _ (by rfl)).trans h.buffers,
    ?_, ?_, ?_⟩
  · intro c' hc'
    rcases List.mem_cons.mp hc' with rfl | hc'
    · have hnew := getElem?_set_of_getElem? hslot
        { slot with state := .copying, generation := nextGeneration slot.generation } c'.slot
      rw [if_pos hc.symm] at hnew
      exact ⟨_, hnew, rfl, hgeneration.symm, hbuffer.symm⟩
    · obtain ⟨slot', howns⟩ := h.owns c' hc'
      exact ⟨slot', howns.of_ne hslot (hother c' hc')⟩
  · refine List.nodup_cons.mpr ⟨?_, h.slots⟩
    intro hmem
    obtain ⟨c', hc', heq⟩ := List.mem_map.mp hmem
    exact hother c' hc' (hc.symm.trans heq.symm)
  · intro i slot' hslot' hstate
    rw [slots_setSlot, getElem?_set_of_getElem? hslot] at hslot'
    split at hslot'
    · next heq => exact ⟨c, List.mem_cons_self, hc.trans heq⟩
    · obtain ⟨c', hc', hindex⟩ := h.covered i slot' hslot' hstate
      exact ⟨c', List.mem_cons_of_mem _ hc', hindex⟩

/-- A slot that is converted from is freed. -/
theorem release (h : Owned p₀ s) (hslot : s.pool.slots[index]? = some slot)
    (hconverting : slot.state = .converting) :
    Owned p₀ { s with pool := s.pool.setSlot index { slot with state := .free } } := by
  have hother : ∀ c ∈ s.copies, index ≠ c.slot := by
    rintro c hc rfl
    obtain ⟨slot', howns⟩ := h.owns c hc
    obtain rfl := howns.unique hslot
    have hstate := howns.2.1
    rw [hconverting] at hstate
    cases hstate
  refine ⟨(map_set_of_getElem? (fun slot : Slot β => slot.buffer) hslot _ (by rfl)).trans h.buffers,
    ?_, h.slots, ?_⟩
  · intro c hc
    obtain ⟨slot', howns⟩ := h.owns c hc
    exact ⟨slot', howns.of_ne hslot (hother c hc)⟩
  · intro i slot' hslot' hstate
    rw [slots_setSlot, getElem?_set_of_getElem? hslot] at hslot'
    split at hslot'
    · obtain rfl := Option.some.inj hslot'
      cases hstate
    · exact h.covered i slot' hslot' hstate

/-- The slot of a copy goes to another state when the copy ends. -/
theorem finish [DecidableEq β] (h : Owned p₀ s) (hc : c ∈ s.copies) (howns : Owns s.pool c slot)
    {next : SlotState}
    (hnext : next ≠ .copying) :
    Owned p₀ ⟨s.pool.setSlot c.slot { slot with state := next }, s.copies.erase c⟩ := by
  have hnodup : s.copies.Nodup := List.Nodup.of_map _ h.slots
  have hother : ∀ c' ∈ s.copies.erase c, c.slot ≠ c'.slot := by
    intro c' hc' heq
    have hmem := List.mem_of_mem_erase hc'
    obtain rfl := List.inj_on_of_nodup_map h.slots hc hmem heq
    exact absurd hc' (List.Nodup.not_mem_erase hnodup)
  refine ⟨(map_set_of_getElem? (fun slot : Slot β => slot.buffer) howns.1 _
    (by rfl)).trans h.buffers, ?_, ?_, ?_⟩
  · intro c' hc'
    obtain ⟨slot', howns'⟩ := h.owns c' (List.mem_of_mem_erase hc')
    exact ⟨slot', howns'.of_ne howns.1 (hother c' hc')⟩
  · exact h.slots.sublist (List.erase_sublist.map _)
  · intro i slot' hslot' hstate
    rw [slots_setSlot, getElem?_set_of_getElem? howns.1] at hslot'
    split at hslot'
    · obtain rfl := Option.some.inj hslot'
      exact absurd hstate hnext
    · next hne =>
      obtain ⟨c', hc', hindex⟩ := h.covered i slot' hslot' hstate
      have hdifferent : c' ≠ c := by
        rintro rfl
        exact hne hindex
      exact ⟨c', (List.mem_erase_of_ne hdifferent).mpr hc', hindex⟩

end Owned

theorem ownLease_eq (h : Owned p₀ s) (hslot : s.pool.slots[index]? = some slot) :
    p₀.slots[index]?.map (fun slot => slot.buffer) = some slot.buffer := by
  have hbuffers := congrArg (fun buffers => buffers[index]?) h.buffers
  simp only [List.getElem?_map, hslot] at hbuffers
  exact hbuffers.symm

theorem owned_of_free (hfree : ∀ slot ∈ p.slots, slot.state = .free) : Owned p ⟨p, []⟩ := by
  refine ⟨rfl, by simp, List.nodup_nil, ?_⟩
  intro index slot hslot hstate
  have hno := hfree slot (List.mem_of_getElem? hslot)
  rw [hstate] at hno
  cases hno

/-- `Create` makes the portable pool over the same allocations, all of whose slots are free. -/
theorem create_eq {width height : Nat} {allocations : List (Option β)}
    (h : create width height allocations = some p) :
    p.toPool = SnapshotPool.create allocations ∧ (∀ slot ∈ p.slots, slot.state = .free) ∧
      p.drops = 0 ∧ p.failedSubmissions = 0 := by
  unfold create at h
  split at h
  · cases h
  · obtain ⟨buffers, hbuffers, rfl⟩ := Option.map_eq_some_iff.mp h
    refine ⟨?_, ?_, rfl, rfl⟩
    · simp [toPool, SnapshotPool.create, hbuffers]
    · intro slot hslot
      obtain ⟨buffer, -, rfl⟩ := List.mem_map.mp hslot
      rfl

/-! ### The corresponding run -/

variable [DecidableEq β]

/-- A lease that matches moves its slot. -/
theorem transfer_of_matches (lease : SnapshotLease β) {expected : SlotState} (next : SlotState)
    (hslot : p.slots[lease.slot]? = some slot) (hbuffer : lease.buffer = some slot.buffer)
    (hgeneration : slot.generation = lease.generation) (hstate : slot.state = expected) :
    p.toPool.transfer lease expected next =
      (true, (p.setSlot lease.slot { slot with state := next }).toPool) := by
  have hmatched : p.toPool.matched lease expected = some slot.toSlot := by
    rw [matched, toPool_getElem? hslot, Option.filter_eq_some_iff]
    exact ⟨rfl, by simp [hbuffer, hgeneration, hstate]⟩
  rw [transfer, hmatched, toPool_setSlot]

/-- A lease that does not match moves nothing. -/
theorem transfer_of_not (lease : SnapshotLease β) {expected : SlotState} (next : SlotState)
    (h : ∀ slot, p.slots[lease.slot]? = some slot →
      slot.state ≠ expected ∨ slot.generation ≠ lease.generation) :
    p.toPool.transfer lease expected next = (false, p.toPool) := by
  rcases transfer_cases p.toPool lease expected next with heq |
    ⟨slot, hslot, -, hgeneration, hstate, -⟩
  · exact heq
  · simp only [toPool, List.getElem?_map, Option.map_eq_some_iff] at hslot
    obtain ⟨slot', hslot', rfl⟩ := hslot
    rcases h slot' hslot' with hother | hother
    · exact absurd hstate hother
    · exact absurd hgeneration hother

/-- The calls that returned null. -/
def isDropped : Event β φ → Bool
  | .dropped => true
  | _ => false

def isFailed : Event β φ → Bool
  | .rejected | .failed _ => true
  | _ => false

/-- The state and the log of a run, and the run of the portable pool that corresponds. -/
structure Refined (p₀ : GpuSnapshotPool β) (log : List (Event β φ)) (s : State β) : Prop where
  run : SnapshotPool.system.Run System.anyAction p₀.toPool (log.flatMap (trace p₀.ownLease))
    (log.flatMap (portableEvents p₀.ownLease)) s.pool.toPool
  owned : Owned p₀ s
  returned : ∀ snapshot, .returned snapshot ∈ log →
    p₀.ownLease snapshot = GpuSnapshot.lease snapshot
  drops : s.pool.drops = p₀.drops + log.countP isDropped
  failedSubmissions : s.pool.failedSubmissions = p₀.failedSubmissions + log.countP isFailed

namespace Refined

variable {p₀ : GpuSnapshotPool β} {s' : State β} {e : Event β φ}

/-- One more stretch, and the operation of the portable pool for it. -/
theorem snoc (h : Refined p₀ log s)
    (hrun : SnapshotPool.system.Run System.anyAction s.pool.toPool (trace p₀.ownLease e)
      (portableEvents p₀.ownLease e) s'.pool.toPool)
    (howned : Owned p₀ s')
    (hreturned : ∀ snapshot, e = .returned snapshot →
      p₀.ownLease snapshot = GpuSnapshot.lease snapshot)
    (hdrops : s'.pool.drops = s.pool.drops + if isDropped e then 1 else 0)
    (hfailed : s'.pool.failedSubmissions = s.pool.failedSubmissions + if isFailed e then 1 else 0) :
    Refined p₀ (log ++ [e]) s' := by
  refine ⟨?_, howned, ?_, ?_, ?_⟩
  · rw [List.flatMap_append, List.flatMap_append, List.flatMap_singleton, List.flatMap_singleton]
    exact h.run.trans hrun
  · intro snapshot hmem
    rcases List.mem_append.mp hmem with hmem | hmem
    · exact h.returned snapshot hmem
    · exact hreturned snapshot (List.mem_singleton.mp hmem).symm
  · rw [hdrops, h.drops, List.countP_append, List.countP_singleton, Nat.add_assoc]
  · rw [hfailed, h.failedSubmissions, List.countP_append, List.countP_singleton, Nat.add_assoc]

theorem tryCopy (h : Refined p₀ log s) (source : Source) :
    Refined p₀ (log ++ (GpuSnapshotPool.tryCopy s source).2)
      (GpuSnapshotPool.tryCopy s source : State β × List (Event β φ)).1 := by
  rcases reserve_cases s.pool source with ⟨hreserve, hacquire⟩ |
    ⟨index, slot, c, hslot, hfree, hc, hgeneration, hbuffer, hreserve, hacquire⟩
  · have hstep := congrArg (fun r => some (r.2, r.1.toList.map SnapshotPool.Event.acquired))
      hacquire
    simp only [GpuSnapshotPool.tryCopy, hreserve]
    exact h.snoc (.single trivial hstep) (h.owned.of_slots rfl) (fun _ hno => by cases hno) rfl rfl
  · have hstep := congrArg (fun r => some (r.2, r.1.toList.map SnapshotPool.Event.acquired))
      hacquire
    simp only [GpuSnapshotPool.tryCopy, hreserve]
    exact h.snoc (.single trivial hstep) (h.owned.reserve hslot hfree hc hgeneration hbuffer)
      (fun _ hno => by cases hno) rfl rfl

theorem finishCopy (h : Refined p₀ log s) (hc : c ∈ s.copies) (drawn : Option φ) :
    Refined p₀ (log ++ (GpuSnapshotPool.finishCopy s c drawn).2)
      (GpuSnapshotPool.finishCopy s c drawn).1 := by
  obtain ⟨slot, howns⟩ := h.owned.owns c hc
  obtain ⟨hslot, hstate, hgeneration, hbuffer⟩ := howns
  have hlease : c.lease.buffer = some slot.buffer := congrArg some hbuffer.symm
  rcases Owns.finish_cases ⟨hslot, hstate, hgeneration, hbuffer⟩ drawn with heq | ⟨fence, heq⟩
  · have htransfer := transfer_of_matches c.lease .free hslot hlease hgeneration hstate
    have hstep := congrArg (fun r => some (r.2, releasedEvents c.lease r.1)) htransfer
    simp only [GpuSnapshotPool.finishCopy, heq]
    exact h.snoc (.single trivial hstep)
      ((h.owned.finish hc ⟨hslot, hstate, hgeneration, hbuffer⟩ (by decide)).of_slots rfl)
      (fun _ hno => by cases hno) rfl rfl
  · have htransfer := transfer_of_matches c.lease .converting hslot hlease hgeneration hstate
    have hstep := congrArg (fun r => some (r.2, ([] : List (SnapshotPool.Event β)))) htransfer
    simp only [GpuSnapshotPool.finishCopy, heq]
    refine h.snoc (.single trivial hstep)
      (h.owned.finish hc ⟨hslot, hstate, hgeneration, hbuffer⟩ (by decide)) ?_ rfl rfl
    rintro snapshot hreturned
    obtain rfl := Event.returned.inj hreturned
    simp [ownLease, GpuSnapshot.lease, ownLease_eq h.owned hslot, hbuffer]

theorem release (h : Refined p₀ log s) (snapshot : GpuSnapshot β φ) :
    Refined p₀ (log ++ [.released snapshot (s.pool.releaseAfterConversion snapshot).1])
      { s with pool := (s.pool.releaseAfterConversion snapshot).2 } := by
  rcases releaseAfterConversion_cases s.pool snapshot with ⟨heq, hstale⟩ |
    ⟨slot, hslot, hstate, hgeneration, heq⟩
  · have htransfer := transfer_of_not (p₀.ownLease snapshot) .free hstale
    have hstep := congrArg (fun r => some (r.2, releasedEvents (p₀.ownLease snapshot) r.1))
      htransfer
    rw [heq]
    exact h.snoc (.single trivial hstep) h.owned (fun _ hno => by cases hno) rfl rfl
  · have htransfer := transfer_of_matches (p₀.ownLease snapshot) .free hslot
      (ownLease_eq h.owned hslot) hgeneration hstate
    have hstep := congrArg (fun r => some (r.2, releasedEvents (p₀.ownLease snapshot) r.1))
      htransfer
    rw [heq]
    exact h.snoc (.single trivial hstep) (h.owned.release hslot hstate)
      (fun _ hno => by cases hno) rfl rfl

theorem rejected (h : Refined p₀ log s) :
    Refined p₀ (log ++ [.rejected]) { s with pool := s.pool.failSubmission } :=
  h.snoc .nil (h.owned.of_slots rfl) (fun _ hno => by cases hno) rfl rfl

end Refined

/-- **The GPU pool refines the portable pool**: along every run its slots, generations and drops are
those of the portable pool, a release being that of the lease with the snapshot's slot and
generation and the slot's own buffer.  A slot is being copied into exactly while its copy is in
flight, each failed call is counted once, and a stale release changes nothing. -/
theorem gpu_refines {width height : Nat} {allocations : List (Option β)} {p₀ : GpuSnapshotPool β}
    {actions : List (Action β φ)} (hcreate : create width height allocations = some p₀)
    (h : system.Run System.anyAction ⟨p₀, []⟩ actions log s) :
    SnapshotPool.system.Run System.anyAction (SnapshotPool.create allocations)
        (log.flatMap (trace p₀.ownLease)) (log.flatMap (portableEvents p₀.ownLease)) s.pool.toPool ∧
      (∀ snapshot, .returned snapshot ∈ log →
        p₀.ownLease snapshot = GpuSnapshot.lease snapshot) ∧
      ((s.copies.map Copy.slot).Nodup ∧ ∀ index slot, s.pool.slots[index]? = some slot →
        (slot.state = .copying ↔ ∃ c ∈ s.copies, c.slot = index)) ∧
      (s.pool.drops = log.countP isDropped ∧ s.pool.failedSubmissions = log.countP isFailed) ∧
      ∀ snapshot : GpuSnapshot β φ,
        (∀ slot, s.pool.slots[snapshot.slot]? = some slot →
          slot.state ≠ .converting ∨ slot.generation ≠ snapshot.generation) →
          s.pool.releaseAfterConversion snapshot = (false, s.pool) := by
  obtain ⟨hpool, hfree, hdrops, hfailed⟩ := create_eq hcreate
  have hrefined : Refined p₀ log s := by
    refine h.induct (fun _ log s => Refined p₀ log s) ?_ ?_
    · exact ⟨.nil, owned_of_free hfree, by simp, rfl, rfl⟩
    · intro _ log s a s' es hi _ hstep
      cases a with
      | tryCopy source =>
        simp only [system, step] at hstep
        split at hstep
        · obtain ⟨rfl, rfl⟩ := Prod.mk.inj (Option.some.inj hstep)
          exact hi.rejected
        · next source' _ =>
          obtain ⟨rfl, rfl⟩ := Prod.mk.inj (Option.some.inj hstep)
          exact hi.tryCopy source'
      | finishCopy c drawn =>
        simp only [system, step] at hstep
        -- only a copy that is under way can be finished
        split at hstep
        · next hc =>
          obtain ⟨rfl, rfl⟩ := Prod.mk.inj (Option.some.inj hstep)
          exact hi.finishCopy hc drawn
        · cases hstep
      | releaseAfterConversion snapshot =>
        obtain ⟨rfl, rfl⟩ := Prod.mk.inj (Option.some.inj hstep)
        exact hi.release snapshot
  refine ⟨hpool ▸ hrefined.run, hrefined.returned, ⟨hrefined.owned.slots, ?_⟩, ⟨?_, ?_⟩, ?_⟩
  · intro index slot hslot
    refine ⟨hrefined.owned.covered index slot hslot, ?_⟩
    rintro ⟨c, hc, rfl⟩
    obtain ⟨slot', howns⟩ := hrefined.owned.owns c hc
    exact howns.unique hslot ▸ howns.2.1
  · rw [hrefined.drops, hdrops, Nat.zero_add]
  · rw [hrefined.failedSubmissions, hfailed, Nat.zero_add]
  · intro snapshot hstale
    rcases releaseAfterConversion_cases s.pool snapshot with ⟨heq, -⟩ |
      ⟨slot, hslot, hstate, hgeneration, -⟩
    · exact heq
    · rcases hstale slot hslot with hno | hno
      · exact absurd hstate hno
      · exact absurd hgeneration hno

/-- A copy of a picture of two by two pixels into a slot. -/
def copying (slot generation buffer : Nat) : Copy Nat :=
    ⟨⟨2, 2, false⟩, slot, generation, 2, 2, buffer⟩

/-- Two copies at once, of which the first fails; its slot is copied into again, and the snapshot
that it would have been is handed back in vain. -/
def interleaved : List (Action Nat Nat) :=
  [.tryCopy (some ⟨2, 2, false⟩), .tryCopy (some ⟨2, 2, false⟩), .finishCopy (copying 0 1 7) none,
    .tryCopy (some ⟨2, 2, false⟩), .finishCopy (copying 1 1 8) (some 5),
    .finishCopy (copying 0 2 7) (some 6), .releaseAfterConversion ⟨0, 1, some 7, none⟩,
    .releaseAfterConversion ⟨1, 1, none, none⟩]

theorem gpu_refines_interleaved :
    SnapshotPool.system.Run System.anyAction (SnapshotPool.create [some 7, some 8])
        [.tryAcquire, .tryAcquire, .abortCopy ⟨0, 1, some 7⟩, .tryAcquire,
          .handOffToConverter ⟨1, 1, some 8⟩, .handOffToConverter ⟨0, 2, some 7⟩,
          .releaseAfterConversion ⟨0, 1, some 7⟩, .releaseAfterConversion ⟨1, 1, some 8⟩]
        [.acquired ⟨0, 1, some 7⟩, .acquired ⟨1, 1, some 8⟩, .released ⟨0, 1, some 7⟩,
          .acquired ⟨0, 2, some 7⟩, .released ⟨1, 1, some 8⟩]
        ⟨[⟨7, .converting, 2⟩, ⟨8, .free, 1⟩], 0⟩ := by
  obtain ⟨log, s, hrun, hlog, hpool⟩ : ∃ log s,
      system.Run System.anyAction
        ⟨⟨[{ buffer := 7, width := 2, height := 2 },
          { buffer := 8, width := 2, height := 2 }], 0, 0⟩,
          []⟩ interleaved log s ∧
      log = [.reserved ⟨0, 1, some 7⟩, .reserved ⟨1, 1, some 8⟩, .failed ⟨0, 1, some 7⟩,
        .reserved ⟨0, 2, some 7⟩, .returned ⟨1, 1, some 8, some 5⟩,
        .returned ⟨0, 2, some 7, some 6⟩, .released ⟨0, 1, some 7, none⟩ false,
        .released ⟨1, 1, none, none⟩ true] ∧
      s.pool.toPool = ⟨[⟨7, .converting, 2⟩, ⟨8, .free, 1⟩], 0⟩ :=
    ⟨_, _, System.Run.of_exec rfl, rfl, rfl⟩
  have hcreate : create 2 2 [some 7, some 8] = some
      ⟨[{ buffer := 7, width := 2, height := 2 }, { buffer := 8, width := 2, height := 2 }],
        0, 0⟩ :=
    rfl
  have hportable := (gpu_refines hcreate hrun).1
  rw [hlog, hpool] at hportable
  exact hportable

/-- A snapshot without its buffer is released all the same, and the portable pool would refuse
it. -/
theorem not_forall_gpu_refines :
    ¬∀ (width height : Nat) (allocations : List (Option Nat)) (p₀ : GpuSnapshotPool Nat)
      (actions : List (Action Nat Nat)) (log : List (Event Nat Nat)) (s : State Nat),
      create width height allocations = some p₀ →
        system.Run System.anyAction ⟨p₀, []⟩ actions log s →
          SnapshotPool.system.Run System.anyAction (SnapshotPool.create allocations)
            (log.flatMap (trace GpuSnapshot.lease)) (log.flatMap (portableEvents GpuSnapshot.lease))
            s.pool.toPool := by
  intro h
  have hrun : system.Run System.anyAction
      ⟨⟨[{ buffer := 7, width := 2, height := 2 }], 0, 0⟩, []⟩
      [.tryCopy (some ⟨2, 2, false⟩), .finishCopy (copying 0 1 7) (some 5),
        .releaseAfterConversion ⟨0, 1, none, none⟩]
      [.reserved ⟨0, 1, some 7⟩, .returned ⟨0, 1, some 7, some 5⟩,
        .released ⟨0, 1, none, none⟩ true]
      ⟨⟨[{ buffer := 7, generation := 1, width := 2, height := 2 }], 0, 0⟩, []⟩ :=
    System.Run.of_exec rfl
  have hportable : SnapshotPool.system.Run System.anyAction (SnapshotPool.create [some 7])
      [.tryAcquire, .handOffToConverter ⟨0, 1, some 7⟩, .releaseAfterConversion ⟨0, 1, none⟩]
      [.acquired ⟨0, 1, some 7⟩] ⟨[⟨7, .converting, 1⟩], 0⟩ := System.Run.of_exec rfl
  have hsame := (h 2 2 [some 7] _ _ _ _ rfl hrun).unique hportable
  exact absurd hsame.2 (by decide)

end EinkLab.GpuSnapshotPool
