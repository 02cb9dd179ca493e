import EinkLab.SnapshotPool.Basic
import Mathlib.Data.List.Nodup
import Mathlib.Data.List.Count

/-!
# Leases and slots

`pool_ownership`: in every run of a pool over distinct buffers, with any lease values handed in, the
live leases have different slots and different buffers, they are counted by the busy count, only
they are accepted, and no lease is given back twice.

The invariant is `Owned`.  A slot's generation is the number of leases it has been handed out for,
which tells all of them apart as long as the 64-bit counter does not wrap around.
-/

namespace EinkLab.SnapshotPool

open Transition

/-! ### A list with one element replaced -/

section

variable {α γ : Type} {l : List α} {i : Nat} {old : α}

theorem getElem?_set_of_getElem? (h : l[i]? = some old) (new : α) (j : Nat) :
    (l.set i new)[j]? = if i = j then some new else l[j]? := by
  have hlt : i < l.length := (List.getElem?_eq_some_iff.mp h).1
  rw [List.getElem?_set, if_pos hlt]

theorem map_set_of_getElem? (f : α → γ) (h : l[i]? = some old) (new : α) (hsame : f new = f old) :
    (l.set i new).map f = l.map f := by
  obtain ⟨hlt, rfl⟩ := List.getElem?_eq_some_iff.mp h
  rw [List.map_set, hsame]
  have hlt' : i < (l.map f).length := by simpa using hlt
  have hf : f l[i] = (l.map f)[i] := by simp
  rw [hf, List.set_getElem_self]

end

variable {β : Type} {p p' : SnapshotPool β} {log : List (Event β)}
  {lease x : SnapshotLease β} {index : Nat} {slot : Slot β} {buffers : List β}

/-! ### The leases of a longer log -/

@[simp] theorem acquiredLeases_append (log log' : List (Event β)) :
    acquiredLeases (log ++ log') = acquiredLeases log ++ acquiredLeases log' :=
  List.filterMap_append

@[simp] theorem acquiredLeases_acquired (lease : SnapshotLease β) :
    acquiredLeases [.acquired lease] = [lease] := rfl

@[simp] theorem acquiredLeases_released (lease : SnapshotLease β) :
    acquiredLeases [.released lease] = [] := rfl

/-- The leases that have been given back. -/
def releasedLeases (log : List (Event β)) : List (SnapshotLease β) :=
  log.filterMap fun
    | .released lease => some lease
    | _ => none

@[simp] theorem releasedLeases_append_acquired :
    releasedLeases (log ++ [.acquired lease]) = releasedLeases log := by
  simp [releasedLeases]

@[simp] theorem releasedLeases_append_released :
    releasedLeases (log ++ [.released lease]) = releasedLeases log ++ [lease] := by
  simp [releasedLeases]

/-! ### The operations -/

theorem tryAcquire_cases (p : SnapshotPool β) :
    (∃ drops, p.tryAcquire = (none, { p with dropCount := drops })) ∨
    ∃ index slot, p.slots[index]? = some slot ∧ slot.state = .free ∧
      p.tryAcquire = (some ⟨index, nextGeneration slot.generation, some slot.buffer⟩,
        p.setSlot index
          { slot with state := .copying, generation := nextGeneration slot.generation }) := by
  unfold tryAcquire
  cases hfind : p.slots.findIdx? (fun slot => decide (slot.state = .free)) with
  | none => exact Or.inl ⟨_, rfl⟩
  | some index =>
    obtain ⟨hlt, hfree, -⟩ := List.findIdx?_eq_some_iff_getElem.mp hfind
    have hslot : p.slots[index]? = some p.slots[index] := List.getElem?_eq_getElem hlt
    refine Or.inr ⟨index, p.slots[index], hslot, of_decide_eq_true hfree, ?_⟩
    simp only [hslot]

theorem slots_setSlot (p : SnapshotPool β) (index : Nat) (slot : Slot β) :
    (p.setSlot index slot).slots = p.slots.set index slot := rfl

theorem busyCount_setSlot (hslot : p.slots[index]? = some slot) (new : Slot β) :
    (p.setSlot index new).busyCount + (if slot.state = .free then 0 else 1) =
      p.busyCount + (if new.state = .free then 0 else 1) := by
  obtain ⟨hlt, rfl⟩ := List.getElem?_eq_some_iff.mp hslot
  have hcount : (if p.slots[index].state = .free then 0 else 1) ≤ p.busyCount := by
    split
    · exact Nat.zero_le _
    · next hbusy =>
      refine List.countP_pos_iff.mpr ⟨p.slots[index], List.getElem_mem hlt, ?_⟩
      exact decide_eq_true hbusy
  have hset : (p.setSlot index new).busyCount =
      p.busyCount - (if p.slots[index].state = .free then 0 else 1) +
        (if new.state = .free then 0 else 1) := by
    show (p.slots.set index new).countP _ = p.slots.countP _ - _ + _
    rw [List.countP_set hlt]
    simp only [decide_eq_true_eq, ne_eq, ite_not]
  omega

variable [DecidableEq β]

theorem transfer_cases (p : SnapshotPool β) (lease : SnapshotLease β) (expected next : SlotState) :
    p.transfer lease expected next = (false, p) ∨
    ∃ slot, p.slots[lease.slot]? = some slot ∧ lease.buffer = some slot.buffer ∧
      slot.generation = lease.generation ∧ slot.state = expected ∧
      p.transfer lease expected next =
        (true, p.setSlot lease.slot { slot with state := next }) := by
  unfold transfer
  cases hmatched : p.matched lease expected with
  | none => exact Or.inl rfl
  | some slot =>
    obtain ⟨hslot, hcurrent⟩ := Option.filter_eq_some_iff.mp hmatched
    simp only [Bool.and_eq_true, decide_eq_true_eq] at hcurrent
    exact Or.inr ⟨slot, hslot, hcurrent.1.1, hcurrent.1.2, hcurrent.2, rfl⟩

@[simp] theorem liveLeases_append_acquired :
    liveLeases (log ++ [.acquired lease]) = lease :: liveLeases log := by
  simp [liveLeases, List.foldl_append]

@[simp] theorem liveLeases_append_released :
    liveLeases (log ++ [.released lease]) = (liveLeases log).erase lease := by
  simp [liveLeases, List.foldl_append]

/-! ### The invariant -/

/-- What the log of a pool over these buffers says about its slots. -/
structure Owned (buffers : List β) (log : List (Event β)) (p : SnapshotPool β) : Prop where
  buffers : p.slots.map Slot.buffer = buffers
  live : ∀ x ∈ liveLeases log, ∃ slot, p.slots[x.slot]? = some slot ∧ slot.state ≠ .free ∧
    slot.generation = x.generation ∧ x.buffer = some slot.buffer
  slots : ((liveLeases log).map SnapshotLease.slot).Nodup
  covered : ∀ index slot, p.slots[index]? = some slot → slot.state ≠ .free →
    ∃ x ∈ liveLeases log, x.slot = index
  busy : p.busyCount = (liveLeases log).length
  /-- A slot's generation counts the leases it has been handed out for. -/
  generation : ∀ index slot, p.slots[index]? = some slot →
    slot.generation = (acquiredLeases log).countP fun x => x.slot = index
  older : ∀ x ∈ acquiredLeases log,
    x.generation ≤ (acquiredLeases log).countP fun y => y.slot = x.slot
  acquired : (acquiredLeases log).Nodup
  released : ∀ x, (releasedLeases log).count x + (liveLeases log).count x =
    (acquiredLeases log).count x

theorem owned_init (buffers : List β) : Owned buffers [] (create (buffers.map some)) := by
  have hslots : (create (buffers.map some)).slots = buffers.map fun buffer =>
    { buffer := buffer } := by
    have hall : (buffers.map some).mapM id = some buffers := by
      induction buffers with
      | nil => rfl
      | cons buffer buffers ih => simp [List.mapM_cons, ih]
    unfold create
    rw [hall]
    rfl
  have hfree : ∀ (index : Nat) (slot : Slot β),
      (create (buffers.map some)).slots[index]? = some slot → slot.state = .free ∧
      slot.generation = 0 := by
    intro index slot hslot
    rw [hslots, List.getElem?_map, Option.map_eq_some_iff] at hslot
    obtain ⟨buffer, -, rfl⟩ := hslot
    exact ⟨rfl, rfl⟩
  constructor
  case buffers =>
    rw [hslots, List.map_map]
    exact List.map_id _
  case live => exact fun x hx => absurd hx List.not_mem_nil
  case slots => exact List.nodup_nil
  case covered => exact fun index slot hslot hbusy => absurd (hfree index slot hslot).1 hbusy
  case busy =>
    show List.countP _ _ = 0
    rw [List.countP_eq_zero]
    intro slot hmem
    obtain ⟨index, hslot⟩ := List.mem_iff_getElem?.mp hmem
    simp [(hfree index slot hslot).1]
  case generation => exact fun index slot hslot => (hfree index slot hslot).2
  case older => exact fun x hx => absurd hx List.not_mem_nil
  case acquired => exact List.nodup_nil
  case released => exact fun x => rfl

namespace Owned

variable {buffers : List β}

/-- Only the slots matter. -/
theorem of_slots (h : Owned buffers log p) (hslots : p'.slots = p.slots) :
    Owned buffers log p' where
  buffers := hslots ▸ h.buffers
  live := hslots ▸ h.live
  slots := h.slots
  covered := hslots ▸ h.covered
  busy := by
    have hcount : p'.busyCount = p.busyCount := by
      unfold busyCount
      rw [hslots]
    exact hcount.trans h.busy
  generation := hslots ▸ h.generation
  older := h.older
  acquired := h.acquired
  released := h.released

/-- What names a busy slot, its generation and its buffer is the live lease of that slot. -/
theorem mem_live (h : Owned buffers log p) (hslot : p.slots[x.slot]? = some slot)
    (hbusy : slot.state ≠ .free) (hgeneration : slot.generation = x.generation)
    (hbuffer : x.buffer = some slot.buffer) : x ∈ liveLeases log := by
  obtain ⟨y, hy, hsame⟩ := h.covered x.slot slot hslot hbusy
  obtain ⟨slot', hslot', -, hgeneration', hbuffer'⟩ := h.live y hy
  rw [hsame, hslot] at hslot'
  obtain rfl := Option.some.inj hslot'
  have heq : y = x := by
    obtain ⟨_, _, _⟩ := x
    obtain ⟨_, _, _⟩ := y
    simp_all
  exact heq ▸ hy

/-- A live lease of another slot does not notice that a slot changes. -/
theorem live_setSlot (h : Owned buffers log p) (hslot : p.slots[index]? = some slot)
    (new : Slot β) (hx : x ∈ liveLeases log) (hne : index ≠ x.slot) :
    ∃ slot, (p.setSlot index new).slots[x.slot]? = some slot ∧ slot.state ≠ .free ∧
      slot.generation = x.generation ∧ x.buffer = some slot.buffer := by
  obtain ⟨slot', hslot', hlive⟩ := h.live x hx
  rw [slots_setSlot, getElem?_set_of_getElem? hslot, if_neg hne]
  exact ⟨slot', hslot', hlive⟩

theorem acquire (h : Owned buffers log p) (hslot : p.slots[index]? = some slot)
    (hfree : slot.state = .free) (hbound : (acquiredLeases log).length + 1 < 2 ^ 64) :
    Owned buffers
      (log ++ [.acquired ⟨index, nextGeneration slot.generation, some slot.buffer⟩])
      (p.setSlot index
        { slot with state := .copying, generation := nextGeneration slot.generation }) := by
  have hgeneration := h.generation index slot hslot
  -- the generation does not wrap: it is at most the number of leases
  have hnext : nextGeneration slot.generation = slot.generation + 1 := by
    have hle : slot.generation ≤ (acquiredLeases log).length := hgeneration ▸ List.countP_le_length
    unfold nextGeneration
    exact Nat.mod_eq_of_lt (by omega)
  rw [hnext]
  -- no live lease names the free slot
  have hidle : ∀ x ∈ liveLeases log, index ≠ x.slot := by
    rintro x hx rfl
    obtain ⟨slot', hslot', hbusy, -⟩ := h.live x hx
    obtain rfl := Option.some.inj (hslot.symm.trans hslot')
    exact hbusy hfree
  -- its next generation has not been handed out
  have hfresh : ∀ b, (⟨index, slot.generation + 1, b⟩ : SnapshotLease β) ∉ acquiredLeases log := by
    intro b hmem
    have hle := h.older _ hmem
    simp only at hle
    omega
  constructor
  case buffers =>
    refine Eq.trans ?_ h.buffers
    exact map_set_of_getElem? Slot.buffer hslot _ rfl
  case live =>
    intro x hx
    rw [liveLeases_append_acquired] at hx
    rcases List.mem_cons.mp hx with rfl | hx
    · rw [slots_setSlot, getElem?_set_of_getElem? hslot, if_pos rfl]
      exact ⟨_, rfl, by simp, rfl, rfl⟩
    · exact h.live_setSlot hslot _ hx (hidle x hx)
  case slots =>
    rw [liveLeases_append_acquired, List.map_cons, List.nodup_cons]
    refine ⟨?_, h.slots⟩
    rw [List.mem_map]
    rintro ⟨x, hx, hsame⟩
    exact hidle x hx hsame.symm
  case covered =>
    intro i slot' hslot' hbusy
    rw [slots_setSlot, getElem?_set_of_getElem? hslot] at hslot'
    rw [liveLeases_append_acquired]
    by_cases heq : index = i
    · exact ⟨_, List.mem_cons_self, heq⟩
    · rw [if_neg heq] at hslot'
      obtain ⟨x, hx, hsame⟩ := h.covered i slot' hslot' hbusy
      exact ⟨x, List.mem_cons_of_mem _ hx, hsame⟩
  case busy =>
    have hcount := busyCount_setSlot hslot
      { slot with state := .copying, generation := slot.generation + 1 }
    simp only [hfree, reduceCtorEq, if_true, if_false, h.busy] at hcount
    rw [liveLeases_append_acquired, List.length_cons]
    omega
  case generation =>
    intro i slot' hslot'
    rw [slots_setSlot, getElem?_set_of_getElem? hslot] at hslot'
    rw [acquiredLeases_append, List.countP_append, acquiredLeases_acquired]
    by_cases heq : index = i
    · subst heq
      rw [if_pos rfl] at hslot'
      obtain rfl := Option.some.inj hslot'
      simp [← hgeneration]
    · rw [if_neg heq] at hslot'
      rw [h.generation i slot' hslot']
      simp [heq]
  case older =>
    intro x hx
    rw [acquiredLeases_append, acquiredLeases_acquired] at hx ⊢
    rw [List.countP_append]
    rcases List.mem_append.mp hx with hx | hx
    · exact Nat.le_trans (h.older x hx) (Nat.le_add_right _ _)
    · obtain rfl := List.mem_singleton.mp hx
      simp [← hgeneration]
  case acquired =>
    rw [acquiredLeases_append, acquiredLeases_acquired, List.nodup_append]
    refine ⟨h.acquired, List.nodup_singleton _, ?_⟩
    rintro x hx y hy rfl
    obtain rfl := List.mem_singleton.mp hy
    exact hfresh _ hx
  case released =>
    intro x
    have hcount := h.released x
    rw [releasedLeases_append_acquired, liveLeases_append_acquired, acquiredLeases_append,
      acquiredLeases_acquired, List.count_cons, List.count_append, List.count_singleton]
    omega

/-- A busy slot that stays busy. -/
theorem keep (h : Owned buffers log p) (hslot : p.slots[index]? = some slot)
    (hbusy : slot.state ≠ .free) {state : SlotState} (hstate : state ≠ .free) :
    Owned buffers log (p.setSlot index { slot with state := state }) := by
  constructor
  case buffers =>
    refine Eq.trans ?_ h.buffers
    exact map_set_of_getElem? Slot.buffer hslot _ rfl
  case live =>
    intro x hx
    by_cases heq : index = x.slot
    · obtain ⟨slot', hslot', -, hlive⟩ := h.live x hx
      rw [slots_setSlot, getElem?_set_of_getElem? hslot, if_pos heq]
      rw [← heq, hslot] at hslot'
      obtain rfl := Option.some.inj hslot'
      exact ⟨_, rfl, hstate, hlive⟩
    · exact h.live_setSlot hslot _ hx heq
  case slots => exact h.slots
  case covered =>
    intro i slot' hslot' _
    rw [slots_setSlot, getElem?_set_of_getElem? hslot] at hslot'
    by_cases heq : index = i
    · exact heq ▸ h.covered index slot hslot hbusy
    · rw [if_neg heq] at hslot'
      exact h.covered i slot' hslot' (by assumption)
  case busy =>
    have hcount := busyCount_setSlot hslot { slot with state := state }
    simp only [hbusy, hstate, if_false, h.busy] at hcount
    omega
  case generation =>
    intro i slot' hslot'
    rw [slots_setSlot, getElem?_set_of_getElem? hslot] at hslot'
    by_cases heq : index = i
    · rw [if_pos heq] at hslot'
      obtain rfl := Option.some.inj hslot'
      exact heq ▸ h.generation index slot hslot
    · rw [if_neg heq] at hslot'
      exact h.generation i slot' hslot'
  case older => exact h.older
  case acquired => exact h.acquired
  case released => exact h.released

theorem release (h : Owned buffers log p) (hslot : p.slots[x.slot]? = some slot)
    (hbusy : slot.state ≠ .free) (hgeneration : slot.generation = x.generation)
    (hbuffer : x.buffer = some slot.buffer) :
    Owned buffers (log ++ [.released x]) (p.setSlot x.slot { slot with state := .free }) := by
  have hx := h.mem_live hslot hbusy hgeneration hbuffer
  have hnodup : (liveLeases log).Nodup := List.Nodup.of_map _ h.slots
  -- the other live leases have other slots
  have hother : ∀ y ∈ (liveLeases log).erase x, y ∈ liveLeases log ∧ x.slot ≠ y.slot := by
    intro y hy
    obtain ⟨hne, hy⟩ := hnodup.mem_erase_iff.mp hy
    exact ⟨hy, fun hsame => hne (List.inj_on_of_nodup_map h.slots hy hx hsame.symm)⟩
  constructor
  case buffers =>
    refine Eq.trans ?_ h.buffers
    exact map_set_of_getElem? Slot.buffer hslot _ rfl
  case live =>
    intro y hy
    rw [liveLeases_append_released] at hy
    obtain ⟨hy, hne⟩ := hother y hy
    exact h.live_setSlot hslot _ hy hne
  case slots =>
    rw [liveLeases_append_released]
    exact h.slots.sublist (List.erase_sublist.map _)
  case covered =>
    intro i slot' hslot' hbusy'
    rw [slots_setSlot, getElem?_set_of_getElem? hslot] at hslot'
    rw [liveLeases_append_released]
    by_cases heq : x.slot = i
    · rw [if_pos heq] at hslot'
      obtain rfl := Option.some.inj hslot'
      exact absurd rfl hbusy'
    · rw [if_neg heq] at hslot'
      obtain ⟨y, hy, hsame⟩ := h.covered i slot' hslot' hbusy'
      refine ⟨y, (List.mem_erase_of_ne ?_).mpr hy, hsame⟩
      rintro rfl
      exact heq hsame
  case busy =>
    have hcount := busyCount_setSlot hslot { slot with state := .free }
    simp only [hbusy, if_true, if_false, h.busy] at hcount
    have hpos : 0 < (liveLeases log).length := List.length_pos_of_mem hx
    rw [liveLeases_append_released, List.length_erase_of_mem hx]
    omega
  case generation =>
    intro i slot' hslot'
    rw [slots_setSlot, getElem?_set_of_getElem? hslot] at hslot'
    rw [acquiredLeases_append, acquiredLeases_released, List.append_nil]
    by_cases heq : x.slot = i
    · rw [if_pos heq] at hslot'
      obtain rfl := Option.some.inj hslot'
      exact heq ▸ h.generation x.slot slot hslot
    · rw [if_neg heq] at hslot'
      exact h.generation i slot' hslot'
  case older => simpa using h.older
  case acquired => simpa using h.acquired
  case released =>
    intro y
    have hcount := h.released y
    have hlive : 0 < (liveLeases log).count x := List.count_pos_iff.mpr hx
    rw [releasedLeases_append_released, liveLeases_append_released, acquiredLeases_append,
      acquiredLeases_released, List.append_nil, List.count_append, List.count_singleton,
      List.count_erase]
    split
    · next heq =>
      obtain rfl := eq_of_beq heq
      omega
    · omega

end Owned

/-! ### Runs -/

variable {a : Action β} {evs : List (Event β)} {as : List (Action β)}

/-- The operation moves the slot of a lease it accepts, and changes nothing for another. -/
inductive Transferred (p : SnapshotPool β) (lease : SnapshotLease β) :
    Bool × SnapshotPool β → Prop
  | refused : Transferred p lease (false, p)
  | accepted (slot : Slot β) (state : SlotState) (hslot : p.slots[lease.slot]? = some slot)
      (hbusy : slot.state ≠ .free) (hgeneration : slot.generation = lease.generation)
      (hbuffer : lease.buffer = some slot.buffer) :
      Transferred p lease (true, p.setSlot lease.slot { slot with state := state })

theorem transferred_transfer (p : SnapshotPool β) (lease : SnapshotLease β) {expected : SlotState}
    (hbusy : expected ≠ .free) (next : SlotState) :
    Transferred p lease (p.transfer lease expected next) := by
  rcases transfer_cases p lease expected next with heq | ⟨slot, hslot, hbuffer, hgen, hstate, heq⟩
  · rw [heq]
    exact .refused
  · rw [heq]
    exact .accepted slot next hslot (hstate ▸ hbusy) hgen hbuffer

/-- A lease that is not live is refused. -/
theorem Owned.refused (h : Owned buffers log p) (hlease : lease ∉ liveLeases log)
    {r : Bool × SnapshotPool β} (hr : Transferred p lease r) : r = (false, p) := by
  cases hr with
  | refused => rfl
  | accepted slot state hslot hbusy hgeneration hbuffer =>
    exact absurd (h.mem_live hslot hbusy hgeneration hbuffer) hlease

theorem Owned.giveBack (h : Owned buffers log p) {expected : SlotState} (hbusy : expected ≠ .free) :
    Owned buffers (log ++ releasedEvents lease (p.transfer lease expected .free).1)
      (p.transfer lease expected .free).2 := by
  rcases transfer_cases p lease expected .free with heq | ⟨slot, hslot, hbuffer, hgen, hstate, heq⟩
  · rw [heq]
    simpa [releasedEvents] using h
  · rw [heq]
    exact h.release hslot (hstate ▸ hbusy) hgen hbuffer

theorem Owned.step (h : Owned buffers log p) (hs : step p a = some (p', evs))
    (hbound : (acquiredLeases (log ++ evs)).length < 2 ^ 64) : Owned buffers (log ++ evs) p' := by
  cases a with
  | tryAcquire =>
    obtain ⟨rfl, rfl⟩ := Prod.mk.inj (Option.some.inj hs)
    rcases tryAcquire_cases p with ⟨drops, heq⟩ | ⟨index, slot, hslot, hfree, heq⟩
    · rw [heq, Option.toList_none, List.map_nil, List.append_nil]
      exact h.of_slots rfl
    · rw [heq] at hbound ⊢
      refine h.acquire hslot hfree ?_
      simpa using hbound
  | handOffToConverter lease =>
    obtain ⟨rfl, rfl⟩ := Prod.mk.inj (Option.some.inj hs)
    rw [List.append_nil]
    rcases transfer_cases p lease .copying .converting with heq | ⟨slot, hslot, -, -, hstate, heq⟩
    · rw [show p.handOffToConverter lease = _ from heq]
      exact h
    · rw [show p.handOffToConverter lease = _ from heq]
      exact h.keep hslot (by simp [hstate]) (by simp)
  | abortCopy lease =>
    obtain ⟨rfl, rfl⟩ := Prod.mk.inj (Option.some.inj hs)
    exact h.giveBack (by simp)
  | releaseAfterConversion lease =>
    obtain ⟨rfl, rfl⟩ := Prod.mk.inj (Option.some.inj hs)
    exact h.giveBack (by simp)

theorem owned_of_run (h : system.Run System.anyAction (create (buffers.map some)) as log p)
    (hbound : (acquiredLeases log).length < 2 ^ 64) : Owned buffers log p := by
  refine h.induct (fun _ log p => (acquiredLeases log).length < 2 ^ 64 → Owned buffers log p)
    (fun _ => owned_init buffers) ?_ hbound
  intro as log t a u evs ih _ hs hbound
  refine (ih ?_).step hs hbound
  rw [acquiredLeases_append, List.length_append] at hbound
  omega

/-- What holds of the pool and the leases of the log. -/
structure Ownership (log : List (Event β)) (p : SnapshotPool β) : Prop where
  /-- A slot has one live lease at most. -/
  slots : (liveLeases log).Pairwise fun x y => x.slot ≠ y.slot
  /-- Two live leases do not refer to the same buffer. -/
  buffers : (liveLeases log).Pairwise fun x y => x.buffer ≠ y.buffer
  /-- A lease that is not live is refused, and nothing changes. -/
  handOff : ∀ lease ∉ liveLeases log, p.handOffToConverter lease = (false, p)
  abort : ∀ lease ∉ liveLeases log, p.abortCopy lease = (false, p)
  release : ∀ lease ∉ liveLeases log, p.releaseAfterConversion lease = (false, p)
  /-- A lease is given back once at most. -/
  once : ∀ lease, (releasedLeases log).count lease ≤ 1
  busy : p.busyCount = (liveLeases log).length
  capacity : p.busyCount ≤ p.capacity

theorem Owned.buffers_ne (h : Owned buffers log p) (hdistinct : buffers.Nodup)
    (hx : x ∈ liveLeases log) {y : SnapshotLease β} (hy : y ∈ liveLeases log)
    (hne : x.slot ≠ y.slot) : x.buffer ≠ y.buffer := by
  obtain ⟨slot, hslot, -, -, hbuffer⟩ := h.live x hx
  obtain ⟨slot', hslot', -, -, hbuffer'⟩ := h.live y hy
  rw [hbuffer, hbuffer']
  intro hsame
  have hx' : buffers[x.slot]? = some slot.buffer := by
    rw [← h.buffers, List.getElem?_map, hslot]
    rfl
  have hy' : buffers[y.slot]? = some slot.buffer := by
    rw [← h.buffers, List.getElem?_map, hslot', Option.some.inj hsame]
    rfl
  have hlt : x.slot < buffers.length := (List.getElem?_eq_some_iff.mp hx').1
  exact hne ((List.getElem?_inj hlt hdistinct).mp (hx'.trans hy'.symm))

/-- **Ownership of the pool**, in every run over distinct buffers with fewer than `2 ^ 64`
acquisitions. -/
theorem pool_ownership (hdistinct : buffers.Nodup)
    (h : system.Run System.anyAction (create (buffers.map some)) as log p)
    (hbound : (acquiredLeases log).length < 2 ^ 64) : Ownership log p := by
  have howned := owned_of_run h hbound
  have hslots : (liveLeases log).Pairwise fun x y => x.slot ≠ y.slot :=
    List.pairwise_map.mp howned.slots
  refine ⟨hslots, ?_, ?_, ?_, ?_, ?_, howned.busy, List.countP_le_length⟩
  · refine hslots.imp_of_mem ?_
    exact fun hx hy hne => howned.buffers_ne hdistinct hx hy hne
  · exact fun lease hlease => howned.refused hlease (transferred_transfer p lease (by simp) _)
  · exact fun lease hlease => howned.refused hlease (transferred_transfer p lease (by simp) _)
  · exact fun lease hlease => howned.refused hlease (transferred_transfer p lease (by simp) _)
  · intro lease
    have hcount := howned.released lease
    have honce := List.nodup_iff_count_le_one.mp howned.acquired lease
    omega

/-- Two buffers, one lease given back and its slot handed out again. -/
theorem pool_ownership_of_reuse :
    ∃ as log, ∃ p : SnapshotPool Nat,
      system.Run System.anyAction (create ([0, 1].map some)) as log p ∧
      acquiredLeases log = [⟨0, 1, some 0⟩, ⟨0, 2, some 0⟩] ∧ Ownership log p := by
  have hrun : system.exec System.anyAction (create ([0, 1].map some))
      [.tryAcquire, .handOffToConverter ⟨0, 1, some 0⟩, .releaseAfterConversion ⟨0, 1, some 0⟩,
        .tryAcquire, .abortCopy ⟨0, 1, some 0⟩] =
      some (⟨[⟨0, .copying, 2⟩, ⟨1, .free, 0⟩], 0⟩,
        [.acquired ⟨0, 1, some 0⟩, .released ⟨0, 1, some 0⟩, .acquired ⟨0, 2, some 0⟩]) := by
    decide
  have h := System.Run.of_exec hrun
  exact ⟨_, _, _, h, rfl, pool_ownership (by decide) h (by decide)⟩

end EinkLab.SnapshotPool
