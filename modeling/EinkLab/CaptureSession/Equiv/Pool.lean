import EinkLab.CaptureSession.Policies
import EinkLab.SnapshotPool.Equiv.Gpu

/-!
# The session's pool and the GPU pool

The session looks at a slot's state and generation only.  Its pool is what is left of the GPU pool
(`ofPool`): each critical section of the one is that of the other, so in every run that reserves
fewer than `2 ^ 64` slots the session's pool goes through the same states (`ofPool_of_run`).
-/

namespace EinkLab.CaptureSession

open Transition

variable {β φ : Type} {p p₀ : EinkLab.GpuSnapshotPool β}

/-! ### What the session sees -/

def SlotState.ofPool : SnapshotPool.SlotState → SlotState
  | .free => .free
  | .copying => .copying
  | .converting => .converting

theorem SlotState.ofPool_inj {state state' : SnapshotPool.SlotState} :
    SlotState.ofPool state = SlotState.ofPool state' ↔ state = state' := by
  cases state <;> cases state' <;> simp [ofPool]

def Slot.ofPool (slot : EinkLab.GpuSnapshotPool.Slot β) : Slot :=
  ⟨.ofPool slot.state, slot.generation⟩

def GpuSnapshotPool.ofPool (p : EinkLab.GpuSnapshotPool β) : GpuSnapshotPool where
  slots := p.slots.map Slot.ofPool
  drops := p.drops
  failedSubmissions := p.failedSubmissions

def Snapshot.ofCopy (c : EinkLab.GpuSnapshotPool.Copy β) : Snapshot := ⟨c.slot, c.generation⟩

def Snapshot.ofGpu (snapshot : GpuSnapshot β φ) : Snapshot := ⟨snapshot.slot, snapshot.generation⟩

namespace GpuSnapshotPool

theorem length_of_mapM_id {l : List (Option β)} {l' : List β} (h : l.mapM id = some l') :
    l'.length = l.length := by
  induction l generalizing l' with
  | nil =>
    obtain rfl := Option.some.inj h
    rfl
  | cons x l ih =>
    simp only [List.mapM_cons, Option.bind_eq_bind, Option.bind_eq_some_iff, id_eq,
      Option.pure_def, Option.some.injEq] at h
    obtain ⟨b, -, bs, hbs, rfl⟩ := h
    rw [List.length_cons, List.length_cons, ih hbs]

theorem ofPool_create {width height : Nat} {allocations : List (Option β)}
    (h : EinkLab.GpuSnapshotPool.create width height allocations = some p) :
    ofPool p = create allocations.length := by
  unfold EinkLab.GpuSnapshotPool.create at h
  split at h
  · cases h
  · obtain ⟨buffers, hbuffers, rfl⟩ := Option.map_eq_some_iff.mp h
    simp only [ofPool, create, GpuSnapshotPool.mk.injEq, and_true]
    rw [List.map_map, ← length_of_mapM_id hbuffers, ← List.map_const']
    rfl

theorem holds_ofPool {x : Snapshot} {state : SnapshotPool.SlotState} :
    (ofPool p).Holds x (.ofPool state) ↔
      ∃ slot, p.slots[x.slot]? = some slot ∧ slot.state = state ∧
      slot.generation = x.generation := by
  show (p.slots.map Slot.ofPool)[x.slot]? = _ ↔ _
  rw [List.getElem?_map, Option.map_eq_some_iff]
  simp only [Slot.ofPool, Slot.mk.injEq, SlotState.ofPool_inj]

theorem setState_ofPool {x : Snapshot} {slot : EinkLab.GpuSnapshotPool.Slot β}
    (state : SnapshotPool.SlotState) (h : slot.generation = x.generation) :
    (ofPool p).setState x (.ofPool state) =
      ofPool (p.setSlot x.slot { slot with state := state }) := by
  simp only [ofPool, setState, EinkLab.GpuSnapshotPool.setSlot, List.map_set, Slot.ofPool, h]

/-- Both pools find the same free slot. -/
theorem findIdx?_ofPool (p : EinkLab.GpuSnapshotPool β) :
    (ofPool p).slots.findIdx? (fun slot => decide (slot.state = .free)) =
      p.slots.findIdx? fun slot => decide (slot.state = .free) := by
  have hfree : ∀ slot : EinkLab.GpuSnapshotPool.Slot β,
      (Slot.ofPool slot).state = .free ↔ slot.state = .free :=
    fun slot => (SlotState.ofPool_inj : _ = SlotState.ofPool .free ↔ _)
  rw [ofPool, List.findIdx?_map]
  simp only [Function.comp_def, hfree]

/-- A reservation, as long as no generation wraps around. -/
theorem acquire_ofPool (source : EinkLab.GpuSnapshotPool.Source)
    (hroom : ∀ slot ∈ p.slots, slot.generation + 1 < 2 ^ 64) :
    (ofPool p).acquire =
      ((p.reserve source).1.map Snapshot.ofCopy, ofPool (p.reserve source).2) := by
  unfold acquire EinkLab.GpuSnapshotPool.reserve
  rw [findIdx?_ofPool]
  cases hfind : p.slots.findIdx? (fun slot => decide (slot.state = .free)) with
  | none => rfl
  | some index =>
    obtain ⟨hlt, -, -⟩ := List.findIdx?_eq_some_iff_getElem.mp hfind
    have hslot : p.slots[index]? = some p.slots[index] := List.getElem?_eq_getElem hlt
    have hgeneration : ((ofPool p).slots.getD index {}).generation =
        p.slots[index].generation := by
      simp [ofPool, hslot, Slot.ofPool]
    have hnext : SnapshotPool.nextGeneration p.slots[index].generation =
        p.slots[index].generation + 1 :=
      Nat.mod_eq_of_lt (hroom _ (List.getElem_mem hlt))
    simp only [hslot, hgeneration, hnext, Option.map_some, Snapshot.ofCopy, Prod.mk.injEq, true_and]
    simp only [ofPool, setState, EinkLab.GpuSnapshotPool.setSlot, List.map_set, Slot.ofPool,
      SlotState.ofPool]

/-- A drop does not look at the generations. -/
theorem acquire_ofPool_of_none {source : EinkLab.GpuSnapshotPool.Source}
    (h : (p.reserve source).1 = none) : (ofPool p).acquire.2 = ofPool (p.reserve source).2 := by
  unfold EinkLab.GpuSnapshotPool.reserve at h ⊢
  rw [acquire, findIdx?_ofPool]
  cases hfind : p.slots.findIdx? (fun slot => decide (slot.state = .free)) with
  | none => rfl
  | some index =>
    obtain ⟨hlt, -, -⟩ := List.findIdx?_eq_some_iff_getElem.mp hfind
    rw [hfind] at h
    simp only [List.getElem?_eq_getElem hlt] at h
    cases h

/-- The sizes of a copy agree. -/
def fits (c : EinkLab.GpuSnapshotPool.Copy β) : Bool :=
  c.destinationWidth = c.source.width && c.destinationHeight = c.source.height

theorem reserved_eq_some_iff {c : EinkLab.GpuSnapshotPool.Copy β}
    {slot : EinkLab.GpuSnapshotPool.Slot β} : p.reserved c = some slot ↔
      p.slots[c.slot]? = some slot ∧ slot.state = .copying ∧ slot.generation = c.generation := by
  simp [EinkLab.GpuSnapshotPool.reserved, Option.filter_eq_some_iff]

theorem holds_ofCopy_iff {c : EinkLab.GpuSnapshotPool.Copy β} :
    (ofPool p).Holds (.ofCopy c) .copying ↔ ∃ slot, p.reserved c = some slot := by
  simp only [reserved_eq_some_iff]
  exact (holds_ofPool : (ofPool p).Holds _ (.ofPool .copying) ↔ _)

/-- A copy that has failed gives its slot back. -/
theorem finishCopy_false_ofPool (c : EinkLab.GpuSnapshotPool.Copy β) :
    (ofPool p).finishCopy (.ofCopy c) false = (false, ofPool (p.abort c)) := by
  rw [finishCopy, if_neg Bool.false_ne_true, EinkLab.GpuSnapshotPool.abort]
  cases hreserved : p.reserved c with
  | none =>
    rw [if_neg (by simp [holds_ofCopy_iff, hreserved])]
    rfl
  | some slot =>
    rw [if_pos (holds_ofCopy_iff.mpr ⟨slot, hreserved⟩)]
    exact congrArg (fun q => (false, GpuSnapshotPool.fail q))
      (setState_ofPool (x := .ofCopy c) .free (reserved_eq_some_iff.mp hreserved).2.2)

/-- A copy that has been drawn hands its slot over, if it is still its own. -/
theorem finishCopy_true_ofPool (c : EinkLab.GpuSnapshotPool.Copy β) :
    (ofPool p).finishCopy (.ofCopy c) true =
      match p.reserved c with
      | none => (false, ofPool p.failSubmission)
      | some slot => (true, ofPool (p.setSlot c.slot { slot with state := .converting })) := by
  rw [finishCopy, if_pos rfl]
  cases hreserved : p.reserved c with
  | none =>
    rw [if_neg (by simp [holds_ofCopy_iff, hreserved])]
    rfl
  | some slot =>
    rw [if_pos (holds_ofCopy_iff.mpr ⟨slot, hreserved⟩)]
    exact congrArg (Prod.mk true)
      (setState_ofPool (x := .ofCopy c) .converting (reserved_eq_some_iff.mp hreserved).2.2)

/-- The end of a copy. -/
theorem finishCopy_ofPool (c : EinkLab.GpuSnapshotPool.Copy β) (drawn : Option φ) :
    (ofPool p).finishCopy (.ofCopy c) (fits c && drawn.isSome) =
      ((p.finish c drawn).1.isSome, ofPool (p.finish c drawn).2) := by
  unfold EinkLab.GpuSnapshotPool.finish
  split
  · next hsizes =>
    have hnot : fits c = false := by
      simp only [fits, Bool.and_eq_false_iff, decide_eq_false_iff_not]
      exact hsizes
    rw [hnot]
    exact finishCopy_false_ofPool c
  · next hsizes =>
    have hfits : fits c = true := by
      simp only [fits, Bool.and_eq_true, decide_eq_true_eq]
      simpa only [not_or, not_not] using hsizes
    rw [hfits, Bool.true_and]
    cases drawn with
    | none => exact finishCopy_false_ofPool c
    | some fence =>
      show (ofPool p).finishCopy (.ofCopy c) true = _
      rw [finishCopy_true_ofPool]
      cases p.reserved c <;> rfl

/-- A copy that gives no snapshot has undone its reservation. -/
theorem finish_of_none {c : EinkLab.GpuSnapshotPool.Copy β} {drawn : Option φ}
    (h : (p.finish c drawn).1 = none) : (p.finish c drawn).2 = p.abort c := by
  unfold EinkLab.GpuSnapshotPool.finish at h ⊢
  split
  · rfl
  · next hsizes =>
    rw [if_neg hsizes] at h
    cases drawn with
    | none => rfl
    | some fence =>
      unfold EinkLab.GpuSnapshotPool.abort
      cases hreserved : p.reserved c with
      | none => rfl
      | some slot =>
        rw [hreserved] at h
        cases h

/-- A snapshot is that of its copy. -/
theorem finish_of_some {c : EinkLab.GpuSnapshotPool.Copy β} {drawn : Option φ}
    {snapshot : GpuSnapshot β φ} (h : (p.finish c drawn).1 = some snapshot) :
    Snapshot.ofGpu snapshot = .ofCopy c ∧ (fits c && drawn.isSome) = true := by
  unfold EinkLab.GpuSnapshotPool.finish at h
  split at h
  · cases h
  · next hsizes =>
    cases drawn with
    | none => cases h
    | some fence =>
      dsimp only at h
      split at h
      · cases h
      · obtain rfl := Option.some.inj h
        refine ⟨rfl, ?_⟩
        simp only [fits, Option.isSome_some, Bool.and_true, Bool.and_eq_true, decide_eq_true_eq]
        simpa only [not_or, not_not] using hsizes

/-- The release of a snapshot. -/
theorem releaseAfterConversion_ofPool (snapshot : GpuSnapshot β φ) :
    (ofPool p).releaseAfterConversion (.ofGpu snapshot) =
      ((p.releaseAfterConversion snapshot).1, ofPool (p.releaseAfterConversion snapshot).2) := by
  rcases EinkLab.GpuSnapshotPool.releaseAfterConversion_cases p snapshot with
    ⟨heq, hstale⟩ | ⟨slot, hslot, hstate, hgeneration, heq⟩
  · have hnot : ¬(ofPool p).Holds (.ofGpu snapshot) .converting := by
      rw [show SlotState.converting = .ofPool .converting from rfl, holds_ofPool]
      rintro ⟨slot, hslot, hstate, hgeneration⟩
      rcases hstale slot hslot with hno | hno
      · exact hno hstate
      · exact hno hgeneration
    rw [heq, releaseAfterConversion, if_neg hnot]
  · have hholds : (ofPool p).Holds (.ofGpu snapshot) .converting := by
      rw [show SlotState.converting = .ofPool .converting from rfl, holds_ofPool]
      exact ⟨slot, hslot, hstate, hgeneration⟩
    rw [heq, releaseAfterConversion, if_pos hholds]
    exact congrArg (Prod.mk true) (setState_ofPool .free hgeneration)

/-! ### Runs -/

/-- The session's critical section for a stretch of the GPU pool. -/
def perform (q : GpuSnapshotPool) : EinkLab.GpuSnapshotPool.Event β φ → GpuSnapshotPool
  | .rejected => q.fail
  | .dropped | .reserved _ => q.acquire.2
  | .failed lease => (q.finishCopy ⟨lease.slot, lease.generation⟩ false).2
  | .returned snapshot => (q.finishCopy (.ofGpu snapshot) true).2
  | .released snapshot _ => (q.releaseAfterConversion (.ofGpu snapshot)).2

def isReserved : EinkLab.GpuSnapshotPool.Event β φ → Bool
  | .reserved _ => true
  | _ => false

variable {q₀ : GpuSnapshotPool} {p' : EinkLab.GpuSnapshotPool β}
  {s s' : EinkLab.GpuSnapshotPool.State β} {log evs : List (EinkLab.GpuSnapshotPool.Event β φ)}

/-- No slot has a higher generation than there were reservations. -/
def Bounded (p : EinkLab.GpuSnapshotPool β) (count : Nat) : Prop :=
  ∀ slot ∈ p.slots, slot.generation ≤ count

theorem Bounded.setSlot {count index : Nat} {slot : EinkLab.GpuSnapshotPool.Slot β}
    (h : Bounded p count) (hslot : slot.generation ≤ count) :
    Bounded (p.setSlot index slot) count := by
  intro slot' hmem
  rcases List.mem_or_eq_of_mem_set hmem with hmem | rfl
  · exact h slot' hmem
  · exact hslot

theorem Bounded.abort {count : Nat} (h : Bounded p count) (c : EinkLab.GpuSnapshotPool.Copy β) :
    Bounded (p.abort c) count := by
  unfold EinkLab.GpuSnapshotPool.abort
  cases hreserved : p.reserved c with
  | none => exact h
  | some slot =>
    exact h.setSlot (h slot (List.mem_of_getElem? (reserved_eq_some_iff.mp hreserved).1))

theorem Bounded.finish {count : Nat} (h : Bounded p count) (c : EinkLab.GpuSnapshotPool.Copy β)
    (drawn : Option φ) : Bounded (p.finish c drawn).2 count := by
  unfold EinkLab.GpuSnapshotPool.finish
  split
  · exact h.abort c
  · cases drawn with
    | none => exact h.abort c
    | some fence =>
      cases hreserved : p.reserved c with
      | none => exact h
      | some slot =>
        exact h.setSlot (h slot (List.mem_of_getElem? (reserved_eq_some_iff.mp hreserved).1))

theorem Bounded.release {count : Nat} (h : Bounded p count) (snapshot : GpuSnapshot β φ) :
    Bounded (p.releaseAfterConversion snapshot).2 count := by
  rcases EinkLab.GpuSnapshotPool.releaseAfterConversion_cases p snapshot with
    ⟨heq, -⟩ | ⟨slot, hslot, -, -, heq⟩
  · rw [heq]
    exact h
  · rw [heq]
    exact h.setSlot (h slot (List.mem_of_getElem? hslot))

theorem Bounded.reserve {count : Nat} (h : Bounded p count)
    (source : EinkLab.GpuSnapshotPool.Source) : Bounded (p.reserve source).2 (count + 1) := by
  have hmore : Bounded p (count + 1) := fun slot hslot => Nat.le_succ_of_le (h slot hslot)
  rcases EinkLab.GpuSnapshotPool.reserve_cases p source with
    ⟨heq, -⟩ | ⟨index, slot, c, hslot, -, -, -, -, heq, -⟩
  · rw [heq]
    exact hmore
  · rw [heq]
    have hle := h slot (List.mem_of_getElem? hslot)
    exact hmore.setSlot (Nat.le_trans (Nat.mod_le _ _) (Nat.succ_le_succ hle))

/-- What the two pools have in common along a run. -/
structure Mirrored (q₀ : GpuSnapshotPool) (log : List (EinkLab.GpuSnapshotPool.Event β φ))
    (p : EinkLab.GpuSnapshotPool β) : Prop where
  bounded : Bounded p (log.countP isReserved)
  same : log.countP isReserved < 2 ^ 64 → ofPool p = log.foldl perform q₀

theorem Mirrored.snoc (h : Mirrored q₀ log p) {e : EinkLab.GpuSnapshotPool.Event β φ}
    (hbounded : Bounded p' ((log ++ [e]).countP isReserved))
    (hsame : (log ++ [e]).countP isReserved < 2 ^ 64 → perform (ofPool p) e = ofPool p') :
    Mirrored q₀ (log ++ [e]) p' := by
  refine ⟨hbounded, fun hcount => ?_⟩
  have hbefore : log.countP isReserved < 2 ^ 64 := by
    rw [List.countP_append] at hcount
    omega
  rw [List.foldl_append, ← h.same hbefore]
  exact (hsame hcount).symm

/-- An event that is no reservation does not count. -/
theorem countP_snoc {e : EinkLab.GpuSnapshotPool.Event β φ} (he : isReserved e = false) :
    (log ++ [e]).countP isReserved = log.countP isReserved := by
  rw [List.countP_append, List.countP_singleton, he]
  rfl

theorem Mirrored.tryCopy (h : Mirrored q₀ log s.pool) (source : EinkLab.GpuSnapshotPool.Source) :
    Mirrored q₀ (log ++ (EinkLab.GpuSnapshotPool.tryCopy s source (φ := φ)).2)
      (EinkLab.GpuSnapshotPool.tryCopy s source (φ := φ)).1.pool := by
  have hbounded := h.bounded.reserve source
  unfold EinkLab.GpuSnapshotPool.tryCopy
  cases hreserve : s.pool.reserve source with
  | mk copy p' =>
    cases copy with
    | none =>
      refine h.snoc ?_ fun _ => ?_
      · -- a drop leaves the slots alone
        rw [countP_snoc rfl]
        rcases EinkLab.GpuSnapshotPool.reserve_cases s.pool source with
          ⟨heq, -⟩ | ⟨_, _, _, -, -, -, -, -, heq, -⟩
        · obtain ⟨-, rfl⟩ := Prod.mk.inj (hreserve.symm.trans heq)
          exact h.bounded
        · cases hreserve.symm.trans heq
      · have hdrop := acquire_ofPool_of_none (congrArg Prod.fst hreserve)
        rwa [hreserve] at hdrop
    | some c =>
      have hcount : (log ++ [EinkLab.GpuSnapshotPool.Event.reserved c.lease]).countP isReserved =
          log.countP isReserved + 1 := by
        rw [List.countP_append]
        rfl
      refine h.snoc ?_ fun hlt => ?_
      · rw [hcount]
        rwa [hreserve] at hbounded
      · have hroom : ∀ slot ∈ s.pool.slots, slot.generation + 1 < 2 ^ 64 := by
          intro slot hslot
          have hle := h.bounded slot hslot
          omega
        have hacquire := congrArg Prod.snd (acquire_ofPool source hroom)
        rwa [hreserve] at hacquire

theorem Mirrored.finishCopy [DecidableEq β] (h : Mirrored q₀ log s.pool)
    (c : EinkLab.GpuSnapshotPool.Copy β) (drawn : Option φ) :
    Mirrored q₀ (log ++ (EinkLab.GpuSnapshotPool.finishCopy s c drawn).2)
      (EinkLab.GpuSnapshotPool.finishCopy s c drawn).1.pool := by
  have hbounded := h.bounded.finish c drawn
  unfold EinkLab.GpuSnapshotPool.finishCopy
  cases hfinish : s.pool.finish c drawn with
  | mk result p' =>
    rw [hfinish] at hbounded
    cases result with
    | none =>
      refine h.snoc (by rwa [countP_snoc rfl]) fun _ => ?_
      have habort := finish_of_none (congrArg Prod.fst hfinish)
      rw [hfinish] at habort
      rw [show p' = s.pool.abort c from habort]
      exact congrArg Prod.snd (finishCopy_false_ofPool c)
    | some snapshot =>
      refine h.snoc (by rwa [countP_snoc rfl]) fun _ => ?_
      obtain ⟨hsnapshot, hdrawn⟩ := finish_of_some (congrArg Prod.fst hfinish)
      have hcopy := congrArg Prod.snd (finishCopy_ofPool (p := s.pool) c drawn)
      rw [hdrawn, hfinish] at hcopy
      show ((ofPool s.pool).finishCopy (.ofGpu snapshot) true).2 = _
      rw [hsnapshot]
      exact hcopy

theorem Mirrored.step [DecidableEq β] {a : EinkLab.GpuSnapshotPool.Action β φ}
    (h : Mirrored q₀ log s.pool) (hs : EinkLab.GpuSnapshotPool.step s a = some (s', evs)) :
    Mirrored q₀ (log ++ evs) s'.pool := by
  cases a with
  | tryCopy source =>
    simp only [EinkLab.GpuSnapshotPool.step] at hs
    split at hs
    · obtain ⟨rfl, rfl⟩ := Prod.mk.inj (Option.some.inj hs)
      refine h.snoc ?_ fun _ => rfl
      rw [countP_snoc rfl]
      exact h.bounded
    · obtain ⟨rfl, rfl⟩ := Prod.mk.inj (Option.some.inj hs)
      exact h.tryCopy _
  | finishCopy c drawn =>
    simp only [EinkLab.GpuSnapshotPool.step] at hs
    split at hs
    · obtain ⟨rfl, rfl⟩ := Prod.mk.inj (Option.some.inj hs)
      exact h.finishCopy c drawn
    · cases hs
  | releaseAfterConversion snapshot =>
    obtain ⟨rfl, rfl⟩ := Prod.mk.inj (Option.some.inj hs)
    refine h.snoc ?_ fun _ => ?_
    · rw [countP_snoc rfl]
      exact h.bounded.release snapshot
    · exact congrArg Prod.snd (releaseAfterConversion_ofPool snapshot)

/-- **The session's pool is what the session sees of the GPU pool**, along every run that reserves
fewer than `2 ^ 64` slots. -/
theorem ofPool_of_run [DecidableEq β] {width height : Nat} {allocations : List (Option β)}
    {actions : List (EinkLab.GpuSnapshotPool.Action β φ)}
    (hcreate : EinkLab.GpuSnapshotPool.create width height allocations = some p₀)
    (h : EinkLab.GpuSnapshotPool.system.Run System.anyAction ⟨p₀, []⟩ actions log s)
    (hbound : log.countP isReserved < 2 ^ 64) :
    ofPool s.pool = log.foldl perform (create allocations.length) := by
  have hmirrored : Mirrored (create allocations.length) log s.pool := by
    refine h.induct (fun _ log s => Mirrored (create allocations.length) log s.pool) ?_ ?_
    · refine ⟨fun slot hslot => ?_, fun _ => ofPool_create hcreate⟩
      have hmem : Slot.ofPool slot ∈ (ofPool p₀).slots := List.mem_map_of_mem hslot
      rw [ofPool_create hcreate] at hmem
      have hgeneration := congrArg Slot.generation (List.eq_of_mem_replicate hmem)
      exact Nat.le_of_eq hgeneration
    · intro _ log s a s' evs hi _ hstep
      exact hi.step hstep
  exact hmirrored.same hbound

end GpuSnapshotPool

end EinkLab.CaptureSession
