import EinkLab.FrontLight.Equiv.Scheduler

/-!
# Accepted updates and the generation filter

One generation counter filters the queued updates of all fields, and display and setup events
increment it too.  An update that is overtaken before it is handled is dropped, so the accepted
state is in general not the result of all accepted updates (`accepted_update_lost`).

`accepted_updates_applied` says when it is: in every run in which an increment of the generation
never overtakes an update that it does not absorb (`Absorbed`), the accepted state of a drained
manager is the result of all accepted updates in generation order.  The invariant `Applied` says
that this holds up to the one update that has the current generation and is still to be handled.
-/

namespace EinkLab.FrontLight

open Transition FrontLightManager

/-! ### Updates on their way -/

def queuedUpdates (queue : List Message) : List (Int × Update) :=
  queue.filterMap fun | .update g u => some (g, u) | _ => none

/-- The accepted updates that have not been handled, with their generations. -/
def outstanding (m : FrontLightManager) : List (Int × Update) :=
  m.calls ++ queuedUpdates m.queue

/-- The accepted updates of a run with their generations, oldest first. -/
def acceptedUpdates (log : List Event) : List (Int × Update) :=
  log.filterMap fun | .accepted g u => some (g, u) | _ => none

/-- All updates, applied one after the other. -/
def applyAll (d : Desired) (updates : List (Int × Update)) : Desired :=
  updates.foldl (fun d p => p.2.apply d) d

/-! ### When the generation is raised -/

/-- The handler's message raises the generation on its own account. -/
def Message.raises (m : FrontLightManager) (displayOn : Bool) : Message → Bool
  | .setupChanged => m.stateLoaded && !m.setupComplete && m.settings.getInt .userSetupComplete 0 ≠ 0
  | .displayChanged displayId =>
    displayId = DEFAULT_DISPLAY && m.stateLoaded && displayOn ≠ m.displayOn &&
      (!displayOn || (m.setupComplete && m.completedOffEpoch = m.screenEpoch))
  | _ => false

/-- The step is a display or setup event that raises the generation. -/
def raisesGeneration (m : FrontLightManager) : Action → Bool
  | .handle i displayOn _ =>
    match m.queue[i]? with
    | some message => message.raises m displayOn
    | none => false
  | .consume _ =>
    match m.handler with
    | .consuming request result =>
      request.kind = .off && result = RESULT_OFF && m.wakeRestorePending && m.displayOn
    | _ => false
  | _ => false

/-- What a step that raises the generation makes of the accepted state, once it is handled: a new
update is applied, a display or setup event leaves it alone. -/
def overtaking (m : FrontLightManager) : Action → Option (Desired → Desired)
  | .submit caller call =>
    if enforceManagerAccess caller then call.update?.map fun u d => u.apply d else none
  | a => if raisesGeneration m a then some id else none

/-- The step does not overtake an update that it does not absorb: when it raises the generation,
the unhandled update of the current generation would leave no trace in the accepted state. -/
def Absorbed (m : FrontLightManager) (a : Action) : Prop :=
  ∀ p ∈ outstanding m, p.1 = m.latestGeneration →
    ∀ f ∈ overtaking m a, f (p.2.apply m.desired) = f m.desired

instance (m : FrontLightManager) (a : Action) : Decidable (Absorbed m a) :=
  inferInstanceAs (Decidable (∀ p ∈ outstanding m, p.1 = m.latestGeneration →
    ∀ f ∈ overtaking m a, f (p.2.apply m.desired) = f m.desired))

/-! ### What the handlers do to the generation and to the accepted state -/

section Value

variable {m m' m'' : FrontLightManager} {puts : SettingKey → Bool}

/-- The accepted state stays and the generation grows by `k`. -/
structure Raises (k : Int) (m m' : FrontLightManager) : Prop where
  generation : m'.latestGeneration = m.latestGeneration + k
  desired : m'.desired = m.desired

theorem raises_scheduleDrain {k : Int} (h : Raises k m m') : Raises k m m'.scheduleDrain := by
  rw [scheduleDrain_eq]
  exact ⟨h.generation, h.desired⟩

theorem raises_continueDrain {k : Int} (h : Raises k m m') : Raises k m m'.continueDrain := by
  unfold continueDrain
  split <;> exact ⟨h.generation, h.desired⟩

theorem raises_queueDesiredOrOff {k : Int} (h : Raises k m m') (g : Int) (kind : Kind) :
    Raises k m (m'.queueDesiredOrOff g kind) := by
  rcases queueDesiredOrOff_cases g kind (m := m') with
    ⟨-, heq⟩ | ⟨-, -, -, -, heq⟩ | ⟨-, -, r, heq, -⟩ <;> rw [heq]
  · exact h
  · exact ⟨h.generation, h.desired⟩
  · exact raises_scheduleDrain ⟨h.generation, h.desired⟩

theorem raises_queueDesired (h : Raises 0 m m') : Raises 1 m m'.queueDesired := by
  refine raises_scheduleDrain ⟨?_, h.desired⟩
  show m'.latestGeneration + 1 = m.latestGeneration + 1
  rw [h.generation]
  omega

theorem raises_handleSetupStateChanged (displayOn : Bool) :
    Raises (Message.setupChanged.raises m displayOn).toInt m m.handleSetupStateChanged := by
  rcases handleSetupStateChanged_cases (m := m) with ⟨hno, heq⟩ | ⟨hl, hs, hu, heq⟩ <;> rw [heq]
  · have hr : Message.setupChanged.raises m displayOn = false := by
      by_contra hr
      exact hno (by simpa [Message.raises, and_assoc] using hr)
    rw [hr]
    exact ⟨by simp, rfl⟩
  · have hr : Message.setupChanged.raises m displayOn = true := by
      simp [Message.raises, hl, hs, hu]
    rw [hr]
    refine raises_queueDesiredOrOff ?_ _ _
    exact ⟨rfl, rfl⟩

theorem raises_handleDisplayState (displayOn : Bool) :
    Raises ((Message.displayChanged DEFAULT_DISPLAY).raises m displayOn).toInt m
      (m.handleDisplayState displayOn) := by
  rcases handleDisplayState_cases displayOn (m := m) with
    ⟨hno, heq⟩ | ⟨hl, hon, rfl, heq⟩ |
    ⟨hl, hon, rfl, ⟨hs, heq⟩ | ⟨hs, hc, heq⟩ | ⟨hs, hc, heq⟩⟩ <;> rw [heq]
  · have hr : (Message.displayChanged DEFAULT_DISPLAY).raises m displayOn = false := by
      by_contra hr
      simp only [Message.raises, Bool.not_eq_false, Bool.and_eq_true, decide_eq_true_eq] at hr
      exact hno ⟨hr.1.1.2, hr.1.2⟩
    rw [hr]
    exact ⟨by simp, rfl⟩
  · have hr : (Message.displayChanged DEFAULT_DISPLAY).raises m false = true := by
      simp [Message.raises, hl, hon]
    rw [hr]
    exact raises_scheduleDrain ⟨rfl, rfl⟩
  · have hr : (Message.displayChanged DEFAULT_DISPLAY).raises m true = false := by
      simp [Message.raises, hs]
    rw [hr]
    exact ⟨by simp, rfl⟩
  · have hr : (Message.displayChanged DEFAULT_DISPLAY).raises m true = true := by
      simp [Message.raises, hl, hon, hs, hc]
    rw [hr]
    exact raises_queueDesired ⟨by simp, rfl⟩
  · have hr : (Message.displayChanged DEFAULT_DISPLAY).raises m true = false := by
      simp [Message.raises, hc]
    rw [hr]
    exact ⟨by simp, rfl⟩

theorem raises_drainOne : Raises 0 m m.drainOne := by
  unfold drainOne
  split
  · exact ⟨by simp, rfl⟩
  · dsimp only
    split
    · exact raises_continueDrain ⟨by simp, rfl⟩
    · exact ⟨by simp, rfl⟩

/-- A message that is neither an update nor `loadState`. -/
theorem raises_handle (puts : SettingKey → Bool) (message : Message) (displayOn : Bool)
    (hu : ∀ g u, message ≠ .update g u) (hl : message ≠ .loadState) :
    Raises (message.raises m displayOn).toInt m (m.handle message displayOn puts) := by
  cases message with
  | loadState => exact absurd rfl hl
  | update g u => exact absurd rfl (hu g u)
  | setupChanged => exact raises_handleSetupStateChanged displayOn
  | drainOne => exact raises_drainOne
  | displayChanged displayId =>
    unfold handle
    dsimp only
    by_cases hid : displayId = DEFAULT_DISPLAY
    · subst hid
      simpa using raises_handleDisplayState displayOn
    · have hr : (Message.displayChanged displayId).raises m displayOn = false := by
        simp [Message.raises, hid]
      rw [hr, if_pos hid]
      exact ⟨by simp, rfl⟩

theorem raises_serviceReturn (r : Request) (result : Int) :
    Raises 0 m (m.serviceReturn r result) := by
  unfold serviceReturn
  split
  · exact ⟨by simp, rfl⟩
  · exact raises_continueDrain ⟨by simp, rfl⟩

theorem raises_consume {r : Request} {result : Int} (hr : m.handler = .consuming r result) :
    Raises (raisesGeneration m (.consume puts)).toInt m (m.consume puts r result) := by
  refine raises_continueDrain ?_
  obtain ⟨settings, initialization, ⟨hk, ho, hw, hon, heq⟩ | ⟨hk, ho, hno, heq⟩ | ⟨hk, ho, heq⟩ |
    ⟨hk, heq⟩⟩ := consumeCurrentResult_cases puts r result (m := { m with handler := .idle }) <;>
    rw [heq]
  · have hraise : raisesGeneration m (.consume puts) = true := by
      have hw' : m.wakeRestorePending = true := hw
      have hon' : m.displayOn = true := hon
      simp [raisesGeneration, hr, hk, ho, hw', hon']
    rw [hraise]
    exact raises_queueDesired ⟨by simp, rfl⟩
  · have hraise : raisesGeneration m (.consume puts) = false := by
      have hno' : ¬ (m.wakeRestorePending = true ∧ m.displayOn = true) := hno
      simpa [raisesGeneration, hr, hk, ho] using hno'
    rw [hraise]
    exact ⟨by simp, rfl⟩
  · have hraise : raisesGeneration m (.consume puts) = false := by
      simp [raisesGeneration, hr, ho]
    rw [hraise]
    exact ⟨by simp, rfl⟩
  · have hraise : raisesGeneration m (.consume puts) = false := by
      simp [raisesGeneration, hr, hk]
    rw [hraise]
    exact ⟨by simp, rfl⟩

/-- An update of the current generation is applied; a stale one is dropped. -/
theorem value_update (puts : SettingKey → Bool) (g : Int) (u : Update) (displayOn : Bool) :
    (m.handle (.update g u) displayOn puts).latestGeneration = m.latestGeneration ∧
      (m.handle (.update g u) displayOn puts).desired =
        if g = m.latestGeneration then u.apply m.desired else m.desired := by
  rw [handle_update]
  by_cases hg : g = m.latestGeneration
  · rw [if_neg (by simpa using hg), if_pos hg]
    have happly : (m.applyUpdate puts u).latestGeneration = m.latestGeneration ∧
        (m.applyUpdate puts u).desired = u.apply m.desired := by
      rw [applyUpdate_eq]
      exact ⟨rfl, rfl⟩
    have hrefl : Raises 0 (m.applyUpdate puts u) (m.applyUpdate puts u) := ⟨by simp, rfl⟩
    have h := raises_queueDesiredOrOff hrefl g u.kind
    exact ⟨by rw [h.generation, happly.1]; omega, h.desired.trans happly.2⟩
  · rw [if_pos (by simpa using hg), if_neg hg]
    exact ⟨rfl, rfl⟩

end Value

/-! ### The invariant -/

/-- The accepted state `d₀` and the updates accepted since determine the accepted state, up to the
update that is still to be handled. -/
structure Applied (d₀ : Desired) (log : List Event) (m : FrontLightManager) : Prop where
  current : ∀ p ∈ outstanding m, p.1 ≤ m.latestGeneration
  distinct : ((outstanding m).map Prod.fst).Nodup
  value : (∃ u, (m.latestGeneration, u) ∈ outstanding m ∧
      applyAll d₀ (acceptedUpdates log) = u.apply m.desired) ∨
    ((∀ u, (m.latestGeneration, u) ∉ outstanding m) ∧
      applyAll d₀ (acceptedUpdates log) = m.desired)
  /-- The updates are logged in generation order. -/
  ordered : (acceptedUpdates log).Pairwise fun p q => p.1 < q.1
  logged : ∀ p ∈ acceptedUpdates log, p.1 ≤ m.latestGeneration

section

variable {log : List Event} {m m' : FrontLightManager} {d₀ : Desired}
  {puts : SettingKey → Bool}

theorem outstanding_extends (h : Extends m m') : outstanding m' = outstanding m := by
  obtain ⟨n, hn⟩ := h.queue
  have hdrains : queuedUpdates (List.replicate n .drainOne) = [] := by
    simp [queuedUpdates]
  unfold outstanding
  rw [h.calls, hn]
  simp only [queuedUpdates, List.filterMap_append] at hdrains ⊢
  rw [hdrains, List.append_nil]

/-- Nothing the invariant reads has changed. -/
theorem Applied.congr (h : Applied d₀ log m) (ho : (outstanding m').Perm (outstanding m))
    (hg : m'.latestGeneration = m.latestGeneration) (hd : m'.desired = m.desired) :
    Applied d₀ log m' := by
  refine ⟨?_, ?_, ?_, h.ordered, by rw [hg]; exact h.logged⟩
  · intro p hp
    rw [hg]
    exact h.current p (ho.mem_iff.mp hp)
  · exact (ho.map _).nodup_iff.mpr h.distinct
  · rw [hg, hd]
    simpa only [ho.mem_iff] using h.value

/-- A display or setup event raises the generation past everything outstanding. -/
theorem Applied.raise (h : Applied d₀ log m) (ho : outstanding m' = outstanding m)
    (hg : m'.latestGeneration = m.latestGeneration + 1) (hd : m'.desired = m.desired)
    (habs : ∀ u, (m.latestGeneration, u) ∈ outstanding m → u.apply m.desired = m.desired) :
    Applied d₀ log m' := by
  refine ⟨?_, by rw [ho]; exact h.distinct, Or.inr ⟨?_, ?_⟩, h.ordered, ?_⟩
  · intro p hp
    have := h.current p (ho ▸ hp)
    omega
  · intro u hu
    have : m'.latestGeneration ≤ m.latestGeneration := h.current _ (ho ▸ hu)
    omega
  · rw [hd]
    rcases h.value with ⟨u, hu, hval⟩ | ⟨-, hval⟩
    · rw [hval, habs u hu]
    · exact hval
  · intro p hp
    have := h.logged p hp
    omega

/-- The step neither raises the generation nor touches the accepted state. -/
theorem Applied.keep (h : Applied d₀ log m) (ho : (outstanding m').Perm (outstanding m))
    (hr : Raises 0 m m') : Applied d₀ log m' :=
  h.congr ho (by rw [hr.generation]; omega) hr.desired

/-- A display or setup event, whether it raises the generation or not. -/
theorem Applied.event {raises : Bool} (h : Applied d₀ log m)
    (ho : outstanding m' = outstanding m) (hr : Raises raises.toInt m m')
    (habs : ∀ u, (m.latestGeneration, u) ∈ outstanding m → raises = true →
      u.apply m.desired = m.desired) : Applied d₀ log m' := by
  cases raises with
  | false => exact h.keep (ho ▸ List.Perm.refl _) hr
  | true => exact h.raise ho hr.generation hr.desired fun u hu => habs u hu rfl

/-- A new update becomes the current one; it absorbs the one it overtakes. -/
theorem Applied.submit {newer : Update} (h : Applied d₀ log m)
    (habs : ∀ u, (m.latestGeneration, u) ∈ outstanding m →
      newer.apply (u.apply m.desired) = newer.apply m.desired) :
    Applied d₀ (log ++ [.accepted (m.latestGeneration + 1) newer]) { m with
      latestGeneration := m.latestGeneration + 1
      calls := m.calls ++ [(m.latestGeneration + 1, newer)] } := by
  have hperm : (outstanding { m with
      latestGeneration := m.latestGeneration + 1
      calls := m.calls ++ [(m.latestGeneration + 1, newer)] }).Perm
        ((m.latestGeneration + 1, newer) :: outstanding m) := by
    simp only [outstanding, List.append_assoc, List.singleton_append]
    exact List.perm_middle
  have happ : acceptedUpdates (log ++ [.accepted (m.latestGeneration + 1) newer]) =
      acceptedUpdates log ++ [(m.latestGeneration + 1, newer)] := by
    simp [acceptedUpdates]
  refine ⟨?_, ?_, Or.inl ⟨newer, hperm.mem_iff.mpr (by simp), ?_⟩, ?_, ?_⟩
  · intro p hp
    show p.1 ≤ m.latestGeneration + 1
    rcases List.mem_cons.mp (hperm.mem_iff.mp hp) with rfl | hp'
    · exact Int.le_refl _
    · have := h.current p hp'
      omega
  · refine (hperm.map _).nodup_iff.mpr (List.nodup_cons.mpr ⟨?_, h.distinct⟩)
    intro hmem
    obtain ⟨p, hp, heq⟩ := List.mem_map.mp hmem
    have := h.current p hp
    omega
  · rw [happ, applyAll, List.foldl_append]
    show newer.apply (applyAll d₀ (acceptedUpdates log)) = newer.apply m.desired
    -- the overtaken update will be dropped; the newer one sets all that it would have set
    rcases h.value with ⟨u, hu, hval⟩ | ⟨-, hval⟩
    · rw [hval, habs u hu]
    · rw [hval]
  · rw [happ]
    refine List.pairwise_append.mpr ⟨h.ordered, List.pairwise_singleton _ _, ?_⟩
    intro p hp q hq
    rw [List.mem_singleton.mp hq]
    have := h.logged p hp
    show p.1 < m.latestGeneration + 1
    omega
  · intro p hp
    show p.1 ≤ m.latestGeneration + 1
    rcases List.mem_append.mp (happ ▸ hp) with hp' | hp'
    · have := h.logged p hp'
      omega
    · have hp'' : p.1 = m.latestGeneration + 1 := by rw [List.mem_singleton.mp hp']
      omega

/-- The update that was taken from the queue is applied if it is the current one. -/
theorem Applied.handle_update {g : Int} {u : Update} (h : Applied d₀ log m)
    (ho : (outstanding m).Perm ((g, u) :: outstanding m'))
    (hg : m'.latestGeneration = m.latestGeneration)
    (hd : m'.desired = if g = m.latestGeneration then u.apply m.desired else m.desired) :
    Applied d₀ log m' := by
  have hnodup := (ho.map Prod.fst).nodup_iff.mp h.distinct
  obtain ⟨hg_notin, hnodup'⟩ := List.nodup_cons.mp hnodup
  refine ⟨?_, hnodup', ?_, h.ordered, by rw [hg]; exact h.logged⟩
  · intro p hp
    rw [hg]
    exact h.current p (ho.mem_iff.mpr (List.mem_cons_of_mem _ hp))
  · rw [hg, hd]
    by_cases hcur : g = m.latestGeneration
    · -- the one current update has been applied, and no other has its generation
      rw [if_pos hcur]
      have hnone : ∀ u', (m.latestGeneration, u') ∉ outstanding m' := by
        intro u' hu'
        exact hg_notin (List.mem_map.mpr ⟨_, hu', hcur.symm⟩)
      refine Or.inr ⟨hnone, ?_⟩
      rcases h.value with ⟨u', hu', hval⟩ | ⟨hno, -⟩
      · rcases List.mem_cons.mp (ho.mem_iff.mp hu') with heq | hmem
        · rw [hval, (Prod.mk.inj heq).2]
        · exact absurd hmem (hnone u')
      · refine absurd (ho.mem_iff.mpr ?_) (hno u)
        rw [hcur]
        exact List.mem_cons_self
    · rw [if_neg hcur]
      refine h.value.imp ?_ ?_
      · rintro ⟨u', hu', hval⟩
        refine ⟨u', ?_, hval⟩
        rcases List.mem_cons.mp (ho.mem_iff.mp hu') with heq | hmem
        · exact absurd (Prod.mk.inj heq).1.symm hcur
        · exact hmem
      · rintro ⟨hno, hval⟩
        exact ⟨fun u' hu' => hno u' (ho.mem_iff.mpr (List.mem_cons_of_mem _ hu')), hval⟩

/-! ### Steps and runs -/

theorem queuedUpdates_append (q q' : List Message) :
    queuedUpdates (q ++ q') = queuedUpdates q ++ queuedUpdates q' := List.filterMap_append

theorem outstanding_eraseIdx {i : Nat} {message : Message} (hi : m.queue[i]? = some message) :
    (queuedUpdates [message] ++ outstanding { m with queue := m.queue.eraseIdx i }).Perm
      (outstanding m) := by
  have hq : (queuedUpdates [message] ++ queuedUpdates (m.queue.eraseIdx i)).Perm
      (queuedUpdates m.queue) := by
    rw [← queuedUpdates_append]
    exact (perm_cons_eraseIdx hi).filterMap _
  unfold outstanding
  refine List.Perm.trans ?_ (hq.append_left m.calls)
  rw [← List.append_assoc, ← List.append_assoc]
  exact List.perm_append_comm.append_right _

/-- The states between which the updates are accounted for: the saved state is loaded. -/
def Loaded (m : FrontLightManager) : Prop :=
  m.stateLoaded = true ∧ m.booted = true ∧ .loadState ∉ m.queue

theorem Loaded.extends (h : Loaded m) (he : Extends m m') : Loaded m' :=
  ⟨he.stateLoaded.trans h.1, he.booted.trans h.2.1,
    fun hmem => h.2.2 ((he.mem_queue (by simp)).mp hmem)⟩

/-- One message is taken from the queue and handled. -/
theorem applied_handle {i : Nat} {message : Message} {displayOn : Bool} (h : Applied d₀ log m)
    (hl : Loaded m) (habs : Absorbed m (.handle i displayOn puts))
    (hi : m.queue[i]? = some message)
    (hm' : m' = FrontLightManager.handle { m with queue := m.queue.eraseIdx i } message displayOn
      puts) : Applied d₀ log m' ∧ Loaded m' := by
  have hne : message ≠ .loadState := by
    rintro rfl
    exact hl.2.2 (List.mem_of_getElem? hi)
  have hext : Extends { m with queue := m.queue.eraseIdx i } m' :=
    hm' ▸ extends_handle message displayOn hne
  have hperm := outstanding_eraseIdx hi
  have hl₁ : Loaded { m with queue := m.queue.eraseIdx i } :=
    ⟨hl.1, hl.2.1, fun hmem => hl.2.2 (List.mem_of_mem_eraseIdx hmem)⟩
  refine ⟨?_, hl₁.extends hext⟩
  by_cases hu : ∃ g u, message = .update g u
  · obtain ⟨g, u, rfl⟩ := hu
    obtain ⟨hg, hd⟩ := value_update (m := { m with queue := m.queue.eraseIdx i }) puts g u displayOn
    rw [← hm'] at hg hd
    refine h.handle_update ?_ hg hd
    rw [outstanding_extends hext]
    exact hperm.symm
  · have hu' : ∀ g u, message ≠ .update g u := fun g u heq => hu ⟨g, u, heq⟩
    have hnil : queuedUpdates [message] = [] := by
      cases message with
      | update g u => exact absurd rfl (hu' g u)
      | _ => rfl
    rw [hnil, List.nil_append] at hperm
    -- the removal changes nothing, then the message is an event
    have h₁ : Applied d₀ log { m with queue := m.queue.eraseIdx i } := h.congr hperm rfl rfl
    have hr := raises_handle (m := { m with queue := m.queue.eraseIdx i }) puts message
      displayOn hu' hne
    rw [← hm'] at hr
    refine h₁.event (outstanding_extends hext) hr ?_
    intro u hmem hraise
    refine habs (m.latestGeneration, u) (hperm.mem_iff.mp hmem) rfl id ?_
    have hraise' : message.raises m displayOn = true := hraise
    simp [overtaking, raisesGeneration, hi, hraise']

/-- **Step lemma**: a step that absorbs what it overtakes keeps the account of the updates. -/
theorem applied_step {a : Action} {evs : List Event} (h : Applied d₀ log m) (hl : Loaded m)
    (habs : Absorbed m a) (hstep : FrontLight.step m a = some (m', evs)) :
    Applied d₀ (log ++ evs) m' ∧ Loaded m' := by
  -- events that are no accepted updates leave the account alone
  have hsame : ∀ es, acceptedUpdates es = [] → ∀ m₁, Applied d₀ log m₁ →
      Applied d₀ (log ++ es) m₁ := by
    intro es hes m₁ h₁
    have happ : acceptedUpdates (log ++ es) = acceptedUpdates log := by
      simpa [acceptedUpdates] using hes
    exact ⟨h₁.current, h₁.distinct, happ ▸ h₁.value, happ ▸ h₁.ordered, happ ▸ h₁.logged⟩
  -- a message that carries no update adds nothing outstanding
  have hpost : ∀ message, queuedUpdates [message] = [] → message ≠ .loadState →
      Applied d₀ (log ++ []) (m.post message) ∧ Loaded (m.post message) := by
    intro message hnil hne
    refine ⟨hsame [] rfl _ (h.congr ?_ rfl rfl), hl.1, hl.2.1, ?_⟩
    · simp only [outstanding, post, queuedUpdates_append, hnil, List.append_nil]
      exact List.Perm.refl _
    · intro hmem
      rcases List.mem_append.mp hmem with hmem | hmem
      · exact hl.2.2 hmem
      · exact hne (List.mem_singleton.mp hmem).symm
  cases a with
  | bootPhase =>
    simp only [FrontLight.step, hl.2.1, if_true, reduceCtorEq] at hstep
  | writeSetup value =>
    obtain ⟨rfl, rfl⟩ := Prod.mk.inj (Option.some.inj hstep)
    exact ⟨hsame [] rfl _ (h.congr (List.Perm.refl _) rfl rfl), hl⟩
  | notifySetup =>
    simp only [FrontLight.step, hl.2.1, if_true] at hstep
    obtain ⟨rfl, rfl⟩ := Prod.mk.inj (Option.some.inj hstep)
    exact hpost _ rfl (by simp)
  | notifyDisplay displayId =>
    simp only [FrontLight.step, hl.2.1, if_true] at hstep
    obtain ⟨rfl, rfl⟩ := Prod.mk.inj (Option.some.inj hstep)
    exact hpost _ rfl (by simp)
  | submit caller call =>
    simp only [FrontLight.step] at hstep
    split at hstep
    · obtain ⟨rfl, rfl⟩ := Prod.mk.inj (Option.some.inj hstep)
      exact ⟨hsame [] rfl _ h, hl⟩
    · next hcaller =>
      split at hstep
      · obtain ⟨rfl, rfl⟩ := Prod.mk.inj (Option.some.inj hstep)
        exact ⟨hsame [] rfl _ h, hl⟩
      · next newer hcall =>
        obtain ⟨rfl, rfl⟩ := Prod.mk.inj (Option.some.inj hstep)
        -- an accepted call overtakes what is outstanding, so it has to absorb it
        have hover : overtaking m (.submit caller call) = some fun d => newer.apply d := by
          simp only [Bool.not_eq_true', Bool.not_eq_false] at hcaller
          simp [overtaking, hcaller, hcall]
        refine ⟨h.submit fun u hu => ?_, hl⟩
        exact habs (m.latestGeneration, u) hu rfl _ hover
  | post i =>
    simp only [FrontLight.step] at hstep
    split at hstep
    · simp at hstep
    · next g u hi =>
      obtain ⟨rfl, rfl⟩ := Prod.mk.inj (Option.some.inj hstep)
      refine ⟨hsame [] rfl _ (h.congr ?_ rfl rfl), hl.1, hl.2.1, ?_⟩
      · -- the call's update moves to the end of the queue
        have hcalls : (m.calls.eraseIdx i ++ [(g, u)]).Perm m.calls :=
          (List.perm_append_singleton _ _).trans (perm_cons_eraseIdx hi)
        simp only [outstanding, FrontLightManager.post, queuedUpdates_append]
        refine List.Perm.trans ?_ (hcalls.append_right (queuedUpdates m.queue))
        rw [List.append_assoc]
        exact List.perm_append_comm.append_left _
      · simpa [FrontLightManager.post] using hl.2.2
  | handle i displayOn puts =>
    simp only [FrontLight.step] at hstep
    split at hstep
    · next message hidle hi =>
      obtain ⟨rfl, rfl⟩ := Prod.mk.inj (Option.some.inj hstep)
      obtain ⟨h', hl'⟩ := applied_handle h hl habs hi rfl
      refine ⟨hsame _ ?_ _ h', hl'⟩
      simp [acceptedUpdates]
    · simp at hstep
  | serviceReturn result =>
    simp only [FrontLight.step] at hstep
    split at hstep
    · next r hr =>
      obtain ⟨rfl, rfl⟩ := Prod.mk.inj (Option.some.inj hstep)
      have hext := extends_serviceReturn (m := m) r result
      refine ⟨hsame _ rfl _ (h.keep ?_ (raises_serviceReturn r result)), hl.extends hext⟩
      rw [outstanding_extends hext]
    · simp at hstep
  | consume puts =>
    simp only [FrontLight.step] at hstep
    split at hstep
    · next r result hr =>
      obtain ⟨rfl, rfl⟩ := Prod.mk.inj (Option.some.inj hstep)
      have hext := extends_consume (m := m) puts r result
      refine ⟨hsame [] rfl _ (h.event (outstanding_extends hext) (raises_consume hr) ?_),
        hl.extends hext⟩
      -- the raised generation overtakes what is outstanding, and applies nothing
      intro u hu hraise
      exact habs (m.latestGeneration, u) hu rfl id (by simp [overtaking, hraise])
    · simp at hstep

/-- Once nothing is outstanding, the account of the updates starts afresh. -/
theorem applied_refl (h : outstanding m = []) : Applied m.desired [] m := by
  refine ⟨?_, ?_, Or.inr ⟨?_, rfl⟩, List.Pairwise.nil, ?_⟩ <;> simp [h, acceptedUpdates]

theorem loaded_of_run {settings : SecureSettings} {as : List Action}
    (h : system.Run System.anyAction { settings := settings } as log m)
    (hl : m.stateLoaded = true) : Loaded m := by
  have hloads : m.queue.count .loadState + m.stateLoaded.toNat = m.booted.toNat :=
    (invariant_of_run h).2
  have hb := toNat_le_one m.booted
  rw [hl] at hloads
  simp only [Bool.toNat_true] at hloads
  refine ⟨hl, ?_, List.count_eq_zero.mp (by omega)⟩
  cases hbooted : m.booted with
  | true => rfl
  | false => simp [hbooted] at hloads

/-- **Accepted updates**: from any reachable state in which the saved state is loaded and no update
is on its way, in every run whose steps absorb the updates they overtake, the accepted state of a
drained manager is the result of all accepted updates, one after the other in generation order. -/
theorem accepted_updates_applied {settings : SecureSettings} {as₀ as : List Action}
    {log₀ : List Event} {s t : FrontLightManager}
    (h₀ : system.Run System.anyAction { settings := settings } as₀ log₀ s)
    (hl : s.stateLoaded = true) (hs : outstanding s = [])
    (h : system.Run Absorbed s as log t) (hq : t.queue = []) (hc : t.calls = []) :
    t.desired = applyAll s.desired (acceptedUpdates log) ∧
      (acceptedUpdates log).Pairwise (fun p q => p.1 < q.1) := by
  have hrun : Applied s.desired log t ∧ Loaded t := by
    refine h.induct (fun _ log t => Applied s.desired log t ∧ Loaded t)
      ⟨applied_refl hs, loaded_of_run h₀ hl⟩ ?_
    rintro _ log m a m' evs ⟨ha, hload⟩ habs hstep
    exact applied_step ha hload habs hstep
  have hnone : outstanding t = [] := by
    rw [outstanding, hq, hc]
    rfl
  refine ⟨?_, hrun.1.ordered⟩
  rcases hrun.1.value with ⟨u, hu, -⟩ | ⟨-, hval⟩
  · simp [hnone] at hu
  · exact hval.symm

end

/-- The system user sets the brightness to 60 and then the warmth to 80. -/
def brighten : Action := .submit ⟨SYSTEM_UID, false⟩ (.submitBrightnessRequest 60)

def warm : Action := .submit ⟨SYSTEM_UID, false⟩ (.submitWarmthRequest 80)

/-- A manager that has loaded an empty saved state, with the display on. -/
def bootedManager : FrontLightManager :=
  FrontLightManager.loadState { booted := true } (fun _ => true) true

theorem run_bootedManager : system.Run System.anyAction { settings := fun _ => none }
    [.bootPhase, .handle 0 true fun _ => true] [] bootedManager :=
  System.Run.of_exec rfl

/-- The warmth is handled after the brightness: both are applied. -/
theorem accepted_updates_applied_in_turn :
    ∃ log t, system.Run Absorbed bootedManager
        [brighten, .post 0, .handle 0 true fun _ => true, warm, .post 0,
          .handle 0 true fun _ => true] log t ∧
      t.desired = applyAll bootedManager.desired (acceptedUpdates log) ∧
      t.desired = ⟨true, 60, 80⟩ := by
  have h : system.Run Absorbed bootedManager [brighten, .post 0, .handle 0 true fun _ => true,
      warm, .post 0, .handle 0 true fun _ => true] _ _ := System.Run.of_exec rfl
  exact ⟨_, _, h, (accepted_updates_applied run_bootedManager rfl rfl h rfl rfl).1, rfl⟩

/-- The warmth is accepted before the brightness has been handled: the brightness is lost. -/
theorem accepted_update_lost :
    ∃ as₀ log₀ s as log t, system.Run System.anyAction { settings := fun _ => none } as₀ log₀ s ∧
      s.stateLoaded = true ∧ outstanding s = [] ∧
      system.Run System.anyAction s as log t ∧ Quiescent t ∧
      t.desired ≠ applyAll s.desired (acceptedUpdates log) := by
  have h : system.Run System.anyAction bootedManager [brighten, warm, .post 0, .post 0,
      .handle 0 true fun _ => true, .handle 0 true fun _ => true] _ _ := System.Run.of_exec rfl
  refine ⟨_, _, _, _, _, _, run_bootedManager, rfl, rfl, h, ⟨rfl, rfl, rfl⟩, ?_⟩
  decide

end EinkLab.FrontLight
