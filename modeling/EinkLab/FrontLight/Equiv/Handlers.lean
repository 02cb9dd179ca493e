import EinkLab.FrontLight.Basic
import Mathlib.Data.List.Perm.Basic

/-!
# What the front-light handlers do

Equations and case analyses for the parts of a handler message, and the frame rule they share:
handling a message never touches the binder calls, and it only appends drains to the queue
(`Extends`).  `handle_update` gives the four update handlers one form; `applyUpdate_eq` says that
what they assign is decided by the accepted state alone.
-/

namespace EinkLab.FrontLightManager

open FrontLight

variable {m m' m'' : FrontLightManager} {puts : SettingKey → Bool}

/-! ### Equations -/

theorem scheduleDrain_eq : m.scheduleDrain = { m with
    drainScheduled := true
    queue := if m.drainScheduled then m.queue else m.queue ++ [.drainOne] } := by
  unfold scheduleDrain
  split
  · next h => rw [h.symm]
  · rfl

/-- The three outcomes of `queueDesiredOrOff`: the manager is not ready, nothing is to be sent in
the dark, or a request becomes pending. -/
theorem queueDesiredOrOff_cases (g : Int) (kind : Kind) :
    (¬ (m.stateLoaded = true ∧ m.setupComplete = true) ∧ m.queueDesiredOrOff g kind = m) ∨
    (m.stateLoaded = true ∧ m.setupComplete = true ∧ m.displayOn = false ∧
      m.completedOffEpoch = m.screenEpoch ∧
      m.queueDesiredOrOff g kind = { m with pending := none }) ∨
    (m.stateLoaded = true ∧ m.setupComplete = true ∧ ∃ r,
      m.queueDesiredOrOff g kind = { m with pending := some r }.scheduleDrain ∧
      (r = .off g m.screenEpoch ∧
          (m.displayOn = false ∨ m.wakeRestorePending = true ∨ m.enabled = false) ∨
        r = .user kind g m.desiredBrightness m.desiredWarmth ∧ m.displayOn = true ∧
          m.wakeRestorePending = false ∧ m.enabled = true)) := by
  unfold queueDesiredOrOff selectPhysicalRequest
  cases hl : m.stateLoaded
  · exact Or.inl (by simp)
  cases hs : m.setupComplete
  · exact Or.inl (by simp)
  refine Or.inr ?_
  cases hon : m.displayOn
  · by_cases hc : m.completedOffEpoch = m.screenEpoch
    · exact Or.inl (by simp [hc])
    · exact Or.inr ⟨rfl, rfl, .off g m.screenEpoch, by simp [hc], Or.inl ⟨rfl, Or.inl rfl⟩⟩
  · refine Or.inr ⟨rfl, rfl, ?_⟩
    cases hw : m.wakeRestorePending
    · cases he : m.enabled
      · exact ⟨.off g m.screenEpoch, by simp, Or.inl ⟨rfl, Or.inr (Or.inr rfl)⟩⟩
      · exact ⟨.user kind g m.desiredBrightness m.desiredWarmth, by simp,
          Or.inr ⟨rfl, rfl, rfl, rfl⟩⟩
    · exact ⟨.off g m.screenEpoch, by simp, Or.inl ⟨rfl, Or.inr (Or.inl rfl)⟩⟩

/-- The outcomes of `handleSetupStateChanged`. -/
theorem handleSetupStateChanged_cases :
    (¬ (m.stateLoaded = true ∧ m.setupComplete = false ∧
        m.settings.getInt .userSetupComplete 0 ≠ 0) ∧ m.handleSetupStateChanged = m) ∨
    (m.stateLoaded = true ∧ m.setupComplete = false ∧
      m.settings.getInt .userSetupComplete 0 ≠ 0 ∧
      m.handleSetupStateChanged = FrontLightManager.queueDesiredOrOff { m with
        setupComplete := true
        latestGeneration := m.latestGeneration + 1
        initialization := (m.initialization.begin (m.latestGeneration + 1)).2 }
        (m.latestGeneration + 1) .initialization) := by
  unfold handleSetupStateChanged
  by_cases hl : m.stateLoaded = true
  · by_cases hs : m.setupComplete = true
    · exact Or.inl (by simp [hs])
    · by_cases hu : m.settings.getInt .userSetupComplete 0 = 0
      · exact Or.inl (by simp [hu])
      · exact Or.inr ⟨hl, by simpa using hs, hu, by simp [hl, hs, hu]⟩
  · exact Or.inl (by simp [hl])

/-- The outcomes of `handleDisplayState`: no change, a display going off, or one coming on before
the setup is complete, after a completed off, or while the off is still on its way. -/
theorem handleDisplayState_cases (displayOn : Bool) :
    (¬ (m.stateLoaded = true ∧ displayOn ≠ m.displayOn) ∧ m.handleDisplayState displayOn = m) ∨
    (m.stateLoaded = true ∧ m.displayOn = true ∧ displayOn = false ∧
      m.handleDisplayState displayOn = m.handleDisplayOff) ∨
    (m.stateLoaded = true ∧ m.displayOn = false ∧ displayOn = true ∧
      (m.setupComplete = false ∧ m.handleDisplayState displayOn = { m with displayOn := true } ∨
      m.setupComplete = true ∧ m.completedOffEpoch = m.screenEpoch ∧
        m.handleDisplayState displayOn =
          FrontLightManager.queueDesired { m with displayOn := true } ∨
      m.setupComplete = true ∧ m.completedOffEpoch ≠ m.screenEpoch ∧
        m.handleDisplayState displayOn =
          { m with displayOn := true, wakeRestorePending := true })) := by
  unfold handleDisplayState handleDisplayOn
  by_cases hl : m.stateLoaded = true
  · cases hon : m.displayOn <;> cases displayOn
    · exact Or.inl (by simp)
    · refine Or.inr (Or.inr ⟨hl, rfl, rfl, ?_⟩)
      by_cases hs : m.setupComplete = true
      · by_cases hc : m.completedOffEpoch = m.screenEpoch
        · exact Or.inr (Or.inl ⟨hs, hc, by simp [hl, hs, hc]⟩)
        · exact Or.inr (Or.inr ⟨hs, hc, by simp [hl, hs, hc]⟩)
      · exact Or.inl ⟨by simpa using hs, by simp [hl, hs]⟩
    · exact Or.inr (Or.inl ⟨hl, rfl, rfl, by simp [hl]⟩)
    · exact Or.inl (by simp)
  · exact Or.inl (by simp [hl])

/-- The outcomes of `consumeCurrentResult`, up to the tracker and the stored settings. -/
theorem consumeCurrentResult_cases (puts : SettingKey → Bool) (r : Request) (result : Int) :
    ∃ settings initialization,
      (r.kind = .off ∧ result = RESULT_OFF ∧ m.wakeRestorePending = true ∧ m.displayOn = true ∧
        m.consumeCurrentResult puts r result = FrontLightManager.queueDesired { m with
          completedOffEpoch := r.epoch, settings := settings
          initialization := initialization }) ∨
      (r.kind = .off ∧ result = RESULT_OFF ∧
        ¬ (m.wakeRestorePending = true ∧ m.displayOn = true) ∧
        m.consumeCurrentResult puts r result = { m with
          completedOffEpoch := r.epoch, settings := settings
          initialization := initialization }) ∨
      (r.kind = .off ∧ result ≠ RESULT_OFF ∧ m.consumeCurrentResult puts r result = { m with
        wakeRestorePending := false, settings := settings, initialization := initialization }) ∨
      (r.kind ≠ .off ∧ m.consumeCurrentResult puts r result = { m with
        settings := settings, initialization := initialization }) := by
  refine ⟨(m.consumeCurrentResult puts r result).settings,
    (m.consumeCurrentResult puts r result).initialization, ?_⟩
  unfold consumeCurrentResult
  by_cases hk : r.kind = .off
  · by_cases ho : result = RESULT_OFF
    · by_cases hw : m.wakeRestorePending = true ∧ m.displayOn = true
      · refine Or.inl ⟨hk, ho, hw.1, hw.2, ?_⟩
        simp [hk, ho, hw.1, hw.2, queueDesired, scheduleDrain_eq]
      · refine Or.inr (Or.inl ⟨hk, ho, hw, ?_⟩)
        simp [hk, ho, show ¬ (m.wakeRestorePending && m.displayOn) = true by simpa using hw]
    · exact Or.inr (Or.inr (Or.inl ⟨hk, ho, by simp [hk, ho]⟩))
  · refine Or.inr (Or.inr (Or.inr ⟨hk, ?_⟩))
    dsimp only
    rw [if_neg hk]
    split <;> rfl

/-- The accepted state decides the three fields an update assigns; nothing the scheduler reads
changes besides them. -/
theorem applyUpdate_eq (puts : SettingKey → Bool) (u : Update) :
    m.applyUpdate puts u = { m with
      enabled := (u.apply m.desired).enabled
      desiredBrightness := (u.apply m.desired).brightness
      desiredWarmth := (u.apply m.desired).warmth
      lastBrightness := (m.applyUpdate puts u).lastBrightness
      lastWarmth := (m.applyUpdate puts u).lastWarmth
      settings := (m.applyUpdate puts u).settings
      publishedState := (m.applyUpdate puts u).publishedState } := by
  cases u with
  | manual b w => by_cases hb : b > 0 <;> simp [applyUpdate, updateDesired, persistState,
      publishState, Update.apply, Desired.update, desired, hb]
  | brightness b => by_cases hb : b > 0 <;> simp [applyUpdate, updateDesired, persistState,
      publishState, Update.apply, Desired.update, desired, hb]
  | warmth w => by_cases hb : m.desiredBrightness > 0 <;> simp [applyUpdate, updateDesired,
      persistState, publishState, Update.apply, Desired.update, desired, hb]
  | enabled e => rfl

theorem handle_update (generation : Int) (u : Update) (displayOn : Bool)
    (puts : SettingKey → Bool) :
    m.handle (.update generation u) displayOn puts =
      if generation ≠ m.latestGeneration then m
      else (m.applyUpdate puts u).queueDesiredOrOff generation u.kind := by
  cases u <;> rfl

/-! ### Taking a message or a call -/

/-- The list of which the `i`-th element was taken, with that element back in front. -/
theorem perm_cons_eraseIdx {α : Type*} {l : List α} {i : Nat} {x : α} (h : l[i]? = some x) :
    (x :: l.eraseIdx i).Perm l := by
  obtain ⟨hi, rfl⟩ := List.getElem?_eq_some_iff.mp h
  exact List.getElem_cons_eraseIdx_perm hi

/-! ### The frame rule -/

/-- `m'` has the calls of `m`, and its queue up to drains at the end. -/
structure Extends (m m' : FrontLightManager) : Prop where
  calls : m'.calls = m.calls
  booted : m'.booted = m.booted
  stateLoaded : m'.stateLoaded = m.stateLoaded
  queue : ∃ n, m'.queue = m.queue ++ List.replicate n .drainOne

theorem Extends.refl (m : FrontLightManager) : Extends m m := ⟨rfl, rfl, rfl, 0, by simp⟩

theorem Extends.trans (h : Extends m m') (h' : Extends m' m'') : Extends m m'' := by
  obtain ⟨n, hn⟩ := h.queue
  obtain ⟨n', hn'⟩ := h'.queue
  refine ⟨h'.calls.trans h.calls, h'.booted.trans h.booted, h'.stateLoaded.trans h.stateLoaded,
    n + n', ?_⟩
  rw [hn', hn, List.append_assoc, List.replicate_append_replicate]

/-- The messages that are not drains stay what they are. -/
theorem Extends.mem_queue (h : Extends m m') {message : Message} (hne : message ≠ .drainOne) :
    message ∈ m'.queue ↔ message ∈ m.queue := by
  obtain ⟨n, hn⟩ := h.queue
  simp [hn, List.mem_replicate, hne]

theorem extends_scheduleDrain (h : Extends m m') : Extends m m'.scheduleDrain := by
  refine h.trans ?_
  rw [scheduleDrain_eq]
  refine ⟨rfl, rfl, rfl, ?_⟩
  cases m'.drainScheduled
  · exact ⟨1, rfl⟩
  · exact ⟨0, by simp⟩

theorem extends_continueDrain (h : Extends m m') : Extends m m'.continueDrain := by
  refine h.trans ?_
  unfold continueDrain
  split
  · exact ⟨rfl, rfl, rfl, 1, rfl⟩
  · exact ⟨rfl, rfl, rfl, 0, by simp⟩

theorem extends_queueDesiredOrOff (h : Extends m m') (g : Int) (kind : Kind) :
    Extends m (m'.queueDesiredOrOff g kind) := by
  refine h.trans ?_
  rcases queueDesiredOrOff_cases g kind (m := m') with
    ⟨-, heq⟩ | ⟨-, -, -, -, heq⟩ | ⟨-, -, r, heq, -⟩ <;> rw [heq]
  · exact .refl _
  · exact ⟨rfl, rfl, rfl, 0, by simp⟩
  · exact extends_scheduleDrain ⟨rfl, rfl, rfl, 0, by simp⟩

theorem extends_queueDesired : Extends m m.queueDesired :=
  extends_scheduleDrain ⟨rfl, rfl, rfl, 0, by simp⟩

theorem extends_handleSetupStateChanged : Extends m m.handleSetupStateChanged := by
  rcases handleSetupStateChanged_cases (m := m) with ⟨-, heq⟩ | ⟨-, -, -, heq⟩ <;> rw [heq]
  · exact .refl m
  · refine extends_queueDesiredOrOff ?_ _ _
    exact ⟨rfl, rfl, rfl, 0, by simp⟩

theorem extends_handleDisplayState (displayOn : Bool) :
    Extends m (m.handleDisplayState displayOn) := by
  rcases handleDisplayState_cases displayOn (m := m) with
    ⟨-, heq⟩ | ⟨-, -, -, heq⟩ | ⟨-, -, -, ⟨-, heq⟩ | ⟨-, -, heq⟩ | ⟨-, -, heq⟩⟩ <;> rw [heq]
  · exact .refl m
  · refine extends_scheduleDrain ?_
    exact ⟨rfl, rfl, rfl, 0, by simp⟩
  · exact ⟨rfl, rfl, rfl, 0, by simp⟩
  · refine Extends.trans ?_ extends_queueDesired
    exact ⟨rfl, rfl, rfl, 0, by simp⟩
  · exact ⟨rfl, rfl, rfl, 0, by simp⟩

theorem extends_update (g : Int) (u : Update) (displayOn : Bool) :
    Extends m (m.handle (.update g u) displayOn puts) := by
  rw [handle_update]
  split
  · exact .refl m
  · refine extends_queueDesiredOrOff ?_ _ _
    rw [applyUpdate_eq]
    exact ⟨rfl, rfl, rfl, 0, by simp⟩

theorem extends_drainOne : Extends m m.drainOne := by
  unfold drainOne
  split
  · exact ⟨rfl, rfl, rfl, 0, by simp⟩
  · dsimp only
    split
    · refine extends_continueDrain ?_
      exact ⟨rfl, rfl, rfl, 0, by simp⟩
    · exact ⟨rfl, rfl, rfl, 0, by simp⟩

theorem extends_consumeCurrentResult (r : Request) (result : Int) :
    Extends m (m.consumeCurrentResult puts r result) := by
  obtain ⟨settings, initialization, ⟨-, -, -, -, heq⟩ | ⟨-, -, -, heq⟩ | ⟨-, -, heq⟩ | ⟨-, heq⟩⟩ :=
    consumeCurrentResult_cases puts r result (m := m) <;> rw [heq]
  · refine Extends.trans ?_ extends_queueDesired
    exact ⟨rfl, rfl, rfl, 0, by simp⟩
  · exact ⟨rfl, rfl, rfl, 0, by simp⟩
  · exact ⟨rfl, rfl, rfl, 0, by simp⟩
  · exact ⟨rfl, rfl, rfl, 0, by simp⟩

theorem extends_serviceReturn (r : Request) (result : Int) :
    Extends m (m.serviceReturn r result) := by
  unfold serviceReturn
  split
  · exact ⟨rfl, rfl, rfl, 0, by simp⟩
  · refine extends_continueDrain ?_
    exact ⟨rfl, rfl, rfl, 0, by simp⟩

theorem extends_consume (puts : SettingKey → Bool) (r : Request) (result : Int) :
    Extends m (m.consume puts r result) := by
  refine extends_continueDrain (Extends.trans ?_ (extends_consumeCurrentResult r result))
  exact ⟨rfl, rfl, rfl, 0, by simp⟩

/-- `loadState` reads the settings into the accepted state, records the display and lets the setup
state be handled. -/
theorem loadState_eq (puts : SettingKey → Bool) (displayOn : Bool) : ∃ m₁ : FrontLightManager,
    m.loadState puts displayOn = m₁.handleSetupStateChanged ∧
    m₁ = { m with
      stateLoaded := true
      displayOn := displayOn
      enabled := m₁.enabled
      desiredBrightness := m₁.desiredBrightness
      desiredWarmth := m₁.desiredWarmth
      lastBrightness := m₁.lastBrightness
      lastWarmth := m₁.lastWarmth
      publishedState := m₁.publishedState
      initialization := m₁.initialization
      settings := m₁.settings } := by
  refine ⟨_, rfl, ?_⟩
  unfold restoreState
  dsimp only
  split <;> rfl

/-- Every message but `loadState` obeys the frame rule. -/
theorem extends_handle (message : Message) (displayOn : Bool) (hne : message ≠ .loadState) :
    Extends m (m.handle message displayOn puts) := by
  cases message with
  | loadState => exact absurd rfl hne
  | setupChanged => exact extends_handleSetupStateChanged
  | displayChanged displayId =>
    unfold handle
    dsimp only
    split
    · exact .refl m
    · exact extends_handleDisplayState displayOn
  | update g u => exact extends_update g u displayOn
  | drainOne => exact extends_drainOne

end EinkLab.FrontLightManager
