import EinkLab.FrontLight.Equiv.Scheduler

/-!
# What the manager has been told

Between two service calls the last answer is that to the last request (`Kept.answered`), everything
that is asked of the light is a percentage, and once the off of the current epoch has completed in
the dark, nothing is sent until the display comes on again, so that the last answer stays
`RESULT_OFF` (`Kept.dark`).
-/

namespace EinkLab.FrontLight

open Transition FrontLightManager

/-- The last request that was answered, with the answer. -/
def lastAnswer (log : List Event) : Option (Request × Int) :=
  (log.filterMap fun | .answered r result => some (r, result) | _ => none).getLast?

@[simp] theorem lastAnswer_append_sent (log : List Event) (r : Request) (on : Bool) :
    lastAnswer (log ++ [.sent r on]) = lastAnswer log := by
  simp [lastAnswer]

@[simp] theorem lastAnswer_append_accepted (log : List Event) (g : Int) (u : Update) :
    lastAnswer (log ++ [.accepted g u]) = lastAnswer log := by
  simp [lastAnswer]

@[simp] theorem lastAnswer_append_answered (log : List Event) (r : Request) (result : Int) :
    lastAnswer (log ++ [.answered r result]) = some (r, result) := by
  simp [lastAnswer]

/-! ### Ranges -/

def Request.InRange (r : Request) : Prop := isPercent r.brightness = true ∧
    isPercent r.warmth = true

def Update.InRange : Update → Prop
  | .manual b w => isPercent b = true ∧ isPercent w = true
  | .brightness b => isPercent b = true
  | .warmth w => isPercent w = true
  | .enabled _ => True

def Desired.InRange (d : Desired) : Prop := isPercent d.brightness = true ∧
    isPercent d.warmth = true

theorem Request.inRange_off (g e : Int) : (Request.off g e).InRange := by
  constructor <;> rfl

theorem isPercent_sanitizeNonzero {value fallback : Int} (h : isPercent fallback = true) :
    isPercent (sanitizeNonzero value fallback) = true := by
  unfold sanitizeNonzero
  split
  · next hvalue =>
    simp only [isPercent, Bool.and_eq_true, decide_eq_true_eq]
    omega
  · exact h

theorem isPercent_sanitizePercent {value fallback : Int} (h : isPercent fallback = true) :
    isPercent (sanitizePercent value fallback) = true := by
  unfold sanitizePercent
  split
  · next hvalue => exact hvalue
  · exact h

/-- What an update asks for is in range if it and what was asked for before are. -/
theorem Update.InRange.apply {u : Update} {d : Desired} (hu : u.InRange) (hd : d.InRange) :
    (u.apply d).InRange := by
  have hupdate : ∀ {brightness warmth : Int}, isPercent brightness = true →
    isPercent warmth = true →
      (d.update brightness warmth).InRange := by
    intro brightness warmth hb hw
    unfold Desired.update
    split
    · exact ⟨hb, hw⟩
    · exact hd
  cases u with
  | manual brightness warmth => exact hupdate hu.1 hu.2
  | brightness brightness => exact hupdate hu hd.2
  | warmth warmth => exact hupdate hd.1 hu
  | enabled enabled => exact hd

theorem inRange_of_update? {call : BinderCall} {u : Update} (h : call.update? = some u) :
    u.InRange := by
  cases call with
  | submitManualRequest brightness warmth =>
    simp only [BinderCall.update?] at h
    split at h
    · split at h
      · cases h
      · next hwarmth =>
        obtain rfl := Option.some.inj h
        show isPercent warmth = true
        simpa using hwarmth
    · split at h
      · cases h
      · next hboth =>
        obtain rfl := Option.some.inj h
        simpa [Update.InRange] using hboth
  | submitBrightnessRequest brightness =>
    simp only [BinderCall.update?] at h
    split at h
    · cases h
    · next hbrightness =>
      obtain rfl := Option.some.inj h
      simpa [Update.InRange] using hbrightness
  | submitWarmthRequest warmth =>
    simp only [BinderCall.update?] at h
    split at h
    · cases h
    · next hwarmth =>
      obtain rfl := Option.some.inj h
      simpa [Update.InRange] using hwarmth
  | setEnabled enabled =>
    obtain rfl := Option.some.inj h
    trivial

/-! ### The invariant -/

/-- The off of the current epoch has completed, and the display is recorded off. -/
def OffInDark (m : FrontLightManager) : Prop :=
  m.completedOffEpoch = m.screenEpoch ∧ m.displayOn = false

structure Kept (log : List Event) (m : FrontLightManager) : Prop where
  desired : m.desired.InRange
  pending : ∀ r, m.pending = some r → r.InRange
  serving : ∀ r, m.handler.request = some r → r.InRange
  calls : ∀ call ∈ m.calls, call.2.InRange
  queue : ∀ g u, .update g u ∈ m.queue → u.InRange
  answered : (∀ r, m.handler ≠ .invoking r) → (lastAnswer log).map Prod.fst = lastSent log
  consuming : ∀ r result, m.handler = .consuming r result → lastAnswer log = some (r, result)
  dark : OffInDark m → m.pending = none ∧ Idle m ∧
    ∃ r, lastAnswer log = some (r, RESULT_OFF) ∧ r.IsOff

variable {log : List Event} {m m' : FrontLightManager} {puts : SettingKey → Bool}

/-- The invariant does not read the settings, the generation or the drains in the queue. -/
theorem Kept.frame (h : Kept log m) (hdesired : m'.desired.InRange)
    (hpending : ∀ r, m'.pending = some r → r.InRange) (hhandler : m'.handler = m.handler)
    (hcalls : m'.calls = m.calls)
    (hqueue : ∀ g u, .update g u ∈ m'.queue → .update g u ∈ m.queue)
    (hdark : OffInDark m' → OffInDark m ∧ m'.pending = none) : Kept log m' where
  desired := hdesired
  pending := hpending
  serving r hr := h.serving r (by rwa [hhandler] at hr)
  calls call hcall := h.calls call (by rwa [hcalls] at hcall)
  queue g u hu := h.queue g u (hqueue g u hu)
  answered hinvoking := h.answered (by rwa [hhandler] at hinvoking)
  consuming r result hr := h.consuming r result (by rwa [hhandler] at hr)
  dark hoff := by
    obtain ⟨hbefore, hnone⟩ := hdark hoff
    obtain ⟨-, hidle, hanswer⟩ := h.dark hbefore
    exact ⟨hnone, hhandler.trans hidle, hanswer⟩

theorem Kept.scheduleDrain (h : Kept log m) : Kept log m.scheduleDrain := by
  rw [scheduleDrain_eq]
  refine h.frame h.desired h.pending rfl rfl (fun g u hu => ?_)
    fun hoff => ⟨hoff, (h.dark hoff).1⟩
  dsimp only at hu
  split at hu
  · exact hu
  · rcases List.mem_append.mp hu with hu | hu
    · exact hu
    · cases List.mem_singleton.mp hu

theorem Kept.continueDrain (h : Kept log m) : Kept log m.continueDrain := by
  unfold FrontLightManager.continueDrain
  split
  · refine h.frame h.desired h.pending rfl rfl (fun g u hu => ?_)
      fun hoff => ⟨hoff, (h.dark hoff).1⟩
    rcases List.mem_append.mp hu with hu | hu
    · exact hu
    · cases List.mem_singleton.mp hu
  · exact h.frame h.desired h.pending rfl rfl (fun _ _ hu => hu)
      fun hoff => ⟨hoff, (h.dark hoff).1⟩

/-- A request becomes pending, but not after the off has completed in the dark. -/
theorem Kept.request (h : Kept log m) {r : Request} (hr : r.InRange) (hlit : ¬ OffInDark m) :
    Kept log { m with pending := some r }.scheduleDrain := by
  refine Kept.scheduleDrain (h.frame h.desired ?_ rfl rfl (fun _ _ hu => hu)
    fun hoff => absurd hoff hlit)
  intro r' hr'
  obtain rfl := Option.some.inj hr'
  exact hr

theorem queueDesiredOrOff_dark (h : OffInDark m) (g : Int) (kind : Kind) :
    m.queueDesiredOrOff g kind = m ∨ m.queueDesiredOrOff g kind = { m with pending := none } := by
  unfold queueDesiredOrOff selectPhysicalRequest
  split
  · exact Or.inl rfl
  · refine Or.inr ?_
    simp [h.1, h.2]

theorem Kept.queueDesiredOrOff (h : Kept log m) (g : Int) (kind : Kind) :
    Kept log (m.queueDesiredOrOff g kind) := by
  by_cases hdark : OffInDark m
  · rcases queueDesiredOrOff_dark hdark g kind with heq | heq <;> rw [heq]
    · exact h
    · exact h.frame h.desired (fun r hr => absurd hr.symm (Option.some_ne_none r)) rfl rfl
        (fun _ _ hu => hu) fun _ => ⟨hdark, rfl⟩
  · rcases queueDesiredOrOff_cases g kind (m := m) with
      ⟨-, heq⟩ | ⟨-, -, hoff, hcompleted, -⟩ | ⟨-, -, r, heq, hr⟩
    · rw [heq]
      exact h
    · exact absurd ⟨hcompleted, hoff⟩ hdark
    · rw [heq]
      refine h.request ?_ hdark
      rcases hr with ⟨rfl, -⟩ | ⟨rfl, -⟩
      · exact Request.inRange_off _ _
      · exact h.desired

theorem Kept.queueDesired (h : Kept log m) (hon : m.displayOn = true) :
    Kept log m.queueDesired := by
  have hlit : ∀ m' : FrontLightManager, m'.displayOn = m.displayOn → ¬ OffInDark m' := by
    intro m' heq hdark
    exact absurd ((heq.trans hon).symm.trans hdark.2) (by decide)
  refine Kept.request (m := { m with
    wakeRestorePending := false, latestGeneration := m.latestGeneration + 1 })
    (h.frame h.desired h.pending rfl rfl (fun _ _ hu => hu) fun hdark => absurd hdark (hlit _ rfl))
    ?_ (hlit _ rfl)
  cases m.enabled
  · exact Request.inRange_off _ _
  · exact h.desired

theorem Kept.handleDisplayOff (h : Kept log m) (hepoch : 0 ≤ m.screenEpoch) :
    Kept log m.handleDisplayOff := by
  have hlit : ∀ m' : FrontLightManager, m'.completedOffEpoch = -1 →
      m'.screenEpoch = m.screenEpoch + 1 → ¬ OffInDark m' := by
    intro m' hcompleted hscreen hdark
    have heq := hdark.1
    omega
  exact Kept.request (m := { m with
    displayOn := false, wakeRestorePending := false, completedOffEpoch := -1
    screenEpoch := m.screenEpoch + 1, latestGeneration := m.latestGeneration + 1 })
    (h.frame h.desired h.pending rfl rfl (fun _ _ hu => hu)
      fun hdark => absurd hdark (hlit _ rfl rfl))
    (Request.inRange_off _ _) (hlit _ rfl rfl)

theorem Kept.handleSetupStateChanged (h : Kept log m) : Kept log m.handleSetupStateChanged := by
  rcases handleSetupStateChanged_cases (m := m) with ⟨-, heq⟩ | ⟨-, -, -, heq⟩ <;> rw [heq]
  · exact h
  · refine Kept.queueDesiredOrOff ?_ _ _
    exact h.frame h.desired h.pending rfl rfl (fun _ _ hu => hu) fun hoff => ⟨hoff, (h.dark hoff).1⟩

theorem Kept.handleDisplayState (h : Kept log m) (hepoch : 0 ≤ m.screenEpoch) (displayOn : Bool) :
    Kept log (m.handleDisplayState displayOn) := by
  have hshown : Kept log { m with displayOn := true } :=
    h.frame h.desired h.pending rfl rfl (fun _ _ hu => hu) fun hoff => nomatch hoff.2
  rcases handleDisplayState_cases displayOn (m := m) with
    ⟨-, heq⟩ | ⟨-, -, -, heq⟩ | ⟨-, -, -, ⟨-, heq⟩ | ⟨-, -, heq⟩ | ⟨-, -, heq⟩⟩ <;> rw [heq]
  · exact h
  · exact h.handleDisplayOff hepoch
  · exact hshown
  · exact hshown.queueDesired rfl
  · exact hshown.frame hshown.desired hshown.pending rfl rfl (fun _ _ hu => hu)
      fun hoff => nomatch hoff.2

theorem inRange_restoreState (h : m.desired.InRange) : m.restoreState.desired.InRange := by
  unfold restoreState
  dsimp only
  split
  · exact h
  · exact ⟨isPercent_sanitizeNonzero rfl, isPercent_sanitizePercent rfl⟩

theorem Kept.loadState (h : Kept log m) (hs : Scheduled 0 log m) (hl : m.stateLoaded = false)
    (displayOn : Bool) : Kept log (m.loadState puts displayOn) := by
  obtain ⟨-, -, hcompleted, hscreen⟩ := hs.unloaded hl
  -- no off has completed before the state is loaded
  have hnever : ∀ m' : FrontLightManager, m'.completedOffEpoch = m.completedOffEpoch →
      m'.screenEpoch = m.screenEpoch → ¬ OffInDark m' := by
    intro m' hc hs' hdark
    have heq := hdark.1
    omega
  have hread := inRange_restoreState h.desired
  unfold FrontLightManager.loadState
  refine Kept.handleSetupStateChanged ?_
  have hfields : m.restoreState.pending = m.pending ∧ m.restoreState.handler = m.handler ∧
      m.restoreState.calls = m.calls ∧ m.restoreState.queue = m.queue ∧
      m.restoreState.completedOffEpoch = m.completedOffEpoch ∧
      m.restoreState.screenEpoch = m.screenEpoch := by
    unfold restoreState
    dsimp only
    split <;> exact ⟨rfl, rfl, rfl, rfl, rfl, rfl⟩
  obtain ⟨hpending, hhandler, hcalls, hqueue, hc, hs'⟩ := hfields
  refine h.frame hread (fun r hr => h.pending r (hpending ▸ hr)) hhandler hcalls
    (fun g u hu => hqueue ▸ hu) fun hoff => absurd hoff (hnever _ hc hs')

theorem Kept.update (h : Kept log m) {g : Int} {u : Update} (hu : u.InRange) (displayOn : Bool) :
    Kept log (m.handle (.update g u) displayOn puts) := by
  rw [handle_update]
  split
  · exact h
  · refine Kept.queueDesiredOrOff ?_ _ _
    rw [applyUpdate_eq]
    exact h.frame (hu.apply h.desired) h.pending rfl rfl (fun _ _ hu => hu)
      fun hoff => ⟨hoff, (h.dark hoff).1⟩

/-- A drain, and what it sends. -/
theorem Kept.drainOne (h : Kept log m) (hidle : Idle m) :
    Kept (log ++ m.drainOne.handler.request.toList.map (.sent · m.drainOne.displayOn))
    m.drainOne := by
  have hnothing : ∀ m' : FrontLightManager, m'.handler = .idle → Kept log m' →
      Kept (log ++ m'.handler.request.toList.map (.sent · m'.displayOn)) m' := by
    intro m' hm' hk
    rw [hm']
    simpa [HandlerPhase.request] using hk
  unfold FrontLightManager.drainOne
  cases hp : m.pending with
  | none =>
    have hdone : Kept log { m with pending := none, drainScheduled := false } :=
      h.frame h.desired (fun r hr => absurd hr.symm (Option.some_ne_none r)) rfl rfl
        (fun _ _ hu => hu) fun hoff => ⟨hoff, rfl⟩
    exact hnothing { m with pending := none, drainScheduled := false } hidle hdone
  | some r =>
    have hlit : ¬ OffInDark m := fun hoff => by cases hp.symm.trans (h.dark hoff).1
    have htaken : Kept log { m with pending := none } :=
      h.frame h.desired (fun r hr => absurd hr.symm (Option.some_ne_none r)) rfl rfl
        (fun _ _ hu => hu) fun hoff => absurd hoff hlit
    dsimp only
    split
    · refine hnothing _ ?_ htaken.continueDrain
      unfold FrontLightManager.continueDrain
      split <;> exact hidle
    · -- the request goes out, and is not answered yet
      exact {
        desired := h.desired
        pending := htaken.pending
        serving := fun r' hr' => by
          obtain rfl := Option.some.inj hr'
          exact h.pending r hp
        calls := h.calls
        queue := h.queue
        answered := fun hinvoking => absurd rfl (hinvoking r)
        consuming := fun r' result hr' => by cases hr'
        dark := fun hoff => absurd hoff hlit }

theorem Kept.serviceReturn (h : Kept log m) {r : Request} (hr : m.handler = .invoking r)
    (hlast : lastSent log = some r) (result : Int) :
    Kept (log ++ [.answered r result]) (m.serviceReturn r result) := by
  have hlit : ∀ m' : FrontLightManager, m'.completedOffEpoch = m.completedOffEpoch →
      m'.screenEpoch = m.screenEpoch → m'.displayOn = m.displayOn → ¬ OffInDark m' := by
    intro m' hc hs hon hoff
    have hidle : m.handler = .idle := (h.dark ⟨hc ▸ hs ▸ hoff.1, hon ▸ hoff.2⟩).2.1
    cases hr.symm.trans hidle
  have hrange := h.serving r (by rw [hr]; rfl)
  have hmatch : (lastAnswer (log ++ [.answered r result])).map Prod.fst =
      lastSent (log ++ [.answered r result]) := by
    rw [lastAnswer_append_answered, lastSent_append_answered, hlast]
    rfl
  unfold FrontLightManager.serviceReturn
  split
  · exact {
      desired := h.desired
      pending := h.pending
      serving := fun r' hr' => by
        obtain rfl := Option.some.inj hr'
        exact hrange
      calls := h.calls
      queue := h.queue
      answered := fun _ => hmatch
      consuming := fun r' result' heq => by
        obtain ⟨rfl, rfl⟩ := HandlerPhase.consuming.inj heq
        exact lastAnswer_append_answered _ _ _
      dark := fun hoff => absurd hoff (hlit _ rfl rfl rfl) }
  · refine Kept.continueDrain ?_
    exact {
      desired := h.desired
      pending := h.pending
      serving := fun r' hr' => by cases hr'
      calls := h.calls
      queue := h.queue
      answered := fun _ => hmatch
      consuming := fun r' result' heq => by cases heq
      dark := fun hoff => absurd hoff (hlit _ rfl rfl rfl) }

/-- The answer is dealt with: in the dark, a completed off is the last that was answered. -/
theorem Kept.consume (h : Kept log m) {r : Request} {result : Int}
    (hr : m.handler = .consuming r result) (hs : Serving log m r) :
    Kept log (m.consume puts r result) := by
  have hlit : ¬ OffInDark m := by
    intro hoff
    have hidle : m.handler = .idle := (h.dark hoff).2.1
    cases hr.symm.trans hidle
  have hanswer := h.consuming r result hr
  have hmatch : (lastAnswer log).map Prod.fst = lastSent log :=
    h.answered fun r' heq => by cases hr.symm.trans heq
  have hidle : Kept log { m with handler := .idle } := {
    desired := h.desired
    pending := h.pending
    serving := fun r' hr' => by cases hr'
    calls := h.calls
    queue := h.queue
    answered := fun _ => hmatch
    consuming := fun r' result' heq => by cases heq
    dark := fun hoff => absurd hoff hlit }
  unfold FrontLightManager.consume
  refine Kept.continueDrain ?_
  obtain ⟨settings, initialization, ⟨-, -, -, hon, heq⟩ | ⟨hkind, hresult, -, heq⟩ | ⟨-, -, heq⟩ |
    ⟨-, heq⟩⟩ := consumeCurrentResult_cases puts r result (m := { m with handler := .idle }) <;>
    rw [heq]
  · refine Kept.queueDesired ?_ hon
    exact hidle.frame h.desired h.pending rfl rfl (fun _ _ hu => hu)
      fun hoff => absurd (hon.symm.trans hoff.2) (by decide)
  · exact {
      desired := h.desired
      pending := h.pending
      serving := fun r' hr' => by cases hr'
      calls := h.calls
      queue := h.queue
      answered := fun _ => hmatch
      consuming := fun r' result' heq' => by cases heq'
      dark := fun _ => ⟨hs.pending, rfl, r, hresult ▸ hanswer, hs.wellFormed hkind⟩ }
  · exact hidle.frame h.desired h.pending rfl rfl (fun _ _ hu => hu) fun hoff => absurd hoff hlit
  · exact hidle.frame h.desired h.pending rfl rfl (fun _ _ hu => hu) fun hoff => absurd hoff hlit

/-! ### Runs -/

theorem idle_handleSetupStateChanged (h : Idle m) : Idle m.handleSetupStateChanged := by
  rcases handleSetupStateChanged_cases (m := m) with ⟨-, heq⟩ | ⟨-, -, -, heq⟩ <;> rw [heq]
  · exact h
  · apply idle_queueDesiredOrOff
    exact h

theorem idle_handleDisplayState (h : Idle m) (displayOn : Bool) :
    Idle (m.handleDisplayState displayOn) := by
  rcases handleDisplayState_cases displayOn (m := m) with
    ⟨-, heq⟩ | ⟨-, -, -, heq⟩ | ⟨-, -, -, ⟨-, heq⟩ | ⟨-, -, heq⟩ | ⟨-, -, heq⟩⟩ <;> rw [heq]
  · exact h
  · exact idle_scheduleDrain h
  · exact h
  · exact idle_scheduleDrain h
  · exact h

theorem kept_handle {i : Nat} {message : Message} {displayOn : Bool} (h : Kept log m)
    (hs : Scheduled 0 log m) (hl : Loads m) (hidle : Idle m) (hi : m.queue[i]? = some message)
    (hm' : m' = FrontLightManager.handle { m with queue := m.queue.eraseIdx i } message displayOn
      puts) :
    Kept (log ++ m'.handler.request.toList.map (.sent · m'.displayOn)) m' := by
  have hmem : ∀ message' ∈ m.queue.eraseIdx i, message' ∈ m.queue :=
    fun _ hmem => List.mem_of_mem_eraseIdx hmem
  have hrest : Kept log { m with queue := m.queue.eraseIdx i } :=
    h.frame h.desired h.pending rfl rfl (fun g u hu => hmem _ hu)
      fun hoff => ⟨hoff, (h.dark hoff).1⟩
  -- a handler that ends idle has sent nothing
  have hdone : ∀ m₁ : FrontLightManager, m₁.handler = .idle → Kept log m₁ →
      Kept (log ++ m₁.handler.request.toList.map (.sent · m₁.displayOn)) m₁ := by
    intro m₁ hm₁ hk
    rw [hm₁]
    simpa [HandlerPhase.request] using hk
  subst hm'
  cases message with
  | loadState =>
    have hunloaded : m.stateLoaded = false := by
      have hpos : 0 < m.queue.count .loadState := List.count_pos_iff.mpr (List.mem_of_getElem? hi)
      have hb := toNat_le_one m.booted
      have hsum : m.queue.count .loadState + m.stateLoaded.toNat = m.booted.toNat := hl
      cases hloaded : m.stateLoaded with
      | false => rfl
      | true =>
        rw [hloaded] at hsum
        simp only [Bool.toNat_true] at hsum
        omega
    obtain ⟨m₁, heq, hm₁⟩ :=
      loadState_eq (m := { m with queue := m.queue.eraseIdx i }) puts displayOn
    have hafter : Idle (FrontLightManager.loadState { m with queue := m.queue.eraseIdx i } puts
        displayOn) := by
      rw [heq]
      refine idle_handleSetupStateChanged ?_
      rw [hm₁]
      exact hidle
    refine hdone _ hafter (hrest.loadState ⟨?_, hs.scheduled, hs.pending, hs.unloaded, hs.epoch,
      hs.wake, hs.sent, hs.completed⟩ hunloaded displayOn)
    have hcount := (perm_cons_eraseIdx hi).count_eq .drainOne
    rw [List.count_cons_of_ne (by decide)] at hcount
    exact hcount ▸ hs.drains
  | setupChanged =>
    exact hdone _ (idle_handleSetupStateChanged hidle) hrest.handleSetupStateChanged
  | displayChanged displayId =>
    refine hdone _ ?_ ?_ <;> unfold FrontLightManager.handle <;> dsimp only <;> split
    · exact hidle
    · apply idle_handleDisplayState
      exact hidle
    · exact hrest
    · exact hrest.handleDisplayState hs.epoch displayOn
  | update g u =>
    refine hdone _ ?_ (hrest.update (h.queue g u (List.mem_of_getElem? hi)) displayOn)
    rw [handle_update]
    split
    · exact hidle
    · refine idle_queueDesiredOrOff ?_ _ _
      rw [applyUpdate_eq]
      exact hidle
  | drainOne => exact hrest.drainOne hidle

/-- Every step of the manager keeps this as well. -/
theorem kept_step {a : Action} {evs : List Event} (h : Kept log m) (hi : Invariant log m)
    (hl : Loads m) (hstep : FrontLight.step m a = some (m', evs)) : Kept (log ++ evs) m' := by
  -- queue, calls and settings may change as long as what they hold is in range
  have hsame : ∀ {queue : List Message} {calls : List (Int × Update)} {settings : SecureSettings}
      {booted : Bool}, (∀ call ∈ calls, call.2.InRange) →
      (∀ g u, .update g u ∈ queue → u.InRange) →
        Kept log { m with
        queue := queue, calls := calls, settings := settings, booted := booted } :=
    fun hcalls hqueue =>
      ⟨h.desired, h.pending, h.serving, hcalls, hqueue, h.answered, h.consuming, h.dark⟩
  have hposted : ∀ message, (∀ g u, message = .update g u → u.InRange) →
      ∀ g u, .update g u ∈ m.queue ++ [message] → u.InRange := by
    intro message hmessage g u hu
    rcases List.mem_append.mp hu with hu | hu
    · exact h.queue g u hu
    · exact hmessage g u (List.mem_singleton.mp hu).symm
  cases a with
  | bootPhase =>
    simp only [FrontLight.step] at hstep
    split at hstep
    · cases hstep
    · obtain ⟨rfl, rfl⟩ := Prod.mk.inj (Option.some.inj hstep)
      rw [List.append_nil]
      exact hsame h.calls (hposted _ fun g u heq => by cases heq)
  | writeSetup value =>
    obtain ⟨rfl, rfl⟩ := Prod.mk.inj (Option.some.inj hstep)
    rw [List.append_nil]
    exact hsame h.calls h.queue
  | notifySetup =>
    simp only [FrontLight.step] at hstep
    split at hstep
    · obtain ⟨rfl, rfl⟩ := Prod.mk.inj (Option.some.inj hstep)
      rw [List.append_nil]
      exact hsame h.calls (hposted _ fun g u heq => by cases heq)
    · cases hstep
  | notifyDisplay displayId =>
    simp only [FrontLight.step] at hstep
    split at hstep
    · obtain ⟨rfl, rfl⟩ := Prod.mk.inj (Option.some.inj hstep)
      rw [List.append_nil]
      exact hsame h.calls (hposted _ fun g u heq => by cases heq)
    · cases hstep
  | submit caller call =>
    simp only [FrontLight.step] at hstep
    split at hstep
    · obtain ⟨rfl, rfl⟩ := Prod.mk.inj (Option.some.inj hstep)
      rw [List.append_nil]
      exact h
    · split at hstep
      · obtain ⟨rfl, rfl⟩ := Prod.mk.inj (Option.some.inj hstep)
        rw [List.append_nil]
        exact h
      · next u hu =>
        -- an accepted call: it is logged, and its update is in range
        obtain ⟨rfl, rfl⟩ := Prod.mk.inj (Option.some.inj hstep)
        refine ⟨h.desired, h.pending, h.serving, fun call' hcall' => ?_, h.queue, fun hidle => ?_,
          fun r result hr => ?_, fun hoff => ?_⟩
        · rcases List.mem_append.mp hcall' with hcall' | hcall'
          · exact h.calls call' hcall'
          · rw [List.mem_singleton.mp hcall']
            exact inRange_of_update? hu
        · rw [lastAnswer_append_accepted, lastSent_append_accepted]
          exact h.answered hidle
        · rw [lastAnswer_append_accepted]
          exact h.consuming r result hr
        · rw [lastAnswer_append_accepted]
          exact h.dark hoff
  | post i =>
    simp only [FrontLight.step] at hstep
    split at hstep
    · cases hstep
    · next g u hcall =>
      obtain ⟨rfl, rfl⟩ := Prod.mk.inj (Option.some.inj hstep)
      rw [List.append_nil]
      refine hsame (fun call hmem => h.calls call (List.mem_of_mem_eraseIdx hmem))
        (hposted _ fun g' u' heq => ?_)
      obtain ⟨-, rfl⟩ := Message.update.inj heq
      exact h.calls _ (List.mem_of_getElem? hcall)
  | handle i displayOn puts =>
    simp only [FrontLight.step] at hstep
    split at hstep
    · next message hidle hmessage =>
      obtain ⟨rfl, rfl⟩ := Prod.mk.inj (Option.some.inj hstep)
      exact kept_handle h (ready_of_invariant hi hidle).scheduled hl hidle hmessage rfl
    · cases hstep
  | serviceReturn result =>
    simp only [FrontLight.step] at hstep
    split at hstep
    · next r hr =>
      obtain ⟨rfl, rfl⟩ := Prod.mk.inj (Option.some.inj hstep)
      exact h.serviceReturn hr (hi.serving r (by rw [hr]; rfl)).last result
    · cases hstep
  | consume puts =>
    simp only [FrontLight.step] at hstep
    split at hstep
    · next r result hr =>
      obtain ⟨rfl, rfl⟩ := Prod.mk.inj (Option.some.inj hstep)
      rw [List.append_nil]
      exact h.consume hr (hi.serving r (by rw [hr]; rfl))
    · cases hstep

theorem kept_init (settings : SecureSettings) : Kept [] { settings := settings } where
  desired := ⟨rfl, rfl⟩
  pending _ h := by cases h
  serving _ h := by cases h
  calls _ h := by cases h
  queue _ _ h := by cases h
  answered _ := rfl
  consuming _ _ h := by cases h
  dark h := absurd h.1 (show ¬ (-1 : Int) = 0 by decide)

/-- A manager at rest has last sent what its state calls for, if turning off has always
succeeded. -/
theorem sent_at_rest (hinv : Invariant log m) (hrest : Quiescent m)
    (hsetup : m.setupComplete = true)
    (hoffs : OffsSucceed log) :
    ∃ r, lastSent log = some r ∧ (r.brightness, r.warmth) = output m := by
  obtain ⟨hqueue, hcalls, hidle⟩ := hrest
  have hhandler : m.handler = .idle := hidle
  cases hinv.progress hoffs hsetup with
  | covered hc =>
    obtain ⟨u, hu⟩ := hc
    simp [hqueue, hcalls] at hu
  | requested r hp hr =>
    -- a pending request would have a drain queued
    have hdrains := hinv.scheduled.drains
    rw [hinv.scheduled.scheduled (by simp [hp]), hqueue, hhandler] at hdrains
    simp [HandlerPhase.request] at hdrains
  | serving r hserv hr =>
    rw [hhandler] at hserv
    cases hserv
  | settled hsettled => exact hsettled.sent

end EinkLab.FrontLight
