import EinkLab.FrontLight.Equiv.Handlers
import Mathlib.Data.List.Count
import Mathlib.Tactic.Cases

/-!
# The front-light output scheduler

Three results about every run of the manager: no request with light is sent while the display is
recorded off (`sent_off_while_display_off`), a pending request always has exactly one drain queued
between handler messages (`Scheduled`), and a quiescent manager has sent what its state calls for.

`Scheduled d log m` is the invariant of the drain protocol, where `d` is the number of drains that
the handler is executing.  `Progress log m` is the invariant behind quiescence: an update that is
still to be handled, a pending request or the request in service will bring the right output, or it
has been sent already.
-/

namespace EinkLab.FrontLight

open Transition FrontLightManager

/-! ### Reading the log -/

/-- The requests sent to the physical service, oldest first. -/
def sentRequests (log : List Event) : List Request :=
  log.filterMap fun | .sent r _ => some r | _ => none

def lastSent (log : List Event) : Option Request := (sentRequests log).getLast?

/-- Every request to turn the light off has been answered `RESULT_OFF`. -/
def OffsSucceed (log : List Event) : Prop :=
  ∀ r result, .answered r result ∈ log → r.kind = .off → result = RESULT_OFF

@[simp] theorem lastSent_append_sent (log : List Event) (r : Request) (on : Bool) :
    lastSent (log ++ [.sent r on]) = some r := by
  simp [lastSent, sentRequests]

@[simp] theorem lastSent_append_accepted (log : List Event) (g : Int) (u : Update) :
    lastSent (log ++ [.accepted g u]) = lastSent log := by
  simp [lastSent, sentRequests]

@[simp] theorem lastSent_append_answered (log : List Event) (r : Request) (result : Int) :
    lastSent (log ++ [.answered r result]) = lastSent log := by
  simp [lastSent, sentRequests]

/-! ### The drain protocol -/

/-- Only a request of another kind than `off` may ask for light. -/
def Request.WellFormed (r : Request) : Prop := r.kind = .off → r.IsOff

theorem Request.wellFormed_off (g e : Int) : (Request.off g e).WellFormed := fun _ => ⟨rfl, rfl⟩

theorem Request.isOff_off (g e : Int) : (Request.off g e).IsOff := ⟨rfl, rfl⟩

/-- The invariant of the drain protocol while the handler executes `d` drains. -/
structure Scheduled (d : Nat) (log : List Event) (m : FrontLightManager) : Prop where
  drains : m.queue.count .drainOne + d = m.drainScheduled.toNat
  scheduled : m.pending.isSome = true → m.drainScheduled = true
  pending : ∀ r, m.pending = some r → r.WellFormed ∧ (m.displayOn = false → r.IsOff)
  unloaded : m.stateLoaded = false → m.setupComplete = false ∧ m.pending = none ∧
    m.completedOffEpoch = -1 ∧ m.screenEpoch = 0
  epoch : 0 ≤ m.screenEpoch
  wake : m.wakeRestorePending = true → m.displayOn = true ∧ m.setupComplete = true
  sent : ∀ r on, .sent r on ∈ log → 0 < r.brightness → on = true
  /-- Once the off of the current epoch has completed in the dark, the light stays off. -/
  completed : m.completedOffEpoch = m.screenEpoch → m.displayOn = false →
    ∃ r, lastSent log = some r ∧ r.IsOff

/-- The handler is between messages. -/
def Idle (m : FrontLightManager) : Prop := m.handler = .idle

/-- What holds while the handler waits for the physical service. -/
structure Serving (log : List Event) (m : FrontLightManager) (r : Request) : Prop where
  loaded : m.stateLoaded = true
  pending : m.pending = none
  wellFormed : r.WellFormed
  last : lastSent log = some r
  dark : m.displayOn = false → r.IsOff

/-! ### Progress towards the right output -/

/-- The output the state calls for: brightness and warmth. -/
def output (m : FrontLightManager) : Int × Int :=
  if m.displayOn ∧ m.enabled then (m.desiredBrightness, m.desiredWarmth) else (0, 0)

/-- An accepted update of the current generation has not been handled yet. -/
def Covered (m : FrontLightManager) : Prop :=
  ∃ u, (m.latestGeneration, u) ∈ m.calls ∨ .update m.latestGeneration u ∈ m.queue

/-- The request is current and, once served, leaves the right output or completes the off that a
wake is waiting for. -/
structure Right (m : FrontLightManager) (r : Request) : Prop where
  current : r.generation = m.latestGeneration
  off : m.displayOn = false ∨ m.wakeRestorePending = true →
    r.kind = .off ∧ r.epoch = m.screenEpoch ∧ r.IsOff
  on : m.displayOn = true → m.wakeRestorePending = false →
    (r.brightness, r.warmth) = output m

/-- Nothing is to be done: the right output has been sent. -/
structure Settled (log : List Event) (m : FrontLightManager) : Prop where
  idle : Idle m
  pending : m.pending = none
  wake : m.wakeRestorePending = false
  completed : m.displayOn = false → m.completedOffEpoch = m.screenEpoch
  sent : ∃ r, lastSent log = some r ∧ (r.brightness, r.warmth) = output m

inductive Progress (log : List Event) (m : FrontLightManager) : Prop
  | covered (h : Covered m)
  | requested (r : Request) (hp : m.pending = some r) (hr : Right m r)
  | serving (r : Request) (hs : m.handler.request = some r) (hr : Right m r)
  | settled (h : Settled log m)

/-- The invariant of the system. -/
structure Invariant (log : List Event) (m : FrontLightManager) : Prop where
  scheduled : Scheduled m.handler.request.toList.length log m
  serving : ∀ r, m.handler.request = some r → Serving log m r
  answered : ∀ r result, m.handler = .consuming r result → .answered r result ∈ log
  progress : OffsSucceed log → m.setupComplete = true → Progress log m

/-! ### The parts of a handler -/

section Handlers

variable {log : List Event} {m : FrontLightManager} {d : Nat} {puts : SettingKey → Bool}

theorem count_scheduleDrain (h : m.queue.count .drainOne + d = m.drainScheduled.toNat) :
    m.scheduleDrain.queue.count .drainOne + d = 1 := by
  rw [scheduleDrain_eq]
  cases hs : m.drainScheduled with
  | true => simpa [hs] using h
  | false =>
    rw [hs] at h
    simp only [Bool.false_eq_true, if_false, List.count_append, List.count_singleton_self]
    simp only [Bool.toNat_false] at h
    omega

/-- A handler that sets the pending request and schedules the drain keeps the drain protocol. -/
theorem Scheduled.scheduleDrain (h : m.queue.count .drainOne + d = m.drainScheduled.toNat)
    (hp : ∀ r, m.pending = some r → r.WellFormed ∧ (m.displayOn = false → r.IsOff))
    (hl : m.stateLoaded = true) (he : 0 ≤ m.screenEpoch)
    (hw : m.wakeRestorePending = true → m.displayOn = true ∧ m.setupComplete = true)
    (hs : ∀ r on, .sent r on ∈ log → 0 < r.brightness → on = true)
    (hc : m.completedOffEpoch = m.screenEpoch → m.displayOn = false →
      ∃ r, lastSent log = some r ∧ r.IsOff) : Scheduled d log m.scheduleDrain := by
  have hcount := count_scheduleDrain h
  rw [scheduleDrain_eq] at hcount ⊢
  exact ⟨hcount, fun _ => rfl, hp, by simp [hl], he, hw, hs, hc⟩

theorem scheduled_handleDisplayOff (h : Scheduled d log m) (hl : m.stateLoaded = true) :
    Scheduled d log m.handleDisplayOff := by
  have he := h.epoch
  refine Scheduled.scheduleDrain h.drains ?_ hl ?_ ?_ h.sent ?_
  · rintro r hr
    obtain rfl := Option.some.inj hr
    exact ⟨Request.wellFormed_off _ _, fun _ => Request.isOff_off _ _⟩
  · show 0 ≤ m.screenEpoch + 1
    omega
  · intro hw
    cases hw
  · intro hc
    have hc' : (-1 : Int) = m.screenEpoch + 1 := hc
    omega

theorem scheduled_queueDesired (h : Scheduled d log m) (hl : m.stateLoaded = true)
    (hon : m.displayOn = true) : Scheduled d log m.queueDesired := by
  refine Scheduled.scheduleDrain h.drains ?_ hl h.epoch ?_ h.sent ?_
  · intro r hr
    obtain rfl := Option.some.inj hr
    refine ⟨?_, fun hoff => absurd (hon.symm.trans hoff) (by decide)⟩
    cases m.enabled
    · exact Request.wellFormed_off _ _
    · exact fun hk => by cases hk
  · intro hw
    cases hw
  · exact h.completed

theorem scheduled_queueDesiredOrOff (h : Scheduled d log m) (g : Int) {kind : Kind}
    (hkind : kind ≠ .off) : Scheduled d log (m.queueDesiredOrOff g kind) := by
  rcases queueDesiredOrOff_cases g kind (m := m) with
    ⟨-, heq⟩ | ⟨hl, -, -, -, heq⟩ | ⟨hl, -, r, heq, hr⟩ <;> rw [heq]
  · exact h
  · exact ⟨h.drains, by simp, by simp, by simp [hl], h.epoch, h.wake, h.sent, h.completed⟩
  · refine Scheduled.scheduleDrain h.drains ?_ hl h.epoch h.wake h.sent h.completed
    rintro r' hr'
    obtain rfl := Option.some.inj hr'
    rcases hr with ⟨rfl, -⟩ | ⟨rfl, hon, -⟩
    · exact ⟨Request.wellFormed_off _ _, fun _ => Request.isOff_off _ _⟩
    · exact ⟨fun hk => absurd hk hkind, fun hoff => absurd (hon.symm.trans hoff) (by decide)⟩

theorem progress_handleDisplayOff : Progress log m.handleDisplayOff := by
  unfold handleDisplayOff
  rw [scheduleDrain_eq]
  refine .requested _ rfl ⟨rfl, fun _ => ⟨rfl, rfl, Request.isOff_off _ _⟩, ?_⟩
  intro hon
  cases hon

theorem progress_queueDesired (hon : m.displayOn = true) : Progress log m.queueDesired := by
  unfold queueDesired
  rw [scheduleDrain_eq]
  refine .requested _ rfl ⟨?_, ?_, fun _ _ => ?_⟩
  · cases m.enabled <;> rfl
  · rintro (hoff | hwake)
    · exact absurd (hon.symm.trans hoff) (by decide)
    · cases hwake
  · simp only [output, hon]
    cases m.enabled <;> rfl

/-- The handler of a current update, or of the completed setup, leaves a right request behind,
unless the light is off in the dark already. -/
theorem progress_queueDesiredOrOff (h : Scheduled d log m) (hidle : Idle m)
    (hl : m.stateLoaded = true) (hs : m.setupComplete = true) (kind : Kind) :
    Progress log (m.queueDesiredOrOff m.latestGeneration kind) := by
  rcases queueDesiredOrOff_cases m.latestGeneration kind (m := m) with
    ⟨hready, -⟩ | ⟨-, -, hoff, hc, heq⟩ | ⟨-, -, r, heq, hr⟩
  · exact absurd ⟨hl, hs⟩ hready
  · rw [heq]
    have hwake : m.wakeRestorePending = false := by
      by_contra hw
      have hon := (h.wake (by simpa using hw)).1
      exact absurd (hon.symm.trans hoff) (by decide)
    obtain ⟨r, hlast, hb, hw⟩ := h.completed hc hoff
    refine .settled ⟨hidle, rfl, hwake, fun _ => hc, r, hlast, ?_⟩
    simp [output, hoff, hb, hw]
  · rw [heq, scheduleDrain_eq]
    refine .requested r rfl ?_
    rcases hr with ⟨rfl, hcases⟩ | ⟨rfl, hon, hwake, hen⟩
    · refine ⟨rfl, fun _ => ⟨rfl, rfl, Request.isOff_off _ _⟩, fun hon hwake => ?_⟩
      have hen : m.enabled = false := by
        rcases hcases with hoff | hwake' | hen
        · exact absurd (hoff.symm.trans hon) (by decide)
        · exact absurd (hwake.symm.trans hwake') (by decide)
        · exact hen
      simp [output, hen, Request.off]
    · refine ⟨rfl, ?_, fun _ _ => by simp [output, hon, hen, Request.user]⟩
      rintro (hoff | hwake')
      · exact absurd (hon.symm.trans hoff) (by decide)
      · exact absurd (hwake.symm.trans hwake') (by decide)

/-- Progress is kept when the queue, the calls and the stored settings change but no update is
lost. -/
theorem Progress.frame {queue : List Message} {calls : List (Int × Update)}
    {settings : SecureSettings} {booted drainScheduled : Bool} (h : Progress log m)
    (hc : Covered m → Covered { m with queue := queue, calls := calls }) :
    Progress log { m with
      queue := queue, calls := calls, settings := settings, booted := booted
      drainScheduled := drainScheduled } := by
  cases h with
  | covered h => exact .covered (hc h)
  | requested r hp hr => exact .requested r hp ⟨hr.current, hr.off, hr.on⟩
  | serving r hs hr => exact .serving r hs ⟨hr.current, hr.off, hr.on⟩
  | settled h => exact .settled ⟨h.idle, h.pending, h.wake, h.completed, h.sent⟩

/-- While a request is pending, progress is made by it or by an update. -/
theorem Progress.of_pending {r : Request} (h : Progress log m) (hidle : Idle m)
    (hp : m.pending = some r) : Covered m ∨ Right m r := by
  cases h with
  | covered hc => exact Or.inl hc
  | requested r' hp' hr =>
    obtain rfl := Option.some.inj (hp.symm.trans hp')
    exact Or.inr hr
  | serving r' hs' hr =>
    rw [show m.handler = .idle from hidle] at hs'
    cases hs'
  | settled h => cases h.pending.symm.trans hp

/-- While a request is in service, progress is made by it or by an update. -/
theorem Progress.of_serving {r : Request} (h : Progress log m) (hs : m.handler.request = some r)
    (hp : m.pending = none) : Covered m ∨ Right m r := by
  cases h with
  | covered hc => exact Or.inl hc
  | requested r' hp' hr => cases hp.symm.trans hp'
  | serving r' hs' hr =>
    obtain rfl := Option.some.inj (hs.symm.trans hs')
    exact Or.inr hr
  | settled h =>
    rw [show m.handler = .idle from h.idle] at hs
    cases hs

theorem Right.output {r : Request} (h : Right m r) (hwake : m.wakeRestorePending = false) :
    (r.brightness, r.warmth) = output m := by
  cases hon : m.displayOn with
  | true => exact h.on hon hwake
  | false =>
    obtain ⟨hb, hw⟩ := (h.off (Or.inl hon)).2.2
    simp [FrontLight.output, hon, hb, hw]

/-- The drain protocol does not read the other messages, the calls or the stored settings. -/
theorem Scheduled.frame {queue : List Message} {calls : List (Int × Update)}
    {settings : SecureSettings} {booted : Bool} (h : Scheduled d log m)
    (hq : queue.count .drainOne = m.queue.count .drainOne) :
    Scheduled d log { m with
      queue := queue, calls := calls, settings := settings, booted := booted } :=
  ⟨hq ▸ h.drains, h.scheduled, h.pending, h.unloaded, h.epoch, h.wake, h.sent, h.completed⟩

/-- The invariant between messages, without the assumption on the answers. -/
structure Ready (log : List Event) (m : FrontLightManager) : Prop where
  idle : Idle m
  scheduled : Scheduled 0 log m
  progress : OffsSucceed log → m.setupComplete = true → Progress log m

theorem ready_of_invariant (h : Invariant log m) (hidle : Idle m) : Ready log m := by
  have hs := h.scheduled
  rw [hidle] at hs
  exact ⟨hidle, hs, h.progress⟩

theorem Ready.invariant (h : Ready log m) : Invariant log m := by
  have hidle : m.handler = .idle := h.idle
  refine ⟨?_, ?_, ?_, h.progress⟩
  · rw [hidle]
    exact h.scheduled
  · rw [hidle]
    rintro r hr
    cases hr
  · rw [hidle]
    rintro r result hr
    cases hr

theorem idle_scheduleDrain (h : Idle m) : Idle m.scheduleDrain := by
  rw [scheduleDrain_eq]
  exact h

theorem idle_queueDesiredOrOff (h : Idle m) (g : Int) (kind : Kind) :
    Idle (m.queueDesiredOrOff g kind) := by
  rcases queueDesiredOrOff_cases g kind (m := m) with
    ⟨-, heq⟩ | ⟨-, -, -, -, heq⟩ | ⟨-, -, r, heq, -⟩ <;> rw [heq]
  · exact h
  · exact h
  · exact idle_scheduleDrain h

theorem setupComplete_queueDesiredOrOff (g : Int) (kind : Kind) :
    (m.queueDesiredOrOff g kind).setupComplete = m.setupComplete := by
  rcases queueDesiredOrOff_cases g kind (m := m) with
    ⟨-, heq⟩ | ⟨-, -, -, -, heq⟩ | ⟨-, -, r, heq, -⟩ <;> rw [heq]
  rw [scheduleDrain_eq]

/-! ### The handlers between messages -/

theorem ready_handleSetupStateChanged (h : Ready log m) : Ready log m.handleSetupStateChanged := by
  unfold handleSetupStateChanged
  split
  · exact h
  · next hcond =>
    have hl : m.stateLoaded = true := by
      by_contra hl
      simp [hl] at hcond
    have hs := h.scheduled
    let m₁ : FrontLightManager := { m with
      setupComplete := true
      latestGeneration := m.latestGeneration + 1
      initialization := (m.initialization.begin (m.latestGeneration + 1)).2 }
    have hs₁ : Scheduled 0 log m₁ :=
      ⟨hs.drains, hs.scheduled, hs.pending, fun hl' => absurd (hl.symm.trans hl') (by decide),
        hs.epoch, fun hw => ⟨(hs.wake hw).1, rfl⟩, hs.sent, hs.completed⟩
    have hidle₁ : Idle m₁ := h.idle
    show Ready log (m₁.queueDesiredOrOff m₁.latestGeneration .initialization)
    exact ⟨idle_queueDesiredOrOff hidle₁ _ _, scheduled_queueDesiredOrOff hs₁ _ (by decide),
      fun _ _ => progress_queueDesiredOrOff hs₁ hidle₁ hl rfl _⟩

theorem ready_handleDisplayState (h : Ready log m) (displayOn : Bool) :
    Ready log (m.handleDisplayState displayOn) := by
  unfold handleDisplayState
  split
  · exact h
  · next hcond =>
    have hs := h.scheduled
    have hl : m.stateLoaded = true := by
      by_contra hl
      simp [hl] at hcond
    cases displayOn with
    | false =>
      simp only [Bool.false_eq_true, if_false]
      exact ⟨idle_scheduleDrain h.idle, scheduled_handleDisplayOff hs hl,
        fun _ _ => progress_handleDisplayOff⟩
    | true =>
      have hoff : m.displayOn = false := by
        by_contra hon
        simp [hl, hon] at hcond
      rw [if_pos rfl, handleDisplayOn]
      -- recorded on, with the pending off still in place
      have hs' : Scheduled 0 log { m with displayOn := true } :=
        ⟨hs.drains, hs.scheduled,
          fun r hr => ⟨(hs.pending r hr).1, fun hoff' => by cases hoff'⟩, hs.unloaded, hs.epoch,
          fun hw => ⟨rfl, (hs.wake hw).2⟩, hs.sent, fun _ hoff' => by cases hoff'⟩
      split
      · next hsetup =>
        refine ⟨h.idle, hs', fun _ hsetup' => ?_⟩
        simp [show m.setupComplete = true from hsetup'] at hsetup
      · next hsetup =>
        have hset : m.setupComplete = true := by simpa using hsetup
        split
        · exact ⟨idle_scheduleDrain h.idle, scheduled_queueDesired hs' hl rfl,
            fun _ _ => progress_queueDesired rfl⟩
        · next hc =>
          refine ⟨h.idle, ⟨hs'.drains, hs'.scheduled, hs'.pending, hs'.unloaded, hs'.epoch,
            fun _ => ⟨rfl, hset⟩, hs'.sent, hs'.completed⟩, fun hok _ => ?_⟩
          -- the off that the wake waits for is still on its way
          cases h.progress hok hset with
          | covered hcov => exact .covered hcov
          | requested r hp hr =>
            exact .requested r hp ⟨hr.current, fun _ => hr.off (Or.inl hoff),
              fun _ hw => by cases hw⟩
          | serving r hs hr =>
            have hidle : m.handler = .idle := h.idle
            rw [hidle] at hs
            cases hs
          | settled hsettled => exact absurd (hsettled.completed hoff) hc

theorem ready_loadState (h : Ready log m) (hl : m.stateLoaded = false) (displayOn : Bool) :
    Ready log (m.loadState puts displayOn) := by
  have hs := h.scheduled
  obtain ⟨hsetup, hp, hc, he⟩ := hs.unloaded hl
  have hwake : m.wakeRestorePending = false := by
    by_contra hw
    exact absurd (hsetup.symm.trans (hs.wake (by simpa using hw)).2) (by decide)
  obtain ⟨m₁, heq, hm₁⟩ := loadState_eq (m := m) puts displayOn
  rw [heq]
  refine ready_handleSetupStateChanged ?_
  rw [hm₁]
  refine ⟨h.idle, ⟨hs.drains, hs.scheduled, ?_, ?_, hs.epoch, ?_, hs.sent, ?_⟩, ?_⟩
  · intro r hr
    cases hp.symm.trans hr
  · intro hl'
    cases hl'
  · intro hw
    exact absurd (hwake.symm.trans hw) (by decide)
  · intro hce
    have hce' : m.completedOffEpoch = m.screenEpoch := hce
    rw [hc, he] at hce'
    exact absurd hce' (by decide)
  · intro _ hset
    exact absurd (hsetup.symm.trans hset) (by decide)

/-- The handler of an update that has just been taken from the queue.  Progress is known to have
survived the removal only if the update is stale. -/
theorem ready_update (hs : Scheduled 0 log m) (hidle : Idle m) (g : Int) (u : Update)
    (displayOn : Bool) (hstale : g ≠ m.latestGeneration → Ready log m) :
    Ready log (m.handle (.update g u) displayOn puts) := by
  rw [handle_update]
  split
  · next hne => exact hstale hne
  · next heq =>
    obtain rfl : g = m.latestGeneration := by simpa using heq
    have hs₁ : Scheduled 0 log (m.applyUpdate puts u) := by
      rw [applyUpdate_eq]
      exact ⟨hs.drains, hs.scheduled, hs.pending, hs.unloaded, hs.epoch, hs.wake, hs.sent,
        hs.completed⟩
    have hidle₁ : Idle (m.applyUpdate puts u) := by
      rw [applyUpdate_eq]
      exact hidle
    have hgen : m.latestGeneration = (m.applyUpdate puts u).latestGeneration := by
      rw [applyUpdate_eq]
    rw [hgen]
    refine ⟨idle_queueDesiredOrOff hidle₁ _ _, scheduled_queueDesiredOrOff hs₁ _ ?_,
      fun _ hset => ?_⟩
    · cases u <;> simp [Update.kind]
    · rw [setupComplete_queueDesiredOrOff] at hset
      have hl : (m.applyUpdate puts u).stateLoaded = true := by
        by_contra hl
        exact absurd ((hs₁.unloaded (by simpa using hl)).1.symm.trans hset) (by decide)
      exact progress_queueDesiredOrOff hs₁ hidle₁ hl hset _

/-! ### Draining -/

theorem toNat_le_one (b : Bool) : b.toNat ≤ 1 := by
  cases b <;> decide

/-- `drainOne` after its message has been taken from the queue. -/
theorem invariant_drainOne (hs : Scheduled 1 log m) (hidle : Idle m)
    (hp : OffsSucceed log → m.setupComplete = true → Progress log m) :
    Invariant (log ++ m.drainOne.handler.request.toList.map (.sent · m.drainOne.displayOn))
      m.drainOne := by
  have hnone : m.handler.request = none := by rw [hidle]; rfl
  have hb := toNat_le_one m.drainScheduled
  have hcount : m.queue.count .drainOne = 0 := by
    have hdrains := hs.drains
    omega
  unfold drainOne
  cases hpend : m.pending with
  | none =>
    have hready : Ready log { m with drainScheduled := false } :=
      ⟨hidle, ⟨by simpa using hcount, by simp [hpend], hs.pending, hs.unloaded, hs.epoch, hs.wake,
        hs.sent, hs.completed⟩, fun hok hset => (hp hok hset).frame id⟩
    simpa [hnone, hpend] using hready.invariant
  | some r =>
    dsimp only
    obtain ⟨hwf, hdark⟩ := hs.pending r hpend
    have hl : m.stateLoaded = true := by
      by_contra hl
      have := (hs.unloaded (by simpa using hl)).2.1
      simp [hpend] at this
    split
    · -- the request is stale: an update of the current generation is on its way
      next hne =>
      have hready : Ready log { m with pending := none, drainScheduled := false } := by
        refine ⟨hidle, ⟨by simpa using hcount, by simp, by simp, by simp [hl], hs.epoch, hs.wake,
          hs.sent, hs.completed⟩, fun hok hset => ?_⟩
        rcases (hp hok hset).of_pending hidle hpend with hc | hr
        · exact .covered hc
        · exact absurd hr.current hne
      have heq : FrontLightManager.continueDrain { m with pending := none } =
          { m with pending := none, drainScheduled := false } := rfl
      rw [heq]
      simpa [hnone] using hready.invariant
    · -- the request goes to the service
      next hcur =>
      refine ⟨⟨hs.drains, by simp, by simp, by simp [hl], hs.epoch, hs.wake, ?_, ?_⟩, ?_, ?_, ?_⟩
      · intro r' on hmem hpos
        rcases List.mem_append.mp hmem with hmem | hmem
        · exact hs.sent r' on hmem hpos
        · simp only [HandlerPhase.request, Option.toList_some, List.map_cons, List.map_nil,
            List.mem_singleton, Event.sent.injEq] at hmem
          obtain ⟨rfl, rfl⟩ := hmem
          by_contra hoff
          have hzero := (hdark (by simpa using hoff)).1
          omega
      · intro _ hoff
        exact ⟨r, lastSent_append_sent _ _ _, hdark hoff⟩
      · intro r' hr'
        obtain rfl := Option.some.inj hr'
        exact ⟨hl, rfl, hwf, lastSent_append_sent _ _ _, hdark⟩
      · intro _ _ h
        cases h
      · intro hok hset
        have hok' : OffsSucceed log := fun r' result hmem => hok r' result (by simp [hmem])
        rcases (hp hok' hset).of_pending hidle hpend with hc | hr
        · exact .covered hc
        · exact .serving r rfl ⟨hr.current, hr.off, hr.on⟩

/-- The service has answered. -/
theorem invariant_serviceReturn {r : Request} {result : Int} (h : Invariant log m)
    (hr : m.handler = .invoking r) :
    Invariant (log ++ [.answered r result]) (m.serviceReturn r result) := by
  have hs := h.scheduled
  rw [hr] at hs
  have hreq : m.handler.request = some r := by rw [hr]; rfl
  have hserv := h.serving r hreq
  have hsent : ∀ r' on, .sent r' on ∈ log ++ [.answered r result] → 0 < r'.brightness →
      on = true := by
    intro r' on hmem
    exact hs.sent r' on (by simpa using hmem)
  have hprog : OffsSucceed (log ++ [.answered r result]) → m.setupComplete = true →
      Progress log m := by
    intro hok
    exact h.progress fun r' result' hmem => hok r' result' (by simp [hmem])
  unfold serviceReturn
  split
  · refine ⟨⟨hs.drains, hs.scheduled, hs.pending, hs.unloaded, hs.epoch, hs.wake, hsent, ?_⟩,
      ?_, ?_, ?_⟩
    · rw [lastSent_append_answered]
      exact hs.completed
    · intro r' hr'
      obtain rfl := Option.some.inj hr'
      exact ⟨hserv.loaded, hserv.pending, hserv.wellFormed,
        by rw [lastSent_append_answered]; exact hserv.last, hserv.dark⟩
    · intro r' result' hr'
      obtain ⟨rfl, rfl⟩ := HandlerPhase.consuming.inj hr'
      simp
    · intro hok hset
      rcases (hprog hok hset).of_serving hreq hserv.pending with hc | hright
      · exact .covered hc
      · exact .serving r rfl ⟨hright.current, hright.off, hright.on⟩
  · -- the generation has moved while the service was busy
    next hne =>
    have hb := toNat_le_one m.drainScheduled
    have hdrains : m.queue.count .drainOne + 1 = m.drainScheduled.toNat := hs.drains
    have heq : FrontLightManager.continueDrain { m with handler := .idle } =
        { m with handler := .idle, drainScheduled := false } := by
      simp [continueDrain, hserv.pending]
    rw [heq]
    refine Ready.invariant ⟨rfl, ⟨?_, by simp [hserv.pending], hs.pending, hs.unloaded, hs.epoch,
      hs.wake, hsent, ?_⟩, ?_⟩
    · simp only [Bool.toNat_false]
      omega
    · rw [lastSent_append_answered]
      exact hs.completed
    · intro hok hset
      rcases (hprog hok hset).of_serving hreq hserv.pending with hc | hright
      · exact .covered hc
      · exact absurd hright.current hne

theorem scheduled_continueDrain (h : Scheduled 1 log m) : Scheduled 0 log m.continueDrain := by
  have hb := toNat_le_one m.drainScheduled
  have hdrains := h.drains
  unfold continueDrain
  split
  · next hp =>
    have hd := h.scheduled hp
    refine ⟨?_, h.scheduled, h.pending, h.unloaded, h.epoch, h.wake, h.sent, h.completed⟩
    simpa [post] using hdrains
  · next hp =>
    refine ⟨?_, fun hp' => absurd hp' hp, h.pending, h.unloaded, h.epoch, h.wake, h.sent,
      h.completed⟩
    simp only [Bool.toNat_false]
    omega

theorem progress_continueDrain (h : Progress log m) : Progress log m.continueDrain := by
  unfold continueDrain
  split
  · refine Progress.frame h ?_
    rintro ⟨u, hu⟩
    exact ⟨u, hu.imp id fun hmem => List.mem_append_left _ hmem⟩
  · exact h.frame id

theorem idle_continueDrain (h : Idle m) : Idle m.continueDrain := by
  unfold continueDrain
  split <;> exact h

/-- The result of a current request is consumed. -/
theorem ready_consume {r : Request} {result : Int} (h : Invariant log m)
    (hr : m.handler = .consuming r result) : Ready log (m.consume puts r result) := by
  have hs := h.scheduled
  rw [hr] at hs
  have hreq : m.handler.request = some r := by rw [hr]; rfl
  have hserv := h.serving r hreq
  have hanswered := h.answered r result hr
  have hprog : OffsSucceed log → m.setupComplete = true → Covered m ∨ Right m r :=
    fun hok hset => (h.progress hok hset).of_serving hreq hserv.pending
  -- it is enough to treat the state before the drain is continued
  suffices hall : ∀ m₁, m₁ = FrontLightManager.consumeCurrentResult { m with handler := .idle }
        puts r result →
      Idle m₁ ∧ Scheduled 1 log m₁ ∧
        (OffsSucceed log → m₁.setupComplete = true → Progress log m₁) by
    obtain ⟨hidle, hs₁, hp₁⟩ := hall _ rfl
    refine ⟨idle_continueDrain hidle, scheduled_continueDrain hs₁, fun hok hset => ?_⟩
    refine progress_continueDrain (hp₁ hok ?_)
    unfold FrontLightManager.consume FrontLightManager.continueDrain at hset
    split at hset <;> exact hset
  rintro m₁ rfl
  unfold consumeCurrentResult
  dsimp only
  split
  · next hk =>
    split
    · -- the off has completed
      next hoff =>
      have hs₁ : ∀ settings initialization, Scheduled 1 log { m with
          handler := .idle, completedOffEpoch := r.epoch, settings := settings
          initialization := initialization } := fun _ _ =>
        ⟨hs.drains, hs.scheduled, hs.pending, fun hl => absurd (hserv.loaded.symm.trans hl)
          (by decide), hs.epoch, hs.wake, hs.sent, fun _ hdark =>
          ⟨r, hserv.last, hserv.dark hdark⟩⟩
      split
      · next hcond =>
        have hon : m.displayOn = true := by
          by_contra hon
          simp [hon] at hcond
        exact ⟨idle_scheduleDrain rfl, scheduled_queueDesired (hs₁ _ _) hserv.loaded hon,
          fun _ _ => progress_queueDesired hon⟩
      · next hcond =>
        refine ⟨rfl, hs₁ _ _, fun hok hset => ?_⟩
        rcases hprog hok hset with hc | hright
        · exact .covered hc
        · have hwake : m.wakeRestorePending = false := by
            by_contra hw
            have hw' : m.wakeRestorePending = true := by simpa using hw
            simp [hw', (hs.wake hw').1] at hcond
          exact .settled ⟨rfl, hserv.pending, hwake, fun hdark => (hright.off (Or.inl hdark)).2.1,
            r, hserv.last, hright.output hwake⟩
    · -- a failed off is no longer waited for
      next hfail =>
      refine ⟨rfl, ⟨hs.drains, hs.scheduled, hs.pending, hs.unloaded, hs.epoch, by simp, hs.sent,
        hs.completed⟩, fun hok _ => absurd (hok r result hanswered hk) hfail⟩
  · next hk =>
    -- a request of another kind changes at most the tracker and the stored settings
    have hs₁ : ∀ settings initialization, Scheduled 1 log { m with
        handler := .idle, settings := settings, initialization := initialization } := fun _ _ =>
      ⟨hs.drains, hs.scheduled, hs.pending, hs.unloaded, hs.epoch, hs.wake, hs.sent, hs.completed⟩
    have hp₁ : ∀ settings initialization, OffsSucceed log → m.setupComplete = true →
        Progress log { m with
          handler := .idle, settings := settings, initialization := initialization } := by
      intro settings initialization hok hset
      rcases hprog hok hset with hc | hright
      · exact .covered hc
      · have hbright : ¬ (m.displayOn = false ∨ m.wakeRestorePending = true) :=
          fun hd => hk (hright.off hd).1
        have hwake : m.wakeRestorePending = false := by simpa using fun h => hbright (Or.inr h)
        exact .settled ⟨rfl, hserv.pending, hwake, fun hd => absurd (Or.inl hd) hbright, r,
          hserv.last, hright.output hwake⟩
    split
    · exact ⟨rfl, hs₁ _ _, hp₁ _ _⟩
    · exact ⟨rfl, hs₁ _ _, hp₁ _ _⟩

end Handlers

/-! ### Steps and runs -/

section Runs

variable {log evs : List Event} {m m' : FrontLightManager}

/-- The invariant does not read the other messages or the stored settings. -/
theorem Invariant.frame {queue : List Message} {calls : List (Int × Update)}
    {settings : SecureSettings} {booted : Bool} (h : Invariant log m)
    (hq : queue.count .drainOne = m.queue.count .drainOne)
    (hc : Covered m → Covered { m with queue := queue, calls := calls }) :
    Invariant log { m with
      queue := queue, calls := calls, settings := settings, booted := booted } :=
  ⟨h.scheduled.frame hq, fun r hr =>
    have hs := h.serving r hr
    ⟨hs.loaded, hs.pending, hs.wellFormed, hs.last, hs.dark⟩,
    h.answered, fun hok hset => (h.progress hok hset).frame hc⟩

/-- `loadState` is posted once, and handled once. -/
def Loads (m : FrontLightManager) : Prop :=
  m.queue.count .loadState + m.stateLoaded.toNat = m.booted.toNat

theorem Loads.extends (h : Loads m) (he : Extends m m') : Loads m' := by
  obtain ⟨n, hn⟩ := he.queue
  unfold Loads at h ⊢
  rw [hn, he.stateLoaded, he.booted, List.count_append, List.count_replicate]
  simpa using h

/-- The accepted update of the newest generation covers everything. -/
theorem invariant_submit (h : Invariant log m) (u : Update) :
    Invariant (log ++ [.accepted (m.latestGeneration + 1) u]) { m with
      latestGeneration := m.latestGeneration + 1
      calls := m.calls ++ [(m.latestGeneration + 1, u)] } := by
  have hs := h.scheduled
  refine ⟨⟨hs.drains, hs.scheduled, hs.pending, hs.unloaded, hs.epoch, hs.wake, ?_, ?_⟩, ?_, ?_, ?_⟩
  · intro r on hmem
    exact hs.sent r on (by simpa using hmem)
  · rw [lastSent_append_accepted]
    exact hs.completed
  · intro r hr
    have hserv := h.serving r hr
    exact ⟨hserv.loaded, hserv.pending, hserv.wellFormed,
      by rw [lastSent_append_accepted]; exact hserv.last, hserv.dark⟩
  · intro r result hr
    exact List.mem_append_left _ (h.answered r result hr)
  · intro _ _
    exact .covered ⟨u, Or.inl (by simp)⟩

/-- One message is taken from the queue and handled. -/
theorem invariant_handle {i : Nat} {message : Message} {displayOn : Bool}
    {puts : SettingKey → Bool} (h : Invariant log m) (hl : Loads m) (hidle : Idle m)
    (hi : m.queue[i]? = some message)
    (hm' : m' = FrontLightManager.handle { m with queue := m.queue.eraseIdx i } message displayOn
      puts) :
    Invariant (log ++ m'.handler.request.toList.map (.sent · m'.displayOn)) m' := by
  have hperm := perm_cons_eraseIdx hi
  have hs := (ready_of_invariant h hidle).scheduled
  -- everything but an update of the current generation can be removed without loss
  have hkeep : (∀ u, message ≠ .update m.latestGeneration u) → Covered m →
      Covered { m with queue := m.queue.eraseIdx i } := by
    rintro hne ⟨u, hu⟩
    refine ⟨u, hu.imp id fun hmem => ?_⟩
    rcases List.mem_cons.mp (hperm.mem_iff.mpr hmem) with heq | hmem'
    · exact absurd heq.symm (hne u)
    · exact hmem'
  have hcount : message ≠ .drainOne →
      (m.queue.eraseIdx i).count .drainOne = m.queue.count .drainOne := by
    intro hne
    rw [← hperm.count_eq, List.count_cons_of_ne hne]
  have hready : message ≠ .drainOne → (∀ u, message ≠ .update m.latestGeneration u) →
      Ready log { m with queue := m.queue.eraseIdx i } := by
    intro hne hnu
    exact ready_of_invariant (h.frame (hcount hne) (hkeep hnu)) hidle
  -- a handler that ends idle has sent nothing
  have hdone : ∀ m₁, Ready log m₁ →
      Invariant (log ++ m₁.handler.request.toList.map (.sent · m₁.displayOn)) m₁ := by
    intro m₁ hr
    rw [show m₁.handler = .idle from hr.idle]
    simpa [HandlerPhase.request] using hr.invariant
  subst hm'
  cases message with
  | loadState =>
    refine hdone _ (ready_loadState (hready (by simp) (by simp)) ?_ displayOn)
    have hpos : 0 < m.queue.count .loadState := List.count_pos_iff.mpr (List.mem_of_getElem? hi)
    have hb := toNat_le_one m.booted
    have hsum : m.queue.count .loadState + m.stateLoaded.toNat = m.booted.toNat := hl
    show m.stateLoaded = false
    cases hloaded : m.stateLoaded with
    | false => rfl
    | true =>
      rw [hloaded] at hsum
      simp only [Bool.toNat_true] at hsum
      omega
  | setupChanged => exact hdone _ (ready_handleSetupStateChanged (hready (by simp) (by simp)))
  | displayChanged displayId =>
    refine hdone _ ?_
    have hr := hready (by simp) (by simp)
    unfold handle
    dsimp only
    split
    · exact hr
    · exact ready_handleDisplayState hr displayOn
  | update g u =>
    refine hdone _ (ready_update (hs.frame (hcount (by simp))) hidle g u displayOn ?_)
    intro hne
    refine hready (by simp) ?_
    rintro u' heq
    exact hne (Message.update.inj heq).1
  | drainOne =>
    refine invariant_drainOne ?_ hidle fun hok hset => (h.progress hok hset).frame (hkeep (by simp))
    have hdrains := hs.drains
    refine ⟨?_, hs.scheduled, hs.pending, hs.unloaded, hs.epoch, hs.wake, hs.sent, hs.completed⟩
    rw [← hdrains, ← hperm.count_eq, List.count_cons_self]

theorem loads_handle {i : Nat} {message : Message} {displayOn : Bool}
    {puts : SettingKey → Bool} (hl : Loads m) (hi : m.queue[i]? = some message) :
    Loads (FrontLightManager.handle { m with queue := m.queue.eraseIdx i } message displayOn
      puts) := by
  have hcount := (perm_cons_eraseIdx hi).count_eq .loadState
  by_cases hne : message = .loadState
  · subst hne
    obtain ⟨m₁, heq, hm₁⟩ :=
      loadState_eq (m := { m with queue := m.queue.eraseIdx i }) puts displayOn
    have hload : Loads m₁ := by
      have hb := toNat_le_one m.booted
      rw [hm₁]
      unfold Loads at hl ⊢
      rw [List.count_cons_self] at hcount
      simp only [Bool.toNat_true]
      omega
    show Loads (FrontLightManager.loadState { m with queue := m.queue.eraseIdx i } puts displayOn)
    rw [heq]
    exact hload.extends extends_handleSetupStateChanged
  · have hload : Loads { m with queue := m.queue.eraseIdx i } := by
      unfold Loads at hl ⊢
      rw [List.count_cons_of_ne hne] at hcount
      exact hcount ▸ hl
    exact hload.extends (extends_handle message displayOn hne)

/-- **Step lemma**: every step of the manager keeps the invariant. -/
theorem invariant_step {a : Action} (h : Invariant log m) (hl : Loads m)
    (hstep : FrontLight.step m a = some (m', evs)) : Invariant (log ++ evs) m' ∧ Loads m' := by
  have hpost : ∀ message, message ≠ .drainOne → message ≠ .loadState →
      Invariant log (m.post message) ∧ Loads (m.post message) := by
    intro message hd hload
    constructor
    · refine h.frame (by simp [hd]) ?_
      rintro ⟨u, hu⟩
      exact ⟨u, hu.imp id (List.mem_append_left _)⟩
    · unfold Loads at hl ⊢
      simpa [FrontLightManager.post, List.count_singleton, hload] using hl
  cases a with
  | bootPhase =>
    simp only [FrontLight.step] at hstep
    split at hstep
    · simp at hstep
    · next hb =>
      obtain ⟨rfl, rfl⟩ := Prod.mk.inj (Option.some.inj hstep)
      rw [List.append_nil]
      constructor
      · refine h.frame (by simp) ?_
        rintro ⟨u, hu⟩
        exact ⟨u, hu.imp id (List.mem_append_left _)⟩
      · unfold Loads at hl ⊢
        simp only [Bool.not_eq_true] at hb
        rw [hb] at hl
        simp only [FrontLightManager.post, List.count_append, List.count_singleton_self,
          Bool.toNat_true, Bool.toNat_false] at hl ⊢
        omega
  | writeSetup value =>
    obtain ⟨rfl, rfl⟩ := Prod.mk.inj (Option.some.inj hstep)
    rw [List.append_nil]
    exact ⟨h.frame rfl id, hl⟩
  | notifySetup =>
    simp only [FrontLight.step] at hstep
    split at hstep
    · obtain ⟨rfl, rfl⟩ := Prod.mk.inj (Option.some.inj hstep)
      rw [List.append_nil]
      exact hpost _ (by simp) (by simp)
    · simp at hstep
  | notifyDisplay displayId =>
    simp only [FrontLight.step] at hstep
    split at hstep
    · obtain ⟨rfl, rfl⟩ := Prod.mk.inj (Option.some.inj hstep)
      rw [List.append_nil]
      exact hpost _ (by simp) (by simp)
    · simp at hstep
  | submit caller call =>
    simp only [FrontLight.step] at hstep
    split at hstep
    · obtain ⟨rfl, rfl⟩ := Prod.mk.inj (Option.some.inj hstep)
      rw [List.append_nil]
      exact ⟨h, hl⟩
    · split at hstep <;> obtain ⟨rfl, rfl⟩ := Prod.mk.inj (Option.some.inj hstep)
      · rw [List.append_nil]
        exact ⟨h, hl⟩
      · exact ⟨invariant_submit h _, hl⟩
  | post i =>
    simp only [FrontLight.step] at hstep
    split at hstep
    · simp at hstep
    · next g u hi =>
      obtain ⟨rfl, rfl⟩ := Prod.mk.inj (Option.some.inj hstep)
      rw [List.append_nil]
      constructor
      · refine h.frame (by simp) ?_
        -- the call's update goes to the end of the queue
        rintro ⟨u', hmem | hmem⟩
        · rcases List.mem_cons.mp ((perm_cons_eraseIdx hi).mem_iff.mpr hmem) with heq | hmem'
          · obtain ⟨rfl, rfl⟩ := Prod.mk.inj heq
            exact ⟨u', Or.inr (by simp)⟩
          · exact ⟨u', Or.inl hmem'⟩
        · exact ⟨u', Or.inr (List.mem_append_left _ hmem)⟩
      · unfold Loads at hl ⊢
        simpa [FrontLightManager.post, List.count_singleton] using hl
  | handle i displayOn puts =>
    simp only [FrontLight.step] at hstep
    split at hstep
    · next message hidle hi =>
      obtain ⟨rfl, rfl⟩ := Prod.mk.inj (Option.some.inj hstep)
      exact ⟨invariant_handle h hl hidle hi rfl, loads_handle hl hi⟩
    · simp at hstep
  | serviceReturn result =>
    simp only [FrontLight.step] at hstep
    split at hstep
    · next r hr =>
      obtain ⟨rfl, rfl⟩ := Prod.mk.inj (Option.some.inj hstep)
      exact ⟨invariant_serviceReturn h hr, hl.extends (extends_serviceReturn r result)⟩
    · simp at hstep
  | consume puts =>
    simp only [FrontLight.step] at hstep
    split at hstep
    · next r result hr =>
      obtain ⟨rfl, rfl⟩ := Prod.mk.inj (Option.some.inj hstep)
      rw [List.append_nil]
      exact ⟨(ready_consume h hr).invariant, hl.extends (extends_consume _ r result)⟩
    · simp at hstep

/-- Before the first boot phase nothing has happened, whatever the settings say. -/
theorem invariant_init (settings : SecureSettings) : Invariant [] { settings := settings } := by
  refine Ready.invariant ⟨rfl, ⟨rfl, by simp, by simp, fun _ => ⟨rfl, rfl, rfl, rfl⟩, Int.le_refl _,
    by simp, by simp, ?_⟩, ?_⟩
  · intro hc
    have hc' : (-1 : Int) = 0 := hc
    exact absurd hc' (by decide)
  · intro _ hset
    cases hset

/-- **Run lemma**: the invariant holds in every state a manager reaches. -/
theorem invariant_of_run {settings : SecureSettings} {as : List Action}
    (h : system.Run System.anyAction { settings := settings } as log m) :
    Invariant log m ∧ Loads m := by
  refine h.induct (fun _ log m => Invariant log m ∧ Loads m) ⟨invariant_init settings, rfl⟩ ?_
  rintro _ log m a m' evs ⟨hi, hl⟩ - hstep
  exact invariant_step hi hl hstep

/-- No message is queued, no binder call stands between its increment and its post, and the
handler is idle. -/
def Quiescent (m : FrontLightManager) : Prop :=
  m.queue = [] ∧ m.calls = [] ∧ Idle m

/-- **The output scheduler**: in every run, whatever the settings at boot, a request with light is
only sent while the display is recorded on; a pending request has exactly one drain queued; and a
quiescent manager whose setup is complete and whose off requests all succeeded has last sent the
output its state calls for. -/
theorem scheduler_sends_called_for_output {settings : SecureSettings} {as : List Action}
    (h : system.Run System.anyAction { settings := settings } as log m) :
    (∀ r on, .sent r on ∈ log → 0 < r.brightness → on = true) ∧
    (m.pending.isSome = true → .drainOne ∈ m.queue) ∧
    m.queue.count .drainOne ≤ 1 ∧
    (Quiescent m → m.setupComplete = true → OffsSucceed log →
      ∃ r, lastSent log = some r ∧ (r.brightness, r.warmth) = output m) := by
  obtain ⟨hinv, -⟩ := invariant_of_run h
  have hs := hinv.scheduled
  have hdrains := hs.drains
  have hb := toNat_le_one m.drainScheduled
  refine ⟨hs.sent, fun hp => ?_, by omega, ?_⟩
  · have hidle : m.handler.request = none := by
      cases hreq : m.handler.request with
      | none => rfl
      | some r => simp [(hinv.serving r hreq).pending] at hp
    rw [hs.scheduled hp, hidle] at hdrains
    simp only [Option.toList_none, List.length_nil, Bool.toNat_true] at hdrains
    exact List.count_pos_iff.mp (by omega)
  · rintro ⟨hq, hcalls, hidle⟩ hset hok
    have hidle' : m.handler = .idle := hidle
    cases hinv.progress hok hset with
    | covered hc =>
      obtain ⟨u, hu⟩ := hc
      simp [hq, hcalls] at hu
    | requested r hp hr =>
      -- a pending request would have a drain queued
      rw [hs.scheduled (by simp [hp]), hq, hidle'] at hdrains
      simp [HandlerPhase.request] at hdrains
    | serving r hserv hr =>
      rw [hidle'] at hserv
      cases hserv
    | settled hsettled => exact hsettled.sent

end Runs

/-- Boot with a completed setup, a warmth change while the display is on, and the display going
off. -/
def evening : List Action :=
  let puts : SettingKey → Bool := fun _ => true
  [.bootPhase, .writeSetup 1, .handle 0 true puts, .handle 0 true puts, .serviceReturn 0,
    .consume puts, .submit ⟨SYSTEM_UID, false⟩ (.submitWarmthRequest 80), .post 0,
    .handle 0 true puts, .handle 0 true puts, .serviceReturn RESULT_CAPPED, .consume puts,
    .notifyDisplay DEFAULT_DISPLAY, .handle 0 false puts, .handle 0 false puts,
    .serviceReturn RESULT_OFF, .consume puts]

theorem scheduler_sends_called_for_output_evening :
    ∃ m log, system.Run System.anyAction { settings := fun _ => none } evening log m ∧
      m.queue.count .drainOne ≤ 1 ∧ m.desiredWarmth = 80 ∧
      ∃ r, lastSent log = some r ∧ (r.brightness, r.warmth) = (0, 0) := by
  have hrun : system.Run System.anyAction { settings := fun _ => none } evening _ _ :=
    System.Run.of_exec rfl
  obtain ⟨-, -, hcount, hsent⟩ := scheduler_sends_called_for_output hrun
  refine ⟨_, _, hrun, hcount, rfl, hsent ⟨rfl, rfl, rfl⟩ rfl ?_⟩
  intro r result hmem hk
  have hmem' : Event.answered r result ∈
      [.sent (.user .initialization 1 50 50) true, .answered (.user .initialization 1 50 50) 0,
        .accepted 2 (.warmth 80), .sent (.user .warmth 2 50 80) true,
        .answered (.user .warmth 2 50 80) RESULT_CAPPED, .sent (.off 3 1) false,
        .answered (.off 3 1) RESULT_OFF] := hmem
  simp only [List.mem_cons, List.not_mem_nil, Event.answered.injEq, reduceCtorEq, false_or,
    or_false] at hmem'
  obtain ⟨rfl, rfl⟩ | ⟨rfl, rfl⟩ | ⟨rfl, rfl⟩ := hmem'
  · cases hk
  · cases hk
  · rfl

end EinkLab.FrontLight
