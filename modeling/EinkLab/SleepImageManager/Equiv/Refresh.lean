import EinkLab.SleepImageManager.Equiv.Wake

/-!
# A refresh on its way to its result

`Balanced` is a conservation law of every run: a refresh has been accepted as often as it has been
notified or is still pending, and at most once.  `OnItsWay` is what a pending refresh waits for: a
request of the current generation with its timeout armed, or the queued request of a wake.  It is
kept by the steps that are `Careful`, and by no others (`onItsWay_step_iff`): a mode change drops
the request of a pending refresh, and does not always issue the next.
-/

namespace EinkLab.SleepImageManager

open Transition

/-! ### Counting -/

/-- How often a refresh has been accepted. -/
def acceptances (refresh : Nat) (log : List Event) : Nat :=
  log.countP fun e => e = .accepted refresh

/-- How often the callback of a refresh has been notified. -/
def notifications (refresh : Nat) (log : List Event) : Nat :=
  log.countP fun e =>
    match e with
    | .notified r _ => r = refresh
    | _ => false

/-- One, if the callback of the refresh is pending. -/
def Manager.pending (m : Manager) (refresh : Nat) : Nat :=
  if m.pendingRefreshCallback = some refresh then 1 else 0

/-- Each refresh is accepted at most once, and is then pending or has been notified. -/
structure Balanced (log : List Event) (m : Manager) : Prop where
  balance : ∀ refresh, acceptances refresh log = notifications refresh log + m.pending refresh
  accepted_le_one : ∀ refresh, acceptances refresh log ≤ 1
  accepted_le : ∀ refresh, m.refreshes < refresh → acceptances refresh log = 0

/-! ### What a pending refresh waits for -/

/-- A request of the current generation is out and its timeout is armed, or a wake has queued a
request that will be issued. -/
def OnItsWay (log : List Event) (m : Manager) : Prop :=
  m.pendingRefreshCallback ≠ none →
    (m.requestInFlight = true ∧ .requested m.requestGeneration ∈ log ∧
        m.requestGeneration ∈ m.timeouts) ∨
      (m.wakeRequest = true ∧ World.canRequest m = true)

/-- The step leaves a pending refresh with a request: a mode change, while the screen is on and the
provider's uid is known, to an image mode or with a wake's request queued; a begin that does not
overtake the wake's request; a wake or a timeout that may ask again while the uid is known. -/
def KeepsRequest (m : Manager) : Action → Prop
  | .refreshSleepImageMode setting _ => .ofSetting setting ≠ m.sleepImageMode →
      m.screenOff = false ∧ m.providerUid = true ∧
        (SleepImageMode.ofSetting setting ≠ .keepLastScreen ∨ m.wakeRequest = true)
  | .beginDefaultDisplayOff _ => m.screenOff = true ∨ m.requestInFlight = true
  | .observeDefaultDisplayState state _ =>
      m.defaultDisplayState = STATE_OFF → state ≠ STATE_OFF → m.screenOff = true →
        m.providerUid = true
  | .requestTimeout generation _ =>
      m.requestInFlight = true → generation = m.requestGeneration →
        m.screenOff = true ∨ m.providerUid = true ∨
          MAXIMUM_REQUESTS_PER_CONNECTION ≤ m.requestsThisConnection
  | _ => True

instance (m : Manager) (a : Action) : Decidable (KeepsRequest m a) :=
  match a with
  | .refreshSleepImageMode _ _ => inferInstanceAs (Decidable (_ → _))
  | .beginDefaultDisplayOff _ => inferInstanceAs (Decidable (_ ∨ _))
  | .observeDefaultDisplayState _ _ => inferInstanceAs (Decidable (_ → _))
  | .requestTimeout _ _ => inferInstanceAs (Decidable (_ → _))
  | .userUnlocked | .serviceConnected _ _ | .serviceDisconnected | .wakeRequest _
  | .cancelDefaultDisplayOff _ _ _ _ | .refreshCatalog _ _ | .providerCallback _ _ _ _ _ _ _
  | .invalidCallback _ | .maybeStartM3 | .evaluate _ _ | .restart =>
    inferInstanceAs (Decidable True)

/-- No restart, and no step that takes the request from a pending refresh. -/
def Careful (w : World) (a : Action) : Prop :=
  a.isRestart = false ∧ (w.manager.pendingRefreshCallback ≠ none → KeepsRequest w.manager a)

instance (w : World) (a : Action) : Decidable (Careful w a) := inferInstanceAs (Decidable (_ ∧ _))

/-! ### What the calls to the native side leave alone -/

/-- The fields about provider requests and refreshes. -/
structure Requests where
  provider : Bool
  providerUid : Bool
  requestGeneration : Nat
  userAvailable : Bool
  requestInFlight : Bool
  requestsThisConnection : Nat
  pendingRefreshCallback : Option Nat
  timeouts : List Nat
  wakeRequest : Bool
  refreshes : Nat

def Manager.requests (m : Manager) : Requests where
  provider := m.provider
  providerUid := m.providerUid
  requestGeneration := m.requestGeneration
  userAvailable := m.userAvailable
  requestInFlight := m.requestInFlight
  requestsThisConnection := m.requestsThisConnection
  pendingRefreshCallback := m.pendingRefreshCallback
  timeouts := m.timeouts
  wakeRequest := m.wakeRequest
  refreshes := m.refreshes

/-- Nothing about requests and refreshes happens. -/
def Aside (w : World) (r : World × List Event) : Prop :=
  r.1.manager.requests = w.manager.requests ∧ ∀ e ∈ r.2, e.isOther = false

namespace Aside

variable {w : World} {r r' : World × List Event}

theorem trans (h : Aside w r) (h' : Aside r.1 r') : Aside w (r'.1, r.2 ++ r'.2) := by
  refine ⟨h'.1.trans h.1, fun e he => ?_⟩
  rcases List.mem_append.mp he with he | he
  · exact h.2 e he
  · exact h'.2 e he

theorem sendScreenOff (w : World) (link : Link) :
    Aside w ((w.sendScreenOff link).2.1, (w.sendScreenOff link).2.2) := by
  unfold World.sendScreenOff
  dsimp only
  split_ifs
  · exact ⟨rfl, by simp [Event.isOther]⟩
  · exact ⟨rfl, by simp [Event.isOther]⟩

theorem sendScreenOn (w : World) (cause : Cause) (link : Link) :
    Aside w (w.sendScreenOn cause link) := by
  unfold World.sendScreenOn
  dsimp only
  split_ifs
  · exact ⟨rfl, by simp [Event.isOther]⟩
  · exact ⟨rfl, by simp [Event.isOther]⟩

theorem sendCatalog (w : World) (link : Link) : Aside w (w.sendCatalog link) := by
  unfold World.sendCatalog
  dsimp only
  split_ifs
  · exact ⟨rfl, by simp [Event.isOther]⟩
  · exact ⟨rfl, by simp [Event.isOther]⟩

theorem publishRetained (w : World) (copied : Bool) (pick : Nat) (link : Link) :
    Aside w (w.publishRetained copied pick link) := by
  unfold World.publishRetained
  split_ifs
  · exact sendCatalog w link
  · exact ⟨rfl, by simp⟩

theorem installCatalog (w : World) (candidates : List Candidate) (copied : Bool) (pick : Nat)
    (link : Link) : Aside w (w.installCatalog candidates copied pick link) := by
  unfold World.installCatalog
  dsimp only
  split_ifs
  · exact ⟨rfl, by simp⟩
  · exact publishRetained _ copied pick link

theorem endPresentation (w : World) (cause : Cause) (link : Link) :
    Aside w (w.endPresentation cause link) := by
  unfold World.endPresentation
  split_ifs
  · have hsend := sendScreenOn w cause link
    exact ⟨hsend.1, hsend.2⟩
  · exact ⟨rfl, by simp⟩

theorem beginScreenOff (w : World) (link : Link) : Aside w (w.beginScreenOff link) := by
  unfold World.beginScreenOff
  dsimp only
  split_ifs
  · exact ⟨rfl, by simp⟩
  · have hsend := sendScreenOff
      { w with manager := { w.manager with
      screenOff := true, sleepPresentationRequested := false } }
      link
    exact ⟨hsend.1, hsend.2⟩
  · exact sendScreenOn
      { w with manager := { w.manager with
      screenOff := true, sleepPresentationRequested := false } }
      .keepLast link

theorem cancelScreenOff (w : World) (epochLink catalogLink : Link) (copied : Bool) (pick : Nat) :
    Aside w (w.cancelScreenOff epochLink catalogLink copied pick) := by
  unfold World.cancelScreenOff
  dsimp only
  split_ifs
  · exact ⟨rfl, by simp⟩
  · exact (endPresentation w .cancelled epochLink).trans (publishRetained _ copied pick catalogLink)
  · exact endPresentation w .cancelled epochLink

end Aside

theorem World.requestRetainedCatalog_of_not {w : World} (transacted : Bool)
    (h : World.canRequest w.manager = false) : w.requestRetainedCatalog transacted = (w, []) := by
  unfold World.requestRetainedCatalog
  rw [h]
  rfl

/-! ### The conservation law -/

@[simp] theorem acceptances_append (refresh : Nat) (log evs : List Event) :
    acceptances refresh (log ++ evs) = acceptances refresh log + acceptances refresh evs :=
  List.countP_append

@[simp] theorem notifications_append (refresh : Nat) (log evs : List Event) :
    notifications refresh (log ++ evs) = notifications refresh log + notifications refresh evs :=
  List.countP_append

theorem acceptances_eq_zero {refresh : Nat} {evs : List Event}
    (h : ∀ e ∈ evs, e ≠ .accepted refresh) : acceptances refresh evs = 0 :=
  List.countP_eq_zero.mpr fun e he => by simpa using h e he

theorem notifications_eq_zero {refresh : Nat} {evs : List Event}
    (h : ∀ e ∈ evs, ∀ result, e ≠ .notified refresh result) : notifications refresh evs = 0 := by
  refine List.countP_eq_zero.mpr fun e he => ?_
  cases e with
  | notified r result =>
    have hne := h _ he result
    simp only [decide_eq_true_eq]
    rintro rfl
    exact hne rfl
  | _ => simp

namespace Balanced

variable {log : List Event} {m m' : Manager} {w : World}

/-- Events that are no acceptance and no notification. -/
theorem append (h : Balanced log m) {evs : List Event}
    (hevs : ∀ e ∈ evs, e.isOther = false ∨ ∃ generation, e = .requested generation)
    (hpending : m'.pendingRefreshCallback = m.pendingRefreshCallback)
    (hrefreshes : m'.refreshes = m.refreshes) : Balanced (log ++ evs) m' := by
  have haccepted : ∀ refresh, acceptances refresh evs = 0 := by
    refine fun refresh => acceptances_eq_zero ?_
    rintro _ he rfl
    simpa [Event.isOther] using hevs _ he
  have hnotified : ∀ refresh, notifications refresh evs = 0 := by
    refine fun refresh => notifications_eq_zero ?_
    rintro _ he _ rfl
    simpa [Event.isOther] using hevs _ he
  constructor
  · intro refresh
    have hbalance := h.balance refresh
    simp only [acceptances_append, notifications_append, haccepted, hnotified, Manager.pending,
      hpending] at hbalance ⊢
    exact hbalance
  · intro refresh
    simpa [haccepted] using h.accepted_le_one refresh
  · intro refresh hlt
    simpa [haccepted] using h.accepted_le refresh (by omega)

theorem of_eq (h : Balanced log m) (hpending : m'.pendingRefreshCallback = m.pendingRefreshCallback)
    (hrefreshes : m'.refreshes = m.refreshes) : Balanced log m' := by
  have hnext : Balanced (log ++ []) m' := h.append (by simp) hpending hrefreshes
  rwa [List.append_nil] at hnext

theorem finishRefresh (h : Balanced log w.manager) (result : Result) :
    Balanced (log ++ (w.finishRefresh result).2) (w.finishRefresh result).1.manager := by
  cases hpending : w.manager.pendingRefreshCallback with
  | none =>
    have hevents : (w.finishRefresh result).2 = [] := by simp [World.finishRefresh, hpending]
    rw [hevents]
    refine h.append (by simp) ?_ rfl
    rw [hpending]
    rfl
  | some r =>
    have hevents : (w.finishRefresh result).2 = [.notified r result] := by
      simp [World.finishRefresh, hpending]
    rw [hevents]
    have hnone : ∀ refresh, acceptances refresh [.notified r result] = 0 :=
      fun refresh => acceptances_eq_zero (by simp)
    constructor
    · intro refresh
      have hbalance := h.balance refresh
      have hafter : (w.finishRefresh result).1.manager.pending refresh = 0 := rfl
      rw [acceptances_append, notifications_append, hnone, hafter, hbalance]
      by_cases heq : r = refresh
      · simp [Manager.pending, hpending, heq, notifications]
      · simp [Manager.pending, hpending, heq, notifications]
    · intro refresh
      simpa [hnone] using h.accepted_le_one refresh
    · intro refresh hlt
      simpa [hnone] using h.accepted_le refresh hlt

/-- The next refresh is accepted while none is pending. -/
theorem accept (h : Balanced log m) (hidle : m.pendingRefreshCallback = none)
    (hpending : m'.pendingRefreshCallback = some (m.refreshes + 1))
    (hrefreshes : m'.refreshes = m.refreshes + 1) :
    Balanced (log ++ [.accepted (m.refreshes + 1)]) m' := by
  have hnotified : ∀ refresh, notifications refresh [.accepted (m.refreshes + 1)] = 0 :=
    fun refresh => notifications_eq_zero (by simp)
  have hnew := h.accepted_le (m.refreshes + 1) (by omega)
  constructor
  · intro refresh
    have hbalance := h.balance refresh
    simp only [Manager.pending, hidle] at hbalance
    simp only [acceptances_append, notifications_append, hnotified, Manager.pending, hpending]
    by_cases heq : m.refreshes + 1 = refresh
    · simp only [acceptances, heq] at hbalance ⊢
      simpa using hbalance
    · simpa [acceptances, heq] using hbalance
  · intro refresh
    have hle := h.accepted_le_one refresh
    by_cases heq : m.refreshes + 1 = refresh
    · subst heq
      rw [acceptances_append, hnew]
      simp [acceptances]
    · simpa [acceptances, heq] using hle
  · intro refresh hlt
    have hzero := h.accepted_le refresh (by omega)
    have hne : m.refreshes + 1 ≠ refresh := by omega
    rw [acceptances_append, hzero]
    simp [acceptances, hne]

end Balanced

/-! ### What every run keeps -/

/-- The balance; a pending refresh has a user and a provider; a request in flight was sent, and its
timeout is armed. -/
structure Tracked (log : List Event) (m : Manager) : Prop where
  balanced : Balanced log m
  available : m.pendingRefreshCallback ≠ none → m.userAvailable = true ∧ m.provider = true
  inFlight : m.requestInFlight = true →
    .requested m.requestGeneration ∈ log ∧ m.requestGeneration ∈ m.timeouts

theorem tracked_init : Tracked [] {} where
  balanced := ⟨fun _ => rfl, fun _ => Nat.zero_le 1, fun _ _ => rfl⟩
  available h := absurd rfl h
  inFlight h := by simp at h

namespace Tracked

variable {log : List Event} {w : World} {r : World × List Event}

theorem aside (h : Tracked log w.manager) (ha : Aside w r) : Tracked (log ++ r.2) r.1.manager := by
  obtain ⟨hsame, hevents⟩ := ha
  simp only [Manager.requests, Requests.mk.injEq] at hsame
  obtain ⟨hprovider, -, hgeneration, huser, hflight, -, hpending, htimeouts, -, hrefreshes⟩ := hsame
  constructor
  · exact h.balanced.append (fun e he => Or.inl (hevents e he)) hpending hrefreshes
  · rw [hpending, huser, hprovider]
    exact h.available
  · rw [hflight, hgeneration, htimeouts]
    intro hf
    exact ⟨List.mem_append_left _ (h.inFlight hf).1, (h.inFlight hf).2⟩

/-- After `finishRefresh` nothing is pending, so only the request matters. -/
theorem finishRefresh (hbalanced : Balanced log w.manager)
    (hflight : w.manager.requestInFlight = true →
      .requested w.manager.requestGeneration ∈ log ∧
        w.manager.requestGeneration ∈ w.manager.timeouts) (result : Result) :
    Tracked (log ++ (w.finishRefresh result).2) (w.finishRefresh result).1.manager where
  balanced := hbalanced.finishRefresh result
  available h := absurd rfl h
  inFlight hf := ⟨List.mem_append_left _ (hflight hf).1, (hflight hf).2⟩

theorem requestRetainedCatalog (h : Tracked log w.manager) (transacted : Bool) :
    Tracked (log ++ (w.requestRetainedCatalog transacted).2)
      (w.requestRetainedCatalog transacted).1.manager := by
  unfold World.requestRetainedCatalog
  dsimp only
  split_ifs
  · rwa [List.append_nil]
  · constructor
    · exact h.balanced.append (fun e he => Or.inr ⟨_, List.mem_singleton.mp he⟩) rfl rfl
    · exact h.available
    · intro _
      exact ⟨by simp, by simp⟩
  · refine finishRefresh ?_ ?_ .unavailable
    · exact h.balanced.of_eq rfl rfl
    · intro hf
      simp at hf

/-- A step that emits nothing and drops the request. -/
theorem drop (h : Tracked log w.manager) {m : Manager} (hflight : m.requestInFlight = false)
    (hpending : m.pendingRefreshCallback = w.manager.pendingRefreshCallback)
    (hrefreshes : m.refreshes = w.manager.refreshes)
    (huser : m.userAvailable = w.manager.userAvailable)
    (hprovider : m.provider = w.manager.provider) : Tracked log m where
  balanced := h.balanced.of_eq hpending hrefreshes
  available := by
    rw [hpending, huser, hprovider]
    exact h.available
  inFlight hf := by rw [hflight] at hf; cases hf

theorem refreshCatalog (h : Tracked log w.manager) (storeGeneration : Int) (transacted : Bool) :
    Tracked (log ++ (w.refreshCatalog storeGeneration transacted).2)
      (w.refreshCatalog storeGeneration transacted).1.manager := by
  unfold World.refreshCatalog
  dsimp only
  split_ifs with hgeneration havailable
  · rwa [List.append_nil]
  · rwa [List.append_nil]
  · simp only [Bool.or_eq_true, Bool.not_eq_true', not_or, Bool.not_eq_true,
      Bool.not_eq_false] at havailable
    have hfinished := h.balanced.finishRefresh .unavailable
    have haccepted : Tracked (log ++ (w.finishRefresh .unavailable).2 ++
        [.accepted (w.manager.refreshes + 1)])
        (World.dropRequest { (w.finishRefresh .unavailable).1.manager with
          pendingStoreGeneration := storeGeneration
          pendingRefreshCallback := some (w.manager.refreshes + 1)
          refreshes := w.manager.refreshes + 1 }) := by
      constructor
      · exact hfinished.accept rfl rfl rfl
      · intro _
        exact ⟨havailable.1.1.2, havailable.1.2⟩
      · intro hf
        simp [World.dropRequest] at hf
    have hrequested := haccepted.requestRetainedCatalog
      (w := { w.finishRefresh .unavailable |>.1 with manager := _ }) transacted
    rw [← List.append_assoc, List.append_cons]
    exact hrequested

theorem handleRequestTimeout (h : Tracked log w.manager) (generation : Nat) (transacted : Bool) :
    Tracked (log ++ (w.handleRequestTimeout generation transacted).2)
      (w.handleRequestTimeout generation transacted).1.manager := by
  unfold World.handleRequestTimeout
  by_cases hstale : (!w.manager.requestInFlight ||
      decide (generation ≠ w.manager.requestGeneration)) = true
  · dsimp only
    rw [if_pos hstale, List.append_nil]
    refine ⟨h.balanced.of_eq rfl rfl, h.available, fun hf => ?_⟩
    obtain ⟨hlog, hmem⟩ := h.inFlight hf
    have hne : w.manager.requestGeneration ≠ generation := by
      simp only [show w.manager.requestInFlight = true from hf, Bool.not_true, Bool.false_or,
        decide_eq_true_eq] at hstale
      exact Ne.symm hstale
    exact ⟨hlog, (List.mem_erase_of_ne hne).mpr hmem⟩
  · dsimp only
    rw [if_neg hstale]
    have hdropped : Tracked log
        { w.manager with
        timeouts := w.manager.timeouts.erase generation, requestInFlight := false } :=
      h.drop rfl rfl rfl rfl rfl
    by_cases hoff : w.manager.screenOff = true
    · have hskip : ¬ (!w.manager.screenOff) = true := by simp [hoff]
      rw [if_neg hskip]
      dsimp only
      split_ifs with hend
      · rw [List.nil_append]
        refine finishRefresh ?_ ?_ .unavailable
        · exact hdropped.balanced
        · exact hdropped.inFlight
      · exact absurd (by rw [hoff, Bool.true_or]) hend
    · have hask : (!w.manager.screenOff) = true := by simpa using hoff
      rw [if_pos hask]
      have hrequested := hdropped.requestRetainedCatalog (w := { w with manager := _ }) transacted
      split_ifs
      · have hfinished := finishRefresh hrequested.balanced hrequested.inFlight .unavailable
        rwa [List.append_assoc] at hfinished
      · exact hrequested

theorem handleProviderCallback (h : Tracked log w.manager) (generation : Nat)
    (storeGeneration : Int) (result : Result) (candidates : List Candidate) (copied : Bool)
    (pick : Nat) (link : Link) :
    Tracked
      (log ++ (w.handleProviderCallback generation storeGeneration result candidates copied pick
        link).2)
      (w.handleProviderCallback generation storeGeneration result candidates copied pick
        link).1.manager := by
  have hdropped : Tracked log { w.manager with requestInFlight := false } :=
    h.drop rfl rfl rfl rfl rfl
  unfold World.handleProviderCallback
  dsimp only
  split_ifs
  · rwa [List.append_nil]
  · exact finishRefresh hdropped.balanced hdropped.inFlight .unavailable
  · exact finishRefresh hdropped.balanced hdropped.inFlight .unavailable
  · have hinstalled := hdropped.aside (w := { w with manager := _ })
      (Aside.installCatalog _ candidates copied pick link)
    rw [← List.append_assoc]
    exact finishRefresh hinstalled.balanced hinstalled.inFlight .ok
  · exact hdropped.aside (w := { w with manager := _ })
      (Aside.installCatalog _ candidates copied pick link)
  · rwa [List.append_nil]

theorem refreshSleepImageMode (h : Tracked log w.manager) (mode : SleepImageMode)
    (transacted : Bool) :
    Tracked (log ++ (w.refreshSleepImageMode mode transacted).2)
      (w.refreshSleepImageMode mode transacted).1.manager := by
  have hdropped : Tracked log
      { World.dropRequest w.manager with sleepImageMode := mode, retainedCatalog := [] } :=
    h.drop rfl rfl rfl rfl rfl
  unfold World.refreshSleepImageMode
  dsimp only
  split_ifs
  · rwa [List.append_nil]
  · exact hdropped.requestRetainedCatalog (w := { w with manager := _ }) transacted
  · rwa [List.append_nil]

theorem handleScreenOn (h : Tracked log w.manager) (link : Link) :
    Tracked (log ++ (w.handleScreenOn link).2) (w.handleScreenOn link).1.manager := by
  unfold World.handleScreenOn
  split_ifs
  · rwa [List.append_nil]
  · exact (h.aside (Aside.endPresentation w .wake link)).drop rfl rfl rfl rfl rfl

theorem observeDefaultDisplayState (h : Tracked log w.manager) (state : Int) (link : Link) :
    Tracked (log ++ (w.observeDefaultDisplayState state link).2)
      (w.observeDefaultDisplayState state link).1.manager := by
  have hseen : Tracked log { w.manager with defaultDisplayState := state } :=
    ⟨h.balanced.of_eq rfl rfl, h.available, h.inFlight⟩
  unfold World.observeDefaultDisplayState
  dsimp only
  split_ifs
  · rwa [List.append_nil]
  · rwa [List.append_nil]
  · rw [List.append_nil]
    exact ⟨hseen.balanced.of_eq rfl rfl, hseen.available, hseen.inFlight⟩
  · exact hseen.handleScreenOn (w := { w with manager := _ }) link
  · rwa [List.append_nil]

/-- Every step but a restart keeps it. -/
theorem step (h : Tracked log w.manager) {a : Action} {w' : World} {events : List Event}
    (hok : NoRestart w a) (hs : w.step a = some (w', events)) :
    Tracked (log ++ events) w'.manager := by
  have hhandler : ∀ r : World × List Event, w.onHandler r = some (w', events) →
      Tracked (log ++ r.2) r.1.manager → Tracked (log ++ events) w'.manager := by
    intro r hr hnext
    unfold World.onHandler at hr
    split_ifs at hr
    rwa [Option.some.inj hr] at hnext
  have hsome : ∀ r : World × List Event, some r = some (w', events) →
      Tracked (log ++ r.2) r.1.manager → Tracked (log ++ events) w'.manager := by
    intro r hr hnext
    rwa [Option.some.inj hr] at hnext
  cases a with
  | userUnlocked =>
    refine hhandler _ hs ?_
    rw [List.append_nil]
    exact ⟨h.balanced.of_eq rfl rfl, fun hp => ⟨rfl, (h.available hp).2⟩, h.inFlight⟩
  | serviceConnected uidResolved transacted =>
    refine hhandler _ hs ?_
    -- the requests are counted anew for each connection
    have hconnected : Tracked log { w.manager with
        provider := true, providerUid := uidResolved, requestsThisConnection := 0 } :=
      ⟨h.balanced.of_eq rfl rfl, fun hp => ⟨(h.available hp).1, rfl⟩, h.inFlight⟩
    exact hconnected.requestRetainedCatalog (w := { w with manager := _ }) transacted
  | serviceDisconnected =>
    refine hhandler _ hs ?_
    refine finishRefresh ?_ ?_ .unavailable
    · exact h.balanced.of_eq rfl rfl
    · intro hf
      simp [World.dropRequest] at hf
  | observeDefaultDisplayState state link =>
    exact hhandler _ hs (h.observeDefaultDisplayState state link)
  | wakeRequest transacted =>
    simp only [World.step] at hs
    split_ifs at hs
    have hfree : Tracked log { w.manager with wakeRequest := false } :=
      ⟨h.balanced.of_eq rfl rfl, h.available, h.inFlight⟩
    exact hsome _ hs (hfree.requestRetainedCatalog (w := { w with manager := _ }) transacted)
  | beginDefaultDisplayOff link => exact hsome _ hs (h.aside (Aside.beginScreenOff w link))
  | cancelDefaultDisplayOff epochLink catalogLink copied pick =>
    exact hsome _ hs (h.aside (Aside.cancelScreenOff w epochLink catalogLink copied pick))
  | refreshSleepImageMode setting transacted =>
    exact hsome _ hs (h.refreshSleepImageMode _ transacted)
  | refreshCatalog storeGeneration transacted =>
    exact hsome _ hs (h.refreshCatalog storeGeneration transacted)
  | requestTimeout generation transacted =>
    simp only [World.step] at hs
    split_ifs at hs
    exact hhandler _ hs (h.handleRequestTimeout generation transacted)
  | providerCallback generation storeGeneration result candidates copied pick link =>
    simp only [World.step] at hs
    split_ifs at hs
    exact hhandler _ hs
      (h.handleProviderCallback generation storeGeneration result candidates copied pick link)
  | invalidCallback generation =>
    refine hhandler _ hs ?_
    unfold World.handleInvalidCallback
    split_ifs
    · refine finishRefresh ?_ ?_ .unavailable
      · exact h.balanced.of_eq rfl rfl
      · intro hf
        simp at hf
    · rwa [List.append_nil]
  | maybeStartM3 =>
    refine hsome _ hs ?_
    rwa [List.append_nil]
  | evaluate frame selector =>
    refine hsome _ hs ?_
    rwa [List.append_nil]
  | restart => cases hok

end Tracked

/-! ### Which steps leave a pending refresh with a request -/

/-- `OnItsWay` without what `Tracked` adds to it. -/
def Waiting (m : Manager) : Prop :=
  m.pendingRefreshCallback ≠ none →
    m.requestInFlight = true ∨ (m.wakeRequest = true ∧ World.canRequest m = true)

theorem onItsWay_iff {log : List Event} {m : Manager} (h : Tracked log m) :
    OnItsWay log m ↔ Waiting m := by
  constructor
  · intro hway hpending
    rcases hway hpending with ⟨hflight, -⟩ | hqueued
    · exact Or.inl hflight
    · exact Or.inr hqueued
  · intro hwaiting hpending
    rcases hwaiting hpending with hflight | hqueued
    · exact Or.inl ⟨hflight, h.inFlight hflight⟩
    · exact Or.inr hqueued

namespace Waiting

variable {log : List Event} {w : World} {r : World × List Event}

theorem of_none {m : Manager} (h : m.pendingRefreshCallback = none) : Waiting m :=
  fun hpending => absurd h hpending

theorem of_inFlight {m : Manager} (h : m.requestInFlight = true) : Waiting m := fun _ => Or.inl h

theorem aside (h : Waiting w.manager) (ha : Aside w r)
    (hscreen : r.1.manager.screenOff = false ∨ r.1.manager.screenOff = w.manager.screenOff) :
    Waiting r.1.manager := by
  obtain ⟨hsame, -⟩ := ha
  simp only [Manager.requests, Requests.mk.injEq] at hsame
  obtain ⟨hprovider, huid, -, huser, hflight, hcount, hpending, -, hwake, -⟩ := hsame
  intro hne
  rw [hpending] at hne
  rw [hflight, hwake]
  rcases h hne with hin | ⟨hqueued, hcan⟩
  · exact Or.inl hin
  · refine Or.inr ⟨hqueued, ?_⟩
    unfold World.canRequest at hcan ⊢
    rw [hprovider, huid, huser, hflight, hcount]
    rcases hscreen with hon | hsame
    · simp only [Bool.and_eq_true, Bool.not_eq_true'] at hcan ⊢
      exact ⟨⟨⟨⟨⟨hon, hcan.1.1.1.1.2⟩, hcan.1.1.1.2⟩, hcan.1.1.2⟩, hcan.1.2⟩, hcan.2⟩
    · rw [hsame]
      exact hcan

theorem requestRetainedCatalog_iff (transacted : Bool) :
    Waiting (w.requestRetainedCatalog transacted).1.manager ↔
      (w.manager.pendingRefreshCallback ≠ none →
        w.manager.requestInFlight = true ∨ World.canRequest w.manager = true) := by
  unfold World.requestRetainedCatalog
  by_cases hcan : World.canRequest w.manager = true
  · rw [if_neg (by simp [hcan])]
    dsimp only
    split_ifs
    · exact iff_of_true (of_inFlight rfl) fun _ => Or.inr hcan
    · exact iff_of_true (of_none rfl) fun _ => Or.inr hcan
  · rw [if_pos (by simpa using hcan)]
    constructor
    · intro h hpending
      rcases h hpending with hflight | ⟨-, hcan'⟩
      · exact Or.inl hflight
      · exact Or.inr hcan'
    · intro h hpending
      exact Or.inl ((h hpending).resolve_right hcan)

theorem beginScreenOff_iff (h : Waiting w.manager) (link : Link) :
    Waiting (w.beginScreenOff link).1.manager ↔
      (w.manager.pendingRefreshCallback ≠ none →
        w.manager.screenOff = true ∨ w.manager.requestInFlight = true) := by
  have haside := Aside.beginScreenOff w link
  have hoff := w.beginScreenOff_screenOff link
  by_cases hscreen : w.manager.screenOff = true
  · refine iff_of_true (h.aside haside (Or.inr ?_)) fun _ => Or.inl hscreen
    rw [hoff, hscreen]
  · have hsame := haside.1
    simp only [Manager.requests, Requests.mk.injEq] at hsame
    obtain ⟨-, -, -, -, hflight, -, hpending, -, -, -⟩ := hsame
    constructor
    · intro hafter hne
      rcases hafter (by rwa [hpending]) with hin | ⟨-, hcan⟩
      · exact Or.inr (hflight ▸ hin)
      · simp [World.canRequest, hoff] at hcan
    · intro hkeeps hne
      rw [hpending] at hne
      rw [hflight]
      exact Or.inl ((hkeeps hne).resolve_left hscreen)

theorem handleScreenOn_iff (h : Tracked log w.manager) (hwaiting : Waiting w.manager)
    (link : Link) :
    Waiting (w.handleScreenOn link).1.manager ↔
      (w.manager.pendingRefreshCallback ≠ none →
        w.manager.screenOff = true → w.manager.providerUid = true) := by
  unfold World.handleScreenOn
  by_cases hon : (!w.manager.screenOff) = true
  · rw [if_pos hon]
    refine iff_of_true hwaiting fun _ hoff => ?_
    rw [hoff] at hon
    cases hon
  · rw [if_neg hon]
    have hoff : w.manager.screenOff = true := by simpa using hon
    have hsame := (Aside.endPresentation w .wake link).1
    simp only [Manager.requests, Requests.mk.injEq] at hsame
    obtain ⟨hprovider, huid, -, huser, -, -, hpending, -, -, -⟩ := hsame
    have hcan : World.canRequest { World.dropRequest (w.endPresentation .wake link).1.manager with
        wakeRequest := true } =
        (w.manager.userAvailable && w.manager.provider && w.manager.providerUid) := by
      simp [World.canRequest, World.dropRequest, MAXIMUM_REQUESTS_PER_CONNECTION, hprovider, huid,
        huser]
    constructor
    · intro hafter hne _
      -- the request that was in flight has been dropped
      rcases hafter (by rw [← hpending] at hne; exact hne) with hin | ⟨-, hcan'⟩
      · simp [World.dropRequest] at hin
      · rw [hcan] at hcan'
        simp only [Bool.and_eq_true] at hcan'
        exact hcan'.2
    · intro hkeeps hne
      have hne' : w.manager.pendingRefreshCallback ≠ none := by rw [← hpending]; exact hne
      obtain ⟨huser', hprovider'⟩ := h.available hne'
      refine Or.inr ⟨rfl, ?_⟩
      rw [hcan, huser', hprovider', hkeeps hne' hoff]
      rfl

theorem observeDefaultDisplayState_iff (h : Tracked log w.manager) (hwaiting : Waiting w.manager)
    (hfree : w.manager.wakeRequest = false) (state : Int) (link : Link) :
    Waiting (w.observeDefaultDisplayState state link).1.manager ↔
      (w.manager.pendingRefreshCallback ≠ none →
        KeepsRequest w.manager (.observeDefaultDisplayState state link)) := by
  have hflight : w.manager.pendingRefreshCallback ≠ none → w.manager.requestInFlight = true := by
    intro hne
    refine (hwaiting hne).resolve_right fun hqueued => ?_
    rw [hfree] at hqueued
    cases hqueued.1
  unfold World.observeDefaultDisplayState KeepsRequest
  dsimp only
  split_ifs with hsame hfirst hreconcile hwake
  · refine iff_of_true hwaiting fun _ hoff hne => ?_
    exact absurd (hsame.symm.trans hoff) hne
  · refine iff_of_true (fun hne => Or.inl (hflight hne)) fun _ hoff => ?_
    rw [hfirst] at hoff
    cases hoff
  · refine iff_of_true (fun hne => Or.inl (hflight hne)) fun _ hoff => ?_
    exact absurd hoff hreconcile.1
  · have hseen : Tracked log { w.manager with defaultDisplayState := state } :=
      ⟨h.balanced.of_eq rfl rfl, h.available, h.inFlight⟩
    rw [handleScreenOn_iff (w := { w with manager := _ }) hseen hwaiting link]
    exact ⟨fun hk hne _ _ => hk hne, fun hk hne => hk hne hwake.1 hwake.2⟩
  · refine iff_of_true (fun hne => Or.inl (hflight hne)) fun _ hoff hne => ?_
    exact absurd ⟨hoff, hne⟩ hwake

theorem refreshSleepImageMode_iff (h : Tracked log w.manager) (hwaiting : Waiting w.manager)
    (setting : Int) (transacted : Bool) :
    Waiting (w.refreshSleepImageMode (.ofSetting setting) transacted).1.manager ↔
      (w.manager.pendingRefreshCallback ≠ none →
        KeepsRequest w.manager (.refreshSleepImageMode setting transacted)) := by
  unfold World.refreshSleepImageMode KeepsRequest
  by_cases hsame : SleepImageMode.ofSetting setting = w.manager.sleepImageMode
  · rw [if_pos hsame]
    exact iff_of_true hwaiting fun _ hne => absurd hsame hne
  rw [if_neg hsame]
  -- with the request dropped, only a new one can be in flight
  have hcan : World.canRequest { World.dropRequest w.manager with
      sleepImageMode := .ofSetting setting, retainedCatalog := [] } =
      (!w.manager.screenOff && w.manager.userAvailable && w.manager.provider &&
        w.manager.providerUid) := by
    simp [World.canRequest, World.dropRequest, MAXIMUM_REQUESTS_PER_CONNECTION]
  dsimp only
  split_ifs with hask
  · rw [requestRetainedCatalog_iff]
    dsimp only
    rw [hcan]
    simp only [Bool.and_eq_true, Bool.not_eq_true', decide_eq_true_eq] at hask
    refine forall_congr' fun hne => ?_
    obtain ⟨huser, hprovider⟩ := h.available hne
    have hon : w.manager.screenOff = false := hask.1
    simp [hon, hask.2, huser, hprovider, hsame, World.dropRequest]
  · refine forall_congr' fun hne => ?_
    obtain ⟨huser, hprovider⟩ := h.available hne
    rw [hcan]
    simp only [Bool.and_eq_true, Bool.not_eq_true', decide_eq_true_eq, not_and, not_not] at hask
    simp only [World.dropRequest, huser, hprovider, Bool.and_true, Bool.and_eq_true,
      Bool.not_eq_true', Bool.false_eq_true, false_or]
    constructor
    · rintro ⟨hwake, hon, huid⟩ -
      exact ⟨hon, huid, Or.inr hwake⟩
    · intro hkeeps
      obtain ⟨hon, huid, hmode⟩ := hkeeps hsame
      exact ⟨hmode.resolve_left (not_not.mpr (hask hon)), hon, huid⟩

theorem handleRequestTimeout_iff (h : Tracked log w.manager) (hwaiting : Waiting w.manager)
    (hfree : w.manager.wakeRequest = false) (generation : Nat) (transacted : Bool) :
    Waiting (w.handleRequestTimeout generation transacted).1.manager ↔
      (w.manager.pendingRefreshCallback ≠ none →
        KeepsRequest w.manager (.requestTimeout generation transacted)) := by
  unfold World.handleRequestTimeout KeepsRequest
  by_cases hstale : (!w.manager.requestInFlight ||
      decide (generation ≠ w.manager.requestGeneration)) = true
  · -- the timeout of an earlier request
    dsimp only
    rw [if_pos hstale]
    refine iff_of_true hwaiting fun _ hin hcurrent => ?_
    simp [hin, hcurrent] at hstale
  dsimp only
  rw [if_neg hstale]
  simp only [ne_eq, Bool.or_eq_true, Bool.not_eq_true', decide_eq_true_eq, not_or,
    Bool.not_eq_false, not_not] at hstale
  obtain ⟨hin, hcurrent⟩ := hstale
  by_cases hoff : w.manager.screenOff = true
  · have hskip : ¬ (!w.manager.screenOff) = true := by simp [hoff]
    rw [if_neg hskip]
    dsimp only
    split_ifs with hend
    · exact iff_of_true (of_none rfl) fun _ _ _ => Or.inl hoff
    · exact absurd (by rw [hoff, Bool.true_or]) hend
  -- with the screen on a new request is tried, and the refresh ends when the budget is spent
  have hask : (!w.manager.screenOff) = true := by simpa using hoff
  rw [if_pos hask]
  have hcan : World.canRequest { w.manager with
      timeouts := w.manager.timeouts.erase generation, requestInFlight := false } =
      (w.manager.userAvailable && w.manager.provider && w.manager.providerUid &&
        decide (w.manager.requestsThisConnection < MAXIMUM_REQUESTS_PER_CONNECTION)) := by
    simp [World.canRequest, hoff]
  by_cases hc : World.canRequest { w.manager with
      timeouts := w.manager.timeouts.erase generation, requestInFlight := false } = true
  · refine iff_of_true ?_ fun _ _ _ => Or.inr (Or.inl ?_)
    · split_ifs
      · exact of_none rfl
      · exact (requestRetainedCatalog_iff transacted).mpr fun _ => Or.inr hc
    · rw [hcan] at hc
      simp only [Bool.and_eq_true] at hc
      exact hc.1.2
  · rw [World.requestRetainedCatalog_of_not transacted (by simpa using hc)]
    dsimp only
    split_ifs with hend
    · refine iff_of_true (of_none rfl) fun _ _ _ => Or.inr (Or.inr ?_)
      simpa [hoff] using hend
    · have hbudget : w.manager.requestsThisConnection < MAXIMUM_REQUESTS_PER_CONNECTION := by
        simpa [hoff] using hend
      refine forall_congr' fun hne => iff_of_false ?_ ?_
      · rintro (hflight | ⟨hwake, -⟩)
        · cases hflight
        · rw [hfree] at hwake
          cases hwake
      · intro hkeeps
        obtain ⟨huser, hprovider⟩ := h.available hne
        rcases hkeeps hin hcurrent with hscreen | huid | hspent
        · exact hoff hscreen
        · rw [hcan, huser, hprovider, huid] at hc
          exact hc (by simpa using hbudget)
        · exact absurd hspent (Nat.not_le.mpr hbudget)

/-- Every step but a restart leaves a pending refresh with a request exactly when it keeps one. -/
theorem step_iff (h : Tracked log w.manager) (hwaiting : Waiting w.manager) {a : Action}
    {w' : World} {events : List Event} (hok : NoRestart w a)
    (hs : w.step a = some (w', events)) :
    Waiting w'.manager ↔ (w.manager.pendingRefreshCallback ≠ none → KeepsRequest w.manager a) := by
  have hhandler : ∀ r : World × List Event, w.onHandler r = some (w', events) →
      (w.manager.wakeRequest = false → (Waiting r.1.manager ↔
        (w.manager.pendingRefreshCallback ≠ none → KeepsRequest w.manager a))) →
      (Waiting w'.manager ↔
        (w.manager.pendingRefreshCallback ≠ none → KeepsRequest w.manager a)) := by
    intro r hr hiff
    unfold World.onHandler at hr
    split_ifs at hr with hfree
    have hnext := hiff (by simpa using hfree)
    rwa [Option.some.inj hr] at hnext
  have hsome : ∀ r : World × List Event, some r = some (w', events) → (Waiting r.1.manager ↔
        (w.manager.pendingRefreshCallback ≠ none → KeepsRequest w.manager a)) →
      (Waiting w'.manager ↔
        (w.manager.pendingRefreshCallback ≠ none → KeepsRequest w.manager a)) := by
    intro r hr hiff
    rwa [Option.some.inj hr] at hiff
  -- on the free handler no request is queued
  have hflight : w.manager.wakeRequest = false → w.manager.pendingRefreshCallback ≠ none →
      w.manager.requestInFlight = true := by
    intro hfree hne
    refine (hwaiting hne).resolve_right fun hqueued => ?_
    rw [hfree] at hqueued
    cases hqueued.1
  cases a with
  | userUnlocked =>
    refine hhandler _ hs fun hfree => iff_of_true (fun hne => ?_) fun _ => trivial
    exact Or.inl (hflight hfree hne)
  | serviceConnected uidResolved transacted =>
    refine hhandler _ hs fun hfree => iff_of_true ?_ fun _ => trivial
    refine (requestRetainedCatalog_iff transacted).mpr fun hne => ?_
    exact Or.inl (hflight hfree hne)
  | serviceDisconnected =>
    exact hhandler _ hs fun _ => iff_of_true (of_none rfl) fun _ => trivial
  | observeDefaultDisplayState state link =>
    exact hhandler _ hs fun hfree => observeDefaultDisplayState_iff h hwaiting hfree state link
  | wakeRequest transacted =>
    simp only [World.step] at hs
    split_ifs at hs
    refine hsome _ hs (iff_of_true ?_ fun _ => trivial)
    refine (requestRetainedCatalog_iff transacted).mpr fun hne => ?_
    rcases hwaiting hne with hin | ⟨-, hcan⟩
    · exact Or.inl hin
    · exact Or.inr hcan
  | beginDefaultDisplayOff link => exact hsome _ hs (beginScreenOff_iff hwaiting link)
  | cancelDefaultDisplayOff epochLink catalogLink copied pick =>
    refine hsome _ hs (iff_of_true ?_ fun _ => trivial)
    exact hwaiting.aside (Aside.cancelScreenOff w epochLink catalogLink copied pick)
      (Or.inl (w.cancelScreenOff_screenOff epochLink catalogLink copied pick))
  | refreshSleepImageMode setting transacted =>
    exact hsome _ hs (refreshSleepImageMode_iff h hwaiting setting transacted)
  | refreshCatalog storeGeneration transacted =>
    refine hsome _ hs (iff_of_true ?_ fun _ => trivial)
    unfold World.refreshCatalog
    dsimp only
    split_ifs with hgeneration havailable
    · exact hwaiting
    · exact hwaiting
    · refine (requestRetainedCatalog_iff transacted).mpr fun _ => Or.inr ?_
      simp only [Bool.or_eq_true, Bool.not_eq_true', not_or, Bool.not_eq_true,
        Bool.not_eq_false] at havailable
      obtain ⟨⟨⟨hon, huser⟩, hprovider⟩, huid⟩ := havailable
      simp [World.canRequest, World.dropRequest, World.finishRefresh,
        MAXIMUM_REQUESTS_PER_CONNECTION, hon, huser, hprovider, huid]
  | requestTimeout generation transacted =>
    simp only [World.step] at hs
    split_ifs at hs
    exact hhandler _ hs fun hfree =>
      handleRequestTimeout_iff h hwaiting hfree generation transacted
  | providerCallback generation storeGeneration result candidates copied pick link =>
    simp only [World.step] at hs
    split_ifs at hs
    refine hhandler _ hs fun hfree => iff_of_true ?_ fun _ => trivial
    unfold World.handleProviderCallback
    dsimp only
    -- a pending callback that is not refused has the result and generation it waits for
    split_ifs with hstale hoff hbad hresult hstore
    · exact hwaiting
    · exact of_none rfl
    · exact of_none rfl
    · exact of_none rfl
    · have hsame := (Aside.installCatalog
        { w with manager := { w.manager with requestInFlight := false } } candidates copied pick
        link).1
      simp only [Manager.requests, Requests.mk.injEq] at hsame
      refine of_none (hsame.2.2.2.2.2.2.1.trans ?_)
      simpa [hresult, hstore] using hbad
    · refine of_none ?_
      simpa [hresult] using hbad
  | invalidCallback generation =>
    refine hhandler _ hs fun _ => iff_of_true ?_ fun _ => trivial
    unfold World.handleInvalidCallback
    split_ifs
    · exact of_none rfl
    · exact hwaiting
  | maybeStartM3 => exact hsome _ hs (iff_of_true hwaiting fun _ => trivial)
  | evaluate frame selector => exact hsome _ hs (iff_of_true hwaiting fun _ => trivial)
  | restart => cases hok

end Waiting

/-! ### Runs -/

theorem tracked_run {as : List Action} {log : List Event} {t : World}
    (h : system.Run NoRestart {} as log t) : Tracked log t.manager := by
  refine h.induct (fun _ log w => Tracked log w.manager) tracked_init ?_
  intro as log w a w' events hw hok hs
  exact hw.step hok hs

/-- After a run that leaves a pending refresh on its way, a step does so exactly if it is
careful. -/
theorem onItsWay_step_iff {as : List Action} {log events : List Event} {t u : World} {a : Action}
    (h : system.Run NoRestart {} as log t) (hway : OnItsWay log t.manager) (hok : NoRestart t a)
    (hs : t.step a = some (u, events)) : OnItsWay (log ++ events) u.manager ↔ Careful t a := by
  have htracked := tracked_run h
  have hwaiting := (onItsWay_iff htracked).mp hway
  rw [onItsWay_iff (htracked.step hok hs), hwaiting.step_iff htracked hok hs]
  exact ⟨fun hkeeps => ⟨hok, hkeeps⟩, fun hcareful => hcareful.2⟩

theorem onItsWay_of_careful {as : List Action} {log : List Event} {t : World}
    (h : system.Run Careful {} as log t) :
    system.Run NoRestart {} as log t ∧ OnItsWay log t.manager := by
  induction h with
  | nil => exact ⟨.nil, fun hpending => absurd rfl hpending⟩
  | snoc _ hok hs ih =>
    exact ⟨ih.1.snoc hok.1 hs, (onItsWay_step_iff ih.1 ih.2 hok.1 hs).mpr hok⟩

/-- **A refresh is on its way to exactly one result**: in every run of the manager a refresh is
accepted at most once, and is then pending or has been notified, once; and it has a request in
every state reached exactly if every step was careful. -/
theorem refresh_on_its_way_iff {as : List Action} {log : List Event} {t : World}
    (h : system.Run NoRestart {} as log t) :
    Balanced log t.manager ∧
      ((∀ as₁ log₁ t₁, as₁ <+: as → system.Run NoRestart {} as₁ log₁ t₁ →
          OnItsWay log₁ t₁.manager) ↔ system.Run Careful {} as log t) := by
  refine ⟨(tracked_run h).balanced, ?_⟩
  induction h with
  | nil =>
    refine iff_of_true (System.Run.forall_prefix_nil.mpr ?_) .nil
    exact fun hpending => absurd rfl hpending
  | @snoc as log t a u events hrun hok hs ih =>
    rw [hrun.forall_prefix_snoc hok hs, ih]
    constructor
    · rintro ⟨hbefore, hafter⟩
      have hway := (onItsWay_of_careful hbefore).2
      exact hbefore.snoc ((onItsWay_step_iff hrun hway hok hs).mp hafter) hs
    · intro hcareful
      refine ⟨?_, (onItsWay_of_careful hcareful).2⟩
      obtain ⟨_, _, _, hrun', -, -, -⟩ := hcareful.of_snoc
      obtain ⟨rfl, rfl⟩ := hrun.unique hrun'
      exact hrun'

/-- A refresh is accepted, and the sleep image is switched off before the provider answers. -/
def switchedOff : List Action :=
  bootedActions ++ [.refreshCatalog 5 true, .refreshSleepImageMode 0 true]

theorem refresh_on_its_way_iff_of_switchedOff :
    ∃ log t, system.Run NoRestart {} switchedOff log t ∧ .accepted 1 ∈ log ∧
      Balanced log t.manager ∧
      ((∀ as₁ log₁ t₁, as₁ <+: switchedOff → system.Run NoRestart {} as₁ log₁ t₁ →
          OnItsWay log₁ t₁.manager) ↔ system.Run Careful {} switchedOff log t) := by
  have hexec : (system.exec NoRestart {} switchedOff).map
      (fun r => decide (.accepted 1 ∈ r.2)) = some true := by
    decide
  obtain ⟨⟨t, log⟩, hr, hmem⟩ := Option.map_eq_some_iff.mp hexec
  have hrun := System.Run.of_exec hr
  exact ⟨log, t, hrun, of_decide_eq_true hmem, refresh_on_its_way_iff hrun⟩

/-- The refresh is still pending, nothing is in flight and nothing is queued. -/
theorem switched_off_forgotten :
    ¬ ∀ (as : List Action) (log : List Event) (t : World), system.Run NoRestart {} as log t →
      OnItsWay log t.manager := by
  intro hall
  have hexec : (system.exec NoRestart {} switchedOff).map
      (fun r => (r.1.manager.pendingRefreshCallback, r.1.manager.requestInFlight,
        r.1.manager.wakeRequest)) = some (some 1, false, false) := by
    decide
  obtain ⟨⟨t, log⟩, hr, heq⟩ := Option.map_eq_some_iff.mp hexec
  simp only [Prod.mk.injEq] at heq
  obtain ⟨hpending, hflight, hwake⟩ := heq
  rcases hall switchedOff log t (System.Run.of_exec hr) (by simp [hpending]) with h | h
  · rw [hflight] at h
    cases h.1
  · rw [hwake] at h
    cases h.1

end EinkLab.SleepImageManager
