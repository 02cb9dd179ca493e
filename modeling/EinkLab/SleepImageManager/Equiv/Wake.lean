import EinkLab.SleepImageManager.Equiv.Protocol

/-!
# The panel is released after a wake

`panel_released_after_wake`: over a reliable transport, in every run without a restart, the native
latch is inactive whenever the manager's screen-off flag is false, each `SCREEN_ON` of a wake or a
cancel names the epoch of the presentation before it, and the epoch stands still in between.

`Agree` is the invariant of the protocol: the manager believes in a presentation exactly when its
epoch is the active one.
-/

namespace EinkLab.SleepImageManager

open Transition

/-! ### Presentations and their ends -/

/-- An accepted presentation of the epoch. -/
def Presented (epoch : Nat) (e : Event) : Prop :=
  ∃ retained before, e = .screenOff epoch retained before (some .accepted)

/-- A `SCREEN_ON` of a wake or a cancel. -/
def EndsPresentation (e : Event) : Prop :=
  ∃ cause epoch result, e = .screenOn cause epoch result ∧ cause ≠ .keepLast

/-- The disarm of a wake or a cancel is accepted, and names the last accepted presentation. -/
def DisarmLaw (log : List Event) (e : Event) : Prop :=
  ∀ cause epoch result, e = .screenOn cause epoch result → cause ≠ .keepLast →
    result = some .accepted ∧
      OpenAfter (Presented epoch) (fun x => (∃ n, Presented n x) ∨ EndsPresentation x) log

/-- The manager and the native latch agree. -/
structure Agree (log : List Event) (v : Protocol.View) : Prop where
  requested : v.requested = true → v.screenOff = true ∧ v.epoch ≠ 0 ∧
    v.native.latch.activeEpoch = v.epoch ∧
      OpenAfter (Presented v.epoch) (fun x => (∃ n, Presented n x) ∨ EndsPresentation x) log
  idle : v.requested = false → v.native.latch.activeEpoch = 0
  span : ∀ epoch, OpenAfter (Presented epoch) EndsPresentation log →
    v.requested = true ∧ v.epoch = epoch
  law : EachEvent DisarmLaw log

theorem agree_init : Agree [] {} where
  requested h := by cases h
  idle _ := rfl
  span epoch h := absurd h (not_openAfter_nil _ _)
  law := eachEvent_nil _

namespace Agree

variable {log : List Event} {v : Protocol.View}

/-- An event that is neither a presentation nor the end of one. -/
theorem neutral (h : Agree log v) {e : Event} (hpresented : ∀ n, ¬ Presented n e)
    (hends : ¬ EndsPresentation e) {v' : Protocol.View} (hrequested : v'.requested = v.requested)
    (hscreen : v.requested = true → v'.screenOff = true ∧ v'.epoch = v.epoch)
    (hactive : v'.native.latch.activeEpoch = v.native.latch.activeEpoch) :
    Agree (log ++ [e]) v' where
  requested hr := by
    rw [hrequested] at hr
    obtain ⟨-, hepoch, hactive', hopen⟩ := h.requested hr
    obtain ⟨hoff, hsame⟩ := hscreen hr
    refine ⟨hoff, by rwa [hsame], by rw [hactive, hactive', hsame], ?_⟩
    rw [hsame]
    refine openAfter_append_singleton.mpr (Or.inr ⟨hopen, ?_⟩)
    rintro (⟨n, hn⟩ | he)
    · exact hpresented n hn
    · exact hends he
  idle hr := by rw [hactive]; exact h.idle (hrequested ▸ hr)
  span epoch hopen := by
    rcases openAfter_append_singleton.mp hopen with hp | ⟨hopen, -⟩
    · exact absurd hp (hpresented epoch)
    · obtain ⟨hr, rfl⟩ := h.span epoch hopen
      exact ⟨by rw [hrequested, hr], (hscreen hr).2⟩
  law := by
    refine eachEvent_append_singleton.mpr ⟨h.law, ?_⟩
    rintro cause epoch result rfl hcause
    exact absurd ⟨cause, epoch, result, rfl, hcause⟩ hends

/-- No event, and nothing the invariant sees but the screen going off. -/
theorem same (h : Agree log v) {v' : Protocol.View} (hrequested : v'.requested = v.requested)
    (hscreen : v.requested = true → v'.screenOff = true) (hepoch : v'.epoch = v.epoch)
    (hactive : v'.native.latch.activeEpoch = v.native.latch.activeEpoch) : Agree log v' where
  requested hr := by
    rw [hrequested] at hr
    obtain ⟨-, hne, hactive', hopen⟩ := h.requested hr
    exact ⟨hscreen hr, by rwa [hepoch], by rw [hactive, hactive', hepoch], by rwa [hepoch]⟩
  idle hr := by rw [hactive]; exact h.idle (hrequested ▸ hr)
  span epoch hopen := by rw [hrequested, hepoch]; exact h.span epoch hopen
  law := h.law

/-- While the screen is on, nothing is requested. -/
theorem not_requested (h : Agree log v) (hon : v.screenOff = false) : v.requested = false := by
  cases hr : v.requested with
  | false => rfl
  | true =>
    have hoff := (h.requested hr).1
    rw [hon] at hoff
    cases hoff

/-- A `SCREEN_OFF`. -/
theorem sendScreenOff (h : Agree log v) (hon : v.screenOff = false) (retained : Bool) {link : Link}
    (hlink : link.Reliable) :
    Agree (log ++ (v.sendScreenOff retained link).2) (v.sendScreenOff retained link).1 := by
  have hnot := h.not_requested hon
  have hidle := h.idle hnot
  -- the link is reliable, so the native side's result is the one that is remembered
  unfold Protocol.View.sendScreenOff
  simp only [hlink.1, if_true, hlink.2, Bool.true_and]
  have hcases := v.native.presentSleepImage_cases v.epoch link.conditions
  generalize v.native.presentSleepImage v.epoch link.conditions = r at hcases
  obtain ⟨result, native⟩ := r
  dsimp only at hcases ⊢
  have hspan : ∀ epoch, ¬ OpenAfter (Presented epoch) EndsPresentation log := by
    intro epoch hopen
    rw [(h.span epoch hopen).1] at hnot
    cases hnot
  cases hcases with
  | accepted _ hepoch _ _ hactive =>
    refine ⟨fun _ => ⟨rfl, hepoch, hactive, ?_⟩, fun hr => (by cases hr), fun epoch hopen => ?_, ?_⟩
    · exact openAfter_append_singleton.mpr (Or.inl ⟨_, _, rfl⟩)
    · rcases openAfter_append_singleton.mp hopen with ⟨_, _, heq⟩ | ⟨hopen, -⟩
      · cases heq
        exact ⟨rfl, rfl⟩
      · exact absurd hopen (hspan epoch)
    · exact eachEvent_append_singleton.mpr ⟨h.law, by rintro cause epoch result ⟨⟩⟩
  | withdrawn _ _ _ _ hactive =>
    refine h.neutral ?_ ?_ (by simpa using hnot.symm) (by simp [hnot]) (by rw [hactive, hidle])
    · rintro n ⟨_, _, heq⟩
      cases heq
    · rintro ⟨_, _, _, heq, -⟩
      cases heq
  | rejected _ _ haccepted _ hlatch =>
    refine h.neutral ?_ ?_ (by simp [hnot, haccepted]) (by simp [hnot]) (by rw [hlatch])
    · rintro n ⟨_, _, heq⟩
      cases heq
      exact haccepted rfl
    · rintro ⟨_, _, _, heq, -⟩
      cases heq

/-- The `SCREEN_ON` of a screen-off that keeps the last picture finds nothing to disarm. -/
theorem sendKeepLast (h : Agree log v) (hon : v.screenOff = false) {link : Link}
    (hlink : link.Reliable) :
    Agree (log ++ (v.sendScreenOn .keepLast true link).2)
      (v.sendScreenOn .keepLast true link).1 := by
  have hnot := h.not_requested hon
  have hidle := h.idle hnot
  unfold Protocol.View.sendScreenOn
  simp only [hlink.1, if_true]
  refine h.neutral ?_ ?_ (by simp [hnot]) (by simp [hnot]) ?_
  · rintro n ⟨_, _, heq⟩
    cases heq
  · rintro ⟨_, _, _, heq, hcause⟩
    cases heq
    exact hcause rfl
  · rcases v.native.disarmSleepCycle_cases v.epoch with ⟨hepoch, hactive, -, -⟩ | ⟨-, -, hlatch⟩
    · omega
    · show (v.native.disarmSleepCycle v.epoch).2.latch.activeEpoch = _
      rw [hlatch]

/-- The `SCREEN_ON` of a wake or a cancel ends the presentation. -/
theorem sendScreenOn (h : Agree log v) (hrequested : v.requested = true) {cause : Cause}
    (hcause : cause ≠ .keepLast) {link : Link} (hlink : link.Reliable) :
    Agree (log ++ (v.sendScreenOn cause false link).2) (v.sendScreenOn cause false link).1 := by
  obtain ⟨-, hepoch, hactive, hopen⟩ := h.requested hrequested
  unfold Protocol.View.sendScreenOn
  simp only [hlink.1, if_true]
  rcases v.native.disarmSleepCycle_cases v.epoch with ⟨-, -, haccepted, hlatch⟩ | ⟨hnot, -, -⟩
  swap
  · exact absurd hnot (by simp [hepoch, hactive])
  refine ⟨fun hr => (by cases hr), fun _ => ?_, fun epoch hopen' => ?_, ?_⟩
  · show (v.native.disarmSleepCycle v.epoch).2.latch.activeEpoch = 0
    rw [hlatch]
  · rcases openAfter_append_singleton.mp hopen' with ⟨_, _, heq⟩ | ⟨hopen', hstop⟩
    · cases heq
    · exact absurd ⟨cause, _, _, rfl, hcause⟩ hstop
  · refine eachEvent_append_singleton.mpr ⟨h.law, ?_⟩
    rintro _ _ _ ⟨⟩ -
    exact ⟨by rw [haccepted], hopen⟩

/-- A publication takes a new epoch while nothing is presented. -/
theorem sendCatalog (h : Agree log v) (hon : v.screenOff = false) {link : Link}
    (hlink : link.Reliable) : Agree (log ++ (v.sendCatalog link).2) (v.sendCatalog link).1 := by
  have hnot := h.not_requested hon
  unfold Protocol.View.sendCatalog
  simp only [hlink.1, if_true]
  refine h.neutral ?_ ?_ rfl (by simp [hnot]) (by simp)
  · rintro n ⟨_, _, heq⟩
    cases heq
  · rintro ⟨_, _, _, heq, -⟩
    cases heq

/-- Every protocol step keeps the agreement, over a reliable transport and without restarts. -/
theorem step (h : Agree log v) {b : Protocol.Action} {v' : Protocol.View} {events : List Event}
    (hok : Protocol.Only Link.Reliable False v b) (hs : v.step b = some (v', events)) :
    Agree (log ++ events) v' := by
  obtain ⟨hrestart, hlinks⟩ := hok
  cases b with
  | other e =>
    simp only [Protocol.View.step] at hs
    split_ifs at hs with he
    obtain ⟨rfl, rfl⟩ := Prod.mk.inj (Option.some.inj hs)
    refine h.neutral ?_ ?_ rfl (fun hr => ⟨(h.requested hr).1, rfl⟩) rfl
    · rintro n ⟨_, _, rfl⟩
      simp [Event.isOther] at he
    · rintro ⟨_, _, _, rfl, -⟩
      simp [Event.isOther] at he
  | reconcile =>
    obtain ⟨rfl, rfl⟩ := Prod.mk.inj (Option.some.inj hs)
    rw [List.append_nil]
    exact h.same rfl (fun _ => rfl) rfl rfl
  | screenOff retained link =>
    simp only [Protocol.View.step] at hs
    split_ifs at hs with hoff
    have hnext := h.sendScreenOff (by simpa using hoff) retained
      (hlinks link (by simp [Protocol.Action.links]))
    rwa [Option.some.inj hs] at hnext
  | screenOffKeepLast link =>
    simp only [Protocol.View.step] at hs
    split_ifs at hs with hoff
    have hnext := h.sendKeepLast (by simpa using hoff)
      (hlinks link (by simp [Protocol.Action.links]))
    rwa [Option.some.inj hs] at hnext
  | screenOn cause link =>
    simp only [Protocol.View.step] at hs
    split_ifs at hs with henabled hrequested
    · have hcause : cause ≠ .keepLast := by simp at henabled; exact henabled.2
      have hnext := h.sendScreenOn hrequested hcause (hlinks link (by simp [Protocol.Action.links]))
      rwa [Option.some.inj hs] at hnext
    · -- nothing is requested, so no wake is sent
      obtain ⟨rfl, rfl⟩ := Prod.mk.inj (Option.some.inj hs)
      rw [List.append_nil]
      exact h.same rfl (fun hr => absurd hr hrequested) rfl rfl
  | publish link =>
    simp only [Protocol.View.step] at hs
    split_ifs at hs with hoff
    have hnext := h.sendCatalog (by simpa using hoff)
      (hlinks link (by simp [Protocol.Action.links]))
    rwa [Option.some.inj hs] at hnext
  | maybeStartM3 =>
    obtain ⟨rfl, rfl⟩ := Prod.mk.inj (Option.some.inj hs)
    rw [List.append_nil]
    exact h.same rfl (fun hr => (h.requested hr).1) rfl (by simp)
  | evaluate frame selector =>
    obtain ⟨rfl, rfl⟩ := Prod.mk.inj (Option.some.inj hs)
    rw [List.append_nil]
    exact h.same rfl (fun hr => (h.requested hr).1) rfl (v.native.evaluate_latch frame selector).1
  | restart => exact absurd (hrestart rfl) id

theorem run {bs : List Protocol.Action} {v : Protocol.View}
    (h : protocol.Run (Protocol.Only Link.Reliable False) {} bs log v) : Agree log v := by
  refine h.induct (fun _ log v => Agree log v) agree_init ?_
  intro bs log v b v' events hv hok hs
  exact hv.step hok hs

end Agree

/-- In every run over a reliable transport both sides agree. -/
theorem agree_of_run {as : List Action} {log : List Event} {t : World}
    (h : system.Run ReliableTransport {} as log t) : Agree log t.view := by
  obtain ⟨bs, hbs⟩ := run_protocol h Link.Reliable False
    (fun w a hok hr => by rw [hok.1] at hr; cases hr) (fun w a hok => hok.2)
  exact Agree.run hbs

/-! ### After a wake -/

/-- A cancel, or a display state that ends the off state of the default display. -/
def Manager.Wakes (m : Manager) : Action → Prop
  | .cancelDefaultDisplayOff .. => True
  | .observeDefaultDisplayState state _ => m.defaultDisplayState = STATE_OFF ∧ state ≠ STATE_OFF
  | _ => False

instance (m : Manager) : DecidablePred m.Wakes
  | .cancelDefaultDisplayOff .. => inferInstanceAs (Decidable True)
  | .observeDefaultDisplayState state _ => inferInstanceAs
      (Decidable (m.defaultDisplayState = STATE_OFF ∧ state ≠ STATE_OFF))
  | .userUnlocked | .serviceConnected .. | .serviceDisconnected | .wakeRequest _
  | .beginDefaultDisplayOff _ | .refreshSleepImageMode .. | .refreshCatalog .. | .requestTimeout ..
  | .providerCallback .. | .invalidCallback _ | .maybeStartM3 | .evaluate .. | .restart =>
    inferInstanceAs (Decidable False)

/-- The manager has processed it: the flag is down. -/
theorem screenOff_of_wakes {w w' : World} {a : Action} {evs : List Event}
    (hwakes : w.manager.Wakes a) (hs : w.step a = some (w', evs)) :
    w'.manager.screenOff = false := by
  cases a with
  | cancelDefaultDisplayOff epochLink catalogLink copied pick =>
    have hw : (w.cancelScreenOff epochLink catalogLink copied pick).1 = w' :=
      congrArg Prod.fst (Option.some.inj hs)
    rw [← hw]
    exact w.cancelScreenOff_screenOff epochLink catalogLink copied pick
  | observeDefaultDisplayState state link =>
    -- the handler thread is free, as the message is taken
    simp only [World.step, World.onHandler] at hs
    split_ifs at hs
    have hw : (w.observeDefaultDisplayState state link).1 = w' :=
      congrArg Prod.fst (Option.some.inj hs)
    rw [← hw]
    exact World.observeDefaultDisplayState_screenOff link hwakes.1 hwakes.2
  | _ => exact absurd hwakes id

/-- **The panel is never left held after a wake**: over a reliable transport, in every run without
a restart. -/
theorem panel_released_after_wake {as : List Action} {log : List Event} {t : World}
    (h : system.Run ReliableTransport {} as log t) :
    (t.manager.screenOff = false → t.native.latch.activeEpoch = 0) ∧ EachEvent DisarmLaw log ∧
      (∀ epoch, OpenAfter (Presented epoch) EndsPresentation log → t.manager.epoch = epoch) ∧
      ∀ a t' evs, ReliableTransport t a → t.step a = some (t', evs) → t.manager.Wakes a →
        t'.manager.screenOff = false ∧ t'.native.latch.activeEpoch = 0 := by
  have hidle : ∀ {bs log u}, system.Run ReliableTransport {} bs log u →
      u.manager.screenOff = false → u.native.latch.activeEpoch = 0 := by
    intro bs log u hrun hon
    have hagree := agree_of_run hrun
    exact hagree.idle (hagree.not_requested hon)
  have hagree := agree_of_run h
  refine ⟨hidle h, hagree.law, fun epoch hopen => (hagree.span epoch hopen).2, ?_⟩
  intro a t' evs hok hs hwakes
  have hon := screenOff_of_wakes hwakes hs
  exact ⟨hon, hidle (h.trans (.single hok hs)) hon⟩

/-- The provider's answer to the first request: one image, which is also the fallback. -/
def firstCatalog (link : Link) : Action :=
  .providerCallback 1 1 .ok [⟨1860, 2480, true, true⟩] true 0 link

/-- The user is unlocked, the pipeline runs, the display is on, and the first catalog is out. -/
def bootedActions : List Action :=
  [.maybeStartM3, .userUnlocked, .observeDefaultDisplayState 2 {}, .serviceConnected true true,
    firstCatalog {}]

/-- The screen goes off, that is cancelled, and it goes off again. -/
def cancelledThenAsleep : List Action :=
  bootedActions ++ [.beginDefaultDisplayOff {}, .cancelDefaultDisplayOff {} {} true 0,
    .beginDefaultDisplayOff {}, .observeDefaultDisplayState 1 {}]

/-- The wake ends the second presentation. -/
theorem panel_released_after_wake_of_sleep :
    ∃ log t t' evs, system.Run ReliableTransport {} cancelledThenAsleep log t ∧
      .screenOn .cancelled 1 (some .accepted) ∈ log ∧ t.manager.screenOff = true ∧
      t.native.latch.activeEpoch = 2 ∧
      t.step (.observeDefaultDisplayState 2 {}) = some (t', evs) ∧
      .screenOn .wake 2 (some .accepted) ∈ evs ∧
      t'.manager.screenOff = false ∧ t'.native.latch.activeEpoch = 0 := by
  have hexec : (system.exec ReliableTransport {} cancelledThenAsleep).any (fun r =>
      decide (.screenOn .cancelled 1 (some .accepted) ∈ r.2 ∧ r.1.manager.screenOff = true ∧
        r.1.native.latch.activeEpoch = 2 ∧
        r.1.manager.Wakes (.observeDefaultDisplayState 2 {}) ∧
        (r.1.step (.observeDefaultDisplayState 2 {})).any
          (fun q => decide (.screenOn .wake 2 (some .accepted) ∈ q.2)) = true)) = true := by
    decide
  obtain ⟨⟨t, log⟩, hr, hall⟩ := (Option.any_eq_true _ _).mp hexec
  obtain ⟨hcancelled, hoff, hactive, hwakes, hnext⟩ := of_decide_eq_true hall
  obtain ⟨⟨t', evs⟩, hs, hwoken⟩ := (Option.any_eq_true _ _).mp hnext
  have hrun := System.Run.of_exec hr
  obtain ⟨hon, hidle⟩ := (panel_released_after_wake hrun).2.2.2 _ _ _ ⟨rfl, by decide⟩ hs hwakes
  exact ⟨log, t, t', evs, hrun, hcancelled, hoff, hactive, hs, of_decide_eq_true hwoken, hon, hidle⟩

end EinkLab.SleepImageManager
