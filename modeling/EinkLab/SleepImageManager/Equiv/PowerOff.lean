import EinkLab.SleepImageManager.Equiv.Wake
import EinkLab.SleepImageManager.PowerOff

/-!
# The panel keeps its power

`power_off_waits`: in every order of the calls, the display only goes off when the settling time of
the last sleep image that was accepted and not withdrawn is over, it is kept on for no other reason,
and a retry is only queued for a pending off.  The invariant `Settling` ties the guard's deadline to
the log (`Settling.accepted`) and the manager's belief to the guard (`Settling.requested`).
-/

namespace EinkLab.SleepImageManager.PowerOff

open Transition PowerOffGuard

variable {aura : Bool} {now : Int} {s s' : PowerOff} {log evs : List Event}

/-! ### The settling time in the log -/

def Event.IsPresented (t : Int) (e : Event) : Prop := e = .presented t

/-- The settling time of what was presented before is over. -/
def Event.Ends (e : Event) : Prop := e = .withdrawn ∨ e = .restarted ∨ ∃ t, e = .presented t

/-- The sleep image that was accepted last was accepted at `t`, and was not withdrawn. -/
def Accepted (t : Int) (log : List Event) : Prop := OpenAfter (Event.IsPresented t) Event.Ends log

/-- An event of the gate is right, given what was logged before. -/
structure Gated (before : List Event) (e : Event) : Prop where
  proceeds : ∀ now, e = .proceeds now → ∀ t, Accepted t before → t + SETTLE_MILLIS ≤ now
  delayed : ∀ now due, e = .delayed now due →
    ∃ t, Accepted t before ∧ t ≤ now ∧ now < t + SETTLE_MILLIS ∧ t + SETTLE_MILLIS ≤ due

/-- An event that has nothing to do with the guard. -/
def Event.IsAside (e : Event) : Prop :=
  (∃ event, e = .manager event) ∨ (∃ now, e = .proceeds now) ∨ (∃ now due, e = .delayed now due) ∨
    e = .retried

theorem Event.IsAside.neutral {e : Event} (h : e.IsAside) (t : Int) :
    ¬ Event.IsPresented t e ∧ ¬ e.Ends := by
  rcases h with ⟨event, rfl⟩ | ⟨now, rfl⟩ | ⟨now, due, rfl⟩ | rfl
  all_goals
    refine ⟨fun hpresented => (by cases hpresented), ?_⟩
    rintro (hends | hends | ⟨t', hends⟩)
    all_goals cases hends

theorem accepted_append_of_aside (h : ∀ e ∈ evs, e.IsAside) (t : Int) :
    Accepted t (log ++ evs) ↔ Accepted t log :=
  openAfter_append_of_neutral fun e he => (h e he).neutral t

theorem aside_manager (events : List SleepImageManager.Event) :
    ∀ e ∈ events.map Event.manager, e.IsAside := by
  intro e he
  obtain ⟨event, -, rfl⟩ := List.mem_map.mp he
  exact Or.inl ⟨event, rfl⟩

theorem accepted_append_presented (events : List SleepImageManager.Event) (t now : Int) :
    Accepted t (log ++ (events.map .manager ++ [.presented now])) ↔ t = now := by
  rw [← List.append_assoc]
  refine openAfter_append_singleton.trans ⟨?_, fun h => Or.inl (congrArg Event.presented h.symm)⟩
  rintro (hpresented | ⟨-, hends⟩)
  · exact (Event.presented.inj hpresented).symm
  · exact absurd (Or.inr (Or.inr ⟨now, rfl⟩)) hends

theorem not_accepted_append {e : Event} (he : e = .withdrawn ∨ e = .restarted)
    (events : List SleepImageManager.Event) (t : Int) :
    ¬ Accepted t (log ++ (events.map .manager ++ [e])) := by
  rw [← List.append_assoc]
  intro h
  rcases openAfter_append_singleton.mp h with hpresented | ⟨-, hends⟩
  · rcases he with rfl | rfl <;> cases hpresented
  · exact hends (he.imp_right Or.inl)

/-! ### The manager's belief -/

/-- A step of the manager service on its own leaves the presentation requested, but for a wake. -/
theorem requested_step {w w' : World} {a : SleepImageManager.Action}
    {events : List SleepImageManager.Event} (hs : w.step a = some (w', events))
    (hbegin : ∀ link, a ≠ .beginDefaultDisplayOff link)
    (hcancel : ∀ l l' copied pick, a ≠ .cancelDefaultDisplayOff l l' copied pick)
    (hrestart : a ≠ .restart) (h : w'.manager.sleepPresentationRequested = true) :
    w.manager.sleepPresentationRequested = true ∧ wakes w a = false := by
  -- the methods that only talk to the provider or the panel keep the request
  have hfinish : ∀ (u : World) (result : Result),
      (u.finishRefresh result).1.manager.sleepPresentationRequested =
        u.manager.sleepPresentationRequested := fun _ _ => rfl
  have hrequest : ∀ (u : World) (transacted : Bool),
      (u.requestRetainedCatalog transacted).1.manager.sleepPresentationRequested =
        u.manager.sleepPresentationRequested := by
    intro u transacted
    unfold World.requestRetainedCatalog
    dsimp only
    split_ifs <;> rfl
  have hpublish : ∀ (u : World) (copied : Bool) (pick : Nat) (link : Link),
      (u.publishRetained copied pick link).1.manager.sleepPresentationRequested =
        u.manager.sleepPresentationRequested := by
    intro u copied pick link
    unfold World.publishRetained World.sendCatalog
    dsimp only
    split_ifs <;> rfl
  have hinstall : ∀ (u : World) (candidates : List Candidate) (copied : Bool) (pick : Nat)
      (link : Link),
      (u.installCatalog candidates copied pick link).1.manager.sleepPresentationRequested =
        u.manager.sleepPresentationRequested := by
    intro u candidates copied pick link
    unfold World.installCatalog
    dsimp only
    split_ifs
    · rfl
    · rw [hpublish]
  -- what holds after the step holds of what the method returns
  have hhandler : ∀ r : World × List SleepImageManager.Event, w.onHandler r = some (w', events) →
      r.1.manager.sleepPresentationRequested = true := by
    intro r hr
    unfold World.onHandler at hr
    split_ifs at hr
    rw [Option.some.inj hr]
    exact h
  have hsome : ∀ r : World × List SleepImageManager.Event, some r = some (w', events) →
      r.1.manager.sleepPresentationRequested = true := by
    intro r hr
    rw [Option.some.inj hr]
    exact h
  cases a with
  | beginDefaultDisplayOff link => exact absurd rfl (hbegin link)
  | cancelDefaultDisplayOff l l' copied pick => exact absurd rfl (hcancel l l' copied pick)
  | restart => exact absurd rfl hrestart
  | userUnlocked => exact ⟨hhandler _ hs, rfl⟩
  | serviceConnected uidResolved transacted =>
    have hafter := hhandler _ hs
    unfold World.serviceConnected at hafter
    rw [hrequest] at hafter
    exact ⟨hafter, rfl⟩
  | serviceDisconnected => exact ⟨hhandler _ hs, rfl⟩
  | wakeRequest transacted =>
    simp only [World.step] at hs
    split_ifs at hs
    have hafter := hsome _ hs
    rw [hrequest] at hafter
    exact ⟨hafter, rfl⟩
  | refreshSleepImageMode setting transacted =>
    have hafter := hsome _ hs
    refine ⟨?_, rfl⟩
    unfold World.refreshSleepImageMode at hafter
    dsimp only at hafter
    split_ifs at hafter
    · exact hafter
    · rw [hrequest] at hafter
      exact hafter
    · exact hafter
  | refreshCatalog storeGeneration transacted =>
    have hafter := hsome _ hs
    refine ⟨?_, rfl⟩
    unfold World.refreshCatalog at hafter
    dsimp only at hafter
    split_ifs at hafter
    · exact hafter
    · exact hafter
    · rw [hrequest] at hafter
      exact hafter
  | requestTimeout generation transacted =>
    simp only [World.step] at hs
    split_ifs at hs
    have hafter := hhandler _ hs
    refine ⟨?_, rfl⟩
    unfold World.handleRequestTimeout at hafter
    dsimp only at hafter
    split_ifs at hafter
    · exact hafter
    · rw [hfinish, hrequest] at hafter
      exact hafter
    · rw [hrequest] at hafter
      exact hafter
    · exact hafter
    · exact hafter
  | providerCallback generation storeGeneration result candidates copied pick link =>
    simp only [World.step] at hs
    split_ifs at hs
    have hafter := hhandler _ hs
    refine ⟨?_, rfl⟩
    unfold World.handleProviderCallback at hafter
    dsimp only at hafter
    split_ifs at hafter
    · exact hafter
    · exact hafter
    · exact hafter
    · rw [hfinish, hinstall] at hafter
      exact hafter
    · rw [hinstall] at hafter
      exact hafter
    · exact hafter
  | invalidCallback generation =>
    have hafter := hhandler _ hs
    refine ⟨?_, rfl⟩
    unfold World.handleInvalidCallback at hafter
    split_ifs at hafter <;> exact hafter
  | maybeStartM3 => exact ⟨hsome _ hs, rfl⟩
  | evaluate frame selector => exact ⟨hsome _ hs, rfl⟩
  | observeDefaultDisplayState state link =>
    have hafter := hhandler _ hs
    unfold World.observeDefaultDisplayState at hafter
    dsimp only at hafter
    split_ifs at hafter with hsame hfirst hoff hon
    · -- the same state again: no edge
      refine ⟨hafter, ?_⟩
      simp only [wakes, Bool.and_eq_false_iff, decide_eq_false_iff_not, not_not]
      by_cases hprevious : w.manager.defaultDisplayState = STATE_OFF
      · exact Or.inl (Or.inr (hsame ▸ hprevious))
      · exact Or.inl (Or.inl hprevious)
    · -- the first report after a start
      refine ⟨hafter, ?_⟩
      simp [wakes, hfirst, DISPLAY_STATE_UNINITIALIZED, STATE_OFF]
    · -- the edge to off
      exact ⟨hafter, by simp [wakes, hoff.1]⟩
    · -- the edge to on, where nothing stays requested unless the screen was not off
      unfold World.handleScreenOn at hafter
      dsimp only at hafter
      split_ifs at hafter with hawake
      · exact ⟨hafter, by simpa [wakes] using fun _ _ => hawake⟩
      · cases hafter
    · -- any other change
      refine ⟨hafter, ?_⟩
      simp only [wakes, Bool.and_eq_false_iff, decide_eq_false_iff_not, not_not]
      by_cases hprevious : w.manager.defaultDisplayState = STATE_OFF
      · exact Or.inl (Or.inr (by_contra fun hne => hon ⟨hprevious, hne⟩))
      · exact Or.inl (Or.inl hprevious)

/-! ### The invariant -/

theorem not_running : ¬ 0 ≤ ({} : PowerOffGuard).deadline := by decide

/-- What is true after every run. -/
structure Settling (aura : Bool) (log : List Event) (s : PowerOff) : Prop where
  clock : 0 ≤ s.clock
  accepted : ∀ t, Accepted t log ↔ 0 ≤ s.guard.deadline ∧ s.guard.deadline = t + SETTLE_MILLIS
  late : s.guard.deadline ≤ s.clock + SETTLE_MILLIS
  requested : aura = true → s.world.manager.sleepPresentationRequested = true → 0 ≤ s.guard.deadline
  idle : s.pending = false → s.retries = []
  single : s.retries.length ≤ 1
  gated : EachEvent Gated log

theorem gated_aside (before : List Event) {e : Event}
    (h : (∃ event, e = .manager event) ∨ e = .retried ∨ e.Ends) : Gated before e := by
  constructor
  · rintro now rfl
    rcases h with ⟨event, h⟩ | h | h | h | ⟨t, h⟩ <;> cases h
  · rintro now due rfl
    rcases h with ⟨event, h⟩ | h | h | h | ⟨t, h⟩ <;> cases h

/-- Events of the manager, perhaps with one that ends a settling time. -/
theorem gated_append (h : EachEvent Gated log) (events : List SleepImageManager.Event)
    {ends : List Event} (hends : ∀ e ∈ ends, e.Ends) :
    EachEvent Gated (log ++ (events.map .manager ++ ends)) := by
  refine eachEvent_append_of_forall h fun before e he => gated_aside before ?_
  rcases List.mem_append.mp he with he | he
  · obtain ⟨event, -, rfl⟩ := List.mem_map.mp he
    exact Or.inl ⟨event, rfl⟩
  · exact Or.inr (Or.inr (hends e he))

/-- A step of the manager that leaves the guard alone. -/
theorem Settling.aside (h : Settling aura log s) {w : World}
    (hw : w.manager.sleepPresentationRequested = true →
      s.world.manager.sleepPresentationRequested = true ∨ aura = false)
    (events : List SleepImageManager.Event) :
    Settling aura (log ++ events.map .manager) { s with world := w } := by
  refine ⟨h.clock, fun t => ?_, h.late, fun haura hrequested => ?_, h.idle, h.single, ?_⟩
  · exact (accepted_append_of_aside (aside_manager events) t).trans (h.accepted t)
  · rcases hw hrequested with hbefore | hother
    · exact h.requested haura hbefore
    · rw [haura] at hother
      cases hother
  · have hgated := gated_append h.gated events (fun e he => absurd he List.not_mem_nil)
    rwa [List.append_nil] at hgated

/-- The guard is cancelled. -/
theorem Settling.withdraw (h : Settling aura log s) {w : World}
    (hw : w.manager.sleepPresentationRequested = false) (events : List SleepImageManager.Event) :
    Settling aura (log ++ (events.map .manager ++ [.withdrawn]))
      { s with world := w, guard := {} } := by
  have hclock := h.clock
  refine ⟨h.clock, fun t => ?_, ?_, fun _ hrequested => ?_, h.idle, h.single, ?_⟩
  · refine iff_of_false (not_accepted_append (Or.inl rfl) events t) ?_
    rintro ⟨hrunning, -⟩
    exact absurd hrunning not_running
  · show (-1 : Int) ≤ s.clock + 2000
    omega
  · rw [hw] at hrequested
    cases hrequested
  · refine gated_append h.gated events fun e he => ?_
    rw [List.mem_singleton.mp he]
    exact Or.inl rfl

theorem Settling.cancel (h : Settling aura log s) (c : Cancel) :
    Settling aura (log ++ (s.cancelDefaultDisplayOff c).2) (s.cancelDefaultDisplayOff c).1 := by
  unfold PowerOff.cancelDefaultDisplayOff
  dsimp only
  cases hoff : s.world.manager.screenOff with
  | false =>
    have hsame : s.world.cancelScreenOff c.epochLink c.catalogLink c.copied c.pick =
      (s.world, []) := by
      unfold World.cancelScreenOff
      rw [if_pos (by simp [hoff])]
    rw [hsame]
    exact h.aside (fun hrequested => Or.inl hrequested) []
  | true =>
    rw [if_pos rfl]
    refine h.withdraw ?_ _
    unfold World.cancelScreenOff World.publishRetained World.sendCatalog
    rw [if_neg (by simp [hoff])]
    dsimp only
    split_ifs <;> rfl

theorem Settling.begin (h : Settling aura log s) {link : Link} (hnow : s.clock = now)
    (hstep : s.beginDefaultDisplayOff aura now link = some (s', evs)) :
    Settling aura (log ++ evs) s' := by
  unfold PowerOff.beginDefaultDisplayOff at hstep
  dsimp only at hstep
  split_ifs at hstep with hstarts
  · obtain ⟨guard, hguard, heq⟩ := Option.map_eq_some_iff.mp hstep
    obtain ⟨rfl, rfl⟩ := Prod.mk.inj heq
    have hdeadline : guard.deadline = now + SETTLE_MILLIS ∧ 0 ≤ now := by
      unfold PowerOffGuard.start at hguard
      split_ifs at hguard with hrange
      rw [← Option.some.inj hguard]
      exact ⟨rfl, by omega⟩
    have hsettle : (0 : Int) ≤ SETTLE_MILLIS := by decide
    refine ⟨h.clock, fun t => ?_, ?_, fun _ _ => ?_, h.idle, h.single, ?_⟩
    · rw [accepted_append_presented, hdeadline.1]
      omega
    · show guard.deadline ≤ s.clock + SETTLE_MILLIS
      omega
    · show 0 ≤ guard.deadline
      omega
    · refine gated_append h.gated _ fun e he => ?_
      rw [List.mem_singleton.mp he]
      exact Or.inr (Or.inr ⟨now, rfl⟩)
  · obtain ⟨rfl, rfl⟩ := Prod.mk.inj (Option.some.inj hstep)
    refine h.aside (fun hrequested => ?_) _
    cases hoff : s.world.manager.screenOff with
    | true =>
      have hsame : s.world.beginScreenOff link = (s.world, []) := by
        unfold World.beginScreenOff
        rw [if_pos hoff]
      rw [hsame] at hrequested
      exact Or.inl hrequested
    | false =>
      -- otherwise the guard would have been started
      cases haura : aura with
      | false => exact Or.inr rfl
      | true => exact absurd (by simp [hoff, hrequested, haura]) hstarts

/-- The gate: it is closed exactly as long as a settling time runs. -/
theorem Settling.gate (h : Settling aura log s) (hnow : s.clock = now) {posted : Int}
    (hposted : now ≤ posted) : Settling aura (log ++ (s.gate now posted).2)
    (s.gate now posted).1 := by
  have hlate := h.late
  have haccepted := h.accepted
  unfold PowerOff.gate PowerOffGuard.remaining
  dsimp only
  split_ifs with hopen hdelay hdelay
  · -- no settling time: the delay is zero
    cases hdelay
  · refine ⟨h.clock, fun t => ?_, h.late, h.requested, fun _ => rfl, Nat.zero_le _, ?_⟩
    · refine (accepted_append_of_aside (fun e he => ?_) t).trans (haccepted t)
      exact Or.inr (Or.inl ⟨now, List.mem_singleton.mp he⟩)
    · refine eachEvent_append_singleton.mpr ⟨h.gated, fun now' heq t ht => ?_,
        fun now' due heq => ?_⟩
      · have hrunning := ((haccepted t).mp ht).1
        omega
      · cases heq
  · -- the deadline is ahead, and not by more than the settling time
    have hdue : max 0 (min SETTLE_MILLIS (s.guard.deadline - now)) = s.guard.deadline - now := by
      omega
    refine ⟨h.clock, fun t => ?_, h.late, h.requested, fun hpending => (by cases hpending),
      Nat.le_refl 1, ?_⟩
    · refine (accepted_append_of_aside (fun e he => ?_) t).trans (haccepted t)
      exact Or.inr (Or.inr (Or.inl ⟨now, _, List.mem_singleton.mp he⟩))
    · refine eachEvent_append_singleton.mpr ⟨h.gated, fun now' heq => ?_, fun now' due heq => ?_⟩
      · cases heq
      · obtain ⟨rfl, rfl⟩ := Event.delayed.inj heq
        refine ⟨s.guard.deadline - SETTLE_MILLIS, (haccepted _).mpr ⟨by omega, by omega⟩,
          ?_, ?_, ?_⟩
        · omega
        · omega
        · omega
  · have hover : s.guard.deadline ≤ now := by
      have hsettle : (0 : Int) < SETTLE_MILLIS := by decide
      omega
    refine ⟨h.clock, fun t => ?_, h.late, h.requested, fun _ => rfl, Nat.zero_le _, ?_⟩
    · refine (accepted_append_of_aside (fun e he => ?_) t).trans (haccepted t)
      exact Or.inr (Or.inl ⟨now, List.mem_singleton.mp he⟩)
    · refine eachEvent_append_singleton.mpr ⟨h.gated, fun now' heq t ht => ?_,
        fun now' due heq => ?_⟩
      · obtain rfl := Event.proceeds.inj heq
        have hdeadline := ((haccepted t).mp ht).2
        omega
      · cases heq

theorem Settling.managerStep (h : Settling aura log s) {a : SleepImageManager.Action}
    (hstep : s.managerStep a = some (s', evs)) : Settling aura (log ++ evs) s' := by
  by_cases hrestart : a = .restart
  · subst hrestart
    obtain ⟨rfl, rfl⟩ := Prod.mk.inj (Option.some.inj hstep)
    have hclock := h.clock
    refine ⟨h.clock, fun t => ?_, ?_, fun _ hrequested => (by cases hrequested), fun _ => rfl,
      Nat.zero_le _, ?_⟩
    · refine iff_of_false (not_accepted_append (Or.inr rfl) [] t) ?_
      rintro ⟨hrunning, -⟩
      exact absurd hrunning not_running
    · show (-1 : Int) ≤ s.clock + 2000
      omega
    · refine gated_append h.gated [] fun e he => ?_
      rw [List.mem_singleton.mp he]
      exact Or.inr (Or.inl rfl)
  · have hother : (∀ link, a ≠ .beginDefaultDisplayOff link) ∧
        (∀ l l' copied pick, a ≠ .cancelDefaultDisplayOff l l' copied pick) := by
      constructor
      · rintro link rfl
        cases hstep
      · rintro l l' copied pick rfl
        cases hstep
    have hmap : s.managerStep a = (s.world.step a).map fun r =>
        if wakes s.world a then
          ({ s with world := r.1, guard := {} }, r.2.map .manager ++ [.withdrawn])
        else ({ s with world := r.1 }, r.2.map .manager) := by
      unfold PowerOff.managerStep
      split
      · next link => exact absurd rfl (hother.1 link)
      · next l l' copied pick => exact absurd rfl (hother.2 l l' copied pick)
      · exact absurd rfl hrestart
      · rfl
    rw [hmap] at hstep
    obtain ⟨⟨w, events⟩, hworld, heq⟩ := Option.map_eq_some_iff.mp hstep
    have hrequested := requested_step hworld hother.1 hother.2 hrestart
    dsimp only at heq
    split_ifs at heq with hwakes
    · obtain ⟨rfl, rfl⟩ := Prod.mk.inj heq
      refine h.withdraw ?_ events
      cases hw : w.manager.sleepPresentationRequested with
      | false => rfl
      | true => exact absurd hwakes (by simp [(hrequested hw).2])
    · obtain ⟨rfl, rfl⟩ := Prod.mk.inj heq
      exact h.aside (fun hw => Or.inl (hrequested hw).1) events

theorem Settling.step (h : Settling aura log s) {a : Int × Call}
    (hstep : PowerOff.step aura s a = some (s', evs)) : Settling aura (log ++ evs) s' := by
  obtain ⟨now, call⟩ := a
  unfold PowerOff.step at hstep
  split_ifs at hstep with hclock
  -- only the clock has moved
  have hlater : Settling aura log { s with clock := now } := by
    have hstart := h.clock
    have hlate := h.late
    dsimp only at hclock
    refine ⟨?_, h.accepted, ?_, h.requested, h.idle, h.single, h.gated⟩
    · show 0 ≤ now
      omega
    · show s.guard.deadline ≤ now + SETTLE_MILLIS
      omega
  cases call with
  | manager action => exact hlater.managerStep hstep
  | turningOff link => exact hlater.begin rfl hstep
  | gate posted =>
    simp only [PowerOff.call] at hstep
    split_ifs at hstep with hposted
    have hgate := hlater.gate rfl hposted
    rwa [Option.some.inj hstep] at hgate
  | changedMind c =>
    have hcancel := hlater.cancel c
    rwa [Option.some.inj hstep] at hcancel
  | animate target c =>
    simp only [PowerOff.call, PowerOff.animate] at hstep
    split_ifs at hstep with hwake
    · -- the pending off and its retry go first
      have hnone : Settling aura log
          { s with clock := now, pending := false, retries := [] } :=
        ⟨hlater.clock, hlater.accepted, hlater.late, hlater.requested, fun _ => rfl, Nat.zero_le _,
          hlater.gated⟩
      have hcancel := hnone.cancel c
      rwa [Option.some.inj hstep] at hcancel
    · obtain ⟨rfl, rfl⟩ := Prod.mk.inj (Option.some.inj hstep)
      rw [List.append_nil]
      exact hlater
  | retry due =>
    simp only [PowerOff.call] at hstep
    split_ifs at hstep with hdue
    obtain ⟨rfl, rfl⟩ := Prod.mk.inj (Option.some.inj hstep)
    refine ⟨hlater.clock, fun t => ?_, hlater.late, hlater.requested, fun hpending => ?_, ?_, ?_⟩
    · refine (accepted_append_of_aside (fun e he => ?_) t).trans (hlater.accepted t)
      exact Or.inr (Or.inr (Or.inr (List.mem_singleton.mp he)))
    · have hnone := h.idle hpending
      rw [hnone] at hdue
      exact absurd hdue.1 List.not_mem_nil
    · exact Nat.le_trans List.length_erase_le h.single
    · refine eachEvent_append_singleton.mpr ⟨h.gated, gated_aside log (Or.inr (Or.inl rfl))⟩

theorem settling_init (aura : Bool) : Settling aura [] {} := by
  refine ⟨by decide, fun t => iff_of_false (not_openAfter_nil _ _) ?_, by decide,
    fun _ h => (by cases h), fun _ => rfl, Nat.zero_le _, eachEvent_nil _⟩
  rintro ⟨hrunning, -⟩
  exact absurd hrunning not_running

/-- The display goes off only after the settling time of the last sleep image that was accepted and
not withdrawn, is kept from it by nothing else, and no retry outlives a pending off; on Aura a
presentation that the manager counts on has its settling time on record. -/
theorem power_off_waits {as : List (Int × Call)}
    (hrun : (system aura).Run System.anyAction {} as log s) :
    EachEvent Gated log ∧ (s.pending = false → s.retries = []) ∧ s.retries.length ≤ 1 ∧
      (aura = true → s.world.manager.sleepPresentationRequested = true → ∃ t, Accepted t log) := by
  have h : Settling aura log s :=
    hrun.induct (fun _ log s => Settling aura log s) (settling_init aura)
      fun _ _ _ _ _ _ h _ hstep => h.step hstep
  refine ⟨h.gated, h.idle, h.single, fun haura hrequested => ?_⟩
  have hrunning := h.requested haura hrequested
  exact ⟨s.guard.deadline - SETTLE_MILLIS, (h.accepted _).mpr ⟨hrunning, by omega⟩⟩

/-- A sleep image is accepted, the gate is closed and asked again by its retry. -/
def sleepOff : List (Int × Call) :=
  bootedActions.map (fun a => (1000, .manager a)) ++
    [(5000, .turningOff {}), (5000, .gate 5001), (7001, .retry 7001), (7002, .gate 7002)]

theorem power_off_waits_sleepOff :
    ∃ log s, (system true).Run System.anyAction {} sleepOff log s ∧ .presented 5000 ∈ log ∧
      .delayed 5000 7001 ∈ log ∧ .proceeds 7002 ∈ log ∧ EachEvent Gated log := by
  have hexec : ((system true).exec System.anyAction {} sleepOff).any (fun r =>
      decide (.presented 5000 ∈ r.2 ∧ .delayed 5000 7001 ∈ r.2 ∧ .proceeds 7002 ∈ r.2)) = true := by
    decide +kernel
  obtain ⟨⟨s, log⟩, hlog, hevents⟩ := (Option.any_eq_true _ _).mp hexec
  obtain ⟨hpresented, hdelayed, hproceeds⟩ := of_decide_eq_true hevents
  have hrun := System.Run.of_exec hlog
  exact ⟨log, s, hrun, hpresented, hdelayed, hproceeds, (power_off_waits hrun).1⟩

end EinkLab.SleepImageManager.PowerOff
