import EinkLab.SleepImageManager.Protocol

/-!
# The manager refines the epoch protocol

`Run.protocol`: a run of the manager and the native side is a run of the epoch protocol with the
same log, that makes the same calls.  Each method is simulated by the protocol actions for its
calls (`Simulates`); whatever concerns provider requests and refreshes is one `other` action for
each event.
-/

namespace EinkLab.SleepImageManager

open Transition

/-- What the protocol sees of a world. -/
def World.view (w : World) : Protocol.View where
  epoch := w.manager.epoch
  requested := w.manager.sleepPresentationRequested
  screenOff := w.manager.screenOff
  native := w.native

/-! ### The screen flag -/

namespace World

variable (w : World)

@[simp] theorem sendScreenOff_screenOff (link : Link) :
    (w.sendScreenOff link).2.1.manager.screenOff = w.manager.screenOff := by
  unfold sendScreenOff
  dsimp only
  split_ifs <;> rfl

@[simp] theorem sendScreenOn_screenOff (cause : Cause) (link : Link) :
    (w.sendScreenOn cause link).1.manager.screenOff = w.manager.screenOff := by
  unfold sendScreenOn
  dsimp only
  split_ifs <;> rfl

@[simp] theorem publishRetained_screenOff (copied : Bool) (pick : Nat) (link : Link) :
    (w.publishRetained copied pick link).1.manager.screenOff = w.manager.screenOff := by
  unfold publishRetained sendCatalog
  dsimp only
  split_ifs <;> rfl

@[simp] theorem installCatalog_screenOff (candidates : List Candidate) (copied : Bool) (pick : Nat)
    (link : Link) :
    (w.installCatalog candidates copied pick link).1.manager.screenOff = w.manager.screenOff := by
  unfold installCatalog
  dsimp only
  split_ifs
  · rfl
  · simp

@[simp] theorem endPresentation_screenOff (cause : Cause) (link : Link) :
    (w.endPresentation cause link).1.manager.screenOff = false := rfl

theorem beginScreenOff_screenOff (link : Link) :
    (w.beginScreenOff link).1.manager.screenOff = true := by
  unfold beginScreenOff
  dsimp only
  split_ifs with hoff
  · exact hoff
  · simp
  · simp

theorem cancelScreenOff_screenOff (epochLink catalogLink : Link) (copied : Bool) (pick : Nat) :
    (w.cancelScreenOff epochLink catalogLink copied pick).1.manager.screenOff = false := by
  unfold cancelScreenOff
  dsimp only
  split_ifs with hon
  · simpa using hon
  · simp
  · simp

theorem observeDefaultDisplayState_screenOff {w : World} {state : Int} (link : Link)
    (hoff : w.manager.defaultDisplayState = STATE_OFF) (hon : state ≠ STATE_OFF) :
    (w.observeDefaultDisplayState state link).1.manager.screenOff = false := by
  unfold observeDefaultDisplayState handleScreenOn
  rw [hoff]
  dsimp only
  rw [if_neg (Ne.symm hon), if_neg (by decide), if_neg (fun h => h.1 rfl), if_pos ⟨rfl, hon⟩]
  split_ifs with hflag
  · -- the flag was down already
    simpa using hflag
  · rfl

end World

/-! ### Simulations -/

/-- The protocol action restarts only if `restarts`, and makes only the calls in `links`. -/
def Protocol.Allowed (links : List Link) (restarts : Bool) (_ : Protocol.View)
    (b : Protocol.Action) : Prop :=
  (b.isRestart = true → restarts = true) ∧ ∀ link ∈ b.links, link ∈ links

/-- A method's effect is a run of the protocol with the same events. -/
def Simulates (links : List Link) (restarts : Bool) (w : World) (r : World × List Event) : Prop :=
  ∃ bs, protocol.Run (Protocol.Allowed links restarts) w.view bs r.2 r.1.view

namespace Simulates

variable {links : List Link} {restarts : Bool} {w : World} {r r' : World × List Event}

theorem trans (h : Simulates links restarts w r) (h' : Simulates links restarts r.1 r') :
    Simulates links restarts w (r'.1, r.2 ++ r'.2) := by
  obtain ⟨bs, hbs⟩ := h
  obtain ⟨cs, hcs⟩ := h'
  exact ⟨bs ++ cs, hbs.trans hcs⟩

/-- One protocol action. -/
theorem single {b : Protocol.Action} (hb : Protocol.Allowed links restarts w.view b)
    (hs : w.view.step b = some (r.1.view, r.2)) : Simulates links restarts w r :=
  ⟨[b], System.Run.single hb hs⟩

/-- Events about requests and refreshes, with nothing else changed. -/
theorem quiet (hview : r.1.view = w.view) (hevents : ∀ e ∈ r.2, e.isOther = true) :
    Simulates links restarts w r := by
  obtain ⟨w', events⟩ := r
  have hrun : ∀ evs : List Event, (∀ e ∈ evs, e.isOther = true) →
      ∃ bs, protocol.Run (Protocol.Allowed links restarts) w.view bs evs w.view := by
    intro evs hevs
    induction evs using List.reverseRecOn with
    | nil => exact ⟨[], .nil⟩
    | append_singleton evs e ih =>
      obtain ⟨bs, hbs⟩ := ih fun x hx => hevs x (by simp [hx])
      have he := hevs e (by simp)
      refine ⟨bs ++ [.other e], hbs.trans (System.Run.single ⟨by simp [Protocol.Action.isRestart],
        by simp [Protocol.Action.links]⟩ ?_)⟩
      simp [protocol, Protocol.View.step, he]
  obtain ⟨bs, hbs⟩ := hrun events hevents
  refine ⟨bs, ?_⟩
  rw [show w'.view = w.view from hview]
  exact hbs

/-! ### Refreshes and requests -/

theorem finishRefresh (w : World) (result : Result) :
    Simulates links restarts w (w.finishRefresh result) := by
  refine quiet rfl ?_
  unfold World.finishRefresh
  dsimp only
  split
  · simp
  · simp [Event.isOther]

theorem requestRetainedCatalog (w : World) (transacted : Bool) :
    Simulates links restarts w (w.requestRetainedCatalog transacted) := by
  unfold World.requestRetainedCatalog
  dsimp only
  split_ifs
  · exact quiet rfl (by simp)
  · exact quiet rfl (by simp [Event.isOther])
  · refine quiet rfl ?_
    unfold World.finishRefresh
    dsimp only
    split
    · simp
    · simp [Event.isOther]

/-- A change of fields the protocol does not see. -/
theorem of_view_eq {u : World} (h : Simulates links restarts u r) (hview : u.view = w.view) :
    Simulates links restarts w r := by
  obtain ⟨bs, hbs⟩ := h
  exact ⟨bs, by rwa [← hview]⟩

/-! ### Calls -/

theorem sendCatalog {link : Link} (hlink : link ∈ links) (hon : w.manager.screenOff = false) :
    Simulates links restarts w (w.sendCatalog link) := by
  have hallowed : Protocol.Allowed links restarts w.view (.publish link) :=
    ⟨by simp [Protocol.Action.isRestart], by simpa [Protocol.Action.links] using hlink⟩
  refine single hallowed ?_
  simp only [Protocol.View.step, World.view, hon, Bool.false_eq_true, if_false,
    Protocol.View.sendCatalog, World.sendCatalog]
  split_ifs <;> rfl

theorem publishRetained {link : Link} (hlink : link ∈ links) (hon : w.manager.screenOff = false)
    (copied : Bool) (pick : Nat) :
    Simulates links restarts w (w.publishRetained copied pick link) := by
  unfold World.publishRetained
  split_ifs
  · exact sendCatalog hlink hon
  · exact quiet rfl (by simp)

theorem beginScreenOff {link : Link} (hlink : link ∈ links) :
    Simulates links restarts w (w.beginScreenOff link) := by
  unfold World.beginScreenOff
  by_cases hoff : w.manager.screenOff = true
  · rw [if_pos hoff]
    exact quiet rfl (by simp)
  rw [if_neg hoff]
  have hon : w.manager.screenOff = false := by simpa using hoff
  dsimp only
  split_ifs
  · have hallowed : Protocol.Allowed links restarts w.view
        (.screenOff (w.manager.retainedCatalog ≠ []) link) :=
      ⟨by simp [Protocol.Action.isRestart], by simpa [Protocol.Action.links] using hlink⟩
    refine single hallowed ?_
    simp only [Protocol.View.step, World.view, hon, Bool.false_eq_true, if_false,
      Protocol.View.sendScreenOff, World.sendScreenOff]
    split_ifs <;> rfl
  · have hallowed : Protocol.Allowed links restarts w.view (.screenOffKeepLast link) :=
      ⟨by simp [Protocol.Action.isRestart], by simpa [Protocol.Action.links] using hlink⟩
    refine single hallowed ?_
    simp only [Protocol.View.step, World.view, hon, Bool.false_eq_true, if_false,
      Protocol.View.sendScreenOn, World.sendScreenOn]
    split_ifs <;> rfl

theorem endPresentation {link : Link} (hlink : link ∈ links) (hoff : w.manager.screenOff = true)
    {cause : Cause} (hcause : cause ≠ .keepLast) :
    Simulates links restarts w (w.endPresentation cause link) := by
  have hallowed : Protocol.Allowed links restarts w.view (.screenOn cause link) :=
    ⟨by simp [Protocol.Action.isRestart], by simpa [Protocol.Action.links] using hlink⟩
  refine single hallowed ?_
  have henabled : (w.view.screenOff && decide (cause ≠ .keepLast)) = true := by
    simp [World.view, hoff, hcause]
  simp only [Protocol.View.step, henabled, if_true]
  unfold World.endPresentation
  cases hrequested : w.manager.sleepPresentationRequested with
  | true =>
    simp only [World.view, hrequested, if_true, Protocol.View.sendScreenOn, World.sendScreenOn]
    split_ifs <;> rfl
  | false =>
    simp only [World.view, hrequested, Bool.false_eq_true, if_false]

theorem cancelScreenOff {epochLink catalogLink : Link} (hepoch : epochLink ∈ links)
    (hcatalog : catalogLink ∈ links) (copied : Bool) (pick : Nat) :
    Simulates links restarts w (w.cancelScreenOff epochLink catalogLink copied pick) := by
  unfold World.cancelScreenOff
  by_cases hon : (!w.manager.screenOff) = true
  · rw [if_pos hon]
    exact quiet rfl (by simp)
  rw [if_neg hon]
  have hoff : w.manager.screenOff = true := by simpa using hon
  have hend : Simulates links restarts w (w.endPresentation .cancelled epochLink) :=
    endPresentation hepoch hoff (by simp)
  dsimp only
  split_ifs
  · exact hend.trans (publishRetained hcatalog (w.endPresentation_screenOff _ _) copied pick)
  · exact hend

theorem handleScreenOn {link : Link} (hlink : link ∈ links) :
    Simulates links restarts w (w.handleScreenOn link) := by
  unfold World.handleScreenOn
  by_cases hon : (!w.manager.screenOff) = true
  · rw [if_pos hon]
    exact quiet rfl (by simp)
  rw [if_neg hon]
  have hoff : w.manager.screenOff = true := by simpa using hon
  exact endPresentation hlink hoff (by simp)

theorem observeDefaultDisplayState {link : Link} (hlink : link ∈ links) (state : Int) :
    Simulates links restarts w (w.observeDefaultDisplayState state link) := by
  unfold World.observeDefaultDisplayState
  dsimp only
  split_ifs
  · exact quiet rfl (by simp)
  · exact quiet rfl (by simp)
  · exact single (b := .reconcile) ⟨by simp [Protocol.Action.isRestart],
      by simp [Protocol.Action.links]⟩ rfl
  · exact of_view_eq (handleScreenOn hlink) rfl
  · exact quiet rfl (by simp)

/-! ### The provider and the control service -/

theorem refreshSleepImageMode (mode : SleepImageMode) (transacted : Bool) :
    Simulates links restarts w (w.refreshSleepImageMode mode transacted) := by
  unfold World.refreshSleepImageMode
  dsimp only
  split_ifs
  · exact quiet rfl (by simp)
  · exact of_view_eq (requestRetainedCatalog _ _) rfl
  · exact quiet rfl (by simp)

theorem refreshCatalog (storeGeneration : Int) (transacted : Bool) :
    Simulates links restarts w (w.refreshCatalog storeGeneration transacted) := by
  unfold World.refreshCatalog
  dsimp only
  split_ifs
  · exact quiet rfl (by simp)
  · exact quiet rfl (by simp)
  · have hthen : ∀ u : World, u.view = (w.finishRefresh .unavailable).1.view → ∀ refresh,
        Simulates links restarts (w.finishRefresh .unavailable).1
          ((u.requestRetainedCatalog transacted).1,
            .accepted refresh :: (u.requestRetainedCatalog transacted).2) := by
      intro u hu refresh
      have haccepted : Simulates links restarts (w.finishRefresh .unavailable).1
          (u, [.accepted refresh]) := quiet hu (by simp [Event.isOther])
      exact haccepted.trans (requestRetainedCatalog u transacted)
    refine (finishRefresh w .unavailable).trans (hthen _ ?_ _)
    rfl

theorem handleRequestTimeout (generation : Nat) (transacted : Bool) :
    Simulates links restarts w (w.handleRequestTimeout generation transacted) := by
  unfold World.handleRequestTimeout
  dsimp only
  split_ifs
  · exact quiet rfl (by simp)
  · exact of_view_eq ((requestRetainedCatalog _ _).trans (finishRefresh _ _)) rfl
  · exact of_view_eq (requestRetainedCatalog _ _) rfl
  · exact of_view_eq (finishRefresh _ _) rfl
  · exact quiet rfl (by simp)

theorem handleInvalidCallback (generation : Nat) :
    Simulates links restarts w (w.handleInvalidCallback generation) := by
  unfold World.handleInvalidCallback
  split_ifs
  · exact of_view_eq (finishRefresh _ _) rfl
  · exact quiet rfl (by simp)

theorem installCatalog {link : Link} (hlink : link ∈ links) (hon : w.manager.screenOff = false)
    (candidates : List Candidate) (copied : Bool) (pick : Nat) :
    Simulates links restarts w (w.installCatalog candidates copied pick link) := by
  unfold World.installCatalog
  dsimp only
  split_ifs
  · exact quiet rfl (by simp)
  · exact of_view_eq (publishRetained hlink (by exact hon) copied pick) rfl

theorem handleProviderCallback {link : Link} (hlink : link ∈ links) (generation : Nat)
    (storeGeneration : Int) (result : Result) (candidates : List Candidate) (copied : Bool)
    (pick : Nat) :
    Simulates links restarts w (w.handleProviderCallback generation storeGeneration result
      candidates copied pick link) := by
  unfold World.handleProviderCallback
  dsimp only
  split_ifs with hstale hoff
  · exact quiet rfl (by simp)
  · exact of_view_eq (finishRefresh _ _) rfl
  · exact of_view_eq (finishRefresh _ _) rfl
  · have hon : w.manager.screenOff = false := by simpa using hoff
    exact of_view_eq ((installCatalog hlink (by exact hon) _ _ _).trans (finishRefresh _ _)) rfl
  · have hon : w.manager.screenOff = false := by simpa using hoff
    exact of_view_eq (installCatalog hlink (by exact hon) _ _ _) rfl
  · exact quiet rfl (by simp)

end Simulates

/-! ### Every step, every run -/

/-- A step of the manager and the native side is a run of the protocol. -/
theorem simulates_step {w u : World} {a : Action} {events : List Event}
    (hs : w.step a = some (u, events)) : Simulates a.links a.isRestart w (u, events) := by
  have hhandler : ∀ r : World × List Event, w.onHandler r = some (u, events) →
      Simulates a.links a.isRestart w r → Simulates a.links a.isRestart w (u, events) := by
    intro r hr h
    unfold World.onHandler at hr
    split_ifs at hr
    rwa [← Option.some.inj hr]
  have hsome : ∀ r : World × List Event, some r = some (u, events) →
      Simulates a.links a.isRestart w r → Simulates a.links a.isRestart w (u, events) := by
    intro r hr h
    rwa [← Option.some.inj hr]
  cases a with
  | userUnlocked => exact hhandler _ hs (.quiet rfl (by simp))
  | serviceConnected uidResolved transacted =>
    exact hhandler _ hs (.of_view_eq (.requestRetainedCatalog _ _) rfl)
  | serviceDisconnected => exact hhandler _ hs (.of_view_eq (.finishRefresh _ _) rfl)
  | observeDefaultDisplayState state link =>
    exact hhandler _ hs (.observeDefaultDisplayState (by simp [Action.links]) state)
  | wakeRequest transacted =>
    simp only [World.step] at hs
    split_ifs at hs
    exact hsome _ hs (.of_view_eq (.requestRetainedCatalog _ _) rfl)
  | beginDefaultDisplayOff link => exact hsome _ hs (.beginScreenOff (by simp [Action.links]))
  | cancelDefaultDisplayOff epochLink catalogLink copied pick =>
    exact hsome _ hs (.cancelScreenOff (by simp [Action.links])
      (by simp [Action.links]) copied pick)
  | refreshSleepImageMode setting transacted =>
    exact hsome _ hs (.refreshSleepImageMode _ transacted)
  | refreshCatalog storeGeneration transacted =>
    exact hsome _ hs (.refreshCatalog storeGeneration transacted)
  | requestTimeout generation transacted =>
    simp only [World.step] at hs
    split_ifs at hs
    exact hhandler _ hs (.handleRequestTimeout generation transacted)
  | providerCallback generation storeGeneration result candidates copied pick link =>
    simp only [World.step] at hs
    split_ifs at hs
    exact hhandler _ hs (.handleProviderCallback (by simp [Action.links]) ..)
  | invalidCallback generation => exact hhandler _ hs (.handleInvalidCallback generation)
  | maybeStartM3 =>
    refine hsome _ hs (.single (b := .maybeStartM3) ⟨by simp [Protocol.Action.isRestart],
      by simp [Protocol.Action.links]⟩ rfl)
  | evaluate frame selector =>
    refine hsome _ hs (.single (b := .evaluate frame selector)
      ⟨by simp [Protocol.Action.isRestart], by simp [Protocol.Action.links]⟩ rfl)
  | restart =>
    refine hsome _ hs (.single (b := .restart) ⟨fun _ => rfl, by simp [Protocol.Action.links]⟩ rfl)

/-- What the protocol's actions may be, for the runs of a given kind of world runs. -/
def Protocol.Only (p : Link → Prop) (restarts : Prop) (_ : Protocol.View) (b : Protocol.Action) :
    Prop :=
  (b.isRestart = true → restarts) ∧ ∀ link ∈ b.links, p link

/-- **Refinement**: a run of the manager and the native side is a run of the protocol with the same
log; it restarts only if the run does, and makes only calls the run makes. -/
theorem run_protocol {ok : World → Action → Prop} {as : List Action} {log : List Event} {t : World}
    (h : system.Run ok {} as log t) (p : Link → Prop) (restarts : Prop)
    (hrestarts : ∀ w a, ok w a → a.isRestart = true → restarts)
    (hlinks : ∀ w a, ok w a → ∀ link ∈ a.links, p link) :
    ∃ bs, protocol.Run (Protocol.Only p restarts) {} bs log t.view := by
  refine h.induct (fun _ log t => ∃ bs, protocol.Run (Protocol.Only p restarts) {} bs log t.view)
    ⟨[], .nil⟩ ?_
  rintro as log t a u evs ⟨bs, hbs⟩ hok hs
  obtain ⟨cs, hcs⟩ := simulates_step hs
  refine ⟨bs ++ cs, hbs.trans (hcs.mono fun v b hb => ⟨fun hr => ?_, fun link hl => ?_⟩)⟩
  · exact hrestarts t a hok (hb.1 hr)
  · exact hlinks t a hok link (hb.2 link hl)

end EinkLab.SleepImageManager
