import EinkLab.SleepImageManager.Basic

/-!
# The epoch protocol

What the manager and the native side agree on, without provider requests, catalogs and timeouts:
the manager's epoch, whether it believes a presentation is on the panel, whether the screen is off,
and the native side.  The protocol is the purpose of the two components: a presentation takes a
fresh epoch, its `SCREEN_ON` names that epoch, and publications happen while the screen is on.

`Equiv/Protocol.lean` shows that every run of `World` is a run of this protocol with the same log.
-/

namespace EinkLab.SleepImageManager

open Transition

namespace Protocol

structure View where
  epoch : Nat := 0
  /-- `mSleepPresentationRequested` -/
  requested : Bool := false
  screenOff : Bool := false
  native : Native := {}
  deriving DecidableEq, Repr

inductive Action
  /-- Anything about provider requests and refreshes. -/
  | other (e : Event)
  | reconcile
  | screenOff (retained : Bool) (link : Link)
  | screenOffKeepLast (link : Link)
  | screenOn (cause : Cause) (link : Link)
  | publish (link : Link)
  | maybeStartM3
  | evaluate (frame : ConvertedFrame OwnedGrayscaleBuffer)
      (selector : Option (Selector OwnedGrayscaleBuffer))
  | restart

end Protocol

/-- The event is about provider requests and refreshes. -/
def Event.isOther : Event → Bool
  | .requested _ | .accepted _ | .notified _ _ => true
  | _ => false

namespace Protocol.View

/-- A `SCREEN_OFF`: the presentation is requested if the manager learns that it was accepted. -/
def sendScreenOff (v : View) (retained : Bool) (link : Link) : View × List Event :=
  let v := { v with screenOff := true }
  if link.delivered then
    let (result, native) := v.native.presentSleepImage v.epoch link.conditions
    ({ v with requested := link.replied && result = .accepted, native := native },
      [.screenOff v.epoch retained v.native.latch (some result)])
  else ({ v with requested := false }, [.screenOff v.epoch retained v.native.latch none])

/-- A `SCREEN_ON`, which leaves nothing requested. -/
def sendScreenOn (v : View) (cause : Cause) (screenOff : Bool) (link : Link) : View × List Event :=
  let v := { v with requested := false, screenOff := screenOff }
  if link.delivered then
    let (result, native) := v.native.disarmSleepCycle v.epoch
    ({ v with native := native }, [.screenOn cause v.epoch (some result)])
  else (v, [.screenOn cause v.epoch none])

/-- A publication under a new epoch. -/
def sendCatalog (v : View) (link : Link) : View × List Event :=
  let v := { v with epoch := v.epoch + 1 }
  if link.delivered then
    let (accepted, native) := v.native.publishSleepImageCatalog v.epoch link.conditions
    ({ v with native := native }, [.published v.epoch link v.native.catalogEpoch accepted])
  else (v, [.published v.epoch link v.native.catalogEpoch false])

def step (v : View) : Action → Option (View × List Event)
  | .other e => if e.isOther then some (v, [e]) else none
  | .reconcile => some ({ v with screenOff := true }, [])
  | .screenOff retained link => if v.screenOff then none else some (v.sendScreenOff retained link)
  | .screenOffKeepLast link =>
    if v.screenOff then none else some (v.sendScreenOn .keepLast true link)
  | .screenOn cause link =>
    if v.screenOff && cause ≠ .keepLast then
      if v.requested then some (v.sendScreenOn cause false link)
      else some ({ v with screenOff := false }, [])
    else none
  | .publish link => if v.screenOff then none else some (v.sendCatalog link)
  | .maybeStartM3 => some ({ v with native := v.native.maybeStartM3 }, [])
  | .evaluate frame selector => some ({ v with native := v.native.evaluate frame selector }, [])
  | .restart => some ({ native := v.native }, [.restarted v.native.latch.activeEpoch])

end Protocol.View

def protocol : System Protocol.View Protocol.Action Event where
  step := Protocol.View.step

/-! ### Which runs -/

/-- The calls to the native side an action makes. -/
def Action.links : Action → List Link
  | .observeDefaultDisplayState _ link | .beginDefaultDisplayOff link
  | .providerCallback _ _ _ _ _ _ link => [link]
  | .cancelDefaultDisplayOff epochLink catalogLink _ _ => [epochLink, catalogLink]
  | _ => []

def Protocol.Action.links : Protocol.Action → List Link
  | .screenOff _ link | .screenOffKeepLast link | .screenOn _ link | .publish link => [link]
  | _ => []

def Action.isRestart : Action → Bool
  | .restart => true
  | _ => false

def Protocol.Action.isRestart : Protocol.Action → Bool
  | .restart => true
  | _ => false

/-- The framework does not restart. -/
def NoRestart {σ : Type} (_ : σ) (a : Action) : Prop := a.isRestart = false

/-- Neither side restarts, and each call is executed and its result returned. -/
def ReliableTransport {σ : Type} (_ : σ) (a : Action) : Prop :=
  a.isRestart = false ∧ ∀ link ∈ a.links, link.Reliable

instance {σ : Type} (s : σ) (a : Action) : Decidable (NoRestart s a) :=
  inferInstanceAs (Decidable (_ = _))

instance {σ : Type} (s : σ) (a : Action) : Decidable (ReliableTransport s a) :=
  inferInstanceAs (Decidable (_ ∧ _))

/-! ### What the native side can do -/

namespace Native

variable (n : Native) (epoch : Nat) (conditions : NativeConditions)

/-- A presentation is accepted, or only its epoch is used, or nothing happens. -/
inductive Presents (n : Native) (epoch : Nat) : SleepImagePresentationResult → Native → Prop
  | accepted (n' : Native) (hepoch : epoch ≠ 0) (hfresh : n.latch.lastArmedEpoch < epoch)
      (hidle : n.latch.activeEpoch = 0) (hactive : n'.latch.activeEpoch = epoch)
      (hlast : n'.latch.lastArmedEpoch = epoch) (hcatalog : n'.catalogEpoch = n.catalogEpoch) :
      Presents n epoch .accepted n'
  | withdrawn (n' : Native) (hepoch : epoch ≠ 0) (hfresh : n.latch.lastArmedEpoch < epoch)
      (hidle : n.latch.activeEpoch = 0) (hactive : n'.latch.activeEpoch = 0)
      (hlast : n'.latch.lastArmedEpoch = epoch) (hcatalog : n'.catalogEpoch = n.catalogEpoch) :
      Presents n epoch .rejectedEnqueue n'
  | rejected (result : SleepImagePresentationResult) (n' : Native) (haccepted : result ≠ .accepted)
      (henqueue : result ≠ .rejectedEnqueue) (hlatch : n'.latch = n.latch)
      (hcatalog : n'.catalogEpoch = n.catalogEpoch) : Presents n epoch result n'

theorem presentSleepImage_cases :
    Presents n epoch (n.presentSleepImage epoch conditions).1
      (n.presentSleepImage epoch conditions).2 := by
  unfold presentSleepImage
  split_ifs with hzero hcatalog
  · exact .rejected _ _ (by simp) (by simp) rfl rfl
  · exact .rejected _ _ (by simp) (by simp) rfl rfl
  cases hpipeline : n.pipeline with
  | none => exact .rejected _ _ (by simp) (by simp) rfl rfl
  | some p =>
    have hlatch : n.latch = p.latch := by simp [latch, hpipeline]
    dsimp only
    unfold NativePipeline.presentSleepImage
    rw [if_neg hzero]
    by_cases havailable : (!conditions.available) = true
    · rw [if_pos havailable]
      exact .rejected _ _ (by simp) (by simp) hlatch.symm rfl
    rw [if_neg havailable]
    by_cases hmissing : (!p.hasCatalog || decide (epoch ≠ p.catalogEpoch)) = true
    · rw [if_pos hmissing]
      exact .rejected _ _ (by simp) (by simp) hlatch.symm rfl
    rw [if_neg hmissing]
    cases conditions.uncomposed with
    | some failure =>
      exact .rejected _ _ (by cases failure <;> simp [CompositionFailure.result])
        (by cases failure <;> simp [CompositionFailure.result]) hlatch.symm rfl
    | none =>
      dsimp only
      rcases p.latch.armSleepCycle_cases epoch with ⟨hlt, hidle, harm⟩ | ⟨hrefused, hsame⟩
      · rw [harm]
        have hbegin : SleepImageLatch.beginPresentation
            { p.latch with lastArmedEpoch := epoch, activeEpoch := epoch, state := .armed } epoch =
            (.accepted, { p.latch with
              lastArmedEpoch := epoch, activeEpoch := epoch, state := .consumed }) := by
          simp [SleepImageLatch.beginPresentation, hzero]
        simp only [ne_eq, not_true_eq_false, if_false, hbegin]
        split_ifs
        · refine .withdrawn _ hzero (hlatch ▸ hlt) (hlatch ▸ hidle) ?_ ?_ rfl
          · simp [latch, SleepImageLatch.disarmSleepCycle, hzero]
          · simp [latch, SleepImageLatch.disarmSleepCycle, hzero]
        · exact .accepted _ hzero (hlatch ▸ hlt) (hlatch ▸ hidle) rfl rfl rfl
      · rw [if_pos hrefused, hsame]
        refine .rejected _ _ ?_ ?_ hlatch.symm rfl
        · generalize (p.latch.armSleepCycle epoch).1 = result at hrefused ⊢
          cases result <;> simp_all [NativePipeline.rejectedArm]
        · generalize (p.latch.armSleepCycle epoch).1 = result at hrefused ⊢
          cases result <;> simp_all [NativePipeline.rejectedArm]

/-- A disarm ends the active cycle of that epoch, and no other. -/
theorem disarmSleepCycle_cases :
    (epoch ≠ 0 ∧ n.latch.activeEpoch = epoch ∧ (n.disarmSleepCycle epoch).1 = .accepted ∧
        (n.disarmSleepCycle epoch).2.latch =
          { n.latch with activeEpoch := 0, state := .inactive }) ∨
      ((epoch = 0 ∨ n.latch.activeEpoch ≠ epoch) ∧ (n.disarmSleepCycle epoch).1 ≠ .accepted ∧
        (n.disarmSleepCycle epoch).2.latch = n.latch) := by
  unfold disarmSleepCycle
  split_ifs with hzero
  · right
    exact ⟨Or.inl hzero, by simp, rfl⟩
  cases hpipeline : n.pipeline with
  | none =>
    right
    refine ⟨Or.inr ?_, by simp, rfl⟩
    have hnone : n.latch.activeEpoch = 0 := by simp [latch, hpipeline]
    omega
  | some p =>
    have hlatch : n.latch = p.latch := by simp [latch, hpipeline]
    rw [hlatch]
    dsimp only [NativePipeline.disarmSleepCycle]
    rcases p.latch.disarmSleepCycle_cases epoch with ⟨-, hactive, heq⟩ | ⟨hrefused, hsame⟩
    · left
      rw [heq]
      exact ⟨hzero, hactive, rfl, rfl⟩
    · right
      refine ⟨Or.inr fun hactive => hrefused ?_, hrefused, hsame⟩
      subst hactive
      simp [SleepImageLatch.disarmSleepCycle, hzero]

@[simp] theorem disarmSleepCycle_catalogEpoch :
    (n.disarmSleepCycle epoch).2.catalogEpoch = n.catalogEpoch := by
  unfold disarmSleepCycle
  split_ifs
  · rfl
  · split <;> rfl

@[simp] theorem publishSleepImageCatalog_latch :
    (n.publishSleepImageCatalog epoch conditions).2.latch = n.latch := by
  unfold publishSleepImageCatalog
  split_ifs
  · rfl
  · rfl
  · rfl
  · cases hpipeline : n.pipeline with
    | none => simp [latch, hpipeline]
    | some p =>
      dsimp only
      unfold NativePipeline.publishSleepImageCatalog
      split_ifs <;> simp [latch, hpipeline]

@[simp] theorem maybeStartM3_latch : n.maybeStartM3.latch = n.latch := by
  unfold maybeStartM3
  cases hpipeline : n.pipeline with
  | some p => simp
  | none =>
    dsimp only
    cases n.pendingCatalog with
    | none => simp [latch, hpipeline]
    | some pending =>
      simp only [latch, hpipeline, NativePipeline.publishSleepImageCatalog]
      split_ifs <;> rfl

theorem evaluate_latch (frame : ConvertedFrame OwnedGrayscaleBuffer)
    (selector : Option (Selector OwnedGrayscaleBuffer)) :
    (n.evaluate frame selector).latch.activeEpoch = n.latch.activeEpoch ∧
      (n.evaluate frame selector).latch.lastArmedEpoch = n.latch.lastArmedEpoch := by
  unfold evaluate
  cases hpipeline : n.pipeline with
  | none => exact ⟨rfl, rfl⟩
  | some p =>
    obtain ⟨hactive, hlast⟩ := p.latch.evaluate_epochs frame selector
    simp only [latch, hpipeline]
    exact ⟨hactive, hlast⟩

end Native

end EinkLab.SleepImageManager
