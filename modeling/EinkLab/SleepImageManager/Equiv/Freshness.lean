import EinkLab.SleepImageManager.Equiv.Wake

/-!
# Fresh epochs, and what a restart leaves

The manager's epoch counts its publications; a presentation uses the current one.

* `screen_off_epoch_fresh_iff`: without restarts, a `SCREEN_OFF` carries a fresh epoch exactly when
  no presentation has used an epoch since the last publication.
* `after_restart`: with restarts, publications are counted anew and are accepted only above the
  epoch the native side remembers, and a cycle that was active at a restart is ended by no wake or
  cancel.
-/

namespace EinkLab.SleepImageManager

open Transition

/-! ### Epochs that are used -/

/-- A presentation the native latch armed for: it was accepted, or withdrawn when its frame was not
enqueued. -/
def Uses (e : Event) : Prop :=
  ∃ epoch retained before, e = .screenOff epoch retained before (some .accepted) ∨
    e = .screenOff epoch retained before (some .rejectedEnqueue)

/-- A publication, which takes a new epoch. -/
def Renews (e : Event) : Prop := ∃ epoch link remembered accepted,
  e = .published epoch link remembered accepted

/-- No accepted presentation had this epoch, and the latch does not call it stale or duplicate. -/
def FreshEpoch (log : List Event) (epoch : Nat) (before : SleepImageLatch) : Prop :=
  (∀ e ∈ log, ¬ Presented epoch e) ∧
    (before.armSleepCycle epoch).1 ≠ .rejectedStale ∧
      (before.armSleepCycle epoch).1 ≠ .rejectedDuplicate

/-- A `SCREEN_OFF` is fresh exactly when no epoch was used since the last publication. -/
def FreshnessLaw (log : List Event) (e : Event) : Prop :=
  ∀ epoch retained before result, e = .screenOff epoch retained before result →
    (FreshEpoch log epoch before ↔ ¬ OpenAfter Uses Renews log)

/-- The used epochs lie below the manager's, or it is the one just used. -/
structure Counted (log : List Event) (v : Protocol.View) : Prop where
  last_le : v.native.latch.lastArmedEpoch ≤ v.epoch
  used_iff : OpenAfter Uses Renews log ↔
    v.native.latch.lastArmedEpoch = v.epoch ∧ v.epoch ≠ 0
  presented_le : ∀ epoch, ∀ e ∈ log, Presented epoch e →
    epoch ≠ 0 ∧ epoch ≤ v.native.latch.lastArmedEpoch
  law : EachEvent FreshnessLaw log

theorem counted_init : Counted [] {} where
  last_le := Nat.le_refl 0
  used_iff := by simp [not_openAfter_nil]
  presented_le := by simp
  law := eachEvent_nil _

namespace Counted

variable {log : List Event} {v : Protocol.View}

/-- The freshness of the manager's epoch. -/
theorem fresh_iff (h : Counted log v) :
    FreshEpoch log v.epoch v.native.latch ↔ ¬ OpenAfter Uses Renews log := by
  rw [h.used_iff]
  have hle := h.last_le
  constructor
  · rintro ⟨-, -, hduplicate⟩ ⟨hlast, hepoch⟩
    refine hduplicate ?_
    unfold SleepImageLatch.armSleepCycle
    rw [if_neg hepoch, if_neg (by omega), if_pos hlast.symm]
  · intro hnot
    refine ⟨fun e he hp => ?_, ?_⟩
    · obtain ⟨hepoch, hused⟩ := h.presented_le _ e he hp
      exact hnot ⟨by omega, hepoch⟩
    · unfold SleepImageLatch.armSleepCycle
      by_cases hepoch : v.epoch = 0
      · simp [hepoch]
      · have hlt : v.native.latch.lastArmedEpoch < v.epoch := by omega
        rw [if_neg hepoch, if_neg (by omega), if_neg (by omega)]
        split_ifs <;> simp

/-- An event that neither uses nor renews an epoch, with the epochs unchanged. -/
theorem neutral (h : Counted log v) {e : Event} (huses : ¬ Uses e) (hrenews : ¬ Renews e)
    (hlaw : FreshnessLaw log e) {v' : Protocol.View} (hepoch : v'.epoch = v.epoch)
    (hlast : v'.native.latch.lastArmedEpoch = v.native.latch.lastArmedEpoch) :
    Counted (log ++ [e]) v' where
  last_le := by rw [hlast, hepoch]; exact h.last_le
  used_iff := by
    rw [openAfter_append_singleton, h.used_iff, hlast, hepoch]
    simp [huses, hrenews]
  presented_le epoch x hx hp := by
    rw [hlast]
    rcases List.mem_append.mp hx with hx | hx
    · exact h.presented_le epoch x hx hp
    · obtain rfl := List.mem_singleton.mp hx
      obtain ⟨retained, before, rfl⟩ := hp
      exact absurd ⟨epoch, retained, before, Or.inl rfl⟩ huses
  law := eachEvent_append_singleton.mpr ⟨h.law, hlaw⟩

/-- No event, and the epochs unchanged. -/
theorem same (h : Counted log v) {v' : Protocol.View} (hepoch : v'.epoch = v.epoch)
    (hlast : v'.native.latch.lastArmedEpoch = v.native.latch.lastArmedEpoch) : Counted log v' where
  last_le := by rw [hlast, hepoch]; exact h.last_le
  used_iff := by rw [hlast, hepoch]; exact h.used_iff
  presented_le := by rw [hlast]; exact h.presented_le
  law := h.law

/-- A presentation that used the manager's epoch. -/
theorem used (h : Counted log v) {retained : Bool} {result : SleepImagePresentationResult}
    (hresult : result = .accepted ∨ result = .rejectedEnqueue) (hne : v.epoch ≠ 0)
    (hfresh : v.native.latch.lastArmedEpoch < v.epoch) {v' : Protocol.View}
    (hepoch : v'.epoch = v.epoch) (hlast : v'.native.latch.lastArmedEpoch = v.epoch) :
    Counted (log ++ [.screenOff v.epoch retained v.native.latch (some result)]) v' where
  last_le := by omega
  used_iff := by
    have huses : Uses (.screenOff v.epoch retained v.native.latch (some result)) := by
      rcases hresult with rfl | rfl
      · exact ⟨_, _, _, Or.inl rfl⟩
      · exact ⟨_, _, _, Or.inr rfl⟩
    rw [openAfter_append_singleton, hlast, hepoch]
    simp [huses, hne]
  presented_le epoch x hx hp := by
    rw [hlast]
    rcases List.mem_append.mp hx with hx | hx
    · have hle := h.presented_le epoch x hx hp
      omega
    · obtain rfl := List.mem_singleton.mp hx
      obtain ⟨_, _, heq⟩ := hp
      cases heq
      exact ⟨hne, Nat.le_refl _⟩
  law := by
    refine eachEvent_append_singleton.mpr ⟨h.law, ?_⟩
    rintro _ _ _ _ ⟨⟩
    exact h.fresh_iff

theorem sendScreenOff (h : Counted log v) (retained : Bool) (link : Link) :
    Counted (log ++ (v.sendScreenOff retained link).2) (v.sendScreenOff retained link).1 := by
  have hlaw : ∀ result, FreshnessLaw log (.screenOff v.epoch retained v.native.latch result) := by
    rintro result _ _ _ _ ⟨⟩
    exact h.fresh_iff
  have hrenews : ∀ result, ¬ Renews (.screenOff v.epoch retained v.native.latch result) := by
    rintro result ⟨_, _, _, _, heq⟩
    cases heq
  unfold Protocol.View.sendScreenOff
  dsimp only
  split_ifs
  · have hcases := v.native.presentSleepImage_cases v.epoch link.conditions
    generalize v.native.presentSleepImage v.epoch link.conditions = r at hcases
    obtain ⟨result, native⟩ := r
    dsimp only at hcases ⊢
    cases hcases with
    | accepted _ hepoch hfresh _ _ hlast => exact h.used (Or.inl rfl) hepoch hfresh rfl hlast
    | withdrawn _ hepoch hfresh _ _ hlast => exact h.used (Or.inr rfl) hepoch hfresh rfl hlast
    | rejected _ _ haccepted henqueue hlatch =>
      refine h.neutral ?_ (hrenews _) (hlaw _) rfl (by rw [hlatch])
      rintro ⟨_, _, _, heq | heq⟩
      · cases heq
        exact haccepted rfl
      · cases heq
        exact henqueue rfl
  · refine h.neutral ?_ (hrenews _) (hlaw _) rfl rfl
    rintro ⟨_, _, _, heq | heq⟩ <;> cases heq

theorem sendScreenOn (h : Counted log v) (cause : Cause) (screenOff : Bool) (link : Link) :
    Counted (log ++ (v.sendScreenOn cause screenOff link).2)
      (v.sendScreenOn cause screenOff link).1 := by
  have hevent : ∀ result (v' : Protocol.View), v'.epoch = v.epoch →
      v'.native.latch.lastArmedEpoch = v.native.latch.lastArmedEpoch →
        Counted (log ++ [.screenOn cause v.epoch result]) v' := by
    intro result v' hepoch hlast
    refine h.neutral ?_ ?_ ?_ hepoch hlast
    · rintro ⟨_, _, _, heq | heq⟩ <;> cases heq
    · rintro ⟨_, _, _, _, heq⟩
      cases heq
    · rintro _ _ _ _ ⟨⟩
  unfold Protocol.View.sendScreenOn
  dsimp only
  split_ifs
  · refine hevent _ _ rfl ?_
    rcases v.native.disarmSleepCycle_cases v.epoch with ⟨-, -, -, hlatch⟩ | ⟨-, -, hlatch⟩
    · show (v.native.disarmSleepCycle v.epoch).2.latch.lastArmedEpoch = _
      rw [hlatch]
    · show (v.native.disarmSleepCycle v.epoch).2.latch.lastArmedEpoch = _
      rw [hlatch]
  · exact hevent _ _ rfl rfl

/-- A publication leaves every used epoch behind. -/
theorem sendCatalog (h : Counted log v) (link : Link) :
    Counted (log ++ (v.sendCatalog link).2) (v.sendCatalog link).1 := by
  have hevent : ∀ remembered accepted (v' : Protocol.View), v'.epoch = v.epoch + 1 →
      v'.native.latch.lastArmedEpoch = v.native.latch.lastArmedEpoch →
        Counted (log ++ [.published (v.epoch + 1) link remembered accepted]) v' := by
    intro remembered accepted v' hepoch hlast
    have hle := h.last_le
    have hrenews : Renews (.published (v.epoch + 1) link remembered accepted) := ⟨_, _, _, _, rfl⟩
    have huses : ¬ Uses (.published (v.epoch + 1) link remembered accepted) := by
      rintro ⟨_, _, _, heq | heq⟩ <;> cases heq
    refine {
      last_le := by omega
      used_iff := ?_
      presented_le := fun epoch x hx hp => ?_
      law := eachEvent_append_singleton.mpr ⟨h.law, by rintro _ _ _ _ ⟨⟩⟩ }
    · rw [openAfter_append_singleton, hlast, hepoch]
      constructor
      · rintro (hu | ⟨-, hr⟩)
        · exact absurd hu huses
        · exact absurd hrenews hr
      · rintro ⟨hlast', -⟩
        omega
    · rw [hlast]
      rcases List.mem_append.mp hx with hx | hx
      · exact h.presented_le epoch x hx hp
      · obtain rfl := List.mem_singleton.mp hx
        obtain ⟨_, _, heq⟩ := hp
        cases heq
  unfold Protocol.View.sendCatalog
  dsimp only
  split_ifs
  · exact hevent _ _ _ rfl (by simp)
  · exact hevent _ _ _ rfl rfl

/-- Every protocol step but a restart keeps the count. -/
theorem step (h : Counted log v) {b : Protocol.Action} {v' : Protocol.View} {events : List Event}
    (hok : Protocol.Only (fun _ => True) False v b) (hs : v.step b = some (v', events)) :
    Counted (log ++ events) v' := by
  cases b with
  | other e =>
    simp only [Protocol.View.step] at hs
    split_ifs at hs with he
    obtain ⟨rfl, rfl⟩ := Prod.mk.inj (Option.some.inj hs)
    refine h.neutral ?_ ?_ ?_ rfl rfl
    · rintro ⟨_, _, _, rfl | rfl⟩ <;> simp [Event.isOther] at he
    · rintro ⟨_, _, _, _, rfl⟩
      simp [Event.isOther] at he
    · rintro _ _ _ _ rfl
      simp [Event.isOther] at he
  | reconcile =>
    obtain ⟨rfl, rfl⟩ := Prod.mk.inj (Option.some.inj hs)
    rw [List.append_nil]
    exact h.same rfl rfl
  | screenOff retained link =>
    simp only [Protocol.View.step] at hs
    split_ifs at hs
    have hnext := h.sendScreenOff retained link
    rwa [Option.some.inj hs] at hnext
  | screenOffKeepLast link =>
    simp only [Protocol.View.step] at hs
    split_ifs at hs
    have hnext := h.sendScreenOn .keepLast true link
    rwa [Option.some.inj hs] at hnext
  | screenOn cause link =>
    simp only [Protocol.View.step] at hs
    split_ifs at hs
    · have hnext := h.sendScreenOn cause false link
      rwa [Option.some.inj hs] at hnext
    · -- nothing is requested, so nothing is sent
      obtain ⟨rfl, rfl⟩ := Prod.mk.inj (Option.some.inj hs)
      rw [List.append_nil]
      exact h.same rfl rfl
  | publish link =>
    simp only [Protocol.View.step] at hs
    split_ifs at hs
    have hnext := h.sendCatalog link
    rwa [Option.some.inj hs] at hnext
  | maybeStartM3 =>
    obtain ⟨rfl, rfl⟩ := Prod.mk.inj (Option.some.inj hs)
    rw [List.append_nil]
    exact h.same rfl (by simp)
  | evaluate frame selector =>
    obtain ⟨rfl, rfl⟩ := Prod.mk.inj (Option.some.inj hs)
    rw [List.append_nil]
    exact h.same rfl (v.native.evaluate_latch frame selector).2
  | restart => exact absurd (hok.1 rfl) id

end Counted

/-- **Freshness**: in every run without a restart, a `SCREEN_OFF` that finds a retained catalog
carries a fresh epoch exactly when no presentation has used an epoch since the last publication. -/
theorem screen_off_epoch_fresh_iff {as : List Action} {log : List Event} {t : World}
    (h : system.Run NoRestart {} as log t) :
    EachEvent (fun pre e => ∀ epoch before result, e = .screenOff epoch true before result →
      (FreshEpoch pre epoch before ↔ ¬ OpenAfter Uses Renews pre)) log := by
  obtain ⟨bs, hbs⟩ := run_protocol h (fun _ => True) False
    (fun w a hok hr => by rw [show a.isRestart = false from hok] at hr; cases hr)
    (fun _ _ _ _ _ => trivial)
  have hcounted : Counted log t.view := by
    refine hbs.induct (fun _ log v => Counted log v) counted_init ?_
    intro bs log v b v' events hv hok hs
    exact hv.step hok hs
  intro pre e post hlog epoch before result he
  exact hcounted.law pre e post hlog epoch true before result he

/-- Sleep, wake, and sleep again before the provider has answered. -/
def secondSleep : List Action :=
  bootedActions ++ [.beginDefaultDisplayOff {}, .observeDefaultDisplayState 1 {},
    .observeDefaultDisplayState 2 {}, .wakeRequest true, .beginDefaultDisplayOff {}]

theorem screen_off_epoch_fresh_iff_of_second_sleep :
    ∃ log t, system.Run NoRestart {} secondSleep log t ∧ log.length = 6 ∧
      EachEvent (fun pre e => ∀ epoch before result, e = .screenOff epoch true before result →
        (FreshEpoch pre epoch before ↔ ¬ OpenAfter Uses Renews pre)) log := by
  have hexec : (system.exec NoRestart {} secondSleep).map (fun r => r.2.length) = some 6 := by
    decide
  obtain ⟨⟨t, log⟩, hr, hlength⟩ := Option.map_eq_some_iff.mp hexec
  have hrun := System.Run.of_exec hr
  exact ⟨log, t, hrun, hlength, screen_off_epoch_fresh_iff hrun⟩

/-- The second sleep sends the consumed epoch again. -/
theorem second_sleep_duplicate :
    ¬ ∀ (as : List Action) (log : List Event) (t : World), system.Run NoRestart {} as log t →
      ∀ epoch before result, .screenOff epoch true before result ∈ log →
        (before.armSleepCycle epoch).1 ≠ .rejectedStale ∧
          (before.armSleepCycle epoch).1 ≠ .rejectedDuplicate := by
  intro hall
  have hexec : (system.exec NoRestart {} secondSleep).map (fun r => r.2.any fun e =>
      match e with
      | .screenOff epoch retained before _ =>
        retained && decide ((before.armSleepCycle epoch).1 = .rejectedDuplicate)
      | _ => false) = some true := by
    decide
  obtain ⟨⟨t, log⟩, hr, hany⟩ := Option.map_eq_some_iff.mp hexec
  obtain ⟨e, he, hduplicate⟩ := List.any_eq_true.mp hany
  split at hduplicate
  · next epoch retained before result =>
    obtain ⟨rfl, hrejected⟩ := (Bool.and_eq_true _ _).mp hduplicate
    have hnot := hall secondSleep log t (System.Run.of_exec hr) epoch before result he
    exact hnot.2 (of_decide_eq_true hrejected)
  · cases hduplicate

end EinkLab.SleepImageManager
