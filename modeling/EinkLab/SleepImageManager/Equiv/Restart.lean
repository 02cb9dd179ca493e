import EinkLab.SleepImageManager.Equiv.Wake

/-!
# What a restart of the framework leaves

The native side remembers its catalog epoch and its latch; the restarted manager counts from zero
and sends no message that asks for either.  `after_restart`: in every run with restarts, the `k`-th
publication after a restart has epoch `k` and is accepted exactly when `k` is above the epoch the
native session remembers; and a cycle that was active at a restart is ended by no wake and no
cancel, but only by the `SCREEN_ON` of a screen-off that keeps the last picture, if the epochs
happen to agree.
-/

namespace EinkLab.SleepImageManager

open Transition

/-! ### What the log says about the epochs -/

/-- The publications since the last restart. -/
def publications (log : List Event) : Nat :=
  log.foldl (fun n e =>
    match e with
    | .published _ _ _ _ => n + 1
    | .restarted _ => 0
    | _ => n) 0

/-- The epoch of the last accepted publication. -/
def rememberedEpoch (log : List Event) : Nat :=
  log.foldl (fun n e =>
    match e with
    | .published epoch _ _ true => epoch
    | _ => n) 0

/-- A publication takes the next epoch since the restart; it is accepted exactly when it is
executed, valid, and above the remembered epoch. -/
def PublicationLaw (log : List Event) (e : Event) : Prop :=
  ∀ epoch link remembered accepted, e = .published epoch link remembered accepted →
    epoch = publications log + 1 ∧ remembered = rememberedEpoch log ∧
      (accepted = true ↔
        link.delivered = true ∧ link.conditions.catalogValid = true ∧ remembered < epoch)

/-- The framework restarted while this epoch was active. -/
def RestartedActive (epoch : Nat) (e : Event) : Prop := e = .restarted epoch ∧ epoch ≠ 0

/-- The cycle was ended. -/
def Released (epoch : Nat) (e : Event) : Prop := ∃ cause, e = .screenOn cause epoch (some .accepted)

/-- No wake and no cancel sends a `SCREEN_ON` while a cycle from before the restart is active, and
a `SCREEN_ON` that ends it has its epoch. -/
def OrphanLaw (log : List Event) (e : Event) : Prop :=
  ∀ active, OpenAfter (RestartedActive active) (Released active) log →
    ∀ cause epoch result, e = .screenOn cause epoch result →
      cause = .keepLast ∧ (result = some .accepted → epoch = active)

/-- The session remembers at least what the pipeline and the waiting catalog have. -/
def Native.Ordered (n : Native) : Prop :=
  (∀ p, n.pipeline = some p → p.catalogEpoch ≤ n.catalogEpoch) ∧
    ∀ epoch, n.pendingCatalog = some epoch → epoch ≤ n.catalogEpoch

/-- The invariant of runs with restarts. -/
structure Orphaned (log : List Event) (v : Protocol.View) : Prop where
  epoch : v.epoch = publications log
  remembered : v.native.catalogEpoch = rememberedEpoch log
  ordered : v.native.Ordered
  active : ∀ active, OpenAfter (RestartedActive active) (Released active) log →
    v.native.latch.activeEpoch = active ∧ active ≠ 0 ∧ v.requested = false
  publications_law : EachEvent PublicationLaw log
  orphan_law : EachEvent OrphanLaw log

theorem orphaned_init : Orphaned [] {} where
  epoch := rfl
  remembered := rfl
  ordered := ⟨fun p h => by simp at h, fun e h => by simp at h⟩
  active a h := absurd h (not_openAfter_nil _ _)
  publications_law := eachEvent_nil _
  orphan_law := eachEvent_nil _

@[simp] theorem NativePipeline.presentSleepImage_catalogEpoch (p : NativePipeline) (epoch : Nat)
    (conditions : NativeConditions) :
    (p.presentSleepImage epoch conditions).2.catalogEpoch = p.catalogEpoch := by
  unfold NativePipeline.presentSleepImage
  split
  · rfl
  split
  · rfl
  split
  · rfl
  split
  · rfl
  · dsimp only
    split_ifs <;> rfl

theorem NativePipeline.publishSleepImageCatalog_le (p : NativePipeline) (epoch : Nat)
    (conditions : NativeConditions) (h : p.catalogEpoch ≤ epoch) :
    (p.publishSleepImageCatalog epoch conditions).2.catalogEpoch ≤ epoch := by
  unfold NativePipeline.publishSleepImageCatalog
  split_ifs
  · exact h
  · exact h
  · exact h
  · exact Nat.le_refl epoch

namespace Native

variable {n : Native} {epoch : Nat} {conditions : NativeConditions}

theorem Ordered.present (h : n.Ordered) (epoch : Nat) (conditions : NativeConditions) :
    (n.presentSleepImage epoch conditions).2.Ordered := by
  unfold presentSleepImage
  split_ifs
  · exact h
  · exact h
  · cases hpipeline : n.pipeline with
    | none => simpa [hpipeline] using h
    | some p =>
      refine ⟨fun q hq => ?_, h.2⟩
      have hsame := p.presentSleepImage_catalogEpoch epoch conditions
      obtain rfl : (p.presentSleepImage epoch conditions).2 = q := by simpa using hq
      rw [hsame]
      exact h.1 p hpipeline

theorem Ordered.disarm (h : n.Ordered) : (n.disarmSleepCycle epoch).2.Ordered := by
  unfold disarmSleepCycle
  split_ifs
  · exact h
  · cases hpipeline : n.pipeline with
    | none => simpa [hpipeline] using h
    | some p =>
      refine ⟨fun q hq => ?_, h.2⟩
      obtain rfl : (p.disarmSleepCycle epoch).2 = q := by simpa using hq
      exact h.1 p hpipeline

theorem Ordered.evaluate (h : n.Ordered) (frame : ConvertedFrame OwnedGrayscaleBuffer)
    (selector : Option (Selector OwnedGrayscaleBuffer)) : (n.evaluate frame selector).Ordered := by
  unfold Native.evaluate
  cases hpipeline : n.pipeline with
  | none => simpa [hpipeline] using h
  | some p =>
    refine ⟨fun q hq => ?_, h.2⟩
    obtain rfl := Option.some.inj hq
    exact h.1 p hpipeline

theorem Ordered.maybeStartM3 (h : n.Ordered) : n.maybeStartM3.Ordered := by
  unfold Native.maybeStartM3
  cases hpipeline : n.pipeline with
  | some p => simpa [hpipeline] using h
  | none =>
    refine ⟨fun q hq => ?_, fun e he => by simp at he⟩
    show q.catalogEpoch ≤ n.catalogEpoch
    cases hpending : n.pendingCatalog with
    | none =>
      simp only [hpending, Option.some.injEq] at hq
      rw [← hq]
      exact Nat.zero_le _
    | some pending =>
      simp only [hpending, Option.some.injEq] at hq
      rw [← hq]
      have hle := NativePipeline.publishSleepImageCatalog_le {} pending {} (Nat.zero_le _)
      exact Nat.le_trans hle (h.2 pending hpending)

@[simp] theorem maybeStartM3_catalogEpoch : n.maybeStartM3.catalogEpoch = n.catalogEpoch := by
  unfold Native.maybeStartM3
  cases n.pipeline <;> rfl

@[simp] theorem evaluate_catalogEpoch (frame : ConvertedFrame OwnedGrayscaleBuffer)
    (selector : Option (Selector OwnedGrayscaleBuffer)) :
    (n.evaluate frame selector).catalogEpoch = n.catalogEpoch := by
  unfold Native.evaluate
  cases n.pipeline <;> rfl

/-- A publication is accepted exactly above the remembered epoch, and is then remembered. -/
theorem Ordered.publish (h : n.Ordered) (conditions : NativeConditions) (hepoch : epoch ≠ 0) :
    ((n.publishSleepImageCatalog epoch conditions).1 = true ↔
        conditions.catalogValid = true ∧ n.catalogEpoch < epoch) ∧
      (n.publishSleepImageCatalog epoch conditions).2.catalogEpoch =
        (if (n.publishSleepImageCatalog epoch conditions).1 then epoch else n.catalogEpoch) ∧
      (n.publishSleepImageCatalog epoch conditions).2.Ordered := by
  unfold publishSleepImageCatalog
  rw [if_neg hepoch]
  by_cases hvalid : conditions.catalogValid = true
  · by_cases hstale : epoch ≤ n.catalogEpoch
    · rw [if_neg (by simp [hvalid]), if_pos hstale]
      exact ⟨by simp; omega, by simp, h⟩
    rw [if_neg (by simp [hvalid]), if_neg hstale]
    cases hpipeline : n.pipeline with
    | none =>
      refine ⟨by simp [hvalid]; omega, by simp, fun p hp => by simp at hp, ?_⟩
      intro e he
      obtain rfl : epoch = e := by simpa using he
      exact Nat.le_refl _
    | some p =>
      have hp := h.1 p hpipeline
      have haccepts : p.publishSleepImageCatalog epoch conditions =
          (true, { p with catalogEpoch := epoch, hasCatalog := true }) := by
        unfold NativePipeline.publishSleepImageCatalog
        rw [if_neg hepoch, if_neg (by simp [hvalid]), if_neg (by omega)]
      simp only [haccepts, if_true]
      refine ⟨by simp [hvalid]; omega, by simp, fun q hq => ?_, fun e he => ?_⟩
      · obtain rfl := Option.some.inj hq
        exact Nat.le_refl _
      · have := h.2 e he
        show e ≤ epoch
        omega
  · rw [if_pos (by simpa using hvalid)]
    exact ⟨by simp [hvalid], by simp, h⟩

end Native

/-! ### The invariant, event by event -/

theorem publications_append (log : List Event) (e : Event) :
    publications (log ++ [e]) = match e with
      | .published _ _ _ _ => publications log + 1
      | .restarted _ => 0
      | _ => publications log := by
  simp only [publications, List.foldl_append, List.foldl_cons, List.foldl_nil]

theorem rememberedEpoch_append (log : List Event) (e : Event) :
    rememberedEpoch (log ++ [e]) = match e with
      | .published epoch _ _ true => epoch
      | _ => rememberedEpoch log := by
  simp only [rememberedEpoch, List.foldl_append, List.foldl_cons, List.foldl_nil]

namespace Orphaned

variable {log : List Event} {v : Protocol.View}

theorem same (h : Orphaned log v) {v' : Protocol.View} (hepoch : v'.epoch = v.epoch)
    (hcatalog : v'.native.catalogEpoch = v.native.catalogEpoch) (hordered : v'.native.Ordered)
    (hactive : v'.native.latch.activeEpoch = v.native.latch.activeEpoch)
    (hrequested : v'.requested = v.requested) : Orphaned log v' where
  epoch := hepoch.trans h.epoch
  remembered := hcatalog.trans h.remembered
  ordered := hordered
  active := by rw [hactive, hrequested]; exact h.active
  publications_law := h.publications_law
  orphan_law := h.orphan_law

/-- An event about requests. -/
theorem other (h : Orphaned log v) {e : Event} (he : e.isOther = true) : Orphaned
    (log ++ [e]) v where
  epoch := by
    rw [publications_append, h.epoch]
    cases e <;> simp_all [Event.isOther]
  remembered := by
    rw [rememberedEpoch_append, h.remembered]
    cases e <;> simp_all [Event.isOther]
  ordered := h.ordered
  active active hopen := by
    rcases openAfter_append_singleton.mp hopen with ⟨rfl, -⟩ | ⟨hopen, -⟩
    · simp [Event.isOther] at he
    · exact h.active active hopen
  publications_law := by
    refine eachEvent_append_singleton.mpr ⟨h.publications_law, ?_⟩
    rintro _ _ _ _ rfl
    simp [Event.isOther] at he
  orphan_law := by
    refine eachEvent_append_singleton.mpr ⟨h.orphan_law, ?_⟩
    rintro _ _ _ _ _ rfl
    simp [Event.isOther] at he

/-- A presentation cannot be accepted while an older cycle is active. -/
theorem sendScreenOff (h : Orphaned log v) (retained : Bool) (link : Link) :
    Orphaned (log ++ (v.sendScreenOff retained link).2) (v.sendScreenOff retained link).1 := by
  have hevent : ∀ result (v' : Protocol.View), v'.epoch = v.epoch →
      v'.native.catalogEpoch = v.native.catalogEpoch → v'.native.Ordered →
      (∀ active, OpenAfter (RestartedActive active) (Released active) log →
        v'.native.latch.activeEpoch = active ∧ active ≠ 0 ∧ v'.requested = false) →
      Orphaned (log ++ [.screenOff v.epoch retained v.native.latch result]) v' := by
    intro result v' hepoch hcatalog hordered hactive
    refine {
      epoch := by rw [publications_append, hepoch, h.epoch]
      remembered := by rw [rememberedEpoch_append, hcatalog, h.remembered]
      ordered := hordered
      active := fun active hopen => ?_
      publications_law := eachEvent_append_singleton.mpr ⟨h.publications_law, by
        rintro _ _ _ _ ⟨⟩⟩
      orphan_law := eachEvent_append_singleton.mpr ⟨h.orphan_law, by rintro _ _ _ _ _ ⟨⟩⟩ }
    rcases openAfter_append_singleton.mp hopen with ⟨heq, -⟩ | ⟨hopen, -⟩
    · cases heq
    · exact hactive active hopen
  unfold Protocol.View.sendScreenOff
  dsimp only
  split_ifs
  · have hordered := h.ordered.present v.epoch link.conditions
    have hcases := v.native.presentSleepImage_cases v.epoch link.conditions
    generalize v.native.presentSleepImage v.epoch link.conditions = r at hcases hordered
    obtain ⟨result, native⟩ := r
    dsimp only at hcases hordered ⊢
    cases hcases with
    | accepted _ _ _ hidle _ _ hcatalog =>
      refine hevent _ _ rfl hcatalog hordered fun active hopen => ?_
      obtain ⟨hactive, hne, -⟩ := h.active active hopen
      omega
    | withdrawn _ _ _ hidle _ _ hcatalog =>
      refine hevent _ _ rfl hcatalog hordered fun active hopen => ?_
      obtain ⟨hactive, hne, -⟩ := h.active active hopen
      omega
    | rejected _ _ haccepted _ hlatch hcatalog =>
      refine hevent _ _ rfl hcatalog hordered fun active hopen => ?_
      obtain ⟨hactive, hne, -⟩ := h.active active hopen
      exact ⟨by rw [hlatch, hactive], hne, by simp [haccepted]⟩
  · refine hevent _ _ rfl rfl h.ordered fun active hopen => ?_
    obtain ⟨hactive, hne, -⟩ := h.active active hopen
    exact ⟨hactive, hne, rfl⟩

/-- A `SCREEN_ON` follows no wake or cancel while an older cycle is active. -/
theorem sendScreenOn (h : Orphaned log v) (cause : Cause) (screenOff : Bool) (link : Link)
    (hcause : cause = .keepLast ∨ v.requested = true) :
    Orphaned (log ++ (v.sendScreenOn cause screenOff link).2)
      (v.sendScreenOn cause screenOff link).1 := by
  have hkeep : ∀ active, OpenAfter (RestartedActive active) (Released active) log →
      cause = .keepLast := by
    intro active hopen
    rcases hcause with hcause | hrequested
    · exact hcause
    · rw [(h.active active hopen).2.2] at hrequested
      cases hrequested
  have hevent : ∀ result (v' : Protocol.View), v'.epoch = v.epoch → v'.requested = false →
      v'.native.catalogEpoch = v.native.catalogEpoch → v'.native.Ordered →
      (result = some .accepted → v.native.latch.activeEpoch = v.epoch) →
      (result ≠ some .accepted → v'.native.latch = v.native.latch) →
      Orphaned (log ++ [.screenOn cause v.epoch result]) v' := by
    intro result v' hepoch hrequested hcatalog hordered haccepted hrejected
    refine {
      epoch := by rw [publications_append, hepoch, h.epoch]
      remembered := by rw [rememberedEpoch_append, hcatalog, h.remembered]
      ordered := hordered
      active := fun active hopen => ?_
      publications_law := eachEvent_append_singleton.mpr ⟨h.publications_law, by
        rintro _ _ _ _ ⟨⟩⟩
      orphan_law := eachEvent_append_singleton.mpr ⟨h.orphan_law, ?_⟩ }
    · rcases openAfter_append_singleton.mp hopen with ⟨heq, -⟩ | ⟨hopen, hstop⟩
      · cases heq
      · obtain ⟨hactive, hne, -⟩ := h.active active hopen
        have hnot : result ≠ some .accepted := by
          rintro rfl
          rw [haccepted rfl] at hactive
          exact hstop ⟨cause, by rw [hactive]⟩
        exact ⟨by rw [hrejected hnot, hactive], hne, hrequested⟩
    · rintro active hopen _ _ _ ⟨⟩
      refine ⟨hkeep active hopen, fun hresult => ?_⟩
      rw [← haccepted hresult, (h.active active hopen).1]
  unfold Protocol.View.sendScreenOn
  dsimp only
  split_ifs
  · rcases v.native.disarmSleepCycle_cases v.epoch with
      ⟨-, hactive, haccepted, -⟩ | ⟨-, hrejected, hlatch⟩
    · refine hevent _ _ rfl rfl (by simp) h.ordered.disarm (fun _ => hactive) fun hnot => ?_
      exact absurd (by rw [haccepted]) hnot
    · refine hevent _ _ rfl rfl (by simp) h.ordered.disarm (fun hacc => ?_) fun _ => hlatch
      exact absurd (Option.some.inj hacc) hrejected
  · exact hevent _ _ rfl rfl rfl h.ordered (fun hacc => by cases hacc) fun _ => rfl

theorem sendCatalog (h : Orphaned log v) (link : Link) :
    Orphaned (log ++ (v.sendCatalog link).2) (v.sendCatalog link).1 := by
  have hevent : ∀ accepted (v' : Protocol.View), v'.epoch = v.epoch + 1 →
      v'.requested = v.requested → v'.native.latch = v.native.latch → v'.native.Ordered →
      v'.native.catalogEpoch = (if accepted then v.epoch + 1 else v.native.catalogEpoch) →
      (accepted = true ↔ link.delivered = true ∧ link.conditions.catalogValid = true ∧
        v.native.catalogEpoch < v.epoch + 1) →
      Orphaned (log ++ [.published (v.epoch + 1) link v.native.catalogEpoch accepted]) v' := by
    intro accepted v' hepoch hrequested hlatch hordered hcatalog haccepted
    refine {
      epoch := by rw [publications_append, hepoch, h.epoch]
      remembered := by
        rw [rememberedEpoch_append, hcatalog, ← h.remembered]
        cases accepted <;> rfl
      ordered := hordered
      active := fun active hopen => ?_
      publications_law := eachEvent_append_singleton.mpr ⟨h.publications_law, ?_⟩
      orphan_law := eachEvent_append_singleton.mpr ⟨h.orphan_law, by rintro _ _ _ _ _ ⟨⟩⟩ }
    · rcases openAfter_append_singleton.mp hopen with ⟨heq, -⟩ | ⟨hopen, -⟩
      · cases heq
      · rw [hlatch, hrequested]
        exact h.active active hopen
    · rintro _ _ _ _ ⟨⟩
      exact ⟨by rw [h.epoch], h.remembered, haccepted⟩
  unfold Protocol.View.sendCatalog
  dsimp only
  split_ifs with hdelivered
  · obtain ⟨haccepted, hcatalog, hordered⟩ := h.ordered.publish link.conditions
      (Nat.succ_ne_zero v.epoch)
    exact hevent _ _ rfl rfl (by simp) hordered hcatalog (by rw [haccepted]; simp [hdelivered])
  · exact hevent false _ rfl rfl rfl h.ordered (by simp) (by simp [hdelivered])

/-- A restart keeps the native side. -/
theorem restart (h : Orphaned log v) :
    Orphaned (log ++ [.restarted v.native.latch.activeEpoch]) { native := v.native } where
  epoch := by rw [publications_append]
  remembered := by rw [rememberedEpoch_append]; exact h.remembered
  ordered := h.ordered
  active active hopen := by
    rcases openAfter_append_singleton.mp hopen with ⟨heq, hne⟩ | ⟨hopen, -⟩
    · exact ⟨Event.restarted.inj heq, hne, rfl⟩
    · obtain ⟨hactive, hne, -⟩ := h.active active hopen
      exact ⟨hactive, hne, rfl⟩
  publications_law := eachEvent_append_singleton.mpr ⟨h.publications_law, by rintro _ _ _ _ ⟨⟩⟩
  orphan_law := eachEvent_append_singleton.mpr ⟨h.orphan_law, by rintro _ _ _ _ _ ⟨⟩⟩

/-- Every protocol step keeps the invariant. -/
theorem step (h : Orphaned log v) {b : Protocol.Action} {v' : Protocol.View} {events : List Event}
    (hs : v.step b = some (v', events)) : Orphaned (log ++ events) v' := by
  cases b with
  | other e =>
    simp only [Protocol.View.step] at hs
    split_ifs at hs with he
    obtain ⟨rfl, rfl⟩ := Prod.mk.inj (Option.some.inj hs)
    exact h.other he
  | reconcile =>
    obtain ⟨rfl, rfl⟩ := Prod.mk.inj (Option.some.inj hs)
    rw [List.append_nil]
    exact h.same rfl rfl h.ordered rfl rfl
  | screenOff retained link =>
    simp only [Protocol.View.step] at hs
    split_ifs at hs
    have hnext := h.sendScreenOff retained link
    rwa [Option.some.inj hs] at hnext
  | screenOffKeepLast link =>
    simp only [Protocol.View.step] at hs
    split_ifs at hs
    have hnext := h.sendScreenOn .keepLast true link (Or.inl rfl)
    rwa [Option.some.inj hs] at hnext
  | screenOn cause link =>
    simp only [Protocol.View.step] at hs
    split_ifs at hs with henabled hrequested
    · have hnext := h.sendScreenOn cause false link (Or.inr hrequested)
      rwa [Option.some.inj hs] at hnext
    · obtain ⟨rfl, rfl⟩ := Prod.mk.inj (Option.some.inj hs)
      rw [List.append_nil]
      exact h.same rfl rfl h.ordered rfl rfl
  | publish link =>
    simp only [Protocol.View.step] at hs
    split_ifs at hs
    have hnext := h.sendCatalog link
    rwa [Option.some.inj hs] at hnext
  | maybeStartM3 =>
    obtain ⟨rfl, rfl⟩ := Prod.mk.inj (Option.some.inj hs)
    rw [List.append_nil]
    exact h.same rfl (by simp) h.ordered.maybeStartM3 (by simp) rfl
  | evaluate frame selector =>
    obtain ⟨rfl, rfl⟩ := Prod.mk.inj (Option.some.inj hs)
    rw [List.append_nil]
    exact h.same rfl (by simp) (h.ordered.evaluate frame selector)
      (v.native.evaluate_latch frame selector).1 rfl
  | restart =>
    obtain ⟨rfl, rfl⟩ := Prod.mk.inj (Option.some.inj hs)
    exact h.restart

end Orphaned

/-- **After a restart**, in every run: publications count from one again and are accepted exactly
above the remembered epoch; a cycle that was active stays active, and no wake or cancel ends it. -/
theorem after_restart {as : List Action} {log : List Event} {t : World}
    (h : system.Run System.anyAction {} as log t) :
    EachEvent PublicationLaw log ∧ EachEvent OrphanLaw log ∧
      ∀ active, OpenAfter (RestartedActive active) (Released active) log →
        t.native.latch.activeEpoch = active := by
  obtain ⟨bs, hbs⟩ := run_protocol h (fun _ => True) True (fun _ _ _ _ => trivial)
    (fun _ _ _ _ _ => trivial)
  have horphaned : Orphaned log t.view := by
    refine hbs.induct (fun _ log v => Orphaned log v) orphaned_init ?_
    intro bs log v b v' events hv _ hs
    exact hv.step hs
  exact ⟨horphaned.publications_law, horphaned.orphan_law,
    fun active hopen => (horphaned.active active hopen).1⟩

/-- Sleep, a restart of the framework, its first catalog, and the next wake. -/
def restartAsleep : List Action :=
  bootedActions ++ [.beginDefaultDisplayOff {}, .observeDefaultDisplayState 1 {}, .restart,
    .userUnlocked, .observeDefaultDisplayState 1 {}, .serviceConnected true true, firstCatalog {},
    .observeDefaultDisplayState 2 {}]

theorem after_restart_asleep :
    ∃ log t, system.Run System.anyAction {} restartAsleep log t ∧ .restarted 1 ∈ log ∧
      EachEvent PublicationLaw log ∧ EachEvent OrphanLaw log ∧
        ∀ active, OpenAfter (RestartedActive active) (Released active) log →
          t.native.latch.activeEpoch = active := by
  have hexec : (system.exec System.anyAction {} restartAsleep).map
      (fun r => decide (.restarted 1 ∈ r.2)) = some true := by
    decide
  obtain ⟨⟨t, log⟩, hr, hmem⟩ := Option.map_eq_some_iff.mp hexec
  have hrun := System.Run.of_exec hr
  exact ⟨log, t, hrun, of_decide_eq_true hmem, after_restart hrun⟩

/-- The first catalog of the restarted manager is refused, and its next wake sends nothing: the
panel stays held. -/
theorem restart_not_recovered :
    ¬ (∀ (as : List Action) (before after : List Event) (t : World) (active : Nat),
        system.Run System.anyAction {} as (before ++ .restarted active :: after) t →
          (∀ early epoch link remembered accepted late,
            after = early ++ .published epoch link remembered accepted :: late →
            (∀ e ∈ early, ¬ ∃ n l r a, e = .published n l r a) → link.Reliable →
              link.conditions.catalogValid = true → accepted = true)) ∧
      ¬ (∀ (as : List Action) (before after : List Event) (t : World) (active : Nat),
        system.Run System.anyAction {} as (before ++ .restarted active :: after) t →
          t.manager.defaultDisplayState = 2 → t.manager.screenOff = false →
            t.native.latch.activeEpoch = 0) := by
  have hexec : (system.exec System.anyAction {} restartAsleep).map
      (fun r => (r.2, r.1.manager.defaultDisplayState, r.1.manager.screenOff,
        r.1.native.latch.activeEpoch)) =
      some ([.requested 1, .published 1 {} 0 true, .screenOff 1 true {} (some .accepted)] ++
        .restarted 1 :: ([.requested 1] ++ .published 1 {} 1 false :: []), 2, false, 1) := by
    decide
  obtain ⟨⟨t, log⟩, hr, heq⟩ := Option.map_eq_some_iff.mp hexec
  simp only [Prod.mk.injEq] at heq
  obtain ⟨rfl, hdisplay, hon, hactive⟩ := heq
  have hrun := System.Run.of_exec hr
  constructor
  · intro hall
    have haccepted := hall _ _ _ _ _ hrun [.requested 1] 1 {} 1 false [] rfl (by simp)
      ⟨rfl, rfl⟩ rfl
    cases haccepted
  · intro hall
    have hzero := hall _ _ _ _ _ hrun hdisplay hon
    rw [hactive] at hzero
    cases hzero

end EinkLab.SleepImageManager
