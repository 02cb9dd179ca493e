import EinkLab.LowerEngine.Equiv.Parts

/-!
# Backend uncertainty is terminal

Every early return of `Submit` after an engine update leaves the backend poisoned, and a poisoned
backend makes no update; so what the engine did not clearly accept is never followed by another
update.  Within one `Submit` a second update is made only as the target of a white that was accepted
and observed started, and with consecutive markers (`PairGuard`).

The parts of `Submit` are followed in order: up to the first update nothing has happened (`Before`),
then a white may have been accepted (`WhiteAccepted`) and observed started (`WhiteStarted`).
-/

namespace EinkLab.LowerEngine

open Transition Procedure

/-! ### Reading the calls -/

/-- The engine updates among the calls, with their results. -/
def updates (calls : List VendorEvent) : List (UpdateArguments × Int) :=
  calls.filterMap fun
    | ⟨.update arguments, result⟩ => some (arguments, result)
    | _ => none

/-- The last reading of the marker of the newest update. -/
def lastMarker (calls : List VendorEvent) : Option UInt32 :=
  (calls.filterMap fun
    | ⟨.submittedMarker, marker⟩ => some marker
    | _ => none).getLast?

@[simp] theorem updates_nil : updates [] = [] := rfl

@[simp] theorem updates_append (l l' : List VendorEvent) :
    updates (l ++ l') = updates l ++ updates l' := List.filterMap_append

theorem updates_cons_silent {e : VendorEvent} (he : e.1.isUpdate = false)
    (l : List VendorEvent) : updates (e :: l) = updates l := by
  obtain ⟨o, r⟩ := e
  cases o <;> first | rfl | cases he

@[simp] theorem updates_cons_update (a : UpdateArguments) (r : Int) (l : List VendorEvent) :
    updates (⟨.update a, r⟩ :: l) = (a, r) :: updates l := rfl

@[simp] theorem updates_unlock (handle : Option GraphicBuffer) :
    updates (handle.toList.map fun buffer => ⟨.unlock buffer, ()⟩) = [] := by
  cases handle <;> rfl

@[simp] theorem lastMarker_append_marker (l : List VendorEvent) (marker : UInt32) :
    lastMarker (l ++ [⟨.submittedMarker, marker⟩]) = some marker := by
  simp [lastMarker]

/-! ### The pair -/

/-- A white was accepted as the first update, and its marker is the successor of the one read
before it. -/
def WhiteAccepted (marker : UInt32) (calls : List VendorEvent) : Prop :=
  ∃ pre arguments mid before,
    calls = pre ++ ⟨.update arguments, kObservedUpdateAcceptedResult⟩ :: mid ∧
    updates pre = [] ∧ updates mid = [] ∧ lastMarker pre = some before ∧
    canTrackNextEngineMarker before = true ∧ marker = before + 1

/-- The white's marker was read as submitted and as displaying after the white's return. -/
def WhiteStarted (marker : UInt32) (calls : List VendorEvent) : Prop :=
  ∃ pre arguments mid before x y,
    calls = pre ++ ⟨.update arguments, kObservedUpdateAcceptedResult⟩ :: mid ∧
    updates pre = [] ∧ updates mid = [] ∧ lastMarker pre = some before ∧
    canTrackNextEngineMarker before = true ∧ marker = before + 1 ∧
    mid = x ++ ⟨.submittedMarker, marker⟩ :: ⟨.displayingMarker, marker⟩ :: y

/-- The marker that was read last is still the one of the started white, and the next one can be
tracked. -/
def PairReady (calls : List VendorEvent) : Prop :=
  ∃ marker, WhiteStarted marker calls ∧ lastMarker calls = some marker ∧
    canTrackNextEngineMarker marker = true

/-- An update is the first one, or the target of a pair that is ready for it. -/
def PairGuard (pre : List VendorEvent) (e : VendorEvent) : Prop :=
  e.1.isUpdate = true → updates pre = [] ∨ PairReady pre

/-- The assertions about the calls that no call but an update can break. -/
def Silent (I : List VendorEvent → Prop) : Prop :=
  ∀ h o (r : VendorAnswer o), o.isUpdate = false → I h → I (h ++ [⟨o, r⟩])

theorem silent_updates_nil : Silent fun h => updates h = [] := by
  intro h o r ho hq
  rw [updates_append, hq, updates_cons_silent ho]
  rfl

theorem silent_guarded : Silent (EachEvent PairGuard) := by
  intro h o r ho hg
  refine eachEvent_append_singleton.mpr ⟨hg, fun hu => ?_⟩
  exact absurd (hu.symm.trans ho) (by decide)

theorem silent_whiteAccepted (marker : UInt32) : Silent (WhiteAccepted marker) := by
  rintro h o r ho ⟨pre, a, mid, before, rfl, hpre, hmid, hlast, htrack, hm⟩
  exact ⟨pre, a, mid ++ [⟨o, r⟩], before, by simp, hpre,
    by simp [hmid, updates_cons_silent (e := ⟨o, r⟩) ho], hlast, htrack, hm⟩

theorem silent_whiteStarted (marker : UInt32) : Silent (WhiteStarted marker) := by
  rintro h o r ho ⟨pre, a, mid, before, x, y, rfl, hpre, hmid, hlast, htrack, hm, hxy⟩
  exact ⟨pre, a, mid ++ [⟨o, r⟩], before, x, y ++ [⟨o, r⟩], by simp, hpre,
    by simp [hmid, updates_cons_silent (e := ⟨o, r⟩) ho], hlast, htrack, hm, by simp [hxy]⟩

theorem Silent.unlock {I : List VendorEvent → Prop} (hI : Silent I) {h : List VendorEvent}
    (handle : Option GraphicBuffer) (hh : I h) :
    I (h ++ handle.toList.map fun buffer => ⟨.unlock buffer, ()⟩) := by
  cases handle with
  | none => simpa using hh
  | some buffer => exact hI h (.unlock buffer) () rfl hh

/-- One poll of the marker loop. -/
theorem Silent.poll {I : List VendorEvent → Prop} (hI : Silent I) {h : List VendorEvent}
    (submitted displaying : UInt32) (passed : Nat) (hh : I h) :
    I (h ++ [⟨.submittedMarker, submitted⟩, ⟨.displayingMarker, displaying⟩, ⟨.now, passed⟩]) := by
  have h₁ := hI _ .submittedMarker submitted rfl hh
  have h₂ := hI _ .displayingMarker displaying rfl h₁
  have h₃ := hI _ .now passed rfl h₂
  simpa using h₃

/-- Without an update every call is guarded. -/
theorem guarded_of_quiet {h : List VendorEvent} (hq : updates h = []) : EachEvent PairGuard h := by
  rintro pre e post rfl -
  rw [updates_append, List.append_eq_nil_iff] at hq
  exact Or.inl hq.1

theorem guarded_append_update {h : List VendorEvent} (hg : EachEvent PairGuard h)
    (hready : updates h = [] ∨ PairReady h) (a : UpdateArguments) (r : Int) :
    EachEvent PairGuard (h ++ [⟨.update a, r⟩]) :=
  eachEvent_append_singleton.mpr ⟨hg, fun _ => hready⟩

/-! ### What an early return leaves behind -/

/-- An early return: the calls are guarded, and after an update the backend is poisoned. -/
def Uncertain : Assertion VendorCall VendorAnswer Backend := fun h b =>
  EachEvent PairGuard h ∧ (updates h ≠ [] → b.state = .poisoned)

/-- No update has been made, and the backend is ready for one. -/
def Before : Assertion VendorCall VendorAnswer Backend := fun h b =>
  updates h = [] ∧ b.state = .initialized

theorem uncertain_of_quiet {h : List VendorEvent} (hq : updates h = []) (b : Backend) :
    Uncertain h b :=
  ⟨guarded_of_quiet hq, fun hne => absurd hq hne⟩

theorem uncertain_of_poisoned {h : List VendorEvent} {b : Backend} (hg : EachEvent PairGuard h)
    (hb : b.state = .poisoned) : Uncertain h b :=
  ⟨hg, fun _ => hb⟩

/-! ### Parts without an update -/

/-- None of the calls is an update. -/
def NoUpdate (l : List VendorEvent) : Prop := ∀ e ∈ l, e.1.isUpdate = false

theorem Silent.append {I : List VendorEvent → Prop} (hI : Silent I) {h l : List VendorEvent}
    (hl : NoUpdate l) (hh : I h) : I (h ++ l) := by
  induction l generalizing h with
  | nil => rwa [List.append_nil]
  | cons e l ih =>
    have hhead : I (h ++ [e]) := hI h e.1 e.2 (hl e List.mem_cons_self) hh
    have hrest := ih (fun x hx => hl x (List.mem_cons_of_mem e hx)) hhead
    rwa [List.append_assoc] at hrest

/-- The part makes no update and keeps the backend's state. -/
def Calm : BackendEffect := fun b l b' => NoUpdate l ∧ b'.state = b.state

/-- An early return without an update; `P` is what it leaves. -/
def Leaving (P : Backend → Prop) : BackendEffect := fun _ l b' => NoUpdate l ∧ P b'

theorem noUpdate_nil : NoUpdate [] := fun _ he => absurd he List.not_mem_nil

theorem noUpdate_append {l l' : List VendorEvent} (h : NoUpdate l) (h' : NoUpdate l') :
    NoUpdate (l ++ l') := by
  intro e he
  rcases List.mem_append.mp he with he | he
  · exact h e he
  · exact h' e he

theorem noUpdate_singleton {o : VendorCall} (ho : o.isUpdate = false) (r : VendorAnswer o) :
    NoUpdate [⟨o, r⟩] := by
  intro e he
  rw [List.mem_singleton.mp he]
  exact ho

section Calm

variable {P : Backend → Prop}

theorem passive_calm : Passive (Leaving P) Calm := by
  refine ⟨⟨fun _ => ⟨noUpdate_nil, rfl⟩, ?_, ?_⟩, fun _ _ => ⟨noUpdate_singleton rfl _, rfl⟩,
    fun _ _ _ => ⟨noUpdate_singleton rfl _, rfl⟩, fun _ _ => ⟨noUpdate_singleton rfl _, rfl⟩,
    fun _ _ => ⟨noUpdate_singleton rfl _, rfl⟩, fun _ _ => ⟨noUpdate_singleton rfl _, rfl⟩⟩
  · rintro _ l _ l' _ ⟨hl, hs⟩ ⟨hl', hs'⟩
    exact ⟨noUpdate_append hl hl', hs'.trans hs⟩
  · rintro _ l _ l' _ ⟨hl, -⟩ ⟨hl', hP⟩
    exact ⟨noUpdate_append hl hl', hP⟩

theorem chains_calm : Chains (Leaving P) Calm := passive_calm.toChains

theorem allows_calm {o : VendorCall} (ho : o.isUpdate = false) : Allows Calm o :=
  fun _ r => ⟨noUpdate_singleton ho r, rfl⟩

theorem reads_calm (o : VendorCall) (ho : o.isProperty = true) : Allows Calm o := by
  refine allows_calm ?_
  cases o <;> first | rfl | cases ho

theorem tunes_calm (o : VendorCall) (ho : o.isTuning = true) : Allows Calm o :=
  reads_calm o (VendorCall.isProperty_of_isTuning ho)

theorem unlocks_calm (buffer : GraphicBuffer) : Allows Calm (.unlock buffer) := allows_calm rfl

theorem fills_calm : FillsPlanes Calm := fun _ _ _ _ _ => ⟨noUpdate_nil, rfl⟩

theorem permits_calm {g : Backend → Backend} (hg : ∀ b, (g b).state = b.state) : Permits Calm g :=
  fun b => ⟨noUpdate_nil, hg b⟩

theorem permits_leaving {g : Backend → Backend} (hg : ∀ b, P (g b)) : Permits (Leaving P) g :=
  fun b => ⟨noUpdate_nil, hg b⟩

abbrev IsCalm {α : Type} (P : Backend → Prop) (m : Submission α) : Prop := Does (Leaving P) Calm m

/-- Mapping a plane to the panel fails only as the caller asks. -/
theorem calm_mapColor {handle : Option GraphicBuffer} {input : List UInt8}
    {g : Backend → Backend} (hg : ∀ b, P (g b)) : IsCalm P (mapColor handle input g) :=
  does_mapColor chains_calm (fun _ => allows_calm rfl) (fun _ => allows_calm rfl) fills_calm
    (does_refuseUnlocked chains_calm unlocks_calm (permits_leaving hg))

theorem calm_sleepUntil {q : Bool} (deadline : TimePoint) :
    IsCalm P (onlyIf q (sleepUntil deadline)) :=
  Does.onlyIf chains_calm (does_sleepUntil passive_calm deadline)

end Calm

/-! ### Up to the first update -/

section Before

variable {p : EinkDeviceProfile} {frame : Frame} {c : Configuration} {h : List VendorEvent}
  {b : Backend} {α : Type} {m : Submission α}

/-- An early return without conditions. -/
def Any : Backend → Prop := fun _ => True

theorem any (g : Backend → Backend) (b : Backend) : Any (g b) := trivial

theorem refuses_any : Refuses (Leaving Any) := fun _ _ _ _ => ⟨noUpdate_nil, trivial⟩

/-- A calm part may come before the first update. -/
theorem IsCalm.before (hm : IsCalm Any m) (hb : Before h b) :
    m.Sat Uncertain (fun _ => Before) h b := by
  refine hm.sat (fun l b' hl => ?_) fun _ l b' hl => ?_
  · exact uncertain_of_quiet (silent_updates_nil.append hl.1 hb.1) b'
  · exact ⟨silent_updates_nil.append hl.1 hb.1, hl.2.trans hb.2⟩

theorem IsCalm.before_bind {β : Type} {f : α → Submission β}
    {Q : β → Assertion VendorCall VendorAnswer Backend} (hm : IsCalm Any m) (hb : Before h b)
    (hf : ∀ a h b, Before h b → (f a).Sat Uncertain Q h b) : (m >>= f).Sat Uncertain Q h b := by
  rw [sat_bind]
  exact (hm.before hb).mono (fun _ _ hu => hu) hf

/-- Any refusal is harmless as long as there was no update. -/
theorem sat_refuseUnlocked_before {handle : Option GraphicBuffer} {g : Backend → Backend}
    {Q : α → Assertion VendorCall VendorAnswer Backend} (hb : Before h b) :
    (refuseUnlocked handle g : Submission α).Sat Uncertain Q h b := by
  rw [sat_refuseUnlocked]
  exact uncertain_of_quiet (by simpa using hb.1) _

theorem sat_entryChecks (hq : updates h = []) :
    (entryChecks p frame).Sat Uncertain (fun _ => Before) h b := by
  unfold entryChecks
  rw [sat_bind, sat_get, sat_bind, sat_refuseIf]
  refine ⟨fun _ => uncertain_of_quiet hq _, fun hcond => ?_⟩
  have hstate : b.state = .initialized := by
    simp only [Bool.or_eq_false_iff, decide_eq_false_iff_not, not_not] at hcond
    exact hcond.1
  have hc : Chains (Leaving Any) Calm := chains_calm
  have hrefuse {q : Bool} {g : Backend → Backend} : IsCalm Any (refuseIf q g) :=
    Does.refuseIf hc (permits_leaving (any g))
  refine IsCalm.before ?_ ⟨hq, hstate⟩
  refine Does.bind hc (Does.call (reads_calm _ rfl)) fun _ => Does.bind hc hrefuse fun _ => ?_
  refine Does.bind hc (Does.call (reads_calm _ rfl)) fun _ => Does.bind hc hrefuse fun _ => ?_
  refine Does.bind hc (does_activeSubmissionLimit hc reads_calm) fun _ => ?_
  refine Does.bind hc hrefuse fun _ => Does.bind hc (does_now passive_calm) fun _ => ?_
  exact Does.bind hc (does_minimumSubmissionInterval hc reads_calm) fun _ => hrefuse

theorem calm_loadConfiguration : IsCalm Any (loadConfiguration frame) :=
  does_loadConfiguration chains_calm (allows_calm rfl) (allows_calm rfl) (allows_calm rfl)
    fun _ _ _ _ _ => ⟨noUpdate_nil, rfl⟩

theorem calm_selectEnvelope : IsCalm Any (selectEnvelope p frame) :=
  does_selectEnvelope chains_calm refuses_any

theorem calm_arrangeGrayscale : IsCalm Any (arrangeGrayscale p frame) :=
  does_arrangeGrayscale chains_calm refuses_any fills_calm

theorem calm_acquireColor : IsCalm Any (acquireColor p frame) :=
  does_acquireColor chains_calm refuses_any (fun _ => allows_calm rfl) unlocks_calm
    fun _ => permits_calm fun _ => rfl

theorem calm_prepareWhite : IsCalm Any (prepareWhite frame c) :=
  does_prepareWhite chains_calm tunes_calm fills_calm

theorem calm_planGaps : IsCalm Any (planGaps frame c) := does_planGaps chains_calm tunes_calm

end Before

/-! ### The white update -/

section White

variable {p : EinkDeviceProfile} {frame : Frame} {c : Configuration} {h : List VendorEvent}
  {b : Backend}

/-- The calls are guarded, and the backend is still initialized. -/
def Guarded : Assertion VendorCall VendorAnswer Backend := fun h b =>
  EachEvent PairGuard h ∧ b.state = .initialized

/-- What the target update finds: no update yet, or an accepted white. -/
def Paired (white : Option White) : Assertion VendorCall VendorAnswer Backend := fun h b =>
  match white with
  | none => Before h b
  | some white => Guarded h b ∧ WhiteAccepted white.marker h

theorem before_guarded (hb : Before h b) : Guarded h b := ⟨guarded_of_quiet hb.1, hb.2⟩

theorem uncertain_unlock {handle : Option GraphicBuffer} (hg : EachEvent PairGuard h)
    (hp : b.state = .poisoned) :
    Uncertain (h ++ handle.toList.map fun buffer => ⟨.unlock buffer, ()⟩) b :=
  uncertain_of_poisoned (silent_guarded.unlock handle hg) hp

/-- After an update, a calm part leaves the backend poisoned or goes on. -/
theorem IsCalm.guarded {α : Type} {m : Submission α} {I : List VendorEvent → Prop}
    (hm : IsCalm (fun b => b.state = .poisoned) m) (hS : Silent I) (hg : Guarded h b) (hI : I h) :
    m.Sat Uncertain (fun _ h' b' => Guarded h' b' ∧ I h') h b := by
  refine hm.sat (fun l b' hl => ?_) fun _ l b' hl => ?_
  · exact uncertain_of_poisoned (silent_guarded.append hl.1 hg.1) hl.2
  · exact ⟨⟨silent_guarded.append hl.1 hg.1, hl.2.trans hg.2⟩, hS.append hl.1 hI⟩

/-- Whatever the profile, `InvokeUpdate` is one engine update. -/
theorem invokeUpdate_eq (handle : Option GraphicBuffer) (mapped : Option (List UInt8))
    (gray : List UInt8) (envelope : ObservedUpdateEnvelope) :
    ∃ arguments, invokeUpdate p handle mapped gray envelope = update arguments := by
  unfold invokeUpdate
  split
  · exact ⟨_, rfl⟩
  · exact ⟨_, rfl⟩

/-- A white is the first update; unless it is clearly accepted the backend is poisoned. -/
theorem sat_submitWhite {handle : Option GraphicBuffer} {gaps : QualityGaps} (hb : Before h b) :
    (submitWhite p frame handle gaps).Sat Uncertain (fun white => Paired (some white)) h b := by
  unfold submitWhite
  rw [sat_bind, sat_get]
  have hlimit : IsCalm Any (activeSubmissionLimit p) :=
    does_activeSubmissionLimit chains_calm reads_calm
  refine hlimit.before_bind hb fun limit h₁ b₁ hb₁ => ?_
  rw [sat_ite]
  refine ⟨fun _ => sat_refuseUnlocked_before hb₁, fun _ => ?_⟩
  refine (calm_mapColor (any _)).before_bind hb₁ ?_
  rintro ⟨mapped, gray⟩ h₂ b₂ hb₂
  refine (calm_sleepUntil _).before_bind hb₂ fun _ h₃ b₃ hb₃ => ?_
  have hnow : IsCalm Any now := does_now passive_calm
  refine hnow.before_bind hb₃ fun _ h₄ b₄ hb₄ => ?_
  rw [sat_bind, sat_submittedMarker]
  intro before
  have hb₅ : Before (h₄ ++ [⟨.submittedMarker, before⟩]) b₄ :=
    ⟨silent_updates_nil _ .submittedMarker before rfl hb₄.1, hb₄.2⟩
  rw [sat_ite]
  refine ⟨fun _ => sat_refuseUnlocked_before hb₅, fun htrack => ?_⟩
  -- the white update, right after its marker was read
  obtain ⟨arguments, hinvoke⟩ := invokeUpdate_eq (p := p) handle (some mapped) gray ⟨3, 0, 0⟩
  rw [hinvoke, sat_bind, sat_update]
  intro result
  have hg : EachEvent PairGuard (h₄ ++ [⟨.submittedMarker, before⟩] ++
    [⟨.update arguments, result⟩]) :=
    guarded_append_update (guarded_of_quiet hb₅.1) (Or.inl hb₅.1) _ _
  rw [sat_bind, sat_now]
  intro passed
  rw [sat_bind, sat_modify, sat_ite]
  refine ⟨fun _ => ?_, fun haccepted => ?_⟩
  · rw [sat_refuseUnlocked]
    exact uncertain_unlock (silent_guarded _ .now passed rfl hg) rfl
  · rw [sat_bind, sat_modify, sat_pure]
    obtain rfl := of_not_not haccepted
    refine ⟨⟨silent_guarded _ .now passed rfl hg, hb₅.2⟩, ?_⟩
    refine ⟨_, arguments, [⟨.now, passed⟩], before, by simp, hb₅.1, rfl, by simp, ?_, rfl⟩
    simpa using htrack

theorem sat_prepareColorTarget (hb : Before h b) :
    (prepareColorTarget p frame c).Sat Uncertain (fun target => Paired target.white) h b := by
  unfold prepareColorTarget
  refine calm_acquireColor.before_bind hb fun handle h₁ b₁ hb₁ => ?_
  have htreat : IsCalm Any (modify (treatColor c)) := Does.modify (permits_calm fun _ => rfl)
  refine htreat.before_bind hb₁ fun _ h₂ b₂ hb₂ => ?_
  refine calm_prepareWhite.before_bind hb₂ fun whitened h₃ b₃ hb₃ => ?_
  rw [sat_ite]
  refine ⟨fun _ => ?_, fun _ => ?_⟩
  · rw [sat_bind, sat_get]
    exact (calm_mapColor (any _)).before_bind hb₃ fun _ _ _ hb₄ => hb₄
  · refine calm_planGaps.before_bind hb₃ fun gaps h₄ b₄ hb₄ => ?_
    rw [sat_bind]
    refine (sat_submitWhite hb₄).mono (fun _ _ hu => hu) ?_
    rintro white h₅ b₅ ⟨hg, hw⟩
    rw [sat_bind, sat_get, sat_bind]
    refine (IsCalm.guarded (calm_mapColor ?_) (silent_whiteAccepted _) hg hw).mono
      (fun _ _ hu => hu) ?_
    · exact fun _ => rfl
    rintro _ h₆ b₆ hpaired
    exact hpaired

theorem sat_prepareTarget (hb : Before h b) :
    (prepareTarget p frame c).Sat Uncertain (fun target => Paired target.white) h b := by
  refine calm_arrangeGrayscale.before_bind hb fun gray h₁ b₁ hb₁ => ?_
  rw [sat_ite]
  exact ⟨fun _ => sat_prepareColorTarget hb₁, fun _ => hb₁⟩

end White

/-! ### The target update -/

section Target

variable {p : EinkDeviceProfile} {frame : Frame} {target : Target} {h : List VendorEvent}
  {b : Backend}

/-- What the target's marker is read after: no update yet, or a white that was seen started. -/
def Started (white : Option White) : Assertion VendorCall VendorAnswer Backend := fun h b =>
  match white with
  | none => Before h b
  | some white => Guarded h b ∧ WhiteStarted white.marker h

theorem started_of_calm {α : Type} {m : Submission α} {white : Option White}
    (hm : ∀ P, IsCalm P m) (hs : Started white h b) :
    m.Sat Uncertain (fun _ => Started white) h b := by
  cases white with
  | none => exact (hm Any).before hs
  | some white => exact (hm _).guarded (silent_whiteStarted _) hs.1 hs.2

theorem whiteStarted_of_accepted {marker displaying : UInt32} {passed : Nat}
    (hw : WhiteAccepted marker h) (hd : displaying = marker) :
    WhiteStarted marker (h ++ [⟨.submittedMarker, marker⟩, ⟨.displayingMarker, displaying⟩,
      ⟨.now, passed⟩]) := by
  obtain ⟨pre, a, mid, before, rfl, hpre, hmid, hlast, htrack, hm⟩ := hw
  refine ⟨pre, a, mid ++ [⟨.submittedMarker, marker⟩, ⟨.displayingMarker, displaying⟩,
    ⟨.now, passed⟩], before, mid, [⟨.now, passed⟩], by simp, hpre, ?_, hlast, htrack, hm, ?_⟩
  · rw [updates_append, hmid]
    rfl
  · rw [hd]

/-- The target of a pair waits until its white is seen started, or the backend is poisoned. -/
theorem sat_awaitWhite (hp : Paired target.white h b) :
    (awaitWhite target).Sat Uncertain (fun _ => Started target.white) h b := by
  unfold awaitWhite
  cases hwhite : target.white with
  | none =>
    rw [hwhite] at hp
    exact hp
  | some white =>
    rw [hwhite] at hp
    obtain ⟨hg, hw⟩ := hp
    dsimp only
    rw [sat_bind]
    have hinterval : IsCalm (fun b => b.state = .poisoned) minimumSubmissionInterval :=
      does_minimumSubmissionInterval chains_calm reads_calm
    refine (hinterval.guarded (silent_whiteAccepted _) hg hw).mono (fun _ _ hu => hu) ?_
    rintro interval h₁ b₁ ⟨hg₁, hw₁⟩
    rw [sat_bind, sat_get, sat_bind]
    have hslept (deadline : TimePoint) :
        IsCalm (fun b => b.state = .poisoned) (sleepUntil deadline) :=
      does_sleepUntil passive_calm deadline
    refine ((hslept _).guarded (silent_whiteAccepted _) hg₁ hw₁).mono (fun _ _ hu => hu) ?_
    rintro - h₂ b₂ ⟨hg₂, hw₂⟩
    rw [sat_bind]
    refine sat_waitForMarkerStart
      (I := fun h b => Guarded h b ∧ WhiteAccepted white.marker h) ⟨hg₂, hw₂⟩ ?_
    rintro h₃ b₃ submitted displaying passed ⟨hg₃, hw₃⟩ h'
    have hg' : EachEvent PairGuard h' := silent_guarded.poll _ _ _ hg₃.1
    have hw' : WhiteAccepted white.marker h' := (silent_whiteAccepted _).poll _ _ _ hw₃
    refine ⟨fun _ hnext hdisplaying => ?_, ?_, fun overshoot => ?_⟩
    · obtain rfl : submitted = white.marker := hnext.trans (UInt32.sub_add_cancel _ _)
      exact ⟨⟨hg', hg₃.2⟩, whiteStarted_of_accepted hw₃ hdisplaying⟩
    · rw [sat_ite]
      refine ⟨nofun, fun _ => ?_⟩
      rw [sat_refuseUnlocked]
      exact uncertain_unlock hg' rfl
    · exact ⟨⟨silent_guarded _ (.sleepFor _) overshoot rfl hg', hg₃.2⟩,
        silent_whiteAccepted _ _ (.sleepFor _) overshoot rfl hw'⟩

/-- The target's marker is read right before its update, and must still be the white's. -/
theorem sat_readTargetMarker (hs : Started target.white h b) :
    (readTargetMarker target).Sat Uncertain
      (fun _ h b => Guarded h b ∧ (updates h = [] ∨ PairReady h)) h b := by
  unfold readTargetMarker
  cases hwhite : target.white with
  | none =>
    rw [hwhite] at hs
    exact ⟨before_guarded hs, Or.inl hs.1⟩
  | some white =>
    rw [hwhite] at hs
    obtain ⟨hg, hw⟩ := hs
    dsimp only
    rw [sat_bind, sat_submittedMarker]
    intro before
    have hg' := silent_guarded _ .submittedMarker before rfl hg.1
    rw [sat_ite]
    refine ⟨fun _ => ?_, fun hcond => ?_⟩
    · rw [sat_refuseUnlocked]
      exact uncertain_unlock hg' rfl
    · simp only [Bool.or_eq_true, decide_eq_true_eq, Bool.not_eq_true', not_or, not_not,
        Bool.not_eq_false] at hcond
      obtain ⟨rfl, htrack⟩ := hcond
      exact ⟨⟨hg', hg.2⟩, Or.inr ⟨_, silent_whiteStarted _ _ .submittedMarker _ rfl hw,
        lastMarker_append_marker _ _, htrack⟩⟩

/-- Unless the target is clearly accepted the backend is poisoned. -/
theorem sat_submitTarget {envelope : ObservedUpdateEnvelope} (hs : Started target.white h b) :
    (submitTarget p frame target envelope).Sat Uncertain (fun _ => Guarded) h b := by
  unfold submitTarget
  rw [sat_bind]
  refine (started_of_calm (fun _ => does_now passive_calm) hs).mono (fun _ _ hu => hu) ?_
  rintro - h₁ b₁ hs₁
  rw [sat_bind]
  refine (sat_readTargetMarker hs₁).mono (fun _ _ hu => hu) ?_
  rintro before h₂ b₂ ⟨hg₂, hready⟩
  obtain ⟨arguments, hinvoke⟩ :=
    invokeUpdate_eq (p := p) target.composeHandle target.mappedRgba target.gray envelope
  rw [hinvoke, sat_bind, sat_update]
  intro result
  -- from here on the panel may show the target, whatever the call returned
  have hg₃ : Guarded (h₂ ++ [⟨.update arguments, result⟩]) b₂ :=
    ⟨guarded_append_update hg₂.1 hready _ _, hg₂.2⟩
  rw [sat_bind]
  have hnow : IsCalm (fun b => b.state = .poisoned) now := does_now passive_calm
  refine (hnow.guarded silent_guarded hg₃ hg₃.1).mono (fun _ _ hu => hu) ?_
  rintro returned h₄ b₄ ⟨hg₄, -⟩
  rw [sat_bind]
  have hunlock : IsCalm (fun b => b.state = .poisoned)
      (onlyIf (p.variant = .auraC) (unlockHandle target.composeHandle)) :=
    Does.onlyIf chains_calm (does_unlockHandle chains_calm unlocks_calm _)
  refine (hunlock.guarded silent_guarded hg₄ hg₄.1).mono (fun _ _ hu => hu) ?_
  rintro - h₅ b₅ ⟨hg₅, -⟩
  rw [sat_bind, sat_modify, sat_bind, sat_refuseIf]
  refine ⟨fun _ => uncertain_of_poisoned hg₅.1 rfl, fun _ => ⟨hg₅.1, ?_⟩⟩
  dsimp only
  split
  · exact hg₅.2
  · exact hg₅.2

/-- A target that is not seen started poisons the backend. -/
theorem sat_awaitTarget {submitted : White} (hg : Guarded h b) :
    (awaitTarget target submitted).Sat Uncertain (fun _ => Guarded) h b := by
  unfold awaitTarget onlyIf
  rw [sat_ite]
  refine ⟨fun _ => ?_, fun _ => hg⟩
  rw [sat_bind]
  refine sat_waitForMarkerStart (I := Guarded) hg ?_
  rintro h₁ b₁ submitted displaying passed hg₁ h'
  have hpoll : EachEvent PairGuard h' := silent_guarded.poll _ _ _ hg₁.1
  refine ⟨fun _ _ _ => ⟨hpoll, hg₁.2⟩, uncertain_of_poisoned hpoll rfl, fun overshoot => ?_⟩
  exact ⟨silent_guarded _ (.sleepFor _) overshoot rfl hpoll, hg₁.2⟩

theorem sat_acceptTarget {c : Configuration} {started : TimePoint} {submitted : White}
    (hg : Guarded h b) :
    (acceptTarget p frame c started target submitted).Sat Uncertain (fun _ => Guarded) h b := by
  unfold acceptTarget
  rw [onlyIf, sat_ite]
  refine ⟨fun _ => ?_, fun _ => hg⟩
  rw [sat_bind]
  refine (sat_awaitTarget hg).mono (fun _ _ hu => hu) ?_
  rintro - h₁ b₁ hg₁
  have hrest : IsCalm (fun b => b.state = .poisoned) (do
      modify fun b =>
        if c.qualityEnabled && frame.sleepImageEpoch = 0 then
          { b with qualityHistory := b.qualityHistory.accept b.colorInput }
        else b.resetQualityHistory
      onlyIf target.white.isSome do
        let time ← now
        modify fun b => { b with
          qualitySequences := b.qualitySequences + 1
          qualityWhitenedPixels := target.whitenedPixels
          latestQualityNs := time - started }) := by
    have hc : Chains (Leaving fun b => b.state = .poisoned) Calm := chains_calm
    refine Does.bind hc (Does.modify (permits_calm fun b => ?_)) fun _ => Does.onlyIf hc <|
      Does.bind hc (does_now passive_calm) fun _ => Does.modify (permits_calm fun _ => rfl)
    split <;> rfl
  refine (hrest.guarded silent_guarded hg₁ hg₁.1).mono (fun _ _ hu => hu) ?_
  rintro - h₂ b₂ ⟨hg₂, -⟩
  exact hg₂

/-- Nothing is refused any more. -/
theorem sat_finish {returned : TimePoint} (hg : Guarded h b) :
    (finish p frame target returned).Sat Uncertain (fun _ h _ => EachEvent PairGuard h) h b := by
  unfold finish
  rw [sat_bind]
  refine ((calm_sleepUntil _).guarded silent_guarded hg hg.1).mono (fun _ _ hu => hu) ?_
  rintro - h₁ b₁ ⟨hg₁, -⟩
  rw [sat_bind, sat_now]
  intro passed
  rw [sat_bind, sat_modify, sat_bind, sat_continuousModeEnabled]
  intro continuous
  rw [sat_modify]
  exact silent_guarded _ (.boolProperty _ _) continuous rfl
    (silent_guarded _ .now passed rfl hg₁.1)

end Target

/-! ### `Submit` and its runs -/

section Submit

variable {p : EinkDeviceProfile} {frame : Frame} {b t : Backend}

/-- **One `Submit`**: its updates are guarded, and if it refuses after an update, the backend is
poisoned. -/
theorem sat_submit :
    (submit p frame).Sat Uncertain (fun _ h _ => EachEvent PairGuard h) [] b := by
  unfold submit
  rw [sat_bind]
  refine (sat_entryChecks updates_nil).mono (fun _ _ hu => hu) fun _ h₁ b₁ hb₁ => ?_
  have hnow : IsCalm Any now := does_now passive_calm
  refine hnow.before_bind hb₁ fun started h₂ b₂ hb₂ => ?_
  refine calm_loadConfiguration.before_bind hb₂ fun c h₃ b₃ hb₃ => ?_
  refine calm_selectEnvelope.before_bind hb₃ fun envelope h₄ b₄ hb₄ => ?_
  rw [sat_bind]
  refine (sat_prepareTarget hb₄).mono (fun _ _ hu => hu) fun target h₅ b₅ hp => ?_
  rw [sat_bind]
  refine (sat_awaitWhite hp).mono (fun _ _ hu => hu) fun _ h₆ b₆ hs => ?_
  rw [sat_bind]
  refine (sat_submitTarget hs).mono (fun _ _ hu => hu) fun submitted h₇ b₇ hg₇ => ?_
  rw [sat_bind]
  exact (sat_acceptTarget hg₇).mono (fun _ _ hu => hu) fun _ _ _ hg₈ => sat_finish hg₈

/-- A poisoned backend refuses before any vendor call. -/
theorem sat_submit_poisoned (hb : b.state = .poisoned) :
    (submit p frame).Sat (fun h b' => h = [] ∧ b'.state = .poisoned) (fun _ _ _ => False) [] b := by
  unfold submit entryChecks
  rw [sat_bind, sat_bind, sat_get, sat_bind, sat_refuseIf]
  refine ⟨fun _ => ⟨rfl, hb⟩, fun hcond => ?_⟩
  simp [hb] at hcond

variable {a : SubmitAction} {evs : List Submitted}

/-- What one step of the system logs. -/
theorem step_cases (hs : (system p).step b a = some (t, evs)) :
    ∃ result, ((submit p a.frame).run b).replay a.calls = some (result, t) ∧
      evs = [⟨a.frame, a.calls, result.isSome⟩] := by
  obtain ⟨⟨result, t'⟩, hreplay, heq⟩ := Option.map_eq_some_iff.mp hs
  obtain ⟨rfl, rfl⟩ := Prod.mk.inj heq
  exact ⟨result, hreplay, rfl⟩

end Submit

/-- A `Submit` that updated the engine and returned false. -/
def Submitted.Uncertain (x : Submitted) : Prop := updates x.calls ≠ [] ∧ x.accepted = false

/-- **Backend uncertainty is terminal**: after a `Submit` that updated the engine and returned false
the backend is poisoned and no later `Submit` updates the engine; and within one `Submit` every
update but the first is the target of a white that was accepted and seen started, with the markers
the guard demands. -/
theorem uncertainty_is_terminal {p : EinkDeviceProfile} {b t : Backend} {as : List SubmitAction}
    {log : List Submitted} (hrun : (system p).Run System.anyAction b as log t) :
    (∀ x ∈ log, EachEvent PairGuard x.calls) ∧
    ∀ pre x post, log = pre ++ x :: post → x.Uncertain →
      t.state = .poisoned ∧ ∀ y ∈ post, updates y.calls = [] := by
  refine hrun.induct (fun _ log t => (∀ x ∈ log, EachEvent PairGuard x.calls) ∧
    ∀ pre x post, log = pre ++ x :: post → x.Uncertain →
      t.state = .poisoned ∧ ∀ y ∈ post, updates y.calls = []) ⟨by simp, by simp⟩ ?_
  rintro - log t a u evs ⟨hguarded, hterminal⟩ - hs
  obtain ⟨result, hreplay, rfl⟩ := step_cases hs
  obtain ⟨haccepted, hrefused⟩ := sat_replay sat_submit hreplay
  rw [List.nil_append] at haccepted hrefused
  refine ⟨fun x hx => ?_, fun pre x post hlog hx => ?_⟩
  · rcases List.mem_append.mp hx with hx | hx
    · exact hguarded x hx
    · obtain rfl := List.mem_singleton.mp hx
      cases result with
      | none => exact (hrefused rfl).1
      | some r => exact haccepted r rfl
  · rcases List.eq_nil_or_concat post with rfl | ⟨post', y, rfl⟩
    · -- the last `Submit` itself
      obtain ⟨-, hlast⟩ := List.append_inj' hlog rfl
      obtain rfl := List.head_eq_of_cons_eq hlast
      cases result with
      | none => exact ⟨(hrefused rfl).2 hx.1, by simp⟩
      | some r => exact absurd hx.2 (by simp)
    · -- an earlier one: the backend was already poisoned
      have hlog' : log ++ [⟨a.frame, a.calls, result.isSome⟩] = (pre ++ x :: post') ++ [y] := by
        simpa using hlog
      obtain ⟨hpre, hy⟩ := List.append_inj' hlog' rfl
      obtain rfl := List.head_eq_of_cons_eq hy
      obtain ⟨hpoisoned, hquiet⟩ := hterminal pre x post' hpre hx
      obtain ⟨hsome, hnone⟩ := sat_replay (sat_submit_poisoned hpoisoned) hreplay
      cases result with
      | some r => exact (hsome r rfl).elim
      | none =>
        obtain ⟨hcalls, hu⟩ := hnone rfl
        refine ⟨hu, fun z hz => ?_⟩
        rw [List.concat_eq_append] at hz
        rcases List.mem_append.mp hz with hz | hz
        · exact hquiet z hz
        · obtain rfl := List.mem_singleton.mp hz
          have hnil : a.calls = [] := by simpa using hcalls
          simp [hnil]

/-! ### A refused white -/

/-- A colour panel of one pixel. -/
def pixelProfile : EinkDeviceProfile :=
  { auraCDeviceProfile with panelWidth := 1, panelHeight := 1 }

/-- A diagnostic pair of a black pixel. -/
def pixelFrame : Frame where
  sequence := 1
  composeBuffer := some (.android
    (some ⟨false, .rgba8888, 1, 1, ⟨0, some [0, 0, 0, 255], 4, 4⟩⟩) (some 1))
  grayscaleBuffer := some ⟨1, 1, [0]⟩
  dirtyRect := Rect.full 1 1
  engineMode := kObservedFullControlRecord
  diagnosticRefresh := .whiteThenTarget
  diagnosticRequest := 1

/-- An environment that refuses every update. -/
def refusingVendor : (o : VendorCall) → VendorAnswer o
  | .boolProperty _ defaultValue => defaultValue
  | .intProperty _ defaultValue => defaultValue
  | .qualityConfig | .grayConfig | .vividConfig => 0
  | .now | .sleepUntil _ | .sleepFor _ => (0 : Nat)
  | .lockAsync buffer => buffer.mapping
  | .unlock _ => ()
  | .mapVpcoa input => ((0 : Int), input)
  | .auraGray _ => [255]
  | .submittedMarker | .displayingMarker => (7 : UInt32)
  | .update _ => (-1 : Int)

/-- One that accepts every update of a finite mode: after `updates` of them the markers are that far
on, and a second passes before every reading of the clock. -/
def acceptingVendor (quality : UInt64) (updates : Nat) : (o : VendorCall) → VendorAnswer o
  | .qualityConfig => quality
  | .boolProperty name _ => name ≠ "debug.neo2.eink.continuous"
  | .update _ => kObservedUpdateAcceptedResult
  | .now => (10 ^ 9 : Nat)
  | .submittedMarker | .displayingMarker => UInt32.ofNat (7 + updates)
  | o => refusingVendor o

/-- A `Submit` to the accepting environment, with the calls it makes. -/
def submitAccepted (quality : UInt64) (b : Backend) (frame : Frame) :
    List VendorEvent × (Option Unit × Backend) :=
  ((submit pixelProfile frame).run b).driveFrom (acceptingVendor quality)
    (fun updates o => if o.isUpdate then updates + 1 else updates) b.submissions

theorem step_submitAccepted (quality : UInt64) (b : Backend) (frame : Frame) :
    (system pixelProfile).step b ⟨frame, (submitAccepted quality b frame).1⟩ =
      some ((submitAccepted quality b frame).2.2,
        [⟨frame, (submitAccepted quality b frame).1,
          (submitAccepted quality b frame).2.1.isSome⟩]) := by
  simp only [system, submitAccepted, Program.replay_driveFrom, Option.map_some]

def refusedPair : List VendorEvent × (Option Unit × Backend) :=
  ((submit pixelProfile pixelFrame).run { state := .initialized }).drive refusingVendor

/-- The refused white poisons the backend, and the next `Submit` calls nothing. -/
theorem uncertainty_is_terminal_of_refused_white :
    ∃ t, (system pixelProfile).Run System.anyAction { state := .initialized }
      [⟨pixelFrame, refusedPair.1⟩, ⟨pixelFrame, []⟩]
      [⟨pixelFrame, refusedPair.1, false⟩, ⟨pixelFrame, [], false⟩] t ∧ t.state = .poisoned := by
  have hfirst : (system pixelProfile).step { state := .initialized } ⟨pixelFrame, refusedPair.1⟩ =
      some (refusedPair.2.2, [⟨pixelFrame, refusedPair.1, refusedPair.2.1.isSome⟩]) := by
    simp only [system, refusedPair, Program.replay_drive, Option.map_some]
  have hrefused : refusedPair.2.1.isSome = false := by decide +kernel
  have hcalls : updates refusedPair.1 ≠ [] := by decide +kernel
  have hsecond : (system pixelProfile).step refusedPair.2.2 ⟨pixelFrame, []⟩ =
      some (refusedPair.2.2.countRejected, [⟨pixelFrame, [], false⟩]) := rfl
  rw [hrefused] at hfirst
  have hrun : (system pixelProfile).Run System.anyAction _ _ _ _ := .single trivial hfirst
  have hrun := hrun.trans (.single trivial hsecond)
  exact ⟨_, hrun, ((uncertainty_is_terminal hrun).2 [] _ _ rfl ⟨hcalls, rfl⟩).1⟩

end EinkLab.LowerEngine
