import EinkLab.LowerEngine.Equiv.Rules
import EinkLab.Transition.Effect

/-!
# What the parts of `Submit` do

A proof about a whole `Submit` chooses an effect of its own: which calls count, and what of the
backend is kept.  Where the effect allows the calls of a part (`Allows`) and permits its changes of
the backend (`Permits`), the part does it: there is one `does_*` for each part, about any such
effect.
-/

namespace EinkLab.LowerEngine

open Transition Procedure

/-! ### What an effect allows -/

abbrev BackendEffect := Effect VendorCall VendorAnswer Backend

/-- The call may be made, and leaves the backend as it is. -/
def Allows (R : BackendEffect) (o : VendorCall) : Prop := ∀ b r, R b [⟨o, r⟩] b

/-- The change may be made. -/
def Permits (R : BackendEffect) (g : Backend → Backend) : Prop := ∀ b, R b [] (g b)

/-- Time may pass, and the markers may be read. -/
structure Passive (E R : BackendEffect) : Prop extends Chains E R where
  now : ∀ (b : Backend) (passed : Nat),
    R b [⟨.now, passed⟩] { b with clock := b.clock + passed }
  sleepUntil : ∀ (b : Backend) (deadline : TimePoint) (overshoot : Nat),
    R b [⟨.sleepUntil deadline, overshoot⟩] { b with clock := max b.clock deadline + overshoot }
  sleepFor : ∀ (b : Backend) (overshoot : Nat),
    R b [⟨.sleepFor (2 * nsPerMs), overshoot⟩] { b with clock := b.clock + 2 * nsPerMs + overshoot }
  submittedMarker : Allows R .submittedMarker
  displayingMarker : Allows R .displayingMarker

/-- A refusal may count itself and change the state. -/
def Refuses (E : BackendEffect) : Prop :=
  ∀ (b : Backend) (state : BackendState) (rejected disarmed : Nat),
    E b [] { b with state := state, rejectedFrames := rejected, disarmedFrames := disarmed }

/-- The planes that one `Submit` works in may be filled. -/
def FillsPlanes (R : BackendEffect) : Prop :=
  ∀ (b : Backend) (arranged white output gray : List UInt8),
    R b [] { b with
      arrangedGrayscale := arranged, whiteInput := white
      colorOutput := output, colorGrayscale := gray }

/-- Nothing but counters, clock and state differs as far as colour goes. -/
structure KeepsColor (b b' : Backend) : Prop where
  history : b'.qualityHistory = b.qualityHistory
  quality : b'.qualityConfig = b.qualityConfig
  gray : b'.grayConfig = b.grayConfig
  vivid : b'.vividConfig = b.vividConfig
  input : b'.colorInput = b.colorInput

/-- The call reads a property. -/
def VendorCall.isProperty : VendorCall → Bool
  | .boolProperty _ _ | .intProperty _ _ => true
  | _ => false

/-- The call reads a property that neither limits nor spaces the updates. -/
def VendorCall.isTuning : VendorCall → Bool
  | .boolProperty name _ => name ≠ "debug.neo2.eink.continuous"
  | .intProperty name _ =>
    name ≠ "debug.neo2.eink.max_updates" && name ≠ "debug.neo2.eink.min_interval_ms"
  | _ => false

theorem VendorCall.isProperty_of_isTuning {o : VendorCall} (ho : o.isTuning = true) :
    o.isProperty = true := by
  cases o <;> first | rfl | cases ho

/-- An early return that does not happen. -/
theorem Passive.never {E R : BackendEffect} (hp : Passive E R) : Passive Never R :=
  { hp with toChains := hp.toChains.never }

section

variable {E E' R : BackendEffect} {p : EinkDeviceProfile} {frame : Frame} {c : Configuration}
  {handle : Option GraphicBuffer} {g : Backend → Backend} {target : Target} {α : Type}

/-! ### Clock, properties and buffers -/

theorem does_now (hp : Passive E R) : Does E R now := by
  intro h b passed
  exact ⟨[⟨.now, passed⟩], rfl, hp.now b passed⟩

theorem does_sleepUntil (hp : Passive E R) (deadline : TimePoint) :
    Does E R (sleepUntil deadline) := by
  intro h b overshoot
  exact ⟨[⟨.sleepUntil deadline, overshoot⟩], rfl, hp.sleepUntil b deadline overshoot⟩

theorem does_unlockHandle (hc : Chains E R) (hunlock : ∀ buffer, Allows R (.unlock buffer))
    (handle : Option GraphicBuffer) : Does E R (unlockHandle handle) := by
  cases handle with
  | none => exact Does.pure hc ()
  | some buffer => exact Does.call (hunlock buffer)

theorem does_refuseUnlocked (hc : Chains E R) (hunlock : ∀ buffer, Allows R (.unlock buffer))
    (hg : Permits E g) : Does E R (refuseUnlocked handle g : Submission α) :=
  Does.bind hc (does_unlockHandle hc hunlock handle) fun _ => Does.refuse hg

theorem does_activeSubmissionLimit (hc : Chains E R)
    (hread : ∀ o : VendorCall, o.isProperty = true → Allows R o) :
    Does E R (activeSubmissionLimit p) :=
  Does.bind hc (Does.call (hread _ rfl)) fun _ =>
    Does.ite (Does.pure hc _) (Does.bind hc (Does.call (hread _ rfl)) fun _ => Does.pure hc _)

theorem does_minimumSubmissionInterval (hc : Chains E R)
    (hread : ∀ o : VendorCall, o.isProperty = true → Allows R o) :
    Does E R minimumSubmissionInterval :=
  Does.bind hc (Does.call (hread _ rfl)) fun _ => Does.pure hc _

/-- The marker loop: its state is the effect so far, and `E'` is what giving up leaves. -/
theorem sat_markerLoop (hp : Passive E' R)
    (hgone : Permits E' fun b => b.poison.resetQualityHistory)
    {before : UInt32} {acceptedAt : TimePoint} {h : List VendorEvent} {b : Backend}
    {F : Assertion VendorCall VendorAnswer Backend} :
    (waitForMarkerStart before acceptedAt).Sat F (fun started h' b' => ∃ l, h' = h ++ l ∧
      (started = true → R b l b') ∧ (started = false → E' b l b')) h b := by
  refine sat_waitForMarkerStart (I := fun h' b' => ∃ l, h' = h ++ l ∧ R b l b')
    ⟨[], by simp, hp.refl b⟩ ?_
  rintro _ b' submitted displaying passed ⟨l, rfl, hl⟩ h'
  -- one poll reads both markers and the clock
  have hmarkers := hp.trans (hp.submittedMarker b' submitted) (hp.displayingMarker b' displaying)
  have hpolled := hp.trans hl (hp.trans hmarkers (hp.now b' passed))
  refine ⟨fun _ _ _ => ⟨_, List.append_assoc _ _ _, fun _ => hpolled, nofun⟩, ?_,
    fun overshoot => ?_⟩
  · have hleft := hp.early hpolled (hgone _)
    rw [List.append_nil] at hleft
    exact ⟨_, List.append_assoc _ _ _, nofun, fun _ => hleft⟩
  · refine ⟨_, ?_, hp.trans hpolled (hp.sleepFor { b' with clock := b'.clock + passed } overshoot)⟩
    simp [h']

/-! ### Up to the first update -/

theorem does_entryChecks (hp : Passive E R)
    (hread : ∀ o : VendorCall, o.isProperty = true → Allows R o) (hrefuse : Refuses E) :
    Does E R (entryChecks p frame) := by
  have hc := hp.toChains
  refine Does.bind hc (Does.get hc) fun b => ?_
  refine Does.bind hc (Does.refuseIf hc fun _ => hrefuse _ _ _ _) fun _ => ?_
  refine Does.bind hc (Does.call (hread _ rfl)) fun _ => ?_
  refine Does.bind hc (Does.refuseIf hc fun _ => hrefuse _ _ _ _) fun _ => ?_
  refine Does.bind hc (Does.call (hread _ rfl)) fun _ => ?_
  refine Does.bind hc (Does.refuseIf hc fun _ => hrefuse _ _ _ _) fun _ => ?_
  refine Does.bind hc (does_activeSubmissionLimit hc hread) fun _ => ?_
  refine Does.bind hc (Does.refuseIf hc fun b => hrefuse b b.state _ _) fun _ => ?_
  refine Does.bind hc (does_now hp) fun _ => ?_
  refine Does.bind hc (does_minimumSubmissionInterval hc hread) fun _ => ?_
  exact Does.refuseIf hc fun _ => hrefuse _ _ _ _

theorem does_loadConfiguration (hc : Chains E R) (hquality : Allows R .qualityConfig)
    (hgray : Allows R .grayConfig) (hvivid : Allows R .vividConfig)
    (hload : ∀ (b : Backend) (history : ColorQualityHistory) (quality gray vivid : UInt64),
      R b [] { b with
        qualityHistory := history, qualityConfig := quality, grayConfig := gray,
        vividConfig := vivid }) :
    Does E R (loadConfiguration frame) := by
  refine Does.bind hc (Does.call hquality) fun _ => Does.bind hc (Does.call hgray) fun _ => ?_
  refine Does.bind hc (Does.call hvivid) fun _ => Does.bind hc (Does.modify fun b => ?_) fun _ => ?_
  · split
    · exact hload b _ _ _ _
    · exact hc.refl b
  · exact Does.pure hc _

theorem does_selectEnvelope (hc : Chains E R) (hrefuse : Refuses E) :
    Does E R (selectEnvelope p frame) := by
  refine Does.bind hc (Does.refuseIf hc fun b => hrefuse b b.state _ _) fun _ => ?_
  cases selectObservedUpdateEnvelope (selectedMode frame) with
  | none => exact Does.refuse fun _ => hrefuse _ _ _ _
  | some envelope => exact Does.pure hc envelope

theorem does_arrangeGrayscale (hc : Chains E R) (hrefuse : Refuses E) (hfill : FillsPlanes R) :
    Does E R (arrangeGrayscale p frame) := by
  unfold arrangeGrayscale
  cases p.lowerEngineGrayLayout with
  | linear => exact Does.pure hc _
  | adjacentRowPairsInterleaved =>
    dsimp only
    split
    · exact Does.refuse fun _ => hrefuse _ _ _ _
    · exact Does.bind hc (Does.modify fun b => hfill b _ _ _ _) fun _ => Does.pure hc _

theorem does_mapSnapshot (hc : Chains E R) (hrefuse : Refuses E)
    (hlock : ∀ buffer, Allows R (.lockAsync buffer)) (hunlock : ∀ buffer, Allows R (.unlock buffer))
    (hinput : ∀ rgba, Permits R fun b => { b with colorInput := rgba }) (buffer : GraphicBuffer) :
    Does E R (mapSnapshot p buffer) := by
  have hcount : Permits E Backend.countRejected := fun _ => hrefuse _ _ _ _
  refine Does.bind hc (Does.call (hlock buffer)) fun lock => ?_
  cases lock.address with
  | none => exact Does.refuse hcount
  | some address =>
    refine Does.ite (Does.refuse hcount) ?_
    exact Does.ite (does_refuseUnlocked hc hunlock hcount) (Does.modify (hinput _))

theorem does_acquireColor (hc : Chains E R) (hrefuse : Refuses E)
    (hlock : ∀ buffer, Allows R (.lockAsync buffer)) (hunlock : ∀ buffer, Allows R (.unlock buffer))
    (hinput : ∀ rgba, Permits R fun b => { b with colorInput := rgba }) :
    Does E R (acquireColor p frame) := by
  have hcount : Permits E Backend.countRejected := fun _ => hrefuse _ _ _ _
  have hset (rgba : List UInt8) : Does E R (do
      modify fun b => { b with colorInput := rgba }
      pure none : Submission (Option GraphicBuffer)) :=
    Does.bind hc (Does.modify (hinput rgba)) fun _ => Does.pure hc _
  unfold acquireColor
  split
  · split
    · exact Does.bind hc (Does.get hc) fun _ =>
        Does.bind hc (Does.refuseIf hc hcount) fun _ => hset _
    · split
      · exact Does.refuse hcount
      · exact hset _
  · exact Does.refuse hcount
  · exact Does.refuse hcount
  · refine Does.bind hc (Does.refuseIf hc hcount) fun _ => ?_
    exact Does.bind hc (does_mapSnapshot hc hrefuse hlock hunlock hinput _) fun _ => Does.pure hc _

theorem does_prepareWhite (hc : Chains E R)
    (htune : ∀ o : VendorCall, o.isTuning = true → Allows R o) (hfill : FillsPlanes R) :
    Does E R (prepareWhite frame c) := by
  have hwhite (white : Backend → List UInt8) (n : Nat) : Does E R (do
      modify fun b => { b with whiteInput := white b }
      pure n : Submission Nat) :=
    Does.bind hc (Does.modify fun b => hfill b _ _ _ _) fun _ => Does.pure hc _
  refine Does.bind hc (Does.get hc) fun b => Does.ite (hwhite _ _) (Does.ite ?_ (Does.pure hc _))
  refine Does.bind hc (Does.call (htune _ rfl)) fun _ => ?_
  refine Does.bind hc (Does.call (htune _ rfl)) fun _ => ?_
  exact Does.bind hc (Does.call (htune _ rfl)) fun _ => hwhite _ _

theorem does_gap (hc : Chains E R) (debuggable : Bool) {name : String}
    (htune : Allows R (.intProperty name kColorQualityGuardMs)) :
    Does E R (gap debuggable name) := by
  unfold gap
  cases debuggable with
  | false => exact Does.pure hc _
  | true => exact Does.bind hc (Does.call htune) fun _ => Does.pure hc _

theorem does_planGaps (hc : Chains E R)
    (htune : ∀ o : VendorCall, o.isTuning = true → Allows R o) : Does E R (planGaps frame c) := by
  refine Does.ite (Does.bind hc (Does.call (htune _ rfl)) fun _ => ?_) (Does.pure hc _)
  refine Does.bind hc (does_gap hc _ (htune _ rfl)) fun _ => ?_
  refine Does.bind hc (does_gap hc _ (htune _ rfl)) fun _ => ?_
  exact Does.bind hc (does_gap hc _ (htune _ rfl)) fun _ => Does.pure hc _

theorem does_mapColor (hc : Chains E R) (hmap : ∀ input, Allows R (.mapVpcoa input))
    (hgray : ∀ rgba, Allows R (.auraGray rgba)) (hfill : FillsPlanes R) {input : List UInt8}
    (hrefuse : Does E R (refuseUnlocked handle g : Submission (List UInt8 × List UInt8))) :
    Does E R (mapColor handle input g) := by
  refine Does.bind hc (Does.call (hmap input)) fun mapping => ?_
  refine Does.bind hc (Does.modify fun b => hfill b _ _ _ _) fun _ => Does.ite hrefuse ?_
  refine Does.bind hc (Does.call (hgray _)) fun gray => ?_
  exact Does.bind hc (Does.modify fun b => hfill b _ _ _ _) fun _ => Does.pure hc _

/-! ### From the first update on -/

theorem does_awaitWhite (hp : Passive E R)
    (hread : ∀ o : VendorCall, o.isProperty = true → Allows R o) (hp' : Passive E' R)
    (hgone : Permits E' fun b => b.poison.resetQualityHistory)
    (hrefused : ∀ {b l b'}, E' b l b' →
      E b (l ++ target.composeHandle.toList.map fun buffer => ⟨.unlock buffer, ()⟩) b') :
    Does E R (awaitWhite target) := by
  have hc := hp.toChains
  unfold awaitWhite
  split
  · exact Does.pure hc _
  · refine Does.bind hc (does_minimumSubmissionInterval hc hread) fun _ => ?_
    refine Does.bind hc (Does.get hc) fun _ => Does.bind hc (does_sleepUntil hp _) fun _ => ?_
    intro h b
    rw [sat_bind]
    refine (sat_markerLoop hp' hgone).mono (fun _ _ hF => hF) ?_
    rintro started _ b' ⟨l, rfl, hstarted, hleft⟩
    cases started with
    | true => exact ⟨l, rfl, hstarted rfl⟩
    | false =>
      rw [if_neg (by simp), sat_refuseUnlocked]
      exact ⟨_, List.append_assoc _ _ _, hrefused (hleft rfl)⟩

theorem does_readTargetMarker (hp : Passive E R)
    (hrefuse : Does E R (refuseUnlocked target.composeHandle
      (fun b => b.poison.resetQualityHistory) : Submission UInt32)) :
    Does E R (readTargetMarker target) := by
  have hc := hp.toChains
  unfold readTargetMarker
  split
  · exact Does.pure hc _
  · exact Does.bind hc (Does.call hp.submittedMarker) fun _ => Does.ite hrefuse (Does.pure hc _)

theorem does_invokeUpdate (hupdate : ∀ a, Allows R (.update a)) {mapped : Option (List UInt8)}
    {gray : List UInt8} {envelope : ObservedUpdateEnvelope} :
    Does E R (invokeUpdate p handle mapped gray envelope) :=
  Does.ite (Does.call (hupdate _)) (Does.call (hupdate _))

theorem does_submitTarget (hp : Passive E R) (hupdate : ∀ a, Allows R (.update a))
    (hunlock : ∀ buffer, Allows R (.unlock buffer))
    (hgone : Permits E fun b => b.poison.resetQualityHistory)
    (hcount : ∀ b b', KeepsColor b b' → R b [] b') (hfailed : ∀ b b', KeepsColor b b' → E b [] b')
    (envelope : ObservedUpdateEnvelope) : Does E R (submitTarget p frame target envelope) := by
  have hc := hp.toChains
  have hmarker : Does E R (readTargetMarker target) :=
    does_readTargetMarker hp (does_refuseUnlocked hc hunlock hgone)
  refine Does.bind hc (does_now hp) fun _ => Does.bind hc hmarker fun _ => ?_
  refine Does.bind hc (does_invokeUpdate hupdate) fun _ => Does.bind hc (does_now hp) fun _ => ?_
  refine Does.bind hc (Does.onlyIf hc (does_unlockHandle hc hunlock _)) fun _ => ?_
  refine Does.bind hc (Does.modify fun b => hcount _ _ ?_) fun _ => ?_
  · dsimp only
    split <;> exact ⟨rfl, rfl, rfl, rfl, rfl⟩
  · have hpoison (b : Backend) := hfailed b { b.poison with
      differentialFailures := b.differentialFailures + (isDifferential frame).toNat }
      ⟨rfl, rfl, rfl, rfl, rfl⟩
    exact Does.bind hc (Does.refuseIf hc hpoison) fun _ => Does.pure hc _

theorem does_awaitTarget (hp : Passive E R)
    (hgone : Permits E fun b => b.poison.resetQualityHistory) (submitted : White) :
    Does E R (awaitTarget target submitted) := by
  refine Does.onlyIf hp.toChains ?_
  intro h b
  rw [sat_bind]
  refine (sat_markerLoop hp hgone).mono (fun _ _ hF => hF) ?_
  rintro displayed _ b' ⟨l, rfl, hdisplayed, hleft⟩
  cases displayed with
  | true => exact ⟨l, rfl, hdisplayed rfl⟩
  | false => exact ⟨l, rfl, hleft rfl⟩

theorem does_acceptTarget (hp : Passive E R)
    (hgone : Permits E fun b => b.poison.resetQualityHistory) (hany : ∀ b b', R b [] b')
    {started : TimePoint} {submitted : White} :
    Does E R (acceptTarget p frame c started target submitted) := by
  have hc := hp.toChains
  refine Does.onlyIf hc (Does.bind hc (does_awaitTarget hp hgone _) fun _ => ?_)
  refine Does.bind hc (Does.modify fun b => hany b _) fun _ => Does.onlyIf hc ?_
  exact Does.bind hc (does_now hp) fun _ => Does.modify fun b => hany b _

theorem does_finish (hp : Passive E R)
    (hread : ∀ o : VendorCall, o.isProperty = true → Allows R o)
    (hcount : ∀ b b', KeepsColor b b' → R b [] b') (returned : TimePoint) :
    Does E R (finish p frame target returned) := by
  have hc := hp.toChains
  refine Does.bind hc (Does.onlyIf hc (does_sleepUntil hp _)) fun _ => ?_
  refine Does.bind hc (does_now hp) fun _ => ?_
  refine Does.bind hc (Does.modify fun b => hcount _ _ ⟨rfl, rfl, rfl, rfl, rfl⟩) fun _ => ?_
  refine Does.bind hc (Does.call (hread _ rfl)) fun _ => Does.modify fun b => hcount _ _ ?_
  split <;> exact ⟨rfl, rfl, rfl, rfl, rfl⟩

end

end EinkLab.LowerEngine
