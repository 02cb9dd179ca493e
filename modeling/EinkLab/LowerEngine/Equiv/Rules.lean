import EinkLab.LowerEngine.Backend

/-!
# Rules for the parts of `Submit`

The weakest-precondition rules of the backend's small parts: vendor calls, clock readings, sleeps,
property reads and unlocking refusals.  `sat_waitForMarkerStart` is the rule of the marker loop: an
invariant that a poll and a sleep keep, and a postcondition for each way out.
-/

namespace EinkLab.LowerEngine

open Transition Procedure

section

variable {F : Assertion VendorCall VendorAnswer Backend} {h : List VendorEvent} {b : Backend}

@[simp] theorem sat_boolProperty {name : String} {d : Bool}
    {Q : Bool → Assertion VendorCall VendorAnswer Backend} :
    (boolProperty name d).Sat F Q h b ↔ ∀ r :
      Bool, Q r (h ++ [⟨.boolProperty name d, r⟩]) b := Iff.rfl

@[simp] theorem sat_intProperty {name : String} {d : Int}
    {Q : Int → Assertion VendorCall VendorAnswer Backend} :
    (intProperty name d).Sat F Q h b ↔ ∀ r : Int, Q r (h ++ [⟨.intProperty name d, r⟩]) b := Iff.rfl

@[simp] theorem sat_qualityConfig {Q : UInt64 → Assertion VendorCall VendorAnswer Backend} :
    (call VendorCall.qualityConfig : Submission UInt64).Sat F Q h b ↔
    ∀ r : UInt64, Q r (h ++ [⟨.qualityConfig, r⟩]) b := Iff.rfl

@[simp] theorem sat_grayConfig {Q : UInt64 → Assertion VendorCall VendorAnswer Backend} :
    (call VendorCall.grayConfig : Submission UInt64).Sat F Q h b ↔
    ∀ r : UInt64, Q r (h ++ [⟨.grayConfig, r⟩]) b := Iff.rfl

@[simp] theorem sat_vividConfig {Q : UInt64 → Assertion VendorCall VendorAnswer Backend} :
    (call VendorCall.vividConfig : Submission UInt64).Sat F Q h b ↔
    ∀ r : UInt64, Q r (h ++ [⟨.vividConfig, r⟩]) b := Iff.rfl

@[simp] theorem sat_lockAsync {buffer : GraphicBuffer}
    {Q : LockResult → Assertion VendorCall VendorAnswer Backend} :
    (lockAsync buffer).Sat F Q h b ↔ ∀ r : LockResult,
      Q r (h ++ [⟨.lockAsync buffer, r⟩]) b := Iff.rfl

@[simp] theorem sat_unlock {buffer : GraphicBuffer}
    {Q : Unit → Assertion VendorCall VendorAnswer Backend} :
    (unlock buffer).Sat F Q h b ↔ ∀ r : Unit, Q r (h ++ [⟨.unlock buffer, r⟩]) b := Iff.rfl

@[simp] theorem sat_mapVpcoa {input : List UInt8}
    {Q : Int × List UInt8 → Assertion VendorCall VendorAnswer Backend} :
    (mapVpcoa input).Sat F Q h b ↔ ∀ r : Int × List UInt8,
      Q r (h ++ [⟨.mapVpcoa input, r⟩]) b := Iff.rfl

@[simp] theorem sat_auraGray {rgba : List UInt8}
    {Q : List UInt8 → Assertion VendorCall VendorAnswer Backend} :
    (auraGray rgba).Sat F Q h b ↔ ∀ r : List UInt8, Q r (h ++ [⟨.auraGray rgba, r⟩]) b := Iff.rfl

@[simp] theorem sat_submittedMarker {Q : UInt32 → Assertion VendorCall VendorAnswer Backend} :
    submittedMarker.Sat F Q h b ↔ ∀ r : UInt32, Q r (h ++ [⟨.submittedMarker, r⟩]) b := Iff.rfl

@[simp] theorem sat_update {a : UpdateArguments}
    {Q : Int → Assertion VendorCall VendorAnswer Backend} :
    (update a).Sat F Q h b ↔ ∀ r : Int, Q r (h ++ [⟨.update a, r⟩]) b := Iff.rfl

@[simp] theorem sat_now {Q : TimePoint → Assertion VendorCall VendorAnswer Backend} :
    now.Sat F Q h b ↔ ∀ passed : Nat,
      Q (b.clock + passed) (h ++ [⟨.now, passed⟩]) { b with clock := b.clock + passed } := Iff.rfl

@[simp] theorem sat_sleepUntil {deadline : TimePoint}
    {Q : Unit → Assertion VendorCall VendorAnswer Backend} :
    (sleepUntil deadline).Sat F Q h b ↔ ∀ overshoot : Nat,
      Q () (h ++ [⟨.sleepUntil deadline, overshoot⟩])
        { b with clock := max b.clock deadline + overshoot } := Iff.rfl

@[simp] theorem sat_continuousModeEnabled {p : EinkDeviceProfile}
    {Q : Bool → Assertion VendorCall VendorAnswer Backend} :
    (continuousModeEnabled p).Sat F Q h b ↔ ∀ r : Bool, Q r (h ++
      [⟨.boolProperty "debug.neo2.eink.continuous" p.displayEnabledByDefault, r⟩]) b := Iff.rfl

@[simp] theorem sat_presentationEnabled {p : EinkDeviceProfile}
    {Q : Bool → Assertion VendorCall VendorAnswer Backend} :
    (presentationEnabled p).Sat F Q h b ↔ ∀ r : Bool, Q r (h ++
      [⟨.boolProperty "debug.neo2.eink.enabled" p.displayEnabledByDefault, r⟩]) b := Iff.rfl

@[simp] theorem sat_minimumSubmissionInterval
    {Q : Duration → Assertion VendorCall VendorAnswer Backend} :
    minimumSubmissionInterval.Sat F Q h b ↔ ∀ r : Int,
      Q (clamp r kM4MinimumIntervalMs kM4MaximumIntervalMs * nsPerMs) (h ++
        [⟨.intProperty "debug.neo2.eink.min_interval_ms" kM4DefaultMinimumIntervalMs, r⟩]) b :=
  Iff.rfl

@[simp] theorem sat_unlockHandle {handle : Option GraphicBuffer}
    {Q : Unit → Assertion VendorCall VendorAnswer Backend} :
    (unlockHandle handle).Sat F Q h b ↔
      Q () (h ++ handle.toList.map fun buffer => ⟨.unlock buffer, ()⟩) b := by
  cases handle with
  | none => simp [unlockHandle]
  | some buffer =>
    simp only [unlockHandle, sat_unlock]
    exact ⟨fun hq => hq (), fun hq _ => hq⟩

@[simp] theorem sat_refuseUnlocked {α : Type} {handle : Option GraphicBuffer}
    {f : Backend → Backend} {Q : α → Assertion VendorCall VendorAnswer Backend} :
    (refuseUnlocked handle f : Submission α).Sat F Q h b ↔
      F (h ++ handle.toList.map fun buffer => ⟨.unlock buffer, ()⟩) (f b) := by
  simp [refuseUnlocked]

/-- The rule of the marker loop: what a poll and a sleep keep, and every way out. -/
theorem sat_waitForMarkerStart {before : UInt32} {acceptedAt : TimePoint}
    {I : Assertion VendorCall VendorAnswer Backend}
    {Q : Bool → Assertion VendorCall VendorAnswer Backend} (hI : I h b)
    (hstep : ∀ h (b : Backend) submitted displaying (passed : Nat), I h b →
      let h' := h ++ [⟨.submittedMarker, submitted⟩, ⟨.displayingMarker, displaying⟩,
        ⟨.now, passed⟩]
      (canTrackNextEngineMarker before = true → submitted = before + 1 → displaying = submitted →
        Q true h' { b with clock := b.clock + passed }) ∧
      Q false h' { b with clock := b.clock + passed }.poison.resetQualityHistory ∧
      ∀ overshoot : Nat, I (h' ++ [⟨.sleepFor (2 * nsPerMs), overshoot⟩])
        { b with clock := b.clock + passed + 2 * nsPerMs + overshoot }) :
    (waitForMarkerStart before acceptedAt).Sat F Q h b := by
  -- induction on the time that is left until the timeout
  induction hn : (acceptedAt + kMarkerStartTimeoutMs * nsPerMs - b.clock).toNat using
    Nat.strongRecOn generalizing h b with
  | _ n ih =>
    unfold Sat
    rw [waitForMarkerStart]
    intro submitted displaying passed
    obtain ⟨hstarted, hstopped, hslept⟩ := hstep h b submitted displaying passed hI
    rw [List.append_assoc, List.append_assoc]
    dsimp only
    split
    · next hcheck =>
      obtain ⟨htrack, hnext, hdisplaying⟩ := checkEngineMarkerStart_started hcheck
      exact hstarted htrack hnext hdisplaying
    · exact hstopped
    · exact hstopped
    · next hcheck =>
      intro overshoot
      have hlt := lt_of_elapsed_lt (checkEngineMarkerStart_waiting hcheck)
      have hpassed : (0 : Int) ≤ ((passed : Nat) : Int) := Int.natCast_nonneg _
      have hovershoot : (0 : Int) ≤ ((overshoot : Nat) : Int) := Int.natCast_nonneg _
      refine ih _ ?_ (hslept overshoot) rfl
      simp only [nsPerMs] at hlt hn ⊢
      omega

end

end EinkLab.LowerEngine
