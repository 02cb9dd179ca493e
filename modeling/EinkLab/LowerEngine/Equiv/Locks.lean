import EinkLab.LowerEngine.Equiv.Parts
import EinkLab.Pipeline.Converter
import EinkLab.Transition.Locks

/-!
# Locks of the captured buffer

On every way through `Submit` and `Convert` a lock that gave an address is given back once, and
nothing else is unlocked (`lock_balance`).  A lock that succeeds without an address is not given
back, so counting it as one the balance holds exactly where it does not occur.
-/

namespace EinkLab.LowerEngine

open Transition Procedure LockStep

namespace Locks

/-! ### What counts as a lock -/

/-- `lock_status == NO_ERROR && address != nullptr`. -/
def mapped (r : LockResult) : Bool := r.status = 0 && r.address.isSome

/-- `lock_status == NO_ERROR`. -/
def succeeded (r : LockResult) : Bool := r.status = 0

/-- What a call does to the lock of a buffer; `locked` tells which answers are a lock. -/
def lockStep (locked : LockResult → Bool) : VendorEvent → Option (LockStep GraphicBuffer)
  | ⟨.lockAsync buffer, r⟩ => if locked r then some (.acquire buffer) else none
  | ⟨.unlock buffer, _⟩ => some (.release buffer)
  | _ => none

def locks (locked : LockResult → Bool) (calls : List VendorEvent) : List (LockStep GraphicBuffer) :=
  calls.filterMap (lockStep locked)

theorem locks_append (locked : LockResult → Bool) (l l' : List VendorEvent) :
    locks locked (l ++ l') = locks locked l ++ locks locked l' := List.filterMap_append

/-- The calls that lock and unlock. -/
def isLocking : VendorCall → Bool
  | .lockAsync _ | .unlock _ => true
  | _ => false

theorem lockStep_of_not {locked : LockResult → Bool} {o : VendorCall} (ho : isLocking o = false)
    (r : VendorAnswer o) : lockStep locked ⟨o, r⟩ = none := by
  cases o with
  | lockAsync buffer => cases ho
  | unlock buffer => cases ho
  | _ => rfl

/-! ### The parts of `Submit` -/

section

variable {p : EinkDeviceProfile} {frame : Frame} {b : Backend} {h l : List VendorEvent} {α : Type}
  {c : Configuration} {handle : Option GraphicBuffer} {target : Target}

/-- Nothing is locked or unlocked. -/
def Lockless : BackendEffect := fun _ l _ => locks mapped l = []

/-- The buffer that is held is given back. -/
def Frees (handle : Option GraphicBuffer) : BackendEffect :=
  fun _ l _ => locks mapped l = handle.toList.map .release

theorem chains_lockless : Chains Lockless Lockless := by
  refine ⟨fun _ => rfl, ?_, ?_⟩
  all_goals
    intro _ _ _ _ _ hl hl'
    rw [Lockless, locks_append, hl, hl']
    rfl

theorem chains_frees (handle : Option GraphicBuffer) : Chains (Frees handle) Lockless := by
  refine ⟨fun _ => rfl, chains_lockless.trans, ?_⟩
  intro _ _ _ _ _ hl hl'
  rw [Frees, locks_append, hl, hl']
  rfl

/-- The part neither locks nor unlocks, also where it returns early. -/
abbrev IsLockless (m : Submission α) : Prop := Does Lockless Lockless m

/-- The part gives the buffer back where it returns early, and else leaves it held. -/
abbrev IsFreeing (handle : Option GraphicBuffer) (m : Submission α) : Prop :=
  Does (Frees handle) Lockless m

theorem allows_lockless {o : VendorCall} (ho : isLocking o = false) : Allows Lockless o := by
  intro b r
  show locks mapped [⟨o, r⟩] = []
  rw [locks, List.filterMap_cons_none (lockStep_of_not ho r)]
  rfl

theorem reads_lockless (o : VendorCall) (ho : o.isProperty = true) : Allows Lockless o := by
  refine allows_lockless ?_
  cases o <;> first | rfl | cases ho

theorem tunes_lockless (o : VendorCall) (ho : o.isTuning = true) : Allows Lockless o :=
  reads_lockless o (VendorCall.isProperty_of_isTuning ho)

/-- An effect on the locks alone lets time pass. -/
theorem passive_of_chains {E : BackendEffect} (hc : Chains E Lockless) : Passive E Lockless :=
  ⟨hc, fun _ _ => rfl, fun _ _ _ => rfl, fun _ _ => rfl, allows_lockless rfl, allows_lockless rfl⟩

theorem passive_lockless : Passive Lockless Lockless := passive_of_chains chains_lockless

theorem does_modify {E : BackendEffect} {g : Backend → Backend} :
    Does E Lockless (modify g : Submission Unit) := Does.modify fun _ => rfl

theorem freeing_refuseUnlocked {g : Backend → Backend} :
    IsFreeing handle (refuseUnlocked handle g : Submission α) := by
  intro h s
  rw [sat_refuseUnlocked]
  refine ⟨_, rfl, ?_⟩
  cases handle with
  | none => rfl
  | some buffer => rfl

/-- After an early return the locks are balanced. -/
def Released : Assertion VendorCall VendorAnswer Backend := fun h _ => Balanced (locks mapped h)

/-- The buffer is held, and nothing else has been locked. -/
def Holding (handle : Option GraphicBuffer) : Assertion VendorCall VendorAnswer Backend :=
  fun h _ => locks mapped h = handle.toList.map .acquire

theorem Holding.released (hh : Holding none h b) : Released h b := by
  rw [Released, hh]
  exact balanced_nil

theorem Holding.lockless {b' : Backend} (hh : Holding handle h b) (hl : Lockless b l b') :
    Holding handle (h ++ l) b' := by
  rw [Holding, locks_append, hh, hl, List.append_nil]

theorem Holding.frees {b' : Backend} (hh : Holding handle h b) (hl : Frees handle b l b') :
    Released (h ++ l) b' := by
  rw [Released, locks_append, hh, hl]
  cases handle with
  | none => exact balanced_nil
  | some buffer => exact balanced_pair buffer

/-- A part that may give the buffer back, then the rest. -/
theorem Holding.bind {m : Submission α} {β : Type} {f : α → Submission β}
    {Q : β → Assertion VendorCall VendorAnswer Backend} (hh : Holding handle h b)
    (hm : IsFreeing handle m) (hf : ∀ a h b, Holding handle h b → (f a).Sat Released Q h b) :
    (m >>= f).Sat Released Q h b := by
  rw [sat_bind]
  exact hm.sat (fun _ _ hl => hh.frees hl) fun a _ _ hl => hf a _ _ (hh.lockless hl)

/-- The same before anything is locked. -/
theorem Holding.bind_lockless {m : Submission α} {β : Type} {f : α → Submission β}
    {Q : β → Assertion VendorCall VendorAnswer Backend} (hh : Holding none h b)
    (hm : IsLockless m) (hf : ∀ a h b, Holding none h b → (f a).Sat Released Q h b) :
    (m >>= f).Sat Released Q h b := by
  rw [sat_bind]
  exact hm.sat (fun _ _ hl => (hh.lockless hl).released) fun a _ _ hl => hf a _ _ (hh.lockless hl)

theorem sat_mapSnapshot {buffer : GraphicBuffer} (hh : Holding none h b) :
    (mapSnapshot p buffer).Sat Released (fun _ => Holding (some buffer)) h b := by
  unfold mapSnapshot
  rw [sat_bind, lockAsync, sat_call]
  intro lock
  have hcall (hno : mapped lock = false) :
      Holding none (h ++ [⟨.lockAsync buffer, lock⟩]) b := by
    refine hh.lockless ?_
    simp [Lockless, locks, lockStep, hno]
  cases haddress : lock.address with
  | none =>
    exact (hcall (by simp [mapped, haddress])).released
  | some address =>
    dsimp only
    rw [sat_ite]
    refine ⟨fun hstatus => (hcall (by simp [mapped, hstatus])).released, fun hstatus => ?_⟩
    have hlocked : Holding (some buffer) (h ++ [⟨.lockAsync buffer, lock⟩]) b := by
      have hmapped : mapped lock = true := by simpa [mapped, haddress] using hstatus
      rw [Holding, locks_append, hh]
      simp [locks, lockStep, hmapped]
    rw [sat_ite]
    refine ⟨fun _ => ?_, fun _ => hlocked⟩
    exact freeing_refuseUnlocked.sat (fun _ _ hl => hlocked.frees hl) fun _ _ _ hl =>
      hlocked.lockless hl

theorem sat_acquireColor (hh : Holding none h b) :
    (acquireColor p frame).Sat Released (fun handle => Holding handle) h b := by
  unfold acquireColor
  split
  · split
    · refine hh.bind_lockless (Does.get chains_lockless) fun b' h₁ b₁ hh₁ => ?_
      refine hh₁.bind_lockless (Does.refuseIf chains_lockless fun _ => rfl) fun _ h₂ b₂ hh₂ => ?_
      exact hh₂.bind_lockless does_modify fun _ _ _ hh₃ => hh₃
    · split
      · exact hh.released
      · exact hh.bind_lockless does_modify fun _ _ _ hh₁ => hh₁
  · exact hh.released
  · exact hh.released
  · refine hh.bind_lockless (Does.refuseIf chains_lockless fun _ => rfl) fun _ h₁ b₁ hh₁ => ?_
    rw [sat_bind]
    exact (sat_mapSnapshot hh₁).mono (fun _ _ hF => hF) fun _ _ _ hQ => hQ

theorem freeing_mapColor {input : List UInt8} {poisoned : Backend → Backend} :
    IsFreeing handle (mapColor handle input poisoned) :=
  does_mapColor (chains_frees handle) (fun _ => allows_lockless rfl) (fun _ => allows_lockless rfl)
    (fun _ _ _ _ _ => rfl) freeing_refuseUnlocked

theorem does_update {E : BackendEffect} {mappedRgba : Option (List UInt8)} {gray : List UInt8}
    {envelope : ObservedUpdateEnvelope} :
    Does E Lockless (invokeUpdate p handle mappedRgba gray envelope) :=
  does_invokeUpdate fun _ => allows_lockless rfl

theorem freeing_submitWhite {gaps : QualityGaps} :
    IsFreeing handle (submitWhite p frame handle gaps) := by
  have hc := chains_frees handle
  have hp := passive_of_chains hc
  refine Does.bind hc (Does.get hc) fun b => ?_
  refine Does.bind hc (does_activeSubmissionLimit hc reads_lockless) fun limit => ?_
  refine Does.ite freeing_refuseUnlocked (Does.bind hc freeing_mapColor fun mapping => ?_)
  refine Does.bind hc (Does.onlyIf hc (does_sleepUntil hp _)) fun _ => ?_
  refine Does.bind hc (does_now hp) fun _ => Does.bind hc (Does.call hp.submittedMarker) fun _ => ?_
  refine Does.ite freeing_refuseUnlocked (Does.bind hc does_update fun result => ?_)
  refine Does.bind hc (does_now hp) fun returned => Does.bind hc does_modify fun _ => ?_
  exact Does.ite freeing_refuseUnlocked (Does.bind hc does_modify fun _ => Does.pure hc _)

theorem sat_prepareColorTarget (hh : Holding none h b) :
    (prepareColorTarget p frame c).Sat Released (fun target => Holding target.composeHandle)
    h b := by
  unfold prepareColorTarget
  rw [sat_bind]
  refine (sat_acquireColor hh).mono (fun _ _ hF => hF) fun handle h₁ b₁ hh₁ => ?_
  have hc := chains_frees handle
  refine hh₁.bind does_modify fun _ h₂ b₂ hh₂ => ?_
  refine hh₂.bind (does_prepareWhite hc tunes_lockless fun _ _ _ _ _ => rfl)
    fun whitened h₃ b₃ hh₃ => ?_
  rw [sat_ite]
  constructor
  · intro _
    refine hh₃.bind (Does.get hc) fun b' h₄ b₄ hh₄ => ?_
    exact hh₄.bind freeing_mapColor fun mapping _ _ hh₅ => hh₅
  · intro _
    refine hh₃.bind (does_planGaps hc tunes_lockless) fun gaps h₄ b₄ hh₄ => ?_
    refine hh₄.bind freeing_submitWhite fun white h₅ b₅ hh₅ => ?_
    refine hh₅.bind (Does.get hc) fun b' h₆ b₆ hh₆ => ?_
    exact hh₆.bind freeing_mapColor fun mapping _ _ hh₇ => hh₇

/-- A buffer is held only by the colour path. -/
theorem sat_prepareTarget (hh : Holding none h b) :
    (prepareTarget p frame c).Sat Released (fun target h b =>
      Holding target.composeHandle h b ∧ (p.hasColorCfa = false → target.composeHandle = none))
      h b := by
  unfold prepareTarget
  have harrange : IsLockless (arrangeGrayscale p frame) :=
    does_arrangeGrayscale chains_lockless (fun _ _ _ _ => rfl) fun _ _ _ _ _ => rfl
  refine hh.bind_lockless harrange fun gray h₁ b₁ hh₁ => ?_
  rw [sat_ite]
  -- the gray path holds nothing
  refine ⟨fun hcolor => ?_, fun _ => ⟨hh₁, fun _ => rfl⟩⟩
  refine (sat_prepareColorTarget hh₁).mono (fun _ _ hF => hF) fun target _ _ hh₂ => ⟨hh₂, ?_⟩
  exact fun hno => absurd (hcolor.symm.trans hno).symm Bool.false_ne_true

theorem freeing_awaitWhite (target : Target) : IsFreeing target.composeHandle
    (awaitWhite target) := by
  refine does_awaitWhite (passive_of_chains (chains_frees _)) reads_lockless passive_lockless
    (fun _ => rfl) fun hl => ?_
  -- the buffer is unlocked where the white is not seen started
  rw [Frees, locks_append, hl]
  cases target.composeHandle <;> rfl

theorem freeing_readTargetMarker (target : Target) :
    IsFreeing target.composeHandle (readTargetMarker target) :=
  does_readTargetMarker (passive_of_chains (chains_frees _)) freeing_refuseUnlocked

/-- The colour engine's buffer is given back after the target update. -/
theorem sat_submitTarget {envelope : ObservedUpdateEnvelope}
    (hcolor : p.hasColorCfa = true → p.variant = .auraC) (hh : Holding target.composeHandle h b)
    (hnone : p.hasColorCfa = false → target.composeHandle = none) :
    (submitTarget p frame target envelope).Sat Released (fun _ => Released) h b := by
  have hp := passive_of_chains (chains_frees target.composeHandle)
  unfold submitTarget
  refine hh.bind (does_now hp) fun _ h₁ b₁ hh₁ => ?_
  refine hh₁.bind (freeing_readTargetMarker target) fun before h₂ b₂ hh₂ => ?_
  refine hh₂.bind does_update fun result h₃ b₃ hh₃ => ?_
  refine hh₃.bind (does_now hp) fun returned h₄ b₄ hh₄ => ?_
  have hreleased : (onlyIf (p.variant = .auraC) (unlockHandle target.composeHandle)).Sat Released
      (fun _ => Released) h₄ b₄ := by
    rw [onlyIf, sat_ite]
    constructor
    · intro _
      cases hhandle : target.composeHandle with
      | none => exact (hhandle ▸ hh₄ : Holding none h₄ b₄).released
      | some buffer =>
        intro _
        have hfrees : Frees target.composeHandle b₄ [⟨.unlock buffer, ()⟩] b₄ := by
          rw [hhandle]
          rfl
        exact hh₄.frees hfrees
    · -- without the colour engine there is no buffer to give back
      intro hmono
      have hno : p.hasColorCfa = false := by
        cases hcfa : p.hasColorCfa with
        | false => rfl
        | true => simp [hcolor hcfa] at hmono
      exact (hnone hno ▸ hh₄ : Holding none h₄ b₄).released
  rw [sat_bind]
  refine hreleased.mono (fun _ _ hF => hF) fun _ h₅ b₅ hr₅ => ?_
  rw [sat_bind, sat_modify, sat_bind, sat_refuseIf]
  exact ⟨fun _ => hr₅, fun _ => hr₅⟩

theorem Released.lockless {b' : Backend} (hr : Released h b) (hl : Lockless b l b') :
    Released (h ++ l) b' := by
  rw [Released, locks_append, hl, List.append_nil]
  exact hr

/-- **One `Submit`**: whatever the environment answers, the locks are balanced when it returns. -/
theorem sat_submit (hcolor : p.hasColorCfa = true → p.variant = .auraC) :
    (submit p frame).Sat Released (fun _ => Released) [] b := by
  have hh : Holding none [] b := rfl
  have hp := passive_lockless
  have hrefuse : Refuses Lockless := fun _ _ _ _ => rfl
  unfold submit
  refine hh.bind_lockless (does_entryChecks hp reads_lockless hrefuse) fun _ h₁ b₁ hh₁ => ?_
  refine hh₁.bind_lockless (does_now hp) fun started h₂ b₂ hh₂ => ?_
  have hload : IsLockless (loadConfiguration frame) :=
    does_loadConfiguration chains_lockless (allows_lockless rfl) (allows_lockless rfl)
      (allows_lockless rfl) fun _ _ _ _ _ => rfl
  refine hh₂.bind_lockless hload fun c h₃ b₃ hh₃ => ?_
  refine hh₃.bind_lockless (does_selectEnvelope chains_lockless hrefuse)
    fun envelope h₄ b₄ hh₄ => ?_
  rw [sat_bind]
  refine (sat_prepareTarget hh₄).mono (fun _ _ hF => hF) ?_
  rintro target h₅ b₅ ⟨hh₅, hnone⟩
  refine hh₅.bind (freeing_awaitWhite target) fun _ h₆ b₆ hh₆ => ?_
  rw [sat_bind]
  refine (sat_submitTarget hcolor hh₆ hnone).mono (fun _ _ hF => hF) fun submitted h₇ b₇ hr₇ => ?_
  rw [sat_bind]
  have haccept : IsLockless (acceptTarget p frame c started target submitted) :=
    does_acceptTarget hp (fun _ => rfl) fun _ _ => rfl
  have hfinish : IsLockless (finish p frame target submitted.callReturned) :=
    does_finish hp reads_lockless (fun _ _ _ => rfl) _
  refine haccept.sat (fun _ _ hl => hr₇.lockless hl) fun _ l₈ b₈ hl₈ => ?_
  exact hfinish.sat (fun _ _ hl => (hr₇.lockless hl₈).lockless hl) fun _ _ _ hl =>
    (hr₇.lockless hl₈).lockless hl

end

/-! ### The converter -/

section

open AndroidGrayscaleConverter

def converterStep (locked : LockResult → Bool) :
    ConverterEvent → Option (LockStep GraphicBuffer)
  | ⟨.lockAsync buffer _, r⟩ => if locked r then some (.acquire buffer) else none
  | ⟨.unlock buffer, _⟩ => some (.release buffer)
  | ⟨.dup _, _⟩ => none

def converterLocks (locked : LockResult → Bool) (calls : List ConverterEvent) :
    List (LockStep GraphicBuffer) :=
  calls.filterMap (converterStep locked)

theorem converterLocks_append (locked : LockResult → Bool) (l l' : List ConverterEvent) :
    converterLocks locked (l ++ l') = converterLocks locked l ++ converterLocks locked l' :=
  List.filterMap_append

variable {σ : Type} {s : σ} {h : List ConverterEvent} {buffer : GraphicBuffer}

theorem sat_dupFence {readyFence : Option Nat} (hh : converterLocks mapped h = []) :
    (dupFence readyFence : Converting σ Int).Sat (fun h _ => Balanced (converterLocks mapped h))
      (fun _ h _ => converterLocks mapped h = []) h s := by
  cases readyFence with
  | none => exact hh
  | some fence =>
    intro fd
    show converterLocks mapped (h ++ [⟨.dup fence, fd⟩]) = []
    rw [converterLocks_append, hh]
    rfl

theorem sat_mapBuffer {layout : RgbaLayout} {fenceFd : Int} (hh : converterLocks mapped h = []) :
    (mapBuffer buffer layout fenceFd : Converting σ RgbaSource).Sat
      (fun h _ => Balanced (converterLocks mapped h))
      (fun _ h _ => converterLocks mapped h = [.acquire buffer]) h s := by
  unfold mapBuffer
  rw [sat_bind, sat_call]
  intro lock
  have hcall (hno : mapped lock = false) :
      Balanced (converterLocks mapped (h ++ [⟨.lockAsync buffer fenceFd, lock⟩])) := by
    rw [converterLocks_append, hh]
    simp [converterLocks, converterStep, hno, balanced_nil]
  cases haddress : lock.address with
  | none => exact hcall (by simp [mapped, haddress])
  | some address =>
    dsimp only
    rw [sat_ite]
    refine ⟨fun hstatus => hcall (by simp [mapped, hstatus]), fun hstatus => ?_⟩
    have hlocked : converterLocks mapped (h ++ [⟨.lockAsync buffer fenceFd, lock⟩]) =
        [.acquire buffer] := by
      have hmapped : mapped lock = true := by simpa [mapped, haddress] using hstatus
      rw [converterLocks_append, hh]
      simp [converterLocks, converterStep, hmapped]
    rw [sat_ite]
    refine ⟨fun _ _ => ?_, fun _ => hlocked⟩
    show Balanced (converterLocks mapped (_ ++ [⟨.unlock buffer, ()⟩]))
    rw [converterLocks_append, hlocked]
    exact balanced_pair buffer

/-- **One `Convert`**: the locks are balanced when it returns. -/
theorem sat_convert (sign : RgbaSource → σ → Nat × σ) (composeBuffer : Option GraphicBuffer)
    (readyFence : Option Nat) (rotation : Rotation) (s : σ) :
    (convert sign composeBuffer readyFence rotation).Sat
      (fun h _ => Balanced (converterLocks mapped h))
      (fun _ h _ => Balanced (converterLocks mapped h)) [] s := by
  unfold convert
  split
  · exact balanced_nil
  · next buffer =>
    rw [sat_ite]
    refine ⟨fun _ => balanced_nil, fun _ => ?_⟩
    split
    · exact balanced_nil
    · next layout _ =>
      rw [sat_bind]
      refine (sat_dupFence rfl).mono (fun _ _ hF => hF) fun fenceFd h₁ s₁ hh₁ => ?_
      rw [sat_bind]
      refine (sat_mapBuffer hh₁).mono (fun _ _ hF => hF) fun source h₂ s₂ hh₂ => ?_
      rw [sat_bind, sat_get, sat_bind, onlyIf, sat_ite]
      have hunlock (s' : σ) : (do
          let _ ← (call (ConverterCall.unlock buffer) : Converting σ Unit)
          pure (convertToGrayscale source rotation,
            (convertToGrayscale source rotation).map fun _ => (sign source s₂).1) :
            Converting σ (Option OwnedGrayscaleBuffer × Option Nat)).Sat
          (fun h _ => Balanced (converterLocks mapped h))
          (fun _ h _ => Balanced (converterLocks mapped h)) h₂ s' := by
        intro _
        show Balanced (converterLocks mapped (h₂ ++ [⟨.unlock buffer, ()⟩]))
        rw [converterLocks_append, hh₂]
        exact balanced_pair buffer
      exact ⟨fun _ => hunlock _, fun _ => hunlock _⟩

end

/-! ### Both -/

/-- No lock succeeds without an address. -/
def Addressed (calls : List VendorEvent) : Prop :=
  ∀ buffer (r : LockResult), ⟨.lockAsync buffer, r⟩ ∈ calls → r.status = 0 → r.address.isSome = true

def AddressedConversion (calls : List AndroidGrayscaleConverter.ConverterEvent) : Prop :=
  ∀ buffer fenceFd (r : LockResult), ⟨.lockAsync buffer fenceFd, r⟩ ∈ calls → r.status = 0 →
    r.address.isSome = true

theorem mapped_eq_succeeded_iff (r : LockResult) :
    succeeded r = mapped r ↔ (r.status = 0 → r.address.isSome = true) := by
  by_cases hstatus : r.status = 0
  · simp [succeeded, mapped, hstatus]
  · simp [succeeded, mapped, hstatus]

theorem lockStep_succeeded (e : VendorEvent) :
    lockStep succeeded e = lockStep mapped e ∨
      lockStep mapped e = none ∧ ∃ buffer, lockStep succeeded e = some (.acquire buffer) := by
  obtain ⟨o, r⟩ := e
  cases o with
  | lockAsync buffer =>
    cases hs : succeeded r with
    | false =>
      have hm : mapped r = false := by
        simp only [succeeded, decide_eq_false_iff_not] at hs
        simp [mapped, hs]
      exact Or.inl (by simp [lockStep, hs, hm])
    | true =>
      cases hm : mapped r with
      | false => exact Or.inr ⟨by simp [lockStep, hm], buffer, by simp [lockStep, hs]⟩
      | true => exact Or.inl (by simp [lockStep, hs, hm])
  | _ => exact Or.inl rfl

theorem converterStep_succeeded (e : AndroidGrayscaleConverter.ConverterEvent) :
    converterStep succeeded e = converterStep mapped e ∨
      converterStep mapped e = none ∧
        ∃ buffer, converterStep succeeded e = some (.acquire buffer) := by
  obtain ⟨o, r⟩ := e
  cases o with
  | lockAsync buffer fenceFd => exact lockStep_succeeded ⟨.lockAsync buffer, r⟩
  | _ => exact Or.inl rfl

theorem lockStep_eq_iff (buffer : GraphicBuffer) (r : LockResult) :
    lockStep succeeded ⟨.lockAsync buffer, r⟩ = lockStep mapped ⟨.lockAsync buffer, r⟩ ↔
      (r.status = 0 → r.address.isSome = true) := by
  rw [← mapped_eq_succeeded_iff]
  cases hs : succeeded r with
  | false => cases hm : mapped r <;> simp [lockStep, hs, hm]
  | true => cases hm : mapped r <;> simp [lockStep, hs, hm]

theorem forall_lockStep_eq_iff {calls : List VendorEvent} :
    (∀ e ∈ calls, lockStep succeeded e = lockStep mapped e) ↔ Addressed calls := by
  constructor
  · exact fun hall buffer r hmem => (lockStep_eq_iff buffer r).mp (hall _ hmem)
  · rintro haddressed ⟨o, r⟩ hmem
    cases o with
    | lockAsync buffer => exact (lockStep_eq_iff buffer r).mpr (haddressed buffer r hmem)
    | _ => rfl

theorem forall_converterStep_eq_iff {calls : List AndroidGrayscaleConverter.ConverterEvent} :
    (∀ e ∈ calls, converterStep succeeded e = converterStep mapped e) ↔
      AddressedConversion calls := by
  constructor
  · exact fun hall buffer fenceFd r hmem => (lockStep_eq_iff buffer r).mp (hall _ hmem)
  · rintro haddressed ⟨o, r⟩ hmem
    cases o with
    | lockAsync buffer fenceFd =>
      exact (lockStep_eq_iff buffer r).mpr (haddressed buffer fenceFd r hmem)
    | _ => rfl

theorem balanced_of_result {ι : Type} {ρ : ι → Type} {σ α : Type} [DecidableEq ι]
    {m : Procedure ι ρ σ α} {f : Answered ι ρ → Option (LockStep GraphicBuffer)}
    {calls : List (Answered ι ρ)} {s : σ} {r : Option α × σ}
    (hm : m.Sat (fun h _ => Balanced (h.filterMap f)) (fun _ h _ => Balanced (h.filterMap f)) [] s)
    (hr : (m.run s).replay calls = some r) : Balanced (calls.filterMap f) := by
  obtain ⟨result, t⟩ := r
  obtain ⟨hsome, hnone⟩ := sat_replay hm hr
  cases result with
  | none => exact hnone rfl
  | some a => exact hsome a rfl

end Locks

open Locks

/-- **The locks are balanced**: on every way through `Submit` on a product's backend, and through
`Convert`, each lock that gave an address is given back once on the same buffer before the function
returns, and nothing else is.  If locks that succeed without an address are counted as well, this
holds exactly where there is none. -/
theorem lock_balance :
    (∀ p ∈ deviceProfiles, ∀ (frame : Frame) (b : Backend) (calls : List VendorEvent)
      (r : Option Unit × Backend), ((submit p frame).run b).replay calls = some r →
        Balanced (locks mapped calls) ∧ (Balanced (locks succeeded calls) ↔ Addressed calls)) ∧
      ∀ (σ : Type) (sign : AndroidGrayscaleConverter.RgbaSource → σ → Nat × σ)
        (composeBuffer : Option GraphicBuffer) (readyFence : Option Nat)
        (rotation : AndroidGrayscaleConverter.Rotation) (s : σ)
        (calls : List AndroidGrayscaleConverter.ConverterEvent)
        (r : Option (Option OwnedGrayscaleBuffer × Option Nat) × σ),
        ((AndroidGrayscaleConverter.convert sign composeBuffer readyFence rotation).run s).replay
          calls =
          some r →
        Balanced (converterLocks mapped calls) ∧
          (Balanced (converterLocks succeeded calls) ↔ AddressedConversion calls) := by
  constructor
  · intro p hp frame b calls r hr
    have hcolor : p.hasColorCfa = true → p.variant = .auraC := by
      simp only [deviceProfiles, List.mem_cons, List.not_mem_nil, or_false] at hp
      rcases hp with rfl | rfl | rfl | rfl
      · exact fun hno => by cases hno
      · exact fun hno => by cases hno
      · exact fun hno => by cases hno
      · exact fun _ => rfl
    have hbalanced := balanced_of_result (sat_submit hcolor) hr
    exact ⟨hbalanced,
      (balanced_filterMap_iff lockStep_succeeded hbalanced).trans forall_lockStep_eq_iff⟩
  · intro σ sign composeBuffer readyFence rotation s calls r hr
    have hbalanced := balanced_of_result (sat_convert sign composeBuffer readyFence rotation s) hr
    exact ⟨hbalanced,
      (balanced_filterMap_iff converterStep_succeeded hbalanced).trans forall_converterStep_eq_iff⟩

/-- A buffer of one pixel. -/
def pixelBuffer : GraphicBuffer := ⟨false, .rgba8888, 1, 1, ⟨0, some [0, 0, 0, 255], 4, 4⟩⟩

theorem lock_balance_pixel :
    Balanced (converterLocks mapped
      [⟨.lockAsync pixelBuffer (-1), ⟨0, some [0, 0, 0, 255], 4, 4⟩⟩, ⟨.unlock pixelBuffer, ()⟩]) :=
  (lock_balance.2 Unit (fun _ s => (0, s)) (some pixelBuffer) none .none () _
    (some (some ⟨1, 1, [0]⟩, some 0), ()) rfl).1

/-- A lock that succeeds without an address is not given back. -/
theorem not_forall_lock_balance :
    ¬∀ (composeBuffer : Option GraphicBuffer) (readyFence : Option Nat)
      (rotation : AndroidGrayscaleConverter.Rotation)
      (calls : List AndroidGrayscaleConverter.ConverterEvent)
      (r : Option (Option OwnedGrayscaleBuffer × Option Nat) × Unit),
      ((AndroidGrayscaleConverter.convert (fun _ s => (0, s)) composeBuffer readyFence rotation).run
        ()).replay calls = some r → Balanced (converterLocks succeeded calls) := by
  intro h
  have hbalanced := h (some pixelBuffer) none .none
    [⟨.lockAsync pixelBuffer (-1), ⟨0, none, 4, 4⟩⟩] (none, ()) rfl
  exact absurd hbalanced (by decide)

end EinkLab.LowerEngine
