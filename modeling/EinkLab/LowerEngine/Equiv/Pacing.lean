import EinkLab.LowerEngine.Equiv.Uncertainty

/-!
# Pacing and budget of the engine updates

* `update_pacing`: over any run of `Submit`s, every engine update stays within the limit that was
  read for it, and starts at least the interval that was read for it after the update before it has
  returned; and a pair is only begun when the limit has room for both of its updates.

The calls of a run are one list, and `clockAfter` is the clock along it.  An update is followed by a
clock reading, which is when it has returned at the latest; it starts at the clock's last value at
the earliest.  `PacingGuard` is what an update must find in the calls before it.

Most parts of `Submit` are `Quiet`: they make no update, read neither limit nor interval, and keep
the counter and the time of the last submission.
-/

namespace EinkLab.LowerEngine

open Transition Procedure

namespace Pacing

/-! ### Reading the calls -/

def continuousName : String := "debug.neo2.eink.continuous"

def maxUpdatesName : String := "debug.neo2.eink.max_updates"

def minIntervalName : String := "debug.neo2.eink.min_interval_ms"

/-- The values that were read of a boolean property. -/
def boolReads (name : String) (calls : List VendorEvent) : List Bool :=
  calls.filterMap fun
    | ⟨.boolProperty n _, r⟩ => if n = name then some r else none
    | _ => none

/-- The values that were read of an integer property. -/
def intReads (name : String) (calls : List VendorEvent) : List Int :=
  calls.filterMap fun
    | ⟨.intProperty n _, r⟩ => if n = name then some r else none
    | _ => none

/-- The clock after an answered call. -/
def tick (clock : TimePoint) : VendorEvent → TimePoint
  | ⟨.now, (passed : Nat)⟩ => clock + passed
  | ⟨.sleepUntil deadline, (overshoot : Nat)⟩ => max clock deadline + overshoot
  | ⟨.sleepFor duration, (overshoot : Nat)⟩ => clock + duration + overshoot
  | _ => clock

def clockAfter (clock : TimePoint) (calls : List VendorEvent) : TimePoint := calls.foldl tick clock

@[simp] theorem boolReads_append (name : String) (l l' : List VendorEvent) :
    boolReads name (l ++ l') = boolReads name l ++ boolReads name l' := List.filterMap_append

@[simp] theorem intReads_append (name : String) (l l' : List VendorEvent) :
    intReads name (l ++ l') = intReads name l ++ intReads name l' := List.filterMap_append

@[simp] theorem clockAfter_append (c : TimePoint) (l l' : List VendorEvent) :
    clockAfter c (l ++ l') = clockAfter (clockAfter c l) l' := List.foldl_append

/-- Without an update behind it, an update of a longer list lies in the first part. -/
theorem split_update {h l pre mid : List VendorEvent} {a : UpdateArguments} {r : Int}
    (heq : h ++ l = pre ++ ⟨.update a, r⟩ :: mid) (hl : updates l = []) :
    ∃ mid', h = pre ++ ⟨.update a, r⟩ :: mid' ∧ mid = mid' ++ l := by
  rcases List.append_eq_append_iff.mp heq with ⟨l₁, -, hl₁⟩ | ⟨l₁, hh, hl₁⟩
  · rw [hl₁, updates_append] at hl
    simp at hl
  · cases l₁ with
    | nil =>
      rw [List.nil_append] at hl₁
      rw [← hl₁] at hl
      simp at hl
    | cons x mid' =>
      obtain ⟨rfl, rfl⟩ := List.cons.inj (by simpa using hl₁)
      exact ⟨mid', hh, rfl⟩

/-- The last update of a list is determined. -/
theorem last_update_unique {pre pre' mid mid' : List VendorEvent} {a a' : UpdateArguments}
    {r r' : Int} (heq : pre ++ ⟨.update a, r⟩ :: mid = pre' ++ ⟨.update a', r'⟩ :: mid')
    (hmid : updates mid = []) (hmid' : updates mid' = []) :
    pre = pre' ∧ a = a' ∧ r = r' ∧ mid = mid' := by
  have hsplit : (pre ++ [⟨.update a, r⟩]) ++ mid = pre' ++ ⟨.update a', r'⟩ :: mid' := by
    simpa using heq
  obtain ⟨mid₁, hpre, rfl⟩ := split_update hsplit hmid
  rcases List.eq_nil_or_concat mid₁ with rfl | ⟨mid₂, x, rfl⟩
  · obtain ⟨rfl, hlast⟩ := List.append_inj' hpre rfl
    obtain ⟨h₁, h₂⟩ := Sigma.mk.inj (List.head_eq_of_cons_eq hlast)
    obtain rfl := VendorCall.update.inj h₁
    exact ⟨rfl, rfl, eq_of_heq h₂, by simp⟩
  · -- the update would stand behind the other one
    have hlast : pre ++ [⟨.update a, r⟩] = (pre' ++ ⟨.update a', r'⟩ :: mid₂) ++ [x] := by
      simpa using hpre
    obtain ⟨-, hx⟩ := List.append_inj' hlast rfl
    obtain rfl := List.head_eq_of_cons_eq hx
    simp at hmid'

/-! ### What an update must find -/

/-- There is room for `total` updates: the mode that was read last is continuous, or the limit that
was read last admits them. -/
def Within (calls : List VendorEvent) (total : Nat) : Prop :=
  (boolReads continuousName calls).getLast? = some true ∨
  ∃ configured, (intReads maxUpdatesName calls).getLast? = some configured ∧
    (total : Int) ≤ clamp configured 1 kM4HardSubmissionLimit

/-- The last update had returned by `time`, if there was one. -/
def ReturnedBy (c₀ : TimePoint) (calls : List VendorEvent) (time : TimePoint) : Prop :=
  ∀ pre a r mid, calls = pre ++ ⟨.update a, r⟩ :: mid → updates mid = [] →
    ∃ (passed : Nat) (mid' : List VendorEvent), mid = ⟨.now, passed⟩ :: mid' ∧
      clockAfter c₀ (pre ++ [⟨.update a, r⟩, ⟨.now, passed⟩]) ≤ time

/-- At `time` the interval that was read last has passed since the last update returned. -/
def Ready (c₀ : TimePoint) (calls : List VendorEvent) (time : TimePoint) : Prop :=
  ∀ pre a r mid, calls = pre ++ ⟨.update a, r⟩ :: mid → updates mid = [] →
    ∃ (passed : Nat) (mid' : List VendorEvent) (configured : Int), mid = ⟨.now, passed⟩ :: mid' ∧
      (intReads minIntervalName mid').getLast? = some configured ∧
      clockAfter c₀ (pre ++ [⟨.update a, r⟩, ⟨.now, passed⟩]) +
        clamp configured kM4MinimumIntervalMs kM4MaximumIntervalMs * nsPerMs ≤ time

def PacingGuard (c₀ : TimePoint) (pre : List VendorEvent) (e : VendorEvent) : Prop :=
  e.1.isUpdate = true → Within pre ((updates pre).length + 1) ∧ Ready c₀ pre (clockAfter c₀ pre)

/-- Where the calls since `h₀` leave a pair half done, there was room for all of it. -/
def Covered (h₀ h : List VendorEvent) : Prop :=
  ∀ pre a mid, h = h₀ ++ pre ++ ⟨.update a, kObservedUpdateAcceptedResult⟩ :: mid →
    updates pre = [] → updates mid = [] → Within (h₀ ++ pre) ((updates h₀).length + 2)

section

variable {c₀ time time' : TimePoint} {h h₀ l : List VendorEvent} {total : Nat}

theorem Within.extend (hw : Within h total) (hbool : boolReads continuousName l = [])
    (hint : intReads maxUpdatesName l = []) : Within (h ++ l) total := by
  unfold Within
  rw [boolReads_append, intReads_append, hbool, hint, List.append_nil, List.append_nil]
  exact hw

theorem Within.mono {total' : Nat} (hw : Within h total) (hle : total' ≤ total) :
    Within h total' := by
  rcases hw with hcontinuous | ⟨configured, hread, htotal⟩
  · exact Or.inl hcontinuous
  · exact Or.inr ⟨configured, hread, by omega⟩

theorem ReturnedBy.extend (hr : ReturnedBy c₀ h time) (hl : updates l = []) (hle : time ≤ time') :
    ReturnedBy c₀ (h ++ l) time' := by
  intro pre a r mid heq hmid
  obtain ⟨mid₀, rfl, rfl⟩ := split_update heq hl
  rw [updates_append, hl, List.append_nil] at hmid
  obtain ⟨passed, mid', rfl, hreturn⟩ := hr pre a r mid₀ rfl hmid
  exact ⟨passed, mid' ++ l, rfl, Int.le_trans hreturn hle⟩

theorem Ready.extend (hr : Ready c₀ h time) (hl : updates l = [])
    (hint : intReads minIntervalName l = []) (hle : time ≤ time') : Ready c₀ (h ++ l) time' := by
  intro pre a r mid heq hmid
  obtain ⟨mid₀, rfl, rfl⟩ := split_update heq hl
  rw [updates_append, hl, List.append_nil] at hmid
  obtain ⟨passed, mid', configured, rfl, hread, hready⟩ := hr pre a r mid₀ rfl hmid
  refine ⟨passed, mid' ++ l, configured, rfl, ?_, Int.le_trans hready hle⟩
  rw [intReads_append, hint, List.append_nil]
  exact hread

/-- The interval is read, and it has passed since the last update returned. -/
theorem ReturnedBy.ready (configured : Int) (hr : ReturnedBy c₀ h time) (hl : updates l = [])
    (hread : (intReads minIntervalName l).getLast? = some configured)
    (hle : updates h ≠ [] →
      time + clamp configured kM4MinimumIntervalMs kM4MaximumIntervalMs * nsPerMs ≤ time') :
    Ready c₀ (h ++ l) time' := by
  intro pre a r mid heq hmid
  obtain ⟨mid₀, rfl, rfl⟩ := split_update heq hl
  rw [updates_append, hl, List.append_nil] at hmid
  obtain ⟨passed, mid', rfl, hreturn⟩ := hr pre a r mid₀ rfl hmid
  have hpassed := hle (by simp)
  refine ⟨passed, mid' ++ l, configured, rfl, ?_,
    Int.le_trans (Int.add_le_add_right hreturn _) hpassed⟩
  rw [intReads_append, List.getLast?_append, hread, Option.some_or]

/-- Right after an update, the clock is read. -/
theorem returnedBy_update {a : UpdateArguments} {r : Int} {passed : Nat}
    (hle : clockAfter c₀ h + passed ≤ time) :
    ReturnedBy c₀ (h ++ [⟨.update a, r⟩] ++ [⟨.now, passed⟩]) time := by
  intro pre a' r' mid heq hmid
  have heq' : h ++ ⟨.update a, r⟩ :: [⟨.now, passed⟩] = pre ++ ⟨.update a', r'⟩ :: mid := by
    simpa using heq
  obtain ⟨rfl, rfl, rfl, rfl⟩ := last_update_unique heq' rfl hmid
  refine ⟨passed, [], rfl, ?_⟩
  rw [clockAfter_append]
  exact hle

theorem covered_of_length (hne : (updates h).length ≠ (updates h₀).length + 1) : Covered h₀ h := by
  rintro pre a mid rfl hpre hmid
  simp [hpre, hmid] at hne

theorem covered_of_refused {pre : List VendorEvent} {a : UpdateArguments} {r : Int}
    (hh : h = pre ++ ⟨.update a, r⟩ :: l) (hl : updates l = [])
    (hr : r ≠ kObservedUpdateAcceptedResult) : Covered h₀ h := by
  rintro pre' a' mid heq - hmid
  obtain ⟨-, -, rfl, -⟩ := last_update_unique (hh.symm.trans heq) hl hmid
  exact absurd rfl hr

end

/-! ### Quiet parts -/

/-- The call is an update, or reads a limit, the mode or the interval. -/
def isPacing : VendorCall → Bool
  | .update _ => true
  | .boolProperty name _ => name = continuousName
  | .intProperty name _ => name = maxUpdatesName || name = minIntervalName
  | _ => false

/-- No update, and the pacing state is kept as the clock goes on. -/
structure Idle (b : Backend) (l : List VendorEvent) (b' : Backend) : Prop where
  updates : updates l = []
  clock : b'.clock = clockAfter b.clock l
  submissions : b'.submissions = b.submissions
  lastSubmission : b'.lastSubmission = b.lastSubmission

/-- The same, and neither limit nor interval is read. -/
structure Quiet (b : Backend) (l : List VendorEvent) (b' : Backend) : Prop where
  calls : ∀ e ∈ l, isPacing e.1 = false
  clock : b'.clock = clockAfter b.clock l
  later : b.clock ≤ b'.clock
  submissions : b'.submissions = b.submissions
  lastSubmission : b'.lastSubmission = b.lastSubmission

theorem updates_of_calls {l : List VendorEvent} (hl : ∀ e ∈ l, isPacing e.1 = false) :
    updates l = [] := by
  induction l with
  | nil => rfl
  | cons e l ih =>
    obtain ⟨o, r⟩ := e
    have ho : isPacing o = false := hl _ List.mem_cons_self
    have hsilent : o.isUpdate = false := by cases o <;> first | rfl | cases ho
    rw [updates_cons_silent hsilent]
    exact ih fun e he => hl e (List.mem_cons_of_mem _ he)

theorem boolReads_of_calls {l : List VendorEvent} (hl : ∀ e ∈ l, isPacing e.1 = false) :
    boolReads continuousName l = [] := by
  refine List.filterMap_eq_nil_iff.mpr ?_
  rintro ⟨o, r⟩ he
  have ho : isPacing o = false := hl _ he
  cases o with
  | boolProperty name d => exact if_neg (of_decide_eq_false ho)
  | _ => rfl

theorem intReads_of_calls {l : List VendorEvent} (hl : ∀ e ∈ l, isPacing e.1 = false) :
    intReads maxUpdatesName l = [] ∧ intReads minIntervalName l = [] := by
  refine ⟨List.filterMap_eq_nil_iff.mpr ?_, List.filterMap_eq_nil_iff.mpr ?_⟩
  all_goals
    rintro ⟨o, r⟩ he
    have ho : isPacing o = false := hl _ he
    cases o with
    | intProperty name d =>
      obtain ⟨hmax, hmin⟩ := Bool.or_eq_false_iff.mp ho
      exact if_neg (of_decide_eq_false (by assumption))
    | _ => rfl

theorem Quiet.idle {b b' : Backend} {l : List VendorEvent} (hq : Quiet b l b') : Idle b l b' :=
  ⟨updates_of_calls hq.calls, hq.clock, hq.submissions, hq.lastSubmission⟩

theorem Idle.trans {b b' b'' : Backend} {l l' : List VendorEvent} (h : Idle b l b')
    (h' : Idle b' l' b'') : Idle b (l ++ l') b'' := by
  refine ⟨?_, ?_, h'.submissions.trans h.submissions, h'.lastSubmission.trans h.lastSubmission⟩
  · rw [updates_append, h.updates, h'.updates]
    rfl
  · rw [clockAfter_append, ← h.clock]
    exact h'.clock

theorem Quiet.refl (b : Backend) : Quiet b [] b :=
  ⟨by simp, rfl, Int.le_refl _, rfl, rfl⟩

theorem Quiet.trans {b b' b'' : Backend} {l l' : List VendorEvent} (h : Quiet b l b')
    (h' : Quiet b' l' b'') : Quiet b (l ++ l') b'' := by
  refine ⟨fun e he => ?_, ?_, Int.le_trans h.later h'.later, h'.submissions.trans h.submissions,
    h'.lastSubmission.trans h.lastSubmission⟩
  · rcases List.mem_append.mp he with he | he
    · exact h.calls e he
    · exact h'.calls e he
  · rw [clockAfter_append, ← h.clock]
    exact h'.clock

/-- The change keeps the pacing state. -/
def Keeps (g : Backend → Backend) : Prop :=
  ∀ b, (g b).clock = b.clock ∧ (g b).submissions = b.submissions ∧
    (g b).lastSubmission = b.lastSubmission

theorem Keeps.quiet {g : Backend → Backend} (hg : Keeps g) (b : Backend) : Quiet b [] (g b) := by
  obtain ⟨hclock, hcount, hlast⟩ := hg b
  exact ⟨by simp, hclock, Int.le_of_eq hclock.symm, hcount, hlast⟩

theorem Idle.keeps {b b' : Backend} {l : List VendorEvent} {g : Backend → Backend}
    (hi : Idle b l b') (hg : Keeps g) : Idle b l (g b') := by
  obtain ⟨hclock, hcount, hlast⟩ := hg b'
  exact ⟨hi.updates, hclock.trans hi.clock, hcount.trans hi.submissions,
    hlast.trans hi.lastSubmission⟩

theorem keeps_id : Keeps id := fun _ => ⟨rfl, rfl, rfl⟩

theorem keeps_countRejected : Keeps Backend.countRejected := fun _ => ⟨rfl, rfl, rfl⟩

theorem keeps_poison : Keeps Backend.poison := fun _ => ⟨rfl, rfl, rfl⟩

theorem keeps_uncertain : Keeps fun b => b.poison.resetQualityHistory := fun _ => ⟨rfl, rfl, rfl⟩

theorem allows_quiet {o : VendorCall} (ho : isPacing o = false)
    (htick : ∀ clock r, tick clock ⟨o, r⟩ = clock) : Allows Quiet o := by
  refine fun b r => ⟨?_, (htick _ r).symm, Int.le_refl _, rfl, rfl⟩
  simpa using ho

theorem tunes_quiet (o : VendorCall) (ho : o.isTuning = true) : Allows Quiet o := by
  cases o with
  | boolProperty name d =>
    exact allows_quiet (decide_eq_false (of_decide_eq_true ho)) fun _ _ => rfl
  | intProperty name d =>
    obtain ⟨hmax, hmin⟩ := Bool.and_eq_true_iff.mp ho
    refine allows_quiet ?_ fun _ _ => rfl
    exact Bool.or_eq_false_iff.mpr ⟨decide_eq_false (of_decide_eq_true hmax),
      decide_eq_false (of_decide_eq_true hmin)⟩
  | _ => cases ho

theorem quiet_clock {b : Backend} {passed : Nat} {o : VendorCall} {r : VendorAnswer o}
    {time : TimePoint} (ho : isPacing o = false) (htick : tick b.clock ⟨o, r⟩ = time + passed)
    (hle : b.clock ≤ time) : Quiet b [⟨o, r⟩] { b with clock := time + passed } := by
  refine ⟨?_, htick.symm, ?_, rfl, rfl⟩
  · simpa using ho
  · have hpassed : (0 : Int) ≤ (passed : Int) := Int.natCast_nonneg _
    show b.clock ≤ time + passed
    exact Int.le_trans hle (Int.le_add_of_nonneg_right hpassed)

theorem passive_of_chains {E : BackendEffect} (hc : Chains E Quiet) : Passive E Quiet := by
  refine ⟨hc, fun b passed => ?_, fun b deadline overshoot => ?_, fun b overshoot => ?_,
    allows_quiet rfl fun _ _ => rfl, allows_quiet rfl fun _ _ => rfl⟩
  · exact quiet_clock rfl rfl (Int.le_refl _)
  · exact quiet_clock rfl rfl (Int.le_max_left _ _)
  · exact quiet_clock rfl rfl (Int.le_add_of_nonneg_right (by decide))

theorem passive_quiet : Passive Quiet Quiet :=
  passive_of_chains ⟨Quiet.refl, Quiet.trans, Quiet.trans⟩

theorem chains_quiet : Chains Quiet Quiet := passive_quiet.toChains

theorem refuses_quiet : Refuses Quiet := fun _ _ _ _ => ⟨by simp, rfl, Int.le_refl _, rfl, rfl⟩

theorem fills_quiet : FillsPlanes Quiet := fun _ _ _ _ _ => ⟨by simp, rfl, Int.le_refl _, rfl, rfl⟩

theorem unlocks_quiet (buffer : GraphicBuffer) : Allows Quiet (.unlock buffer) :=
  allows_quiet rfl fun _ _ => rfl

abbrev IsQuiet {α : Type} (m : Submission α) : Prop := Does Quiet Quiet m

section

variable {p : EinkDeviceProfile} {frame : Frame}

theorem quiet_mapColor {handle : Option GraphicBuffer} {input : List UInt8}
    {g : Backend → Backend} (hg : Keeps g) : IsQuiet (mapColor handle input g) :=
  does_mapColor chains_quiet (fun _ => allows_quiet rfl fun _ _ => rfl)
    (fun _ => allows_quiet rfl fun _ _ => rfl) fills_quiet
    (does_refuseUnlocked chains_quiet unlocks_quiet hg.quiet)

theorem quiet_loadConfiguration : IsQuiet (loadConfiguration frame) :=
  does_loadConfiguration chains_quiet (allows_quiet rfl fun _ _ => rfl)
    (allows_quiet rfl fun _ _ => rfl) (allows_quiet rfl fun _ _ => rfl)
    fun _ _ _ _ _ => ⟨by simp, rfl, Int.le_refl _, rfl, rfl⟩

theorem quiet_acquireColor : IsQuiet (acquireColor p frame) :=
  does_acquireColor chains_quiet refuses_quiet (fun _ => allows_quiet rfl fun _ _ => rfl)
    unlocks_quiet fun _ _ => ⟨by simp, rfl, Int.le_refl _, rfl, rfl⟩

/-- Where the marker loop gives up the backend is poisoned. -/
def Lost : BackendEffect := fun b l b' => Quiet b l b' ∧ b'.state = .poisoned

/-- The marker loop is quiet. -/
theorem sat_waitForMarkerStart {before : UInt32} {acceptedAt : TimePoint} {h : List VendorEvent}
    {b : Backend} {F : Assertion VendorCall VendorAnswer Backend} :
    (waitForMarkerStart before acceptedAt).Sat F
      (fun started h' b' => ∃ l, h' = h ++ l ∧ Quiet b l b' ∧
        (started = false → b'.state = .poisoned)) h b := by
  have hlost : Chains Lost Quiet :=
    ⟨Quiet.refl, Quiet.trans, fun hq hl => ⟨hq.trans hl.1, hl.2⟩⟩
  refine (sat_markerLoop (passive_of_chains hlost) fun b => ⟨keeps_uncertain.quiet b, rfl⟩).mono
    (fun _ _ hF => hF) ?_
  rintro started _ b' ⟨l, rfl, hstarted, hgone⟩
  cases started with
  | true => exact ⟨l, rfl, hstarted rfl, nofun⟩
  | false => exact ⟨l, rfl, (hgone rfl).1, fun _ => (hgone rfl).2⟩

end

/-! ### Through one `Submit` -/

section

variable {c₀ : TimePoint} {h₀ h l : List VendorEvent} {b b' : Backend} {p : EinkDeviceProfile}
  {frame : Frame} {c : Configuration}

/-- The updates so far were paced, and the backend's clock and counter are those of the calls. -/
structure Kept (c₀ : TimePoint) (h : List VendorEvent) (b : Backend) : Prop where
  guarded : EachEvent (PacingGuard c₀) h
  clock : b.clock = clockAfter c₀ h
  count : b.submissions = (updates h).length

/-- An early return: the time of the last submission is known, or the backend is poisoned. -/
structure Refused (c₀ : TimePoint) (h₀ h : List VendorEvent) (b : Backend) : Prop where
  kept : Kept c₀ h b
  returned : b.state = .poisoned ∨ ReturnedBy c₀ h b.lastSubmission
  covered : Covered h₀ h

/-- `Submit` may return here with its state as it is. -/
structure Safe (c₀ : TimePoint) (h₀ h : List VendorEvent) (b : Backend) : Prop where
  kept : Kept c₀ h b
  returned : ReturnedBy c₀ h b.lastSubmission
  covered : Covered h₀ h

/-- No update since `h₀`; one may follow, and there is room for `k`. -/
structure Fresh (c₀ : TimePoint) (h₀ : List VendorEvent) (k : Nat) (h : List VendorEvent)
    (b : Backend) : Prop extends Safe c₀ h₀ h b where
  since : updates h = updates h₀ ∧ ∃ l, h = h₀ ++ l
  ready : Ready c₀ h b.clock
  room : Within h ((updates h₀).length + k)

/-- A white has been accepted since `h₀`, and there is room for its target. -/
structure Whitened (c₀ : TimePoint) (h₀ h : List VendorEvent) (b : Backend) : Prop extends
    Safe c₀ h₀ h b where
  one : (updates h).length = (updates h₀).length + 1
  room : Within h ((updates h).length + 1)

theorem Kept.extend (hk : Kept c₀ h b) (hi : Idle b l b') : Kept c₀ (h ++ l) b' := by
  refine ⟨?_, ?_, ?_⟩
  · refine eachEvent_append_of_forall hk.guarded fun pre e he hu => ?_
    obtain ⟨o, r⟩ := e
    have hnone := List.filterMap_eq_nil_iff.mp hi.updates _ he
    cases o with
    | update a => simp at hnone
    | _ => cases hu
  · rw [hi.clock, clockAfter_append, hk.clock]
  · rw [hi.submissions, hk.count, updates_append, hi.updates, List.append_nil]

/-- Before the first update of a `Submit` every early return is harmless. -/
theorem Kept.refused (hk : Kept c₀ h₀ b)
    (hr : b.state = .poisoned ∨ ReturnedBy c₀ h₀ b.lastSubmission) (hi : Idle b l b')
    (hs : b'.state = b.state ∨ b.state ≠ .poisoned) : Refused c₀ h₀ (h₀ ++ l) b' := by
  refine ⟨hk.extend hi, ?_, covered_of_length (by simp [hi.updates])⟩
  rw [hi.lastSubmission]
  rcases hr with hpoisoned | hreturned
  · exact Or.inl ((hs.resolve_right (not_not.mpr hpoisoned)).trans hpoisoned)
  · exact Or.inr (hreturned.extend hi.updates (Int.le_refl _))

theorem Covered.extend (hc : Covered h₀ h) (hl : updates l = []) : Covered h₀ (h ++ l) := by
  intro pre a mid heq hpre hmid
  obtain ⟨mid', rfl, rfl⟩ := split_update heq hl
  rw [updates_append, hl, List.append_nil] at hmid
  exact hc pre a mid' rfl hpre hmid

theorem Safe.extend (hs : Safe c₀ h₀ h b) (hi : Idle b l b') : Safe c₀ h₀ (h ++ l) b' := by
  refine ⟨hs.kept.extend hi, ?_, hs.covered.extend hi.updates⟩
  rw [hi.lastSubmission]
  exact hs.returned.extend hi.updates (Int.le_refl _)

theorem Safe.refused (hs : Safe c₀ h₀ h b) : Refused c₀ h₀ h b :=
  ⟨hs.kept, Or.inr hs.returned, hs.covered⟩

/-- A quiet part, up to an early return of its own. -/
theorem Safe.sat {α : Type} {m : Submission α} {Q : α → Assertion VendorCall VendorAnswer Backend}
    (hs : Safe c₀ h₀ h b) (hm : IsQuiet m) (hQ : ∀ a l b', Quiet b l b' → Q a (h ++ l) b') :
    m.Sat (Refused c₀ h₀) Q h b :=
  hm.sat (fun _ _ hq => (hs.extend hq.idle).refused) hQ

theorem Safe.sat_refuseUnlocked {α : Type} {handle : Option GraphicBuffer} {g : Backend → Backend}
    {Q : α → Assertion VendorCall VendorAnswer Backend} (hs : Safe c₀ h₀ h b) (hg : Keeps g) :
    (refuseUnlocked handle g : Submission α).Sat (Refused c₀ h₀) Q h b := by
  rw [LowerEngine.sat_refuseUnlocked]
  have hunlock : Idle b (handle.toList.map fun buffer => ⟨.unlock buffer, ()⟩) b := by
    cases handle <;> exact ⟨rfl, rfl, rfl, rfl⟩
  exact (hs.extend (hunlock.keeps hg)).refused

theorem Fresh.extend {k : Nat} (hf : Fresh c₀ h₀ k h b) (hq : Quiet b l b') :
    Fresh c₀ h₀ k (h ++ l) b' := by
  have hl := updates_of_calls hq.calls
  obtain ⟨hmax, hmin⟩ := intReads_of_calls hq.calls
  obtain ⟨hcount, l₀, rfl⟩ := hf.since
  refine ⟨hf.toSafe.extend hq.idle, ⟨?_, l₀ ++ l, List.append_assoc _ _ _⟩,
    hf.ready.extend hl hmin hq.later, hf.room.extend (boolReads_of_calls hq.calls) hmax⟩
  rw [updates_append, hl, List.append_nil]
  exact hcount

theorem Whitened.extend (hw : Whitened c₀ h₀ h b) (hq : Quiet b l b') :
    Whitened c₀ h₀ (h ++ l) b' := by
  have hl := updates_of_calls hq.calls
  refine ⟨hw.toSafe.extend hq.idle, ?_, ?_⟩
  · rw [updates_append, hl, List.append_nil]
    exact hw.one
  · rw [updates_append, hl, List.append_nil]
    exact hw.room.extend (boolReads_of_calls hq.calls) (intReads_of_calls hq.calls).1

/-- A quiet part before the first update. -/
theorem Fresh.bind {α β : Type} {k : Nat} {m : Submission α} {f : α → Submission β}
    {Q : β → Assertion VendorCall VendorAnswer Backend} (hf : Fresh c₀ h₀ k h b) (hm : IsQuiet m)
    (hrest : ∀ a h b, Fresh c₀ h₀ k h b → (f a).Sat (Refused c₀ h₀) Q h b) :
    (m >>= f).Sat (Refused c₀ h₀) Q h b := by
  rw [sat_bind]
  exact hf.toSafe.sat hm fun a l t hq => hrest a _ t (hf.extend hq)

/-- An update at a moment that is right for it, and the reading of the clock after it. -/
theorem Kept.update (hk : Kept c₀ h b) (hroom : Within h ((updates h).length + 1))
    (hready : Ready c₀ h b.clock) (a : UpdateArguments) (r : Int) (passed : Nat) :
    EachEvent (PacingGuard c₀) (h ++ [⟨.update a, r⟩] ++ [⟨.now, passed⟩]) ∧
      clockAfter c₀ (h ++ [⟨.update a, r⟩] ++ [⟨.now, passed⟩]) = b.clock + passed ∧
      (updates (h ++ [⟨.update a, r⟩] ++ [⟨.now, passed⟩])).length = b.submissions + 1 := by
  refine ⟨?_, ?_, ?_⟩
  · refine eachEvent_append_singleton.mpr ⟨eachEvent_append_singleton.mpr ⟨hk.guarded, ?_⟩, nofun⟩
    intro _
    rw [← hk.clock]
    exact ⟨hroom, hready⟩
  · rw [clockAfter_append, clockAfter_append, ← hk.clock]
    rfl
  · rw [hk.count]
    have hnow : updates [(⟨.now, passed⟩ : VendorEvent)] = [] := rfl
    simp [hnow]

/-- The limit is read: everything up to it is within it. -/
theorem sat_activeSubmissionLimit {F : Assertion VendorCall VendorAnswer Backend}
    {Q : Nat → Assertion VendorCall VendorAnswer Backend}
    (hQ : ∀ limit l, updates l = [] → (∀ c, clockAfter c l = c) → intReads minIntervalName l = [] →
      (∀ total, total ≤ limit → Within (h ++ l) total) → Q limit (h ++ l) b) :
    (activeSubmissionLimit p).Sat F Q h b := by
  unfold activeSubmissionLimit
  rw [sat_bind, sat_continuousModeEnabled]
  intro continuous
  cases continuous with
  | true =>
    refine hQ _ [⟨.boolProperty _ _, true⟩] rfl (fun _ => rfl) rfl fun total _ => Or.inl ?_
    rw [boolReads_append, List.getLast?_append]
    rfl
  | false =>
    rw [if_neg (by simp), sat_bind, sat_intProperty]
    intro configured
    rw [sat_pure, List.append_assoc]
    refine hQ _ [⟨.boolProperty _ _, false⟩, ⟨.intProperty _ _, configured⟩] rfl
      (fun _ => rfl) rfl ?_
    intro total htotal
    refine Or.inr ⟨configured, ?_, ?_⟩
    · rw [intReads_append, List.getLast?_append]
      rfl
    · have hpos : 1 ≤ clamp configured 1 kM4HardSubmissionLimit := Int.le_max_left _ _
      omega

/-- State, input, budget and rate: what passes them may update the engine. -/
theorem sat_entryChecks (hk : Kept c₀ h₀ b)
    (hr : b.state = .poisoned ∨ ReturnedBy c₀ h₀ b.lastSubmission) :
    (entryChecks p frame).Sat (Refused c₀ h₀) (fun _ => Fresh c₀ h₀ 1) h₀ b := by
  unfold entryChecks
  rw [sat_bind, sat_get, sat_bind, sat_refuseIf]
  refine ⟨fun _ => ?_, fun hcond => ?_⟩
  · have hcounted : Idle b [] b.countRejected := ⟨rfl, rfl, rfl, rfl⟩
    have hrefused := hk.refused hr hcounted (Or.inl rfl)
    rwa [List.append_nil] at hrefused
  have hstate : b.state = .initialized := by
    simp only [Bool.or_eq_false_iff, decide_eq_false_iff_not, not_not] at hcond
    exact hcond.1
  have hlive : b.state ≠ .poisoned := by
    rw [hstate]
    decide
  -- so the last update has returned, and every refusal below leaves it at that
  have hreturned : ReturnedBy c₀ h₀ b.lastSubmission := hr.resolve_left hlive
  have hrefuse {l : List VendorEvent} {b' : Backend} (hi : Idle b l b') :
      Refused c₀ h₀ (h₀ ++ l) b' := hk.refused hr hi (Or.inr hlive)
  rw [sat_bind, sat_presentationEnabled]
  intro enabled
  rw [sat_bind, sat_refuseIf]
  refine ⟨fun _ => hrefuse ⟨rfl, rfl, rfl, rfl⟩, fun _ => ?_⟩
  rw [sat_bind, sat_continuousModeEnabled]
  intro continuous
  rw [sat_bind, sat_refuseIf, List.append_assoc]
  refine ⟨fun _ => hrefuse ⟨rfl, rfl, rfl, rfl⟩, fun _ => ?_⟩
  rw [sat_bind]
  refine sat_activeSubmissionLimit fun limit l hl hclock hmin hwithin => ?_
  have hmode : Idle b
      ([⟨.boolProperty "debug.neo2.eink.enabled" p.displayEnabledByDefault, enabled⟩] ++
      [⟨.boolProperty "debug.neo2.eink.continuous" p.displayEnabledByDefault, continuous⟩]) b :=
    ⟨rfl, rfl, rfl, rfl⟩
  have hlimit : Idle b l b := ⟨hl, (hclock _).symm, rfl, rfl⟩
  have hread := hmode.trans hlimit
  rw [sat_bind, sat_refuseIf, List.append_assoc]
  refine ⟨fun _ => hrefuse hread, fun hroom => ?_⟩
  -- there is room; the clock and the interval are read
  rw [sat_bind, sat_now]
  intro passed
  have hnow : Idle b [⟨.now, passed⟩] { b with clock := b.clock + passed } := ⟨rfl, rfl, rfl, rfl⟩
  rw [sat_bind, sat_minimumSubmissionInterval]
  intro configured
  have hinterval : Idle { b with clock := b.clock + passed }
      [⟨.intProperty "debug.neo2.eink.min_interval_ms" kM4DefaultMinimumIntervalMs, configured⟩]
      { b with clock := b.clock + passed } := ⟨rfl, rfl, rfl, rfl⟩
  have hall := (hread.trans hnow).trans hinterval
  rw [sat_refuseIf, List.append_assoc, List.append_assoc, ← List.append_assoc _ [_] [_]]
  refine ⟨fun _ => hrefuse (hall.keeps keeps_countRejected), fun hrate => ?_⟩
  have hsafe : Safe c₀ h₀ h₀ b := ⟨hk, hreturned, covered_of_length (by omega)⟩
  refine ⟨hsafe.extend hall, ⟨?_, _, rfl⟩, ?_, ?_⟩
  · rw [updates_append, hall.updates, List.append_nil]
  · refine hreturned.ready configured hall.updates ?_ fun hne => ?_
    · rw [intReads_append, List.getLast?_append]
      rfl
    · -- the rate is checked unless nothing has been submitted
      have hcount : b.submissions ≠ 0 := by
        rw [hk.count]
        exact fun hzero => hne (List.eq_nil_of_length_eq_zero hzero)
      have hlate : ¬ b.clock + passed - b.lastSubmission <
          clamp configured kM4MinimumIntervalMs kM4MaximumIntervalMs * nsPerMs := by
        simpa [hcount] using hrate
      show b.lastSubmission + clamp configured kM4MinimumIntervalMs kM4MaximumIntervalMs * nsPerMs ≤
        b.clock + passed
      exact Int.add_le_of_le_sub_left (Int.not_lt.mp hlate)
  · have hbelow : (updates h₀).length + 1 ≤ limit := by
      have hlt : ¬ b.submissions ≥ limit := of_decide_eq_false hroom
      rw [← hk.count]
      omega
    have hroom' := hwithin _ hbelow
    simp only [List.append_assoc] at hroom' ⊢
    have hext := Within.extend (l := [⟨.now, passed⟩,
      ⟨.intProperty "debug.neo2.eink.min_interval_ms" kM4DefaultMinimumIntervalMs, configured⟩])
      hroom' rfl rfl
    simpa using hext

/-! ### The white and its target -/

/-- A white is made only where there is room for the whole pair. -/
theorem sat_submitWhite {handle : Option GraphicBuffer} {gaps : QualityGaps}
    (hf : Fresh c₀ h₀ 1 h b) :
    (submitWhite p frame handle gaps).Sat (Refused c₀ h₀) (fun _ => Whitened c₀ h₀) h b := by
  unfold submitWhite
  rw [sat_bind, sat_get, sat_bind]
  refine sat_activeSubmissionLimit fun limit l hl hclock hmin hwithin => ?_
  have hidle : Idle b l b := ⟨hl, (hclock _).symm, rfl, rfl⟩
  rw [sat_ite]
  refine ⟨fun _ => ?_, fun hroom => ?_⟩
  · exact (hf.toSafe.extend hidle).sat_refuseUnlocked keeps_id
  -- the limit that was read admits two more
  have hpair : Fresh c₀ h₀ 2 (h ++ l) b := by
    obtain ⟨hcount, l₀, rfl⟩ := hf.since
    refine ⟨hf.toSafe.extend hidle, ⟨?_, l₀ ++ l, List.append_assoc _ _ _⟩,
      hf.ready.extend hl hmin (Int.le_refl _), hwithin _ ?_⟩
    · rw [updates_append, hl, List.append_nil]
      exact hcount
    · rw [← hcount, ← hf.kept.count]
      omega
  refine hpair.bind (quiet_mapColor keeps_poison) ?_
  rintro ⟨mapped, gray⟩ h₁ b₁ hf₁
  refine hf₁.bind (Does.onlyIf chains_quiet (does_sleepUntil passive_quiet _)) fun _ h₂ b₂ hf₂ => ?_
  refine hf₂.bind (does_now passive_quiet) fun _ h₃ b₃ hf₃ => ?_
  refine hf₃.bind (Does.call passive_quiet.submittedMarker) fun before h₄ b₄ hf₄ => ?_
  rw [sat_ite]
  refine ⟨fun _ => hf₄.toSafe.sat_refuseUnlocked keeps_poison, fun _ => ?_⟩
  obtain ⟨arguments, hinvoke⟩ := invokeUpdate_eq (p := p) handle (some mapped) gray ⟨3, 0, 0⟩
  rw [hinvoke, sat_bind, sat_update]
  intro result
  rw [sat_bind, sat_now]
  intro passed
  -- the white's return is the time of the last submission
  obtain ⟨hcount, l₀, rfl⟩ := hf₄.since
  have hone : Within (h₀ ++ l₀) ((updates (h₀ ++ l₀)).length + 1) := by
    refine hf₄.room.mono ?_
    rw [hcount]
    omega
  obtain ⟨hguarded, hclock', hlength⟩ := hf₄.kept.update hone hf₄.ready arguments result passed
  have hkept : Kept c₀ (h₀ ++ l₀ ++ [⟨.update arguments, result⟩] ++ [⟨.now, passed⟩])
      { b₄ with
        clock := b₄.clock + passed
        submissions := b₄.submissions + 1
        differentialSubmissions := b₄.differentialSubmissions + 1
        lastSubmission := b₄.clock + passed } := ⟨hguarded, hclock'.symm, hlength.symm⟩
  have hreturned : ReturnedBy c₀
      (h₀ ++ l₀ ++ [⟨.update arguments, result⟩] ++ [⟨.now, passed⟩]) (b₄.clock + passed) :=
    returnedBy_update (Int.le_of_eq (by rw [hf₄.kept.clock]))
  -- what is half done now is this white, and there was room for the pair before it
  have hcovered : Covered h₀ (h₀ ++ l₀ ++ [⟨.update arguments, result⟩] ++ [⟨.now, passed⟩]) := by
    intro pre a mid heq _ hmid
    have heq' : h₀ ++ l₀ ++ ⟨.update arguments, result⟩ :: [⟨.now, passed⟩] =
        h₀ ++ pre ++ ⟨.update a, kObservedUpdateAcceptedResult⟩ :: mid := by
      rw [← heq]
      simp
    obtain ⟨hpre, -⟩ := last_update_unique heq' rfl hmid
    rw [← hpre]
    exact hf₄.room
  rw [sat_bind, sat_modify, sat_ite]
  refine ⟨fun _ => ?_, fun _ => ?_⟩
  · have hsafe : Safe c₀ h₀ _ _ := ⟨hkept, hreturned, hcovered⟩
    exact hsafe.sat_refuseUnlocked fun _ => ⟨rfl, rfl, rfl⟩
  · rw [sat_bind, sat_modify, sat_pure]
    have hlen : (updates (h₀ ++ l₀ ++ [⟨.update arguments, result⟩] ++ [⟨.now, passed⟩])).length =
        (updates h₀).length + 1 := by
      rw [hlength, hf₄.kept.count, hcount]
    refine ⟨⟨⟨hguarded, hclock'.symm, hlength.symm⟩, hreturned, hcovered⟩, hlen, ?_⟩
    rw [hlen, List.append_assoc (h₀ ++ l₀)]
    exact hf₄.room.extend rfl rfl

/-- What the target finds: no update in this `Submit` yet, or an accepted white. -/
def Aimed (c₀ : TimePoint) (h₀ : List VendorEvent) (white : Option White) :
    Assertion VendorCall VendorAnswer Backend := fun h b =>
  match white with
  | none => Fresh c₀ h₀ 1 h b
  | some _ => Whitened c₀ h₀ h b

theorem sat_prepareColorTarget (hf : Fresh c₀ h₀ 1 h b) :
    (prepareColorTarget p frame c).Sat (Refused c₀ h₀)
      (fun target => Aimed c₀ h₀ target.white) h b := by
  unfold prepareColorTarget
  refine hf.bind quiet_acquireColor fun handle h₁ b₁ hf₁ => ?_
  have htreated : Keeps (treatColor c) := fun _ => ⟨rfl, rfl, rfl⟩
  refine hf₁.bind (Does.modify htreated.quiet) fun _ h₂ b₂ hf₂ => ?_
  refine hf₂.bind (does_prepareWhite chains_quiet tunes_quiet fills_quiet)
    fun whitened h₃ b₃ hf₃ => ?_
  have hmap (input : List UInt8) :
      IsQuiet (mapColor handle input fun b => b.countRejected.poison) :=
    quiet_mapColor fun _ => ⟨rfl, rfl, rfl⟩
  rw [sat_ite]
  refine ⟨fun _ => ?_, fun _ => ?_⟩
  · rw [sat_bind, sat_get]
    exact hf₃.bind (hmap _) fun _ _ _ hf₄ => hf₄
  · refine hf₃.bind (does_planGaps chains_quiet tunes_quiet) fun gaps h₄ b₄ hf₄ => ?_
    rw [sat_bind]
    refine (sat_submitWhite hf₄).mono (fun _ _ hr => hr) fun white h₅ b₅ hw => ?_
    rw [sat_bind, sat_get, sat_bind]
    exact hw.toSafe.sat (hmap _) fun _ l b' hq => hw.extend hq

theorem sat_prepareTarget (hf : Fresh c₀ h₀ 1 h b) :
    (prepareTarget p frame c).Sat (Refused c₀ h₀) (fun target => Aimed c₀ h₀ target.white) h b := by
  have harrange : IsQuiet (arrangeGrayscale p frame) :=
    does_arrangeGrayscale chains_quiet refuses_quiet fills_quiet
  refine hf.bind harrange fun gray h₁ b₁ hf₁ => ?_
  rw [sat_ite]
  exact ⟨fun _ => sat_prepareColorTarget hf₁, fun _ => hf₁⟩

/-- The target of a pair waits out its interval; a lone one has been ready since the entry. -/
theorem sat_awaitWhite {target : Target} (ha : Aimed c₀ h₀ target.white h b) :
    (awaitWhite target).Sat (Refused c₀ h₀)
      (fun _ h b => Aimed c₀ h₀ target.white h b ∧ Ready c₀ h b.clock) h b := by
  unfold awaitWhite
  cases hwhite : target.white with
  | none =>
    rw [hwhite] at ha
    have hf : Fresh c₀ h₀ 1 h b := ha
    exact ⟨hf, hf.ready⟩
  | some white =>
    rw [hwhite] at ha
    have hw : Whitened c₀ h₀ h b := ha
    dsimp only
    rw [sat_bind, sat_minimumSubmissionInterval]
    intro configured
    rw [sat_bind, sat_get, sat_bind, sat_sleepUntil]
    intro overshoot
    -- the interval is counted from the white's return
    have hread : Idle b [⟨.intProperty "debug.neo2.eink.min_interval_ms"
      kM4DefaultMinimumIntervalMs,
        configured⟩] b := ⟨rfl, rfl, rfl, rfl⟩
    have hslept : Quiet b [⟨.sleepUntil (b.lastSubmission +
        max (clamp configured kM4MinimumIntervalMs kM4MaximumIntervalMs * nsPerMs)
          target.gaps.between), overshoot⟩] { b with
        clock := max b.clock (b.lastSubmission +
          max (clamp configured kM4MinimumIntervalMs kM4MaximumIntervalMs * nsPerMs)
            target.gaps.between) + overshoot } :=
      quiet_clock rfl rfl (Int.le_max_left _ _)
    have hafter := hread.trans hslept.idle
    have hready : Ready c₀ (h ++ ([⟨.intProperty "debug.neo2.eink.min_interval_ms"
          kM4DefaultMinimumIntervalMs, configured⟩] ++ [⟨.sleepUntil (b.lastSubmission +
        max (clamp configured kM4MinimumIntervalMs kM4MaximumIntervalMs * nsPerMs)
          target.gaps.between), overshoot⟩])) (max b.clock (b.lastSubmission +
          max (clamp configured kM4MinimumIntervalMs kM4MaximumIntervalMs * nsPerMs)
            target.gaps.between) + overshoot) := by
      refine hw.returned.ready configured hafter.updates rfl fun _ => ?_
      -- the deadline is at least the interval behind the return, and the wait may overshoot it
      have hmax := Int.le_max_left
        (clamp configured kM4MinimumIntervalMs kM4MaximumIntervalMs * nsPerMs) target.gaps.between
      have hdeadline := Int.le_max_right b.clock (b.lastSubmission +
        max (clamp configured kM4MinimumIntervalMs kM4MaximumIntervalMs * nsPerMs)
          target.gaps.between)
      have hover : (0 : Int) ≤ (overshoot : Int) := Int.natCast_nonneg _
      exact Int.le_trans (Int.add_le_add_left hmax _)
        (Int.le_trans hdeadline (Int.le_add_of_nonneg_right hover))
    have hwhitened : Whitened c₀ h₀ (h ++ [⟨.intProperty "debug.neo2.eink.min_interval_ms"
        kM4DefaultMinimumIntervalMs, configured⟩]) b := by
      refine ⟨hw.toSafe.extend hread, ?_, ?_⟩
      · rw [updates_append, hread.updates, List.append_nil]
        exact hw.one
      · rw [updates_append, hread.updates, List.append_nil]
        exact hw.room.extend rfl rfl
    have hwhitened' := hwhitened.extend hslept
    rw [← List.append_assoc] at hready
    rw [sat_bind]
    refine sat_waitForMarkerStart.mono (fun _ _ hF => hF) ?_
    rintro started _ b' ⟨l, rfl, hq, -⟩
    have hdone := hwhitened'.extend hq
    rw [sat_ite]
    refine ⟨fun _ => ⟨hdone, ?_⟩, fun _ => hdone.toSafe.sat_refuseUnlocked keeps_id⟩
    exact hready.extend (updates_of_calls hq.calls) (intReads_of_calls hq.calls).2 hq.later

/-! ### The target and the rest -/

/-- The target's call has returned; a pair is complete. -/
structure Done (c₀ : TimePoint) (h₀ : List VendorEvent) (paired : Bool) (h : List VendorEvent)
    (b : Backend) : Prop where
  kept : Kept c₀ h b
  returned : ReturnedBy c₀ h b.clock
  covered : paired = true → Covered h₀ h

theorem Done.extend {paired : Bool} (hd : Done c₀ h₀ paired h b) (hq : Quiet b l b') :
    Done c₀ h₀ paired (h ++ l) b' :=
  ⟨hd.kept.extend hq.idle, hd.returned.extend (updates_of_calls hq.calls) hq.later,
    fun hp => (hd.covered hp).extend (updates_of_calls hq.calls)⟩

theorem Kept.keeps {g : Backend → Backend} (hk : Kept c₀ h b) (hg : Keeps g) : Kept c₀ h (g b) := by
  have hextended := hk.extend (hg.quiet b).idle
  rwa [List.append_nil] at hextended

theorem quiet_readTargetMarker {target : Target} : IsQuiet (readTargetMarker target) :=
  does_readTargetMarker passive_quiet
    (does_refuseUnlocked chains_quiet unlocks_quiet keeps_uncertain.quiet)

/-- Before its update the target is safe to refuse, and has room. -/
theorem Aimed.room {white : Option White} (ha : Aimed c₀ h₀ white h b) :
    Safe c₀ h₀ h b ∧ Within h ((updates h).length + 1) ∧
      (white.isSome = true → (updates h).length = (updates h₀).length + 1) := by
  cases white with
  | none =>
    have hf : Fresh c₀ h₀ 1 h b := ha
    refine ⟨hf.toSafe, ?_, nofun⟩
    rw [hf.since.1]
    exact hf.room
  | some white =>
    have hw : Whitened c₀ h₀ h b := ha
    exact ⟨hw.toSafe, hw.room, fun _ => hw.one⟩

theorem Aimed.extend {white : Option White} (ha : Aimed c₀ h₀ white h b) (hq : Quiet b l b') :
    Aimed c₀ h₀ white (h ++ l) b' := by
  cases white with
  | none => exact Fresh.extend ha hq
  | some white => exact Whitened.extend ha hq

theorem sat_submitTarget {target : Target} {envelope : ObservedUpdateEnvelope}
    (ha : Aimed c₀ h₀ target.white h b) (hready : Ready c₀ h b.clock) :
    (submitTarget p frame target envelope).Sat (Refused c₀ h₀)
      (fun _ => Done c₀ h₀ target.white.isSome) h b := by
  unfold submitTarget
  rw [sat_bind]
  refine ha.room.1.sat (does_now passive_quiet) fun _ l₁ b₁ hq₁ => ?_
  -- neither reading the clock nor the marker touches what the wait has established
  have ha₁ := ha.extend hq₁
  rw [sat_bind]
  refine ha₁.room.1.sat quiet_readTargetMarker fun before l₂ b₂ hq₂ => ?_
  have hq := hq₁.trans hq₂
  have hready₂ := hready.extend (updates_of_calls hq.calls) (intReads_of_calls hq.calls).2 hq.later
  rw [← List.append_assoc] at hready₂
  obtain ⟨hsafe, hroom, hone⟩ := (ha₁.extend hq₂).room
  obtain ⟨arguments, hinvoke⟩ :=
    invokeUpdate_eq (p := p) target.composeHandle target.mappedRgba target.gray envelope
  generalize h ++ l₁ ++ l₂ = h₂ at hready₂ hsafe hroom hone ⊢
  rw [hinvoke, sat_bind, sat_update]
  intro result
  rw [sat_bind, sat_now]
  intro passed
  obtain ⟨hguarded, hclock, hlength⟩ := hsafe.kept.update hroom hready₂ arguments result passed
  have hreturned : ReturnedBy c₀ (h₂ ++ [⟨.update arguments, result⟩] ++ [⟨.now, passed⟩])
      (b₂.clock + passed) := returnedBy_update (Int.le_of_eq (by rw [hsafe.kept.clock]))
  have hunlock : Does Never Quiet
      (onlyIf (p.variant = .auraC) (unlockHandle target.composeHandle)) :=
    Does.onlyIf chains_quiet.never (does_unlockHandle chains_quiet.never unlocks_quiet _)
  rw [sat_bind]
  refine hunlock.sat (fun _ _ hnever => hnever.elim) fun _ l₃ b₃ hq₃ => ?_
  rw [sat_bind, sat_modify, sat_bind, sat_refuseIf]
  -- the update is counted
  have hcounted : Kept c₀ (h₂ ++ [⟨.update arguments, result⟩] ++ [⟨.now, passed⟩] ++ l₃)
      (let b := { b₃ with updateResult := result, submissions := b₃.submissions + 1 }
      if isDifferential frame then
        { b with differentialSubmissions := b.differentialSubmissions + 1 }
      else { b with fullControlSubmissions := b.fullControlSubmissions + 1 }) := by
    have hk : Kept c₀ (h₂ ++ [⟨.update arguments, result⟩] ++ [⟨.now, passed⟩])
        { b₂ with clock := b₂.clock + passed, submissions := b₂.submissions + 1 } :=
      ⟨hguarded, hclock.symm, hlength.symm⟩
    refine hk.extend ⟨updates_of_calls hq₃.calls, ?_, ?_, ?_⟩
    · dsimp only
      split <;> exact hq₃.clock
    · dsimp only
      split <;> exact congrArg (· + 1) hq₃.submissions
    · dsimp only
      split <;> exact hq₃.lastSubmission
  have hnone : updates ([⟨.now, passed⟩] ++ l₃) = [] := by
    rw [updates_append, updates_of_calls hq₃.calls]
    rfl
  refine ⟨fun hresult => ?_, fun _ => ?_⟩
  · -- a refused target is not half of a pair
    have hfailed : Keeps fun b => { b.poison with
        differentialFailures := b.differentialFailures + (isDifferential frame).toNat } :=
      fun _ => ⟨rfl, rfl, rfl⟩
    refine ⟨hcounted.keeps hfailed, Or.inl rfl, ?_⟩
    have hsplit : h₂ ++ [⟨.update arguments, result⟩] ++ [⟨.now, passed⟩] ++ l₃ =
        h₂ ++ ⟨.update arguments, result⟩ :: ([⟨.now, passed⟩] ++ l₃) := by simp
    exact covered_of_refused hsplit hnone (of_decide_eq_true hresult)
  · refine ⟨hcounted, ?_, fun hpaired => covered_of_length ?_⟩
    · refine hreturned.extend (updates_of_calls hq₃.calls) ?_
      dsimp only
      split <;> exact hq₃.later
    · have hlen := hone hpaired
      rw [List.append_assoc, List.append_assoc, updates_append, updates_append, hnone,
        List.append_nil, List.length_append, hlen]
      simp

/-- A target that is not seen started poisons the backend. -/
theorem sat_awaitTarget {target : Target} {submitted : White}
    (hd : Done c₀ h₀ target.white.isSome h b) :
    (awaitTarget target submitted).Sat (Refused c₀ h₀)
      (fun _ => Done c₀ h₀ target.white.isSome) h b := by
  unfold awaitTarget onlyIf
  rw [sat_ite]
  refine ⟨fun hpaired => ?_, fun _ => hd⟩
  rw [sat_bind]
  refine sat_waitForMarkerStart.mono (fun _ _ hF => hF) ?_
  rintro displayed _ b' ⟨l, rfl, hq, hpoisoned⟩
  have hdone := hd.extend hq
  rw [sat_refuseIf]
  refine ⟨fun hgone => ?_, fun _ => hdone⟩
  exact ⟨hdone.kept, Or.inl (hpoisoned (by simpa using hgone)), hdone.covered hpaired⟩

theorem sat_acceptTarget {target : Target} {submitted : White} {started : TimePoint}
    (hd : Done c₀ h₀ target.white.isSome h b) :
    (acceptTarget p frame c started target submitted).Sat (Refused c₀ h₀)
      (fun _ => Done c₀ h₀ target.white.isSome) h b := by
  unfold acceptTarget
  rw [onlyIf, sat_ite]
  refine ⟨fun _ => ?_, fun _ => hd⟩
  rw [sat_bind]
  refine (sat_awaitTarget hd).mono (fun _ _ hF => hF) fun _ h₁ b₁ hd₁ => ?_
  have hrest : Does Never Quiet (do
      modify fun b =>
        if c.qualityEnabled && frame.sleepImageEpoch = 0 then
          { b with qualityHistory := b.qualityHistory.accept b.colorInput }
        else b.resetQualityHistory
      onlyIf target.white.isSome do
        let time ← now
        modify fun b => { b with
          qualitySequences := b.qualitySequences + 1
          qualityWhitenedPixels := target.whitenedPixels
          latestQualityNs := time - started }) := by
    have hhistory : Keeps fun b =>
        if c.qualityEnabled && frame.sleepImageEpoch = 0 then
          { b with qualityHistory := b.qualityHistory.accept b.colorInput }
        else b.resetQualityHistory := by
      intro b
      dsimp only
      split
      · exact ⟨rfl, rfl, rfl⟩
      · exact ⟨rfl, rfl, rfl⟩
    have hcount (time : TimePoint) : Keeps fun b => { b with
        qualitySequences := b.qualitySequences + 1
        qualityWhitenedPixels := target.whitenedPixels
        latestQualityNs := time - started } := fun _ => ⟨rfl, rfl, rfl⟩
    have hp := passive_quiet.never
    refine Does.bind hp.toChains (Does.modify hhistory.quiet) fun _ => ?_
    exact Does.onlyIf hp.toChains <| Does.bind hp.toChains (does_now hp) fun time =>
      Does.modify (hcount time).quiet
  exact hrest.sat (fun _ _ hnever => hnever.elim) fun _ l b' hq => hd₁.extend hq

/-- The time of the last submission is not before its call returned. -/
theorem sat_finish {target : Target} {returned : TimePoint} {paired : Bool}
    (hd : Done c₀ h₀ paired h b) :
    (finish p frame target returned).Sat (Refused c₀ h₀)
      (fun _ h b => Kept c₀ h b ∧ ReturnedBy c₀ h b.lastSubmission) h b := by
  unfold finish
  have hhold : Does Never Quiet (onlyIf (target.gaps.automatic && target.white.isSome)
      (sleepUntil (returned + target.gaps.after))) :=
    Does.onlyIf chains_quiet.never (does_sleepUntil passive_quiet.never _)
  rw [sat_bind]
  refine hhold.sat (fun _ _ hnever => hnever.elim) fun _ l₁ b₁ hq₁ => ?_
  have hd₁ := hd.extend hq₁
  rw [sat_bind, sat_now]
  intro passed
  have hclock : Quiet b₁ [⟨.now, passed⟩] { b₁ with clock := b₁.clock + passed } :=
    quiet_clock rfl rfl (Int.le_refl _)
  have hd₂ := hd₁.extend hclock
  rw [sat_bind, sat_modify, sat_bind, sat_continuousModeEnabled]
  intro continuous
  rw [sat_modify]
  have hread : Idle { b₁ with clock := b₁.clock + passed }
      [⟨.boolProperty "debug.neo2.eink.continuous" p.displayEnabledByDefault, continuous⟩]
      { b₁ with clock := b₁.clock + passed } := ⟨rfl, rfl, rfl, rfl⟩
  have hkept := hd₂.kept.extend hread
  have hreturned := hd₂.returned.extend hread.updates (Int.le_refl _)
  dsimp only
  split
  · exact ⟨⟨hkept.guarded, hkept.clock, hkept.count⟩, hreturned⟩
  · exact ⟨⟨hkept.guarded, hkept.clock, hkept.count⟩, hreturned⟩

/-- **One `Submit`** after the calls `h₀`. -/
theorem sat_submit (hk : Kept c₀ h₀ b)
    (hr : b.state = .poisoned ∨ ReturnedBy c₀ h₀ b.lastSubmission) :
    (submit p frame).Sat (Refused c₀ h₀)
      (fun _ h b => Kept c₀ h b ∧ ReturnedBy c₀ h b.lastSubmission) h₀ b := by
  unfold submit
  rw [sat_bind]
  refine (sat_entryChecks hk hr).mono (fun _ _ hF => hF) fun _ h₁ b₁ hf₁ => ?_
  refine hf₁.bind (does_now passive_quiet) fun started h₂ b₂ hf₂ => ?_
  refine hf₂.bind quiet_loadConfiguration fun c h₃ b₃ hf₃ => ?_
  refine hf₃.bind (does_selectEnvelope chains_quiet refuses_quiet) fun envelope h₄ b₄ hf₄ => ?_
  rw [sat_bind]
  refine (sat_prepareTarget hf₄).mono (fun _ _ hF => hF) fun target h₅ b₅ ha₅ => ?_
  rw [sat_bind]
  refine (sat_awaitWhite ha₅).mono (fun _ _ hF => hF) ?_
  rintro - h₆ b₆ ⟨ha₆, hready⟩
  rw [sat_bind]
  refine (sat_submitTarget ha₆ hready).mono (fun _ _ hF => hF) fun submitted h₇ b₇ hd₇ => ?_
  rw [sat_bind]
  exact (sat_acceptTarget hd₇).mono (fun _ _ hF => hF) fun _ _ _ hd₈ => sat_finish hd₈

end

/-! ### Runs -/

/-- The calls of a run, in order. -/
def allCalls (log : List Submitted) : List VendorEvent := log.flatMap Submitted.calls

@[simp] theorem allCalls_append (log log' : List Submitted) :
    allCalls (log ++ log') = allCalls log ++ allCalls log' := List.flatMap_append

/-- A `Submit` that was refused left no pair half done for want of budget. -/
def PairCovered (pre : List Submitted) (x : Submitted) : Prop :=
  x.accepted = false → Covered (allCalls pre) (allCalls pre ++ x.calls)

theorem sound_of_run {p : EinkDeviceProfile} {b t : Backend} {as : List SubmitAction}
    {log : List Submitted} (hstart : b.submissions = 0)
    (hrun : (system p).Run System.anyAction b as log t) :
    Kept b.clock (allCalls log) t ∧
      (t.state = .poisoned ∨ ReturnedBy b.clock (allCalls log) t.lastSubmission) ∧
      EachEvent PairCovered log := by
  refine hrun.induct (fun _ log t => Kept b.clock (allCalls log) t ∧
    (t.state = .poisoned ∨ ReturnedBy b.clock (allCalls log) t.lastSubmission) ∧
    EachEvent PairCovered log) ⟨⟨eachEvent_nil _, rfl, hstart⟩, Or.inr ?_, eachEvent_nil _⟩ ?_
  · intro pre a r mid hnil
    simp [allCalls] at hnil
  rintro - log t a u evs ⟨hkept, hreturned, hcovered⟩ - hs
  obtain ⟨result, hreplay, rfl⟩ := step_cases hs
  obtain ⟨haccepted, hrefused⟩ := sat_replay (sat_submit hkept hreturned) hreplay
  have hcalls : allCalls (log ++ [⟨a.frame, a.calls, result.isSome⟩]) = allCalls log ++
    a.calls := by
    simp [allCalls]
  rw [hcalls]
  cases result with
  | none =>
    have hr := hrefused rfl
    exact ⟨hr.kept, hr.returned, eachEvent_append_singleton.mpr ⟨hcovered, fun _ => hr.covered⟩⟩
  | some r =>
    obtain ⟨hk, hret⟩ := haccepted r rfl
    exact ⟨hk, Or.inr hret, eachEvent_append_singleton.mpr ⟨hcovered, nofun⟩⟩

/-- The last update of a list that has one. -/
theorem exists_last_update {l : List VendorEvent} (hne : updates l ≠ []) :
    ∃ pre a r mid, l = pre ++ ⟨.update a, r⟩ :: mid ∧ updates mid = [] := by
  induction l using List.reverseRecOn with
  | nil => exact absurd updates_nil hne
  | append_singleton l e ih =>
    by_cases he : e.1.isUpdate = true
    · obtain ⟨o, r⟩ := e
      cases o with
      | update a => exact ⟨l, a, r, [], rfl, rfl⟩
      | _ => cases he
    · have hnone : updates [e] = [] := updates_cons_silent (Bool.eq_false_iff.mpr he) []
      rw [updates_append, hnone, List.append_nil] at hne
      obtain ⟨pre, a, r, mid, rfl, hmid⟩ := ih hne
      exact ⟨pre, a, r, mid ++ [e], by simp, by rw [updates_append, hmid, hnone]; rfl⟩

end Pacing

open Pacing

/-- **Pacing and budget**, over any run of `Submit`s of a backend that has made no update yet: every
update has room under the limit read for it and is spaced from the one before it by the interval
read for it; no pair is left half done for want of budget; the counter counts every update; and
while the mode is read as finite there are at most 24 of them. -/
theorem update_pacing {p : EinkDeviceProfile} {b t : Backend} {as : List SubmitAction}
    {log : List Submitted} (hstart : b.submissions = 0)
    (hrun : (system p).Run System.anyAction b as log t) :
    EachEvent (PacingGuard b.clock) (allCalls log) ∧
    EachEvent PairCovered log ∧
    t.submissions = (updates (allCalls log)).length ∧
    ((∀ continuous ∈ boolReads continuousName (allCalls log), continuous = false) →
      (updates (allCalls log)).length ≤ kM4HardSubmissionLimit) := by
  obtain ⟨hkept, -, hcovered⟩ := sound_of_run hstart hrun
  refine ⟨hkept.guarded, hcovered, hkept.count, fun hfinite => ?_⟩
  by_cases hne : updates (allCalls log) = []
  · rw [hne]
    exact Nat.zero_le _
  obtain ⟨pre, a, r, mid, hsplit, hmid⟩ := exists_last_update hne
  obtain ⟨hwithin, -⟩ := hkept.guarded pre ⟨.update a, r⟩ mid hsplit rfl
  have hlength : (updates (allCalls log)).length = (updates pre).length + 1 := by
    rw [hsplit]
    simp [hmid]
  rw [hlength]
  rcases hwithin with hcontinuous | ⟨configured, -, htotal⟩
  · have hmem : true ∈ boolReads continuousName (allCalls log) := by
      rw [hsplit, boolReads_append]
      exact List.mem_append_left _ (List.mem_of_getLast? hcontinuous)
    exact absurd (hfinite true hmem) (by decide)
  · have hmax : clamp configured 1 kM4HardSubmissionLimit ≤ kM4HardSubmissionLimit := by
      unfold clamp
      exact Int.max_le.mpr ⟨by decide, Int.min_le_right _ _⟩
    omega

/-- A frame without a white. -/
def plainPixelFrame : Frame := { pixelFrame with diagnosticRefresh := .full }

def nextPairFrame : Frame := { pixelFrame with sequence := 2, diagnosticRequest := 2 }

/-- A plain frame and a pair after it, both accepted: the white of the pair is paced by the plain
update, the target by the white. -/
theorem update_pacing_of_two_frames :
    ∃ (as : List SubmitAction) (log : List Submitted) (t : Backend),
      (system pixelProfile).Run System.anyAction { state := .initialized } as log t ∧
      log.map (fun x => (x.accepted, (updates x.calls).length)) = [(true, 1), (true, 2)] ∧
      t.submissions = 3 ∧ EachEvent (PacingGuard 0) (allCalls log) ∧ EachEvent PairCovered log ∧
      (updates (allCalls log)).length ≤ kM4HardSubmissionLimit := by
  have hfirst := step_submitAccepted 0 { state := .initialized } plainPixelFrame
  have hsecond := step_submitAccepted 0
    (submitAccepted 0 { state := .initialized } plainPixelFrame).2.2 nextPairFrame
  have hrun : (system pixelProfile).Run System.anyAction _ _ _ _ := .single trivial hfirst
  have hrun := hrun.trans (.single trivial hsecond)
  obtain ⟨hguarded, hcovered, -, hlimited⟩ := update_pacing rfl hrun
  refine ⟨_, _, _, hrun, ?_, ?_, hguarded, hcovered, hlimited ?_⟩
  · decide +kernel
  · decide +kernel
  · -- the mode is read as finite
    decide +kernel

end EinkLab.LowerEngine
