import EinkLab.FrontLight.Equiv.Off
import EinkLab.FrontLight.Stack

/-!
# What a request writes

`apply_cases` says what a manual request can do: nothing, or write what the calibration makes of it,
in order and up to the first failure, after which nothing is ever written again.
`Nodes.foldl_write` says what the nodes hold afterwards.
-/

namespace EinkLab.FrontLight

variable {system : Sysfs} {contents : List Char}

/-! ### Endpoints -/

/-- `endpoints` is the payload, perhaps without secondary endpoints. -/
def Payload.Trims (payload endpoints : Payload) : Prop :=
  ∃ cold warm, (cold = payload.coldSecondaryPath ∨ cold = []) ∧
    (warm = payload.warmSecondaryPath ∨ warm = []) ∧
    endpoints = { payload with coldSecondaryPath := cold, warmSecondaryPath := warm }

theorem Payload.Trims.refl (payload : Payload) : payload.Trims payload :=
  ⟨_, _, Or.inl rfl, Or.inl rfl, rfl⟩

/-- Endpoints do not matter to what is written there. -/
theorem Payload.Trims.resolve {payload endpoints : Payload} (h : payload.Trims endpoints)
    (request : ManualFrontLightRequest) : endpoints.resolve request = payload.resolve request := by
  obtain ⟨cold, warm, -, -, rfl⟩ := h
  rfl

theorem secondaryPreflight_cases (system : Sysfs) (path : Path) :
    secondaryPreflight system path = some path ∨ secondaryPreflight system path = some [] ∨
      secondaryPreflight system path = none := by
  unfold secondaryPreflight
  split
  · exact Or.inl rfl
  · split
    · exact Or.inr (Or.inl rfl)
    · exact Or.inr (Or.inr rfl)

theorem trims_preflight (system : Sysfs) {payload endpoints : Payload}
    (h : payload.Trims endpoints) :
    payload.Trims (preflight system endpoints).1 := by
  obtain ⟨cold, warm, hcold, hwarm, rfl⟩ := h
  have hpath : ∀ {path original : Path}, path = original ∨ path = [] →
      (secondaryPreflight system path).getD path = original ∨
        (secondaryPreflight system path).getD path = [] := by
    intro path original h
    rcases secondaryPreflight_cases system path with heq | heq | heq <;> rw [heq]
    · exact h
    · exact Or.inr rfl
    · exact h
  exact ⟨_, _, hpath hcold, hpath hwarm, rfl⟩

/-- The calibration is always read with these contents, if it can be read. -/
def ReadsOnly (contents : List Char) (system : Sysfs) : Prop :=
  ∀ read, system.calibrationFile = some read → read = contents

/-- What the backend has loaded is what the calibration says. -/
def Calibrated (contents : List Char) (backend : DirectBackend) : Prop :=
  ∀ endpoints, backend.payload = some endpoints →
    ∃ payload, parsePayload contents = some payload ∧ payload.isUsable = true ∧
      payload.Trims endpoints

theorem Calibrated.load {backend : DirectBackend} (h : Calibrated contents backend)
    (hreads : ReadsOnly contents system) : Calibrated contents (backend.load system) := by
  unfold DirectBackend.load
  split
  · exact h
  · split
    · exact h
    · next payload hread =>
      split
      · next husable =>
        obtain ⟨read, hfile, hparse⟩ := Option.bind_eq_some_iff.mp hread
        intro endpoints heq
        obtain rfl := Option.some.inj heq
        exact ⟨payload, hreads read hfile ▸ hparse, husable, .refl payload⟩
      · exact h

theorem Calibrated.poll {backend : DirectBackend} (h : Calibrated contents backend)
    (hreads : ReadsOnly contents system) : Calibrated contents (backend.poll system).2 := by
  have hload := h.load hreads
  unfold DirectBackend.poll
  split
  · exact h
  · dsimp only
    split
    · exact hload
    · next endpoints hendpoints =>
      split
      · exact hload
      · intro trimmed heq
        obtain rfl := Option.some.inj heq
        obtain ⟨payload, hparse, husable, htrims⟩ := hload endpoints hendpoints
        exact ⟨payload, hparse, husable, trims_preflight system htrims⟩

/-! ### Writes -/

/-- Everything is written, or the first write that fails is the last that is tried. -/
theorem writeAll_spec (system : Sysfs) (ws : List (Path × UInt16)) :
    (DirectBackend.writeAll system ws).1 = true ∧ (DirectBackend.writeAll system ws).2 = ws ∧
        (∀ w ∈ ws, system.writeCode w.1 w.2 = true) ∨
      (DirectBackend.writeAll system ws).1 = false ∧
        (DirectBackend.writeAll system ws).2 <+: ws := by
  induction ws with
  | nil => exact Or.inl ⟨rfl, rfl, fun w hw => absurd hw List.not_mem_nil⟩
  | cons w rest ih =>
    unfold DirectBackend.writeAll
    split
    · next hwritten =>
      rcases ih with ⟨hok, hall, heach⟩ | ⟨hfailed, hprefix⟩
      · refine Or.inl ⟨hok, congrArg (w :: ·) hall, fun w' hw' => ?_⟩
        rcases List.mem_cons.mp hw' with rfl | hw'
        · exact hwritten
        · exact heach w' hw'
      · exact Or.inr ⟨hfailed, (List.prefix_cons_inj w).mpr hprefix⟩
    · exact Or.inr ⟨rfl, (List.prefix_cons_inj w).mpr (List.nil_prefix)⟩

/-- A sequence of writes fails at the last one that is tried, the only one that is refused. -/
theorem refused_writeAll (system : Sysfs) (ws : List (Path × UInt16)) :
    ((DirectBackend.writeAll system ws).1 = true →
        (DirectBackend.writeAll system ws).2.filter (fun w => !system.writeCode w.1 w.2) = []) ∧
      ((DirectBackend.writeAll system ws).1 = false →
        ∃ w, (DirectBackend.writeAll system ws).2.getLast? = some w ∧
          (DirectBackend.writeAll system ws).2.filter (fun w => !system.writeCode w.1 w.2) =
            [w]) := by
  induction ws with
  | nil => exact ⟨fun _ => rfl, fun h => (by cases h)⟩
  | cons w rest ih =>
    unfold DirectBackend.writeAll
    split
    · next hwritten =>
      -- this write is taken, so that the rest decides
      have htaken : (!system.writeCode w.1 w.2) = false := by
        rw [hwritten]
        rfl
      refine ⟨fun hok => ?_, fun hfailed => ?_⟩
      · rw [List.filter_cons_of_neg (by rw [htaken]; decide)]
        exact ih.1 hok
      · obtain ⟨last, hlast, hrefused⟩ := ih.2 hfailed
        refine ⟨last, ?_, ?_⟩
        · rw [List.getLast?_cons, hlast]
          rfl
        · rw [List.filter_cons_of_neg (by rw [htaken]; decide)]
          exact hrefused
    · next hrefused =>
      refine ⟨fun h => (by cases h), fun _ => ⟨w, rfl, ?_⟩⟩
      rw [List.filter_cons_of_pos (by simpa using hrefused)]
      rfl

def FrontLightControlOutcome.IsSuccess (outcome : FrontLightControlOutcome) : Prop :=
  outcome = .kApplied ∨ outcome = .kCapped ∨ outcome = .kOff

/-- The backend refuses a request without a write, or writes what it resolves to. -/
theorem applyManualRequest_cases (system : Sysfs) (backend : DirectBackend)
    (request : ManualFrontLightRequest) :
    let r := backend.applyManualRequest system request
    let polled := backend.poll system
    ((r.outcome = .kUnavailable ∨ r.outcome = .kRejected) ∧ r.written = [] ∧ r.backend = polled.2) ∨
      ∃ endpoints resolution, polled.2.writesBlocked = false ∧ polled.1 = true ∧
        polled.2.payload = some endpoints ∧ endpoints.resolve request = some resolution ∧
        let writes := DirectBackend.writeAll system (DirectBackend.writes endpoints resolution)
        r.written = writes.2 ∧
        (writes.1 = true → r.outcome.IsSuccess ∧ r.backend = polled.2 ∧
          (r.outcome = .kApplied → request.brightnessPercent ≠ 0)) ∧
        (writes.1 = false →
          r.outcome = .kFailed ∧ r.backend = { polled.2 with writesBlocked := true }) := by
  unfold DirectBackend.applyManualRequest
  dsimp only
  generalize backend.poll system = polled
  obtain ⟨ready, backend⟩ := polled
  cases ready with
  | false => exact Or.inl ⟨Or.inl rfl, rfl, rfl⟩
  | true =>
    rw [if_neg (show ¬ (!true) = true by decide)]
    cases hloaded : backend.payload with
    | none => exact Or.inl ⟨Or.inl rfl, rfl, rfl⟩
    | some endpoints =>
      dsimp only
      -- a failed preflight or an earlier failure keeps the backend from writing
      by_cases hblocked : (!backend.preflightSucceeded || backend.writesBlocked) = true
      · rw [if_pos hblocked]
        exact Or.inl ⟨Or.inl rfl, rfl, rfl⟩
      rw [if_neg hblocked]
      have hopen : backend.writesBlocked = false := by
        simp only [Bool.or_eq_true, Bool.not_eq_true', not_or, Bool.not_eq_true] at hblocked
        exact hblocked.2
      cases hresolve : endpoints.resolve request with
      | none => exact Or.inl ⟨Or.inr rfl, rfl, rfl⟩
      | some resolution =>
        refine Or.inr ⟨endpoints, resolution, hopen, rfl, rfl, hresolve, ?_⟩
        dsimp only
        generalize DirectBackend.writeAll system (DirectBackend.writes endpoints resolution) =
          writes
        obtain ⟨succeeded, written⟩ := writes
        cases succeeded with
        | false => exact ⟨rfl, fun h => (by cases h), fun _ => ⟨rfl, rfl⟩⟩
        | true =>
          rw [if_neg (show ¬ (!true) = true by decide)]
          -- brightness zero is answered with off, whatever codes were written
          by_cases hzero : request.brightnessPercent = 0
          · rw [if_pos hzero]
            exact ⟨rfl, fun _ => ⟨Or.inr (Or.inr rfl), rfl, fun h => by cases h⟩,
              fun h => (by cases h)⟩
          rw [if_neg hzero]
          split
          · exact ⟨rfl, fun _ => ⟨Or.inr (Or.inl rfl), rfl, fun h => by cases h⟩,
              fun h => (by cases h)⟩
          · exact ⟨rfl, fun _ => ⟨Or.inl rfl, rfl, fun _ => hzero⟩, fun h => (by cases h)⟩

/-- A request that is not refused: what it resolves to is written, as far as that goes. -/
structure Applies (system : Sysfs) (control : ManualFrontLightControl)
    (request : ManualFrontLightRequest) (endpoints : Payload) (resolution : FrontLightResolution) :
    Prop where
  unlatched : control.failureLatched = false
  unblocked : (control.backend.poll system).2.writesBlocked = false
  valid : isValidManualFrontLightRequest request = true
  polled : (control.backend.poll system).1 = true
  loaded : (control.backend.poll system).2.payload = some endpoints
  resolves : endpoints.resolve request = some resolution
  written : (control.apply system request).written =
    (DirectBackend.writeAll system (DirectBackend.writes endpoints resolution)).2
  succeeds : (DirectBackend.writeAll system (DirectBackend.writes endpoints resolution)).1 = true →
    (control.apply system request).outcome.IsSuccess ∧
      (control.apply system request).control = { backend := (control.backend.poll system).2 }
  fails : (DirectBackend.writeAll system (DirectBackend.writes endpoints resolution)).1 = false →
    (control.apply system request).outcome = .kFailed ∧
      (control.apply system request).control.failureLatched = true ∧
      (control.apply system request).control.backend =
        { (control.backend.poll system).2 with writesBlocked := true }

/-- A request that leaves the nodes alone. -/
def FrontLightControlOutcome.IsRefusal (outcome : FrontLightControlOutcome) : Prop :=
  outcome = .kUnavailable ∨ outcome = .kRejected ∨ outcome = .kFailureLatched

theorem FrontLightControlOutcome.IsRefusal.not_success {outcome : FrontLightControlOutcome}
    (h : outcome.IsRefusal) : ¬ outcome.IsSuccess ∧ outcome ≠ .kFailed := by
  rcases h with rfl | rfl | rfl
  all_goals
    refine ⟨?_, by decide⟩
    rintro (h | h | h)
    all_goals cases h

/-- What a request can do. -/
theorem apply_cases (system : Sysfs) (control : ManualFrontLightControl)
    (request : ManualFrontLightRequest) :
    ((control.apply system request).outcome.IsRefusal ∧
      (control.apply system request).written = [] ∧
        ((control.apply system request).control = control ∨
          control.failureLatched = false ∧
          (control.apply system request).control =
            { backend := (control.backend.poll system).2 })) ∨
      ∃ endpoints resolution, Applies system control request endpoints resolution := by
  cases hlatched : control.failureLatched with
  | true =>
    have happly : control.apply system request = ⟨.kFailureLatched, control, []⟩ := by
      unfold ManualFrontLightControl.apply
      rw [if_pos hlatched]
    rw [happly]
    exact Or.inl ⟨Or.inr (Or.inr rfl), rfl, Or.inl rfl⟩
  | false =>
    by_cases hvalid : isValidManualFrontLightRequest request = true
    swap
    · have happly : control.apply system request = ⟨.kRejected, control, []⟩ := by
        unfold ManualFrontLightControl.apply
        rw [if_neg (by simp [hlatched]), if_pos (by simp [hvalid])]
      rw [happly]
      exact Or.inl ⟨Or.inr (Or.inl rfl), rfl, Or.inl rfl⟩
    have hcases := applyManualRequest_cases system control.backend request
    have happly : control.apply system request =
        let result := control.backend.applyManualRequest system request
        let control : ManualFrontLightControl :=
          { backend := result.backend, failureLatched := result.outcome == .kFailed }
        if request.brightnessPercent = 0 ∧ result.outcome = .kApplied then
          ⟨.kFailed, control, result.written⟩
        else ⟨result.outcome, control, result.written⟩ := by
      unfold ManualFrontLightControl.apply
      rw [if_neg (by simp [hlatched]), if_neg (by simp [hvalid])]
    dsimp only at hcases happly
    rcases hcases with ⟨houtcome, hwritten, hbackend⟩ |
      ⟨endpoints, resolution, hopen, hpolled, hloaded, hresolve, hwritten, hsucceeds, hfails⟩
    · -- a refusal of the backend is passed on
      rw [if_neg (by rcases houtcome with h | h <;> simp [h])] at happly
      rw [happly]
      refine Or.inl ⟨?_, hwritten, Or.inr ⟨rfl, ?_⟩⟩
      · exact houtcome.imp_right Or.inl
      · rw [hbackend]
        rcases houtcome with h | h <;> rw [h] <;> rfl
    · -- the writes are passed on, and a failed one is latched
      refine Or.inr ⟨endpoints, resolution, hlatched, hopen, hvalid, hpolled, hloaded, hresolve,
        ?_, ?_, ?_⟩
      · rw [happly]
        split <;> exact hwritten
      · intro hok
        obtain ⟨hsuccess, hbackend, hzero⟩ := hsucceeds hok
        rw [if_neg fun h => hzero h.2 h.1] at happly
        rw [happly, hbackend]
        refine ⟨hsuccess, ?_⟩
        rcases hsuccess with h | h | h <;> rw [h] <;> rfl
      · intro hok
        obtain ⟨houtcome, hbackend⟩ := hfails hok
        rw [if_neg (by simp [houtcome])] at happly
        rw [happly, houtcome, hbackend]
        exact ⟨rfl, rfl, rfl⟩

/-! ### The nodes -/

/-- The code that is last written to a node. -/
def lastCode (ws : List (Path × UInt16)) (path : Path) : Option UInt16 := ws.reverse.lookup path

/-- After writes that all succeed a node holds the code that was last written to it. -/
theorem Nodes.foldl_write {ws : List (Path × UInt16)}
    (h : ∀ w ∈ ws, system.writeCode w.1 w.2 = true) (nodes : Nodes) {path : Path}
    (hpath : path ≠ []) :
    (ws.foldl (Nodes.write system) nodes) path =
      match lastCode ws path with
      | some code => some (codeText code)
      | none => nodes path := by
  induction ws using List.reverseRecOn with
  | nil => rfl
  | append_singleton ws w ih =>
    obtain ⟨path', code⟩ := w
    have hbefore := ih fun w hw => h w (List.mem_append_left _ hw)
    have hlast : lastCode (ws ++ [(path', code)]) path =
        if path = path' then some code else lastCode ws path := by
      unfold lastCode
      rw [List.reverse_append, List.reverse_singleton, List.singleton_append, List.lookup_cons]
      by_cases heq : path = path'
      · simp [heq]
      · rw [if_neg heq, beq_eq_false_iff_ne.mpr heq]
    rw [List.foldl_append, List.foldl_cons, List.foldl_nil, hlast]
    unfold Nodes.write
    by_cases hempty : path'.isEmpty = true
    · rw [if_pos hempty, if_neg (by rintro rfl; exact hpath (List.isEmpty_iff.mp hempty))]
      exact hbefore
    · rw [if_neg hempty]
      have hwritten : system.write path' (codeText code) = true := by
        have hok := h (path', code) (List.mem_append_right _ (List.mem_singleton_self _))
        unfold Sysfs.writeCode at hok
        rcases Bool.or_eq_true_iff.mp hok with hok | hok
        · exact absurd hok hempty
        · exact hok
      by_cases heq : path = path'
      · subst heq
        rw [if_pos rfl, Function.update_self, hwritten]
        rfl
      · rw [if_neg heq, Function.update_of_ne heq]
        exact hbefore

end EinkLab.FrontLight
