import EinkLab.FrontLight.Equiv.Closed
import EinkLab.FrontLight.Equiv.Writes

/-!
# The light fails closed

`light_fails_closed`: whatever is sent to the endpoint by whomever, and however the operating system
answers, the light is only written for callers that may do so, only with what one checked
calibration makes of a valid request, in its order, and only to the endpoints of that calibration
that could be written when they were checked; and after a write that failed nothing is written by
the process again.
-/

namespace EinkLab.ControlService

open Binder FrontLight Transition

variable {D : Type} {api : Parcels D} {c : Pipeline.Settings} {s s' : Controls}

/-- The caller may ask for light. -/
def Caller.MayLight (caller : Caller) : Prop :=
  caller.uid = AID_SYSTEM ∨ caller.controlFrontlight = true

theorem mayLight_of_readCall {caller : Caller} {code : Nat} {data : api.Parcel} {reply : Bool}
    {request : ManualFrontLightRequest}
    (h : readCall api caller code data reply = .ok (.frontLight request)) : caller.MayLight := by
  unfold readCall at h
  dsimp only at h
  split_ifs at h
  all_goals try cases h
  -- all that is left has passed the check of the caller
  next hcaller _ _ =>
  simp only [Bool.or_eq_true, Bool.and_eq_true, decide_eq_true_eq, Bool.not_eq_true', not_or,
    not_and, Bool.not_eq_false] at hcaller
  by_cases huid : caller.uid = AID_SYSTEM
  · exact Or.inl huid
  · exact Or.inr (hcaller.2 huid)

/-! ### Checked endpoints -/

/-- The nodes that a payload names. -/
def paths (endpoints : Payload) : List Path :=
  [endpoints.warmPrimaryPath, endpoints.warmSecondaryPath, endpoints.coldPrimaryPath,
    endpoints.coldSecondaryPath]

/-- The calibration is accepted, and the endpoints are those of its nodes that are there, all of
which can be written. -/
structure Checked (system : Sysfs) (endpoints : Payload) : Prop where
  calibration : ∃ contents payload, system.calibrationFile = some contents ∧
    parsePayload contents = some payload ∧ payload.isUsable = true ∧ payload.Trims endpoints ∧
    (endpoints.coldSecondaryPath ≠ payload.coldSecondaryPath →
      system.accessAgain payload.coldSecondaryPath = .missing) ∧
    (endpoints.warmSecondaryPath ≠ payload.warmSecondaryPath →
      system.accessAgain payload.warmSecondaryPath = .missing)
  writable : ∀ path ∈ paths endpoints, path ≠ [] → system.access path = .granted
  primary : endpoints.coldPrimaryPath ≠ [] ∧ endpoints.warmPrimaryPath ≠ []

theorem canWrite_iff {system : Sysfs} {path : Path} :
    system.canWrite path = true ↔ path ≠ [] ∧ system.access path = .granted := by
  simp [Sysfs.canWrite]

/-- A secondary endpoint that is used is writable, and one that is left out is missing. -/
theorem secondaryPreflight_spec {system : Sysfs} {path used : Path}
    (h : secondaryPreflight system path = some used) :
    (used ≠ [] → system.access used = .granted) ∧
      (used ≠ path → system.accessAgain path = .missing) := by
  unfold secondaryPreflight at h
  split at h
  · next hwritable =>
    obtain rfl := Option.some.inj h
    refine ⟨fun hne => ?_, fun hne => absurd rfl hne⟩
    rcases Bool.or_eq_true_iff.mp hwritable with hempty | hcan
    · exact absurd (List.isEmpty_iff.mp hempty) hne
    · exact (canWrite_iff.mp hcan).2
  · split at h
    · next hmissing =>
      obtain rfl := Option.some.inj h
      refine ⟨fun hne => absurd rfl hne, fun _ => ?_⟩
      simp only [Sysfs.isMissingEndpoint, Bool.and_eq_true, beq_iff_eq] at hmissing
      exact hmissing.2
    · cases h

theorem checked_preflight {system : Sysfs} {contents : List Char} {payload endpoints : Payload}
    (hfile : system.calibrationFile = some contents) (hparse : parsePayload contents = some payload)
    (husable : payload.isUsable = true) (h : preflight system payload = (endpoints, true)) :
    Checked system endpoints := by
  obtain ⟨hendpoints, hok⟩ := Prod.mk.inj h
  simp only [Bool.and_eq_true] at hok
  obtain ⟨⟨⟨hcoldPrimary, hwarmPrimary⟩, hcold⟩, hwarm⟩ := hok
  obtain ⟨cold, hcold⟩ := Option.isSome_iff_exists.mp hcold
  obtain ⟨warm, hwarm⟩ := Option.isSome_iff_exists.mp hwarm
  have htrims := trims_preflight system (Payload.Trims.refl payload)
  rw [h] at htrims
  obtain ⟨hcoldWritable, hcoldMissing⟩ := secondaryPreflight_spec hcold
  obtain ⟨hwarmWritable, hwarmMissing⟩ := secondaryPreflight_spec hwarm
  rw [hcold, hwarm] at hendpoints
  refine ⟨⟨contents, payload, hfile, hparse, husable, htrims, ?_, ?_⟩, ?_, ?_⟩
  · rw [← hendpoints]
    exact hcoldMissing
  · rw [← hendpoints]
    exact hwarmMissing
  · intro path hpath hne
    rw [← hendpoints] at hpath
    simp only [paths, List.mem_cons, List.not_mem_nil, or_false] at hpath
    rcases hpath with rfl | rfl | rfl | rfl
    · exact (canWrite_iff.mp hwarmPrimary).2
    · exact hwarmWritable hne
    · exact (canWrite_iff.mp hcoldPrimary).2
    · exact hcoldWritable hne
  · rw [← hendpoints]
    exact ⟨(canWrite_iff.mp hcoldPrimary).1, (canWrite_iff.mp hwarmPrimary).1⟩

/-- A backend that has a payload has made its preflight, and only such a backend. -/
structure Polled (backend : DirectBackend) : Prop where
  complete : ∀ endpoints, backend.payload = some endpoints → backend.preflightComplete = true
  succeeded : backend.preflightSucceeded = true → backend.payload.isSome = true

/-- What a poll does: nothing if there is a payload, else perhaps load one and check it. -/
theorem poll_cases (system : Sysfs) {backend : DirectBackend} (h : Polled backend) :
    (backend.poll system).2 = backend ∨
      (backend.payload = none ∧ (backend.poll system).2.payload = none ∧
        (backend.poll system).2.preflightSucceeded = backend.preflightSucceeded) ∨
      (backend.payload = none ∧ ∃ endpoints, (backend.poll system).2.payload = some endpoints ∧
        (backend.poll system).2.preflightComplete = true ∧
        ((backend.poll system).2.preflightSucceeded = true → Checked system endpoints)) := by
  unfold DirectBackend.poll
  split
  · exact Or.inl rfl
  next hopen =>
  cases hpayload : backend.payload with
  | some endpoints =>
    have hload : backend.load system = backend := by
      unfold DirectBackend.load
      rw [hpayload]
    dsimp only
    rw [hload, hpayload]
    dsimp only
    rw [if_pos (h.complete endpoints hpayload)]
    exact Or.inl rfl
  | none =>
    refine Or.inr ?_
    dsimp only
    cases hread : system.calibrationFile.bind parsePayload with
    | none =>
      have hload : backend.load system = { backend with preflightComplete := true } := by
        unfold DirectBackend.load
        rw [hpayload]
        dsimp only
        rw [hread]
      rw [hload]
      dsimp only
      rw [hpayload]
      exact Or.inl ⟨rfl, rfl, rfl⟩
    | some payload =>
      obtain ⟨contents, hfile, hparse⟩ := Option.bind_eq_some_iff.mp hread
      by_cases husable : payload.isUsable = true
      · have hload : backend.load system = { backend with payload := some payload } := by
          unfold DirectBackend.load
          rw [hpayload]
          dsimp only
          rw [hread]
          exact if_pos husable
        rw [hload]
        dsimp only
        by_cases hcomplete : backend.preflightComplete = true
        · -- a preflight that is complete and did not fail had a payload
          have hsucceeded : backend.preflightSucceeded = true := by
            simpa [hcomplete] using hopen
          have hsome := h.succeeded hsucceeded
          rw [hpayload] at hsome
          cases hsome
        · rw [if_neg hcomplete]
          refine Or.inr ⟨rfl, _, rfl, rfl, fun hsucceeded => ?_⟩
          exact checked_preflight hfile hparse husable (Prod.ext rfl hsucceeded)
      · have hload : backend.load system = { backend with preflightComplete := true } := by
          unfold DirectBackend.load
          rw [hpayload]
          dsimp only
          rw [hread]
          exact if_neg husable
        rw [hload]
        dsimp only
        rw [hpayload]
        exact Or.inl ⟨rfl, rfl, rfl⟩

theorem Polled.poll (system : Sysfs) {backend : DirectBackend} (h : Polled backend) :
    Polled (backend.poll system).2 := by
  have hcases := poll_cases system h
  rcases hcases with heq | ⟨hnone, hpolled, hsame⟩ | ⟨-, endpoints, hsome, hcomplete, -⟩
  · rw [heq]
    exact h
  · refine ⟨fun endpoints hsome => ?_, fun hsucceeded => ?_⟩
    · cases hpolled.symm.trans hsome
    · have hbefore := h.succeeded (hsame.symm.trans hsucceeded)
      rw [hnone] at hbefore
      cases hbefore
  · refine ⟨fun _ _ => hcomplete, fun _ => ?_⟩
    rw [hsome]
    rfl

/-! ### One call -/

/-- The call has failed at a write. -/
def Served.Failed (e : Served D) : Prop :=
  (∃ request, e.call = .frontLight request) ∧
    e.reply = [.noException, .int32 (outcomeCode .kFailed)]

/-- A write of the call was not taken, and none was tried after it. -/
def Served.Refused (e : Served D) : Prop :=
  ∃ w, e.written.getLast? = some w ∧ e.refused = [w]

/-- The call has written what these endpoints ask for, as far as that went. -/
structure Served.Lights (e : Served D) (endpoints : Payload) : Prop where
  asked : ∃ request resolution, e.call = .frontLight request ∧
    isValidManualFrontLightRequest request = true ∧ endpoints.resolve request = some resolution ∧
    e.written <+: DirectBackend.writes endpoints resolution ∧
    (¬ e.Failed → e.written = DirectBackend.writes endpoints resolution)

theorem outcomeCode_inj {outcome outcome' : FrontLightControlOutcome}
    (h : outcomeCode outcome = outcomeCode outcome') : outcome = outcome' := by
  cases outcome <;> cases outcome' <;> first | rfl | cases h

/-- Only a request for light writes. -/
theorem written_eq_nil (world : World) {call : Call} (h : ∀ request, call ≠ .frontLight request) :
    (perform c world s call : Performed D).written = [] ∧
      (perform c world s call : Performed D).controls.control = s.control := by
  have hrefresh : ∀ mode, (s.refresh c world mode).2.control = s.control := fun _ => rfl
  cases call with
  | frontLight request => exact absurd rfl (h request)
  | fullRefresh => exact ⟨rfl, rfl⟩
  | colorCleanup => exact ⟨rfl, rfl⟩
  | fullWaveformRefresh => exact ⟨rfl, rfl⟩
  | colorQuality enabled =>
    refine ⟨rfl, ?_⟩
    show (s.configureColorQuality c.profile enabled).2.control = s.control
    unfold Controls.configureColorQuality
    dsimp only
    split_ifs <;> rfl
  | grayPreference requested =>
    refine ⟨rfl, ?_⟩
    show (s.configureGrayPreference c world requested).2.control = s.control
    unfold Controls.configureGrayPreference
    dsimp only
    split_ifs <;> rfl
  | vividColor requested =>
    refine ⟨rfl, ?_⟩
    show (s.configureVividColor c world requested).2.control = s.control
    unfold Controls.configureVividColor
    dsimp only
    split_ifs <;> rfl

/-! ### Runs -/

/-- A world of the actions in which the endpoints were checked. -/
def CheckedIn (as : List (Action api.Parcel)) (endpoints : Payload) : Prop :=
  ∃ world caller code data reply, .onTransact world caller code data reply ∈ as ∧
    Checked world.sysfs endpoints

/-- What is true after every run of the process. -/
structure Safe (as : List (Action api.Parcel)) (log : List (Served D)) (s : Controls) : Prop where
  polled : Polled s.control.backend
  checked : ∀ endpoints, s.control.backend.payload = some endpoints →
    s.control.backend.preflightSucceeded = true → CheckedIn as endpoints
  lights : ∀ e ∈ log, e.written ≠ [] → e.caller.MayLight ∧ ∃ endpoints,
    s.control.backend.payload = some endpoints ∧
      s.control.backend.preflightSucceeded = true ∧ e.Lights endpoints
  latched : ∀ e ∈ log, e.Failed → s.control.failureLatched = true
  failed : ∀ e ∈ log, e.Failed ↔ e.Refused
  silent : ∀ pre e post, log = pre ++ e :: post → e.Failed → ∀ e' ∈ post, e'.written = []

theorem Safe.snoc_quiet {as : List (Action api.Parcel)} {log : List (Served D)} (h : Safe as log s)
    (a : Action api.Parcel) (hcontrol : s'.control = s.control) : Safe (as ++ [a]) log s' := by
  refine ⟨?_, ?_, ?_, ?_, h.failed, h.silent⟩
  · rw [hcontrol]
    exact h.polled
  · rw [hcontrol]
    intro endpoints hpayload hsucceeded
    obtain ⟨world, caller, code, data, reply, hmem, hchecked⟩ :=
      h.checked endpoints hpayload hsucceeded
    exact ⟨world, caller, code, data, reply, List.mem_append_left _ hmem, hchecked⟩
  · rw [hcontrol]
    exact h.lights
  · rw [hcontrol]
    exact h.latched

/-- What is logged writes nothing. -/
theorem Safe.snoc_served {as : List (Action api.Parcel)} {log : List (Served D)} (h : Safe as log s)
    {e : Served D} (hwritten : e.written = []) (hfailed : ¬ e.Failed) : Safe as (log ++ [e]) s := by
  refine ⟨h.polled, h.checked, fun e' he' hne => ?_, fun e' he' hfail => ?_, fun e' he' => ?_,
    fun pre e' post heq hfail e'' he'' => ?_⟩
  · rcases List.mem_append.mp he' with he' | he'
    · exact h.lights e' he' hne
    · rw [List.mem_singleton.mp he'] at hne
      exact absurd hwritten hne
  · rcases List.mem_append.mp he' with he' | he'
    · exact h.latched e' he' hfail
    · rw [List.mem_singleton.mp he'] at hfail
      exact absurd hfail hfailed
  · rcases List.mem_append.mp he' with he' | he'
    · exact h.failed e' he'
    · -- without a write there is no last one
      rw [List.mem_singleton.mp he']
      refine iff_of_false hfailed ?_
      rintro ⟨w, hlast, -⟩
      rw [hwritten] at hlast
      cases hlast
  · rcases append_singleton_eq_append_cons heq with ⟨rfl, rfl, rfl⟩ | ⟨post', rfl, rfl⟩
    · exact absurd hfail hfailed
    · rcases List.mem_append.mp he'' with he'' | he''
      · exact h.silent pre e' post' rfl hfail e'' he''
      · rw [List.mem_singleton.mp he'']
        exact hwritten

/-- A poll: only a backend without a payload can get one, and then nothing has been written. -/
theorem Safe.snoc_poll {as : List (Action api.Parcel)} {log : List (Served D)} (h : Safe as log s)
    (hunlatched : s.control.failureLatched = false) (world : World) (caller : Caller) (code : Nat)
    (data : api.Parcel) (reply : Bool)
    (hcontrol : s'.control = { backend := (s.control.backend.poll world.sysfs).2 }) :
    Safe (as ++ [.onTransact world caller code data reply]) log s' := by
  have hcases := poll_cases world.sysfs h.polled
  refine ⟨?_, ?_, ?_, fun e he hfail => ?_, h.failed, h.silent⟩
  · rw [hcontrol]
    exact h.polled.poll world.sysfs
  · rw [hcontrol]
    intro endpoints hpayload hsucceeded
    rcases hcases with heq | ⟨-, hnone, -⟩ | ⟨-, endpoints', hsome, -, hchecked⟩
    · rw [heq] at hpayload hsucceeded
      obtain ⟨world', caller', code', data', reply', hmem, hchecked⟩ :=
        h.checked endpoints hpayload hsucceeded
      exact ⟨world', caller', code', data', reply', List.mem_append_left _ hmem, hchecked⟩
    · cases hnone.symm.trans hpayload
    · obtain rfl := Option.some.inj (hsome.symm.trans hpayload)
      exact ⟨world, caller, code, data, reply, List.mem_append_right _ (List.mem_singleton_self _),
        hchecked hsucceeded⟩
  · rw [hcontrol]
    intro e he hne
    obtain ⟨hmay, endpoints, hpayload, hsucceeded, hlights⟩ := h.lights e he hne
    rcases hcases with heq | ⟨hnone, -⟩ | ⟨hnone, -⟩
    · rw [heq]
      exact ⟨hmay, endpoints, hpayload, hsucceeded, hlights⟩
    · cases hnone.symm.trans hpayload
    · cases hnone.symm.trans hpayload
  · have hlatched := h.latched e he hfail
    rw [hunlatched] at hlatched
    cases hlatched

theorem preflightSucceeded_of_poll {sysfs : Sysfs} {backend : DirectBackend}
    (h : (backend.poll sysfs).1 = true) : (backend.poll sysfs).2.preflightSucceeded = true := by
  revert h
  unfold DirectBackend.poll
  split
  · exact fun h => (by cases h)
  · dsimp only
    split
    · exact fun h => (by cases h)
    · split
      · exact fun h => (Bool.and_eq_true_iff.mp h).1
      · exact fun h => (Bool.and_eq_true_iff.mp h).1

/-- A request that is not refused; `s` is the process after its poll. -/
theorem Safe.snoc_applies {as : List (Action api.Parcel)} {log : List (Served D)} {sysfs : Sysfs}
    {control : ManualFrontLightControl} {request : ManualFrontLightRequest} {endpoints : Payload}
    {resolution : FrontLightResolution} (h : Safe as log s)
    (happlies : Applies sysfs control request endpoints resolution) {caller : Caller}
    (hcaller : caller.MayLight) (hs : s.control = { backend := (control.backend.poll sysfs).2 })
    (hs' : s'.control = (control.apply sysfs request).control) :
    Safe as (log ++ [⟨caller, .frontLight request,
      [.noException, .int32 (outcomeCode (control.apply sysfs request).outcome)],
      (control.apply sysfs request).written,
      (control.apply sysfs request).written.filter fun w => !sysfs.writeCode w.1 w.2⟩]) s' := by
  -- whether the writes succeed or not, the backend keeps what it has loaded and checked
  have hbackend : s'.control.backend.payload = s.control.backend.payload ∧
      s'.control.backend.preflightComplete = s.control.backend.preflightComplete ∧
      s'.control.backend.preflightSucceeded = s.control.backend.preflightSucceeded := by
    rw [hs, hs']
    cases hok : (DirectBackend.writeAll sysfs (DirectBackend.writes endpoints resolution)).1 with
    | true =>
      rw [(happlies.succeeds hok).2]
      exact ⟨rfl, rfl, rfl⟩
    | false =>
      rw [(happlies.fails hok).2.2]
      exact ⟨rfl, rfl, rfl⟩
  have hpayload : s'.control.backend.payload = some endpoints := by
    rw [hbackend.1, hs]
    exact happlies.loaded
  have hsucceeded : s'.control.backend.preflightSucceeded = true := by
    rw [hbackend.2.2, hs]
    exact preflightSucceeded_of_poll happlies.polled
  have hunlatched : ∀ e ∈ log, ¬ e.Failed := by
    intro e he hfail
    have hlatched := h.latched e he hfail
    rw [hs] at hlatched
    cases hlatched
  have hspec := writeAll_spec sysfs (DirectBackend.writes endpoints resolution)
  have hrefused := refused_writeAll sysfs (DirectBackend.writes endpoints resolution)
  refine ⟨⟨fun _ _ => ?_, fun _ => ?_⟩, ?_, fun e he hne => ?_, fun e he hfail => ?_,
    fun e he => ?_, fun pre e post heq hfail e' he' => ?_⟩
  · rw [hbackend.2.1]
    refine h.polled.complete endpoints ?_
    rw [hs]
    exact happlies.loaded
  · rw [hpayload]
    rfl
  · rw [hbackend.1, hbackend.2.2]
    exact h.checked
  · rcases List.mem_append.mp he with he | he
    · obtain ⟨hmay, endpoints', hp, hsucc, hlights⟩ := h.lights e he hne
      refine ⟨hmay, endpoints', ?_, ?_, hlights⟩
      · rw [hbackend.1]
        exact hp
      · rw [hbackend.2.2]
        exact hsucc
    · obtain rfl := List.mem_singleton.mp he
      refine ⟨hcaller, endpoints, hpayload, hsucceeded,
        ⟨request, resolution, rfl, happlies.valid, happlies.resolves, ?_, fun hnot => ?_⟩⟩
      · show (control.apply sysfs request).written <+: _
        rw [happlies.written]
        rcases hspec with ⟨-, hall, -⟩ | ⟨-, hprefix⟩
        · refine ⟨[], ?_⟩
          rw [List.append_nil, hall]
        · exact hprefix
      · show (control.apply sysfs request).written = _
        rw [happlies.written]
        rcases hspec with ⟨-, hall, -⟩ | ⟨hfailed, -⟩
        · exact hall
        · refine absurd ⟨⟨request, rfl⟩, ?_⟩ hnot
          show [Item.noException, .int32 (outcomeCode (control.apply sysfs request).outcome)] = _
          rw [(happlies.fails hfailed).1]
  · rcases List.mem_append.mp he with he | he
    · exact absurd hfail (hunlatched e he)
    · obtain rfl := List.mem_singleton.mp he
      have houtcome : (control.apply sysfs request).outcome = .kFailed := by
        refine outcomeCode_inj ?_
        simpa using hfail.2
      rw [hs']
      cases hok : (DirectBackend.writeAll sysfs (DirectBackend.writes endpoints resolution)).1 with
      | true =>
        have hsuccess := (happlies.succeeds hok).1
        rw [houtcome] at hsuccess
        rcases hsuccess with hsuccess | hsuccess | hsuccess <;> cases hsuccess
      | false => exact (happlies.fails hok).2.1
  · rcases List.mem_append.mp he with he | he
    · exact h.failed e he
    · obtain rfl := List.mem_singleton.mp he
      unfold Served.Failed Served.Refused
      rw [happlies.written]
      cases hok : (DirectBackend.writeAll sysfs (DirectBackend.writes endpoints resolution)).1 with
      | true =>
        -- no write is refused, and the outcome is a success
        refine iff_of_false ?_ ?_
        · rintro ⟨-, hreply⟩
          have houtcome : (control.apply sysfs request).outcome = .kFailed :=
            outcomeCode_inj (by simpa using hreply)
          have hsuccess := (happlies.succeeds hok).1
          rw [houtcome] at hsuccess
          rcases hsuccess with hsuccess | hsuccess | hsuccess <;> cases hsuccess
        · rintro ⟨w, -, heq⟩
          rw [hrefused.1 hok] at heq
          cases heq
      | false =>
        refine iff_of_true ⟨⟨request, rfl⟩, ?_⟩ (hrefused.2 hok)
        rw [(happlies.fails hok).1]
  · rcases append_singleton_eq_append_cons heq with ⟨rfl, -, -⟩ | ⟨post', -, rfl⟩
    · exact absurd he' List.not_mem_nil
    · exact absurd hfail (hunlatched e (by simp))

/-- One step. -/
theorem Safe.step {as : List (Action api.Parcel)} {log evs : List (Served D)} (h : Safe as log s)
    {a : Action api.Parcel} (hstep : ControlService.step api c s a = some (s', evs)) :
    Safe (as ++ [a]) (log ++ evs) s' := by
  cases a with
  | session pipeline =>
    obtain ⟨rfl, rfl⟩ := Prod.mk.inj (Option.some.inj hstep)
    rw [List.append_nil]
    exact h.snoc_quiet _ rfl
  | onTransact world caller code data reply =>
    obtain ⟨rfl, rfl⟩ := Prod.mk.inj (Option.some.inj hstep)
    unfold onTransact
    cases hread : readCall api caller code data reply with
    | error status =>
      show Safe _ (log ++ []) s
      rw [List.append_nil]
      exact h.snoc_quiet _ rfl
    | ok call =>
      dsimp only [Option.toList]
      by_cases hlight : ∃ request, call = .frontLight request
      swap
      · -- the other calls leave the light alone
        have hnever : ∀ request, call ≠ .frontLight request :=
          fun request heq => hlight ⟨request, heq⟩
        obtain ⟨hwritten, hcontrol⟩ := written_eq_nil (D := D) (s := s) (c := c) world hnever
        refine (h.snoc_quiet _ hcontrol).snoc_served hwritten ?_
        rintro ⟨⟨request, heq⟩, -⟩
        exact hnever request heq
      obtain ⟨request, rfl⟩ := hlight
      have hcaller := mayLight_of_readCall hread
      rcases apply_cases world.sysfs s.control request with
        ⟨hrefusal, hwritten, hcontrol⟩ | ⟨endpoints, resolution, happlies⟩
      · have hfailed : ¬ Served.Failed (⟨caller, .frontLight request,
            [.noException, .int32 (outcomeCode (s.control.apply world.sysfs request).outcome)],
            (s.control.apply world.sysfs request).written,
            (s.control.apply world.sysfs request).written.filter
              fun w => !world.sysfs.writeCode w.1 w.2⟩ : Served D) := by
          rintro ⟨-, heq⟩
          refine hrefusal.not_success.2 (outcomeCode_inj ?_)
          simpa using heq
        rcases hcontrol with hsame | ⟨hunlatched, hpolled⟩
        · exact (h.snoc_quiet _ hsame).snoc_served hwritten hfailed
        · exact (h.snoc_poll hunlatched world caller code data reply hpolled).snoc_served hwritten
            hfailed
      · have hafter : Safe (as ++ [.onTransact world caller code data reply]) log
            { s with control := { backend := (s.control.backend.poll world.sysfs).2 } } :=
          h.snoc_poll happlies.unlatched world caller code data reply rfl
        exact hafter.snoc_applies happlies hcaller rfl rfl

theorem safe_init : Safe ([] : List (Action api.Parcel)) ([] : List (Served D)) {} where
  polled := ⟨fun _ h => (by cases h), fun h => (by cases h)⟩
  checked _ h := by cases h
  lights _ h := absurd h List.not_mem_nil
  latched _ h := absurd h List.not_mem_nil
  failed _ h := absurd h List.not_mem_nil
  silent pre e post h := by simp at h

/-- Only callers that may do so make the process write to the light, it writes what one calibration
that it has checked makes of their requests, and after a write that failed it does not write again:
a call answers that it has failed exactly if the operating system has not taken its last write. -/
theorem light_fails_closed {as : List (Action api.Parcel)} {log : List (Served D)}
    (hrun : (system api c).Run System.anyAction {} as log s) :
    (∀ e ∈ log, e.written ≠ [] → e.caller.MayLight) ∧
      ((∀ e ∈ log, e.written = []) ∨ ∃ endpoints, CheckedIn as endpoints ∧
        ∀ e ∈ log, e.written ≠ [] → e.Lights endpoints) ∧
      (∀ e ∈ log, e.Failed ↔ e.Refused) ∧
      ∀ pre e post, log = pre ++ e :: post → e.Failed → ∀ e' ∈ post, e'.written = [] := by
  have hsafe : Safe as log s :=
    hrun.induct (fun as log s => Safe as log s) safe_init fun _ _ _ _ _ _ h _ hstep => h.step hstep
  refine ⟨fun e he hne => (hsafe.lights e he hne).1, ?_, hsafe.failed, hsafe.silent⟩
  by_cases hnone : ∀ e ∈ log, e.written = []
  · exact Or.inl hnone
  · -- all writers share the payload that the backend has loaded
    push Not at hnone
    obtain ⟨e, he, hne⟩ := hnone
    obtain ⟨-, endpoints, hpayload, hsucceeded, -⟩ := hsafe.lights e he hne
    refine Or.inr ⟨endpoints, hsafe.checked endpoints hpayload hsucceeded, fun e' he' hne' => ?_⟩
    obtain ⟨-, endpoints', hpayload', -, hlights⟩ := hsafe.lights e' he' hne'
    obtain rfl := Option.some.inj (hpayload.symm.trans hpayload')
    exact hlights

/-- An operating system with a direct calibration, where everything can be written. -/
def directNodes : Sysfs where
  calibrationFile := some (Text.joinLines (directEntries.map Entry.line))
  access _ := .granted
  accessAgain _ := .granted
  write _ _ := true

/-- A request for light of the system, as the list of its items. -/
def lightRequest (brightness warmth : Int) : (Parcels.ofItems Unit).Parcel :=
  [.interfaceToken kDescriptor, .int32 brightness, .int32 warmth]

/-- A request is written, the next fails at its first write, and the last finds the failure latched;
between them a client without permission asks for light. -/
def brokenNode : List (Action (Parcels.ofItems Unit).Parcel) :=
  let ask (uid : Nat) (sysfs : Sysfs) : Action (Parcels.ofItems Unit).Parcel :=
    .onTransact ⟨sysfs, true⟩ ⟨uid, false, false⟩ FIRST_CALL_TRANSACTION (lightRequest 50 20) true
  [ask AID_SYSTEM directNodes, ask 10000 directNodes,
    ask AID_SYSTEM { directNodes with write := fun _ _ => false }, ask AID_SYSTEM directNodes]

theorem light_fails_closed_brokenNode :
    ∃ log s, (system (Parcels.ofItems Unit) ⟨auraCDeviceProfile, 0, 0⟩).Run System.anyAction {}
        brokenNode log s ∧
      log.map (fun e => (e.written.length, e.refused.length)) = [(4, 0), (1, 1), (0, 0)] ∧
      (∀ e ∈ log, e.Failed ↔ e.Refused) ∧
      ∃ endpoints, CheckedIn brokenNode endpoints ∧
        ∀ e ∈ log, e.written ≠ [] → e.caller.MayLight ∧ e.Lights endpoints := by
  have hexec : (((system (Parcels.ofItems Unit) ⟨auraCDeviceProfile, 0, 0⟩).exec System.anyAction {}
      brokenNode).map fun r => r.2.map fun e => (e.written.length, e.refused.length)) =
        some [(4, 0), (1, 1), (0, 0)] := by
    decide +kernel
  obtain ⟨⟨s, log⟩, hlog, hlengths⟩ := Option.map_eq_some_iff.mp hexec
  have hrun := System.Run.of_exec hlog
  obtain ⟨hmay, hnone | ⟨endpoints, hchecked, hlights⟩, hfailed, -⟩ := light_fails_closed hrun
  · -- the first request has written
    have hfour : (4, 0) ∈ log.map fun e => (e.written.length, e.refused.length) :=
      hlengths ▸ List.mem_cons_self
    obtain ⟨e, he, heq⟩ := List.mem_map.mp hfour
    have hzero := (Prod.mk.inj heq).1
    rw [hnone e he] at hzero
    cases hzero
  · exact ⟨log, s, hrun, hlengths, hfailed, endpoints, hchecked,
      fun e he hne => ⟨hmay e he hne, hlights e he hne⟩⟩

end EinkLab.ControlService
