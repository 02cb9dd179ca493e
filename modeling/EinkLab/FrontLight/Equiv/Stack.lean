import EinkLab.ControlService.Equiv.Light
import EinkLab.FrontLight.Equiv.Answers
import EinkLab.FrontLight.Equiv.Closed

/-!
# What the light shows

`front_light_shown`: where only the manager asks for light, the nodes show the request that was last
answered, if that answer was one of success; so they are dark once the off of an epoch has
completed, and a manager at rest whose last answer was one of success has the light that its state
calls for.

The three processes are tied together by `invoke_spec`, which says what a call of the manager does
to the nodes and what it tells the manager, and by `Kept.answered`: between two calls the last
answer is that to the last request.
-/

namespace EinkLab.FrontLight

open Binder Transition

variable {D : Type} {api : Parcels D} {c : Pipeline.Settings} {contents : List Char}
  {log evs : List Event} {s s' : Stack}

/-! ### What the nodes show -/

/-- The nodes hold what the calibration makes of a request, at the endpoints that are used. -/
def Shows (contents : List Char) (nodes : Nodes) (request : ManualFrontLightRequest) : Prop :=
  ∃ payload endpoints resolution, parsePayload contents = some payload ∧ payload.Trims endpoints ∧
    payload.resolve request = some resolution ∧
    ∀ path, path ≠ [] → ∀ code,
      lastCode (DirectBackend.writes endpoints resolution) path = some code →
        nodes path = some (codeText code)

/-- The endpoints that are used hold a zero, if the tables of the calibration say that off is
zero. -/
def Dark (contents : List Char) (nodes : Nodes) : Prop :=
  ∃ payload endpoints, parsePayload contents = some payload ∧ payload.Trims endpoints ∧
    (payload.OffMeansOff →
      ∀ path ∈ ControlService.paths endpoints, path ≠ [] → nodes path = some (codeText 0))

theorem Shows.dark {nodes : Nodes} (h : Shows contents nodes ⟨0, 0⟩) : Dark contents nodes := by
  obtain ⟨payload, endpoints, resolution, hparse, htrims, hresolve, hnodes⟩ := h
  refine ⟨payload, endpoints, hparse, htrims, fun hoff path hpath hne => hnodes path hne 0 ?_⟩
  obtain ⟨resolution', hresolve', hcold, hwarm⟩ := hoff.resolves 0 (by decide)
  obtain rfl := Option.some.inj (hresolve'.symm.trans hresolve)
  -- all four codes are zero, so it does not matter which of them is the last
  have hall : ∀ w ∈ DirectBackend.writes endpoints resolution', w.2 = 0 := by
    intro w hw
    simp only [DirectBackend.writes, hcold, hwarm, List.mem_cons, List.not_mem_nil, or_false] at hw
    rcases hw with rfl | rfl | rfl | rfl <;> rfl
  have hmem : path ∈ (DirectBackend.writes endpoints resolution').map Prod.fst := by
    simpa [DirectBackend.writes, ControlService.paths] using hpath
  cases hlookup : lastCode (DirectBackend.writes endpoints resolution') path with
  | none =>
    obtain ⟨w, hw, heq⟩ := List.mem_map.mp hmem
    have hnone := List.lookup_eq_none_iff.mp hlookup w (List.mem_reverse.mpr hw)
    simp [heq] at hnone
  | some code =>
    obtain ⟨before, after, heq, -⟩ := List.lookup_eq_some_iff.mp hlookup
    have hw : (path, code) ∈ (DirectBackend.writes endpoints resolution').reverse := by
      rw [heq]
      exact List.mem_append_right _ List.mem_cons_self
    exact congrArg some (hall _ (List.mem_reverse.mp hw))

/-! ### A call of the manager -/

/-- The endpoint reads the request that the manager has written. -/
theorem readCall_requestItems {r : Request} (hr : r.InRange) :
    ControlService.readCall api systemServer CONTROL_TRANSACTION
        (api.writeAll (requestItems r.brightness r.warmth)) true =
      .ok (.frontLight ⟨r.brightness, r.warmth⟩) := by
  have hfits : ∀ item ∈ (requestItems r.brightness r.warmth : List (Item D)), item.Fits := by
    obtain ⟨hbrightness, hwarmth⟩ := hr
    simp only [isPercent, Bool.and_eq_true, decide_eq_true_eq] at hbrightness hwarmth
    intro item hitem
    simp only [requestItems, List.mem_cons, List.not_mem_nil, or_false] at hitem
    rcases hitem with rfl | rfl | rfl
    · trivial
    · show IntType.int32.Holds _
      simp only [IntType.Holds, IntType.int32]
      omega
    · show IntType.int32.Holds _
      simp only [IntType.Holds, IntType.int32]
      omega
  obtain ⟨hinterface, hunread⟩ :=
    api.unread_checkInterface (api.unread_writeAll hfits) ControlService.kDescriptor
  obtain ⟨hbrightness, hunread⟩ := api.unread_readInt32 hunread
  obtain ⟨hwarmth, hunread⟩ := api.unread_readInt32 hunread
  have hsound := api.unread_sound hunread
  unfold ControlService.readCall requestItems
  dsimp only
  rw [if_neg (show ¬ _ by decide), if_neg (show ¬ _ by decide), if_neg (show ¬ _ by decide),
    hinterface,
    if_neg (show ¬ _ by decide), hsound, hbrightness, hwarmth]
  rfl

/-- The manager reads the outcome that the endpoint has replied. -/
theorem readResult_reply (outcome : FrontLightControlOutcome) :
    readResult api (api.writeAll [.noException, .int32 (ControlService.outcomeCode outcome)]) =
      ControlService.outcomeCode outcome := by
  have hfits : ∀ item ∈
      ([.noException, .int32 (ControlService.outcomeCode outcome)] : List (Item D)),
      item.Fits := by
    intro item hitem
    simp only [List.mem_cons, List.not_mem_nil, or_false] at hitem
    rcases hitem with rfl | rfl
    · trivial
    · show IntType.int32.Holds _
      cases outcome <;> decide
  obtain ⟨hreturned, hunread⟩ := api.unread_readException (api.unread_writeAll hfits)
  obtain ⟨hresult, -⟩ := api.unread_readInt32 hunread
  unfold readResult
  dsimp only
  rw [hreturned, hresult]
  rfl

/-- The answers of the light that are taken for success. -/
def IsSuccess (result : Int) : Prop :=
  result = RESULT_APPLIED ∨ result = RESULT_CAPPED ∨ result = RESULT_OFF

theorem isSuccess_outcomeCode {outcome : FrontLightControlOutcome}
    (h : IsSuccess (ControlService.outcomeCode outcome)) : outcome.IsSuccess := by
  cases outcome with
  | kApplied => exact Or.inl rfl
  | kCapped => exact Or.inr (Or.inl rfl)
  | kOff => exact Or.inr (Or.inr rfl)
  | kUnavailable => rcases h with h | h | h <;> cases h
  | kRejected => rcases h with h | h | h <;> cases h
  | kFailed => rcases h with h | h | h <;> cases h
  | kFailureLatched => rcases h with h | h | h <;> cases h

/-- Whatever becomes of a request, the backend still has what the calibration says. -/
theorem Calibrated.apply {system : Sysfs} {control : ManualFrontLightControl}
    (h : Calibrated contents control.backend) (hreads : ReadsOnly contents system)
    (request : ManualFrontLightRequest) :
    Calibrated contents (control.apply system request).control.backend := by
  have hpolled := h.poll hreads
  rcases apply_cases system control request with
    ⟨-, -, hsame | ⟨-, hcontrol⟩⟩ | ⟨endpoints, resolution, happlies⟩
  · rw [hsame]
    exact h
  · rw [hcontrol]
    exact hpolled
  · cases hok : (DirectBackend.writeAll system (DirectBackend.writes endpoints resolution)).1 with
    | true =>
      rw [(happlies.succeeds hok).2]
      exact hpolled
    | false =>
      rw [(happlies.fails hok).2.2]
      exact hpolled

/-- A request that succeeds is shown. -/
theorem shows_of_isSuccess {system : Sysfs} {control : ManualFrontLightControl}
    (h : Calibrated contents control.backend) (hreads : ReadsOnly contents system)
    {request : ManualFrontLightRequest} (hok : (control.apply system request).outcome.IsSuccess)
    (nodes : Nodes) :
    Shows contents ((control.apply system request).written.foldl (Nodes.write system) nodes)
      request := by
  rcases apply_cases system control request with ⟨hrefusal, -⟩ | ⟨endpoints, resolution, happlies⟩
  · exact absurd hok hrefusal.not_success.1
  · rcases writeAll_spec system (DirectBackend.writes endpoints resolution) with
      ⟨-, hall, heach⟩ | ⟨hfailed, -⟩
    · obtain ⟨payload, hparse, -, htrims⟩ := h.poll hreads endpoints happlies.loaded
      refine ⟨payload, endpoints, resolution, hparse, htrims, ?_, fun path hne code hcode => ?_⟩
      · rw [← htrims.resolve request]
        exact happlies.resolves
      · rw [happlies.written, hall, Nodes.foldl_write heach nodes hne, hcode]
    · have houtcome := (happlies.fails hfailed).1
      rw [houtcome] at hok
      rcases hok with hok | hok | hok <;> cases hok

variable (api) in
/-- A call of the manager: an answer of success is that of a request that the nodes now show. -/
theorem invoke_spec {world : ControlService.World} {controls : ControlService.Controls}
    (h : Calibrated contents controls.control.backend) (hreads : ReadsOnly contents world.sysfs)
    {r : Request} (hr : r.InRange) (available : Bool) (carriage : Carriage) (nodes : Nodes) :
    let invoked := invokeCalibratedService api c world available carriage r.brightness r.warmth
      controls
    Calibrated contents invoked.controls.control.backend ∧
      (IsSuccess invoked.result →
        Shows contents (invoked.written.foldl (Nodes.write world.sysfs) nodes)
          ⟨r.brightness, r.warmth⟩) := by
  have hfailed : ∀ {result : Int}, result = RESULT_UNAVAILABLE ∨ result = RESULT_FAILED →
      ¬ IsSuccess result := by
    intro result hresult hok
    rcases hresult with rfl | rfl <;> rcases hok with hok | hok | hok <;> cases hok
  unfold invokeCalibratedService
  cases available with
  | false =>
    refine ⟨h, fun hok => ?_⟩
    exact absurd hok (hfailed (Or.inl rfl))
  | true =>
    rw [if_neg (show ¬ (!true) = true by decide)]
    cases hdelivered : carriage.delivered with
    | false =>
      refine ⟨h, fun hok => ?_⟩
      exact absurd hok (hfailed (Or.inr rfl))
    | true =>
      rw [if_neg (show ¬ (!true) = true by decide)]
      unfold ControlService.onTransact
      rw [readCall_requestItems hr]
      refine ⟨h.apply hreads _, fun hok => ?_⟩
      -- the manager takes for success only what the endpoint has answered
      cases hreplied : carriage.replied with
      | false =>
        rw [hreplied] at hok
        exact absurd hok (hfailed (Or.inr rfl))
      | true =>
        rw [hreplied] at hok
        have houtcome : IsSuccess (readResult api (api.writeAll [.noException, .int32
            (ControlService.outcomeCode
              (controls.control.apply world.sysfs ⟨r.brightness, r.warmth⟩).outcome)])) := hok
        rw [readResult_reply] at houtcome
        exact shows_of_isSuccess h hreads (isSuccess_outcomeCode houtcome) nodes

/-- A client that may not ask for light leaves it alone. -/
theorem onTransact_of_not_mayLight (world : ControlService.World) {caller : ControlService.Caller}
    (h : ¬ caller.MayLight) (code : Nat) (data : api.Parcel) (reply : Bool)
    (controls : ControlService.Controls) :
    let answer := ControlService.onTransact api c world caller code data reply controls
    answer.controls.control = controls.control ∧ answer.written = [] := by
  unfold ControlService.onTransact
  cases hread : ControlService.readCall api caller code data reply with
  | error status => exact ⟨rfl, rfl⟩
  | ok call =>
    have hnever : ∀ request, call ≠ .frontLight request := by
      rintro request rfl
      exact h (ControlService.mayLight_of_readCall hread)
    obtain ⟨hwritten, hcontrol⟩ :=
      ControlService.written_eq_nil (D := D) (s := controls) (c := c) world hnever
    exact ⟨hcontrol, hwritten⟩

/-! ### Runs -/

/-- The calibration does not change, and no other client asks for light. -/
def Alone (contents : List Char) : Stack → Stack.Action api.Parcel → Prop
  | _, .invoke _ _ world => ReadsOnly contents world.sysfs
  | _, .transact caller _ _ _ _ => ¬ caller.MayLight
  | _, _ => True

/-- What is true after every such run. -/
structure Lit (contents : List Char) (log : List Event) (s : Stack) : Prop where
  manager : Invariant log s.manager
  loads : Loads s.manager
  kept : Kept log s.manager
  calibrated : Calibrated contents s.controls.control.backend
  shows : ∀ r result, lastAnswer log = some (r, result) → IsSuccess result →
    Shows contents s.nodes ⟨r.brightness, r.warmth⟩

/-- Only a return of the service answers a request. -/
theorem lastAnswer_step {m m' : FrontLightManager} {a : Action}
    (h : FrontLight.step m a = some (m', evs)) (ha : ∀ result, a ≠ .serviceReturn result) :
    lastAnswer (log ++ evs) = lastAnswer log := by
  have hnothing : ∀ evs' : List Event, evs' = [] → lastAnswer (log ++ evs') = lastAnswer log := by
    rintro _ rfl
    rw [List.append_nil]
  cases a with
  | serviceReturn result => exact absurd rfl (ha result)
  | bootPhase =>
    simp only [FrontLight.step] at h
    split at h
    · cases h
    · exact hnothing _ (Prod.mk.inj (Option.some.inj h)).2.symm
  | writeSetup value => exact hnothing _ (Prod.mk.inj (Option.some.inj h)).2.symm
  | notifySetup =>
    simp only [FrontLight.step] at h
    split at h
    · exact hnothing _ (Prod.mk.inj (Option.some.inj h)).2.symm
    · cases h
  | notifyDisplay displayId =>
    simp only [FrontLight.step] at h
    split at h
    · exact hnothing _ (Prod.mk.inj (Option.some.inj h)).2.symm
    · cases h
  | submit caller call =>
    simp only [FrontLight.step] at h
    split at h
    · exact hnothing _ (Prod.mk.inj (Option.some.inj h)).2.symm
    · split at h
      · exact hnothing _ (Prod.mk.inj (Option.some.inj h)).2.symm
      · rw [← (Prod.mk.inj (Option.some.inj h)).2]
        exact lastAnswer_append_accepted _ _ _
  | post i =>
    simp only [FrontLight.step] at h
    split at h
    · cases h
    · exact hnothing _ (Prod.mk.inj (Option.some.inj h)).2.symm
  | handle i displayOn puts =>
    simp only [FrontLight.step] at h
    split at h
    · rw [← (Prod.mk.inj (Option.some.inj h)).2]
      -- a handler that has taken a message has sent one request at most
      generalize HandlerPhase.request _ = request
      cases request with
      | none => exact hnothing _ rfl
      | some r => exact lastAnswer_append_sent _ _ _
    · cases h
  | consume puts =>
    simp only [FrontLight.step] at h
    split at h
    · exact hnothing _ (Prod.mk.inj (Option.some.inj h)).2.symm
    · cases h

theorem Lit.manager_step (h : Lit contents log s) {a : FrontLight.Action}
    (ha : ∀ result, a ≠ .serviceReturn result) {m : FrontLightManager}
    (hstep : FrontLight.step s.manager a = some (m, evs)) :
    Lit contents (log ++ evs) { s with manager := m } := by
  obtain ⟨hinvariant, hloads⟩ := invariant_step h.manager h.loads hstep
  refine ⟨hinvariant, hloads, kept_step h.kept h.manager h.loads hstep, h.calibrated, ?_⟩
  rw [lastAnswer_step hstep ha]
  exact h.shows

/-- A step that leaves the manager and the nodes alone. -/
theorem Lit.frame (h : Lit contents log s) (hmanager : s'.manager = s.manager)
    (hnodes : s'.nodes = s.nodes) (hcalibrated : Calibrated contents s'.controls.control.backend) :
    Lit contents (log ++ []) s' := by
  rw [List.append_nil]
  refine ⟨?_, ?_, ?_, hcalibrated, ?_⟩
  · rw [hmanager]
    exact h.manager
  · rw [hmanager]
    exact h.loads
  · rw [hmanager]
    exact h.kept
  · rw [hnodes]
    exact h.shows

theorem Lit.step (h : Lit contents log s) {a : Stack.Action api.Parcel}
    (halone : Alone contents s a)
    (hstep : Stack.step api c s a = some (s', evs)) : Lit contents (log ++ evs) s' := by
  cases a with
  | session pipeline =>
    obtain ⟨rfl, rfl⟩ := Prod.mk.inj (Option.some.inj hstep)
    exact h.frame rfl rfl h.calibrated
  | restart =>
    obtain ⟨rfl, rfl⟩ := Prod.mk.inj (Option.some.inj hstep)
    -- the new process has loaded nothing; the nodes stay as they are
    exact h.frame rfl rfl fun _ hnone => (by cases hnone)
  | transact caller code data reply world =>
    obtain ⟨rfl, rfl⟩ := Prod.mk.inj (Option.some.inj hstep)
    obtain ⟨hcontrol, hwritten⟩ := onTransact_of_not_mayLight (c := c) world halone code data reply
      s.controls
    refine h.frame rfl ?_ ?_
    · dsimp only
      rw [hwritten]
      rfl
    · dsimp only
      rw [hcontrol]
      exact h.calibrated
  | invoke available carriage world =>
    simp only [Stack.step] at hstep
    split at hstep
    swap
    · cases hstep
    next r hr =>
    obtain ⟨⟨m, evs'⟩, hreturn, heq⟩ := Option.map_eq_some_iff.mp hstep
    obtain ⟨rfl, rfl⟩ := Prod.mk.inj heq
    have hrange := h.kept.serving r (by rw [hr]; rfl)
    obtain ⟨hcalibrated, hshows⟩ :=
      invoke_spec api (c := c) h.calibrated halone hrange available carriage s.nodes
    obtain ⟨hinvariant, hloads⟩ := invariant_step h.manager h.loads hreturn
    refine ⟨hinvariant, hloads, kept_step h.kept h.manager h.loads hreturn, hcalibrated, ?_⟩
    -- the return is the answer to the request that was being served
    simp only [FrontLight.step, hr] at hreturn
    have hevs := (Prod.mk.inj (Option.some.inj hreturn)).2.symm
    intro r' result hlast
    dsimp only at hlast
    rw [hevs, lastAnswer_append_answered] at hlast
    obtain ⟨rfl, rfl⟩ := Prod.mk.inj (Option.some.inj hlast)
    exact hshows
  | manager action =>
    by_cases hreturn : ∃ result, action = .serviceReturn result
    · obtain ⟨result, rfl⟩ := hreturn
      cases hstep
    · have hother : ∀ result, action ≠ .serviceReturn result :=
        fun result heq => hreturn ⟨result, heq⟩
      have hmap : Stack.step api c s (.manager action) =
          (FrontLight.step s.manager action).map fun r => ({ s with manager := r.1 }, r.2) := by
        cases action with
        | serviceReturn result => exact absurd rfl (hother result)
        | bootPhase => rfl
        | writeSetup value => rfl
        | notifySetup => rfl
        | notifyDisplay displayId => rfl
        | submit caller call => rfl
        | post i => rfl
        | handle i displayOn puts => rfl
        | consume puts => rfl
      rw [hmap] at hstep
      obtain ⟨⟨m, evs'⟩, hmanager, heq⟩ := Option.map_eq_some_iff.mp hstep
      obtain ⟨rfl, rfl⟩ := Prod.mk.inj heq
      exact h.manager_step hother hmanager

theorem lit_init (contents : List Char) (settings : SecureSettings) :
    Lit contents [] { manager := { settings } } where
  manager := invariant_init settings
  loads := rfl
  kept := kept_init settings
  calibrated _ h := by cases h
  shows _ _ h := by cases h

/-- Where only the manager asks for light: the nodes show the last request that was answered, if it
succeeded; they are dark after the off of an epoch has completed; and the light of a manager at rest
is the one that its state calls for, if its offs and its last request succeeded. -/
theorem front_light_shown {settings : SecureSettings} {as : List (Stack.Action api.Parcel)}
    (hrun : (Stack.system api c).Run (Alone contents) { manager := { settings } } as log s) :
    (∀ r result, lastAnswer log = some (r, result) → IsSuccess result →
      Shows contents s.nodes ⟨r.brightness, r.warmth⟩) ∧
    (OffInDark s.manager → Dark contents s.nodes) ∧
    (Quiescent s.manager → s.manager.setupComplete = true → OffsSucceed log →
      (∀ r result, lastAnswer log = some (r, result) → IsSuccess result) →
        Shows contents s.nodes ⟨(output s.manager).1, (output s.manager).2⟩) := by
  have hlit : Lit contents log s := hrun.induct (fun _ log s => Lit contents log s)
    (lit_init contents settings) fun _ _ _ _ _ _ h halone hstep => h.step halone hstep
  refine ⟨hlit.shows, fun hoff => ?_, fun hrest hsetup hoffs hlast => ?_⟩
  · obtain ⟨-, -, r, hanswer, hr⟩ := hlit.kept.dark hoff
    have hshows := hlit.shows r RESULT_OFF hanswer (Or.inr (Or.inr rfl))
    rw [hr.1, hr.2] at hshows
    exact hshows.dark
  · obtain ⟨r, hsent, houtput⟩ := sent_at_rest hlit.manager hrest hsetup hoffs
    -- an idle manager has had the answer to what it sent last
    have hidle : s.manager.handler = .idle := hrest.2.2
    have hanswered := hlit.kept.answered (fun r' h' => by cases hidle.symm.trans h')
    rw [hsent] at hanswered
    obtain ⟨⟨r', result⟩, hanswer, rfl⟩ := Option.map_eq_some_iff.mp hanswered
    have hshows := hlit.shows r' result hanswer (hlast r' result hanswer)
    rw [← houtput]
    exact hshows

/-- An action of the manager in the whole, where the service is always there and always answers. -/
def withService : FrontLight.Action → Stack.Action (Parcels.ofItems Unit).Parcel
  | .serviceReturn _ => .invoke true {} ⟨ControlService.directNodes, true⟩
  | action => .manager action

theorem alone_withService {action : FrontLight.Action} (s : Stack) :
    Alone (Text.joinLines (directEntries.map Entry.line)) s (withService action) := by
  cases action with
  | serviceReturn result => exact fun read hread => (Option.some.inj hread).symm
  | _ => trivial

/-- Light is restored at boot, made warmer, and off with the display: then the nodes are dark. -/
theorem front_light_shown_evening :
    ∃ log s, (Stack.system (Parcels.ofItems Unit) ⟨auraCDeviceProfile, 0, 0⟩).Run
        (Alone (Text.joinLines (directEntries.map Entry.line)))
        { manager := { settings := fun _ => none } } (evening.map withService) log s ∧
      OffInDark s.manager ∧ Dark (Text.joinLines (directEntries.map Entry.line)) s.nodes ∧
      s.nodes ['c'] = some ['0', '\n'] := by
  have hexec : ((Stack.system (Parcels.ofItems Unit) ⟨auraCDeviceProfile, 0, 0⟩).exec
      System.anyAction { manager := { settings := fun _ => none } }
      (evening.map withService)).any (fun r =>
        decide (r.1.manager.completedOffEpoch = r.1.manager.screenEpoch) &&
        !r.1.manager.displayOn &&
          r.1.nodes ['c'] == some ['0', '\n']) = true := by
    decide +kernel
  obtain ⟨⟨s, log⟩, hlog, hstate⟩ := (Option.any_eq_true _ _).mp hexec
  simp only [Bool.and_eq_true, decide_eq_true_eq, Bool.not_eq_true', beq_iff_eq] at hstate
  obtain ⟨⟨hepoch, hdisplay⟩, hnode⟩ := hstate
  have hrun : (Stack.system (Parcels.ofItems Unit) ⟨auraCDeviceProfile, 0, 0⟩).Run
      (Alone (Text.joinLines (directEntries.map Entry.line)))
      { manager := { settings := fun _ => none } }
      (evening.map withService) log s := by
    refine (System.Run.of_exec hlog).of_forall fun a ha s => ?_
    obtain ⟨action, -, rfl⟩ := List.mem_map.mp ha
    exact alone_withService s
  exact ⟨log, s, hrun, ⟨hepoch, hdisplay⟩, (front_light_shown hrun).2.1 ⟨hepoch, hdisplay⟩, hnode⟩

end EinkLab.FrontLight
