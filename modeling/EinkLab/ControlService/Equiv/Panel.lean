import EinkLab.ControlService.Equiv.Treatments
import EinkLab.LowerEngine.Equiv.QualityHistory

/-!
# The panel shows what the callers were told

Transactions and the calls of the `Submit`s interleave in any way.

* `treated_as_told`: an accepted frame is shown with the treatments that were set last before its
  `Submit` has loaded them, and the callers are told what is set;
* `history_outlives_no_change`: the quality history against which a white is prepared was made under
  the treatments of the frame, and none of them was changed, and changed back, since they were
  loaded for it.

`Tracks` connects the log to the `Submit` on its way, and to a run of the lower engine alone;
`step_sets` is what one step does to the words, and that no change of them is missed is the rule
`Run.quiet_of_eq`.
-/

namespace EinkLab.LowerEngine

open Transition Procedure Quality

variable {p : EinkDeviceProfile} {frame : Frame} {b : Backend}

/-- An accepted frame of a color panel is shown as it was treated. -/
theorem sat_submit_shows (hcolor : p.hasColorCfa = true) :
    (submit p frame).Sat (fun _ _ => True) (fun _ h _ => ∃ config raw, Shows p frame h config raw)
      [] b := by
  unfold submit
  rw [sat_bind]
  have hentry : IsSame (entryChecks p frame) :=
    does_entryChecks passive_same reads_same gone_of_refused
  refine hentry.sat (fun _ _ _ => trivial) fun _ l₁ b₁ hs₁ => ?_
  rw [sat_bind]
  refine (does_now passive_same).sat (fun _ _ _ => trivial) fun started l₂ b₂ hs₂ => ?_
  rw [sat_bind]
  refine (sat_loadConfiguration (p := p) (hs₁.trans hs₂)).mono (fun _ _ _ => trivial)
    fun c h₃ b₃ hl₃ => ?_
  rw [sat_bind]
  have hselect : IsSame (selectEnvelope p frame) := does_selectEnvelope chains_same gone_of_refused
  refine hselect.sat (fun _ _ _ => trivial) fun envelope l₄ b₄ hs₄ => ?_
  rw [sat_bind]
  refine (Quality.sat_prepareTarget (hl₃.extend hs₄)).mono (fun _ _ _ => trivial)
    fun target h₅ b₅ ha₅ => ?_
  rcases ha₅ with ⟨-, raw, whites, output, ht⟩ | ⟨hgray, -⟩
  swap
  · rw [hcolor] at hgray
    cases hgray
  refine (sat_of_colorless (colorless_fromTarget target) _ _).extends.mono (fun _ _ hP => hP) ?_
  rintro _ _ _ ⟨hcalls, l, rfl⟩
  exact ⟨c, raw, ht.acquired.extend, whites, output, hcalls.trans ht.calls⟩

theorem shows_of_run {as : List SubmitAction} {log : List Submitted} {t : Backend}
    (hcolor : p.hasColorCfa = true) (hrun : (system p).Run System.anyAction b as log t) :
    ∀ x ∈ log, x.accepted = true → ∃ config raw, Shows p x.frame x.calls config raw := by
  refine hrun.induct (fun _ log _ => ∀ x ∈ log, x.accepted = true →
    ∃ config raw, Shows p x.frame x.calls config raw) (by simp) ?_
  rintro - log t a u evs hshows - hs x hx haccepted
  obtain ⟨result, hreplay, rfl⟩ := step_cases hs
  rcases List.mem_append.mp hx with hx | hx
  · exact hshows x hx haccepted
  · obtain rfl := List.mem_singleton.mp hx
    obtain ⟨r, rfl⟩ := Option.isSome_iff_exists.mp haccepted
    exact (sat_replay (sat_submit_shows hcolor) hreplay).1 r rfl

end EinkLab.LowerEngine

namespace EinkLab.ControlService

open Binder LowerEngine LowerEngine.Quality Transition Stamps

variable {D : Type} {api : Parcels D} {c : Pipeline.Settings}

namespace Panel

variable {s s' : Panel}

/-! ### One step -/

theorem proceed_controls (s : Panel) (r : Running) :
    (s.proceed r : Panel × List (Event D)).1.controls = s.controls := by
  unfold proceed
  split <;> rfl

/-- What a `Submit` emits when it goes on: nothing, or that it has returned. -/
theorem proceed_events (s : Panel) (r : Running) :
    ∀ e ∈ (s.proceed r : Panel × List (Event D)).2, ∃ x, e = .submitted x := by
  intro e he
  unfold proceed at he
  split at he
  · exact ⟨_, List.mem_singleton.mp he⟩
  · exact absurd he List.not_mem_nil

/-- The steps of the process. -/
inductive Steps (api : Parcels D) (c : Pipeline.Settings) (s : Panel) :
    Action api.Parcel → Panel → List (Event D) → Prop
  | turn (action caller enabled) : qualityCall api action = some (caller, enabled) →
      Steps api c s (.control action)
        { s with
          controls := (s.controls.configureColorQuality c.profile enabled).2
          asking := s.asking ++ [(caller, enabled)] }
        [.turned caller enabled]
  | control (action controls evs) : qualityCall api action = none →
      ControlService.step api c s.controls action = some (controls, evs) →
      Steps api c s (.control action) { s with controls } (evs.map .served)
  | tell (index caller enabled) : s.asking[index]? = some (caller, enabled) →
      Steps api c s (.tellQuality index) { s with asking := s.asking.eraseIdx index }
        [.served ⟨caller, .colorQuality enabled,
          [.noException, .int32 (s.controls.configureColorQuality c.profile (-1)).1], [], []⟩]
  | submit (frame) : s.running = none →
      Steps api c s (.submit frame)
        (s.proceed { frame, rest := (LowerEngine.submit c.profile frame).run s.backend } :
          Panel × List (Event D)).1
        (s.proceed { frame, rest := (LowerEngine.submit c.profile frame).run s.backend }).2
  | call (answered r rest) : s.running = some r → answers s.controls answered = true →
      r.rest.answer answered = some rest →
      Steps api c s (.call answered)
        (s.proceed { r with calls := r.calls ++ [answered], rest } : Panel × List (Event D)).1
        (.called answered :: (s.proceed { r with calls := r.calls ++ [answered], rest }).2)

theorem steps_of_step {a : Action api.Parcel} {evs : List (Event D)}
    (h : step api c s a = some (s', evs)) : Steps api c s a s' evs := by
  cases a with
  | control action =>
    cases hquality : qualityCall api action with
    | some ask =>
      obtain ⟨caller, enabled⟩ := ask
      simp only [step, hquality, Option.some.injEq] at h
      obtain ⟨rfl, rfl⟩ := Prod.mk.inj h
      exact .turn action caller enabled hquality
    | none =>
      simp only [step, hquality] at h
      obtain ⟨⟨controls, served⟩, hstep, heq⟩ := Option.map_eq_some_iff.mp h
      obtain ⟨rfl, rfl⟩ := Prod.mk.inj heq
      exact .control action controls served hquality hstep
  | tellQuality index =>
    cases hasking : s.asking[index]? with
    | none => simp [step, hasking] at h
    | some ask =>
      obtain ⟨caller, enabled⟩ := ask
      simp only [step, hasking, Option.some.injEq] at h
      obtain ⟨rfl, rfl⟩ := Prod.mk.inj h
      exact .tell index caller enabled hasking
  | submit frame =>
    cases hrunning : s.running with
    | some r => simp [step, hrunning] at h
    | none =>
      simp only [step, hrunning, Option.some.injEq] at h
      obtain ⟨rfl, rfl⟩ := Prod.mk.inj h
      exact .submit frame hrunning
  | call answered =>
    cases hrunning : s.running with
    | none => simp [step, hrunning] at h
    | some r =>
      simp only [step, hrunning] at h
      split at h
      · next hanswers =>
        obtain ⟨rest, hrest, heq⟩ := Option.map_eq_some_iff.mp h
        obtain ⟨rfl, rfl⟩ := Prod.mk.inj heq
        exact .call answered r rest hrunning hanswers hrest
      · cases h

/-! ### The log and the `Submit` on its way -/

/-- The calls of a `Submit`, one event further. -/
def Event.further (calls : List VendorEvent) : Event D → List VendorEvent
  | .called e => calls ++ [e]
  | .submitted _ => []
  | _ => calls

/-- The calls since a `Submit` has returned last. -/
def callsSince (log : List (Event D)) : List VendorEvent := log.foldl Event.further []

/-- The `Submit` that has returned. -/
def Event.result : Event D → Option Submitted
  | .submitted x => some x
  | _ => none

variable {log pre post : List (Event D)}

theorem callsSince_append_singleton (log : List (Event D)) (e : Event D) :
    callsSince (log ++ [e]) = e.further (callsSince log) := by
  unfold callsSince
  rw [List.foldl_append]
  rfl

/-- Transactions are no calls of a `Submit`. -/
theorem callsSince_append_transactions {evs : List (Event D)}
    (h : ∀ e ∈ evs, e.isTransaction = true) : callsSince (log ++ evs) = callsSince log := by
  induction evs using List.reverseRecOn with
  | nil => rw [List.append_nil]
  | append_singleton evs e ih =>
    rw [← List.append_assoc, callsSince_append_singleton, ih
      fun e he => h e (List.mem_append_left _ he)]
    have he := h e (List.mem_append_right _ (List.mem_singleton_self e))
    cases e with
    | turned => rfl
    | served => rfl
    | called => cases he
    | submitted => cases he

theorem result_of_transaction {e : Event D} (h : e.isTransaction = true) : e.result = none := by
  cases e with
  | turned => rfl
  | served => rfl
  | called => cases h
  | submitted => cases h

theorem isTransaction_of_mem_served {evs : List (Served D)} :
    ∀ e ∈ evs.map Event.served, e.isTransaction = true := by
  intro e he
  obtain ⟨x, -, rfl⟩ := List.mem_map.mp he
  rfl

/-- Such a call was made after all `Submit`s that have returned. -/
theorem exists_called_of_mem {x : VendorEvent} (h : x ∈ callsSince log) :
    ∃ pre mid, log = pre ++ .called x :: mid ∧ ∀ z, Event.submitted z ∉ mid := by
  induction log using List.reverseRecOn with
  | nil => exact absurd h List.not_mem_nil
  | append_singleton log e ih =>
    rw [callsSince_append_singleton] at h
    have hbefore (h : x ∈ callsSince log) (he : ∀ z, e ≠ .submitted z) :
        ∃ pre mid, log ++ [e] = pre ++ .called x :: mid ∧ ∀ z, Event.submitted z ∉ mid := by
      obtain ⟨pre, mid, rfl, hmid⟩ := ih h
      refine ⟨pre, mid ++ [e], by simp, fun z hz => ?_⟩
      rcases List.mem_append.mp hz with hz | hz
      · exact hmid z hz
      · exact he z (List.mem_singleton.mp hz).symm
    cases e with
    | turned => exact hbefore h fun z hz => by cases hz
    | served => exact hbefore h fun z hz => by cases hz
    | submitted y => exact absurd h List.not_mem_nil
    | called y =>
      rcases List.mem_append.mp h with h | h
      · exact hbefore h fun z hz => by cases hz
      · rw [List.mem_singleton.mp h]
        exact ⟨log, [], rfl, fun z => List.not_mem_nil⟩

/-- The `Submit` on its way has made the calls since the last one has returned; those that have
returned are a run of the lower engine alone. -/
structure Tracks (c : Pipeline.Settings) (b : Backend) (log : List (Event D)) (s : Panel) :
    Prop where
  calls : (s.running.map Running.calls).getD [] = callsSince log
  rest : ∀ r, s.running = some r →
    ((LowerEngine.submit c.profile r.frame).run s.backend).after r.calls = some r.rest
  returned : EachEvent (fun pre e => ∀ x, e = .submitted x → x.calls = callsSince pre) log
  alone : ∃ as, (LowerEngine.system c.profile).Run System.anyAction b as
    (log.filterMap Event.result)
    s.backend

theorem tracks_init (b : Backend) : Tracks c b ([] : List (Event D)) { backend := b } where
  calls := rfl
  rest _ h := by cases h
  returned := eachEvent_nil _
  alone := ⟨[], .nil⟩

/-- The `Submit` goes on. -/
theorem Tracks.proceed {b : Backend} {r : Running} (hcalls : r.calls = callsSince log)
    (hrest : ((LowerEngine.submit c.profile r.frame).run s.backend).after r.calls = some r.rest)
    (hreturned : EachEvent (fun pre e => ∀ x, e = .submitted x → x.calls = callsSince pre) log)
    (halone : ∃ as, (LowerEngine.system c.profile).Run System.anyAction b as
      (log.filterMap Event.result) s.backend) :
    Tracks c b (log ++ (s.proceed r).2) (s.proceed r : Panel × List (Event D)).1 := by
  unfold Panel.proceed
  cases hr : r.rest with
  | call o k =>
    dsimp only
    rw [List.append_nil]
    refine ⟨hcalls, ?_, hreturned, halone⟩
    rintro r' hr'
    obtain rfl := Option.some.inj hr'
    exact hrest
  | ret end' =>
    obtain ⟨result, backend⟩ := end'
    dsimp only
    refine ⟨?_, fun r' hr' => (by cases hr'), ?_, ?_⟩
    · rw [callsSince_append_singleton]
      rfl
    · refine eachEvent_append_singleton.mpr ⟨hreturned, fun x hx => ?_⟩
      obtain rfl := Event.submitted.inj hx
      exact hcalls
    · obtain ⟨as, hrun⟩ := halone
      rw [hr] at hrest
      have hreplay := Program.replay_of_after hrest
      refine ⟨as ++ [⟨r.frame, r.calls⟩], ?_⟩
      rw [List.filterMap_append]
      refine hrun.snoc trivial ?_
      show ((((LowerEngine.submit c.profile r.frame).run s.backend).replay r.calls).map _) = _
      rw [hreplay]
      rfl

/-- What is done for callers has no part in it. -/
theorem Tracks.transactions {b : Backend} {evs : List (Event D)} (h : Tracks c b log s)
    (hbackend : s'.backend = s.backend) (hrunning : s'.running = s.running)
    (hevs : ∀ e ∈ evs, e.isTransaction = true) : Tracks c b (log ++ evs) s' := by
  refine ⟨?_, ?_, ?_, ?_⟩
  · rw [callsSince_append_transactions hevs, hrunning]
    exact h.calls
  · rw [hrunning, hbackend]
    exact h.rest
  · refine eachEvent_append_of_forall h.returned fun pre e he x hx => ?_
    have htransaction := hevs e he
    rw [hx] at htransaction
    cases htransaction
  · have hnone : evs.filterMap Event.result = [] :=
      List.filterMap_eq_nil_iff.mpr fun e he => result_of_transaction (hevs e he)
    rw [List.filterMap_append, hnone, List.append_nil, hbackend]
    exact h.alone

theorem Tracks.step {b : Backend} {a : Action api.Parcel} {evs : List (Event D)}
    (h : Tracks c b log s) (hstep : Panel.step api c s a = some (s', evs)) :
    Tracks c b (log ++ evs) s' := by
  cases steps_of_step hstep with
  | turn action caller enabled hquality =>
    exact h.transactions rfl rfl fun e he => by rw [List.mem_singleton.mp he]; rfl
  | control action controls served hquality hcontrol =>
    exact h.transactions rfl rfl isTransaction_of_mem_served
  | tell index caller enabled hasking =>
    exact h.transactions rfl rfl fun e he => by rw [List.mem_singleton.mp he]; rfl
  | submit frame hidle =>
    refine Tracks.proceed ?_ rfl h.returned h.alone
    rw [← h.calls, hidle]
    rfl
  | call answered r rest hrunning hanswers hrest =>
    rw [List.append_cons]
    have hcalls : callsSince log = r.calls := by
      rw [← h.calls, hrunning]
      rfl
    refine Tracks.proceed ?_ ?_ ?_ ?_
    · rw [callsSince_append_singleton, hcalls]
      rfl
    · show Program.after _ (r.calls ++ [answered]) = some rest
      rw [Program.after_append_singleton, h.rest r hrunning]
      exact hrest
    · exact eachEvent_append_singleton.mpr ⟨h.returned, fun x hx => by cases hx⟩
    · rw [List.filterMap_append]
      obtain ⟨as, hrun⟩ := h.alone
      exact ⟨as, (List.append_nil _).symm ▸ hrun⟩

theorem tracks_of_run {b : Backend} {as : List (Action api.Parcel)}
    (hrun : (system api c).Run System.anyAction { backend := b } as log s) : Tracks c b log s :=
  hrun.induct (fun _ log s => Tracks c b log s) (tracks_init b) fun _ _ _ _ _ _ h _ hstep =>
    h.step hstep

/-! ### Loads -/

theorem word_of_answers {controls : Controls} {k : Treatment} {config : Configuration}
    (h : answers controls (k.load config) = true) : k.word controls = k.loaded config := by
  cases k with
  | quality => exact (beq_iff_eq.mp h).symm
  | gray => exact (beq_iff_eq.mp h).symm
  | vivid => exact (beq_iff_eq.mp h).symm

theorem load_mem {calls : List VendorEvent} {config : Configuration} {l : List VendorEvent}
    (h : colorCalls calls = loading config ++ l) (k : Treatment) : k.load config ∈ calls := by
  have hmem : k.load config ∈ colorCalls calls := by
    rw [h]
    refine List.mem_append_left _ ?_
    cases k <;> simp [loading, Treatment.load]
  exact List.mem_of_mem_filter hmem

/-- The moment of a load. -/
theorem exists_load {s u : Panel} {as : List (Action api.Parcel)} {k : Treatment}
    {config : Configuration} (hrun : (system api c).Run System.anyAction s as log u)
    (hlog : log = pre ++ .called (k.load config) :: post) :
    ∃ as₁ as₂ t, (system api c).Run System.anyAction s as₁ pre t ∧
      (system api c).Run System.anyAction t as₂ (.called (k.load config) :: post) u ∧
      k.word t.controls = k.loaded config := by
  obtain ⟨as₁, log₁, t, a, t', evs, pre', post', as₂, hpre, -, hstep, hevs, rfl, hrest⟩ :=
    hrun.split_at_log hlog
  have hmem : Event.called (k.load config) ∈ pre' ++ .called (k.load config) :: post' :=
    List.mem_append_right _ List.mem_cons_self
  cases steps_of_step hstep with
  | turn action caller enabled hquality =>
    rw [← hevs] at hmem
    cases List.mem_singleton.mp hmem
  | control action controls served hquality hcontrol =>
    rw [← hevs] at hmem
    cases isTransaction_of_mem_served _ hmem
  | tell index caller enabled hasking =>
    rw [← hevs] at hmem
    cases List.mem_singleton.mp hmem
  | submit frame hidle =>
    rw [← hevs] at hmem
    obtain ⟨x, hx⟩ := proceed_events _ _ _ hmem
    cases hx
  | call answered r rest hrunning hanswers hanswered =>
    cases pre' with
    | nil =>
      obtain ⟨hhead, -⟩ := List.cons.inj hevs
      obtain rfl := Event.called.inj hhead
      rw [List.append_nil]
      exact ⟨as₁, as₂, t, hpre, hrest, word_of_answers hanswers⟩
    | cons e pre' =>
      -- what follows the call is no call
      have htail : (t.proceed { r with calls := r.calls ++ [answered], rest }).2 =
          pre' ++ .called (k.load config) :: post' := (List.cons.inj hevs).2
      have hmem : Event.called (k.load config) ∈ pre' ++ .called (k.load config) :: post' :=
        List.mem_append_right _ List.mem_cons_self
      rw [← htail] at hmem
      obtain ⟨x, hx⟩ := proceed_events _ _ _ hmem
      cases hx

/-! ### What the treatments are set to -/

/-- What an event sets a treatment to: color quality when it is turned, the others when the caller
is told. -/
def Event.sets (k : Treatment) : Event D → Option Int
  | .turned _ enabled => if k = .quality ∧ enabled ≠ -1 then some enabled else none
  | .served e =>
    match e.told with
    | some (k', v) => if k' = k ∧ k ≠ .quality then some v else none
    | none => none
  | _ => none

/-- The gray preference is Balanced at first, and the rest is off. -/
def initial : Treatment → Int
  | .gray => 1
  | _ => 0

/-- What a treatment was set to last. -/
def setting (k : Treatment) (log : List (Event D)) : Int :=
  (log.filterMap (Event.sets k)).getLast?.getD (initial k)

theorem setting_append_of_none {k : Treatment} {evs : List (Event D)}
    (h : ∀ e ∈ evs, Event.sets k e = none) : setting k (log ++ evs) = setting k log := by
  unfold setting
  rw [List.filterMap_append, List.filterMap_eq_nil_iff.mpr h, List.append_nil]

theorem setting_append_of_some {k : Treatment} {e : Event D} {v : Int}
    (h : Event.sets k e = some v) :
    setting k (log ++ [e]) = v := by
  unfold setting
  rw [List.filterMap_append, List.filterMap_cons_some h, List.filterMap_nil, List.getLast?_concat]
  rfl

theorem sets_served_of_asked_none {e : Served D} (h : Treatment.asked e.call = none)
    (k : Treatment) :
    Event.sets k (.served e) = none := by
  unfold Event.sets Served.told
  dsimp only
  rw [h]
  rfl

theorem sets_served {e : Served D} {k : Treatment} {v : Int} (h : e.told = some (k, v))
    (k' : Treatment) :
    Event.sets k' (.served e) = if k = k' ∧ k' ≠ .quality then some v else none := by
  unfold Event.sets
  dsimp only
  rw [h]

/-! ### What a step sets -/

theorem of_qualityCall {a : ControlService.Action api.Parcel} {caller : Caller} {enabled : Int}
    (h : qualityCall api a = some (caller, enabled)) :
    caller.refreshDisplay = true ∧ -1 ≤ enabled ∧ enabled ≤ 1 := by
  cases a with
  | session => cases h
  | onTransact world caller' code data reply =>
    unfold qualityCall at h
    dsimp only at h
    split at h
    · next hread =>
      obtain ⟨rfl, rfl⟩ := Prod.mk.inj (Option.some.inj h)
      exact readCall_asked hread rfl
    · cases h

/-- What the endpoint does in one step is not about color quality. -/
theorem ne_quality_of_qualityCall {a : ControlService.Action api.Parcel}
    {controls controls' : Controls} {evs : List (Served D)} (h : qualityCall api a = none)
    (hstep : ControlService.step api c controls a = some (controls', evs))
    {e : Served D} (he : e ∈ evs) {k : Treatment} {request : Int}
    (hasked : Treatment.asked e.call = some (k, request)) : k ≠ .quality := by
  rintro rfl
  cases a with
  | session pipeline =>
    obtain ⟨-, rfl⟩ := Prod.mk.inj (Option.some.inj hstep)
    exact absurd he List.not_mem_nil
  | onTransact world caller code data reply =>
    obtain ⟨-, rfl⟩ := Prod.mk.inj (Option.some.inj hstep)
    unfold onTransact at he
    unfold qualityCall at h
    dsimp only at h
    cases hread : readCall api caller code data reply with
    | error status =>
      rw [hread] at he
      exact absurd he List.not_mem_nil
    | ok call =>
      rw [hread] at he h
      obtain rfl := List.mem_singleton.mp he
      cases call <;> cases hasked
      cases h

/-- A step leaves the words alone, or it sets one treatment. -/
theorem step_sets (hcolor : c.profile.hasColorCfa = true) {a : Action api.Parcel}
    {evs : List (Event D)} (hstep : Panel.step api c s a = some (s', evs)) :
    ((∀ k : Treatment, k.word s'.controls = k.word s.controls) ∧
      ∀ e ∈ evs, ∀ k, Event.sets k e = none) ∨
    ∃ e k request, evs = [e] ∧ e.isTransaction = true ∧ Treats k request s.controls s'.controls ∧
      -1 ≤ request ∧ request ≤ k.limit ∧ Event.sets k e = some (k.value (k.word s'.controls)) ∧
      ∀ k' ≠ k, Event.sets k' e = none := by
  cases steps_of_step hstep with
  | submit frame hidle =>
    refine Or.inl ⟨fun k => by rw [proceed_controls], fun e he k => ?_⟩
    obtain ⟨y, rfl⟩ := proceed_events _ _ e he
    rfl
  | call answered r rest hrunning hanswers hrest =>
    refine Or.inl ⟨fun k => by rw [proceed_controls], fun e he k => ?_⟩
    rcases List.mem_cons.mp he with rfl | he
    · rfl
    · obtain ⟨y, rfl⟩ := proceed_events _ _ e he
      rfl
  | tell index caller enabled hasking =>
    refine Or.inl ⟨fun _ => rfl, fun e he k => ?_⟩
    rw [List.mem_singleton.mp he, sets_served rfl]
    exact if_neg fun ⟨hk, hne⟩ => hne hk.symm
  | turn action caller enabled hquality =>
    obtain ⟨-, hrange⟩ := of_qualityCall hquality
    obtain ⟨htreats, -⟩ := configureColorQuality_treats (s := s.controls) hcolor hrange
    by_cases hask : enabled = -1
    · subst hask
      refine Or.inl ⟨htreats.word_of_ask, fun e he k => ?_⟩
      rw [List.mem_singleton.mp he]
      exact if_neg fun ⟨_, hne⟩ => hne rfl
    · refine Or.inr ⟨_, .quality, enabled, rfl, rfl, htreats, hrange.1, hrange.2, ?_,
        fun k' hk => ?_⟩
      · show (if _ then some enabled else none) = _
        rw [if_pos ⟨rfl, hask⟩, htreats.value, if_neg hask]
      · exact if_neg fun ⟨heq, _⟩ => hk heq
  | control action controls served hquality hcontrol =>
    rcases step_treatments hcolor hcontrol with ⟨hwords, hnone⟩ | ⟨e, k, request, rfl, hturned⟩
    · refine Or.inl ⟨hwords, fun e he k => ?_⟩
      obtain ⟨x, hx, rfl⟩ := List.mem_map.mp he
      exact sets_served_of_asked_none (hnone x hx) k
    · have hne := ne_quality_of_qualityCall hquality hcontrol
        (List.mem_singleton_self e) hturned.asked
      refine Or.inr ⟨.served e, k, request, rfl, rfl, hturned.treats, hturned.range.1,
        hturned.range.2, ?_, fun k' hk => ?_⟩
      · rw [sets_served hturned.told, if_pos ⟨rfl, hne⟩]
      · rw [sets_served hturned.told, if_neg fun ⟨heq, _⟩ => hk heq.symm]

/-! ### What the callers are told -/

/-- The words have the values that were set last, which are in range; and who asks for color quality
has turned it. -/
structure Informed (log : List (Event D)) (s : Panel) : Prop where
  value : ∀ k : Treatment, k.value (k.word s.controls) = setting k log
  range : ∀ k : Treatment, 0 ≤ k.value (k.word s.controls) ∧ k.value (k.word s.controls) ≤ k.limit
  asking : ∀ ask ∈ s.asking, .turned ask.1 ask.2 ∈ log ∧ ask.1.refreshDisplay = true

theorem informed_init (b : Backend) : Informed ([] : List (Event D)) { backend := b } where
  value := by
    have hinitial : ∀ k : Treatment, k.value (k.word {}) = initial k := by
      rintro (_ | _ | _) <;> rfl
    exact hinitial
  range := by
    have hinitial : ∀ k : Treatment, 0 ≤ k.value (k.word {}) ∧ k.value (k.word {}) ≤ k.limit := by
      rintro (_ | _ | _) <;> decide
    exact hinitial
  asking _ h := absurd h List.not_mem_nil

/-- Who asks for color quality after a step. -/
theorem asking_step {a : Action api.Parcel} {evs : List (Event D)}
    (hstep : Panel.step api c s a = some (s', evs)) :
    ∀ ask ∈ s'.asking, ask ∈ s.asking ∨
      (.turned ask.1 ask.2 ∈ evs ∧ ask.1.refreshDisplay = true) := by
  cases steps_of_step hstep with
  | submit frame hidle =>
    intro ask hask
    unfold Panel.proceed at hask
    split at hask <;> exact Or.inl hask
  | call answered r rest hrunning hanswers hrest =>
    intro ask hask
    unfold Panel.proceed at hask
    split at hask <;> exact Or.inl hask
  | control action controls served hquality hcontrol => exact fun ask hask => Or.inl hask
  | tell index caller enabled hasking =>
    exact fun ask hask => Or.inl (List.mem_of_mem_eraseIdx hask)
  | turn action caller enabled hquality =>
    intro ask hask
    rcases List.mem_append.mp hask with hask | hask
    · exact Or.inl hask
    · obtain rfl := List.mem_singleton.mp hask
      exact Or.inr ⟨List.mem_singleton_self _, (of_qualityCall hquality).1⟩

theorem Informed.step (hcolor : c.profile.hasColorCfa = true) (h : Informed log s)
    {a : Action api.Parcel} {evs : List (Event D)} (hstep : Panel.step api c s a = some (s', evs)) :
    Informed (log ++ evs) s' := by
  have hasking : ∀ ask ∈ s'.asking, .turned ask.1 ask.2 ∈ log ++ evs ∧
    ask.1.refreshDisplay = true := by
    intro ask hask
    rcases asking_step hstep ask hask with hbefore | ⟨hnow, hcaller⟩
    · obtain ⟨hmem, hcaller⟩ := h.asking ask hbefore
      exact ⟨List.mem_append_left _ hmem, hcaller⟩
    · exact ⟨List.mem_append_right _ hnow, hcaller⟩
  rcases step_sets hcolor hstep with
    ⟨hwords, hnone⟩ | ⟨e, k, request, rfl, -, htreats, hlow, hhigh, hsets, hothers⟩
  · refine ⟨fun k => ?_, fun k => ?_, hasking⟩
    · rw [setting_append_of_none fun e he => hnone e he k, hwords]
      exact h.value k
    · rw [hwords]
      exact h.range k
  · refine ⟨fun k' => ?_, fun k' => ?_, hasking⟩
    · by_cases hk : k' = k
      · obtain rfl := hk
        exact (setting_append_of_some hsets).symm
      · have hnone : setting k' (log ++ [e]) = setting k' log :=
          setting_append_of_none fun e' he' => by rw [List.mem_singleton.mp he', hothers k' hk]
        rw [hnone, htreats.others k' hk]
        exact h.value k'
    · by_cases hk : k' = k
      · obtain rfl := hk
        rw [htreats.value]
        split
        · exact h.range k'
        · exact ⟨by omega, hhigh⟩
      · rw [htreats.others k' hk]
        exact h.range k'

/-- Only callers that may refresh the display set a treatment.  A caller is told the value that it
asks for, or what was set last if it asks for none; about color quality always the latter, and that
after its own change. -/
def Answered (pre : List (Event D)) : Event D → Prop
  | .turned caller enabled => caller.refreshDisplay = true ∧ -1 ≤ enabled ∧ enabled ≤ 1
  | .served e => ∀ k request, Treatment.asked e.call = some (k, request) →
    e.caller.refreshDisplay = true ∧ (k = .quality → .turned e.caller request ∈ pre) ∧
      ∃ v, e.told = some (k, v) ∧ 0 ≤ v ∧ v ≤ k.limit ∧
        v = if k = .quality ∨ request = -1 then setting k pre else request
  | _ => True

theorem configureColorQuality_ask {p : EinkDeviceProfile} (hcolor : p.hasColorCfa = true)
    (controls : Controls) : (controls.configureColorQuality p (-1)).1 =
      Treatment.quality.value controls.qualityConfig := by
  have hnot : ¬ (!p.hasColorCfa) = true := by simp [hcolor]
  unfold Controls.configureColorQuality
  rw [if_neg hnot]
  rfl

theorem Informed.answered (hcolor : c.profile.hasColorCfa = true) (h : Informed log s)
    {a : Action api.Parcel} {evs : List (Event D)} (hstep : Panel.step api c s a = some (s', evs))
    (hall : EachEvent Answered log) : EachEvent Answered (log ++ evs) := by
  cases steps_of_step hstep with
  | submit frame hidle =>
    refine eachEvent_append_of_forall hall fun pre e he => ?_
    obtain ⟨y, rfl⟩ := proceed_events _ _ e he
    trivial
  | call answered r rest hrunning hanswers hrest =>
    refine eachEvent_append_of_forall hall fun pre e he => ?_
    rcases List.mem_cons.mp he with rfl | he
    · trivial
    · obtain ⟨y, rfl⟩ := proceed_events _ _ e he
      trivial
  | turn action caller enabled hquality =>
    exact eachEvent_append_singleton.mpr ⟨hall, of_qualityCall hquality⟩
  | tell index caller enabled hasking =>
    refine eachEvent_append_singleton.mpr ⟨hall, fun k request hasked => ?_⟩
    obtain ⟨rfl, rfl⟩ := Prod.mk.inj (Option.some.inj hasked)
    obtain ⟨hmem, hcaller⟩ := h.asking _ (List.mem_of_getElem? hasking)
    refine ⟨hcaller, fun _ => hmem, _, rfl, ?_⟩
    rw [if_pos (Or.inl rfl), configureColorQuality_ask hcolor]
    obtain ⟨hlow, hhigh⟩ := h.range .quality
    exact ⟨hlow, hhigh, h.value .quality⟩
  | control action controls served hquality hcontrol =>
    rcases step_treatments hcolor hcontrol with ⟨-, hnone⟩ | ⟨e, k, request, rfl, hturned⟩
    · refine eachEvent_append_of_forall hall fun pre e he => ?_
      obtain ⟨x, hx, rfl⟩ := List.mem_map.mp he
      intro k request hasked
      rw [hnone x hx] at hasked
      cases hasked
    · have hne := ne_quality_of_qualityCall hquality hcontrol
        (List.mem_singleton_self e) hturned.asked
      refine eachEvent_append_singleton.mpr ⟨hall, fun k' request' hasked => ?_⟩
      obtain ⟨rfl, rfl⟩ := Prod.mk.inj (Option.some.inj (hturned.asked.symm.trans hasked))
      have hvalue : k.value (k.word controls) =
          if k = .quality ∨ request = -1 then setting k log else request := by
        rw [hturned.treats.value, h.value k]
        simp only [hne, false_or]
      refine ⟨hturned.caller, fun hk => absurd hk hne, _, hturned.told, ?_, ?_, hvalue⟩
      · rw [hturned.treats.value]
        have hlow := (h.range k).1
        have hrequest := hturned.range.1
        split <;> omega
      · rw [hturned.treats.value]
        have hhigh := (h.range k).2
        have hrequest := hturned.range.2
        split <;> omega

theorem informed_of_run (hcolor : c.profile.hasColorCfa = true) {b : Backend}
    {as : List (Action api.Parcel)}
    (hrun : (system api c).Run System.anyAction { backend := b } as log s) :
    Informed log s ∧ EachEvent Answered log := by
  refine hrun.induct (fun _ log s => Informed log s ∧ EachEvent Answered log)
    ⟨informed_init b, eachEvent_nil _⟩ ?_
  rintro - log t a u evs ⟨hinformed, hall⟩ - hstep
  exact ⟨hinformed.step hcolor hstep, hinformed.answered hcolor hstep hall⟩

/-- **The panel shows what the callers were told.**  An accepted frame is shown with the treatments
that were set last before its `Submit` has loaded them; and the callers are told what they have set.
 The shell command that sets the color quality on debuggable builds is not an action of the
 system. -/
theorem treated_as_told (hcolor : c.profile.hasColorCfa = true) {b : Backend}
    {as : List (Action api.Parcel)}
    (hrun : (system api c).Run System.anyAction { backend := b } as log s) :
    EachEvent Answered log ∧
      ∀ pre x post, log = pre ++ .submitted x :: post → x.accepted = true →
        ∃ config raw, Shows c.profile x.frame x.calls config raw ∧
          ∀ k : Treatment, 0 ≤ k.value (k.loaded config) ∧ k.value (k.loaded config) ≤ k.limit ∧
            ∃ before since, pre = before ++ .called (k.load config) :: since ∧
              (∀ y, .submitted y ∉ since) ∧ k.value (k.loaded config) = setting k before := by
  refine ⟨(informed_of_run hcolor hrun).2, ?_⟩
  rintro pre x post rfl haccepted
  have htracks := tracks_of_run hrun
  obtain ⟨bs, hsubmits⟩ := htracks.alone
  have hmem : x ∈ (pre ++ .submitted x :: post).filterMap Event.result :=
    List.mem_filterMap.mpr ⟨.submitted x, by simp, rfl⟩
  obtain ⟨config, raw, hshows⟩ := shows_of_run hcolor hsubmits x hmem haccepted
  refine ⟨config, raw, hshows, fun k => ?_⟩
  have hload : k.load config ∈ callsSince pre := by
    rw [← htracks.returned pre _ post rfl x rfl]
    obtain ⟨-, whites, output, hcalls⟩ := hshows
    exact load_mem hcalls k
  obtain ⟨before, since, rfl, hsince⟩ := exists_called_of_mem hload
  rw [List.append_assoc, List.cons_append] at hrun
  obtain ⟨as₁, as₂, t, hbefore, -, hword⟩ := exists_load hrun rfl
  have hinformed := (informed_of_run hcolor hbefore).1
  have hrange := hinformed.range k
  have hvalue := hinformed.value k
  rw [hword] at hrange hvalue
  exact ⟨hrange.1, hrange.2, before, since, rfl, hsince, hvalue⟩

/-! ### No change is missed -/

/-- What a treatment is set to is the value of the word. -/
def Agrees (k : Treatment) (w : UInt64) (e : Event D) : Prop :=
  ∀ v, Event.sets k e = some v → v = k.value w

/-- A word is as it was, or a transaction has given it the next stamp. -/
theorem stamped (hcolor : c.profile.hasColorCfa = true) (k : Treatment) :
    (system api c).Stamped k.bits (fun s => k.word s.controls) Event.isTransaction (Agrees k) := by
  intro s a s' evs hstep
  rcases step_sets hcolor hstep with
    ⟨hwords, hnone⟩ | ⟨e, k', request, rfl, htransaction, htreats, -, -, hsets, hothers⟩
  · refine Or.inl ⟨hwords k, fun e he v hv => ?_⟩
    rw [hnone e he k] at hv
    cases hv
  · by_cases hk : k = k'
    · obtain rfl := hk
      rcases htreats.word with hword | ⟨-, hstamp⟩
      · refine Or.inl ⟨hword, fun e' he v hv => ?_⟩
        obtain rfl := List.mem_singleton.mp he
        obtain rfl := Option.some.inj (hsets.symm.trans hv)
        exact congrArg k.value hword
      · refine Or.inr ⟨hstamp, ?_⟩
        rw [List.countP_cons_of_pos htransaction]
        exact Nat.succ_pos _
    · refine Or.inl ⟨htreats.others k hk, fun e' he v hv => ?_⟩
      rw [List.mem_singleton.mp he, hothers k hk] at hv
      cases hv

/-- Between two loads of one word its treatment is not set to anything else. -/
theorem agrees_between_loads (hcolor : c.profile.hasColorCfa = true) {as : List (Action api.Parcel)}
    {k : Treatment} {config : Configuration} {mid : List (Event D)}
    (hrun : (system api c).Run System.anyAction s as log s')
    (hlog : log = pre ++ .called (k.load config) :: mid ++ .called (k.load config) :: post)
    (hcount : log.countP Event.isTransaction < 2 ^ 62) :
    ∀ e ∈ mid, ∀ v, Event.sets k e = some v → v = k.value (k.loaded config) := by
  have hmid : mid.countP Event.isTransaction ≤ log.countP Event.isTransaction := by
    rw [hlog, List.countP_append, List.countP_append, List.countP_cons]
    omega
  rw [List.append_assoc] at hlog
  obtain ⟨-, as₂, t, -, hrest, hword⟩ := exists_load hrun hlog
  have hagain : .called (k.load config) :: (mid ++ .called (k.load config) :: post) =
      (.called (k.load config) :: mid) ++ .called (k.load config) :: post := rfl
  obtain ⟨as₃, -, t', hbetween, -, hword'⟩ := exists_load hrest hagain
  have hfew : (Event.called (k.load config) :: mid).countP Event.isTransaction < stamps k.bits := by
    rw [List.countP_cons_of_neg (by exact Bool.false_ne_true)]
    exact (hmid.trans_lt hcount).trans_le k.le_stamps
  have hquiet := hbetween.quiet_of_eq (stamped hcolor k) k.bits_lt.le hfew (hword'.trans hword.symm)
  rw [hword] at hquiet
  exact fun e he v hv => hquiet e (List.mem_cons_of_mem _ he) v hv

/-- Two marks in a list, where the first is not behind the second. -/
theorem exists_between {α : Type} {l l' m m' : List α} {a b : α} (h : l ++ a :: m = l' ++ b :: m')
    (hne : a ≠ b) (hmem : a ∉ m') : ∃ mid, l' = l ++ a :: mid ∧ m = mid ++ b :: m' := by
  rcases List.append_eq_append_iff.mp h with ⟨d, rfl, hd⟩ | ⟨d, rfl, hd⟩
  · cases d with
    | nil => exact absurd (List.cons.inj hd).1 hne
    | cons x d =>
      obtain ⟨rfl, rfl⟩ := List.cons.inj hd
      exact ⟨d, rfl, rfl⟩
  · cases d with
    | nil => exact absurd (List.cons.inj hd).1.symm hne
    | cons x d =>
      obtain ⟨-, rfl⟩ := List.cons.inj hd
      exact absurd (List.mem_append_right _ List.mem_cons_self) hmem

theorem exists_submitted {x : Submitted} {l l' : List Submitted}
    (h : log.filterMap Event.result = l ++ x :: l') :
    ∃ upto after, log = upto ++ .submitted x :: after ∧ after.filterMap Event.result = l' := by
  obtain ⟨l₁, l₂, rfl, -, hl₂⟩ := List.filterMap_eq_append_iff.mp h
  obtain ⟨l₃, e, l₄, rfl, -, he, hl₄⟩ := List.filterMap_eq_cons_iff.mp hl₂
  cases e with
  | submitted z =>
    obtain rfl := Option.some.inj he
    exact ⟨l₁ ++ l₃, l₄, (List.append_assoc _ _ _).symm, hl₄⟩
  | turned => cases he
  | served => cases he
  | called => cases he

/-- The history is the frame `x` that was accepted last, treated as `config` says; `x` has loaded
the same words, and from then until they were loaded again no treatment was set to anything else. -/
structure InForce (p : EinkDeviceProfile) (pre : List (Event D)) (config : Configuration)
    (history : List UInt8) (x : Submitted) : Prop where
  accepted : x.accepted = true
  awake : x.frame.sleepImageEpoch = 0
  shown : ∃ raw, Shows p x.frame x.calls config raw ∧ history = treatedColor config raw
  unchanged : ∀ k : Treatment, ∃ before mid₁ mid₂ since,
    pre = before ++ .called (k.load config) :: (mid₁ ++ .submitted x :: mid₂) ++
      .called (k.load config) :: since ∧
    (∀ y, .submitted y ∉ mid₁) ∧ (∀ y, .submitted y ∈ mid₂ → y.accepted = false) ∧
    (∀ y, .submitted y ∉ since) ∧
    ∀ e ∈ mid₁ ++ mid₂, ∀ v, Event.sets k e = some v → v = k.value (k.loaded config)

/-- **The history outlives no change.**  The first plane that a `Submit` maps is its own, treated as
it has loaded, or all white, or prepared against a history; and unless this is empty it was made
under the same treatments, which were not changed, and changed back, in between. -/
theorem history_outlives_no_change {b : Backend} (hstart : b.qualityHistory.previous = [])
    {as : List (Action api.Parcel)}
    (hrun : (system api c).Run System.anyAction { backend := b } as log s)
    (hcount : log.countP Event.isTransaction < 2 ^ 62) {y : Submitted}
    (hlog : log = pre ++ .submitted y :: post) {config : Configuration} {input : List UInt8}
    {output : Int × List UInt8} {rest : List VendorEvent}
    (hfirst : colorCalls y.calls = loading config ++ ⟨.mapVpcoa input, output⟩ :: rest) :
    ∃ raw, Acquired c.profile y.frame y.calls raw ∧
      (input = treatedColor config raw ∨
        (y.frame.diagnosticRefresh = .whiteThenTarget ∧
          input = List.replicate (treatedColor config raw).length 0xff) ∨
        ∃ history thresholds,
          input = ((history : ColorQualityHistory).prepare (treatedColor config raw) thresholds
            (y.frame.diagnosticRefresh = .colorCleanup)).2 ∧
          (history.previous = [] ∨ ∃ x, InForce c.profile pre config history.previous x)) := by
  have htracks := tracks_of_run hrun
  obtain ⟨bs, hsubmits⟩ := htracks.alone
  have hresults : log.filterMap Event.result =
      pre.filterMap Event.result ++ y :: post.filterMap Event.result := by
    rw [hlog, List.filterMap_append]
    rfl
  obtain ⟨as₁, log₁, t, a, t', evs, pre', post', hbefore, -, hstep, hevs, hpre⟩ :=
    hsubmits.exists_step_of_log hresults
  obtain ⟨hmatches, hmono⟩ := matches_of_run hstart hbefore
  obtain ⟨result, hreplay, rfl⟩ := step_cases hstep
  obtain ⟨rfl, rfl⟩ : pre' = [] ∧ y = ⟨a.frame, a.calls, result.isSome⟩ := by
    cases pre' with
    | nil => exact ⟨rfl, (List.cons.inj hevs).1.symm⟩
    | cons z pre' => simp at hevs
  rw [List.append_nil] at hpre
  have hmaps : MapsFirst c.profile t a.frame a.calls := by
    obtain ⟨haccepted, hrefused⟩ := Procedure.sat_replay (Quality.sat_submit hmono) hreplay
    cases result with
    | none => exact (hrefused rfl).first
    | some r => exact (haccepted r rfl).first
  obtain ⟨raw, hacquired, hplane⟩ := hmaps config input output rest hfirst
  refine ⟨raw, hacquired, hplane.imp_right fun hplane => hplane.imp_right ?_⟩
  rintro ⟨thresholds, hinput⟩
  refine ⟨_, thresholds, hinput, ?_⟩
  rcases historyFor_cases t config a.frame with hempty | ⟨hkept, hconfig⟩
  · exact Or.inl hempty
  rw [hkept]
  by_cases hcolor : c.profile.hasColorCfa = true
  swap
  · exact Or.inl (hmono (Bool.eq_false_iff.mpr hcolor))
  rcases hmatches with
    hempty | ⟨pre₁, x, post₁, raw', hlog₁, haccepted, hpost₁, hawake, hshows, hprevious⟩
  · exact Or.inl hempty
  refine Or.inr ⟨x, haccepted, hawake, ⟨raw', hconfig ▸ hshows, hconfig ▸ hprevious⟩, fun k => ?_⟩
  -- where `x` has returned, where it has loaded the word, and where that was loaded again
  obtain ⟨upto, after, rfl, hafter⟩ := exists_submitted (hpre.trans hlog₁)
  have hloads : k.load config ∈ callsSince (upto ++ .submitted x :: after) := by
    rw [← htracks.returned _ _ post hlog _ rfl]
    exact load_mem hfirst k
  have hloaded : k.load config ∈ callsSince upto := by
    obtain ⟨-, whites, output', hcalls⟩ := hshows
    rw [← hconfig] at hcalls
    have hupto : log = upto ++ .submitted x ::
        (after ++ .submitted ⟨a.frame, a.calls, result.isSome⟩ :: post) := by simp [hlog]
    rw [← htracks.returned upto _ _ hupto x rfl]
    exact load_mem hcalls k
  obtain ⟨before, mid₁, rfl, hmid₁⟩ := exists_called_of_mem hloaded
  obtain ⟨before', since, hagain, hsince⟩ := exists_called_of_mem hloads
  obtain ⟨mid₂, rfl, rfl⟩ := exists_between hagain (fun h => by cases h) (hsince x)
  have hpre'' : before ++ .called (k.load config) :: mid₁ ++ .submitted x ::
      (mid₂ ++ .called (k.load config) :: since) =
      before ++ .called (k.load config) :: (mid₁ ++ .submitted x :: mid₂) ++
        .called (k.load config) :: since := by simp
  refine ⟨before, mid₁, mid₂, since, hpre'', hmid₁, fun z hz => ?_, hsince, fun e he v hv => ?_⟩
  · -- what was returned in between was refused
    refine hpost₁ z ?_
    rw [← hafter, List.filterMap_append]
    exact List.mem_append_left _ (List.mem_filterMap.mpr ⟨_, hz, rfl⟩)
  · rw [hpre'', List.append_assoc, List.cons_append] at hlog
    refine agrees_between_loads hcolor hrun hlog hcount e ?_ v hv
    rcases List.mem_append.mp he with he | he
    · exact List.mem_append_left _ he
    · exact List.mem_append_right _ (List.mem_cons_of_mem _ he)

/-! ### A pixel -/

/-- The environment of the pixel: quality has been turned on once, a second passes between two
calls, and every update is accepted. -/
def slowVendor : (o : VendorCall) → VendorAnswer o
  | .qualityConfig => 3
  | .grayConfig => 1
  | .update _ => kObservedUpdateAcceptedResult
  | .now => (10 ^ 9 : Nat)
  | o => refusingVendor o

/-- A client turns quality on or off, or asks. -/
def askQuality (enabled : Int) : Action (Parcels.ofItems Unit).Parcel :=
  .control (.onTransact ⟨⟨none, fun _ => .denied, fun _ => .denied, fun _ _ => false⟩, true⟩
    ⟨10000, true, false⟩ (FIRST_CALL_TRANSACTION + 2)
    [.interfaceToken kDescriptor, .int32 enabled] true)

/-- A `Submit`, call by call. -/
def submitSlowly (b : Backend) (frame : Frame) :
    List (Action (Parcels.ofItems Unit).Parcel) × Backend :=
  let driven := ((LowerEngine.submit pixelProfile frame).run b).drive slowVendor
  (.submit frame :: driven.1.map .call, driven.2.2)

/-- A black pixel is shown with quality on, then a client asks, and a red pixel follows. -/
def blackThenRed : List (Action (Parcels.ofItems Unit).Parcel) :=
  let black := submitSlowly { state := .initialized } ordinaryPixelFrame
  askQuality 1 :: .tellQuality 0 :: black.1 ++
    askQuality (-1) :: .tellQuality 0 :: (submitSlowly black.2 redPixelFrame).1

def pixelSettings : Pipeline.Settings := ⟨pixelProfile, 0, 0⟩

def whitePixel : List UInt8 := [255, 255, 255, 255]

def pixelPanel : Panel := { backend := { state := .initialized } }

/-- The first frame is accepted; the second is prepared against it, and refused. -/
theorem blackThenRed_run :
    ∃ log s x y, (system (Parcels.ofItems Unit) pixelSettings).Run System.anyAction pixelPanel
        blackThenRed log s ∧
      log.countP Event.isTransaction = 4 ∧ log.filterMap Event.result = [x, y] ∧ x.accepted = true ∧
      firstPlane y.calls = some (⟨3, 1, 0⟩, whitePixel) := by
  have hexec : ((system (Parcels.ofItems Unit) pixelSettings).exec System.anyAction pixelPanel
      blackThenRed).any (fun r => decide (r.2.countP Event.isTransaction = 4 ∧
        (r.2.filterMap Event.result).map (fun x => (x.accepted, firstPlane x.calls)) =
          [(true, some (⟨3, 1, 0⟩, [0, 0, 0, 255])),
            (false, some (⟨3, 1, 0⟩, whitePixel))])) = true := by
    decide +kernel
  obtain ⟨⟨s, log⟩, hlog, hall⟩ := (Option.any_eq_true _ _).mp hexec
  obtain ⟨hcount, hresults⟩ := of_decide_eq_true hall
  obtain ⟨x, l, hl, hx, hrest⟩ := List.map_eq_cons_iff.mp hresults
  obtain ⟨y, l', rfl, hy, hnil⟩ := List.map_eq_cons_iff.mp hrest
  obtain rfl := List.map_eq_nil_iff.mp hnil
  exact ⟨log, s, x, y, System.Run.of_exec hlog, hcount, hl, congrArg Prod.fst hx,
    congrArg Prod.snd hy⟩

theorem treated_as_told_blackThenRed :
    ∃ log s pre x post, (system (Parcels.ofItems Unit) pixelSettings).Run System.anyAction
    pixelPanel
        blackThenRed log s ∧
      log = pre ++ .submitted x :: post ∧ x.accepted = true ∧
      ∃ config raw, Shows pixelProfile x.frame x.calls config raw ∧
        ∀ k : Treatment, ∃ before since, pre = before ++ .called (k.load config) :: since ∧
          k.value (k.loaded config) = setting k before := by
  obtain ⟨log, s, x, y, hrun, -, hresults, haccepted, -⟩ := blackThenRed_run
  obtain ⟨pre, post, hlog, -⟩ := exists_submitted (hresults.trans (List.nil_append _).symm)
  obtain ⟨config, raw, hshows, htold⟩ := (treated_as_told rfl hrun).2 pre x post hlog haccepted
  refine ⟨log, s, pre, x, post, hrun, hlog, haccepted, config, raw, hshows, fun k => ?_⟩
  obtain ⟨-, -, before, since, hpre, -, hvalue⟩ := htold k
  exact ⟨before, since, hpre, hvalue⟩

theorem history_outlives_no_change_blackThenRed :
    ∃ log s pre y post, (system (Parcels.ofItems Unit) pixelSettings).Run System.anyAction
    pixelPanel
        blackThenRed log s ∧
      log = pre ++ .submitted y :: post ∧ firstPlane y.calls = some (⟨3, 1, 0⟩, whitePixel) ∧
      ∃ raw, Acquired pixelProfile y.frame y.calls raw ∧
        (whitePixel = treatedColor ⟨3, 1, 0⟩ raw ∨
          (y.frame.diagnosticRefresh = .whiteThenTarget ∧
            whitePixel = List.replicate (treatedColor ⟨3, 1, 0⟩ raw).length 0xff) ∨
          ∃ history thresholds,
            whitePixel = ((history : ColorQualityHistory).prepare
              (treatedColor ⟨3, 1, 0⟩ raw) thresholds
              (y.frame.diagnosticRefresh = .colorCleanup)).2 ∧
            (history.previous = [] ∨
              ∃ x, InForce pixelProfile pre ⟨3, 1, 0⟩ history.previous x)) := by
  obtain ⟨log, s, x, y, hrun, hcount, hresults, -, hplane⟩ := blackThenRed_run
  obtain ⟨pre, post, hlog, -⟩ := exists_submitted (hresults.trans (List.singleton_append).symm)
  obtain ⟨output, rest, hfirst⟩ := colorCalls_of_firstPlane hplane
  refine ⟨log, s, pre, y, post, hrun, hlog, hplane, ?_⟩
  exact history_outlives_no_change rfl hrun (by rw [hcount]; decide) hlog hfirst

end Panel

end EinkLab.ControlService
