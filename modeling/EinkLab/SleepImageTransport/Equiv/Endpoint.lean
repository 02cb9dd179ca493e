import EinkLab.SleepImageStore.Equiv.Colors
import EinkLab.SleepImageTransport.Equiv.Control

/-!
# The endpoint under any transactions

`endpoint_runs_control_plane`: in every run of the endpoint, whatever parcels whatever callers send
it while the session is started and its pipeline works, the session goes through a run of the
control plane with the same calls and the same results; it holds the catalog of the last accepted
publication; the transactions of callers other than the system might as well not have been made; and
on a color product every catalog that reaches the session passes its checks.

`Answered` says what one transaction can do.
-/

namespace EinkLab

open Transition Binder Pipeline CaptureSession SleepImageManager

/-! ### Entries of a color product -/

namespace EinkSleepImageCatalog

/-- Where a gray plane can be made of a color plane, the color plane has the alpha of the alpha
plane. -/
theorem alphaChannel_of_grayOfRgba {plane alpha gray : List UInt8}
    (hlen : plane.length = alpha.length * 4) (h : grayOfRgba plane alpha = some gray) :
    alphaChannel plane = alpha := by
  induction alpha generalizing plane gray with
  | nil =>
    have hnil : plane = [] := List.eq_nil_of_length_eq_zero (by simpa using hlen)
    rw [hnil]
    rfl
  | cons a alpha ih =>
    rw [List.length_cons] at hlen
    rcases plane with - | ⟨red, - | ⟨green, - | ⟨blue, - | ⟨coverage, rest⟩⟩⟩⟩
    case cons.cons.cons.cons =>
      rw [grayOfRgba] at h
      split at h
      · cases h
      · next heq =>
        obtain ⟨gray', hgray, -⟩ := Option.map_eq_some_iff.mp h
        have hlength : rest.length = alpha.length * 4 := by
          simp only [List.length_cons] at hlen
          omega
        rw [alphaChannel, ih hlength hgray, not_not.mp heq]
    -- four bytes a pixel
    all_goals simp only [List.length_cons, List.length_nil] at hlen; omega

/-- An entry that is read on a color product passes the checks of the catalog. -/
theorem validateEntry_of_readEntry {p : EinkDeviceProfile} (hcolor : p.hasColorCfa = true)
    {width height : Int} {plane alpha : List UInt8} {e : Entry}
    (h : readEntry p width height plane alpha = some e) : validateEntry p e = none := by
  unfold readEntry at h
  split at h
  · cases h
  next hgeometry =>
  split at h
  · cases h
  next hlengths =>
  obtain ⟨gray, hgray, rfl⟩ := Option.map_eq_some_iff.mp h
  obtain ⟨hwidth, hheight⟩ := not_or.mp hgeometry
  obtain ⟨hplane, halpha⟩ := not_or.mp hlengths
  have hplane := not_not.mp hplane
  have halpha := not_not.mp halpha
  have hlen : plane.length = alpha.length * 4 := by omega
  have hchannel := alphaChannel_of_grayOfRgba hlen hgray
  obtain ⟨gray', hgray', hcount, hpanel⟩ := grayOfRgba_of_alphaChannel hlen hchannel
  obtain rfl := Option.some.inj (hgray'.symm.trans hgray)
  unfold validateEntry
  rw [if_neg (by simp [not_not.mp hwidth, not_not.mp hheight]),
    if_neg (by simp [hcount, halpha]), if_neg (by simp [hpanel]), if_neg (by simp [halpha])]
  split
  · rfl
  rw [if_neg (by simp [hcolor, hplane]), if_neg (by simp [hchannel])]

end EinkSleepImageCatalog

namespace SleepImageTransport

variable {D : Type} {api : Parcels D} {c : Settings} {memory : SharedMemory D}
  {p : EinkDeviceProfile}
  {m : M3State} {x x' : Endpoint} {data : api.Parcel} {r : SleepImageCatalogRequest}

/-! ### What is read -/

theorem readEntries_spec (hcolor : p.hasColorCfa = true) {count : Nat}
    {entries : List EinkSleepImageCatalog.Entry}
    (h : SleepImageBinder.readEntries api p memory data count = some entries) :
    entries.length = count ∧
      ∀ e ∈ entries, EinkSleepImageCatalog.validateEntry p e = none := by
  induction count generalizing data entries with
  | zero =>
    rw [← Option.some.inj h]
    exact ⟨rfl, fun e he => absurd he List.not_mem_nil⟩
  | succ count ih =>
    obtain ⟨⟨e, rest⟩, hentry, h⟩ := Option.bind_eq_some_iff.mp h
    obtain ⟨entries', hentries, rfl⟩ := Option.map_eq_some_iff.mp h
    obtain ⟨hlength, hvalid⟩ := ih hentries
    refine ⟨congrArg (· + 1) hlength, fun e' he' => ?_⟩
    rcases List.mem_cons.mp he' with rfl | he'
    · unfold SleepImageBinder.readEntry at hentry
      dsimp only at hentry
      split at hentry
      · cases hentry
      · obtain ⟨⟨plane, data'⟩, -, hentry⟩ := Option.bind_eq_some_iff.mp hentry
        obtain ⟨⟨alpha, data''⟩, -, hentry⟩ := Option.bind_eq_some_iff.mp hentry
        obtain ⟨e'', hread, heq⟩ := Option.map_eq_some_iff.mp hentry
        obtain rfl := (Prod.mk.inj heq).1
        exact EinkSleepImageCatalog.validateEntry_of_readEntry hcolor hread
    · exact hvalid e' he'

/-- Entries that pass their own checks are a catalog of the panel. -/
theorem validate_of_entries (hproduct : p ∈ deviceProfiles)
    {entries : List EinkSleepImageCatalog.Entry} (hpositive : 0 < entries.length)
    (hcount : entries.length ≤ EinkSleepImageCatalog.kMaximumEntries)
    (hvalid : ∀ e ∈ entries, EinkSleepImageCatalog.validateEntry p e = none) :
    EinkSleepImageCatalog.validate p.panelWidth p.panelHeight entries = .accepted := by
  unfold EinkSleepImageCatalog.validate
  rw [if_neg, if_neg, Int.toNat_natCast, Int.toNat_natCast, findEinkDeviceProfile_panel hproduct]
  · have hnone : entries.findSome? (EinkSleepImageCatalog.validateEntry p) = none :=
      List.findSome?_eq_none_iff.mpr hvalid
    dsimp only
    rw [hnone]
    rfl
  · exact Nat.not_lt.mpr hcount
  · rw [List.isEmpty_iff, ← List.length_eq_zero_iff]
    exact Nat.ne_of_gt hpositive

/-- A request that is read on a color product passes the session's checks of its arguments. -/
theorem valid_of_readRequest (hproduct : c.profile ∈ deviceProfiles)
    (hcolor : c.profile.hasColorCfa = true)
    (h : SleepImageBinder.readRequest api c.profile memory data = some r) : r.valid c = true := by
  unfold SleepImageBinder.readRequest at h
  dsimp only at h
  split at h
  · cases h
  next hchecks =>
  obtain ⟨mode, -, h⟩ := Option.bind_eq_some_iff.mp h
  obtain ⟨entries, hentries, rfl⟩ := Option.map_eq_some_iff.mp h
  obtain ⟨hlength, hvalid⟩ := readEntries_spec hcolor hentries
  simp only [Bool.or_eq_true, Bool.not_eq_true', decide_eq_true_eq, not_or] at hchecks
  obtain ⟨⟨⟨⟨⟨-, hepoch⟩, hpositive⟩, hfits⟩, hindex⟩, hselected⟩ := hchecks
  have hvalidate := validate_of_entries hproduct (by omega) (by omega) hvalid
  simp only [SleepImageCatalogRequest.valid, Bool.and_eq_true, decide_eq_true_eq]
  refine ⟨⟨⟨⟨hepoch, trivial⟩, trivial⟩, hvalidate⟩, ?_⟩
  omega

/-- The session refuses what does not pass its checks, and keeps what it has. -/
theorem publish_refused (h : r.valid c = false) :
    (m.publishSleepImageCatalog c r).1 ≠ .accepted ∧ (m.publishSleepImageCatalog c r).2 = m := by
  obtain ⟨result, -, hsession⟩ := publish_invalid h
  rw [hsession]
  refine ⟨fun haccepted => ?_, rfl⟩
  -- a session that remembers no epoch would have taken a valid catalog
  have htaken := congrArg Prod.fst (hsession {})
  rw [show (result, ({} : M3State)).1 = .accepted from haccepted] at htaken
  unfold M3State.publishSleepImageCatalog EinkSleepImageCatalog.publish at htaken
  split at htaken
  · cases htaken
  next hepoch =>
  split at htaken
  · cases htaken
  next hgeometry =>
  simp only [Bool.or_eq_true, decide_eq_true_eq, not_or, not_not] at hgeometry
  cases hvalidate : EinkSleepImageCatalog.validate r.width r.height r.entries
  case accepted =>
    simp only [hvalidate] at htaken
    split at htaken
    · cases htaken
    next hselected =>
    have hlt : r.selectedIndex < r.entries.length := Nat.not_le.mp hselected
    have hvalid : r.valid c = true := by
      simp [SleepImageCatalogRequest.valid, hepoch, ← hgeometry.1, ← hgeometry.2, hvalidate, hlt]
    rw [hvalid] at h
    cases h
  all_goals simp only [hvalidate] at htaken; cases htaken

/-! ### One transaction -/

/-- What a transaction of the user `uid` can do to a session. -/
inductive Answered (api : Parcels D) (c : Settings) (memory : SharedMemory D) (uid : Nat)
    (m : M3State)
    (answer : SleepImageBinder.Answer D) : Prop
  /-- It is refused, and nothing else happens. -/
  | refused (hstatus : answer.status ≠ .ok) (hreply : answer.reply = [])
      (hsession : answer.session.getD m = m) (hcalled : answer.called = none)
  | presented (epoch : Nat) (now : TimePoint) (huid : uid = AID_SYSTEM)
      (hsession : answer.session = some (m.presentSleepImage c epoch now).2)
      (hcalled : answer.called = some (.presented epoch (m.presentSleepImage c epoch now).1))
  | disarmed (epoch : Nat) (huid : uid = AID_SYSTEM)
      (hsession : answer.session = some (m.disarmSleepCycle epoch).2)
      (hcalled : answer.called = some (.disarmed epoch (m.disarmSleepCycle epoch).1))
  | published (data : api.Parcel) (r : SleepImageCatalogRequest)
      (huid : uid = AID_SYSTEM)
      (hread : SleepImageBinder.readRequest api c.profile memory data = some r)
      (hsession : answer.session = some (m.publishSleepImageCatalog c r).2)
      (hcalled : answer.called = some (.published r (m.publishSleepImageCatalog c r).1))

theorem onTransact_cases (c : Settings) (memory : SharedMemory D) (uid code : Nat)
    (data : api.Parcel)
    (reply : Bool) (now : TimePoint) (registered : Bool) (m : M3State) :
    Answered api c memory uid m (SleepImageBinder.onTransact api c memory uid code data reply now
      (if registered then some m else none)) := by
  unfold SleepImageBinder.onTransact
  dsimp only
  split
  · exact .refused nofun rfl (by cases registered <;> rfl) rfl
  next hcaller =>
  have huid : uid = AID_SYSTEM := by
    simp only [Bool.or_eq_true, decide_eq_true_eq, not_or, not_not] at hcaller
    exact hcaller.1.2
  cases registered with
  | false => exact .refused nofun rfl rfl rfl
  | true =>
    rw [if_pos rfl]
    dsimp only
    split
    · exact .refused nofun rfl rfl rfl
    unfold SleepImageBinder.serve
    dsimp only
    split
    · -- an epoch
      split
      · exact .refused nofun rfl rfl rfl
      split
      · exact .presented _ now huid rfl rfl
      · exact .disarmed _ huid rfl rfl
    split
    · exact .refused nofun rfl rfl rfl
    · cases hread : SleepImageBinder.readRequest api c.profile memory _ with
      | none => exact .refused nofun rfl rfl rfl
      | some r => exact .published _ r huid hread rfl rfl

/-- A caller other than the system is refused. -/
theorem onTransact_foreign {uid : Nat} (huid : uid ≠ AID_SYSTEM) (code : Nat)
    (data : api.Parcel) (reply : Bool) (now : TimePoint) (session : Option M3State) :
    SleepImageBinder.onTransact api c memory uid code data reply now session =
      { status := .permissionDenied, session } := by
  unfold SleepImageBinder.onTransact
  exact if_pos (by simp [huid])

/-! ### One step -/

/-- A step of the control plane. -/
theorem runControl {n n' : Native} {calls : List Native.Call} (a : Native.Action)
    (h : n.step a = (n', calls)) : Native.system.Run System.anyAction n [a] calls n' :=
  .single trivial (congrArg some h)

/-- What a step of the endpoint does. -/
structure StepOf (c : Settings) (m m' : M3State) (calls : List SleepImageBinder.Call) : Prop where
  coherent : Coherent c m'
  runs : ∃ bs, Native.system.Run System.anyAction (control m) bs
    (calls.map SleepImageBinder.Call.control) (control m')
  holds : held m' = (calls.filterMap acceptedCatalog).getLast?.or (held m)

theorem stepOf_refl (h : Coherent c m) : StepOf c m m [] := ⟨h, ⟨[], .nil⟩, rfl⟩

theorem stepOf_presented (h : Coherent c m) (epoch : Nat) (now : TimePoint) :
    StepOf c m (m.presentSleepImage c epoch now).2
      [.presented epoch (m.presentSleepImage c epoch now).1] := by
  obtain ⟨hcoherent, hheld⟩ := h.presentSleepImage epoch now
  refine ⟨hcoherent,
    ⟨_, runControl (.presentSleepImage epoch (conditions c m epoch now)) ?_⟩, hheld⟩
  unfold Native.step
  dsimp only
  rw [control_presentSleepImage]
  rfl

theorem stepOf_disarmed (h : Coherent c m) (epoch : Nat) :
    StepOf c m (m.disarmSleepCycle epoch).2 [.disarmed epoch (m.disarmSleepCycle epoch).1] := by
  obtain ⟨hcoherent, hheld⟩ := h.disarmSleepCycle epoch
  refine ⟨hcoherent, ⟨_, runControl (.disarmSleepCycle epoch) ?_⟩, hheld⟩
  unfold Native.step
  dsimp only
  rw [control_disarmSleepCycle h]
  rfl

theorem stepOf_published (h : Coherent c m) (r : SleepImageCatalogRequest) :
    StepOf c m (m.publishSleepImageCatalog c r).2
      [.published r (m.publishSleepImageCatalog c r).1] := by
  cases hvalid : r.valid c with
  | false =>
    obtain ⟨hresult, hsame⟩ := publish_refused (m := m) hvalid
    rw [hsame]
    refine ⟨h, ⟨_, runControl
      (.publishSleepImageCatalog r.epoch { catalogValid := false }) ?_⟩, ?_⟩
    · unfold Native.step Native.publishSleepImageCatalog
      dsimp only
      have hcall : SleepImageBinder.Call.control
          (.published r (m.publishSleepImageCatalog c r).1) = .published r.epoch false :=
        congrArg (Native.Call.published r.epoch) (decide_eq_false hresult)
      rw [List.map_cons, hcall]
      split <;> rfl
    · have hnone : acceptedCatalog (.published r (m.publishSleepImageCatalog c r).1) = none := by
        unfold acceptedCatalog
        split
        · next heq => exact absurd (SleepImageBinder.Call.published.inj heq).2 hresult
        · rfl
      rw [List.filterMap_cons_none hnone]
      rfl
  | true =>
    obtain ⟨hresult, hcoherent, hheld, hcontrol⟩ := h.publishSleepImageCatalog hvalid
    refine ⟨hcoherent, ⟨_, runControl (.publishSleepImageCatalog r.epoch {}) ?_⟩, ?_⟩
    · unfold Native.step
      dsimp only
      rw [hcontrol]
      rfl
    · rw [hheld, hresult]
      split <;> rfl

theorem stepOf_own (h : Coherent c m) {s s' : Pipeline} (hs : m.pipeline = some s)
    (hown : Own s s') : StepOf c m { m with pipeline := some s' } [] := by
  have hcoherent := h.moved hs (hown.stopping.trans (h.running s hs)) hown.catalogEpoch
  have hheld : held { m with pipeline := some s' } = held m := by
    rw [held_pipeline hs, held_pipeline rfl]
    unfold heldPipeline
    rw [hown.catalog, hown.catalogEpoch, hown.selectedIndex, hown.mode]
  have hcontrol : (control m).pipeline = some (controlPipeline s) :=
    congrArg (Option.map controlPipeline) hs
  have hpipeline : controlPipeline s' = { controlPipeline s with latch := s'.sleepImageLatch } := by
    unfold controlPipeline
    rw [hown.catalog, hown.catalogEpoch]
  rcases hown.latch with hlatch | ⟨frame, selector, hlatch⟩
  · -- the latch is left alone, and the control plane does nothing
    have hsame : control { m with pipeline := some s' } = control m := by
      show Native.mk _ _ (some (controlPipeline s')) = Native.mk _ _ _
      rw [Native.mk.injEq]
      refine ⟨rfl, rfl, ?_⟩
      rw [hs, hpipeline, hlatch]
      rfl
    refine ⟨hcoherent, ⟨[], ?_⟩, hheld⟩
    rw [hsame]
    exact .nil
  · refine ⟨hcoherent, ⟨_, runControl (.evaluate frame selector) ?_⟩, hheld⟩
    unfold Native.step Native.evaluate
    dsimp only
    rw [hcontrol]
    refine Prod.ext ?_ rfl
    show Native.mk _ _ _ = Native.mk _ _ (some (controlPipeline s'))
    rw [hpipeline, hlatch]
    rfl

theorem stepOf_step (h : Coherent c x.session) {a : Endpoint.Action api.Parcel}
    {calls : List SleepImageBinder.Call} (hs : x.step api c memory a = some (x', calls)) :
    StepOf c x.session x'.session calls := by
  cases a with
  | registerSleepImageCaptureSession =>
    obtain ⟨rfl, rfl⟩ := Prod.mk.inj (Option.some.inj hs)
    exact stepOf_refl h
  | unregisterSleepImageCaptureSession =>
    obtain ⟨rfl, rfl⟩ := Prod.mk.inj (Option.some.inj hs)
    exact stepOf_refl h
  | onTransact uid code data reply now =>
    obtain ⟨rfl, rfl⟩ := Prod.mk.inj (Option.some.inj hs)
    have hanswered := onTransact_cases c memory uid code data reply now x.registered x.session
    dsimp only at hanswered ⊢
    rcases hanswered with ⟨-, -, hsession, hcalled⟩ | ⟨epoch, now', -, hsession, hcalled⟩ |
      ⟨epoch, -, hsession, hcalled⟩ | ⟨data', r, -, -, hsession, hcalled⟩
    · rw [hsession, hcalled]
      exact stepOf_refl h
    · rw [hsession, hcalled]
      exact stepOf_presented h epoch now'
    · rw [hsession, hcalled]
      exact stepOf_disarmed h epoch
    · rw [hsession, hcalled]
      exact stepOf_published h r
  | maybeStartM3 =>
    obtain ⟨rfl, rfl⟩ := Prod.mk.inj (Option.some.inj hs)
    obtain ⟨hcoherent, hheld, hcontrol⟩ := h.maybeStartM3
    exact ⟨hcoherent, ⟨_, runControl .maybeStartM3 (Prod.ext hcontrol rfl)⟩, hheld⟩
  | pipeline action =>
    unfold Endpoint.step at hs
    dsimp only at hs
    split at hs
    · next hown =>
      obtain ⟨s, hpipeline, hs⟩ := Option.bind_eq_some_iff.mp hs
      obtain ⟨⟨s', evs⟩, hstep, heq⟩ := Option.map_eq_some_iff.mp hs
      obtain ⟨rfl, rfl⟩ := Prod.mk.inj heq
      exact stepOf_own h hpipeline (own_of_step hown hstep)
    · cases hs

/-! ### Every run -/

/-- The action is not a transaction of another user than the system. -/
def Endpoint.Action.isTrusted {P : Type} : Endpoint.Action P → Bool
  | .onTransact uid _ _ _ _ => uid = AID_SYSTEM
  | _ => true

/-- A foreign transaction leaves everything as it is. -/
theorem step_foreign {a : Endpoint.Action api.Parcel} (ha : a.isTrusted = false)
    {calls : List SleepImageBinder.Call} (hs : x.step api c memory a = some (x', calls)) :
    x' = x ∧ calls = [] := by
  cases a with
  | onTransact uid code data reply now =>
    have huid : uid ≠ AID_SYSTEM := of_decide_eq_false ha
    obtain ⟨rfl, rfl⟩ := Prod.mk.inj (Option.some.inj hs)
    rw [onTransact_foreign huid]
    refine ⟨?_, rfl⟩
    obtain ⟨session, registered⟩ := x
    cases registered <;> rfl
  | registerSleepImageCaptureSession => cases ha
  | unregisterSleepImageCaptureSession => cases ha
  | maybeStartM3 => cases ha
  | pipeline => cases ha

/-- A published request was read from some parcel. -/
theorem read_of_published {a : Endpoint.Action api.Parcel} {calls : List SleepImageBinder.Call}
    (hs : x.step api c memory a = some (x', calls)) {result : EinkSleepImageCatalog.PublishResult}
    (hmem : .published r result ∈ calls) :
    ∃ data : api.Parcel, SleepImageBinder.readRequest api c.profile memory data = some r := by
  cases a with
  | onTransact uid code data reply now =>
    obtain ⟨rfl, rfl⟩ := Prod.mk.inj (Option.some.inj hs)
    have hanswered := onTransact_cases c memory uid code data reply now x.registered x.session
    rw [Option.mem_toList] at hmem
    rcases hanswered with ⟨-, -, -, hcalled⟩ | ⟨_, _, -, -, hcalled⟩ | ⟨_, -, -, hcalled⟩ |
      ⟨data', r', -, hread, -, hcalled⟩
    · cases hcalled.symm.trans hmem
    · cases hcalled.symm.trans hmem
    · cases hcalled.symm.trans hmem
    · obtain ⟨rfl, -⟩ := SleepImageBinder.Call.published.inj
        (Option.some.inj (hcalled.symm.trans hmem))
      exact ⟨data', hread⟩
  | registerSleepImageCaptureSession =>
    obtain ⟨-, rfl⟩ := Prod.mk.inj (Option.some.inj hs)
    cases hmem
  | unregisterSleepImageCaptureSession =>
    obtain ⟨-, rfl⟩ := Prod.mk.inj (Option.some.inj hs)
    cases hmem
  | maybeStartM3 =>
    obtain ⟨-, rfl⟩ := Prod.mk.inj (Option.some.inj hs)
    cases hmem
  | pipeline action =>
    unfold Endpoint.step at hs
    dsimp only at hs
    split at hs
    · obtain ⟨s, -, hs⟩ := Option.bind_eq_some_iff.mp hs
      obtain ⟨⟨s', evs⟩, -, heq⟩ := Option.map_eq_some_iff.mp hs
      obtain ⟨-, rfl⟩ := Prod.mk.inj heq
      cases hmem
    · cases hs

/-- What is true after every run of the endpoint. -/
structure Ran (api : Parcels D) (c : Settings) (memory : SharedMemory D)
    (as : List (Endpoint.Action api.Parcel)) (log : List SleepImageBinder.Call) (x : Endpoint) :
    Prop where
  coherent : Coherent c x.session
  runs : ∃ bs, Native.system.Run System.anyAction {} bs
    (log.map SleepImageBinder.Call.control) (control x.session)
  holds : held x.session = (log.filterMap acceptedCatalog).getLast?
  trusted : (Endpoint.system api c memory).Run System.anyAction {}
    (as.filter Endpoint.Action.isTrusted) log x
  read : ∀ r result, .published r result ∈ log →
    ∃ data : api.Parcel, SleepImageBinder.readRequest api c.profile memory data = some r

theorem ran_of_run {as : List (Endpoint.Action api.Parcel)} {log : List SleepImageBinder.Call}
    (h : (Endpoint.system api c memory).Run System.anyAction {} as log x) :
    Ran api c memory as log x := by
  refine h.induct (fun as log x => Ran api c memory as log x) ?_ ?_
  · exact ⟨coherent_init c, ⟨[], .nil⟩, rfl, .nil, fun _ _ hmem => nomatch hmem⟩
  · intro as log t a u calls ih _ hs
    obtain ⟨bs, hbs⟩ := ih.runs
    obtain ⟨hcoherent, ⟨bs', hbs'⟩, hheld⟩ := stepOf_step ih.coherent hs
    refine ⟨hcoherent, ⟨bs ++ bs', ?_⟩, ?_, ?_, ?_⟩
    · rw [List.map_append]
      exact hbs.trans hbs'
    · rw [hheld, ih.holds, List.filterMap_append, List.getLast?_append]
    · cases ha : a.isTrusted with
      | true =>
        rw [List.filter_append, List.filter_singleton, ha, cond_true]
        exact ih.trusted.snoc trivial hs
      | false =>
        obtain ⟨rfl, rfl⟩ := step_foreign ha hs
        rw [List.filter_append, List.filter_singleton, ha, cond_false, List.append_nil,
          List.append_nil]
        exact ih.trusted
    · intro r result hmem
      rcases List.mem_append.mp hmem with hmem | hmem
      · exact ih.read r result hmem
      · exact read_of_published hs hmem

/-- Whatever is sent to the endpoint, the session goes through a run of the control plane, answer by
answer, and holds the catalog that was accepted last; foreign transactions make no difference; and a
color product's session is given no catalog that it has to refuse for its contents. -/
theorem endpoint_runs_control_plane (api : Parcels D) (c : Settings) (memory : SharedMemory D)
    {as : List (Endpoint.Action api.Parcel)} {log : List SleepImageBinder.Call} {x : Endpoint}
    (h : (Endpoint.system api c memory).Run System.anyAction {} as log x) :
    (∃ bs, Native.system.Run System.anyAction {} bs (log.map SleepImageBinder.Call.control)
      (control x.session)) ∧
      held x.session = (log.filterMap acceptedCatalog).getLast? ∧
      (Endpoint.system api c memory).Run System.anyAction {}
        (as.filter Endpoint.Action.isTrusted) log x ∧
      (c.profile ∈ deviceProfiles → c.profile.hasColorCfa = true →
        ∀ r result, .published r result ∈ log → r.valid c = true) := by
  have hran := ran_of_run h
  refine ⟨hran.runs, hran.holds, hran.trusted, fun hproduct hcolor r result hmem => ?_⟩
  obtain ⟨data, hread⟩ := hran.read r result hmem
  exact valid_of_readRequest hproduct hcolor hread

/-! ### A publication and a foreign caller -/

/-- Memory that is named by its contents. -/
def namedByContents : SharedMemory (List UInt8) where
  getSize := some List.length
  mmap fd expectedBytes := if fd.length = expectedBytes then some fd else none
  length_mmap h := by
    split at h
    · next hlength => exact Option.some.inj h ▸ hlength
    · cases h

theorem alphaChannel_replicate (n : Nat) (a : UInt8) :
    EinkSleepImageCatalog.alphaChannel (List.replicate (n * 4) a) = List.replicate n a := by
  induction n with
  | zero => rfl
  | succ n ih =>
    rw [Nat.succ_mul, List.replicate_succ (n := n), ← ih]
    rfl

/-- The geometry and the planes of an image of the color product. -/
def imageItems (plane alpha : List UInt8) : List (Item (List UInt8)) :=
  [.int32 auraCDeviceProfile.panelWidth, .int32 auraCDeviceProfile.panelHeight,
    .fileDescriptor plane, .fileDescriptor alpha]

/-- The planes are read as they were sent. -/
theorem readRequest_image {plane alpha : List UInt8}
    (hplane : plane.length = auraCDeviceProfile.panelBytes * 4)
    (halpha : alpha.length = auraCDeviceProfile.panelBytes)
    (hchannel : EinkSleepImageCatalog.alphaChannel plane = alpha) :
    ∃ entry, SleepImageBinder.readRequest (Parcels.ofItems (List UInt8)) auraCDeviceProfile
      namedByContents (.int64 7 :: .int32 1 :: .int32 0 :: .int32 1 :: imageItems plane alpha) =
        some ⟨7, auraCDeviceProfile.panelWidth, auraCDeviceProfile.panelHeight, [entry], 0,
          .opaqueImage⟩ := by
  obtain ⟨gray, hgray, -, -⟩ := EinkSleepImageCatalog.grayOfRgba_of_alphaChannel
    (hplane.trans (by rw [halpha])) hchannel
  have hread : ∀ (fd : List UInt8) (n : Nat) rest, fd.length = n →
      SleepImageBinder.readPlane (Parcels.ofItems (List UInt8)) namedByContents
        (.fileDescriptor fd :: rest) n = some (fd, rest) := by
    rintro fd n rest rfl
    simp [SleepImageBinder.readPlane, Parcels.ofItems, namedByContents]
  obtain ⟨entry, hentry⟩ : ∃ entry, EinkSleepImageCatalog.readEntry auraCDeviceProfile
      auraCDeviceProfile.panelWidth auraCDeviceProfile.panelHeight plane alpha = some entry := by
    unfold EinkSleepImageCatalog.readEntry
    rw [if_neg (by simp), if_pos (show auraCDeviceProfile.hasColorCfa = true from rfl),
      if_neg (by simp [hplane, halpha]), hgray]
    exact ⟨_, rfl⟩
  have hsent : SleepImageBinder.readEntry (Parcels.ofItems (List UInt8)) auraCDeviceProfile
      namedByContents (imageItems plane alpha) = some (entry, []) := by
    show (SleepImageBinder.readPlane (Parcels.ofItems (List UInt8)) _
      (.fileDescriptor plane :: [.fileDescriptor alpha]) _).bind _ = _
    rw [hread plane (SleepImageBinder.planeBytes auraCDeviceProfile) _ hplane]
    show (SleepImageBinder.readPlane (Parcels.ofItems (List UInt8)) _
      (.fileDescriptor alpha :: []) _).bind _ = _
    rw [hread alpha _ _ halpha]
    exact congrArg
      (Option.map fun e => (e, ([] : (Parcels.ofItems (List UInt8)).Parcel))) hentry
  refine ⟨entry, ?_⟩
  have hentries : SleepImageBinder.readEntries (Parcels.ofItems (List UInt8)) auraCDeviceProfile
      namedByContents (imageItems plane alpha) 1 = some [entry] := by
    show (SleepImageBinder.readEntry (Parcels.ofItems (List UInt8)) auraCDeviceProfile
      namedByContents (imageItems plane alpha)).bind _ = _
    rw [hsent]
    rfl
  show (SleepImageBinder.readEntries (Parcels.ofItems (List UInt8)) auraCDeviceProfile
    namedByContents (imageItems plane alpha) 1).map _ = _
  rw [hentries]
  rfl

/-- What a publication of the image under the epoch `7` reads after the version. -/
def publicationItems (plane alpha : List UInt8) : List (Item (List UInt8)) :=
  .int64 7 :: .int32 1 :: .int32 0 :: .int32 1 :: imageItems plane alpha

/-- The publication as it is sent. -/
def publish (uid : Nat) (plane alpha : List UInt8) : Endpoint.Action (List (Item (List UInt8))) :=
  .onTransact uid SleepImageBinder.kPublishCatalog
    (.interfaceToken SF_DESCRIPTOR :: .int32 SF_PROTOCOL_VERSION :: publicationItems plane alpha)
    true 0

/-- An application publishes an image; the panel wakes up without having slept. -/
def foreignPublication (plane alpha : List UInt8) :
    List (Endpoint.Action (List (Item (List UInt8)))) :=
  [.registerSleepImageCaptureSession, publish 10001 plane alpha, .maybeStartM3,
    .onTransact 1000 SleepImageBinder.kScreenOn (epochItems 7) true 0]

/-- The application is refused, there is no cycle to disarm, and the session holds what the system
publishes. -/
theorem endpoint_runs_control_plane_publication :
    ∃ (plane alpha : List UInt8) (r : SleepImageCatalogRequest) (x : Endpoint),
      (Endpoint.system (Parcels.ofItems (List UInt8)) auraSettings namedByContents).Run
        System.anyAction {} (foreignPublication plane alpha ++ [publish 1000 plane alpha])
        [.disarmed 7 .rejectedInactive, .published r .accepted] x ∧
      held x.session = some ⟨r.epoch, r.entries, r.selectedIndex, r.mode⟩ ∧
      r.valid auraSettings = true ∧
      ∃ bs, Native.system.Run System.anyAction {} bs
        [.disarmed 7 .rejectedInactive, .published r.epoch true] (control x.session) := by
  -- a white image
  have hplane : (List.replicate (auraCDeviceProfile.panelBytes * 4) (255 : UInt8)).length =
      auraCDeviceProfile.panelBytes * 4 := List.length_replicate
  have halpha : (List.replicate auraCDeviceProfile.panelBytes (255 : UInt8)).length =
      auraCDeviceProfile.panelBytes := List.length_replicate
  have hchannel := alphaChannel_replicate auraCDeviceProfile.panelBytes 255
  generalize List.replicate (auraCDeviceProfile.panelBytes * 4) (255 : UInt8) = plane
    at hplane hchannel
  generalize List.replicate auraCDeviceProfile.panelBytes (255 : UInt8) = alpha at halpha hchannel
  obtain ⟨entry, hread⟩ := readRequest_image hplane halpha hchannel
  generalize hr : (⟨7, auraCDeviceProfile.panelWidth, auraCDeviceProfile.panelHeight, [entry], 0,
    .opaqueImage⟩ : SleepImageCatalogRequest) = r at hread
  have hvalid : r.valid auraSettings = true :=
    valid_of_readRequest (by simp [deviceProfiles, auraSettings]) rfl hread
  -- up to the system's publication
  obtain ⟨x, hrun, hregistered, hfresh⟩ : ∃ x,
      (Endpoint.system (Parcels.ofItems (List UInt8)) auraSettings namedByContents).Run
        System.anyAction {} (foreignPublication plane alpha) [.disarmed 7 .rejectedInactive] x ∧
      x.registered = true ∧ x.session.sleepImageCatalogEpoch = 0 :=
    ⟨_, System.Run.of_exec rfl, rfl, rfl⟩
  obtain ⟨haccepted, -, -⟩ :=
    (ran_of_run hrun).coherent.publishSleepImageCatalog hvalid
  have hepoch : r.epoch = 7 := by rw [← hr]
  rw [hfresh, hepoch, if_neg (by decide)] at haccepted
  have hserved : SleepImageBinder.serve (Parcels.ofItems (List UInt8)) auraSettings namedByContents
      SleepImageBinder.kPublishCatalog (publicationItems plane alpha) 0 x.session =
        { status := .ok, reply := SleepImageBinder.replyItems auraCDeviceProfile 0
          session := some (x.session.publishSleepImageCatalog auraSettings r).2
          called := some (.published r .accepted) } := by
    have hrequest : SleepImageBinder.readRequest (Parcels.ofItems (List UInt8))
        auraSettings.profile namedByContents (publicationItems plane alpha) = some r := hread
    unfold SleepImageBinder.serve
    rw [if_neg (by decide), if_neg (by decide), hrequest]
    dsimp only
    rw [haccepted]
    rfl
  have hstep : (Endpoint.system (Parcels.ofItems (List UInt8)) auraSettings namedByContents).step
      x (publish 1000 plane alpha) =
        some (⟨(x.session.publishSleepImageCatalog auraSettings r).2, true⟩,
          [.published r .accepted]) := by
    have hanswer : SleepImageBinder.onTransact (Parcels.ofItems (List UInt8)) auraSettings
        namedByContents 1000 SleepImageBinder.kPublishCatalog (.interfaceToken SF_DESCRIPTOR ::
          .int32 SF_PROTOCOL_VERSION :: publicationItems plane alpha) true 0 (some x.session) =
        SleepImageBinder.serve (Parcels.ofItems (List UInt8)) auraSettings namedByContents
          SleepImageBinder.kPublishCatalog (publicationItems plane alpha) 0 x.session := by
      unfold SleepImageBinder.onTransact
      dsimp only
      rw [if_neg
        (by simp [Parcels.ofItems, AID_SYSTEM, SF_DESCRIPTOR, SleepImageBinder.kDescriptor]),
        if_neg (by simp [Parcels.ofItems, SF_PROTOCOL_VERSION, SleepImageBinder.kProtocolVersion,
          auraSettings, auraCDeviceProfile])]
      rfl
    unfold Endpoint.system publish Endpoint.step
    dsimp only
    rw [hregistered, if_pos rfl, hanswer, hserved]
    rfl
  have hrun := hrun.trans (.single trivial hstep)
  obtain ⟨hruns, hheld, -, hvalid⟩ := endpoint_runs_control_plane _ _ _ hrun
  have hcolor := hvalid (by simp [deviceProfiles, auraSettings]) rfl r .accepted (by simp)
  exact ⟨plane, alpha, r, _, hrun, hheld, hcolor, hruns⟩

end SleepImageTransport

end EinkLab
