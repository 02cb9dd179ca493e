import EinkLab.PresentationAdapter.Equiv.Conservation
import EinkLab.PresentationAdapter.Equiv.Steps

/-!
# The diagnostic requests in the adapter

* `request_carriage`: no request is on two frames, none is on a sleep frame, and a pending request
  stays in the slot, on the newest frame, until it is taken with that frame or ended.

`SlotMove` says, for each step, what happens to the slot and to the frame in flight, requests
included.  Two invariants follow from it step by step: a request is on no more frames than the
producers have attached it to (`Sourced`), and no frame of a lifecycle sleep image has one
(`offSleep_of_run`).  `Followed` is what a run makes of one pending request.
-/

namespace EinkLab.PresentationAdapter

open Transition

variable {a a' : PresentationAdapter}

/-! ### What a step does to the slot -/

inductive SlotMove (a a' : PresentationAdapter) : Action → List Event → Prop
  | idle (act : Action) (hp : a'.pending = a.pending)
      (hw : a'.worker.inFlight = a.worker.inFlight) : SlotMove a a' act []
  | entered (f : Frame) (hp : a'.pending = some ((a.pending.map (followPending f)).getD f))
      (hw : a'.worker.inFlight = a.worker.inFlight) :
      SlotMove a a' (.enqueue f) (a.leave .replaced ++ [.accepted f])
  | cleared (f : Frame) (hf : a.pending = some f) (hp : a'.pending = some f.clearDiagnostic)
      (hw : a'.worker.inFlight = a.worker.inFlight) :
      SlotMove a a' .cancelPendingDiagnosticRefresh []
  | cancelled (f : Frame) (hf : a.pending = some f) (hne : f.sleepImageEpoch ≠ 0)
      (hp : a'.pending = none) (hw : a'.worker.inFlight = a.worker.inFlight) :
      SlotMove a a' (.cancelPendingSleepImage f.sleepImageEpoch) (a.leave .cancelled)
  | stopped (hp : a'.pending = none) (hw : a'.worker.inFlight = a.worker.inFlight) :
      SlotMove a a' .stop (.stopBegun :: a.leave .discarded)
  | taken (interval : Duration) (now : TimePoint) (f : Frame) (hf : a.pending = some f)
      (hp : a'.pending = none) (hidle : a.worker.inFlight = none)
      (hw : a'.worker.inFlight = some f) : SlotMove a a' (.wake interval now) (a.leave .taken)
  | submitted (f : Frame) (ok : Bool) (hp : a'.pending = a.pending)
      (hf : a.worker.inFlight = some f) (hw : a'.worker.inFlight = none) :
      SlotMove a a' .record [.submitted f ok]

theorem slotMove_wake {interval : Duration} {now : TimePoint} {evs : List Event}
    (h : a.step (.wake interval now) = some (a', evs)) :
    SlotMove a a' (.wake interval now) evs := by
  obtain ⟨hb, rfl⟩ := System.eq_of_map h
  obtain ⟨hw, hcases⟩ := wake_cases hb
  have hidle : a.worker.inFlight = none := by rw [hw]; rfl
  rcases hcases with ⟨-, rfl⟩ | ⟨-, -, rfl⟩ | ⟨f, hf, -, -, -, rfl⟩
  · exact .idle _ rfl (by rw [hidle]; rfl)
  · exact .idle _ rfl (by rw [hidle]; rfl)
  · exact .taken interval now f hf rfl hidle rfl

theorem slotMove_of_step {act : Action} {evs : List Event} (hthread : Threaded a)
    (h : a.step act = some (a', evs)) : SlotMove a a' act evs := by
  cases act with
  | start =>
    obtain ⟨rfl, rfl⟩ := Prod.mk.inj (Option.some.inj h)
    rcases start_cases a with heq | ⟨hs, heq⟩ <;> rw [heq]
    · exact .idle _ rfl rfl
    · have hw : a.worker = .absent := by_contra fun hw => by simp [hthread hw] at hs
      exact .idle _ rfl (by rw [hw]; rfl)
  | stop =>
    obtain ⟨rfl, rfl⟩ := Prod.mk.inj (Option.some.inj h)
    rcases stop_cases a with ⟨heq, hs⟩ | ⟨hs, hlive, heq⟩ <;> rw [heq]
    · rw [if_pos (by simpa using hs)]
      exact .idle _ rfl rfl
    · rw [if_neg (by simp [hs, hlive])]
      exact .stopped rfl rfl
  | enqueue f =>
    obtain ⟨rfl, rfl⟩ := Prod.mk.inj (Option.some.inj h)
    cases hacc : a.accepts f with
    | false =>
      rw [enqueue_of_not_accepts hacc]
      exact .idle _ rfl rfl
    | true =>
      rw [enqueue_of_accepts hacc]
      exact .entered f rfl rfl
  | cancelPendingSleepImage e =>
    obtain ⟨rfl, rfl⟩ := Prod.mk.inj (Option.some.inj h)
    rcases cancelPendingSleepImage_cases a e with heq | ⟨f, hf, rfl, hne, heq⟩ <;> rw [heq]
    · exact .idle _ rfl rfl
    · exact .cancelled f hf hne rfl rfl
  | cancelPendingDiagnosticRefresh =>
    obtain ⟨rfl, rfl⟩ := Prod.mk.inj (Option.some.inj h)
    rcases cancelPendingDiagnosticRefresh_cases a with heq | ⟨f, hf, -, heq⟩ <;> rw [heq]
    · exact .idle _ rfl rfl
    · exact .cleared f hf rfl rfl
  | wake interval now => exact slotMove_wake h
  | rewake now =>
    obtain ⟨hb, rfl⟩ := System.eq_of_map h
    obtain ⟨t, hw, rfl | ⟨-, -, rfl⟩⟩ := rewake_cases hb
    · exact .idle _ rfl (by rw [hw]; rfl)
    · exact .idle _ rfl (by rw [hw]; rfl)
  | submitStart now =>
    obtain ⟨hb, rfl⟩ := System.eq_of_map h
    obtain ⟨f, trailing, hw, -, rfl⟩ := submitStart_cases hb
    exact .idle _ rfl (by rw [hw]; rfl)
  | submitReturn ok now =>
    obtain ⟨hb, rfl⟩ := System.eq_of_map h
    obtain ⟨f, trailing, start, hw, -, rfl⟩ := submitReturn_cases hb
    exact .idle _ rfl (by rw [hw]; rfl)
  | record =>
    obtain ⟨hb, rfl⟩ := System.eq_of_map h
    obtain ⟨f, trailing, ok, start, finish, hw, rfl⟩ := record_cases hb
    have hevs : a.submission = [.submitted f ok] := by
      unfold submission
      rw [hw]
    rw [hevs]
    exact .submitted f ok rfl (by rw [hw]; rfl) rfl
  | observe =>
    obtain ⟨hb, rfl⟩ := System.eq_of_map h
    obtain ⟨f, ok, d, hw, rfl⟩ := observe_cases hb
    exact .idle _ rfl (by rw [hw]; rfl)

/-! ### A request is on no more frames than it was attached to -/

/-- How many of the frames carry the request `r`. -/
def carriedBy (r : Nat) (fs : List Frame) : Nat := fs.countP fun f => f.diagnosticRequest = r

@[simp] theorem carriedBy_append (r : Nat) (fs gs : List Frame) :
    carriedBy r (fs ++ gs) = carriedBy r fs + carriedBy r gs := List.countP_append

@[simp] theorem carriedBy_nil (r : Nat) : carriedBy r [] = 0 := rfl

theorem carriedBy_clearDiagnostic {r : Nat} (hr : r ≠ 0) (f : Frame) :
    carriedBy r [f.clearDiagnostic] = 0 := by
  simp [carriedBy, Frame.clearDiagnostic, hr.symm]

theorem carriedBy_le_one {fs : List Frame} {r : Nat}
    (h : ((fs.map (·.diagnosticRequest)).filter (· ≠ 0)).Nodup) (hr : r ≠ 0) :
    carriedBy r fs ≤ 1 := by
  have hcount := List.nodup_iff_count.mp h r
  rw [List.count_filter (by simpa using hr), List.count, List.countP_map] at hcount
  exact hcount

/-- A replacement puts a request on one frame in place of another. -/
theorem carriedBy_followPending (r : Nat) (f old : Frame) :
    carriedBy r [followPending f old] ≤ carriedBy r [old] + carriedBy r [f] := by
  have hfollow : (followPending f old).diagnosticRequest = old.diagnosticRequest ∨
      followPending f old = f := by
    unfold followPending
    split
    · exact Or.inl rfl
    · exact Or.inr rfl
  rcases hfollow with hreq | hsame
  · have hold : carriedBy r [followPending f old] = carriedBy r [old] := by simp [carriedBy, hreq]
    omega
  · rw [hsame]
    omega

/-- The frames that the worker has, or has had, or may yet take. -/
def carriers (log : List Event) (a : PresentationAdapter) : List Frame :=
  submittedFrames log ++ a.worker.inFlight.toList ++ a.pending.toList

def Sourced (log : List Event) (a : PresentationAdapter) : Prop :=
  ∀ r, r ≠ 0 → carriedBy r (carriers log a) ≤ carriedBy r (acceptedFrames log)

theorem leave_accepted (a : PresentationAdapter) (exit : Exit) :
    acceptedFrames (a.leave exit) = [] ∧ submittedFrames (a.leave exit) = [] := by
  cases hp : a.pending with
  | none => simp [leave, hp, acceptedFrames, submittedFrames]
  | some f => simp [leave, hp, acceptedFrames, submittedFrames]

theorem Sourced.step {log evs : List Event} {act : Action} (h : Sourced log a)
    (hmove : SlotMove a a' act evs) : Sourced (log ++ evs) a' := by
  intro r hr
  have hcarried := h r hr
  unfold carriers at hcarried ⊢
  simp only [carriedBy_append] at hcarried
  rw [submittedFrames_append, acceptedFrames_append]
  simp only [carriedBy_append]
  cases hmove with
  | idle act hp hw =>
    rw [hp, hw]
    simpa [acceptedFrames, submittedFrames] using hcarried
  | entered f hp hw =>
    rw [hp, hw, acceptedFrames_append, submittedFrames_append, (leave_accepted a _).1,
      (leave_accepted a _).2]
    -- the new frame may carry the request of the one it replaces, which is gone then
    have hslot : carriedBy r (some ((a.pending.map (followPending f)).getD f)).toList ≤
        carriedBy r a.pending.toList + carriedBy r [f] := by
      cases a.pending with
      | none => simp
      | some old => exact carriedBy_followPending r f old
    have hacc : acceptedFrames [Event.accepted f] = [f] := rfl
    have hsub : submittedFrames [Event.accepted f] = [] := rfl
    rw [hacc, hsub]
    simp only [List.nil_append, carriedBy_nil]
    omega
  | cleared f hf hp hw =>
    rw [hp, hw]
    have hnone := carriedBy_clearDiagnostic hr f
    simp only [acceptedFrames, submittedFrames, List.filterMap_nil, carriedBy_nil,
      Option.toList_some] at hcarried hnone ⊢
    omega
  | cancelled f hf hne hp hw =>
    rw [hp, hw, (leave_accepted a _).1, (leave_accepted a _).2]
    simp only [Option.toList_none, carriedBy_nil]
    omega
  | stopped hp hw =>
    rw [hp, hw, ← List.singleton_append, acceptedFrames_append, submittedFrames_append,
      (leave_accepted a _).1, (leave_accepted a _).2]
    simp only [Option.toList_none, carriedBy_nil, List.append_nil]
    simp only [acceptedFrames, submittedFrames, List.filterMap_cons, List.filterMap_nil,
      carriedBy_nil] at hcarried ⊢
    omega
  | taken interval now f hf hp hidle hw =>
    rw [hp, hw, (leave_accepted a _).1, (leave_accepted a _).2]
    rw [hidle, hf] at hcarried
    simp only [Option.toList_none, Option.toList_some, carriedBy_nil] at hcarried ⊢
    omega
  | submitted f ok hp hf hw =>
    rw [hp, hw]
    rw [hf] at hcarried
    have hsub : submittedFrames [Event.submitted f ok] = [f] := rfl
    have hacc : acceptedFrames [Event.submitted f ok] = [] := rfl
    rw [hsub, hacc]
    simp only [Option.toList_none, Option.toList_some, carriedBy_nil] at hcarried ⊢
    omega

theorem sourced_of_run {as : List Action} {log : List Event}
    (h : system.Run System.anyAction {} as log a) : Sourced log a ∧ Threaded a := by
  refine h.induct (fun _ log a => Sourced log a ∧ Threaded a) ⟨?_, by simp [Threaded]⟩ ?_
  · intro r _
    exact Nat.le_refl _
  · rintro as log t act u evs ⟨hsourced, hthread⟩ - hs
    exact ⟨hsourced.step (slotMove_of_step hthread hs), threaded_step hthread hs⟩

/-! ### No request on a sleep frame -/

/-- A frame of a lifecycle sleep image carries no request. -/
def OffSleep (f : Frame) : Prop := f.sleepImageEpoch ≠ 0 → f.diagnosticRequest = 0

theorem OffSleep.followPending {f old : Frame} (hf : OffSleep f) :
    OffSleep (followPending f old) := by
  unfold PresentationAdapter.followPending
  split
  · next hplain =>
    intro hsleep
    exact absurd hplain.1 hsleep
  · exact hf

theorem offSleep_step {log evs : List Event} {act : Action} (hmove : SlotMove a a' act evs)
    (haccepted : ∀ f ∈ acceptedFrames evs, OffSleep f) (h : ∀ f ∈ carriers log a, OffSleep f) :
    ∀ f ∈ carriers (log ++ evs) a', OffSleep f := by
  intro g hg
  unfold carriers at h hg
  rw [submittedFrames_append] at hg
  simp only [List.mem_append, Option.mem_toList, or_assoc] at h hg
  cases hmove with
  | idle act hp hw =>
    rw [hp, hw] at hg
    rcases hg with hold | hnew | hrest
    · exact h g (Or.inl hold)
    · cases hnew
    · exact h g (Or.inr hrest)
  | entered f hp hw =>
    rw [hp, hw, submittedFrames_append, (leave_accepted a _).2] at hg
    rcases hg with hold | hnew | hflight | hslot
    · exact h g (Or.inl hold)
    · cases hnew
    · exact h g (Or.inr (Or.inl hflight))
    · -- the frame in the slot is the accepted one, perhaps with the request of the old one
      have hf : OffSleep f := haccepted f (by simp [acceptedFrames])
      obtain rfl := Option.some.inj hslot
      cases a.pending with
      | none => exact hf
      | some old => exact hf.followPending
  | cleared f hf hp hw =>
    rw [hp, hw] at hg
    rcases hg with hold | hnew | hflight | hslot
    · exact h g (Or.inl hold)
    · cases hnew
    · exact h g (Or.inr (Or.inl hflight))
    · obtain rfl := Option.some.inj hslot
      exact fun _ => rfl
  | cancelled f hf hne hp hw =>
    rw [hp, hw, (leave_accepted a _).2] at hg
    rcases hg with hold | hnew | hflight | hslot
    · exact h g (Or.inl hold)
    · cases hnew
    · exact h g (Or.inr (Or.inl hflight))
    · cases hslot
  | stopped hp hw =>
    have hsub : submittedFrames (.stopBegun :: a.leave .discarded) = [] := (leave_accepted a _).2
    rw [hp, hw, hsub] at hg
    rcases hg with hold | hnew | hflight | hslot
    · exact h g (Or.inl hold)
    · cases hnew
    · exact h g (Or.inr (Or.inl hflight))
    · cases hslot
  | taken interval now f hf hp hidle hw =>
    rw [hp, hw, (leave_accepted a _).2] at hg
    rcases hg with hold | hnew | hflight | hslot
    · exact h g (Or.inl hold)
    · cases hnew
    · exact h g (Or.inr (Or.inr (hf.trans hflight)))
    · cases hslot
  | submitted f ok hp hf hw =>
    have hsub : submittedFrames [Event.submitted f ok] = [f] := rfl
    rw [hp, hw, hsub] at hg
    rcases hg with hold | hnew | hflight | hslot
    · exact h g (Or.inl hold)
    · obtain rfl := List.mem_singleton.mp hnew
      exact h g (Or.inr (Or.inl hf))
    · cases hflight
    · exact h g (Or.inr (Or.inr hslot))

theorem offSleep_of_run {as : List Action} {log : List Event}
    (h : system.Run System.anyAction {} as log a) (hsleep : ∀ f ∈ acceptedFrames log, OffSleep f) :
    ∀ f ∈ carriers log a, OffSleep f := by
  induction h with
  | nil =>
    intro f hf
    cases hf
  | @snoc as log t act u evs hrun _ hs ih =>
    rw [acceptedFrames_append] at hsleep
    have hthread := (sourced_of_run hrun).2
    refine offSleep_step (slotMove_of_step hthread hs) ?_ ?_
    · exact fun f hf => hsleep f (List.mem_append_right _ hf)
    · exact ih fun f hf => hsleep f (List.mem_append_left _ hf)

/-! ### A pending request, from the slot to the worker -/

/-- Something ended the pending request: a sleep frame or a frame with its own request came in, the
request was cancelled, or the adapter stopped. -/
def Ended (bs : List Action) (log : List Event) : Prop :=
  (∃ f, .accepted f ∈ log ∧ (f.sleepImageEpoch ≠ 0 ∨ f.diagnosticRequest ≠ 0)) ∨
    .cancelPendingDiagnosticRefresh ∈ bs ∨ .stopBegun ∈ log

/-- `g` is the frame in the slot, with the request of `old`. -/
structure Follows (old : Frame) (log : List Event) (g : Frame) : Prop where
  request : g.diagnosticRequest = old.diagnosticRequest
  refresh : g.diagnosticRefresh = old.diagnosticRefresh
  ordinary : g.IsOrdinary
  newest : ((old :: acceptedFrames log).map Frame.clearDiagnostic).getLast? = some g.clearDiagnostic

/-- What a run has made of the request of the frame `old`, which was pending at its start: the
newest frame in the slot has it, the worker took it, or it was ended. -/
def Followed (old : Frame) (bs : List Action) (log : List Event) (a : PresentationAdapter) : Prop :=
  (∃ g, a.pending = some g ∧ Follows old log g) ∨
  (∃ g, .left g .taken ∈ log ∧ g.diagnosticRequest = old.diagnosticRequest ∧
    g.diagnosticRefresh = old.diagnosticRefresh ∧ g.IsOrdinary) ∨
  Ended bs log

theorem Follows.of_quiet {old g : Frame} {log evs : List Event} (h : Follows old log g)
    (hevs : acceptedFrames evs = []) : Follows old (log ++ evs) g := by
  refine ⟨h.request, h.refresh, h.ordinary, ?_⟩
  rw [acceptedFrames_append, hevs, List.append_nil]
  exact h.newest

theorem Follows.follow {old g f : Frame} {log : List Event} (h : Follows old log g)
    (hord : f.sleepImageEpoch = 0) (hplain : f.diagnosticRequest = 0) (exit : Exit) :
    Follows old (log ++ (a.leave exit ++ [.accepted f])) (followPending f g) := by
  have heq : followPending f g = f.withDiagnosticOf g := if_pos ⟨hord, hplain⟩
  rw [heq]
  refine ⟨h.request, h.refresh, hord, ?_⟩
  rw [acceptedFrames_append, acceptedFrames_append, (leave_accepted a exit).1, List.nil_append]
  have hacc : acceptedFrames [Event.accepted f] = [f] := rfl
  rw [hacc, ← List.cons_append, List.map_append, List.map_singleton, List.getLast?_concat,
    Frame.clearDiagnostic_withDiagnosticOf]

theorem Followed.step {old : Frame} {bs : List Action} {log evs : List Event} {act : Action}
    (h : Followed old bs log a) (hmove : SlotMove a a' act evs) :
    Followed old (bs ++ [act]) (log ++ evs) a' := by
  rcases h with ⟨g, hg, hfol⟩ | ⟨g, hmem, hrest⟩ | hend
  · cases hmove with
    | idle act hp hw => exact Or.inl ⟨g, hp.trans hg, hfol.of_quiet rfl⟩
    | entered f hp hw =>
      by_cases hplain : f.sleepImageEpoch = 0 ∧ f.diagnosticRequest = 0
      · rw [hg] at hp
        exact Or.inl ⟨_, hp, hfol.follow hplain.1 hplain.2 _⟩
      · refine Or.inr (Or.inr (Or.inl ⟨f, by simp, ?_⟩))
        by_contra hnot
        obtain ⟨hord, hnone⟩ := not_or.mp hnot
        exact hplain ⟨not_not.mp hord, not_not.mp hnone⟩
    | cleared f hf hp hw => exact Or.inr (Or.inr (Or.inr (Or.inl (by simp))))
    | cancelled f hf hne hp hw =>
      -- only a sleep frame is cancelled this way, and a sleep frame carries no request
      obtain rfl := Option.some.inj (hf.symm.trans hg)
      exact absurd hfol.ordinary hne
    | stopped hp hw => exact Or.inr (Or.inr (Or.inr (Or.inr (by simp))))
    | taken interval now f hf hp hidle hw =>
      obtain rfl := Option.some.inj (hf.symm.trans hg)
      refine Or.inr (Or.inl ⟨f, ?_, hfol.request, hfol.refresh, hfol.ordinary⟩)
      rw [leave_some hf]
      simp
    | submitted f ok hp hf hw => exact Or.inl ⟨g, hp.trans hg, hfol.of_quiet rfl⟩
  · exact Or.inr (Or.inl ⟨g, List.mem_append_left _ hmem, hrest⟩)
  · refine Or.inr (Or.inr ?_)
    rcases hend with ⟨f, hmem, hf⟩ | hmem | hmem
    · exact Or.inl ⟨f, List.mem_append_left _ hmem, hf⟩
    · exact Or.inr (Or.inl (List.mem_append_left _ hmem))
    · exact Or.inr (Or.inr (List.mem_append_left _ hmem))

theorem followed_of_run {old : Frame} {bs : List Action} {log : List Event}
    (h : system.Run System.anyAction a bs log a') (hthread : Threaded a)
    (hold : a.pending = some old) (hord : old.IsOrdinary) : Followed old bs log a' := by
  have hinit : Follows old [] old := ⟨rfl, rfl, hord, rfl⟩
  refine (h.induct (fun bs log a => Followed old bs log a ∧ Threaded a)
    ⟨Or.inl ⟨old, hold, hinit⟩, hthread⟩ ?_).1
  rintro bs log t act u evs ⟨hfol, hthread⟩ - hs
  exact ⟨hfol.step (slotMove_of_step hthread hs), threaded_step hthread hs⟩

/-- The requests of a run in which the producers attach each request to at most one frame, and none
to a sleep frame. -/
theorem request_carriage {as : List Action} {log : List Event}
    (h : system.Run System.anyAction {} as log a)
    (honce : ∀ r, r ≠ 0 → carriedBy r (acceptedFrames log) ≤ 1)
    (hsleep : ∀ f ∈ acceptedFrames log, f.sleepImageEpoch ≠ 0 → f.diagnosticRequest = 0) :
    (∀ r, r ≠ 0 → carriedBy r (submittedFrames log ++ a.worker.inFlight.toList ++
      a.pending.toList) ≤ 1) ∧
    (∀ f ∈ submittedFrames log ++ a.worker.inFlight.toList ++ a.pending.toList,
      f.sleepImageEpoch ≠ 0 → f.diagnosticRequest = 0) ∧
    leftBy .taken log = submittedFrames log ++ a.worker.inFlight.toList ∧
    (∀ old, a.pending = some old → old.diagnosticRequest ≠ 0 → ∀ bs log' a',
      system.Run System.anyAction a bs log' a' → Followed old bs log' a') := by
  obtain ⟨hsourced, hthread⟩ := sourced_of_run h
  have hoff := offSleep_of_run h hsleep
  refine ⟨fun r hr => Nat.le_trans (hsourced r hr) (honce r hr),
    hoff, (conserved_of_run h).serial, ?_⟩
  intro old hold hreq bs log' a' hrun
  have hord : old.IsOrdinary := by
    by_contra hne
    exact hreq (hoff old (by simp [carriers, hold]) hne)
  exact followed_of_run hrun hthread hold hord

/-- The request 7 goes from frame to frame while the worker is busy, and a sleep frame ends the
request 8. -/
def requestRun : List Action :=
  let frame (n epoch request : Nat) : Frame :=
    { sequence := n, sleepImageEpoch := epoch, composeBuffer := some .portable,
      dirtyRect := Rect.full 2 2, diagnosticRequest := request }
  [.start, .enqueue (frame 20 0 0), .wake 0 1, .enqueue (frame 21 0 7), .enqueue (frame 22 0 0),
    .enqueue (frame 23 0 0), .submitStart 2, .submitReturn true 3, .record, .observe, .wake 0 4,
    .submitStart 5, .submitReturn false 6, .record, .observe, .enqueue (frame 24 0 8),
    .enqueue (frame 25 1 0)]

theorem request_carriage_of_requestRun :
    ∃ a log, system.Run System.anyAction {} requestRun log a ∧
      (submittedFrames log).map (·.diagnosticRequest) = [0, 7] ∧
      (submittedFrames log).map (·.sequence) = [20, 23] ∧
      a.pending.map (·.diagnosticRequest) = some 0 ∧
      ∀ r, r ≠ 0 → carriedBy r (submittedFrames log ++ a.worker.inFlight.toList ++
        a.pending.toList) ≤ 1 := by
  have hrun := (System.Run.of_exec rfl : system.Run System.anyAction {} requestRun _ _)
  refine ⟨_, _, hrun, rfl, rfl, rfl, (request_carriage hrun (fun r hr => ?_) (by decide)).1⟩
  exact carriedBy_le_one (by decide) hr

end EinkLab.PresentationAdapter
