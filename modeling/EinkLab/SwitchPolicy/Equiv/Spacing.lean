import EinkLab.SwitchPolicy.Basic

/-!
# Refreshes are spaced, due and wanted

The policy's deadline bounds both the time since the observation and the time since the last
refresh, so what a `take` returns is due (`Sound.armed`), and what `queued` reports is spaced
(`Sound.taken`).  `refresh_policy` is over every sequence of calls that keeps the discipline;
`service_run` says that the handlers of the service do.
-/

namespace EinkLab.SwitchPolicy

open Transition

variable {ownPackage : String} {delay cooldown : Int} {log : List Event} {w : Worker}
  {calls : List Call}

/-! ### What a log says -/

/-- The delay after an event. -/
def nextDelay (delay : Int) : Event → Int
  | .configured value _ => value
  | _ => delay

/-- The delay in force. -/
def delayAfter (delay : Int) (log : List Event) : Int := log.foldl nextDelay delay

/-- An event that leaves the pending package where it is. -/
def Quiet (package : String) : Event → Prop
  | .observed next _ armed => next = some package ∧ armed = false
  | .configured _ _ => True
  | .taken _ result => result = none
  | .reset | .queued _ => False

/-- When the delay was last started, after an event. -/
def nextSince (since : Int) : Event → Int
  | .configured _ now => now
  | _ => since

/-- The package was observed, and its delay runs since then or since it was last configured: no
other package was observed, and it was not taken. -/
def Armed (log : List Event) (package : String) (since : Int) : Prop :=
  ∃ pre now mid, log = pre ++ .observed (some package) now true :: mid ∧
    (∀ e ∈ mid, Quiet package e) ∧ since = mid.foldl nextSince now

/-- The argument of the last observation; `none` is no package. -/
def lastObserved (log : List Event) : Option String :=
  log.foldl (fun last e => match e with | .observed next _ _ => next | _ => last) none

/-- What is right about an event, given what was logged before it. -/
def Right (ownPackage : String) (delay cooldown : Int) (pre : List Event) : Event → Prop
  | .taken now (some package) =>
    (∃ since, Armed pre package since ∧ since + delayAfter delay pre ≤ now) ∧
      (∀ time, .queued time ∈ pre → time + cooldown ≤ now) ∧ ¬Excluded ownPackage package
  | .queued now => ∀ time, .queued time ∈ pre → time + cooldown ≤ now
  | _ => True

structure Sound (ownPackage : String) (delay cooldown : Int) (log : List Event) (w : Worker) :
    Prop where
  own : w.policy.ownPackage = ownPackage
  spacing : w.policy.cooldown = cooldown
  inForce : w.policy.delay = delayAfter delay log
  clock : 0 ≤ w.clock
  /-- No refresh was queued after the last one. -/
  queued : ∀ time, .queued time ∈ log →
    0 ≤ time ∧ time ≤ w.policy.lastQueued ∧ time ≤ w.clock
  pending : ∀ package, w.policy.pending = some package →
    w.policy.observed = some package ∧ ¬Excluded ownPackage package ∧ w.taken = none
  armed : ∀ package, w.policy.pending = some package → ∃ since, Armed log package since ∧
    since + w.policy.delay ≤ w.policy.due ∧ ∀ time, .queued time ∈ log →
    time + cooldown ≤ w.policy.due
  taken : ∀ now, w.taken = some now →
    0 ≤ now ∧ ∀ time, .queued time ∈ log → time ≤ now ∧ time + cooldown ≤ now
  events : EachEvent (Right ownPackage delay cooldown) log

theorem sound_start (ownPackage : String) (delay cooldown : Int) :
    Sound ownPackage delay cooldown [] (start ownPackage delay cooldown) where
  own := rfl
  spacing := rfl
  inForce := rfl
  clock := Int.le_refl 0
  queued := fun _ hmem => absurd hmem List.not_mem_nil
  pending := fun _ hno => nomatch hno
  armed := fun _ hno => nomatch hno
  taken := fun _ hno => nomatch hno
  events := eachEvent_nil _

/-! ### One more event -/

theorem delayAfter_snoc (delay : Int) (log : List Event) (e : Event) :
    delayAfter delay (log ++ [e]) = nextDelay (delayAfter delay log) e := by
  rw [delayAfter, List.foldl_append]
  rfl

/-- An event that is quiet about the pending package. -/
theorem Armed.append {package : String} {since : Int} {e : Event} (h : Armed log package since)
    (he : Quiet package e) :
    Armed (log ++ [e]) package (nextSince since e) := by
  obtain ⟨pre, now, mid, rfl, hmid, rfl⟩ := h
  refine ⟨pre, now, mid ++ [e], by simp, fun x hx => ?_, by rw [List.foldl_append]; rfl⟩
  rcases List.mem_append.mp hx with hx | hx
  · exact hmid x hx
  · rwa [List.mem_singleton.mp hx]

theorem queued_mem_append {time : Int} {e : Event} (he : ∀ time, e ≠ .queued time) :
    .queued time ∈ log ++ [e] ↔ .queued time ∈ log := by
  rw [List.mem_append, List.mem_singleton]
  exact or_iff_left (he time).symm

/-- A deadline is past the delay and past the cooldown. -/
theorem deadline_le {p : SwitchPolicy} {now due : Int} (h : p.deadline now = some due) :
    now + p.delay ≤ due ∧ (0 ≤ p.lastQueued → p.lastQueued + p.cooldown ≤ due) := by
  obtain ⟨byDelay, hdelay, h⟩ := Option.bind_eq_some_iff.mp h
  obtain ⟨byCooldown, hcooldown, rfl⟩ := Option.map_eq_some_iff.mp h
  obtain ⟨-, hdelay⟩ := Option.ite_none_right_eq_some.mp hdelay
  obtain rfl := Option.some.inj hdelay
  refine ⟨Int.le_max_left _ _, fun hqueued => ?_⟩
  rw [if_neg (Int.not_lt.mpr hqueued)] at hcooldown
  obtain ⟨-, hcooldown⟩ := Option.ite_none_right_eq_some.mp hcooldown
  obtain rfl := Option.some.inj hcooldown
  exact Int.le_max_right _ _

/-- All that a `take` can do: nothing, or it returns the pending package when its deadline has
come. -/
theorem take_cases (p : SwitchPolicy) (now : Int) :
    p.take now = (none, p) ∨ ∃ package, p.pending = some package ∧ p.due ≤ now ∧
      p.take now = (some package, { p with pending := none }) := by
  unfold take
  cases hpending : p.pending with
  | none => exact Or.inl (if_pos rfl)
  | some package =>
    by_cases hdue : now < p.due
    · exact Or.inl (if_pos (by simp [hdue]))
    · exact Or.inr ⟨package, rfl, Int.not_lt.mp hdue, if_neg (by simp [hdue])⟩

theorem Sound.queued_le (h : Sound ownPackage delay cooldown log w) {now time : Int}
    (hclock : w.clock ≤ now) (hmem : .queued time ∈ log) :
    0 ≤ time ∧ time ≤ w.policy.lastQueued ∧ time ≤ now := by
  obtain ⟨hnonneg, hlast, hle⟩ := h.queued time hmem
  exact ⟨hnonneg, hlast, Int.le_trans hle hclock⟩

/-- An event that neither configures nor queues. -/
def Event.Plain : Event → Prop
  | .configured _ _ | .queued _ => False
  | _ => True

theorem Event.Plain.ne_queued {e : Event} (he : e.Plain) (time : Int) : e ≠ .queued time := by
  rintro rfl
  exact he

theorem Event.Plain.nextDelay_eq {e : Event} (he : e.Plain) (delay : Int) :
    nextDelay delay e = delay := by
  cases e <;> first | rfl | exact absurd he id

theorem Event.Plain.nextSince_eq {e : Event} (he : e.Plain) (since : Int) :
    nextSince since e = since := by
  cases e <;> first | rfl | exact absurd he id

/-- A call that leaves nothing pending. -/
theorem Sound.clear (h : Sound ownPackage delay cooldown log w) {policy : SwitchPolicy} {now : Int}
    {e : Event} (hown : policy.ownPackage = w.policy.ownPackage)
    (hspacing : policy.cooldown = w.policy.cooldown) (hdelay : policy.delay = w.policy.delay)
    (hlast : policy.lastQueued = w.policy.lastQueued) (hnone : policy.pending = none)
    (hclock : w.clock ≤ now) (he : e.Plain) (hright : Right ownPackage delay cooldown log e) :
    Sound ownPackage delay cooldown (log ++ [e]) ⟨policy, now, none⟩ where
  own := hown.trans h.own
  spacing := hspacing.trans h.spacing
  inForce := by rw [delayAfter_snoc, he.nextDelay_eq, hdelay, h.inForce]
  clock := Int.le_trans h.clock hclock
  queued := by
    intro time hmem
    dsimp only
    rw [hlast]
    exact h.queued_le hclock ((queued_mem_append he.ne_queued).mp hmem)
  pending := fun _ hsome => nomatch hnone.symm.trans hsome
  armed := fun _ hsome => nomatch hnone.symm.trans hsome
  taken := fun _ hno => nomatch hno
  events := eachEvent_append_singleton.mpr ⟨h.events, hright⟩

/-- A call that is quiet about what is pending, and changes nothing. -/
theorem Sound.keep (h : Sound ownPackage delay cooldown log w) {now : Int} {e : Event}
    (hclock : w.clock ≤ now) (hquiet : ∀ package, w.policy.pending = some package → Quiet package e)
    (he : e.Plain) (hright : Right ownPackage delay cooldown log e) :
    Sound ownPackage delay cooldown (log ++ [e]) ⟨w.policy, now, none⟩ where
  own := h.own
  spacing := h.spacing
  inForce := by rw [delayAfter_snoc, he.nextDelay_eq, h.inForce]
  clock := Int.le_trans h.clock hclock
  queued := fun time hmem => h.queued_le hclock ((queued_mem_append he.ne_queued).mp hmem)
  pending := by
    intro package hpending
    obtain ⟨hobserved, hallowed, -⟩ := h.pending package hpending
    exact ⟨hobserved, hallowed, rfl⟩
  armed := by
    intro package hpending
    obtain ⟨since, harmed, hdelay, hspaced⟩ := h.armed package hpending
    have hsince := harmed.append (hquiet package hpending)
    rw [he.nextSince_eq] at hsince
    exact ⟨since, hsince, hdelay, fun time hmem =>
      hspaced time ((queued_mem_append he.ne_queued).mp hmem)⟩
  taken := fun _ hno => nomatch hno
  events := eachEvent_append_singleton.mpr ⟨h.events, hright⟩

/-- A pending package is past every refresh by the cooldown when its deadline comes. -/
theorem Sound.spaced (h : Sound ownPackage delay cooldown log w) {p : SwitchPolicy} {now due : Int}
    (hspacing : p.cooldown = w.policy.cooldown) (hlast : p.lastQueued = w.policy.lastQueued)
    (hdue : p.deadline now = some due) {time : Int} (hmem : .queued time ∈ log) :
    time + cooldown ≤ due := by
  obtain ⟨hnonneg, hle, -⟩ := h.queued time hmem
  have hcooldown := (deadline_le hdue).2 (by rw [hlast]; omega)
  rw [hspacing, h.spacing, hlast] at hcooldown
  omega

/-! ### The calls -/

theorem Sound.observe (h : Sound ownPackage delay cooldown log w) {next : Option String} {now : Int}
    {armed : Bool} {policy : SwitchPolicy} (hclock : w.clock ≤ now)
    (hobserve : w.policy.observe next now = some (armed, policy)) :
    Sound ownPackage delay cooldown (log ++ [.observed next now armed]) ⟨policy, now, none⟩ := by
  cases next with
  | none =>
    obtain ⟨rfl, rfl⟩ := Prod.mk.inj (Option.some.inj hobserve)
    exact h.clear rfl rfl rfl rfl rfl hclock trivial trivial
  | some next =>
    unfold SwitchPolicy.observe at hobserve
    dsimp only at hobserve
    split at hobserve
    · obtain ⟨rfl, rfl⟩ := Prod.mk.inj (Option.some.inj hobserve)
      exact h.clear rfl rfl rfl rfl rfl hclock trivial trivial
    split at hobserve
    · -- the package observed before: what is pending, if anything, is pending for it
      next hsame =>
      obtain ⟨rfl, rfl⟩ := Prod.mk.inj (Option.some.inj hobserve)
      refine h.keep hclock (fun package hpending => ?_) trivial trivial
      exact ⟨hsame.symm.trans (h.pending package hpending).1, rfl⟩
    split at hobserve
    · obtain ⟨rfl, rfl⟩ := Prod.mk.inj (Option.some.inj hobserve)
      exact h.clear rfl rfl rfl rfl rfl hclock trivial trivial
    · next hwanted =>
      obtain ⟨due, hdue, heq⟩ := Option.map_eq_some_iff.mp hobserve
      obtain ⟨rfl, rfl⟩ := Prod.mk.inj heq
      have hallowed : ¬Excluded w.policy.ownPackage next := fun hno => hwanted (Or.inr hno)
      rw [h.own] at hallowed
      have hdelay := (deadline_le hdue).1
      refine ⟨h.own, h.spacing, ?_, Int.le_trans h.clock hclock, ?_, ?_, ?_,
        (fun _ hno => nomatch hno), eachEvent_append_singleton.mpr ⟨h.events, trivial⟩⟩
      · rw [delayAfter_snoc]
        exact h.inForce
      · exact fun time hmem => h.queued_le hclock (by simpa using hmem)
      · rintro package hpending
        obtain rfl := Option.some.inj hpending
        exact ⟨rfl, hallowed, rfl⟩
      · rintro package hpending
        obtain rfl := Option.some.inj hpending
        refine ⟨now, ⟨log, now, [], rfl, fun _ hno => absurd hno List.not_mem_nil, rfl⟩, hdelay, ?_⟩
        exact fun time hmem => h.spaced rfl rfl hdue (by simpa using hmem)

theorem Sound.configure (h : Sound ownPackage delay cooldown log w) {value now : Int}
    {policy : SwitchPolicy} (hclock : w.clock ≤ now)
    (hconfigure : w.policy.configure value now = some policy) :
    Sound ownPackage delay cooldown (log ++ [.configured value now]) ⟨policy, now, none⟩ := by
  have hevents : EachEvent (Right ownPackage delay cooldown) (log ++ [.configured value now]) :=
    eachEvent_append_singleton.mpr ⟨h.events, trivial⟩
  have hforce : value = delayAfter delay (log ++ [.configured value now]) := by
    rw [delayAfter_snoc]
    rfl
  unfold SwitchPolicy.configure at hconfigure
  dsimp only at hconfigure
  split at hconfigure
  · -- a pending package gets a new deadline, and its delay starts again
    obtain ⟨due, hdue, rfl⟩ := Option.map_eq_some_iff.mp hconfigure
    refine ⟨h.own, h.spacing, hforce, Int.le_trans h.clock hclock, ?_, ?_, ?_,
      (fun _ hno => nomatch hno), hevents⟩
    · exact fun time hmem => h.queued_le hclock (by simpa using hmem)
    · intro package hpending
      obtain ⟨hobserved, hallowed, -⟩ := h.pending package hpending
      exact ⟨hobserved, hallowed, rfl⟩
    · intro package hpending
      obtain ⟨since, harmed, -, -⟩ := h.armed package hpending
      refine ⟨now, harmed.append trivial, (deadline_le hdue).1, ?_⟩
      exact fun time hmem =>
        h.spaced (p := { w.policy with delay := value }) rfl rfl hdue (by simpa using hmem)
  · next hnone =>
    obtain rfl := Option.some.inj hconfigure
    rw [Option.not_isSome_iff_eq_none] at hnone
    refine ⟨h.own, h.spacing, hforce, Int.le_trans h.clock hclock, ?_,
      (fun _ hsome => nomatch hnone.symm.trans hsome),
      (fun _ hsome => nomatch hnone.symm.trans hsome),
      (fun _ hno => nomatch hno), hevents⟩
    exact fun time hmem => h.queued_le hclock (by simpa using hmem)

theorem Sound.reset (h : Sound ownPackage delay cooldown log w) :
    Sound ownPackage delay cooldown (log ++ [.reset])
      { w with policy := w.policy.reset, taken := none } :=
  h.clear rfl rfl rfl rfl rfl (Int.le_refl _) trivial trivial

theorem Sound.take (h : Sound ownPackage delay cooldown log w) {now : Int}
    (hclock : w.clock ≤ now) :
    let result := w.policy.take now
    Sound ownPackage delay cooldown (log ++ [.taken now result.1])
      ⟨result.2, now, if result.1.isSome then some now else none⟩ := by
  rcases take_cases w.policy now with htake | ⟨package, hpending, hdue, htake⟩
  · rw [htake]
    exact h.keep hclock (fun _ _ => rfl) trivial trivial
  · obtain ⟨since, harmed, hdelay, hspaced⟩ := h.armed package hpending
    have hallowed := (h.pending package hpending).2.1
    rw [h.inForce] at hdelay
    rw [htake]
    refine ⟨h.own, h.spacing, ?_, Int.le_trans h.clock hclock, ?_, (fun _ hno => nomatch hno),
      (fun _ hno => nomatch hno), ?_, ?_⟩
    · rw [delayAfter_snoc]
      exact h.inForce
    · exact fun time hmem => h.queued_le hclock (by simpa using hmem)
    · intro time htaken
      obtain rfl := Option.some.inj htaken
      refine ⟨Int.le_trans h.clock hclock, fun time hmem => ?_⟩
      have hmem' : .queued time ∈ log := by simpa using hmem
      exact ⟨(h.queued_le hclock hmem').2.2, Int.le_trans (hspaced time hmem') hdue⟩
    · refine eachEvent_append_singleton.mpr ⟨h.events, ⟨since, harmed, by omega⟩, ?_, hallowed⟩
      exact fun time hmem => Int.le_trans (hspaced time hmem) hdue

theorem Sound.queue (h : Sound ownPackage delay cooldown log w) {now : Int}
    (htaken : w.taken = some now) :
    Sound ownPackage delay cooldown (log ++ [.queued now]) ⟨w.policy.queued now, now, none⟩ := by
  obtain ⟨hnonneg, hspaced⟩ := h.taken now htaken
  -- nothing can be pending, since no call came between the `take` and this one
  have hnone : w.policy.pending = none := by
    cases hpending : w.policy.pending with
    | none => rfl
    | some package => exact nomatch htaken.symm.trans (h.pending package hpending).2.2
  refine ⟨h.own, h.spacing, ?_, hnonneg, ?_, (fun _ hsome => nomatch hnone.symm.trans hsome),
    (fun _ hsome => nomatch hnone.symm.trans hsome), (fun _ hno => nomatch hno), ?_⟩
  · rw [delayAfter_snoc]
    exact h.inForce
  · intro time hmem
    rcases List.mem_append.mp hmem with hmem | hmem
    · exact ⟨(h.queued time hmem).1, (hspaced time hmem).1, (hspaced time hmem).1⟩
    · obtain rfl := Event.queued.inj (List.mem_singleton.mp hmem)
      exact ⟨hnonneg, Int.le_refl _, Int.le_refl _⟩
  · exact eachEvent_append_singleton.mpr ⟨h.events, fun time hmem => (hspaced time hmem).2⟩

/-! ### Every run -/

theorem sound_of_run (h : system.Run Keeps (start ownPackage delay cooldown) calls log w) :
    Sound ownPackage delay cooldown log w := by
  refine h.induct (fun _ log w => Sound ownPackage delay cooldown log w) (sound_start _ _ _) ?_
  intro calls log w call w' evs ih hkeeps hs
  cases call with
  | observe next now =>
    obtain ⟨⟨armed, policy⟩, hobserve, heq⟩ := Option.map_eq_some_iff.mp hs
    obtain ⟨rfl, rfl⟩ := Prod.mk.inj heq
    exact ih.observe hkeeps hobserve
  | configure value now =>
    obtain ⟨policy, hconfigure, heq⟩ := Option.map_eq_some_iff.mp hs
    obtain ⟨rfl, rfl⟩ := Prod.mk.inj heq
    exact ih.configure hkeeps hconfigure
  | reset =>
    obtain ⟨rfl, rfl⟩ := Prod.mk.inj (Option.some.inj hs)
    exact ih.reset
  | take now =>
    obtain ⟨rfl, rfl⟩ := Prod.mk.inj (Option.some.inj hs)
    exact ih.take hkeeps
  | queued now =>
    obtain ⟨rfl, rfl⟩ := Prod.mk.inj (Option.some.inj hs)
    exact ih.queue hkeeps

/-- The package of an armed deadline is the last one observed. -/
theorem Armed.lastObserved_eq {package : String} {since : Int} (h : Armed log package since) :
    lastObserved log = some package := by
  obtain ⟨pre, now, mid, rfl, hmid, -⟩ := h
  induction mid using List.reverseRecOn with
  | nil =>
    rw [lastObserved, List.foldl_append]
    rfl
  | append_singleton mid e ih =>
    have hquiet := hmid e (by simp)
    have hrest := ih fun x hx => hmid x (List.mem_append_left _ hx)
    rw [← List.cons_append, ← List.append_assoc, lastObserved, List.foldl_append]
    cases e with
    | observed next time armed => exact hquiet.1
    | configured value time => exact hrest
    | reset => exact absurd hquiet id
    | taken time result => exact hrest
    | queued time => exact absurd hquiet id

/-- A package was observed after the last one was taken. -/
theorem Armed.observed_of_taken {package package' : String} {since now : Int}
    {pre mid : List Event} (h : Armed (pre ++ .taken now (some package) :: mid) package' since) :
    ∃ time, .observed (some package') time true ∈ mid := by
  obtain ⟨pre', time, mid', hlog, hmid, -⟩ := h
  rcases List.append_eq_append_iff.mp hlog with ⟨rest, hpre, hcons⟩ | ⟨rest, hpre, hcons⟩
  · -- the observation comes after the `take`
    cases rest with
    | nil => cases (List.cons.inj hcons).1
    | cons e rest =>
      obtain ⟨-, rfl⟩ := List.cons.inj hcons
      exact ⟨time, by simp⟩
  · cases rest with
    | nil => cases (List.cons.inj hcons).1
    | cons e rest =>
      obtain ⟨-, rfl⟩ := List.cons.inj hcons
      exact nomatch hmid (.taken now (some package)) (by simp)

/-- **The refresh policy**, over every sequence of calls that keeps the discipline of the
service. -/
theorem refresh_policy (h : system.Run Keeps (start ownPackage delay cooldown) calls log w) :
    -- two queued refreshes
    (∀ pre time mid time' post, log = pre ++ .queued time :: mid ++ .queued time' :: post →
      time + cooldown ≤ time') ∧
    -- what `take` returns: when, and which package
    (∀ pre now package post, log = pre ++ .taken now (some package) :: post →
      (∃ since, Armed pre package since ∧ since + delayAfter delay pre ≤ now) ∧
      (∀ time, .queued time ∈ pre → time + cooldown ≤ now) ∧
      lastObserved pre = some package ∧ ¬Excluded ownPackage package) ∧
    (∀ now package, (w.policy.take now).1 = some package → w.policy.dueAt ≤ now) ∧
    -- at most once for each observation
    (∀ pre now package mid now' package' post,
      log = pre ++ .taken now (some package) :: mid ++ .taken now' (some package') :: post →
      ∃ time, .observed (some package') time true ∈ mid) := by
  have hsound := sound_of_run h
  refine ⟨?_, ?_, ?_, ?_⟩
  · intro pre time mid time' post hlog
    exact hsound.events _ _ post hlog time (by simp)
  · intro pre now package post hlog
    obtain ⟨⟨since, harmed, hdue⟩, hspaced, hallowed⟩ := hsound.events pre _ post hlog
    exact ⟨⟨since, harmed, hdue⟩, hspaced, harmed.lastObserved_eq, hallowed⟩
  · intro now package htake
    rcases take_cases w.policy now with hnothing | ⟨package', hpending, hdue, -⟩
    · rw [hnothing] at htake
      cases htake
    · rw [dueAt, hpending]
      exact hdue
  · intro pre now package mid now' package' post hlog
    obtain ⟨⟨since, harmed, -⟩, -⟩ := hsound.events _ _ post hlog
    exact harmed.observed_of_taken

def switchCalls : List Call :=
  [.observe (some "launcher") 0, .observe (some "reader") 100, .take 1000, .queued 1000,
    .observe (some "notes") 1900, .take 3900, .take 4000, .queued 4000]

def switchLog : List Event :=
  [.observed (some "launcher") 0 false, .observed (some "reader") 100 true,
    .taken 1000 (some "reader"), .queued 1000, .observed (some "notes") 1900 true,
    .taken 3900 none, .taken 4000 (some "notes"), .queued 4000]

theorem refresh_policy_switchCalls : ∃ time, Event.observed (some "notes") time true ∈
    [Event.queued 1000, Event.observed (some "notes") 1900 true, Event.taken 3900 none] := by
  obtain ⟨w, hrun⟩ : ∃ w, system.Run Keeps (start "panel" 900 3000) switchCalls switchLog w :=
    ⟨_, System.Run.of_exec (by rfl)⟩
  exact (refresh_policy hrun).2.2.2 (switchLog.take 2) 1000 "reader" _ 4000 "notes" _ rfl

end EinkLab.SwitchPolicy
