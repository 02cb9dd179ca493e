import EinkLab.CaptureSession.SleepRequests
import EinkLab.Pipeline.Equiv.SleepColor

/-!
# Deferred sleep-image requests

What a session without a pipeline keeps of its sleep-image requests is the newest catalog, the epoch
of the last accepted arm and, until its disarm, that arm.  A pipeline keeps the same three things,
but refuses an arm while a cycle is open, where the session takes it and forgets the open one; and
what the session replays onto the new pipeline are the catalog and the open arm only.

So the responses are the pipeline's if no arm opens a cycle while another is open (`Orderly`), and
the new pipeline is in the same state if moreover no cycle was opened, or the last one still is and
is that of the newest catalog (`Replayable`).  `deferral_faithful_iff` is that these conditions are
exact.  An arm of epoch `0` has the session's own result, also once there is a pipeline.
-/

namespace EinkLab.CaptureSession

open Transition Pipeline

/-! ### What is compared -/

/-- What the requests are about: the latch and the catalog. -/
structure SleepView where
  latch : SleepImageLatch
  catalog : Option EinkSleepImageCatalog
  catalogEpoch : Nat
  selectedIndex : Nat
  mode : SleepImagePresentationMode
  deriving DecidableEq, Repr

def sleepView (s : Pipeline) : SleepView where
  latch := s.sleepImageLatch
  catalog := s.sleepImageCatalog
  catalogEpoch := s.sleepImageCatalogEpoch
  selectedIndex := s.sleepImageSelectedIndex
  mode := s.sleepImageMode

/-- A running pipeline that has had no sleep-image request. -/
structure Untouched (s : Pipeline) : Prop where
  running : s.stopping = false
  view : sleepView s = sleepView {}

/-- The requests on a new session, which has no pipeline yet. -/
def deferred (c : Settings) (rs : List SleepRequest) : List SleepResponse × M3State :=
  serve (M3State.handle c) {} rs

/-- The responses, and the pipeline that `MaybeStartM3` then creates, are those of the same requests
on the pipeline `s`. -/
def FaithfulToPipeline (c : Settings) (s : Pipeline) (rs : List SleepRequest) : Prop :=
  (deferred c rs).1 = (serve (handlePipeline c) s rs).1 ∧
    ((deferred c rs).2.maybeStartM3 c).pipeline.map sleepView =
      some (sleepView (serve (handlePipeline c) s rs).2)

/-- The same of the requests on a session that has the pipeline `s`. -/
def FaithfulToSession (c : Settings) (s : Pipeline) (rs : List SleepRequest) : Prop :=
  (deferred c rs).1 = (serve (M3State.handle c) { pipeline := some s } rs).1 ∧
    ((deferred c rs).2.maybeStartM3 c).pipeline.map sleepView =
      (serve (M3State.handle c) { pipeline := some s } rs).2.pipeline.map sleepView

/-! ### The condition -/

/-- The checks of a publication apart from the order of the epochs. -/
def SleepImageCatalogRequest.valid (c : Settings) (r : SleepImageCatalogRequest) : Bool :=
  r.epoch ≠ 0 && r.width = c.profile.panelWidth && r.height = c.profile.panelHeight &&
    EinkSleepImageCatalog.validate r.width r.height r.entries = .accepted &&
    r.selectedIndex < r.entries.length

/-- The epoch of a valid publication; `0` for any other request. -/
def offeredEpoch (c : Settings) : SleepRequest → Nat
  | .publishSleepImageCatalog r => if r.valid c then r.epoch else 0
  | _ => 0

/-- The newest epoch that was validly published. -/
def published (c : Settings) (rs : List SleepRequest) : Nat :=
  rs.foldl (fun epoch r => max epoch (offeredEpoch c r)) 0

/-- The epoch was armed while its catalog was the newest. -/
def AskedFor (c : Settings) (rs : List SleepRequest) (epoch : Nat) : Prop :=
  ∃ pre post, rs = pre ++ .armSleepCycle epoch :: post ∧ published c pre = epoch ∧ epoch ≠ 0

/-- An arm of the epoch after these requests is the first for the newest catalog. -/
def Opens (c : Settings) (rs : List SleepRequest) (epoch : Nat) : Prop :=
  published c rs = epoch ∧ epoch ≠ 0 ∧ ¬ AskedFor c rs epoch

/-- The first arm of the epoch has been made, and no disarm since. -/
def IsOpen (c : Settings) (rs : List SleepRequest) (epoch : Nat) : Prop :=
  ∃ pre post, rs = pre ++ .armSleepCycle epoch :: post ∧ Opens c pre epoch ∧
    .disarmSleepCycle epoch ∉ post

/-- The request opens a cycle while one is open. -/
def Clashes (c : Settings) (rs : List SleepRequest) (r : SleepRequest) : Prop :=
  ∃ epoch, r = .armSleepCycle epoch ∧ Opens c rs epoch ∧ ∃ epoch', IsOpen c rs epoch'

def Orderly (c : Settings) (rs : List SleepRequest) : Prop :=
  EachEvent (fun pre r => ¬ Clashes c pre r) rs

def Replayable (c : Settings) (rs : List SleepRequest) : Prop :=
  (∀ epoch, ¬ AskedFor c rs epoch) ∨ IsOpen c rs (published c rs)

variable {c : Settings} {rs : List SleepRequest} {r : SleepRequest} {e : Nat}

/-! ### One more request -/

theorem serve_cons {σ ρ α : Type} (handle : σ → ρ → α × σ) (s : σ) (r : ρ) (rs : List ρ) :
    serve handle s (r :: rs) = ((handle s r).1 :: (serve handle (handle s r).2 rs).1,
      (serve handle (handle s r).2 rs).2) := rfl

theorem serve_append_singleton {σ ρ α : Type} (handle : σ → ρ → α × σ) (s : σ) (rs : List ρ)
    (r : ρ) : serve handle s (rs ++ [r]) =
      ((serve handle s rs).1 ++ [(handle (serve handle s rs).2 r).1],
        (handle (serve handle s rs).2 r).2) := by
  induction rs generalizing s with
  | nil => rfl
  | cons x rs ih =>
    rw [List.cons_append, serve_cons, ih, serve_cons]
    rfl

theorem published_append_singleton :
    published c (rs ++ [r]) = max (published c rs) (offeredEpoch c r) := by
  simp [published, List.foldl_append]

theorem askedFor_append_singleton : AskedFor c (rs ++ [r]) e ↔
    AskedFor c rs e ∨ (r = .armSleepCycle e ∧ published c rs = e ∧ e ≠ 0) := by
  constructor
  · rintro ⟨pre, post, hrs, hasked⟩
    rcases append_singleton_eq_append_cons hrs with ⟨-, rfl, rfl⟩ | ⟨post', -, rfl⟩
    · exact Or.inr ⟨rfl, hasked⟩
    · exact Or.inl ⟨pre, post', rfl, hasked⟩
  · rintro (⟨pre, post, rfl, hasked⟩ | ⟨rfl, hasked⟩)
    · exact ⟨pre, post ++ [r], by simp, hasked⟩
    · exact ⟨rs, [], rfl, hasked⟩

theorem isOpen_append_singleton : IsOpen c (rs ++ [r]) e ↔
    (IsOpen c rs e ∧ r ≠ .disarmSleepCycle e) ∨ (r = .armSleepCycle e ∧ Opens c rs e) := by
  constructor
  · rintro ⟨pre, post, hrs, hopens, hpost⟩
    rcases append_singleton_eq_append_cons hrs with ⟨-, rfl, rfl⟩ | ⟨post', rfl, rfl⟩
    · exact Or.inr ⟨rfl, hopens⟩
    · simp only [List.mem_append, List.mem_singleton, not_or] at hpost
      exact Or.inl ⟨⟨pre, post', rfl, hopens, hpost.1⟩, fun h => hpost.2 h.symm⟩
  · rintro (⟨⟨pre, post, rfl, hopens, hpost⟩, hr⟩ | ⟨rfl, hopens⟩)
    · refine ⟨pre, post ++ [r], by simp, hopens, ?_⟩
      simp only [List.mem_append, List.mem_singleton, not_or]
      exact ⟨hpost, fun h => hr h.symm⟩
    · exact ⟨rs, [], rfl, hopens, List.not_mem_nil⟩

theorem not_askedFor_nil : ¬ AskedFor c [] e := by
  rintro ⟨pre, post, h, -⟩
  simp at h

theorem not_isOpen_nil : ¬ IsOpen c [] e := by
  rintro ⟨pre, post, h, -⟩
  simp at h

theorem IsOpen.ne_zero (h : IsOpen c rs e) : e ≠ 0 := by
  obtain ⟨pre, post, -, hopens, -⟩ := h
  exact hopens.2.1

theorem AskedFor.le_published (h : AskedFor c rs e) : e ≤ published c rs := by
  induction rs using List.reverseRecOn with
  | nil => exact absurd h not_askedFor_nil
  | append_singleton rs r ih =>
    rw [published_append_singleton]
    rcases askedFor_append_singleton.mp h with h | ⟨-, h, -⟩
    · exact Nat.le_trans (ih h) (Nat.le_max_left _ _)
    · exact Nat.le_trans (Nat.le_of_eq h.symm) (Nat.le_max_left _ _)

/-! ### Serving one request -/

/-- The pipeline with a valid catalog installed. -/
def install (s : Pipeline) (r : SleepImageCatalogRequest) : Pipeline :=
  { s with
    sleepImageCatalog := some ⟨r.width, r.height, r.entries⟩
    sleepImageCatalogEpoch := r.epoch
    sleepImageSelectedIndex := r.selectedIndex
    sleepImageMode := r.mode }

section

variable {request : SleepImageCatalogRequest}

/-- Pipeline and session refuse an invalid publication alike and keep what they have. -/
theorem publish_invalid (h : request.valid c = false) :
    ∃ result, (∀ s : Pipeline, s.publishSleepImageCatalog c request.epoch request.width
        request.height request.entries request.selectedIndex request.mode = (result, s)) ∧
      ∀ m : M3State, m.publishSleepImageCatalog c request = (result, m) := by
  unfold Pipeline.publishSleepImageCatalog M3State.publishSleepImageCatalog
    EinkSleepImageCatalog.publish
  by_cases hepoch : request.epoch = 0
  · exact ⟨.rejectedSelection, by simp [hepoch], by simp [hepoch]⟩
  by_cases hgeometry : request.width ≠ c.profile.panelWidth ||
      request.height ≠ c.profile.panelHeight
  · exact ⟨.rejectedGeometry, fun s => by rw [if_neg hepoch, if_pos hgeometry],
      fun m => by rw [if_neg hepoch, if_pos hgeometry]⟩
  simp only [hepoch, hgeometry, ↓reduceIte]
  cases hvalidate : EinkSleepImageCatalog.validate request.width request.height request.entries
  case accepted =>
    have hselected : request.entries.length ≤ request.selectedIndex := by
      simp only [Bool.or_eq_true, decide_eq_true_eq, not_or, not_not] at hgeometry
      simpa [SleepImageCatalogRequest.valid, hepoch, ← hgeometry.1, ← hgeometry.2,
        hvalidate] using h
    exact ⟨.rejectedSelection, by simp [EinkSleepImageCatalog.size, hselected],
      by simp [EinkSleepImageCatalog.size, hselected]⟩
  all_goals exact ⟨_, fun _ => rfl, fun _ => rfl⟩

theorem publish_valid_pipeline {s : Pipeline} (h : request.valid c = true)
    (hs : s.stopping = false) :
    s.publishSleepImageCatalog c request.epoch request.width request.height request.entries
        request.selectedIndex request.mode =
      if request.epoch ≤ s.sleepImageCatalogEpoch then (.rejectedSelection, s)
      else (.accepted, install s request) := by
  simp only [SleepImageCatalogRequest.valid, Bool.and_eq_true, decide_eq_true_eq] at h
  obtain ⟨⟨⟨⟨hepoch, hwidth⟩, hheight⟩, hvalidate⟩, hselected⟩ := h
  have hselected' := Nat.not_le.mpr hselected
  simp [Pipeline.publishSleepImageCatalog, EinkSleepImageCatalog.publish,
    EinkSleepImageCatalog.size, install, hs, hepoch, ← hwidth, ← hheight, hvalidate, hselected']

/-- Without a pipeline a valid publication that is not stale is kept. -/
theorem publish_valid_deferred {m : M3State} (h : request.valid c = true) (hm : m.pipeline = none) :
    m.publishSleepImageCatalog c request =
      if request.epoch ≤ m.sleepImageCatalogEpoch then
        (.rejectedSelection, m.countPublication .rejectedSelection request.epoch)
      else
        (.accepted, { m with pendingSleepImageCatalog := some request }.countPublication .accepted
          request.epoch) := by
  simp only [SleepImageCatalogRequest.valid, Bool.and_eq_true, decide_eq_true_eq] at h
  obtain ⟨⟨⟨⟨hepoch, hwidth⟩, hheight⟩, hvalidate⟩, hselected⟩ := h
  have hselected' := Nat.not_le.mpr hselected
  simp [M3State.publishSleepImageCatalog, EinkSleepImageCatalog.publish,
    EinkSleepImageCatalog.size, hepoch, ← hwidth, ← hheight, hvalidate, hselected', hm]

/-- With a pipeline it is passed on. -/
theorem publish_valid_passed {m : M3State} {s : Pipeline} (h : request.valid c = true)
    (hm : m.pipeline = some s) (hs : s.stopping = false)
    (hepoch : m.sleepImageCatalogEpoch = s.sleepImageCatalogEpoch) :
    m.publishSleepImageCatalog c request =
      if request.epoch ≤ s.sleepImageCatalogEpoch then
        (.rejectedSelection, m.countPublication .rejectedSelection request.epoch)
      else
        (.accepted, { m with pipeline := some (install s request) }.countPublication .accepted
          request.epoch) := by
  have hpipeline := publish_valid_pipeline h hs
  simp only [SleepImageCatalogRequest.valid, Bool.and_eq_true, decide_eq_true_eq] at h
  obtain ⟨⟨⟨⟨hne, hwidth⟩, hheight⟩, hvalidate⟩, hselected⟩ := h
  have hselected' := Nat.not_le.mpr hselected
  by_cases hstale : request.epoch ≤ s.sleepImageCatalogEpoch
  · simp [M3State.publishSleepImageCatalog, EinkSleepImageCatalog.publish,
      EinkSleepImageCatalog.size, hne, ← hwidth, ← hheight, hvalidate, hselected', hepoch, hstale]
  · rw [if_neg hstale] at hpipeline
    simp [M3State.publishSleepImageCatalog, EinkSleepImageCatalog.publish,
      EinkSleepImageCatalog.size, hne, ← hwidth, ← hheight, hvalidate, hselected', hm, hepoch,
      hstale, hpipeline]

end

/-- What the session answers where the pipeline answers `x`. -/
def sessionResponse (r : SleepRequest) (x : SleepResponse) : SleepResponse :=
  if r = .armSleepCycle 0 then .armed .rejectedZero else x

/-- An arm touches the latch only, as far as the requests are concerned. -/
theorem armSleepCycle_view (s : Pipeline) (epoch : Nat) :
    sleepView (s.armSleepCycle epoch).2 =
        { sleepView s with latch := (s.armSleepCycle epoch).2.sleepImageLatch } ∧
      (s.armSleepCycle epoch).2.stopping = s.stopping := by
  unfold Pipeline.armSleepCycle
  split_ifs with h
  · dsimp only
    split_ifs
    · exact ⟨rfl, rfl⟩
    · exact ⟨rfl, rfl⟩
  · exact ⟨rfl, rfl⟩

theorem disarmSleepCycle_view (s : Pipeline) (epoch : Nat) :
    sleepView (s.disarmSleepCycle epoch).2 =
        { sleepView s with latch := (s.sleepImageLatch.disarmSleepCycle epoch).2 } ∧
      (s.disarmSleepCycle epoch).2.stopping = s.stopping := by
  unfold Pipeline.disarmSleepCycle
  rcases s.sleepImageLatch.disarmSleepCycle_cases epoch with ⟨-, -, heq⟩ | ⟨hne, hsame⟩
  · rw [heq]
    exact ⟨rfl, rfl⟩
  · dsimp only
    rw [if_neg hne, hsame]
    exact ⟨rfl, rfl⟩

/-- A disarm is answered by the latch. -/
theorem disarmSleepCycle_result (s : Pipeline) (epoch : Nat) :
    (s.disarmSleepCycle epoch).1 = (s.sleepImageLatch.disarmSleepCycle epoch).1 := by
  unfold Pipeline.disarmSleepCycle
  dsimp only
  split_ifs
  · rfl
  · rfl

/-- An arm that does not name the pipeline's catalog. -/
theorem armSleepCycle_mismatched {s : Pipeline} {epoch : Nat}
    (h : epoch = 0 ∨ epoch ≠ s.sleepImageCatalogEpoch) :
    s.armSleepCycle epoch = (.rejectedMismatched, s) := by
  unfold Pipeline.armSleepCycle
  refine if_neg ?_
  rcases h with rfl | h <;> simp [*]

/-- An arm that names it is left to the latch. -/
theorem armSleepCycle_matched {s : Pipeline} {epoch : Nat} (hs : s.stopping = false)
    (hne : epoch ≠ 0) (h : epoch = s.sleepImageCatalogEpoch) :
    (s.armSleepCycle epoch).1 = (s.sleepImageLatch.armSleepCycle epoch).1 ∧
      (s.armSleepCycle epoch).2.sleepImageLatch = (s.sleepImageLatch.armSleepCycle epoch).2 := by
  unfold Pipeline.armSleepCycle
  rw [if_pos (by simp [hs, hne, ← h])]
  dsimp only
  split_ifs
  · exact ⟨rfl, rfl⟩
  · exact ⟨rfl, rfl⟩

/-! ### The session that has a pipeline -/

@[simp] theorem countArm_pipeline (m : M3State) (result : SleepImageArmResult) (epoch : Nat) :
    (m.countArm result epoch).pipeline = m.pipeline := by
  unfold M3State.countArm
  dsimp only
  split_ifs <;> rfl

@[simp] theorem countArm_catalogEpoch (m : M3State) (result : SleepImageArmResult) (epoch : Nat) :
    (m.countArm result epoch).sleepImageCatalogEpoch = m.sleepImageCatalogEpoch := by
  unfold M3State.countArm
  dsimp only
  split_ifs <;> rfl

@[simp] theorem countDisarm_pipeline (m : M3State) (result : SleepImageDisarmResult) :
    (m.countDisarm result).pipeline = m.pipeline := by
  unfold M3State.countDisarm
  dsimp only
  split_ifs <;> rfl

@[simp] theorem countDisarm_catalogEpoch (m : M3State) (result : SleepImageDisarmResult) :
    (m.countDisarm result).sleepImageCatalogEpoch = m.sleepImageCatalogEpoch := by
  unfold M3State.countDisarm
  dsimp only
  split_ifs <;> rfl

/-- A session passes its requests on to the pipeline `s`, which knows the same catalog. -/
structure PassesOn (m : M3State) (s : Pipeline) : Prop where
  pipeline : m.pipeline = some s
  running : s.stopping = false
  catalogEpoch : m.sleepImageCatalogEpoch = s.sleepImageCatalogEpoch

/-- It answers as the pipeline does, except to an arm of epoch `0`. -/
theorem PassesOn.handle {m : M3State} {s : Pipeline} (h : PassesOn m s) (c : Settings)
    (r : SleepRequest) :
    (m.handle c r).1 = sessionResponse r (handlePipeline c s r).1 ∧
      PassesOn (m.handle c r).2 (handlePipeline c s r).2 := by
  cases r with
  | publishSleepImageCatalog request =>
    simp only [M3State.handle, handlePipeline]
    by_cases hvalid : request.valid c = true
    · rw [publish_valid_pipeline hvalid h.running,
        publish_valid_passed hvalid h.pipeline h.running h.catalogEpoch]
      split_ifs
      · exact ⟨rfl, h.pipeline, h.running, h.catalogEpoch⟩
      · exact ⟨rfl, rfl, h.running, rfl⟩
    · obtain ⟨result, hpipeline, hsession⟩ := publish_invalid (Bool.not_eq_true _ ▸ hvalid)
      rw [hpipeline, hsession]
      exact ⟨rfl, h⟩
  | armSleepCycle epoch =>
    simp only [M3State.handle, handlePipeline, M3State.armSleepCycle]
    obtain ⟨hview, hstopping⟩ := armSleepCycle_view s epoch
    have hcatalog : (s.armSleepCycle epoch).2.sleepImageCatalogEpoch = s.sleepImageCatalogEpoch :=
      congrArg SleepView.catalogEpoch hview
    -- the session answers an arm of epoch zero by itself
    by_cases hzero : epoch = 0
    · subst hzero
      rw [armSleepCycle_mismatched (Or.inl rfl)]
      exact ⟨rfl, h⟩
    rw [if_neg hzero, h.pipeline]
    by_cases hepoch : epoch = m.sleepImageCatalogEpoch
    · rw [if_pos hepoch]
      have hother : SleepRequest.armSleepCycle epoch ≠ .armSleepCycle 0 := by
        simpa using hzero
      simp only [sessionResponse, hother, ↓reduceIte, true_and]
      refine ⟨by simp, hstopping.trans h.running, ?_⟩
      simpa [hcatalog] using h.catalogEpoch
    · rw [if_neg hepoch]
      rw [h.catalogEpoch] at hepoch
      have hother : SleepRequest.armSleepCycle epoch ≠ .armSleepCycle 0 := by
        simpa using hzero
      rw [armSleepCycle_mismatched (Or.inr hepoch)]
      simp only [sessionResponse, hother, ↓reduceIte, true_and]
      exact ⟨by simpa using h.pipeline, h.running, by simpa using h.catalogEpoch⟩
  | disarmSleepCycle epoch =>
    simp only [M3State.handle, handlePipeline, M3State.disarmSleepCycle]
    obtain ⟨hview, hstopping⟩ := disarmSleepCycle_view s epoch
    have hcatalog : (s.disarmSleepCycle epoch).2.sleepImageCatalogEpoch =
        s.sleepImageCatalogEpoch := congrArg SleepView.catalogEpoch hview
    by_cases hzero : epoch = 0
    · subst hzero
      exact ⟨rfl, h⟩
    · rw [if_neg hzero, h.pipeline]
      refine ⟨rfl, by simp, hstopping.trans h.running, ?_⟩
      simpa [hcatalog] using h.catalogEpoch

theorem PassesOn.serve {m : M3State} {s : Pipeline} (h : PassesOn m s) (c : Settings)
    (rs : List SleepRequest) :
    (serve (M3State.handle c) m rs).1 =
        List.zipWith sessionResponse rs (serve (handlePipeline c) s rs).1 ∧
      PassesOn (serve (M3State.handle c) m rs).2 (serve (handlePipeline c) s rs).2 := by
  induction rs generalizing m s with
  | nil => exact ⟨rfl, h⟩
  | cons r rs ih =>
    obtain ⟨hresponse, hpasses⟩ := h.handle c r
    obtain ⟨hresponses, hserved⟩ := ih hpasses
    rw [serve_cons, serve_cons, hresponse, hresponses]
    exact ⟨rfl, hserved⟩

/-! ### The session that has none -/

/-- The latch of the pipeline, read off the summary. -/
def keptLatch (m : M3State) : SleepImageLatch where
  state := if m.pendingSleepCycleArm.isSome then .armed else .inactive
  lastArmedEpoch := m.sleepImageLastArmEpoch
  activeEpoch := m.pendingSleepCycleArm.getD 0

/-- The sleep state of a pipeline that has the kept catalog. -/
def keptView (m : M3State) (latch : SleepImageLatch) : SleepView :=
  match m.pendingSleepImageCatalog with
  | none => { sleepView {} with latch := latch }
  | some request => { sleepView (install {} request) with latch := latch }

@[simp] theorem keptView_latch (m : M3State) (latch : SleepImageLatch) :
    (keptView m latch).latch = latch := by
  unfold keptView
  cases m.pendingSleepImageCatalog with
  | none => rfl
  | some request => rfl

theorem keptView_withLatch (m : M3State) (latch latch' : SleepImageLatch) :
    { keptView m latch with latch := latch' } = keptView m latch' := by
  unfold keptView
  cases m.pendingSleepImageCatalog with
  | none => rfl
  | some request => rfl

/-- A session without a pipeline and a pipeline after the same requests, whatever was armed. -/
structure Tracks (c : Settings) (rs : List SleepRequest) (m : M3State) (s : Pipeline) : Prop where
  deferred : m.pipeline = none
  running : s.stopping = false
  catalogEpoch : m.sleepImageCatalogEpoch = published c rs
  valid : ∀ request, m.pendingSleepImageCatalog = some request → request.valid c = true
  view : sleepView s = keptView m s.sleepImageLatch
  keptEpoch : (keptView m {}).catalogEpoch = published c rs

/-- The summary of the arms, after requests that never clashed. -/
structure Latched (c : Settings) (rs : List SleepRequest) (m : M3State) (s : Pipeline) : Prop where
  latch : s.sleepImageLatch = keptLatch m
  isOpen : ∀ e, IsOpen c rs e ↔ m.pendingSleepCycleArm = some e
  asked_le : ∀ e, AskedFor c rs e → e ≤ m.sleepImageLastArmEpoch
  asked : m.sleepImageLastArmEpoch ≠ 0 → AskedFor c rs m.sleepImageLastArmEpoch

section

variable {m m' : M3State} {s s' : Pipeline}

theorem Tracks.pipelineEpoch (h : Tracks c rs m s) :
    s.sleepImageCatalogEpoch = published c rs := by
  have hview : s.sleepImageCatalogEpoch = (keptView m s.sleepImageLatch).catalogEpoch :=
    congrArg SleepView.catalogEpoch h.view
  rw [hview, ← h.keptEpoch, ← keptView_withLatch m s.sleepImageLatch {}]

/-- A request that leaves the catalogs as they are. -/
theorem Tracks.same (h : Tracks c rs m s) (hr : published c (rs ++ [r]) = published c rs)
    (hpipeline : m'.pipeline = m.pipeline)
    (hepoch : m'.sleepImageCatalogEpoch = m.sleepImageCatalogEpoch)
    (hpending : m'.pendingSleepImageCatalog = m.pendingSleepImageCatalog)
    (hview : sleepView s' = { sleepView s with latch := s'.sleepImageLatch })
    (hstopping : s'.stopping = s.stopping) : Tracks c (rs ++ [r]) m' s' := by
  have hkept (latch : SleepImageLatch) : keptView m' latch = keptView m latch := by
    unfold keptView
    rw [hpending]
  constructor
  case deferred => exact hpipeline.trans h.deferred
  case running => exact hstopping.trans h.running
  case catalogEpoch =>
    rw [hepoch, hr]
    exact h.catalogEpoch
  case valid =>
    rw [hpending]
    exact h.valid
  case view =>
    rw [hview, h.view, hkept]
    exact keptView_withLatch m _ _
  case keptEpoch =>
    rw [hkept, hr]
    exact h.keptEpoch

/-- An arm or a disarm leaves the catalogs as they are. -/
theorem published_append_of_not_publication (hr : offeredEpoch c r = 0) :
    published c (rs ++ [r]) = published c rs := by
  rw [published_append_singleton, hr]
  exact Nat.max_zero _

/-- A request that neither opens a cycle nor closes one. -/
theorem Latched.aside (h : Latched c rs m s) (hlatch : s'.sleepImageLatch = s.sleepImageLatch)
    (hpending : m'.pendingSleepCycleArm = m.pendingSleepCycleArm)
    (hlast : m'.sleepImageLastArmEpoch = m.sleepImageLastArmEpoch)
    (hopens : ∀ e, r = .armSleepCycle e → ¬ Opens c rs e)
    (hcloses : ∀ e, r = .disarmSleepCycle e → ¬ IsOpen c rs e) :
    Latched c (rs ++ [r]) m' s' := by
  have hasked (e : Nat) : AskedFor c (rs ++ [r]) e ↔ AskedFor c rs e := by
    rw [askedFor_append_singleton]
    refine ⟨fun h => h.elim id ?_, Or.inl⟩
    rintro ⟨hr, hpublished, hne⟩
    by_contra hnot
    exact hopens e hr ⟨hpublished, hne, hnot⟩
  have hopen (e : Nat) : IsOpen c (rs ++ [r]) e ↔ IsOpen c rs e := by
    rw [isOpen_append_singleton]
    constructor
    · rintro (⟨hopen, -⟩ | ⟨hr, hnew⟩)
      · exact hopen
      · exact absurd hnew (hopens e hr)
    · exact fun h => Or.inl ⟨h, fun hr => hcloses e hr h⟩
  constructor
  case latch =>
    rw [hlatch, h.latch]
    unfold keptLatch
    rw [hpending, hlast]
  case isOpen =>
    intro e
    rw [hopen, hpending]
    exact h.isOpen e
  case asked_le =>
    intro e he
    rw [hlast]
    exact h.asked_le e ((hasked e).mp he)
  case asked =>
    intro hne
    rw [hlast] at hne ⊢
    exact (hasked _).mpr (h.asked hne)

/-- What opens a cycle, in terms of the summary. -/
theorem Latched.opens_iff (h : Latched c rs m s) :
    Opens c rs e ↔ e = published c rs ∧ e ≠ 0 ∧ m.sleepImageLastArmEpoch < e := by
  constructor
  · rintro ⟨rfl, hne, hnot⟩
    -- the last epoch armed is at most the newest published, so it would be this one
    refine ⟨rfl, hne, Nat.lt_of_not_le fun hle => hnot ?_⟩
    have hlast := h.asked (by omega)
    rwa [Nat.le_antisymm hle hlast.le_published]
  · rintro ⟨rfl, hne, hlt⟩
    exact ⟨rfl, hne, fun hasked => Nat.not_le.mpr hlt (h.asked_le _ hasked)⟩

theorem Latched.last_le (h : Latched c rs m s) :
    m.sleepImageLastArmEpoch ≤ published c rs := by
  by_cases hzero : m.sleepImageLastArmEpoch = 0
  · rw [hzero]
    exact Nat.zero_le _
  · exact (h.asked hzero).le_published

end

/-! ### One request on both -/

section

variable {m : M3State} {s : Pipeline}

theorem tracks_init (hs : Untouched s) : Tracks c [] {} s := by
  refine ⟨rfl, hs.running, rfl, nofun, ?_, rfl⟩
  rw [hs.view]
  have hlatch : s.sleepImageLatch = {} := congrArg SleepView.latch hs.view
  rw [hlatch]
  rfl

theorem latched_init (hs : Untouched s) : Latched c [] {} s where
  latch := congrArg SleepView.latch hs.view
  isOpen _ := ⟨fun h => absurd h not_isOpen_nil, nofun⟩
  asked_le _ h := absurd h not_askedFor_nil
  asked h := absurd rfl h

theorem Tracks.handle (h : Tracks c rs m s) (r : SleepRequest) :
    Tracks c (rs ++ [r]) (m.handle c r).2 (handlePipeline c s r).2 := by
  cases r with
  | publishSleepImageCatalog request =>
    simp only [M3State.handle, handlePipeline]
    by_cases hvalid : request.valid c = true
    · have hoffered : offeredEpoch c (.publishSleepImageCatalog request) = request.epoch :=
        if_pos hvalid
      rw [publish_valid_pipeline hvalid h.running, publish_valid_deferred hvalid h.deferred,
        h.catalogEpoch, h.pipelineEpoch]
      split_ifs with hstale
      · -- a stale one is refused by both
        refine h.same ?_ rfl rfl rfl rfl rfl
        rw [published_append_singleton, hoffered]
        exact Nat.max_eq_left hstale
      · have hpublished : published c (rs ++ [.publishSleepImageCatalog request]) =
            request.epoch := by
          rw [published_append_singleton, hoffered]
          exact Nat.max_eq_right (Nat.le_of_not_le hstale)
        refine ⟨h.deferred, h.running, hpublished.symm, ?_, rfl, hpublished.symm⟩
        rintro _ ⟨⟩
        exact hvalid
    · obtain ⟨result, hpipeline, hsession⟩ := publish_invalid (Bool.not_eq_true _ ▸ hvalid)
      rw [hpipeline, hsession]
      exact h.same (published_append_of_not_publication (if_neg hvalid)) rfl rfl rfl rfl rfl
  | armSleepCycle epoch =>
    simp only [M3State.handle, handlePipeline]
    obtain ⟨hview, hstopping⟩ := armSleepCycle_view s epoch
    have hkept : (m.armSleepCycle epoch).2.pipeline = m.pipeline ∧
        (m.armSleepCycle epoch).2.sleepImageCatalogEpoch = m.sleepImageCatalogEpoch ∧
        (m.armSleepCycle epoch).2.pendingSleepImageCatalog = m.pendingSleepImageCatalog := by
      unfold M3State.armSleepCycle
      rw [h.deferred]
      dsimp only
      split_ifs <;> exact ⟨h.deferred.symm ▸ rfl, rfl, rfl⟩
    exact h.same (published_append_of_not_publication rfl) hkept.1 hkept.2.1 hkept.2.2 hview
      hstopping
  | disarmSleepCycle epoch =>
    simp only [M3State.handle, handlePipeline]
    obtain ⟨hview, hstopping⟩ := disarmSleepCycle_view s epoch
    have hkept : (m.disarmSleepCycle epoch).2.pipeline = m.pipeline ∧
        (m.disarmSleepCycle epoch).2.sleepImageCatalogEpoch = m.sleepImageCatalogEpoch ∧
        (m.disarmSleepCycle epoch).2.pendingSleepImageCatalog = m.pendingSleepImageCatalog := by
      unfold M3State.disarmSleepCycle
      rw [h.deferred]
      dsimp only
      split_ifs <;> exact ⟨h.deferred.symm ▸ rfl, rfl, rfl⟩
    have hlatch : (s.disarmSleepCycle epoch).2.sleepImageLatch =
        (s.sleepImageLatch.disarmSleepCycle epoch).2 := congrArg SleepView.latch hview
    rw [← hlatch] at hview
    exact h.same (published_append_of_not_publication rfl) hkept.1 hkept.2.1 hkept.2.2 hview
      hstopping

/-- The response to a publication, and the arms after it. -/
theorem Latched.publish (ht : Tracks c rs m s) (h : Latched c rs m s)
    (request : SleepImageCatalogRequest) :
    (m.publishSleepImageCatalog c request).1 = (s.publishSleepImageCatalog c request.epoch
        request.width request.height request.entries request.selectedIndex request.mode).1 ∧
      Latched c (rs ++ [.publishSleepImageCatalog request])
        (m.publishSleepImageCatalog c request).2 (s.publishSleepImageCatalog c request.epoch
          request.width request.height request.entries request.selectedIndex request.mode).2 := by
  by_cases hvalid : request.valid c = true
  · rw [publish_valid_pipeline hvalid ht.running, publish_valid_deferred hvalid ht.deferred,
      ht.catalogEpoch, ht.pipelineEpoch]
    split_ifs
    · exact ⟨rfl, h.aside rfl rfl rfl nofun nofun⟩
    · exact ⟨rfl, h.aside rfl rfl rfl nofun nofun⟩
  · obtain ⟨result, hpipeline, hsession⟩ := publish_invalid (Bool.not_eq_true _ ▸ hvalid)
    rw [hpipeline, hsession]
    exact ⟨rfl, h.aside rfl rfl rfl nofun nofun⟩

/-- The arm that opens the first cycle, or the next one after a disarm. -/
theorem Latched.opened (h : Latched c rs m s) {m' : M3State} {s' : Pipeline}
    (hopens : Opens c rs e) (hlatch : s'.sleepImageLatch = keptLatch m')
    (hpending : m'.pendingSleepCycleArm = some e) (hlast : m'.sleepImageLastArmEpoch = e)
    (hidle : m.pendingSleepCycleArm = none) :
    Latched c (rs ++ [.armSleepCycle e]) m' s' := by
  have hpublished : published c rs = e := hopens.1
  have hne : e ≠ 0 := hopens.2.1
  constructor
  case latch => exact hlatch
  case isOpen =>
    intro e'
    rw [isOpen_append_singleton, hpending, h.isOpen, hidle]
    constructor
    · rintro (⟨hnone, -⟩ | ⟨heq, -⟩)
      · cases hnone
      · rw [SleepRequest.armSleepCycle.inj heq]
    · rintro ⟨⟩
      exact Or.inr ⟨rfl, hopens⟩
  case asked_le =>
    intro e' he'
    rw [hlast]
    rcases askedFor_append_singleton.mp he' with hasked | ⟨heq, -⟩
    · exact Nat.le_trans hasked.le_published (Nat.le_of_eq hpublished)
    · exact Nat.le_of_eq (SleepRequest.armSleepCycle.inj heq).symm
  case asked =>
    intro _
    rw [hlast]
    exact askedFor_append_singleton.mpr (Or.inr ⟨rfl, hpublished, hne⟩)

/-- What the session without a pipeline does with an arm for its newest catalog. -/
theorem Latched.armSleepCycle_session (ht : Tracks c rs m s) (h : Latched c rs m s)
    (hzero : e ≠ 0) (hepoch : e = published c rs) :
    m.armSleepCycle e = if e = m.sleepImageLastArmEpoch then
      (.rejectedDuplicate, m.countArm .rejectedDuplicate e)
      else (.accepted, { m with pendingSleepCycleArm := some e }.countArm .accepted e) := by
  have hlast : m.sleepImageLastArmEpoch ≤ e := hepoch ▸ h.last_le
  unfold M3State.armSleepCycle
  rw [if_neg hzero, if_pos (hepoch.trans ht.catalogEpoch.symm), ht.deferred]
  exact if_neg (Nat.not_lt.mpr hlast)

/-- What the latch of the pipeline does with it. -/
theorem Latched.armSleepCycle_latch (h : Latched c rs m s) (hzero : e ≠ 0)
    (hepoch : e = published c rs) :
    s.sleepImageLatch.armSleepCycle e =
      if e = m.sleepImageLastArmEpoch then (.rejectedDuplicate, keptLatch m)
      else if m.pendingSleepCycleArm.getD 0 ≠ 0 then (.rejectedMismatched, keptLatch m)
      else (.accepted, ⟨.armed, e, e, .none, {}⟩) := by
  have hlast : m.sleepImageLastArmEpoch ≤ e := hepoch ▸ h.last_le
  rw [h.latch]
  unfold SleepImageLatch.armSleepCycle
  rw [if_neg hzero]
  exact if_neg (Nat.not_lt.mpr hlast)

/-- The response to an arm is the pipeline's unless the arm clashes. -/
theorem Latched.arm (ht : Tracks c rs m s) (h : Latched c rs m s) (epoch : Nat) :
    (SleepResponse.armed (m.armSleepCycle epoch).1 =
        sessionResponse (.armSleepCycle epoch) (.armed (s.armSleepCycle epoch).1) ↔
      ¬ Clashes c rs (.armSleepCycle epoch)) ∧
    (¬ Clashes c rs (.armSleepCycle epoch) →
      Latched c (rs ++ [.armSleepCycle epoch]) (m.armSleepCycle epoch).2
        (s.armSleepCycle epoch).2) := by
  have hclash : Clashes c rs (.armSleepCycle epoch) ↔
      Opens c rs epoch ∧ ∃ epoch', IsOpen c rs epoch' := by
    constructor
    · rintro ⟨e, heq, hopens, hopen⟩
      rw [SleepRequest.armSleepCycle.inj heq]
      exact ⟨hopens, hopen⟩
    · exact fun ⟨hopens, hopen⟩ => ⟨epoch, rfl, hopens, hopen⟩
  -- where the arm does not open a cycle both keep what they have
  have haside {m' : M3State} {s' : Pipeline} (hnot : ¬ Opens c rs epoch)
      (hpending : m'.pendingSleepCycleArm = m.pendingSleepCycleArm)
      (hlast : m'.sleepImageLastArmEpoch = m.sleepImageLastArmEpoch)
      (hlatch : s'.sleepImageLatch = s.sleepImageLatch) :
      Latched c (rs ++ [.armSleepCycle epoch]) m' s' := by
    refine h.aside hlatch hpending hlast (fun e heq => ?_) nofun
    rw [← SleepRequest.armSleepCycle.inj heq]
    exact hnot
  by_cases hzero : epoch = 0
  · subst hzero
    have hnot : ¬ Opens c rs 0 := fun hopens => hopens.2.1 rfl
    rw [armSleepCycle_mismatched (Or.inl rfl)]
    exact ⟨⟨fun _ hc => hnot (hclash.mp hc).1, fun _ => rfl⟩, fun _ => haside hnot rfl rfl rfl⟩
  have hother : SleepRequest.armSleepCycle epoch ≠ .armSleepCycle 0 := by
    simpa using hzero
  rw [sessionResponse, if_neg hother]
  by_cases hepoch : epoch = published c rs
  · obtain ⟨hresult, hlatch⟩ := armSleepCycle_matched ht.running hzero
      (hepoch.trans ht.pipelineEpoch.symm)
    have hlast : m.sleepImageLastArmEpoch ≤ epoch := hepoch ▸ h.last_le
    have hsession := h.armSleepCycle_session ht hzero hepoch
    have hpipeline := h.armSleepCycle_latch hzero hepoch
    by_cases hsame : epoch = m.sleepImageLastArmEpoch
    · have hnot : ¬ Opens c rs epoch := fun hopens =>
        absurd (h.opens_iff.mp hopens).2.2 (by omega)
      rw [if_pos hsame] at hsession hpipeline
      rw [hpipeline] at hresult hlatch
      rw [hsession, hresult]
      refine ⟨⟨fun _ hc => hnot (hclash.mp hc).1, fun _ => rfl⟩, fun _ => ?_⟩
      exact haside hnot rfl rfl (hlatch.trans h.latch.symm)
    have hopens : Opens c rs epoch := h.opens_iff.mpr ⟨hepoch, hzero, by omega⟩
    rw [if_neg hsame] at hsession hpipeline
    rcases Option.eq_none_or_eq_some m.pendingSleepCycleArm with hpending | ⟨e, hpending⟩
    · -- no cycle is open, and both take the arm
      have hnone : ¬ Clashes c rs (.armSleepCycle epoch) := by
        rw [hclash]
        rintro ⟨-, e, hopen⟩
        rw [h.isOpen, hpending] at hopen
        cases hopen
      rw [hpending, Option.getD_none, if_neg (not_not.mpr rfl)] at hpipeline
      rw [hpipeline] at hresult hlatch
      rw [hsession, hresult]
      exact ⟨⟨fun _ => hnone, fun _ => rfl⟩, fun _ => h.opened hopens hlatch rfl rfl hpending⟩
    · -- a cycle is open: the session takes the arm, the pipeline's latch refuses it
      have hopen : IsOpen c rs e := (h.isOpen e).mpr hpending
      have hclashes : Clashes c rs (.armSleepCycle epoch) := hclash.mpr ⟨hopens, e, hopen⟩
      rw [hpending, Option.getD_some, if_pos hopen.ne_zero] at hpipeline
      rw [hpipeline] at hresult
      rw [hsession, hresult]
      exact ⟨⟨nofun, fun hnot => absurd hclashes hnot⟩, fun hnot => absurd hclashes hnot⟩
  · -- the epoch is not that of the newest catalog
    have hnot : ¬ Opens c rs epoch := fun hopens => hepoch hopens.1.symm
    have hmismatched : epoch ≠ s.sleepImageCatalogEpoch := ht.pipelineEpoch ▸ hepoch
    rw [armSleepCycle_mismatched (Or.inr hmismatched)]
    unfold M3State.armSleepCycle
    rw [if_neg hzero, if_neg (ht.catalogEpoch ▸ hepoch)]
    exact ⟨⟨fun _ hc => hnot (hclash.mp hc).1, fun _ => rfl⟩, fun _ => haside hnot rfl rfl rfl⟩

/-- The response to a disarm is the pipeline's. -/
theorem Latched.disarm (ht : Tracks c rs m s) (h : Latched c rs m s) (epoch : Nat) :
    (m.disarmSleepCycle epoch).1 = (s.disarmSleepCycle epoch).1 ∧
      Latched c (rs ++ [.disarmSleepCycle epoch]) (m.disarmSleepCycle epoch).2
        (s.disarmSleepCycle epoch).2 := by
  have haside {m' : M3State} {s' : Pipeline} (hnot : ¬ IsOpen c rs epoch)
      (hpending : m'.pendingSleepCycleArm = m.pendingSleepCycleArm)
      (hlast : m'.sleepImageLastArmEpoch = m.sleepImageLastArmEpoch)
      (hlatch : s'.sleepImageLatch = s.sleepImageLatch) :
      Latched c (rs ++ [.disarmSleepCycle epoch]) m' s' := by
    refine h.aside hlatch hpending hlast nofun fun e heq => ?_
    rw [← SleepRequest.disarmSleepCycle.inj heq]
    exact hnot
  have hlatch : (s.disarmSleepCycle epoch).2.sleepImageLatch =
      ((keptLatch m).disarmSleepCycle epoch).2 := by
    rw [← h.latch]
    exact congrArg SleepView.latch (disarmSleepCycle_view s epoch).1
  have hresult := disarmSleepCycle_result s epoch
  rw [h.latch] at hresult
  unfold SleepImageLatch.disarmSleepCycle at hresult hlatch
  unfold M3State.disarmSleepCycle
  rw [hresult, ht.deferred]
  by_cases hzero : epoch = 0
  · rw [if_pos hzero] at hlatch
    rw [if_pos hzero, if_pos hzero]
    exact ⟨rfl, haside (fun hopen => hopen.ne_zero hzero) rfl rfl (hlatch.trans h.latch.symm)⟩
  rw [if_neg hzero] at hlatch
  rw [if_neg hzero, if_neg hzero]
  dsimp only
  rcases Option.eq_none_or_eq_some m.pendingSleepCycleArm with hpending | ⟨e, hpending⟩
  · -- no cycle is open, in the session or in the latch
    have hactive : (keptLatch m).activeEpoch = 0 := by simp [keptLatch, hpending]
    rw [if_pos hactive] at hlatch
    rw [if_pos hactive, if_neg (by simp [hpending]), if_neg (by simp [hpending])]
    refine ⟨rfl, haside (fun hopen => ?_) rfl rfl (hlatch.trans h.latch.symm)⟩
    rw [h.isOpen, hpending] at hopen
    cases hopen
  have hopen : IsOpen c rs e := (h.isOpen e).mpr hpending
  have hactive : (keptLatch m).activeEpoch = e := by simp [keptLatch, hpending]
  have hne : (keptLatch m).activeEpoch ≠ 0 := hactive ▸ hopen.ne_zero
  rw [if_neg hne] at hlatch
  rw [if_neg hne]
  by_cases heq : epoch = e
  · -- the open cycle ends in both
    subst heq
    rw [if_neg (not_not.mpr hactive.symm)] at hlatch
    rw [if_neg (not_not.mpr hactive.symm), if_pos hpending]
    refine ⟨rfl, hlatch, fun e' => ?_, fun e' he' => ?_, fun hlast => ?_⟩
    · rw [isOpen_append_singleton, h.isOpen, hpending]
      constructor
      · rintro (⟨⟨⟩, hdisarm⟩ | ⟨hr, -⟩)
        · exact absurd rfl hdisarm
        · cases hr
      · rintro ⟨⟩
    · rcases askedFor_append_singleton.mp he' with hasked | ⟨hr, -⟩
      · exact h.asked_le _ hasked
      · cases hr
    · exact askedFor_append_singleton.mpr (Or.inl (h.asked hlast))
  · have hother : epoch ≠ (keptLatch m).activeEpoch := hactive ▸ heq
    have hnot : m.pendingSleepCycleArm ≠ some epoch := by
      rw [hpending]
      exact fun h => heq (Option.some.inj h).symm
    rw [if_pos hother] at hlatch
    rw [if_pos hother, if_neg hnot, if_pos (by simp [hpending])]
    refine ⟨rfl, haside ?_ rfl rfl (hlatch.trans h.latch.symm)⟩
    exact fun hopen => hnot ((h.isOpen epoch).mp hopen)

end

/-! ### The replay -/

section

variable {m : M3State} {s : Pipeline}

/-- The latch of the new pipeline: the kept arm counts if it names the newest catalog. -/
def replayedLatch (c : Settings) (rs : List SleepRequest) (m : M3State) : SleepImageLatch :=
  if m.pendingSleepCycleArm = some (published c rs) then
    ⟨.armed, published c rs, published c rs, .none, {}⟩
  else {}

/-- The kept catalog is published first, then the kept arm is sent. -/
theorem replayed_eq (c : Settings) (m : M3State) :
    m.replayed c =
      (let t : Pipeline := m.pendingSleepImageCatalog.elim {} fun r =>
        (({} : Pipeline).publishSleepImageCatalog c r.epoch r.width r.height r.entries
          r.selectedIndex r.mode).2
      ((m.pendingSleepCycleArm.elim t fun epoch => (t.armSleepCycle epoch).2).start.setEnabled
        true)) := by
  unfold M3State.replayed
  cases m.pendingSleepImageCatalog <;> cases m.pendingSleepCycleArm <;> rfl

theorem Tracks.replayed_view (h : Tracks c rs m s) (hne : m.pendingSleepCycleArm ≠ some 0) :
    sleepView (m.replayed c) = keptView m (replayedLatch c rs m) := by
  -- the pipeline once the kept catalog has been published
  have hcatalog : ∃ t : Pipeline, t.stopping = false ∧ sleepView t = keptView m {} ∧
      m.replayed c =
        ((m.pendingSleepCycleArm.elim t fun epoch => (t.armSleepCycle epoch).2).start.setEnabled
          true) := by
    rw [replayed_eq]
    unfold keptView
    cases hpending : m.pendingSleepImageCatalog with
    | none => exact ⟨{}, rfl, rfl, rfl⟩
    | some request =>
      have hvalid := h.valid request hpending
      have hepoch : ¬ request.epoch ≤ 0 := by
        simp only [SleepImageCatalogRequest.valid, Bool.and_eq_true, decide_eq_true_eq] at hvalid
        have hzero := hvalid.1.1.1.1
        omega
      have hpublish : ({} : Pipeline).publishSleepImageCatalog c request.epoch request.width
          request.height request.entries request.selectedIndex request.mode =
            (.accepted, install {} request) :=
        (publish_valid_pipeline hvalid rfl).trans (if_neg hepoch)
      simp only [Option.elim_some, hpublish]
      exact ⟨install {} request, rfl, rfl, rfl⟩
  obtain ⟨t, hrunning, hview, hreplayed⟩ := hcatalog
  have hstart (u : Pipeline) (hu : u.stopping = false) :
      sleepView (u.start.setEnabled true) = sleepView u := by
    unfold Pipeline.start Pipeline.setEnabled
    split_ifs <;> rfl
  have hepoch : t.sleepImageCatalogEpoch = published c rs :=
    (congrArg SleepView.catalogEpoch hview).trans h.keptEpoch
  have hlatch : t.sleepImageLatch = {} :=
    (congrArg SleepView.latch hview).trans (keptView_latch m {})
  rw [hreplayed]
  unfold replayedLatch
  rcases Option.eq_none_or_eq_some m.pendingSleepCycleArm with hpending | ⟨e, hpending⟩
  · have hnone : none ≠ some (published c rs) := (Option.some_ne_none _).symm
    rw [hpending, if_neg hnone]
    exact (hstart t hrunning).trans hview
  rw [hpending, Option.elim_some]
  obtain ⟨harm, hstopping⟩ := armSleepCycle_view t e
  rw [hstart _ (hstopping.trans hrunning), harm, hview]
  have he : e ≠ 0 := fun hzero => hne (hpending.trans (congrArg some hzero))
  -- the kept arm opens its cycle again only if it is for the kept catalog
  by_cases hmatch : e = published c rs
  · rw [(armSleepCycle_matched hrunning he (hmatch.trans hepoch.symm)).2, hlatch,
      if_pos (congrArg some hmatch), ← hmatch]
    have haccepted : (({} : SleepImageLatch).armSleepCycle e).2 = ⟨.armed, e, e, .none, {}⟩ := by
      unfold SleepImageLatch.armSleepCycle
      simp [he]
    rw [haccepted]
    exact keptView_withLatch m _ _
  · have hother : some e ≠ some (published c rs) := fun h => hmatch (Option.some.inj h)
    rw [armSleepCycle_mismatched (Or.inr (hepoch ▸ hmatch)), hlatch, if_neg hother]
    exact keptView_withLatch m _ _

/-- The new pipeline has the latch it would have had. -/
theorem Latched.replayed_iff (h : Latched c rs m s) :
    replayedLatch c rs m = keptLatch m ↔ Replayable c rs := by
  unfold replayedLatch keptLatch Replayable
  rw [h.isOpen]
  rcases Option.eq_none_or_eq_some m.pendingSleepCycleArm with hpending | ⟨e, hpending⟩
  · rw [hpending, if_neg nofun]
    constructor
    · intro heq
      have hlast : 0 = m.sleepImageLastArmEpoch := congrArg SleepImageLatch.lastArmedEpoch heq
      refine Or.inl fun e hasked => ?_
      have hle := h.asked_le e hasked
      obtain ⟨_, _, _, _, hne⟩ := hasked
      omega
    · rintro (hnone | hopen)
      · have hlast : m.sleepImageLastArmEpoch = 0 := by
          by_contra hne
          exact hnone _ (h.asked hne)
        rw [hlast]
        rfl
      · cases hopen
  have hopen : IsOpen c rs e := (h.isOpen e).mpr hpending
  have hasked : AskedFor c rs e := by
    obtain ⟨pre, post, heq, hopens, -⟩ := hopen
    exact ⟨pre, post, heq, hopens.1, hopens.2.1⟩
  rw [hpending]
  by_cases hnewest : e = published c rs
  · have hlast : m.sleepImageLastArmEpoch = e :=
      Nat.le_antisymm (hnewest ▸ h.last_le) (h.asked_le e hasked)
    rw [if_pos (congrArg some hnewest), hlast, ← hnewest]
    exact iff_of_true rfl (Or.inr rfl)
  · have hother : some e ≠ some (published c rs) := fun h => hnewest (Option.some.inj h)
    rw [if_neg hother]
    refine iff_of_false (fun heq => ?_) ?_
    · exact hopen.ne_zero (congrArg SleepImageLatch.activeEpoch heq).symm
    · rintro (hnone | heq)
      · exact hnone e hasked
      · exact hother heq

end

/-! ### A whole sequence -/

theorem length_serve {σ ρ α : Type} (handle : σ → ρ → α × σ) (s : σ) (rs : List ρ) :
    (serve handle s rs).1.length = rs.length := by
  induction rs generalizing s with
  | nil => rfl
  | cons r rs ih => rw [serve_cons, List.length_cons, List.length_cons, ih]

/-- One request: the response is that of a session with a pipeline unless the request clashes. -/
theorem Latched.handle {m : M3State} {s : Pipeline} (ht : Tracks c rs m s) (h : Latched c rs m s)
    (r : SleepRequest) :
    ((m.handle c r).1 = sessionResponse r (handlePipeline c s r).1 ↔ ¬ Clashes c rs r) ∧
      (¬ Clashes c rs r → Latched c (rs ++ [r]) (m.handle c r).2 (handlePipeline c s r).2) := by
  cases r with
  | publishSleepImageCatalog request =>
    obtain ⟨hresult, hlatched⟩ := h.publish ht request
    have hnot : ¬ Clashes c rs (.publishSleepImageCatalog request) := nofun
    exact ⟨iff_of_true (congrArg SleepResponse.published hresult) hnot, fun _ => hlatched⟩
  | armSleepCycle epoch => exact h.arm ht epoch
  | disarmSleepCycle epoch =>
    obtain ⟨hresult, hlatched⟩ := h.disarm ht epoch
    have hnot : ¬ Clashes c rs (.disarmSleepCycle epoch) := nofun
    exact ⟨iff_of_true (congrArg SleepResponse.disarmed hresult) hnot, fun _ => hlatched⟩

theorem orderly_append_singleton :
    Orderly c (rs ++ [r]) ↔ Orderly c rs ∧ ¬ Clashes c rs r := eachEvent_append_singleton

section

variable {s : Pipeline}

theorem tracks_deferred (hs : Untouched s) (c : Settings) (rs : List SleepRequest) :
    Tracks c rs (deferred c rs).2 (serve (handlePipeline c) s rs).2 := by
  unfold deferred
  induction rs using List.reverseRecOn with
  | nil => exact tracks_init hs
  | append_singleton rs r ih =>
    rw [serve_append_singleton, serve_append_singleton]
    exact ih.handle r

theorem latched_deferred (hs : Untouched s) (h : Orderly c rs) :
    Latched c rs (deferred c rs).2 (serve (handlePipeline c) s rs).2 := by
  induction rs using List.reverseRecOn with
  | nil => exact latched_init hs
  | append_singleton rs r ih =>
    obtain ⟨horderly, hclash⟩ := orderly_append_singleton.mp h
    have hstep := ((ih horderly).handle (tracks_deferred hs c rs) r).2 hclash
    unfold deferred at hstep ⊢
    rwa [serve_append_singleton, serve_append_singleton]

/-- The responses are those of a session with a pipeline exactly if no request clashes. -/
theorem responses_iff_orderly (hs : Untouched s) (c : Settings) (rs : List SleepRequest) :
    (deferred c rs).1 = List.zipWith sessionResponse rs (serve (handlePipeline c) s rs).1 ↔
      Orderly c rs := by
  induction rs using List.reverseRecOn with
  | nil => exact iff_of_true rfl (eachEvent_nil _)
  | append_singleton rs r ih =>
    have htracks := tracks_deferred hs c rs
    have hlength : rs.length = (serve (handlePipeline c) s rs).1.length :=
      (length_serve _ _ _).symm
    unfold deferred at htracks ih ⊢
    rw [serve_append_singleton, serve_append_singleton, List.zipWith_append hlength,
      List.zipWith_cons_cons, List.zipWith_nil_right, List.append_singleton_inj, ih,
      orderly_append_singleton]
    refine and_congr_right fun horderly => ?_
    have hlatched := latched_deferred hs horderly
    exact (hlatched.handle htracks r).1

/-- They are the pipeline's own exactly if moreover no arm has epoch `0`. -/
theorem responses_iff_pipeline (hs : Untouched s) (c : Settings) (rs : List SleepRequest) :
    (deferred c rs).1 = (serve (handlePipeline c) s rs).1 ↔
      Orderly c rs ∧ .armSleepCycle 0 ∉ rs := by
  induction rs using List.reverseRecOn with
  | nil => exact iff_of_true rfl ⟨eachEvent_nil _, List.not_mem_nil⟩
  | append_singleton rs r ih =>
    have htracks := tracks_deferred hs c rs
    have hlatched (horderly : Orderly c rs) := latched_deferred hs horderly
    unfold deferred at htracks hlatched ih ⊢
    rw [serve_append_singleton, serve_append_singleton, List.append_singleton_inj, ih,
      orderly_append_singleton, List.mem_append, List.mem_singleton, not_or]
    have hlast (horderly : Orderly c rs) : ((serve (M3State.handle c) {} rs).2.handle c r).1 =
        (handlePipeline c (serve (handlePipeline c) s rs).2 r).1 ↔
          ¬ Clashes c rs r ∧ .armSleepCycle 0 ≠ r := by
      rw [← ((hlatched horderly).handle htracks r).1, sessionResponse]
      by_cases hzero : r = .armSleepCycle 0
      · subst hzero
        refine iff_of_false (fun heq => ?_) fun h => h.2 rfl
        simp only [M3State.handle, handlePipeline, armSleepCycle_mismatched (Or.inl rfl),
          M3State.armSleepCycle] at heq
        cases heq
      · rw [if_neg hzero]
        exact ⟨fun heq => ⟨heq, fun h => hzero h.symm⟩, fun h => h.1⟩
    constructor
    · rintro ⟨⟨horderly, hmem⟩, heq⟩
      obtain ⟨hclash, hne⟩ := (hlast horderly).mp heq
      exact ⟨⟨horderly, hclash⟩, hmem, hne⟩
    · rintro ⟨⟨horderly, hclash⟩, hmem, hne⟩
      exact ⟨⟨horderly, hmem⟩, (hlast horderly).mpr ⟨hclash, hne⟩⟩

/-- The pipeline that `MaybeStartM3` creates is in the state it would have had exactly if the last
cycle opened can be replayed. -/
theorem view_iff_replayable (hs : Untouched s) (h : Orderly c rs) :
    ((deferred c rs).2.maybeStartM3 c).pipeline.map sleepView =
        some (sleepView (serve (handlePipeline c) s rs).2) ↔ Replayable c rs := by
  have htracks := tracks_deferred hs c rs
  have hlatched := latched_deferred hs h
  have hne : (deferred c rs).2.pendingSleepCycleArm ≠ some 0 :=
    fun hzero => ((hlatched.isOpen 0).mpr hzero).ne_zero rfl
  have hstart : ((deferred c rs).2.maybeStartM3 c).pipeline =
      some ((deferred c rs).2.replayed c) := by
    unfold M3State.maybeStartM3
    rw [htracks.deferred]
    rfl
  rw [hstart, Option.map_some, Option.some_inj, htracks.replayed_view hne, htracks.view,
    hlatched.latch, ← hlatched.replayed_iff]
  constructor
  · intro heq
    have hlatch := congrArg SleepView.latch heq
    rwa [keptView_latch, keptView_latch] at hlatch
  · exact fun heq => by rw [heq]

end

/-- When the deferral is faithful: to a session that has a pipeline, exactly if the requests are
orderly and replayable; to the pipeline itself, exactly if moreover no arm has epoch `0`. -/
theorem deferral_faithful_iff (c : Settings) (s : Pipeline) (hs : Untouched s)
    (rs : List SleepRequest) :
    (FaithfulToSession c s rs ↔ Orderly c rs ∧ Replayable c rs) ∧
      (FaithfulToPipeline c s rs ↔
        Orderly c rs ∧ Replayable c rs ∧ .armSleepCycle 0 ∉ rs) := by
  have hpasses : PassesOn { pipeline := some s } s :=
    ⟨rfl, hs.running, (congrArg SleepView.catalogEpoch hs.view).symm⟩
  obtain ⟨hresponses, hserved⟩ := hpasses.serve c rs
  constructor
  · unfold FaithfulToSession
    rw [hresponses, hserved.pipeline, responses_iff_orderly hs, Option.map_some]
    exact and_congr_right fun horderly => view_iff_replayable hs horderly
  · unfold FaithfulToPipeline
    rw [responses_iff_pipeline hs, and_assoc]
    refine and_congr_right fun horderly => ?_
    rw [view_iff_replayable hs horderly, and_comm]

/-! ### A cycle that is replayed, and one that is forgotten -/

/-- A publication of one gray image. -/
def pagePublication (pixels : List UInt8) (epoch : Nat) : SleepImageCatalogRequest where
  epoch := epoch
  width := 2480
  height := 1860
  entries := [⟨2480, 1860, pixels, pixels, []⟩]
  selectedIndex := 0
  mode := .opaqueImage

/-- It is valid on the colour product. -/
theorem exists_pagePublication : ∃ pixels, ∀ epoch, epoch ≠ 0 →
    offeredEpoch auraSettings (.publishSleepImageCatalog (pagePublication pixels epoch)) =
    epoch := by
  obtain ⟨pixels, hlength, hwhite⟩ := exists_white_plane auraCDeviceProfile
  refine ⟨pixels, fun epoch hne => if_pos ?_⟩
  have hvalidate := validate_page hlength (isPanelGray_of_white hwhite)
  simp [SleepImageCatalogRequest.valid, pagePublication, hne, hvalidate, auraSettings,
    auraCDeviceProfile]

/-- The first catalog, and the arm for it. -/
def armedRequests (pixels : List UInt8) : List SleepRequest :=
  [] ++ [.publishSleepImageCatalog (pagePublication pixels 1)] ++ [.armSleepCycle 1]

theorem armedRequests_open {pixels : List UInt8}
    (hpage : ∀ epoch, epoch ≠ 0 → offeredEpoch auraSettings
      (.publishSleepImageCatalog (pagePublication pixels epoch)) = epoch) :
    published auraSettings (armedRequests pixels) = 1 ∧
      Orderly auraSettings (armedRequests pixels) ∧
      IsOpen auraSettings (armedRequests pixels) 1 ∧
      ∀ e, AskedFor auraSettings (armedRequests pixels) e → e = 1 := by
  have hpublished : published auraSettings
      ([] ++ [.publishSleepImageCatalog (pagePublication pixels 1)]) = 1 := by
    rw [published_append_singleton, hpage 1 Nat.one_ne_zero]
    rfl
  have hnone (e : Nat) : ¬ AskedFor auraSettings
      ([] ++ [.publishSleepImageCatalog (pagePublication pixels 1)]) e := by
    rw [askedFor_append_singleton]
    rintro (hnil | ⟨heq, -⟩)
    · exact not_askedFor_nil hnil
    · cases heq
  have hclosed (e : Nat) : ¬ IsOpen auraSettings
      ([] ++ [.publishSleepImageCatalog (pagePublication pixels 1)]) e := by
    rw [isOpen_append_singleton]
    rintro (⟨hnil, -⟩ | ⟨heq, -⟩)
    · exact not_isOpen_nil hnil
    · cases heq
  refine ⟨?_, ?_, ?_, fun e he => ?_⟩
  · exact (published_append_of_not_publication rfl).trans hpublished
  · refine orderly_append_singleton.mpr ⟨?_, ?_⟩
    · exact orderly_append_singleton.mpr ⟨eachEvent_nil _, nofun⟩
    · rintro ⟨-, -, -, e, hopen⟩
      exact hclosed e hopen
  · exact isOpen_append_singleton.mpr (Or.inr ⟨rfl, hpublished, Nat.one_ne_zero, hnone 1⟩)
  · rcases askedFor_append_singleton.mp he with hasked | ⟨heq, -⟩
    · exact absurd hasked (hnone e)
    · exact (SleepRequest.armSleepCycle.inj heq).symm

theorem untouched_init : Untouched {} := ⟨rfl, rfl⟩

/-- A catalog and its arm are replayed. -/
theorem deferral_faithful_of_armed :
    ∃ pixels, FaithfulToPipeline auraSettings {} (armedRequests pixels) := by
  obtain ⟨pixels, hpage⟩ := exists_pagePublication
  obtain ⟨hpublished, horderly, hopen, -⟩ := armedRequests_open hpage
  have hreplayable : Replayable auraSettings (armedRequests pixels) :=
    Or.inr (hpublished.symm ▸ hopen)
  have hiff := deferral_faithful_iff auraSettings {} untouched_init (armedRequests pixels)
  exact ⟨pixels, hiff.2.mpr ⟨horderly, hreplayable, by simp [armedRequests]⟩⟩

/-- While the cycle of the first catalog is armed, the arm for the second is taken, where a pipeline
refuses it. -/
theorem armed_cycle_overwritten : ∃ pixels, let rs := armedRequests pixels ++
      [.publishSleepImageCatalog (pagePublication pixels 2)] ++ [.armSleepCycle 2]
    (deferred auraSettings rs).1 ≠ (serve (handlePipeline auraSettings) {} rs).1 ∧
      ¬ FaithfulToPipeline auraSettings {} rs ∧ ¬ FaithfulToSession auraSettings {} rs := by
  obtain ⟨pixels, hpage⟩ := exists_pagePublication
  obtain ⟨hpublished, -, hopen, hasked⟩ := armedRequests_open hpage
  have hpublished' : published auraSettings (armedRequests pixels ++
      [.publishSleepImageCatalog (pagePublication pixels 2)]) = 2 := by
    rw [published_append_singleton, hpublished, hpage 2 (by decide)]
    rfl
  have hclash : Clashes auraSettings (armedRequests pixels ++
      [.publishSleepImageCatalog (pagePublication pixels 2)]) (.armSleepCycle 2) := by
    refine ⟨2, rfl, ⟨hpublished', by decide, fun h => ?_⟩, 1, ?_⟩
    · rcases askedFor_append_singleton.mp h with h | ⟨heq, -⟩
      · exact absurd (hasked 2 h) (by decide)
      · cases heq
    · exact isOpen_append_singleton.mpr (Or.inl ⟨hopen, nofun⟩)
  have hnot : ¬ Orderly auraSettings (armedRequests pixels ++
      [.publishSleepImageCatalog (pagePublication pixels 2)] ++ [.armSleepCycle 2]) :=
    fun h => (orderly_append_singleton.mp h).2 hclash
  have hpipeline := mt (responses_iff_pipeline untouched_init auraSettings _).mp (mt And.left hnot)
  have hsession := mt (responses_iff_orderly untouched_init auraSettings _).mp hnot
  have hpasses : PassesOn { pipeline := some {} } {} := ⟨rfl, rfl, rfl⟩
  refine ⟨pixels, hpipeline, fun h => hpipeline h.1, fun h => hsession ?_⟩
  exact h.1.trans (hpasses.serve auraSettings _).1

end EinkLab.CaptureSession
