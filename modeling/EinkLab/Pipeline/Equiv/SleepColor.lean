import EinkLab.LowerEngine.Equiv.SleepColor
import EinkLab.Pipeline.Equiv.Background
import EinkLab.Pipeline.Equiv.Steps
import EinkLab.Pipeline.Panel
import EinkLab.PresentationAdapter.Equiv.Carries

/-!
# The colour of the sleep frames of a run

`sleep_color`: on a colour panel every sleep frame that the backend accepts shows its own plane, in
every run in which the worker replaces no capture that the engine could read.  A replaced capture
keeps the captured plane, which `Submit` prefers: `replaced_capture_shown` is such a run.

`ShowsOwn` is what every frame on its way satisfies; `Owned` carries it through the pipeline.
-/

namespace EinkLab.Pipeline

open Transition LowerEngine

variable {c : Settings} {s s' : Pipeline} {a : Action} {evs : List Event}

/-! ### Replacements -/

/-- The latch replaces the frame: a dark frame of an armed cycle, with a candidate that fits it. -/
def Replaces (l : SleepImageLatch) (frame : ConvertedFrame OwnedGrayscaleBuffer)
    (selector : Option (Selector OwnedGrayscaleBuffer)) : Prop :=
  l.state = .armed ∧ frame.IsDark ∧ ∃ select, selector = some select ∧
    ((select frame.dirtyRect.right frame.dirtyRect.bottom).fitting frame.dirtyRect.right
      frame.dirtyRect.bottom
      (frame.dirtyRect.right.toNat * frame.dirtyRect.bottom.toNat)).isSome = true

theorem replaces_of_decision {l : SleepImageLatch} {frame : ConvertedFrame OwnedGrayscaleBuffer}
    {selector : Option (Selector OwnedGrayscaleBuffer)}
    (h : (l.evaluate frame selector).decision = .replace) : Replaces l frame selector := by
  cases SleepImageLatch.evaluate_cases l frame selector with
  | ignored _ _ _ hdecision _ => simp [hdecision] at h
  | unarmed _ _ _ _ hdecision _ =>
    rw [hdecision] at h
    split at h <;> cases h
  | fallback _ _ _ _ hdecision => simp [hdecision] at h
  | replaced buffer hdark harmed _ _ _ _ =>
    refine ⟨harmed, hdark, ?_⟩
    obtain ⟨bytes, hbytes, hmaximum⟩ := hdark
    have hbright : ¬ (summarize bytes l.state).maximumGray > kSleepImageMaximumGray :=
      UInt8.not_lt.mpr hmaximum
    unfold SleepImageLatch.evaluate at h
    rw [hbytes] at h
    dsimp only at h
    rw [if_neg hbright, harmed, SleepImageLatch.length_of_fullFrame hbytes] at h
    cases selector with
    | none => cases h
    | some select =>
      refine ⟨select, rfl, ?_⟩
      dsimp only at h
      split at h
      · cases h
      · next hfit => rw [hfit]; rfl

/-- The worker is about to replace a capture that the engine can read. -/
def ReplacesReadable (c : Settings) (s : Pipeline) : Prop :=
  ∃ job conversion, s.worker = .checked job conversion ∧
    Replaces s.sleepImageLatch
      ⟨Rect.full conversion.grayscale.width conversion.grayscale.height,
        some conversion.grayscale⟩ s.sleepSelector ∧
    readable c.profile (engineCompose c job.composition) = true

/-! ### Frames that show their own plane -/

/-- A sleep frame shows nothing but its own. -/
def ShowsOwn (c : Settings) (f : Frame) : Prop := f.sleepImageEpoch ≠ 0 → OwnsColor c.profile f

theorem durable_showsOwn (c : Settings) : PresentationAdapter.Durable (ShowsOwn c) := by
  constructor
  · intro f hf hepoch
    have hown := hf hepoch
    exact ⟨hepoch, hown.plane.imp (fun hnone => ⟨hnone.1, rfl⟩) id⟩
  · intro f old hf _ hepoch
    unfold PresentationAdapter.followPending at hepoch ⊢
    split at hepoch
    · next hcond => exact absurd hcond.1 hepoch
    · next hcond =>
      rw [if_neg hcond]
      exact hf hepoch

theorem showsOwn_sleepImageFrame (epoch : Nat) (now : TimePoint)
    (image : Int × Int × List UInt8 × List UInt8) :
    ShowsOwn c (s.sleepImageFrame c epoch now image) :=
  fun hepoch => ⟨hepoch, Or.inl ⟨rfl, rfl⟩⟩

theorem showsOwn_finalFrame {f : Frame} (h : ShowsOwn c f) : ShowsOwn c (s.finalFrame f) := by
  unfold finalFrame
  split
  · exact (durable_showsOwn c).clear f h
  · exact h

theorem showsOwn_captureFrame (hcfa : c.profile.hasColorCfa = true) {job : Job} {f : Frame}
    {decision : SleepImageDecision} {epoch : Nat} {refresh : DiagnosticRefresh × Nat}
    {now : TimePoint}
    (h : decision = .replace → readable c.profile (engineCompose c job.composition) = false) :
    ShowsOwn c (captureFrame c job f decision epoch refresh now) := by
  intro hepoch
  refine ⟨hepoch, Or.inr ⟨?_, ?_⟩⟩
  · show (engineCompose c job.composition).isSome = true
    simp [engineCompose, hcfa]
  · refine h ?_
    by_contra hkept
    exact hepoch (if_neg hkept)

/-! ### The invariant -/

/-- Every frame on its way shows its own, and so will the one the worker is at. -/
structure Owned (c : Settings) (s : Pipeline) : Prop where
  adapter : PresentationAdapter.Carries (ShowsOwn c) s.adapter
  evaluated : ∀ job f decision epoch demand, s.worker = .evaluated job f decision epoch demand →
    decision = .replace → readable c.profile (engineCompose c job.composition) = false
  assembled : ∀ f, s.worker = .assembled f → ShowsOwn c f

theorem owned_init : Owned c {} := by
  refine ⟨⟨fun f hf => ?_, fun f hf => ?_⟩, fun job f decision epoch demand hw => ?_,
    fun f hw => ?_⟩
  · cases hf
  · cases hf
  · cases hw
  · cases hw

/-- A step keeps it, unless it replaces a readable capture. -/
theorem Owned.step (h : Owned c s) (hcfa : c.profile.hasColorCfa = true)
    (havoid : a = .evaluate → ¬ ReplacesReadable c s) (hs : step c s a = some (s', evs)) :
    Owned c s' := by
  obtain ⟨hadapter, hworker⟩ := steps_of_step hs
  have hcarries : PresentationAdapter.Carries (ShowsOwn c) s'.adapter := by
    cases hadapter with
    | same heq => exact heq ▸ h.adapter
    | stepped act evs hact henqueue =>
      refine h.adapter.step (durable_showsOwn c) (fun f hf _ => ?_) hact
      cases henqueue f hf with
      | sleepImage epoch now image => exact showsOwn_sleepImageFrame epoch now image
      | capture f _ hw => exact showsOwn_finalFrame (h.assembled f hw)
  cases hworker with
  | same heq =>
    refine ⟨hcarries, ?_, ?_⟩
    · rw [heq]
      exact h.evaluated
    · rw [heq]
      exact h.assembled
  | plain hevaluated hassembled =>
    refine ⟨hcarries, fun job f decision epoch demand hw => ?_, fun f hw => ?_⟩
    · exact absurd hw (hevaluated job f decision epoch demand)
    · exact absurd hw (hassembled f)
  | evaluated job conversion demand ha _ hw heq =>
    refine ⟨hcarries, fun job' f decision epoch demand' hw' hdecision => ?_, fun f hw' => ?_⟩
    · obtain ⟨rfl, -, rfl, -, -⟩ := WorkerPhase.evaluated.inj (heq.symm.trans hw')
      rw [← Bool.not_eq_true]
      intro hread
      exact havoid ha ⟨job, conversion, hw, replaces_of_decision hdecision, hread⟩
    · rw [heq] at hw'
      cases hw'
  | assembled job f decision epoch demand refresh now _ _ _ _ hw heq =>
    refine ⟨hcarries, fun job' f' decision' epoch' demand' hw' => ?_, fun g hg => ?_⟩
    · rw [heq] at hw'
      cases hw'
    · obtain rfl := WorkerPhase.assembled.inj (heq.symm.trans hg)
      exact showsOwn_captureFrame hcfa (h.evaluated job f decision epoch demand hw)

/-! ### Runs on the panel -/

/-- The step does not replace a capture that the engine can read. -/
def AvoidsReplacement (c : Settings) (x : Panel) (act : Panel.Action) : Prop :=
  act = .pipeline .evaluate → ¬ ReplacesReadable c x.pipeline

/-- An accepted sleep frame shows its own plane. -/
def SubmittedOwn (x : Submitted) : Prop :=
  x.accepted = true → x.frame.sleepImageEpoch ≠ 0 → MapsColor x.calls (sleepColor x.frame)

theorem step_pipeline {x y : Panel} {evs : List Panel.Event}
    (h : Panel.step c x (.pipeline a) = some (y, evs)) :
    ∃ r, step c x.pipeline a = some r ∧ y = ⟨r.1, x.backend⟩ ∧ evs = r.2.map .pipeline := by
  unfold Panel.step at h
  split at h
  · cases h
  · next heq =>
    obtain rfl := Panel.Action.pipeline.inj heq
    obtain ⟨r, hr, hnext⟩ := Option.map_eq_some_iff.mp h
    obtain ⟨rfl, rfl⟩ := Prod.mk.inj hnext
    exact ⟨r, hr, rfl, rfl⟩
  · next heq => cases heq

/-- A step keeps every frame its own, and so is what it submits. -/
theorem owned_panel_step {x y : Panel} {act : Panel.Action} {evs : List Panel.Event}
    (h : Owned c x.pipeline) (hcfa : c.profile.hasColorCfa = true) (hok : AvoidsReplacement c x act)
    (hs : Panel.step c x act = some (y, evs)) :
    Owned c y.pipeline ∧ ∀ e, .submitted e ∈ evs → SubmittedOwn e := by
  cases act with
  | pipeline a =>
    obtain ⟨r, hr, rfl, rfl⟩ := step_pipeline hs
    refine ⟨h.step hcfa (fun ha => hok (congrArg _ ha)) hr, fun e he => ?_⟩
    obtain ⟨_, -, heq⟩ := List.mem_map.mp he
    cases heq
  | submit calls now =>
    unfold Panel.step Panel.submit at hs
    dsimp only at hs
    split at hs
    · next frame trailing start hphase =>
      split at hs
      · cases hs
      · next result backend hreplay =>
        obtain ⟨r, hr, hnext⟩ := Option.map_eq_some_iff.mp hs
        obtain ⟨rfl, rfl⟩ := Prod.mk.inj hnext
        refine ⟨h.step hcfa (fun ha => ?_) hr, fun e he haccepted hsleep => ?_⟩
        · cases ha
        obtain rfl : e = ⟨frame, calls, result.isSome⟩ := by simpa using he
        have hown : OwnsColor c.profile frame :=
          h.adapter.inFlight frame (by rw [hphase]; rfl) hsleep
        obtain ⟨u, hu⟩ := Option.isSome_iff_exists.mp haccepted
        exact (Procedure.sat_replay (sat_submit_sleep hcfa hown) hreplay).1 u hu
    · cases hs

/-- **The colour of sleep frames**: on a colour panel, in every run in which no capture that the
engine can read is replaced, every sleep frame that the backend accepts shows its own plane. -/
theorem sleep_color (hcfa : c.profile.hasColorCfa = true) {b : Backend} {as : List Panel.Action}
    {log : List Panel.Event} {t : Panel}
    (h : (Panel.system c).Run (AvoidsReplacement c) { backend := b } as log t) :
    ∀ e, .submitted e ∈ log → SubmittedOwn e := by
  have hall : Owned c t.pipeline ∧ ∀ e, .submitted e ∈ log → SubmittedOwn e := by
    refine h.induct (fun _ log t => Owned c t.pipeline ∧ ∀ e, .submitted e ∈ log → SubmittedOwn e)
      ⟨owned_init, fun e he => absurd he List.not_mem_nil⟩ ?_
    rintro as log x act y evs ⟨howned, hlog⟩ hok hs
    obtain ⟨hnext, hevs⟩ := owned_panel_step howned hcfa hok hs
    refine ⟨hnext, fun e he => ?_⟩
    rcases List.mem_append.mp he with hold | hnew
    · exact hlog e hold
    · exact hevs e hnew
  exact hall.2

/-! ### Sleep frames on the colour product -/

/-- An environment that takes every update. -/
def willingVendor : (o : VendorCall) → VendorAnswer o
  | .boolProperty _ _ => true
  | .intProperty _ defaultValue => defaultValue
  | .qualityConfig | .grayConfig | .vividConfig => 0
  | .now | .sleepUntil _ | .sleepFor _ => (0 : Nat)
  | .lockAsync buffer => buffer.mapping
  | .unlock _ => ()
  | .mapVpcoa _ => ((0 : Int), [])
  | .auraGray _ => []
  | .submittedMarker | .displayingMarker => (0 : UInt32)
  | .update _ => kObservedUpdateAcceptedResult

/-- The submission of a frame to it. -/
def willing (frame : Frame) : List VendorEvent × (Option Unit × Backend) :=
  ((submit auraCDeviceProfile frame).run { state := .initialized }).drive willingVendor

/-- A run of the pipeline is one of the panel, up to a submission. -/
theorem run_panel (ok : Panel → Panel.Action → Prop) (b : Backend) {as : List Action}
    {log : List Event} {t : Pipeline} (h : (system c).Run System.anyAction s as log t)
    (hok : ∀ a ∈ as, (∀ accepted now, a ≠ .submitReturn accepted now) ∧ ∀ x, ok x (.pipeline a)) :
    (Panel.system c).Run ok ⟨s, b⟩ (as.map .pipeline) (log.map .pipeline) ⟨t, b⟩ := by
  induction h with
  | nil => exact .nil
  | @snoc as log t a u evs hrun _ hs ih =>
    obtain ⟨hreturn, hallowed⟩ := hok a (by simp)
    have hrun' := ih fun a' ha' => hok a' (List.mem_append_left [a] ha')
    have hstep : Panel.step c ⟨t, b⟩ (.pipeline a) = some (⟨u, b⟩, evs.map .pipeline) := by
      have hmapped : Panel.step c ⟨t, b⟩ (.pipeline a) =
          (step c t a).map fun r => (⟨r.1, b⟩, r.2.map .pipeline) := by
        cases a <;> first | rfl | exact absurd rfl (hreturn _ _)
      have hnext : step c t a = some (u, evs) := hs
      rw [hmapped, hnext]
      rfl
    rw [List.map_append, List.map_append]
    exact hrun'.snoc (hallowed _) hstep

/-- The frame in hand is accepted by a willing environment. -/
theorem submit_willing {frame : Frame} {trailing : Bool} {start : TimePoint}
    (hphase : s.adapter.worker = .submitting frame trailing start) (hclock : s.adapter.clock ≤ 1)
    (haccepted : (willing frame).2.1 = some ()) :
    ∃ y, (Panel.system auraSettings).step ⟨s, { state := .initialized }⟩
        (.submit (willing frame).1 1) =
      some (y,
        [.pipeline (.submitted frame true), .submitted ⟨frame, (willing frame).1, true⟩]) := by
  have hreplay : ((submit auraSettings.profile frame).run { state := .initialized }).replay
      (willing frame).1 = some (some (), (willing frame).2.2) := by
    rw [← haccepted]
    exact Program.replay_drive willingVendor _
  have hreturn : ∃ adapter, s.adapter.submitReturn true 1 = some adapter := by
    unfold PresentationAdapter.submitReturn
    rw [hphase]
    dsimp only
    rw [if_neg (Int.not_lt.mpr hclock)]
    exact ⟨_, rfl⟩
  obtain ⟨adapter, hadapter⟩ := hreturn
  refine ⟨⟨{ s with adapter := adapter }, (willing frame).2.2⟩, ?_⟩
  simp only [Panel.system, Panel.step, Panel.submit, hphase, hreplay, Option.isSome_some, step,
    hadapter,
    onAdapter, submittedEvents, Option.map_some, List.map_cons, List.map_nil]
  rfl

/-- A catalog of one gray image that covers the page. -/
def sleepCatalog (pixels : List UInt8) : EinkSleepImageCatalog :=
  ⟨2480, 1860, [⟨2480, 1860, pixels, pixels, []⟩]⟩

/-- Its image. -/
def sleepCandidate (pixels : List UInt8) : SleepImageCandidate OwnedGrayscaleBuffer where
  buffer := some ⟨2480, 1860, pixels⟩
  alpha := some pixels
  width := 2480
  height := 1860

/-- The pipeline runs, with the catalog. -/
def published (pixels : List UInt8) : Pipeline where
  adapter := ({} : PresentationAdapter).start
  worker := .waiting
  hasBeenEnabled := true
  enabled := true
  started := true
  sleepImageCatalog := some (sleepCatalog pixels)
  sleepImageCatalogEpoch := 1

def publishActions (pixels : List UInt8) : List Action :=
  [.start, .startThreads, .setEnabled true,
    .publishSleepImageCatalog 1 2480 1860 [⟨2480, 1860, pixels, pixels, []⟩] 0 .opaqueImage]

section

variable {pixels : List UInt8}

theorem validate_page (hlength : pixels.length = auraCDeviceProfile.panelBytes)
    (hgray : isPanelGray pixels = true) :
    EinkSleepImageCatalog.validate 2480 1860 [⟨2480, 1860, pixels, pixels, []⟩] = .accepted := by
  have hprofile : findEinkDeviceProfile 2480 1860 = some auraCDeviceProfile := rfl
  have hentry : EinkSleepImageCatalog.validateEntry auraCDeviceProfile
      ⟨2480, 1860, pixels, pixels, []⟩ = none := by
    unfold EinkSleepImageCatalog.validateEntry
    rw [if_neg (by simp [auraCDeviceProfile]), if_neg (not_not.mpr hlength),
      if_neg (by simp [hgray]), if_neg (not_not.mpr hlength)]
    rfl
  simp [EinkSleepImageCatalog.validate, EinkSleepImageCatalog.kMaximumEntries, hprofile, hentry]

theorem run_published (hlength : pixels.length = auraCDeviceProfile.panelBytes)
    (hgray : isPanelGray pixels = true) :
    (system auraSettings).Run System.anyAction {} (publishActions pixels) []
      (published pixels) := by
  have hvalid := validate_page hlength hgray
  have hpublish : ({ expectedWidth := 2480, expectedHeight := 1860 } :
      EinkSleepImageCatalog).publish [⟨2480, 1860, pixels, pixels, []⟩] =
      (.accepted, sleepCatalog pixels) := by
    simp only [EinkSleepImageCatalog.publish, hvalid]
    rfl
  have hstart : (system auraSettings).exec System.anyAction {}
      [.start, .startThreads, .setEnabled true] =
      some ({ published pixels with sleepImageCatalog := none, sleepImageCatalogEpoch := 0 }, []) :=
    rfl
  have hrun : (system auraSettings).Run System.anyAction _ _ _ _ := .of_exec hstart
  refine hrun.trans (.single trivial ?_)
  show step auraSettings _ (.publishSleepImageCatalog _ _ _ _ _ _) = _
  simp only [step, publishSleepImageCatalog]
  rw [if_neg (by decide), if_neg (by decide), hpublish]
  rfl

/-! ### A presentation -/

/-- The frame of the presentation. -/
def presentedFrame (plane : List UInt8) : Frame :=
  (published plane).sleepImageFrame auraSettings 1 1 (2480, 1860, plane, [])

/-- The whole image covers the page: the frame has one plane of the panel's size. -/
theorem prepareSleepImage_published (hlength : pixels.length = auraCDeviceProfile.panelBytes)
    (hgray : isPanelGray pixels = true) :
    ∃ plane, plane.length = auraCDeviceProfile.panelBytes ∧
      (published pixels).prepareSleepImage auraSettings 1 = .ok (2480, 1860, plane, []) := by
  obtain ⟨white, hwhite⟩ : ∃ white : List UInt8, List.replicate auraCDeviceProfile.panelBytes 0xf0 =
    white := ⟨_, rfl⟩
  have hwhiteLength : white.length = auraCDeviceProfile.panelBytes := by
    rw [← hwhite, List.length_replicate]
  have hwhiteGray : isPanelGray white = true :=
    isPanelGray_of_white fun x hx => List.eq_of_mem_replicate (hwhite ▸ hx)
  have hne : pixels.isEmpty = false := by
    cases pixels with
    | nil => cases hlength
    | cons => rfl
  have hcompose : composeSleepImageOverlay pixels pixels white [] =
      ⟨.composited, blendGray pixels pixels white, []⟩ := by
    simp [composeSleepImageOverlay, hne, hlength, hwhiteLength, hgray, hwhiteGray, blendRgba]
  refine ⟨blendGray pixels pixels white, ?_, ?_⟩
  · simp [blendGray, hlength, hwhiteLength]
  · have hbytes : (⟨2480, 1860, pixels⟩ : OwnedGrayscaleBuffer).byteCount =
        auraCDeviceProfile.panelBytes := hlength
    have hpresentation : (published pixels).composePresentation auraSettings
        (sleepCandidate pixels) ⟨2480, 1860, pixels⟩ pixels =
        .ok (blendGray pixels pixels white, []) := by
      have hmode : (published pixels).sleepImageMode = .opaqueImage := rfl
      have hpanel : auraSettings.profile.panelBytes = auraCDeviceProfile.panelBytes := rfl
      simp only [composePresentation, hmode, sleepCandidate, Option.getD_none, hpanel, hwhite,
        hcompose]
      rfl
    have hcatalog : (published pixels).sleepImageCatalog = some (sleepCatalog pixels) := rfl
    have hcandidate : (sleepCatalog pixels).candidateAt (published pixels).sleepImageSelectedIndex =
        sleepCandidate pixels := rfl
    have hfits : ((sleepCandidate pixels).width ≠ auraSettings.profile.panelWidth ||
        (sleepCandidate pixels).height ≠ auraSettings.profile.panelHeight ||
        (⟨2480, 1860, pixels⟩ : OwnedGrayscaleBuffer).byteCount ≠ auraSettings.profile.panelBytes ||
        pixels.length ≠ auraSettings.profile.panelBytes) = false := by
      simp [hbytes, hlength, sleepCandidate, auraSettings, auraCDeviceProfile]
    simp only [prepareSleepImage, hcatalog, hcandidate]
    have hepoch : ¬ 1 ≠ (published pixels).sleepImageCatalogEpoch := not_not.mpr rfl
    rw [if_neg hepoch]
    show (if _ then _ else _) = _
    rw [hfits, hpresentation]
    rfl

/-- The image has been presented. -/
def presented (pixels plane : List UInt8) : Pipeline :=
  { published pixels with
    adapter := ((published pixels).adapter.enqueue (presentedFrame plane)).2
    sleepImageLatch := { state := .consumed, lastArmedEpoch := 1, activeEpoch := 1 }
    sourceGeneration := 1
    nextSequence := 2 }

theorem present_published {plane : List UInt8}
    (hprepare : (published pixels).prepareSleepImage auraSettings 1 =
      .ok (2480, 1860, plane, [])) :
    (system auraSettings).step (published pixels) (.presentSleepImage 1 1) =
      some (presented pixels plane,
        [.enqueued (presentedFrame plane), .presented 1 .accepted]) := by
  have hpresent : (published pixels).presentSleepImage auraSettings 1 1 =
      (.accepted, presented pixels plane) := by
    unfold presentSleepImage
    rw [if_neg (by decide), if_neg (by simp [published]), hprepare]
    rfl
  simp only [system, step, presentEvents, hpresent, hprepare]
  rfl

/-- The frame is taken to the engine. -/
theorem submit_presented (pixels plane : List UInt8) :
    ∃ s, (system auraSettings).exec System.anyAction (presented pixels plane)
        [.wake 0 1, .submitStart 1] = some (s, []) ∧
      s.adapter.worker = .submitting (presentedFrame plane) false 1 ∧ s.adapter.clock = 1 :=
  ⟨_, rfl, rfl, rfl⟩

theorem willing_presentedFrame {plane : List UInt8}
    (hlength : plane.length = auraCDeviceProfile.panelBytes) :
    (willing (presentedFrame plane)).2.1 = some () := by
  have hplanes : validateLowerEnginePlanes auraCDeviceProfile (presentedFrame plane) = .ready := by
    have hbytes : (⟨2480, 1860, plane⟩ : OwnedGrayscaleBuffer).byteCount =
        auraCDeviceProfile.panelWidth * auraCDeviceProfile.panelHeight := hlength
    simp [validateLowerEnginePlanes, presentedFrame, sleepImageFrame, hbytes]
  have hinput : isObservedFullInput auraCDeviceProfile (presentedFrame plane) = true := by
    unfold isObservedFullInput
    rw [hplanes]
    rfl
  cases plane with
  | nil => cases hlength
  | cons x plane =>
    unfold willing submit entryChecks
    simp only [hinput]
    rfl

/-- The presentation of a gray image is accepted, and shown as it is. -/
theorem sleep_color_of_presentation :
    ∃ (b : Backend) (as : List Panel.Action) (log : List Panel.Event) (t : Panel) (e : Submitted),
      (Panel.system auraSettings).Run (AvoidsReplacement auraSettings) { backend := b } as log t ∧
      .submitted e ∈ log ∧ e.accepted = true ∧ e.frame.sleepImageEpoch = 1 ∧
      MapsColor e.calls (sleepColor e.frame) := by
  obtain ⟨pixels, hlength, hwhite⟩ := exists_white_plane auraCDeviceProfile
  have hgray := isPanelGray_of_white hwhite
  obtain ⟨plane, hplane, hprepare⟩ := prepareSleepImage_published hlength hgray
  obtain ⟨s, hsubmit, hphase, hclock⟩ := submit_presented pixels plane
  obtain ⟨y, hy⟩ := submit_willing hphase (Int.le_of_eq hclock) (willing_presentedFrame hplane)
  have hrun := run_published hlength hgray
  have hrun := hrun.trans (.single trivial (present_published hprepare))
  have hrun := hrun.trans (.of_exec hsubmit)
  have hpanel := run_panel (AvoidsReplacement auraSettings) { state := .initialized } hrun
    (by simp [publishActions, AvoidsReplacement])
  have hkept : AvoidsReplacement auraSettings ⟨s, { state := .initialized }⟩
      (.submit (willing (presentedFrame plane)).1 1) := by
    intro ha
    cases ha
  have hpanel := hpanel.snoc hkept hy
  refine ⟨_, _, _, _, ⟨presentedFrame plane, (willing (presentedFrame plane)).1, true⟩, hpanel,
    List.mem_append_right _ (by simp), rfl, rfl, ?_⟩
  exact sleep_color rfl hpanel _ (List.mem_append_right _ (by simp)) rfl Nat.one_ne_zero

/-! ### A replaced capture -/

/-- A leased capture of the page. -/
def pageCapture (address : List UInt8) : CapturedComposition where
  composeBuffer := some ⟨false, .rgba8888, 2480, 1860, ⟨0, some address, 4, 9920⟩⟩
  ownershipLease := some 1

/-- The cycle is armed, and the capture comes to its evaluation. -/
def armedCapture (address black : List UInt8) : List Action :=
  [.armSleepCycle 1, .onCapturedComposition (pageCapture address), .dequeue,
    .convert (some ⟨auraPage black, 1⟩), .checkSource]

/-- The capture in the armed cycle. -/
def checkedCapture (pixels address black : List UInt8) : Pipeline :=
  { published pixels with
    worker := .checked ⟨pageCapture address, 1, 0⟩ ⟨auraPage black, 1⟩
    conversionInFlight := true
    nextSequence := 2
    sleepImageLatch := { state := .armed, lastArmedEpoch := 1, activeEpoch := 1 } }

/-- The frame that leaves: the sleep image's gray with the captured plane. -/
def replacedFrame (pixels address : List UInt8) : Frame :=
  { convertedFrame auraSettings ⟨pageCapture address, 1, 0⟩ (auraPage pixels) with
    sleepImageEpoch := 1
    enqueuedAt := 1
    composeBuffer := some (.android (pageCapture address).composeBuffer (some 1)) }

/-- An armed latch replaces a dark frame by the image that fits it. -/
theorem evaluateFrame_armed {l : SleepImageLatch} {f : Frame} {bytes : List UInt8}
    {select : Selector OwnedGrayscaleBuffer} {buffer : OwnedGrayscaleBuffer}
    (harmed : l.state = .armed)
    (hbytes : ConvertedFrame.fullFrame? ⟨f.dirtyRect, f.grayscaleBuffer⟩ = some bytes)
    (hdark : (summarize bytes l.state).maximumGray ≤ kSleepImageMaximumGray)
    (hfit : (select f.dirtyRect.right f.dirtyRect.bottom).fitting f.dirtyRect.right
      f.dirtyRect.bottom bytes.length = some buffer) :
    ∃ latch, l.evaluateFrame f (some select) =
        (latch, { f with grayscaleBuffer := some buffer }, .replace) ∧
      latch.state = .consumed ∧ latch.activeEpoch = l.activeEpoch := by
  unfold SleepImageLatch.evaluateFrame SleepImageLatch.evaluate
  rw [hbytes]
  dsimp only
  rw [if_neg (UInt8.not_lt.mpr hdark), harmed]
  dsimp only
  rw [hfit]
  exact ⟨_, rfl, rfl, rfl⟩

theorem foldl_max_zero {l : List UInt8} (h : ∀ x ∈ l, x = 0) : l.foldl max 0 = 0 := by
  induction l with
  | nil => rfl
  | cons x l ih =>
    obtain rfl := h x List.mem_cons_self
    exact ih fun y hy => h y (List.mem_cons_of_mem 0 hy)

/-- The capture has been replaced. -/
def evaluatedCapture (pixels address black : List UInt8) (latch : SleepImageLatch) : Pipeline :=
  { checkedCapture pixels address black with
    worker := .evaluated ⟨pageCapture address, 1, 0⟩
      { convertedFrame auraSettings ⟨pageCapture address, 1, 0⟩ (auraPage black) with
        grayscaleBuffer := some (auraPage pixels) } .replace latch.activeEpoch .sessionStart
    sleepImageLatch := latch
    demandGate := ⟨some ⟨1, (auraPage black).byteCount, 2480, 1860⟩, false⟩ }

theorem evaluate_checkedCapture (address : List UInt8) {black : List UInt8}
    (hlength : pixels.length = auraCDeviceProfile.panelBytes)
    (hblack : black.length = auraCDeviceProfile.panelBytes) (hdark : ∀ x ∈ black, x = 0) :
    ∃ latch, latch.state = .consumed ∧ latch.activeEpoch = 1 ∧
      (system auraSettings).step (checkedCapture pixels address black) .evaluate =
        some (evaluatedCapture pixels address black latch, []) := by
  have hsize : fullFrameSize (Rect.full 2480 1860) = some auraCDeviceProfile.panelBytes := by
    decide
  have hbytes : ConvertedFrame.fullFrame? ⟨Rect.full 2480 1860, some (auraPage black)⟩ =
      some black := by
    have hcount : GrayscaleBuffer.byteCount (auraPage black) = auraCDeviceProfile.panelBytes :=
      hblack
    have hdata : GrayscaleBuffer.data (auraPage black) = some black := rfl
    simp [ConvertedFrame.fullFrame?, hsize, hdata, hcount]
  have hfit : ((sleepCatalog pixels).selector 0 2480 1860).fitting 2480 1860 black.length =
      some (auraPage pixels) := by
    have hselected : (sleepCatalog pixels).selector 0 2480 1860 = sleepCandidate pixels := rfl
    have hcount : GrayscaleBuffer.byteCount (auraPage pixels) = black.length :=
      hlength.trans hblack.symm
    have hdata : GrayscaleBuffer.data (auraPage pixels) = some pixels := rfl
    rw [hselected]
    show (if (2480 : Int) = 2480 ∧ (1860 : Int) = 1860 ∧
      GrayscaleBuffer.byteCount (auraPage pixels) = black.length then some (auraPage pixels)
      else none) = some (auraPage pixels)
    rw [if_pos ⟨rfl, rfl, hcount⟩]
  obtain ⟨latch, hevaluate, hstate, hactive⟩ := evaluateFrame_armed
    (l := { state := .armed, lastArmedEpoch := 1, activeEpoch := 1 })
    (f := convertedFrame auraSettings ⟨pageCapture address, 1, 0⟩ (auraPage black)) rfl hbytes
    (by rw [SleepImageLatch.summarize_maximumGray, foldl_max_zero hdark]; decide) hfit
  refine ⟨latch, hstate, hactive, ?_⟩
  have heq : (checkedCapture pixels address black).evaluate auraSettings =
      some (evaluatedCapture pixels address black latch) := by
    simp only [evaluate, checkedCapture, published, sleepSelector, Option.map_some, hevaluate]
    rfl
  simp only [system, step, heq, Option.map_some]

/-- The replaced capture is taken to the engine. -/
theorem submit_evaluatedCapture (pixels address black : List UInt8) {latch : SleepImageLatch}
    (hactive : latch.activeEpoch = 1) :
    ∃ s, (system auraSettings).exec System.anyAction (evaluatedCapture pixels address black latch)
        [.readRefresh 1, .enqueue, .finish, .wake 0 1, .submitStart 1] =
          some (s, [.enqueued (replacedFrame pixels address)]) ∧
      s.adapter.worker = .submitting (replacedFrame pixels address) false 1 ∧
      s.adapter.clock = 1 := by
  obtain ⟨state, last, active, outcome, evaluation⟩ := latch
  obtain rfl : active = 1 := hactive
  exact ⟨_, rfl, rfl, rfl⟩

/-- The engine takes it, and maps the capture. -/
theorem willing_replacedFrame (address : List UInt8)
    (hlength : pixels.length = auraCDeviceProfile.panelBytes) :
    (willing (replacedFrame pixels address)).2.1 = some () ∧
      colorCalls (willing (replacedFrame pixels address)).1 = loading ⟨0, 0, 0⟩ ++
        [⟨.mapVpcoa (treatedColor ⟨0, 0, 0⟩ (copyRows address 9920 2480 1860)),
          ((0 : Int), [])⟩] := by
  have hplanes : validateLowerEnginePlanes auraCDeviceProfile (replacedFrame pixels address) =
      .ready := by
    have hbytes : (auraPage pixels).byteCount =
        auraCDeviceProfile.panelWidth * auraCDeviceProfile.panelHeight := hlength
    have hcfa : auraCDeviceProfile.hasColorCfa = true := rfl
    simp [validateLowerEnginePlanes, replacedFrame, convertedFrame, hbytes, hcfa]
  have hinput : isObservedFullInput auraCDeviceProfile (replacedFrame pixels address) = true := by
    unfold isObservedFullInput
    rw [hplanes]
    rfl
  unfold willing submit entryChecks
  simp only [hinput]
  exact ⟨rfl, rfl⟩

/-- The capture was black: the engine maps no opaque pixel, and the sleep image has one. -/
theorem replaced_capture_shown :
    ¬ ∀ (c : Settings), c.profile.hasColorCfa = true → ∀ (b : Backend) (as : List Panel.Action)
      (log : List Panel.Event) (t : Panel),
      (Panel.system c).Run System.anyAction { backend := b } as log t →
      ∀ e, .submitted e ∈ log → SubmittedOwn e := by
  intro hall
  obtain ⟨pixels, hlength, hwhite⟩ := exists_white_plane auraCDeviceProfile
  obtain ⟨black, hblack, hdark⟩ : ∃ black : List UInt8,
      black.length = auraCDeviceProfile.panelBytes ∧ ∀ x ∈ black, x = 0 :=
    ⟨List.replicate _ 0, List.length_replicate, fun _ hx => List.eq_of_mem_replicate hx⟩
  obtain ⟨address, -, htransparent⟩ : ∃ address : List UInt8, address.length = 9920 * 1860 ∧
      ∀ x ∈ address, x = 0 :=
    ⟨List.replicate _ 0, List.length_replicate, fun _ hx => List.eq_of_mem_replicate hx⟩
  obtain ⟨latch, -, hactive, hevaluate⟩ := evaluate_checkedCapture address hlength hblack hdark
  obtain ⟨s, hsubmit, hphase, hclock⟩ := submit_evaluatedCapture pixels address black hactive
  obtain ⟨haccepted, hcolor⟩ := willing_replacedFrame address hlength
  obtain ⟨y, hy⟩ := submit_willing hphase (Int.le_of_eq hclock) haccepted
  have harmed : (system auraSettings).exec System.anyAction (published pixels)
      (armedCapture address black) = some (checkedCapture pixels address black, []) := rfl
  have hrun := run_published hlength (isPanelGray_of_white hwhite)
  have hrun := hrun.trans (.of_exec harmed)
  have hrun := hrun.trans (.single trivial hevaluate)
  have hrun := hrun.trans (.of_exec hsubmit)
  have hpanel := run_panel System.anyAction { state := .initialized } hrun
    (by simp [publishActions, armedCapture, System.anyAction])
  have hpanel := hpanel.snoc trivial hy
  obtain ⟨c, output, hown⟩ := hall auraSettings rfl _ _ _ _ hpanel
    ⟨replacedFrame pixels address, (willing (replacedFrame pixels address)).1, true⟩
    (List.mem_append_right _ (by simp)) rfl Nat.one_ne_zero
  rw [hcolor] at hown
  obtain ⟨quality, gray, vivid⟩ := c
  simp only [loading, List.cons_append, List.nil_append, List.cons.injEq, Sigma.mk.injEq,
    heq_eq_eq, true_and, and_true, VendorCall.mapVpcoa.injEq] at hown
  obtain ⟨-, rfl, rfl, hplane, -⟩ := hown
  have hplain : ∀ quality rgba, treatedColor ⟨quality, 0, 0⟩ rgba = rgba := by
    intro quality rgba
    exact treatedColor_plain UInt64.zero_and UInt64.zero_and rgba
  rw [hplain, hplain] at hplane
  have hopaque : (255 : UInt8) ∈ sleepColor (replacedFrame pixels address) := by
    cases pixels with
    | nil => cases hlength
    | cons x pixels =>
      show (255 : UInt8) ∈ (x :: pixels).flatMap expandGray
      simp [expandGray]
  rw [← hplane] at hopaque
  obtain ⟨row, -, hrow⟩ := List.mem_flatMap.mp hopaque
  have hzero := htransparent 255 (List.mem_of_mem_drop (List.mem_of_mem_take hrow))
  cases hzero

end

end EinkLab.Pipeline
