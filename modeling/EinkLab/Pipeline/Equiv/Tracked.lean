import EinkLab.FrameTracker.Equiv.Device
import EinkLab.Pipeline.Equiv.Exclusive
import EinkLab.Pipeline.Tracked
import EinkLab.PresentationAdapter.Equiv.Steps

/-!
# What the converter signs, and what keeps the newest frame

`converted_of_replay`: on locks that map what their buffer holds, the converter returns the plane of
the captured image with the tracker's signature of it, or leaves the tracker alone.

`Quiet` is for the steps that concern neither the capture in the worker's hands nor the baseline:
they keep the newest ordinary frame (`Quiet.newest`), unless a sleep cycle has been consumed or the
worker is to forget its baseline.
-/

namespace EinkLab.TrackedPipeline

open Transition AndroidGrayscaleConverter Procedure

variable {c : Settings} {x x' : TrackedPipeline}

/-! ### The converter -/

/-- A lock that succeeds maps what the buffer holds. -/
def Honest (calls : List ConverterEvent) : Prop :=
  ∀ buffer fenceFd lock, ⟨.lockAsync buffer fenceFd, lock⟩ ∈ calls →
    lock = buffer.mapping ∨ lock.address = none ∨ lock.status ≠ 0

/-- What `Convert` gives for a plane: the image of the buffer, converted and signed. -/
structure Signed (c : Settings) (composeBuffer : Option GraphicBuffer)
    (t t' : DeviceRgbFrameTracker) (conversion : Conversion) (source : RgbaSource) : Prop where
  image : composeBuffer.bind imageOf = some source
  grayscale : convertToGrayscale source c.rotation = some conversion.grayscale
  signature : conversion.rgbSignature = (sign c source t).1
  tracker : t' = (sign c source t).2

theorem sat_convert (composeBuffer : Option GraphicBuffer) (readyFence : Option Nat)
    (t : DeviceRgbFrameTracker) :
    (AndroidGrayscaleConverter.convert (sign c) composeBuffer readyFence c.rotation).Sat
      (fun _ t' => t' = t)
      (fun r h t' => Honest h → match conversionOf (some r) with
        | none => t' = t
        | some conversion => ∃ source, Signed c composeBuffer t t' conversion source) [] t := by
  unfold AndroidGrayscaleConverter.convert
  cases composeBuffer with
  | none => rfl
  | some buffer =>
    dsimp only
    split
    · rfl
    split
    · rfl
    next layout hlayout =>
    rw [sat_bind]
    -- the fence has no part in what is mapped
    have hlocked : ∀ (fenceFd : Int) (h : List ConverterEvent),
        (do
          let source ← mapBuffer buffer layout fenceFd
          let grayscale := convertToGrayscale source c.rotation
          let s ← get
          onlyIf grayscale.isSome (modify fun s => (sign c source s).2)
          let _ ← (call (ConverterCall.unlock buffer) : Converting DeviceRgbFrameTracker Unit)
          pure (grayscale, grayscale.map fun _ => (sign c source s).1)).Sat
        (fun _ t' => t' = t)
        (fun r h t' => Honest h → match conversionOf (some r) with
          | none => t' = t
          | some conversion => ∃ source, Signed c (some buffer) t t' conversion source) h t := by
      intro fenceFd h
      unfold mapBuffer
      simp only [sat_bind, sat_call]
      intro lock
      split
      · rfl
      next address haddress =>
      split
      · rfl
      next hstatus =>
      split
      · simp only [sat_bind, sat_call, sat_refuse]
        exact fun _ => rfl
      next hbytes =>
      simp only [sat_pure]
      have hmapped : ∀ h', Honest h' → (⟨.lockAsync buffer fenceFd, lock⟩ : ConverterEvent) ∈ h' →
          imageOf buffer = some ⟨address, buffer.width, buffer.height,
            lock.bytesPerStride.tdiv lock.bytesPerPixel, layout⟩ := by
        intro h' hhonest hmem
        have hlock : lock = buffer.mapping := by
          refine (hhonest buffer fenceFd lock hmem).resolve_right ?_
          rw [haddress]
          exact not_or.mpr ⟨Option.some_ne_none address, hstatus⟩
        unfold imageOf
        rw [hlayout, ← hlock, haddress]
      cases hgrayscale : convertToGrayscale ⟨address, buffer.width, buffer.height,
          lock.bytesPerStride.tdiv lock.bytesPerPixel, layout⟩ c.rotation with
      | none => exact fun _ _ => rfl
      | some grayscale =>
        intro _ hhonest
        exact ⟨_, hmapped _ hhonest (by simp), hgrayscale, rfl, rfl⟩
    cases readyFence with
    | none => exact hlocked (-1) []
    | some fence => exact fun fenceFd => hlocked fenceFd _

/-- What the converter returns along the calls it has made. -/
theorem converted_of_replay {composeBuffer : Option GraphicBuffer} {readyFence : Option Nat}
    {t t' : DeviceRgbFrameTracker} {calls : List ConverterEvent}
    {result : Option (Option OwnedGrayscaleBuffer × Option Nat)} (hhonest : Honest calls)
    (h : ((AndroidGrayscaleConverter.convert (sign c) composeBuffer readyFence c.rotation).run
      t).replay calls = some (result, t')) :
    (conversionOf result = none ∧ t' = t) ∨
      ∃ conversion source, conversionOf result = some conversion ∧
        Signed c composeBuffer t t' conversion source := by
  obtain ⟨hsome, hnone⟩ := sat_replay (sat_convert composeBuffer readyFence t) h
  cases result with
  | none => exact Or.inl ⟨rfl, hnone rfl⟩
  | some r =>
    have hresult := hsome r rfl hhonest
    cases hconversion : conversionOf (some r) with
    | none =>
      rw [hconversion] at hresult
      exact Or.inl ⟨rfl, hresult⟩
    | some conversion =>
      rw [hconversion] at hresult
      obtain ⟨source, hsigned⟩ := hresult
      exact Or.inr ⟨conversion, source, rfl, hsigned⟩

/-- The converted plane has a byte for each of its pixels. -/
theorem wellFormed_of_convert {source : RgbaSource} {rotation : Rotation}
    {plane : OwnedGrayscaleBuffer} (h : convertToGrayscale source rotation = some plane) :
    source.isValid = true ∧ plane.WellFormed := by
  unfold convertToGrayscale at h
  dsimp only at h
  generalize (if rotation ≠ .none then source.height else source.width) = width at h
  generalize (if rotation ≠ .none then source.width else source.height) = height at h
  split at h
  · cases h
  next hvalid =>
  split at h
  · cases h
  next hallocate =>
  simp only [Bool.not_eq_true', Bool.not_eq_false, canAllocatePixels, Bool.and_eq_true,
    decide_eq_true_eq] at hvalid hallocate
  obtain ⟨⟨hwidth, hheight⟩, hproduct⟩ := hallocate
  obtain rfl := Option.some.inj h
  refine ⟨hvalid, hwidth, hheight, ?_, ?_⟩
  · rw [Nat.le_div_iff_mul_le (by omega)] at hproduct
    exact hproduct
  · -- the loops write into a plane of that length
    have hlength : ∀ {ι : Type} (position : ι → Nat) (value : ι → UInt8) (items : List ι)
        (output : List UInt8),
        (items.foldl (fun output i => output.set (position i) (value i)) output).length =
          output.length := by
      intro ι position value items
      induction items with
      | nil => exact fun output => rfl
      | cons i items ih => exact fun output => (ih _).trans (List.length_set ..)
    have hrows : ∀ (rows : List Nat) (output : List UInt8), (rows.foldl (fun output y =>
        (List.range source.width.toNat).foldl (fun output x =>
          output.set ((destination source rotation x y).2 * width.toNat +
              (destination source rotation x y).1)
            (panelGray source ((y * source.stridePixels.toNat + x) * 4))) output)
          output).length = output.length := by
      intro rows
      induction rows with
      | nil => exact fun output => rfl
      | cons y rows ih => exact fun output => (ih _).trans (hlength _ _ _ _)
    exact (hrows _ _).trans (List.length_replicate ..)

/-! ### The way through the adapter -/

variable {a a' : PresentationAdapter} {out : List (Option PanelContent)}

/-- What the adapter is about to ask the engine, the newest first. -/
def adapterWay (c : Settings) (a : PresentationAdapter) : List (Option PanelContent) :=
  ordinary c a.pending.toList ++ ordinary c (taken a.worker).toList

@[simp] theorem ordinary_nil (c : Settings) : ordinary c [] = [] := rfl

theorem ordinary_append (c : Settings) (frames frames' : List Frame) :
    ordinary c (frames ++ frames') = ordinary c frames ++ ordinary c frames' := by
  simp [ordinary]

/-- A frame counts by its epoch and by what it shows. -/
theorem ordinary_congr {f g : Frame} (hepoch : g.sleepImageEpoch = f.sleepImageEpoch)
    (hshown : shown c g = shown c f) : ordinary c [g] = ordinary c [f] := by
  simp only [ordinary, List.filter_singleton, Frame.IsOrdinary, hepoch]
  cases decide (f.sleepImageEpoch = 0) with
  | false => rfl
  | true => exact congrArg ([·]) hshown

theorem ordinary_of_isOrdinary {f : Frame} (hf : f.IsOrdinary) : ordinary c [f] = [shown c f] := by
  rw [ordinary, List.filter_singleton, decide_eq_true hf]
  rfl

/-- The adapter goes on with its frames, and the engine returns what is handed out. -/
structure HandsOut (c : Settings) (a a' : PresentationAdapter) (out : List (Option PanelContent)) :
    Prop where
  started : a'.started = a.started
  stopping : a'.stopping = a.stopping
  way : adapterWay c a' ++ out = adapterWay c a

theorem HandsOut.joins (h : HandsOut c a a' out) : (adapterWay c a' ++ out).Sublist
    (adapterWay c a) := by
  rw [h.way]

theorem handsOut_refl (c : Settings) (a : PresentationAdapter) : HandsOut c a a [] :=
  ⟨rfl, rfl, List.append_nil _⟩

theorem handsOut_cancelRefresh (c : Settings) (a : PresentationAdapter) :
    HandsOut c a a.cancelPendingDiagnosticRefresh.2 [] := by
  rcases PresentationAdapter.cancelPendingDiagnosticRefresh_cases a with heq | ⟨f, hf, -, heq⟩
  · rw [heq]
    exact handsOut_refl c a
  · rw [heq]
    refine ⟨rfl, rfl, ?_⟩
    rw [List.append_nil, adapterWay, adapterWay, hf]
    exact congrArg (· ++ _) (ordinary_congr rfl rfl)

theorem handsOut_wake {interval : Duration} {now : TimePoint} (h : a.wake interval now = some a') :
    HandsOut c a a' [] := by
  obtain ⟨hw, ⟨-, rfl⟩ | ⟨-, -, rfl⟩ | ⟨f, hf, -, -, -, rfl⟩⟩ := PresentationAdapter.wake_cases h
  · exact ⟨rfl, rfl, by simp [adapterWay, hw, taken]⟩
  · exact ⟨rfl, rfl, by simp [adapterWay, hw, taken]⟩
  · exact ⟨rfl, rfl, by simp [adapterWay, hw, hf, taken]⟩

theorem handsOut_rewake {now : TimePoint} (h : a.rewake now = some a') : HandsOut c a a' [] := by
  obtain ⟨t, hw, rfl | ⟨-, -, rfl⟩⟩ := PresentationAdapter.rewake_cases h
  · exact ⟨rfl, rfl, by simp [adapterWay, hw, taken]⟩
  · exact ⟨rfl, rfl, by simp [adapterWay, hw, taken]⟩

theorem handsOut_submitStart {now : TimePoint} (h : a.submitStart now = some a') :
    HandsOut c a a' [] := by
  unfold PresentationAdapter.submitStart at h
  split at h
  · next f trailing hw =>
    split at h
    · cases h
    obtain rfl := Option.some.inj h
    exact ⟨rfl, rfl, by simp [adapterWay, hw, taken]⟩
  · cases h

theorem handsOut_submitReturn {accepted : Bool} {now : TimePoint}
    (h : a.submitReturn accepted now = some a') :
    ∃ f trailing start, a.worker = .submitting f trailing start ∧
      HandsOut c a a' (ordinary c [f]) := by
  unfold PresentationAdapter.submitReturn at h
  split at h
  · next f trailing start hw =>
    split at h
    · cases h
    obtain rfl := Option.some.inj h
    exact ⟨f, trailing, start, hw, rfl, rfl, by simp [adapterWay, hw, taken]⟩
  · cases h

theorem handsOut_record (h : a.record = some a') : HandsOut c a a' [] := by
  unfold PresentationAdapter.record at h
  split at h
  · next hw =>
    obtain rfl := Option.some.inj h
    exact ⟨rfl, rfl, by simp [adapterWay, hw, taken]⟩
  · cases h

theorem handsOut_observe (h : a.observe = some a') : HandsOut c a a' [] := by
  unfold PresentationAdapter.observe at h
  split at h
  · next hw =>
    obtain rfl := Option.some.inj h
    exact ⟨rfl, rfl, by simp [adapterWay, hw, taken]⟩
  · cases h

/-- An ordinary frame takes the slot; the frame in it may hand it a request, which does not show. -/
theorem adapterWay_enqueue {f : Frame} (haccepts : a.accepts f = true) (hordinary : f.IsOrdinary) :
    adapterWay c (a.enqueue f).2 = shown c f :: ordinary c (taken a.worker).toList := by
  rw [PresentationAdapter.enqueue_of_accepts haccepts]
  dsimp only [adapterWay]
  have hself := ordinary_of_isOrdinary (c := c) hordinary
  cases a.pending with
  | none => exact congrArg (· ++ _) hself
  | some old =>
    dsimp only [Option.map_some, Option.getD_some, Option.toList_some]
    unfold PresentationAdapter.followPending
    split
    · have hfollows : ordinary c [f.withDiagnosticOf old] = [shown c f] :=
        (ordinary_congr (g := f.withDiagnosticOf old) (f := f) rfl rfl).trans hself
      exact congrArg (· ++ _) hfollows
    · exact congrArg (· ++ _) hself

/-- A sleep image takes the slot: it is no ordinary frame, and what it replaces is lost. -/
theorem adapterWay_enqueue_sleepImage {f : Frame} (hsleep : f.sleepImageEpoch ≠ 0) :
    (adapterWay c (a.enqueue f).2).Sublist (adapterWay c a) := by
  have hnone : ordinary c [f] = [] := by
    rw [ordinary, List.filter_singleton, decide_eq_false hsleep]
    rfl
  cases haccepts : a.accepts f with
  | false =>
    rw [PresentationAdapter.enqueue_of_not_accepts haccepts]
  | true =>
    rw [PresentationAdapter.enqueue_of_accepts haccepts]
    have hslot : ordinary c [(a.pending.map (PresentationAdapter.followPending f)).getD f] =
      [] := by
      cases a.pending with
      | none => exact hnone
      | some old =>
        have hfollows : PresentationAdapter.followPending f old = f := by
          unfold PresentationAdapter.followPending
          exact if_neg fun hordinary => hsleep hordinary.1
        rw [Option.map_some, Option.getD_some, hfollows]
        exact hnone
    show (ordinary c [_] ++ _).Sublist _
    rw [hslot]
    exact List.sublist_append_right _ _

/-! ### The quiet steps -/

variable {s s' : Pipeline} {evs : List Pipeline.Event}

/-- A latch that is armed or consumed has a cycle. -/
def CycleActive (l : SleepImageLatch) : Prop :=
  l.state = .consumed ∨ l.state = .armed → l.activeEpoch ≠ 0

/-- What the events of a step have asked the engine to show. -/
def shownEvents (c : Settings) (evs : List Pipeline.Event) : List (Option PanelContent) :=
  offered c (evs.map .pipeline)

/-- The step leaves the worker and its baseline alone, and the newest frame as well, unless a sleep
cycle has been consumed or the baseline is to be forgotten. -/
structure Quiet (c : Settings) (s s' : Pipeline) (evs : List Pipeline.Event) : Prop where
  worker : s'.worker = s.worker
  gate : s'.demandGate = s.demandGate
  tracker : s'.grayscaleTracker = s.grayscaleTracker
  pending : s'.pending = s.pending ∨ s'.pending = none
  started : s'.adapter.started = s.adapter.started
  stopping : s'.adapter.stopping = s.adapter.stopping
  active : CycleActive s.sleepImageLatch → CycleActive s'.sleepImageLatch
  unsettled : CycleActive s.sleepImageLatch → Unsettled s → Unsettled s'
  way : Unsettled s' ∨ adapterWay c s'.adapter ++ shownEvents c evs = adapterWay c s.adapter
  /-- Nothing joins, in any case. -/
  joins : (adapterWay c s'.adapter ++ shownEvents c evs).Sublist (adapterWay c s.adapter)

theorem offered_append (c : Settings) (log log' : List Event) :
    offered c (log ++ log') = offered c log' ++ offered c log := by
  simp [offered, ordinary_append]

theorem newest_eq (c : Settings) (log : List Event) (s : Pipeline) :
    newest c log s = (leaving c s.worker ++ (adapterWay c s.adapter ++ offered c log)).head? := by
  simp [newest, onItsWay, adapterWay]

/-- A quiet step keeps the newest frame. -/
theorem Quiet.newest (h : Quiet c s s' evs) (log : List Event) (hsettled : ¬Unsettled s') :
    newest c (log ++ evs.map .pipeline) s' = newest c log s := by
  have hway := h.way.resolve_left hsettled
  rw [newest_eq, newest_eq, h.worker, offered_append, ← hway, List.append_assoc]
  rfl

/-- A step that concerns other fields. -/
theorem Quiet.of_same (hworker : s'.worker = s.worker) (hgate : s'.demandGate = s.demandGate)
    (htracker : s'.grayscaleTracker = s.grayscaleTracker)
    (hpending : s'.pending = s.pending ∨ s'.pending = none)
    (hlatch : s'.sleepImageLatch = s.sleepImageLatch)
    (hdemand : s.resetDemandGate = true → s'.resetDemandGate = true)
    (hsource : s.resetSourceState = true → s'.resetSourceState = true)
    (hadapter : HandsOut c s.adapter s'.adapter (shownEvents c evs)) : Quiet c s s' evs where
  worker := hworker
  gate := hgate
  tracker := htracker
  pending := hpending
  started := hadapter.started
  stopping := hadapter.stopping
  active := by rw [hlatch]; exact id
  unsettled := by
    intro _ hunsettled
    unfold Unsettled at hunsettled ⊢
    rw [hlatch]
    exact hunsettled.imp id (Or.imp hdemand hsource)
  way := Or.inr hadapter.way
  joins := hadapter.joins

theorem quiet_requestDiagnosticRefresh (s : Pipeline) (mode : DiagnosticRefresh) (id : Nat) :
    Quiet c s (s.requestDiagnosticRefresh c.toSettings mode).2 [.refreshRequested id] := by
  unfold Pipeline.requestDiagnosticRefresh
  split_ifs <;> exact .of_same rfl rfl rfl (Or.inl rfl) rfl (fun h => h) (fun h => h)
    (handsOut_refl c _)

theorem quiet_cancelDiagnosticRefresh (s : Pipeline) (id : Nat) :
    Quiet c s (s.cancelDiagnosticRefresh id) [] := by
  unfold Pipeline.cancelDiagnosticRefresh
  split_ifs <;> exact .of_same rfl rfl rfl (Or.inl rfl) rfl (fun h => h) (fun h => h)
    (handsOut_refl c _)

theorem quiet_start (s : Pipeline) : Quiet c s s.start [] := by
  unfold Pipeline.start
  split_ifs <;> exact .of_same rfl rfl rfl (Or.inl rfl) rfl (fun h => h) (fun h => h)
    (handsOut_refl c _)

theorem quiet_stop (s : Pipeline) : Quiet c s s.stop [] := by
  unfold Pipeline.stop
  split_ifs
  · exact .of_same rfl rfl rfl (Or.inl rfl) rfl (fun h => h) (fun h => h) (handsOut_refl c _)
  · exact .of_same rfl rfl rfl (Or.inr rfl) rfl (fun h => h) (fun h => h) (handsOut_refl c _)

theorem quiet_setEnabled (s : Pipeline) (enabled : Bool) : Quiet c s (s.setEnabled enabled) [] := by
  unfold Pipeline.setEnabled
  split
  · cases enabled with
    | false =>
      exact .of_same rfl rfl rfl (Or.inl rfl) rfl (fun h => by simp [Pipeline.cancelRefresh, h])
        (fun h => h) (handsOut_cancelRefresh c _)
    | true =>
      exact .of_same rfl rfl rfl (Or.inl rfl) rfl (fun h => by simp [h]) (fun h => h)
        (handsOut_refl c _)
  · exact .of_same rfl rfl rfl (Or.inl rfl) rfl (fun h => h) (fun h => h) (handsOut_refl c _)

theorem quiet_resetForSourceChange (s : Pipeline) {evs : List Pipeline.Event}
    (hevs : shownEvents c evs = []) : Quiet c s s.resetForSourceChange evs := by
  have hadapter : HandsOut c s.adapter s.adapter (shownEvents c evs) := hevs ▸ handsOut_refl c _
  unfold Pipeline.resetForSourceChange
  split_ifs
  · exact .of_same rfl rfl rfl (Or.inl rfl) rfl (fun h => h) (fun h => h) hadapter
  · exact .of_same rfl rfl rfl (Or.inr rfl) rfl (fun h => h) (fun _ => rfl) hadapter

theorem quiet_publishSleepImageCatalog (s : Pipeline) (epoch : Nat) (width height : Int)
    (entries : List EinkSleepImageCatalog.Entry) (selectedIndex : Nat)
    (mode : Pipeline.SleepImagePresentationMode) :
    Quiet c s (s.publishSleepImageCatalog c.toSettings epoch width height entries selectedIndex
      mode).2 [] := by
  have hsame : Quiet c s s [] :=
    .of_same rfl rfl rfl (Or.inl rfl) rfl (fun h => h) (fun h => h) (handsOut_refl c _)
  unfold Pipeline.publishSleepImageCatalog
  split
  · exact hsame
  split
  · exact hsame
  split
  · split_ifs
    · exact hsame
    · exact hsame
    · exact hsame
    · exact .of_same rfl rfl rfl (Or.inl rfl) rfl (fun h => h) (fun h => h) (handsOut_refl c _)
  · exact hsame

/-- What an accepted `ArmSleepCycle` does about a request touches none of these. -/
theorem quiet_armSleepCycle (s : Pipeline) (epoch : Nat) :
    Quiet c s (s.armSleepCycle epoch).2 [] := by
  have hsame : Quiet c s s [] :=
    .of_same rfl rfl rfl (Or.inl rfl) rfl (fun h => h) (fun h => h) (handsOut_refl c _)
  unfold Pipeline.armSleepCycle
  split
  · rcases SleepImageLatch.armSleepCycle_cases s.sleepImageLatch epoch with
      ⟨hlt, hidle, harm⟩ | ⟨hrefused, hkept⟩
    · rw [harm]
      have hcancel := handsOut_cancelRefresh c s.adapter
      refine ⟨rfl, rfl, rfl, Or.inl rfl, hcancel.started, hcancel.stopping, ?_, ?_,
        Or.inr hcancel.way, hcancel.joins⟩
      · intro _ _
        show epoch ≠ 0
        omega
      · -- a consumed cycle is active, so it cannot be armed
        rintro hactive (hconsumed | hreset)
        · exact absurd hidle (hactive (Or.inl hconsumed))
        · exact Or.inr hreset
    · dsimp only
      rw [if_neg hrefused, hkept]
      exact hsame
  · exact hsame

theorem quiet_presentSleepImage (s : Pipeline) (epoch : Nat) (now : TimePoint)
    {evs : List Pipeline.Event}
    (hevs : shownEvents c evs = []) :
    Quiet c s (s.presentSleepImage c.toSettings epoch now).2 evs := by
  have hadapter : HandsOut c s.adapter s.adapter (shownEvents c evs) := hevs ▸ handsOut_refl c _
  have hsame : Quiet c s s evs :=
    .of_same rfl rfl rfl (Or.inl rfl) rfl (fun h => h) (fun h => h) hadapter
  unfold Pipeline.presentSleepImage
  split
  · exact hsame
  next hepoch =>
  split
  · exact hsame
  split
  · exact hsame
  next image _ =>
  rcases SleepImageLatch.armSleepCycle_cases s.sleepImageLatch epoch with
    ⟨hlt, hidle, harm⟩ | ⟨hrefused, hkept⟩
  · have hbegin : SleepImageLatch.beginPresentation { s.sleepImageLatch with
        lastArmedEpoch := epoch, activeEpoch := epoch, state := .armed } epoch =
        (.accepted, { s.sleepImageLatch with
          lastArmedEpoch := epoch, activeEpoch := epoch, state := .consumed }) := by
      simp [SleepImageLatch.beginPresentation, hepoch]
    rw [harm]
    dsimp only
    rw [if_neg (not_not.mpr rfl), hbegin]
    dsimp only
    rw [if_neg (not_not.mpr rfl)]
    unfold Pipeline.enqueueSleepImage
    dsimp only
    split
    · -- the cycle is consumed, and the frame takes the adapter's slot
      next haccepts =>
      have hkept : ∀ f : Frame, (s.adapter.enqueue f).2.started = s.adapter.started ∧
          (s.adapter.enqueue f).2.stopping = s.adapter.stopping := by
        intro f
        cases hf : s.adapter.accepts f with
        | false => rw [PresentationAdapter.enqueue_of_not_accepts hf]; exact ⟨rfl, rfl⟩
        | true => rw [PresentationAdapter.enqueue_of_accepts hf]; exact ⟨rfl, rfl⟩
      refine ⟨rfl, rfl, rfl, Or.inr rfl, (hkept _).1, (hkept _).2, fun _ _ => hepoch,
        fun _ _ => Or.inl rfl, Or.inl (Or.inl rfl), ?_⟩
      rw [hevs, List.append_nil]
      exact adapterWay_enqueue_sleepImage hepoch
    · -- the adapter has refused, and the cycle ends at once
      have hdisarm : SleepImageLatch.disarmSleepCycle { s.sleepImageLatch with
          lastArmedEpoch := epoch, activeEpoch := epoch, state := .consumed } epoch =
          (.accepted, { s.sleepImageLatch with
            lastArmedEpoch := epoch, activeEpoch := 0, state := .inactive }) := by
        simp [SleepImageLatch.disarmSleepCycle, hepoch]
      rw [hdisarm]
      refine ⟨rfl, rfl, rfl, Or.inr rfl, rfl, rfl, ?_, ?_, Or.inr hadapter.way,
        hadapter.joins⟩
      · rintro - (hno | hno)
        · cases hno
        · cases hno
      · rintro hactive (hconsumed | hreset)
        · exact absurd hidle (hactive (Or.inl hconsumed))
        · exact Or.inr hreset
  · dsimp only
    rw [if_pos hrefused]
    exact .of_same rfl rfl rfl (Or.inl rfl) hkept (fun h => h) (fun h => h) hadapter

theorem quiet_disarmSleepCycle (s : Pipeline) (epoch : Nat) {evs : List Pipeline.Event}
    (hevs : shownEvents c evs = []) : Quiet c s (s.disarmSleepCycle epoch).2 evs := by
  have hadapter : HandsOut c s.adapter s.adapter (shownEvents c evs) := hevs ▸ handsOut_refl c _
  unfold Pipeline.disarmSleepCycle
  rcases SleepImageLatch.disarmSleepCycle_cases s.sleepImageLatch epoch with
    ⟨-, -, hdisarm⟩ | ⟨hrefused, -⟩
  · rw [hdisarm]
    have hkept : (s.adapter.cancelPendingSleepImage epoch).2.started = s.adapter.started ∧
        (s.adapter.cancelPendingSleepImage epoch).2.stopping = s.adapter.stopping ∧
        (adapterWay c (s.adapter.cancelPendingSleepImage epoch).2).Sublist
          (adapterWay c s.adapter) := by
      rcases PresentationAdapter.cancelPendingSleepImage_cases s.adapter epoch with
        heq | ⟨f, -, -, -, heq⟩
      · rw [heq]
        exact ⟨rfl, rfl, List.Sublist.refl _⟩
      · rw [heq]
        exact ⟨rfl, rfl, List.sublist_append_right _ _⟩
    refine ⟨rfl, rfl, rfl, Or.inl rfl, hkept.1, hkept.2.1, ?_, fun _ _ => Or.inr (Or.inl rfl),
      Or.inl (Or.inr (Or.inl rfl)), ?_⟩
    · rintro - (hno | hno)
      · cases hno
      · cases hno
    · rw [hevs, List.append_nil]
      exact hkept.2.2
  · dsimp only
    rw [if_neg hrefused]
    exact .of_same rfl rfl rfl (Or.inl rfl) rfl (fun h => h) (fun h => h) hadapter

/-- A step of the adapter's worker. -/
theorem quiet_onAdapter {r : Option PresentationAdapter} {evs : List Pipeline.Event}
    (h : s.onAdapter r = some s')
    (hadapter : ∀ a', r = some a' → HandsOut c s.adapter a' (shownEvents c evs)) :
    Quiet c s s' evs := by
  obtain ⟨a', ha', rfl⟩ := Option.map_eq_some_iff.mp h
  exact .of_same rfl rfl rfl (Or.inl rfl) rfl (fun h => h) (fun h => h) (hadapter a' ha')

theorem quiet_observe {evs : List Pipeline.Event} (h : s.observe c.toSettings = some s')
    (hevs : shownEvents c evs = []) : Quiet c s s' evs := by
  unfold Pipeline.observe at h
  split at h
  · next f accepted duration hw =>
    obtain ⟨a', ha', rfl⟩ := Option.map_eq_some_iff.mp h
    have hadapter : HandsOut c s.adapter a' (shownEvents c evs) := by
      rw [hevs]
      exact handsOut_observe ha'
    unfold Pipeline.onEngineSubmission
    dsimp only
    split_ifs <;> exact .of_same rfl rfl rfl (Or.inl rfl) rfl (fun h => h) (fun h => h) hadapter
  · cases h

/-! ### Every step -/

/-- A step of the pipeline that the tracked pipeline takes as it is. -/
theorem step_pipeline {a : Pipeline.Action} {evs : List Event}
    (hconvert : ∀ result, a ≠ .convert result) (hdequeue : a ≠ .dequeue) (hevaluate : a ≠ .evaluate)
    (hs : (system c).step x (.pipeline a) = some (x', evs)) :
    ∃ s' pevs, x.pipeline.step c.toSettings a = some (s', pevs) ∧ x' = { x with pipeline := s' } ∧
      evs = pevs.map .pipeline := by
  have hsame : (system c).step x (.pipeline a) = (x.pipeline.step c.toSettings a).map fun r =>
      ({ x with pipeline := r.1 }, r.2.map .pipeline) := by
    cases a with
    | convert result => exact absurd rfl (hconvert result)
    | dequeue => exact absurd rfl hdequeue
    | evaluate => exact absurd rfl hevaluate
    | _ => rfl
  rw [hsame] at hs
  obtain ⟨⟨s', pevs⟩, hstep, heq⟩ := Option.map_eq_some_iff.mp hs
  obtain ⟨rfl, rfl⟩ := Prod.mk.inj heq
  exact ⟨s', pevs, hstep, rfl, rfl⟩

/-- What a presentation or a disarm logs is no submission. -/
theorem shownEvents_presentEvents (s : Pipeline) (epoch : Nat) (now : TimePoint) :
    shownEvents c (s.presentEvents c.toSettings epoch now) = [] := by
  unfold Pipeline.presentEvents
  dsimp only
  split <;> rfl

theorem shownEvents_disarmEvents (s : Pipeline) (epoch : Nat) :
    shownEvents c (s.disarmEvents epoch) = [] := by
  unfold Pipeline.disarmEvents
  dsimp only
  split <;> rfl

theorem shownEvents_observedEvents (s : Pipeline) : shownEvents c s.observedEvents = [] := by
  unfold Pipeline.observedEvents
  split <;> rfl

theorem shownEvents_submittedEvents {s : Pipeline} {accepted : Bool} {f : Frame} {trailing : Bool}
    {start : TimePoint} (hw : s.adapter.worker = .submitting f trailing start) :
    shownEvents c (s.submittedEvents accepted) = ordinary c [f] := by
  unfold Pipeline.submittedEvents
  rw [hw]
  rfl

/-- What a step of the tracked pipeline is. -/
inductive Steps (c : Settings) (x : TrackedPipeline) (a : Action) :
    List Event → TrackedPipeline → Prop
  | quiet {s' : Pipeline} {pevs : List Pipeline.Event} (hquiet : Quiet c x.pipeline s' pevs) :
      Steps c x a (pevs.map .pipeline) { x with pipeline := s' }
  | startThreads {s' : Pipeline} (hs' : x.pipeline.startThreads = some s') :
      Steps c x a [] { x with pipeline := s' }
  | stopAdapter {s' : Pipeline} (hs' : x.pipeline.stopAdapter = some s') :
      Steps c x a [] { x with pipeline := s' }
  | captured (composition : CapturedComposition)
      (ha : a = .pipeline (.onCapturedComposition composition)) :
      Steps c x a [] { x with pipeline := x.pipeline.onCapturedComposition composition }
  | dequeue {s' : Pipeline} (hs' : x.pipeline.dequeue = some s') :
      Steps c x a [] ⟨s', x.dequeuedTracker⟩
  | converted {x' : TrackedPipeline} {evs : List Event} (readyFence : Option Nat)
      (calls : List ConverterEvent) (ha : a = .convert readyFence calls)
      (hs' : x.convert c readyFence calls = some (x', evs)) : Steps c x a evs x'
  | failed {s' : Pipeline} (hs' : x.pipeline.conversionFailed = some s') :
      Steps c x a [] { x with pipeline := s' }
  | checked {s' : Pipeline} (hs' : x.pipeline.checkSource = some s') :
      Steps c x a [] { x with pipeline := s' }
  | held {s' : Pipeline} (hs' : x.pipeline.hold = some s') :
      Steps c x a [] { x with pipeline := s' }
  | evaluated {s' : Pipeline} (hs' : x.pipeline.evaluate c.toSettings = some s') :
      Steps c x a (evaluatedEvents x.pipeline) { x with pipeline := s' }
  | read {s' : Pipeline} (now : TimePoint)
      (hs' : x.pipeline.readRefresh c.toSettings now = some s') :
      Steps c x a [] { x with pipeline := s' }
  | enqueued {s' : Pipeline} (hs' : x.pipeline.enqueue = some s') :
      Steps c x a ((x.pipeline.enqueuedFrame.toList.map Pipeline.Event.enqueued).map .pipeline)
        { x with pipeline := s' }
  | finished {s' : Pipeline} (hs' : x.pipeline.finish = some s') :
      Steps c x a [] { x with pipeline := s' }

theorem steps_of_step {a : Action} {evs : List Event}
    (hs : (system c).step x a = some (x', evs)) : Steps c x a evs x' := by
  cases a with
  | convert readyFence calls => exact .converted readyFence calls rfl hs
  | pipeline a =>
    by_cases hdequeue : a = .dequeue
    · subst hdequeue
      obtain ⟨⟨s', pevs⟩, hstep, heq⟩ := Option.map_eq_some_iff.mp hs
      obtain ⟨hs', rfl⟩ := System.eq_of_map (f := fun _ => []) hstep
      obtain ⟨rfl, rfl⟩ := Prod.mk.inj heq
      exact .dequeue hs'
    by_cases hevaluate : a = .evaluate
    · subst hevaluate
      obtain ⟨⟨s', pevs⟩, hstep, heq⟩ := Option.map_eq_some_iff.mp hs
      obtain ⟨hs', rfl⟩ := System.eq_of_map (f := fun _ => []) hstep
      obtain ⟨rfl, rfl⟩ := Prod.mk.inj heq
      rw [List.map_nil, List.append_nil]
      exact .evaluated hs'
    by_cases hconvert : ∃ result, a = .convert result
    · obtain ⟨result, rfl⟩ := hconvert
      cases hs
    obtain ⟨s', pevs, hstep, rfl, rfl⟩ :=
      step_pipeline (fun result hno => hconvert ⟨result, hno⟩) hdequeue hevaluate hs
    -- a method that is always enabled, and a step of the adapter's worker
    have hquiet : ∀ {r : Pipeline} {es : List Pipeline.Event}, some (r, es) = some (s', pevs) →
        Quiet c x.pipeline r es → Steps c x (.pipeline a) (pevs.map .pipeline)
          { x with pipeline := s' } := by
      intro r es hr hq
      obtain ⟨rfl, rfl⟩ := Prod.mk.inj (Option.some.inj hr)
      exact .quiet hq
    have hadapter : ∀ {r : Option PresentationAdapter} {es : List Pipeline.Event},
        (x.pipeline.onAdapter r).map (·, es) = some (s', pevs) →
        (∀ a', r = some a' → HandsOut c x.pipeline.adapter a' (shownEvents c es)) →
        Steps c x (.pipeline a) (pevs.map .pipeline) { x with pipeline := s' } := by
      intro r es hr hhands
      obtain ⟨hs', rfl⟩ := System.eq_of_map (f := fun _ => es) hr
      exact .quiet (quiet_onAdapter hs' hhands)
    have hworker : ∀ {r : Option Pipeline}, r.map (·, []) = some (s', pevs) →
        (r = some s' → Steps c x (.pipeline a) [] { x with pipeline := s' }) →
        Steps c x (.pipeline a) (pevs.map .pipeline) { x with pipeline := s' } := by
      intro r hr hnext
      obtain ⟨hs', rfl⟩ := System.eq_of_map (f := fun _ => []) hr
      exact hnext hs'
    cases a with
    | convert result => exact absurd ⟨result, rfl⟩ hconvert
    | dequeue => exact absurd rfl hdequeue
    | evaluate => exact absurd rfl hevaluate
    | requestDiagnosticRefresh mode => exact hquiet hstep (quiet_requestDiagnosticRefresh _ mode _)
    | cancelDiagnosticRefresh id => exact hquiet hstep (quiet_cancelDiagnosticRefresh _ id)
    | start => exact hquiet hstep (quiet_start _)
    | startThreads => exact hworker hstep .startThreads
    | stop => exact hquiet hstep (quiet_stop _)
    | stopAdapter => exact hworker hstep .stopAdapter
    | setEnabled enabled => exact hquiet hstep (quiet_setEnabled _ enabled)
    | resetForSourceChange =>
      refine hquiet hstep (quiet_resetForSourceChange _ ?_)
      split <;> rfl
    | publishSleepImageCatalog epoch width height entries selectedIndex mode =>
      exact hquiet hstep
        (quiet_publishSleepImageCatalog _ epoch width height entries selectedIndex mode)
    | armSleepCycle epoch => exact hquiet hstep (quiet_armSleepCycle _ epoch)
    | presentSleepImage epoch now =>
      exact hquiet hstep (quiet_presentSleepImage _ epoch now (shownEvents_presentEvents _ _ _))
    | disarmSleepCycle epoch =>
      exact hquiet hstep (quiet_disarmSleepCycle _ epoch (shownEvents_disarmEvents _ _))
    | onCapturedComposition composition =>
      obtain ⟨rfl, rfl⟩ := Prod.mk.inj (Option.some.inj hstep)
      exact .captured composition rfl
    | conversionFailed => exact hworker hstep .failed
    | checkSource => exact hworker hstep .checked
    | hold => exact hworker hstep .held
    | readRefresh now => exact hworker hstep (.read now)
    | enqueue =>
      obtain ⟨hs', rfl⟩ := System.eq_of_map
        (f := fun _ => x.pipeline.enqueuedFrame.toList.map Pipeline.Event.enqueued) hstep
      exact .enqueued hs'
    | finish => exact hworker hstep .finished
    | wake interval now => exact hadapter hstep fun _ ha => handsOut_wake ha
    | rewake now => exact hadapter hstep fun _ ha => handsOut_rewake ha
    | submitStart now => exact hadapter hstep fun _ ha => handsOut_submitStart ha
    | submitReturn accepted now =>
      refine hadapter hstep fun _ ha => ?_
      obtain ⟨f, trailing, start, hw, hhands⟩ := handsOut_submitReturn (c := c) ha
      rw [shownEvents_submittedEvents hw]
      exact hhands
    | record => exact hadapter hstep fun _ ha => handsOut_record ha
    | observe =>
      obtain ⟨hs', rfl⟩ := System.eq_of_map (f := fun _ => x.pipeline.observedEvents) hstep
      exact .quiet (quiet_observe hs' (shownEvents_observedEvents _))

end EinkLab.TrackedPipeline
