import EinkLab.LowerEngine.Equiv.SleepColor
import EinkLab.LowerEngine.Equiv.Uncertainty
import EinkLab.Transition.Effect

/-!
# The colour quality history and the panel

* `quality_history`: in every state a run reaches, the history is empty or it is the treated plane
  of the target that was accepted last, which was no sleep frame and was treated under the
  configuration the backend has recorded; and every white of a pair is prepared against such a
  history.

Two effects describe the parts of `Submit`: `Same` keeps history, configuration and colour input and
maps no plane, and `Gone` is an early return with the history kept or reset.  `Tracked` is what is
known in the middle of a `Submit`: the configuration that was loaded, the plane that was acquired,
and the planes that were mapped so far.
-/

namespace EinkLab.LowerEngine

open Transition Procedure

/-- The configuration that the quality history belongs to. -/
def Backend.configuration (b : Backend) : Configuration :=
  ⟨b.qualityConfig, b.grayConfig, b.vividConfig⟩

namespace Quality

/-! ### What is on the panel -/

/-- `raw` is the colour plane that `Submit` fills `color_input` with: the frame's own, or the rows
of the locked snapshot. -/
def Acquired (p : EinkDeviceProfile) (frame : Frame) (calls : List VendorEvent) (raw : List UInt8) :
    Prop :=
  (frame.composeBuffer = none ∧ raw = sleepColor frame) ∨
  ∃ buffer lease lock address, frame.composeBuffer = some (.android (some buffer) lease) ∧
    (⟨.lockAsync buffer, lock⟩ : VendorEvent) ∈ calls ∧ lock.address = some address ∧
    raw = copyRows address lock.bytesPerStride.toNat p.panelWidth p.panelHeight

/-- The last plane that the calls map is `raw`, treated under the configuration `c` they have
loaded. -/
def Shows (p : EinkDeviceProfile) (frame : Frame) (calls : List VendorEvent) (c : Configuration)
    (raw : List UInt8) : Prop :=
  Acquired p frame calls raw ∧
  ∃ whites output, colorCalls calls =
    loading c ++ (whites ++ [⟨.mapVpcoa (treatedColor c raw), output⟩])

/-- The history that a white is prepared against, once the configuration `c` is loaded. -/
def historyFor (b : Backend) (c : Configuration) (frame : Frame) : ColorQualityHistory :=
  if c = b.configuration ∧ frame.sleepImageEpoch = 0 then b.qualityHistory else {}

/-- The first plane that a `Submit` maps: a lone target, or a white. -/
def FirstPlane (b : Backend) (c : Configuration) (frame : Frame) (raw input : List UInt8) : Prop :=
  input = treatedColor c raw ∨
  (frame.diagnosticRefresh = .whiteThenTarget ∧
    input = List.replicate (treatedColor c raw).length 0xff) ∨
  ∃ thresholds, input = ((historyFor b c frame).prepare (treatedColor c raw) thresholds
    (frame.diagnosticRefresh = .colorCleanup)).2

/-- What the calls of a `Submit` in the state `b` map first. -/
def MapsFirst (p : EinkDeviceProfile) (b : Backend) (frame : Frame) (calls : List VendorEvent) :
    Prop :=
  ∀ c input output rest, colorCalls calls = loading c ++ ⟨.mapVpcoa input, output⟩ :: rest →
    ∃ raw, Acquired p frame calls raw ∧ FirstPlane b c frame raw input

theorem Acquired.extend {p : EinkDeviceProfile} {frame : Frame} {calls l : List VendorEvent}
    {raw : List UInt8} (h : Acquired p frame calls raw) : Acquired p frame (calls ++ l) raw := by
  rcases h with hown | ⟨buffer, lease, lock, address, hplane, hmem, haddress, hraw⟩
  · exact Or.inl hown
  · exact Or.inr ⟨buffer, lease, lock, address, hplane, List.mem_append_left _ hmem, haddress, hraw⟩

/-- The calls tell the configuration that was loaded. -/
theorem loading_inj {c c' : Configuration} {l l' : List VendorEvent}
    (h : loading c ++ l = loading c' ++ l') : c = c' ∧ l = l' := by
  obtain ⟨hquality, h⟩ := List.cons.inj h
  obtain ⟨hgray, h⟩ := List.cons.inj h
  obtain ⟨hvivid, h⟩ := List.cons.inj h
  obtain ⟨-, hquality⟩ := Sigma.mk.inj hquality
  obtain ⟨-, hgray⟩ := Sigma.mk.inj hgray
  obtain ⟨-, hvivid⟩ := Sigma.mk.inj hvivid
  refine ⟨?_, h⟩
  cases c
  cases c'
  obtain rfl := eq_of_heq hquality
  obtain rfl := eq_of_heq hgray
  obtain rfl := eq_of_heq hvivid
  rfl

/-! ### Parts that keep the history -/

structure Same (b : Backend) (l : List VendorEvent) (b' : Backend) : Prop where
  calls : colorCalls l = []
  history : b'.qualityHistory = b.qualityHistory
  config : b'.configuration = b.configuration
  input : b'.colorInput = b.colorInput

structure Gone (b : Backend) (l : List VendorEvent) (b' : Backend) : Prop where
  calls : colorCalls l = []
  history : b'.qualityHistory.previous = [] ∨ b'.qualityHistory = b.qualityHistory
  config : b'.configuration = b.configuration

theorem Same.refl (b : Backend) : Same b [] b := ⟨rfl, rfl, rfl, rfl⟩

theorem Same.trans {b b' b'' : Backend} {l l' : List VendorEvent} (h : Same b l b')
    (h' : Same b' l' b'') : Same b (l ++ l') b'' := by
  refine ⟨?_, h'.history.trans h.history, h'.config.trans h.config, h'.input.trans h.input⟩
  rw [colorCalls_append, h.calls, h'.calls]
  rfl

theorem Same.gone {b b' b'' : Backend} {l l' : List VendorEvent} (h : Same b l b')
    (h' : Gone b' l' b'') : Gone b (l ++ l') b'' := by
  refine ⟨?_, ?_, h'.config.trans h.config⟩
  · rw [colorCalls_append, h.calls, h'.calls]
    rfl
  · rw [← h.history]
    exact h'.history

theorem passive_same : Passive Gone Same :=
  ⟨⟨Same.refl, Same.trans, Same.gone⟩, fun _ _ => ⟨rfl, rfl, rfl, rfl⟩,
    fun _ _ _ => ⟨rfl, rfl, rfl, rfl⟩, fun _ _ => ⟨rfl, rfl, rfl, rfl⟩,
    fun _ _ => ⟨rfl, rfl, rfl, rfl⟩, fun _ _ => ⟨rfl, rfl, rfl, rfl⟩⟩

theorem chains_same : Chains Gone Same := passive_same.toChains

theorem same_of_keepsColor (b b' : Backend) (h : KeepsColor b b') : Same b [] b' := by
  refine ⟨rfl, h.history, ?_, h.input⟩
  unfold Backend.configuration
  rw [h.quality, h.gray, h.vivid]

theorem gone_of_keepsColor (b b' : Backend) (h : KeepsColor b b') : Gone b [] b' :=
  ⟨rfl, Or.inr h.history, (same_of_keepsColor b b' h).config⟩

theorem gone_of_refused : Refuses Gone := fun _ _ _ _ => ⟨rfl, Or.inr rfl, rfl⟩

theorem gone_countRejected : Permits Gone Backend.countRejected := fun _ => ⟨rfl, Or.inr rfl, rfl⟩

theorem gone_poison : Permits Gone Backend.poison := fun _ => ⟨rfl, Or.inr rfl, rfl⟩

theorem gone_uncertain : Permits Gone fun b => b.poison.resetQualityHistory :=
  fun _ => ⟨rfl, Or.inl rfl, rfl⟩

theorem allows_same {o : VendorCall} (ho : o.isColor = false) : Allows Same o := by
  refine fun b r => ⟨?_, rfl, rfl, rfl⟩
  simp [colorCalls, ho]

theorem reads_same (o : VendorCall) (ho : o.isProperty = true) : Allows Same o :=
  allows_same (VendorCall.isColor_of_isProperty ho)

/-- Only properties are read. -/
def Reads : BackendEffect := fun b l b' => colorCalls l = [] ∧ b' = b

theorem Reads.trans {b b' b'' : Backend} {l l' : List VendorEvent} (h : Reads b l b')
    (h' : Reads b' l' b'') : Reads b (l ++ l') b'' := by
  refine ⟨?_, h'.2.trans h.2⟩
  rw [colorCalls_append, h.1, h'.1]
  rfl

theorem chains_reads : Chains Reads Reads := ⟨fun _ => ⟨rfl, rfl⟩, Reads.trans, Reads.trans⟩

theorem tunes_reads (o : VendorCall) (ho : o.isTuning = true) : Allows Reads o := by
  have hcolor := VendorCall.isColor_of_isProperty (VendorCall.isProperty_of_isTuning ho)
  refine fun b r => ⟨?_, rfl⟩
  simp [colorCalls, hcolor]

abbrev IsSame {α : Type} (m : Submission α) : Prop := Does Gone Same m

section

variable {p : EinkDeviceProfile} {frame : Frame}

theorem same_awaitWhite (target : Target) : IsSame (awaitWhite target) := by
  refine does_awaitWhite passive_same reads_same passive_same gone_uncertain fun hg => ?_
  -- the buffer is unlocked after the loop has given up
  refine ⟨?_, hg.history, hg.config⟩
  rw [colorCalls_append, hg.calls]
  cases target.composeHandle <;> rfl

theorem same_submitTarget (target : Target) (envelope : ObservedUpdateEnvelope) :
    IsSame (submitTarget p frame target envelope) :=
  does_submitTarget passive_same (fun _ => allows_same rfl)
    (fun _ => allows_same rfl) gone_uncertain
    same_of_keepsColor gone_of_keepsColor envelope

end

/-! ### Through one `Submit` -/

section

variable {p : EinkDeviceProfile} {frame : Frame} {b b₁ b₂ : Backend} {c : Configuration}
  {raw : List UInt8} {w h l : List VendorEvent} {α β : Type}

/-- An early return of a `Submit` that began in the state `b`. -/
structure Left (p : EinkDeviceProfile) (frame : Frame) (b : Backend) (h : List VendorEvent)
    (b₁ : Backend) : Prop where
  first : MapsFirst p b frame h
  history : b₁.qualityHistory.previous = [] ∨
    (b₁.qualityHistory = b.qualityHistory ∧ b₁.configuration = b.configuration)

/-- The configuration `c` is loaded. -/
structure Loaded (frame : Frame) (b : Backend) (c : Configuration) (h : List VendorEvent)
    (b₁ : Backend) : Prop where
  calls : colorCalls h = loading c
  config : b₁.configuration = c
  history : b₁.qualityHistory = historyFor b c frame

/-- The plane `raw` is acquired and treated, and the calls `w` have mapped planes. -/
structure Tracked (p : EinkDeviceProfile) (frame : Frame) (b : Backend) (c : Configuration)
    (raw : List UInt8) (w h : List VendorEvent) (b₁ : Backend) : Prop where
  calls : colorCalls h = loading c ++ w
  first : ∀ input output rest, w = ⟨.mapVpcoa input, output⟩ :: rest →
    FirstPlane b c frame raw input
  config : b₁.configuration = c
  history : b₁.qualityHistory = historyFor b c frame
  acquired : Acquired p frame h raw
  input : b₁.colorInput = treatedColor c raw

theorem mapsFirst_of_quiet (hcalls : colorCalls h = []) : MapsFirst p b frame h := by
  intro c input output rest heq
  rw [hcalls] at heq
  cases heq

/-- The history of a loaded configuration is the one before, or none. -/
theorem historyFor_cases (b : Backend) (c : Configuration) (frame : Frame) :
    (historyFor b c frame).previous = [] ∨
      (historyFor b c frame = b.qualityHistory ∧ c = b.configuration) := by
  unfold historyFor
  split
  · next hsame => exact Or.inr ⟨rfl, hsame.1⟩
  · exact Or.inl rfl

theorem Gone.history_of (hg : Gone b₁ l b₂) (hconfig : b₁.configuration = c)
    (hhistory : b₁.qualityHistory = historyFor b c frame) :
    b₂.qualityHistory.previous = [] ∨
      (b₂.qualityHistory = b.qualityHistory ∧ b₂.configuration = b.configuration) := by
  rcases hg.history with hempty | hkept
  · exact Or.inl hempty
  · rw [hkept, hhistory, hg.config, hconfig]
    exact historyFor_cases b c frame

theorem Loaded.left (hl : Loaded frame b c h b₁) (hg : Gone b₁ l b₂) :
    Left p frame b (h ++ l) b₂ := by
  refine ⟨?_, hg.history_of hl.config hl.history⟩
  intro c' input output rest heq
  rw [colorCalls_append, hl.calls, hg.calls] at heq
  obtain ⟨-, hnil⟩ := loading_inj heq
  cases hnil

theorem Loaded.extend (hl : Loaded frame b c h b₁) (hs : Same b₁ l b₂) :
    Loaded frame b c (h ++ l) b₂ := by
  refine ⟨?_, hs.config.trans hl.config, hs.history.trans hl.history⟩
  rw [colorCalls_append, hl.calls, hs.calls, List.append_nil]

theorem Tracked.mapsFirst (ht : Tracked p frame b c raw w h b₁) (hl : colorCalls l = []) :
    MapsFirst p b frame (h ++ l) := by
  intro c' input output rest heq
  rw [colorCalls_append, ht.calls, hl, List.append_nil] at heq
  obtain ⟨rfl, hw⟩ := loading_inj heq
  exact ⟨raw, ht.acquired.extend, ht.first input output rest hw⟩

theorem Tracked.left (ht : Tracked p frame b c raw w h b₁) (hg : Gone b₁ l b₂) :
    Left p frame b (h ++ l) b₂ :=
  ⟨ht.mapsFirst hg.calls, hg.history_of ht.config ht.history⟩

theorem Tracked.extend (ht : Tracked p frame b c raw w h b₁) (hs : Same b₁ l b₂) :
    Tracked p frame b c raw w (h ++ l) b₂ := by
  refine ⟨?_, ht.first, hs.config.trans ht.config, hs.history.trans ht.history,
    ht.acquired.extend, hs.input.trans ht.input⟩
  rw [colorCalls_append, ht.calls, hs.calls, List.append_nil]

theorem Loaded.bind {m : Submission α} {f : α → Submission β}
    {Q : β → Assertion VendorCall VendorAnswer Backend} (hl : Loaded frame b c h b₁)
    (hm : IsSame m)
    (hrest : ∀ a h b₁, Loaded frame b c h b₁ → (f a).Sat (Left p frame b) Q h b₁) :
    (m >>= f).Sat (Left p frame b) Q h b₁ := by
  rw [sat_bind]
  exact hm.sat (fun _ _ hg => hl.left hg) fun a _ _ hs => hrest a _ _ (hl.extend hs)

theorem Tracked.bind {m : Submission α} {f : α → Submission β}
    {Q : β → Assertion VendorCall VendorAnswer Backend} (ht : Tracked p frame b c raw w h b₁)
    (hm : IsSame m)
    (hrest : ∀ a h b₁, Tracked p frame b c raw w h b₁ → (f a).Sat (Left p frame b) Q h b₁) :
    (m >>= f).Sat (Left p frame b) Q h b₁ := by
  rw [sat_bind]
  exact hm.sat (fun _ _ hg => ht.left hg) fun a _ _ hs => hrest a _ _ (ht.extend hs)

/-- A change of the configuration, or a sleep frame, ends the history. -/
theorem sat_loadConfiguration (hs : Same b h b₁) :
    (loadConfiguration frame).Sat (Left p frame b) (fun c => Loaded frame b c) h b₁ := by
  intro quality gray vivid
  have hcalls : colorCalls (h ++ [⟨.qualityConfig, quality⟩] ++ [⟨.grayConfig, gray⟩] ++
      [⟨.vividConfig, vivid⟩]) = loading ⟨quality, gray, vivid⟩ := by
    rw [colorCalls_append, colorCalls_append, colorCalls_append, hs.calls]
    rfl
  by_cases hchanged : (quality ≠ b₁.qualityConfig || gray ≠ b₁.grayConfig ||
      vivid ≠ b₁.vividConfig || frame.sleepImageEpoch ≠ 0) = true
  · show Loaded frame b ⟨quality, gray, vivid⟩ _ (if _ then _ else b₁)
    rw [if_pos hchanged]
    refine ⟨hcalls, rfl, ?_⟩
    have hnot : ¬ ((⟨quality, gray, vivid⟩ : Configuration) = b.configuration ∧
        frame.sleepImageEpoch = 0) := by
      rintro ⟨hsame, hawake⟩
      rw [← hs.config] at hsame
      obtain ⟨hq, hg, hv⟩ := Configuration.mk.inj hsame
      simp [hq, hg, hv, hawake] at hchanged
    unfold historyFor
    rw [if_neg hnot]
    rfl
  · show Loaded frame b ⟨quality, gray, vivid⟩ _ (if _ then _ else b₁)
    rw [if_neg hchanged]
    simp only [Bool.or_eq_true, decide_eq_true_eq, not_or, not_not] at hchanged
    obtain ⟨⟨⟨rfl, rfl⟩, rfl⟩, hawake⟩ := hchanged
    refine ⟨hcalls, rfl, ?_⟩
    unfold historyFor
    rw [if_pos ⟨hs.config, hawake⟩]
    exact hs.history

/-- The expanded gray plane is the sleep frame's colour. -/
theorem expand_eq_sleepColor {rgba : List UInt8} (hrgba : frame.sleepImageRgba = none)
    (hexpand : expandSleepGrayscaleToRgba frame = some rgba) : rgba = sleepColor frame := by
  unfold expandSleepGrayscaleToRgba at hexpand
  split_ifs at hexpand
  cases hgray : frame.grayscaleBuffer with
  | none => simp [hgray] at hexpand
  | some gray =>
    simp only [hgray] at hexpand
    split_ifs at hexpand
    simp [sleepColor, hrgba, hgray, ← Option.some.inj hexpand]

theorem sat_mapSnapshot {buffer : GraphicBuffer} {lease : Option Nat}
    (hplane : frame.composeBuffer = some (.android (some buffer) lease))
    (hl : Loaded frame b c h b₁) :
    (mapSnapshot p buffer).Sat (Left p frame b)
      (fun _ h b₁ => Loaded frame b c h b₁ ∧ Acquired p frame h b₁.colorInput) h b₁ := by
  unfold mapSnapshot
  rw [sat_bind, sat_lockAsync]
  intro lock
  have hlocked : Same b₁ [⟨.lockAsync buffer, lock⟩] b₁ := ⟨rfl, rfl, rfl, rfl⟩
  have hl' := hl.extend hlocked
  have hrefuse : Left p frame b (h ++ [⟨.lockAsync buffer, lock⟩]) b₁.countRejected := by
    have hleft := hl'.left (p := p) (gone_countRejected b₁)
    rwa [List.append_nil] at hleft
  cases haddress : lock.address with
  | none => exact hrefuse
  | some address =>
    dsimp only
    rw [sat_ite]
    refine ⟨fun _ => hrefuse, fun _ => ?_⟩
    rw [sat_ite]
    refine ⟨fun _ => ?_, fun _ => ?_⟩
    · rw [LowerEngine.sat_refuseUnlocked]
      exact hl'.left ⟨rfl, Or.inr rfl, rfl⟩
    · rw [sat_modify]
      refine ⟨⟨hl'.calls, hl'.config, hl'.history⟩, Or.inr ⟨buffer, lease, lock, address, hplane,
        by simp, haddress, rfl⟩⟩

theorem sat_acquireColor (hl : Loaded frame b c h b₁) :
    (acquireColor p frame).Sat (Left p frame b)
      (fun _ h b₁ => Loaded frame b c h b₁ ∧ Acquired p frame h b₁.colorInput) h b₁ := by
  have hrefuse : Left p frame b h b₁.countRejected := by
    have hleft := hl.left (p := p) (gone_countRejected b₁)
    rwa [List.append_nil] at hleft
  unfold acquireColor
  cases hplane : frame.composeBuffer with
  | none =>
    cases hrgba : frame.sleepImageRgba with
    | some rgba =>
      dsimp only
      rw [sat_bind, sat_get, sat_bind, sat_refuseIf]
      refine ⟨fun _ => hrefuse, fun _ => ?_⟩
      rw [sat_bind, sat_modify, sat_pure]
      exact ⟨⟨hl.calls, hl.config, hl.history⟩, Or.inl ⟨hplane, by simp [sleepColor, hrgba]⟩⟩
    | none =>
      dsimp only
      cases hexpand : expandSleepGrayscaleToRgba frame with
      | none => exact hrefuse
      | some rgba =>
        dsimp only
        rw [sat_bind, sat_modify, sat_pure]
        exact ⟨⟨hl.calls, hl.config, hl.history⟩,
          Or.inl ⟨hplane, expand_eq_sleepColor hrgba hexpand⟩⟩
  | some plane =>
    cases plane with
    | portable => exact hrefuse
    | android buffer lease =>
      cases buffer with
      | none => exact hrefuse
      | some buffer =>
        dsimp only
        rw [sat_bind, sat_refuseIf]
        refine ⟨fun _ => hrefuse, fun _ => ?_⟩
        rw [sat_bind]
        exact (sat_mapSnapshot hplane hl).mono (fun _ _ hF => hF) fun _ _ _ hQ => hQ

/-- A white is all white, or the history's answer to the treated plane. -/
theorem sat_prepareWhite (ht : Tracked p frame b c raw [] h b₁) :
    (prepareWhite frame c).Sat (Left p frame b) (fun whitened h b₁ =>
      Tracked p frame b c raw [] h b₁ ∧
        (whitened ≠ 0 → FirstPlane b c frame raw b₁.whiteInput)) h b₁ := by
  unfold prepareWhite
  rw [sat_bind, sat_get, sat_ite]
  refine ⟨fun hdiagnostic => ?_, fun _ => ?_⟩
  · rw [sat_bind, sat_modify, sat_pure]
    refine ⟨⟨ht.calls, ht.first, ht.config, ht.history, ht.acquired, ht.input⟩, fun _ => ?_⟩
    exact Or.inr (Or.inl ⟨of_decide_eq_true (by simpa using hdiagnostic), by rw [ht.input]⟩)
  rw [sat_ite]
  refine ⟨fun _ => ?_, fun _ => ⟨ht, fun hne => absurd rfl hne⟩⟩
  refine ht.bind (Does.call (allows_same rfl)) fun chroma h₂ b₂ ht₂ => ?_
  refine ht₂.bind (Does.call (allows_same rfl)) fun change h₃ b₃ ht₃ => ?_
  refine ht₃.bind (Does.call (allows_same rfl)) fun nearWhite h₄ b₄ ht₄ => ?_
  rw [sat_bind, sat_modify, sat_pure]
  refine ⟨⟨ht₄.calls, ht₄.first, ht₄.config, ht₄.history, ht₄.acquired, ht₄.input⟩, fun _ => ?_⟩
  refine Or.inr (Or.inr ⟨⟨chroma, change, nearWhite⟩, ?_⟩)
  rw [← ht.history, ← ht.input]

theorem sat_mapColor {handle : Option GraphicBuffer} {input : List UInt8} {g : Backend → Backend}
    (ht : Tracked p frame b c raw w h b₁) (hg : Permits Gone g)
    (hinput : w = [] → FirstPlane b c frame raw input) :
    (mapColor handle input g).Sat (Left p frame b) (fun _ h b₁ => ∃ output,
      Tracked p frame b c raw (w ++ [⟨.mapVpcoa input, output⟩]) h b₁) h b₁ := by
  unfold mapColor
  rw [sat_bind, sat_mapVpcoa]
  intro mapping
  have hmapped : Tracked p frame b c raw (w ++ [⟨.mapVpcoa input, mapping⟩])
      (h ++ [⟨.mapVpcoa input, mapping⟩]) b₁ := by
    refine ⟨?_, ?_, ht.config, ht.history, ht.acquired.extend, ht.input⟩
    · rw [colorCalls_append, ht.calls, colorCalls_singleton rfl, List.append_assoc]
    · intro input' output rest heq
      cases w with
      | nil =>
        obtain ⟨hhead, -⟩ := List.cons.inj heq
        obtain ⟨hcall, -⟩ := Sigma.mk.inj hhead
        obtain rfl := VendorCall.mapVpcoa.inj hcall
        exact hinput rfl
      | cons e w =>
        obtain ⟨rfl, -⟩ := List.cons.inj heq
        exact ht.first input' output w rfl
  refine hmapped.bind (Does.modify fun _ => ⟨rfl, rfl, rfl, rfl⟩) fun _ h₂ b₂ ht₂ => ?_
  rw [sat_ite]
  refine ⟨fun _ => ?_, fun _ => ?_⟩
  · rw [LowerEngine.sat_refuseUnlocked]
    refine ht₂.left ⟨?_, (hg b₂).history, (hg b₂).config⟩
    cases handle <;> rfl
  · refine ht₂.bind (Does.call (allows_same rfl)) fun gray h₃ b₃ ht₃ => ?_
    rw [sat_bind, sat_modify, sat_pure]
    exact ⟨mapping, ht₃.calls, ht₃.first, ht₃.config, ht₃.history, ht₃.acquired, ht₃.input⟩

theorem Tracked.sat_refuseUnlocked {handle : Option GraphicBuffer} {g : Backend → Backend}
    {Q : α → Assertion VendorCall VendorAnswer Backend} (ht : Tracked p frame b c raw w h b₁)
    (hg : Permits Gone g) : (refuseUnlocked handle g : Submission α).Sat
      (Left p frame b) Q h b₁ := by
  rw [LowerEngine.sat_refuseUnlocked]
  refine ht.left ⟨?_, (hg b₁).history, (hg b₁).config⟩
  cases handle <;> rfl

/-- The white that is mapped was prepared against the history. -/
theorem sat_submitWhite {handle : Option GraphicBuffer} {gaps : QualityGaps}
    (ht : Tracked p frame b c raw [] h b₁) (hwhite : FirstPlane b c frame raw b₁.whiteInput) :
    (submitWhite p frame handle gaps).Sat (Left p frame b)
      (fun _ h b₁ => ∃ e, Tracked p frame b c raw [e] h b₁) h b₁ := by
  unfold submitWhite
  rw [sat_bind, sat_get]
  refine ht.bind (does_activeSubmissionLimit chains_same reads_same) fun limit h₂ b₂ ht₂ => ?_
  rw [sat_ite]
  refine ⟨fun _ => ht₂.sat_refuseUnlocked fun _ => ⟨rfl, Or.inr rfl, rfl⟩, fun _ => ?_⟩
  rw [sat_bind]
  refine (sat_mapColor ht₂ gone_poison fun _ => hwhite).mono (fun _ _ hF => hF) ?_
  rintro ⟨mapped, gray⟩ h₃ b₃ ⟨output, ht₃⟩
  refine ht₃.bind (Does.onlyIf chains_same (does_sleepUntil passive_same _)) fun _ h₄ b₄ ht₄ => ?_
  refine ht₄.bind (does_now passive_same) fun _ h₅ b₅ ht₅ => ?_
  refine ht₅.bind (Does.call (allows_same rfl)) fun before h₆ b₆ ht₆ => ?_
  rw [sat_ite]
  refine ⟨fun _ => ht₆.sat_refuseUnlocked gone_poison, fun _ => ?_⟩
  refine ht₆.bind (does_invokeUpdate fun _ => allows_same rfl) fun result h₇ b₇ ht₇ => ?_
  refine ht₇.bind (does_now passive_same) fun returned h₈ b₈ ht₈ => ?_
  refine ht₈.bind (Does.modify fun _ => ⟨rfl, rfl, rfl, rfl⟩) fun _ h₉ b₉ ht₉ => ?_
  rw [sat_ite]
  refine ⟨fun _ => ht₉.sat_refuseUnlocked fun _ => ⟨rfl, Or.inr rfl, rfl⟩, fun _ => ?_⟩
  have haccepted : Permits Same fun b => { b with
      completionObserver := b.completionObserver.recordAccepted frame.sequence returned } :=
    fun _ => ⟨rfl, rfl, rfl, rfl⟩
  refine ht₉.bind (Does.modify haccepted) fun _ h' b' ht' => ?_
  exact ⟨_, ht'⟩

/-- The plane that is mapped last is the treated one. -/
theorem sat_prepareColorTarget (hl : Loaded frame b c h b₁) :
    (prepareColorTarget p frame c).Sat (Left p frame b) (fun _ h b₁ => ∃ raw whites output,
      Tracked p frame b c raw (whites ++ [⟨.mapVpcoa (treatedColor c raw), output⟩]) h b₁)
      h b₁ := by
  have hpoison : Permits Gone fun b => b.countRejected.poison := fun _ => ⟨rfl, Or.inr rfl, rfl⟩
  unfold prepareColorTarget
  rw [sat_bind]
  refine (sat_acquireColor hl).mono (fun _ _ hF => hF) ?_
  rintro handle h₂ b₂ ⟨hl₂, hacquired⟩
  have ht : Tracked p frame b c b₂.colorInput [] h₂ (treatColor c b₂) := by
    refine ⟨?_, nofun, hl₂.config, hl₂.history, hacquired, rfl⟩
    rw [hl₂.calls, List.append_nil]
  rw [sat_bind, sat_modify, sat_bind]
  refine (sat_prepareWhite ht).mono (fun _ _ hF => hF) ?_
  rintro whitened h₃ b₃ ⟨ht₃, hwhite⟩
  rw [sat_ite]
  refine ⟨fun _ => ?_, fun hne => ?_⟩
  · rw [sat_bind, sat_get, sat_bind, ht₃.input]
    refine (sat_mapColor ht₃ hpoison fun _ => Or.inl rfl).mono (fun _ _ hF => hF) ?_
    rintro _ h₄ b₄ ⟨output, ht₄⟩
    exact ⟨_, [], output, ht₄⟩
  · rw [sat_bind]
    -- reading properties leaves the prepared white in place
    have hgaps : Does Reads Reads (planGaps frame c) := does_planGaps chains_reads tunes_reads
    refine hgaps.sat (fun _ _ hr => ht₃.left ⟨hr.1, Or.inr (hr.2 ▸ rfl), hr.2 ▸ rfl⟩) ?_
    rintro gaps l _ ⟨hcalls, rfl⟩
    have ht₄ := ht₃.extend (l := l) ⟨hcalls, rfl, rfl, rfl⟩
    rw [sat_bind]
    refine (sat_submitWhite ht₄ (hwhite hne)).mono (fun _ _ hF => hF) ?_
    rintro white h₅ b₅ ⟨e, ht₅⟩
    rw [sat_bind, sat_get, sat_bind, ht₅.input]
    refine (sat_mapColor ht₅ hpoison nofun).mono (fun _ _ hF => hF) ?_
    rintro _ h₆ b₆ ⟨output, ht₆⟩
    exact ⟨_, [e], output, ht₆⟩

/-- What a target is submitted with: on a colour panel its treated plane has been mapped. -/
def Aimed (p : EinkDeviceProfile) (frame : Frame) (b : Backend) (c : Configuration) :
    Assertion VendorCall VendorAnswer Backend := fun h b₁ =>
  (p.hasColorCfa = true ∧ ∃ raw whites output,
    Tracked p frame b c raw (whites ++ [⟨.mapVpcoa (treatedColor c raw), output⟩]) h b₁) ∨
  (p.hasColorCfa = false ∧ Loaded frame b c h b₁)

theorem sat_prepareTarget (hl : Loaded frame b c h b₁) :
    (prepareTarget p frame c).Sat (Left p frame b) (fun _ => Aimed p frame b c) h b₁ := by
  have harrange : IsSame (arrangeGrayscale p frame) :=
    does_arrangeGrayscale chains_same gone_of_refused fun _ _ _ _ _ => ⟨rfl, rfl, rfl, rfl⟩
  refine hl.bind harrange fun gray h₂ b₂ hl₂ => ?_
  rw [sat_ite]
  refine ⟨fun hcolor => ?_, fun hmono => ?_⟩
  · refine (sat_prepareColorTarget hl₂).mono (fun _ _ hF => hF) fun _ _ _ hQ => ?_
    exact Or.inl ⟨hcolor, hQ⟩
  · exact Or.inr ⟨Bool.eq_false_iff.mpr hmono, hl₂⟩

theorem Aimed.bind {m : Submission α} {f : α → Submission β}
    {Q : β → Assertion VendorCall VendorAnswer Backend} (ha : Aimed p frame b c h b₁)
    (hm : IsSame m)
    (hrest : ∀ a h b₁, Aimed p frame b c h b₁ → (f a).Sat (Left p frame b) Q h b₁) :
    (m >>= f).Sat (Left p frame b) Q h b₁ := by
  rcases ha with ⟨hcolor, raw, whites, output, ht⟩ | ⟨hmono, hl⟩
  · exact ht.bind hm fun a h b₁ ht' => hrest a h b₁ (Or.inl ⟨hcolor, raw, whites, output, ht'⟩)
  · exact hl.bind hm fun a h b₁ hl' => hrest a h b₁ (Or.inr ⟨hmono, hl'⟩)

/-- The history after a `Submit` that is accepted. -/
structure Accepted (p : EinkDeviceProfile) (frame : Frame) (b : Backend) (h : List VendorEvent)
    (b₁ : Backend) : Prop where
  first : MapsFirst p b frame h
  history : b₁.qualityHistory.previous = [] ∨
    (p.hasColorCfa = true ∧ frame.sleepImageEpoch = 0 ∧ ∃ raw,
      Shows p frame h b₁.configuration raw ∧
        b₁.qualityHistory.previous = treatedColor b₁.configuration raw)

/-- What follows the acceptance maps no plane and keeps history and configuration. -/
theorem Accepted.extend (ha : Accepted p frame b h b₁) (hs : Same b₁ l b₂) :
    Accepted p frame b (h ++ l) b₂ := by
  refine ⟨?_, ?_⟩
  · intro c input output rest heq
    rw [colorCalls_append, hs.calls, List.append_nil] at heq
    obtain ⟨raw, hacquired, hfirst⟩ := ha.first c input output rest heq
    exact ⟨raw, hacquired.extend, hfirst⟩
  · rw [hs.history, hs.config]
    rcases ha.history with
      hempty | ⟨hcolor, hawake, raw, ⟨hacquired, whites, output, hcalls⟩, hprev⟩
    · exact Or.inl hempty
    · refine Or.inr ⟨hcolor, hawake, raw, ⟨hacquired.extend, whites, output, ?_⟩, hprev⟩
      rw [colorCalls_append, hs.calls, List.append_nil]
      exact hcalls

/-- An accepted target defines the history; without a colour panel there is none. -/
theorem sat_acceptTarget {started : TimePoint} {target : Target} {submitted : White}
    (hmono : p.hasColorCfa = false → b.qualityHistory.previous = [])
    (ha : Aimed p frame b c h b₁) :
    (acceptTarget p frame c started target submitted).Sat (Left p frame b)
      (fun _ => Accepted p frame b) h b₁ := by
  unfold acceptTarget
  rw [onlyIf, sat_ite]
  rcases ha with ⟨hcolor, raw, whites, output, ht⟩ | ⟨hgray, hl⟩
  swap
  · -- a gray product accepts nothing, and has no history
    rw [hgray]
    refine ⟨fun hcolor => absurd hcolor Bool.false_ne_true, fun _ => ⟨?_, Or.inl ?_⟩⟩
    · have hleft := hl.left (p := p) (gone_of_keepsColor b₁ b₁ ⟨rfl, rfl, rfl, rfl, rfl⟩)
      rw [List.append_nil] at hleft
      exact hleft.first
    · rw [hl.history]
      -- what is left of the history was there before, and on such a panel that was nothing
      rcases historyFor_cases b c frame with hempty | ⟨hkept, -⟩
      · exact hempty
      · rw [hkept]
        exact hmono hgray
  refine ⟨fun _ => ?_, fun hnot => absurd hcolor hnot⟩
  refine ht.bind (does_awaitTarget passive_same gone_uncertain _) fun _ h₂ b₂ ht₂ => ?_
  rw [sat_bind, sat_modify]
  have haccepted : Accepted p frame b h₂
      (if c.qualityEnabled && frame.sleepImageEpoch = 0 then
        { b₂ with qualityHistory := b₂.qualityHistory.accept b₂.colorInput }
      else b₂.resetQualityHistory) := by
    refine ⟨?_, ?_⟩
    · have hfirst := ht₂.mapsFirst (l := []) rfl
      rwa [List.append_nil] at hfirst
    split
    · -- the history takes the plane that is on the panel now, treated as it was shown
      next hkeep =>
      simp only [Bool.and_eq_true, decide_eq_true_eq] at hkeep
      show (b₂.qualityHistory.accept b₂.colorInput).previous = [] ∨ _
      unfold ColorQualityHistory.accept
      split
      · exact Or.inl rfl
      · refine Or.inr ⟨hcolor, hkeep.2, raw, ?_, ?_⟩
        · show Shows p frame h₂ b₂.configuration raw
          rw [ht₂.config]
          exact ⟨ht₂.acquired, whites, output, ht₂.calls⟩
        · show b₂.colorInput = treatedColor b₂.configuration raw
          rw [ht₂.config]
          exact ht₂.input
    · exact Or.inl rfl
  have hcount : Does Never Same (onlyIf target.white.isSome do
      let time ← now
      modify fun b => { b with
        qualitySequences := b.qualitySequences + 1
        qualityWhitenedPixels := target.whitenedPixels
        latestQualityNs := time - started }) := by
    have hp := passive_same.never
    refine Does.onlyIf hp.toChains (Does.bind hp.toChains (does_now hp) fun time => ?_)
    exact Does.modify fun _ => ⟨rfl, rfl, rfl, rfl⟩
  exact hcount.sat (fun _ _ hnever => hnever.elim) fun _ l b' hs => haccepted.extend hs

/-- **One `Submit`**. -/
theorem sat_submit (hmono : p.hasColorCfa = false → b.qualityHistory.previous = []) :
    (submit p frame).Sat (Left p frame b) (fun _ => Accepted p frame b) [] b := by
  have hgone {l : List VendorEvent} {b₁ : Backend} (hg : Gone b l b₁) : Left p frame b l b₁ := by
    refine ⟨mapsFirst_of_quiet hg.calls, ?_⟩
    rcases hg.history with hempty | hkept
    · exact Or.inl hempty
    · exact Or.inr ⟨hkept, hg.config⟩
  unfold submit
  rw [sat_bind]
  have hentry : IsSame (entryChecks p frame) :=
    does_entryChecks passive_same reads_same gone_of_refused
  refine hentry.sat (fun _ _ hg => hgone hg) fun _ l₁ b₁ hs₁ => ?_
  rw [sat_bind]
  have hnow : IsSame now := does_now passive_same
  refine hnow.sat (fun _ _ hg => hgone (hs₁.gone hg)) fun started l₂ b₂ hs₂ => ?_
  rw [sat_bind]
  refine (sat_loadConfiguration (hs₁.trans hs₂)).mono (fun _ _ hF => hF) fun c h₃ b₃ hl₃ => ?_
  refine hl₃.bind (does_selectEnvelope chains_same gone_of_refused) fun envelope h₄ b₄ hl₄ => ?_
  rw [sat_bind]
  refine (sat_prepareTarget hl₄).mono (fun _ _ hF => hF) fun target h₅ b₅ ha₅ => ?_
  refine ha₅.bind (same_awaitWhite _) fun _ h₆ b₆ ha₆ => ?_
  refine ha₆.bind (same_submitTarget _ _) fun submitted h₇ b₇ ha₇ => ?_
  rw [sat_bind]
  refine (sat_acceptTarget hmono ha₇).mono (fun _ _ hF => hF) fun _ h₈ b₈ ha₈ => ?_
  have hfinish : Does Never Same (finish p frame target submitted.callReturned) :=
    does_finish passive_same.never reads_same same_of_keepsColor _
  exact hfinish.sat (fun _ _ hnever => hnever.elim) fun _ _ _ hs => ha₈.extend hs

end

/-! ### Runs -/

/-- The history is that of the last accepted target, or there is none. -/
def Matches (p : EinkDeviceProfile) (log : List Submitted) (b : Backend) : Prop :=
  b.qualityHistory.previous = [] ∨
  ∃ pre x post raw, log = pre ++ x :: post ∧ x.accepted = true ∧
    (∀ y ∈ post, y.accepted = false) ∧ x.frame.sleepImageEpoch = 0 ∧
    Shows p x.frame x.calls b.configuration raw ∧
    b.qualityHistory.previous = treatedColor b.configuration raw

theorem matches_of_run {p : EinkDeviceProfile} {b t : Backend} {as : List SubmitAction}
    {log : List Submitted} (hstart : b.qualityHistory.previous = [])
    (hrun : (system p).Run System.anyAction b as log t) :
    Matches p log t ∧ (p.hasColorCfa = false → t.qualityHistory.previous = []) := by
  refine hrun.induct (fun _ log t => Matches p log t ∧
    (p.hasColorCfa = false → t.qualityHistory.previous = [])) ⟨Or.inl hstart, fun _ => hstart⟩ ?_
  rintro - log t a u evs ⟨hmatches, hmono⟩ - hs
  obtain ⟨result, hreplay, rfl⟩ := step_cases hs
  obtain ⟨haccepted, hrefused⟩ := sat_replay (Quality.sat_submit hmono) hreplay
  rw [List.nil_append] at haccepted hrefused
  cases result with
  | none =>
    -- a refused `Submit` is one more entry after the accepted target, or clears the history
    rcases (hrefused rfl).history with hempty | ⟨hkept, hconfig⟩
    · exact ⟨Or.inl hempty, fun _ => hempty⟩
    refine ⟨?_, fun hgray => hkept ▸ hmono hgray⟩
    unfold Matches
    rw [hkept, hconfig]
    rcases hmatches with hempty | ⟨pre, x, post, raw, rfl, hx, hpost, hrest⟩
    · exact Or.inl hempty
    · refine Or.inr ⟨pre, x, post ++ [⟨a.frame, a.calls, false⟩], raw, by simp, hx, fun y hy => ?_,
        hrest⟩
      rcases List.mem_append.mp hy with hy | hy
      · exact hpost y hy
      · rw [List.mem_singleton.mp hy]
  | some r =>
    rcases (haccepted r rfl).history with hempty | ⟨hcolor, hawake, raw, hshows, hprev⟩
    · exact ⟨Or.inl hempty, fun _ => hempty⟩
    · refine ⟨Or.inr ⟨log, ⟨a.frame, a.calls, true⟩, [], raw, rfl, rfl, by simp, hawake, hshows,
        hprev⟩, fun hgray => ?_⟩
      rw [hcolor] at hgray
      cases hgray

/-- A refused `Submit` that has updated the engine leaves a poisoned backend, for good. -/
theorem poisoned_of_run {p : EinkDeviceProfile} {b t : Backend} {as : List SubmitAction}
    {log : List Submitted} (hrun : (system p).Run System.anyAction b as log t) :
    ∀ x ∈ log, x.accepted = false → updates x.calls ≠ [] → t.state = .poisoned := by
  refine hrun.induct (fun _ log t => ∀ x ∈ log, x.accepted = false → updates x.calls ≠ [] →
    t.state = .poisoned) (by simp) ?_
  rintro - log t a u evs hpoisoned - hs x hx hfailed hupdates
  obtain ⟨result, hreplay, rfl⟩ := step_cases hs
  rcases List.mem_append.mp hx with hx | hx
  · -- a poisoned backend accepts nothing and stays poisoned
    have hstate := hpoisoned x hx hfailed hupdates
    obtain ⟨hsome, hnone⟩ := sat_replay (sat_submit_poisoned hstate) hreplay
    cases result with
    | none => exact (hnone rfl).2
    | some r => exact (hsome r rfl).elim
  · obtain rfl := List.mem_singleton.mp hx
    obtain ⟨-, hrefused⟩ := sat_replay LowerEngine.sat_submit hreplay
    rw [List.nil_append] at hrefused
    cases result with
    | none => exact (hrefused rfl).2 hupdates
    | some r => cases hfailed

end Quality

open Quality

/-- **The quality history matches the panel**, in every state that a run from an empty history
reaches: it is empty, or the treated plane of the target that was accepted last, no sleep frame,
under the recorded configuration; unless the backend is poisoned, nothing has been updated since.
And the first plane of the next `Submit` is its target, all white, or prepared against that history
under the same configuration. -/
theorem quality_history {p : EinkDeviceProfile} {b t : Backend} {as : List SubmitAction}
    {log : List Submitted} (hstart : b.qualityHistory.previous = [])
    (hrun : (system p).Run System.anyAction b as log t) :
    (t.qualityHistory.previous = [] ∨
      ∃ pre x post raw, log = pre ++ x :: post ∧ x.accepted = true ∧
        (∀ y ∈ post, y.accepted = false ∧ (t.state ≠ .poisoned → updates y.calls = [])) ∧
        x.frame.sleepImageEpoch = 0 ∧ Shows p x.frame x.calls t.configuration raw ∧
        t.qualityHistory.previous = treatedColor t.configuration raw) ∧
    ∀ a u evs, (system p).step t a = some (u, evs) → MapsFirst p t a.frame a.calls := by
  obtain ⟨hmatches, hmono⟩ := matches_of_run hstart hrun
  refine ⟨?_, fun a u evs hs => ?_⟩
  · rcases hmatches with hempty | ⟨pre, x, post, raw, rfl, hx, hpost, hrest⟩
    · exact Or.inl hempty
    · refine Or.inr ⟨pre, x, post, raw, rfl, hx, fun y hy => ⟨hpost y hy, fun hstate => ?_⟩, hrest⟩
      by_contra hupdates
      exact hstate (poisoned_of_run hrun y (by simp [hy]) (hpost y hy) hupdates)
  · obtain ⟨result, hreplay, rfl⟩ := step_cases hs
    obtain ⟨haccepted, hrefused⟩ := sat_replay (Quality.sat_submit hmono) hreplay
    rw [List.nil_append] at haccepted hrefused
    cases result with
    | none => exact (hrefused rfl).first
    | some r => exact (haccepted r rfl).first

/-- An ordinary frame of a black pixel. -/
def ordinaryPixelFrame : Frame :=
  { pixelFrame with
    engineMode := kObservedNormalDifferentialRecord, diagnosticRefresh := .none,
    diagnosticRequest := 0 }

def redPixelFrame : Frame :=
  { ordinaryPixelFrame with
    sequence := 2
    composeBuffer := some (.android
      (some ⟨false, .rgba8888, 1, 1, ⟨0, some [255, 0, 0, 255], 4, 4⟩⟩) (some 1)) }

/-- The first plane that the calls map. -/
def firstPlane (calls : List VendorEvent) : Option (Configuration × List UInt8) :=
  match colorCalls calls with
  | ⟨.qualityConfig, quality⟩ :: ⟨.grayConfig, gray⟩ :: ⟨.vividConfig, vivid⟩ ::
      ⟨.mapVpcoa input, _⟩ :: _ => some (⟨quality, gray, vivid⟩, input)
  | _ => none

theorem colorCalls_of_firstPlane {calls : List VendorEvent} {config : Configuration}
    {input : List UInt8} (h : firstPlane calls = some (config, input)) :
    ∃ output rest, colorCalls calls = loading config ++ ⟨.mapVpcoa input, output⟩ :: rest := by
  unfold firstPlane at h
  split at h
  · next heq =>
    obtain ⟨rfl, rfl⟩ := Prod.mk.inj (Option.some.inj h)
    exact ⟨_, _, heq⟩
  · cases h

/-- The pixel is shown black. -/
def shownBlack : List VendorEvent × (Option Unit × Backend) :=
  submitAccepted 3 { state := .initialized } ordinaryPixelFrame

/-- The same pixel is shown red. -/
def shownRed : List VendorEvent × (Option Unit × Backend) :=
  submitAccepted 3 shownBlack.2.2 redPixelFrame

/-- Two accepted frames: the second is prepared against the black pixel, white first, and is the
history afterwards. -/
theorem quality_history_of_two_frames :
    ∃ (log log' : List Submitted) (s t : Backend),
      (system pixelProfile).Run System.anyAction { state := .initialized }
        [⟨ordinaryPixelFrame, shownBlack.1⟩] log s ∧
      (system pixelProfile).Run System.anyAction { state := .initialized }
        [⟨ordinaryPixelFrame, shownBlack.1⟩, ⟨redPixelFrame, shownRed.1⟩] log' t ∧
      log'.map Submitted.accepted = [true, true] ∧
      s.qualityHistory.previous = [0, 0, 0, 255] ∧ t.qualityHistory.previous = [255, 0, 0, 255] ∧
      (∃ raw, Acquired pixelProfile redPixelFrame shownRed.1 raw ∧
        FirstPlane s ⟨3, 0, 0⟩ redPixelFrame raw [255, 255, 255, 255]) ∧
      ∃ pre x post raw, log' = pre ++ x :: post ∧ x.accepted = true ∧
        (∀ y ∈ post, y.accepted = false ∧ (t.state ≠ .poisoned → updates y.calls = [])) ∧
        x.frame.sleepImageEpoch = 0 ∧ Shows pixelProfile x.frame x.calls t.configuration raw ∧
        t.qualityHistory.previous = treatedColor t.configuration raw := by
  have hblack := step_submitAccepted 3 { state := .initialized } ordinaryPixelFrame
  have hred := step_submitAccepted 3 shownBlack.2.2 redPixelFrame
  have hrun : (system pixelProfile).Run System.anyAction _ _ _ _ := .single trivial hblack
  have hboth := hrun.trans (.single trivial hred)
  have hprevious : shownRed.2.2.qualityHistory.previous = [255, 0, 0, 255] := by decide +kernel
  have hplane : firstPlane shownRed.1 = some (⟨3, 0, 0⟩, [255, 255, 255, 255]) := by decide +kernel
  obtain ⟨output, rest, hcalls⟩ := colorCalls_of_firstPlane hplane
  refine ⟨_, _, _, _, hrun, hboth, ?_, ?_, hprevious, ?_, ?_⟩
  · decide +kernel
  · decide +kernel
  · exact (quality_history rfl hrun).2 _ _ _ hred _ _ _ _ hcalls
  · refine (quality_history rfl hboth).1.resolve_left ?_
    show shownRed.2.2.qualityHistory.previous ≠ []
    rw [hprevious]
    decide

end EinkLab.LowerEngine
