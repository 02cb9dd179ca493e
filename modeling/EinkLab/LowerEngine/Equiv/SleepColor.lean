import EinkLab.LowerEngine.Equiv.Parts

/-!
# What a sleep frame maps to the panel

`sat_submit_sleep`: an accepted `Submit` of a sleep frame without a readable captured plane maps
exactly one colour plane, the frame's own: its composited RGBA if it has one, else its gray plane
expanded, with the colour treatment of the configuration that this `Submit` has loaded.

`Colorless` is the effect of a part that neither loads the configuration nor maps a plane.
-/

namespace EinkLab.LowerEngine

open Transition Procedure

/-- The call loads a configuration word or maps a colour plane. -/
def VendorCall.isColor : VendorCall → Bool
  | .qualityConfig | .grayConfig | .vividConfig | .mapVpcoa _ => true
  | _ => false

/-- The calls that decide the colour of the panel, in order. -/
def colorCalls (calls : List VendorEvent) : List VendorEvent := calls.filter fun e => e.1.isColor

/-- The configuration as it is loaded. -/
def loading (c : Configuration) : List VendorEvent :=
  [⟨.qualityConfig, c.quality⟩, ⟨.grayConfig, c.gray⟩, ⟨.vividConfig, c.vivid⟩]

/-- The colour of a sleep frame: its RGBA plane if it has one, else its gray plane expanded. -/
def sleepColor (frame : Frame) : List UInt8 :=
  match frame.sleepImageRgba with
  | some rgba => rgba
  | none =>
    ((frame.grayscaleBuffer.map OwnedGrayscaleBuffer.pixels).getD []).flatMap expandGray

/-- A plane after the gray preference and the vivid colour of a configuration. -/
def treatedColor (c : Configuration) (rgba : List UInt8) : List UInt8 :=
  (treatColor c { colorInput := rgba }).colorInput

/-- The calls load one configuration and map one plane, the treated `rgba`. -/
def MapsColor (calls : List VendorEvent) (rgba : List UInt8) : Prop :=
  ∃ (c : Configuration) (output : Int × List UInt8),
    colorCalls calls = loading c ++ [⟨.mapVpcoa (treatedColor c rgba), output⟩]

@[simp] theorem colorCalls_nil : colorCalls [] = [] := rfl

@[simp] theorem colorCalls_append (l l' : List VendorEvent) :
    colorCalls (l ++ l') = colorCalls l ++ colorCalls l' := List.filter_append l l'

theorem colorCalls_singleton {o : VendorCall} {r : VendorAnswer o} (ho : o.isColor = true) :
    colorCalls [⟨o, r⟩] = [⟨o, r⟩] := by
  simp [colorCalls, ho]

/-- Without a preference and without vivid colour a plane is mapped as it is. -/
theorem treatedColor_plain {c : Configuration} (hgray : c.gray &&& 3 = 0)
    (hvivid : c.vivid &&& 1 = 0) (rgba : List UInt8) : treatedColor c rgba = rgba := by
  simp [treatedColor, treatColor, grayPreference, applyGrayPreference, hgray, hvivid]

/-! ### Parts without colour -/

/-- None of these calls is made. -/
def Colorless : BackendEffect := fun _ l _ => colorCalls l = []

/-- An early return may have made any call. -/
def Anyhow : BackendEffect := fun _ _ _ => True

theorem passive_colorless : Passive Anyhow Colorless := by
  refine ⟨⟨fun _ => rfl, ?_, fun _ _ => trivial⟩, fun _ _ => rfl, fun _ _ _ => rfl, fun _ _ => rfl,
    fun _ _ => rfl, fun _ _ => rfl⟩
  intro _ l _ l' _ hl hl'
  rw [Colorless, colorCalls_append, hl, hl']
  rfl

theorem chains_colorless : Chains Anyhow Colorless := passive_colorless.toChains

theorem allows_colorless {o : VendorCall} (ho : o.isColor = false) : Allows Colorless o := by
  intro b r
  show colorCalls [⟨o, r⟩] = []
  simp [colorCalls, ho]

theorem VendorCall.isColor_of_isProperty {o : VendorCall} (ho : o.isProperty = true) :
    o.isColor = false := by
  cases o <;> first | rfl | cases ho

theorem reads_colorless (o : VendorCall) (ho : o.isProperty = true) : Allows Colorless o :=
  allows_colorless (VendorCall.isColor_of_isProperty ho)

/-- A part without colour adds nothing to the calls that count. -/
theorem sat_of_colorless {α : Type} {m : Submission α} (hm : Does Anyhow Colorless m)
    (h : List VendorEvent) (b : Backend) :
    m.Sat (fun _ _ => True) (fun _ h' _ => colorCalls h' = colorCalls h) h b := by
  refine hm.sat (fun _ _ _ => trivial) fun _ l _ hl => ?_
  rw [colorCalls_append, hl, List.append_nil]

section

variable {p : EinkDeviceProfile} {frame : Frame}

theorem sat_loadConfiguration_color {h : List VendorEvent} {b : Backend} :
    (loadConfiguration frame).Sat (fun _ _ => True)
      (fun c h' _ => colorCalls h' = colorCalls h ++ loading c) h b := by
  intro quality gray vivid
  show colorCalls (((h ++ [⟨.qualityConfig, quality⟩]) ++ [⟨.grayConfig, gray⟩]) ++
    [⟨.vividConfig, vivid⟩]) = _
  simp [colorCalls, loading, VendorCall.isColor]

/-- Once the planes are mapped, nothing that follows maps another. -/
theorem colorless_fromTarget {c : Configuration} {started : TimePoint}
    {envelope : ObservedUpdateEnvelope} (target : Target) : Does Anyhow Colorless (do
      awaitWhite target
      let submitted ← submitTarget p frame target envelope
      acceptTarget p frame c started target submitted
      finish p frame target submitted.callReturned) := by
  have hp := passive_colorless
  have hawait : Does Anyhow Colorless (awaitWhite target) :=
    does_awaitWhite hp reads_colorless hp (fun _ => trivial) fun _ => trivial
  refine Does.bind hp.toChains hawait fun _ => ?_
  refine Does.bind hp.toChains (does_submitTarget hp (fun _ => allows_colorless rfl)
    (fun _ => allows_colorless rfl) (fun _ => trivial) (fun _ _ _ => rfl) (fun _ _ _ => trivial) _)
    fun _ => ?_
  refine Does.bind hp.toChains (does_acceptTarget hp (fun _ => trivial) fun _ _ => rfl) fun _ => ?_
  exact does_finish hp reads_colorless (fun _ _ _ => rfl) _

/-! ### The colour path of a sleep frame -/

/-- `Submit` can read the captured plane: a leased buffer of the panel's size and format. -/
def readable (p : EinkDeviceProfile) : Option ComposeBuffer → Bool
  | some (.android (some buffer) lease) =>
    lease.isSome && buffer.width = p.panelWidth && buffer.height = p.panelHeight &&
      buffer.pixelFormat = .rgba8888
  | _ => false

/-- A sleep frame that shows nothing but its own: it has no captured plane, and then no diagnostic
white either, or one that cannot be read. -/
structure OwnsColor (p : EinkDeviceProfile) (frame : Frame) : Prop where
  sleep : frame.sleepImageEpoch ≠ 0
  plane : (frame.composeBuffer = none ∧ frame.diagnosticRefresh = .none) ∨
    (frame.composeBuffer.isSome = true ∧ readable p frame.composeBuffer = false)

theorem sat_acquireColor_unreadable
    {Q : Option GraphicBuffer → Assertion VendorCall VendorAnswer Backend}
    (hsome : frame.composeBuffer.isSome = true) (hread : readable p frame.composeBuffer = false)
    {h : List VendorEvent} {b : Backend} :
    (acquireColor p frame).Sat (fun _ _ => True) Q h b := by
  unfold acquireColor
  cases hplane : frame.composeBuffer with
  | none => simp [hplane] at hsome
  | some plane =>
    cases plane with
    | portable => exact trivial
    | android buffer lease =>
      cases buffer with
      | none => exact trivial
      | some buffer =>
        rw [hplane] at hread
        have hrefused : (lease.isNone || buffer.width ≠ p.panelWidth ||
            buffer.height ≠ p.panelHeight || buffer.pixelFormat ≠ .rgba8888) = true := by
          cases lease <;> simp_all [readable]
          tauto
        dsimp only
        rw [hrefused]
        exact trivial

theorem sat_acquireColor_sleep (hf : OwnsColor p frame) {h : List VendorEvent} {b : Backend} :
    (acquireColor p frame).Sat (fun _ _ => True)
      (fun _ h' b' => h' = h ∧ b'.colorInput = sleepColor frame ∧ frame.diagnosticRefresh = .none)
      h b := by
  rcases hf.plane with ⟨hcompose, hrefresh⟩ | ⟨hsome, hread⟩
  swap
  · exact sat_acquireColor_unreadable hsome hread
  unfold acquireColor
  rw [hcompose]
  cases hrgba : frame.sleepImageRgba with
  | some rgba =>
    dsimp only
    rw [sat_bind, sat_get, sat_bind, sat_refuseIf]
    refine ⟨fun _ => trivial, fun _ => ?_⟩
    rw [sat_bind, sat_modify, sat_pure]
    exact ⟨rfl, by simp [sleepColor, hrgba], hrefresh⟩
  | none =>
    dsimp only
    cases hexpand : expandSleepGrayscaleToRgba frame with
    | none => exact trivial
    | some rgba =>
      dsimp only
      rw [sat_bind, sat_modify, sat_pure]
      refine ⟨rfl, ?_, hrefresh⟩
      unfold expandSleepGrayscaleToRgba at hexpand
      split_ifs at hexpand
      cases hgray : frame.grayscaleBuffer with
      | none => simp [hgray] at hexpand
      | some gray =>
        simp only [hgray] at hexpand
        split_ifs at hexpand
        simp [sleepColor, hrgba, hgray, ← Option.some.inj hexpand]

theorem sat_mapColor {handle : Option GraphicBuffer} {input : List UInt8} {g : Backend → Backend}
    {h : List VendorEvent} {b : Backend} :
    (mapColor handle input g).Sat (fun _ _ => True)
      (fun _ h' _ => ∃ output, colorCalls h' = colorCalls h ++
        [⟨.mapVpcoa input, output⟩]) h b := by
  unfold mapColor
  rw [sat_bind, sat_mapVpcoa]
  intro mapping
  rw [sat_bind, sat_modify]
  have hc := chains_colorless
  have htail : Does Anyhow Colorless (if mapping.1 ≠ 0 then refuseUnlocked handle g
      else do
        let gray ← auraGray mapping.2
        modify fun b => { b with colorGrayscale := gray }
        pure (mapping.2, gray)) := by
    refine Does.ite (does_refuseUnlocked hc (fun _ => allows_colorless rfl) fun _ => trivial) ?_
    refine Does.bind hc (Does.call (allows_colorless rfl)) fun _ => ?_
    exact Does.bind hc (Does.modify fun _ => rfl) fun _ => Does.pure hc _
  refine (sat_of_colorless htail _ _).mono (fun _ _ hP => hP) fun _ h' b' hh' => ?_
  exact ⟨mapping, by rw [hh', colorCalls_append, colorCalls_singleton rfl]⟩

/-- The whole colour path maps the frame's own colour, and nothing else. -/
theorem sat_prepareColorTarget_sleep (hf : OwnsColor p frame) {c : Configuration}
    {h : List VendorEvent} {b : Backend} :
    (prepareColorTarget p frame c).Sat (fun _ _ => True)
      (fun _ h' _ => ∃ output, colorCalls h' =
        colorCalls h ++ [⟨.mapVpcoa (treatedColor c (sleepColor frame)), output⟩]) h b := by
  have hwhite : frame.diagnosticRefresh = .none → ∀ (h' : List VendorEvent) (b' : Backend)
      (Q : Nat → Assertion VendorCall VendorAnswer Backend),
      Q 0 h' b' → (prepareWhite frame c).Sat (fun _ _ => True) Q h' b' := by
    intro hrefresh h' b' Q hQ
    unfold prepareWhite
    rw [sat_bind, sat_get, if_neg (by rw [hrefresh]; simp), if_neg (by simp [hf.sleep])]
    exact hQ
  unfold prepareColorTarget
  rw [sat_bind]
  refine (sat_acquireColor_sleep hf).mono (fun _ _ hP => hP) ?_
  rintro handle h' b' ⟨rfl, hcolor, hrefresh⟩
  rw [sat_bind, sat_modify, sat_bind]
  refine hwhite hrefresh _ _ _ ?_
  rw [if_pos rfl, sat_bind, sat_get, sat_bind]
  refine sat_mapColor.mono (fun _ _ hP => hP) fun _ h'' b'' hh'' => ?_
  rw [sat_pure, ← hcolor]
  exact hh''

/-- **The colour of a sleep frame**: an accepted `Submit` maps its own plane, treated. -/
theorem sat_submit_sleep (hcfa : p.hasColorCfa = true) (hf : OwnsColor p frame) {b : Backend} :
    (submit p frame).Sat (fun _ _ => True) (fun _ h _ => MapsColor h (sleepColor frame)) [] b := by
  have hp := passive_colorless
  have hrefuse : Refuses Anyhow := fun _ _ _ _ => trivial
  unfold submit
  rw [sat_bind]
  refine (sat_of_colorless (does_entryChecks hp reads_colorless hrefuse) _ _).mono
    (fun _ _ hP => hP) fun _ h₁ b₁ hh₁ => ?_
  rw [sat_bind]
  refine (sat_of_colorless (does_now hp) _ _).mono (fun _ _ hP => hP) fun started h₂ b₂ hh₂ => ?_
  rw [sat_bind]
  refine sat_loadConfiguration_color.mono (fun _ _ hP => hP) fun c h₃ b₃ hh₃ => ?_
  rw [sat_bind]
  refine (sat_of_colorless (does_selectEnvelope hp.toChains hrefuse) _ _).mono (fun _ _ hP => hP)
    fun envelope h₄ b₄ hh₄ => ?_
  have hloaded : colorCalls h₄ = loading c := by
    rw [hh₄, hh₃, hh₂, hh₁]
    rfl
  rw [sat_bind]
  unfold prepareTarget
  rw [sat_bind]
  have harrange : Does Anyhow Colorless (arrangeGrayscale p frame) :=
    does_arrangeGrayscale hp.toChains hrefuse fun _ _ _ _ _ => rfl
  refine (sat_of_colorless harrange _ _).mono (fun _ _ hP => hP) fun gray h₅ b₅ hh₅ => ?_
  rw [if_pos hcfa]
  refine (sat_prepareColorTarget_sleep hf).mono (fun _ _ hP => hP) fun target h₆ b₆ hh₆ => ?_
  obtain ⟨output, hmapped⟩ := hh₆
  rw [hh₅, hloaded] at hmapped
  refine (sat_of_colorless (colorless_fromTarget target) _ _).mono (fun _ _ hP => hP)
    fun _ h₇ b₇ hh₇ => ?_
  exact ⟨c, output, hh₇.trans hmapped⟩

end

end EinkLab.LowerEngine
