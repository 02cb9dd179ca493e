import EinkLab.FrameTracker.Equiv.Tracker

/-!
# Signatures identify contents

Over every interleaving of the tracker and the gate, the accepted updates and the resets are the log
of a counter of versions (`Sound.versioned`), and the gate remembers the signature of the last frame
it evaluated (`Sound.evaluated`).  So equal signatures are equal images, and a frame that is dropped
as unchanged is the image evaluated before it (`exact_change_detection`).
-/

namespace EinkLab.RgbFrameTracker

open Transition Versions

variable {maxPixels maxSize : Nat} {log : List Event} {s : Capture} {as : List Action}

def Action.isUpdate : Action → Bool
  | .update _ _ => true
  | _ => false

/-- A successful update. -/
def Event.IsAccepted : Event → Prop
  | .updated _ _ signature => signature ≠ 0
  | _ => False

/-- An event of the gate. -/
def Event.OfGate : Event → Prop
  | .evaluated _ _ _ | .disarmed => True
  | _ => False

/-- What an event is to the counter of versions. -/
def Event.version : Event → Option (Versions.Event (Int × Int × List UInt32))
  | .updated source _ signature =>
    if signature = 0 then none else some (.answered source.content signature)
  | .reset => some .forgot
  | _ => none

/-- The last frame that the gate evaluated, since it was last disarmed. -/
def LastEvaluated (log : List Event) (source : RgbaSource) (signature : Nat) : Prop :=
  ∃ pre decision mid, log = pre ++ .evaluated source signature decision :: mid ∧
    ∀ e ∈ mid, ¬e.OfGate

/-- What is right about an event, given what was logged before it. -/
def Right (maxPixels maxSize : Nat) (pre : List Event) : Event → Prop
  | .updated source availableBytes signature =>
    signature = 0 ↔ ¬Accepts maxPixels maxSize source availableBytes
  | .evaluated source signature .unchanged =>
    signature ≠ 0 → ∃ source', LastEvaluated pre source' signature ∧ SameImage source' source
  | _ => True

structure Sound (maxPixels maxSize : Nat) (log : List Event) (s : Capture) : Prop where
  capacity : s.tracker.maxPixels = maxPixels
  wellFormed : s.tracker.WellFormed
  versioned : Versioned (log.filterMap Event.version) s.tracker.last s.tracker.generation
  latest : ∀ source signature, s.latest = some (source, signature) →
    ∃ availableBytes, .updated source availableBytes signature ∈ log
  evaluated : ∀ signature, s.gate.previous = some signature → ∃ source availableBytes,
    LastEvaluated log source signature.hash ∧ .updated source availableBytes signature.hash ∈ log
  events : EachEvent (Right maxPixels maxSize) log

/-! ### What the log says of signatures -/

theorem mem_version {source : RgbaSource} {availableBytes signature : Nat}
    (hmem : .updated source availableBytes signature ∈ log) (hsignature : signature ≠ 0) :
    .answered source.content signature ∈ log.filterMap Event.version :=
  List.mem_filterMap.mpr ⟨_, hmem, if_neg hsignature⟩

/-- A signature is never used for two images. -/
theorem Sound.sameImage (h : Sound maxPixels maxSize log s) {source source' : RgbaSource}
    {availableBytes availableBytes' signature : Nat}
    (hmem : .updated source availableBytes signature ∈ log)
    (hmem' : .updated source' availableBytes' signature ∈ log) (hsignature : signature ≠ 0) :
    SameImage source source' :=
  content_eq_iff.mp (h.versioned.eq_of_version _ _ _ (mem_version hmem hsignature)
    (mem_version hmem' hsignature))

theorem filterMap_eq_nil_iff {mid : List Event} (hmid : ∀ e ∈ mid, ¬e.IsAccepted) :
    mid.filterMap Event.version = [] ↔ .reset ∉ mid := by
  rw [List.filterMap_eq_nil_iff]
  constructor
  · intro hnone hreset
    cases hnone _ hreset
  · intro hreset e he
    cases e with
    | updated source availableBytes signature => exact if_pos (not_not.mp (hmid _ he))
    | reset => exact absurd he hreset
    | evaluated source signature decision => rfl
    | disarmed => rfl

theorem not_isAnswer_of_mem {mid : List Event} (hmid : ∀ e ∈ mid, ¬e.IsAccepted)
    {e : Versions.Event (Int × Int × List UInt32)} (he : e ∈ mid.filterMap Event.version) :
    ¬e.IsAnswer := by
  obtain ⟨event, hmem, hversion⟩ := List.mem_filterMap.mp he
  cases event with
  | updated source availableBytes signature =>
    rw [Event.version, if_pos (not_not.mp (hmid _ hmem))] at hversion
    cases hversion
  | reset =>
    cases hversion
    exact id
  | evaluated source signature decision => cases hversion
  | disarmed => cases hversion

/-- Two successful updates with none between them. -/
theorem Sound.successive (h : Sound maxPixels maxSize log s) {source source' : RgbaSource}
    {availableBytes availableBytes' signature signature' : Nat} {pre mid post : List Event}
    (hlog : log = pre ++ .updated source availableBytes signature :: mid ++
      .updated source' availableBytes' signature' :: post)
    (hsignature : signature ≠ 0) (hsignature' : signature' ≠ 0)
    (hmid : ∀ e ∈ mid, ¬e.IsAccepted) :
    signature = signature' ↔ .reset ∉ mid ∧ SameImage source source' := by
  have hversions : log.filterMap Event.version =
      pre.filterMap Event.version ++ .answered source.content signature ::
        mid.filterMap Event.version ++
          .answered source'.content signature' :: post.filterMap Event.version := by
    simp [hlog, Event.version, hsignature, hsignature']
  rw [h.versioned.successive _ _ _ _ _ _ _ hversions fun e he => not_isAnswer_of_mem hmid he,
    filterMap_eq_nil_iff hmid, content_eq_iff]

/-! ### One step -/

theorem LastEvaluated.append {source : RgbaSource} {signature : Nat} {e : Event}
    (h : LastEvaluated log source signature) (he : ¬e.OfGate) :
    LastEvaluated (log ++ [e]) source signature := by
  obtain ⟨pre, decision, mid, rfl, hmid⟩ := h
  refine ⟨pre, decision, mid ++ [e], by simp, fun x hx => ?_⟩
  rcases List.mem_append.mp hx with hx | hx
  · exact hmid x hx
  · rwa [List.mem_singleton.mp hx]

theorem filterMap_of_some {e : Event} {v : Versions.Event (Int × Int × List UInt32)}
    (he : e.version = some v) :
    (log ++ [e]).filterMap Event.version = log.filterMap Event.version ++ [v] := by
  rw [List.filterMap_append, List.filterMap_cons_some he, List.filterMap_nil]

theorem filterMap_of_none {e : Event} (he : e.version = none) :
    (log ++ [e]).filterMap Event.version = log.filterMap Event.version := by
  rw [List.filterMap_append, List.filterMap_cons_none he, List.filterMap_nil, List.append_nil]

theorem sound_start (maxPixels maxSize : Nat) : Sound maxPixels maxSize [] (start maxPixels) where
  capacity := rfl
  wellFormed := rfl
  versioned := versioned_nil 0
  latest := fun _ _ h => nomatch h
  evaluated := fun _ h => nomatch h
  events := eachEvent_nil _

/-- An event of the tracker leaves the gate's last frame where it is. -/
theorem Sound.evaluated_append (h : Sound maxPixels maxSize log s) {e : Event} (he : ¬e.OfGate)
    (signature : FrameSignature) (hprevious : s.gate.previous = some signature) :
    ∃ source availableBytes, LastEvaluated (log ++ [e]) source signature.hash ∧
      .updated source availableBytes signature.hash ∈ log ++ [e] := by
  obtain ⟨source, availableBytes, hlast, hmem⟩ := h.evaluated signature hprevious
  exact ⟨source, availableBytes, hlast.append he, List.mem_append_left _ hmem⟩

theorem Sound.update (h : Sound maxPixels maxSize log s) (source : RgbaSource)
    (availableBytes : Nat)
    (hcount : s.tracker.generation + 1 < 2 ^ 64) :
    let result := s.tracker.update maxSize source availableBytes
    Sound maxPixels maxSize (log ++ [.updated source availableBytes result.1])
        { s with tracker := result.2, latest := some (source, result.1) } ∧
      result.2.generation ≤ s.tracker.generation + 1 := by
  have hlatest (signature : Nat) : ∀ source' signature',
      some (source, signature) = some (source', signature') → ∃ availableBytes',
        .updated source' availableBytes' signature' ∈
          log ++ [.updated source availableBytes signature] := by
    rintro source' signature' hsome
    cases hsome
    exact ⟨availableBytes, by simp⟩
  by_cases haccepts : Accepts maxPixels maxSize source availableBytes
  · rw [update_of_accepts h.wellFormed (h.capacity ▸ haccepts) hcount]
    have hpos := h.versioned.answer_pos source.content
    have hwidth : source.width ≠ 0 := by have := haccepts.width; omega
    refine ⟨⟨h.capacity, ?_, ?_, hlatest _, h.evaluated_append id, ?_⟩, ?_⟩
    · simp [WellFormed, RgbaSource.content, RowMajor.length_places]
    · have hversion : Event.version (.updated source availableBytes
          (answer s.tracker.last s.tracker.generation source.content)) =
            some (.answered source.content _) := if_neg (Nat.ne_of_gt hpos)
      rw [filterMap_of_some hversion]
      have hlast : last { s.tracker with
          previous := source.content.2.2
          width := source.width
          height := source.height
          generation := answer s.tracker.last s.tracker.generation source.content } =
            some source.content := if_neg hwidth
      rw [hlast]
      exact h.versioned.answered source.content
    · refine eachEvent_append_singleton.mpr ⟨h.events, ?_⟩
      exact iff_of_false (Nat.ne_of_gt hpos) (not_not.mpr haccepts)
    · dsimp only
      unfold answer
      split <;> omega
  · -- a refused image leaves the tracker and the counter alone
    rw [update_of_not_accepts (h.capacity ▸ haccepts)]
    refine ⟨⟨h.capacity, h.wellFormed, ?_, hlatest _, h.evaluated_append id, ?_⟩, by simp⟩
    · have hversion : Event.version (.updated source availableBytes 0) = none := rfl
      rw [filterMap_of_none hversion]
      exact h.versioned
    · exact eachEvent_append_singleton.mpr ⟨h.events, iff_of_true rfl haccepts⟩

theorem Sound.reset (h : Sound maxPixels maxSize log s) :
    Sound maxPixels maxSize (log ++ [.reset]) { s with tracker := s.tracker.reset } where
  capacity := h.capacity
  wellFormed := rfl
  versioned := by
    rw [filterMap_of_some rfl]
    exact h.versioned.forget
  latest := by
    intro source signature hlatest
    obtain ⟨availableBytes, hmem⟩ := h.latest source signature hlatest
    exact ⟨availableBytes, List.mem_append_left _ hmem⟩
  evaluated := h.evaluated_append id
  events := eachEvent_append_singleton.mpr ⟨h.events, trivial⟩

theorem evaluate_previous (gate : FrameDemandGate) (signature : FrameSignature) :
    (gate.evaluate signature).2.previous = some signature := by
  unfold FrameDemandGate.evaluate
  repeat' split
  all_goals simp_all

/-- Only a frame with the signature of the last one is unchanged. -/
theorem previous_of_unchanged {gate : FrameDemandGate} {signature : FrameSignature}
    (h : (gate.evaluate signature).1 = .unchanged) : gate.previous = some signature := by
  unfold FrameDemandGate.evaluate at h
  repeat' split at h
  all_goals simp_all

theorem Sound.evaluate (h : Sound maxPixels maxSize log s) {source : RgbaSource} {hash : Nat}
    (hlatest : s.latest = some (source, hash)) (bytes : Nat) (width height : Int) :
    let result := s.gate.evaluate ⟨hash, bytes, width, height⟩
    Sound maxPixels maxSize (log ++ [.evaluated source hash result.1])
      { s with gate := result.2 } := by
  obtain ⟨availableBytes, hmem⟩ := h.latest source hash hlatest
  refine ⟨h.capacity, h.wellFormed, ?_, ?_, ?_, ?_⟩
  · rw [filterMap_of_none rfl]
    exact h.versioned
  · intro source' signature' hsome
    obtain ⟨availableBytes', hmem'⟩ := h.latest source' signature' hsome
    exact ⟨availableBytes', List.mem_append_left _ hmem'⟩
  · intro signature hsome
    rw [evaluate_previous, Option.some_inj] at hsome
    subst hsome
    exact ⟨source, availableBytes, ⟨log, _, [], rfl, fun _ hno => absurd hno List.not_mem_nil⟩,
      List.mem_append_left _ hmem⟩
  · refine eachEvent_append_singleton.mpr ⟨h.events, ?_⟩
    cases hdecision : (s.gate.evaluate ⟨hash, bytes, width, height⟩).1 with
    | unchanged =>
      intro hne
      obtain ⟨source', availableBytes', hlast, hmem'⟩ :=
        h.evaluated _ (previous_of_unchanged hdecision)
      exact ⟨source', hlast, h.sameImage hmem' hmem hne⟩
    | sessionStart => trivial
    | rearmed => trivial
    | panelContentChanged => trivial

theorem Sound.disarm (h : Sound maxPixels maxSize log s) :
    Sound maxPixels maxSize (log ++ [.disarmed]) { s with gate := s.gate.reset } where
  capacity := h.capacity
  wellFormed := h.wellFormed
  versioned := by
    rw [filterMap_of_none rfl]
    exact h.versioned
  latest := by
    intro source signature hlatest
    obtain ⟨availableBytes, hmem⟩ := h.latest source signature hlatest
    exact ⟨availableBytes, List.mem_append_left _ hmem⟩
  evaluated := fun _ hno => nomatch hno
  events := eachEvent_append_singleton.mpr ⟨h.events, trivial⟩

/-! ### Every run -/

/-- The generation counts no further than the updates, so it does not wrap. -/
theorem sound_of_run (h : (system maxSize).Run System.anyAction (start maxPixels) as log s)
    (hcount : as.countP Action.isUpdate < 2 ^ 64) : Sound maxPixels maxSize log s := by
  refine (h.induct (fun as log s => as.countP Action.isUpdate < 2 ^ 64 →
    Sound maxPixels maxSize log s ∧ s.tracker.generation ≤
    as.countP Action.isUpdate) ?_ ?_ hcount).1
  · exact fun _ => ⟨sound_start maxPixels maxSize, Nat.le_refl _⟩
  · intro as log s a u evs ih _ hs hcount
    rw [List.countP_append, List.countP_singleton] at hcount ⊢
    obtain ⟨hsound, hgeneration⟩ := ih (by omega)
    cases a with
    | update source availableBytes =>
      simp only [Action.isUpdate, if_true] at hcount ⊢
      obtain ⟨hsound', hgeneration'⟩ := hsound.update source availableBytes (by omega)
      obtain ⟨rfl, rfl⟩ := Prod.mk.inj (Option.some.inj hs)
      exact ⟨hsound', Nat.le_trans hgeneration' (by omega)⟩
    | reset =>
      obtain ⟨rfl, rfl⟩ := Prod.mk.inj (Option.some.inj hs)
      exact ⟨hsound.reset, hgeneration⟩
    | evaluate bytes width height =>
      obtain ⟨⟨source, hash⟩, hlatest, heq⟩ := Option.map_eq_some_iff.mp hs
      obtain ⟨rfl, rfl⟩ := Prod.mk.inj heq
      exact ⟨hsound.evaluate hlatest bytes width height, hgeneration⟩
    | disarm =>
      obtain ⟨rfl, rfl⟩ := Prod.mk.inj (Option.some.inj hs)
      exact ⟨hsound.disarm, hgeneration⟩

/-- **Exact change detection**, over every interleaving of updates, resets, evaluations and
disarms. -/
theorem exact_change_detection
    (h : (system maxSize).Run System.anyAction (start maxPixels) as log s)
    (hcount : as.countP Action.isUpdate < 2 ^ 64) :
    -- invalid input returns 0, and it alone does; it changes nothing
    (∀ source availableBytes, ¬Accepts maxPixels maxSize source availableBytes →
      s.tracker.update maxSize source availableBytes = (0, s.tracker)) ∧
    (∀ source availableBytes signature, .updated source availableBytes signature ∈ log →
      (signature = 0 ↔ ¬Accepts maxPixels maxSize source availableBytes)) ∧
    -- two successive successful updates
    (∀ pre source availableBytes signature mid source' availableBytes' signature' post,
      log = pre ++ .updated source availableBytes signature :: mid ++
        .updated source' availableBytes' signature' :: post →
      signature ≠ 0 → signature' ≠ 0 → (∀ e ∈ mid, ¬e.IsAccepted) →
      (signature = signature' ↔ .reset ∉ mid ∧ SameImage source source')) ∧
    -- any two updates, across resets
    (∀ source source' availableBytes availableBytes' signature,
      .updated source availableBytes signature ∈ log →
      .updated source' availableBytes' signature ∈ log → signature ≠ 0 →
      SameImage source source') ∧
    -- a frame that the gate drops
    (∀ pre source signature post, log = pre ++ .evaluated source signature .unchanged :: post →
      signature ≠ 0 → ∃ source', LastEvaluated pre source' signature ∧
      SameImage source' source) := by
  have hsound := sound_of_run h hcount
  refine ⟨?_, ?_, ?_, ?_, ?_⟩
  · intro source availableBytes hinvalid
    exact update_of_not_accepts (hsound.capacity.symm ▸ hinvalid)
  · intro source availableBytes signature hmem
    obtain ⟨pre, post, hlog⟩ := List.append_of_mem hmem
    exact hsound.events pre _ post hlog
  · intro pre source availableBytes signature mid source' availableBytes' signature' post hlog
    exact hsound.successive hlog
  · intro source source' availableBytes availableBytes' signature hmem hmem'
    exact hsound.sameImage hmem hmem'
  · intro pre source signature post hlog
    exact hsound.events pre _ post hlog

def onePixel : RgbaSource where
  pixels := some [75, 0, 0, 255]
  width := 1
  height := 1
  stridePixels := 1

/-- The same pixel, in the other layout and with another alpha. -/
def onePixelBgra : RgbaSource where
  pixels := some [0, 0, 75, 7]
  width := 1
  height := 1
  stridePixels := 1
  layout := some .bgra8888

def unchangedRun : List Action :=
  [.update onePixel 4, .evaluate 3 1 1, .update onePixelBgra 4, .evaluate 3 1 1]

def unchangedLog : List Event :=
  [.updated onePixel 4 1, .evaluated onePixel 1 .sessionStart, .updated onePixelBgra 4 1,
    .evaluated onePixelBgra 1 .unchanged]

theorem exact_change_detection_unchanged :
    ∃ source', LastEvaluated (unchangedLog.take 3) source' 1 ∧ SameImage source' onePixelBgra := by
  obtain ⟨s, hrun⟩ : ∃ s, (system 1).Run System.anyAction (start 1) unchangedRun unchangedLog s :=
    ⟨_, System.Run.of_exec rfl⟩
  have hdropped := (exact_change_detection hrun (by decide)).2.2.2.2
  exact hdropped (unchangedLog.take 3) onePixelBgra 1 [] rfl (by decide)

/-- The same image before and after a reset. -/
def resetRun : List Action := [.update onePixel 4, .reset, .update onePixel 4]

def resetLog : List Event := [.updated onePixel 4 1, .reset, .updated onePixel 4 2]

/-- A reset between two updates of one image changes the signature. -/
theorem not_signature_of_content : ¬∀ (maxPixels maxSize : Nat) (as : List Action)
    (log : List Event) (s : Capture),
    (system maxSize).Run System.anyAction (start maxPixels) as log s →
    as.countP Action.isUpdate < 2 ^ 64 →
    ∀ pre source availableBytes signature mid source' availableBytes' signature' post,
      log = pre ++ .updated source availableBytes signature :: mid ++
        .updated source' availableBytes' signature' :: post →
      signature ≠ 0 → signature' ≠ 0 → (∀ e ∈ mid, ¬e.IsAccepted) →
      (signature = signature' ↔ SameImage source source') := by
  intro hsignature
  obtain ⟨s, hrun⟩ : ∃ s, (system 1).Run System.anyAction (start 1) resetRun resetLog s :=
    ⟨_, System.Run.of_exec rfl⟩
  have hsame := hsignature 1 1 _ _ _ hrun (by decide) [] onePixel 4 1 [.reset] onePixel 4 2 [] rfl
    (by decide) (by decide) (by simp [Event.IsAccepted])
  exact absurd (hsame.mpr ⟨rfl, rfl, fun _ _ _ _ => rfl⟩) (by decide)

end EinkLab.RgbFrameTracker
