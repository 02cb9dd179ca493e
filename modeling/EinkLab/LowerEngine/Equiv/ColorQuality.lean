import EinkLab.LowerEngine.ColorQuality
import Mathlib.Data.Finset.Card
import Mathlib.Data.Finset.Range
import Mathlib.Data.Finset.Filter
import Mathlib.Order.Interval.Finset.Nat
import Mathlib.Data.Nat.Count

/-!
# The intermediate frame is the target with its qualifying pixels in white

`Qualifies` says of a pixel, by its index, when it goes through white.  The loop counts these pixels
and whitens exactly them (`loop_eq`); the pass that the backend uses (`prepare`) is the same
function (`prepare_eq`).
-/

namespace EinkLab.LowerEngine.ColorQualityHistory

variable {self : ColorQualityHistory} {target previous : List UInt8}
  {thresholds thresholds' : ColorQualityThresholds} {cleanup : Bool}

/-! ### Which pixels qualify -/

/-- A pixel that qualifies under clamped thresholds, judged by its bytes. -/
def QualifiesAt (t : ColorQualityThresholds) (cleanup : Bool) (target previous : List UInt8)
    (p : Nat) : Prop :=
  t.chroma ≤ spreadAt target (4 * p) ∧
    (cleanup = false →
      oldMinAt previous (4 * p) < t.nearWhite ∧ t.change ≤ changeAt target previous (4 * p))

instance (t : ColorQualityThresholds) (cleanup : Bool) (target previous : List UInt8) :
    DecidablePred (QualifiesAt t cleanup target previous) :=
  fun _ => inferInstanceAs (Decidable (_ ∧ (_ → _)))

/-- A qualifying pixel of a whole buffer; outside cleanup mode the history has the buffer's size. -/
def Qualifies (self : ColorQualityHistory) (target : List UInt8)
    (thresholds : ColorQualityThresholds) (cleanup : Bool) (p : Nat) : Prop :=
  (target.length % 4 = 0 ∧ (cleanup = true ∨ self.previous.length = target.length)) ∧
    QualifiesAt thresholds.clamped cleanup target self.previous p

instance (self : ColorQualityHistory) (target : List UInt8) (thresholds : ColorQualityThresholds)
    (cleanup : Bool) : DecidablePred (self.Qualifies target thresholds cleanup) :=
  fun _ => inferInstanceAs (Decidable (_ ∧ _))

/-- The qualifying pixels, by index. -/
def qualifying (self : ColorQualityHistory) (target : List UInt8)
    (thresholds : ColorQualityThresholds) (cleanup : Bool) : Finset Nat :=
  (Finset.range (target.length / 4)).filter (self.Qualifies target thresholds cleanup)

theorem clamp_mono {value value' low high : Int} (h : value ≤ value') :
    clamp value low high ≤ clamp value' low high := by
  unfold clamp
  omega

theorem qualifying_anti (hchroma : thresholds.chroma ≤ thresholds'.chroma)
    (hchange : thresholds.change ≤ thresholds'.change)
    (hnearWhite : thresholds'.nearWhite ≤ thresholds.nearWhite) :
    self.qualifying target thresholds' cleanup ⊆ self.qualifying target thresholds cleanup := by
  refine Finset.monotone_filter_right _ fun p _ hp => ?_
  obtain ⟨hbuffer, hspread, hrest⟩ := hp
  refine ⟨hbuffer, Int.le_trans (clamp_mono hchroma) hspread, fun hcleanup => ?_⟩
  obtain ⟨hold, hchanged⟩ := hrest hcleanup
  exact ⟨Int.lt_of_lt_of_le hold (clamp_mono hnearWhite),
    Int.le_trans (clamp_mono hchange) hchanged⟩

theorem qualifying_cleanup :
    self.qualifying target thresholds false ⊆ self.qualifying target thresholds true := by
  refine Finset.monotone_filter_right _ fun p _ hp => ?_
  exact ⟨⟨hp.1.1, Or.inl rfl⟩, hp.2.1, fun hno => nomatch hno⟩

/-! ### The loop -/

/-- The target with the pixels that satisfy `q` in white. -/
def whitened (q : Nat → Prop) [DecidablePred q] (target : List UInt8) : List UInt8 :=
  target.mapIdx fun n byte => if q (n / 4) then 255 else byte

theorem whitened_of_forall_not {q : Nat → Prop} [DecidablePred q] (h : ∀ p, ¬q p) :
    whitened q target = target := by
  refine List.ext_getElem? fun n => ?_
  rw [whitened, List.getElem?_mapIdx]
  cases target[n]? <;> simp [h]

/-- A whole buffer has no byte outside its pixels. -/
theorem whitened_of_lt {q : Nat → Prop} [DecidablePred q] (hwhole : target.length % 4 = 0) :
    whitened (fun p => p < target.length / 4 ∧ q p) target = whitened q target := by
  refine List.ext_getElem? fun n => ?_
  rw [whitened, whitened, List.getElem?_mapIdx, List.getElem?_mapIdx]
  by_cases hn : n < target.length
  · have hlt : n / 4 < target.length / 4 := by omega
    simp only [hlt, true_and]
  · rw [List.getElem?_eq_none (by omega)]
    rfl

/-- Whitening one more pixel. -/
theorem fillWhite_whitened {q q' : Nat → Prop} [DecidablePred q] [DecidablePred q'] {m : Nat}
    (h : ∀ p, q' p ↔ q p ∨ p = m) : fillWhite (whitened q target) (4 * m) = whitened q' target := by
  refine List.ext_getElem? fun n => ?_
  have hpixel : n / 4 = m ↔ n = 4 * m ∨ n = 4 * m + 1 ∨ n = 4 * m + 2 ∨ n = 4 * m + 3 := by omega
  simp only [fillWhite, whitened, List.getElem?_set, List.length_set, List.length_mapIdx,
    List.getElem?_mapIdx, h, hpixel]
  by_cases hn : n < target.length
  · rw [List.getElem?_eq_getElem hn]
    simp only [Option.map_some]
    grind
  · rw [List.getElem?_eq_none (by omega)]
    grind

theorem prepareStep_eq (t : ColorQualityThresholds) {history : Bool}
    (hhistory : cleanup = false → history = true) (s : Nat × List UInt8) (m : Nat) :
    prepareStep t cleanup history target previous s (4 * m) =
      if QualifiesAt t cleanup target previous m then
        (s.1 + 1, fillWhite (if s.1 = 0 then target else s.2) (4 * m))
      else s := by
  unfold prepareStep QualifiesAt
  by_cases hspread : spreadAt target (4 * m) < t.chroma
  · simp [hspread, Int.not_le.mpr hspread]
  · -- only a pass that is no cleanup looks at the previous pixel
    rw [if_neg hspread]
    cases cleanup with
    | true => simp [Int.not_lt.mp hspread]
    | false =>
      by_cases hold : oldMinAt previous (4 * m) < t.nearWhite
      · by_cases hchange : changeAt target previous (4 * m) < t.change
        · simp [hhistory rfl, hchange, Int.not_le.mpr hchange]
        · simp [hhistory rfl, hold, hchange, Int.not_lt.mp hchange, Int.not_lt.mp hspread]
      · simp [hhistory rfl, hold, Int.not_lt.mp hold]

/-- The state of the loop after `m` pixels. -/
theorem loop_eq (t : ColorQualityThresholds) (target previous : List UInt8) {history : Bool}
    (hhistory : cleanup = false → history = true) (m : Nat) :
    let result := (List.range' 0 m 4).foldl (prepareStep t cleanup history target previous) (0, [])
    result.1 = ((Finset.range m).filter (QualifiesAt t cleanup target previous)).card ∧
      result.2 = if result.1 = 0 then [] else
        whitened (fun p => p < m ∧ QualifiesAt t cleanup target previous p) target := by
  induction m with
  | zero => simp
  | succ m ih =>
    obtain ⟨hcount, hintermediate⟩ := ih
    rw [List.range'_concat, List.foldl_append, List.foldl_cons, List.foldl_nil, Nat.zero_add,
      prepareStep_eq t hhistory]
    generalize (List.range' 0 m 4).foldl (prepareStep t cleanup history target previous)
      (0, []) = s at hcount hintermediate
    rw [Finset.range_add_one, Finset.filter_insert]
    by_cases hq : QualifiesAt t cleanup target previous m
    · -- before the first qualifying pixel the target stands for the intermediate frame
      have hsource : (if s.1 = 0 then target else s.2) =
          whitened (fun p => p < m ∧ QualifiesAt t cleanup target previous p) target := by
        by_cases hzero : s.1 = 0
        · rw [if_pos hzero, whitened_of_forall_not]
          rintro p ⟨hp, hqualifies⟩
          rw [hzero, eq_comm, Finset.card_eq_zero, Finset.filter_eq_empty_iff] at hcount
          exact hcount (Finset.mem_range.mpr hp) hqualifies
        · rw [if_neg hzero, hintermediate, if_neg hzero]
      rw [if_pos hq, if_pos hq, Finset.card_insert_of_notMem (by simp), hsource]
      refine ⟨by rw [hcount], ?_⟩
      rw [if_neg (Nat.succ_ne_zero _)]
      refine fillWhite_whitened fun p => ?_
      rw [Nat.lt_succ_iff_lt_or_eq]
      constructor
      · rintro ⟨hlt | rfl, hqualifies⟩
        · exact Or.inl ⟨hlt, hqualifies⟩
        · exact Or.inr rfl
      · rintro (⟨hlt, hqualifies⟩ | rfl)
        · exact ⟨Or.inl hlt, hqualifies⟩
        · exact ⟨Or.inr rfl, hq⟩
    · rw [if_neg hq, if_neg hq]
      refine ⟨hcount, hintermediate.trans ?_⟩
      have hsame : ∀ p, (p < m ∧ QualifiesAt t cleanup target previous p) ↔
          (p < m + 1 ∧ QualifiesAt t cleanup target previous p) := by
        intro p
        rw [Nat.lt_succ_iff_lt_or_eq]
        constructor
        · exact fun hp => ⟨Or.inl hp.1, hp.2⟩
        · rintro ⟨hlt | rfl, hqualifies⟩
          · exact ⟨hlt, hqualifies⟩
          · exact absurd hqualifies hq
      simp only [whitened, hsame]

/-! ### The pass -/

theorem prepareLoop_of_malformed (h : target = [] ∨ target.length % 4 ≠ 0) :
    self.prepareLoop target thresholds cleanup = (0, []) := by
  unfold prepareLoop
  rw [if_pos (by simpa using h)]

theorem prepareLoop_of_otherSize (h : self.previous.length ≠ target.length) :
    self.prepareLoop target thresholds false = (0, []) := by
  unfold prepareLoop
  split
  · rfl
  · simp [h]

theorem prepareLoop_of_buffer (hne : target ≠ []) (hwhole : target.length % 4 = 0)
    (hhistory : cleanup = true ∨ self.previous.length = target.length) :
    self.prepareLoop target thresholds cleanup =
      (List.range' 0 (target.length / 4) 4).foldl
        (prepareStep thresholds.clamped cleanup (self.previous.length = target.length) target
          self.previous) (0, []) := by
  unfold prepareLoop
  rw [if_neg (by simp [hne, hwhole]), if_neg]
  rcases hhistory with rfl | hsize
  · simp
  · simp [hsize]

/-- A buffer that has no qualifying pixel whatever its pixels are. -/
theorem qualifying_eq_empty
    (h : ¬(target.length % 4 = 0 ∧ (cleanup = true ∨ self.previous.length = target.length))) :
    self.qualifying target thresholds cleanup = ∅ :=
  Finset.filter_eq_empty_iff.mpr fun _ _ hq => h hq.1

/-- The count and the intermediate frame. -/
theorem prepareLoop_eq (self : ColorQualityHistory) (target : List UInt8)
    (thresholds : ColorQualityThresholds) (cleanup : Bool) :
    self.prepareLoop target thresholds cleanup =
      ((self.qualifying target thresholds cleanup).card,
        if (self.qualifying target thresholds cleanup).card = 0 then []
        else whitened (self.Qualifies target thresholds cleanup) target) := by
  by_cases hbuffer : target.length % 4 = 0 ∧
      (cleanup = true ∨ self.previous.length = target.length)
  · by_cases hne : target = []
    · rw [prepareLoop_of_malformed (Or.inl hne)]
      simp [qualifying, hne]
    · rw [prepareLoop_of_buffer hne hbuffer.1 hbuffer.2]
      have hhistory : cleanup = false → decide (self.previous.length = target.length) = true := by
        rintro rfl
        simpa using hbuffer.2
      obtain ⟨hcount, hintermediate⟩ := loop_eq thresholds.clamped target self.previous hhistory
        (target.length / 4)
      have hq (p : Nat) : self.Qualifies target thresholds cleanup p ↔
          QualifiesAt thresholds.clamped cleanup target self.previous p :=
        and_iff_right hbuffer
      refine Prod.ext ?_ ?_
      · simpa only [qualifying, hq] using hcount
      · rw [hintermediate, hcount, whitened_of_lt hbuffer.1]
        simp only [qualifying, whitened, hq]
  · rw [qualifying_eq_empty hbuffer, Finset.card_empty, if_pos rfl]
    rcases not_and_or.mp hbuffer with hwhole | hhistory
    · exact prepareLoop_of_malformed (Or.inr hwhole)
    · rw [not_or, Bool.not_eq_true] at hhistory
      obtain ⟨rfl, hsize⟩ := hhistory
      exact prepareLoop_of_otherSize hsize

/-! ### The pass of the backend -/

/-- The pixels of the rest of a buffer. -/
theorem qualifiesAt_succ (t : ColorQualityThresholds) (red green blue alpha : UInt8) (p : Nat) :
    QualifiesAt t cleanup (red :: green :: blue :: alpha :: target) previous (p + 1) ↔
      QualifiesAt t cleanup target (previous.drop 4) p := by
  have hindex : 4 * (p + 1) = 4 + 4 * p := by omega
  have htarget (n : Nat) : (red :: green :: blue :: alpha :: target).getD (4 + n) 0 =
      target.getD n 0 := by
    rw [Nat.add_comm]
    rfl
  have hprevious (n : Nat) : previous.getD (4 + n) 0 = (previous.drop 4).getD n 0 := by
    rw [List.getD_eq_getElem?_getD, List.getD_eq_getElem?_getD, List.getElem?_drop]
  simp only [QualifiesAt, spreadAt, oldMinAt, changeAt, hindex, Nat.add_assoc, htarget,
    hprevious]

theorem qualifies_iff (t : ColorQualityThresholds) (red green blue alpha : UInt8)
    (target : List UInt8) (hhistory : cleanup = false → 4 ≤ previous.length) :
    qualifies t cleanup [red, green, blue] previous = true ↔
      QualifiesAt t cleanup (red :: green :: blue :: alpha :: target) previous 0 := by
  obtain _ | ⟨oldRed, _ | ⟨oldGreen, _ | ⟨oldBlue, rest⟩⟩⟩ := previous
  case cons.cons.cons =>
    cases cleanup with
    | true => simp [qualifies, QualifiesAt, spreadAt]
    | false =>
      have hchange (r g b : Nat) : t.change ≤ ((max r (max g b) : Nat) : Int) ↔
          t.change ≤ r ∨ t.change ≤ g ∨ t.change ≤ b := by omega
      simp [qualifies, QualifiesAt, spreadAt, oldMinAt, changeAt, hchange]
  all_goals
    cases cleanup
    · simp at hhistory
    · simp [qualifies, QualifiesAt, spreadAt]

theorem whitened_cons (q : Nat → Prop) [DecidablePred q] (red green blue alpha : UInt8)
    (target : List UInt8) :
    whitened q (red :: green :: blue :: alpha :: target) =
      (if q 0 then [255, 255, 255, 255] else [red, green, blue, alpha]) ++
        whitened (fun p => q (p + 1)) target := by
  have hnext (n : Nat) : (n + 4) / 4 = n / 4 + 1 := by omega
  simp only [whitened, List.mapIdx_cons, hnext]
  split <;> simp [*]

/-- The first pixel and the rest. -/
theorem sweep_cons (t : ColorQualityThresholds) (red green blue alpha : UInt8)
    (target : List UInt8) (hhistory : cleanup = false → 4 ≤ previous.length) :
    let tail := sweep t cleanup target (previous.drop 4)
    let q := QualifiesAt t cleanup (red :: green :: blue :: alpha :: target) previous 0
    sweep t cleanup (red :: green :: blue :: alpha :: target) previous =
      (tail.1 + if q then 1 else 0,
        (if q then [255, 255, 255, 255] else [red, green, blue, alpha]) ++ tail.2) := by
  rw [sweep]
  simp only [qualifies_iff t red green blue alpha target hhistory]
  split <;> rfl

theorem sweep_eq (t : ColorQualityThresholds) (cleanup : Bool) (target previous : List UInt8)
    (hwhole : target.length % 4 = 0)
    (hhistory : cleanup = false → previous.length = target.length) :
    sweep t cleanup target previous =
      (Nat.count (QualifiesAt t cleanup target previous) (target.length / 4),
        whitened (QualifiesAt t cleanup target previous) target) := by
  generalize hn : target.length / 4 = n
  induction n generalizing target previous with
  | zero =>
    have hnil : target = [] := List.eq_nil_of_length_eq_zero (by omega)
    subst hnil
    rfl
  | succ n ih =>
    obtain _ | ⟨red, _ | ⟨green, _ | ⟨blue, _ | ⟨alpha, target⟩⟩⟩⟩ := target
    case cons.cons.cons.cons =>
      rw [List.length_cons, List.length_cons, List.length_cons,
        List.length_cons] at hwhole hhistory hn
      rw [sweep_cons t red green blue alpha target
        fun hcleanup => by have := hhistory hcleanup; omega,
        ih target (previous.drop 4) (by omega) (fun hcleanup => by simp [hhistory hcleanup])
          (by omega), Nat.count_succ', whitened_cons]
      simp only [qualifiesAt_succ]
    all_goals simp at hn

/-- The pass that the backend runs is the loop. -/
theorem prepare_eq (self : ColorQualityHistory) (target : List UInt8)
    (thresholds : ColorQualityThresholds) (cleanup : Bool) :
    self.prepare target thresholds cleanup = self.prepareLoop target thresholds cleanup := by
  by_cases hmalformed : target = [] ∨ target.length % 4 ≠ 0
  · rw [prepareLoop_of_malformed hmalformed, prepare, if_pos (by simpa using hmalformed)]
  · obtain ⟨hne, hwhole⟩ := not_or.mp hmalformed
    rw [not_not] at hwhole
    have hmalformed' : ¬(target.isEmpty || decide (target.length % 4 ≠ 0)) = true := by
      simp [hne, hwhole]
    rw [prepare, if_neg hmalformed']
    by_cases hhistory : cleanup = true ∨ self.previous.length = target.length
    · have hsize : cleanup = false → self.previous.length = target.length := by
        rintro rfl
        simpa using hhistory
      rw [if_neg (by rcases hhistory with rfl | hsame <;> simp [*]), prepareLoop_eq,
        sweep_eq _ _ _ _ hwhole hsize]
      have hq (p : Nat) : self.Qualifies target thresholds cleanup p ↔
          QualifiesAt thresholds.clamped cleanup target self.previous p :=
        and_iff_right ⟨hwhole, hhistory⟩
      simp only [qualifying, whitened, hq, Nat.count_eq_card_filter_range]
    · rw [not_or, Bool.not_eq_true] at hhistory
      obtain ⟨rfl, hsize⟩ := hhistory
      rw [prepareLoop_of_otherSize hsize, if_pos (by simpa using hsize)]

/-- **The intermediate frame**, for every history, buffer, thresholds and mode. -/
theorem intermediate_exact (self : ColorQualityHistory) (target : List UInt8)
    (thresholds : ColorQualityThresholds) (cleanup : Bool) :
    let result := self.prepareLoop target thresholds cleanup
    -- the count
    result.1 = (self.qualifying target thresholds cleanup).card ∧
    -- the intermediate frame, byte by byte
    (result.2 = [] ↔ result.1 = 0) ∧
    (result.1 ≠ 0 → result.2.length = target.length ∧ ∀ n < target.length,
      result.2.getD n 0 =
        if n / 4 ∈ self.qualifying target thresholds cleanup then 255 else target.getD n 0) ∧
    -- refused buffers
    (target = [] ∨ target.length % 4 ≠ 0 → result = (0, [])) ∧
    (self.previous.length ≠ target.length → cleanup = false → result = (0, [])) ∧
    -- how the pixels depend on the thresholds and on the mode
    (∀ thresholds', thresholds.chroma ≤ thresholds'.chroma →
      thresholds.change ≤ thresholds'.change → thresholds'.nearWhite ≤ thresholds.nearWhite →
      self.qualifying target thresholds' cleanup ⊆ self.qualifying target thresholds cleanup) ∧
    self.qualifying target thresholds false ⊆ self.qualifying target thresholds true := by
  have hresult := prepareLoop_eq self target thresholds cleanup
  have hbytes (hcount : (self.qualifying target thresholds cleanup).card ≠ 0) : target ≠ [] ∧
      target.length % 4 = 0 := by
    obtain ⟨p, hp⟩ := Finset.card_ne_zero.mp hcount
    obtain ⟨hrange, hq⟩ := Finset.mem_filter.mp hp
    refine ⟨fun hnil => ?_, hq.1.1⟩
    simp [hnil] at hrange
  dsimp only
  refine ⟨by rw [hresult], ?_, ?_, prepareLoop_of_malformed, ?_, ?_, qualifying_cleanup⟩
  · rw [hresult]
    dsimp only
    split
    · next hzero => simp [hzero]
    · next hcount =>
      refine iff_of_false (fun hnil => (hbytes hcount).1 ?_) hcount
      exact List.eq_nil_of_length_eq_zero (by simpa [whitened] using congrArg List.length hnil)
  · intro hcount
    rw [hresult] at hcount ⊢
    obtain ⟨-, hwhole⟩ := hbytes hcount
    dsimp only at hcount ⊢
    rw [if_neg hcount]
    refine ⟨List.length_mapIdx, fun n hn => ?_⟩
    have hlt : n / 4 < target.length / 4 := by omega
    simp only [whitened, qualifying, List.getD_eq_getElem?_getD, List.getElem?_mapIdx,
      List.getElem?_eq_getElem hn, Option.map_some, Option.getD_some, Finset.mem_filter,
      Finset.mem_range, hlt, true_and]
  · rintro hsize rfl
    exact prepareLoop_of_otherSize hsize
  · exact fun thresholds' => qualifying_anti

end EinkLab.LowerEngine.ColorQualityHistory
