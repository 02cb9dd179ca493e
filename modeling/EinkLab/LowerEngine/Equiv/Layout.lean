import EinkLab.LowerEngine.Layout
import Mathlib.Tactic.Ring

/-!
# The row interleave is a bijection of places

The controller's plane is twice as wide and half as high.  `toController` takes a pixel to its place
there, and `fromController` back (`toController_bijOn`); the loop fills the controller's plane in
storage order (`loop_eq`).
-/

namespace EinkLab.LowerEngine.Layout

open RowMajor

variable {source : List UInt8} {width height : Nat}

/-! ### Places -/

def toController (p : Nat × Nat) : Nat × Nat := (2 * p.1 + p.2 % 2, p.2 / 2)

def fromController (q : Nat × Nat) : Nat × Nat := (q.1 / 2, 2 * q.2 + q.1 % 2)

/-- The position in the destination. -/
def controllerPosition (width : Nat) (p : Nat × Nat) : Nat :=
    p.2 / 2 * 2 * width + 2 * p.1 + p.2 % 2

theorem controllerPosition_eq (width : Nat) (p : Nat × Nat) :
    controllerPosition width p = position (2 * width) (toController p) := by
  rw [controllerPosition, position, toController]
  ring

theorem fromController_toController (p : Nat × Nat) : fromController (toController p) = p := by
  refine Prod.ext ?_ ?_ <;> simp only [fromController, toController] <;> omega

theorem toController_fromController (q : Nat × Nat) : toController (fromController q) = q := by
  refine Prod.ext ?_ ?_ <;> simp only [fromController, toController] <;> omega

theorem within_toController {p : Nat × Nat} (hp : Within width height p) (heven : height % 2 = 0) :
    Within (2 * width) (height / 2) (toController p) := by
  obtain ⟨hx, hy⟩ := hp
  refine ⟨?_, ?_⟩ <;> simp only [toController] <;> omega

theorem within_fromController {q : Nat × Nat} (hq : Within (2 * width) (height / 2) q) :
    Within width height (fromController q) := by
  obtain ⟨hx, hy⟩ := hq
  refine ⟨?_, ?_⟩ <;> simp only [fromController] <;> omega

theorem toController_bijOn (heven : height % 2 = 0) :
    Set.BijOn toController {p | Within width height p} {q | Within (2 * width) (height / 2) q} :=
  Set.InvOn.bijOn
    ⟨fun p _ => fromController_toController p, fun q _ => toController_fromController q⟩
    (fun _ hp => within_toController hp heven) (fun _ hq => within_fromController hq)

theorem size_eq (heven : height % 2 = 0) : 2 * width * (height / 2) = width * height := by
  rw [Nat.mul_comm 2, Nat.mul_assoc, Nat.two_mul_div_two_of_even (Nat.even_iff.mpr heven)]

/-- Every pixel has a position of its own, and every position a pixel. -/
theorem controllerPosition_bijOn (heven : height % 2 = 0) :
    Set.BijOn (controllerPosition width) {p | Within width height p} {i | i < width * height} := by
  have hcontroller := position_bijOn (2 * width) (height / 2)
  rw [size_eq heven] at hcontroller
  refine (hcontroller.comp (toController_bijOn heven)).congr fun p _ => ?_
  exact (controllerPosition_eq width p).symm

/-! ### The loop -/

/-- The byte that belongs at a place of the controller's plane. -/
def controllerByte (source : List UInt8) (width : Nat) (q : Nat × Nat) : UInt8 :=
  source.getD (position width (fromController q)) 0

/-- Two writes a round, or one. -/
theorem foldl_range_two {σ : Type} (f : σ → Nat → σ) (n : Nat) (s : σ) :
    (List.range n).foldl (fun s x => f (f s (2 * x)) (2 * x + 1)) s =
      (List.range (2 * n)).foldl f s := by
  induction n with
  | zero => rfl
  | succ n ih =>
    have hrange : List.range (2 * (n + 1)) = List.range (2 * n) ++ [2 * n, 2 * n + 1] := by
      rw [Nat.mul_succ, List.range_succ, List.range_succ, List.append_assoc]
      rfl
    rw [List.range_succ, hrange, List.foldl_append, List.foldl_append, ih]
    rfl

theorem interleavePair_eq (source : List UInt8) (width row : Nat) (destination : List UInt8) :
    interleavePair source width (2 * row) destination =
      (List.range (2 * width)).foldl (fun destination c =>
        destination.set (row * (2 * width) + c) (controllerByte source width (c, row)))
          destination := by
  rw [← foldl_range_two (fun (destination : List UInt8) c =>
    destination.set (row * (2 * width) + c) (controllerByte source width (c, row)))]
  unfold interleavePair controllerByte fromController position
  refine List.foldl_ext _ _ _ fun destination x _ => ?_
  -- the even columns show the upper row of the pair, the odd ones the lower row
  have hfirst : 2 * row / 2 * width * 2 + x * 2 = row * (2 * width) + 2 * x := by
    rw [Nat.mul_div_cancel_left row Nat.two_pos]
    ring
  have hsource : 2 * row * width + x = (2 * row + 2 * x % 2) * width + 2 * x / 2 := by
    rw [Nat.mul_mod_right, Nat.mul_div_cancel_left x Nat.two_pos, Nat.add_zero]
  have hsource' : 2 * row * width + width + x =
      (2 * row + (2 * x + 1) % 2) * width + (2 * x + 1) / 2 := by
    have hodd : (2 * x + 1) % 2 = 1 := by omega
    have hhalf : (2 * x + 1) / 2 = x := by omega
    rw [hodd, hhalf]
    ring
  simp only [hfirst, hsource, hsource', Nat.add_assoc]

theorem range'_two (n : Nat) : List.range' 0 n 2 = (List.range n).map (2 * ·) := by
  induction n with
  | zero => rfl
  | succ n ih =>
    rw [List.range'_concat, ih, Nat.zero_add, List.range_succ, List.map_append]
    rfl

/-- The loop fills the controller's plane. -/
theorem loop_eq (source : List UInt8) {vector : List UInt8}
    (hlength : vector.length = width * height)
    (heven : height % 2 = 0) :
    (List.range' 0 (height / 2) 2).foldl (fun vector sourceY =>
      interleavePair source width sourceY vector) vector =
        (places (2 * width) (height / 2)).map (controllerByte source width) := by
  rw [range'_two, List.foldl_map]
  simp only [interleavePair_eq]
  rw [foldl_rows fun (vector : List UInt8) c row =>
    vector.set (row * (2 * width) + c) (controllerByte source width (c, row))]
  exact scatter_position (controllerByte source width) (hlength.trans (size_eq heven).symm)

/-! ### The function -/

/-- What is accepted: two pointers, a size of whole row pairs, and as many bytes. -/
structure Accepts (source : Option (List UInt8)) (sourceBytes : Nat) (width height : Int)
    (destination : Option (List UInt8)) : Prop where
  source : source ≠ none
  destination : destination ≠ none
  widthPos : 0 < width
  heightPos : 0 < height
  even : height % 2 = 0
  bytes : sourceBytes = width.toNat * height.toNat
  addressable : sourceBytes ≤ sizeMax

theorem Accepts.toNat_even {source : Option (List UInt8)} {sourceBytes : Nat} {width height : Int}
    {destination : Option (List UInt8)} (h : Accepts source sourceBytes width height destination) :
    height.toNat % 2 = 0 := by
  have heven := h.even
  have hpos := h.heightPos
  omega

theorem interleave_of_not_accepts {source : Option (List UInt8)} {sourceBytes : Nat}
    {width height : Int} {destination : Option (List UInt8)}
    (h : ¬Accepts source sourceBytes width height destination) :
    interleaveAdjacentGrayscaleRows source sourceBytes width height destination =
      (false, destination) := by
  unfold interleaveAdjacentGrayscaleRows
  split
  · next source vector =>
    split
    · rfl
    · next hdims =>
      simp only [Bool.or_eq_true, decide_eq_true_eq, not_or, Int.not_le, not_not, ne_eq] at hdims
      obtain ⟨⟨hwidth, hheight⟩, heven⟩ := hdims
      have hpos : 0 < height.toNat := by omega
      split
      · rfl
      · next hsize =>
        simp only [Bool.or_eq_true, decide_eq_true_eq, not_or, Nat.not_lt, not_not, ne_eq,
          Nat.le_div_iff_mul_le hpos] at hsize
        obtain ⟨hfits, hbytes⟩ := hsize
        exact absurd ⟨by simp, by simp, hwidth, hheight, heven, hbytes, hbytes ▸ hfits⟩ h
  · rfl

theorem interleave_of_accepts {sourceBytes : Nat} {width height : Int} {vector : List UInt8}
    (h : Accepts (some source) sourceBytes width height (some vector)) :
    interleaveAdjacentGrayscaleRows (some source) sourceBytes width height (some vector) =
      (true, some ((places (2 * width.toNat) (height.toNat / 2)).map
        (controllerByte source width.toNat))) := by
  have heven := h.toNat_even
  have hpos : 0 < height.toNat := by
    have := h.heightPos
    omega
  have hfits : ¬width.toNat > sizeMax / height.toNat := by
    rw [Nat.not_lt, Nat.le_div_iff_mul_le hpos, ← h.bytes]
    exact h.addressable
  have hlength : (resize 0 vector sourceBytes).length = width.toNat * height.toNat :=
    (length_resize 0 vector sourceBytes).trans h.bytes
  have hloop := loop_eq source hlength heven
  simp only [interleaveAdjacentGrayscaleRows, Int.not_le.mpr h.widthPos, Int.not_le.mpr h.heightPos,
    h.even, hfits, hloop, ← h.bytes, ne_eq, not_true_eq_false, decide_false, Bool.or_self,
    Bool.false_eq_true, if_false]

/-- The byte at a pixel's position is the pixel. -/
theorem getElem?_controllerByte (source : List UInt8) (heven : height % 2 = 0) {p : Nat × Nat}
    (hp : Within width height p) :
    ((places (2 * width) (height / 2)).map (controllerByte source width))[
      controllerPosition width p]? = some (source.getD (position width p) 0) := by
  rw [controllerPosition_eq, List.getElem?_map, getElem?_places (within_toController hp heven),
    Option.map_some, controllerByte, fromController_toController]

/-- **The row interleave**, for every call. -/
theorem interleave_exact (source : Option (List UInt8)) (sourceBytes : Nat) (width height : Int)
    (destination : Option (List UInt8)) :
    let result := interleaveAdjacentGrayscaleRows source sourceBytes width height destination
    let w := width.toNat
    let h := height.toNat
    -- what is accepted, and what is rejected
    (result.1 = true ↔ Accepts source sourceBytes width height destination) ∧
    (result.1 = false → result.2 = destination) ∧
    (result.1 = true →
      -- the positions
      Set.BijOn (fun p : Nat × Nat => p.2 / 2 * 2 * w + 2 * p.1 + p.2 % 2)
        {p | p.1 < w ∧ p.2 < h} {i | i < w * h} ∧
      -- the bytes
      ∃ plane written, source = some plane ∧ result.2 = some written ∧ written.length = w * h ∧
        ∀ x y, x < w → y < h →
          written[y / 2 * 2 * w + 2 * x + y % 2]? = some (plane.getD (y * w + x) 0)) := by
  dsimp only
  by_cases haccepts : Accepts source sourceBytes width height destination
  · obtain ⟨plane, rfl⟩ := Option.ne_none_iff_exists'.mp haccepts.source
    obtain ⟨vector, rfl⟩ := Option.ne_none_iff_exists'.mp haccepts.destination
    have heven := haccepts.toNat_even
    rw [interleave_of_accepts haccepts]
    refine ⟨iff_of_true rfl haccepts, (fun hno => nomatch hno), fun _ => ⟨?_, ?_⟩⟩
    · exact controllerPosition_bijOn heven
    · refine ⟨plane, _, rfl, rfl, ?_, fun x y hx hy => ?_⟩
      · rw [List.length_map, length_places, size_eq heven]
      · exact getElem?_controllerByte plane heven (p := (x, y)) ⟨hx, hy⟩
  · rw [interleave_of_not_accepts haccepts]
    exact ⟨iff_of_false (by simp) haccepts, fun _ => rfl, (fun hno => nomatch hno)⟩

/-! ### The plane that the backend submits -/

theorem interleaveRows_eq {first second : List UInt8} {n : Nat} (hfirst : first.length = n)
    (hsecond : second.length = n) :
    interleaveRows first second = (List.range (2 * n)).map fun c =>
      (if c % 2 = 0 then first else second).getD (c / 2) 0 := by
  induction n generalizing first second with
  | zero =>
    rw [List.eq_nil_of_length_eq_zero hfirst, List.eq_nil_of_length_eq_zero hsecond]
    rfl
  | succ n ih =>
    obtain _ | ⟨a, first⟩ := first
    · cases hfirst
    obtain _ | ⟨b, second⟩ := second
    · cases hsecond
    have hcons : interleaveRows (a :: first) (b :: second) = a :: b ::
      interleaveRows first second := rfl
    have hrange : List.range (2 * (n + 1)) = 0 :: 1 :: (List.range (2 * n)).map (· + 2) := by
      rw [Nat.mul_succ, List.range_succ_eq_map, List.range_succ_eq_map, List.map_cons, List.map_map]
      rfl
    rw [hcons, ih (Nat.succ.inj hfirst) (Nat.succ.inj hsecond), hrange, List.map_cons,
      List.map_cons,
      List.map_map]
    refine congrArg (a :: b :: ·) (List.map_congr_left fun c _ => ?_)
    have hmod : (c + 2) % 2 = c % 2 := Nat.add_mod_right c 2
    have hdiv : (c + 2) / 2 = c / 2 + 1 := Nat.add_div_right c Nat.two_pos
    simp only [Function.comp_apply, hmod, hdiv]
    split <;> rfl

theorem interleaveRowPairs_eq (width : Nat) {pairs : Nat} {source : List UInt8}
    (hlength : source.length = 2 * width * pairs) :
    interleaveRowPairs width pairs source =
      (places (2 * width) pairs).map (controllerByte source width) := by
  induction pairs generalizing source with
  | zero => simp [interleaveRowPairs, places]
  | succ pairs ih =>
    have hrest : (source.drop (2 * width)).length = 2 * width * pairs := by
      rw [List.length_drop, hlength, Nat.mul_succ, Nat.add_sub_cancel]
    have hpair : 2 * width ≤ source.length := by
      rw [hlength]
      exact Nat.le_mul_of_pos_right _ (Nat.succ_pos pairs)
    have hfirst : (source.take width).length = width := by
      rw [List.length_take]
      omega
    have hsecond : ((source.drop width).take width).length = width := by
      rw [List.length_take, List.length_drop]
      omega
    rw [interleaveRowPairs, ih hrest, interleaveRows_eq hfirst hsecond, places_succ,
      List.map_append,
      List.map_map, List.map_map]
    congr 1
    · -- the first row of the controller's plane is the first pair of rows
      refine List.map_congr_left fun c hc => ?_
      have hhalf : c / 2 < width := by
        have := List.mem_range.mp hc
        omega
      rcases Nat.mod_two_eq_zero_or_one c with hmod | hmod <;>
        simp [controllerByte, fromController, position, hmod, hhalf]
    · -- the rows below it are those of the other pairs
      refine List.map_congr_left fun q _ => ?_
      have hposition : position width (fromController (q.1, q.2 + 1)) =
          2 * width + position width (fromController q) := by
        simp only [position, fromController]
        ring
      simp only [Function.comp_apply, controllerByte, hposition, List.getD_eq_getElem?_getD,
        List.getElem?_drop]

/-- The layout the backend uses is the loop's. -/
theorem interleave_eq (source vector : List UInt8) (hsize : source.length ≤ sizeMax)
    (width height : Int) :
    let result :=
      interleaveAdjacentGrayscaleRows (some source) source.length width height (some vector)
    LowerEngine.interleaveAdjacentGrayscaleRows source width height =
      if result.1 then result.2 else none := by
  dsimp only
  unfold LowerEngine.interleaveAdjacentGrayscaleRows
  by_cases haccepts : Accepts (some source) source.length width height (some vector)
  · have hpositive := haccepts.heightPos
    have heven := haccepts.even
    have hlength : source.length = 2 * width.toNat * (height.toNat / 2) := by
      rw [size_eq haccepts.toNat_even]
      exact haccepts.bytes
    rw [interleave_of_accepts haccepts, interleaveRowPairs_eq width.toNat hlength]
    simp [Int.not_le.mpr haccepts.widthPos, Int.not_le.mpr hpositive, heven, ← haccepts.bytes]
  · rw [interleave_of_not_accepts haccepts]
    split
    · rfl
    · next hdims =>
      simp only [Bool.or_eq_true, decide_eq_true_eq, not_or, Int.not_le, not_not, ne_eq] at hdims
      obtain ⟨⟨hwidth, hheight⟩, heven⟩ := hdims
      split
      · rfl
      · next hbytes =>
        exact absurd ⟨by simp, by simp, hwidth, hheight, heven, not_not.mp hbytes, hsize⟩ haccepts

end EinkLab.LowerEngine.Layout
