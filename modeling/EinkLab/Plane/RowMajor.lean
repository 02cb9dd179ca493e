import Mathlib.Data.List.Basic
import Mathlib.Data.List.Nodup
import Mathlib.Data.List.Range
import Mathlib.Data.Set.Function

/-!
# Planes stored row by row

A place `(x, y)` of a plane of rows of `width` elements stands at `position width (x, y)`.  The
places of a plane in storage order are `places`; nested loops over rows and columns are one loop
over them (`foldl_rows`), and writing every item to a position of its own is `scatter`.  `resize` is
what it is for a vector.
-/

namespace EinkLab.RowMajor

variable {α ι σ : Type*} {width height : Nat}

/-! ### Positions -/

def position (width : Nat) (p : Nat × Nat) : Nat := p.2 * width + p.1

/-- The place that stands at a position. -/
def place (width i : Nat) : Nat × Nat := (i % width, i / width)

/-- The places of a plane. -/
def Within (width height : Nat) (p : Nat × Nat) : Prop := p.1 < width ∧ p.2 < height

instance (width height : Nat) (p : Nat × Nat) : Decidable (Within width height p) :=
  inferInstanceAs (Decidable (_ ∧ _))

theorem position_lt {p : Nat × Nat} (h : Within width height p) :
    position width p < width * height := by
  have hrow : (p.2 + 1) * width ≤ height * width := Nat.mul_le_mul_right width h.2
  have hx := h.1
  rw [Nat.succ_mul] at hrow
  rw [position, Nat.mul_comm width]
  omega

theorem place_position {p : Nat × Nat} (h : p.1 < width) : place width (position width p) = p := by
  have hpos : 0 < width := by omega
  rw [place, position, Nat.mul_comm, Nat.mul_add_mod, Nat.mod_eq_of_lt h,
    Nat.mul_add_div hpos, Nat.div_eq_of_lt h, Nat.add_zero]

theorem position_place (width i : Nat) : position width (place width i) = i := by
  rw [position, place, Nat.mul_comm, Nat.div_add_mod]

theorem within_place {i : Nat} (h : i < width * height) : Within width height (place width i) := by
  have hpos : 0 < width := Nat.pos_of_ne_zero fun hzero => by simp [hzero] at h
  exact ⟨Nat.mod_lt _ hpos, Nat.div_lt_of_lt_mul h⟩

theorem position_inj {p q : Nat × Nat} (hp : p.1 < width) (hq : q.1 < width)
    (h : position width p = position width q) : p = q := by
  rw [← place_position hp, h, place_position hq]

/-- The places of a plane and its positions are in bijection. -/
theorem position_bijOn (width height : Nat) :
    Set.BijOn (position width) {p | Within width height p} {i | i < width * height} :=
  ⟨fun _ hp => position_lt hp, fun _ hp _ hq h => position_inj hp.1 hq.1 h,
    fun i hi => ⟨place width i, within_place hi, position_place width i⟩⟩

/-! ### Places in storage order -/

def places (width height : Nat) : List (Nat × Nat) :=
    (List.range (width * height)).map (place width)

theorem length_places (width height : Nat) : (places width height).length = width * height := by
  rw [places, List.length_map, List.length_range]

theorem mem_places {p : Nat × Nat} : p ∈ places width height ↔ Within width height p := by
  rw [places, List.mem_map]
  constructor
  · rintro ⟨i, hi, rfl⟩
    exact within_place (List.mem_range.mp hi)
  · intro hp
    exact ⟨position width p, List.mem_range.mpr (position_lt hp), place_position hp.1⟩

theorem nodup_places (width height : Nat) : (places width height).Nodup := by
  refine List.Nodup.map_on (fun i _ j _ hij => ?_) List.nodup_range
  rw [← position_place width i, hij, position_place]

/-- No two places stand at one position. -/
theorem nodup_positions (width height : Nat) : ((places width height).map (position width)).Nodup :=
  List.Nodup.map_on (fun _ hp _ hq heq => position_inj (mem_places.mp hp).1
    (mem_places.mp hq).1 heq)
    (nodup_places width height)

theorem getElem?_places {p : Nat × Nat} (h : Within width height p) :
    (places width height)[position width p]? = some p := by
  rw [places, List.getElem?_map, List.getElem?_range (position_lt h), Option.map_some,
    place_position h.1]

/-- Row after row, and in a row from left to right. -/
theorem places_eq_flatMap (width height : Nat) :
    places width height =
      (List.range height).flatMap fun y => (List.range width).map fun x => (x, y) := by
  induction height with
  | zero => rfl
  | succ height ih =>
    have hrow : (List.range width).map (fun i => place width (width * height + i)) =
        (List.range width).map fun x => (x, height) := by
      refine List.map_congr_left fun x hx => ?_
      have hplace := place_position (p := (x, height)) (List.mem_range.mp hx)
      rwa [position, Nat.mul_comm] at hplace
    rw [List.range_succ, List.flatMap_append, ← ih, places, Nat.mul_succ, List.range_add,
      List.map_append, List.map_map]
    simp only [List.flatMap_singleton, ← hrow]
    rfl

/-- The first row, and the rows below it. -/
theorem places_succ (width height : Nat) :
    places width (height + 1) = ((List.range width).map fun x => (x, 0)) ++
      (places width height).map fun p => (p.1, p.2 + 1) := by
  rw [places_eq_flatMap, places_eq_flatMap, List.range_succ_eq_map, List.flatMap_cons,
    List.flatMap_map, List.map_flatMap]
  simp only [List.map_map]
  rfl

/-- Nested loops over rows and columns. -/
theorem foldl_rows (f : σ → Nat → Nat → σ) (width height : Nat) (s : σ) :
    (List.range height).foldl (fun s y => (List.range width).foldl (fun s x => f s x y) s) s =
      (places width height).foldl (fun s p => f s p.1 p.2) s := by
  rw [places_eq_flatMap, List.foldl_flatMap]
  congr 1
  funext s y
  rw [List.foldl_map]

theorem foldlM_flatMap (f : σ → α → Option σ) (g : ι → List α) (items : List ι) (s : σ) :
    (items.flatMap g).foldlM f s = items.foldlM (fun s i => (g i).foldlM f s) s := by
  induction items generalizing s with
  | nil => rfl
  | cons i items ih =>
    rw [List.flatMap_cons, List.foldlM_append, List.foldlM_cons]
    congr 1
    funext t
    exact ih t

/-- Nested loops whose body may fail. -/
theorem foldlM_rows (f : σ → Nat → Nat → Option σ) (width height : Nat) (s : σ) :
    (List.range height).foldlM (fun s y => (List.range width).foldlM (fun s x => f s x y) s) s =
      (places width height).foldlM (fun s p => f s p.1 p.2) s := by
  rw [places_eq_flatMap, foldlM_flatMap]
  congr 1
  funext s y
  rw [List.foldlM_map]

/-- A loop whose body never fails while the state is good. -/
theorem foldlM_eq_some {f : σ → ι → Option σ} {g : σ → ι → σ} {P : σ → Prop} {items : List ι}
    (h : ∀ s, P s → ∀ i ∈ items, f s i = some (g s i) ∧ P (g s i)) {s : σ} (hs : P s) :
    items.foldlM f s = some (items.foldl g s) := by
  induction items generalizing s with
  | nil => rfl
  | cons i items ih =>
    obtain ⟨hstep, hnext⟩ := h s hs i List.mem_cons_self
    rw [List.foldlM_cons, hstep, List.foldl_cons]
    exact ih (fun t ht j hj => h t ht j (List.mem_cons_of_mem i hj)) hnext

/-- A loop that keeps the state good runs to its end. -/
theorem foldlM_isSome {f : σ → ι → Option σ} {P : σ → Prop} {items : List ι}
    (h : ∀ s, P s → ∀ i ∈ items, ∃ t, f s i = some t ∧ P t) {s : σ} (hs : P s) :
    ∃ t, items.foldlM f s = some t ∧ P t := by
  induction items generalizing s with
  | nil => exact ⟨s, rfl, hs⟩
  | cons i items ih =>
    obtain ⟨t, hstep, ht⟩ := h s hs i List.mem_cons_self
    rw [List.foldlM_cons, hstep]
    exact ih (fun u hu j hj => h u hu j (List.mem_cons_of_mem i hj)) ht

/-! ### Storage of a given size -/

/-- Storage of another size: the front is kept, and what is new is filled. -/
def resize (fill : α) (l : List α) (n : Nat) : List α :=
    l.take n ++ List.replicate (n - l.length) fill

theorem length_resize (fill : α) (l : List α) (n : Nat) : (resize fill l n).length = n := by
  rw [resize, List.length_append, List.length_take, List.length_replicate]
  omega

theorem resize_length {fill : α} {l : List α} {n : Nat} (h : l.length = n) :
    resize fill l n = l := by
  rw [resize, ← h, List.take_length, Nat.sub_self, List.replicate_zero, List.append_nil]

/-! ### Writing each item to its position -/

/-- The items are written in turn, `value i` at `target i`. -/
def scatter (target : ι → Nat) (value : ι → α) (items : List ι) (out : List α) : List α :=
  items.foldl (fun out i => out.set (target i) (value i)) out

theorem length_scatter (target : ι → Nat) (value : ι → α) (items : List ι) (out : List α) :
    (scatter target value items out).length = out.length := by
  induction items generalizing out with
  | nil => rfl
  | cons i items ih => exact (ih _).trans List.length_set

/-- A position that no item goes to is left alone. -/
theorem getElem?_scatter_of_ne {target : ι → Nat} (value : ι → α) {items : List ι} (out : List α)
    {n : Nat} (h : ∀ i ∈ items, target i ≠ n) : (scatter target value items out)[n]? = out[n]? := by
  induction items generalizing out with
  | nil => rfl
  | cons i items ih =>
    obtain ⟨hi, hrest⟩ := List.forall_mem_cons.mp h
    exact (ih _ hrest).trans (List.getElem?_set_ne hi)

/-- With different positions, each item is found where it went. -/
theorem getElem?_scatter {target : ι → Nat} (value : ι → α) {items : List ι} (out : List α)
    (hinj : (items.map target).Nodup) {i : ι} (hi : i ∈ items) (hlt : target i < out.length) :
    (scatter target value items out)[target i]? = some (value i) := by
  induction items generalizing out with
  | nil => cases hi
  | cons j items ih =>
    rw [List.map_cons, List.nodup_cons] at hinj
    rcases List.mem_cons.mp hi with rfl | hi
    · -- no later item overwrites what was written first
      have hnone : ∀ k ∈ items, target k ≠ target i := fun k hk heq =>
        hinj.1 (heq ▸ List.mem_map_of_mem hk)
      exact (getElem?_scatter_of_ne value _ hnone).trans (List.getElem?_set_self hlt)
    · exact ih _ hinj.2 hi (by rwa [List.length_set])

/-- Where the items go to every position, the old contents do not matter. -/
theorem scatter_eq_map {target : ι → Nat} (value : ι → α) {items : List ι} {sources : List ι}
    {out : List α} (hinj : (items.map target).Nodup) (hlength : out.length = sources.length)
    (h : ∀ n (hn : n < sources.length), sources[n] ∈ items ∧ target sources[n] = n) :
    scatter target value items out = sources.map value := by
  refine List.ext_getElem? fun n => ?_
  by_cases hn : n < sources.length
  · obtain ⟨hmem, htarget⟩ := h n hn
    have hwritten := getElem?_scatter value out hinj hmem (by omega)
    rw [htarget] at hwritten
    rw [hwritten, List.getElem?_map, List.getElem?_eq_getElem hn, Option.map_some]
  · rw [List.getElem?_eq_none (by rw [length_scatter]; omega),
      List.getElem?_eq_none (by rw [List.length_map]; omega)]

/-- Filling a plane in storage order. -/
theorem scatter_position (value : Nat × Nat → α) {out : List α}
    (hlength : out.length = width * height) :
    scatter (position width) value (places width height) out = (places width height).map value := by
  refine scatter_eq_map value (nodup_positions width height) (by rw [length_places, hlength])
    fun n hn => ⟨List.getElem_mem hn, ?_⟩
  simp only [places, List.getElem_map, List.getElem_range, position_place]

end EinkLab.RowMajor
