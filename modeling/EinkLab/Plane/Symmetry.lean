import EinkLab.Plane.RowMajor

/-!
# The eight symmetries of a plane

A `Symmetry` says where a turned plane takes its places from: the coordinates are exchanged or not,
and each is then mirrored in the source or not.  Every symmetry is a bijection of the places
(`source_bijOn`), its inverse is one again (`target_eq_source`), and a loop that writes each source
place to where it goes fills the turned plane (`scatter_target`).
-/

namespace EinkLab.RowMajor

variable {α : Type*} {w h : Nat}

structure Symmetry where
  exchange : Bool := false
  mirrorX : Bool := false
  mirrorY : Bool := false
  deriving DecidableEq, Repr

namespace Symmetry

/-- The width of a turned plane. -/
def width (s : Symmetry) (w h : Nat) : Nat := if s.exchange then h else w

/-- The height of a turned plane. -/
def height (s : Symmetry) (w h : Nat) : Nat := if s.exchange then w else h

def swap (s : Symmetry) (p : Nat × Nat) : Nat × Nat := if s.exchange then (p.2, p.1) else p

def mirror (s : Symmetry) (w h : Nat) (p : Nat × Nat) : Nat × Nat :=
  (if s.mirrorX then w - 1 - p.1 else p.1, if s.mirrorY then h - 1 - p.2 else p.2)

/-- The source place that a place of the turned plane shows. -/
def source (s : Symmetry) (w h : Nat) (p : Nat × Nat) : Nat × Nat := s.mirror w h (s.swap p)

/-- Where a source place goes. -/
def target (s : Symmetry) (w h : Nat) (q : Nat × Nat) : Nat × Nat := s.swap (s.mirror w h q)

def inverse (s : Symmetry) : Symmetry :=
  if s.exchange then { exchange := true, mirrorX := s.mirrorY, mirrorY := s.mirrorX } else s

@[simp] theorem swap_swap (s : Symmetry) (p : Nat × Nat) : s.swap (s.swap p) = p := by
  unfold swap
  split <;> rfl

theorem within_swap (s : Symmetry) {p : Nat × Nat} :
    Within w h (s.swap p) ↔ Within (s.width w h) (s.height w h) p := by
  unfold swap Symmetry.width Symmetry.height
  split
  · exact and_comm
  · exact Iff.rfl

theorem within_mirror (s : Symmetry) {p : Nat × Nat} (hp : Within w h p) :
    Within w h (s.mirror w h p) := by
  obtain ⟨hx, hy⟩ := hp
  constructor
  · dsimp only [mirror]
    split <;> omega
  · dsimp only [mirror]
    split <;> omega

theorem mirror_mirror (s : Symmetry) {p : Nat × Nat} (hp : Within w h p) :
    s.mirror w h (s.mirror w h p) = p := by
  obtain ⟨hx, hy⟩ := hp
  refine Prod.ext ?_ ?_
  · dsimp only [mirror]
    split <;> omega
  · dsimp only [mirror]
    split <;> omega

/-! ### A bijection of the places -/

theorem within_source (s : Symmetry) {p : Nat × Nat}
    (hp : Within (s.width w h) (s.height w h) p) :
    Within w h (s.source w h p) :=
  s.within_mirror (s.within_swap.mpr hp)

theorem within_target (s : Symmetry) {q : Nat × Nat} (hp : Within w h q) :
    Within (s.width w h) (s.height w h) (s.target w h q) := by
  rw [← within_swap, target, swap_swap]
  exact s.within_mirror hp

theorem source_target (s : Symmetry) {q : Nat × Nat} (hp : Within w h q) :
    s.source w h (s.target w h q) = q := by
  rw [source, target, swap_swap, s.mirror_mirror hp]

theorem target_source (s : Symmetry) {p : Nat × Nat}
    (hp : Within (s.width w h) (s.height w h) p) :
    s.target w h (s.source w h p) = p := by
  rw [source, target, s.mirror_mirror (s.within_swap.mpr hp), swap_swap]

theorem source_bijOn (s : Symmetry) (w h : Nat) :
    Set.BijOn (s.source w h)
      {p | Within (s.width w h) (s.height w h) p} {q | Within w h q} :=
  ⟨fun _ hp => s.within_source hp,
    fun p hp q hq heq => by rw [← s.target_source hp, heq, s.target_source hq],
    fun q hq => ⟨s.target w h q, s.within_target hq, s.source_target hq⟩⟩

/-- Where a place goes is where the inverse symmetry takes it from. -/
theorem target_eq_source (s : Symmetry) (q : Nat × Nat) :
    s.target w h q =
      s.inverse.source (s.width w h) (s.height w h) q := by
  -- with the axes exchanged, each mirror of the inverse is the other axis's
  obtain ⟨exchange, mirrorX, mirrorY⟩ := s
  cases exchange <;> rfl

/-- The places of the source, in the order in which the turned plane shows them. -/
theorem map_source_perm (s : Symmetry) (w h : Nat) :
    ((places (s.width w h) (s.height w h)).map (s.source w h)).Perm
      (places w h) := by
  refine (List.perm_ext_iff_of_nodup ?_ (nodup_places _ _)).mpr fun q => ?_
  · exact List.Nodup.map_on (fun p hp q hq heq =>
      (s.source_bijOn w h).injOn (mem_places.mp hp) (mem_places.mp hq) heq) (nodup_places _ _)
  · rw [List.mem_map, mem_places]
    constructor
    · rintro ⟨p, hp, rfl⟩
      exact s.within_source (mem_places.mp hp)
    · intro hq
      exact ⟨s.target w h q, mem_places.mpr (s.within_target hq), s.source_target hq⟩

/-! ### Turned planes -/

/-- A plane of the values `value`, turned. -/
def turned (s : Symmetry) (w h : Nat) (value : Nat × Nat → α) : List α :=
  (places (s.width w h) (s.height w h)).map fun p => value (s.source w h p)

theorem length_turned (s : Symmetry) (value : Nat × Nat → α) :
    (s.turned w h value).length = s.width w h * s.height w h := by
  rw [turned, List.length_map, length_places]

theorem getElem?_turned (s : Symmetry) (value : Nat × Nat → α) {p : Nat × Nat}
    (hp : Within (s.width w h) (s.height w h) p) :
    (s.turned w h value)[position (s.width w h) p]? =
      some (value (s.source w h p)) := by
  rw [turned, List.getElem?_map, getElem?_places hp, Option.map_some]

theorem turned_perm (s : Symmetry) (value : Nat × Nat → α) :
    (s.turned w h value).Perm ((places w h).map value) := by
  have hperm := (s.map_source_perm w h).map value
  rwa [List.map_map] at hperm

theorem turned_congr (s : Symmetry) {value value' : Nat × Nat → α}
    (hvalue : ∀ q, Within w h q → value q = value' q) : s.turned w h value = s.turned w h value' :=
  List.map_congr_left fun _ hp => hvalue _ (s.within_source (mem_places.mp hp))

/-- The inverse symmetry turns a turned plane back. -/
theorem inverse_turned (s : Symmetry) (value : Nat × Nat → α) :
    s.inverse.turned (s.width w h) (s.height w h) (fun p => value (s.source w h p)) =
      (places w h).map value := by
  have hsize : s.inverse.width (s.width w h) (s.height w h) = w ∧
      s.inverse.height (s.width w h) (s.height w h) = h := by
    obtain ⟨exchange, mirrorX, mirrorY⟩ := s
    cases exchange
    · exact ⟨rfl, rfl⟩
    · exact ⟨rfl, rfl⟩
  rw [turned, hsize.1, hsize.2]
  refine List.map_congr_left fun q hq => ?_
  rw [← target_eq_source, s.source_target (mem_places.mp hq)]

/-- Each source place is written to where it goes. -/
theorem scatter_target (s : Symmetry) (value : Nat × Nat → α) {out : List α}
    (hlength : out.length = s.width w h * s.height w h) :
    scatter (fun q => position (s.width w h) (s.target w h q)) value
      (places w h) out = s.turned w h value := by
  have hinj : ((places w h).map fun q =>
      position (s.width w h) (s.target w h q)).Nodup := by
    refine List.Nodup.map_on (fun p hp q hq heq => ?_) (nodup_places _ _)
    have hp := mem_places.mp hp
    have hq := mem_places.mp hq
    -- places that go to one position are one place
    have htarget := position_inj (s.within_target hp).1 (s.within_target hq).1 heq
    rw [← s.source_target hp, htarget, s.source_target hq]
  have hsources : s.turned w h value =
      ((places (s.width w h) (s.height w h)).map (s.source w h)).map value := by
    rw [turned, List.map_map]
    rfl
  rw [hsources]
  refine scatter_eq_map value hinj ?_ fun n hn => ?_
  · rw [List.length_map, length_places, hlength]
  · rw [List.length_map, length_places] at hn
    have hplace : Within (s.width w h) (s.height w h)
        (place (s.width w h) n) := within_place hn
    simp only [places, List.map_map, List.getElem_map, List.getElem_range, Function.comp_apply]
    refine ⟨?_, ?_⟩
    · change _ ∈ places w h
      rw [mem_places]
      exact s.within_source hplace
    · rw [s.target_source hplace, position_place]

end Symmetry

end EinkLab.RowMajor
