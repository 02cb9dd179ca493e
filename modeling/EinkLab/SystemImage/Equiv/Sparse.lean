import EinkLab.SystemImage.Sparse
import Mathlib.Data.List.Flatten
import Mathlib.Tactic.Ring

/-!
# A region on the device

`encodeRegion` never fails on a region of whole blocks, the device parses what it wrote
(`parseSparse_encodeRegion`), and applying the chunks overwrites exactly the region
(`applyChunks_regionChunks`, `touches_regionChunks`).
-/

namespace EinkLab.SystemImage

open EinkLab.Text EinkLab.Binary

/-! ### Blocks -/

theorem length_blocksOf {data : Bytes} {start stop : Nat} (hle : stop * BLOCK ≤ data.length) :
    (blocksOf data start stop).length = (stop - start) * BLOCK := by
  rw [blocksOf, List.length_take, List.length_drop, Nat.sub_mul]
  omega

theorem blocksOf_append {data : Bytes} {start mid stop : Nat} (hsm : start ≤ mid)
    (hms : mid ≤ stop) :
    blocksOf data start mid ++ blocksOf data mid stop = blocksOf data start stop := by
  have hmid : mid * BLOCK = start * BLOCK + (mid - start) * BLOCK := by
    rw [← Nat.add_mul]
    congr 1
    omega
  have hstop : (stop - start) * BLOCK = (mid - start) * BLOCK + (stop - mid) * BLOCK := by
    rw [← Nat.add_mul]
    congr 1
    omega
  unfold blocksOf
  rw [hstop, List.take_add, List.drop_drop, hmid]

theorem blocksOf_all {data : Bytes} {count : Nat} (hlen : data.length = count * BLOCK) :
    blocksOf data 0 count = data := by
  rw [blocksOf, Nat.zero_mul, List.drop_zero, Nat.sub_zero, ← hlen, List.take_length]

/-- The blocks outside are left. -/
theorem blocksOf_splice {p bs : Bytes} {start count i : Nat} (hlen : bs.length = count * BLOCK)
    (hfit : start * BLOCK + bs.length ≤ p.length) (hout : ¬(start ≤ i ∧ i < start + count)) :
    blocksOf (splice p (start * BLOCK) bs) i (i + 1) = blocksOf p i (i + 1) := by
  unfold BLOCK at hlen hfit
  apply List.ext_getElem?
  intro j
  rw [blocksOf, blocksOf, List.getElem?_take, List.getElem?_take]
  split_ifs with hj
  · rw [List.getElem?_drop, List.getElem?_drop, getElem?_splice hfit]
    unfold BLOCK at hj ⊢
    omega
  · rfl

/-! ### Runs -/

theorem runEnd_le {data : Bytes} {count stop : Nat} {is_zero : Bool} (hle : stop ≤ count) :
    runEnd data count is_zero stop ≤ count := by
  fun_induction runEnd data count is_zero stop with
  | case1 stop h ih => exact ih (by omega)
  | case2 stop h => exact hle

/-- The blocks of a run are alike. -/
theorem isZero_of_lt_runEnd {data : Bytes} {count stop : Nat} {is_zero : Bool} {i : Nat}
    (hge : stop ≤ i) (hlt : i < runEnd data count is_zero stop) : isZero data i = is_zero := by
  fun_induction runEnd data count is_zero stop with
  | case1 stop h ih =>
    rcases Nat.eq_or_lt_of_le hge with rfl | hgt
    · exact h.2
    · exact ih hgt hlt
  | case2 stop h => omega

/-- A run ends at the first block that differs. -/
theorem runEnd_eq {data : Bytes} {count stop mid : Nat} {is_zero : Bool} (hle : stop ≤ mid)
    (halike : ∀ i, stop ≤ i → i < mid → i < count ∧ isZero data i = is_zero)
    (hends : mid < count → isZero data mid ≠ is_zero) : runEnd data count is_zero stop = mid := by
  fun_induction runEnd data count is_zero stop with
  | case1 stop h ih =>
    rcases Nat.eq_or_lt_of_le hle with rfl | hlt
    · exact absurd h.2 (hends h.1)
    · exact ih hlt fun i hi hlt => halike i (by omega) hlt
  | case2 stop h =>
    rcases Nat.eq_or_lt_of_le hle with rfl | hlt
    · rfl
    · exact absurd (halike stop (Nat.le_refl stop) hlt) h

theorem blocksOf_zeros {data : Bytes} {start stop : Nat} (hle : start ≤ stop)
    (hzero : ∀ i, start ≤ i → i < stop → isZero data i = true) :
    blocksOf data start stop = List.replicate ((stop - start) * BLOCK) 0 := by
  induction stop, hle using Nat.le_induction with
  | base =>
    rw [blocksOf, Nat.sub_self, Nat.zero_mul]
    rfl
  | succ stop hle ih =>
    have hlast : blocksOf data stop (stop + 1) = List.replicate BLOCK 0 :=
      eq_of_beq (hzero stop hle (Nat.lt_succ_self stop))
    have hcount : (stop + 1 - start) * BLOCK = (stop - start) * BLOCK + BLOCK := by
      rw [← Nat.succ_mul]
      congr 1
      omega
    rw [← blocksOf_append hle (Nat.le_succ stop),
      ih fun i hi hlt => hzero i hi (Nat.lt_succ_of_lt hlt), hlast, hcount,
      List.replicate_append_replicate]

theorem flatten_fill (n : Nat) :
    (List.replicate (n * (BLOCK / 4)) (List.replicate 4 (0 : UInt8))).flatten =
      List.replicate (n * BLOCK) 0 := by
  rw [List.flatten_replicate_replicate]
  congr 1
  show n * 1024 * 4 = n * 4096
  omega

/-- A chunk of the blocks from `start` to `stop`: it writes what the data has there. -/
structure Chunk.Carries (c : Chunk) (data : Bytes) (start stop : Nat) : Prop where
  blocks : c.blocks = stop - start
  written : c.written = some (blocksOf data start stop)
  body : c.body.length = c.kind.bodyLength c.blocks
  size : c.body.length ≤ (stop - start) * BLOCK
  kind : c.kind ≠ .SKIP

/-- One pass of the outer loop. -/
theorem runs_of_lt {data : Bytes} {count start : Nat} (hlen : data.length = count * BLOCK)
    (hlt : start < count) :
    ∃ c stop, start < stop ∧ stop ≤ count ∧ c.Carries data start stop ∧
      runs data count start = c :: runs data count stop := by
  have hge := le_runEnd data count (isZero data start) (start + 1)
  have hle : runEnd data count (isZero data start) (start + 1) ≤ count :=
    runEnd_le (Nat.succ_le_of_lt hlt)
  rw [runs, if_pos hlt]
  refine ⟨_, _, hge, hle, ?_, rfl⟩
  have hroom : runEnd data count (isZero data start) (start + 1) * BLOCK ≤ data.length := by
    rw [hlen]
    exact Nat.mul_le_mul_right BLOCK hle
  cases hz : isZero data start with
  | true =>
    rw [hz] at hge
    have hzeros : blocksOf data start (runEnd data count true (start + 1)) = _ :=
      blocksOf_zeros (by omega) fun i hi hlt => by
        rcases Nat.eq_or_lt_of_le hi with rfl | hgt
        · exact hz
        · exact isZero_of_lt_runEnd hgt hlt
    refine ⟨rfl, ?_, rfl, ?_, nofun⟩
    · rw [hzeros, ← flatten_fill]
      rfl
    · show 4 ≤ (runEnd data count true (start + 1) - start) * 4096
      omega
  | false =>
    rw [hz] at hroom
    have hbody : (blocksOf data start _).length = _ := length_blocksOf hroom
    exact ⟨rfl, rfl, hbody, Nat.le_of_eq hbody, nofun⟩

/-- One block of data, and zeros behind it. -/
theorem runs_of_zeros {data : Bytes} {count : Nat} (hcount : 1 < count)
    (hfirst : isZero data 0 = false) (hrest : ∀ i, 0 < i → i < count → isZero data i = true) :
    runs data count 0 =
      [⟨.RAW, 1, blocksOf data 0 1⟩, ⟨.FILL, count - 1, List.replicate 4 0⟩] := by
  have hraw : runEnd data count false 1 = 1 :=
    runEnd_eq (Nat.le_refl 1) (fun i hi hlt => absurd hi (by omega))
      fun hlt => by rw [hrest 1 Nat.one_pos hlt]; decide
  have hfill : runEnd data count true 2 = count :=
    runEnd_eq hcount (fun i hi hlt => ⟨hlt, hrest i (by omega) hlt⟩)
      fun hlt => absurd hlt (Nat.lt_irrefl count)
  have hsecond : isZero data 1 = true := hrest 1 Nat.one_pos hcount
  have hnone : runs data count count = [] := by
    rw [runs, if_neg (Nat.lt_irrefl count)]
  rw [runs, if_pos (by omega), hfirst]
  dsimp only
  rw [Nat.zero_add, hraw, runs, if_pos hcount, hsecond]
  dsimp only
  rw [hfill, hnone]
  rfl

/-! ### Applying the chunks -/

theorem applyChunks_append (cs ds : List Chunk) (pos : Nat) (p : Bytes) :
    applyChunks (cs ++ ds) pos p =
      applyChunks ds (pos + (cs.map Chunk.blocks).sum) (applyChunks cs pos p) := by
  induction cs generalizing pos p with
  | nil => rfl
  | cons c cs ih =>
    rw [List.cons_append, applyChunks, ih, applyChunks, List.map_cons, List.sum_cons,
      Nat.add_assoc]

theorem touches_append {cs ds : List Chunk} {pos i : Nat} :
    Touches (cs ++ ds) pos i ↔
      Touches cs pos i ∨ Touches ds (pos + (cs.map Chunk.blocks).sum) i := by
  induction cs generalizing pos with
  | nil => simp [Touches]
  | cons c cs ih =>
    rw [List.cons_append, Touches, ih, Touches, List.map_cons, List.sum_cons, Nat.add_assoc,
      or_assoc]

theorem sum_skip (n : Nat) : ((skip n).map Chunk.blocks).sum = n := by
  unfold skip
  split
  · next h => exact h.symm
  · simp

theorem applyChunks_skip (n pos : Nat) (p : Bytes) : applyChunks (skip n) pos p = p := by
  unfold skip
  split <;> rfl

theorem not_touches_skip (n pos i : Nat) : ¬Touches (skip n) pos i := by
  unfold skip
  split <;> simp [Touches]

section Runs

variable {data : Bytes} {count : Nat} (hlen : data.length = count * BLOCK)

include hlen

theorem sum_runs {start : Nat} (hle : start ≤ count) :
    ((runs data count start).map Chunk.blocks).sum = count - start := by
  induction hn : count - start using Nat.strong_induction_on generalizing start with
  | _ n ih =>
    subst hn
    rcases Nat.lt_or_ge start count with hlt | hge
    · obtain ⟨c, stop, hs, hstop, hc, hruns⟩ := runs_of_lt hlen hlt
      have htail := ih (count - stop) (by omega) hstop rfl
      rw [hruns, List.map_cons, List.sum_cons, htail, hc.blocks]
      omega
    · rw [runs, if_neg (by omega), List.map_nil, List.sum_nil]
      omega

theorem touches_runs {start pos i : Nat} (hle : start ≤ count) :
    Touches (runs data count start) pos i ↔ pos ≤ i ∧ i < pos + (count - start) := by
  induction hn : count - start using Nat.strong_induction_on generalizing start pos with
  | _ n ih =>
    subst hn
    rcases Nat.lt_or_ge start count with hlt | hge
    · obtain ⟨c, stop, hs, hstop, hc, hruns⟩ := runs_of_lt hlen hlt
      have hblocks := hc.blocks
      have htail : Touches _ (pos + c.blocks) i ↔ _ := ih (count - stop) (by omega) hstop rfl
      rw [hruns, Touches, htail]
      constructor
      · rintro (⟨-, hge, hlt⟩ | h)
        · omega
        · omega
      · intro h
        by_cases hi : i < pos + c.blocks
        · exact Or.inl ⟨hc.kind, h.1, hi⟩
        · right
          omega
    · rw [runs, if_neg (by omega)]
      constructor
      · exact False.elim
      · omega

/-- The runs overwrite their part of the partition with the rest of the data. -/
theorem applyChunks_runs {start pos : Nat} {p : Bytes} (hle : start ≤ count)
    (hfit : (pos + (count - start)) * BLOCK ≤ p.length) :
    applyChunks (runs data count start) pos p =
      splice p (pos * BLOCK) (blocksOf data start count) := by
  induction hn : count - start using Nat.strong_induction_on generalizing start pos p with
  | _ n ih =>
    subst hn
    rcases Nat.lt_or_ge start count with hlt | hge
    · obtain ⟨c, stop, hs, hstop, hc, hruns⟩ := runs_of_lt hlen hlt
      have hroom : stop * BLOCK ≤ data.length := by
        rw [hlen]
        exact Nat.mul_le_mul_right BLOCK hstop
      have hbytes : (blocksOf data start stop).length = _ := length_blocksOf hroom
      have hnext : (pos + (stop - start)) * BLOCK =
          pos * BLOCK + (blocksOf data start stop).length := by
        rw [hbytes, Nat.add_mul]
      have hwrite : pos * BLOCK + (blocksOf data start stop).length ≤ p.length := by
        rw [← hnext]
        refine le_trans (Nat.mul_le_mul_right BLOCK ?_) hfit
        omega
      have hrest : (pos + (stop - start) + (count - stop)) * BLOCK ≤
          (splice p (pos * BLOCK) (blocksOf data start stop)).length := by
        rw [length_splice hwrite]
        refine le_trans (Nat.mul_le_mul_right BLOCK ?_) hfit
        omega
      rw [hruns, applyChunks, hc.written, hc.blocks, Option.map_some, Option.getD_some,
        ih (count - stop) (by omega) hstop hrest rfl, hnext, splice_splice hwrite,
        blocksOf_append hs.le hstop]
    · have hstart : start = count := by omega
      have hnone : blocksOf data count count = [] := by
        rw [blocksOf, Nat.sub_self, Nat.zero_mul]
        rfl
      rw [runs, if_neg (by omega), hstart, hnone, splice_nil]
      rfl

/-- The chunks and their bodies take at most twelve bytes a block more than the data. -/
theorem size_runs {start : Nat} (hle : start ≤ count) :
    ((runs data count start).map fun c => 12 + c.body.length).sum ≤
      (count - start) * (12 + BLOCK) := by
  induction hn : count - start using Nat.strong_induction_on generalizing start with
  | _ n ih =>
    subst hn
    rcases Nat.lt_or_ge start count with hlt | hge
    · obtain ⟨c, stop, hs, hstop, hc, hruns⟩ := runs_of_lt hlen hlt
      have htail := ih (count - stop) (by omega) hstop rfl
      have hsize := hc.size
      rw [hruns, List.map_cons, List.sum_cons]
      unfold BLOCK at *
      omega
    · rw [runs, if_neg (by omega), List.map_nil, List.sum_nil]
      exact Nat.zero_le _

/-- Every run has the body that its kind calls for. -/
theorem body_runs {start : Nat} {c : Chunk} (hle : start ≤ count)
    (hc : c ∈ runs data count start) :
    c.body.length = c.kind.bodyLength c.blocks ∧ c.blocks ≤ count := by
  induction hn : count - start using Nat.strong_induction_on generalizing start with
  | _ n ih =>
    subst hn
    rcases Nat.lt_or_ge start count with hlt | hge
    · obtain ⟨c', stop, hs, hstop, hcar, hruns⟩ := runs_of_lt hlen hlt
      rw [hruns] at hc
      rcases List.mem_cons.mp hc with rfl | hc
      · have := hcar.blocks
        exact ⟨hcar.body, by omega⟩
      · exact ih (count - stop) (by omega) hstop hc rfl
    · rw [runs, if_neg (by omega)] at hc
      exact absurd hc List.not_mem_nil

theorem length_runs {start : Nat} (hle : start ≤ count) :
    (runs data count start).length ≤ count - start := by
  induction hn : count - start using Nat.strong_induction_on generalizing start with
  | _ n ih =>
    subst hn
    rcases Nat.lt_or_ge start count with hlt | hge
    · obtain ⟨c, stop, hs, hstop, hc, hruns⟩ := runs_of_lt hlen hlt
      have htail := ih (count - stop) (by omega) hstop rfl
      rw [hruns, List.length_cons]
      omega
    · rw [runs, if_neg (by omega)]
      exact Nat.zero_le _

end Runs

/-! ### The bytes -/

theorem kindOf_code (kind : ChunkKind) : kindOf kind.code = some kind := by
  cases kind <;> rfl

/-- A chunk as the encoder builds it: a body that its kind calls for and numbers that fit. -/
structure Chunk.Plain (c : Chunk) : Prop where
  body : c.body.length = c.kind.bodyLength c.blocks
  blocks : c.blocks < 2 ^ 32
  size : 12 + c.body.length < 2 ^ 32

theorem pack_chunk {c : Chunk} (hc : c.Plain) :
    ∃ header, pack c.fields = some header ∧ header.length = 12 := by
  have hfit : ∀ f ∈ c.fields, f.2 < 256 ^ f.1 := by
    have hcode : c.kind.code < 65536 := by
      cases c.kind <;> decide
    have hblocks := hc.blocks
    have hsize := hc.size
    intro f hf
    simp only [Chunk.fields, List.mem_cons, List.not_mem_nil, or_false] at hf
    rcases hf with rfl | rfl | rfl | rfl
    · exact hcode
    · decide
    · exact hblocks
    · exact hsize
  exact pack_of_lt hfit

/-- The device reads the chunks back. -/
theorem parseChunks_packChunks {cs : List Chunk} (hplain : ∀ c ∈ cs, c.Plain) :
    ∃ bs, packChunks cs = some bs ∧ parseChunks cs.length bs = some cs ∧
      bs.length = (cs.map fun c => 12 + c.body.length).sum := by
  induction cs with
  | nil => exact ⟨[], rfl, rfl, rfl⟩
  | cons c cs ih =>
    obtain ⟨bs, hpack, hparse, hlen⟩ := ih fun d hd => hplain d (List.mem_cons_of_mem _ hd)
    have hc := hplain c List.mem_cons_self
    obtain ⟨header, hheader, hhead⟩ := pack_chunk hc
    refine ⟨header ++ (c.body ++ bs), ?_, ?_, ?_⟩
    · rw [packChunks, hheader, hpack]
      rfl
    · have hunpack := unpack_pack hheader (c.body ++ bs)
      have hfits : 12 + c.body.length = 12 + c.kind.bodyLength c.blocks ∧
          c.kind.bodyLength c.blocks ≤ (c.body ++ bs).length := by
        rw [List.length_append, ← hc.body]
        omega
      have hkind := kindOf_code c.kind
      simp only [Chunk.fields, List.map_cons, List.map_nil] at hunpack
      simp only [List.length_cons, parseChunks, hunpack, Option.bind_eq_bind, Option.bind_some,
        hkind, guard, if_pos hfits, pure, List.drop_left' hc.body, List.take_left' hc.body, hparse]
    · rw [List.length_append, List.length_append, hhead, hlen, List.map_cons, List.sum_cons,
        Nat.add_assoc]

section Region

variable {data : Bytes} {count start total : Nat} (hlen : data.length = count * BLOCK)
  (hroom : start + count ≤ total)

include hlen

theorem count_eq : data.length / BLOCK = count := by
  rw [hlen]
  exact Nat.mul_div_cancel count (by decide)

/-- Applying the chunks of a region overwrites the region and nothing else. -/
theorem applyChunks_regionChunks {p : Bytes} (hroom : start + count ≤ total)
    (hp : p.length = total * BLOCK) :
    applyChunks (regionChunks data start total) 0 p = splice p (start * BLOCK) data := by
  have hfit : (start + (count - 0)) * BLOCK ≤ p.length := by
    rw [hp]
    exact Nat.mul_le_mul_right BLOCK hroom
  rw [regionChunks, applyChunks_append, applyChunks_append, applyChunks_skip, applyChunks_skip,
    sum_skip, Nat.zero_add, count_eq hlen, applyChunks_runs hlen (Nat.zero_le count) hfit,
    blocksOf_all hlen]

theorem touches_regionChunks {i : Nat} :
    Touches (regionChunks data start total) 0 i ↔ start ≤ i ∧ i < start + count := by
  rw [regionChunks, touches_append, touches_append, sum_skip, count_eq hlen,
    touches_runs hlen (Nat.zero_le count), Nat.zero_add, Nat.sub_zero]
  constructor
  · rintro ((h | h) | h)
    · exact absurd h (not_touches_skip _ _ _)
    · exact h
    · exact absurd h (not_touches_skip _ _ _)
  · exact fun h => Or.inl (Or.inr h)

theorem length_regionChunks : (regionChunks data start total).length ≤ count + 2 := by
  have hskip : ∀ n, (skip n).length ≤ 1 := by
    intro n
    unfold skip
    split <;> simp
  have hs := hskip start
  have ht := hskip (total - start - count)
  have hr := length_runs hlen (Nat.zero_le count)
  rw [regionChunks, count_eq hlen, List.length_append, List.length_append]
  omega

theorem size_regionChunks :
    ((regionChunks data start total).map fun c => 12 + c.body.length).sum ≤
      data.length + 12 * (count + 2) := by
  have hskip : ∀ n, ((skip n).map fun c => 12 + c.body.length).sum ≤ 12 := by
    intro n
    unfold skip
    split <;> simp
  have hs := hskip start
  have ht := hskip (total - start - count)
  have hr := size_runs hlen (Nat.zero_le count)
  rw [Nat.sub_zero, Nat.mul_add] at hr
  rw [regionChunks, count_eq hlen, List.map_append, List.map_append, List.sum_append,
    List.sum_append, hlen]
  omega

include hroom

theorem sum_regionChunks : ((regionChunks data start total).map Chunk.blocks).sum = total := by
  rw [regionChunks, List.map_append, List.map_append, List.sum_append, List.sum_append, sum_skip,
    sum_skip, count_eq hlen, sum_runs hlen (Nat.zero_le count)]
  omega

theorem plain_regionChunks (htotal : total < 2 ^ 32) (hsize : data.length + 12 < 2 ^ 32) :
    ∀ c ∈ regionChunks data start total, c.Plain := by
  have hskip : ∀ n, n ≤ total → ∀ c ∈ skip n, c.Plain := by
    intro n hn c hc
    unfold skip at hc
    split at hc
    · exact absurd hc List.not_mem_nil
    · rw [List.mem_singleton.mp hc]
      exact ⟨rfl, lt_of_le_of_lt hn htotal, show 12 < 2 ^ 32 by decide⟩
  intro c hc
  rw [regionChunks, count_eq hlen, List.mem_append, List.mem_append] at hc
  rcases hc with (hc | hc) | hc
  · exact hskip start (by omega) c hc
  · obtain ⟨hbody, hblocks⟩ := body_runs hlen (Nat.zero_le count) hc
    have hbound : c.body.length ≤ data.length ∨ c.body.length ≤ 4 := by
      rw [hbody, hlen]
      cases c.kind with
      | RAW => exact Or.inl (Nat.mul_le_mul_right BLOCK hblocks)
      | FILL => exact Or.inr (Nat.le_refl 4)
      | SKIP => exact Or.inr (Nat.zero_le 4)
    exact ⟨hbody, by omega, by omega⟩
  · exact hskip _ (by omega) c hc

/-- What is written for a region of whole blocks: the device reads the chunks back, and the size
exceeds that of the data by the headers only. -/
theorem parseSparse_encodeRegion (hpos : 0 < count) (htotal : total < 2 ^ 32)
    (hsize : data.length + 12 < 2 ^ 32) :
    ∃ bs, encodeRegion data start total = some bs ∧
      parseSparse total bs = some (regionChunks data start total) ∧
      bs.length ≤ data.length + (28 + 12 * (count + 2)) := by
  obtain ⟨body, hpack, hparse, hbody⟩ :=
    parseChunks_packChunks (plain_regionChunks hlen hroom htotal hsize)
  have hchunks : (regionChunks data start total).length ≤ count + 2 := length_regionChunks hlen
  have hfit : ∀ f ∈ headerFields total (regionChunks data start total).length,
      f.2 < 256 ^ f.1 := by
    intro f hf
    simp only [headerFields, List.mem_cons, List.not_mem_nil, or_false] at hf
    rcases hf with rfl | rfl | rfl | rfl | rfl | rfl | rfl | rfl | rfl
    all_goals first
      | exact htotal
      | (show (regionChunks data start total).length < 2 ^ 32; unfold BLOCK at hlen; omega)
      | decide
  obtain ⟨header, hheader, hhead⟩ := pack_of_lt hfit
  have hregion : data ≠ [] ∧ data.length % BLOCK = 0 := by
    refine ⟨fun h => ?_, by rw [hlen, Nat.mul_mod_left]⟩
    rw [h, List.length_nil] at hlen
    unfold BLOCK at hlen
    omega
  have hinside : start + data.length / BLOCK ≤ total := by
    rwa [count_eq hlen]
  refine ⟨header ++ body, ?_, ?_, ?_⟩
  · simp only [encodeRegion, guard, if_pos hregion, if_pos hinside, hheader, hpack, pure,
      Option.bind_eq_bind, Option.bind_some]
  · have hunpack := unpack_pack hheader body
    have hsum := sum_regionChunks hlen hroom
    simp only [headerFields, List.map_cons, List.map_nil] at hunpack
    simp only [parseSparse, hunpack, Option.bind_eq_bind, Option.bind_some, guard, hparse, hsum,
      and_self, if_true, pure]
  · have hbytes : ((regionChunks data start total).map _).sum ≤ _ := size_regionChunks hlen
    have hwidths : ((headerFields total (regionChunks data start total).length).map Prod.fst).sum =
        28 := rfl
    rw [List.length_append, hhead, hbody, hwidths]
    omega

end Region

end EinkLab.SystemImage
