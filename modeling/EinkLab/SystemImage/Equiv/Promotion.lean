import EinkLab.SystemImage.Promotion
import EinkLab.SystemImage.Equiv.Sparse

/-!
# Promotion writes exactly the image

`Intact` holds of the device in every state of a run, whatever it sends and whichever transfer
fails: the blocks that differ from the prior content lie in regions that had been sent.  A run that
ends without an exception leaves the candidate (`promote_writes`).
-/

namespace EinkLab.SystemImage

open EinkLab.Text EinkLab.Binary EinkLab.Transition Fastboot

/-! ### The transport -/

namespace Device

variable {d d' m : Device}

theorem Works.phase (h : Works d m) : m.phase = d.phase := by
  cases h <;> rfl

theorem Works.downloads (h : Works d m) : m.downloads = d.downloads := by
  cases h <;> rfl

/-- Only a flash changes anything. -/
theorem Works.eq (h : Works d m) (hphase : ∀ image before, d.phase ≠ .flashing image before) :
    m = d := by
  cases h with
  | rests => rfl
  | flashes hflash => exact absurd hflash (hphase _ _)

theorem Works.trans (h : Works d m) (h' : Works m d') : Works d d' := by
  cases h' with
  | rests => exact h
  | flashes hphase happlying =>
    cases h with
    | rests => exact .flashes hphase happlying
    | flashes hflash _ => exact .flashes hphase happlying

/-- The packets between a command and its answer change nothing. -/
theorem Sends.info {packet : Bytes} (h : d.Sends packet d') (hinfo : INFO.isPrefixOf packet) :
    d' = d := by
  have hokay : OKAY.isPrefixOf packet = false := by
    rcases packet with - | ⟨b, packet⟩
    · rfl
    · have hb : b = 0x49 := by
        simp only [INFO, ascii] at hinfo
        exact (eq_of_beq (Bool.and_eq_true_iff.mp hinfo).1).symm
      rw [hb]
      rfl
  have hdata : ∀ size, packet ≠ downloadReply size := by
    rintro size rfl
    cases hinfo
  obtain ⟨partition, downloads, phase⟩ := d
  cases phase with
  | idle => exact h
  | granting size => simpa [Sends, hdata size, hinfo] using h
  | receiving size got => simpa [Sends, hokay, hinfo] using h
  | flashing image before => simpa [Sends, hokay, hinfo] using h

end Device

open Device

section Transport

variable {F : Bytes → Device → Prop} {s : Bytes} {d : Device}

theorem under_raise {α : Type} {Q : α → Bytes → Device → Prop} :
    (raise : Fastboot α).Under Answers F Q s d ↔ F s d := Iff.rfl

theorem under_incoming {Q : Option Bytes → Bytes → Device → Prop} :
    incoming.Under Answers F Q s d ↔
      ∀ packet d', Answers d ⟨Transfer.read, packet⟩ d' → Q packet s d' := Iff.rfl

theorem under_outgoing {data : Bytes} {Q : Option Nat → Bytes → Device → Prop} :
    (outgoing data).Under Answers F Q s d ↔
      ∀ written d', Answers d ⟨Transfer.write data, written⟩ d' → Q written s d' := Iff.rfl

theorem under_raiseIf {c : Prop} [Decidable c] {Q : Unit → Bytes → Device → Prop} :
    (raiseIf c).Under Answers F Q s d ↔ (c → F s d) ∧ (¬c → Q () s d) := by
  by_cases hc : c <;> simp [raiseIf, hc, under_raise]

/-- A response is a packet that the device sends, perhaps after others and some work. -/
theorem under_responseWithin {Q : Bytes → Bytes → Device → Prop} {reads : Nat}
    (hF : ∀ m, Works d m → F s m)
    (hsent : ∀ m packet d', Works d m → m.Sends packet d' → F s d')
    (hQ : ∀ m packet d', Works d m → m.Sends packet d' → ¬INFO.isPrefixOf packet → Q packet s d') :
    (responseWithin reads).Under Answers F Q s d := by
  induction reads generalizing d with
  | zero => exact hF d (.rests d)
  | succ reads ih =>
    rw [responseWithin, Procedure.under_bind, under_incoming]
    rintro (_ | packet) d' hanswers
    · exact hF d' hanswers
    · obtain ⟨m, hworks, hsends⟩ := hanswers
      show (if INFO.isPrefixOf packet then responseWithin reads
        else if packet.take 4 = OKAY ∨ packet.take 4 = DATA then pure packet
        else raise : Fastboot Bytes).Under Answers F Q s d'
      split_ifs with hinfo hterminal
      · obtain rfl := hsends.info hinfo
        exact ih (fun m' h => hF m' (hworks.trans h))
          (fun m' p d'' h => hsent m' p d'' (hworks.trans h))
          (fun m' p d'' h => hQ m' p d'' (hworks.trans h))
      · exact hQ m packet d' hworks hsends hinfo
      · exact hsent m packet d' hworks hsends

theorem under_write {data : Bytes} {Q : Unit → Bytes → Device → Prop}
    (hF : ∀ m got, Works d m → got <+: data → F s (m.hears got))
    (hQ : ∀ m, Works d m → Q () s (m.hears data)) :
    (write data).Under Answers F Q s d := by
  rw [write, Procedure.under_bind, under_outgoing]
  intro (written : Option Nat) d' hanswers
  obtain ⟨m, got, hworks, hprefix, hwhole, rfl⟩ := hanswers
  rw [under_raiseIf]
  constructor
  · exact fun _ => hF m got hworks hprefix
  · intro hwritten
    rw [hwhole (not_not.mp hwritten)]
    exact hQ m hworks

end Transport

/-! ### What the device hears -/

theorem hears_flash {d : Device} {image : Bytes} {images : List Bytes} (hidle : d.phase = .idle)
    (hstaged : d.downloads = image :: images) :
    d.hears flashCommand = { d with phase := .flashing image d.partition } := by
  rw [hears, hidle, hstaged]
  rfl

theorem hears_download {d : Device} (hidle : d.phase = .idle) (size : Nat) :
    d.hears (downloadCommand size) = { d with phase := .granting size } := by
  have hflash : downloadCommand size ≠ flashCommand := by
    intro h
    have := congrArg List.head? h
    cases this
  have hdownload : (ascii "download:").isPrefixOf (downloadCommand size) := by
    rw [List.isPrefixOf_iff_prefix]
    exact List.prefix_append _ _
  have hdigits : (downloadCommand size).drop 9 = hexText 8 size := List.drop_left' rfl
  rw [hears, hidle]
  simp only [if_neg hflash, if_pos hdownload, hdigits, hexNat_hexText]

theorem hears_data {d : Device} {size : Nat} {got data : Bytes}
    (hphase : d.phase = .receiving size got) :
    d.hears data = { d with phase := .receiving size (got ++ data) } := by
  rw [hears, hphase]

/-! ### Regions -/

/-- A candidate of whole blocks. -/
structure Candidate (image : Bytes) : Prop where
  nonempty : image ≠ []
  whole : image.length % BLOCK = 0
  blocks : image.length / BLOCK < 2 ^ 32

/-- What is sent for the region at `offset`. -/
def regionSparse (image : Bytes) (offset : Nat) : Option Bytes :=
  encodeRegion (region image offset) (offset / BLOCK) (blockCount image)

/-- The block lies in the region at `offset`. -/
def InRegion (image : Bytes) (offset i : Nat) : Prop :=
  offset / BLOCK ≤ i ∧ i < offset / BLOCK + (region image offset).length / BLOCK

/-- The offsets that the loop visits. -/
def IsOffset (image : Bytes) (offset : Nat) : Prop :=
  REGION_SIZE ∣ offset ∧ offset < image.length

/-- What the code promises of a region: its sparse image is well formed, touches its own blocks
only and is no larger than the allowance. -/
structure RegionSent (image : Bytes) (offset : Nat) (sparse : Bytes) (chunks : List Chunk) :
    Prop where
  sent : regionSparse image offset = some sparse
  wellFormed : parseSparse (blockCount image) sparse = some chunks
  total : (chunks.map Chunk.blocks).sum = blockCount image
  own : ∀ i, Touches chunks 0 i ↔ InRegion image offset i
  size : sparse.length ≤ (region image offset).length + MIB
  applied : ∀ p : Bytes, p.length = image.length →
    applyChunks chunks 0 p = splice p offset (region image offset)

theorem region_eq {image : Bytes} {offset : Nat} (hoffset : offset ≤ image.length) :
    (region image offset).length = min REGION_SIZE (image.length - offset) := by
  rw [region, List.length_take, List.length_drop]
  omega

/-- Every region is sent well. -/
theorem exists_regionSent {image : Bytes} {offset : Nat} (hc : Candidate image)
    (hoffset : IsOffset image offset) : ∃ sparse chunks, RegionSent image offset sparse chunks := by
  obtain ⟨⟨k, hk⟩, hlt⟩ := hoffset
  have hlen := region_eq hlt.le
  have hwhole := hc.whole
  have hblocks := hc.blocks
  unfold REGION_SIZE at hk hlen
  unfold BLOCK at hwhole hblocks
  have hcount : (region image offset).length = (region image offset).length / 4096 * 4096 := by
    omega
  have hroom : offset / 4096 + (region image offset).length / 4096 ≤ blockCount image := by
    unfold blockCount BLOCK
    omega
  obtain ⟨sparse, hsparse, hparse, hsize⟩ :=
    parseSparse_encodeRegion hcount hroom (by omega) hblocks (by omega)
  refine ⟨sparse, _, hsparse, hparse, sum_regionChunks hcount hroom, ?_, ?_, ?_⟩
  · exact fun i => touches_regionChunks hcount
  · refine le_trans hsize (Nat.add_le_add_left ?_ _)
    show 28 + 12 * ((region image offset).length / 4096 + 2) ≤ 1048576
    omega
  · intro p hp
    have htotal : p.length = blockCount image * BLOCK := by
      unfold blockCount BLOCK
      omega
    have hstart : offset / 4096 * 4096 = offset := by
      omega
    have happly := applyChunks_regionChunks hcount hroom htotal
    unfold BLOCK at happly
    rwa [hstart] at happly

/-- The device reads the chunks that the encoder has made. -/
theorem RegionSent.chunks_eq {image sparse : Bytes} {offset : Nat} {chunks : List Chunk}
    (h : RegionSent image offset sparse chunks) (hc : Candidate image)
    (hoffset : IsOffset image offset) :
    chunks = regionChunks (region image offset) (offset / BLOCK) (blockCount image) := by
  obtain ⟨⟨k, hk⟩, hlt⟩ := hoffset
  have hlen := region_eq hlt.le
  have hwhole := hc.whole
  have hblocks := hc.blocks
  unfold REGION_SIZE at hk hlen
  unfold BLOCK at hwhole hblocks
  have hcount : (region image offset).length = (region image offset).length / 4096 * 4096 := by
    omega
  have hroom : offset / 4096 + (region image offset).length / 4096 ≤ blockCount image := by
    unfold blockCount BLOCK
    omega
  obtain ⟨bs, hbs, hparse, -⟩ :=
    parseSparse_encodeRegion hcount hroom (by omega) hblocks (by omega)
  obtain rfl : bs = sparse := Option.some.inj (hbs.symm.trans h.sent)
  exact Option.some.inj (h.wellFormed.symm.trans hparse)

/-! ### What holds in every state of a run -/

/-- The block lies in a region that has been sent. -/
def SentBlock (image : Bytes) (downloads : List Bytes) (i : Nat) : Prop :=
  ∃ offset sparse, IsOffset image offset ∧ InRegion image offset i ∧
    regionSparse image offset = some sparse ∧ sparse ∈ downloads

/-- Every block is as it was before, or part of a region that has been sent. -/
def Kept (image prior : Bytes) (downloads : List Bytes) (p : Bytes) : Prop :=
  p.length = prior.length ∧
    ∀ i, blocksOf p i (i + 1) = blocksOf prior i (i + 1) ∨ SentBlock image downloads i

/-- The sparse image of a region. -/
def IsRegion (image sparse : Bytes) : Prop :=
  ∃ offset, IsOffset image offset ∧ regionSparse image offset = some sparse

/-- The invariant of a run. -/
structure Intact (image prior : Bytes) (d : Device) : Prop where
  kept : Kept image prior d.downloads d.partition
  regions : ∀ sparse ∈ d.downloads, IsRegion image sparse
  flashing : ∀ sparse before, d.phase = .flashing sparse before →
    sparse ∈ d.downloads ∧ Kept image prior d.downloads before
  receiving : ∀ size got, d.phase = .receiving size got →
    ∃ sparse, IsRegion image sparse ∧ size = sparse.length ∧ got <+: sparse

theorem Kept.mono {image prior p : Bytes} {ds ds' : List Bytes} (h : Kept image prior ds p)
    (hsub : ∀ x ∈ ds, x ∈ ds') : Kept image prior ds' p := by
  refine ⟨h.1, fun i => (h.2 i).imp_right ?_⟩
  rintro ⟨offset, sparse, hoffset, hin, hsparse, hmem⟩
  exact ⟨offset, sparse, hoffset, hin, hsparse, hsub _ hmem⟩

section Invariant

variable {image prior : Bytes} {d d' m : Device} (hc : Candidate image)
  (hprior : prior.length = image.length)

theorem Intact.idle (h : Intact image prior d) : Intact image prior { d with phase := .idle } :=
  ⟨h.kept, h.regions, nofun, nofun⟩

include hc hprior

theorem Intact.works (h : Intact image prior d) (hworks : Works d m) : Intact image prior m := by
  cases hworks with
  | rests => exact h
  | flashes hphase happlying =>
    rename_i sparse before after
    obtain ⟨hmem, hlen, hbefore⟩ := h.flashing sparse before hphase
    refine ⟨⟨happlying.1.trans hlen, fun i => ?_⟩, h.regions, h.flashing, h.receiving⟩
    obtain ⟨offset, hoffset, hsparse⟩ := h.regions sparse hmem
    obtain ⟨sparse', chunks, hsent⟩ := exists_regionSent hc hoffset
    obtain rfl := Option.some.inj (hsent.sent.symm.trans hsparse)
    have hcount : blockCount before = blockCount image := by
      rw [blockCount, blockCount, hlen, hprior]
    -- a block that differs from before is one the image writes
    by_cases htouch : Touches chunks 0 i
    · exact Or.inr ⟨offset, sparse', hoffset, (hsent.own i).mp htouch, hsparse, hmem⟩
    · refine (hbefore i).imp_left (Eq.trans (happlying.2 i ?_))
      intro chunks' hparse
      rw [hcount, hsent.wellFormed] at hparse
      rwa [← Option.some.inj hparse]

omit hc hprior in
/-- An idle device can be told anything. -/
theorem Intact.hears (h : Intact image prior d) (hidle : d.phase = .idle) (got : Bytes) :
    Intact image prior (d.hears got) := by
  unfold Device.hears
  rw [hidle]
  dsimp only
  split_ifs
  · split
    · exact h
    · next sparse images hstaged =>
      refine ⟨h.kept, h.regions, fun _ _ hphase => ?_, nofun⟩
      obtain ⟨rfl, rfl⟩ := Phase.flashing.inj hphase
      exact ⟨hstaged ▸ List.mem_cons_self, h.kept⟩
  · split
    · exact h
    · exact ⟨h.kept, h.regions, nofun, nofun⟩
  · exact h

omit hc hprior in
theorem Intact.sends (h : Intact image prior d) {packet : Bytes} (hsends : d.Sends packet d')
    (hgrant : ∀ size, d.phase = .granting size →
      ∃ sparse, IsRegion image sparse ∧ size = sparse.length) : Intact image prior d' := by
  unfold Device.Sends at hsends
  split at hsends
  · next hphase =>
    rw [hsends]
    exact h
  · next size hphase =>
    obtain ⟨sparse, hregion, hsize⟩ := hgrant size hphase
    split_ifs at hsends
    · rw [hsends]
      refine ⟨h.kept, h.regions, nofun, fun _ _ hreceiving => ?_⟩
      obtain ⟨rfl, rfl⟩ := Phase.receiving.inj hreceiving
      exact ⟨sparse, hregion, hsize, List.nil_prefix⟩
    · rw [hsends]
      exact h
    · rw [hsends]
      exact h.idle
  · next size got hphase =>
    split_ifs at hsends
    · obtain ⟨hsize, rfl⟩ := hsends
      obtain ⟨sparse, hregion, hlen, hprefix⟩ := h.receiving size got hphase
      -- the sparse image is complete
      have hgot : got = sparse := hprefix.eq_of_length (hsize.trans hlen)
      refine ⟨h.kept.mono fun x hx => List.mem_cons_of_mem _ hx, ?_, nofun, nofun⟩
      intro x hx
      rcases List.mem_cons.mp hx with rfl | hx
      · rwa [hgot]
      · exact h.regions x hx
    · rw [hsends]
      exact h
    · rw [hsends]
      exact h.idle
  · split_ifs at hsends
    · rw [hsends.2]
      exact h.idle
    · rw [hsends]
      exact h
    · rw [hsends]
      exact h.idle

end Invariant

/-! ### The host -/

section Host

variable {image prior sparse : Bytes} {d : Device} {s : Bytes} (hc : Candidate image)
  (hprior : prior.length = image.length)

/-- The invariant, where a procedure of the host raises. -/
abbrev Raised (image prior : Bytes) : Bytes → Device → Prop := fun _ => Intact image prior

include hc hprior

theorem under_response {Q : Bytes → Bytes → Device → Prop} (h : Intact image prior d)
    (hgrant : ∀ size, d.phase = .granting size →
      ∃ sparse, IsRegion image sparse ∧ size = sparse.length)
    (hQ : ∀ m packet d', Works d m → m.Sends packet d' → Intact image prior d' → Q packet s d') :
    response.Under Answers (Raised image prior) Q s d := by
  have hsends : ∀ m packet d', Works d m → m.Sends packet d' → Intact image prior d' := by
    intro m packet d' hworks hsends
    refine (h.works hc hprior hworks).sends hsends ?_
    rw [hworks.phase]
    exact hgrant
  apply under_responseWithin
  · exact fun m hworks => h.works hc hprior hworks
  · exact hsends
  · exact fun m packet d' hworks hs _ => hQ m packet d' hworks hs (hsends m packet d' hworks hs)

/-- A command to the idle device. -/
theorem under_command {c : Bytes} {Q : Bytes → Bytes → Device → Prop}
    (h : Intact image prior d) (hidle : d.phase = .idle)
    (hgrant : ∀ size, (d.hears c).phase = .granting size →
      ∃ sparse, IsRegion image sparse ∧ size = sparse.length)
    (hQ : ∀ m packet d', Works (d.hears c) m → m.Sends packet d' → Intact image prior d' →
      Q packet s d') :
    (command c).Under Answers (Raised image prior) Q s d := by
  have hrests : ∀ m, Works d m → m = d := fun m hworks => hworks.eq (by rw [hidle]; nofun)
  rw [command, Procedure.under_bind]
  apply under_write
  · intro m got hworks _
    rw [hrests m hworks]
    exact h.hears hidle got
  · intro m hworks
    rw [hrests m hworks]
    exact under_response hc hprior (h.hears hidle c) hgrant hQ

omit hc hprior in
theorem Intact.receive (h : Intact image prior d) (hregion : IsRegion image sparse) {got : Bytes}
    (hgot : got <+: sparse) :
    Intact image prior { d with phase := .receiving sparse.length got } := by
  refine ⟨h.kept, h.regions, nofun, fun _ _ hphase => ?_⟩
  obtain ⟨rfl, rfl⟩ := Phase.receiving.inj hphase
  exact ⟨sparse, hregion, rfl, hgot⟩

omit hc hprior in
/-- The slices arrive one after the other. -/
theorem under_writeSlices {got data : Bytes} (h : Intact image prior d)
    (hregion : IsRegion image sparse) (hphase : d.phase = .receiving sparse.length got)
    (hsplit : got ++ data = sparse) :
    (writeSlices data).Under Answers (Raised image prior)
      (fun _ s' d' => s' = s ∧ d' = { d with phase := .receiving sparse.length sparse }) s d := by
  have hrests : ∀ m, Works d m → m = d := fun m hworks => hworks.eq (by rw [hphase]; nofun)
  induction hn : data.length using Nat.strong_induction_on generalizing data got d with
  | _ n ih =>
    subst hn
    rw [writeSlices]
    split_ifs with hdata
    · rw [hdata, List.append_nil] at hsplit
      rw [← hsplit] at hphase
      refine ⟨rfl, ?_⟩
      rw [← hsplit, ← hphase]
    · have hpos := List.length_pos_iff.mpr hdata
      have hshort : (data.drop MIB).length < data.length := by
        rw [List.length_drop]
        show data.length - 1048576 < data.length
        omega
      have hslice : got ++ data.take MIB ++ data.drop MIB = sparse := by
        rw [List.append_assoc, List.take_append_drop, hsplit]
      rw [Procedure.under_bind]
      apply under_write
      · intro m part hworks hpart
        rw [hrests m hworks, hears_data hphase]
        apply h.receive hregion
        rw [← hsplit]
        exact (List.prefix_append_right_inj got).mpr (hpart.trans (List.take_prefix _ _))
      · intro m hworks
        rw [hrests m hworks, hears_data hphase]
        have hnext := h.receive hregion ⟨_, hslice⟩
        refine (ih _ hshort hnext rfl hslice ?_ rfl).mono (fun _ _ h => h) fun _ _ _ h => h
        exact fun m hworks => hworks.eq nofun

/-- A download that is not refused is staged. -/
theorem under_download (h : Intact image prior d) (hidle : d.phase = .idle)
    (hregion : IsRegion image sparse) :
    (download sparse).Under Answers (Raised image prior)
      (fun _ s' d' => s' = s ∧ Intact image prior d' ∧
        d' = { d with downloads := sparse :: d.downloads, phase := .idle }) s d := by
  rw [download, Procedure.under_bind]
  have hgrant : ∀ size, (d.hears (downloadCommand sparse.length)).phase = .granting size →
      ∃ sparse, IsRegion image sparse ∧ size = sparse.length := by
    intro size hphase
    rw [hears_download hidle] at hphase
    exact ⟨sparse, hregion, (Phase.granting.inj hphase).symm⟩
  refine under_command hc hprior h hidle hgrant fun m reply d₁ hworks hsends hintact => ?_
  rw [hears_download hidle] at hworks
  rw [hworks.eq nofun] at hsends
  rw [Procedure.under_bind, under_raiseIf]
  refine ⟨fun _ => hintact, fun hreply => ?_⟩
  -- the device has granted the download
  have hd₁ : d₁ = { d with phase := .receiving sparse.length [] } := by
    have hgranted : d₁ = _ := hsends
    rwa [if_pos (not_not.mp hreply)] at hgranted
  rw [Procedure.under_bind]
  refine (under_writeSlices (s := s) hintact hregion (by rw [hd₁]) (List.nil_append _)).mono
    (fun _ _ h => h) ?_
  rintro - _ d₂ ⟨rfl, hd₂⟩
  have hreceived : Intact image prior d₂ := by
    rw [hd₂]
    exact hintact.receive hregion (List.prefix_refl sparse)
  rw [Procedure.under_bind]
  refine under_response hc hprior hreceived (by rw [hd₂]; nofun)
    fun m packet d₃ hworks hsends hlast => ?_
  rw [hworks.eq (by rw [hd₂]; nofun), hd₂, hd₁] at hsends
  rw [under_raiseIf]
  refine ⟨fun _ => hlast, fun hokay => ⟨rfl, hlast, ?_⟩⟩
  have hstaged : if OKAY.isPrefixOf packet then _ else _ := hsends
  rw [if_pos (not_not.mp hokay)] at hstaged
  exact hstaged.2

/-- A flash that is answered OKAY has applied the staged image. -/
theorem under_flash (h : Intact image prior d) (hidle : d.phase = .idle) {images : List Bytes}
    (hstaged : d.downloads = sparse :: images) :
    (okay flashCommand).Under Answers (Raised image prior)
      (fun _ s' d' => s' = s ∧ Intact image prior d' ∧ d'.phase = .idle ∧
        Applied sparse d.partition d'.partition) s d := by
  rw [okay, Procedure.under_bind]
  have hhears := hears_flash hidle hstaged
  refine under_command hc hprior h hidle (by rw [hhears]; nofun)
    fun m packet d' hworks hsends hintact => ?_
  have hphase : m.phase = .flashing sparse d.partition := by
    rw [hworks.phase, hhears]
  rw [under_raiseIf]
  refine ⟨fun _ => hintact, fun hokay => ?_⟩
  rw [Device.Sends, hphase] at hsends
  simp only [if_pos (not_not.mp hokay)] at hsends
  obtain ⟨happlied, rfl⟩ := hsends
  exact ⟨rfl, hintact, rfl, happlied⟩

omit hc hprior in
/-- What is left to write after the region at `offset`. -/
theorem splice_region {offset : Nat} (hle : offset ≤ image.length) :
    splice (image.take offset ++ prior.drop offset) offset (region image offset) =
      image.take (offset + (region image offset).length) ++
        prior.drop (offset + (region image offset).length) := by
  have hlen := region_eq hle
  have htake : (image.take offset).length = offset := by
    rw [List.length_take]
    omega
  have hregion : region image offset = (image.drop offset).take (region image offset).length := by
    rw [hlen, region]
  have hdrop : (image.take offset ++ prior.drop offset).drop
      (offset + (region image offset).length) =
        prior.drop (offset + (region image offset).length) := by
    rw [← List.drop_drop, List.drop_left' htake, List.drop_drop]
  rw [splice, List.take_left' htake, hdrop, List.take_add, List.append_assoc, ← hregion]

/-- The loop writes what is left of the candidate. -/
theorem under_writeRegions {maximum offset : Nat}
    (hle : offset ≤ image.length) (hoffset : offset < image.length → IsOffset image offset)
    (h : Intact image prior d) (hidle : d.phase = .idle)
    (hwritten : d.partition = image.take offset ++ prior.drop offset) :
    (writeRegions image maximum offset).Under Answers (Raised image prior)
      (fun _ _ d' => Intact image prior d' ∧ d'.partition = image) s d := by
  induction hn : image.length - offset using Nat.strong_induction_on
    generalizing offset d s with
  | _ n ih =>
    subst hn
    rcases Nat.lt_or_ge offset image.length with hlt | hge
    · rw [writeRegions, if_pos hlt]
      dsimp only
      split_ifs with hregion
      · exact h
      obtain ⟨sparse, chunks, hsent⟩ := exists_regionSent hc (hoffset hlt)
      have hsparse : encodeRegion (region image offset) (offset / BLOCK)
          (image.length / BLOCK) = some sparse := hsent.sent
      have hlen := region_eq hle
      have hpos : 0 < (region image offset).length :=
        List.length_pos_iff.mpr (not_or.mp hregion).1
      simp only [hsparse]
      rw [Procedure.under_bind, under_raiseIf]
      refine ⟨fun _ => h, fun _ => ?_⟩
      rw [Procedure.under_bind]
      refine (under_download hc hprior h hidle ⟨offset, hoffset hlt, hsent.sent⟩).mono
        (fun _ _ h => h) ?_
      rintro - _ d₁ ⟨rfl, hintact, hd₁⟩
      rw [Procedure.under_bind]
      have hstaged : d₁.downloads = sparse :: d.downloads := by rw [hd₁]
      refine (under_flash hc hprior hintact (by rw [hd₁]) hstaged).mono (fun _ _ h => h) ?_
      rintro - _ d₂ ⟨rfl, hintact, hidle, chunks', hparse, happlied⟩
      have hfull : d.partition.length = image.length := h.kept.1.trans hprior
      have hpartition : d₁.partition = d.partition := by rw [hd₁]
      rw [hpartition, blockCount, hfull] at hparse
      obtain rfl := Option.some.inj (hsent.wellFormed.symm.trans hparse)
      rw [hpartition, hsent.applied _ hfull, hwritten, splice_region hle] at happlied
      rw [Procedure.under_bind, Procedure.under_modify]
      refine ih _ (by omega) (by omega) ?_ hintact hidle happlied rfl
      intro hnext
      obtain ⟨k, hk⟩ := (hoffset hlt).1
      unfold REGION_SIZE at hk hlen
      exact ⟨⟨k + 1, by unfold REGION_SIZE; omega⟩, hnext⟩
    · rw [writeRegions, if_neg (by omega)]
      refine ⟨h, ?_⟩
      have hend : offset = image.length := by omega
      rw [hwritten, hend, List.take_length, ← hprior, List.drop_length, List.append_nil]

end Host

/-! ### A run to the end -/

section Quiet

variable {d d' : Device} {s : Bytes}

theorem may_raiseIf {c : Prop} [Decidable c] {Q : Unit → Bytes → Device → Prop} (hc : ¬c)
    (h : Q () s d) : (raiseIf c).May Answers Q s d := by
  rw [raiseIf, if_neg hc]
  exact Procedure.may_pure h

theorem may_write {data : Bytes} {Q : Unit → Bytes → Device → Prop}
    (h : Q () s (d.hears data)) : (write data).May Answers Q s d := by
  have hanswers : Answers d ⟨Transfer.write data, some data.length⟩ (d.hears data) :=
    ⟨d, data, .rests d, List.prefix_refl data, fun _ => rfl, rfl⟩
  refine (Procedure.may_call hanswers (Q := fun r t m => r = some data.length ∧ Q () t m)
    ⟨rfl, h⟩).bind ?_
  rintro _ t m ⟨rfl, hm⟩
  exact may_raiseIf (not_not.mpr rfl) hm

theorem may_response {m : Device} {packet : Bytes} {Q : Bytes → Bytes → Device → Prop}
    (hworks : Works d m) (hsends : m.Sends packet d') (hinfo : ¬INFO.isPrefixOf packet)
    (hterminal : packet.take 4 = OKAY ∨ packet.take 4 = DATA) (h : Q packet s d') :
    response.May Answers Q s d := by
  have hanswers : Answers d ⟨Transfer.read, some packet⟩ d' := ⟨m, hworks, hsends⟩
  refine (Procedure.may_call hanswers (Q := fun r t m => r = some packet ∧ Q packet t m)
    ⟨rfl, h⟩).bind ?_
  rintro _ t m ⟨rfl, hm⟩
  show (if INFO.isPrefixOf packet then responseWithin 99
    else if packet.take 4 = OKAY ∨ packet.take 4 = DATA then pure packet
    else raise : Fastboot Bytes).May Answers Q t m
  rw [if_neg hinfo, if_pos hterminal]
  exact Procedure.may_pure hm

theorem may_command {m : Device} {c packet : Bytes} {Q : Bytes → Bytes → Device → Prop}
    (hworks : Works (d.hears c) m) (hsends : m.Sends packet d')
    (hinfo : ¬INFO.isPrefixOf packet)
    (hterminal : packet.take 4 = OKAY ∨ packet.take 4 = DATA) (h : Q packet s d') :
    (command c).May Answers Q s d := by
  refine (may_write (Q := fun _ t m => t = s ∧ m = d.hears c) ⟨rfl, rfl⟩).bind ?_
  rintro _ _ _ ⟨rfl, rfl⟩
  exact may_response hworks hsends hinfo hterminal h

theorem may_writeSlices {size : Nat} {got data : Bytes} (hphase : d.phase = .receiving size got) :
    (writeSlices data).May Answers
      (fun _ t m => t = s ∧ m = { d with phase := .receiving size (got ++ data) }) s d := by
  induction hn : data.length using Nat.strong_induction_on generalizing data got d with
  | _ n ih =>
    subst hn
    rw [writeSlices]
    split_ifs with hdata
    · refine Procedure.may_pure ⟨rfl, ?_⟩
      rw [hdata, List.append_nil, ← hphase]
    · have hpos := List.length_pos_iff.mpr hdata
      have hshort : (data.drop MIB).length < data.length := by
        rw [List.length_drop]
        show data.length - 1048576 < data.length
        omega
      refine (may_write (Q := fun _ t m => t = s ∧ m = d.hears (data.take MIB)) ⟨rfl, rfl⟩).bind ?_
      rintro _ _ _ ⟨rfl, rfl⟩
      rw [hears_data hphase]
      have hrest : (writeSlices (data.drop MIB)).May _ _ _
          { d with phase := .receiving size (got ++ data.take MIB) } := ih _ hshort rfl rfl
      rwa [List.append_assoc, List.take_append_drop] at hrest

theorem may_download {data : Bytes} (hidle : d.phase = .idle) :
    (download data).May Answers
      (fun _ t m => t = s ∧
        m = { d with downloads := data :: d.downloads, phase := .idle }) s d := by
  have hhears := hears_download hidle data.length
  have hgrants : Device.Sends { d with phase := .granting data.length }
      (downloadReply data.length) { d with phase := .receiving data.length [] } := by
    show _ = if _ then _ else _
    rw [if_pos rfl]
  have hdata : (downloadReply data.length).take 4 = DATA := List.take_left' rfl
  refine (may_command (Q := fun reply t m => reply = downloadReply data.length ∧ t = s ∧
    m = { d with phase := .receiving data.length [] }) (.rests _) (hhears ▸ hgrants)
    (by intro h; cases h) (Or.inr hdata) ⟨rfl, rfl, rfl⟩).bind ?_
  rintro _ s _ ⟨rfl, rfl, rfl⟩
  refine (may_raiseIf (Q := fun _ t m => t = s ∧ m = { d with phase := .receiving data.length [] })
    (not_not.mpr rfl) ⟨rfl, rfl⟩).bind ?_
  rintro _ s _ ⟨rfl, rfl⟩
  refine (may_writeSlices rfl).bind ?_
  rintro _ s _ ⟨rfl, rfl⟩
  have hstages : Device.Sends { d with phase := .receiving data.length data } OKAY
      { d with downloads := data :: d.downloads, phase := .idle } := ⟨rfl, rfl⟩
  refine (may_response (Q := fun reply t m => reply = OKAY ∧ t = s ∧
    m = { d with downloads := data :: d.downloads, phase := .idle }) (.rests _) hstages nofun
    (Or.inl rfl) ⟨rfl, rfl, rfl⟩).bind ?_
  rintro _ s _ ⟨rfl, rfl, rfl⟩
  exact may_raiseIf (not_not.mpr rfl) ⟨rfl, rfl⟩

theorem may_flash {sparse after : Bytes} {images : List Bytes} (hidle : d.phase = .idle)
    (hstaged : d.downloads = sparse :: images) (happlied : Applied sparse d.partition after)
    (happlying : Applying sparse d.partition after) :
    (okay flashCommand).May Answers
      (fun _ t m => t = s ∧ m = { d with partition := after }) s d := by
  have hhears := hears_flash hidle hstaged
  have hworks : Works (d.hears flashCommand)
      ⟨after, d.downloads, .flashing sparse d.partition⟩ := by
    rw [hhears]
    exact .flashes rfl happlying
  have hsends : Device.Sends ⟨after, d.downloads, .flashing sparse d.partition⟩ OKAY
      { d with partition := after } := by
    refine ⟨happlied, ?_⟩
    rw [← hidle]
  refine (may_command (Q := fun reply t m => reply = OKAY ∧ t = s ∧
    m = { d with partition := after }) hworks hsends nofun (Or.inl rfl) ⟨rfl, rfl, rfl⟩).bind ?_
  rintro _ _ _ ⟨rfl, rfl, rfl⟩
  exact may_raiseIf (not_not.mpr rfl) ⟨rfl, rfl⟩

end Quiet

/-- A region is applied block by block. -/
theorem RegionSent.applying {image sparse p : Bytes} {offset : Nat} {chunks : List Chunk}
    (h : RegionSent image offset sparse chunks) (hc : Candidate image)
    (hoffset : IsOffset image offset) (hp : p.length = image.length) :
    Applying sparse p (splice p offset (region image offset)) := by
  obtain ⟨⟨k, hk⟩, hlt⟩ := hoffset
  have hlen := region_eq hlt.le
  have hwhole := hc.whole
  unfold REGION_SIZE at hk hlen
  unfold BLOCK at hwhole
  have hfit : offset / 4096 * 4096 + (region image offset).length ≤ p.length := by
    omega
  have hcount : (region image offset).length = (region image offset).length / 4096 * 4096 := by
    omega
  have hstart : offset / 4096 * 4096 = offset := by
    omega
  refine ⟨length_splice (by omega), fun i huntouched => ?_⟩
  have hparse : parseSparse (blockCount p) sparse = some chunks := by
    rw [blockCount, hp]
    exact h.wellFormed
  have hblock := blocksOf_splice hcount hfit (mt (h.own i).mpr (huntouched chunks hparse))
  unfold BLOCK at hblock
  rwa [hstart] at hblock

theorem may_writeRegions {image : Bytes} {d : Device} {s : Bytes} {maximum offset : Nat}
    (hc : Candidate image) (hmax : REGION_SIZE + MIB ≤ maximum) (hle : offset ≤ image.length)
    (hoffset : offset < image.length → IsOffset image offset) (hidle : d.phase = .idle)
    (hprior : d.partition.length = image.length) (hstreamed : s = image.take offset) :
    (writeRegions image maximum offset).May Answers (fun _ t _ => t = image) s d := by
  induction hn : image.length - offset using Nat.strong_induction_on
    generalizing offset d s with
  | _ n ih =>
    subst hn
    rcases Nat.lt_or_ge offset image.length with hlt | hge
    · obtain ⟨sparse, chunks, hsent⟩ := exists_regionSent hc (hoffset hlt)
      have hsparse : encodeRegion (region image offset) (offset / BLOCK)
          (image.length / BLOCK) = some sparse := hsent.sent
      have hlen := region_eq hle
      have hwhole := hc.whole
      have hsize := hsent.size
      obtain ⟨k, hk⟩ := (hoffset hlt).1
      unfold BLOCK at hwhole
      unfold REGION_SIZE at hk hlen hmax
      have hregion : ¬(region image offset = [] ∨ (region image offset).length % BLOCK ≠ 0) := by
        rw [← List.length_eq_zero_iff]
        unfold BLOCK
        omega
      rw [writeRegions, if_pos hlt]
      dsimp only
      rw [if_neg hregion]
      simp only [hsparse]
      have hallowed : ¬maximum < sparse.length := by
        omega
      refine (may_raiseIf (Q := fun _ t m => t = s ∧ m = d) hallowed ⟨rfl, rfl⟩).bind ?_
      rintro _ _ _ ⟨rfl, rfl⟩
      refine (may_download hidle).bind ?_
      rintro _ s d₁ ⟨rfl, hd₁⟩
      have hpartition : d₁.partition.length = image.length := by
        rw [hd₁]
        exact hprior
      have happlied : Applied sparse d₁.partition
          (splice d₁.partition offset (region image offset)) := by
        refine ⟨chunks, ?_, (hsent.applied _ hpartition).symm⟩
        rw [blockCount, hpartition]
        exact hsent.wellFormed
      refine (may_flash (by rw [hd₁]) (by rw [hd₁]) happlied
        (hsent.applying hc (hoffset hlt) hpartition)).bind ?_
      rintro _ s d₂ ⟨rfl, rfl⟩
      refine Procedure.May.bind (m := Procedure.modify _)
        (P := fun _ t m => t = s ++ region image offset ∧ m = _) ⟨(), rfl, rfl, rfl⟩ ?_
      rintro _ _ _ ⟨rfl, rfl⟩
      refine ih _ (by omega) (by omega) ?_ (by rw [hd₁]) ?_ ?_ rfl
      · intro hnext
        exact ⟨⟨k + 1, by unfold REGION_SIZE; omega⟩, hnext⟩
      · rw [length_splice (by omega)]
        exact hpartition
      · have htaken : region image offset =
            (image.drop offset).take (region image offset).length := by
          rw [hlen, region]
        rw [hstreamed, List.take_add, ← htaken]
    · rw [writeRegions, if_neg (by omega)]
      refine Procedure.may_pure ?_
      rw [hstreamed, List.take_of_length_le hge]

/-- **Promotion writes exactly the image.**  Every region is sent as a well-formed sparse image that
touches its own blocks only and stays within the allowance; a run that ends without an exception has
left the candidate, whatever was there before; a run that stops early has changed only blocks of
regions that had been sent; and with the reviewed download size nothing but the device stops a
run. -/
theorem promote_writes {image prior : Bytes} (sha256 : Bytes → Bytes) (maximum : Nat)
    (hc : Candidate image) (hprior : prior.length = image.length) :
    (∀ offset, IsOffset image offset →
      ∃ sparse chunks, RegionSent image offset sparse chunks) ∧
    (∀ trace d result streamed, Follows Answers { partition := prior } trace d →
      ((promote sha256 image maximum).run []).replay trace = some (result, streamed) →
        (result = some () → d.partition = image) ∧
        ∀ d', Works d d' → Kept image prior d'.downloads d'.partition) ∧
    (REGION_SIZE + MIB ≤ maximum → ∃ trace d streamed,
      Follows Answers { partition := prior } trace d ∧
        ((promote sha256 image maximum).run []).replay trace = some (some (), streamed)) := by
  have hfirst : 0 < image.length → IsOffset image 0 := fun hpos => ⟨⟨0, rfl⟩, hpos⟩
  have hstart : Intact image prior { partition := prior } :=
    ⟨⟨rfl, fun _ => Or.inl rfl⟩, fun _ h => absurd h List.not_mem_nil, nofun, nofun⟩
  refine ⟨fun offset => exists_regionSent hc, ?_, ?_⟩
  · -- any run: what has been sent is kept, region by region
    intro trace d result streamed hfollows hreplay
    have hunder : (promote sha256 image maximum).Under Answers (Raised image prior)
        (fun _ _ d' => Intact image prior d' ∧ d'.partition = image) [] { partition := prior } := by
      rw [promote, Procedure.under_bind, under_raiseIf]
      refine ⟨fun _ => hstart, fun _ => ?_⟩
      rw [Procedure.under_bind]
      refine (under_writeRegions hc hprior (Nat.zero_le _) hfirst hstart rfl rfl).mono
        (fun _ _ h => h) ?_
      intro _ s d' h
      rw [Procedure.under_bind, Procedure.under_get, under_raiseIf]
      exact ⟨fun _ => h.1, fun _ => h⟩
    obtain ⟨hends, hraised⟩ := Procedure.under_replay hunder hfollows hreplay
    have hintact : Intact image prior d := by
      cases result with
      | none => exact hraised rfl
      | some a => exact (hends a rfl).1
    exact ⟨fun hr => (hends () hr).2, fun d' hworks => (hintact.works hc hprior hworks).kept⟩
  · -- a device that answers as it should lets the run end
    intro hmax
    have hmay : (promote sha256 image maximum).May Answers (fun _ _ _ => True) []
        { partition := prior } := by
      rw [promote]
      refine (may_raiseIf (Q := fun _ t m => t = [] ∧ m = { partition := prior })
        (Nat.not_lt.mpr hmax) ⟨rfl, rfl⟩).bind ?_
      rintro _ _ _ ⟨rfl, rfl⟩
      refine (may_writeRegions hc hmax (Nat.zero_le _) hfirst rfl hprior rfl).bind ?_
      rintro _ s d rfl
      refine Procedure.May.bind (m := Procedure.get) (P := fun a t _ => a = s ∧ t = s)
        ⟨s, rfl, rfl, rfl⟩ ?_
      rintro _ _ _ ⟨rfl, rfl⟩
      exact may_raiseIf (not_not.mpr rfl) trivial
    obtain ⟨trace, ⟨⟩, streamed, d, hfollows, hreplay, -⟩ := hmay.exists_trace
    exact ⟨trace, d, streamed, hfollows, hreplay⟩

/-- A block of ones with `n` blocks of zeros behind it. -/
def ledBlock (n : Nat) : Bytes := List.replicate BLOCK 1 ++ List.replicate (n * BLOCK) 0

theorem length_ledBlock (n : Nat) : (ledBlock n).length = (n + 1) * BLOCK := by
  rw [ledBlock, List.length_append, List.length_replicate, List.length_replicate, Nat.succ_mul,
    Nat.add_comm]

theorem runs_ledBlock {n : Nat} (hn : 0 < n) :
    runs (ledBlock n) (n + 1) 0 =
      [⟨.RAW, 1, blocksOf (ledBlock n) 0 1⟩, ⟨.FILL, n, List.replicate 4 0⟩] := by
  refine runs_of_zeros (by omega) ?_ ?_
  · -- the first block is made of ones
    have hones : blocksOf (ledBlock n) 0 1 = List.replicate BLOCK 1 := by
      rw [blocksOf, ledBlock, Nat.zero_mul, List.drop_zero, Nat.sub_zero, Nat.one_mul]
      exact List.take_left' List.length_replicate
    unfold isZero
    rw [hones]
    exact beq_eq_false_iff_ne.mpr fun h => absurd (congrArg List.head? h) (by decide)
  · intro i hi hlt
    unfold isZero blocksOf ledBlock
    obtain ⟨j, rfl⟩ : ∃ j, i = j + 1 := ⟨i - 1, by omega⟩
    have hdrop : (j + 1) * BLOCK = (List.replicate BLOCK (1 : UInt8)).length + j * BLOCK := by
      rw [List.length_replicate, Nat.succ_mul, Nat.add_comm]
    rw [hdrop, List.drop_append, List.drop_of_length_le (Nat.le_add_right _ _), List.nil_append,
      Nat.add_sub_cancel_left, List.drop_replicate, List.take_replicate]
    refine beq_iff_eq.mpr (congrArg (List.replicate · 0) ?_)
    unfold BLOCK
    omega

/-- The second region is shorter than the first, and both begin with a block that is not zero. -/
def twoRegions : Bytes := ledBlock 8191 ++ ledBlock 1

theorem length_twoRegions : twoRegions.length = 8194 * BLOCK := by
  rw [twoRegions, List.length_append, length_ledBlock, length_ledBlock, ← Nat.add_mul]

theorem region_first : region twoRegions 0 = ledBlock 8191 := by
  rw [region, length_twoRegions, List.drop_zero, twoRegions]
  exact List.take_left' (length_ledBlock 8191)

theorem region_second : region twoRegions REGION_SIZE = ledBlock 1 := by
  have hfirst : (ledBlock 8191).length = REGION_SIZE := length_ledBlock 8191
  rw [region, length_twoRegions, twoRegions, List.drop_left' hfirst]
  exact List.take_of_length_le (Nat.le_of_eq (length_ledBlock 1))

/-- Over a partition of other bytes: the first region is a block, a run of zeros and a skip, the
second a skip, a block and a zero. -/
theorem promote_writes_twoRegions :
    ∃ trace d streamed first second,
      Follows Answers { partition := List.replicate (8194 * BLOCK) 0xFF } trace d ∧
      ((promote id twoRegions (REGION_SIZE + MIB)).run []).replay trace =
        some (some (), streamed) ∧
      d.partition = twoRegions ∧
      RegionSent twoRegions 0 first [⟨.RAW, 1, blocksOf (ledBlock 8191) 0 1⟩,
        ⟨.FILL, 8191, List.replicate 4 0⟩, ⟨.SKIP, 2, []⟩] ∧
      RegionSent twoRegions REGION_SIZE second [⟨.SKIP, 8192, []⟩,
        ⟨.RAW, 1, blocksOf (ledBlock 1) 0 1⟩, ⟨.FILL, 1, List.replicate 4 0⟩] := by
  have hlen := length_twoRegions
  have hprior : (List.replicate (8194 * BLOCK) (0xFF : UInt8)).length = twoRegions.length := by
    rw [hlen]
    exact List.length_replicate
  have hblocks : blockCount twoRegions = 8194 := by
    rw [blockCount, hlen]
    rfl
  have hc : Candidate twoRegions := by
    refine ⟨fun h => ?_, by rw [hlen, Nat.mul_mod_left], by rw [hlen]; decide⟩
    rw [h] at hlen
    cases hlen
  have hstart : IsOffset twoRegions 0 := ⟨⟨0, rfl⟩, by rw [hlen]; decide⟩
  have hnext : IsOffset twoRegions REGION_SIZE := ⟨⟨1, rfl⟩, by rw [hlen]; decide⟩
  obtain ⟨hsent, hwrites, hends⟩ := promote_writes id (REGION_SIZE + MIB) hc hprior
  obtain ⟨trace, d, streamed, hfollows, hreplay⟩ := hends (Nat.le_refl _)
  obtain ⟨first, chunks₁, h₁⟩ := hsent 0 hstart
  obtain ⟨second, chunks₂, h₂⟩ := hsent REGION_SIZE hnext
  have hchunks₁ := h₁.chunks_eq hc hstart
  have hchunks₂ := h₂.chunks_eq hc hnext
  rw [region_first, hblocks, regionChunks, count_eq (length_ledBlock 8191),
    runs_ledBlock (by decide)] at hchunks₁
  rw [region_second, hblocks, regionChunks, count_eq (length_ledBlock 1),
    runs_ledBlock (by decide)] at hchunks₂
  refine ⟨trace, d, streamed, first, second, hfollows, hreplay,
    (hwrites _ _ _ _ hfollows hreplay).1 rfl, ?_, ?_⟩
  · rw [hchunks₁] at h₁
    exact h₁
  · rw [hchunks₂] at h₂
    exact h₂

end EinkLab.SystemImage
