import EinkLab.RecoveryImage.Boot
import EinkLab.RecoveryImage.Equiv.Ramdisk

/-!
# Where the components of the written image are

The ramdisk keeps its room, but the components behind it are found by its size.  When the new
ramdisk takes fewer pages than the old one they are looked for `shift` bytes too early, and found
only if they repeat what stands there (`prepare_reachable_iff`).
-/

namespace EinkLab.RecoveryImage

open EinkLab.Text EinkLab.Binary

/-! ### Alignment -/

theorem le_align {page : Nat} (hpage : 0 < page) (n : Nat) : n ≤ align page n := by
  have h := Nat.div_add_mod (n + page - 1) page
  have hmod := Nat.mod_lt (n + page - 1) hpage
  unfold align
  rw [Nat.mul_comm]
  omega

theorem align_mono {page m n : Nat} (h : m ≤ n) : align page m ≤ align page n := by
  unfold align
  apply Nat.mul_le_mul_right
  apply Nat.div_le_div_right
  omega

/-- A multiple of the page that has room for `n` has room for its pages. -/
theorem align_le_align {page m n : Nat} (hpage : 0 < page) (h : m ≤ align page n) :
    align page m ≤ align page n := by
  unfold align at h ⊢
  apply Nat.mul_le_mul_right
  apply Nat.lt_succ_iff.mp
  apply Nat.div_lt_of_lt_mul
  rw [Nat.mul_succ, Nat.mul_comm page]
  omega

/-! ### The layout -/

theorem layout_congr {image image' : Bytes} {page position : Nat} {fields : List Nat}
    (h : ∀ f ∈ fields, u32 image f = u32 image' f) :
    layout image page fields position = layout image' page fields position := by
  induction fields generalizing position with
  | nil => rfl
  | cons f fields ih =>
    rw [layout, layout, h f List.mem_cons_self,
      ih fun g hg => h g (List.mem_cons_of_mem _ hg)]

/-- A layout that starts earlier is the same one, earlier. -/
theorem layout_shift (image : Bytes) (page shift : Nat) (fields : List Nat) (position : Nat) :
    layout image page fields (position + shift) =
      (layout image page fields position).map fun c => (c.1 + shift, c.2) := by
  induction fields generalizing position with
  | nil => rfl
  | cons f fields ih =>
    rw [layout, layout, List.map_cons, Nat.add_right_comm, ih]

theorem le_of_mem_layout {image : Bytes} {page : Nat} {fields : List Nat} {position : Nat}
    {c : Nat × Nat} (hc : c ∈ layout image page fields position) : position ≤ c.1 := by
  induction fields generalizing position with
  | nil => exact absurd hc List.not_mem_nil
  | cons f fields ih =>
    rcases List.mem_cons.mp hc with rfl | hc
    · exact Nat.le_refl _
    · have := ih hc
      omega

/-- The components are inside the image. -/
theorem fits_of_idBytes {image digested : Bytes} {cs : List (Nat × Nat)}
    (h : idBytes image cs = some digested) : ∀ c ∈ cs, c.1 + c.2 ≤ image.length := by
  induction cs generalizing digested with
  | nil => exact fun c hc => absurd hc List.not_mem_nil
  | cons c cs ih =>
    obtain ⟨position, size⟩ := c
    rw [idBytes] at h
    split_ifs at h with hfits
    obtain ⟨rest, hrest, -⟩ := Option.map_eq_some_iff.mp h
    intro c hc
    rcases List.mem_cons.mp hc with rfl | hc
    · exact hfits
    · exact ih hrest c hc

/-- Nothing but the components and their sizes is digested. -/
theorem idBytes_congr {image image' : Bytes} {cs : List (Nat × Nat)}
    (hlen : image.length = image'.length)
    (h : ∀ c ∈ cs, slice image c.1 c.2 = slice image' c.1 c.2) :
    idBytes image cs = idBytes image' cs := by
  induction cs with
  | nil => rfl
  | cons c cs ih =>
    obtain ⟨position, size⟩ := c
    rw [idBytes, idBytes, hlen, h _ List.mem_cons_self,
      ih fun c hc => h c (List.mem_cons_of_mem _ hc)]

/-! ### Accepted sources -/

/-- A source and a ramdisk that the tool accepts. -/
structure Accepted (codec : Codec) (source compressed rebuilt : Bytes) : Prop where
  small : source.length ≤ MAX_ARCHIVE
  page : pageOf source ∈ [2048, 4096, 8192, 16384]
  room : ramdiskOffset source + capacity source ≤ source.length
  fits : ∀ c ∈ layout source (pageOf source) components (pageOf source),
    c.1 + c.2 ≤ source.length
  rebuilds : (codec.inflate (slice source (ramdiskOffset source) (u32 source RAMDISK))).bind
    codec.rebuild = some rebuilt
  fitting : compressed.length ≤ capacity source
  unpacks : codec.gunzip compressed = some rebuilt

theorem accepted_of_prepare {codec : Codec} {source compressed image : Bytes}
    (h : prepare codec source compressed = some image) :
    ∃ rebuilt digest, Accepted codec source compressed rebuilt ∧
      imageId (pageOf source) (withRamdisk source compressed) = some digest ∧
      image = splice (withRamdisk source compressed) 576 digest := by
  simp only [prepare, Option.bind_eq_bind, Option.bind_eq_some_iff, guard_eq_some, pure,
    Option.some_inj] at h
  obtain ⟨_, ⟨-, hsmall⟩, _, -, _, -, _, hpage, _, ⟨-, hroom⟩, sourceId, hid, _, -, archive,
    hinflate, _, -, rebuilt, hrebuild, _, ⟨hcompressed, hunpacks⟩, digest, hdigest, _, -, h⟩ := h
  obtain ⟨digested, hdigested, -⟩ := Option.map_eq_some_iff.mp hid
  refine ⟨rebuilt, digest, ⟨hsmall, hpage, hroom, fits_of_idBytes hdigested, ?_, hcompressed,
    hunpacks⟩, hdigest, h.symm⟩
  rw [hinflate]
  exact hrebuild

theorem page_le_offset (source : Bytes) : pageOf source ≤ ramdiskOffset source :=
  Nat.le_add_right _ _

namespace Accepted

variable {codec : Codec} {source compressed rebuilt : Bytes}
  (h : Accepted codec source compressed rebuilt)

include h

theorem le_page : 2048 ≤ pageOf source := by
  have hpage := h.page
  simp only [List.mem_cons, List.not_mem_nil, or_false] at hpage
  omega

/-- The new ramdisk fills its room. -/
theorem length_padded :
    (compressed ++ List.replicate (capacity source - compressed.length) 0 : Bytes).length =
      capacity source := by
  have := h.fitting
  rw [List.length_append, List.length_replicate]
  omega

theorem length_withRamdisk : (withRamdisk source compressed).length = source.length := by
  have hpage := h.le_page
  have hoffset := page_le_offset source
  have hroom := h.room
  have hpadded : ramdiskOffset source +
      (compressed ++ List.replicate (capacity source - compressed.length) 0 : Bytes).length ≤
        source.length := by
    rw [h.length_padded]
    exact hroom
  have hinner := length_splice hpadded
  rw [withRamdisk, length_splice, hinner]
  rw [hinner, length_leBytes]
  unfold RAMDISK
  omega

/-- A byte of the image, outside the size of the ramdisk. -/
theorem getElem?_withRamdisk {i : Nat} (hi : i < 16 ∨ 20 ≤ i) :
    (withRamdisk source compressed)[i]? =
      if ramdiskOffset source ≤ i ∧ i < ramdiskOffset source + capacity source then
        (compressed ++ List.replicate (capacity source - compressed.length) 0)[
          i - ramdiskOffset source]?
      else source[i]? := by
  have hpage := h.le_page
  have hoffset := page_le_offset source
  have hroom := h.room
  have hlen := h.length_padded
  have hpadded : ramdiskOffset source +
      (compressed ++ List.replicate (capacity source - compressed.length) 0 : Bytes).length ≤
        source.length := by
    rw [hlen]
    exact hroom
  have hinner := length_splice hpadded
  rw [withRamdisk, getElem?_splice]
  · split_ifs with hin
    · obtain ⟨k, rfl⟩ := Nat.exists_eq_add_of_le hin.1
      rw [getElem?_splice_inside hpadded (by omega), Nat.add_sub_cancel_left]
    · apply getElem?_splice hpadded
      omega
  · rw [hinner, length_leBytes]
    unfold RAMDISK
    omega
  · rw [length_leBytes]
    unfold RAMDISK
    omega

/-- The fields in front of the components are those of the source, but for the ramdisk size and the
id. -/
theorem u32_image {digest : Bytes} (hdigest : digest.length = 20) {field : Nat}
    (hfield : field + 4 ≤ 16 ∨ 20 ≤ field ∧ field + 4 ≤ 576 ∨ 596 ≤ field ∧ field + 4 ≤ 2048) :
    u32 (splice (withRamdisk source compressed) 576 digest) field = u32 source field := by
  have hpage := h.le_page
  have hoffset := page_le_offset source
  have hroom := h.room
  have hlen := h.length_withRamdisk
  rw [u32, slice_splice_of_disjoint (by omega) (by omega), u32]
  congr 1
  rw [slice_eq_iff]
  intro i hi
  rw [h.getElem?_withRamdisk (by omega), if_neg (by omega)]

theorem u32_ramdisk {digest : Bytes} (hdigest : digest.length = 20) :
    u32 (splice (withRamdisk source compressed) 576 digest) RAMDISK = compressed.length := by
  have hpage := h.le_page
  have hoffset := page_le_offset source
  have hroom := h.room
  have hsmall := h.small
  have hfitting := h.fitting
  have hlen := h.length_withRamdisk
  have hpadded : ramdiskOffset source +
      (compressed ++ List.replicate (capacity source - compressed.length) 0 : Bytes).length ≤
        source.length := by
    rw [h.length_padded]
    exact hroom
  have hinner := length_splice hpadded
  have hsize : (leBytes 4 compressed.length).length = 4 := length_leBytes _ _
  have hself : slice (splice (splice source (ramdiskOffset source)
      (compressed ++ List.replicate (capacity source - compressed.length) 0)) RAMDISK
        (leBytes 4 compressed.length)) RAMDISK (leBytes 4 compressed.length).length = _ :=
    slice_splice_self (by unfold RAMDISK; omega)
  rw [hsize] at hself
  rw [u32, slice_splice_of_disjoint (by omega) (by unfold RAMDISK; omega), withRamdisk, hself]
  apply leNat_leBytes
  unfold MAX_ARCHIVE at hsmall
  omega

/-- A byte of the image behind its header. -/
theorem getElem?_image {digest : Bytes} (hdigest : digest.length = 20) {i : Nat} (hi : 596 ≤ i) :
    (splice (withRamdisk source compressed) 576 digest)[i]? =
      if ramdiskOffset source ≤ i ∧ i < ramdiskOffset source + capacity source then
        (compressed ++ List.replicate (capacity source - compressed.length) 0)[
          i - ramdiskOffset source]?
      else source[i]? := by
  have hpage := h.le_page
  have hoffset := page_le_offset source
  have hroom := h.room
  have hlen := h.length_withRamdisk
  rw [getElem?_splice (by omega) (by omega), h.getElem?_withRamdisk (by omega)]

end Accepted

/-! ### Reaching the components -/

/-- The components as the header locates them. -/
def locate (image : Bytes) : List Bytes :=
  (layout image (pageOf image) components (pageOf image)).map fun c => slice image c.1 c.2

/-- What the written image owes: every component but the ramdisk is where the header locates it, the
ramdisk there unpacks to the rebuilt archive, and the id is that of the layout. -/
def Reachable (codec : Codec) (source image : Bytes) : Prop :=
  ∃ kernel old new second dtbo dtb rebuilt,
    locate source = [kernel, old, second, dtbo, dtb] ∧
    locate image = [kernel, new, second, dtbo, dtb] ∧
    (codec.inflate old).bind codec.rebuild = some rebuilt ∧ codec.gunzip new = some rebuilt ∧
    imageId (pageOf image) image = some (slice image 576 20)

/-- Where the room of the ramdisk ends. -/
def roomEnd (source : Bytes) : Nat := ramdiskOffset source + capacity source

/-- How much earlier the later components are looked for. -/
def shift (source compressed : Bytes) : Nat :=
  capacity source - align (pageOf source) compressed.length

/-- Every byte of the later components repeats the one `shift` before it, or is zero where that one
belongs to the room of the ramdisk. -/
def Repeats (source compressed : Bytes) : Prop :=
  ∀ c ∈ layout source (pageOf source) [SECOND, DTBO, DTB] (roomEnd source),
    ∀ i, c.1 ≤ i → i < c.1 + c.2 →
      source[i]? = if i < roomEnd source + shift source compressed then some 0
        else source[i - shift source compressed]?

/-- Nothing is asked of the source when the ramdisk keeps its pages. -/
theorem repeats_of_shift {source compressed : Bytes} (h : shift source compressed = 0) :
    Repeats source compressed := by
  intro c hc i hi _
  have := le_of_mem_layout hc
  rw [h, if_neg (by omega), Nat.sub_zero]

section Image

variable {codec : Codec} {source compressed rebuilt digest : Bytes}
  (h : Accepted codec source compressed rebuilt) (hdigest : digest.length = 20)

include h hdigest

theorem pageOf_image :
    pageOf (splice (withRamdisk source compressed) 576 digest) = pageOf source :=
  h.u32_image hdigest (by omega)

/-- The layout of the image: the later components follow the pages of the new ramdisk. -/
theorem layout_image :
    layout (splice (withRamdisk source compressed) 576 digest) (pageOf source) components
        (pageOf source) =
      (pageOf source, u32 source KERNEL) :: (ramdiskOffset source, compressed.length) ::
        layout source (pageOf source) [SECOND, DTBO, DTB]
          (ramdiskOffset source + align (pageOf source) compressed.length) := by
  have hkernel : u32 (splice _ 576 digest) KERNEL = u32 source KERNEL :=
    h.u32_image hdigest (by unfold KERNEL; omega)
  have hlater : ∀ f ∈ [SECOND, DTBO, DTB],
      u32 (splice (withRamdisk source compressed) 576 digest) f = u32 source f := by
    intro f hf
    apply h.u32_image hdigest
    simp only [List.mem_cons, List.not_mem_nil, or_false] at hf
    rcases hf with rfl | rfl | rfl
    · unfold SECOND
      omega
    · unfold DTBO
      omega
    · unfold DTB
      omega
  rw [components, layout, layout, hkernel, h.u32_ramdisk hdigest, layout_congr hlater]
  rfl

theorem slice_kernel :
    slice (splice (withRamdisk source compressed) 576 digest) (pageOf source) (u32 source KERNEL) =
      slice source (pageOf source) (u32 source KERNEL) := by
  have hpage := h.le_page
  have halign := le_align (by omega : 0 < pageOf source) (u32 source KERNEL)
  rw [slice_eq_iff]
  intro i hi
  rw [h.getElem?_image hdigest (by omega), if_neg]
  unfold ramdiskOffset
  omega

theorem slice_ramdisk :
    slice (splice (withRamdisk source compressed) 576 digest) (ramdiskOffset source)
      compressed.length = compressed := by
  have hpage := h.le_page
  have hoffset := page_le_offset source
  have hfitting := h.fitting
  have hself : slice compressed 0 compressed.length = compressed := by
    rw [slice, List.drop_zero, List.take_length]
  refine Eq.trans ?_ hself
  rw [slice_eq_iff]
  intro i hi
  rw [h.getElem?_image hdigest (by omega), if_pos (by omega), Nat.add_sub_cancel_left,
    List.getElem?_append_left hi, Nat.zero_add]

/-- A later component is reached exactly if it repeats what stands where it is looked for. -/
theorem slice_later_iff {position size : Nat}
    (hposition : ramdiskOffset source + align (pageOf source) compressed.length ≤ position) :
    slice source (position + shift source compressed) size =
        slice (splice (withRamdisk source compressed) 576 digest) position size ↔
      ∀ i, position + shift source compressed ≤ i →
        i < position + shift source compressed + size →
        source[i]? = if i < roomEnd source + shift source compressed then some 0
          else source[i - shift source compressed]? := by
  have hpage := h.le_page
  have hoffset := page_le_offset source
  have halign := le_align (by omega : 0 < pageOf source) compressed.length
  have himage : ∀ j, position ≤ j →
      (splice (withRamdisk source compressed) 576 digest)[j]? =
        if j < roomEnd source then some 0 else source[j]? := by
    intro j hj
    rw [h.getElem?_image hdigest (by omega)]
    unfold roomEnd
    by_cases hroom : j < ramdiskOffset source + capacity source
    · rw [if_pos (by omega), if_pos hroom, List.getElem?_append_right (by omega),
        List.getElem?_replicate, if_pos (by omega)]
    · rw [if_neg (by omega), if_neg hroom]
  rw [slice_eq_iff]
  constructor
  · intro hall i hge hlt
    have hi := hall (i - (position + shift source compressed)) (by omega)
    have hback : position + (i - (position + shift source compressed)) =
        i - shift source compressed := by
      omega
    rw [himage _ (by omega), Nat.add_sub_cancel' hge, hback] at hi
    rw [hi]
    congr 1
    exact propext (by omega)
  · intro hall i hi
    have hsource := hall (position + shift source compressed + i) (by omega) (by omega)
    have hback : position + shift source compressed + i - shift source compressed =
        position + i := by
      omega
    rw [hback] at hsource
    rw [hsource, himage _ (by omega)]
    congr 1
    exact propext (by omega)

end Image

/-- The layout does not depend on the id. -/
theorem layout_splice {image digest : Bytes} (page : Nat)
    (hfit : 576 + digest.length ≤ image.length)
    (hdigest : digest.length = 20) :
    layout (splice image 576 digest) page components page = layout image page components page := by
  apply layout_congr
  intro f hf
  apply congrArg leNat
  apply slice_splice_of_disjoint hfit
  simp only [components, List.mem_cons, List.not_mem_nil, or_false] at hf
  rcases hf with rfl | rfl | rfl | rfl | rfl
  all_goals
    simp only [KERNEL, RAMDISK, SECOND, DTBO, DTB]
    omega

/-- An id that is written in front of the components is that of the image it is written to. -/
theorem imageId_splice {image digest : Bytes} {page : Nat} (hpage : 596 ≤ page)
    (hlen : 596 ≤ image.length) (hid : imageId page image = some digest) :
    digest.length = 20 ∧
      imageId page (splice image 576 digest) = some (slice (splice image 576 digest) 576 20) := by
  have hdigest : digest.length = 20 := by
    obtain ⟨digested, -, rfl⟩ := Option.map_eq_some_iff.mp hid
    exact length_sha1 digested
  have hfit : 576 + digest.length ≤ image.length := by
    omega
  have hself := slice_splice_self hfit
  rw [hdigest] at hself
  refine ⟨hdigest, ?_⟩
  have hbytes : idBytes (splice image 576 digest) (layout image page components page) =
      idBytes image (layout image page components page) := by
    apply idBytes_congr (length_splice hfit)
    intro c hc
    have hge := le_of_mem_layout hc
    exact slice_splice_of_disjoint hfit (by omega)
  rw [hself, imageId, layout_splice page hfit hdigest, hbytes]
  exact hid

/-- Where the header of the source locates the components, and that of the image: the later ones
stand at the same place behind the ramdisk, as far as that moves. -/
structure Located (source compressed image : Bytes) (second dtbo dtb : Nat × Nat) : Prop where
  inSource : locate source = [slice source (pageOf source) (u32 source KERNEL),
    slice source (ramdiskOffset source) (u32 source RAMDISK),
    slice source (second.1 + shift source compressed) second.2,
    slice source (dtbo.1 + shift source compressed) dtbo.2,
    slice source (dtb.1 + shift source compressed) dtb.2]
  inImage : locate image = [slice source (pageOf source) (u32 source KERNEL), compressed,
    slice image second.1 second.2, slice image dtbo.1 dtbo.2, slice image dtb.1 dtb.2]
  repeats : Repeats source compressed ↔ ∀ c ∈ [second, dtbo, dtb],
    slice source (c.1 + shift source compressed) c.2 = slice image c.1 c.2

theorem located_of_prepare {source compressed digest : Bytes} {codec : Codec} {rebuilt : Bytes}
    (hacc : Accepted codec source compressed rebuilt) (hdigest : digest.length = 20) :
    ∃ second dtbo dtb, Located source compressed
      (splice (withRamdisk source compressed) 576 digest) second dtbo dtb := by
  have hcapacity : align (pageOf source) compressed.length ≤ capacity source :=
    align_le_align (by have := hacc.le_page; omega) hacc.fitting
  have hend : ramdiskOffset source + align (pageOf source) compressed.length +
      shift source compressed = roomEnd source := by
    unfold shift roomEnd
    omega
  -- the later components, where the image has them
  obtain ⟨second, dtbo, dtb, hlater⟩ : ∃ second dtbo dtb, layout source (pageOf source)
      [SECOND, DTBO, DTB] (ramdiskOffset source + align (pageOf source) compressed.length) =
        [second, dtbo, dtb] := ⟨_, _, _, rfl⟩
  have hlaterSource : layout source (pageOf source) [SECOND, DTBO, DTB] (roomEnd source) =
      [second, dtbo, dtb].map fun c => (c.1 + shift source compressed, c.2) := by
    rw [← hend, layout_shift, hlater]
  have hge : ∀ c ∈ [second, dtbo, dtb],
      ramdiskOffset source + align (pageOf source) compressed.length ≤ c.1 := by
    intro c hc
    rw [← hlater] at hc
    exact le_of_mem_layout hc
  refine ⟨second, dtbo, dtb, ?_, ?_, ?_⟩
  · have hall : layout source (pageOf source) components (pageOf source) =
        (pageOf source, u32 source KERNEL) :: (ramdiskOffset source, u32 source RAMDISK) ::
          layout source (pageOf source) [SECOND, DTBO, DTB] (roomEnd source) := rfl
    rw [locate, hall, hlaterSource]
    rfl
  · rw [locate, pageOf_image hacc hdigest, layout_image hacc hdigest, hlater]
    simp only [List.map_cons, List.map_nil, slice_kernel hacc hdigest, slice_ramdisk hacc hdigest]
  · rw [Repeats, hlaterSource, List.forall_mem_map]
    exact forall₂_congr fun c hc => (slice_later_iff hacc hdigest (hge c hc)).symm

/-- A component that the image has where its header says stands there in the source too. -/
theorem Reachable.repeats {codec : Codec} {source compressed image : Bytes}
    (h : Reachable codec source image) (hprepare : prepare codec source compressed = some image) :
    Repeats source compressed := by
  obtain ⟨rebuilt, digest, hacc, hid, rfl⟩ := accepted_of_prepare hprepare
  have hpage := hacc.le_page
  have hoffset := page_le_offset source
  have hroom := hacc.room
  have hlen := hacc.length_withRamdisk
  obtain ⟨hdigest, -⟩ := imageId_splice (by omega) (by omega) hid
  obtain ⟨second, dtbo, dtb, hlocated⟩ := located_of_prepare hacc hdigest
  obtain ⟨kernel, old, new, second', dtbo', dtb', rebuilt', hs, hi, -⟩ := h
  rw [hlocated.inSource] at hs
  rw [hlocated.inImage] at hi
  simp only [List.cons.injEq, and_true] at hs hi
  obtain ⟨-, -, hs₁, hs₂, hs₃⟩ := hs
  obtain ⟨-, -, hi₁, hi₂, hi₃⟩ := hi
  refine hlocated.repeats.mpr fun c hc => ?_
  simp only [List.mem_cons, List.not_mem_nil, or_false] at hc
  rcases hc with rfl | rfl | rfl
  · exact hs₁.trans hi₁.symm
  · exact hs₂.trans hi₂.symm
  · exact hs₃.trans hi₃.symm

/-- **The components of the written image are where its header locates them exactly if those behind
the ramdisk repeat what stands there.** -/
theorem prepare_reachable_iff {codec : Codec} {source compressed image : Bytes}
    (h : prepare codec source compressed = some image) :
    Reachable codec source image ↔ Repeats source compressed := by
  refine ⟨fun hreachable => hreachable.repeats h, fun hrepeats => ?_⟩
  obtain ⟨rebuilt, digest, hacc, hid, rfl⟩ := accepted_of_prepare h
  have hpage := hacc.le_page
  have hoffset := page_le_offset source
  have hroom := hacc.room
  have hlen := hacc.length_withRamdisk
  obtain ⟨hdigest, hidImage⟩ := imageId_splice (by omega) (by omega) hid
  obtain ⟨second, dtbo, dtb, hlocated⟩ := located_of_prepare hacc hdigest
  have hall := hlocated.repeats.mp hrepeats
  have h₁ := hall second List.mem_cons_self
  have h₂ := hall dtbo (List.mem_cons_of_mem _ List.mem_cons_self)
  have h₃ := hall dtb (List.mem_cons_of_mem _ (List.mem_cons_of_mem _ List.mem_cons_self))
  refine ⟨_, _, _, _, _, _, rebuilt, hlocated.inSource, ?_, hacc.rebuilds, hacc.unpacks, ?_⟩
  · rw [hlocated.inImage, h₁, h₂, h₃]
  · rw [pageOf_image hacc hdigest]
    exact hidImage

/-! ### The checks of the tool -/

section Checks

variable {codec : Codec} {source compressed rebuilt : Bytes}
  (h : Accepted codec source compressed rebuilt)

include h

/-- The id of the written image can be computed. -/
theorem exists_imageId :
    ∃ digest, imageId (pageOf source) (withRamdisk source compressed) = some digest := by
  have hpage := h.le_page
  have hoffset := page_le_offset source
  have hroom := h.room
  have hlen := h.length_withRamdisk
  have hzeros : (List.replicate 20 0 : Bytes).length = 20 := List.length_replicate
  have hlayout := layout_splice (pageOf source)
    (by omega : 576 + (List.replicate 20 0 : Bytes).length ≤
      (withRamdisk source compressed).length) hzeros
  rw [layout_image h hzeros] at hlayout
  have hcapacity : align (pageOf source) compressed.length ≤ capacity source :=
    align_le_align (by omega) h.fitting
  have halign := le_align (by omega : 0 < pageOf source) (u32 source KERNEL)
  have hfitting := h.fitting
  have hsome : ∀ cs : List (Nat × Nat),
      (∀ c ∈ cs, c.1 + c.2 ≤ (withRamdisk source compressed).length) →
        ∃ digested, idBytes (withRamdisk source compressed) cs = some digested := by
    intro cs hcs
    induction cs with
    | nil => exact ⟨[], rfl⟩
    | cons c cs ih =>
      obtain ⟨digested, hd⟩ := ih fun c hc => hcs c (List.mem_cons_of_mem _ hc)
      obtain ⟨position, size⟩ := c
      rw [idBytes, if_pos (hcs _ List.mem_cons_self), hd]
      exact ⟨_, rfl⟩
  obtain ⟨digested, hd⟩ := hsome (layout (withRamdisk source compressed) (pageOf source)
      components (pageOf source)) (by
    intro c hc
    rw [← hlayout] at hc
    rcases List.mem_cons.mp hc with rfl | hc
    · show pageOf source + u32 source KERNEL ≤ _
      unfold ramdiskOffset at hroom
      omega
    rcases List.mem_cons.mp hc with rfl | hc
    · show ramdiskOffset source + compressed.length ≤ _
      omega
    -- a later component is no further than in the source
    have hmem : (c.1 + shift source compressed, c.2) ∈
        layout source (pageOf source) [SECOND, DTBO, DTB] (roomEnd source) := by
      have hend : ramdiskOffset source + align (pageOf source) compressed.length +
          shift source compressed = roomEnd source := by
        unfold shift roomEnd
        omega
      rw [← hend, layout_shift]
      exact List.mem_map_of_mem hc
    have hfits := h.fits _ (List.mem_cons_of_mem _ (List.mem_cons_of_mem _ hmem))
    dsimp only at hfits
    omega)
  exact ⟨sha1 digested, by rw [imageId, hd, Option.map_some]⟩

/-- The final check passes. -/
theorem unrelated {digest : Bytes} (hdigest : digest.length = 20) :
    Unrelated source (splice (withRamdisk source compressed) 576 digest) := by
  have hpage := h.le_page
  have hoffset := page_le_offset source
  have hroom := h.room
  have hlen := h.length_withRamdisk
  have hfit : 576 + digest.length ≤ (withRamdisk source compressed).length := by
    omega
  refine ⟨?_, ?_, ?_, ?_⟩
  · apply List.ext_getElem?
    intro i
    rw [List.getElem?_take, List.getElem?_take]
    split_ifs with hi
    · rw [getElem?_splice hfit (by omega), h.getElem?_withRamdisk (by omega), if_neg (by omega)]
    · rfl
  · rw [slice_splice_of_disjoint hfit (by omega), slice_eq_iff]
    intro i hi
    rw [h.getElem?_withRamdisk (by omega), if_neg (by omega)]
  · rw [slice_eq_iff]
    intro i hi
    rw [h.getElem?_image hdigest (by omega), if_neg (by omega)]
  · apply List.ext_getElem?
    intro i
    rw [List.getElem?_drop, List.getElem?_drop, h.getElem?_image hdigest (by omega),
      if_neg (by omega)]

/-- With its header in order and its id right, the source is accepted. -/
theorem exists_prepare (hmagic : source.take 8 = ANDROID) (hversion : u32 source 40 = 2)
    (hramdisk : 0 < u32 source RAMDISK)
    (hid : imageId (pageOf source) source = some (slice source 576 20)) {archive : Bytes}
    (hinflate : codec.inflate (slice source (ramdiskOffset source) (u32 source RAMDISK)) =
      some archive) (harchive : archive.length ≤ MAX_ARCHIVE) :
    ∃ image, prepare codec source compressed = some image := by
  obtain ⟨digest, hdigest⟩ := exists_imageId h
  have hpage := h.le_page
  have hoffset := page_le_offset source
  have hroom := h.room
  have hlen := h.length_withRamdisk
  obtain ⟨hlength, -⟩ := imageId_splice (by omega) (by omega) hdigest
  have hrebuild := h.rebuilds
  rw [hinflate, Option.bind_some] at hrebuild
  have hbounds : 0 < source.length ∧ source.length ≤ MAX_ARCHIVE := ⟨by omega, h.small⟩
  have hheader : source.take 8 = ANDROID ∧ 1660 ≤ source.length := ⟨hmagic, by omega⟩
  refine ⟨splice (withRamdisk source compressed) 576 digest, ?_⟩
  simp only [prepare, guard, if_pos hbounds, if_pos hheader, if_pos hversion, if_pos h.page,
    if_pos (And.intro hramdisk h.room), hid, if_true, hinflate, if_pos harchive, hrebuild,
    if_pos (And.intro h.fitting h.unpacks), hdigest, if_pos (unrelated h hlength), pure,
    Option.bind_eq_bind, Option.bind_some]

end Checks

/-! ### A small image -/

/-- The check sum of a gzip member. -/
def crc32 (data : Bytes) : UInt32 :=
  (data.foldl (fun (crc : UInt32) b => (List.range 8).foldl
    (fun (crc : UInt32) _ => if crc &&& 1 = 1 then (crc >>> 1) ^^^ 0xedb88320 else crc >>> 1)
    (crc ^^^ b.toUInt32)) 0xffffffff) ^^^ 0xffffffff

/-- A gzip member with the data in one stored block. -/
def gzipStored (data : Bytes) : Bytes :=
  [0x1f, 0x8b, 8, 0, 0, 0, 0, 0, 0, 0xff, 1] ++
    (leBytes 2 data.length ++ leBytes 2 (65535 - data.length)) ++
    (data ++ (leBytes 4 (crc32 data).toNat ++ leBytes 4 data.length))

/-- Reads such members. -/
def unstore (bs : Bytes) : Option Bytes :=
  let data := (bs.drop 15).take (bs.length - 23)
  if gzipStored data = bs then some data else none

def storedCodec : Codec where
  inflate := unstore
  gunzip := unstore
  rebuild := rewrite

theorem length_gzipStored (data : Bytes) : (gzipStored data).length = data.length + 23 := by
  simp only [gzipStored, List.length_append, length_leBytes, List.length_cons, List.length_nil]
  omega

theorem unstore_gzipStored (data : Bytes) : unstore (gzipStored data) = some data := by
  have hdata : ((gzipStored data).drop 15).take ((gzipStored data).length - 23) = data := by
    rw [length_gzipStored, Nat.add_sub_cancel]
    have hfront : ([0x1f, 0x8b, 8, 0, 0, 0, 0, 0, 0, 0xff, 1] ++
        (leBytes 2 data.length ++ leBytes 2 (65535 - data.length)) : Bytes).length = 15 := by
      simp only [List.length_append, length_leBytes, List.length_cons, List.length_nil]
    rw [gzipStored, List.drop_left' hfront, List.take_left]
  rw [unstore, hdata, if_pos rfl]

/-- A header for a ramdisk of that size and a DTB of one byte. -/
def bootHeader (size : Nat) : Bytes :=
  ANDROID ++ (List.replicate 8 0 ++ (leBytes 4 size ++ (List.replicate 16 0 ++ (leBytes 4 2048 ++
    (leBytes 4 2 ++ (List.replicate 1604 0 ++ (leBytes 4 1 ++ List.replicate 396 0)))))))

/-- The image without its id. -/
def bareImage (archive : Bytes) : Bytes :=
  bootHeader (archive.length + 23) ++ (gzipStored archive ++
    (List.replicate (align 2048 (archive.length + 23) - (archive.length + 23)) 0 ++ [7]))

def bootImage (archive : Bytes) : Bytes :=
  splice (bareImage archive) 576 ((imageId 2048 (bareImage archive)).getD [])

/-- What the header of the small image says. -/
def HeaderFields (size : Nat) : Prop :=
  (bootHeader size).length = 2048 ∧ (bootHeader size).take 8 = ANDROID ∧
    u32 (bootHeader size) KERNEL = 0 ∧ u32 (bootHeader size) RAMDISK = size ∧
    u32 (bootHeader size) SECOND = 0 ∧ u32 (bootHeader size) DTBO = 0 ∧
    u32 (bootHeader size) DTB = 1 ∧ u32 (bootHeader size) 36 = 2048 ∧ u32 (bootHeader size) 40 = 2

instance (size : Nat) : Decidable (HeaderFields size) := inferInstanceAs (Decidable (_ ∧ _))

section Small

variable {archive : Bytes} (hheader : HeaderFields (archive.length + 23))

include hheader

theorem length_bareImage :
    (bareImage archive).length = 2048 + (align 2048 (archive.length + 23) + 1) := by
  have halign := le_align (by omega : 0 < 2048) (archive.length + 23)
  rw [bareImage, List.length_append, hheader.1, List.length_append, length_gzipStored,
    List.length_append, List.length_replicate, List.length_singleton]
  omega

theorem u32_bareImage {field : Nat} (hfield : field + 4 ≤ 2048) :
    u32 (bareImage archive) field = u32 (bootHeader (archive.length + 23)) field := by
  have hlen := hheader.1
  rw [u32, bareImage, slice_append_left (by omega), u32]

/-- One layout for the image with its id and without. -/
theorem layout_small {image : Bytes}
    (himage : ∀ f ∈ components, u32 image f = u32 (bareImage archive) f) :
    layout image 2048 components 2048 = [(2048, 0), (2048, archive.length + 23),
      (2048 + align 2048 (archive.length + 23), 0), (2048 + align 2048 (archive.length + 23), 0),
      (2048 + align 2048 (archive.length + 23), 1)] := by
  obtain ⟨-, -, hkernel, hramdisk, hsecond, hdtbo, hdtb, -, -⟩ := id hheader
  have hzero : align 2048 0 = 0 := rfl
  rw [layout_congr himage]
  simp only [components, layout]
  rw [u32_bareImage hheader (by decide), u32_bareImage hheader (by decide),
    u32_bareImage hheader (by decide), u32_bareImage hheader (by decide),
    u32_bareImage hheader (by decide), hkernel, hramdisk, hsecond, hdtbo, hdtb, hzero]
  simp only [Nat.add_zero]

end Small

/-- The small image with a small ramdisk is accepted; its DTB is the last byte. -/
theorem prepare_small {archive rebuilt : Bytes} (hheader : HeaderFields (archive.length + 23))
    (hsmall : archive.length ≤ 4096) (hrewrite : rewrite archive = some rebuilt)
    (hrebuilt : rebuilt.length ≤ 2000) :
    (∃ image, prepare storedCodec (bootImage archive) (gzipStored rebuilt) = some image) ∧
      roomEnd (bootImage archive) = 2048 + align 2048 (archive.length + 23) ∧
      shift (bootImage archive) (gzipStored rebuilt) =
        align 2048 (archive.length + 23) - align 2048 (rebuilt.length + 23) ∧
      (roomEnd (bootImage archive), 1) ∈ layout (bootImage archive) (pageOf (bootImage archive))
        [SECOND, DTBO, DTB] (roomEnd (bootImage archive)) ∧
      (bootImage archive)[roomEnd (bootImage archive)]? = some 7 := by
  have hlen := length_bareImage hheader
  have halign := le_align (by omega : 0 < 2048) (archive.length + 23)
  have hbareLayout := layout_small hheader (fun _ _ => rfl)
  obtain ⟨hboot, hmagic, hkernel, hramdisk, hsecond, hdtbo, hdtb, hpage, hversion⟩ := id hheader
  -- the components are inside, so that there is an id
  obtain ⟨digest, hdigest⟩ : ∃ digest, imageId 2048 (bareImage archive) = some digest := by
    rw [imageId, hbareLayout]
    simp only [idBytes]
    rw [if_pos (by omega), if_pos (by omega), if_pos (by omega), if_pos (by omega),
      if_pos (by omega)]
    exact ⟨_, rfl⟩
  have himage : bootImage archive = splice (bareImage archive) 576 digest := by
    rw [bootImage, hdigest, Option.getD_some]
  obtain ⟨hlength, hid⟩ := imageId_splice (by omega) (by omega) hdigest
  rw [← himage] at hid
  have hfit : 576 + digest.length ≤ (bareImage archive).length := by
    omega
  have hfield : ∀ f, f + 4 ≤ 576 ∨ 596 ≤ f ∧ f + 4 ≤ 2048 →
      u32 (bootImage archive) f = u32 (bootHeader (archive.length + 23)) f := by
    intro f hf
    rw [← u32_bareImage hheader (by omega), himage, u32,
      slice_splice_of_disjoint hfit (by omega), u32]
  have hpageOf : pageOf (bootImage archive) = 2048 := (hfield 36 (by omega)).trans hpage
  have hk : u32 (bootImage archive) KERNEL = 0 := (hfield KERNEL (by decide)).trans hkernel
  have hr : u32 (bootImage archive) RAMDISK = archive.length + 23 :=
    (hfield RAMDISK (by decide)).trans hramdisk
  have hlayout : layout (bootImage archive) 2048 components 2048 = _ :=
    layout_small hheader (by
      intro f hf
      simp only [components, List.mem_cons, List.not_mem_nil, or_false] at hf
      rcases hf with rfl | rfl | rfl | rfl | rfl
      all_goals
        rw [hfield _ (by decide), u32_bareImage hheader (by decide)])
  have hoffset : ramdiskOffset (bootImage archive) = 2048 := by
    rw [ramdiskOffset, hpageOf, hk]
    rfl
  have hcapacity : capacity (bootImage archive) = align 2048 (archive.length + 23) := by
    rw [capacity, hpageOf, hr]
  have hsource : (bootImage archive).length =
      2048 + (align 2048 (archive.length + 23) + 1) := by
    rw [himage, length_splice hfit, hlen]
  have hbound : align 2048 (archive.length + 23) ≤ 8192 :=
    align_mono (n := 8192) (by omega)
  have hold : slice (bootImage archive) 2048 (archive.length + 23) = gzipStored archive := by
    rw [himage, slice_splice_of_disjoint hfit (by omega), bareImage]
    exact slice_mid hboot (length_gzipStored archive)
  have hbyte : (bootImage archive)[2048 + align 2048 (archive.length + 23)]? = some 7 := by
    rw [himage, getElem?_splice hfit (by omega), bareImage,
      List.getElem?_append_right (by omega), List.getElem?_append_right (by
        rw [length_gzipStored]
        omega), List.getElem?_append_right (by
        rw [length_gzipStored, List.length_replicate]
        omega), length_gzipStored, List.length_replicate, hboot]
    have hindex : 2048 + align 2048 (archive.length + 23) - 2048 - (archive.length + 23) -
        (align 2048 (archive.length + 23) - (archive.length + 23)) = 0 := by
      omega
    rw [hindex]
    rfl
  have hfitting : (gzipStored rebuilt).length ≤ capacity (bootImage archive) := by
    have hone : align 2048 1 ≤ align 2048 (archive.length + 23) := align_mono (by omega)
    have hpageful : align 2048 1 = 2048 := rfl
    rw [length_gzipStored, hcapacity]
    omega
  have hacc : Accepted storedCodec (bootImage archive) (gzipStored rebuilt) rebuilt := by
    refine ⟨?_, ?_, ?_, ?_, ?_, hfitting, unstore_gzipStored rebuilt⟩
    · rw [hsource]
      unfold MAX_ARCHIVE
      omega
    · rw [hpageOf]
      exact List.mem_cons_self
    · rw [hoffset, hcapacity, hsource]
      omega
    · rw [hpageOf, hlayout, hsource]
      intro c hc
      simp only [List.mem_cons, List.not_mem_nil, or_false] at hc
      rcases hc with rfl | rfl | rfl | rfl | rfl
      all_goals
        dsimp only
        omega
    · rw [hoffset, hr, hold]
      show (unstore (gzipStored archive)).bind rewrite = some rebuilt
      rw [unstore_gzipStored, Option.bind_some, hrewrite]
  have hend : roomEnd (bootImage archive) = 2048 + align 2048 (archive.length + 23) := by
    rw [roomEnd, hoffset, hcapacity]
  refine ⟨?_, hend, ?_, ?_, hend ▸ hbyte⟩
  · apply exists_prepare hacc
    · have htake : (bootImage archive).take 8 = (bootHeader (archive.length + 23)).take 8 := by
        have hbare : slice (bareImage archive) 0 8 = slice (bootHeader (archive.length + 23)) 0 8 :=
          slice_append_left (by omega)
        have hsplice : slice (splice (bareImage archive) 576 digest) 0 8 =
            slice (bareImage archive) 0 8 := slice_splice_of_disjoint hfit (by omega)
        rw [hbare, ← himage] at hsplice
        exact hsplice
      rw [htake, hmagic]
    · exact (hfield 40 (by omega)).trans hversion
    · rw [hr]
      omega
    · rw [hpageOf]
      exact hid
    · rw [hoffset, hr, hold]
      exact unstore_gzipStored archive
    · unfold MAX_ARCHIVE
      omega
  · rw [shift, hpageOf, hcapacity, length_gzipStored]
  · have hlater : layout (bootImage archive) 2048 [SECOND, DTBO, DTB]
        (2048 + align 2048 (archive.length + 23)) =
          [(2048 + align 2048 (archive.length + 23), 0),
            (2048 + align 2048 (archive.length + 23), 0),
            (2048 + align 2048 (archive.length + 23), 1)] := by
      have hall : layout (bootImage archive) 2048 components 2048 =
          (2048, u32 (bootImage archive) KERNEL) ::
            (2048 + align 2048 (u32 (bootImage archive) KERNEL), u32 (bootImage archive) RAMDISK) ::
              layout (bootImage archive) 2048 [SECOND, DTBO, DTB]
                (2048 + align 2048 (u32 (bootImage archive) KERNEL) +
                  align 2048 (u32 (bootImage archive) RAMDISK)) := rfl
      have hzero : align 2048 0 = 0 := rfl
      rw [hlayout, hk, hr, hzero, Nat.add_zero] at hall
      exact (List.cons.inj (List.cons.inj hall).2).2.symm
    rw [hpageOf, hend, hlater]
    exact List.mem_cons_of_mem _ (List.mem_cons_of_mem _ List.mem_cons_self)

/-- The ramdisk keeps its one page, and everything is reached. -/
theorem prepare_reachable_small :
    ∃ rebuilt image, prepare storedCodec (bootImage (followedBy [])) (gzipStored rebuilt) =
        some image ∧ Reachable storedCodec (bootImage (followedBy [])) image := by
  have hlength : (followedBy []).length = 672 := length_followedBy []
  obtain ⟨rebuilt, hrewrite⟩ := exists_rewrite [] (by rw [hlength]; decide)
  obtain ⟨hpos, hlen⟩ := length_rewrite_le hrewrite
  have hone : align 2048 (rebuilt.length + 23) = 2048 := by
    unfold align
    omega
  have hold : align 2048 ((followedBy []).length + 23) = 2048 := by
    rw [hlength]
    rfl
  have hheader : HeaderFields ((followedBy []).length + 23) := by
    rw [hlength]
    decide +kernel
  have hsmall : (followedBy []).length ≤ 4096 := by omega
  obtain ⟨⟨image, himage⟩, -, hshift, -⟩ := prepare_small hheader hsmall hrewrite hlen
  refine ⟨rebuilt, image, himage, (prepare_reachable_iff himage).mpr (repeats_of_shift ?_)⟩
  rw [hshift, hold, hone]

/-- A ramdisk of two pages that is rebuilt in one: the DTB is looked for a page too early. -/
theorem not_forall_reachable :
    ¬∀ codec source compressed image, prepare codec source compressed = some image →
      Reachable codec source image := by
  intro hall
  have hlength : (followedBy (List.replicate 2048 0)).length = 2720 := by
    rw [length_followedBy, List.length_replicate]
  have hmax : (followedBy (List.replicate 2048 0)).length ≤ MAX_ARCHIVE := by
    rw [hlength]
    decide
  have hold : align 2048 ((followedBy (List.replicate 2048 0)).length + 23) = 4096 := by
    rw [hlength]
    rfl
  have hheader : HeaderFields ((followedBy (List.replicate 2048 0)).length + 23) := by
    rw [hlength]
    decide +kernel
  have hsmall : (followedBy (List.replicate 2048 0)).length ≤ 4096 := by omega
  obtain ⟨rebuilt, hrewrite⟩ := exists_rewrite _ hmax
  obtain ⟨hpos, hlen⟩ := length_rewrite_le hrewrite
  have hone : align 2048 (rebuilt.length + 23) = 2048 := by
    unfold align
    omega
  generalize followedBy (List.replicate 2048 0) = archive at hold hheader hsmall hrewrite
  obtain ⟨⟨image, himage⟩, -, hshift, hdtb, hbyte⟩ := prepare_small hheader hsmall hrewrite hlen
  have hrepeats := (hall _ _ _ _ himage).repeats himage _ hdtb _ (Nat.le_refl _) (by omega)
  rw [hbyte, hshift, hold, hone, if_pos (by omega)] at hrepeats
  cases hrepeats

end EinkLab.RecoveryImage
