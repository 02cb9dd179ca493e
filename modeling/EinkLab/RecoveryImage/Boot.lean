import EinkLab.Binary.Fields
import EinkLab.RecoveryImage.Ramdisk
import EinkLab.RecoveryImage.Sha1

/-!
# The recovery boot image

`main` of `prepare-aura-recovery.py`: the ramdisk of a boot image of header version 2 is replaced in
place, its size and the image id are written anew.

The decompressors are parameters: `inflate` is the `zlib.decompressobj` that reads the source,
`gunzip` the `gzip.decompress` that checks the output of the external compressor.  So is `rebuild`,
for which the tool has `rewrite`.  The hash that the owner names is taken to be that of the source.
-/

namespace EinkLab.RecoveryImage

open EinkLab.Text EinkLab.Binary

/-- `struct.unpack_from('<I', image, field)[0]` -/
def u32 (image : Bytes) (field : Nat) : Nat := leNat (slice image field 4)

def align (page n : Nat) : Nat := (n + page - 1) / page * page

/-- The sizes of the kernel, the ramdisk, the second stage, the recovery DTBO and the DTB. -/
def KERNEL : Nat := 8
def RAMDISK : Nat := 16
def SECOND : Nat := 24
def DTBO : Nat := 1632
def DTB : Nat := 1648

/-- Where the components are: one behind the other, each aligned to the page. -/
def layout (image : Bytes) (page : Nat) : List Nat → Nat → List (Nat × Nat)
  | [], _ => []
  | field :: fields, position =>
    (position, u32 image field) ::
      layout image page fields (position + align page (u32 image field))

def components : List Nat := [KERNEL, RAMDISK, SECOND, DTBO, DTB]

/-- What the id is a digest of, component by component; `none` where one exceeds the image. -/
def idBytes (image : Bytes) : List (Nat × Nat) → Option Bytes
  | [] => some []
  | (position, size) :: rest =>
    if position + size ≤ image.length then
      (idBytes image rest).map (slice image position size ++ leBytes 4 size ++ ·)
    else none

def imageId (page : Nat) (image : Bytes) : Option Bytes :=
  (idBytes image (layout image page components page)).map sha1

structure Codec where
  inflate : Bytes → Option Bytes
  gunzip : Bytes → Option Bytes
  rebuild : Bytes → Option Bytes

def ANDROID : Bytes := ascii "ANDROID!"

/-- The page size of the image. -/
def pageOf (source : Bytes) : Nat := u32 source 36

/-- Where the ramdisk is. -/
def ramdiskOffset (source : Bytes) : Nat :=
  pageOf source + align (pageOf source) (u32 source KERNEL)

/-- The room there. -/
def capacity (source : Bytes) : Nat := align (pageOf source) (u32 source RAMDISK)

/-- The image with the new ramdisk and its size, before the id is written. -/
def withRamdisk (source compressed : Bytes) : Bytes :=
  splice
    (splice source (ramdiskOffset source)
      (compressed ++ List.replicate (capacity source - compressed.length) 0))
    RAMDISK (leBytes 4 compressed.length)

/-- The final check: nothing but the size, the id and the room of the ramdisk has changed. -/
def Unrelated (source image : Bytes) : Prop :=
  image.take 16 = source.take 16 ∧ slice image 20 556 = slice source 20 556 ∧
    slice image 596 (ramdiskOffset source - 596) = slice source 596 (ramdiskOffset source - 596) ∧
    image.drop (ramdiskOffset source + capacity source) =
      source.drop (ramdiskOffset source + capacity source)

instance (source image : Bytes) : Decidable (Unrelated source image) :=
  inferInstanceAs (Decidable (_ ∧ _))

/-- The written image; `none` where the tool refuses. -/
def prepare (codec : Codec) (source compressed : Bytes) : Option Bytes := do
  guard (0 < source.length ∧ source.length ≤ MAX_ARCHIVE)
  guard (source.take 8 = ANDROID ∧ 1660 ≤ source.length)
  guard (u32 source 40 = 2)
  let page := pageOf source
  guard (page ∈ [2048, 4096, 8192, 16384])
  guard (0 < u32 source RAMDISK ∧ ramdiskOffset source + capacity source ≤ source.length)
  let sourceId ← imageId page source
  guard (sourceId = slice source 576 20)
  let archive ← codec.inflate (slice source (ramdiskOffset source) (u32 source RAMDISK))
  guard (archive.length ≤ MAX_ARCHIVE)
  let rebuilt ← codec.rebuild archive
  guard (compressed.length ≤ capacity source ∧ codec.gunzip compressed = some rebuilt)
  let image := withRamdisk source compressed
  let digest ← imageId page image
  let image := splice image 576 digest
  guard (Unrelated source image)
  return image

end EinkLab.RecoveryImage
