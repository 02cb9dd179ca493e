import EinkLab.Binary.Fields
import EinkLab.Binary.Splice

/-!
# Sparse images

`encodeRegion` of `sparse_image.py` writes one region of an image as an Android sparse image of the
whole partition: what is outside the region is skipped, runs of zero blocks are filled, everything
else is raw.

`parseSparse` and `applyChunks` are the other side, the standard rules of a device that is sent such
an image: RAW writes its bytes, FILL repeats its pattern of four bytes, SKIP leaves the blocks as
they are.
-/

namespace EinkLab.SystemImage

open EinkLab.Text EinkLab.Binary

abbrev BLOCK : Nat := 4096

inductive ChunkKind
  | RAW
  | FILL
  | SKIP
  deriving DecidableEq, Repr

def ChunkKind.code : ChunkKind → Nat
  | .RAW => 0xCAC1
  | .FILL => 0xCAC2
  | .SKIP => 0xCAC3

structure Chunk where
  kind : ChunkKind
  blocks : Nat
  body : Bytes
  deriving DecidableEq, Repr

/-! ### The encoder -/

/-- `data[begin * BLOCK:end * BLOCK]` -/
def blocksOf (data : Bytes) (start stop : Nat) : Bytes :=
  (data.drop (start * BLOCK)).take ((stop - start) * BLOCK)

/-- `data[i * BLOCK:(i + 1) * BLOCK] == zero` -/
def isZero (data : Bytes) (i : Nat) : Bool :=
  blocksOf data i (i + 1) == List.replicate BLOCK 0

/-- The inner loop: the end of the run of blocks that are zero, or not, as the first one. -/
def runEnd (data : Bytes) (count : Nat) (is_zero : Bool) (stop : Nat) : Nat :=
  if stop < count ∧ isZero data stop = is_zero then runEnd data count is_zero (stop + 1) else stop
termination_by count - stop

theorem le_runEnd (data : Bytes) (count : Nat) (is_zero : Bool) (stop : Nat) :
    stop ≤ runEnd data count is_zero stop := by
  fun_induction runEnd data count is_zero stop with
  | case1 stop h ih => omega
  | case2 stop h => omega

/-- The outer loop, from the block `start` on. -/
def runs (data : Bytes) (count start : Nat) : List Chunk :=
  if start < count then
    let is_zero := isZero data start
    let stop := runEnd data count is_zero (start + 1)
    { kind := if is_zero then .FILL else .RAW
      blocks := stop - start
      body := if is_zero then List.replicate 4 0 else blocksOf data start stop } ::
        runs data count stop
  else []
termination_by count - start
decreasing_by
  have := le_runEnd data count (isZero data start) (start + 1)
  omega

def skip (blocks : Nat) : List Chunk :=
  if blocks = 0 then [] else [⟨.SKIP, blocks, []⟩]

def regionChunks (data : Bytes) (start_block total_blocks : Nat) : List Chunk :=
  skip start_block ++ runs data (data.length / BLOCK) 0 ++
    skip (total_blocks - start_block - data.length / BLOCK)

def headerFields (total_blocks chunks : Nat) : List (Nat × Nat) :=
  [(4, 0xED26FF3A), (2, 1), (2, 0), (2, 28), (2, 12), (4, BLOCK), (4, total_blocks), (4, chunks),
    (4, 0)]

def Chunk.fields (c : Chunk) : List (Nat × Nat) :=
  [(2, c.kind.code), (2, 0), (4, c.blocks), (4, 12 + c.body.length)]

def packChunks : List Chunk → Option Bytes
  | [] => some []
  | c :: cs => do
    let header ← pack c.fields
    let rest ← packChunks cs
    return header ++ (c.body ++ rest)

/-- `encode_region`: `none` where it raises. -/
def encodeRegion (data : Bytes) (start_block total_blocks : Nat) : Option Bytes := do
  guard (data ≠ [] ∧ data.length % BLOCK = 0)
  guard (start_block + data.length / BLOCK ≤ total_blocks)
  let chunks := regionChunks data start_block total_blocks
  let header ← pack (headerFields total_blocks chunks.length)
  let body ← packChunks chunks
  return header ++ body

/-! ### The device -/

def kindOf (code : Nat) : Option ChunkKind :=
  if code = 0xCAC1 then some .RAW
  else if code = 0xCAC2 then some .FILL
  else if code = 0xCAC3 then some .SKIP
  else none

/-- The bytes that follow a chunk header. -/
def ChunkKind.bodyLength (kind : ChunkKind) (blocks : Nat) : Nat :=
  match kind with
  | .RAW => blocks * BLOCK
  | .FILL => 4
  | .SKIP => 0

/-- Reads that many chunks, each with the size its header declares, and nothing else. -/
def parseChunks : Nat → Bytes → Option (List Chunk)
  | 0, bs => if bs = [] then some [] else none
  | n + 1, bs => do
    let (fields, rest) ← unpack [2, 2, 4, 4] bs
    match fields with
    | [code, _, blocks, size] =>
      let kind ← kindOf code
      guard (size = 12 + kind.bodyLength blocks ∧ kind.bodyLength blocks ≤ rest.length)
      let cs ← parseChunks n (rest.drop (kind.bodyLength blocks))
      return ⟨kind, blocks, rest.take (kind.bodyLength blocks)⟩ :: cs
    | _ => none

/-- A sparse image of version 1 for a partition of `total` blocks: the counts and sizes that it
declares are those of its chunks. -/
def parseSparse (total : Nat) (bs : Bytes) : Option (List Chunk) := do
  let (fields, rest) ← unpack [4, 2, 2, 2, 2, 4, 4, 4, 4] bs
  match fields with
  | [magic, major, _, fileHeader, chunkHeader, block, blocks, chunks, _] =>
    guard (magic = 0xED26FF3A ∧ major = 1 ∧ fileHeader = 28 ∧ chunkHeader = 12 ∧ block = BLOCK)
    let cs ← parseChunks chunks rest
    guard (blocks = total ∧ (cs.map Chunk.blocks).sum = total)
    return cs
  | _ => none

/-- What a chunk writes, if it does. -/
def Chunk.written (c : Chunk) : Option Bytes :=
  match c.kind with
  | .RAW => some c.body
  | .FILL => some (List.replicate (c.blocks * (BLOCK / 4)) c.body).flatten
  | .SKIP => none

/-- Applies the chunks from the block `pos` on. -/
def applyChunks : List Chunk → Nat → Bytes → Bytes
  | [], _, p => p
  | c :: cs, pos, p =>
    applyChunks cs (pos + c.blocks) ((c.written.map (splice p (pos * BLOCK))).getD p)

/-- The blocks that the chunks write. -/
def Touches : List Chunk → Nat → Nat → Prop
  | [], _, _ => False
  | c :: cs, pos, i =>
    (c.kind ≠ .SKIP ∧ pos ≤ i ∧ i < pos + c.blocks) ∨ Touches cs (pos + c.blocks) i

end EinkLab.SystemImage
