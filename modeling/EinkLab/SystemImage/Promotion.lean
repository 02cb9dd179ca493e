import EinkLab.SystemImage.Sparse
import EinkLab.Text.Hex
import EinkLab.Transition.Environment

/-!
# Promotion of a system image

The write loop of `promote-system-a.py` over the transport of `fastboot_transport.py`.  A procedure
makes the transfers of the USB endpoints as calls, and an early return is an exception.

`Device` is the other side: it stages what is downloaded, applies the staged sparse image on a flash
command, and answers that command OKAY only when all of it is applied.  Whatever else it sends, and
whichever transfer fails, is left open; while it flashes, the blocks that the image writes may hold
anything.
-/

namespace EinkLab.SystemImage

open EinkLab.Text EinkLab.Transition

/-! ### The transport -/

inductive Transfer
  | write (data : Bytes)
  | read
  deriving DecidableEq, Repr

/-- The number of bytes written, or the packet read, unless the transfer fails. -/
def Transfer.Reply : Transfer → Type
  | .write _ => Option Nat
  | .read => Option Bytes

/-- A procedure of the host.  Its state is what `streamed_hash` was fed with. -/
abbrev Fastboot (α : Type) := Procedure Transfer Transfer.Reply Bytes α

/-- An answered transfer. -/
abbrev Exchange := Answered Transfer Transfer.Reply

def OKAY : Bytes := ascii "OKAY"
def DATA : Bytes := ascii "DATA"
def INFO : Bytes := ascii "INFO"

namespace Fastboot

def raise {α : Type} : Fastboot α := Procedure.refuse id

/-- `if c: raise` -/
def raiseIf (c : Prop) [Decidable c] : Fastboot Unit := if c then raise else pure ()

def incoming : Fastboot (Option Bytes) := Procedure.call Transfer.read

def outgoing (data : Bytes) : Fastboot (Option Nat) := Procedure.call (Transfer.write data)

/-- `response`, with the reads that are left. -/
def responseWithin : Nat → Fastboot Bytes
  | 0 => raise
  | reads + 1 => do
    match ← incoming with
    | none => raise
    | some data =>
      if INFO.isPrefixOf data then responseWithin reads
      else if data.take 4 = OKAY ∨ data.take 4 = DATA then pure data
      else raise

def response : Fastboot Bytes := responseWithin 100

def write (data : Bytes) : Fastboot Unit := do
  let written ← outgoing data
  raiseIf (written ≠ some data.length)

def command (c : Bytes) : Fastboot Bytes := do
  write c
  response

def okay (c : Bytes) : Fastboot Unit := do
  let reply ← command c
  raiseIf ¬OKAY.isPrefixOf reply

/-- The slices of at most `MIB` bytes. -/
abbrev MIB : Nat := 1024 * 1024

/-- `for pos in range(0, len(data), 1024 * 1024)` -/
def writeSlices (data : Bytes) : Fastboot Unit :=
  if data = [] then pure ()
  else do
    write (data.take MIB)
    writeSlices (data.drop MIB)
termination_by data.length
decreasing_by
  rename_i hne
  have := List.length_pos_iff.mpr hne
  rw [List.length_drop]
  show data.length - 1048576 < data.length
  omega

def downloadCommand (size : Nat) : Bytes := ascii "download:" ++ hexText 8 size
def downloadReply (size : Nat) : Bytes := DATA ++ hexText 8 size
def flashCommand : Bytes := ascii "flash:system_a"

def download (data : Bytes) : Fastboot Unit := do
  let reply ← command (downloadCommand data.length)
  raiseIf (reply ≠ downloadReply data.length)
  writeSlices data
  let last ← response
  raiseIf ¬OKAY.isPrefixOf last

end Fastboot

/-! ### The write loop -/

open Fastboot

abbrev REGION_SIZE : Nat := 32 * 1024 * 1024

/-- `source.read(min(region_size, image_size - offset))` -/
def region (image : Bytes) (offset : Nat) : Bytes :=
  (image.drop offset).take (min REGION_SIZE (image.length - offset))

/-- The loop over the regions of the candidate, with the largest download of the device. -/
def writeRegions (image : Bytes) (maximum offset : Nat) : Fastboot Unit :=
  if offset < image.length then
    let data := region image offset
    if data = [] ∨ data.length % BLOCK ≠ 0 then raise
    else
      match encodeRegion data (offset / BLOCK) (image.length / BLOCK) with
      | none => raise
      | some sparse => do
        raiseIf (maximum < sparse.length)
        download sparse
        okay flashCommand
        Procedure.modify (· ++ data)
        writeRegions image maximum (offset + data.length)
  else pure ()
termination_by image.length - offset
decreasing_by
  rename_i hlt h
  have : 0 < (region image offset).length := List.length_pos_iff.mpr (not_or.mp h).1
  omega

/-- The write of `main`, where the contract names the hash of the candidate by `sha256`. -/
def promote (sha256 : Bytes → Bytes) (image : Bytes) (maximum : Nat) : Fastboot Unit := do
  raiseIf (maximum < REGION_SIZE + MIB)
  writeRegions image maximum 0
  let streamed ← Procedure.get
  raiseIf (sha256 streamed ≠ sha256 image)

/-! ### The device -/

inductive Phase
  | idle
  | granting (size : Nat)
  | receiving (size : Nat) (got : Bytes)
  | flashing (image before : Bytes)
  deriving DecidableEq, Repr

structure Device where
  partition : Bytes
  /-- The images received, the staged one first. -/
  downloads : List Bytes := []
  phase : Phase := .idle
  deriving DecidableEq, Repr

/-- The number of blocks of a partition. -/
def blockCount (p : Bytes) : Nat := p.length / BLOCK

/-- What a sparse image leaves when it is applied. -/
def Applied (image before after : Bytes) : Prop :=
  ∃ chunks, parseSparse (blockCount before) image = some chunks ∧
    after = applyChunks chunks 0 before

/-- What it can leave until then: only the blocks it writes differ. -/
def Applying (image before after : Bytes) : Prop :=
  after.length = before.length ∧
    ∀ i, (∀ chunks, parseSparse (blockCount before) image = some chunks → ¬Touches chunks 0 i) →
      blocksOf after i (i + 1) = blocksOf before i (i + 1)

namespace Device

/-- The device at work: a flash changes the partition. -/
inductive Works : Device → Device → Prop
  | rests (d : Device) : Works d d
  | flashes {d : Device} {image before after : Bytes} (hphase : d.phase = .flashing image before)
      (happlying : Applying image before after) : Works d { d with partition := after }

/-- What the device does with bytes from the host. -/
def hears (d : Device) (got : Bytes) : Device :=
  match d.phase with
  | .idle =>
    if got = flashCommand then
      match d.downloads with
      | [] => d
      | image :: _ => { d with phase := .flashing image d.partition }
    else if (ascii "download:").isPrefixOf got then
      match hexNat (got.drop 9) with
      | none => d
      | some size => { d with phase := .granting size }
    else d
  | .receiving size so_far => { d with phase := .receiving size (so_far ++ got) }
  | _ => d

/-- The device sends a packet. -/
def Sends (d : Device) (packet : Bytes) (d' : Device) : Prop :=
  match d.phase with
  | .idle => d' = d
  | .granting size =>
    d' = if packet = downloadReply size then { d with phase := .receiving size [] }
      else if INFO.isPrefixOf packet then d
      else { d with phase := .idle }
  | .receiving size got =>
    if OKAY.isPrefixOf packet then
      got.length = size ∧ d' = { d with downloads := got :: d.downloads, phase := .idle }
    else if INFO.isPrefixOf packet then d' = d
    else d' = { d with phase := .idle }
  | .flashing image before =>
    if OKAY.isPrefixOf packet then
      Applied image before d.partition ∧ d' = { d with phase := .idle }
    else if INFO.isPrefixOf packet then d' = d
    else d' = { d with phase := .idle }

/-- One transfer.  A write that fails, or ends short, may have brought any part of its bytes. -/
def Answers : Device → Exchange → Device → Prop
  | d, ⟨.write data, written⟩, d' =>
    ∃ m got, Works d m ∧ got <+: data ∧ (written = some data.length → got = data) ∧
      d' = m.hears got
  | d, ⟨.read, some packet⟩, d' => ∃ m, Works d m ∧ m.Sends packet d'
  | d, ⟨.read, none⟩, d' => Works d d'

end Device

end EinkLab.SystemImage
