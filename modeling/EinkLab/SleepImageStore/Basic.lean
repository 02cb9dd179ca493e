import EinkLab.Files.Directory
import EinkLab.Text.Lines
import EinkLab.Transition.Program
import EinkLab.Transition.Run
import Mathlib.Algebra.Group.Nat.Defs
import Mathlib.Data.List.Lex

/-!
# The sleep-image store

`SleepImageStore`: the durable catalog of sleep images, a manifest and plane files in one directory.
A step of the store is one call of `openAndRepair`, `add`, `remove` or `setBuiltInRotation`; its
environment decides at each fault point whether an `IOException` is injected.  An early return is an
uncaught `IOException`.  What `System.nanoTime` reads during an `add` is an argument of it.

The store object keeps nothing between calls, so a process restart is no step at all.  Thumbnails
and the cover source, which only read a snapshot, are left out.
-/

namespace EinkLab

open Text Files Transition

/-! ### Names -/

abbrev EntryId := List Char

def MAXIMUM_ENTRIES : Nat := 8
def BUILT_IN_ID : EntryId := "built-in-fallback".toList
def BUILT_IN_ID_AURA_C_V1 : EntryId := "built-in-fallback-aura-c-v1".toList
def BUILT_IN_ID_AURA_C_V2 : EntryId := "built-in-fallback-aura-c-v2".toList
def MANIFEST : FileName := "catalog.v1".toList
def LEGACY_RETIRED : FileName := "legacy-b027-retired.v1".toList
def ENTRY_PREFIX : FileName := "entry-".toList

/-- `[A-Za-z0-9][A-Za-z0-9._-]{0,95}` -/
def safeId : EntryId → Bool
  | [] => false
  | c :: cs => c.isAlphanum && cs.length ≤ 95 &&
      cs.all fun c => c.isAlphanum || c = '.' || c = '_' || c = '-'

/-- The plane files of an entry. -/
inductive Plane
  | gray | alpha | rgba
  deriving DecidableEq, Repr

def Plane.suffix : Plane → FileName
  | .gray => ".gray".toList
  | .alpha => ".alpha".toList
  | .rgba => ".rgba".toList

def planeFile (plane : Plane) (id : EntryId) : FileName := ENTRY_PREFIX ++ id ++ plane.suffix

def grayFile : EntryId → FileName := planeFile .gray
def alphaFile : EntryId → FileName := planeFile .alpha
def rgbaFile : EntryId → FileName := planeFile .rgba

def temporaryName (name : FileName) : FileName := '.' :: name ++ ".tmp".toList

def manifestTemporary (generation : Int) : FileName :=
  ".catalog.v1.".toList ++ longText generation ++ ".tmp".toList

def RECOVERY : FileName := ".catalog.v1.recovery".toList

/-- A file of the retired one-directory format. -/
def isLegacyFile (name : FileName) : Bool :=
  "candidate-".toList.isPrefixOf name &&
    (".gray".toList.isSuffixOf name || ".alpha".toList.isSuffixOf name)

/-- A plane file of some entry. -/
def isEntryFile (name : FileName) : Bool :=
  ENTRY_PREFIX.isPrefixOf name &&
    (Plane.gray.suffix.isSuffixOf name || Plane.alpha.suffix.isSuffixOf name ||
      Plane.rgba.suffix.isSuffixOf name)

/-! ### Entries and snapshots -/

/-- A sleep image; only the built-in one may be taken out of the rotation. -/
structure Entry where
  id : EntryId
  builtIn : Bool
  rotationEnabled : Bool
  gray : Bytes
  alpha : Bytes
  rgba : Option Bytes
  rotates : builtIn = false → rotationEnabled = true
  deriving DecidableEq

/-- The constructor of `Entry`. -/
def Entry.new (id : EntryId) (builtIn rotationEnabled : Bool) (gray alpha : Bytes)
    (rgba : Option Bytes := none) : Entry where
  id := id
  builtIn := builtIn
  rotationEnabled := if builtIn then rotationEnabled else true
  gray := gray
  alpha := alpha
  rgba := rgba
  rotates h := by simp [h]

/-- The built-in entry with the rotation switched. -/
def Entry.withRotation (e : Entry) (enabled : Bool) : Entry :=
  Entry.new e.id true enabled e.gray e.alpha

structure Snapshot where
  generation : Int := 0
  entries : List Entry := []
  metadataConflict : Bool := false
  deriving DecidableEq

inductive MutationResult
  | committed | stale | finalCandidate | protectedEntry | ioFailure
  deriving DecidableEq, Repr

structure Mutation where
  result : MutationResult
  snapshot : Snapshot
  deriving DecidableEq

/-! ### The environment -/

inductive FaultPoint
  | gray | alpha | rgba | legacyRetirement | manifest
  deriving DecidableEq, Repr

/-- A fault point that was met, and whether the fault was injected. -/
abbrev FaultEvent := Answered FaultPoint fun _ => Bool

/-- A part of the store's work; an early return is an `IOException`. -/
abbrev Work := Procedure FaultPoint (fun _ => Bool) Directory

open Procedure

def before (operation : FaultPoint) : Work Unit := do
  let fault ← (call operation : Work Bool)
  refuseIf fault id

theorem safeId_BUILT_IN_ID_AURA_C_V2 : safeId BUILT_IN_ID_AURA_C_V2 = true := by decide

theorem named_BUILT_IN_ID_AURA_C_V2 : BUILT_IN_ID <+: BUILT_IN_ID_AURA_C_V2 :=
  ⟨"-aura-c-v2".toList, rfl⟩

/-! ### The store -/

/-- The panel geometry and the product's built-in id, which every product begins alike. -/
structure SleepImageStore where
  width : Nat
  height : Nat
  builtInId : EntryId
  builtInId_safe : safeId builtInId = true
  builtInId_named : BUILT_IN_ID <+: builtInId

namespace SleepImageStore

variable (store : SleepImageStore)

def bytes : Nat := store.width * store.height

/-- `validatePlanes` of planes that are not null. -/
def validPlanes (gray alpha : Bytes) : Bool :=
  gray.length = store.bytes && alpha.length = store.bytes && gray.all fun b => b &&& 0x0f = 0

def validatePlanes (gray alpha : Option Bytes) : Work (Bytes × Bytes) :=
  match gray, alpha with
  | some gray, some alpha => do
    refuseIf (!store.validPlanes gray alpha) id
    pure (gray, alpha)
  | _, _ => refuse id

/-- An RGBA plane that `add` refuses; the byte count must fit an `int`. -/
def invalidRgba : Option Bytes → Bool
  | none => false
  | some rgba => store.bytes * 4 ≥ 2 ^ 31 || rgba.length ≠ store.bytes * 4

def isLegacyBuiltInId (id : EntryId) : Bool :=
  (store.builtInId ≠ BUILT_IN_ID && id = BUILT_IN_ID) ||
    (store.builtInId = BUILT_IN_ID_AURA_C_V2 && id = BUILT_IN_ID_AURA_C_V1)

def findBuiltIn (entries : List Entry) : Option Nat :=
  entries.findIdx? fun e => e.id = store.builtInId

def findLegacyBuiltIn (entries : List Entry) : Option Nat :=
  entries.findIdx? fun e => e.builtIn && store.isLegacyBuiltInId e.id

def firstRemovable (entries : List Entry) : Option Nat :=
  entries.findIdx? fun e => e.id ≠ store.builtInId

/-- Remove the first removable entry `excess` times. -/
def removeFirst : Nat → List Entry → Option (List Entry)
  | 0, entries => some entries
  | excess + 1, entries => do
    let prune ← store.firstRemovable entries
    removeFirst excess (entries.eraseIdx prune)

/-- `while (size >= MAXIMUM_ENTRIES) remove(firstRemovable)`; `none` when nothing is removable. -/
def makeRoom (entries : List Entry) : Option (List Entry) :=
  store.removeFirst (entries.length + 1 - MAXIMUM_ENTRIES) entries

/-! ### Reading -/

/-- `readExact`; `none` is its `IOException`. -/
def readExact (d : Directory) (name : FileName) : Option Bytes :=
  (d.content name).filter fun content => content.length = store.bytes

def loadEntry (d : Directory) (id : EntryId) (builtIn rotationEnabled : Bool) : Option Entry := do
  let gray ← store.readExact d (grayFile id)
  let alpha ← store.readExact d (alphaFile id)
  if store.validPlanes gray alpha then some (Entry.new id builtIn rotationEnabled gray alpha)
  else none

/-- The reading of a manifest so far: the entries loaded and the ids seen. -/
structure Scan where
  entries : List Entry := []
  ids : List EntryId := []
  metadataConflict : Bool := false

/-- A line with two fields, or three when the rotation is given. -/
def scanFields (d : Directory) (scan : Scan) (id declared : List Char)
    (rotation : Option (List Char)) : Scan :=
  if !safeId id || id ∈ scan.ids then scan
  else if declared ≠ ['0'] ∧ declared ≠ ['1'] then { scan with ids := id :: scan.ids }
  else
    let declaredBuiltIn := decide (declared = ['1'])
    let authoritativeBuiltIn := decide (id = store.builtInId)
    let legacyBuiltIn := store.isLegacyBuiltInId id && declaredBuiltIn
    let scan : Scan := { scan with
      ids := id :: scan.ids
      metadataConflict := scan.metadataConflict || declaredBuiltIn != authoritativeBuiltIn }
    let rotationEnabled := decide (rotation = none ∨ rotation = some ['1'])
    if rotation ≠ none ∧ rotation ≠ some ['0'] ∧ rotation ≠ some ['1'] then scan
    else
      let scan : Scan := { scan with
        metadataConflict := scan.metadataConflict || (!authoritativeBuiltIn && !rotationEnabled) }
      match store.loadEntry d id (authoritativeBuiltIn || legacyBuiltIn) rotationEnabled with
      | none => scan
      | some entry => { scan with entries := scan.entries ++ [entry] }

def scanLine (d : Directory) (scan : Scan) (line : List Char) : Scan :=
  match line.splitOn '\t' with
  | [id, declared] => store.scanFields d scan id declared none
  | [id, declared, rotation] => store.scanFields d scan id declared (some rotation)
  | _ => scan

/-- Lines are read until the catalog is full. -/
def scanLines (d : Directory) : Scan → List (List Char) → Scan
  | scan, [] => scan
  | scan, line :: lines =>
    if scan.entries.length < MAXIMUM_ENTRIES then scanLines d (store.scanLine d scan line) lines
    else scan

def HEADER : List Char := "generation=".toList

/-- The generation and the entry lines of a manifest; `none` when it is invalid. -/
def parseManifest (bytes : Bytes) : Option (Int × List (List Char)) :=
  match readLines (decodeUtf8 bytes) with
  | [] => none
  | header :: lines =>
    if HEADER.isPrefixOf header then
      match parseLong (header.drop HEADER.length) with
      | none => none
      | some generation => if generation ≤ 0 then none else some (generation, lines)
    else none

def readManifest (d : Directory) (manifest : FileName) : Snapshot :=
  match (d.content manifest).bind parseManifest with
  | none => {}
  | some (generation, lines) =>
    let scan := store.scanLines d {} lines
    { generation := generation, entries := scan.entries, metadataConflict := scan.metadataConflict }

def read (d : Directory) : Snapshot := store.readManifest d MANIFEST

/-- `readColorPlane`; the outer `none` is its `IOException`, the inner one its null. -/
def readColorPlane (d : Directory) (id : EntryId) : Option (Option Bytes) :=
  match d.content (rgbaFile id) with
  | none => some none
  | some rgba => if rgba.length = store.bytes * 4 then some (some rgba) else none

/-! ### Writing -/

def manifestLine (e : Entry) : List Char :=
  e.id ++ ['\t', if e.id = store.builtInId then '1' else '0', '\t',
    if e.id = store.builtInId ∧ e.rotationEnabled = false then '0' else '1']

def manifestBytes (generation : Int) (entries : List Entry) : Bytes :=
  encodeUtf8 (joinLines ((HEADER ++ longText generation) :: entries.map store.manifestLine))

def publishManifest (generation : Int) (entries : List Entry) (d : Directory) : Directory :=
  (d.write (manifestTemporary generation) (store.manifestBytes generation entries)).move
    (manifestTemporary generation) MANIFEST

def writeAtomic (target : FileName) (content : Bytes) (operation : FaultPoint) : Work Unit := do
  before operation
  modify fun d => (d.write (temporaryName target) content).move (temporaryName target) target

/-- The planes on disk are those of the entry. -/
def alreadyWritten (d : Directory) (e : Entry) : Bool :=
  store.readExact d (grayFile e.id) = some e.gray && store.readExact d (alphaFile e.id) =
    some e.alpha &&
    (e.rgba.isNone || store.readColorPlane d e.id = some e.rgba)

def writeColorPlane (e : Entry) : Work Unit :=
  match e.rgba with
  | none => pure ()
  | some rgba => do
    refuseIf (rgba.length ≠ store.bytes * 4) id
    writeAtomic (rgbaFile e.id) rgba .rgba

def writeEntry (e : Entry) : Work Unit := do
  refuseIf (!safeId e.id) id
  let d ← get
  if store.alreadyWritten d e then pure ()
  else do
    writeAtomic (grayFile e.id) e.gray .gray
    rescue
      (do
        writeAtomic (alphaFile e.id) e.alpha .alpha
        store.writeColorPlane e)
      (refuse fun d => d.delete (grayFile e.id))

def writeEntries : List Entry → Work Unit
  | [] => pure ()
  | e :: es => do
    refuseIf (!store.validPlanes e.gray e.alpha) id
    store.writeEntry e
    writeEntries es

/-- Delete the plane files that belong to none of the retained entries. -/
def pruneUnreferenced (retained : List Entry) (d : Directory) : Directory :=
  let names := retained.flatMap fun e => [grayFile e.id, alphaFile e.id, rgbaFile e.id]
  d.deleteAll (d.listFiles fun name => isEntryFile name && !names.contains name)

/-! ### The retired format -/

def PENDING : Bytes := encodeUtf8 "pending\n".toList
def RETIRED : Bytes := encodeUtf8 "retired\n".toList

def publishLegacyMarker (content : Bytes) (d : Directory) : Directory :=
  (d.write (temporaryName LEGACY_RETIRED) content).move
    (temporaryName LEGACY_RETIRED) LEGACY_RETIRED

/-- The marker is first published as a replayable transaction containing the exact generation
manifest. -/
def publishPendingLegacyRetirement (generation : Int) (entries : List Entry) : Work Unit := do
  before .legacyRetirement
  modify (publishLegacyMarker (PENDING ++ store.manifestBytes generation entries))

def deleteLegacyFiles (d : Directory) : Directory := d.deleteAll (d.listFiles isLegacyFile)

/-- Only after that manifest is durable is the same marker replaced by the retired state. -/
def completeLegacyRetirement (d : Directory) : Directory :=
  deleteLegacyFiles (publishLegacyMarker RETIRED d)

def hasLegacyFiles (d : Directory) : Bool := !(d.listFiles isLegacyFile).isEmpty

def isLegacyRetired (d : Directory) : Bool := d.content LEGACY_RETIRED = some RETIRED

/-- The manifest that a pending marker holds. -/
def pendingManifest (d : Directory) : Option Bytes :=
  match d.content LEGACY_RETIRED with
  | none => none
  | some content =>
    if content.length ≤ PENDING.length ∨ content.length > 2048 then none
    else if PENDING.isPrefixOf content then some (content.drop PENDING.length)
    else none

/-- The order of `String.compareTo`, by UTF-16 units. -/
def utf16 (name : FileName) : List Nat :=
  name.flatMap fun c =>
    if c.toNat < 0x10000 then [c.toNat]
    else [0xd800 + (c.toNat - 0x10000) / 0x400, 0xdc00 + (c.toNat - 0x10000) % 0x400]

/-- One candidate of the retired format, as the next entry. -/
def addLegacyEntry (d : Directory) (result : List Entry) (grayName : FileName) : List Entry :=
  if result.length ≥ MAXIMUM_ENTRIES - 1 then result
  else
    let alphaName := grayName.take (grayName.length - ".gray".length) ++ ".alpha".toList
    let alpha :=
      if d.isFile alphaName then store.readExact d alphaName
      else some (List.replicate store.bytes 0xff)
    match store.readExact d grayName, alpha with
    | some gray, some alpha =>
      if store.validPlanes gray alpha then
        result ++
          [Entry.new ("legacy-".toList ++ Nat.toDigits 10 result.length) false true gray alpha]
      else result
    | _, _ => result

def legacyEntries (d : Directory) : List Entry :=
  let grayFiles := d.listFiles fun name =>
    "candidate-".toList.isPrefixOf name && ".gray".toList.isSuffixOf name
  (grayFiles.mergeSort fun a b => utf16 a ≤ utf16 b).foldl (store.addLegacyEntry d) []

def recoverPendingLegacyRetirement : Work Unit := do
  let d ← get
  match pendingManifest d with
  | none => pure ()
  | some manifest => do
    modify fun d => d.write RECOVERY manifest
    let d ← get
    let pending := store.readManifest d RECOVERY
    modify fun d => d.delete RECOVERY
    refuseIf (pending.entries.isEmpty || pending.metadataConflict) id
    let d ← get
    let current := store.read d
    onlyIf (current.entries.isEmpty || current.generation ≤ pending.generation)
      (modify (store.publishManifest pending.generation pending.entries))
    modify completeLegacyRetirement

/-! ### Operations -/

def commitEntries (oldGeneration : Int) (next : List Entry) (retireLegacy : Bool) :
    Work Snapshot := do
  refuseIf (next.isEmpty || next.length > MAXIMUM_ENTRIES) id
  let generation := longSucc oldGeneration
  store.writeEntries next
  onlyIf retireLegacy (store.publishPendingLegacyRetirement generation next)
  before .manifest
  modify (store.publishManifest generation next)
  onlyIf retireLegacy (modify completeLegacyRetirement)
  let d ← get
  let committed := store.read d
  modify (pruneUnreferenced committed.entries)
  pure committed

/-- `remove(index)` of an entry that was found. -/
def eraseFound (entries : List Entry) : Option Nat → List Entry
  | none => entries
  | some index => entries.eraseIdx index

/-- The entries of a catalog whose built-in entry is missing or in conflict; `none` when there is no
room for the built-in entry. -/
def repairedEntries (entries : List Entry) (gray alpha : Bytes) : Option (List Entry) :=
  let legacyBuiltIn := store.findLegacyBuiltIn entries
  let rotationEnabled := (legacyBuiltIn.bind (entries[·]?)).all Entry.rotationEnabled
  let repaired := eraseFound entries legacyBuiltIn
  if (store.findBuiltIn repaired).isSome then some repaired
  else (store.makeRoom repaired).map fun room =>
    Entry.new store.builtInId true rotationEnabled gray alpha :: room

/-- The entries of a new catalog: those of the retired format and the built-in one. -/
def migratedEntries (d : Directory) (gray alpha : Bytes) : List Entry :=
  let migrated := if isLegacyRetired d then [] else store.legacyEntries d
  if migrated.length < MAXIMUM_ENTRIES then
    Entry.new store.builtInId true true gray alpha :: migrated
  else migrated

def openAndRepair (fallbackGray fallbackAlpha : Option Bytes) : Work Snapshot := do
  let (gray, alpha) ← store.validatePlanes fallbackGray fallbackAlpha
  store.recoverPendingLegacyRetirement
  let d ← get
  let snapshot := store.read d
  if !snapshot.entries.isEmpty && !snapshot.metadataConflict &&
      (store.findBuiltIn snapshot.entries).isSome then
    pure snapshot
  else if !snapshot.entries.isEmpty then
    match store.repairedEntries snapshot.entries gray alpha with
    | none => refuse id
    | some repaired => store.commitEntries snapshot.generation repaired false
  else
    store.commitEntries (max 0 snapshot.generation) (store.migratedEntries d gray alpha)
      (hasLegacyFiles d && !isLegacyRetired d)

/-- The id of the entry that `add` appends. -/
def generatedId (generation : Int) (nanos : UInt64) : EntryId :=
  'g' :: longText (longSucc generation) ++ '-' :: Nat.toDigits 10 nanos.toNat

/-- What a mutation returns when its commit fails. -/
def ioFailure : Work Mutation := do
  let d ← get
  pure ⟨.ioFailure, store.read d⟩

/-- Commit a mutation. -/
def commitMutation (generation : Int) (next : List Entry) : Work Mutation := do
  let committed ← store.commitEntries generation next false
  pure ⟨.committed, committed⟩

def add (expectedGeneration : Int) (gray alpha rgba : Option Bytes) (nanos : UInt64) :
    Work Mutation :=
  rescue
    (do
      let (gray, alpha) ← store.validatePlanes gray alpha
      let d ← get
      let current := store.read d
      if current.generation ≠ expectedGeneration then pure ⟨.stale, current⟩
      else
        match store.makeRoom current.entries with
        | none => pure ⟨.ioFailure, current⟩
        | some room => do
          refuseIf (store.invalidRgba rgba) id
          store.commitMutation current.generation
            (room ++ [Entry.new (generatedId current.generation nanos) false true gray alpha rgba]))
    store.ioFailure

/-- The last entry with the given id. -/
def lastIndexOf (id : EntryId) : List Entry → Option Nat
  | [] => none
  | e :: es =>
    match lastIndexOf id es with
    | some index => some (index + 1)
    | none => if e.id = id then some 0 else none

def remove (expectedGeneration : Int) (id : EntryId) : Work Mutation := do
  let d ← get
  let current := store.read d
  if current.generation ≠ expectedGeneration then pure ⟨.stale, current⟩
  else
    match lastIndexOf id current.entries with
    | none => pure ⟨.stale, current⟩
    | some selected =>
      if id = store.builtInId then pure ⟨.protectedEntry, current⟩
      else if current.entries.length ≤ 1 then pure ⟨.finalCandidate, current⟩
      else
        rescue (store.commitMutation current.generation (current.entries.eraseIdx selected))
          store.ioFailure

def setBuiltInRotation (expectedGeneration : Int) (enabled : Bool) : Work Mutation := do
  let d ← get
  let current := store.read d
  if current.generation ≠ expectedGeneration then pure ⟨.stale, current⟩
  else
    match store.findBuiltIn current.entries with
    | none => pure ⟨.ioFailure, current⟩
    | some selected =>
      rescue
        (store.commitMutation current.generation
          (current.entries.modify selected fun e => e.withRotation enabled))
        store.ioFailure

/-! ### The store as a labelled system -/

inductive Request
  | openAndRepair (fallbackGray fallbackAlpha : Option Bytes)
  | add (expectedGeneration : Int) (gray alpha rgba : Option Bytes) (nanos : UInt64)
  | remove (expectedGeneration : Int) (id : EntryId)
  | setBuiltInRotation (expectedGeneration : Int) (enabled : Bool)
  deriving DecidableEq

inductive Outcome
  | opened (snapshot : Snapshot)
  | threw
  | mutated (mutation : Mutation)
  deriving DecidableEq

def execute : Request → Work Outcome
  | .openAndRepair gray alpha => do
    let snapshot ← store.openAndRepair gray alpha
    pure (.opened snapshot)
  | .add expected gray alpha rgba nanos => do
    let mutation ← store.add expected gray alpha rgba nanos
    pure (.mutated mutation)
  | .remove expected id => do
    let mutation ← store.remove expected id
    pure (.mutated mutation)
  | .setBuiltInRotation expected enabled => do
    let mutation ← store.setBuiltInRotation expected enabled
    pure (.mutated mutation)

/-- A call with the answers of its environment. -/
structure StoreAction where
  request : Request
  calls : List FaultEvent

/-- A call that has ended, and the directory around it. -/
structure Executed where
  request : Request
  calls : List FaultEvent
  outcome : Outcome
  before : Directory
  after : Directory

/-- Calls follow one another; `calls` must be exactly the fault points met. -/
def system : System Directory StoreAction Executed where
  step d a :=
    ((store.execute a.request).run d |>.replay a.calls).map fun r =>
      (r.2, [⟨a.request, a.calls, r.1.getD .threw, d, r.2⟩])

end SleepImageStore

end EinkLab
