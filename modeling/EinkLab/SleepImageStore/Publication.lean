import EinkLab.SleepImage.Transforms
import EinkLab.SleepImageStore.Basic

/-!
# What the catalog service publishes

`publication` of the store and `publishResult` of `SleepImageCatalogService`, from a snapshot to the
transactions with the manager.  Whether the shared memories of a candidate can be made is a part of
the input; an exception while a candidate is built ends the transaction.
-/

namespace EinkLab

open Text Files

namespace SleepImageStore

structure PublicationEntry where
  entry : Entry
  fallback : Bool
  eligible : Bool
  deriving DecidableEq

def KOREADER_COVER_ID : EntryId := "koreader-cover".toList

variable (store : SleepImageStore)

/-- The cover as an entry, if its planes are there and valid. -/
def coverEntry (coverGray coverAlpha : Option Bytes) : Option Entry :=
  match coverGray, coverAlpha with
  | some gray, some alpha =>
    if store.validPlanes gray alpha then some (Entry.new KOREADER_COVER_ID false true gray alpha)
    else none
  | _, _ => none

/-- The candidates of the ordinary modes, before one is made eligible. -/
def candidates (entries : List Entry) : List PublicationEntry :=
  entries.map fun e => ⟨e, e.builtIn, !e.builtIn || e.rotationEnabled⟩

def publication (snapshot : Snapshot) (coverMode : Bool) (coverGray coverAlpha : Option Bytes) :
    List PublicationEntry :=
  match store.findBuiltIn snapshot.entries with
  | none => []
  | some fallbackIndex =>
    match snapshot.entries[fallbackIndex]? with
    | none => []
    | some fallback =>
      if coverMode then
        match store.coverEntry coverGray coverAlpha with
        | some cover => [⟨fallback, true, false⟩, ⟨cover, false, true⟩]
        | none => [⟨fallback, true, true⟩]
      else
        let result := candidates snapshot.entries
        if result.any PublicationEntry.eligible then result
        else result.set fallbackIndex ⟨fallback, true, true⟩

/-- `colorPlane`; `none` is its `IOException`. -/
def colorPlane (d : Directory) (e : Entry) : Option Bytes :=
  match e.rgba with
  | some rgba => some rgba
  | none =>
    match store.readColorPlane d e.id with
    | none => none
    | some none =>
      some (SleepImageTransforms.rgbaBytes (SleepImageTransforms.expandGrayToRgba e.gray e.alpha))
    | some (some rgba) => some rgba

end SleepImageStore

open SleepImageTransforms

/-- The service of a product with a colour panel: its store, and `mFallback`. -/
structure SleepImageCatalogService where
  store : SleepImageStore
  hasColorCfa : Bool
  fallback : Option Planes

namespace SleepImageCatalogService

open SleepImageStore

def RESULT_OK : Int := 0
def RESULT_UNAVAILABLE : Int := 1
def RESULT_EMPTY : Int := 2
def REASON_NONE : Int := 0
def REASON_SHARED_MEMORY : Int := 2
def REASON_NO_VALID_CANDIDATE : Int := 3

def MODE_KOREADER_COVER : Int := 3

variable (service : SleepImageCatalogService)

def PROVIDER_PROTOCOL_VERSION : Int := if service.hasColorCfa then 5 else 4

/-- The bytes of a candidate's image plane. -/
def planeBytes : Nat := if service.hasColorCfa then service.store.bytes * 4 else service.store.bytes

/-- A candidate as it is sent, its planes in shared memories. -/
structure Transmitted where
  fallback : Bool
  eligible : Bool
  width : Int
  height : Int
  pixels : Bytes
  alpha : Bytes
  deriving DecidableEq

/-- A transaction with the manager's callback. -/
structure Transaction where
  version : Int
  requestGeneration : Int
  storeGeneration : Int
  result : Int
  reason : Int
  candidates : List Transmitted
  deriving DecidableEq

/-- The colour plane of planes, as bytes; null where they have none. -/
def rgbaOf (planes : Option Planes) : Option Bytes := (planes.bind Planes.rgba).map rgbaBytes

/-- The image plane of a candidate; `none` is an `IOException`. -/
def pixels (d : Directory) (cover : Option Planes) (c : PublicationEntry) : Option Bytes :=
  if service.hasColorCfa then
    let pixels :=
      if cover.isSome && !c.fallback then rgbaOf cover
      else if c.entry.builtIn && (rgbaOf service.fallback).isSome then rgbaOf service.fallback
      else service.store.colorPlane d c.entry
    pixels.filter fun pixels => pixels.length = service.store.bytes * 4
  else some c.entry.gray

/-- One round of the loop of `sendResult`. -/
def transmit (d : Directory) (memory : Bool) (cover : Option Planes) (c : PublicationEntry) :
    Option Transmitted :=
  (service.pixels d cover c).bind fun pixels =>
    if memory then
      some
        { fallback := c.fallback, eligible := c.eligible
          width := service.store.width, height := service.store.height
          pixels, alpha := c.entry.alpha }
    else none

/-- `sendResult`; `none` is its answer `false`, and `memory` says for which candidates there is
shared memory. -/
def sendResult (d : Directory) (memory : Nat → Bool)
    (requestGeneration storeGeneration result reason : Int)
    (candidates : List PublicationEntry) (cover : Option Planes) : Option Transaction :=
  let sent :=
    if result = RESULT_OK then
      candidates.zipIdx.mapM fun (c, index) => service.transmit d (memory index) cover c
    else some []
  sent.map fun sent =>
    { version := service.PROVIDER_PROTOCOL_VERSION
      requestGeneration, storeGeneration, result, reason, candidates := sent }

/-- `publishResult` once the snapshot is there and the cover, if it is asked for, is decoded. -/
def publishResult (d : Directory) (memory : Nat → Bool) (snapshot : Snapshot)
    (requestGeneration mode : Int) (decoded : Option Planes) : List Transaction :=
  let cover := if mode = MODE_KOREADER_COVER then decoded else none
  let publication := service.store.publication snapshot (mode = MODE_KOREADER_COVER)
    (cover.map Planes.gray) (cover.map Planes.alpha)
  if publication.isEmpty then
    (service.sendResult d memory requestGeneration snapshot.generation RESULT_EMPTY
      REASON_NO_VALID_CANDIDATE publication cover).toList
  else
    match service.sendResult d memory requestGeneration snapshot.generation RESULT_OK REASON_NONE
        publication cover with
    | some sent => [sent]
    | none =>
      (service.sendResult d memory requestGeneration snapshot.generation RESULT_UNAVAILABLE
        REASON_SHARED_MEMORY [] none).toList

end SleepImageCatalogService

end EinkLab
