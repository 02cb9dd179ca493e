import EinkLab.Frame.DeviceProfile
import EinkLab.SleepImage.Latch

/-!
# The native sleep-image catalog

`EinkSleepImageCatalog` (`eink_sleep_image_catalog.cpp`): at most eight images of the panel's
geometry, validated as a whole before they replace the snapshot.

Geometries are those of a product, so their area fits every size the source computes.
-/

namespace EinkLab

/-- The low nibble of every byte is clear. -/
def isPanelGray (pixels : List UInt8) : Bool := pixels.all fun pixel => pixel &&& 0x0f = 0

/-- `PanelBytesFor` -/
def EinkDeviceProfile.panelBytes (p : EinkDeviceProfile) : Nat := p.panelWidth * p.panelHeight

namespace EinkSleepImageCatalog

structure Entry where
  width : Int := 0
  height : Int := 0
  panelGray : List UInt8
  alpha : List UInt8
  rgba : List UInt8 := []
  deriving DecidableEq, Repr

inductive PublishResult
  | accepted | rejectedEmpty | rejectedCount | rejectedGeometry | rejectedBytes
  | rejectedPanelGray | rejectedAlphaBytes | rejectedSelection
  deriving DecidableEq, Repr

def kMaximumEntries : Nat := 8

/-- The alpha channel of packed RGBA. -/
def alphaChannel : List UInt8 → List UInt8
  | _ :: _ :: _ :: alpha :: rest => alpha :: alphaChannel rest
  | _ => []

/-- One round of the loop of `Validate`; `none` goes on. -/
def validateEntry (p : EinkDeviceProfile) (entry : Entry) : Option PublishResult :=
  if entry.width ≠ p.panelWidth || entry.height ≠ p.panelHeight then some .rejectedGeometry
  else if entry.panelGray.length ≠ p.panelBytes then some .rejectedBytes
  else if !isPanelGray entry.panelGray then some .rejectedPanelGray
  else if entry.alpha.length ≠ p.panelBytes then some .rejectedAlphaBytes
  else if entry.rgba.isEmpty then none
  else if !p.hasColorCfa || entry.rgba.length ≠ p.panelBytes * 4 then some .rejectedBytes
  else if alphaChannel entry.rgba ≠ entry.alpha then some .rejectedAlphaBytes
  else none

/-- `Validate` for the geometry `width × height`. -/
def validate (width height : Int) (entries : List Entry) : PublishResult :=
  if entries.isEmpty then .rejectedEmpty
  else if entries.length > kMaximumEntries then .rejectedCount
  else
    match findEinkDeviceProfile width.toNat height.toNat with
    | none => .rejectedGeometry
    | some p => (entries.findSome? (validateEntry p)).getD .accepted

end EinkSleepImageCatalog

open EinkSleepImageCatalog

/-- A catalog with its snapshot. -/
structure EinkSleepImageCatalog where
  expectedWidth : Int
  expectedHeight : Int
  snapshot : List Entry := []
  deriving DecidableEq, Repr

namespace EinkSleepImageCatalog

def publish (c : EinkSleepImageCatalog) (entries : List Entry) :
    PublishResult × EinkSleepImageCatalog :=
  match validate c.expectedWidth c.expectedHeight entries with
  | .accepted => (.accepted, { c with snapshot := entries })
  | result => (result, c)

def size (c : EinkSleepImageCatalog) : Nat := c.snapshot.length

def candidateAt (c : EinkSleepImageCatalog) (index : Nat) :
    SleepImageCandidate OwnedGrayscaleBuffer :=
  match c.snapshot[index]? with
  | none => {}
  | some entry =>
    { buffer := some ⟨entry.width, entry.height, entry.panelGray⟩
      alpha := some entry.alpha
      rgba := if entry.rgba.isEmpty then none else some entry.rgba
      width := c.expectedWidth
      height := c.expectedHeight }

/-- The selector that the conversion worker builds from a catalog. -/
def selector (c : EinkSleepImageCatalog) (index : Nat) : Selector OwnedGrayscaleBuffer :=
  fun width height =>
    let candidate := c.candidateAt index
    if candidate.width ≠ width || candidate.height ≠ height then {} else candidate

end EinkSleepImageCatalog

end EinkLab
