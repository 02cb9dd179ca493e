import Mathlib.Data.List.Basic

/-!
# Device profiles

`EinkDeviceProfile` is the build-selected record of `eink_device_profile.h`: the immutable panel
and hardware-capability boundary of a product.  The paths and board switches that no modelled
function reads are left out.
-/

namespace EinkLab

inductive EinkDeviceVariant
  | neo2 | ocean | musnapX | auraC
  deriving DecidableEq, Repr

inductive LowerEngineGrayLayout
  | linear | adjacentRowPairsInterleaved
  deriving DecidableEq, Repr

/-- The immutable panel and hardware-capability record selected by the build. -/
structure EinkDeviceProfile where
  variant : EinkDeviceVariant
  panelWidth : Nat
  panelHeight : Nat
  presentationWidth : Nat
  presentationHeight : Nat
  presentationToPanelRotation : Int
  lowerEngineGrayLayout : LowerEngineGrayLayout
  hasColorCfa : Bool
  displayEnabledByDefault : Bool := false
  deriving DecidableEq, Repr

def neo2DeviceProfile : EinkDeviceProfile where
  variant := .neo2
  panelWidth := 1448
  panelHeight := 1072
  presentationWidth := 1072
  presentationHeight := 1448
  presentationToPanelRotation := 270
  lowerEngineGrayLayout := .linear
  hasColorCfa := false
  displayEnabledByDefault := true

def oceanDeviceProfile : EinkDeviceProfile where
  variant := .ocean
  panelWidth := 1264
  panelHeight := 1680
  presentationWidth := 1264
  presentationHeight := 1680
  presentationToPanelRotation := 0
  lowerEngineGrayLayout := .linear
  hasColorCfa := false

def musnapXDeviceProfile : EinkDeviceProfile where
  variant := .musnapX
  panelWidth := 1920
  panelHeight := 2560
  presentationWidth := 1920
  presentationHeight := 2560
  presentationToPanelRotation := 0
  lowerEngineGrayLayout := .adjacentRowPairsInterleaved
  hasColorCfa := false

def auraCDeviceProfile : EinkDeviceProfile where
  variant := .auraC
  panelWidth := 2480
  panelHeight := 1860
  presentationWidth := 1860
  presentationHeight := 2480
  presentationToPanelRotation := 270
  lowerEngineGrayLayout := .linear
  hasColorCfa := true
  displayEnabledByDefault := true

/-- The four qualified products, in the order `FindEinkDeviceProfile` tries them. -/
def deviceProfiles : List EinkDeviceProfile :=
  [neo2DeviceProfile, oceanDeviceProfile, musnapXDeviceProfile, auraCDeviceProfile]

/-- `FindEinkDeviceProfile(panel_width, panel_height)`. -/
def findEinkDeviceProfile (panelWidth panelHeight : Nat) : Option EinkDeviceProfile :=
  deviceProfiles.find? fun p => panelWidth = p.panelWidth && panelHeight = p.panelHeight

/-- The panel geometry identifies the product. -/
theorem findEinkDeviceProfile_panel {p : EinkDeviceProfile} (h : p ∈ deviceProfiles) :
    findEinkDeviceProfile p.panelWidth p.panelHeight = some p := by
  simp only [deviceProfiles, List.mem_cons, List.not_mem_nil, or_false] at h
  rcases h with rfl | rfl | rfl | rfl <;> decide

end EinkLab
