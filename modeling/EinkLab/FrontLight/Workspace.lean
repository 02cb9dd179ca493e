import EinkLab.FrontLight.Payload

/-!
# The owner's front-light payload

`calibration` of `tools/aura-workspace.py`: the payload that the workspace tool writes from a list
of brightness codes, or `none` where it raises an error.
-/

namespace EinkLab.FrontLight.Workspace

open Text

def base : List Char := "/sys/devices/platform/11009000.i2c/i2c-2/".toList

/-- The brightness node of a channel of one of the two controllers. -/
def endpointPath (chip node : List Char) : List Char :=
  base ++ "2-".toList ++ chip ++ "/".toList ++ node ++ "_brightness".toList

def primary : List Char := "0036".toList
def secondary : List Char := "0038".toList
def cold : List Char := "b".toList
def warm : List Char := "a".toList

/-- Comma-separated decimal numbers. -/
def codesText (levels : List Int) : List Char := [','].intercalate (levels.map longText)

def calibrationLines (levels : List Int) : List (List Char) :=
  ["schema=neo2-frontlight-direct-v1".toList,
   "calibration_id=owner-aura-c".toList,
   "brightness_codes=".toList ++ codesText levels,
   "cold_primary_path=".toList ++ endpointPath primary cold,
   "cold_secondary_path=".toList ++ endpointPath secondary cold,
   "warm_primary_path=".toList ++ endpointPath primary warm,
   "warm_secondary_path=".toList ++ endpointPath secondary warm]

def calibrationText (levels : List Int) : List Char := joinLines (calibrationLines levels)

/-- `a >= b` for some neighbours. -/
def hasDescent (levels : List Int) : Bool := (levels.zip levels.tail).any fun (a, b) => a ≥ b

def calibration (levels : List Int) : Option (List Char) :=
  if levels.length ≠ 31 || levels.any (fun v => !(0 ≤ v && v ≤ 255)) || levels.head? != some 0 ||
      hasDescent levels then none
  else some (calibrationText levels)

/-- What the device asks of the same list. -/
structure DeviceReads (levels : List Int) : Prop where
  length : levels.length = 31
  range : ∀ v ∈ levels, 0 ≤ v ∧ v ≤ 65535
  head : levels.head? = some 0
  increasing : hasDescent levels = false

end EinkLab.FrontLight.Workspace
