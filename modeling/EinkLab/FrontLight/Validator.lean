import EinkLab.FrontLight.Payload
import EinkLab.FrontLight.Workspace
import EinkLab.Text.Python
import EinkLab.Text.Utf8

/-!
# The calibration validator

`tools/validate-neo2-frontlight-calibration.py`.  The tool reads a file as UTF-8 and refuses one
that is not, so a file is here its text; the device reads the bytes of that text.  What `float`
reads as an infinity or as no number is not finite, and refused.
-/

namespace EinkLab.FrontLight

open Text Workspace

/-! ### Numbers -/

/-- An unsigned decimal number that fills the text. -/
def unsignedDecimal (text : List Char) : Option ℚ :=
  (pointed 10 decimalDigit text).bind fun (value, rest) =>
    (exponent 'e' 'E' rest).map fun e => value * 10 ^ e

/-- `float(text)`. -/
def pythonFloat (text : List Char) : Option ℚ :=
  (numberText text).bind fun number =>
    let (sign, number) := signed number
    (unsignedDecimal number).map (sign * ·)

/-! ### The values -/

/-- The lines that `load` reads.  `read_text` turns `\r\n` and `\r` into `\n`, which moves no line
end of `splitlines`. -/
def contentLines (file : List Char) : List (List Char) :=
    ((splitlines file).map strip).filter isContent

/-- A key is known, and stands only once. -/
def loadLine (values : Key → Option (List Char)) (line : List Char) :
    Option (Key → Option (List Char)) :=
  (keyValue line).bind fun (key, value) => (Key.ofText key).bind fun key =>
    if (values key).isSome then none else some (Function.update values key (some value))

/-- No key is missing. -/
def load (file : List Char) : Option (Key → List Char) :=
  ((contentLines file).foldlM loadLine fun _ => none).bind fun values =>
    if Key.all.all fun key => (values key).isSome then some fun key =>
      (values key).getD [] else none

/-! ### The checks -/

def isAlphanumeric (c : Char) : Bool := c.isDigit || c.isUpper || c.isLower

/-- `IDENTITY` -/
def isIdentity (text : List Char) : Bool :=
  1 ≤ text.length && text.length ≤ 160 &&
  text.all fun c => isAlphanumeric c || "._:+-".toList.contains c

/-- `ENDPOINT`, without two dots in a row. -/
def isEndpoint (text : List Char) : Bool :=
  "/sys/".toList.isPrefixOf text && 1 ≤ (text.drop 5).length &&
  ((text.drop 5).all fun c => isAlphanumeric c || "._:/-".toList.contains c) &&
  !(text.zip text.tail).any (· == ('.', '.'))

def integerArray (size : Nat) (value : List Char) : Bool :=
  match (value.splitOn ',').mapM pythonInt with
  | none => false
  | some parsed =>
    parsed.length == size && (parsed.all fun n => !(n < 0 || n > 65535)) && !hasDescent parsed

def powerArray (size : Nat) (value : List Char) : Bool :=
  match (value.splitOn ',').mapM pythonFloat with
  | none => false
  | some parsed => parsed.length == size && parsed.all fun power => !(power < 0)

def isPolicy (values : Key → List Char) : Bool :=
  match pythonFloat (values .maxPowerMultiple), pythonInt (values .warmPercentage) with
  | some maximum, some warmPercentage =>
    !(maximum ≤ 0 || maximum > 2) && !(warmPercentage < 1 || warmPercentage > 200)
  | _, _ => false

def isCalibrationFile (values : Key → List Char) : Bool :=
  values .schema == calibratedSchema &&
  isIdentity (values .calibrationId) &&
  isPolicy values &&
  isEndpoint (values .coldPrimaryPath) && isEndpoint (values .warmPrimaryPath) &&
  ((values .coldSecondaryPath).isEmpty || isEndpoint (values .coldSecondaryPath)) &&
  ((values .warmSecondaryPath).isEmpty || isEndpoint (values .warmSecondaryPath)) &&
  integerArray kFrontLightSteps (values .brightnessCodes) &&
  integerArray kFrontLightDrivePoints (values .driveCodes) &&
  powerArray kFrontLightSteps (values .coldPower) &&
  powerArray kFrontLightSteps (values .warmPower) &&
  powerArray kFrontLightDrivePoints (values .drivePower)

/-- The tool ends without an error. -/
def validate (file : List Char) : Bool := (load file).any isCalibrationFile

/-! ### The device -/

/-- The bytes of a file, as the device has them. -/
def deviceText (file : List Char) : List Char :=
  (encodeUtf8 file).map fun byte => Char.ofNat byte.toNat

/-- The payload is parsed, with numbers of any magnitude in range as for the tool, and its table is
valid. -/
def deviceAccepts (file : List Char) : Bool :=
  (parsePayloadWith anyRange (deviceText file)).any fun payload =>
    isValidFrontLightCalibration payload.calibration

end EinkLab.FrontLight
