import EinkLab.FrontLight.Policy
import EinkLab.Text.Fields

/-!
# The front-light payload

`ParsePayload` of `frontlight_direct_backend.cpp`.  A text has one character for each byte of the
file.  A number that is read is kept as the exact rational.  Which numbers `strtod` reports as out
of range is a parameter (`inRange`), as the standard leaves a part of it open; `inDoubleRange` is
that of the device's C library.  What `strtod` reads as an infinity or as no number is not finite,
and refused.
-/

namespace EinkLab.FrontLight

open Text

structure Payload where
  calibration : FrontLightCalibration := {}
  calibrationId : List Char := []
  coldPrimaryPath : List Char := []
  coldSecondaryPath : List Char := []
  warmPrimaryPath : List Char := []
  warmSecondaryPath : List Char := []
  maxPowerMultiple : ℚ := 0
  warmPercentage : Int := 100
  directCodes : Bool := false
  deriving DecidableEq

/-! ### Numbers -/

def IsInt (n : Int) : Prop := -2 ^ 31 ≤ n ∧ n ≤ 2 ^ 31 - 1

instance (n : Int) : Decidable (IsInt n) := inferInstanceAs (Decidable (_ ∧ _))

def parseInt (value : List Char) : Option Int := (decimalInt value).filter fun n => IsInt n

/-- A sign and what stands after it. -/
def signed (text : List Char) : ℚ × List Char :=
  match text with
  | '-' :: text => (-1, text)
  | '+' :: text => (1, text)
  | text => (1, text)

/-- An exponent that fills the rest of the text, after one of two marks; `0` where the text ends. -/
def exponent (lower upper : Char) : List Char → Option Int
  | [] => some 0
  | mark :: text =>
    if mark = lower ∨ mark = upper then
      match text with
      | '+' :: digits => (decimalNat digits).map fun n => (n : Int)
      | _ => decimalInt text
    else none

def hexDigit (c : Char) : Option Nat :=
  if c.isDigit then some (c.toNat - 48)
  else if 'a' ≤ c ∧ c ≤ 'f' then some (c.toNat - 87)
  else if 'A' ≤ c ∧ c ≤ 'F' then some (c.toNat - 55)
  else none

/-- Digits of a base with a point somewhere: their value, how many stand after the point, and the
rest of the text; `none` when there is no digit. -/
def pointed (base : Nat) (digit : Char → Option Nat) (text : List Char) :
    Option (ℚ × List Char) :=
  let isDigit := fun c => (digit c).isSome
  let whole := text.takeWhile isDigit
  let (fraction, rest) :=
    match text.dropWhile isDigit with
    | '.' :: text => (text.takeWhile isDigit, text.dropWhile isDigit)
    | rest => ([], rest)
  let digits := (whole ++ fraction).filterMap digit
  if digits = [] then none
  else
    some ((digits.foldl (fun value d => value * base + d) 0 : Nat) / base ^ fraction.length, rest)

def decimalDigit (c : Char) : Option Nat := if c.isDigit then some (c.toNat - 48) else none

/-- An unsigned number of `strtod` that fills the text. -/
def unsignedDouble (text : List Char) : Option ℚ :=
  let decimal := (pointed 10 decimalDigit text).bind fun (value, rest) =>
    (exponent 'e' 'E' rest).map fun e => value * 10 ^ e
  match text with
  | '0' :: x :: text =>
    if x = 'x' ∨ x = 'X' then
      (pointed 16 hexDigit text).bind fun (value, rest) =>
        (exponent 'p' 'P' rest).map fun e => value * 2 ^ e
    else decimal
  | _ => decimal

/-- `strtod`, where it has read a number up to the end of the text.  No conversion leaves the cursor
at the start, which is the end of an empty text. -/
def strtod (value : List Char) : Option ℚ :=
  if value = [] then some 0
  else
    let (sign, text) := signed (value.dropWhile isSpace)
    (unsignedDouble text).map (sign * ·)

/-- The nearest double is finite, and it is zero only for zero and normal for all others; for the
rest `strtod` sets `ERANGE`. -/
def inDoubleRange (x : ℚ) : Bool :=
  |x| < 2 ^ 1024 - 2 ^ 970 && (x = 0 || (2 ^ 53 - 1) / 2 ^ 1075 ≤ |x|)

/-- Numbers of any magnitude are in range. -/
def anyRange : ℚ → Bool := fun _ => true

def parseDouble (inRange : ℚ → Bool) (value : List Char) : Option ℚ := (strtod value).filter inRange

/-! ### Arrays -/

/-- The values of the pieces before the first that is refused. -/
def parsePrefix {α : Type*} (parser : List Char → Option α) : List (List Char) → List α
  | [] => []
  | piece :: pieces =>
    match parser (trim piece) with
    | none => []
    | some value => value :: parsePrefix parser pieces

/-- Whether the array was read, and the array: where the number of pieces is right, the entries
before the first refused piece are written in any case. -/
def parseArray {α : Type*} {n : Nat} (parser : List Char → Option α) (value : List Char)
    (output : Vector α n) : Bool × Vector α n :=
  let pieces := value.splitOn ','
  if pieces.length ≠ n then (false, output)
  else
    let parsed := parsePrefix parser pieces
    (parsed.length == n, Vector.ofFn fun i => (parsed[i.val]?).getD (output.get i))

/-- A parsed integer that is an unsigned 16-bit value. -/
def parseCode (piece : List Char) : Option UInt16 :=
  (parseInt piece).bind fun n => if n < 0 ∨ n > 65535 then none else some (.ofNat n.toNat)

/-! ### Lines -/

inductive Key
  | schema | calibrationId | maxPowerMultiple | warmPercentage
  | coldPrimaryPath | coldSecondaryPath | warmPrimaryPath | warmSecondaryPath
  | brightnessCodes | coldPower | warmPower | driveCodes | drivePower
  deriving DecidableEq, Repr

def Key.all : List Key :=
  [.schema, .calibrationId, .maxPowerMultiple, .warmPercentage,
   .coldPrimaryPath, .coldSecondaryPath, .warmPrimaryPath, .warmSecondaryPath,
   .brightnessCodes, .coldPower, .warmPower, .driveCodes, .drivePower]

def Key.text : Key → List Char
  | .schema => "schema".toList
  | .calibrationId => "calibration_id".toList
  | .maxPowerMultiple => "max_power_multiple".toList
  | .warmPercentage => "warm_percentage".toList
  | .coldPrimaryPath => "cold_primary_path".toList
  | .coldSecondaryPath => "cold_secondary_path".toList
  | .warmPrimaryPath => "warm_primary_path".toList
  | .warmSecondaryPath => "warm_secondary_path".toList
  | .brightnessCodes => "brightness_codes".toList
  | .coldPower => "cold_power".toList
  | .warmPower => "warm_power".toList
  | .driveCodes => "drive_codes".toList
  | .drivePower => "drive_power".toList

def Key.ofText (text : List Char) : Option Key := Key.all.find? fun key => key.text == text

def calibratedSchema : List Char := "neo2-frontlight-v1".toList
def directSchema : List Char := "neo2-frontlight-direct-v1".toList

/-- The payload so far, and what was seen of it. -/
structure ParseState where
  payload : Payload := {}
  calibratedSchemaSeen : Bool := false
  directSchemaSeen : Bool := false
  brightnessSeen : Bool := false
  coldSeen : Bool := false
  warmSeen : Bool := false
  driveCodesSeen : Bool := false
  drivePowerSeen : Bool := false
  deriving DecidableEq

/-- A line that is to be read: neither empty nor a comment. -/
def isContent (line : List Char) : Bool := !line.isEmpty && line.head? != some '#'

/-- One key with its value. -/
def parseValue (inRange : ℚ → Bool) (s : ParseState) (value : List Char) :
    Key → Option ParseState
  | .schema => some { s with calibratedSchemaSeen := value == calibratedSchema,
                             directSchemaSeen := value == directSchema }
  | .calibrationId => some { s with payload := { s.payload with calibrationId := value } }
  | .maxPowerMultiple => (parseDouble inRange value).map fun parsed =>
      { s with payload := { s.payload with maxPowerMultiple := parsed } }
  | .warmPercentage => (parseInt value).map fun parsed =>
      { s with payload := { s.payload with warmPercentage := parsed } }
  | .coldPrimaryPath => some { s with payload := { s.payload with coldPrimaryPath := value } }
  | .coldSecondaryPath => some { s with payload := { s.payload with coldSecondaryPath := value } }
  | .warmPrimaryPath => some { s with payload := { s.payload with warmPrimaryPath := value } }
  | .warmSecondaryPath => some { s with payload := { s.payload with warmSecondaryPath := value } }
  | .brightnessCodes =>
      let (seen, codes) := parseArray parseCode value s.payload.calibration.brightnessCodes
      some { s with brightnessSeen := seen, payload.calibration.brightnessCodes := codes }
  | .coldPower =>
      let (seen, power) := parseArray (parseDouble inRange) value s.payload.calibration.coldPower
      some { s with coldSeen := seen, payload.calibration.coldPower := power }
  | .warmPower =>
      let (seen, power) := parseArray (parseDouble inRange) value s.payload.calibration.warmPower
      some { s with warmSeen := seen, payload.calibration.warmPower := power }
  | .driveCodes =>
      let (seen, codes) := parseArray parseCode value s.payload.calibration.driveCodes
      some { s with driveCodesSeen := seen, payload.calibration.driveCodes := codes }
  | .drivePower =>
      let (seen, power) := parseArray (parseDouble inRange) value s.payload.calibration.drivePower
      some { s with drivePowerSeen := seen, payload.calibration.drivePower := power }

def parseLine (inRange : ℚ → Bool) (s : ParseState) (rawLine : List Char) : Option ParseState :=
  let line := trim rawLine
  if !isContent line then some s
  else
    (keyValue line).bind fun (key, value) => (Key.ofText key).bind (parseValue inRange s value)

/-! ### The whole file -/

/-- What is asked of either schema. -/
def ParseState.commonValid (s : ParseState) : Bool :=
  !s.payload.calibrationId.isEmpty && s.brightnessSeen &&
  !s.payload.coldPrimaryPath.isEmpty && !s.payload.warmPrimaryPath.isEmpty

def ParseState.isDirect (s : ParseState) : Bool :=
  s.directSchemaSeen && !s.calibratedSchemaSeen && s.commonValid &&
  !s.coldSeen && !s.warmSeen && !s.driveCodesSeen && !s.drivePowerSeen &&
  s.payload.maxPowerMultiple == 0

def ParseState.isCalibrated (s : ParseState) : Bool :=
  s.calibratedSchemaSeen && !s.directSchemaSeen && s.commonValid &&
  s.coldSeen && s.warmSeen && s.driveCodesSeen && s.drivePowerSeen &&
  s.payload.maxPowerMultiple > 0 && s.payload.warmPercentage > 0

def ParseState.finish (s : ParseState) : Option Payload :=
  if s.isDirect then
    if isValidFrontLightBrightnessCodes s.payload.calibration.brightnessCodes then
      some { s.payload with directCodes := true }
    else none
  else if s.isCalibrated then some s.payload
  else none

def parsePayloadWith (inRange : ℚ → Bool) (contents : List Char) : Option Payload :=
  ((contents.splitOn '\n').foldlM (parseLine inRange) {}).bind ParseState.finish

def parsePayload (contents : List Char) : Option Payload := parsePayloadWith inDoubleRange contents

end EinkLab.FrontLight
