import EinkLab.Search.FirstMinimum
import Mathlib.Algebra.Order.Field.Rat
import Mathlib.Algebra.Order.Group.Unbundled.Abs
import Mathlib.Data.List.OfFn

/-!
# The front-light policy

`eink_frontlight_policy.cpp`: how a request is resolved to the two drive codes, from a calibration
(tables of step codes, channel powers and drive powers) or directly from a table of step codes.
Powers are exact rationals, so every power is finite; codes are 16-bit, and their distances are
taken as integers, to which the source promotes them.
-/

namespace EinkLab.FrontLight

/-! ### Calibration tables -/

def kFrontLightSteps : Nat := 31
def kFrontLightDrivePoints : Nat := 252

abbrev BrightnessCodes := Vector UInt16 kFrontLightSteps

structure FrontLightCalibration where
  brightnessCodes : BrightnessCodes := .replicate _ 0
  coldPower : Vector ℚ kFrontLightSteps := .replicate _ 0
  warmPower : Vector ℚ kFrontLightSteps := .replicate _ 0
  driveCodes : Vector UInt16 kFrontLightDrivePoints := .replicate _ 0
  drivePower : Vector ℚ kFrontLightDrivePoints := .replicate _ 0
  deriving DecidableEq

instance : NeZero kFrontLightSteps := ⟨by decide⟩
instance : NeZero kFrontLightDrivePoints := ⟨by decide⟩

/-- The place of the value nearest to the target, the earlier one on a tie. -/
def nearestIndex {δ : Type*} [LinearOrder δ] [AddCommGroup δ] {n : Nat} [NeZero n]
    (values : Fin n → δ) (target : δ) : Fin n :=
  Search.firstMinimumFrom (fun i => |values i - target|) 0 (List.finRange n).tail

def isFiniteNonNegative (value : ℚ) : Bool := value ≥ 0

/-- Every entry is larger than the one before it. -/
def isIncreasing (codes : List UInt16) : Bool :=
  (codes.zip codes.tail).all fun (previous, code) => !(code ≤ previous)

def isValidFrontLightBrightnessCodes (codes : BrightnessCodes) : Bool :=
  codes.get 0 == 0 && isIncreasing codes.toList

def isValidFrontLightCalibration (calibration : FrontLightCalibration) : Bool :=
  isValidFrontLightBrightnessCodes calibration.brightnessCodes &&
  isIncreasing calibration.driveCodes.toList &&
  calibration.coldPower.all isFiniteNonNegative &&
  calibration.warmPower.all isFiniteNonNegative &&
  calibration.drivePower.all isFiniteNonNegative

/-! ### Resolution -/

structure FrontLightRequest where
  coldCode : Int
  warmCode : Int
  maxPowerMultiple : ℚ
  warmPercentage : Int
  deriving DecidableEq

structure FrontLightResolution where
  coldStep : Nat
  warmStep : Nat
  coldDriveStep : Nat
  warmDriveStep : Nat
  normalizedColdCode : UInt16
  normalizedWarmCode : UInt16
  coldDriveCode : UInt16
  warmDriveCode : UInt16
  requestedTotalPower : ℚ := 0
  appliedTotalPower : ℚ := 0
  appliedColdPower : ℚ := 0
  appliedWarmPower : ℚ := 0
  capped : Bool := false
  deriving DecidableEq

structure DirectFrontLightResolution where
  coldStep : Nat
  warmStep : Nat
  coldDriveCode : UInt16
  warmDriveCode : UInt16
  deriving DecidableEq, Repr

/-- `std::clamp`. -/
def clamp {α : Type*} [LinearOrder α] (value low high : α) : α :=
  if value < low then low else if high < value then high else value

/-- The place of the step code nearest to a raw code. -/
def nearestStep (codes : BrightnessCodes) (code : Int) : Fin kFrontLightSteps :=
  nearestIndex (fun i => ((codes.get i).toNat : Int)) (clamp code 0 65535)

def lastStep : Fin kFrontLightSteps := ⟨kFrontLightSteps - 1, by decide⟩

/-- The code of a step; every step that is asked for is in the table. -/
def stepCode (codes : BrightnessCodes) (step : Nat) : UInt16 :=
  if h : step < kFrontLightSteps then codes.get ⟨step, h⟩ else 0

def resolveDirectFrontLightPercent (codes : BrightnessCodes)
    (brightnessPercent warmthPercent : Int) :
    Option DirectFrontLightResolution :=
  if brightnessPercent < 0 || brightnessPercent > 100 || warmthPercent < 0 || warmthPercent > 100 ||
      !isValidFrontLightBrightnessCodes codes then none
  else
    let intensityStep := (brightnessPercent.toNat * (kFrontLightSteps - 1) + 50) / 100
    let warmStep := (intensityStep * warmthPercent.toNat + 50) / 100
    let coldStep := intensityStep - warmStep
    some
      { coldStep, warmStep
        coldDriveCode := stepCode codes coldStep
        warmDriveCode := stepCode codes warmStep }

/-- The warm power aimed at, before it is clamped to the total. -/
def warmTargetPower (appliedTotalPower : ℚ) (coldStep warmStep : Nat) (warmPercentage : Int) : ℚ :=
  let denominator := coldStep + warmStep
  let target := if denominator = 0 then 0 else appliedTotalPower * warmStep / denominator
  if warmStep > 20 then target * (warmPercentage / 100) else target

def resolveFrontLight (calibration : FrontLightCalibration) (request : FrontLightRequest) :
    Option FrontLightResolution :=
  if !isValidFrontLightCalibration calibration || request.maxPowerMultiple ≤ 0 ||
      request.warmPercentage ≤ 0 then none
  else
    let coldStep := nearestStep calibration.brightnessCodes request.coldCode
    let warmStep := nearestStep calibration.brightnessCodes request.warmCode
    let requestedTotalPower := calibration.coldPower.get coldStep +
      calibration.warmPower.get warmStep
    let maximumTotalPower := calibration.coldPower.get lastStep * request.maxPowerMultiple
    let appliedTotalPower := min requestedTotalPower maximumTotalPower
    let warmTarget := clamp
      (warmTargetPower appliedTotalPower coldStep warmStep request.warmPercentage) 0
      appliedTotalPower
    let warmDriveStep := nearestIndex calibration.drivePower.get warmTarget
    let resolvedWarmPower := calibration.drivePower.get warmDriveStep
    let coldTarget := max 0 (appliedTotalPower - resolvedWarmPower)
    let coldDriveStep := nearestIndex calibration.drivePower.get coldTarget
    some
      { coldStep, warmStep, coldDriveStep, warmDriveStep
        normalizedColdCode := calibration.brightnessCodes.get coldStep
        normalizedWarmCode := calibration.brightnessCodes.get warmStep
        coldDriveCode := calibration.driveCodes.get coldDriveStep
        warmDriveCode := calibration.driveCodes.get warmDriveStep
        requestedTotalPower, appliedTotalPower
        appliedColdPower := calibration.drivePower.get coldDriveStep
        appliedWarmPower := resolvedWarmPower
        capped := requestedTotalPower > maximumTotalPower }

def resolveFrontLightPercent (calibration : FrontLightCalibration)
    (brightnessPercent warmthPercent : Int) (maxPowerMultiple : ℚ) (warmPercentage : Int) :
    Option FrontLightResolution :=
  if brightnessPercent < 0 || brightnessPercent > 100 || warmthPercent < 0 || warmthPercent > 100 ||
      !isValidFrontLightCalibration calibration then none
  else
    let intensityStep := (brightnessPercent.toNat * (kFrontLightSteps - 1) + 50) / 100
    let coldStep := intensityStep * (100 - warmthPercent.toNat) / 100
    let warmStep := intensityStep * warmthPercent.toNat / 100
    resolveFrontLight calibration
      { coldCode := (stepCode calibration.brightnessCodes coldStep).toNat
        warmCode := (stepCode calibration.brightnessCodes warmStep).toNat
        maxPowerMultiple, warmPercentage }

end EinkLab.FrontLight
