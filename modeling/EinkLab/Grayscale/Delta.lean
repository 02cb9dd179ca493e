import EinkLab.Frame.Frame
import EinkLab.SleepImage.Latch
import Mathlib.Algebra.Group.Nat.Defs

/-!
# Differences between two grayscale planes

`MeasureGrayscaleDelta` and `ClassifyDeltaDirection` (`eink_grayscale_delta.cpp`), and
`CompareGrayscaleFidelity` (`eink_grayscale_fidelity.cpp`).  A null pointer is `none`; a pointer is
what may be read through it.  Counts are 64 bits wide and no larger than a byte count, so they are
natural numbers.  Left out: the coverage in parts per million and its buckets.
-/

namespace EinkLab

/-! ### The delta -/

structure GrayscaleDelta where
  changedPixels : Nat := 0
  lighterPixels : Nat := 0
  darkerPixels : Nat := 0
  totalPixels : Nat := 0
  left : Int := 0
  top : Int := 0
  right : Int := 0
  bottom : Int := 0
  deriving DecidableEq, Repr

inductive GrayscaleDeltaDirection
  | unavailable | lighter | darker | mixed
  deriving DecidableEq, Repr

def classifyDeltaDirection (delta : GrayscaleDelta) : GrayscaleDeltaDirection :=
  if delta.changedPixels = 0 || delta.lighterPixels + delta.darkerPixels ≠ delta.changedPixels then
    .unavailable
  else if delta.lighterPixels = delta.changedPixels then .lighter
  else if delta.darkerPixels = delta.changedPixels then .darker
  else .mixed

/-- One round of the loop of `MeasureGrayscaleDelta`. -/
def measureStep (previous current : List UInt8) (width : Nat) (delta : GrayscaleDelta)
    (index : Nat) : GrayscaleDelta :=
  if previous.getD index 0 = current.getD index 0 then delta
  else
    let lighter := current.getD index 0 > previous.getD index 0
    let x : Int := (index % width : Nat)
    let y : Int := (index / width : Nat)
    { delta with
      changedPixels := delta.changedPixels + 1
      lighterPixels := if lighter then delta.lighterPixels + 1 else delta.lighterPixels
      darkerPixels := if lighter then delta.darkerPixels else delta.darkerPixels + 1
      left := min delta.left x
      top := min delta.top y
      right := max delta.right (x + 1)
      bottom := max delta.bottom (y + 1) }

def measureGrayscaleDelta (previous current : Option (List UInt8)) (bytes : Nat)
    (width height : Int) : Option GrayscaleDelta :=
  match previous, current with
  | some previous, some current =>
    if width ≤ 0 || height ≤ 0 then none
    else if width.toNat > sizeMax / height.toNat || width.toNat * height.toNat ≠ bytes then none
    else
      let delta := (List.range bytes).foldl (measureStep previous current width.toNat)
        { totalPixels := bytes, left := width, top := height }
      if delta.changedPixels = 0 then
        some { delta with left := 0, top := 0, right := 0, bottom := 0 }
      else some delta
  | _, _ => none

/-! ### The fidelity comparison -/

structure GrayscaleFidelityResult where
  comparable : Bool := false
  exactMatch : Bool := false
  differingPixels : Nat := 0
  left : Int := 0
  top : Int := 0
  right : Int := 0
  bottom : Int := 0
  deriving DecidableEq, Repr

/-- The accumulators of `CompareGrayscaleFidelity`. -/
structure FidelityAccumulators where
  differingPixels : Nat := 0
  minX : Int := 2147483647
  minY : Int := 2147483647
  maxX : Int := -1
  maxY : Int := -1
  deriving DecidableEq, Repr

def compareStep (source snapshot : List UInt8) (width : Nat) (s : FidelityAccumulators)
    (x y : Nat) :
    FidelityAccumulators :=
  let offset := y * width + x
  if source.getD offset 0 = snapshot.getD offset 0 then s
  else
    { differingPixels := s.differingPixels + 1
      minX := min s.minX x
      minY := min s.minY y
      maxX := max s.maxX x
      maxY := max s.maxY y }

def compareGrayscaleFidelity (source snapshot : OwnedGrayscaleBuffer) : GrayscaleFidelityResult :=
  if source.width ≤ 0 || source.height ≤ 0 || source.width ≠ snapshot.width ||
      source.height ≠ snapshot.height || source.byteCount ≠ snapshot.byteCount then {}
  else if source.width.toNat > sizeMax / source.height.toNat ||
      source.byteCount ≠ source.width.toNat * source.height.toNat then {}
  else
    let s := (List.range source.height.toNat).foldl (fun s y =>
      (List.range source.width.toNat).foldl (fun s x =>
        compareStep source.pixels snapshot.pixels source.width.toNat s x y) s) {}
    if s.differingPixels = 0 then { comparable := true, exactMatch := true }
    else
      { comparable := true
        differingPixels := s.differingPixels
        left := s.minX
        top := s.minY
        right := s.maxX + 1
        bottom := s.maxY + 1 }

end EinkLab
