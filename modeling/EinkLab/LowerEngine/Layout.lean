import EinkLab.LowerEngine.Contract
import EinkLab.Plane.RowMajor
import EinkLab.SleepImage.Latch

/-!
# The loop of the row interleave

`InterleaveAdjacentGrayscaleRows` (`eink_lower_engine_layout.cpp`) with its pointers, its byte count
and the loop that writes the destination.  A null pointer is `none`.
-/

namespace EinkLab.LowerEngine.Layout

open RowMajor

/-- One row pair: pixel by pixel, a byte of the first row and a byte of the second. -/
def interleavePair (source : List UInt8) (width sourceY : Nat) (destination : List UInt8) :
    List UInt8 :=
  let firstRow := sourceY * width
  let secondRow := firstRow + width
  let controllerRow := sourceY / 2 * width * 2
  (List.range width).foldl (fun destination x =>
    let controllerX := controllerRow + x * 2
    (destination.set controllerX (source.getD (firstRow + x) 0)).set (controllerX + 1)
      (source.getD (secondRow + x) 0)) destination

/-- The result, and what the destination points to afterwards. -/
def interleaveAdjacentGrayscaleRows (source : Option (List UInt8)) (sourceBytes : Nat)
    (width height : Int) (destination : Option (List UInt8)) : Bool × Option (List UInt8) :=
  match source, destination with
  | some source, some vector =>
    if width ≤ 0 || height ≤ 0 || height % 2 ≠ 0 then (false, destination)
    else if width.toNat > sizeMax / height.toNat || sourceBytes ≠ width.toNat * height.toNat then
      (false, destination)
    else
      let written := (List.range' 0 (height.toNat / 2) 2).foldl (fun vector sourceY =>
        interleavePair source width.toNat sourceY vector) (resize 0 vector sourceBytes)
      (true, some written)
  | _, _ => (false, destination)

end EinkLab.LowerEngine.Layout
