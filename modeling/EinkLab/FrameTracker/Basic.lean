import EinkLab.Pipeline.Basic
import EinkLab.Pipeline.Converter
import EinkLab.Plane.RowMajor

/-!
# The RGB frame tracker and the demand gate

`RgbFrameTracker` (`eink_rgb_frame_tracker.cpp`) keeps the packed RGB pixels of the last image it
accepted and a generation, which is the signature it returns.  `FrameDemandGate` keeps the last
signature it evaluated.  The system (`Capture`) interleaves the calls of both in any order; the gate
is given the signature of the latest update, or it is not asked about that update at all.

The source memory is what `Update` reads of it.  A layout outside the enumeration is `none`.
`maxSize` is `max_size()` of the vector.  Left out: the diagnostic counters of the gate.
-/

namespace EinkLab

open Transition AndroidGrayscaleConverter

structure RgbFrameTracker where
  maxPixels : Nat
  previous : List UInt32 := []
  width : Int := 0
  height : Int := 0
  generation : Nat := 0
  deriving DecidableEq, Repr

namespace RgbFrameTracker

structure RgbaSource where
  pixels : Option (List UInt8) := none
  width : Int := 0
  height : Int := 0
  stridePixels : Int := 0
  layout : Option RgbaLayout := some .rgba8888
  deriving DecidableEq, Repr

def RgbaSource.isValid (s : RgbaSource) : Bool :=
  s.pixels.isSome && s.width > 0 && s.height > 0 && s.stridePixels ≥ s.width

/-! ### `Update` and `Reset` -/

def reset (t : RgbFrameTracker) : RgbFrameTracker :=
  { t with previous := [], width := 0, height := 0 }

/-- The pixel at an offset, its three channels packed. -/
def packedRgb (layout : RgbaLayout) (pixels : List UInt8) (offset : Nat) : UInt32 :=
  let red := if layout = .rgba8888 then 0 else 2
  let blue := if layout = .rgba8888 then 2 else 0
  let pixel (i : Nat) : UInt32 := (pixels.getD (offset + i) 0).toUInt32
  pixel red ||| pixel 1 <<< 8 ||| pixel blue <<< 16

/-- `compare_rows<layout>`: the difference of all pixels, and the pixels stored. -/
def compareRows (layout : RgbaLayout) (pixels : List UInt8) (stridePixels width height : Nat)
    (previous : List UInt32) : UInt32 × List UInt32 :=
  (List.range height).foldl (fun s y =>
    let row := y * stridePixels * 4
    let base := y * width
    (List.range width).foldl (fun (difference, previous) x =>
      let rgb := packedRgb layout pixels (row + x * 4)
      (difference ||| (previous.getD (base + x) 0 ^^^ rgb), previous.set (base + x) rgb)) s)
    (0, previous)

def update (maxSize : Nat) (t : RgbFrameTracker) (source : RgbaSource) (availableBytes : Nat) :
    Nat × RgbFrameTracker :=
  match source.pixels, source.layout with
  | some pixels, some layout =>
    if !source.isValid then (0, t)
    else
      let width := source.width.toNat
      let height := source.height.toNat
      if width > t.maxPixels / height || width > maxSize / height ||
          source.stridePixels.toNat > sizeMax / height / 4 then (0, t)
      else
        let rowBytes := source.stridePixels.toNat * 4
        let requiredBytes := (height - 1) * rowBytes + width * 4
        if requiredBytes > availableBytes then (0, t)
        else
          let geometryChanged := t.width ≠ source.width || t.height ≠ source.height
          let (difference, previous) := compareRows layout pixels source.stridePixels.toNat width
            height (RowMajor.resize 0 t.previous (width * height))
          let generation :=
            if geometryChanged || difference ≠ 0 then
              GrayscaleFrameTracker.nextGeneration t.generation
            else t.generation
          (generation, { t with
            previous, width := source.width, height := source.height, generation })
  | _, _ => (0, t)

/-! ### The tracker and the gate together -/

/-- `latest` is the source of the latest update and what the update returned. -/
structure Capture where
  tracker : RgbFrameTracker
  gate : FrameDemandGate := {}
  latest : Option (RgbaSource × Nat) := none

inductive Action
  | update (source : RgbaSource) (availableBytes : Nat)
  | reset
  | evaluate (bytes : Nat) (width height : Int)
  | disarm

inductive Event
  | updated (source : RgbaSource) (availableBytes signature : Nat)
  | reset
  | evaluated (source : RgbaSource) (signature : Nat) (decision : DemandDecision)
  | disarmed

def step (maxSize : Nat) (s : Capture) : Action → Option (Capture × List Event)
  | .update source availableBytes =>
    let (signature, tracker) := s.tracker.update maxSize source availableBytes
    some ({ s with tracker, latest := some (source, signature) },
      [.updated source availableBytes signature])
  | .reset => some ({ s with tracker := s.tracker.reset }, [.reset])
  | .evaluate bytes width height =>
    s.latest.map fun (source, signature) =>
      let (decision, gate) := s.gate.evaluate ⟨signature, bytes, width, height⟩
      ({ s with gate }, [.evaluated source signature decision])
  | .disarm => some ({ s with gate := s.gate.reset }, [.disarmed])

def system (maxSize : Nat) : System Capture Action Event := ⟨step maxSize⟩

def start (maxPixels : Nat) : Capture := { tracker := { maxPixels } }

end RgbFrameTracker

end EinkLab
