import EinkLab.LowerEngine.Color

/-!
# The loop of the colour quality pass

`ColorQualityHistory::Prepare` with its loop over byte offsets, its count and the intermediate frame
that is copied from the target when the first pixel qualifies.
-/

namespace EinkLab.LowerEngine.ColorQualityHistory

/-- `std::fill_n(intermediate.begin() + i, 4, 255)`. -/
def fillWhite (intermediate : List UInt8) (i : Nat) : List UInt8 :=
  (((intermediate.set i 255).set (i + 1) 255).set (i + 2) 255).set (i + 3) 255

/-- `hi - lo` of the pixel at byte `i`. -/
def spreadAt (target : List UInt8) (i : Nat) : Int :=
  channelMax (target.getD i 0) (target.getD (i + 1) 0) (target.getD (i + 2) 0) -
    channelMin (target.getD i 0) (target.getD (i + 1) 0) (target.getD (i + 2) 0)

/-- `old_min`. -/
def oldMinAt (previous : List UInt8) (i : Nat) : Int :=
  channelMin (previous.getD i 0) (previous.getD (i + 1) 0) (previous.getD (i + 2) 0)

/-- `change`. -/
def changeAt (target previous : List UInt8) (i : Nat) : Int :=
  let channel (k : Nat) : Int :=
    (((target.getD (i + k) 0).toNat : Int) - (previous.getD (i + k) 0).toNat).natAbs
  max (max (channel 0) (channel 1)) (channel 2)

/-- One round of the loop; where it continues, nothing changes. -/
def prepareStep (thresholds : ColorQualityThresholds) (cleanup history : Bool)
    (target previous : List UInt8) (s : Nat × List UInt8) (i : Nat) : Nat × List UInt8 :=
  if spreadAt target i < thresholds.chroma then s
  else if !cleanup && history &&
      (oldMinAt previous i ≥ thresholds.nearWhite || changeAt target previous i < thresholds.change)
      then s
  else (s.1 + 1, fillWhite (if s.1 = 0 then target else s.2) i)

/-- `Prepare`: the count, and the intermediate frame. -/
def prepareLoop (self : ColorQualityHistory) (target : List UInt8)
    (thresholds : ColorQualityThresholds) (cleanup : Bool) : Nat × List UInt8 :=
  if target.isEmpty || target.length % 4 ≠ 0 then (0, [])
  else
    let history := self.previous.length = target.length
    if !history && !cleanup then (0, [])
    else
      (List.range' 0 (target.length / 4) 4).foldl
        (prepareStep thresholds.clamped cleanup history target self.previous) (0, [])

end EinkLab.LowerEngine.ColorQualityHistory
