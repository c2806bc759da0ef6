import SolstoneWindows.ObserverModel

/-!
# Segments aligned to the wall clock

The rotation arithmetic of `crates/observer-segment/src/lib.rs`. A period of 0 counts as 1.
-/

set_option autoImplicit false

namespace SolstoneWindows.ObserverSegment

open ObserverModel

/-- Default rotation period: five minutes, aligned to the wall clock. -/
def DEFAULT_SEGMENT_SECS : Nat := 5 * 60

/-- The aligned segment an instant falls into. -/
def segmentFor (nowEpochSecs periodSecs : Nat) : SegmentKey :=
  let period := max periodSecs 1
  let boundary := nowEpochSecs / period * period
  { boundaryEpochSecs := boundary, index := boundary / period }

/-- Whether the clock has left the window of the current segment. -/
def shouldRotate (current : SegmentKey) (nowEpochSecs periodSecs : Nat) : Bool :=
  segmentFor nowEpochSecs periodSecs ≠ current

end SolstoneWindows.ObserverSegment
