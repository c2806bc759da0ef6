import Mathlib.Algebra.Group.Int.Defs
import SolstoneWindows.ObserverModel

/-!
# The day and segment keys of an instant

`crates/observer-pl/src/civil.rs`: calendar parts of an epoch second by integer arithmetic, and
the texts the journal names a day and a segment by. The days of a 64-bit epoch second are never
negative and far from the 63-bit limit, so the arithmetic is on natural numbers.
-/

set_option autoImplicit false

namespace SolstoneWindows.ObserverPl.Civil

/-- Year, month, day, hour, minute and second. -/
structure Parts where
  year : Nat
  month : Nat
  day : Nat
  hour : Nat
  minute : Nat
  second : Nat
  deriving DecidableEq

/-- The parts of an epoch second in UTC. -/
def utcParts (epochSecs : Nat) : Parts :=
  let days := epochSecs / 86400
  let rem := epochSecs % 86400
  let z := days + 719468
  let era := z / 146097
  let doe := z - era * 146097
  let yoe := (doe - doe / 1460 + doe / 36524 - doe / 146096) / 365
  let y := yoe + era * 400
  let doy := doe - (365 * yoe + yoe / 4 - yoe / 100)
  let mp := (5 * doy + 2) / 153
  let day := doy - (153 * mp + 2) / 5 + 1
  let month := if mp < 10 then mp + 3 else mp - 9
  let year := if month ≤ 2 then y + 1 else y
  { year := year, month := month, day := day
    hour := rem / 3600, minute := rem % 3600 / 60, second := rem % 60 }

/-- A number with leading zeros up to a width. -/
def zeroPadded (width n : Nat) : String :=
  String.ofList (List.replicate (width - (toString n).length) '0') ++ toString n

/-- The instant a device's wall clock shows, as `u64`. -/
def shifted (boundaryEpochSecs : Nat) (offsetSecs : Int) : Nat :=
  (((boundaryEpochSecs : Int) + offsetSecs) % 2 ^ 64).toNat

/-- `YYYYMMDD` of the boundary in the device's wall clock. -/
def dayStringLocal (boundaryEpochSecs : Nat) (offsetSecs : Int) : String :=
  let parts := utcParts (shifted boundaryEpochSecs offsetSecs)
  zeroPadded 4 parts.year ++ zeroPadded 2 parts.month ++ zeroPadded 2 parts.day

/-- `HHMMSS_LEN` of the boundary in the device's wall clock. -/
def segmentKeyStringLocal (boundaryEpochSecs : Nat) (offsetSecs : Int) (lenSecs : Nat) : String :=
  let parts := utcParts (shifted boundaryEpochSecs offsetSecs)
  zeroPadded 2 parts.hour ++ zeroPadded 2 parts.minute ++ zeroPadded 2 parts.second ++ "_" ++
    toString lenSecs

example : dayStringLocal 1781706600 (-7 * 3600) = "20260617" := by decide

example : segmentKeyStringLocal 1781706600 (-7 * 3600) 300 = "073000_300" := by decide

end SolstoneWindows.ObserverPl.Civil
