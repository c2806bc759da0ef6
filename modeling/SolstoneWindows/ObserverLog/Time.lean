import Mathlib.Algebra.Group.Int.Defs
import Mathlib.Algebra.Ring.Nat

/-!
# RFC 3339 timestamps

`crates/observer-log/src/time.rs`. A time is a number of nanoseconds since 1970, and may be
negative. Rust's integer division rounds towards zero, which is `Int.tdiv` here.

Texts are lists of characters. Every character of a timestamp is one byte, so the byte positions of
the source are positions in the list: a text with any other character is refused by both.
-/

set_option autoImplicit false

namespace SolstoneWindows.ObserverLog

/-- Nanoseconds since the Unix epoch. -/
abbrev SystemTime := Int

/-- Whole seconds and milliseconds of a time. -/
def epochParts (now : SystemTime) : Int × Nat :=
  if 0 ≤ now then (now / 1000000000, (now.toNat % 1000000000) / 1000000)
  else
    let seconds : Int := ((-now).toNat / 1000000000 : Nat)
    let nanos := (-now).toNat % 1000000000
    if nanos = 0 then (-seconds, 0) else (-seconds - 1, 1000 - nanos / 1000000)

def divFloor (a b : Int) : Int :=
  let q := a.tdiv b
  let r := a.tmod b
  if r ≠ 0 ∧ (decide (r > 0) ≠ decide (b > 0)) then q - 1 else q

/-- Year, month and day of a day number. -/
def civilFromDays (days : Int) : Int × Int × Int :=
  let z := days + 719468
  let era := (if 0 ≤ z then z else z - 146096).tdiv 146097
  let doe := z - era * 146097
  let yoe := (doe - doe.tdiv 1460 + doe.tdiv 36524 - doe.tdiv 146096).tdiv 365
  let y := yoe + era * 400
  let doy := doe - (365 * yoe + yoe.tdiv 4 - yoe.tdiv 100)
  let mp := (5 * doy + 2).tdiv 153
  let d := doy - (153 * mp + 2).tdiv 5 + 1
  let m := mp + if mp < 10 then 3 else -9
  let y := y + if m ≤ 2 then 1 else 0
  (y, m, d)

/-- The day number of a year, month and day. -/
def daysFromCivil (y m d : Int) : Int :=
  let y := y - if m ≤ 2 then 1 else 0
  let era := (if 0 ≤ y then y else y - 399).tdiv 400
  let yoe := y - era * 400
  let doy := (153 * (m + if m > 2 then -3 else 9) + 2).tdiv 5 + d - 1
  let doe := yoe * 365 + yoe.tdiv 4 - yoe.tdiv 100 + doy
  era * 146097 + doe - 719468

/-- `{n:0width}` of an integer: the sign counts. -/
def padded (width : Nat) (n : Int) : List Char :=
  let digits := Nat.toDigits 10 n.natAbs
  if n < 0 then '-' :: (List.replicate (width - 1 - digits.length) '0' ++ digits)
  else List.replicate (width - digits.length) '0' ++ digits

/-- `YYYY-MM-DDTHH:MM:SS.mmmZ`. -/
def formatRfc3339Utc (now : SystemTime) : List Char :=
  let (seconds, millis) := epochParts now
  let days := divFloor seconds 86400
  let secondsOfDay := seconds - days * 86400
  let hour := secondsOfDay.tdiv 3600
  let minute := (secondsOfDay.tmod 3600).tdiv 60
  let second := secondsOfDay.tmod 60
  let (year, month, day) := civilFromDays days
  padded 4 year ++ '-' :: padded 2 month ++ '-' :: padded 2 day ++ 'T' :: padded 2 hour
    ++ ':' :: padded 2 minute ++ ':' :: padded 2 second ++ '.' :: padded 3 millis ++ ['Z']

/-- The number that a run of digits is. -/
def parseDigits (text : List Char) : Option Nat :=
  if text.all Char.isDigit then some (Nat.ofDigitChars 10 text 0) else none

/-- The number of a valid date and time. -/
def timeOfParts (year month day hour minute second millis : Nat) : Option SystemTime :=
  if month < 1 ∨ 12 < month ∨ day < 1 ∨ 31 < day ∨ 23 < hour ∨ 59 < minute ∨ 59 < second ∨
      999 < millis then none
  else
    let days := daysFromCivil year month day
    if civilFromDays days ≠ ((year : Int), (month : Int), (day : Int)) then none
    else
      let totalSecs : Int := days * 86400 + hour * 3600 + minute * 60 + second
      some ((totalSecs * 1000 + millis) * 1000000)

def parseRfc3339Utc (text : List Char) : Option SystemTime :=
  if text.length ≠ 24 then none
  else if text[4]? ≠ some '-' ∨ text[7]? ≠ some '-' ∨ text[10]? ≠ some 'T' ∨ text[13]? ≠ some ':' ∨
      text[16]? ≠ some ':' ∨ text[19]? ≠ some '.' ∨ text[23]? ≠ some 'Z' then none
  else do
    let year ← parseDigits (text.take 4)
    let month ← parseDigits ((text.drop 5).take 2)
    let day ← parseDigits ((text.drop 8).take 2)
    let hour ← parseDigits ((text.drop 11).take 2)
    let minute ← parseDigits ((text.drop 14).take 2)
    let second ← parseDigits ((text.drop 17).take 2)
    let millis ← parseDigits ((text.drop 20).take 3)
    timeOfParts year month day hour minute second millis

example : formatRfc3339Utc 1781706600123456789 = "2026-06-17T14:30:00.123Z".toList := by decide

end SolstoneWindows.ObserverLog
