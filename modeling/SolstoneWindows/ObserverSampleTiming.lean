import Mathlib.Algebra.Ring.Nat

/-!
# Video sample times

Times are in ticks of 100 ns. The timer holds the last sample back: only the next arrival says how
long it lasts.
-/

set_option autoImplicit false

namespace SolstoneWindows.ObserverSampleTiming

structure StampedSample where
  sampleTime : Int
  sampleDuration : Int
  deriving DecidableEq

structure SampleTimer where
  anchor : Int
  minDuration : Int
  pending : Option Int
  lastGap : Int
  clampEvents : Nat
  lastEnd : Int
  deriving DecidableEq

namespace SampleTimer

def new (anchor minDuration : Int) : SampleTimer := ⟨anchor, minDuration, none, minDuration, 0, 0⟩

/-- The time that `push` gives an arrival, and whether it is not the arrival's own. -/
def stamp (timer : SampleTimer) (arrival : Int) : Int × Bool :=
  let raw := arrival - timer.anchor
  let time := max raw 0
  match timer.pending with
  | some prev =>
    let minTime := prev + timer.minDuration
    if time < minTime then (minTime, true) else (time, raw < 0)
  | none => (time, raw < 0)

/-- The count of clamps saturates at the end of a `u64`. -/
def push (timer : SampleTimer) (arrival : Int) : SampleTimer × Option StampedSample :=
  let (time, clamped) := timer.stamp arrival
  let timer :=
    if clamped then { timer with clampEvents := min (timer.clampEvents + 1) (2 ^ 64 - 1) }
    else timer
  match timer.pending with
  | some prev =>
    ({ timer with lastGap := time - prev, pending := some time }, some ⟨prev, time - prev⟩)
  | none => ({ timer with pending := some time }, none)

def flush (timer : SampleTimer) (windowEnd : Int) : SampleTimer × Option StampedSample :=
  match timer.pending with
  | none => (timer, none)
  | some time =>
    let ceiling := max (windowEnd - time) timer.minDuration
    let duration := max (min timer.lastGap ceiling) timer.minDuration
    ({ timer with pending := none, lastEnd := time + duration }, some ⟨time, duration⟩)

/-- A push for each arrival and then a flush, with the samples they give. -/
def finish (timer : SampleTimer) (windowEnd : Int) : List Int → SampleTimer × List StampedSample
  | [] => ((timer.flush windowEnd).1, (timer.flush windowEnd).2.toList)
  | arrival :: arrivals =>
    let run := (timer.push arrival).1.finish windowEnd arrivals
    (run.1, (timer.push arrival).2.toList ++ run.2)

end SampleTimer

end SolstoneWindows.ObserverSampleTiming
