import SolstoneWindows.ObserverModel

/-!
# Incomplete segments of a run that ended early

`crates/observer-recovery/src/lib.rs`. The file system is a seam of the source, `RecoveryFs`, so it
is a record of functions here: each call takes the state of the file system and gives its result
with the state after it. Any pattern of failing calls is one such record.
-/

set_option autoImplicit false

namespace SolstoneWindows.ObserverRecovery

open ObserverModel

/-- A stale segment found during the recovery scan. -/
structure StaleSegment where
  key : SegmentKey
  path : String
  /-- The directory holds at least one usable media chunk and can be sealed. -/
  hasUsableData : Bool
  deriving DecidableEq

/-- What recovery did with one stale segment. -/
inductive RecoveryOutcome where
  | finalized (key : SegmentKey)
  | quarantined (key : SegmentKey)
  /-- Usable bytes remain in place for the engine's storage retry loop. -/
  | deferred (key : SegmentKey)
  deriving DecidableEq

/-- The file system that recovery works on, with states `σ` and errors `ε`. -/
structure RecoveryFs (σ ε : Type) where
  scanIncomplete : σ → Except ε (List StaleSegment) × σ
  /-- Seal a usable stale segment to its final name. -/
  finalize : StaleSegment → σ → Except ε Unit × σ
  /-- Move an unusable stale segment aside. -/
  quarantine : StaleSegment → σ → Except ε Unit × σ

section

variable {σ ε : Type} (fs : RecoveryFs σ ε)

/-- The loop of `recover_all`, with the outcomes so far. -/
def recoverEach : List StaleSegment → List RecoveryOutcome → σ →
    Except ε (List RecoveryOutcome) × σ
  | [], outcomes, s => (.ok outcomes, s)
  | seg :: stale, outcomes, s =>
    if seg.hasUsableData then
      match fs.finalize seg s with
      | (.ok _, s) => recoverEach stale (outcomes ++ [.finalized seg.key]) s
      | (.error _, s) => recoverEach stale (outcomes ++ [.deferred seg.key]) s
    else
      match fs.quarantine seg s with
      -- `?`: the loop ends here, and the outcomes so far are dropped.
      | (.error e, s) => (.error e, s)
      | (.ok _, s) => recoverEach stale (outcomes ++ [.quarantined seg.key]) s

/-- Scan and resolve every stale segment. -/
def recoverAll (s : σ) : Except ε (List RecoveryOutcome) × σ :=
  match fs.scanIncomplete s with
  | (.error e, s) => (.error e, s)
  | (.ok stale, s) => recoverEach fs stale [] s

end

end SolstoneWindows.ObserverRecovery
