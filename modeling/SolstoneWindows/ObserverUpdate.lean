/-!
# What the updater knows and shows

`crates/observer-update/src/lib.rs`. The preferences are left out: neither function reads them.
-/

set_option autoImplicit false

namespace SolstoneWindows.ObserverUpdate

inductive UpdateOutcome where
  | upToDate
  | found
  | staged
  | failed
  deriving DecidableEq

inductive UpdateActivity where
  | idle
  | checking
  | downloading
  | installing
  deriving DecidableEq

/-- What is known of completed checks. It is kept on disk. -/
structure ReconciledUpdateStatus where
  lastCheckedAt : Option Nat := none
  lastCheckOutcome : Option UpdateOutcome := none
  availableVersion : Option String := none
  failedWithAvailable : Bool := false
  deriving DecidableEq

structure AvailableUpdate where
  version : String
  notes : Option String
  deriving DecidableEq

/-- `UpdateState::new()` has the default of every field. A staged update is its version. -/
structure UpdateState where
  status : ReconciledUpdateStatus := {}
  activity : UpdateActivity := .idle
  available : Option AvailableUpdate := none
  staged : Option String := none
  downloadPct : Option Nat := none
  configValid : Bool := true
  deriving DecidableEq

inductive UpdateDisplay where
  | neverChecked
  | upToDate
  | checking
  | available
  | downloading
  | staged
  | failed
  | failedWithAvailable
  | unavailable
  deriving DecidableEq

/-- What the pane shows. -/
def UpdateState.display (s : UpdateState) : UpdateDisplay :=
  if !s.configValid then .unavailable
  else match s.activity with
    | .checking => .checking
    | .downloading => .downloading
    | .installing => .staged
    | .idle =>
      if s.staged.isSome then .staged
      else if s.available.isSome then .available
      else match s.status.lastCheckOutcome with
        | some .failed => if s.status.failedWithAvailable then .failedWithAvailable else .failed
        | some .upToDate => .upToDate
        | some .found => .upToDate
        | some .staged => .upToDate
        | none => .neverChecked

inductive CheckOutcome where
  | upToDate
  | updateAvailable (version : String) (notes : Option String)
  | empty
  deriving DecidableEq

inductive UpdateEvent where
  | checkStarted
  | downloadStarted
  | downloadProgress (pct : Nat)
  | installStarted
  | dismissed
  | checkResult (now : Nat) (result : CheckOutcome)
  | downloaded (version : String)
  | checkFailed (now : Nat)
  | configInvalid
  deriving DecidableEq

def reduce (s : UpdateState) : UpdateEvent → UpdateState
  | .checkStarted => { s with activity := .checking }
  | .downloadStarted => { s with activity := .downloading, downloadPct := some 0 }
  | .downloadProgress pct => { s with downloadPct := some (min pct 100) }
  | .installStarted => { s with activity := .installing }
  | .dismissed =>
    { s with
      activity := .idle
      available := none
      downloadPct := none
      status :=
        -- a failure is cleared, and the pane goes back to what was known before it
        if s.status.lastCheckOutcome = some .failed then
          { s.status with
            lastCheckOutcome :=
              (s.status.availableVersion.map fun _ => .found).or (some .upToDate)
            failedWithAvailable := false }
        else s.status }
  | .checkResult now result =>
    match result with
    | .upToDate | .empty =>
      { s with
        activity := .idle
        available := none
        status := ⟨some now, some .upToDate, none, false⟩ }
    | .updateAvailable version notes =>
      { s with
        activity := .idle
        available := some ⟨version, notes⟩
        status := ⟨some now, some .found, some version, false⟩ }
  | .downloaded version =>
    { s with
      activity := .idle
      downloadPct := none
      available := none
      status := { s.status with
        availableVersion := some version
        lastCheckOutcome := some .staged
        failedWithAvailable := false }
      staged := some version }
  | .checkFailed now =>
    { s with
      activity := .idle
      staged := none
      available := none
      downloadPct := none
      status := { s.status with
        lastCheckedAt := some now
        lastCheckOutcome := some .failed
        failedWithAvailable := s.status.availableVersion.isSome } }
  | .configInvalid => { s with configValid := false, activity := .idle }

/-- The state after these events. -/
def run (events : List UpdateEvent) : UpdateState := events.foldl reduce {}

end SolstoneWindows.ObserverUpdate
