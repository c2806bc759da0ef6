import SolstoneWindows.ObserverModel

/-!
# The app-state reducer

`crates/observer-state/src/lib.rs`. The phase is computed from the reducer's facts; no event sets
it. `reduce` gives the machine after an event, and the phase the source returns with it is
`phase` of that machine.
-/

set_option autoImplicit false

namespace SolstoneWindows.ObserverState

open ObserverModel

/-- The owner's pause, with its optional deadline. -/
structure OwnerPause where
  expiresAtEpochSecs : Option Nat
  deriving DecidableEq

/-- Intents and facts that move the observer's state. -/
inductive AppEvent where
  | requestedStart
  | requestedPause (reason : PauseReason) (expiresAtEpochSecs : Option Nat)
  /-- Ends the owner's pause and any system pause. -/
  | requestedResume
  /-- Ends a system pause only. -/
  | systemResumed
  | ownerPauseExpired
  | engineReady
  | sourceUpdated (kind : SourceKind) (state : SourceState)
  | sourceFaulted (kind : SourceKind)
  | storageFaultChanged (faulted : Bool)
  | sourceEnabled (kind : SourceKind) (enabled : Bool)
  deriving DecidableEq

/-- The reducer's working memory. -/
structure StateMachine where
  engineReady : Bool := false
  runRequested : Bool := false
  screenEnabled : Bool := false
  systemAudioEnabled : Bool := false
  micEnabled : Bool := false
  desktopActivityEnabled : Bool := false
  ownerPause : Option OwnerPause := none
  systemPause : Option PauseReason := none
  storageFaulted : Bool := false
  screen : Option SourceState := none
  systemAudio : Option SourceState := none
  mic : Option SourceState := none
  desktopActivity : Option SourceState := none
  deriving DecidableEq

namespace StateMachine

def isSourceEnabled (machine : StateMachine) : SourceKind → Bool
  | .screen => machine.screenEnabled
  | .systemAudio => machine.systemAudioEnabled
  | .mic => machine.micEnabled
  | .desktopActivity => machine.desktopActivityEnabled

/-- The last state a source reported. -/
def reported (machine : StateMachine) : SourceKind → Option SourceState
  | .screen => machine.screen
  | .systemAudio => machine.systemAudio
  | .mic => machine.mic
  | .desktopActivity => machine.desktopActivity

def anySourceEnabled (machine : StateMachine) : Bool :=
  machine.screenEnabled || machine.systemAudioEnabled || machine.micEnabled ||
    machine.desktopActivityEnabled

/-- Whether some enabled source's report satisfies the test. -/
def anyEnabled (machine : StateMachine) (test : Option SourceState → Bool) : Bool :=
  (machine.screenEnabled && test machine.screen) ||
    (machine.systemAudioEnabled && test machine.systemAudio) ||
    (machine.micEnabled && test machine.mic) ||
    (machine.desktopActivityEnabled && test machine.desktopActivity)

/-- A refused permission does not count: the owner lifts it, not a restart. -/
def anyEnabledFaulted (machine : StateMachine) : Bool :=
  machine.anyEnabled fun
    | some (.faulted reason _) => reason ≠ .accessDenied
    | _ => false

def anyEnabledActive (machine : StateMachine) : Bool :=
  machine.anyEnabled (· == some .active)

def anyEnabledPending (machine : StateMachine) : Bool :=
  machine.anyEnabled fun report => report == none || report == some .inactive

/-- Whether either pause is in effect. -/
def isPaused (machine : StateMachine) : Bool :=
  machine.ownerPause.isSome || machine.systemPause.isSome

/-- The computed phase. -/
def phase (machine : StateMachine) : AppPhase :=
  if machine.isPaused then .paused
  else if !machine.runRequested || !machine.anySourceEnabled then .idle
  else if !machine.engineReady then .starting
  else if machine.storageFaulted || machine.anyEnabledFaulted then .error
  else if machine.anyEnabledActive then .observing
  else if machine.anyEnabledPending then .starting
  else .idle

/-- Whether a timed pause has reached its deadline. -/
def pauseDueToExpire (machine : StateMachine) (nowEpochSecs : Nat) : Bool :=
  (machine.ownerPause.bind OwnerPause.expiresAtEpochSecs).any fun deadline =>
    nowEpochSecs ≥ deadline

/-- A source's report replaced. -/
def report (machine : StateMachine) (kind : SourceKind) (state : SourceState) : StateMachine :=
  match kind with
  | .screen => { machine with screen := some state }
  | .systemAudio => { machine with systemAudio := some state }
  | .mic => { machine with mic := some state }
  | .desktopActivity => { machine with desktopActivity := some state }

end StateMachine

/-- Fold one event into the machine. -/
def reduce (machine : StateMachine) : AppEvent → StateMachine
  | .sourceEnabled kind enabled =>
    match kind with
    | .screen => { machine with screenEnabled := enabled }
    | .systemAudio => { machine with systemAudioEnabled := enabled }
    | .mic => { machine with micEnabled := enabled }
    | .desktopActivity => { machine with desktopActivityEnabled := enabled }
  | .requestedStart => { machine with runRequested := true }
  | .requestedPause .operator expiresAtEpochSecs =>
    { machine with ownerPause := some ⟨expiresAtEpochSecs⟩ }
  | .requestedPause reason _ => { machine with systemPause := some reason }
  | .requestedResume => { machine with ownerPause := none, systemPause := none }
  | .systemResumed => { machine with systemPause := none }
  | .ownerPauseExpired => { machine with ownerPause := none }
  | .engineReady => { machine with engineReady := true }
  | .sourceUpdated kind state => machine.report kind state
  | .sourceFaulted kind => machine.report kind (.faulted .unknown "source faulted")
  | .storageFaultChanged faulted => { machine with storageFaulted := faulted }

end SolstoneWindows.ObserverState
