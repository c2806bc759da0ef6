import Mathlib.Logic.Function.Basic
import SolstoneWindows.ObserverModel

/-!
# The owner's durable choices

`SetupAuthority` of `crates/observer-model/src/setup.rs`: what the owner chose, what of it is saved
in `setup.json`, and what runs. Every setter makes a candidate from the saved configuration and
tries to save it. `written` is the answer of `atomic_write_setup`.

The four sources and the three desktop activity preferences are families of fields in the source.
They are functions of the source kind and of the preference here. `saves` are the configurations
that were saved. No function reads it.
-/

set_option autoImplicit false

namespace SolstoneWindows.ObserverModel.Setup

open ObserverModel

/-! ## The configuration -/

/-- Version 2: desktop activity follows screen. -/
def CURRENT_SETUP_VERSION : Nat := 2

/-- Wizard progress step. -/
inductive WizardStep where
  | mic
  | systemAudio
  | screen
  | connection
  | done
  deriving DecidableEq

/-- Preference for starting the application at login. -/
structure LoginPreference where
  choice : Option Bool
  deriving DecidableEq

def LoginPreference.explicit (choice : Bool) : LoginPreference := ⟨some choice⟩

/-- The desktop activity preferences. -/
inductive Preference where
  | throughPause
  | windowTitles
  | pageAddresses
  deriving DecidableEq

/-- The code default of an unset desktop activity switch. -/
def DESKTOP_ACTIVITY_DEFAULT : Bool := true

/-- The code defaults of the preferences: an unset one reads as its default. -/
def Preference.default : Preference → Bool
  | .throughPause => false
  | .windowTitles => true
  | .pageAddresses => true

/-- The durable schema. -/
structure SetupConfig where
  version : Nat := CURRENT_SETUP_VERSION
  mic : Bool
  systemAudio : Bool
  screen : Bool
  startAtLogin : LoginPreference
  wizard : WizardStep
  noticeDismissed : Bool
  desktopActivity : Option Bool := none
  desktopActivityThroughPause : Option Bool := none
  desktopActivityWindowTitles : Option Bool := none
  desktopActivityPageAddresses : Option Bool := none
  deriving DecidableEq

namespace SetupConfig

/-- Whether a source is on. -/
def source (config : SetupConfig) : SourceKind → Bool
  | .screen => config.screen
  | .systemAudio => config.systemAudio
  | .mic => config.mic
  | .desktopActivity => config.desktopActivity.getD DESKTOP_ACTIVITY_DEFAULT

/-- Whether a preference is on. -/
def preference (config : SetupConfig) : Preference → Bool
  | .throughPause => config.desktopActivityThroughPause.getD Preference.throughPause.default
  | .windowTitles => config.desktopActivityWindowTitles.getD Preference.windowTitles.default
  | .pageAddresses => config.desktopActivityPageAddresses.getD Preference.pageAddresses.default

def setSource (config : SetupConfig) (kind : SourceKind) (enabled : Bool) : SetupConfig :=
  match kind with
  | .screen => { config with screen := enabled }
  | .systemAudio => { config with systemAudio := enabled }
  | .mic => { config with mic := enabled }
  | .desktopActivity => { config with desktopActivity := some enabled }

def setPreference (config : SetupConfig) (preference : Preference) (enabled : Bool) :
    SetupConfig :=
  match preference with
  | .throughPause => { config with desktopActivityThroughPause := some enabled }
  | .windowTitles => { config with desktopActivityWindowTitles := some enabled }
  | .pageAddresses => { config with desktopActivityPageAddresses := some enabled }

end SetupConfig

/-- What the engine is seeded with: the values in effect and the saved choices behind them. -/
structure SetupSnapshot where
  mic : Bool
  systemAudio : Bool
  screen : Bool
  desktopActivityAllowed : Bool
  desktopActivityThroughPause : Bool
  desktopActivityWindowTitles : Bool
  desktopActivityPageAddresses : Bool
  /-- The saved desktop activity switch and preferences. -/
  allowedChoice : Option Bool
  throughPauseChoice : Option Bool
  windowTitlesChoice : Option Bool
  pageAddressesChoice : Option Bool
  startAtLogin : LoginPreference
  wizard : WizardStep
  noticeDismissed : Bool
  loginApplyFailed : Bool
  setupReadFailed : Bool
  deriving DecidableEq

/-! ## The authority -/

/-- An attempted source toggle that could not be saved. -/
structure FailedSourceWrite where
  kind : SourceKind
  attempted : Bool
  deriving DecidableEq

/-- The coordinator of the saved configuration and the choices in effect. -/
structure SetupAuthority where
  /-- Whether there is a directory to save in. -/
  root : Bool
  durable : SetupConfig
  running : SourceKind → Bool
  runningPreference : Preference → Bool
  failedSources : List FailedSourceWrite
  wizardSaveFailed : Bool
  pendingWizard : Option WizardStep
  noticeSaveFailed : Bool
  loginApplyFailed : Bool
  pendingLogin : Option Bool
  pendingPreference : Preference → Option Bool
  preferenceSaveFailed : Preference → Bool
  setupReadFailed : Bool
  saves : List SetupConfig

namespace SetupAuthority

def seed (a : SetupAuthority) (snapshot : SetupSnapshot) : SetupAuthority :=
  { a with
    durable := { a.durable with
      mic := snapshot.mic
      systemAudio := snapshot.systemAudio
      screen := snapshot.screen
      desktopActivity := snapshot.allowedChoice
      desktopActivityThroughPause := snapshot.throughPauseChoice
      desktopActivityWindowTitles := snapshot.windowTitlesChoice
      desktopActivityPageAddresses := snapshot.pageAddressesChoice
      wizard := snapshot.wizard
      noticeDismissed := snapshot.noticeDismissed
      startAtLogin := snapshot.startAtLogin }
    running := fun
      | .screen => snapshot.screen
      | .systemAudio => snapshot.systemAudio
      | .mic => snapshot.mic
      | .desktopActivity => snapshot.desktopActivityAllowed
    runningPreference := fun
      | .throughPause => snapshot.desktopActivityThroughPause
      | .windowTitles => snapshot.desktopActivityWindowTitles
      | .pageAddresses => snapshot.desktopActivityPageAddresses
    loginApplyFailed := snapshot.loginApplyFailed
    setupReadFailed := snapshot.setupReadFailed
    pendingLogin := none
    pendingPreference := fun _ => none
    preferenceSaveFailed := fun _ => false
    failedSources := []
    wizardSaveFailed := false
    pendingWizard := none
    noticeSaveFailed := false }

/-- Carry the preferences with a failed save, as they run. -/
def withPendingPreference (a : SetupAuthority) (config : SetupConfig) (preference : Preference) :
    SetupConfig :=
  if (a.pendingPreference preference).isSome then
    config.setPreference preference (a.runningPreference preference)
  else config

/-- Any later successful save must carry an OFF choice that previously failed. Failed ON requests
remain inactive until their explicit retry. -/
def candidateWithPendingOff (a : SetupAuthority) : SetupConfig :=
  let candidate := a.durable
  let candidate :=
    if a.pendingLogin = some false then { candidate with startAtLogin := .explicit false }
    else candidate
  let candidate := [Preference.throughPause, .windowTitles, .pageAddresses].foldl
    a.withPendingPreference candidate
  (a.failedSources.filter fun failed => !failed.attempted).foldl
    (fun candidate failed => candidate.setSource failed.kind false) candidate

def persist (written : Bool) (a : SetupAuthority) (candidate : SetupConfig) :
    Bool × SetupAuthority :=
  if a.root && !written then (false, a)
  else
    (true, { a with
      durable := candidate
      setupReadFailed := false
      failedSources := a.failedSources.filter FailedSourceWrite.attempted
      saves := a.saves ++ [candidate] })

def setRunning (a : SetupAuthority) (kind : SourceKind) (enabled : Bool) : SetupAuthority :=
  { a with running := Function.update a.running kind enabled }

/-- The failed toggle of `kind` is now `attempted`. -/
def recordFailed (kind : SourceKind) (attempted : Bool) :
    List FailedSourceWrite → List FailedSourceWrite
  | [] => [⟨kind, attempted⟩]
  | failed :: rest =>
    if failed.kind = kind then ⟨kind, attempted⟩ :: rest
    else failed :: recordFailed kind attempted rest

def recordFailedSource (a : SetupAuthority) (kind : SourceKind) (attempted : Bool) :
    SetupAuthority :=
  { a with failedSources := recordFailed kind attempted a.failedSources }

def removeFailedSource (a : SetupAuthority) (kind : SourceKind) : SetupAuthority :=
  { a with failedSources := a.failedSources.filter fun failed => failed.kind ≠ kind }

def setSource (written : Bool) (a : SetupAuthority) (kind : SourceKind) (enabled : Bool) :
    Bool × SetupAuthority :=
  let a := if !enabled then a.setRunning kind false else a
  match a.persist written (a.candidateWithPendingOff.setSource kind enabled) with
  | (true, a) => (enabled, (a.setRunning kind enabled).removeFailedSource kind)
  | (false, a) => (false, (a.setRunning kind false).recordFailedSource kind enabled)

def setStartAtLogin (written : Bool) (a : SetupAuthority) (enabled : Bool) :
    Bool × SetupAuthority :=
  let a := { a with pendingLogin := some enabled }
  a.persist written { a.candidateWithPendingOff with startAtLogin := .explicit enabled }

def setWizardStep (written : Bool) (a : SetupAuthority) (step : WizardStep) :
    Bool × SetupAuthority :=
  if a.setupReadFailed then (false, a)
  else
    let (saved, a) := a.persist written { a.candidateWithPendingOff with wizard := step }
    (saved, { a with
      wizardSaveFailed := !saved
      pendingWizard := if saved then none else some step })

def dismissNotice (written : Bool) (a : SetupAuthority) : Bool × SetupAuthority :=
  if a.setupReadFailed then (false, a)
  else
    let (saved, a) := a.persist written { a.candidateWithPendingOff with noticeDismissed := true }
    (saved, { a with noticeSaveFailed := !saved })

/-- What the three preference setters have in common. -/
def setPreference (preference : Preference) (written : Bool) (a : SetupAuthority)
    (enabled : Bool) : Bool × SetupAuthority :=
  let a :=
    if !enabled then
      { a with runningPreference := Function.update a.runningPreference preference false }
    else a
  match a.persist written (a.candidateWithPendingOff.setPreference preference enabled) with
  | (true, a) =>
    (true, { a with
      runningPreference := Function.update a.runningPreference preference enabled
      pendingPreference := Function.update a.pendingPreference preference none
      preferenceSaveFailed := Function.update a.preferenceSaveFailed preference false })
  | (false, a) =>
    (false, { a with
      pendingPreference := Function.update a.pendingPreference preference (some enabled)
      preferenceSaveFailed := Function.update a.preferenceSaveFailed preference true })

def setDesktopActivityThroughPause : Bool → SetupAuthority → Bool → Bool × SetupAuthority :=
  setPreference .throughPause

def setDesktopActivityWindowTitles : Bool → SetupAuthority → Bool → Bool × SetupAuthority :=
  setPreference .windowTitles

def setDesktopActivityPageAddresses : Bool → SetupAuthority → Bool → Bool × SetupAuthority :=
  setPreference .pageAddresses

end SetupAuthority

/-! ## Calls -/

/-- The setters that make one save each. -/
inductive Call where
  | setSource (kind : SourceKind) (enabled : Bool)
  | setStartAtLogin (enabled : Bool)
  | setWizardStep (step : WizardStep)
  | dismissNotice
  | setDesktopActivityThroughPause (enabled : Bool)
  | setDesktopActivityWindowTitles (enabled : Bool)
  | setDesktopActivityPageAddresses (enabled : Bool)
  deriving DecidableEq

def Call.apply (call : Call) (written : Bool) (a : SetupAuthority) : SetupAuthority :=
  match call with
  | .setSource kind enabled => (a.setSource written kind enabled).2
  | .setStartAtLogin enabled => (a.setStartAtLogin written enabled).2
  | .setWizardStep step => (a.setWizardStep written step).2
  | .dismissNotice => (a.dismissNotice written).2
  | .setDesktopActivityThroughPause enabled => (a.setDesktopActivityThroughPause written enabled).2
  | .setDesktopActivityWindowTitles enabled => (a.setDesktopActivityWindowTitles written enabled).2
  | .setDesktopActivityPageAddresses enabled =>
    (a.setDesktopActivityPageAddresses written enabled).2

/-- The calls one after the other, each with the answer to its save. -/
def runCalls (a : SetupAuthority) (calls : List (Call × Bool)) : SetupAuthority :=
  calls.foldl (fun a call => call.1.apply call.2 a) a

end SolstoneWindows.ObserverModel.Setup
