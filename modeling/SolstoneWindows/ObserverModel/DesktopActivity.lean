import Mathlib.Data.List.Basic

/-!
# Rows, events and URL requests

The data of `crates/observer-model/src/desktop_activity.rs`: the rows of a desktop-activity file,
what the platform probe reports, and what goes to and comes back from its URL helper. Times are
milliseconds and window ids are handles. Both are `u64` and only compared, so they are `Nat` here.
-/

set_option autoImplicit false

namespace SolstoneWindows.ObserverModel.DesktopActivity

/-- Coarse activity state reported by the activity hook or the idle timer. -/
inductive ActivityState where
  | active
  | idle
  | locked
  deriving DecidableEq

def ActivityState.asStr : ActivityState → String
  | .active => "active"
  | .idle => "idle"
  | .locked => "locked"

/-- Capabilities reported in availability rows. -/
inductive AvailabilityCapability where
  | foreground
  | title
  | url
  | idle
  deriving DecidableEq

def AvailabilityCapability.asStr : AvailabilityCapability → String
  | .foreground => "foreground"
  | .title => "title"
  | .url => "url"
  | .idle => "idle"

/-- Status of a capability reported in an availability row. -/
inductive AvailabilityStatus where
  | unavailable
  | denied
  | unsupported
  deriving DecidableEq

def AvailabilityStatus.asStr : AvailabilityStatus → String
  | .unavailable => "unavailable"
  | .denied => "denied"
  | .unsupported => "unsupported"

/-- Payload of a `foreground` row. -/
structure ForegroundPayload where
  app : String
  appId : Option String
  title : Option String
  url : Option String
  deriving DecidableEq

/-- Inner payload, by kind. -/
inductive DesktopActivityPayload where
  | foreground (payload : ForegroundPayload)
  | activity (state : String)
  | availability (capability status : String)
  deriving DecidableEq

/-- One line of a desktop-activity file. -/
structure DesktopActivityRow where
  v : Nat
  t : String
  kind : String
  method : String
  ts : Nat
  endTs : Nat
  payload : DesktopActivityPayload
  deriving DecidableEq

namespace DesktopActivityRow

def foreground (ts endTs : Nat) (app : String) (appId title url : Option String) :
    DesktopActivityRow where
  v := 1
  t := "desktop_activity"
  kind := "foreground"
  method := "winevent"
  ts := ts
  endTs := endTs
  payload := .foreground ⟨app, appId, title, url⟩

def activity (ts endTs : Nat) (state : ActivityState) : DesktopActivityRow where
  v := 1
  t := "desktop_activity"
  kind := "activity"
  method := "winevent"
  ts := ts
  endTs := endTs
  payload := .activity state.asStr

def availability (ts endTs : Nat) (method : String) (capability : AvailabilityCapability)
    (status : AvailabilityStatus) : DesktopActivityRow where
  v := 1
  t := "desktop_activity"
  kind := "availability"
  method := method
  ts := ts
  endTs := endTs
  payload := .availability capability.asStr status.asStr

end DesktopActivityRow

/-- Events of the platform probe. -/
inductive DesktopActivityProbeEvent where
  | foreground (windowId : Nat) (app exeName title : String)
  | titleChanged (windowId : Nat) (title : String)
  | activityStateChanged (state : ActivityState)
  | foregroundUnavailable
  | idleUnavailable
  deriving DecidableEq

/-- A request to the probe's URL helper. The title goes along as a fingerprint only. -/
structure DesktopActivityUrlRequest where
  generation : Nat
  windowId : Nat
  exeName : String
  titleFingerprint : UInt64
  deriving DecidableEq

/-- What the URL helper returned. -/
structure DesktopActivityUrlResult where
  generation : Nat
  windowId : Nat
  url : Option String
  unavailable : Bool
  deriving DecidableEq

/-- The window in the foreground when the probe was asked. -/
structure ForegroundSnapshot where
  windowId : Nat
  app : String
  exeName : String
  title : String
  deriving DecidableEq

end SolstoneWindows.ObserverModel.DesktopActivity
