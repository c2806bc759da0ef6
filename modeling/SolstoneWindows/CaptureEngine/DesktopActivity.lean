import SolstoneWindows.ObserverExclusion
import SolstoneWindows.ObserverModel.DesktopActivity

/-!
# The desktop-activity scheduler

`crates/capture-engine/src/desktop_activity.rs`: the open intervals, what closes and splits them,
and the page addresses that are read for a browser window.

A `Desk` is the scheduler with what it did so far: the rows it handed to the engine and its calls
to the source, in order. No function reads either. What a poll learns from outside (the shared
rules and whether they can be read, the events of the probe, the window in front, the result of
the URL helper) is one `PollAnswers`, with one answer for each time the code asks. The two other
functions the scheduler calls are `Hooks`: `normalize_url`, and the hash behind
`title_fingerprint`.

The order in which a hash map is walked is not specified. `openAvailabilities` is a list, walked
from its head. The request generation is a `u64`: counting past its end takes 2^64 cancelled
requests, so it is a `Nat` here.
-/

set_option autoImplicit false

namespace SolstoneWindows.CaptureEngine.DesktopActivity

open ObserverExclusion (ExclusionRules foregroundExcluded)
open ObserverModel.DesktopActivity

/-! ## State -/

/-- The interval of the window in front. `title` and `url` are what a row may show of it. -/
structure OpenForeground where
  startMs : Nat
  windowId : Nat
  app : String
  exeName : String
  rawTitle : String
  title : Option String
  url : Option String
  deriving DecidableEq

structure OpenActivity where
  startMs : Nat
  state : ActivityState
  deriving DecidableEq

structure OpenAvailability where
  startMs : Nat
  status : AvailabilityStatus
  deriving DecidableEq

/-- The URL request that is being waited for, and when the last one was made. -/
structure UrlScheduleState where
  generation : Nat := 0
  requestedWindowId : Option Nat := none
  requestedAtMs : Option Nat := none
  lastPollAtMs : Option Nat := none
  inFlight : Bool := false
  deriving DecidableEq

/-- A capability and the method that reports it. -/
abbrev AvailabilityKey : Type := AvailabilityCapability × String

/-- Pure scheduler for desktop activity. -/
structure DesktopActivityScheduler where
  windowTitles : Bool
  pageAddresses : Bool
  exclusionRules : ExclusionRules
  openForeground : Option OpenForeground := none
  openActivity : Option OpenActivity := none
  openAvailabilities : List (AvailabilityKey × OpenAvailability) := []
  urlState : UrlScheduleState := {}
  isLocked : Bool := false
  deriving DecidableEq

/-- What the scheduler tells the source. -/
inductive SourceCall where
  | requestUrl (request : DesktopActivityUrlRequest)
  | cancelUrl
  deriving DecidableEq

/-- A scheduler, and what it did so far. -/
structure Desk extends DesktopActivityScheduler where
  rows : List DesktopActivityRow := []
  calls : List SourceCall := []
  deriving DecidableEq

/-- The functions the scheduler calls. -/
structure Hooks where
  normalizeUrl : String → Option String
  titleFingerprint : String → UInt64

/-- What one poll learns, in the order the code asks. -/
structure PollAnswers where
  /-- The shared rules, when there are some and they can be read. -/
  rules : Option ExclusionRules := none
  /-- Whether the exclusion policy is available. -/
  available : Bool := true
  coarseEvents : List DesktopActivityProbeEvent := []
  events : List DesktopActivityProbeEvent := []
  snapshot : Option ForegroundSnapshot := none
  result : Option DesktopActivityUrlResult := none
  availableAtResult : Bool := true
  rulesAtResult : Option ExclusionRules := none
  snapshotAtResult : Option ForegroundSnapshot := none

/-- `DesktopActivityScheduler::new`. -/
def new (windowTitles pageAddresses : Bool) (exclusionRules : ExclusionRules) : Desk where
  windowTitles := windowTitles
  pageAddresses := pageAddresses
  exclusionRules := exclusionRules

/-! ## Rows and the source -/

/-- The row of a foreground interval that ends now. -/
def OpenForeground.row (fg : OpenForeground) (nowMs : Nat) : DesktopActivityRow :=
  .foreground fg.startMs (max nowMs fg.startMs) fg.app (some fg.exeName) fg.title fg.url

def OpenActivity.row (act : OpenActivity) (nowMs : Nat) : DesktopActivityRow :=
  .activity act.startMs (max nowMs act.startMs) act.state

def OpenAvailability.row (avail : OpenAvailability) (nowMs : Nat) (key : AvailabilityKey) :
    DesktopActivityRow :=
  .availability avail.startMs (max nowMs avail.startMs) key.2 key.1 avail.status

namespace Desk

def push (row : DesktopActivityRow) (d : Desk) : Desk := { d with rows := d.rows ++ [row] }

def cancelUrl (d : Desk) : Desk := { d with calls := d.calls ++ [.cancelUrl] }

/-- A new generation: no result of an earlier request will be taken. -/
def clearRequest (d : Desk) : Desk :=
  { d with urlState := { d.urlState with
      generation := d.urlState.generation + 1
      inFlight := false
      requestedWindowId := none
      requestedAtMs := none } }.cancelUrl

/-- Give up a request that is in flight. -/
def dropRequest (d : Desk) : Desk := if d.urlState.inFlight then d.clearRequest else d

/-- Ask the URL helper about a window, under the current generation. -/
def requestUrl (hooks : Hooks) (fg : OpenForeground) (nowMs : Nat) (d : Desk) : Desk :=
  { d with
    urlState := { d.urlState with
      inFlight := true
      requestedWindowId := some fg.windowId
      requestedAtMs := some nowMs
      lastPollAtMs := some nowMs }
    calls := d.calls ++ [.requestUrl
      ⟨d.urlState.generation, fg.windowId, fg.exeName, hooks.titleFingerprint fg.rawTitle⟩] }

/-- End the foreground interval. -/
def closeForeground (nowMs : Nat) (d : Desk) : Desk :=
  match d.openForeground with
  | none => d
  | some old => { d with openForeground := none }.push (old.row nowMs)

/-- End the foreground interval and begin another one in its place. -/
def splitForeground (old new : OpenForeground) (nowMs : Nat) (d : Desk) : Desk :=
  { d with openForeground := some new }.push (old.row nowMs)

/-- The window in front has no page address any more. -/
def dropUrl (nowMs : Nat) (d : Desk) : Desk :=
  match d.openForeground with
  | none => d
  | some fg =>
    if fg.url.isSome then d.splitForeground fg { fg with startMs := nowMs, url := none } nowMs
    else d

/-- The window in front has this page address. -/
def setUrl (url : String) (nowMs : Nat) (d : Desk) : Desk :=
  match d.openForeground with
  | none => d
  | some fg =>
    if fg.url = some url then d
    else d.splitForeground fg { fg with startMs := nowMs, url := some url } nowMs

/-! ## Availability -/

def transitionAvailability (nowMs : Nat) (method : String) (capability : AvailabilityCapability)
    (status : AvailabilityStatus) (d : Desk) : Desk :=
  let key : AvailabilityKey := (capability, method)
  let opened : OpenAvailability := ⟨nowMs, status⟩
  let others := d.openAvailabilities.filter fun entry => entry.1 ≠ key
  match d.openAvailabilities.lookup key with
  | none => { d with openAvailabilities := others ++ [(key, opened)] }
  | some existing =>
    if existing.status = status then d
    else
      { d with openAvailabilities := others ++ [(key, opened)] }.push (existing.row nowMs key)

def closeAvailability (nowMs : Nat) (method : String) (capability : AvailabilityCapability)
    (d : Desk) : Desk :=
  let key : AvailabilityKey := (capability, method)
  match d.openAvailabilities.lookup key with
  | none => d
  | some old =>
    { d with openAvailabilities := d.openAvailabilities.filter fun entry => entry.1 ≠ key }.push
      (old.row nowMs key)

/-- The page address cannot be read. -/
def urlUnavailable (nowMs : Nat) (d : Desk) : Desk :=
  d.transitionAvailability nowMs "uia" .url .unavailable

/-! ## Owner choices -/

def setPreferences (windowTitles pageAddresses : Bool) (nowMs : Nat) (d : Desk) : Desk :=
  let titlesChanged := d.windowTitles != windowTitles
  let addressesChanged := d.pageAddresses != pageAddresses
  let turningOffTitles := d.windowTitles && !windowTitles
  let turningOffAddresses := d.pageAddresses && !pageAddresses
  let d := { d with windowTitles := windowTitles, pageAddresses := pageAddresses }
  let d := if turningOffTitles || turningOffAddresses then d.clearRequest else d
  let d := if turningOffAddresses then d.closeAvailability nowMs "uia" .url else d
  match d.openForeground with
  | none => d
  | some fg =>
    let newTitle := if windowTitles then some fg.rawTitle else none
    let newUrl := if pageAddresses then fg.url else none
    if (titlesChanged && fg.title != newTitle) || (addressesChanged && fg.url != newUrl) then
      d.splitForeground fg { fg with startMs := nowMs, title := newTitle, url := newUrl } nowMs
    else d

def setExclusionRules (rules : ExclusionRules) (nowMs : Nat) (d : Desk) : Desk :=
  let d := { d with exclusionRules := rules }
  match d.openForeground with
  | none => d
  | some fg =>
    if foregroundExcluded rules fg.exeName fg.rawTitle then (d.closeForeground nowMs).clearRequest
    else d

/-- Take over the shared rules when they differ. -/
def refreshRules (shared : Option ExclusionRules) (nowMs : Nat) (d : Desk) : Desk :=
  match shared with
  | none => d
  | some rules => if rules = d.exclusionRules then d else d.setExclusionRules rules nowMs

/-! ## Events -/

/-- The browsers whose page address is read. -/
def isBrowser (exeName : String) : Bool := exeName == "msedge.exe" || exeName == "chrome.exe"

/-- What a window that has just come to the front needs of the URL helper. -/
def askForUrl (hooks : Hooks) (fg : OpenForeground) (nowMs : Nat) (d : Desk) : Desk :=
  if d.pageAddresses && !d.isLocked then
    if isBrowser fg.exeName then d.requestUrl hooks fg nowMs else d.urlUnavailable nowMs
  else d

/-- The `Foreground` arm of `handle_event`. -/
def handleForeground (hooks : Hooks) (windowId : Nat) (app exeName title : String) (nowMs : Nat)
    (d : Desk) : Desk :=
  if d.isLocked then d
  else if foregroundExcluded d.exclusionRules exeName title then
    (d.closeForeground nowMs).dropRequest
  -- The same window again: its executable is not compared.
  else if d.openForeground.any fun current =>
      current.windowId == windowId && current.rawTitle == title && current.app == app then d
  else
    let d := (d.closeForeground nowMs).dropRequest
    let fg : OpenForeground :=
      ⟨nowMs, windowId, app, exeName, title, if d.windowTitles then some title else none, none⟩
    let d := { d with openForeground := some fg }
    (d.closeAvailability nowMs "winevent" .foreground).askForUrl hooks fg nowMs

/-- The `TitleChanged` arm of `handle_event`. -/
def handleTitleChanged (hooks : Hooks) (windowId : Nat) (title : String) (nowMs : Nat) (d : Desk) :
    Desk :=
  if d.isLocked then d
  else
    match d.openForeground with
    | none => d
    | some current =>
      if current.windowId ≠ windowId then d
      else if current.rawTitle = title then d
      else if foregroundExcluded d.exclusionRules current.exeName title then
        (d.closeForeground nowMs).dropRequest
      else
        let d := (d.closeForeground nowMs).dropRequest
        let fg : OpenForeground := ⟨nowMs, windowId, current.app, current.exeName, title,
          if d.windowTitles then some title else none, none⟩
        { d with openForeground := some fg }.askForUrl hooks fg nowMs

/-- End the activity interval. -/
def closeActivity (nowMs : Nat) (d : Desk) : Desk :=
  match d.openActivity with
  | none => d
  | some old => { d with openActivity := none }.push (old.row nowMs)

/-- The `ActivityStateChanged` arm of `handle_event`. -/
def handleActivityState (newState : ActivityState) (nowMs : Nat) (d : Desk) : Desk :=
  let d :=
    if d.openActivity.all fun a => a.state != newState then
      { d.closeActivity nowMs with openActivity := some ⟨nowMs, newState⟩ }
    else d
  let d :=
    if newState = .locked then (({ d with isLocked := true }).closeForeground nowMs).dropRequest
    else { d with isLocked := false }
  d.closeAvailability nowMs "winevent" .idle

def handleEvent (hooks : Hooks) (nowMs : Nat) (d : Desk) : DesktopActivityProbeEvent → Desk
  | .foreground windowId app exeName title =>
    d.handleForeground hooks windowId app exeName title nowMs
  | .titleChanged windowId title => d.handleTitleChanged hooks windowId title nowMs
  | .activityStateChanged newState => d.handleActivityState newState nowMs
  | .foregroundUnavailable =>
    ((d.closeForeground nowMs).dropRequest).transitionAvailability nowMs "winevent" .foreground
      .unavailable
  | .idleUnavailable =>
    (d.closeActivity nowMs).transitionAvailability nowMs "winevent" .idle .unavailable

/-- The events that are looked at while the exclusion policy is unavailable. -/
def handleCoarseEvent (hooks : Hooks) (nowMs : Nat) (d : Desk)
    (event : DesktopActivityProbeEvent) : Desk :=
  match event with
  | .activityStateChanged _ => d.handleEvent hooks nowMs event
  | .idleUnavailable => d.handleEvent hooks nowMs event
  | _ => d

/-! ## Page addresses -/

/-- Whether a window the probe sees is still the one the interval is about. -/
def sameWindow (rules : ExclusionRules) (snapshot : ForegroundSnapshot) (fg : OpenForeground) :
    Bool :=
  snapshot.windowId == fg.windowId && snapshot.exeName == fg.exeName &&
    snapshot.title == fg.rawTitle &&
    !foregroundExcluded rules snapshot.exeName snapshot.title

/-- What a result that is taken says about the window in front. -/
def recordUrl (hooks : Hooks) (result : DesktopActivityUrlResult) (nowMs : Nat) (d : Desk) : Desk :=
  if result.unavailable then (d.urlUnavailable nowMs).dropUrl nowMs
  else
    let d := d.closeAvailability nowMs "uia" .url
    match result.url.bind hooks.normalizeUrl with
    | none => d.dropUrl nowMs
    | some url => d.setUrl url nowMs

/-- `handle_url_result` once the rules are up to date. -/
def admitUrlResult (hooks : Hooks) (result : DesktopActivityUrlResult)
    (snapshot : Option ForegroundSnapshot) (nowMs : Nat) (d : Desk) : Desk :=
  if result.generation ≠ d.urlState.generation then d
  else
    let d := { d with urlState := { d.urlState with inFlight := false, requestedAtMs := none } }
    match d.openForeground with
    | none => d
    | some fg =>
      if some fg.windowId ≠ d.urlState.requestedWindowId ∨ fg.windowId ≠ result.windowId then d
      else if !d.pageAddresses || d.isLocked then d
      else if foregroundExcluded d.exclusionRules fg.exeName fg.rawTitle then d
      else if snapshot.any fun snap => sameWindow d.exclusionRules snap fg then
        d.recordUrl hooks result nowMs
      else d

def handleUrlResult (hooks : Hooks) (answers : PollAnswers) (result : DesktopActivityUrlResult)
    (nowMs : Nat) (d : Desk) : Desk :=
  if answers.availableAtResult then
    (d.refreshRules answers.rulesAtResult nowMs).admitUrlResult hooks result
      answers.snapshotAtResult nowMs
  else d

/-! ## Polling -/

/-- No exclusion policy: nothing about the foreground is kept. -/
def discardForeground (d : Desk) : Desk := { d.dropRequest with openForeground := none }

/-- The content-free rows that say so. -/
def exclusionUnavailable (nowMs : Nat) (d : Desk) : Desk :=
  (d.transitionAvailability nowMs "winevent" .foreground .unavailable).urlUnavailable nowMs

/-- Ask the probe for the window in front when no interval is open. -/
def queryForeground (hooks : Hooks) (snapshot : Option ForegroundSnapshot) (nowMs : Nat)
    (d : Desk) : Desk :=
  if d.openForeground.isNone && !d.isLocked then
    match snapshot with
    | none => d
    | some snap =>
      d.handleEvent hooks nowMs (.foreground snap.windowId snap.app snap.exeName snap.title)
  else d

/-- The deadline of a URL request. -/
def checkDeadline (nowMs : Nat) (d : Desk) : Desk :=
  if d.urlState.inFlight then
    match d.urlState.requestedAtMs with
    | none => d
    | some requestedAt =>
      if nowMs - requestedAt ≥ 2000 then ((d.urlUnavailable nowMs).dropUrl nowMs).clearRequest
      else d
  else d

/-- A new generation, for a request that follows no other. -/
def nextGeneration (d : Desk) : Desk :=
  { d with urlState := { d.urlState with generation := d.urlState.generation + 1 } }

/-- The re-read of a browser's page address. -/
def checkCadence (hooks : Hooks) (nowMs : Nat) (d : Desk) : Desk :=
  match d.openForeground with
  | none => d
  | some fg =>
    if d.pageAddresses && !d.isLocked then
      if isBrowser fg.exeName then
        if !d.urlState.inFlight && d.urlState.lastPollAtMs.all fun last => nowMs - last ≥ 4000 then
          d.nextGeneration.requestUrl hooks fg nowMs
        else d
      else d.urlUnavailable nowMs
    else d

def pollAndStep (hooks : Hooks) (answers : PollAnswers) (nowMs : Nat) (d : Desk) : Desk :=
  -- 0. Check exclusion rules change before anything else
  let d := d.refreshRules answers.rules nowMs
  if !answers.available then
    let d := d.discardForeground
    let d := answers.coarseEvents.foldl (handleCoarseEvent hooks nowMs) d
    d.exclusionUnavailable nowMs
  else
    -- 1. Poll probe events
    let d := answers.events.foldl (handleEvent hooks nowMs) d
    let d := d.queryForeground hooks answers.snapshot nowMs
    -- 2. Poll URL result from source before checking deadline
    let d :=
      match answers.result with
      | none => d
      | some result => d.handleUrlResult hooks answers result nowMs
    -- 3. Check URL request timeout (2s deadline)
    let d := d.checkDeadline nowMs
    -- 4. Cadence check for browser document URL (4s re-read)
    d.checkCadence hooks nowMs

/-! ## Boundaries and stops -/

/-- The foreground interval at a rotation boundary. -/
def splitForegroundAt (boundaryMs : Nat) (d : Desk) : Desk :=
  match d.openForeground with
  | none => d
  | some fg => d.splitForeground fg { fg with startMs := boundaryMs } boundaryMs

/-- The activity interval at a rotation boundary. -/
def splitActivityAt (boundaryMs : Nat) (d : Desk) : Desk :=
  match d.openActivity with
  | none => d
  | some act =>
    { d with openActivity := some { act with startMs := boundaryMs } }.push (act.row boundaryMs)

/-- Split open intervals across a rotation boundary. -/
def onBoundary (boundaryMs : Nat) (d : Desk) : Desk :=
  let d := (d.splitForegroundAt boundaryMs).splitActivityAt boundaryMs
  { d with
    rows := d.rows ++ d.openAvailabilities.map fun entry => entry.2.row boundaryMs entry.1
    openAvailabilities := d.openAvailabilities.map fun entry =>
      (entry.1, { entry.2 with startMs := boundaryMs }) }

/-- Close all open intervals at stop or pause. -/
def closeAll (nowMs : Nat) (d : Desk) : Desk :=
  let d := { d with isLocked := false }.clearRequest
  let d := (d.closeForeground nowMs).closeActivity nowMs
  { d with
    rows := d.rows ++ d.openAvailabilities.map fun entry => entry.2.row nowMs entry.1
    openAvailabilities := [] }

def sourceUnavailable (nowMs : Nat) (d : Desk) : Desk :=
  let d :=
    if d.openForeground.isSome || d.openActivity.isSome || d.urlState.inFlight then
      d.closeAll nowMs
    else d.cancelUrl
  let d := d.transitionAvailability nowMs "winevent" .foreground .unavailable
  d.transitionAvailability nowMs "winevent" .idle .unavailable

end Desk

/-! ## Calls -/

/-- The calls of the engine. -/
inductive Call where
  | pollAndStep (answers : PollAnswers) (nowMs : Nat)
  | setPreferences (windowTitles pageAddresses : Bool) (nowMs : Nat)
  | setExclusionRules (rules : ExclusionRules) (nowMs : Nat)
  | onBoundary (boundaryMs : Nat)
  | sourceUnavailable (nowMs : Nat)
  | closeAll (nowMs : Nat)

def Desk.call (hooks : Hooks) (d : Desk) : Call → Desk
  | .pollAndStep answers nowMs => d.pollAndStep hooks answers nowMs
  | .setPreferences windowTitles pageAddresses nowMs =>
    d.setPreferences windowTitles pageAddresses nowMs
  | .setExclusionRules rules nowMs => d.setExclusionRules rules nowMs
  | .onBoundary boundaryMs => d.onBoundary boundaryMs
  | .sourceUnavailable nowMs => d.sourceUnavailable nowMs
  | .closeAll nowMs => d.closeAll nowMs

end SolstoneWindows.CaptureEngine.DesktopActivity
