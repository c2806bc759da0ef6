import Mathlib.Logic.Function.Basic
import SolstoneWindows.Lib.Effect
import SolstoneWindows.ObserverLifecycle
import SolstoneWindows.ObserverPl.Civil
import SolstoneWindows.ObserverSegment
import SolstoneWindows.ObserverState

/-!
# The state of the orchestrator

`crates/capture-engine/src/lib.rs`. The engine owns the reducer, the open segment, the restart
policy of each source and the queues of what storage still owes. Everything it asks of the
outside (the clock, the sources, the encoder, the segment file system, the activity scheduler)
is answered by the next `Reading`, so a list of readings is one behaviour of the outside: any
clock, any state of a source at any moment, any pattern of failing calls.

`history` is what the engine did, with the state it did it in, and `serving` is the event it is
handling. No function reads either. A preview is only the act of showing it: the level and the
small picture are computed from the event that is shown. Health and the setup snapshot are left
out: nothing here depends on them.
-/

set_option autoImplicit false

namespace SolstoneWindows.CaptureEngine

open Lib.Effect
open ObserverModel ObserverState
open ObserverSegment ObserverLifecycle

/-! ## Data -/

/-- The end of the video in a segment, in seconds: the bits of the float, when there is one. -/
abbrev VideoEnd : Type := Option UInt64

structure OpenSegment where
  key : SegmentKey
  dir : String
  openedMonotonicUs : Nat
  boundaryOffsetUs : Nat
  screenEncoderOpen : Bool
  deriving DecidableEq

/-- Which start of its source, and which of the source's streams, an event came from. -/
structure InputAdmission where
  sourceGeneration : Nat
  streamGeneration : Nat
  deriving DecidableEq

/-- What a source puts into the engine's queue. -/
inductive CaptureEvent where
  | audio (kind : SourceKind) (admission : InputAdmission) (chunk : CaptureChunk)
  | screen (admission : InputAdmission) (frame : ScreenFrame)
  deriving DecidableEq

/-- A row of desktop activity: its start in milliseconds and its line, unless that cannot be
written as JSON. -/
structure ActivityRow where
  ts : Nat
  line : Option String
  deriving DecidableEq

structure PendingActivityRow where
  key : SegmentKey
  fileName : String
  line : String
  committedLen : Nat
  deriving DecidableEq

structure SourceError where
  reason : ErrorReason
  detail : String
  deriving DecidableEq

/-- A pause the owner chose and has not ended, as the pause store holds it. -/
inductive HeldPause where
  | untilResumed
  | until (deadline : Nat)
  deriving DecidableEq

/-- Commands the shell and the lifecycle pump can send to the engine loop. The new preferences of
desktop activity go to its scheduler. -/
inductive EngineCommand where
  | pause (reason : PauseReason) (durationSecs : Option Nat)
  | resume
  | systemResume
  | togglePause
  | displayChanged
  | setSourceEnabled (kind : SourceKind) (enabled : Bool)
  | setDesktopActivityPreferences
  | setDesktopActivityThroughPause (enabled : Bool)
  | clearPreviews
  deriving DecidableEq

/-- The configured choices of the owner. -/
structure SetupSnapshot where
  screen : Bool
  systemAudio : Bool
  mic : Bool
  desktopActivityAllowed : Bool
  desktopActivityThroughPause : Bool
  desktopActivity : Bool
  deriving DecidableEq

structure EngineConfig where
  segmentSecs : Nat := DEFAULT_SEGMENT_SECS
  lifecycle : BackoffConfig := {}
  deriving DecidableEq

/-- What the engine did. -/
inductive Act where
  | started (kind : SourceKind) (error : Option SourceError)
  | stopped (kind : SourceKind)
  | displayChanged
  | looked (key : SegmentKey) (error : Option String)
  | opened (key : SegmentKey) (error : Option String)
  | wrote (key : SegmentKey) (chunk : CaptureChunk) (error : Option String)
  | appended (row : PendingActivityRow) (error : Option String)
  | probed (fileName : String) (found : Bool)
  | finalized (key : SegmentKey) (videoEnd : VideoEnd) (error : Option String)
  /-- The window of this segment is over: it was handed to the seal. -/
  | left (key : SegmentKey)
  /-- The segment waits for its seal. -/
  | deferred (key : SegmentKey)
  | encoderOpened (dir : String) (width height : UInt32) (error : Option String)
  | encoded (frame : ScreenFrame) (error : Option String)
  | encoderFinalized (error : Option String)
  | pauseRecorded (held : Option HeldPause) (error : Option String)
  /-- A source is handed a sink of this generation. -/
  | handed (kind : SourceKind) (generation : Nat)
  /-- The sinks a source has been handed are out of date. -/
  | retired (kind : SourceKind)
  /-- The level or the frame of an event is shown in a preview. -/
  | previewed (event : CaptureEvent)
  /-- A row of desktop activity was assigned to its file. -/
  | created (row : PendingActivityRow)
  /-- A source's state was asked, and is reported. -/
  | reported (kind : SourceKind) (state : SourceState)
  /-- A source did not start, and its error is reported. -/
  | refused (kind : SourceKind) (state : SourceState)
  /-- A failure of a source was counted. -/
  | failed (kind : SourceKind) (decision : RetryDecision)
  /-- The failures of a source are forgotten. -/
  | succeeded (kind : SourceKind)
  /-- The planned restart of a source is made. -/
  | retried (kind : SourceKind)
  /-- The planned restart of a source that is switched off is forgotten. -/
  | dropped (kind : SourceKind)
  /-- A source is started by a start, a resume or a switch. -/
  | asked (kind : SourceKind)
  /-- In a pause, desktop activity was found in this state. -/
  | checked (state : SourceState)
  deriving DecidableEq

/-- An act and what the engine's state was at the time. -/
structure Entry where
  state : StateMachine
  activityThroughPause : Bool
  act : Act
  /-- The event that was being handled. -/
  serving : Option CaptureEvent
  /-- The segment that was open. -/
  openKey : Option SegmentKey
  /-- The segments that had activity rows queued. -/
  queuedKeys : List SegmentKey
  deriving DecidableEq

/-- One answer of the outside. A call uses the fields it asks for. -/
structure Reading where
  epochSecs : Nat
  epochUs : Nat
  monotonicUs : Nat
  /-- Why a call that can fail fails, if it does. -/
  error : Option SourceError
  /-- The state a source is in. -/
  state : SourceState
  /-- Whether the exclusion rules for desktop activity can be read. -/
  exclusionAvailable : Bool
  streamGeneration : Nat
  /-- The events in the queue. -/
  events : List CaptureEvent
  /-- The rows the scheduler hands out. -/
  rows : List ActivityRow
  /-- The path of a segment's directory. -/
  dir : Option String
  fileExists : Bool
  artifactId : String
  videoEnd : VideoEnd
  encoderError : Option String
  heldPause : Option HeldPause
  /-- Whether a preview of the source is open, and was when the event was admitted. -/
  previewWanted : Bool

/-- An answer with nothing in it, from a source that is not running. -/
def Reading.quiet : Reading where
  epochSecs := 0
  epochUs := 0
  monotonicUs := 0
  error := none
  state := .inactive
  exclusionAvailable := true
  streamGeneration := 0
  events := []
  rows := []
  dir := none
  fileExists := false
  artifactId := ""
  videoEnd := none
  encoderError := none
  heldPause := none
  previewWanted := false

instance : Inhabited Reading := ⟨Reading.quiet⟩

structure Engine where
  config : EngineConfig
  state : StateMachine
  currentSegment : Option OpenSegment
  sourceReports : SourceKind → Option SourceState
  lifecycles : SourceKind → Lifecycle
  retryAtEpochSecs : SourceKind → Option Nat
  /-- The segments that wait for their seal, in the order of their keys. -/
  pendingSeals : List (SegmentKey × VideoEnd)
  writeStalled : Bool
  storageFault : Option String
  storageLifecycle : Lifecycle
  storageRetryAt : Option Nat
  /-- Whether the owner's pause is kept across restarts. -/
  pauseStore : Bool
  /-- How often each source's sinks were renewed. The source counts in a `u64`, which wraps; these
  numbers do not, so two sinks 2^64 renewals apart are told apart here only. -/
  generations : SourceKind → Nat
  artifactId : String
  pendingActivityRows : List PendingActivityRow
  committedActivityLens : SegmentKey × String → Nat
  activityBatchWritten : Bool
  /-- The owner's desktop activity switch. -/
  activityAllowed : Bool
  activityThroughPause : Bool
  /-- When the preview of a source last changed, by the source's own clock. -/
  lastPreview : SourceKind → Option Int
  serving : Option CaptureEvent
  history : List Entry

/-- A program of the engine. The only way it does not return is to loop. -/
abbrev EngineProg (α : Type) : Type := Prog Reading Engine Empty α

/-! ## Reading the state -/

namespace Engine

def activityRunsThroughPause (s : Engine) : Bool :=
  s.activityThroughPause && s.state.isSourceEnabled .desktopActivity

def sourceMayStart (s : Engine) (kind : SourceKind) : Bool :=
  s.state.runRequested &&
    (s.state.phase != .paused || (kind == .desktopActivity && s.activityThroughPause))

def shouldBeCapturing (s : Engine) : Bool :=
  s.state.phase != .idle && s.state.phase != .paused

/-- A segment stays open while any source runs, including desktop activity kept on through a
pause. -/
def segmentWanted (s : Engine) : Bool :=
  (s.shouldBeCapturing && s.state.anySourceEnabled) ||
    (s.state.runRequested && s.activityRunsThroughPause)

def desktopActivityMayRun (s : Engine) : Bool :=
  s.state.isSourceEnabled .desktopActivity &&
    (if s.state.phase = .paused then s.state.runRequested && s.activityThroughPause
    else s.shouldBeCapturing)

def storageHealthy (s : Engine) : Bool :=
  s.pendingSeals.isEmpty && !s.writeStalled && s.pendingActivityRows.isEmpty &&
    !(s.shouldBeCapturing && s.currentSegment.isNone)

/-! ## Changing it -/

def reduce (s : Engine) (event : AppEvent) : Engine :=
  { s with state := ObserverState.reduce s.state event }

/-- An act, done now. -/
def entry (s : Engine) (act : Act) : Entry where
  state := s.state
  activityThroughPause := s.activityThroughPause
  act := act
  serving := s.serving
  openKey := s.currentSegment.map OpenSegment.key
  queuedKeys := s.pendingActivityRows.map PendingActivityRow.key

def record (s : Engine) (act : Act) : Engine := { s with history := s.history ++ [s.entry act] }

def noteStorageFault (s : Engine) (detail : String) : Engine :=
  { s with storageFault := some detail }.reduce (.storageFaultChanged true)

def clearStorageFault (s : Engine) : Engine :=
  { s with
    storageFault := none
    storageRetryAt := none
    storageLifecycle := s.storageLifecycle.onSuccess }.reduce (.storageFaultChanged false)

def attemptClearStorage (s : Engine) : Engine :=
  if s.storageFault.isSome && s.storageHealthy then s.clearStorageFault else s

def incrementGeneration (s : Engine) (kind : SourceKind) : Engine :=
  { s with generations := Function.update s.generations kind (s.generations kind + 1) }

/-- The sinks handed to a source so far are out of date. -/
def retire (s : Engine) (kind : SourceKind) : Engine :=
  (s.incrementGeneration kind).record (.retired kind)

/-- A new sink for a source. -/
def hand (s : Engine) (kind : SourceKind) : Engine :=
  let s := s.incrementGeneration kind
  s.record (.handed kind (s.generations kind))

def markSourceSuccess (s : Engine) (kind : SourceKind) : Engine :=
  { s with
    retryAtEpochSecs := Function.update s.retryAtEpochSecs kind none
    lifecycles := Function.update s.lifecycles kind (s.lifecycles kind).onSuccess }.record
      (.succeeded kind)

/-- No restart of a source is planned. -/
def unplan (s : Engine) (kind : SourceKind) : Engine :=
  { s with retryAtEpochSecs := Function.update s.retryAtEpochSecs kind none }

/-- A source's report, in the engine's table and in the reducer. -/
def insertReport (s : Engine) (kind : SourceKind) (state : SourceState) : Engine :=
  { s with sourceReports := Function.update s.sourceReports kind (some state) }.reduce
    (.sourceUpdated kind state)

def clearSourcePreview (s : Engine) (kind : SourceKind) : Engine :=
  { s with lastPreview := Function.update s.lastPreview kind none }

def clearPreviews (s : Engine) : Engine := { s with lastPreview := fun _ => none }

end Engine

/-- The order of segment keys. -/
def keyLt (a b : SegmentKey) : Bool :=
  a.boundaryEpochSecs < b.boundaryEpochSecs ||
    (a.boundaryEpochSecs == b.boundaryEpochSecs && a.index < b.index)

/-- `BTreeMap::insert` on the segments that wait for their seal. -/
def insertSeal (key : SegmentKey) (videoEnd : VideoEnd) :
    List (SegmentKey × VideoEnd) → List (SegmentKey × VideoEnd)
  | [] => [(key, videoEnd)]
  | waiting :: seals =>
    if waiting.1 = key then (key, videoEnd) :: seals
    else if keyLt key waiting.1 then (key, videoEnd) :: waiting :: seals
    else waiting :: insertSeal key videoEnd seals

def removeSeal (key : SegmentKey) (seals : List (SegmentKey × VideoEnd)) :
    List (SegmentKey × VideoEnd) :=
  seals.filter fun waiting => waiting.1 ≠ key

/-! ## Asking the outside -/

/-- Ask for a value. -/
def ask {α : Type} (field : Reading → α) : EngineProg α :=
  Prog.call fun reading s => (.ok (field reading), s)

/-- Make a call, and note it with its answer. -/
def request {α : Type} (field : Reading → α) (act : α → Act) : EngineProg α :=
  Prog.call fun reading s => (.ok (field reading), s.record (act (field reading)))

/-- Make a call that cannot fail. -/
def tell (act : Act) : EngineProg Unit := Prog.modify (·.record act)

/-- The text of a failure. -/
def Reading.detail (reading : Reading) : Option String := reading.error.map SourceError.detail

def noteStorageFault (detail : String) : EngineProg Unit :=
  Prog.modify (·.noteStorageFault detail)

def attemptClearStorage : EngineProg Unit := Prog.modify (·.attemptClearStorage)

def reduce (event : AppEvent) : EngineProg Unit := Prog.modify (·.reduce event)

end SolstoneWindows.CaptureEngine
