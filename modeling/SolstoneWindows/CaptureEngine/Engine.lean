import SolstoneWindows.CaptureEngine.State

/-!
# What the orchestrator does

The functions of `crates/capture-engine/src/lib.rs`, from the storage they share up to `pump`
and `apply_command`.

`rotateLoop` is a `while` of the source. It gets a round for each second up to the clock's reading
and for each answer to come, which is as many as a loop that ends can take; a rotation period of 0
can bring one about that does not.
-/

set_option autoImplicit false

namespace SolstoneWindows.CaptureEngine

open Lib.Effect
open ObserverModel ObserverState
open ObserverSegment ObserverLifecycle

/-! ## Desktop activity rows -/

/-- The name of the activity file of a segment. -/
def activityFileName (boundaryEpochSecs : Nat) (offsetSecs : Int) (artifactId : String)
    (periodSecs : Nat) : String :=
  ObserverPl.Civil.segmentKeyStringLocal boundaryEpochSecs offsetSecs periodSecs ++ "_" ++
    artifactId ++ "_desktop_activity.jsonl"

/-- The activity file that rows for a segment go to now. -/
def Engine.activityFile (s : Engine) (key : SegmentKey) : String :=
  activityFileName key.boundaryEpochSecs 0 s.artifactId s.config.segmentSecs

def renewArtifactId : EngineProg Unit := do
  let artifactId ← ask Reading.artifactId
  Prog.modify fun s => { s with artifactId := artifactId, activityBatchWritten := false }

/-- The tries of `ensure_unique_artifact_id`: a name is taken in the incomplete or the sealed
directory. -/
def uniqueLoop (key : SegmentKey) : Nat → EngineProg Unit
  | 0 => pure ()
  | tries + 1 => do
    let s ← Prog.get
    let inIncomplete ← request Reading.fileExists (.probed (s.activityFile key))
    let inSealed ← request Reading.fileExists (.probed (s.activityFile key))
    if inIncomplete || inSealed then do
      renewArtifactId
      uniqueLoop key tries
    else pure ()

def ensureUniqueArtifactId (key : SegmentKey) : EngineProg Unit := do
  let s ← Prog.get
  match s.currentSegment with
  | none => pure ()
  | some _ => uniqueLoop key 100

/-- The loop of `flush_activity_queue`: rows go out in order until one fails. -/
def flushRows : List PendingActivityRow → EngineProg Unit
  | [] => attemptClearStorage
  | row :: rows => do
    match ← request Reading.detail (.appended row) with
    | none => do
      Prog.modify fun s => { s with pendingActivityRows := rows }
      flushRows rows
    | some detail => noteStorageFault detail

def flushActivityQueue : EngineProg Unit := do
  let s ← Prog.get
  Prog.onlyIf (!s.pendingActivityRows.isEmpty) (flushRows s.pendingActivityRows)

/-- Queue a line for the activity file, and count it as committed there. -/
def Engine.pushActivityRow (s : Engine) (key : SegmentKey) (line : String) : Engine :=
  let file := (key, s.activityFile key)
  let row := ⟨key, file.2, line, s.committedActivityLens file⟩
  { s.record (.created row) with
    committedActivityLens := Function.update s.committedActivityLens file
      (s.committedActivityLens file + line.utf8ByteSize)
    pendingActivityRows := s.pendingActivityRows ++ [row] }

/-- The first row of a batch settles the name of its file. -/
def beginActivityBatch (key : SegmentKey) : EngineProg Unit := do
  ensureUniqueArtifactId key
  Prog.modify fun s => { s with activityBatchWritten := true }

def appendActivityRow (row : ActivityRow) : EngineProg Unit :=
  match row.line with
  | none => pure ()
  | some line => do
    let s ← Prog.get
    let key := segmentFor (row.ts / 1000) s.config.segmentSecs
    Prog.onlyIf (!s.activityBatchWritten) (beginActivityBatch key)
    Prog.modify (·.pushActivityRow key line)
    flushActivityQueue

def appendActivityRows : List ActivityRow → EngineProg Unit
  | [] => pure ()
  | row :: rows => do
    appendActivityRow row
    appendActivityRows rows

/-- The scheduler closes its open spans, and the rows are stored. -/
def closeActivity : EngineProg Unit := do
  let rows ← ask Reading.rows
  appendActivityRows rows

/-! ## Source reports -/

/-- `[breaker-open] `, once. -/
def markBreakerOpen (detail : String) : String :=
  if "[breaker-open] ".toList.isPrefixOf detail.toList then detail
  else "[breaker-open] " ++ detail

def isFaulted : SourceState → Bool
  | .faulted _ _ => true
  | _ => false

/-- The count of a source's failures after one more, with the decision that came of it. -/
def Engine.countFailure (s : Engine) (kind : SourceKind) (outcome : RetryDecision × Lifecycle) :
    Engine :=
  { s with lifecycles := Function.update s.lifecycles kind outcome.2 }.record
    (.failed kind outcome.1)

/-- A restart of a source is planned. -/
def Engine.plan (s : Engine) (kind : SourceKind) (retryAt : Nat) : Engine :=
  { s with retryAtEpochSecs := Function.update s.retryAtEpochSecs kind (some retryAt) }

/-- Count a failure of a source, and plan its restart or give up on it. -/
def recordFailure (kind : SourceKind) (reason : ErrorReason) (detail : String) :
    EngineProg SourceState := do
  let s ← Prog.get
  let outcome := (s.lifecycles kind).onFailure
  Prog.modify (·.countFailure kind outcome)
  match outcome.1 with
  | .retryAfter delay => do
    let now ← ask Reading.epochSecs
    Prog.modify (·.plan kind (saturatingAdd now (asSecs delay)))
    pure (.faulted reason detail)
  | .giveUp => do
    Prog.modify (·.unplan kind)
    pure (.faulted reason (markBreakerOpen detail))

/-- Feed a fault to the restart policy. The answer is the state with the detail to report. A
refused permission never counts as a failure. -/
def handleFaultTransition (kind : SourceKind) (previous : Option SourceState)
    (current : SourceState) (forceFailure : Bool) : EngineProg SourceState :=
  match current with
  | .faulted reason detail =>
    if reason = .accessDenied then pure current
    else if forceFailure || !previous.any isFaulted then recordFailure kind reason detail
    else do
      let s ← Prog.get
      if (s.lifecycles kind).breaker = .opened then pure (.faulted reason (markBreakerOpen detail))
      else pure current
  | _ => pure current

/-- Whether a source in this state does not produce. -/
def isSilent (state : SourceState) : Bool :=
  state == .inactive || state == .noInputDevice || isFaulted state

def clearSourcePreview (kind : SourceKind) : EngineProg Unit :=
  Prog.modify (·.clearSourcePreview kind)

def applySourceReport (kind : SourceKind) (state : SourceState) : EngineProg Unit := do
  Prog.onlyIf (isSilent state) (clearSourcePreview kind)
  let s ← Prog.get
  let previous := s.sourceReports kind
  let state ← handleFaultTransition kind previous state false
  Prog.onlyIf (previous.any isFaulted && !isFaulted state) (Prog.modify (·.markSourceSuccess kind))
  Prog.modify fun s => (s.insertReport kind state).record (.reported kind state)

def applyEncoderError (detail : String) : EngineProg Unit := do
  clearSourcePreview .screen
  applySourceReport .screen (.faulted .writeFailed detail)

def applySourceError (kind : SourceKind) (error : SourceError) : EngineProg Unit := do
  clearSourcePreview kind
  let s ← Prog.get
  let state ← handleFaultTransition kind (s.sourceReports kind)
    (.faulted error.reason error.detail) true
  Prog.modify fun s => (s.insertReport kind state).record (.refused kind state)

def sourceState (kind : SourceKind) : EngineProg SourceState := do
  let reading ← ask fun reading => (reading.exclusionAvailable, reading.state)
  pure (if kind = .desktopActivity ∧ reading.1 = false then .faulted .unknown "" else reading.2)

/-- The screen's state, unless its encoder has an error. -/
def screenState : EngineProg SourceState := do
  match ← ask Reading.encoderError with
  | some detail => pure (.faulted .writeFailed detail)
  | none => sourceState .screen

def foldSourceStates : EngineProg Unit := do
  let screen ← screenState
  let systemAudio ← sourceState .systemAudio
  let mic ← sourceState .mic
  let desktopActivity ← sourceState .desktopActivity
  applySourceReport .screen screen
  applySourceReport .systemAudio systemAudio
  applySourceReport .mic mic
  applySourceReport .desktopActivity desktopActivity

/-! ## Segments -/

def Engine.deferSeal (s : Engine) (key : SegmentKey) (videoEnd : VideoEnd) : Engine :=
  { s with pendingSeals := insertSeal key videoEnd s.pendingSeals }.record (.deferred key)

/-- The segment did not get its seal: it waits for one. -/
def deferSeal (key : SegmentKey) (videoEnd : VideoEnd) (detail : String) : EngineProg Unit := do
  Prog.modify (·.deferSeal key videoEnd)
  noteStorageFault detail

/-- Finalize the segment's directory. -/
def finalizeSegment (key : SegmentKey) (videoEnd : VideoEnd) : EngineProg Unit := do
  match ← request Reading.detail (.finalized key videoEnd) with
  | some detail => deferSeal key videoEnd detail
  | none => do
    Prog.modify fun s => { s with pendingSeals := removeSeal key s.pendingSeals }
    renewArtifactId
    attemptClearStorage

/-- A segment whose encoder cannot be finalized is not sealed. -/
def sealSegment (segment : OpenSegment) : EngineProg Unit := do
  match ← request Reading.detail .encoderFinalized with
  | some detail => applyEncoderError detail
  | none => do
    let reading ← ask Reading.videoEnd
    let videoEnd := if segment.screenEncoderOpen then reading else none
    let s ← Prog.get
    if s.pendingActivityRows.any fun row => row.key = segment.key then do
      deferSeal segment.key videoEnd "activity rows await durable write before sealing"
      renewArtifactId
    else finalizeSegment segment.key videoEnd

def attachSegment (key : SegmentKey) (dir : String) : EngineProg Unit := do
  let monotonicUs ← ask Reading.monotonicUs
  let epochUs ← ask Reading.epochUs
  Prog.modify fun s => { s with
    currentSegment := some
      { key := key
        dir := dir
        openedMonotonicUs := monotonicUs
        boundaryOffsetUs := epochUs - saturatingMul key.boundaryEpochSecs 1000000
        screenEncoderOpen := false } }
  flushActivityQueue

/-- The path of a directory that was asked for, or why there is none. -/
def Reading.openedDir (reading : Reading) : Except String String :=
  match reading.detail with
  | some detail => .error detail
  | none => .ok (reading.dir.getD "")

def Reading.foundDir (reading : Reading) : Except String (Option String) :=
  match reading.detail with
  | some detail => .error detail
  | none => .ok reading.dir

/-- What went wrong, if anything. -/
def failure {α : Type} : Except String α → Option String
  | .ok _ => none
  | .error detail => some detail

def openSegmentKey (key : SegmentKey) : EngineProg Unit := do
  let s ← Prog.get
  match s.currentSegment with
  | some _ => pure ()
  | none => do
    match ← request Reading.openedDir fun result => .opened key (failure result) with
    | .error detail => noteStorageFault detail
    | .ok dir => do
      attachSegment key dir
      attemptClearStorage

def openCurrentSegment : EngineProg Unit := do
  let now ← ask Reading.epochSecs
  let s ← Prog.get
  openSegmentKey (segmentFor now s.config.segmentSecs)

def adoptCurrentSegment : EngineProg Unit := do
  let s ← Prog.get
  match s.currentSegment with
  | some _ => pure ()
  | none => do
    let now ← ask Reading.epochSecs
    let key := segmentFor now s.config.segmentSecs
    match ← request Reading.foundDir fun result => .looked key (failure result) with
    | .ok (some dir) => attachSegment key dir
    | .ok none => pure ()
    | .error detail => noteStorageFault detail

/-- Leave the current segment to the seal. -/
def leaveSegment (segment : OpenSegment) : EngineProg Unit := do
  Prog.modify fun s => { s with currentSegment := none }
  sealSegment segment
  tell (.left segment.key)

/-- Open the next segment when one is wanted. The answer says whether it was. -/
def reopen (closing : Bool) (key : SegmentKey) : EngineProg Bool := do
  let s ← Prog.get
  if closing || s.segmentWanted then do
    openSegmentKey key
    pure true
  else pure false

/-- Leave the current segment, and open the next one when one is wanted. -/
def moveOn (closing : Bool) (segment : OpenSegment) (next : Nat → SegmentKey) :
    EngineProg Bool := do
  leaveSegment segment
  let s ← Prog.get
  reopen closing (next s.config.segmentSecs)

/-- A clock behind the segment: advancing boundaries cannot reach it. -/
def stepBack (closing : Bool) (now : Nat) (segment : OpenSegment) : EngineProg Unit := do
  closeActivity
  tell (.stopped .desktopActivity)
  let _ ← moveOn closing segment fun period => segmentFor now period
  pure ()

/-- A clock past the segment: go on to the next one. -/
def stepForward (closing : Bool) (segment : OpenSegment) : EngineProg Bool := do
  closeActivity
  moveOn closing segment fun period =>
    segmentFor (segment.key.boundaryEpochSecs + period) period

/-- A loop that does not end. -/
def diverge : EngineProg Unit := Prog.call fun _ s => (.stopped, s)

/-- The loop of `rotate_segments`. -/
def rotateLoop (closing : Bool) (now : Nat) : Nat → EngineProg Unit
  | 0 => diverge
  | rounds + 1 => do
    let s ← Prog.get
    match s.currentSegment with
    | none => pure ()
    | some segment =>
      if !shouldRotate segment.key now s.config.segmentSecs then pure ()
      else if now < segment.key.boundaryEpochSecs then stepBack closing now segment
      else do
        let reopened ← stepForward closing segment
        if reopened then rotateLoop closing now rounds else pure ()

def rotateSegments (closing : Bool) : EngineProg Unit := fun answers =>
  (do
    let now ← ask Reading.epochSecs
    rotateLoop closing now (now + 2 + answers.length)) answers

def rotateIfNeeded : EngineProg Unit := rotateSegments false

def ensureSegmentForNow : EngineProg Unit := do
  rotateIfNeeded
  let s ← Prog.get
  Prog.onlyIf s.currentSegment.isNone openCurrentSegment

/-! ## Captured data -/

/-- A chunk's time, from the segment's start. -/
def OpenSegment.place (segment : OpenSegment) (chunk : CaptureChunk) : CaptureChunk :=
  { chunk with
    atUs := chunk.atUs.map fun atUs =>
      saturatingAdd segment.boundaryOffsetUs (atUs - segment.openedMonotonicUs) }

def writeAudioChunk (chunk : CaptureChunk) : EngineProg Unit := do
  let s ← Prog.get
  match s.currentSegment with
  | none => pure ()
  | some segment => do
    match ← request Reading.detail (.wrote segment.key (segment.place chunk)) with
    | none => do
      let s ← Prog.get
      Prog.onlyIf s.writeStalled do
        Prog.modify fun s => { s with writeStalled := false }
        attemptClearStorage
    | some detail => do
      Prog.modify fun s => { s with writeStalled := true }
      noteStorageFault detail

/-- Hand a frame to the open encoder. -/
def encodeFrame (frame : ScreenFrame) : EngineProg Unit := do
  match ← request Reading.detail (.encoded frame) with
  | none => pure ()
  | some detail => applyEncoderError detail

/-- The first frame of a segment opens its encoder. -/
def encodeScreenFrame (frame : ScreenFrame) : EngineProg Unit := do
  let s ← Prog.get
  match s.currentSegment with
  | none => pure ()
  | some segment =>
    if segment.screenEncoderOpen then encodeFrame frame
    else do
      match ← request Reading.detail (.encoderOpened segment.dir frame.width frame.height) with
      | some detail => applyEncoderError detail
      | none => do
        Prog.modify fun s => { s with
          currentSegment := s.currentSegment.map ({ · with screenEncoderOpen := true }) }
        encodeFrame frame

/-- Take an event of a current stream when its source produces. A source that does not loses its
preview. -/
def judgeAdmission (kind : SourceKind) (current : Bool) (state : SourceState) :
    EngineProg Bool := do
  Prog.onlyIf (current && isSilent state) (clearSourcePreview kind)
  pure (current && !isSilent state)

/-- Whether an event comes from the running stream of an enabled source that produces. -/
def admits (kind : SourceKind) (admission : InputAdmission) : EngineProg Bool := do
  let s ← Prog.get
  let stream ← ask Reading.streamGeneration
  let state ← sourceState kind
  judgeAdmission kind (admission.sourceGeneration == s.generations kind &&
    admission.streamGeneration == stream && s.state.isSourceEnabled kind) state

/-- Show an event in the preview of its source, unless the last one was shown just now. -/
def updatePreview (kind : SourceKind) (at_ interval : Int) (event : CaptureEvent) :
    EngineProg Unit := do
  let s ← Prog.get
  Prog.onlyIf ((s.lastPreview kind).all fun last => interval ≤ at_ - last) do
    Prog.modify fun s => { s with lastPreview := Function.update s.lastPreview kind (some at_) }
    tell (.previewed event)

/-- Only the two audio sources have a level. -/
def updateAudioPreview (kind : SourceKind) (admission : InputAdmission) (chunk : CaptureChunk) :
    EngineProg Unit := do
  let wanted ← ask Reading.previewWanted
  Prog.onlyIf (wanted && (kind == .mic || kind == .systemAudio)) do
    let now ← ask Reading.monotonicUs
    updatePreview kind (chunk.atUs.getD now) 100000 (.audio kind admission chunk)

def updateScreenPreview (admission : InputAdmission) (frame : ScreenFrame) : EngineProg Unit := do
  let wanted ← ask Reading.previewWanted
  Prog.onlyIf wanted (updatePreview .screen frame.arrival100ns 2500000 (.screen admission frame))

/-- The part of `handle_event` that the admitted event goes through. -/
def useEvent : CaptureEvent → EngineProg Unit
  | .audio kind admission chunk => do
    updateAudioPreview kind admission chunk
    writeAudioChunk chunk
  | .screen admission frame => do
    updateScreenPreview admission frame
    encodeScreenFrame frame

def CaptureEvent.kind : CaptureEvent → SourceKind
  | .audio kind _ _ => kind
  | .screen _ _ => .screen

def CaptureEvent.admission : CaptureEvent → InputAdmission
  | .audio _ admission _ => admission
  | .screen admission _ => admission

def handleEvent (event : CaptureEvent) : EngineProg Unit := do
  Prog.modify fun s => { s with serving := some event }
  let admitted ← admits event.kind event.admission
  Prog.onlyIf admitted (useEvent event)
  Prog.modify fun s => { s with serving := none }

def handleEvents : List CaptureEvent → EngineProg Unit
  | [] => pure ()
  | event :: events => do
    handleEvent event
    handleEvents events

def drainEvents : EngineProg Unit := do
  let events ← ask Reading.events
  handleEvents events

/-! ## Storage that owes something -/

/-- Try one of the waiting segments again: not the open one, and not while a row for it is
queued. -/
def retrySeal (key : SegmentKey) (videoEnd : VideoEnd) : EngineProg Unit := do
  let s ← Prog.get
  if (s.currentSegment.any fun segment => segment.key = key) ||
      s.pendingActivityRows.any fun row => row.key = key then pure ()
  else do
    match ← request Reading.detail (.finalized key videoEnd) with
    | none => do
      Prog.modify fun s => { s with pendingSeals := removeSeal key s.pendingSeals }
      renewArtifactId
    | some detail => noteStorageFault detail

def retrySeals : List (SegmentKey × VideoEnd) → EngineProg Unit
  | [] => pure ()
  | waiting :: seals => do
    retrySeal waiting.1 waiting.2
    retrySeals seals

/-- What `service_storage` does when its retry is due. -/
def retryStorage : EngineProg Unit := do
  flushActivityQueue
  let s ← Prog.get
  retrySeals s.pendingSeals
  let s ← Prog.get
  Prog.onlyIf (s.shouldBeCapturing && s.state.anySourceEnabled && s.currentSegment.isNone)
    openCurrentSegment

/-- Storage never gives up. -/
def storageBackoffConfig : BackoffConfig := { breakerThreshold := 2 ^ 32 - 1 }

/-- Plan the next retry of the storage. -/
def Engine.delayStorage (s : Engine) (now : Nat) : Engine :=
  let outcome := s.storageLifecycle.onFailure
  let delaySecs := match outcome.1 with
    | .retryAfter delay => asSecs delay
    | .giveUp => asSecs storageBackoffConfig.max
  { s with storageLifecycle := outcome.2, storageRetryAt := some (saturatingAdd now delaySecs) }

/-- The end of `service_storage`. -/
def Engine.settleStorage (s : Engine) (now : Nat) (retryDue : Bool) : Engine :=
  if s.storageHealthy then s.clearStorageFault
  else if retryDue then s.delayStorage now
  else s

def serviceStorage : EngineProg Unit := do
  let s ← Prog.get
  Prog.onlyIf s.storageFault.isSome do
    let now ← ask Reading.epochSecs
    let retryDue := s.storageRetryAt.all fun retryAt => now ≥ retryAt
    Prog.onlyIf retryDue retryStorage
    Prog.modify (·.settleStorage now retryDue)

/-! ## Starting and stopping sources -/

def startSource (kind : SourceKind) : EngineProg Unit := do
  let s ← Prog.get
  Prog.onlyIf (s.state.isSourceEnabled kind) do
    Prog.modify (·.hand kind)
    match ← request Reading.error (.started kind) with
    | none => Prog.modify (·.markSourceSuccess kind)
    | some error => applySourceError kind error

/-- A start that is not a planned restart. -/
def startAsked (kind : SourceKind) : EngineProg Unit := do
  tell (.asked kind)
  startSource kind

/-- Activity stops with its spans stored, which takes a segment. -/
def stopActivity : EngineProg Unit := do
  ensureSegmentForNow
  closeActivity
  tell (.stopped .desktopActivity)

def stopSource (kind : SourceKind) : EngineProg Unit := do
  Prog.modify (·.retire kind)
  match kind with
  | .desktopActivity => stopActivity
  | kind => tell (.stopped kind)

def startEnabled : List SourceKind → EngineProg Unit
  | [] => pure ()
  | kind :: kinds => do
    let s ← Prog.get
    Prog.onlyIf (s.state.isSourceEnabled kind) (startAsked kind)
    startEnabled kinds

/-- The sources, in the order the engine starts them. -/
def SOURCE_KINDS : List SourceKind := [.screen, .systemAudio, .mic, .desktopActivity]

/-- The planned restart of a source is due. -/
def Engine.takeRetry (s : Engine) (kind : SourceKind) : Engine :=
  (s.unplan kind).record (if s.state.isSourceEnabled kind then .retried kind else .dropped kind)

def restartSources : List SourceKind → EngineProg Unit
  | [] => pure ()
  | kind :: kinds => do
    Prog.modify (·.takeRetry kind)
    let s ← Prog.get
    Prog.onlyIf (s.state.isSourceEnabled kind) do
      stopSource kind
      startSource kind
    restartSources kinds

def retryDueSources : EngineProg Unit := do
  let s ← Prog.get
  Prog.onlyIf (s.state.phase != .paused) do
    let now ← ask Reading.epochSecs
    restartSources (SOURCE_KINDS.filter fun kind =>
      (s.retryAtEpochSecs kind).any fun retryAt => retryAt ≤ now)

def pumpDesktopActivity : EngineProg Unit := do
  let s ← Prog.get
  Prog.onlyIf s.desktopActivityMayRun do
    let state ← ask Reading.state
    Prog.onlyIf (state != .active) do
      let _ ← request Reading.error (.started .desktopActivity)
      pure ()
    -- Whether the source is active or not, the scheduler hands out rows.
    closeActivity

/-! ## Pauses -/

/-- Record the owner's pause when it is kept across restarts. -/
def recordOwnerPause (owner : Option OwnerPause) : EngineProg Unit := do
  let s ← Prog.get
  Prog.onlyIf s.pauseStore do
    let held := owner.map fun pause =>
      match pause.expiresAtEpochSecs with
      | some deadline => HeldPause.until deadline
      | none => .untilResumed
    let _ ← request Reading.detail (.pauseRecorded held)
    pure ()

def clearPreviews : EngineProg Unit := Prog.modify (·.clearPreviews)

/-- Stop desktop activity for a pause it does not run through. -/
def pauseActivity : EngineProg Unit := do
  closeActivity
  tell (.stopped .desktopActivity)

def pauseCapture : EngineProg Unit := do
  tell (.stopped .screen)
  tell (.stopped .systemAudio)
  tell (.stopped .mic)
  rotateSegments true
  let s ← Prog.get
  Prog.onlyIf (!s.activityRunsThroughPause) pauseActivity
  drainEvents
  Prog.modify fun s => { s with writeStalled := false }
  attemptClearStorage
  clearPreviews
  foldSourceStates

/-- Activity kept on through the pause is already running. -/
def restartActivity : EngineProg Unit := do
  let state ← ask Reading.state
  Prog.onlyIf (state != .active) (startEnabled [.desktopActivity])

def resumeSources : EngineProg Unit := do
  ensureSegmentForNow
  startEnabled [.screen, .systemAudio, .mic]
  restartActivity

def resumeCapture : EngineProg Unit := do
  let s ← Prog.get
  Prog.onlyIf s.state.anySourceEnabled resumeSources
  foldSourceStates

/-- Act on a change of the pause. -/
def settlePause (wasPaused restart : Bool) (ownerBefore : Option OwnerPause) :
    EngineProg Unit := do
  let s ← Prog.get
  let paused := s.state.phase == .paused
  Prog.onlyIf (paused && !wasPaused) pauseCapture
  Prog.onlyIf (!paused && (wasPaused || restart)) resumeCapture
  let s ← Prog.get
  Prog.onlyIf (s.state.ownerPause != ownerBefore) (recordOwnerPause s.state.ownerPause)

def autoResumeIfDue : EngineProg Unit := do
  let now ← ask Reading.epochSecs
  let s ← Prog.get
  Prog.onlyIf (s.state.pauseDueToExpire now) do
    reduce .ownerPauseExpired
    settlePause true false s.state.ownerPause

/-! ## Switching sources -/

def disableSource (kind : SourceKind) : EngineProg Unit := do
  Prog.modify (·.retire kind)
  stopSource kind
  Prog.modify (·.unplan kind)
  clearSourcePreview kind
  reduce (.sourceEnabled kind false)
  applySourceReport kind .inactive

def enableSource (kind : SourceKind) : EngineProg Unit := do
  reduce (.sourceEnabled kind true)
  let s ← Prog.get
  Prog.onlyIf (s.sourceMayStart kind) do
    ensureSegmentForNow
    startAsked kind

def applySourceEnabled (kind : SourceKind) (enabled : Bool) : EngineProg Unit :=
  if enabled then enableSource kind else disableSource kind

/-- Whether desktop activity runs as a source. -/
def desktopActivityRuns (allowed screen throughPause : Bool) : Bool :=
  allowed && (screen || throughPause)

/-- Start or stop activity in a pause, as the owner wants it. -/
def followInPause : EngineProg Unit := do
  let state ← request Reading.state .checked
  let s ← Prog.get
  if s.activityThroughPause && state != .active then do
    ensureSegmentForNow
    startAsked .desktopActivity
  else Prog.onlyIf (!s.activityThroughPause && state == .active) (stopSource .desktopActivity)

def followDesktopActivity : EngineProg Unit := do
  let s ← Prog.get
  let wanted := desktopActivityRuns s.activityAllowed (s.state.isSourceEnabled .screen)
    s.activityThroughPause
  if wanted != s.state.isSourceEnabled .desktopActivity then
    applySourceEnabled .desktopActivity wanted
  else
    Prog.onlyIf (wanted && s.state.runRequested && s.state.phase == .paused) followInPause

/-- Activity follows its own switch and the screen's. -/
def switchSource (kind : SourceKind) (enabled : Bool) : EngineProg Unit :=
  match kind with
  | .desktopActivity => do
    Prog.modify fun s => { s with activityAllowed := enabled }
    followDesktopActivity
  | .screen => do
    applySourceEnabled .screen enabled
    followDesktopActivity
  | kind => applySourceEnabled kind enabled

def setSourceEnabled (kind : SourceKind) (enabled : Bool) : EngineProg Unit := do
  switchSource kind enabled
  foldSourceStates

def setDesktopActivityThroughPause (enabled : Bool) : EngineProg Unit := do
  Prog.modify fun s => { s with activityThroughPause := enabled }
  followDesktopActivity
  foldSourceStates

def onDisplayChanged : EngineProg Unit := do
  let s ← Prog.get
  Prog.onlyIf (s.state.isSourceEnabled .screen) do
    clearSourcePreview .screen
    tell .displayChanged

/-! ## The engine -/

/-- `CaptureEngine::new`: `deferred` are the segments that recovery left for the engine to
seal. -/
def Engine.new (config : EngineConfig) (deferred : List SegmentKey) (artifactId : String) :
    Engine :=
  let s : Engine :=
    { config := config
      state := ObserverState.reduce {} .engineReady
      currentSegment := none
      sourceReports := fun _ => none
      lifecycles := fun _ => { config := config.lifecycle }
      retryAtEpochSecs := fun _ => none
      pendingSeals := deferred.foldl (fun seals key => insertSeal key none seals) []
      writeStalled := false
      storageFault := none
      storageLifecycle := { config := storageBackoffConfig }
      storageRetryAt := none
      pauseStore := false
      generations := fun _ => 0
      artifactId := artifactId
      pendingActivityRows := []
      committedActivityLens := fun _ => 0
      activityBatchWritten := false
      activityAllowed := true
      activityThroughPause := false
      lastPreview := fun _ => none
      serving := none
      history := [] }
  if s.pendingSeals.isEmpty then s else s.noteStorageFault "recovered segment awaits sealing"

def setSourceChoices (setup : SetupSnapshot) : EngineProg Unit := do
  reduce (.sourceEnabled .screen setup.screen)
  reduce (.sourceEnabled .systemAudio setup.systemAudio)
  reduce (.sourceEnabled .mic setup.mic)
  Prog.modify fun s => { s with
    activityAllowed := setup.desktopActivityAllowed
    activityThroughPause := setup.desktopActivityThroughPause }
  reduce (.sourceEnabled .desktopActivity setup.desktopActivity)
  closeActivity

/-- What a held pause comes to at launch: nothing, or the owner's pause with its deadline. -/
def HeldPause.restored (now : Nat) : HeldPause → Option (Option Nat)
  | .untilResumed => some none
  | .until deadline => if deadline > now then some (some deadline) else none

/-- A held pause is restored. The record of one that has ended is removed. -/
def restorePause (now : Nat) : Option HeldPause → EngineProg Unit
  | none => pure ()
  | some held =>
    match held.restored now with
    | some expires => reduce (.requestedPause .operator expires)
    | none => do
      let _ ← request Reading.detail (.pauseRecorded none)
      pure ()

def holdOwnerPauseIn : EngineProg Unit := do
  let now ← ask Reading.epochSecs
  let held ← ask Reading.heldPause
  restorePause now held
  Prog.modify fun s => { s with pauseStore := true }

/-- A pause in effect holds: only activity kept on through pauses starts. -/
def startSources : EngineProg Unit := do
  let s ← Prog.get
  if s.state.phase = .paused then
    Prog.onlyIf s.activityRunsThroughPause do
      ensureSegmentForNow
      startAsked .desktopActivity
  else
    Prog.onlyIf s.state.anySourceEnabled do
      ensureSegmentForNow
      startEnabled SOURCE_KINDS

def start : EngineProg Unit := do
  reduce .requestedStart
  adoptCurrentSegment
  startSources
  foldSourceStates

/-- One second's tick of the production loop. -/
def tick : EngineProg Unit := do
  autoResumeIfDue
  rotateIfNeeded
  serviceStorage
  retryDueSources
  pumpDesktopActivity
  foldSourceStates

def pump : EngineProg Unit := do
  drainEvents
  tick

/-- What the owner or the system wants of the pause. -/
def requestPause (command : EngineCommand) (wasPaused : Bool) : EngineProg Unit :=
  match command with
  | .pause reason durationSecs => do
    let now ← ask Reading.epochSecs
    reduce (.requestedPause reason (durationSecs.map (saturatingAdd now)))
  | .resume => reduce .requestedResume
  | .systemResume => reduce .systemResumed
  | .togglePause =>
    if wasPaused then reduce .requestedResume else reduce (.requestedPause .operator none)
  | _ => onDisplayChanged

/-- The commands that end in `settle_pause`. -/
def applyPauseCommand (command : EngineCommand) : EngineProg Unit := do
  let s ← Prog.get
  let wasPaused := s.state.phase == .paused
  requestPause command wasPaused
  settlePause wasPaused (command == .resume || command == .systemResume) s.state.ownerPause

def applyCommand (command : EngineCommand) : EngineProg Unit := do
  rotateIfNeeded
  match command with
  | .setSourceEnabled kind enabled => setSourceEnabled kind enabled
  | .setDesktopActivityPreferences => closeActivity
  | .setDesktopActivityThroughPause enabled => setDesktopActivityThroughPause enabled
  | .clearPreviews => clearPreviews
  | command => applyPauseCommand command

/-- Take the open segment and seal it. -/
def sealOpenSegment : EngineProg Unit := do
  let s ← Prog.get
  match s.currentSegment with
  | none => pure ()
  | some segment => leaveSegment segment

/-- `CaptureEngine::stop`: every source stops, and the open segment is sealed. -/
def stop : EngineProg Unit := do
  rotateSegments true
  tell (.stopped .screen)
  tell (.stopped .systemAudio)
  tell (.stopped .mic)
  pauseActivity
  drainEvents
  flushActivityQueue
  sealOpenSegment
  clearPreviews
  foldSourceStates

end SolstoneWindows.CaptureEngine
