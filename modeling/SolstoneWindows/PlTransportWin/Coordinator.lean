import Mathlib.Data.List.Dedup
import SolstoneWindows.ObserverPl.Civil
import SolstoneWindows.PlTransportWin.Sealed

/-!
# Uploading and giving up local copies

`UploadCoordinator` of `crates/pl-transport-win/src/coordinator.rs`. A tick first finishes what
earlier ticks acknowledged (`localFinish`), then uploads every pending segment and reads the
journal's answer (`uploadSegment`), and last asks for one day's listing to settle uploads that
were accepted without a receipt (`listingPass`). Every local copy is given up through
`tryGateDelete`, except under a marker from before acknowledgements (`finishLegacy`).

The texts of trace events, the time spent, the transport path and the check loop are left out.
-/

set_option autoImplicit false

namespace SolstoneWindows.PlTransportWin

open Lib.Effect Lib.Fs
open ObserverModel (LocalZone saturatingAdd)
open ObserverPl.Civil (dayStringLocal segmentKeyStringLocal)
open ObserverPl.Ingest
open PlatformWin (AUDIO_SOURCES_FILE_NAME LEN_FILE_NAME isActivityName)

def QUARANTINE_AFTER_REJECTS : Nat := 5

/-- What became of a directory at the gate. -/
inductive DeleteGate where
  | deleted
  /-- Some media is not covered, and stays. -/
  | partially
  | blocked
  | stopped
  deriving DecidableEq

/-! ## Refusals -/

/-- The reasons of a status 400 that are about the segment itself. -/
def attributableReasons : List String :=
  ["legacy_observer_field", "legacy_stream_field", "source_not_utf8", "source_too_long",
    "source_contains_nul", "source_contains_path_separator", "source_contains_dot",
    "source_invalid_character", "day_invalid", "segment_invalid", "field_missing",
    "field_duplicate", "envelope_invalid", "file_metadata_invalid", "file_name_mismatch",
    "file_name_invalid", "file_name_duplicate", "multipart_malformed",
    "multipart_part_too_large", "multipart_too_many_parts", "multipart_too_many_files",
    "multipart_too_many_headers", "multipart_filename_too_long"]

def isAttributableRejection (lib : Libraries) : TransportError → Bool
  | .rejected status body =>
    status == 413 || (status == 400 &&
      (lib.bodyField body "reason_code").any fun reason => attributableReasons.contains reason)
  | _ => false

/-- The reasons of a status 409 that are about the device. -/
def deviceReasons : List String := ["foreign_stream_binding", "pairing_identity_unavailable"]

def isDeviceScopedRefusal (lib : Libraries) : TransportError → Bool
  | .rejected status body =>
    status == 401 || status == 403 || status == 404 || status == 426 || (status == 409 &&
      ((lib.bodyField body "error").any (deviceReasons.contains ·)
        || (lib.bodyField body "reason_code").any (deviceReasons.contains ·)))
  | _ => false

/-- A failure of the connection rather than of the segment. -/
def isConnectionFailure : TransportError → Bool
  | .io | .tls | .noEndpoint | .json => true
  | _ => false

/-- The reason a rejection gives, or its status. -/
def rejectionReason (lib : Libraries) (status : Nat) (body : String) : String :=
  (lib.bodyField body "reason_code").getD ("http_" ++ toString status)

/-- An entry that is captured media rather than a sidecar. -/
def isMedia (name : String) : Bool :=
  name != UPLOADED_MARKER && name != UPLOADED_TMP_MARKER && name != LEN_FILE_NAME
    && name != AUDIO_SOURCES_FILE_NAME

/-! ## What the coordinator remembers -/

section Remember

variable {ε : Type}

def isHeld (memory : Memory) (index now : Nat) : Bool := memory.deleteHolds index > now

/-- Leave a segment alone for an hour. -/
def setHold (index now : Nat) : UploadProg ε Unit :=
  remember fun m =>
    { m with deleteHolds := Function.update m.deleteHolds index (saturatingAdd now 3600) }

def onInvalidReceipt : UploadProg ε Unit :=
  publish fun s => { s with invalidReceipts := saturatingAdd s.invalidReceipts 1 }

def onSegmentRemoved : UploadProg ε Unit :=
  publish fun s =>
    { s with
      segmentRemovedSegments := saturatingAdd s.segmentRemovedSegments 1
      uploadedSegments := saturatingAdd s.uploadedSegments 1
      lastError := none
      pendingSegments := s.pendingSegments - 1 }

def onUnknownKept : UploadProg ε Unit :=
  publish fun s => { s with unknownKeptSegments := saturatingAdd s.unknownKeptSegments 1 }

def onListingRefusal : UploadProg ε Unit :=
  publish fun s => { s with listingRefusals := saturatingAdd s.listingRefusals 1 }

def onConfirmed (segmentKey serverKey : String) (bytes : Nat) : UploadProg ε Unit :=
  publish fun s =>
    { s with
      uploadedSegments := s.uploadedSegments + 1
      pendingSegments := s.pendingSegments - 1
      lastUploadedSegment := some segmentKey
      lastUploadedServerSegment := some serverKey
      lastError := none
      lastUploadBytes := some bytes }

def onError (error : TransportError) : UploadProg ε Unit :=
  publish fun s =>
    { s with
      failedSegments := s.failedSegments + 1
      lastError := some (transportErrorCode error) }

/-- The bound of a segment after one more error. Three of one kind in a row make it a day. -/
def nextBound (bound : Option SegmentBound) (signature : String) (now : Nat) : SegmentBound :=
  let old := bound.getD ⟨0, "", 0⟩
  let streak := if old.lastErrorSignature = signature then min (old.streak + 1) (2 ^ 32 - 1) else 1
  { untilEpoch := saturatingAdd now (if streak ≥ 3 then 86400 else 3600)
    lastErrorSignature := signature
    streak := streak }

/-- Set the bound of a segment of the current journal from the one it has. -/
def rebound (day segmentKey : String) (f : Option SegmentBound → Option SegmentBound) :
    UploadProg ε Unit :=
  Prog.modify fun w =>
    let key := (w.identity, day, segmentKey)
    { w with
      memory := { w.memory with
        segmentBounds :=
          Function.update w.memory.segmentBounds key (f (w.memory.segmentBounds key)) } }

def registerSegmentError (day segmentKey signature : String) (now : Nat) : UploadProg ε Unit :=
  rebound day segmentKey fun bound => some (nextBound bound signature now)

def registerSegmentBound (day segmentKey signature : String) (now durationSecs : Nat) :
    UploadProg ε Unit :=
  rebound day segmentKey fun _ => some ⟨saturatingAdd now durationSecs, signature, 1⟩

def registerReceivedNotWritten (day segmentKey : String) (now : Nat) : UploadProg ε Unit :=
  registerSegmentBound day segmentKey "received_not_written" now 86400

def clearReject (index : Nat) : UploadProg ε Unit :=
  remember fun m => { m with quarantineCounts := Function.update m.quarantineCounts index 0 }

/-- Do not list a day again for an hour. -/
def boundDay (day : String) (now : Nat) : UploadProg ε Unit :=
  remember fun m =>
    { m with dayBounds := Function.update m.dayBounds day (some (saturatingAdd now 3600)) }

/-- Publish how many set-aside directories hold media. -/
def recountQuarantined : UploadProg ε Unit := do
  match ← Prog.attempt quarantinedMediaDirs with
  | .error _ => pure ()
  | .ok count => publish fun s => { s with quarantinedSegments := count }

/-- The fifth refusal of a segment sets it aside. -/
def registerReject (index : Nat) : UploadProg ε Unit := do
  remember fun m =>
    { m with
      quarantineCounts := Function.update m.quarantineCounts index
        (min (m.quarantineCounts index + 1) (2 ^ 32 - 1)) }
  let w ← Prog.get
  if w.memory.quarantineCounts index < QUARANTINE_AFTER_REJECTS then
    pure ()
  else do
    match ← Prog.attempt (quarantine index w.identity.instanceId) with
    | .error _ => pure ()
    | .ok () => do
      clearReject index
      recountQuarantined

/-- Publish how many of the segments are pending. -/
def setPending (now : Nat) (segments : List SealedSegment) : UploadProg ε Unit :=
  Prog.modify fun w =>
    let indices := (segments.filter fun s => !isHeld w.memory s.index now).map (·.index)
    { w with
      memory := { w.memory with
        upload := { w.memory.upload with pendingSegments := indices.length } }
      log := w.log ++ [.counted indices] }

end Remember

/-! ## The gate -/

section Gate

variable (lib : Libraries)

/-- Whether an expected file covers an entry with the given digest. -/
def AckFile.covers (exp : AckFile) (entry : DirEntryFact) (sha : String) : Bool :=
  exp.submitted == entry.name && exp.size == entry.sizeBytes && exp.sha256 == sha
    && exp.disposition.all (fun disp => disp == "written" || disp == "already_held")
    && exp.listingStatus.all SegmentFileStatus.isHeld

/-- Read every media entry and match it: the names that are covered, and whether one is not. -/
def checkMedia (index : Nat) (expected : List AckFile) :
    List DirEntryFact → StoreProg (List String × Bool)
  | [] => pure ([], false)
  | entry :: entries => do
    let bytes ← readFile index entry.name
    let (matched, uncovered) ← checkMedia index expected entries
    if expected.any (·.covers entry (lib.sha256Hex bytes)) then
      pure (entry.name :: matched, uncovered)
    else
      pure (matched, true)

/-- Whether a second listing shows the media of the first. -/
def sameMedia (media recheck : List DirEntryFact) : Bool :=
  recheck.length == media.length && recheck.all fun entry =>
    media.any fun e => e.name == entry.name && e.sizeBytes == entry.sizeBytes

/-- Remove names one by one. A missing name is no failure; any other failure ends it. -/
def removeAll {ε : Type} (index : Nat) : List String → UploadProg ε Bool
  | [] => pure true
  | name :: names => do
    match ← Prog.attempt (removeEntry index name) with
    | .ok () => removeAll index names
    | .error .notFound => removeAll index names
    | .error _ => pure false

/-- The removals of the gate. The length and sources sidecars belong to the segment's key, so they
stay while media does. -/
def gateRemove (index : Nat) (matched : List String) (uncovered : Bool) : StoreProg DeleteGate := do
  let keyed := if uncovered then [] else [LEN_FILE_NAME, AUDIO_SOURCES_FILE_NAME]
  let done ← removeAll index (matched ++ keyed ++ [UPLOADED_MARKER, UPLOADED_TMP_MARKER])
  if !done then
    pure .blocked
  else if uncovered then
    pure .partially
  else do
    match ← Prog.attempt (removeSegmentDir index) with
    | .ok () => pure .deleted
    | .error _ => pure .blocked

/-- Remove the media of a directory that the expected files cover, and the directory when they
cover all of it. -/
def tryGateDelete (index : Nat) (expected : List AckFile) : StoreProg DeleteGate := do
  let entries ← listEntries index
  if entries.any (!·.isFile) then
    pure .stopped
  else do
    let media := entries.filter (isMedia ·.name)
    let (matched, uncovered) ← checkMedia lib index expected media
    let recheck ← listEntries index
    if recheck.any (!·.isFile) then
      pure .stopped
    else if !sameMedia media (recheck.filter (isMedia ·.name)) then
      pure .stopped
    else
      gateRemove index matched uncovered

/-- The gate, with a hold on the segment when it is blocked or fails. -/
def gateOrHold {ε : Type} (index : Nat) (expected : List AckFile) (now : Nat) :
    UploadProg ε Unit := do
  match ← Prog.attempt (tryGateDelete lib index expected) with
  | .ok .blocked => setHold index now
  | .ok _ => pure ()
  | .error _ => setHold index now

/-- The journal says the owner removed this segment: give up the local copy. -/
def finishSegmentRemoved {ε : Type} (index : Nat) (localFiles : List LocalFile) (now : Nat) :
    UploadProg ε Unit := do
  let ackFiles : List AckFile := localFiles.map fun f =>
    { submitted := f.name, written := f.name, size := f.size, sha256 := f.sha256
      disposition := none, listingStatus := none }
  match ← Prog.attempt (tryGateDelete lib index ackFiles) with
  | .ok .deleted => onSegmentRemoved
  | .ok .partially => onSegmentRemoved
  | .ok .blocked => setHold index now
  | .ok .stopped => setHold index now
  | .error _ => setHold index now

end Gate

/-! ## Local finish -/

section Finish

variable (lib : Libraries) (periodSecs : Nat) {ε : Type}

/-- Remove the directory, which has to be empty. A failure holds the segment back. -/
def removeDirOrHold (index now : Nat) : UploadProg ε Unit := do
  match ← Prog.attempt (removeSegmentDir index) with
  | .ok () => pure ()
  | .error _ => setHold index now

/-- A directory with no acknowledgement and no media is removed. -/
def finishUnmarked (index now : Nat) : UploadProg ε Unit := do
  match ← Prog.attempt (listEntries index) with
  | .error _ => pure ()
  | .ok entries =>
    if entries.any (isMedia ·.name) then
      pure ()
    else do
      let done ← removeAll index [LEN_FILE_NAME, AUDIO_SOURCES_FILE_NAME, UPLOADED_TMP_MARKER]
      if !done then setHold index now else removeDirOrHold index now

/-- Take a marker away that proves nothing here. -/
def dropMarker (index now : Nat) : UploadProg ε Unit := do
  match ← Prog.attempt (removeEntry index UPLOADED_MARKER) with
  | .ok () => pure ()
  | .error .notFound => pure ()
  | .error _ => setHold index now

/-- Whether an acknowledgement is from the journal the client is paired with now. -/
def sameJournal (ack : UploadAck) (identity : JournalIdentity) : Bool :=
  ack.journalIdentity.instanceId == identity.instanceId
    && ack.journalIdentity.caFpPrefix == identity.caFpPrefix

/-- The length that goes into a segment's key. -/
def segmentLen (segment : SealedSegment) : Nat := segment.lenSecs.getD periodSecs

/-- Every file an acknowledgement names is named once and is there with its size. -/
def allPresent (media : List DirEntryFact) (files : List AckFile) : Bool :=
  decide (files.map (·.submitted)).Nodup && files.all fun file =>
    media.any fun entry => entry.name == file.submitted && entry.sizeBytes == file.size

/-- Whether an acknowledgement is about this directory as it is. -/
def ackMatchesPhysical (index : Nat) (segment : SealedSegment) (ack : UploadAck) :
    StoreProg Bool := do
  match ← localZone segment.boundaryEpochSecs with
  | none => pure false
  | some zone =>
    let day := dayStringLocal segment.boundaryEpochSecs zone.utcOffsetSeconds
    let localSegment := segmentKeyStringLocal segment.boundaryEpochSecs zone.utcOffsetSeconds
      (segmentLen periodSecs segment)
    if ack.day ≠ day ∨ ack.localSegment ≠ localSegment ∨ ack.physicalIndex ≠ some index ∨
        ack.physicalSegment ≠ some localSegment ∨ ack.physicalStream ≠ some "_default" ∨
        ack.originalUploadKey ≠ some localSegment then
      pure false
    else do
      let entries ← listEntries index
      pure (allPresent (entries.filter (isMedia ·.name)) ack.files)

/-- Whether an acknowledgement proves something about this directory. One without coordinates
is taken at its word: the gate still proves every file. -/
def physicalMatch (index : Nat) (segment : SealedSegment) (ack : UploadAck) : StoreProg Bool := do
  let w ← Prog.get
  if !sameJournal ack w.identity then pure false
  else if ack.isLegacy then pure true
  else ackMatchesPhysical periodSecs index segment ack

/-- Whether there is an activity log that came after the acknowledgement. -/
def hasUnackedActivity (entries : List DirEntryFact) (ack : UploadAck) : Bool :=
  entries.any fun entry =>
    entry.isFile && isActivityName entry.name && entry.sizeBytes != 0 &&
      !ack.files.any fun file => file.submitted == entry.name && file.size == entry.sizeBytes

/-- A directory with an acknowledgement. -/
def finishAcked (index now : Nat) (segment : SealedSegment) (ack : UploadAck) :
    UploadProg ε Unit := do
  match ← Prog.attempt (physicalMatch periodSecs index segment ack) with
  | .error _ => setHold index now
  | .ok false => dropMarker index now
  | .ok true =>
    match ← Prog.attempt (listEntries index) with
    | .error _ => setHold index now
    | .ok entries =>
      if hasUnackedActivity entries ack then dropMarker index now
      else gateOrHold lib index ack.files now

/-- `u8::is_ascii_whitespace`. -/
def isAsciiWhitespace (byte : UInt8) : Bool :=
  byte == 0x20 || byte == 0x09 || byte == 0x0A || byte == 0x0C || byte == 0x0D

/-- Whether a marker starts like a JSON object. -/
def isStructured (marker : List UInt8) : Bool :=
  marker.find? (!isAsciiWhitespace ·) == some 0x7B

/-- The modification times of the media. -/
def mediaTimes (index : Nat) : List DirEntryFact → StoreProg (List (String × Nat))
  | [] => pure []
  | entry :: entries => do
    let mtime ← modified index entry.name
    let times ← mediaTimes index entries
    pure ((entry.name, mtime) :: times)

/-- The removals under a legacy marker: the media that is no newer than it, then the sidecars. -/
def legacyRemove (index now markerTime : Nat) (times : List (String × Nat)) :
    UploadProg ε Unit := do
  let old := (times.filter fun t => t.2 ≤ markerTime).map (·.1)
  let done ← removeAll index
    (old ++ [LEN_FILE_NAME, AUDIO_SOURCES_FILE_NAME, UPLOADED_MARKER, UPLOADED_TMP_MARKER])
  if !done then
    setHold index now
  else do
    let remaining ← Prog.attempt (listEntries index)
    match remaining with
    | .ok (_ :: _) => pure ()
    | _ => removeDirOrHold index now

/-- What the mtime rule reads: the marker's time and those of the media. -/
def legacyTimes (index : Nat) : StoreProg (Nat × List (String × Nat)) := do
  let markerTime ← modified index UPLOADED_MARKER
  let entries ← listEntries index
  let times ← mediaTimes index (entries.filter (isMedia ·.name))
  pure (markerTime, times)

/-- A directory whose marker is no acknowledgement. One that starts like JSON may be an incomplete
acknowledgement, and is left alone. -/
def finishLegacy (index now : Nat) (marker : List UInt8) : UploadProg ε Unit :=
  if isStructured marker then pure ()
  else do
    match ← Prog.attempt (legacyTimes index) with
    | .error _ => pure ()
    | .ok (markerTime, times) => legacyRemove index now markerTime times

/-- One directory of the local finish pass. -/
def finishDir (now : Nat) (segment : SealedSegment) : UploadProg ε Unit := do
  let w ← Prog.get
  if isHeld w.memory segment.index now then
    pure ()
  else do
    match ← Prog.attempt (readFile segment.index UPLOADED_MARKER) with
    | .error .notFound => finishUnmarked segment.index now
    | .error _ => pure ()
    | .ok marker =>
      match UploadAck.fromBytes lib marker with
      | some ack => finishAcked lib periodSecs segment.index now segment ack
      | none => finishLegacy segment.index now marker

/-- The directory loop of `localFinish`. -/
def finishDirs (now : Nat) : List SealedSegment → UploadProg ε Unit
  | [] => pure ()
  | segment :: segments => do
    finishDir lib periodSecs now segment
    finishDirs now segments

/-- The segments of two scans by index. The second scan counts where both have one. -/
def mergeScans (scanned confirmed : List SealedSegment) : List SealedSegment :=
  (scanned.filter (fun s => !confirmed.any (·.index == s.index)) ++ confirmed).insertionSort
    fun a b => a.index ≤ b.index

/-- What a scan found, or nothing when it failed. -/
def foundOrNone (result : Except FsError (List SealedSegment)) : List SealedSegment :=
  match result with
  | .ok segments => segments
  | .error _ => []

/-- Finish every directory that needs no journal. -/
def localFinish (now : Nat) : UploadProg ε Unit := do
  let scanned ← Prog.attempt (scan lib periodSecs)
  let acknowledged ← Prog.attempt (confirmed lib periodSecs)
  finishDirs lib periodSecs now (mergeScans (foundOrNone scanned) (foundOrNone acknowledged))
  recountQuarantined

end Finish

/-! ## Uploading -/

/-- An upload the journal proved it holds. -/
structure ConfirmedUpload where
  serverSegment : String
  files : List AckFile
  deriving DecidableEq

/-- What one segment's turn came to. -/
inductive Outcome where
  | confirmed (upload : ConfirmedUpload)
  /-- Accepted without descriptors. -/
  | unknown (day : String) (fact : UnknownSegmentFact)
  | settled
  deriving DecidableEq

section Upload

variable (lib : Libraries) (periodSecs : Nat)

/-- Read the files of a segment. -/
def readParts (index : Nat) : List String → StoreProg (List FilePart)
  | [] => pure []
  | name :: names => do
    let bytes ← readFile index name
    let parts ← readParts index names
    pure (⟨name, contentTypeFor name, bytes⟩ :: parts)

/-- What a receipt has to match for one file. -/
def localFileOf (part : FilePart) : LocalFile :=
  ⟨part.filename, lib.sha256Hex part.bytes, part.bytes.length⟩

def statusText : IngestStatus → String
  | .ok => "ok"
  | .duplicate => "duplicate"
  | .collision => "collision"
  | .conflict => "unknown"
  | .failed => "unknown"

/-- The acknowledgement of a receipt. -/
def uploadAck (identity : JournalIdentity) (index : Nat) (day segmentKey : String)
    (status : IngestStatus) (receipt : UploadReceipt) : UploadAck :=
  (UploadAck.newUpload identity day segmentKey receipt.serverSegment (statusText status)
    receipt.files).withPhysicalIdentity index segmentKey "_default" segmentKey

/-- Make an acknowledgement durable, and only then give up what it covers. -/
def ackAndGate {ε : Type} (index : Nat) (ack : UploadAck) (now : Nat) : UploadProg ε Unit := do
  match ← Prog.attempt (writeAck lib index ack) with
  | .error _ => pure ()
  | .ok () => gateOrHold lib index ack.files now

/-- The segment being uploaded, as the answer's reader needs it. -/
structure Sent where
  index : Nat
  day : String
  segmentKey : String
  localFiles : List LocalFile
  /-- The bytes of all parts together. -/
  bytes : Nat
  deriving DecidableEq

/-- An accepted answer with a valid receipt. -/
def acceptReceipt {ε : Type} (now : Nat) (sent : Sent) (status : IngestStatus)
    (receipt : UploadReceipt) : UploadProg ε Outcome := do
  clearReject sent.index
  rebound sent.day sent.segmentKey fun _ => none
  let w ← Prog.get
  let ack := uploadAck w.identity sent.index sent.day sent.segmentKey status receipt
  ackAndGate lib sent.index ack now
  onConfirmed sent.segmentKey receipt.serverSegment sent.bytes
  pure (.confirmed ⟨receipt.serverSegment, ack.files⟩)

/-- An answer with an accepted status. -/
def readAccepted {ε : Type} (now : Nat) (sent : Sent) (response : IngestResponse) :
    UploadProg ε Outcome :=
  match validateReceipt response sent.localFiles with
  | .ok receipt => acceptReceipt lib now sent response.status receipt
  | .error .absent =>
    pure (.unknown sent.day ⟨sent.index, sent.segmentKey, sent.localFiles⟩)
  | .error (.receivedNotWritten _) => do
    registerReceivedNotWritten sent.day sent.segmentKey now
    pure .settled
  | .error _ => do
    onInvalidReceipt
    registerSegmentError sent.day sent.segmentKey "invalid_receipt" now
    onError (.rejected 200 "invalid receipt")
    pure .settled

/-- The reason a refusing answer gives. -/
def refusalReason (response : IngestResponse) : String :=
  response.reasonCode.getD (match response.status with
    | .conflict => "conflict"
    | .failed => "failed"
    | _ => "rejected")

/-- The HTTP status a refusing answer came with. -/
def refusalStatus : IngestStatus → Nat
  | .conflict => 409
  | .failed => 500
  | _ => 400

/-- An answer with a refusing status. -/
def readRefused {ε : Type} (now : Nat) (sent : Sent) (response : IngestResponse) :
    UploadProg ε Outcome :=
  if refusalReason response = "segment_removed" then do
    finishSegmentRemoved lib sent.index sent.localFiles now
    pure .settled
  else do
    registerSegmentError sent.day sent.segmentKey (refusalReason response) now
    onError (.rejected (refusalStatus response.status) "ingest response")
    pure .settled

/-- Whether an error is a rejection that says the owner removed the segment. -/
def saysRemoved : TransportError → Bool
  | .rejected status body => rejectionReason lib status body == "segment_removed"
  | _ => false

/-- A request that failed, when the owner did not remove the segment. -/
def readFailure (now : Nat) (sent : Sent) (error : TransportError) :
    UploadProg RouteError Outcome := do
  onError error
  if isDeviceScopedRefusal lib error then
    Prog.fail (.transport error)
  else if isAttributableRejection lib error then do
    registerReject sent.index
    registerSegmentError sent.day sent.segmentKey (transportErrorCode error) now
    pure .settled
  else if isConnectionFailure error then
    Prog.fail (.transport error)
  else
    match error with
    | .rejected status body => do
      registerSegmentError sent.day sent.segmentKey (rejectionReason lib status body) now
      pure .settled
    | _ => Prog.fail (.transport error)

/-- What the journal answered to an upload. -/
def readAnswer (now : Nat) (sent : Sent) :
    Except RouteError IngestResponse → UploadProg RouteError Outcome
  | .ok response =>
    if response.status.isAccepted then readAccepted lib now sent response
    else readRefused lib now sent response
  | .error .awaitingConfirmation => Prog.fail .awaitingConfirmation
  | .error (.transport error) =>
    if saysRemoved lib error then do
      finishSegmentRemoved lib sent.index sent.localFiles now
      pure .settled
    else
      readFailure lib now sent error

/-- Send an upload. -/
def ingest {ε : Type} (index : Nat) (day segmentKey : String) (parts : List FilePart)
    (zone : LocalZone) (audioSources : List String) :
    UploadProg ε (Except RouteError IngestResponse) := Prog.call fun o w =>
  let post : Post := ⟨index, w.identity, day, segmentKey, parts, zone, audioSources,
    dirOf w.disk index, some o.ingest⟩
  match o.fs.fault with
  | .stop _ => (.stopped, { w with log := w.log ++ [.posted { post with answer := none }] })
  | _ => (.ok o.ingest, { w with log := w.log ++ [.posted post] })

/-- Upload a segment under the keys of its zone, unless it is bound. -/
def uploadUnder (now : Nat) (segment : SealedSegment) (zone : LocalZone) :
    UploadProg RouteError Outcome := do
  let day := dayStringLocal segment.boundaryEpochSecs zone.utcOffsetSeconds
  let segmentKey := segmentKeyStringLocal segment.boundaryEpochSecs zone.utcOffsetSeconds
    (segmentLen periodSecs segment)
  let w ← Prog.get
  if (w.memory.segmentBounds (w.identity, day, segmentKey)).any (·.untilEpoch > now) then
    pure .settled
  else do
    match ← Prog.attempt (readParts segment.index segment.files) with
    | .error _ => do
      onError .io
      pure .settled
    | .ok parts => do
      let answer ← ingest segment.index day segmentKey parts zone segment.audioSources
      readAnswer lib now
        { index := segment.index
          day := day
          segmentKey := segmentKey
          localFiles := parts.map (localFileOf lib)
          bytes := (parts.map (·.bytes.length)).sum } answer

/-- One segment's turn. -/
def uploadSegment (now : Nat) (segment : SealedSegment) : UploadProg RouteError Outcome := do
  let w ← Prog.get
  if isHeld w.memory segment.index now then
    pure .settled
  else if segment.files = [] then do
    match ← Prog.attempt (tryGateDelete lib segment.index []) with
    | .ok .blocked => do
      setHold segment.index now
      pure .settled
    | _ => pure .settled
  else do
    match ← localZone segment.boundaryEpochSecs with
    | none => do
      onError .localOffset
      Prog.fail (.transport .localOffset)
    | some zone => uploadUnder lib periodSecs now segment zone

/-- The segment loop of a tick. It ends early when the uploader is asked to end. -/
def uploadSegments (now : Nat) : List SealedSegment → UploadProg RouteError (List Outcome)
  | [] => pure []
  | segment :: segments => do
    let running ← ask (·.running)
    if !running then
      pure []
    else do
      let outcome ← uploadSegment lib periodSecs now segment
      let outcomes ← uploadSegments now segments
      pure (outcome :: outcomes)

end Upload

/-! ## The listing pass -/

section ListingPass

variable (lib : Libraries)

/-- Whether a listed segment could be this local one. -/
def isCandidate (fact : UnknownSegmentFact) (item : SegmentItem) : Bool :=
  let physicalMatch := match item.segment, item.stream with
    | some segment, some stream => segment == fact.segmentKey && stream == "_default"
    | none, none => item.key == fact.segmentKey
    | _, _ => false
  physicalMatch && item.originalKey.all (· == fact.segmentKey)
    && item.files.length == fact.localFiles.length
    && decide (fact.localFiles.map (·.name)).Nodup && decide (item.files.map (·.name)).Nodup
    && fact.localFiles.all fun file => item.files.any fun listed =>
      listed.name == file.name && listed.size == file.size && listed.sha256 == file.sha256
        && listed.status.isHeld

/-- The listed segment that is this local one and no other, when there is exactly one candidate on
either side. -/
def selectedListing (envelope : SegmentsEnvelope) (facts : List UnknownSegmentFact)
    (fact : UnknownSegmentFact) : Option SegmentItem :=
  match validateSegmentsEnvelope envelope with
  | .error _ => none
  | .ok () =>
    match envelope.items.filter (isCandidate fact) with
    | [item] => if (facts.filter (isCandidate · item)).length = 1 then some item else none
    | _ => none

/-- The files of a listing's acknowledgement. Nothing, when a local file is not listed. -/
def listingFiles (fact : UnknownSegmentFact) (item : SegmentItem) : Option (List AckFile) :=
  fact.localFiles.mapM fun file =>
    (item.files.find? (·.name == file.name)).map fun listed =>
      { submitted := file.name, written := listed.name, size := file.size, sha256 := file.sha256
        disposition := none, listingStatus := some listed.status }

/-- The acknowledgement of a listed segment. -/
def listingAck (identity : JournalIdentity) (day : String) (fact : UnknownSegmentFact)
    (item : SegmentItem) (files : List AckFile) : UploadAck :=
  (UploadAck.newListing identity day fact.segmentKey item.key files).withPhysicalIdentity
    fact.index (item.segment.getD fact.segmentKey) (item.stream.getD "_default")
    (item.originalKey.getD fact.segmentKey)

/-- A failed expectation ends the task. -/
def panicked {ε α : Type} : UploadProg ε α := Prog.call fun _ w => (.stopped, w)

/-- Settle one unknown segment by the day's listing. -/
def settleUnknown {ε : Type} (now : Nat) (day : String) (envelope : SegmentsEnvelope)
    (facts : List UnknownSegmentFact) (fact : UnknownSegmentFact) : UploadProg ε Unit := do
  let w ← Prog.get
  match selectedListing envelope facts fact with
  | none => do
    onUnknownKept
    registerSegmentBound day fact.segmentKey "unknown_kept" now 86400
  | some item =>
    match listingFiles fact item with
    | none => panicked
    | some files =>
      ackAndGate lib fact.index (listingAck w.identity day fact item files) now

/-- The loop over the unknown segments of a day. -/
def settleAll {ε : Type} (now : Nat) (day : String) (envelope : SegmentsEnvelope)
    (facts : List UnknownSegmentFact) : List UnknownSegmentFact → UploadProg ε Unit
  | [] => pure ()
  | fact :: rest => do
    settleUnknown lib now day envelope facts fact
    settleAll now day envelope facts rest

/-- Ask for a day's listing. -/
def listSegments {ε : Type} (day : String) (facts : List UnknownSegmentFact) :
    UploadProg ε (Except RouteError SegmentsEnvelope) := Prog.call fun o w =>
  match o.fs.fault with
  | .stop _ => (.stopped, w)
  | _ =>
    match o.listing with
    | .error e => (.ok (.error e), w)
    | .ok envelope => (.ok (.ok envelope),
      { w with log := w.log ++ [.listed ⟨w.identity, day, facts, envelope⟩] })

/-- A listing request that failed. -/
def readListingFailure (now : Nat) (day : String) (error : TransportError) :
    UploadProg RouteError Unit := do
  onError error
  if isDeviceScopedRefusal lib error then
    Prog.fail (.transport error)
  else
    match error with
    | .rejected _ _ => do
      onListingRefusal
      boundDay day now
    | _ => Prog.fail (.transport error)

def unknownOf (outcomes : List Outcome) : List (String × UnknownSegmentFact) :=
  outcomes.filterMap fun
    | .unknown day fact => some (day, fact)
    | .confirmed _ => none
    | .settled => none

/-- The first day with unknown segments that may be listed now. -/
def eligibleDay (memory : Memory) (now : Nat) (days : List String) : Option String :=
  ((days.dedup).insertionSort (· ≤ ·)).find? fun day => (memory.dayBounds day).all (· ≤ now)

/-- Settle the unknown segments of one day by the journal's listing. -/
def listingPass (now : Nat) (unknown : List (String × UnknownSegmentFact)) :
    UploadProg RouteError Unit := do
  let w ← Prog.get
  match eligibleDay w.memory now (unknown.map (·.1)) with
  | none => pure ()
  | some day => do
    let facts := (unknown.filter (·.1 == day)).map (·.2)
    match ← listSegments day facts with
    | .ok envelope => do
      boundDay day now
      settleAll lib now day envelope facts facts
    | .error .awaitingConfirmation => Prog.fail .awaitingConfirmation
    | .error (.transport error) => readListingFailure lib now day error

end ListingPass

/-! ## A tick -/

section Tick

variable (lib : Libraries) (periodSecs : Nat)

/-- Publish what is pending at the end of a tick. -/
def recountPending {ε : Type} (now : Nat) : UploadProg ε Unit := do
  let scanned ← Prog.attempt (scan lib periodSecs)
  setPending now (foundOrNone scanned)

def confirmedOf (outcomes : List Outcome) : List ConfirmedUpload :=
  outcomes.filterMap fun
    | .confirmed upload => some upload
    | .unknown _ _ => none
    | .settled => none

/-- What a tick does before it asks the journal for anything. -/
def prepare {ε : Type} (now : Nat) : UploadProg ε Unit := do
  let w ← Prog.get
  -- A refusal binds only the journal that made it.
  Prog.ignore (releaseRefused w.identity.instanceId)
  recountQuarantined
  localFinish lib periodSecs now

/-- The part of a tick that talks to the journal. -/
def exchange (now : Nat) (segments : List SealedSegment) :
    UploadProg RouteError (List ConfirmedUpload) := do
  setPending now segments
  let outcomes ← uploadSegments lib periodSecs now segments
  listingPass lib now (unknownOf outcomes)
  recountPending lib periodSecs now
  pure (confirmedOf outcomes)

/-- One pass over every sealed segment (`tick_inner`). -/
def tick : UploadProg RouteError (List ConfirmedUpload) := do
  let gateOpen ← ask (·.gateOpen)
  if !gateOpen then
    Prog.fail .awaitingConfirmation
  else do
    let now ← ask (·.now)
    prepare lib periodSecs now
    match ← Prog.attempt (scan lib periodSecs) with
    | .error _ => Prog.fail (.transport .io)
    | .ok segments => exchange lib periodSecs now segments

end Tick

end SolstoneWindows.PlTransportWin
