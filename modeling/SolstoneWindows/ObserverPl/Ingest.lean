/-!
# What the journal answers about an upload

`crates/observer-pl/src/ingest.rs`: the answers of the ingest and listing endpoints, and the
checks an answer has to pass before a local file may be given up for it. `validateReceipt` reads
the answer to one upload against the files that were sent. `validateSegmentsEnvelope` checks a
day's listing as a whole.
-/

set_option autoImplicit false

namespace SolstoneWindows.ObserverPl.Ingest

/-- One file of an upload. -/
structure FilePart where
  filename : String
  contentType : String
  bytes : List UInt8
  deriving DecidableEq

/-- Response status of an upload. -/
inductive IngestStatus where
  | ok
  | duplicate
  | collision
  | conflict
  | failed
  deriving DecidableEq

/-- Whether the response lets the uploader look for proof of custody. -/
def IngestStatus.isAccepted : IngestStatus → Bool
  | .ok => true
  | .duplicate => true
  | .collision => true
  | .conflict => false
  | .failed => false

/-- One custody receipt per submitted file. -/
structure FileDescriptor where
  submitted : String
  written : String
  size : Nat
  sha256 : String
  disposition : String
  deriving DecidableEq

/-- The parsed state of the descriptors in a response. -/
inductive FileDescriptors where
  | absent
  | malformed
  | decoded (descriptors : List FileDescriptor)
  deriving DecidableEq

/-- The consumed fields of an ingest response. -/
structure IngestResponse where
  status : IngestStatus
  segment : Option String
  existingSegment : Option String
  reasonCode : Option String
  fileDescriptors : FileDescriptors
  deriving DecidableEq

/-- What the client knows of a file it sent. -/
structure LocalFile where
  name : String
  sha256 : String
  size : Nat
  deriving DecidableEq

/-- A validated upload receipt. -/
structure UploadReceipt where
  serverSegment : String
  files : List FileDescriptor
  deriving DecidableEq

/-- Why an upload response cannot serve as a receipt. -/
inductive ReceiptFault where
  | absent
  | malformed
  | statusNotAccepted (status : IngestStatus)
  | missingServerSegment
  | duplicateMissingExistingSegment
  | duplicateSubmittedName (name : String)
  | missingLocalFile (name : String)
  | extraSubmittedFile (name : String)
  | fileCountMismatch (expected actual : Nat)
  | sha256InvalidHex (name value : String)
  | sha256Mismatch (name expected actual : String)
  | sizeMismatch (name : String) (expected actual : Nat)
  | receivedNotWritten (name : String)
  | unknownDisposition (name disposition : String)
  deriving DecidableEq

/-! ## The receipt -/

def isSha256Lower (value : String) : Bool :=
  value.length == 64 && value.toList.all fun c => c.isDigit || ('a' ≤ c && c ≤ 'f')

/-- The segment name a response gives, by its status. -/
def serverSegmentOf (response : IngestResponse) : Except ReceiptFault String :=
  match response.status with
  | .ok | .collision =>
    match response.segment with
    | none => .error .missingServerSegment
    | some segment => .ok segment
  | .duplicate =>
    match response.existingSegment with
    | none => .error .duplicateMissingExistingSegment
    | some segment => .ok segment
  | .conflict => .error (.statusNotAccepted .conflict)
  | .failed => .error (.statusNotAccepted .failed)

/-- The first name that occurs a second time. -/
def firstRepeated : List String → List String → Option String
  | _, [] => none
  | seen, name :: names =>
    if name ∈ seen then some name else firstRepeated (name :: seen) names

/-- The checks of one sent file against the descriptor that names it. -/
def checkDescriptor (desc : FileDescriptor) (file : LocalFile) : Except ReceiptFault Unit :=
  if ¬ isSha256Lower desc.sha256 then .error (.sha256InvalidHex desc.submitted desc.sha256)
  else if desc.sha256 ≠ file.sha256 then
    .error (.sha256Mismatch desc.submitted file.sha256 desc.sha256)
  else if desc.size ≠ file.size then
    .error (.sizeMismatch desc.submitted file.size desc.size)
  else if desc.disposition = "written" ∨ desc.disposition = "already_held" then .ok ()
  else if desc.disposition = "received_not_written" then
    .error (.receivedNotWritten desc.submitted)
  else .error (.unknownDisposition desc.submitted desc.disposition)

/-- The loop over the sent files. -/
def checkLocalFiles (descriptors : List FileDescriptor) : List LocalFile → Except ReceiptFault Unit
  | [] => .ok ()
  | file :: files =>
    match descriptors.find? fun desc => desc.submitted == file.name with
    | none => .error (.missingLocalFile file.name)
    | some desc =>
      match checkDescriptor desc file with
      | .error fault => .error fault
      | .ok () => checkLocalFiles descriptors files

/-- Validate that a response serves as a receipt for all the files that were sent. -/
def validateReceipt (response : IngestResponse) (localFiles : List LocalFile) :
    Except ReceiptFault UploadReceipt :=
  match response.fileDescriptors with
  | .absent => .error .absent
  | .malformed => .error .malformed
  | .decoded descriptors =>
    match serverSegmentOf response with
    | .error fault => .error fault
    | .ok serverSegment =>
      match firstRepeated [] (descriptors.map (·.submitted)) with
      | some name => .error (.duplicateSubmittedName name)
      | none =>
        if descriptors.length ≠ localFiles.length then
          .error (.fileCountMismatch localFiles.length descriptors.length)
        else
          match checkLocalFiles descriptors localFiles with
          | .error fault => .error fault
          | .ok () =>
            match descriptors.find? fun desc => !localFiles.any (·.name == desc.submitted) with
            | some desc => .error (.extraSubmittedFile desc.submitted)
            | none => .ok ⟨serverSegment, descriptors⟩

/-! ## The day's listing -/

/-- Custody of one listed file. -/
inductive SegmentFileStatus where
  | present
  | missing
  | processed
  deriving DecidableEq

def SegmentFileStatus.isHeld : SegmentFileStatus → Bool
  | .present => true
  | .processed => true
  | .missing => false

/-- One listed file. -/
structure SegmentFile where
  name : String
  size : Nat
  sha256 : String
  status : SegmentFileStatus
  deriving DecidableEq

structure SegmentItem where
  key : String
  files : List SegmentFile
  originalKey : Option String
  /-- The segment's directory, given when the key is an alias. -/
  segment : Option String
  /-- The stream's directory, given with `segment`. -/
  stream : Option String
  deriving DecidableEq

structure SegmentsEnvelope where
  items : List SegmentItem
  total : Nat
  protocolVersion : Nat
  deriving DecidableEq

/-- What makes a listing unusable as a whole. -/
inductive CustodyFailure where
  | protocolVersionMismatch (actual : Nat)
  | segmentsTotalMismatch (total itemCount : Nat)
  | duplicateListingKey (key : String)
  | physicalCoordinatesMalformed (key : String)
  deriving DecidableEq

/-- The item loop of `validateSegmentsEnvelope`, with the keys seen so far. -/
def checkItems : List String → List SegmentItem → Except CustodyFailure Unit
  | _, [] => .ok ()
  | seen, item :: items =>
    if item.key ∈ seen then .error (.duplicateListingKey item.key)
    else if item.segment.isSome ≠ item.stream.isSome ∨ item.segment = some "" ∨
        item.stream = some "" then
      .error (.physicalCoordinatesMalformed item.key)
    else checkItems (item.key :: seen) items

/-- Validate what every listing has to satisfy before anything is matched against it. -/
def validateSegmentsEnvelope (segments : SegmentsEnvelope) : Except CustodyFailure Unit :=
  if segments.protocolVersion ≠ 3 then
    .error (.protocolVersionMismatch segments.protocolVersion)
  else if segments.total ≠ segments.items.length then
    .error (.segmentsTotalMismatch segments.total segments.items.length)
  else checkItems [] segments.items

end SolstoneWindows.ObserverPl.Ingest
