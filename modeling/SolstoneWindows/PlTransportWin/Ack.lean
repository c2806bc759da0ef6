import SolstoneWindows.ObserverPl.Ingest

/-!
# The acknowledgement beside a segment

`crates/pl-transport-win/src/ack.rs`: the record an uploader leaves in a sealed directory once
the journal has proved that it holds the files. An acknowledgement names the journal, the files
with their sizes and digests, and the directory it was written for.

`Libraries` stands for the code of other crates: the digest and the JSON reader and writer.
-/

set_option autoImplicit false

namespace SolstoneWindows.PlTransportWin

open ObserverPl.Ingest (FileDescriptor SegmentFileStatus)

def LOCAL_UPLOAD_ACK_SCHEMA : String := "solstone.local-upload-ack.v1"

/-- The journal identity pinned to an acknowledgement. -/
structure JournalIdentity where
  instanceId : String
  caFpPrefix : String
  clientCertSha256 : String
  deriving DecidableEq

/-- Where the proof came from. -/
inductive AckProofKind where
  | upload
  | listing
  deriving DecidableEq

structure AckFile where
  submitted : String
  written : String
  size : Nat
  sha256 : String
  disposition : Option String
  listingStatus : Option SegmentFileStatus
  deriving DecidableEq

structure UploadAck where
  schema : String
  journalIdentity : JournalIdentity
  day : String
  localSegment : String
  serverSegment : String
  status : Option String
  proof : AckProofKind
  files : List AckFile
  /-- Coordinates of the local directory. -/
  physicalIndex : Option Nat
  physicalSegment : Option String
  physicalStream : Option String
  /-- The key asked for, before the journal gave the segment any alias. -/
  originalUploadKey : Option String
  deriving DecidableEq

namespace UploadAck

def newUpload (journalIdentity : JournalIdentity) (day localSegment serverSegment status : String)
    (receiptFiles : List FileDescriptor) : UploadAck where
  schema := LOCAL_UPLOAD_ACK_SCHEMA
  journalIdentity := journalIdentity
  day := day
  localSegment := localSegment
  serverSegment := serverSegment
  status := some status
  proof := .upload
  files := receiptFiles.map fun f =>
    { submitted := f.submitted, written := f.written, size := f.size, sha256 := f.sha256
      disposition := some f.disposition, listingStatus := none }
  physicalIndex := none
  physicalSegment := none
  physicalStream := none
  originalUploadKey := none

def newListing (journalIdentity : JournalIdentity) (day localSegment serverSegment : String)
    (files : List AckFile) : UploadAck where
  schema := LOCAL_UPLOAD_ACK_SCHEMA
  journalIdentity := journalIdentity
  day := day
  localSegment := localSegment
  serverSegment := serverSegment
  status := none
  proof := .listing
  files := files
  physicalIndex := none
  physicalSegment := none
  physicalStream := none
  originalUploadKey := none

def withPhysicalIdentity (ack : UploadAck) (index : Nat)
    (segment stream originalUploadKey : String) : UploadAck :=
  { ack with
    physicalIndex := some index
    physicalSegment := some segment
    physicalStream := some stream
    originalUploadKey := some originalUploadKey }

/-- Which of the four coordinates are recorded. -/
def physicalFields (ack : UploadAck) : List Bool :=
  [ack.physicalIndex.isSome, ack.physicalSegment.isSome, ack.physicalStream.isSome,
    ack.originalUploadKey.isSome]

/-- An acknowledgement from before the coordinates were recorded. -/
def isLegacy (ack : UploadAck) : Bool := ack.physicalFields.all (!·)

end UploadAck

/-- What the uploader takes from other crates. -/
structure Libraries where
  /-- The hexadecimal SHA-256 of a file's bytes. -/
  sha256Hex : List UInt8 → String
  /-- `serde_json::to_vec_pretty` of an acknowledgement. -/
  toVec : UploadAck → List UInt8
  /-- `serde_json::from_slice` of an acknowledgement. -/
  fromSlice : List UInt8 → Option UploadAck
  /-- `serde_json::from_slice` of a list of names. -/
  namesFromSlice : List UInt8 → Option (List String)
  /-- The text under a name in the JSON object a response body holds. -/
  bodyField : String → String → Option String

/-- Read an acknowledgement. One of another schema, or with only some of the coordinates, is
refused. -/
def UploadAck.fromBytes (lib : Libraries) (bytes : List UInt8) : Option UploadAck :=
  match lib.fromSlice bytes with
  | none => none
  | some ack =>
    if ack.schema ≠ LOCAL_UPLOAD_ACK_SCHEMA then none
    else if ack.physicalFields.any id && ack.physicalFields.any (!·) then none
    else some ack

end SolstoneWindows.PlTransportWin
