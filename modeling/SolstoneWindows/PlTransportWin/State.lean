import Mathlib.Logic.Function.Basic
import SolstoneWindows.PlTransportWin.Ack
import SolstoneWindows.PlatformWin.Layout

/-!
# The uploader and its surroundings

What the upload coordinator of `crates/pl-transport-win` works on: the segments root, what the
coordinator remembers between ticks, the journal it is paired with, and the journal's answers.

One `Outside` decides one call. It says how a file-system call goes, what the journal answers,
what the clock says, whether the device's zone changed, and which files somebody else has put
into sealed directories since the last call. Others only add: a name that is there keeps its
file.

`log` is what happened: every upload with its answer, every listing, every file removed, every
count of what is pending. No function reads it.
-/

set_option autoImplicit false

namespace SolstoneWindows.PlTransportWin

open Lib.Effect Lib.Fs
open ObserverModel (LocalZone)
open ObserverPl.Ingest
open PlatformWin (Place)

/-! ## Errors of a request -/

inductive RelayError where
  | homeOffline
  | unauthorized
  | unpaid
  | unknownInstance
  | pairWindowClosed
  | overflow
  | abnormal
  | upgradeRejected
  | stalled
  deriving DecidableEq

inductive RelayControlEndpoint where
  | enrollDevice
  | tokenRefresh
  deriving DecidableEq

/-- Errors of the transport. The inner errors of other crates are left out. -/
inductive TransportError where
  | io
  | tls
  | crypto
  | clientKeyProtectionRefused
  | relayTokenProtectionRefused
  | credentialMalformed
  | credentialRecoveryRequired
  | mux
  | http
  | json
  | pairLink
  | pairing
  | ingest
  | rejected (status : Nat) (body : String)
  | relay (error : RelayError)
  | relayControlRejected (endpoint : RelayControlEndpoint) (status : Nat)
  | replayUnsafe
  | relayDisabled
  | relayRetired
  | relayPublicationRejected
  | relayPublicationIndeterminate
  | noEndpoint
  | notPaired
  | localOffset
  deriving DecidableEq

def RelayError.code : RelayError → String
  | .homeOffline => "relay_home_offline"
  | .unauthorized => "relay_unauthorized"
  | .unpaid => "relay_unpaid"
  | .unknownInstance => "relay_unknown_instance"
  | .pairWindowClosed => "relay_pair_window_closed"
  | .overflow => "relay_overflow"
  | .abnormal => "relay_abnormal"
  | .upgradeRejected => "relay_upgrade_rejected"
  | .stalled => "relay_stalled"

def RelayControlEndpoint.code : RelayControlEndpoint → String
  | .enrollDevice => "enroll_device"
  | .tokenRefresh => "refresh"

def transportErrorCode : TransportError → String
  | .io => "io"
  | .tls => "tls"
  | .crypto => "crypto"
  | .clientKeyProtectionRefused => "client_key_protection_refused"
  | .relayTokenProtectionRefused => "relay_token_protection_refused"
  | .credentialMalformed => "credential_malformed"
  | .credentialRecoveryRequired => "credential_recovery_required"
  | .mux => "mux"
  | .http => "http"
  | .json => "json"
  | .pairLink => "pair_link"
  | .pairing => "pairing"
  | .ingest => "ingest"
  | .rejected status _ => "http_" ++ toString status
  | .relay error => error.code
  | .relayControlRejected endpoint status =>
    "relay_" ++ endpoint.code ++ "_http_" ++ toString status
  | .replayUnsafe => "replay_unsafe"
  | .relayDisabled => "relay_disabled"
  | .relayRetired => "relay_retired"
  | .relayPublicationRejected => "relay_publication_rejected"
  | .relayPublicationIndeterminate => "relay_publication_indeterminate"
  | .noEndpoint => "no_endpoint"
  | .notPaired => "not_paired"
  | .localOffset => "local_offset"

/-- Why a request got no usable answer. -/
inductive RouteError where
  /-- The owner has not accepted this pairing yet. -/
  | awaitingConfirmation
  | transport (error : TransportError)
  deriving DecidableEq

/-! ## What happens -/

/-- A segment whose upload was accepted without descriptors. -/
structure UnknownSegmentFact where
  index : Nat
  segmentKey : String
  localFiles : List LocalFile
  deriving DecidableEq

/-- An upload. -/
structure Post where
  index : Nat
  identity : JournalIdentity
  day : String
  segmentKey : String
  parts : List FilePart
  zone : LocalZone
  audioSources : List String
  /-- The segment's directory when the request was made. -/
  dir : Dir
  /-- Nothing, when the process stopped before the answer. -/
  answer : Option (Except RouteError IngestResponse)
  deriving DecidableEq

/-- A day's listing that the journal gave, and the segments it was asked for. -/
structure Listing where
  identity : JournalIdentity
  day : String
  unknown : List UnknownSegmentFact
  envelope : SegmentsEnvelope
  deriving DecidableEq

/-- A file removed from a sealed directory. -/
structure Removal where
  index : Nat
  name : String
  /-- The journal the uploader was paired with. -/
  identity : JournalIdentity
  /-- The directory just before. -/
  dir : Dir
  deriving DecidableEq

inductive Happening where
  | posted (post : Post)
  | listed (listing : Listing)
  | removed (removal : Removal)
  /-- `pending_segments` was set to the number of these. -/
  | counted (indices : List Nat)
  deriving DecidableEq

/-! ## State -/

structure SegmentBound where
  untilEpoch : Nat
  lastErrorSignature : String
  streak : Nat
  deriving DecidableEq

/-- The published counters of the uploader. -/
structure UploadStatus where
  pendingSegments : Nat := 0
  uploadedSegments : Nat := 0
  failedSegments : Nat := 0
  quarantinedSegments : Nat := 0
  invalidReceipts : Nat := 0
  segmentRemovedSegments : Nat := 0
  unknownKeptSegments : Nat := 0
  listingRefusals : Nat := 0
  lastError : Option String := none
  lastUploadedSegment : Option String := none
  lastUploadedServerSegment : Option String := none
  lastUploadBytes : Option Nat := none
  deriving DecidableEq

/-- What the coordinator remembers. A restart forgets it. -/
structure Memory where
  quarantineCounts : Nat → Nat := fun _ => 0
  segmentBounds : JournalIdentity × String × String → Option SegmentBound := fun _ => none
  /-- Until when a segment is left alone. -/
  deleteHolds : Nat → Nat := fun _ => 0
  /-- Until when a day is not listed. -/
  dayBounds : String → Option Nat := fun _ => none
  upload : UploadStatus := {}

structure World where
  disk : Disk Place
  memory : Memory
  identity : JournalIdentity
  /-- The local zone at an instant, unless the lookup fails. -/
  zone : Nat → Option LocalZone
  log : List Happening

/-- A file or folder that somebody else puts into a sealed directory. -/
structure Added where
  index : Nat
  name : String
  node : Node
  deriving DecidableEq

/-- What the surroundings do at one call. A call uses the fields it asks for. -/
structure Outside where
  /-- How a call goes that removes nothing. -/
  fs : Verdict := default
  /-- How a removal goes. -/
  removal : Verdict := default
  /-- What was put into sealed directories since the last call. -/
  added : List Added := []
  ingest : Except RouteError IngestResponse := .error .awaitingConfirmation
  listing : Except RouteError SegmentsEnvelope := .error .awaitingConfirmation
  /-- New answers of the zone lookup, when the device's zone has changed. -/
  rezoned : Option (Nat → Option LocalZone) := none
  gateOpen : Bool := false
  /-- Whether the uploader was not asked to end. -/
  running : Bool := false
  now : Nat := 0

instance : Inhabited Outside := ⟨{}⟩

/-- Programs of the uploader. -/
abbrev UploadProg (ε α : Type) : Type := Prog Outside World ε α

/-- Programs whose failures are those of the file system. -/
abbrev StoreProg (α : Type) : Type := UploadProg FsError α

/-- The disk after somebody put a file into a sealed directory. A name that is taken stays. -/
def addEntry (disk : Disk Place) (added : Added) : Disk Place :=
  match disk.lookup (.sealed added.index) with
  | none => putDir disk (.sealed added.index) (Dir.of [(added.name, added.node)])
  | some dir =>
    match dir.lookup added.name with
    | none => put disk (.sealed added.index) added.name added.node
    | some _ => disk

/-- The disk a call finds. -/
def Outside.found (o : Outside) (disk : Disk Place) : Disk Place := o.added.foldl addEntry disk

/-- A call on the segments root, decided by one of the verdicts. -/
def storeBy {α : Type} (verdict : Outside → Verdict) (body : Body Place α) : StoreProg α :=
  Prog.call fun o w =>
    ((body (verdict o) (o.found w.disk)).1,
      { w with disk := (body (verdict o) (o.found w.disk)).2 })

/-- A call on the segments root that removes nothing. -/
def store {α : Type} (body : Body Place α) : StoreProg α := storeBy (·.fs) body

/-- A question to the surroundings. -/
def ask {ε α : Type} (answer : Outside → α) : UploadProg ε α := Prog.call fun o w =>
  (.ok (answer o), w)

/-- The local zone at an instant. -/
def localZone {ε : Type} (epochSecs : Nat) : UploadProg ε (Option LocalZone) :=
  Prog.call fun o w =>
    (.ok (o.rezoned.getD w.zone epochSecs), { w with zone := o.rezoned.getD w.zone })

/-- Change what the coordinator remembers. -/
def remember {ε : Type} (f : Memory → Memory) : UploadProg ε Unit :=
  Prog.modify fun w => { w with memory := f w.memory }

/-- Change a published counter. -/
def publish {ε : Type} (f : UploadStatus → UploadStatus) : UploadProg ε Unit :=
  remember fun m => { m with upload := f m.upload }

/-- What a sealed directory holds. -/
def dirOf (disk : Disk Place) (index : Nat) : Dir := (disk.lookup (.sealed index)).getD ∅

end SolstoneWindows.PlTransportWin
