import SolstoneWindows.Lib.Staged
import SolstoneWindows.PlTransportWin.State

/-!
# The saved decision about a replaced device

`crates/pl-transport-win/src/migration.rs`: the owner's decision about a fresh pairing is saved as
the exact request before it is sent, and only that request is ever sent again.

A session is the record file and the record that was loaded from it. The functions of the source
change the loaded record in place before they save it, so a save that fails leaves the change in
memory. `eligibility` and `offer_shown` are not modelled: these functions copy them.

JSON, Base64 and SHA-256 are fields of `MigrationCrates`. A record that is written is read back as
the same record.
-/

set_option autoImplicit false

namespace SolstoneWindows.PlTransportWin.Migration

open Lib.Effect Lib.Staged
open PlTransportWin (TransportError)

def MIGRATION_RECORD_SCHEMA : String := "solstone.windows-device-migration.v1"

/-- The owner's answer to the fresh-pair offer. -/
inductive Choice where
  | newDevice
  | replaceDevice
  deriving DecidableEq

/-- What the journal reports of a decision. -/
inductive ServerState where
  | none
  | pending
  | newDevice
  | sameDevice
  | replacedDevice
  deriving DecidableEq

def Choice.asWire : Choice → String
  | .newDevice => "new_device"
  | .replaceDevice => "replace_device"

def Choice.expectedState : Choice → ServerState
  | .newDevice => .newDevice
  | .replaceDevice => .replacedDevice

def ServerState.asWire : ServerState → String
  | .none => "none"
  | .pending => "pending"
  | .newDevice => "new_device"
  | .sameDevice => "same_device"
  | .replacedDevice => "replaced_device"

structure DecisionRequest where
  protocolVersion : Nat
  operationId : String
  choice : Choice
  replacesCid : Option String
  deriving DecidableEq

structure MigrationStateResponse where
  protocolVersion : Nat
  rekeyOperationId : Option String
  previousCid : Option String
  state : ServerState
  replacedCid : Option String
  deriving DecidableEq

structure DecisionResponse where
  protocolVersion : Nat
  operationId : String
  state : ServerState
  previousCid : Option String
  cid : String
  replacedCid : Option String
  displayLabel : String
  deriving DecidableEq

inductive MigrationPhase where
  /-- No decision is in flight. -/
  | offered
  /-- A decision request is saved and its result is not known. -/
  | decisionUnknown
  /-- The journal confirmed the decision. -/
  | decided
  deriving DecidableEq

inductive DecisionReconcile where
  | replayExactRequest
  | terminal
  | targetMissing
  | unknown
  deriving DecidableEq

structure SavedDecision where
  request : DecisionRequest
  requestBytesBase64 : String
  result : String
  deriving DecidableEq

structure MigrationRecord where
  schema : String
  /-- A `u64`. -/
  revision : Nat
  pairingGeneration : List UInt8
  phase : MigrationPhase
  cid : String
  binding : String
  pendingDecision : Option SavedDecision
  terminalDecisions : List SavedDecision
  serverState : Option ServerState
  replacedCid : Option String
  decisionDisplayLabel : Option String
  offerPending : Bool
  deriving DecidableEq

/-- What this module takes from other crates. -/
structure MigrationCrates where
  /-- `serde_json::to_vec` of a request. -/
  requestToVec : DecisionRequest → List UInt8
  /-- `serde_json::from_slice` of a request. -/
  requestFromSlice : List UInt8 → Option DecisionRequest
  base64Encode : List UInt8 → String
  base64Decode : String → Option (List UInt8)
  sha256 : List UInt8 → List UInt8
  /-- A field of a JSON body: absent, there, or there as a string. -/
  bodyField : List UInt8 → String → Option (Option String)

/-! ## The record file -/

abbrev RecordProg (α : Type) : Type := Prog Fate (Slot MigrationRecord) TransportError α

def load : RecordProg (Option MigrationRecord) := do
  match ← readPublished .io with
  | none => pure none
  | some .torn => Prog.fail .credentialMalformed
  | some (.whole record) =>
    if record.schema ≠ MIGRATION_RECORD_SCHEMA then Prog.fail .credentialMalformed
    else pure (some record)

/-- The revision a record is saved at: it must be the one on disk, or 0 for the first. -/
def nextRevision (current : Option MigrationRecord) (record : MigrationRecord) : Option Nat :=
  match current with
  | some current =>
    if current.revision = record.revision then some (ObserverModel.saturatingAdd current.revision 1)
    else none
  | none => if record.revision = 0 then some 1 else none

/-- Stage a record, check it, move it over the file and check it again. -/
def publishRecord (staged : MigrationRecord) : RecordProg Unit := do
  -- `create_dir_all`
  probe .io
  stage .io staged
  let readback ← readStaged .io
  Prog.onlyIf (readback ≠ some (.whole staged)) (Prog.fail .credentialRecoveryRequired)
  Lib.Staged.publish .io .io
  let readback ← readPublished .io
  Prog.onlyIf (readback ≠ some (.whole staged)) (Prog.fail .credentialRecoveryRequired)

/-- The file, and the record that was loaded from it. -/
structure MigrationSession where
  file : Slot MigrationRecord
  record : MigrationRecord
  deriving DecidableEq

abbrev MigrationProg (α : Type) : Type := Prog Fate MigrationSession TransportError α

/-- A program of the file. -/
def onFile {α : Type} (p : RecordProg α) : MigrationProg α :=
  p.zoom MigrationSession.file fun file s => { s with file }

/-- Publish the record only over the revision it was read at. -/
def save : MigrationProg Unit := do
  let record := (← Prog.get).record
  if record.schema ≠ MIGRATION_RECORD_SCHEMA then Prog.fail .credentialMalformed
  else
    let current ← onFile load
    match nextRevision current record with
    | none => Prog.fail .replayUnsafe
    | some revision =>
      onFile (publishRecord { record with revision })
      Prog.modify fun s => { s with record := { s.record with revision } }

/-- Load the record again. -/
def reload : MigrationProg Unit := do
  match ← onFile load with
  | none => pure ()
  | some record => Prog.modify fun s => { s with record }

/-! ## Decisions -/

/-- `hex_lower`. -/
def hexLower (bytes : List UInt8) : List Char :=
  bytes.flatMap fun byte => [Nat.digitChar (byte.toNat / 16), Nat.digitChar (byte.toNat % 16)]

def validCid (cid : String) : Bool :=
  "sha256:".toList.isPrefixOf cid.toList && (cid.toList.drop 7).length == 64 &&
    (cid.toList.drop 7).all fun c => c.isDigit || ('a' ≤ c && c ≤ 'f')

/-- `u64::to_be_bytes`. -/
def toBeBytes (n : Nat) : List UInt8 :=
  (List.range 8).map fun i => UInt8.ofNat (n / 256 ^ (7 - i) % 256)

/-- A version 5 UUID from the first 16 bytes of a digest. -/
def uuidOfDigest (digest : List UInt8) : String :=
  let bytes := (digest.take 16).modify 6 (fun b => (b &&& 0x0f) ||| 0x50)
  let bytes := bytes.modify 8 (fun b => (b &&& 0x3f) ||| 0x80)
  let hex := hexLower bytes
  String.ofList (hex.take 8 ++ '-' :: (hex.drop 8).take 4 ++ '-' :: (hex.drop 12).take 4 ++
    '-' :: (hex.drop 16).take 4 ++ '-' :: hex.drop 20)

section Crates

variable (crates : MigrationCrates)

def decisionOperationId (record : MigrationRecord) (choice : Choice)
    (replacesCid : Option String) : String :=
  uuidOfDigest (crates.sha256
    ("solstone.windows.device-decision.v1".toUTF8.data.toList ++ [0] ++ record.pairingGeneration
      ++ toBeBytes record.revision ++ choice.asWire.toUTF8.data.toList
      ++ (replacesCid.map fun cid => cid.toUTF8.data.toList).getD []))

/-- The arguments of a decision contradict each other or the record. -/
def malformedDecision (record : MigrationRecord) (choice : Choice)
    (replacesCid : Option String) : Bool :=
  (choice == .replaceDevice) != replacesCid.isSome ||
    replacesCid.any (fun cid => !validCid cid) || replacesCid == some record.cid

/-- A new decision cannot be taken now. -/
def closedOffer (record : MigrationRecord) : Bool :=
  !record.offerPending || record.phase != .offered || record.serverState.isSome ||
    !validCid record.cid || record.binding.isEmpty

def savedDecision (record : MigrationRecord) (choice : Choice) (replacesCid : Option String) :
    SavedDecision :=
  let request : DecisionRequest :=
    { protocolVersion := 1
      operationId := decisionOperationId crates record choice replacesCid
      choice
      replacesCid }
  { request
    requestBytesBase64 := crates.base64Encode (crates.requestToVec request)
    result := "unknown" }

/-- The record with a new decision. One that was pending is kept with its result. -/
def withDecision (record : MigrationRecord) (choice : Choice) (replacesCid : Option String) :
    MigrationRecord :=
  { record with
    terminalDecisions := record.terminalDecisions ++ record.pendingDecision.toList
    pendingDecision := some (savedDecision crates record choice replacesCid)
    phase := .decisionUnknown }

/-- Save a decision that the record does not have yet. -/
def persistNew (choice : Choice) (replacesCid : Option String) : MigrationProg Unit := do
  let record := (← Prog.get).record
  if closedOffer record then Prog.fail .replayUnsafe
  else
    Prog.modify fun s => { s with record := withDecision crates s.record choice replacesCid }
    save

def persistDecision (choice : Choice) (replacesCid : Option String) : MigrationProg Unit := do
  let record := (← Prog.get).record
  if malformedDecision record choice replacesCid then Prog.fail .credentialMalformed
  else
    match record.pendingDecision with
    | none => persistNew crates choice replacesCid
    | some saved =>
      if saved.request.choice = choice ∧ saved.request.replacesCid = replacesCid then
        if saved.result = "target_missing" then Prog.fail .replayUnsafe else pure ()
      else if saved.result ≠ "target_missing" then Prog.fail .replayUnsafe
      else persistNew crates choice replacesCid

def decisionBytes (saved : SavedDecision) : Except TransportError (List UInt8) :=
  match crates.base64Decode saved.requestBytesBase64 with
  | none => .error .credentialMalformed
  | some bytes =>
    match crates.requestFromSlice bytes with
    | none => .error .credentialMalformed
    | some decoded =>
      if decoded ≠ saved.request ∨ decoded.protocolVersion ≠ 1 then .error .credentialMalformed
      else .ok bytes

/-- The journal's answer is not the one the saved decision asked for. -/
def foreignResponse (record : MigrationRecord) (saved : SavedDecision)
    (response : DecisionResponse) : Bool :=
  response.protocolVersion != 1 || response.operationId != saved.request.operationId ||
    response.state != saved.request.choice.expectedState || response.previousCid.isSome ||
    response.cid != record.cid || !validCid response.cid ||
    match saved.request.choice with
    | .replaceDevice => response.replacedCid != saved.request.replacesCid
    | .newDevice => response.replacedCid.isSome

/-- The record with the journal's answer to its decision. -/
def withTerminal (record : MigrationRecord) (saved : SavedDecision)
    (response : DecisionResponse) : MigrationRecord :=
  { record with
    pendingDecision := some { saved with result := response.state.asWire }
    serverState := some response.state
    replacedCid := response.replacedCid
    decisionDisplayLabel := some response.displayLabel
    phase := .decided
    offerPending := false }

def markDecisionTerminal (response : DecisionResponse) : MigrationProg Unit := do
  let record := (← Prog.get).record
  match record.pendingDecision with
  | none => Prog.fail .credentialMalformed
  | some saved =>
    if foreignResponse record saved response then Prog.fail .credentialMalformed
    else
      Prog.modify fun s => { s with record := withTerminal s.record saved response }
      save

def targetMissingReason (status : Nat) (body : List UInt8) : Bool :=
  let reason := ((crates.bodyField body "reason_code").or (crates.bodyField body "reason")).join
  (status == 404 && reason == some "paired_device_not_found") ||
    (status == 409 && reason == some "migration_target_conflict")

/-- The record with a decision whose target does not exist. -/
def withTargetMissing (record : MigrationRecord) (saved : SavedDecision) : MigrationRecord :=
  { record with
    pendingDecision := some { saved with result := "target_missing" }
    phase := .offered }

def recordTargetMissing (status : Nat) (body : List UInt8) : MigrationProg Bool := do
  let record := (← Prog.get).record
  if !targetMissingReason crates status body then pure false
  else
    match record.pendingDecision with
    | none => pure false
    | some saved =>
      if saved.request.choice ≠ .replaceDevice ∨ saved.result ≠ "unknown" then pure false
      else do
        Prog.modify fun s => { s with record := withTargetMissing s.record saved }
        save
        pure true

end Crates

/-- What the journal's migration state proves about the saved decision. -/
def reconcileDecisionState (record : MigrationRecord) (response : MigrationStateResponse) :
    Except TransportError DecisionReconcile :=
  if response.protocolVersion ≠ 1 then .error .credentialMalformed
  else
    match record.pendingDecision with
    | none => .ok .unknown
    | some saved =>
      if saved.result = "target_missing" then .ok .targetMissing
      else if saved.result ≠ "unknown" then .ok .terminal
      else
        let replacedMatches : Bool :=
          match saved.request.choice with
          | .replaceDevice => response.replacedCid == saved.request.replacesCid
          | .newDevice => response.replacedCid.isNone
        if response.rekeyOperationId.isNone && response.previousCid.isNone &&
            (response.state == .none ||
              (response.state == saved.request.choice.expectedState && replacedMatches)) then
          .ok .replayExactRequest
        else .ok .unknown

end SolstoneWindows.PlTransportWin.Migration
