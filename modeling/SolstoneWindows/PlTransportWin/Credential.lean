import Mathlib.Data.Finset.Card
import Mathlib.Data.Finset.Lattice.Basic
import SolstoneWindows.Lib.Staged
import SolstoneWindows.PlTransportWin.State

/-!
# The pairing file

`crates/pl-transport-win/src/credential.rs`: the paired identity and every function that reads or
writes it. A write replaces the whole file; which content is on disk afterwards is known unless the
write ended as `durabilityUncertain`.

A profile has the pairing file, the owner's answer about it, the pairing that was set aside when the
platform refused its client key, and the recovery evidence of that key. In memory the secrets of a
credential are plain text; on disk they are `Stored`. The source keeps both in one type of strings,
told apart by a marker.

DPAPI, with Base64 around it, is a `Protector`, which every call is given anew. SHA-256 and the
parser of certificates are fields of `CredentialCrates`. JSON is left out: what is written is read
back as the same value, and a file that does not parse is `torn`. The functions that hold the owner
lock run as one program.
-/

set_option autoImplicit false

namespace SolstoneWindows.PlTransportWin

open Lib.Effect Lib.Staged

/-! ## Secrets -/

inductive ProtectionError where
  | refused
  | failure (error : TransportError)
  deriving DecidableEq

/-- The platform's protection of one text, as the Base64 of the protected bytes. -/
structure Protector where
  protect : String → Except ProtectionError String
  /-- A text that is no Base64, or bytes that are no text, end as `failure credentialMalformed`. -/
  unprotect : String → Except ProtectionError String

/-- A secret on disk. -/
inductive Stored where
  /-- After the marker `dpapi:v1:`. -/
  | wrapped (base64 : String)
  /-- After another `dpapi:` marker. -/
  | unknown (text : String)
  /-- Without a marker: written before secrets were protected. -/
  | legacy (plain : String)
  deriving DecidableEq

def wrapSecret (protector : Protector) (plain : String) : Except TransportError Stored :=
  match protector.protect plain with
  | .ok base64 => .ok (.wrapped base64)
  | .error .refused => .error .crypto
  | .error (.failure error) => .error error

def unwrapSecret (protector : Protector) (stored : Stored) (clientKey : Bool) :
    Except TransportError String :=
  match stored with
  | .wrapped base64 =>
    match protector.unprotect base64 with
    | .ok plain => .ok plain
    | .error .refused =>
      .error (if clientKey then .clientKeyProtectionRefused else .relayTokenProtectionRefused)
    | .error (.failure error) => .error error
  | .unknown _ => .error .credentialMalformed
  | .legacy plain => .ok plain

def extractProtectedBlob : Stored → Option String
  | .wrapped base64 => some base64
  | _ => none

/-! ## The record -/

structure EndpointAddr where
  host : String
  port : Nat
  deriving DecidableEq

/-- The signed pairing identity, with secrets of type `κ`. -/
structure Credential (κ : Type) where
  clientKeyPem : κ
  clientCertPem : String
  caChainPem : List String
  caFpPrefix : List UInt8
  instanceId : String
  homeLabel : String
  endpoints : List EndpointAddr
  relayOrigin : Option String
  deviceToken : Option κ
  deviceTokenExpiresAt : Option Int
  deriving DecidableEq

/-- `[u8; 32]`. -/
abbrev Generation : Type := List UInt8

/-- What this module takes from other crates. -/
structure CredentialCrates where
  /-- `spl_core::ca::sha256` of the bytes of a text. -/
  sha256 : String → Generation

/-- The CAS key for pairing state mutations. -/
structure CasKey where
  pairingGeneration : Generation
  /-- A `u64`. -/
  accessMutationGeneration : Nat
  deriving DecidableEq

inductive StorageError where
  | casMismatch
  | writeFailed
  | durabilityUncertain
  | transport (error : TransportError)
  | crypto
  deriving DecidableEq

/-- How far the retirement of a rejected pairing got. -/
inductive RetirementPhase where
  | prepared
  | unknown
  | succeeded
  deriving DecidableEq

/-- A rejection of the current pairing, bound to its generations. -/
structure RetirementIntent (κ : Type) where
  schema : Nat
  operationId : String
  phase : RetirementPhase
  ownerGeneration : Generation
  accessMutationGeneration : Nat
  clientId : String
  credential : Credential κ
  deriving DecidableEq

/-- The accepted handoff that a pairing came from. -/
structure SetupActivation where
  handoffId : String
  binding : String
  deriving DecidableEq

/-- The persisted sync identity. -/
structure PairedState (κ : Type) where
  credential : Option (Credential κ) := none
  /-- A `u64`. -/
  accessMutationGeneration : Nat := 0
  retirementIntent : Option (RetirementIntent κ) := none
  setupActivation : Option SetupActivation := none
  setupBrowserOpened : Bool := false
  retiredSetupHandoffs : Finset String := ∅
  setupHistoryUnavailable : Bool := false
  deriving DecidableEq

/-- The pairing as it is on disk. -/
abbrev PairedRecord : Type := PairedState Stored

/-- `u64::wrapping_add(1)`. -/
def wrappingSucc (n : Nat) : Nat := (n + 1) % 2 ^ 64

def MAX_SETUP_HANDOFF_IDS : Nat := 256

/-- Lowercase 8-4-4-4-12 hex with hyphens. -/
def isCanonicalUuid (value : String) : Bool :=
  value.toList.length == 36 && value.toList.zipIdx.all fun (c, index) =>
      if index == 8 || index == 13 || index == 18 || index == 23 then c == '-'
      else c.isDigit || ('a' ≤ c && c ≤ 'f')

/-! ## The files -/

/-- The owner's answer about a journal's mark: the certificate digest of the pairing that was
confirmed, and of the one that was rejected. -/
structure AnswerState where
  confirmed : String := ""
  rejected : String := ""
  deriving DecidableEq

/-- The files of a profile that are about its pairing. -/
structure Profile where
  /-- `pairing.json`. -/
  pairing : Slot PairedRecord := {}
  /-- `pairing-answer.json`. -/
  answer : Slot AnswerState := {}
  /-- `pairing-refused.json`. -/
  refused : Option (Content PairedRecord) := none
  /-- `pairing-key-recovery.bin`. -/
  evidence : Slot String := {}
  deriving DecidableEq

/-- A program over the profile, with failures of type `ε`. -/
abbrev ProfileProg (ε α : Type) : Type := Prog Fate Profile ε α

def onPairing {ε α : Type} (p : Prog Fate (Slot PairedRecord) ε α) : ProfileProg ε α :=
  p.zoom Profile.pairing fun pairing profile => { profile with pairing }

def onAnswer {ε α : Type} (p : Prog Fate (Slot AnswerState) ε α) : ProfileProg ε α :=
  p.zoom Profile.answer fun answer profile => { profile with answer }

def onEvidence {ε α : Type} (p : Prog Fate (Slot String) ε α) : ProfileProg ε α :=
  p.zoom Profile.evidence fun evidence profile => { profile with evidence }

/-- Write the recovery evidence, or check the one that is there. -/
def persistKeyRecoveryEvidence (bytes : String) : Prog Fate (Slot String) TransportError Unit := do
  let slot ← Prog.get
  if slot.published.isSome then
    let existing ← readPublished .io
    Prog.onlyIf (existing ≠ some (.whole bytes)) (Prog.fail .io)
  else
    if slot.staged.isSome then
      let existing ← readStaged .io
      Prog.onlyIf (existing ≠ some (.whole bytes)) (Prog.fail .io)
    else stage .io bytes
    let readback ← readStaged .io
    Prog.onlyIf (readback ≠ some (.whole bytes)) (Prog.fail .io)
    Lib.Staged.publish .io .io
    let readback ← readPublished .io
    Prog.onlyIf (readback ≠ some (.whole bytes)) (Prog.fail .io)

/-! ## Loading -/

/-- The client key in plain text. When the platform refuses it, its bytes are kept first. -/
def unwrapClientKey (protector : Protector) (stored : Stored) :
    ProfileProg TransportError String :=
  match unwrapSecret protector stored true with
  | .ok key => pure key
  | .error .clientKeyProtectionRefused =>
    match extractProtectedBlob stored with
    | none => Prog.fail .credentialMalformed
    | some evidence => do
      (onEvidence (persistKeyRecoveryEvidence evidence)).mapErr fun _ => .credentialRecoveryRequired
      Prog.fail .clientKeyProtectionRefused
  | .error error => Prog.fail error

/-- The device token in plain text, with its expiry. A token that the platform refuses is left
out. -/
def unwrapDeviceToken (protector : Protector) (credential : Credential Stored) :
    Except TransportError (Option String × Option Int × Bool) :=
  match credential.deviceToken with
  | none => .ok (none, credential.deviceTokenExpiresAt, false)
  | some stored =>
    match unwrapSecret protector stored false with
    | .ok token => .ok (some token, credential.deviceTokenExpiresAt, false)
    | .error .relayTokenProtectionRefused => .ok (none, none, true)
    | .error error => .error error

/-- A credential with other secrets. -/
def Credential.withSecrets {κ κ' : Type} (credential : Credential κ) (clientKeyPem : κ')
    (deviceToken : Option κ') (deviceTokenExpiresAt : Option Int) : Credential κ' :=
  { clientKeyPem
    clientCertPem := credential.clientCertPem
    caChainPem := credential.caChainPem
    caFpPrefix := credential.caFpPrefix
    instanceId := credential.instanceId
    homeLabel := credential.homeLabel
    endpoints := credential.endpoints
    relayOrigin := credential.relayOrigin
    deviceToken
    deviceTokenExpiresAt }

def unwrapCredential (protector : Protector) (credential : Credential Stored) :
    ProfileProg TransportError (Credential String × Bool) := do
  let key ← unwrapClientKey protector credential.clientKeyPem
  match unwrapDeviceToken protector credential with
  | .error error => Prog.fail error
  | .ok (token, expiresAt, refused) => pure (credential.withSecrets key token expiresAt, refused)

/-- An intent with its credential in another form. -/
def RetirementIntent.withCredential {κ κ' : Type} (intent : RetirementIntent κ)
    (credential : Credential κ') : RetirementIntent κ' :=
  { schema := intent.schema
    operationId := intent.operationId
    phase := intent.phase
    ownerGeneration := intent.ownerGeneration
    accessMutationGeneration := intent.accessMutationGeneration
    clientId := intent.clientId
    credential }

/-- A state with its credentials in another form. -/
def PairedState.withCredentials {κ κ' : Type} (state : PairedState κ)
    (credential : Option (Credential κ')) (intent : Option (Credential κ')) : PairedState κ' :=
  { credential
    accessMutationGeneration := state.accessMutationGeneration
    retirementIntent :=
      match state.retirementIntent, intent with
      | some held, some credential => some (held.withCredential credential)
      | _, _ => none
    setupActivation := state.setupActivation
    setupBrowserOpened := state.setupBrowserOpened
    retiredSetupHandoffs := state.retiredSetupHandoffs
    setupHistoryUnavailable := state.setupHistoryUnavailable }

/-- Unwrap a credential that may be missing. -/
def unwrapOptional (protector : Protector) (credential : Option (Credential Stored)) :
    ProfileProg TransportError (Option (Credential String) × Bool) := do
  match credential with
  | none => pure (none, false)
  | some credential =>
    let (credential, refused) ← unwrapCredential protector credential
    pure (some credential, refused)

namespace PairedState

/-- The state and whether a relay token was refused. Without a file it is the unpaired state. -/
def loadDetailed (protector : Protector) :
    ProfileProg TransportError (PairedState String × Bool) := do
  match ← onPairing (readPublished .io) with
  | none => pure ({}, false)
  | some .torn => Prog.fail .credentialMalformed
  | some (.whole record) =>
    let (credential, refused) ← unwrapOptional protector record.credential
    let (intent, refusedToo) ←
      unwrapOptional protector (record.retirementIntent.map RetirementIntent.credential)
    pure (record.withCredentials credential intent, refused || refusedToo)

def load (protector : Protector) : ProfileProg TransportError (PairedState String) := do
  let (state, _) ← loadDetailed protector
  pure state

/-! ## Handoffs that are over -/

def validateSetupIds (ids : Finset String) : Bool :=
  ids.card ≤ MAX_SETUP_HANDOFF_IDS && decide (∀ id ∈ ids, isCanonicalUuid id = true)

/-- The activation of a pairing that cannot be continued. -/
def settledActivation {κ : Type} (archived : Bool) (state : PairedState κ) : Finset String :=
  if archived || state.setupBrowserOpened || state.credential.isNone ||
      state.retirementIntent.isSome then
    (state.setupActivation.map SetupActivation.handoffId).elim ∅ singleton
  else ∅

/-- The handoffs that a record says are over. -/
def settledIds {κ : Type} (archived : Bool) (state : PairedState κ) : Finset String :=
  state.retiredSetupHandoffs ∪ settledActivation archived state

/-- The setup fields of a file. Reading them unwraps no secret. -/
def readSetupMetadata (archived : Bool) : ProfileProg TransportError (Option PairedRecord) := do
  probe .io
  let profile ← Prog.get
  match if archived then profile.refused else profile.pairing.published with
  | none => pure none
  | some .torn => Prog.fail .credentialMalformed
  | some (.whole record) =>
    if validateSetupIds record.retiredSetupHandoffs then pure (some record)
    else Prog.fail .pairing

/-! ## Saving -/

/-- Take over what a file says of handoffs that are over. -/
def absorb (archived : Bool) (metadata : Option PairedRecord) (state : PairedState String) :
    PairedState String :=
  match metadata with
  | none => state
  | some record =>
    { state with
      setupHistoryUnavailable := state.setupHistoryUnavailable || record.setupHistoryUnavailable
      retiredSetupHandoffs := state.retiredSetupHandoffs ∪ settledIds archived record }

/-- What the file's own activation means for the state that replaces it. -/
def succeed (previous : Option PairedRecord) (state : PairedState String) : PairedState String :=
  match previous with
  | none => state
  | some previous =>
    let sameActivation := previous.setupActivation == state.setupActivation
    let sameCredential :=
      previous.credential.map Credential.clientCertPem ==
        state.credential.map Credential.clientCertPem
    { state with
      setupBrowserOpened :=
        state.setupBrowserOpened ||
          (sameActivation && sameCredential && previous.setupBrowserOpened)
      retiredSetupHandoffs :=
        if sameActivation && sameCredential then state.retiredSetupHandoffs
        else state.retiredSetupHandoffs ∪
          (previous.setupActivation.map SetupActivation.handoffId).elim ∅ singleton }

/-- The state to write over the files' metadata. -/
def merged (previous archive : Option PairedRecord) (state : PairedState String) :
    PairedState String :=
  let state := succeed previous (absorb true archive (absorb false previous state))
  { state with retiredSetupHandoffs := settledIds false state }

end PairedState

def protectCredential (protector : Protector) (credential : Credential String) :
    Except TransportError (Credential Stored) :=
  match wrapSecret protector credential.clientKeyPem with
  | .error error => .error error
  | .ok key =>
    match credential.deviceToken with
    | none => .ok (credential.withSecrets key none credential.deviceTokenExpiresAt)
    | some token =>
      match wrapSecret protector token with
      | .error error => .error error
      | .ok token => .ok (credential.withSecrets key (some token) credential.deviceTokenExpiresAt)

/-- Protect a credential that may be missing. -/
def protectOptional (protector : Protector) (credential : Option (Credential String)) :
    Except TransportError (Option (Credential Stored)) :=
  match credential with
  | none => .ok none
  | some credential => (protectCredential protector credential).map some

namespace PairedState

def toRecord (protector : Protector) (state : PairedState String) :
    Except TransportError PairedRecord :=
  match protectOptional protector state.credential with
  | .error error => .error error
  | .ok credential =>
    match protectOptional protector (state.retirementIntent.map RetirementIntent.credential) with
    | .error error => .error error
    | .ok intent => .ok (state.withCredentials credential intent)

/-- The metadata of a file, for a save: a state whose history is unavailable anyway may replace a
file that cannot be read. -/
def metadataToSave (archived unavailable : Bool) :
    ProfileProg StorageError (Option PairedRecord) := do
  match ← (readSetupMetadata archived).attempt with
  | .ok metadata => pure metadata
  | .error error => if unavailable then pure none else Prog.fail (.transport error)

/-- Stage a record, move it over the file and check it. -/
def publishRecord (record : PairedRecord) : Prog Fate (Slot PairedRecord) StorageError Unit := do
  -- `create_dir_all`
  probe .writeFailed
  stage .writeFailed record
  Lib.Staged.publish .writeFailed .durabilityUncertain
  let readback ← readPublished .durabilityUncertain
  Prog.onlyIf (readback ≠ some (.whole record)) (Prog.fail .durabilityUncertain)

def saveInner (protector : Protector) (state : PairedState String) :
    ProfileProg StorageError Unit := do
  let previous ← metadataToSave false state.setupHistoryUnavailable
  let archive ←
    metadataToSave true (absorb false previous state).setupHistoryUnavailable
  let state := merged previous archive state
  if !validateSetupIds state.retiredSetupHandoffs then Prog.fail (.transport .pairing)
  else
    match toRecord protector state with
    | .error error => Prog.fail (.transport error)
    | .ok record => onPairing (publishRecord record)

/-- Save a state, whatever is on disk. -/
def save (protector : Protector) (state : PairedState String) : ProfileProg TransportError Unit :=
  (saveInner protector state).mapErr fun
    | .transport error => error
    | .writeFailed => .io
    | .durabilityUncertain => .io
    | .crypto => .crypto
    | .casMismatch => .io

/-! ## Mutations -/

section Crates

variable (crates : CredentialCrates)

/-- The owner generation of a certificate. -/
def pairingGeneration (clientCertPem : String) : Generation := crates.sha256 clientCertPem

/-- The generation of the credential of a state. -/
def generation {κ : Type} (state : PairedState κ) : Option Generation :=
  state.credential.map fun credential => pairingGeneration crates credential.clientCertPem

/-- Load, for a function that fails with a `StorageError`. -/
def loadState (protector : Protector) : ProfileProg StorageError (PairedState String) :=
  (load protector).mapErr .transport

/-- May this intent be installed over the state? -/
def admitsIntent {κ : Type} (state : PairedState κ) (expectedOwnerGeneration : Generation)
    (expectedAccessGeneration : Nat) (intent : RetirementIntent String) : Bool :=
  state.retirementIntent.isNone && generation crates state == some expectedOwnerGeneration &&
    state.accessMutationGeneration == expectedAccessGeneration && intent.schema == 1 &&
    intent.ownerGeneration == expectedOwnerGeneration &&
    intent.accessMutationGeneration == expectedAccessGeneration &&
    pairingGeneration crates intent.credential.clientCertPem == expectedOwnerGeneration

def installPairRejectionIntent (protector : Protector) (expectedOwnerGeneration : Generation)
    (expectedAccessGeneration : Nat) (intent : RetirementIntent String) :
    ProfileProg StorageError Unit := do
  let state ← loadState protector
  if admitsIntent crates state expectedOwnerGeneration expectedAccessGeneration intent then
    saveInner protector { state with retirementIntent := some intent }
  else Prog.fail .casMismatch

/-- Does the attempted intent still own the exact credential and access generation? -/
def ownsRejection {κ : Type} (state : PairedState κ) (operationId : String)
    (ownerGeneration : Generation) (accessGeneration : Nat) : Bool :=
  state.retirementIntent.any fun intent =>
    intent.schema == 1 && intent.operationId == operationId &&
      intent.ownerGeneration == ownerGeneration &&
      intent.accessMutationGeneration == accessGeneration &&
      (intent.phase == .succeeded || intent.phase == .unknown) &&
      generation crates state == some ownerGeneration &&
      state.accessMutationGeneration == accessGeneration

/-- The state without the rejected credential. -/
def withoutCredential {κ : Type} (state : PairedState κ) : PairedState κ :=
  { state with
    credential := none
    retirementIntent := none
    accessMutationGeneration := wrappingSucc state.accessMutationGeneration }

def finishPairRejection (protector : Protector) (operationId : String)
    (ownerGeneration : Generation) (accessGeneration : Nat)
    (clearAnswer : ProfileProg StorageError Unit) : ProfileProg StorageError Bool := do
  let state ← loadState protector
  if ownsRejection crates state operationId ownerGeneration accessGeneration then
    clearAnswer
    saveInner protector (withoutCredential state)
    pure true
  else pure false

/-- May the intent go on to another phase? -/
def admitsPhase {κ : Type} (state : PairedState κ) (operationId : String)
    (ownerGeneration : Generation) (expectedPhase : RetirementPhase) : Bool :=
  state.retirementIntent.any fun intent =>
    intent.schema == 1 && intent.operationId == operationId &&
      intent.ownerGeneration == ownerGeneration &&
      ownerGeneration == pairingGeneration crates intent.credential.clientCertPem &&
      generation crates state == some intent.ownerGeneration &&
      state.accessMutationGeneration == intent.accessMutationGeneration &&
      intent.phase == expectedPhase

def updateRetirementPhase (protector : Protector) (operationId : String)
    (ownerGeneration : Generation) (expectedPhase phase : RetirementPhase) :
    ProfileProg StorageError Unit := do
  let state ← loadState protector
  if admitsPhase crates state operationId ownerGeneration expectedPhase then
    saveInner protector
      { state with retirementIntent := state.retirementIntent.map fun intent =>
        { intent with phase } }
  else Prog.fail .casMismatch

/-- Change the credential only at the expected generations. -/
def mutate (protector : Protector) (expected : CasKey)
    (f : Credential String → Except StorageError (Credential String)) :
    ProfileProg StorageError Nat := do
  let state ← loadState protector
  match state.credential with
  | none => Prog.fail .casMismatch
  | some credential =>
    if state.retirementIntent.isSome ∨
        pairingGeneration crates credential.clientCertPem ≠ expected.pairingGeneration ∨
        state.accessMutationGeneration ≠ expected.accessMutationGeneration then
      Prog.fail .casMismatch
    else
      match f credential with
      | .error error => Prog.fail error
      | .ok credential =>
        let next := wrappingSucc state.accessMutationGeneration
        saveInner protector
          { state with credential := some credential, accessMutationGeneration := next }
        pure next

end Crates

end PairedState

end SolstoneWindows.PlTransportWin
