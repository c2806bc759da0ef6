import SolstoneWindows.PlTransportWin.Client

/-!
# Relay access of the live client

`crates/pl-transport-win/src/post_connect.rs` and `local_endpoints.rs`: how the journal's word on
relay access, a durable clear that was put off, and refreshed addresses change the pairing file and
the live client. All of them hold the publication lock, so each is one program; so does a token
commit (`tokenCommit`).

`log` is what happened. No function reads it.
-/

set_option autoImplicit false

namespace SolstoneWindows.PlTransportWin

open Lib.Effect Lib.Staged

/-- The session, its connection and its pairing. -/
structure AccessToken where
  sessionGeneration : Nat
  connectionEpoch : Nat
  pairingGeneration : Generation
  deriving DecidableEq

structure ValidatedReadyAccess where
  relayOrigin : String
  deviceToken : String
  expiresAt : Int
  deriving DecidableEq

/-- Who changes the pairing file. -/
inductive AccessWriter where
  | notConfigured
  | ready
  | retry
  /-- Refreshed addresses, with a clear that was put off or without. -/
  | endpoints (withClear : Bool)
  deriving DecidableEq

inductive AccessEvent where
  /-- A current outcome without relay access is applied. -/
  | notConfigured
  /-- The live client is rebuilt for it, and keeps its relay access or not. -/
  | stripped (relay : Bool)
  /-- The durable clear is put off. -/
  | putOff
  /-- A save: whether the file changed, whether that is uncertain, and whether the pairing on disk
  has relay access now. -/
  | saved (writer : AccessWriter) (wrote uncertain relay : Bool)
  deriving DecidableEq

/-- What the controller works on. -/
structure AccessSession where
  profile : Profile
  slot : ClientSlot
  token : AccessToken
  pendingDurableClear : Option CasKey
  /-- Whether the path of the pairing file is set. -/
  statePath : Bool
  log : List AccessEvent := []
  deriving DecidableEq

abbrev AccessProg (α : Type) : Type := Prog Fate AccessSession Empty α

/-- Does the pairing on disk have relay access? -/
def relayOnDisk (protector : Protector) (profile : Profile) : Bool :=
  match profile.pairing.published with
  | some (.whole record) =>
    record.credential.any fun stored =>
      stored.relayOrigin.isSome && match unwrapDeviceToken protector stored with
        | .ok (token, _) => token.isSome
        | .error _ => false
  | _ => false

/-! ## Addresses -/

/-- What this module takes from other crates. -/
structure AccessCrates extends ClientCrates where
  /-- `str::parse::<IpAddr>`. -/
  parseIpAddr : String → Option (List UInt8)

section Crates

variable (crates : AccessCrates)

/-- At most `room` of the stored addresses that are not listed. -/
def storedToKeep (listed : List EndpointAddr) : List EndpointAddr → Nat → List EndpointAddr
  | [], _ => []
  | _, 0 => []
  | stored :: rest, room + 1 =>
    match crates.parseIpAddr stored.host with
    | some ip =>
      if listed.any fun ep => crates.parseIpAddr ep.host == some ip && ep.port == stored.port then
        storedToKeep listed rest (room + 1)
      else stored :: storedToKeep listed rest room
    | none => stored :: storedToKeep listed rest room

def mergeDialEndpoints (stored listed : List EndpointAddr) (relay : Bool) : List EndpointAddr :=
  if relay then listed else listed ++ storedToKeep crates listed stored 2

def endpointMatches (a b : EndpointAddr) : Bool :=
  a.port == b.port && match crates.parseIpAddr a.host, crates.parseIpAddr b.host with
    | some ip, some ip' => ip == ip'
    | none, none => a.host == b.host
    | _, _ => false

def endpointsMatch (a b : List EndpointAddr) : Bool :=
  a.length == b.length && (a.zip b).all fun (x, y) => endpointMatches crates x y

variable (protector : Protector)

/-! ## Parts of the programs -/

def onProfile {ε α : Type} (p : ProfileProg ε α) : Prog Fate AccessSession ε α :=
  p.zoom AccessSession.profile fun profile s => { s with profile }

/-- Note what happened. -/
def note (event : AccessEvent) : AccessProg Unit :=
  Prog.modify fun s => { s with log := s.log ++ [event] }

/-- Is it uncertain what a save left? -/
def isUncertain : Except StorageError Nat → Bool
  | .error .durabilityUncertain => true
  | _ => false

/-- `PairedState::mutate`, and what came of it. -/
def mutateFile (writer : AccessWriter) (expected : CasKey)
    (f : Credential String → Except StorageError (Credential String)) :
    AccessProg (Except StorageError Nat) := do
  let before := (← Prog.get).profile
  let result ←
    (onProfile (PairedState.mutate crates.toCredentialCrates protector expected f)).attempt
  let after := (← Prog.get).profile
  note (.saved writer (decide (after.pairing.published ≠ before.pairing.published))
    (isUncertain result) (relayOnDisk protector after))
  pure result

/-- Rebuild the live client, if that can be done. -/
def tryReplace (credential : Credential String) (casKey : CasKey)
    (eligibility : RelayEligibility) : AccessProg Unit :=
  Prog.modify fun s =>
    match s.slot.replaceFromIncumbent crates.toClientCrates credential casKey eligibility with
    | .ok slot => { s with slot }
    | .error _ => s

/-- A credential without relay access. -/
def withoutRelay (credential : Credential String) : Credential String :=
  { credential with relayOrigin := none, deviceToken := none, deviceTokenExpiresAt := none }

def clearRelay (credential : Credential String) : Except StorageError (Credential String) :=
  .ok (withoutRelay credential)

def setPendingClear (pendingDurableClear : Option CasKey) : AccessProg Unit :=
  Prog.modify fun s => { s with pendingDurableClear }

/-- The clear that is left when the client is rebuilt from disk: a visible clear still has to be
confirmed, and a newer state supersedes the old clear. -/
def pendingAfterReconcile (pending : Option CasKey) (cas : CasKey) (isClear : Bool) :
    Option CasKey :=
  match pending with
  | none => none
  | some key =>
    if key.pairingGeneration = cas.pairingGeneration ∧
        key.accessMutationGeneration < cas.accessMutationGeneration then
      if isClear then some cas else none
    else some key

/-- Rebuild the live client from whatever is on disk. -/
def reconcileFromDisk : AccessProg Unit := do
  let s ← Prog.get
  if !s.statePath then pure ()
  else
    match ← (onProfile (PairedState.load protector)).attempt with
    | .error _ => pure ()
    | .ok state =>
      match state.credential with
      | none => pure ()
      | some credential =>
        let generation := PairedState.pairingGeneration crates.toCredentialCrates
        if generation credential.clientCertPem ≠
            generation s.slot.client.credential.clientCertPem then
          pure ()
        else
          let cas : CasKey := ⟨generation credential.clientCertPem, state.accessMutationGeneration⟩
          let isClear := credential.relayOrigin.isNone && credential.deviceToken.isNone &&
            credential.deviceTokenExpiresAt.isNone
          tryReplace crates credential cas .fromCredential
          Prog.modify fun s =>
            { s with
              pendingDurableClear := pendingAfterReconcile s.pendingDurableClear cas isClear }

/-! ## The journal's word -/

/-- Does the client have relay access that it cannot be rebuilt without? It has no address then, or
no transport. -/
def keepsRelay (client : ObserverClient) : Bool :=
  client.credential.hasRelay && (client.credential.endpoints.isEmpty ||
    !(crates.transport (withoutRelay client.credential)).isOk)

/-- Fence first: a failed rebuild or write must not leave the old client with the relay. -/
def fenceRelay (capturedCas : CasKey) : AccessProg Unit := do
  note .notConfigured
  let client := (← Prog.get).slot.client
  Prog.modify fun s => { s with slot := s.slot.disableRelay }
  tryReplace crates (withoutRelay client.credential) capturedCas .fromCredential
  -- `disconnect_relay`
  Prog.modify fun s => { s with slot := s.slot.disableRelay }
  note (.stripped (keepsRelay crates client))

/-- The durable clear. -/
def clearDurably (capturedCas : CasKey) : AccessProg Unit := do
  if !(← Prog.get).statePath then pure ()
  else
    match ← mutateFile crates protector .notConfigured capturedCas clearRelay with
    | .ok generation =>
      setPendingClear none
      tryReplace crates (← Prog.get).slot.client.credential
        ⟨capturedCas.pairingGeneration, generation⟩ .fromCredential
    | .error .casMismatch => pure ()
    | .error .writeFailed =>
      note .putOff
      setPendingClear (some capturedCas)
    | .error .durabilityUncertain =>
      note .putOff
      setPendingClear (some capturedCas)
      reconcileFromDisk crates protector
    | .error _ => pure ()

/-- The journal gives no relay access. -/
def applyNotConfigured (capturedCas : CasKey) : AccessProg Unit := do
  fenceRelay crates capturedCas
  clearDurably crates protector capturedCas

/-- The credential with the journal's relay access. -/
def withReady (ready : ValidatedReadyAccess) (credential : Credential String) :
    Credential String :=
  { credential with
    relayOrigin := some ready.relayOrigin
    deviceToken := some ready.deviceToken
    deviceTokenExpiresAt := some ready.expiresAt }

/-- The journal gives relay access. `now` is the time when it is looked at, and `current` whether
the attempt is current and unexpired when the file is changed. -/
def applyReady (ready : ValidatedReadyAccess) (capturedCas : CasKey) (now : Int) (current : Bool) :
    AccessProg Unit := do
  let s ← Prog.get
  let client := s.slot.client
  if ready.expiresAt ≤ now then pure ()
  else
    if client.credential.relayOrigin = some ready.relayOrigin ∧
        client.credential.deviceToken = some ready.deviceToken ∧
        client.credential.deviceTokenExpiresAt = some ready.expiresAt then
      pure ()
    else if !s.statePath then pure ()
    else
      match ← mutateFile crates protector .ready capturedCas fun credential =>
          if current then .ok (withReady ready credential) else .error .casMismatch with
      | .ok generation =>
        tryReplace crates (withReady ready client.credential)
          ⟨capturedCas.pairingGeneration, generation⟩ .fromCredential
        Prog.modify fun s =>
          { s with
            pendingDurableClear :=
              if s.pendingDurableClear = some capturedCas then none else s.pendingDurableClear }
      | .error .durabilityUncertain => reconcileFromDisk crates protector
      | .error _ => pure ()

/-- `apply_relay_access_outcome_owned`. -/
def applyRelayAccessOutcome (validated : Option ValidatedReadyAccess) (token : AccessToken)
    (capturedCas : CasKey) (now : Int) (current : Bool) : AccessProg Unit := do
  let s ← Prog.get
  if s.slot.fence.retired ∨ s.token ≠ token ∨ s.slot.client.casKey ≠ some capturedCas then pure ()
  else
    match validated with
    | none => applyNotConfigured crates protector capturedCas
    | some ready => applyReady crates protector ready capturedCas now current

/-! ## A clear that was put off -/

/-- `retry_pending_durable_clear_owned`. -/
def retryPendingDurableClear : AccessProg Unit := do
  let s ← Prog.get
  if s.slot.fence.retired then pure ()
  else
    match s.pendingDurableClear with
    | none => pure ()
    | some casKey =>
      if !s.statePath then pure ()
      else
        match ← mutateFile crates protector .retry casKey clearRelay with
        | .ok generation =>
          if (← Prog.get).pendingDurableClear = some casKey then
            setPendingClear none
            tryReplace crates (withoutRelay (← Prog.get).slot.client.credential)
              ⟨casKey.pairingGeneration, generation⟩ .fromCredential
          else pure ()
        | .error .durabilityUncertain => reconcileFromDisk crates protector
        | .error _ => pure ()

/-! ## Refreshed addresses -/

/-- The credential with new addresses, and without relay access if a clear was put off. -/
def withEndpoints (endpoints : List EndpointAddr) (clear : Bool) (credential : Credential String) :
    Credential String :=
  if clear then { withoutRelay credential with endpoints } else { credential with endpoints }

/-- Write the merged addresses. -/
def writeEndpoints (capturedCas : CasKey) (endpoints : List EndpointAddr)
    (disk : Credential String) :
    AccessProg Unit := do
  let clear := (← Prog.get).pendingDurableClear.isSome
  match ← mutateFile crates protector (.endpoints clear) capturedCas fun credential =>
      .ok (withEndpoints endpoints clear credential) with
  | .ok generation =>
    Prog.onlyIf clear (setPendingClear none)
    -- the credential that was written is the one on disk with these changes
    tryReplace crates (withEndpoints endpoints clear disk)
      ⟨capturedCas.pairingGeneration, generation⟩ .preserve
  | .error .durabilityUncertain => reconcileFromDisk crates protector
  | .error _ => pure ()

def commitRefreshedEndpoints (listed : List EndpointAddr) (relay : Bool) (token : AccessToken) :
    AccessProg Unit := do
  let s ← Prog.get
  if s.slot.fence.retired ∨ s.token ≠ token then pure ()
  else
    match s.slot.client.casKey with
    | none => pure ()
    | some capturedCas =>
      if !s.statePath then pure ()
      else
        match ← (onProfile (PairedState.load protector)).attempt with
        | .error _ => pure ()
        | .ok state =>
          match state.credential with
          | none => pure ()
          | some disk =>
            let endpoints := mergeDialEndpoints crates disk.endpoints listed relay
            if endpoints = [] ∨ endpointsMatch crates endpoints disk.endpoints = true then pure ()
            else writeEndpoints crates protector capturedCas endpoints disk

/-! ## Token commits -/

/-- The transaction of an incarnation of this slot. -/
def AccessSession.transaction (s : AccessSession) (incarnation : Nat) :
    WindowsTokenTransaction where
  statePath := s.statePath
  pairingGeneration :=
    PairedState.pairingGeneration crates.toCredentialCrates s.slot.client.credential.clientCertPem
  incarnation

/-- A token commit by an incarnation of this slot, in the file outcomes of its sections. -/
def tokenCommit (ctx : TokenCommitContext) (incarnation : Nat) (sections : List (List Fate))
    (s : AccessSession) : Ended Empty TokenCommit × AccessSession :=
  let run := ((s.transaction crates incarnation).commit crates.toCredentialCrates protector ctx :
    TokenProg Empty TokenCommit) (sections.map fun decisions => { decisions })
    ⟨s.profile, s.slot.fence, s.slot.client.casKey⟩
  (run.1,
    { s with
      profile := run.2.2.profile
      slot :=
        { client :=
            { s.slot.client with
              -- an older incarnation has a key of its own
              casKey :=
                if incarnation = s.slot.client.incarnation then run.2.2.casKey
                else s.slot.client.casKey }
          fence := run.2.2.fence } })

/-! ## Sessions -/

/-- What happens in a session, one after the other under the publication lock. -/
inductive AccessCall where
  | outcome (validated : Option ValidatedReadyAccess) (token : AccessToken) (capturedCas : CasKey)
      (now : Int) (current : Bool) (fates : List Fate)
  | retry (fates : List Fate)
  | endpoints (listed : List EndpointAddr) (relay : Bool) (token : AccessToken) (fates : List Fate)
  | tokenCommit (ctx : TokenCommitContext) (incarnation : Nat) (sections : List (List Fate))
  /-- The connection is another one. -/
  | reconnected (connectionEpoch : Nat)

/-- The session after a program, if the process has not stopped in it. -/
def AccessProg.exec (p : AccessProg Unit) (fates : List Fate) (s : AccessSession) :
    Option AccessSession :=
  match p fates s with
  | (.ok _, _, s') => some s'
  | _ => none

/-- The session after a call, if the process has not stopped in it. -/
def AccessCall.exec (call : AccessCall) (s : AccessSession) : Option AccessSession :=
  match call with
  | .outcome validated token capturedCas now current fates =>
    AccessProg.exec
      (applyRelayAccessOutcome crates protector validated token capturedCas now current) fates s
  | .retry fates => AccessProg.exec (retryPendingDurableClear crates protector) fates s
  | .endpoints listed relay token fates =>
    AccessProg.exec (commitRefreshedEndpoints crates protector listed relay token) fates s
  | .tokenCommit ctx incarnation sections =>
    match PlTransportWin.tokenCommit crates protector ctx incarnation sections s with
    | (.ok _, s') => some s'
    | _ => none
  | .reconnected connectionEpoch => some { s with token := { s.token with connectionEpoch } }

/-- The session after the calls. -/
def execCalls (calls : List AccessCall) (s : AccessSession) : Option AccessSession :=
  calls.foldlM (fun s call => call.exec crates protector s) s

end Crates

end SolstoneWindows.PlTransportWin
