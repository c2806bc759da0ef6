import SolstoneWindows.Lib.Shared
import SolstoneWindows.PlTransportWin.Credential

/-!
# The live client and its relay fence

`crates/pl-transport-win/src/client.rs` as far as relay access goes, and the token transaction of
`credential.rs`. One slot holds the live client. Every rebuild of the client is a new incarnation,
and the fence that all incarnations share says which of them may use the relay.

The locks of the source serialize what is one program here. A token commit reads and writes the
pairing file in sections; others may write the file in between, so it runs in turns.
-/

set_option autoImplicit false

namespace SolstoneWindows.PlTransportWin

open Lib.Effect Lib.Staged

/-! ## The fence -/

/-- What every incarnation of a slot's client shares. The incarnations are `u64`. -/
structure RelayFence where
  disabled : Bool
  retired : Bool := false
  incarnation : Nat := 1
  ineligibleIncarnation : Nat := 0
  deriving DecidableEq

inductive RelayPermit where
  | allow
  | disabled
  | retired
  deriving DecidableEq

namespace RelayFence

def new (enabled : Bool) : RelayFence := { disabled := !enabled }

def allows (fence : RelayFence) (incarnation : Nat) : Bool :=
  !fence.retired && !fence.disabled && fence.incarnation == incarnation &&
    fence.ineligibleIncarnation != incarnation

/-- Go on to the next incarnation, if the current one is the expected. -/
def advanceFrom (fence : RelayFence) (expected : Nat) (enabled : Bool) :
    Option (Nat × RelayFence) :=
  if fence.incarnation = expected then
    some (wrappingSucc expected,
      { fence with incarnation := wrappingSucc expected, disabled := !enabled })
  else none

def disable (fence : RelayFence) : RelayFence :=
  { fence with disabled := true, incarnation := wrappingSucc fence.incarnation }

def markRelayIneligible (fence : RelayFence) (incarnation : Nat) : RelayFence :=
  { fence with ineligibleIncarnation := incarnation }

def permit (fence : RelayFence) (incarnation : Nat) : RelayPermit :=
  if fence.retired then .retired
  else if fence.disabled || fence.ineligibleIncarnation == incarnation then .disabled
  else if fence.incarnation != incarnation then .retired
  else .allow

end RelayFence

/-! ## The slot -/

/-- The live client, as far as relay access goes. -/
structure ObserverClient where
  credential : Credential String
  casKey : Option CasKey
  incarnation : Nat
  deriving DecidableEq

/-- Relay access: an origin and a token. -/
def Credential.hasRelay (credential : Credential String) : Bool :=
  credential.relayOrigin.isSome && credential.deviceToken.isSome

/-- What the client takes from other crates. -/
structure ClientCrates extends CredentialCrates where
  /-- Whether the shared transport can be built from a credential. -/
  transport : Credential String → Except TransportError Unit

/-- Can a relay transport be built from the credential? Empty texts do not count. -/
def Credential.relayDialable (credential : Credential String) : Bool :=
  credential.relayOrigin.any (· ≠ "") && credential.deviceToken.any (· ≠ "")

namespace ObserverClient

variable (crates : ClientCrates)

/-- `ObserverClient::build`: a client must be able to dial something. -/
def build (credential : Credential String) (casKey : CasKey) (incarnation : Nat) :
    Except TransportError ObserverClient :=
  if credential.endpoints = [] ∧ credential.relayDialable = false then .error .noEndpoint
  else (crates.transport credential).map fun _ => { credential, casKey := some casKey, incarnation }

/-- The incumbent's pairing with the access of another credential. -/
def rebuildFrom (incumbent : ObserverClient) (access : Credential String) (casKey : CasKey)
    (incarnation : Nat) : Except TransportError ObserverClient :=
  build crates
    { incumbent.credential with
      endpoints := access.endpoints
      relayOrigin := access.relayOrigin
      deviceToken := access.deviceToken
      deviceTokenExpiresAt := access.deviceTokenExpiresAt }
    casKey incarnation

end ObserverClient

/-- How a rebuilt client gets its relay eligibility. -/
inductive RelayEligibility where
  | fromCredential
  | preserve
  deriving DecidableEq

structure ClientSlot where
  client : ObserverClient
  fence : RelayFence
  deriving DecidableEq

namespace ClientSlot

/-- Is the next incarnation to use the relay? -/
def relayEnabled (slot : ClientSlot) (credential : Credential String) : RelayEligibility → Bool
  | .fromCredential => credential.hasRelay
  | .preserve => !slot.fence.disabled

/-- Rebuild the live client as the next incarnation. -/
def replaceFromIncumbent (crates : ClientCrates) (slot : ClientSlot)
    (credential : Credential String) (casKey : CasKey) (eligibility : RelayEligibility) :
    Except TransportError ClientSlot :=
  if slot.fence.retired then .error .notPaired
  else
    match ObserverClient.rebuildFrom crates slot.client credential casKey
        (wrappingSucc slot.fence.incarnation) with
    | .error error => .error error
    | .ok client =>
      match slot.fence.advanceFrom slot.fence.incarnation
          (slot.relayEnabled credential eligibility) with
      -- the publication lock is held, so nobody else moved the fence
      | none => .error .notPaired
      | some (incarnation, fence) =>
        -- a mark on the current incarnation goes on to the next
        if eligibility = .preserve ∧ slot.fence.ineligibleIncarnation = slot.fence.incarnation then
          .ok { client, fence := fence.markRelayIneligible incarnation }
        else .ok { client, fence }

def disableRelay (slot : ClientSlot) : ClientSlot := { slot with fence := slot.fence.disable }

/-- May the live client use the relay? -/
def eligible (slot : ClientSlot) : Bool := slot.fence.permit slot.client.incarnation == .allow

end ClientSlot

/-! ## Token commits -/

/-- The outcome of a token commit. -/
inductive TokenCommit where
  | committed (generation : Nat)
  | unchanged
  | indeterminate
  deriving DecidableEq

structure TokenCommitContext where
  token : String
  expiresAt : Int
  incarnation : Nat
  deriving DecidableEq

/-- What does not change of a client's transaction. -/
structure WindowsTokenTransaction where
  /-- Whether the path of the pairing file is set. -/
  statePath : Bool
  pairingGeneration : Generation
  incarnation : Nat
  deriving DecidableEq

/-- What a token commit works on: the files, the fence and the client's own key. -/
structure TokenState where
  profile : Profile
  fence : RelayFence
  casKey : Option CasKey
  deriving DecidableEq

abbrev TokenProg (ε α : Type) : Type := Prog (Turn Fate Profile) TokenState ε α

/-- One section: a read of the file, or a change under the owner lock. -/
def inTurn {ε α : Type} (p : ProfileProg ε α) : TokenProg ε α :=
  p.turn.zoom TokenState.profile fun profile s => { s with profile }

/-- The first section. What others did before it is in the state it starts from. -/
def atOnce {ε α : Type} (p : ProfileProg ε α) : TokenProg ε α :=
  Prog.call fun turn s =>
    ((p turn.decisions s.profile).1, { s with profile := (p turn.decisions s.profile).2.2 })

namespace WindowsTokenTransaction

variable (crates : CredentialCrates) (protector : Protector) (transaction : WindowsTokenTransaction)

def unchanged {ε : Type} : TokenProg ε TokenCommit := do
  Prog.modify fun s => { s with fence := s.fence.markRelayIneligible transaction.incarnation }
  pure .unchanged

def indeterminate {ε : Type} : TokenProg ε TokenCommit := do
  Prog.modify fun s => { s with fence := s.fence.markRelayIneligible transaction.incarnation }
  pure .indeterminate

def committed {ε : Type} (generation : Nat) : TokenProg ε TokenCommit := do
  Prog.modify fun s => { s with casKey := some ⟨transaction.pairingGeneration, generation⟩ }
  pure (.committed generation)

/-- Decide by what is on disk. -/
def classifyReadback {ε : Type} (expectedNextGeneration : Nat) (token : String) (expiresAt : Int) :
    TokenProg ε TokenCommit := do
  match ← (inTurn (PairedState.load protector)).attempt with
  | .error _ => indeterminate transaction
  | .ok state =>
    match state.credential with
    | none => unchanged transaction
    | some credential =>
      if PairedState.pairingGeneration crates credential.clientCertPem ≠
          transaction.pairingGeneration then
        unchanged transaction
      else if state.accessMutationGeneration = expectedNextGeneration ∧
          credential.deviceToken = some token ∧
          credential.deviceTokenExpiresAt = some expiresAt then
        committed transaction expectedNextGeneration
      else unchanged transaction

/-- The credential with a new token. -/
def withToken (token : String) (expiresAt : Int) (credential : Credential String) :
    Except StorageError (Credential String) :=
  .ok { credential with deviceToken := some token, deviceTokenExpiresAt := some expiresAt }

/-- Write the token at the generation that was read. -/
def publishToken {ε : Type} (ctx : TokenCommitContext) (currentGeneration : Nat) :
    TokenProg ε TokenCommit := do
  match ← (inTurn (PairedState.mutate crates protector
      ⟨transaction.pairingGeneration, currentGeneration⟩
      (withToken ctx.token ctx.expiresAt))).attempt with
  | .ok generation =>
    if generation = wrappingSucc currentGeneration then committed transaction generation
    else
      classifyReadback crates protector transaction (wrappingSucc currentGeneration) ctx.token
        ctx.expiresAt
  | .error _ =>
    classifyReadback crates protector transaction (wrappingSucc currentGeneration) ctx.token
      ctx.expiresAt

def commit {ε : Type} (ctx : TokenCommitContext) : TokenProg ε TokenCommit := do
  let s ← Prog.get
  -- a transaction held from a replaced client changes nothing
  if ctx.incarnation ≠ transaction.incarnation ∨ s.fence.allows transaction.incarnation = false then
    pure .unchanged
  else if !transaction.statePath then unchanged transaction
  else
    match ← (atOnce (PairedState.load protector)).attempt with
    | .error _ => indeterminate transaction
    | .ok state =>
      match state.credential with
      | none => unchanged transaction
      | some credential =>
        if PairedState.pairingGeneration crates credential.clientCertPem ≠
            transaction.pairingGeneration then
          unchanged transaction
        else publishToken crates protector transaction ctx state.accessMutationGeneration

end WindowsTokenTransaction

end SolstoneWindows.PlTransportWin
