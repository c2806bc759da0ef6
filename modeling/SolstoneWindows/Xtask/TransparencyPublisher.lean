import SolstoneWindows.Lib.Lines
import SolstoneWindows.Xtask.TransparencyFormat

/-!
# The two readers of the release chain

From `xtask/src/transparency_publisher.rs`. `walkLockedChain` follows the back links of the locked
entries from a tip; `validateLedgerBytes` reads the derived ledger forward; `loadEntriesForPointer`
takes the ledger when it ends in the tip and walks otherwise.

The object store is a function of the key: `none` is a transport failure. The keys are those of the
S3 plane, the only one these functions read. The walk also counts the entries it fetched.
-/

set_option autoImplicit false

namespace SolstoneWindows.Xtask

open Lib.Lines

def PRODUCT : String := "solstone-windows"

inductive TransparencyPublishError where
  | signatureFailed
  | chainInvalid (observed expected : String)
  | chainFetch (observed expected : String)
  deriving DecidableEq

structure ObservedHttpResponse where
  status : Nat
  body : Bytes
  deriving DecidableEq

/-- What the store answers for a key. -/
abbrev Store := String → Option ObservedHttpResponse

structure ChainEntry where
  model : TransparencyLedgerEntryV1
  bytes : Bytes
  signature : Option Bytes
  deriving DecidableEq

/-- `"0".repeat(64)`. -/
def ZERO_SHA256 : String := String.ofList (List.replicate 64 '0')

/-- `u64::checked_add`. -/
def checkedAdd (a b : Nat) : Option Nat := if a + b < 2 ^ 64 then some (a + b) else none

def fetchRequired (store : Store) (key : String) :
    Except TransparencyPublishError ObservedHttpResponse :=
  match store key with
  | none => .error (.chainFetch "transport failure" "HTTP 200")
  | some response =>
    if response.status = 200 then .ok response
    else .error (.chainFetch ("HTTP " ++ toString response.status) "HTTP 200")

/-- `str::lines`: a line ends at a newline, and a carriage return before it goes too. -/
def textLines (text : List Char) : List (List Char) :=
  (splitInclusive '\n' text).map fun line =>
    if line.getLast? = some '\n' then
      if line.dropLast.getLast? = some '\r' then line.dropLast.dropLast else line.dropLast
    else line

/-- The first line of a signature file that holds a trusted comment. -/
def trustedComment (signature : Bytes) : Except TransparencyPublishError String :=
  match String.fromUTF8? ⟨signature.toArray⟩ with
  | none => .error .signatureFailed
  | some text =>
    match (textLines text.toList).find? (fun line => "trusted comment: ".toList <+: line) with
    | none => .error .signatureFailed
    | some line => .ok (String.ofList (line.drop "trusted comment: ".length))

section Readers

variable {Value : Type} (crates : Crates Value)

/-- `parse_canonical` with the functions of an entry. -/
def parseCanonical (bytes : Bytes) : Except TransparencyPublishError TransparencyLedgerEntryV1 :=
  match crates.fromSlice bytes with
  | none => .error (.chainInvalid "malformed JSON" "schema-valid canonical JSON")
  | some value =>
    match validateTransparencyEntryValue crates value with
    | .error _ => .error (.chainInvalid "schema-invalid JSON" "runtime schema validation")
    | .ok () =>
      match crates.fromValue value with
      | none => .error (.chainInvalid "untyped JSON shape" "the exact typed transparency model")
      | some model =>
        match renderTransparencyEntry crates model with
        | .error _ =>
          .error (.chainInvalid "unrenderable transparency value" "ASCII canonical JSON")
        | .ok rendered =>
          if rendered ≠ bytes then
            .error (.chainInvalid "non-canonical JSON bytes"
              "bytewise sorted compact JSON with one newline")
          else .ok model

def parseEntry (bytes : Bytes) : Except TransparencyPublishError TransparencyLedgerEntryV1 :=
  match parseCanonical crates bytes with
  | .error error => .error error
  | .ok entry =>
    if entry.product ≠ PRODUCT then .error (.chainInvalid "foreign entry product" PRODUCT)
    else .ok entry

/-- The exit status of `minisign -V`; the scratch files it reads are not modelled. -/
def verifySignatureBytes (body signature : Bytes) : Except TransparencyPublishError Unit :=
  if crates.minisignVerifies body signature then .ok () else .error .signatureFailed

/-- What `fetch_signed_entry` checks of a body and its signature. -/
def checkSignedEntry (body signature : Bytes) : Except TransparencyPublishError ChainEntry := do
  let model ← parseEntry crates body
  (verifySignatureBytes crates body signature).mapError fun _ =>
    .chainInvalid "locked entry signature verification failed"
      "a valid signature over immutable entry bytes"
  let comment ← (trustedComment signature).mapError fun _ =>
    .chainInvalid "locked entry trusted comment is invalid" "one parseable signed trusted comment"
  (requireEntryTrustedCommentMatchesBody crates model body comment).mapError fun _ =>
    .chainInvalid "entry trusted comment mismatch" "comment fields equal canonical body"
  return { model, bytes := body, signature := some signature }

def fetchSignedEntry (store : Store) (version : String) :
    Except TransparencyPublishError ChainEntry := do
  let base := "releases/" ++ PRODUCT ++ "/v/" ++ version
  let body ← fetchRequired store (base ++ "/ledger-entry.json")
  let signature ← fetchRequired store (base ++ "/ledger-entry.json.minisig")
  checkSignedEntry crates body.body signature.body

/-- What the walk asks of an entry and the one fetched as its predecessor. -/
def WalkLink (previous current : ChainEntry) : Prop :=
  checkedAdd previous.model.seq 1 = some current.model.seq ∧
    crates.transparencySha256Hex previous.bytes = current.model.prevSha256 ∧
    previous.model.publishedUtc < current.model.publishedUtc

instance (previous current : ChainEntry) : Decidable (WalkLink crates previous current) :=
  inferInstanceAs (Decidable (_ ∧ _ ∧ _))

theorem WalkLink.seq_lt {previous current : ChainEntry} (h : WalkLink crates previous current) :
    previous.model.seq < current.model.seq := by
  have hseq := h.1
  unfold checkedAdd at hseq
  split at hseq
  · rw [Option.some.injEq] at hseq
    omega
  · cases hseq

/-- The loop of `walk_locked_chain`: `current` is the oldest entry so far and `later` are the ones
after it. The number of entries fetched, and how the walk ended. -/
def walkFrom (store : Store) (current : ChainEntry) (later : List ChainEntry) :
    Nat × Except TransparencyPublishError (List ChainEntry) :=
  if current.model.seq = 1 then
    if current.model.prevVersion = "" ∧ current.model.prevSha256 = ZERO_SHA256 then
      (0, .ok (current :: later))
    else
      (0, .error (.chainInvalid "invalid genesis linkage"
        "sequence 1 with empty previous version and zero digest"))
  else if current.model.prevVersion = "" then
    (0, .error (.chainInvalid "missing previous version" "self-navigating backward link"))
  else
    match fetchSignedEntry crates store current.model.prevVersion with
    | .error error => (1, .error error)
    | .ok previous =>
      if h : WalkLink crates previous current then
        let rest := walkFrom store previous (current :: later)
        (rest.1 + 1, rest.2)
      else
        (1, .error (.chainInvalid "broken previous entry linkage"
          "contiguous sequence digest and increasing time"))
  termination_by current.model.seq
  decreasing_by exact h.seq_lt

def walkLockedChain (store : Store) (tip : ChainEntry) :
    Nat × Except TransparencyPublishError (List ChainEntry) := walkFrom crates store tip []

/-- What the ledger asks of a line and the one before it. -/
def LedgerLink (previous : ChainEntry) (model : TransparencyLedgerEntryV1) : Prop :=
  checkedAdd previous.model.seq 1 = some model.seq ∧
    model.prevSha256 = crates.transparencySha256Hex previous.bytes ∧
    model.prevVersion = previous.model.version ∧
    previous.model.publishedUtc < model.publishedUtc

instance (previous : ChainEntry) (model : TransparencyLedgerEntryV1) :
    Decidable (LedgerLink crates previous model) :=
  inferInstanceAs (Decidable (_ ∧ _ ∧ _ ∧ _))

/-- What the ledger asks of its first line. -/
def Genesis (model : TransparencyLedgerEntryV1) : Prop :=
  model.seq = 1 ∧ model.prevVersion = "" ∧ model.prevSha256 = ZERO_SHA256

instance (model : TransparencyLedgerEntryV1) : Decidable (Genesis model) :=
  inferInstanceAs (Decidable (_ ∧ _ ∧ _))

/-- The link of a line to the entry of the line before, or that of the first line. -/
def checkLine (last : Option ChainEntry) (model : TransparencyLedgerEntryV1) :
    Except TransparencyPublishError Unit :=
  match last with
  | some previous =>
    if LedgerLink crates previous model then .ok ()
    else .error (.chainInvalid "derived ledger has broken linkage"
      "contiguous sequence digest version and increasing time")
  | none =>
    if Genesis model then .ok ()
    else .error (.chainInvalid "derived ledger has invalid genesis" "explicit sequence 1 genesis")

/-- The loop of `validate_ledger_bytes` over the lines still to read; `last` is the entry of the
line before. -/
def validateLines (last : Option ChainEntry) :
    List Bytes → Except TransparencyPublishError (List ChainEntry)
  | [] => .ok []
  | raw :: lines => do
    let model ← parseEntry crates raw
    checkLine crates last model
    let entries ← validateLines (some { model, bytes := raw, signature := none }) lines
    return { model, bytes := raw, signature := none } :: entries

def validateLedgerBytes (bytes : Bytes) : Except TransparencyPublishError (List ChainEntry) :=
  if bytes = [] ∨ bytes.getLast? ≠ some NEWLINE then
    .error (.chainInvalid "non-canonical derived ledger framing"
      "one canonical newline-terminated object per line")
  else validateLines crates none (splitInclusive NEWLINE bytes)

/-- The lines of a ledger that parse must not differ from the locked entry of their version. When
two locked entries have one version, the later one counts. -/
def rejectLedgerContradictions (bytes : Bytes) (locked : List ChainEntry) :
    Except TransparencyPublishError Unit :=
  if bytes = [] ∨ bytes.getLast? ≠ some NEWLINE then .ok ()
  else if (splitInclusive NEWLINE bytes).any fun line =>
      match parseEntry crates line with
      | .error _ => false
      | .ok entry =>
        (locked.reverse.find? fun other => other.model.version = entry.version).any fun other =>
          decide (other.bytes ≠ line) then
    .error (.chainInvalid "derived ledger contradicts a locked entry"
      "byte identity for every overlapping version")
  else .ok ()

/-- The pointer names the tip by its digest and its place in the chain. -/
def requirePointerTip (pointer : TransparencyLatestV1) (tip : ChainEntry) :
    Except TransparencyPublishError Unit :=
  if crates.transparencySha256Hex tip.bytes ≠ pointer.tipSha256 ∨
      tip.model.seq ≠ pointer.chainLength then
    .error (.chainInvalid "pointer identity differs from the locked tip"
      "tip digest and chain length equality")
  else .ok ()

/-- The derived ledger, when it is valid and ends in the tip. -/
def fastEntries (pointer : TransparencyLatestV1) (tip : ChainEntry)
    (response : ObservedHttpResponse) : Option (List ChainEntry) :=
  if response.status = 200 then
    (validateLedgerBytes crates response.body).toOption.filter fun entries =>
      entries.getLast?.any fun entry =>
        crates.transparencySha256Hex entry.bytes = pointer.tipSha256 &&
          entry.model = tip.model && entry.bytes = tip.bytes
  else none

/-- A derived ledger that is not used must not contradict the walk, and may be absent. -/
def checkUnusedLedger (response : ObservedHttpResponse) (walked : List ChainEntry) :
    Except TransparencyPublishError Unit :=
  if response.status = 200 then rejectLedgerContradictions crates response.body walked
  else if response.status ≠ 404 then
    .error (.chainFetch ("ledger HTTP " ++ toString response.status) "HTTP 200 or 404")
  else .ok ()

/-- The derived ledger when it ends in the pointer's tip; otherwise the walk from the tip. True with
the entries when the ledger has to be derived again. -/
def loadEntriesForPointer (store : Store) (pointer : TransparencyLatestV1) :
    Except TransparencyPublishError (List ChainEntry × Bool) := do
  let tip ← fetchSignedEntry crates store pointer.version
  requirePointerTip crates pointer tip
  match store ("releases/" ++ PRODUCT ++ "/ledger.jsonl") with
  | none =>
    .error (.chainFetch "ledger transport failure" "readable derived ledger or recoverable absence")
  | some response =>
    match fastEntries crates pointer tip response with
    | some entries => return (entries, false)
    | none =>
      let walked ← (walkLockedChain crates store tip).2
      checkUnusedLedger crates response walked
      return (walked, true)

end Readers

end SolstoneWindows.Xtask
