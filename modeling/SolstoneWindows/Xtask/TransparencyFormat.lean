import Mathlib.Algebra.Ring.Nat
import Mathlib.Data.List.Sort

/-!
# The byte-exact form of a ledger entry

The entry model, its canonical rendering and its trusted comment, from
`xtask/src/transparency_format.rs`. Bytes are lists of `UInt8`.

What comes from other crates is a field of `Crates`: the JSON reader and the typed conversions of
`serde_json`, the `jsonschema` validator compiled from `schemas/transparency-ledger-entry/v1.json`,
and SHA-256. Of the schema only the lower bound on `seq` is used.
-/

set_option autoImplicit false

namespace SolstoneWindows.Xtask

abbrev Bytes := List UInt8

/-- `str::as_bytes`. -/
def asBytes (text : String) : Bytes := text.toUTF8.data.toList

structure TransparencyArtifactRecord where
  bytes : Nat
  name : String
  sha256 : String
  deriving DecidableEq

structure TransparencyNamedDigest where
  name : String
  sha256 : String
  deriving DecidableEq

structure TransparencyLedgerEntryV1 where
  artifacts : List TransparencyArtifactRecord
  manifests : List TransparencyNamedDigest
  prevSha256 : String
  prevVersion : String
  product : String
  proofs : List TransparencyNamedDigest
  publishedUtc : String
  schema : String
  /-- A `u64`. -/
  seq : Nat
  sourceCommit : String
  version : String
  deriving DecidableEq

structure TransparencyLatestV1 where
  chainLength : Nat
  tipSha256 : String
  version : String
  deriving DecidableEq

/-! ## Canonical rendering -/

inductive CanonicalTransparencyJsonError where
  | nonAscii
  | duplicateKey
  deriving DecidableEq

inductive CanonicalNode where
  | unsigned (value : Nat)
  | string (value : String)
  | array (values : List CanonicalNode)
  | object (entries : List (String × CanonicalNode))

/-- One digit of `b"0123456789abcdef"`. -/
def hexDigit (value : UInt8) : UInt8 := if value < 10 then 48 + value else 87 + value

/-- What `render_ascii_string` writes for one byte. -/
def renderAsciiByte (byte : UInt8) : Bytes :=
  if byte = 0x22 then [0x5c, 0x22]
  else if byte = 0x5c then [0x5c, 0x5c]
  else if byte = 0x08 then [0x5c, 0x62]
  else if byte = 0x09 then [0x5c, 0x74]
  else if byte = 0x0a then [0x5c, 0x6e]
  else if byte = 0x0c then [0x5c, 0x66]
  else if byte = 0x0d then [0x5c, 0x72]
  else if byte ≤ 0x1f then [0x5c, 0x75, 0x30, 0x30, hexDigit (byte >>> 4), hexDigit (byte &&& 0x0f)]
  else [byte]

def renderAsciiString (value : String) : Bytes :=
  [0x22] ++ (asBytes value).flatMap renderAsciiByte ++ [0x22]

/-- `u64::to_string`, as bytes. -/
def renderUnsigned (value : Nat) : Bytes := (Nat.toDigits 10 value).map Char.toUInt8

/-- Two neighbours with one key. -/
def hasNeighbours : List String → Bool
  | left :: right :: rest => left = right || hasNeighbours (right :: rest)
  | _ => false

/-- The order of `left.0.as_bytes().cmp(right.0.as_bytes())`. -/
def byKey {α : Type} (left right : String × α) : Prop := asBytes left.1 ≤ asBytes right.1

instance {α : Type} : DecidableRel (byKey (α := α)) :=
  fun _ _ => inferInstanceAs (Decidable (_ ≤ _))

/-- One `key:value` of an object. -/
def renderField (field : String × Bytes) : Bytes := renderAsciiString field.1 ++ [0x3a] ++ field.2

/-- An object from its rendered values. The source sorts before it renders the values; as a value
does not depend on its place, they are sorted after here. -/
def renderObject (fields : List (String × Bytes)) : Except CanonicalTransparencyJsonError Bytes :=
  let sorted := fields.insertionSort byKey
  if hasNeighbours (sorted.map (·.1)) then .error .duplicateKey
  else .ok ([0x7b] ++ ((sorted.map renderField).intersperse [0x2c]).flatten ++ [0x7d])

mutual

def renderNode : CanonicalNode → Except CanonicalTransparencyJsonError Bytes
  | .unsigned value => .ok (renderUnsigned value)
  | .string value => .ok (renderAsciiString value)
  | .array values => do
    let rendered ← renderNodes values
    return [0x5b] ++ (rendered.intersperse [0x2c]).flatten ++ [0x5d]
  | .object entries => do renderObject (← renderEntries entries)

def renderNodes : List CanonicalNode → Except CanonicalTransparencyJsonError (List Bytes)
  | [] => .ok []
  | value :: values => do return (← renderNode value) :: (← renderNodes values)

def renderEntries :
    List (String × CanonicalNode) → Except CanonicalTransparencyJsonError (List (String × Bytes))
  | [] => .ok []
  | (key, value) :: entries => do return (key, ← renderNode value) :: (← renderEntries entries)

end

/-- `serialize_str`: `require_ascii`, then a string node. -/
def serializeStr (value : String) : Except CanonicalTransparencyJsonError CanonicalNode :=
  if (asBytes value).all (· < 0x80) then .ok (.string value) else .error .nonAscii

def TransparencyArtifactRecord.serialize (record : TransparencyArtifactRecord) :
    Except CanonicalTransparencyJsonError CanonicalNode := do
  return .object [("bytes", .unsigned record.bytes), ("name", ← serializeStr record.name),
    ("sha256", ← serializeStr record.sha256)]

def TransparencyNamedDigest.serialize (digest : TransparencyNamedDigest) :
    Except CanonicalTransparencyJsonError CanonicalNode := do
  return .object [("name", ← serializeStr digest.name), ("sha256", ← serializeStr digest.sha256)]

def TransparencyLedgerEntryV1.serialize (entry : TransparencyLedgerEntryV1) :
    Except CanonicalTransparencyJsonError CanonicalNode := do
  return .object
    [("artifacts", .array (← entry.artifacts.mapM TransparencyArtifactRecord.serialize)),
      ("manifests", .array (← entry.manifests.mapM TransparencyNamedDigest.serialize)),
      ("prev_sha256", ← serializeStr entry.prevSha256),
      ("prev_version", ← serializeStr entry.prevVersion),
      ("product", ← serializeStr entry.product),
      ("proofs", .array (← entry.proofs.mapM TransparencyNamedDigest.serialize)),
      ("published_utc", ← serializeStr entry.publishedUtc),
      ("schema", ← serializeStr entry.schema),
      ("seq", .unsigned entry.seq),
      ("source_commit", ← serializeStr entry.sourceCommit),
      ("version", ← serializeStr entry.version)]

/-- The byte that ends a line of the ledger. -/
def NEWLINE : UInt8 := 0x0a

def canonicalizeTransparencyJson (entry : TransparencyLedgerEntryV1) :
    Except CanonicalTransparencyJsonError Bytes := do
  let node ← entry.serialize
  let output ← renderNode node
  return output ++ [NEWLINE]

/-! ## Other crates -/

/-- What the publisher takes from other crates. `Value` is `serde_json::Value`. -/
structure Crates (Value : Type) where
  /-- `serde_json::from_slice`. -/
  fromSlice : Bytes → Option Value
  /-- `serde_json::from_value`. -/
  fromValue : Value → Option TransparencyLedgerEntryV1
  /-- `serde_json::to_value`. -/
  toValue : TransparencyLedgerEntryV1 → Value
  /-- The validator that `jsonschema` compiles from the entry schema. -/
  validate : Value → Bool
  /-- SHA-256, in lower-case hexadecimal. -/
  transparencySha256Hex : Bytes → String
  /-- `minisign -V` accepts this signature of this body. -/
  minisignVerifies : Bytes → Bytes → Bool
  /-- The schema's `"minimum": 1` of `seq`. -/
  one_le_seq : ∀ entry, validate (toValue entry) = true → 1 ≤ entry.seq

inductive TransparencyFormatError where
  | schemaViolation
  | canonical (error : CanonicalTransparencyJsonError)
  deriving DecidableEq

section Crates

variable {Value : Type} (crates : Crates Value)

def validateTransparencyEntryValue (value : Value) : Except TransparencyFormatError Unit :=
  if crates.validate value then .ok () else .error .schemaViolation

def renderTransparencyEntry (entry : TransparencyLedgerEntryV1) :
    Except TransparencyFormatError Bytes := do
  validateTransparencyEntryValue crates (crates.toValue entry)
  (canonicalizeTransparencyJson entry).mapError .canonical

/-! ## Trusted comments -/

inductive TrustedCommentError where
  | missing
  | malformedPrefix
  | wrongKind
  | productMismatch
  | sequenceMismatch
  | versionMismatch
  | bodySha256Mismatch
  | previousSha256Mismatch
  | nonCanonical
  deriving DecidableEq

def formatEntryTrustedComment (entry : TransparencyLedgerEntryV1) (canonicalBody : Bytes) :
    String :=
  "solpbc-transparency-v1 entry product=" ++ entry.product ++ " seq=" ++ toString entry.seq
    ++ " version=" ++ entry.version ++ " sha256=" ++ crates.transparencySha256Hex canonicalBody
    ++ " prev=" ++ entry.prevSha256

/-- `str::parse::<u64>`: digits, after a plus sign if there is one. -/
def parseU64 (text : List Char) : Option Nat :=
  let digits := if text.head? = some '+' then text.tail else text
  if digits ≠ [] ∧ digits.all Char.isDigit then
    let value := Nat.ofDigitChars 10 digits 0
    if value < 2 ^ 64 then some value else none
  else none

/-- The value of a field `label=value`; an empty one is refused. -/
def requiredCommentValue (field : List Char) (label : String) :
    Except TrustedCommentError (List Char) :=
  if label.toList <+: field ∧ field.length ≠ label.toList.length then
    .ok (field.drop label.toList.length)
  else .error .nonCanonical

/-- The seven fields of a trusted comment of an entry, in the order in which they are checked. -/
def entryCommentFields (fields : List (List Char)) :
    Except TrustedCommentError (List Char × List Char × List Char × List Char × List Char) := do
  if fields.head? ≠ some "solpbc-transparency-v1".toList then throw .malformedPrefix
  if fields.tail.head? ≠ some "entry".toList then throw .wrongKind
  match fields with
  | [_, _, product, seq, version, sha256, previous] =>
    if fields.any List.isEmpty then throw .nonCanonical
    return (← requiredCommentValue product "product=", ← requiredCommentValue seq "seq=",
      ← requiredCommentValue version "version=", ← requiredCommentValue sha256 "sha256=",
      ← requiredCommentValue previous "prev=")
  | _ => throw .nonCanonical

def requireEntryTrustedCommentMatchesBody (entry : TransparencyLedgerEntryV1)
    (canonicalBody : Bytes) (trustedComment : String) : Except TrustedCommentError Unit := do
  if trustedComment = "" then throw .missing
  let (product, seq, version, sha256, previous) ←
    entryCommentFields (trustedComment.toList.splitOn ' ')
  if product ≠ entry.product.toList then throw .productMismatch
  if parseU64 seq ≠ some entry.seq then throw .sequenceMismatch
  if version ≠ entry.version.toList then throw .versionMismatch
  if sha256 ≠ (crates.transparencySha256Hex canonicalBody).toList then throw .bodySha256Mismatch
  if previous ≠ entry.prevSha256.toList then throw .previousSha256Mismatch
  if trustedComment ≠ formatEntryTrustedComment crates entry canonicalBody then throw .nonCanonical

end Crates

end SolstoneWindows.Xtask
