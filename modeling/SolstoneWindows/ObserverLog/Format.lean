import SolstoneWindows.ObserverLog.Record

/-!
# The formatter of an event

`crates/observer-log/src/format.rs`. Of a text value only its length is kept, and at most 256. The
fields of a span are rendered when they are recorded, as `name=type:value` tokens, and read again
for every event inside the span.

A `Debug` or `Display` value is what its implementation writes, in pieces. A span has the fields it
was created with and those recorded later, one list for each call; `addFields` is how
`tracing-subscriber` puts the renderings of the calls together.
-/

set_option autoImplicit false

namespace SolstoneWindows.ObserverLog

/-- A value as `tracing` hands it to a visitor. -/
inductive Value (F : Type) where
  | i64 (value : Int)
  | u64 (value : Nat)
  | i128 (value : Int)
  | u128 (value : Nat)
  | f64 (value : F)
  | bool (value : Bool)
  | str (value : List Char)
  | bytes (value : List UInt8)
  | debug (pieces : List (List Char))
  | error (pieces : List (List Char))

/-- The number is one of its type. -/
def Value.InRange {F : Type} : Value F → Prop
  | .i64 value => -2 ^ 63 ≤ value ∧ value < 2 ^ 63
  | .u64 value => value < 2 ^ 64
  | .i128 value => -2 ^ 127 ≤ value ∧ value < 2 ^ 127
  | .u128 value => value < 2 ^ 128
  | _ => True

/-- What the visitor keeps of a value. -/
def SafeVisitor.record {F : Type} : Value F → FieldValue F
  | .i64 value => .i128 value
  | .u64 value => .u128 value
  | .i128 value => .i128 value
  | .u128 value => .u128 value
  | .f64 value => .f64 value
  | .bool value => .bool value
  | .str value => .len (cappedLenStr value)
  | .bytes value => .len (min value.length EXCLUDED_LEN_CAP)
  | .debug pieces => .len (cappedLenPieces pieces)
  | .error pieces => .len (cappedLenPieces pieces)

/-- The recorded fields of an event, or of one call on a span. -/
abbrev Recorded (F : Type) := List (List Char × Value F)

def SafeVisitor.fields {F : Type} (recorded : Recorded F) : List (Field F) :=
  recorded.map fun (name, value) => { name, value := SafeVisitor.record value }

/-- A float as a span's fields show it. -/
def spanFloatText {F : Type} (floats : Floats F) (f : F) : List Char :=
  if floats.isNan f then "nan".toList
  else if floats.isInfinity f then "inf".toList
  else if floats.isNegInfinity f then "-inf".toList
  else floats.debug f

/-- One rendered field of a span. -/
def SafeFields.field {F : Type} (floats : Floats F) (field : Field F) : List Char :=
  match field.value with
  | .bool b => field.name ++ "=b:".toList ++ boolText b
  | .i128 i => field.name ++ "=i:".toList ++ intText i
  | .u128 u => field.name ++ "=u:".toList ++ natText u
  | .f64 f => field.name ++ "=f:".toList ++ spanFloatText floats f
  | .len l => field.name ++ "=l:".toList ++ natText l

/-- `format_fields`: the rendered fields of one call. -/
def SafeFields.formatFields {F : Type} (floats : Floats F) (recorded : Recorded F) : List Char :=
  [' '].intercalate ((SafeVisitor.fields recorded).map (SafeFields.field floats))

structure Span (F : Type) where
  name : List Char
  /-- The fields of the span's creation, and of each later record. -/
  records : List (Recorded F)

/-- The rendered fields of a span. -/
def Span.formatted {F : Type} (floats : Floats F) (addFields : List (List Char) → List Char)
    (span : Span F) : List Char :=
  addFields (span.records.map (SafeFields.formatFields floats))

/-- `char::is_whitespace`. -/
def isWhitespace (c : Char) : Bool :=
  (0x9 ≤ c.toNat && c.toNat ≤ 0xd) || c.toNat == 0x20 || c.toNat == 0x85 || c.toNat == 0xa0 ||
    c.toNat == 0x1680 || (0x2000 ≤ c.toNat && c.toNat ≤ 0x200a) || c.toNat == 0x2028 ||
    c.toNat == 0x2029 || c.toNat == 0x202f || c.toNat == 0x205f || c.toNat == 0x3000

/-- `str::split_whitespace`. -/
def splitWhitespace (s : List Char) : List (List Char) :=
  (s.splitOnP isWhitespace).filter fun token => !token.isEmpty

/-- A value of a rendered span field. -/
def parseSpanValue {F : Type} (floats : Floats F) (typ val : List Char) : Option (FieldValue F) :=
  if typ = ['b'] then
    if val = "true".toList then some (.bool true)
    else if val = "false".toList then some (.bool false)
    else none
  else if typ = ['i'] then (parseI128 val).map .i128
  else if typ = ['u'] then (parseUnsigned (2 ^ 128) val).map .u128
  else if typ = ['f'] then (floats.parse val).map .f64
  else if typ = ['l'] then (parseUnsigned (2 ^ 64) val).map .len
  else none

/-- A token of a span's rendered fields, when it is one. -/
def parseSpanToken {F : Type} (floats : Floats F) (token : List Char) : Option (Field F) := do
  let (name, typeVal) ← splitOnce '=' token
  let (typ, val) ← splitOnce ':' typeVal
  return { name, value := ← parseSpanValue floats typ val }

/-- The five levels of `tracing`. -/
inductive Level where
  | trace
  | debug
  | info
  | warn
  | error
  deriving DecidableEq

def Level.asStr : Level → List Char
  | .trace => "TRACE".toList
  | .debug => "DEBUG".toList
  | .info => "INFO".toList
  | .warn => "WARN".toList
  | .error => "ERROR".toList

structure Event (F : Type) where
  level : Level
  target : List Char
  module : Option (List Char)
  file : Option (List Char)
  /-- A `u32`. -/
  line : Option Nat
  fields : Recorded F

/-- The fields of an event's line: its own, then those of its spans from the root on. -/
def allFields {F : Type} (floats : Floats F) (addFields : List (List Char) → List Char)
    (event : Event F) (spans : List (Span F)) : List (Field F) :=
  SafeVisitor.fields event.fields ++ spans.flatMap fun span =>
      (splitWhitespace (span.formatted floats addFields)).filterMap (parseSpanToken floats)

/-- The line of an event at a time, inside the spans from the root on. -/
def formatEvent {F : Type} (floats : Floats F) (addFields : List (List Char) → List Char)
    (now : SystemTime) (event : Event F) (spans : List (Span F)) : List Char :=
  encode floats
    { now
      level := event.level.asStr
      target := event.target
      module := event.module
      file := event.file
      line := event.line
      column := none
      spans := spans.map Span.name }
    (allFields floats addFields event spans)

end SolstoneWindows.ObserverLog
