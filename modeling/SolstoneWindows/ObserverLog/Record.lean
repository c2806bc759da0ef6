import SolstoneWindows.ObserverLog.Time

/-!
# One log line, written and read

`crates/observer-log/src/record.rs`: the encoding of a log line and the scanner of its grammar.
Texts are lists of characters. Floating-point numbers are a type `F` with the operations of
`Floats`.
-/

set_option autoImplicit false

namespace SolstoneWindows.ObserverLog

def VERSION : List Char := "solstone-log/1".toList
def EXCLUDED_LEN_CAP : Nat := 256

def RESERVED_HEADERS : List (List Char) :=
  ["ts".toList, "lvl".toList, "tgt".toList, "mod".toList, "file".toList, "loc".toList,
    "col".toList, "spans".toList]

/-! ## Characters and names -/

def isUpper (c : Char) : Bool := 'A' ≤ c && c ≤ 'Z'
def isLower (c : Char) : Bool := 'a' ≤ c && c ≤ 'z'

/-- `contains("..")`. -/
def hasDots : List Char → Bool
  | '.' :: '.' :: _ => true
  | _ :: rest => hasDots rest
  | [] => false

def isFileChar (c : Char) : Bool :=
  isUpper c || isLower c || c.isDigit || c == '_' || c == '.' || c == '/' || c == '-'

/-- A path that names no place outside the sources. -/
def relativeFile (file : List Char) : Option (List Char) :=
  if file = [] ∨ file.head? = some '/' ∨ hasDots file = true ∨ ':' ∈ file ∨ '\\' ∈ file then none
  else if !file.all isFileChar then none
  else if (file.splitOn '/').any fun part =>
    part = [] || part = ['.'] || part = ['.', '.'] then none
  else some file

def isTokenChar (c : Char) : Bool :=
  isUpper c || isLower c || c.isDigit || c == '_' || c == '.' || c == ':' || c == '-'

def isValidToken (s : List Char) : Bool :=
  !s.isEmpty && !hasDots s && s.all isTokenChar

def isIdentStart (c : Char) : Bool := isUpper c || isLower c || c == '_'
def isIdentChar (c : Char) : Bool := isUpper c || isLower c || c.isDigit || c == '_'

def isValidIdent : List Char → Bool
  | [] => false
  | c :: rest => isIdentStart c && rest.all isIdentChar

/-! ## Lengths of excluded text -/

/-- The bytes of a text in UTF-8. -/
def byteLen (text : List Char) : Nat := (text.map Char.utf8Size).sum

def cappedLenStr (value : List Char) : Nat := min (byteLen value) EXCLUDED_LEN_CAP

/-- `CappedCounter` over the pieces that a `Debug` or `Display` implementation writes. -/
def cappedLenPieces (pieces : List (List Char)) : Nat :=
  pieces.foldl (fun count piece => count + min (byteLen piece) (EXCLUDED_LEN_CAP - count)) 0

/-! ## Floating-point numbers -/

/-- The text without a sign at its front. -/
def stripSign (sign : Char) (s : List Char) : List Char :=
  if s.head? = some sign then s.tail else s

/-- The digits at the front, and the rest. -/
def spanDigits (s : List Char) : List Char × List Char := s.span Char.isDigit

/-- What follows the integer part: `.digits`, if there is a point. -/
def skipFraction : List Char → Option (List Char)
  | '.' :: rest => if (spanDigits rest).1 = [] then none else some (spanDigits rest).2
  | rest => some rest

/-- What follows the fraction: an exponent, if there is one. -/
def skipExponent : List Char → Option (List Char)
  | c :: rest =>
    if c = 'e' ∨ c = 'E' then
      let digits := match rest with
        | '+' :: digits => digits
        | '-' :: digits => digits
        | digits => digits
      if (spanDigits digits).1 = [] then none else some (spanDigits digits).2
    else some (c :: rest)
  | [] => some []

/-- The integer part: a single zero, or digits that do not start with one. -/
def skipInteger : List Char → Option (List Char)
  | '0' :: rest => some rest
  | c :: rest => if '1' ≤ c ∧ c ≤ '9' then some (spanDigits rest).2 else none
  | [] => none

def isValidFloatRepr (s : List Char) : Bool :=
  s == "nan".toList || s == "inf".toList || s == "-inf".toList ||
    (do
      skipExponent (← skipFraction (← skipInteger (stripSign '-' s)))) == some []

/-- The floating-point operations of the standard library. -/
structure Floats (F : Type) where
  isNan : F → Bool
  isInfinity : F → Bool
  isNegInfinity : F → Bool
  /-- `format!("{f:?}")`. -/
  debug : F → List Char
  /-- `str::parse::<f64>`. -/
  parse : List Char → Option F
  parse_isSome : ∀ s, isValidFloatRepr s = true → (parse s).isSome = true

/-! ## Encoding -/

inductive FieldValue (F : Type) where
  | bool (b : Bool)
  /-- An `i128`. -/
  | i128 (i : Int)
  /-- A `u128`. -/
  | u128 (u : Nat)
  | f64 (f : F)
  | len (len : Nat)

structure Field (F : Type) where
  name : List Char
  value : FieldValue F

structure Header where
  now : SystemTime
  level : List Char
  target : List Char
  module : Option (List Char)
  file : Option (List Char)
  /-- A `u32`. -/
  line : Option Nat
  /-- A `u32`. -/
  column : Option Nat
  spans : List (List Char)

/-- A number as `{n}` writes it. -/
def natText (n : Nat) : List Char := Nat.toDigits 10 n

def intText (i : Int) : List Char := if i < 0 then '-' :: natText i.natAbs else natText i.natAbs

def boolText (b : Bool) : List Char := if b then "true".toList else "false".toList

/-- A float's text, when it has one that the grammar admits. -/
def floatText {F : Type} (floats : Floats F) (f : F) : Option (List Char) :=
  if floats.isNan f then some "nan".toList
  else if floats.isInfinity f then some "inf".toList
  else if floats.isNegInfinity f then some "-inf".toList
  else if isValidFloatRepr (floats.debug f) then some (floats.debug f) else none

/-- `type:value` of a field. -/
def valueText {F : Type} (floats : Floats F) : FieldValue F → Option (List Char)
  | .bool b => some ("b:".toList ++ boolText b)
  | .i128 i => some ("i:".toList ++ intText i)
  | .u128 u => some ("u:".toList ++ natText u)
  | .f64 f => (floatText floats f).map fun text => "f:".toList ++ text
  | .len len => some ("l:".toList ++ natText (min len EXCLUDED_LEN_CAP))

/-- The name a field is written under. -/
def emittedName (name : List Char) : List Char :=
  if name ∈ RESERVED_HEADERS then "f_".toList ++ name else name

/-- The fields that are written, with their text: those with a valid name, the first of each
written name. `seen` are the names already written. -/
def emittedFields {F : Type} (floats : Floats F) (seen : List (List Char)) :
    List (Field F) → List (List Char × List Char)
  | [] => []
  | field :: fields =>
    if !isValidIdent field.name then emittedFields floats seen fields
    else if emittedName field.name ∈ seen then emittedFields floats seen fields
    else
      match valueText floats field.value with
      | none => emittedFields floats seen fields
      | some text =>
        (emittedName field.name, text) ::
          emittedFields floats (seen ++ [emittedName field.name]) fields

def encode {F : Type} (floats : Floats F) (header : Header) (fields : List (Field F)) :
    List Char :=
  let tgt := if isValidToken header.target then header.target else ['-']
  let mod := (header.module.filter isValidToken).getD ['-']
  let file := (header.file.bind relativeFile).getD ['-']
  let loc := (header.line.map natText).getD ['-']
  let col := (header.column.map fun col => " col=".toList ++ natText col).getD []
  let validSpans := header.spans.filter isValidIdent
  let spans :=
    if validSpans.isEmpty then []
    else " spans=".toList ++ ['+'].intercalate validSpans
  let texts := (emittedFields floats [] fields).map fun (name, text) => ' ' :: name ++ '=' :: text
  VERSION ++ " ts=".toList ++ formatRfc3339Utc header.now ++ " lvl=".toList ++ header.level
    ++ " tgt=".toList ++ tgt ++ " mod=".toList ++ mod ++ " file=".toList ++ file
    ++ " loc=".toList ++ loc ++ col ++ spans ++ texts.flatten ++ ['\n']

/-! ## Parsing -/

/-- `str::split_once`. -/
def splitOnce (sep : Char) (s : List Char) : Option (List Char × List Char) :=
  match s.dropWhile (· ≠ sep) with
  | [] => none
  | _ :: rest => some (s.takeWhile (· ≠ sep), rest)

/-- `str::parse` of an unsigned number below `bound`: a plus sign is allowed. -/
def parseUnsigned (bound : Nat) (s : List Char) : Option Nat :=
  let digits := stripSign '+' s
  if digits ≠ [] ∧ digits.all Char.isDigit = true ∧ Nat.ofDigitChars 10 digits 0 < bound then
    some (Nat.ofDigitChars 10 digits 0)
  else none

/-- `str::parse::<i128>`. -/
def parseI128 (s : List Char) : Option Int :=
  match s with
  | '-' :: rest =>
    if rest ≠ [] ∧ rest.all Char.isDigit = true ∧ Nat.ofDigitChars 10 rest 0 ≤ 2 ^ 127 then
      some (-(Nat.ofDigitChars 10 rest 0 : Int))
    else none
  | _ => (parseUnsigned (2 ^ 127) s).map Int.ofNat

/-- A number without leading zeros that parses. -/
def isPlainNumber (bound : Nat) (s : List Char) : Bool :=
  s == ['0'] || (!s.isEmpty && s.head? != some '0' && s.all Char.isDigit &&
    (parseUnsigned bound s).isSome)

def isValidU32Token (s : List Char) : Bool := isPlainNumber (2 ^ 32) s

def isValidLenToken (s : List Char) : Bool :=
  s == ['0'] || (!s.isEmpty && s.head? != some '0' && s.all Char.isDigit &&
    (parseUnsigned (2 ^ 64) s).any fun len => len ≤ EXCLUDED_LEN_CAP)

def isValidU128Token (s : List Char) : Bool :=
  s == ['0'] || (s.length ≤ 40 && isPlainNumber (2 ^ 128) s)

def isValidI128Token (s : List Char) : Bool :=
  if s = ['0'] then true
  else if s = [] ∨ 40 < s.length then false
  else if s = ['-', '0'] then false
  else
    let digits := stripSign '-' s
    if digits = [] ∨ digits.head? = some '0' ∨ digits.all Char.isDigit = false then false
    else (parseI128 s).isSome

def LEVELS : List (List Char) :=
  ["TRACE".toList, "DEBUG".toList, "INFO".toList, "WARN".toList, "ERROR".toList, "PANIC".toList]

/-- `strip_prefix`. -/
def stripLabel (label : String) (token : List Char) : Option (List Char) :=
  if label.toList <+: token then some (token.drop label.toList.length) else none

/-- The value of one field token has the type it says. -/
def isValidValue {F : Type} (floats : Floats F) (typ val : List Char) : Bool :=
  if typ = ['b'] then val == "true".toList || val == "false".toList
  else if typ = ['i'] then isValidI128Token val
  else if typ = ['u'] then isValidU128Token val
  else if typ = ['f'] then isValidFloatRepr val && (floats.parse val).isSome
  else if typ = ['l'] then isValidLenToken val
  else false

/-- The loop over the field tokens. -/
def scanFields {F : Type} (floats : Floats F) (seen : List (List Char)) :
    List (List Char) → Option Unit
  | [] => some ()
  | token :: tokens => do
    let (name, typeVal) ← splitOnce '=' token
    if !isValidIdent name then none
    else if name ∈ seen then none
    else
      let (typ, val) ← splitOnce ':' typeVal
      if isValidValue floats typ val then scanFields floats (seen ++ [name]) tokens else none

/-- Skip the token `col=…`, if it is the next. -/
def scanColumn (tokens : List (List Char)) : Option (List (List Char)) :=
  match tokens with
  | [] => some []
  | token :: rest =>
    match stripLabel "col=" token with
    | none => some tokens
    | some col => if isValidU32Token col then some rest else none

/-- Skip the token `spans=…`, if it is the next. -/
def scanSpans (tokens : List (List Char)) : Option (List (List Char)) :=
  match tokens with
  | [] => some []
  | token :: rest =>
    match stripLabel "spans=" token with
    | none => some tokens
    | some spans =>
      if spans = [] then none
      else if (spans.splitOn '+').all isValidIdent then some rest else none

/-- The header tokens of a line: its time, and the tokens after `loc=`. -/
def scanHeader (tokens : List (List Char)) : Option (SystemTime × List (List Char)) :=
  match tokens with
  | version :: ts :: lvl :: tgt :: mod :: file :: loc :: rest => do
    if version ≠ VERSION then none
    else
      let timestamp ← parseRfc3339Utc (← stripLabel "ts=" ts)
      let lvl ← stripLabel "lvl=" lvl
      if lvl ∉ LEVELS then none
      else
        let tgt ← stripLabel "tgt=" tgt
        if tgt ≠ ['-'] ∧ isValidToken tgt = false then none
        else
          let mod ← stripLabel "mod=" mod
          if mod ≠ ['-'] ∧ isValidToken mod = false then none
          else
            let file ← stripLabel "file=" file
            if file ≠ ['-'] ∧ (relativeFile file).isNone then none
            else
              let loc ← stripLabel "loc=" loc
              if loc ≠ ['-'] ∧ isValidU32Token loc = false then none
              else some (timestamp, rest)
  | _ => none

/-- The time of a line of the grammar. -/
def parseLine {F : Type} (floats : Floats F) (line : List Char) : Option SystemTime :=
  if '\r' ∈ line ∨ '\n' ∈ line ∨ line.head? = some ' ' ∨ line.getLast? = some ' ' ∨ line = [] then
    none
  else
    let tokens := line.splitOn ' '
    if tokens.any List.isEmpty then none
    else do
      let (timestamp, rest) ← scanHeader tokens
      let rest ← scanColumn rest
      let rest ← scanSpans rest
      scanFields floats [] rest
      some timestamp

end SolstoneWindows.ObserverLog
