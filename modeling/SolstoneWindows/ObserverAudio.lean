import SolstoneWindows.ObserverModel

/-!
# The seal-time audio transform

`crates/observer-audio/src/lib.rs`: the timeline text beside a PCM stream, the decoder that
lays a stream's frames out in time, and the combination of the two streams into one FLAC.

The signal processing is not modelled. `Dsp` holds it as parameters: the mono value of one
frame, the resampler, the quantiser and the FLAC encoder. Everything that decides which bytes
form a frame and where the frame goes is modelled as the source has it.
-/

set_option autoImplicit false

namespace SolstoneWindows.ObserverAudio

open ObserverModel (usize AudioFormat)

/-- Why a stream cannot be turned into FLAC. -/
inductive AudioError where
  | unsupportedFormat (channels bits : Nat) (isFloat : Bool)
  | invalidFormat (sampleRateHz channels : Nat)
  | encode (detail : String)
  | resample (detail : String)
  /-- The panic of a `Vec` past its limit, which leaves the transform as an error does. -/
  | capacityOverflow
  deriving DecidableEq

def TARGET_RATE_HZ : Nat := 16000

/-! ## Text -/

/-- `char::is_whitespace`: the Unicode `White_Space` property. -/
def isWhitespace (c : Char) : Bool :=
  let n := c.toNat
  (0x09 ≤ n && n ≤ 0x0D) || n == 0x20 || n == 0x85 || n == 0xA0 || n == 0x1680
    || (0x2000 ≤ n && n ≤ 0x200A) || n == 0x2028 || n == 0x2029 || n == 0x202F || n == 0x205F
    || n == 0x3000

/-- `str::trim`. -/
def trim (text : List Char) : List Char :=
  ((text.dropWhile isWhitespace).reverse.dropWhile isWhitespace).reverse

/-- The lines of a text. A carriage return before a line feed stays: it is whitespace, and
every caller splits the line at whitespace. -/
def lines : List Char → List (List Char)
  | [] => []
  | c :: cs =>
    if c = '\n' then [] :: lines cs
    else
      match lines cs with
      | [] => [[c]]
      | line :: rest => (c :: line) :: rest

/-- The loop of `splitWhitespace`, with the word read so far. -/
def splitWhitespaceFrom : List Char → List Char → List (List Char)
  | word, [] => if word = [] then [] else [word]
  | word, c :: cs =>
    if isWhitespace c then
      if word = [] then splitWhitespaceFrom [] cs else word :: splitWhitespaceFrom [] cs
    else splitWhitespaceFrom (word ++ [c]) cs

/-- `str::split_whitespace`: the maximal runs of characters that are not whitespace. -/
def splitWhitespace (text : List Char) : List (List Char) := splitWhitespaceFrom [] text

/-- A number's text without its optional plus sign. -/
def stripPlus : List Char → List Char
  | [] => []
  | c :: rest => if c = '+' then rest else c :: rest

/-- `str::parse::<u64>`: decimal digits after an optional plus sign, when they fit. -/
def parseU64 (text : List Char) : Option Nat :=
  let digits := stripPlus text
  if digits ≠ [] ∧ digits.all Char.isDigit ∧ Nat.ofDigitChars 10 digits 0 < 2 ^ 64 then
    some (Nat.ofDigitChars 10 digits 0)
  else none

/-- `str::from_utf8`. -/
def fromUtf8 (bytes : List UInt8) : Option (List Char) :=
  (ByteArray.mk bytes.toArray).utf8Decode?.map (·.toList)

def utf8 (text : List Char) : List UInt8 := text.flatMap String.utf8EncodeChar

/-- The timeline entry of one line: start in microseconds and PCM byte count. -/
def parseLine (line : List Char) : Option (Nat × Nat) :=
  match splitWhitespace line with
  | us :: len :: _ =>
    match parseU64 us, parseU64 len with
    | some us, some len => some (us, len)
    | _, _ => none
  | _ => none

/-- The entries of a timeline file. A line that is not two numbers is skipped. -/
def parseTimeline (bytes : List UInt8) : List (Nat × Nat) :=
  match fromUtf8 bytes with
  | none => []
  | some text => (lines text).filterMap parseLine

/-- One timeline row, as `writeln!(.., "{us} {len}")` writes it. -/
def timelineRow (us len : Nat) : List Char :=
  Nat.toDigits 10 us ++ ' ' :: Nat.toDigits 10 len ++ ['\n']

/-! ## Frames -/

/-- The signal processing the transform is built on. -/
structure Dsp (S : Type) where
  /-- The sample that stands for no sound. -/
  silence : S
  /-- The mono value of one frame. -/
  frame : AudioFormat → List UInt8 → S
  /-- The resampler, for an input that is not empty and not yet at the target rate. -/
  resample : List S → Nat → Except AudioError (List S)
  /-- The 16-bit value of a sample. -/
  toI16 : S → Int
  /-- The FLAC encoder. -/
  encode : List Int → Except AudioError (List UInt8)

/-- Bytes of one frame. -/
def frameSize (format : AudioFormat) : Nat := format.channels * (format.bitsPerSample / 8)

def validateFormat (format : AudioFormat) : Except AudioError Unit :=
  if format.sampleRateHz = 0 ∨ format.channels = 0 then
    .error (.invalidFormat format.sampleRateHz format.channels)
  else
    match format.isFloat, format.bitsPerSample with
    | false, 16 => .ok ()
    | true, 32 => .ok ()
    | _, _ => .error (.unsupportedFormat format.channels format.bitsPerSample format.isFloat)

/-- The complete `size`-byte pieces of a byte string. -/
def chunksExact (size : Nat) (bytes : List UInt8) : List (List UInt8) :=
  (List.range (bytes.length / size)).map fun i => (bytes.drop (i * size)).take size

section Decode

variable {S : Type} (dsp : Dsp S)

/-- One mono value for each complete frame. -/
def decodeToMono (bytes : List UInt8) (format : AudioFormat) : List S :=
  (chunksExact (frameSize format) bytes).map (dsp.frame format)

def resampleTo16k (input : List S) (sampleRateHz : Nat) : Except AudioError (List S) :=
  if sampleRateHz = TARGET_RATE_HZ ∨ input.isEmpty then .ok input
  else dsp.resample input sampleRateHz

/-- The entry loop of `decodeSourceTimed`: what is placed so far, and how many bytes are
placed. Each entry starts at its own time, or right after the frames before it if that is
later. -/
def placeEntries (mono : List S) (size rate total : Nat) :
    List (Nat × Nat) → List S → Nat → List S × Nat
  | [], placed, byteOffset => (placed, byteOffset)
  | (startUs, pcmLen) :: entries, placed, byteOffset =>
    let chunkBytesLen := min pcmLen (total - byteOffset)
    let chunkFrames := chunkBytesLen / size
    let monoOffset := byteOffset / size
    if monoOffset ≥ mono.length then (placed, byteOffset)
    else
      let endMono := min (monoOffset + chunkFrames) mono.length
      let chunkMono := (mono.drop monoOffset).take (endMono - monoOffset)
      let targetSample := usize (startUs * rate / 1000000)
      let gap := List.replicate (targetSample - placed.length) dsp.silence
      placeEntries mono size rate total entries (placed ++ gap ++ chunkMono)
        (byteOffset + chunkBytesLen)

/-- The frames of a stream laid out in time, before they are resampled. -/
def placeTimed (bytes : List UInt8) (format : AudioFormat) (timeline : Option (List UInt8)) :
    List S :=
  let mono := decodeToMono dsp bytes format
  match timeline with
  | none => mono
  | some timelineBytes =>
    let entries := parseTimeline timelineBytes
    let size := frameSize format
    if entries = [] ∨ size = 0 then mono
    else
      let (placed, byteOffset) :=
        placeEntries dsp mono size format.sampleRateHz bytes.length entries [] 0
      let remainingFrames := (bytes.length - byteOffset) / size
      let monoOffset := byteOffset / size
      if monoOffset < mono.length ∧ remainingFrames > 0 then
        let endMono := min (monoOffset + remainingFrames) mono.length
        placed ++ (mono.drop monoOffset).take (endMono - monoOffset)
      else placed

/-- The longest `Vec<f32>`: `isize::MAX` bytes. -/
def VEC_F32_MAX : Nat := (2 ^ 63 - 1) / 4

/-- Decode one stream with its timeline, at the target rate. -/
def decodeSourceTimed (bytes : List UInt8) (format : AudioFormat)
    (timeline : Option (List UInt8)) : Except AudioError (List S) := do
  validateFormat format
  let placed := placeTimed dsp bytes format timeline
  -- `placed` only grows, so some `resize` or `extend_from_slice` panics if the end is too long.
  if VEC_F32_MAX < placed.length then throw .capacityOverflow
  resampleTo16k dsp placed format.sampleRateHz

/-- PCM bytes, their format and the timeline file beside them. -/
abbrev TimedSourceInput : Type := List UInt8 × AudioFormat × Option (List UInt8)

/-- Decode a stream that may be absent. -/
def decodeOptional : Option TimedSourceInput → Except AudioError (List S)
  | none => .ok []
  | some (bytes, format, timeline) => decodeSourceTimed dsp bytes format timeline

/-- The two streams as left and right channel of one FLAC. -/
def combineTimedToFlac (mic sys : Option TimedSourceInput) :
    Except AudioError (Option (List UInt8)) :=
  if mic.isNone ∧ sys.isNone then .ok none
  else do
    let mic ← decodeOptional dsp mic
    let sys ← decodeOptional dsp sys
    let samples := (List.range (max mic.length sys.length)).flatMap fun i =>
      [dsp.toI16 (mic.getD i dsp.silence), dsp.toI16 (sys.getD i dsp.silence)]
    let flac ← dsp.encode samples
    pure (some flac)

end Decode

end SolstoneWindows.ObserverAudio
