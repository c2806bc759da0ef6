import SolstoneWindows.Lib.Disk
import SolstoneWindows.ObserverAudio

/-!
# The segments root

The directories of the segments root and the names in them, as
`crates/platform-win/src/lib.rs` lays them out. A segment with index `n` is captured into
`n.incomplete`, sealed as `n`, and set aside under `quarantine`. The code writes an index without
leading zeros, and only such directories are modelled: one that somebody else named `07`, which a
scan reads as the index 7 too, is not.

`SegmentJson` stands for `serde_json`, which writes the sidecars and reads the audio format.
-/

set_option autoImplicit false

namespace SolstoneWindows.PlatformWin

open Lib.Effect Lib.Fs
open ObserverModel (AudioFormat SourceKind)

/-- A directory under the segments root. -/
inductive Place where
  /-- `<index>.incomplete` -/
  | incomplete (index : Nat)
  /-- `<index>` -/
  | sealed (index : Nat)
  /-- `quarantine/<name>` -/
  | quarantine (name : String)
  deriving DecidableEq

def AUDIO_FILE_NAME : String := "audio.flac"
def LEN_FILE_NAME : String := ".len"
def AUDIO_SOURCES_FILE_NAME : String := ".audio_sources"
def DEFAULT_SEGMENT_SECS : Nat := 300

/-- The two sources whose samples go to PCM files. -/
inductive AudioSource where
  | systemAudio
  | mic
  deriving DecidableEq

/-- The audio source behind a chunk, or nothing for a source that writes no PCM. -/
def AudioSource.ofKind : SourceKind → Option AudioSource
  | .systemAudio => some .systemAudio
  | .mic => some .mic
  | .screen => none
  | .desktopActivity => none

def sourceFileName : AudioSource → String
  | .systemAudio => "system-audio.pcm"
  | .mic => "mic.pcm"

def sourceFmtFileName : AudioSource → String
  | .systemAudio => "system-audio.fmt.json"
  | .mic => "mic.fmt.json"

def sourceTimelineFileName : AudioSource → String
  | .systemAudio => "system-audio.timeline"
  | .mic => "mic.timeline"

/-- The scratch file a repaired timeline is written to. -/
def sourceTimelineTempName : AudioSource → String
  | .systemAudio => "system-audio.timeline.tmp"
  | .mic => "mic.timeline.tmp"

/-- Whether a name is that of an activity log. -/
def isActivityName (name : String) : Bool :=
  "_desktop_activity.jsonl".toList.isSuffixOf name.toList

/-- The encodings of the format sidecar and of a list of names. -/
structure SegmentJson where
  toVec : AudioFormat → List UInt8
  fromSlice : List UInt8 → Option AudioFormat
  namesToVec : List String → List UInt8

/-- The bytes of an ASCII text. -/
def ascii (text : String) : List UInt8 := ObserverAudio.utf8 text.toList

/-- Programs over the segments root. -/
abbrev SegProg (α : Type) : Type := FsProg Place α

/-- `File::create`, `write_all`, `sync_all`. -/
def writeSynced (k : Place) (name : String) (bytes : List UInt8) : SegProg Unit := do
  Prog.call (create k name)
  Prog.call (write k name bytes)
  Prog.call sync

/-- `fs::remove_file` where a missing file is no error. -/
def removeIfExists (k : Place) (name : String) : SegProg Unit := do
  match ← Prog.attempt (Prog.call (removeFile k name)) with
  | .ok () => pure ()
  | .error .notFound => pure ()
  | .error e => Prog.fail e

/-- `fs::read` where a missing file is `none`. -/
def readIfExists (k : Place) (name : String) : SegProg (Option (List UInt8)) := do
  match ← Prog.attempt (Prog.call (read k name)) with
  | .ok bytes => pure (some bytes)
  | .error .notFound => pure none
  | .error e => Prog.fail e

end SolstoneWindows.PlatformWin
