import SolstoneWindows.CaptureEngine.State
import SolstoneWindows.ObserverAudio

/-!
# The owner's pause, held across restarts

`crates/capture-engine/src/pause_store.rs`. The pause is a text file of one line. It is written
to a temporary file beside it first, so a save that fails at any point leaves the old file.

Every step on the disk takes the next `Fate`: whether it fails, and how far a write that fails
got. `String::from_utf8_lossy` is a parameter of `load`.
-/

set_option autoImplicit false

namespace SolstoneWindows.CaptureEngine

open Lib.Effect
open ObserverAudio (parseU64 trim utf8)

/-! ## The text -/

def UNTIL_RESUMED : List Char := "until-resumed".toList

def UNTIL : List Char := "until ".toList

def encode : HeldPause → List Char
  | .untilResumed => UNTIL_RESUMED ++ ['\n']
  | .until deadline => UNTIL ++ Nat.toDigits 10 deadline ++ ['\n']

/-- What stands after `until `. -/
def stripUntil (line : List Char) : Option (List Char) :=
  if UNTIL.isPrefixOf line then some (line.drop UNTIL.length) else none

/-- A file that does not parse is "until I resume". -/
def decode (text : List Char) : HeldPause :=
  let line := trim text
  if line = UNTIL_RESUMED then .untilResumed
  else
    match (stripUntil line).bind fun n => parseU64 (trim n) with
    | some deadline => .until deadline
    | none => .untilResumed

/-! ## The file -/

/-- The bytes of the file and of the temporary file beside it, when they exist. -/
structure PauseFiles where
  file : Option (List UInt8) := none
  temporary : Option (List UInt8) := none
  deriving DecidableEq

/-- What becomes of one step on the disk. -/
structure Fate where
  fails : Bool
  /-- The bytes that a failing write writes. -/
  written : Nat

instance : Inhabited Fate := ⟨false, 0⟩

abbrev PauseProg (α : Type) : Type := Prog Fate PauseFiles Unit α

/-- One step on the disk: what it does, and what it does when it fails. -/
def diskStep (done : PauseFiles → PauseFiles) (torn : Nat → PauseFiles → PauseFiles) :
    PauseProg Unit :=
  Prog.call fun fate files =>
    if fate.fails then (.err (), torn fate.written files) else (.ok (), done files)

def createDirAll : PauseProg Unit := diskStep id fun _ => id

def createTemporary : PauseProg Unit :=
  diskStep (fun files => { files with temporary := some [] }) fun _ => id

def writeAll (bytes : List UInt8) : PauseProg Unit :=
  diskStep (fun files => { files with temporary := some bytes })
    fun written files => { files with temporary := some (bytes.take written) }

def syncAll : PauseProg Unit := diskStep id fun _ => id

def renameTemporary : PauseProg Unit :=
  diskStep (fun files => { file := files.temporary, temporary := none }) fun _ => id

/-- `PauseStore::save`. -/
def save (pause : HeldPause) : PauseProg Unit := do
  createDirAll
  createTemporary
  writeAll (utf8 (encode pause))
  syncAll
  renameTemporary

/-- `PauseStore::clear`: an absent file is already clear. -/
def clear : PauseProg Unit := diskStep (fun files => { files with file := none }) fun _ => id

/-- `PauseStore::load`, by whether the read fails. A file that cannot be read is
"until I resume". -/
def load (lossy : List UInt8 → List Char) (fails : Bool) (files : PauseFiles) : Option HeldPause :=
  if fails then some .untilResumed else files.file.map fun bytes => decode (lossy bytes)

end SolstoneWindows.CaptureEngine
