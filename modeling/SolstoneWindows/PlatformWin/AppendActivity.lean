import SolstoneWindows.PlatformWin.Layout

/-!
# The activity write path

`LocalSegmentFs::append_activity` of `crates/platform-win/src/lib.rs`. The engine names the file,
the line and the offset the line belongs at. What the file holds past the offset is left of a line
that did not get through, and is cut off first. A line that fails is cut off again, if that does
not fail as well. A segment that has its sealed directory only takes no more rows.
-/

set_option autoImplicit false

namespace SolstoneWindows.PlatformWin

open Lib.Effect Lib.Fs

/-- Whether the segment has a sealed directory and no incomplete one. -/
def isSealedOnly (index : Nat) : SegProg Bool := do
  let incomplete ← Prog.call (dirExists (Place.incomplete index))
  if incomplete then pure false else Prog.call (dirExists (Place.sealed index))

/-- Cut an open file to its committed length, and make that durable. -/
def cutBack (k : Place) (fileName : String) (committedLen : Nat) : SegProg Unit := do
  Prog.call (setLen k fileName committedLen)
  Prog.call sync

/-- A line that failed is taken back. -/
def takeBack (k : Place) (fileName : String) (committedLen : Nat) (e : FsError) : SegProg Unit := do
  cutBack k fileName committedLen
  Prog.fail e

/-- Put the line at its offset. -/
def writeLine (k : Place) (fileName : String) (line : List UInt8) (committedLen : Nat) :
    SegProg Unit := do
  -- The seek can fail, and changes nothing.
  Prog.call sync
  match ← Prog.attempt (Prog.call (writeAt k fileName committedLen line)) with
  | .error e => takeBack k fileName committedLen e
  | .ok () =>
    match ← Prog.attempt (Prog.call sync) with
    | .error e => takeBack k fileName committedLen e
    | .ok () => pure ()

/-- Append to the file, which is open. -/
def appendOpened (k : Place) (fileName : String) (line : List UInt8) (committedLen : Nat) :
    SegProg Unit := do
  let node ← Prog.call (metadata k fileName)
  if node.len < committedLen then
    Prog.fail (.invalid "activity file is shorter than its committed offset")
  else do
    Prog.onlyIf (committedLen < node.len) (cutBack k fileName committedLen)
    writeLine k fileName line committedLen

def appendActivity (index : Nat) (fileName : String) (line : List UInt8) (committedLen : Nat) :
    SegProg Unit := do
  if ← isSealedOnly index then
    Prog.fail (.invalid "sealed activity artifacts are immutable")
  else do
    Prog.call (createDir (Place.incomplete index))
    Prog.call (openAppend (Place.incomplete index) fileName)
    appendOpened (.incomplete index) fileName line committedLen

end SolstoneWindows.PlatformWin
