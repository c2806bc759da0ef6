import Mathlib.Data.List.Infix
import SolstoneWindows.ObserverModel

/-!
# The capture-exclusion policy

The pure policy of `crates/observer-exclusion/src/lib.rs`: which windows the owner's rules
match, what `evaluate` decides for a frame, and how `applyRedaction` blacks regions out of a
frame buffer.

`applyRedaction` indexes the buffer with the wrapping `usize` arithmetic of the release
build. An index out of bounds panics, so the loops run in the `Option` monad and `none` is
the panic.
-/

set_option autoImplicit false

namespace SolstoneWindows.ObserverExclusion

open ObserverModel (usize ScreenPixelFormat)

/-- The owner's capture-exclusion rules. -/
structure ExclusionRules where
  excludedExes : List String
  titlePatterns : List String
  excludePrivateBrowsing : Bool
  deriving DecidableEq

/-- Whether any rule is configured. -/
def ExclusionRules.isActive (rules : ExclusionRules) : Bool :=
  !rules.excludedExes.isEmpty || !rules.titlePatterns.isEmpty || rules.excludePrivateBrowsing

/-- A rectangle in the captured monitor's physical pixels. Its origin may be negative. -/
structure Rect where
  x : Int32
  y : Int32
  width : UInt32
  height : UInt32
  deriving DecidableEq

/-- One top-level window on the captured display at frame time. -/
structure WindowInfo where
  exeName : String
  title : String
  bounds : Option Rect
  identityUncertain : Bool
  deriving DecidableEq

/-- The verdict for one captured frame. -/
inductive ExclusionDecision where
  | pass
  | redact (rects : List Rect)
  | drop
  deriving DecidableEq

/-- `str::to_ascii_lowercase`. -/
def toAsciiLowercase (s : String) : String := String.ofList (s.toList.map Char.toLower)

/-- The trailing form a browser's own title takes for a private window, lowercased. -/
def privateTitleSuffix (exeName : String) : Option String :=
  if exeName = "msedge.exe" then some "[inprivate] - microsoft\u200b edge"
  else if exeName = "firefox.exe" then some "mozilla firefox private browsing"
  else none

/-- Whether a window is a private browser window, by the end of its title. -/
def isPrivateWindow (exeName title : String) : Bool :=
  match privateTitleSuffix (toAsciiLowercase exeName) with
  | none => false
  | some suffix => suffix.toList.isSuffixOf (toAsciiLowercase title).toList

/-- Exact, case-insensitive match of the process image name. -/
def exeExcluded (exeName : String) (excluded : List String) : Bool :=
  if exeName.isEmpty then false
  else excluded.any fun x => toAsciiLowercase x == toAsciiLowercase exeName

/-- Case-insensitive substring match of the window title. -/
def titleExcluded (title : String) (patterns : List String) : Bool :=
  if title.isEmpty || patterns.isEmpty then false
  else
    patterns.any fun p =>
      !p.isEmpty && decide ((toAsciiLowercase p).toList <:+: (toAsciiLowercase title).toList)

/-- Match a foreground window against the rules. -/
def foregroundExcluded (rules : ExclusionRules) (exeName title : String) : Bool :=
  exeExcluded exeName rules.excludedExes
    || titleExcluded title rules.titlePatterns
    || (rules.excludePrivateBrowsing && isPrivateWindow exeName title)

/-- `foregroundExcluded` of an enumerated window. -/
def windowExcluded (rules : ExclusionRules) (window : WindowInfo) : Bool :=
  foregroundExcluded rules window.exeName window.title

/-- The window loop of `evaluate`, with the rectangles collected so far. -/
def evaluateFrom (rules : ExclusionRules) : List Rect → List WindowInfo → ExclusionDecision
  | rects, [] => if rects.isEmpty then .pass else .redact rects
  | rects, window :: windows =>
    if window.identityUncertain then .drop
    else if windowExcluded rules window then
      match window.bounds with
      | some rect => evaluateFrom rules (rects ++ [rect]) windows
      | none => .drop
    else evaluateFrom rules rects windows

/-- Decide what to do with a frame, given the rules and the windows on the display. -/
def evaluate (rules : ExclusionRules) (windows : List WindowInfo) : ExclusionDecision :=
  if !rules.isActive then .pass else evaluateFrom rules [] windows

/-- `pixels[i] = v`, which panics out of bounds. -/
def store (pixels : List UInt8) (i : Nat) (v : UInt8) : Option (List UInt8) :=
  if i < pixels.length then some (pixels.set i v) else none

/-- The body of the pixel loop: opaque black at byte offset `i`, when the buffer reaches
that far. -/
def blacken (pixels : List UInt8) (i : Nat) : Option (List UInt8) :=
  if usize (i + 4) ≤ pixels.length then do
    let pixels ← store pixels i 0
    let pixels ← store pixels (usize (i + 1)) 0
    let pixels ← store pixels (usize (i + 2)) 0
    store pixels (usize (i + 3)) 255
  else some pixels

/-- The first column or row of a rectangle in the frame (`v.max(0)`). -/
def clampStart (v : Int32) : Nat := (max v.toInt 0).toNat

/-- One past the last column or row of a rectangle in the frame, clamped to `frame`. -/
def clampEnd (v : Int32) (extent frame : UInt32) : Nat :=
  (max 0 (min (v.toInt + extent.toNat) frame.toNat)).toNat

/-- One rectangle of `applyRedaction`. -/
def blackenRect (width height : UInt32) (pixels : List UInt8) (rect : Rect) :
    Option (List UInt8) :=
  let stride := width.toNat * 4
  let x0 := clampStart rect.x
  let y0 := clampStart rect.y
  let x1 := clampEnd rect.x rect.width width
  let y1 := clampEnd rect.y rect.height height
  if x0 ≥ x1 ∨ y0 ≥ y1 then some pixels
  else
    (List.range' y0 (y1 - y0)).foldlM (fun pixels y =>
      let row := usize (y * stride)
      (List.range' x0 (x1 - x0)).foldlM (fun pixels x =>
        blacken pixels (usize (row + x * 4))) pixels) pixels

/-- Black out `rects` in a packed four-byte-per-pixel buffer. Opaque black is the same four
bytes in both pixel formats. -/
def applyRedaction (pixels : List UInt8) (width height : UInt32) (_format : ScreenPixelFormat)
    (rects : List Rect) : Option (List UInt8) :=
  if width = 0 ∨ height = 0 ∨ rects = [] then some pixels
  else rects.foldlM (blackenRect width height) pixels

end SolstoneWindows.ObserverExclusion
