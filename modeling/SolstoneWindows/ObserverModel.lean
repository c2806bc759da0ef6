import Mathlib.Algebra.Ring.Nat

/-!
# The shared domain types

The types that cross the capture seams (`crates/observer-model/src/lib.rs`), and
`normalizeEven`, the crop every screen frame goes through before it is encoded.

A `usize` is 64 bits wide and its `*` and `+` wrap, as they do in the release profile this
workspace builds with. `usize n` is the value such an operation leaves. A `checked_mul` is
written with its own test.
-/

set_option autoImplicit false

namespace SolstoneWindows.ObserverModel

/-- What a 64-bit `usize` operation with the exact result `n` leaves. -/
def usize (n : Nat) : Nat := n % 2 ^ 64

/-- `usize::checked_mul`: the product, or nothing when it does not fit. -/
def checkedMul (a b : Nat) : Option Nat :=
  if a * b < 2 ^ 64 then some (a * b) else none

/-- `u64::saturating_add`. -/
def saturatingAdd (a b : Nat) : Nat := min (a + b) (2 ^ 64 - 1)

/-- `u64::saturating_mul`. -/
def saturatingMul (a b : Nat) : Nat := min (a * b) (2 ^ 64 - 1)

/-- What the observer is doing, as a whole. -/
inductive AppPhase where
  | idle
  | starting
  | observing
  | paused
  | error
  deriving DecidableEq

/-- Why capture is paused. -/
inductive PauseReason where
  | operator
  | sessionLocked
  | systemSuspending
  deriving DecidableEq

/-- The independent capture sources. -/
inductive SourceKind where
  | screen
  | systemAudio
  | mic
  | desktopActivity
  deriving DecidableEq

/-- Why a source is not producing. -/
inductive ErrorReason where
  | endpointLost
  | accessDenied
  | writeFailed
  | unknown
  deriving DecidableEq

/-- What one capture source reports about itself. -/
inductive SourceState where
  | active
  | inactive
  | noInputDevice
  | faulted (reason : ErrorReason) (detail : String)
  deriving DecidableEq

/-- A capture segment: its aligned start and its index. -/
structure SegmentKey where
  boundaryEpochSecs : Nat
  index : Nat
  deriving DecidableEq

/-- PCM format of one audio source. -/
structure AudioFormat where
  sampleRateHz : Nat
  channels : Nat
  bitsPerSample : Nat
  isFloat : Bool
  deriving DecidableEq

/-- One chunk of captured audio, as it crosses the sink seam. -/
structure CaptureChunk where
  source : SourceKind
  data : List UInt8
  format : Option AudioFormat
  /-- Microseconds from the segment's start, when the source stamps its chunks. -/
  atUs : Option Nat
  deriving DecidableEq

/-- The device's zone at one instant. -/
structure LocalZone where
  utcOffsetSeconds : Int
  tz : Option String
  deriving DecidableEq

/-- Byte order of a four-byte pixel. -/
inductive ScreenPixelFormat where
  | rgba8
  | bgra8
  deriving DecidableEq

/-- An owned screen frame, packed four bytes to a pixel, rows top to bottom. -/
structure ScreenFrame where
  seq : Nat
  arrival100ns : Int
  width : UInt32
  height : UInt32
  pixelFormat : ScreenPixelFormat
  pixels : List UInt8
  deriving DecidableEq

/-- The largest even number not above `n`. -/
def evenBelow (n : UInt32) : UInt32 := n &&& ~~~1

/-- The first `newH` rows of a frame with rows of `srcStride` bytes, cut to `rowBytes` each. -/
def cropRows (pixels : List UInt8) (srcStride rowBytes newH : Nat) : List UInt8 :=
  (List.range newH).flatMap fun y => (pixels.drop (y * srcStride)).take rowBytes

/-- Crop a screen frame down to even dimensions for NV12 consumers. -/
def normalizeEven (frame : ScreenFrame) : ScreenFrame :=
  let evenW := evenBelow frame.width
  let evenH := evenBelow frame.height
  if evenW = frame.width ∧ evenH = frame.height then frame
  else
    match (checkedMul frame.width.toNat frame.height.toNat).bind (checkedMul · 4) with
    | none => frame
    | some expected =>
      if frame.pixels.length ≠ expected then frame
      else
        { frame with
          width := evenW
          height := evenH
          pixels := cropRows frame.pixels (frame.width.toNat * 4) (evenW.toNat * 4) evenH.toNat }

end SolstoneWindows.ObserverModel
