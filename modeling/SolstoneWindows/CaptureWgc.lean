import SolstoneWindows.ObserverExclusion

/-!
# The frame callback of the screen source

`onFrameArrived` of `crates/capture-wgc/src/lib.rs`. The Windows calls it makes are its
inputs: the mapped frame buffer, and the windows the enumerator found on the monitor.
-/

set_option autoImplicit false

namespace SolstoneWindows.CaptureWgc

open ObserverModel
open ObserverExclusion

/-- The colour formats the capture API can be asked for. -/
inductive ColorFormat where
  | rgba8
  | bgra8
  | rgba16F
  deriving DecidableEq

/-- What the callback keeps from frame to frame. -/
structure WgcHandler where
  colorFormat : ColorFormat
  /-- Whether the saved policy could be read. -/
  policyAvailable : Bool
  /-- The shared rules, or `none` when their lock is poisoned. -/
  rules : Option ExclusionRules
  seq : Nat
  framesRedacted : Nat
  framesDropped : Nat
  state : SourceState
  deriving DecidableEq

/-- A frame as the capture API hands it over. -/
structure Frame where
  width : UInt32
  height : UInt32
  /-- `frame.timestamp()`, when it has one. -/
  timestamp : Option Int
  /-- The unpadded copy of the frame buffer, or why it could not be mapped. -/
  buffer : Except String (List UInt8)

/-- What one callback does with its frame. -/
inductive FrameResult where
  | emitted (frame : ScreenFrame)
  | dropped
  | failed (detail : String)
  | panicked
  deriving DecidableEq

/-- Count a dropped frame. The source stays active: it is excluding, not failing. -/
def WgcHandler.drop (h : WgcHandler) : FrameResult × WgcHandler :=
  (.dropped, { h with framesDropped := usize (h.framesDropped + 1), state := .active })

/-- Number the frame, crop it and hand it to the sink. -/
def WgcHandler.emit (h : WgcHandler) (frame : Frame) (pixelFormat : ScreenPixelFormat)
    (data : List UInt8) : FrameResult × WgcHandler :=
  let emitted := normalizeEven
    { seq := h.seq
      arrival100ns := frame.timestamp.getD 0
      width := frame.width
      height := frame.height
      pixelFormat := pixelFormat
      pixels := data }
  (.emitted emitted, { h with seq := usize (h.seq + 1), state := .active })

/-- `resolve_rules_or_drop`: the rules in force, unless they cannot be known. -/
def WgcHandler.resolveRules (h : WgcHandler) : Option ExclusionRules :=
  if h.policyAvailable then h.rules else none

/-- The exclusion pass over a mapped buffer, then the emission. `windows` is what the
enumerator answers; it is asked only when a rule is active. -/
def WgcHandler.exclude (h : WgcHandler) (rules : ExclusionRules) (frame : Frame)
    (pixelFormat : ScreenPixelFormat) (windows : Except Unit (List WindowInfo))
    (data : List UInt8) : FrameResult × WgcHandler :=
  if rules.isActive then
    match windows with
    | .error () => h.drop
    | .ok windows =>
      match evaluate rules windows with
      | .pass => h.emit frame pixelFormat data
      | .redact rects =>
        match applyRedaction data frame.width frame.height pixelFormat rects with
        | none => (.panicked, h)
        | some data =>
          { h with framesRedacted := usize (h.framesRedacted + 1) }.emit frame pixelFormat data
      | .drop => h.drop
  else h.emit frame pixelFormat data

/-- The frame callback. -/
def onFrameArrived (h : WgcHandler) (frame : Frame) (windows : Except Unit (List WindowInfo)) :
    FrameResult × WgcHandler :=
  match h.resolveRules with
  | none => h.drop
  | some rules =>
    match h.colorFormat with
    | .rgba16F => (.failed "unsupported WGC color format Rgba16F", h)
    | .rgba8 =>
      match frame.buffer with
      | .error detail => (.failed detail, h)
      | .ok data => h.exclude rules frame .rgba8 windows data
    | .bgra8 =>
      match frame.buffer with
      | .error detail => (.failed detail, h)
      | .ok data => h.exclude rules frame .bgra8 windows data

end SolstoneWindows.CaptureWgc
