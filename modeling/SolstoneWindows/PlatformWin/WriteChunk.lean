import SolstoneWindows.PlatformWin.Layout

/-!
# The audio write path

`LocalSegmentFs::write_chunk` of `crates/platform-win/src/lib.rs`. A chunk goes to the end of
its source's PCM file. A chunk with a time also adds a row to the timeline beside it, after
`reconcileAudioTimeline` has brought the timeline up to the PCM file's length if it may be
behind. The format sidecar is written once, when the stream's file is first opened.

The open handles are memory of the process: a restart starts with none.
-/

set_option autoImplicit false

namespace SolstoneWindows.PlatformWin

open Lib.Effect Lib.Fs
open ObserverModel (AudioFormat CaptureChunk SegmentKey saturatingAdd saturatingMul)
open ObserverAudio (parseTimeline timelineRow utf8)

/-! ## The timeline -/

/-- The rows of a timeline that account for the first `pcmLen` PCM bytes, and how many bytes
they account for. A row that has nothing left to account for goes. -/
def keepEntries (pcmLen : Nat) : Nat → List (Nat × Nat) → List (Nat × Nat) × Nat
  | covered, [] => ([], covered)
  | covered, (start, len) :: entries =>
    let keep := min len (pcmLen - covered)
    let rest := keepEntries pcmLen (covered + keep) entries
    if keep > 0 then ((start, keep) :: rest.1, rest.2) else rest

/-- The text of a timeline, one row an entry. -/
def timelineText (entries : List (Nat × Nat)) : List UInt8 :=
  entries.flatMap fun (start, len) => utf8 (timelineRow start len)

/-- PCM bytes of one second. -/
def byteRate (format : AudioFormat) : Nat :=
  saturatingMul (saturatingMul format.sampleRateHz format.channels) (format.bitsPerSample / 8)

/-- When the audio of the given rows ends. -/
def endUs (rate : Nat) (entries : List (Nat × Nat)) : Nat :=
  entries.foldl (fun end_ (start, len) =>
    saturatingAdd (max end_ start) (saturatingMul len 1000000 / rate)) 0

/-- The row for the PCM that no row accounts for, if there is any. -/
def restEntry (us pcmLen covered : Nat) : List (Nat × Nat) :=
  if covered < pcmLen then [(us, pcmLen - covered)] else []

section Write

variable (json : SegmentJson)

/-- Write a timeline whose rows account for all of the PCM, unless it already is one. -/
def repairTimeline (k : Place) (source : AudioSource) (pcmLen : Nat) (bytes : List UInt8) :
    SegProg Unit :=
  let kept := keepEntries pcmLen 0 (parseTimeline bytes)
  if kept.2 = pcmLen ∧ timelineText kept.1 = bytes then
    pure ()
  else do
    let fmtBytes ← Prog.call (read k (sourceFmtFileName source))
    match json.fromSlice fmtBytes with
    | none => Prog.fail (.invalid "audio format")
    | some format =>
      if byteRate format = 0 then
        Prog.fail (.invalid "invalid audio format")
      else do
        writeSynced k (sourceTimelineTempName source)
          (timelineText (kept.1 ++ restEntry (endUs (byteRate format) kept.1) pcmLen kept.2))
        Prog.call (rename k (sourceTimelineTempName source) k (sourceTimelineFileName source))

/-- A predecessor has PCM without a timeline, and a stop can leave PCM after the last row.
Account for those bytes, or the decoder would give the next row's time to them. -/
def reconcileAudioTimeline (k : Place) (source : AudioSource) (pcmLen : Nat) : SegProg Unit := do
  let found ← readIfExists k (sourceTimelineFileName source)
  repairTimeline json k source pcmLen (found.getD [])

/-- Write the format sidecar, unless there is one. -/
def writeSidecar (k : Place) (source : AudioSource) : Option AudioFormat → SegProg Unit
  | none => pure ()
  | some format => do
    let there ← Prog.call (exists? k (sourceFmtFileName source))
    if there then pure ()
    else writeSynced k (sourceFmtFileName source) (json.toVec format)

/-! ## Handles -/

/-- An open PCM file. -/
structure SegmentHandle where
  lastFlush : Option Nat
  timelineValid : Bool
  deriving DecidableEq

/-- The segment file system: what is on disk, and the open handles. -/
structure LocalSegmentFs where
  disk : Disk Place
  handles : AList fun _ : SegmentKey × AudioSource => SegmentHandle

/-- Programs of the segment file system. -/
abbrev HandleProg (α : Type) : Type := Prog Verdict LocalSegmentFs FsError α

/-- A program that leaves the handles alone. -/
def onDisk {α : Type} (p : SegProg α) : HandleProg α :=
  p.zoom LocalSegmentFs.disk fun disk s => { s with disk := disk }

/-- What the process is after a restart. -/
def LocalSegmentFs.restart (s : LocalSegmentFs) : LocalSegmentFs := { s with handles := ∅ }

/-- Whether the stream's timeline is known to account for all of its PCM. -/
def LocalSegmentFs.timelineValid (s : LocalSegmentFs) (key : SegmentKey) (source : AudioSource) :
    Bool :=
  (s.handles.lookup (key, source)).any (·.timelineValid)

/-- Change an open handle. -/
def LocalSegmentFs.updateHandle (key : SegmentKey) (source : AudioSource)
    (f : SegmentHandle → SegmentHandle) (s : LocalSegmentFs) : LocalSegmentFs :=
  match s.handles.lookup (key, source) with
  | none => s
  | some handle => { s with handles := s.handles.insert (key, source) (f handle) }

/-- Milliseconds between two flushes of one handle. -/
def FLUSH_INTERVAL : Nat := 1000

/-- The first write flushes at once, so that recovery sees a file with a length. -/
def flushDue : Option Nat → Bool
  | none => true
  | some elapsed => elapsed ≥ FLUSH_INTERVAL

/-- Open the stream's PCM file, unless it is open. -/
def openStream (key : SegmentKey) (source : AudioSource) (format : Option AudioFormat) :
    HandleProg Unit := do
  let s ← Prog.get
  match s.handles.lookup (key, source) with
  | some _ => pure ()
  | none => do
    onDisk (writeSidecar json (.incomplete key.index) source format)
    onDisk (Prog.call (openAppend (.incomplete key.index) (sourceFileName source)))
    Prog.modify fun s => { s with handles := s.handles.insert (key, source) ⟨none, false⟩ }

/-- Bring the timeline up to the PCM, before a chunk with a time. -/
def prepareTimeline (key : SegmentKey) (source : AudioSource) : Option Nat → HandleProg Unit
  | none => pure ()
  | some _ => do
    let s ← Prog.get
    if s.timelineValid key source then pure ()
    else do
      let pcm ← onDisk (Prog.call (metadata (.incomplete key.index) (sourceFileName source)))
      onDisk (reconcileAudioTimeline json (.incomplete key.index) source pcm.len)

/-- Add the row of a chunk with a time. -/
def appendRow (key : SegmentKey) (source : AudioSource) (len : Nat) : Option Nat → HandleProg Unit
  | none => pure ()
  | some us => do
    onDisk (Prog.call (openAppend (.incomplete key.index) (sourceTimelineFileName source)))
    onDisk (Prog.call (write (.incomplete key.index) (sourceTimelineFileName source)
      (utf8 (timelineRow us len))))
    Prog.modify (LocalSegmentFs.updateHandle key source fun h => { h with timelineValid := true })

/-- Sync the PCM file and note when. -/
def syncHandle (key : SegmentKey) (source : AudioSource) : HandleProg Unit := do
  onDisk (Prog.call sync)
  let now ← onDisk (Prog.call clock)
  Prog.modify (LocalSegmentFs.updateHandle key source fun h => { h with lastFlush := some now })

/-- How long ago the handle was flushed. -/
def elapsedSince : Option Nat → HandleProg (Option Nat)
  | none => pure none
  | some lastFlush => do
    let now ← onDisk (Prog.call clock)
    pure (some (now - lastFlush))

/-- Durability on a cadence of about a second for each handle, not for each chunk. -/
def flushHandle (key : SegmentKey) (source : AudioSource) : HandleProg Unit := do
  let s ← Prog.get
  let elapsed ← elapsedSince ((s.handles.lookup (key, source)).bind (·.lastFlush))
  Prog.onlyIf (flushDue elapsed) (syncHandle key source)

/-- Write a chunk to a stream that is open. -/
def writeOpened (key : SegmentKey) (source : AudioSource) (chunk : CaptureChunk) :
    HandleProg Unit := do
  prepareTimeline json key source chunk.atUs
  -- Until the row is in place, the timeline may be behind.
  Prog.modify (LocalSegmentFs.updateHandle key source fun h => { h with timelineValid := false })
  onDisk (Prog.call (write (.incomplete key.index) (sourceFileName source) chunk.data))
  appendRow key source chunk.data.length chunk.atUs
  flushHandle key source

/-- Write one chunk of a source that has PCM. -/
def writeAudioChunk (key : SegmentKey) (source : AudioSource) (chunk : CaptureChunk) :
    HandleProg Unit := do
  onDisk (Prog.call (createDir (Place.incomplete key.index)))
  openStream json key source chunk.format
  writeOpened json key source chunk

def writeChunk (key : SegmentKey) (chunk : CaptureChunk) : HandleProg Unit :=
  match AudioSource.ofKind chunk.source with
  | none => Prog.fail (.invalid
      "screen frames are encoded through ScreenEncoder and desktop activity uses append_activity")
  | some source => writeAudioChunk json key source chunk

end Write

end SolstoneWindows.PlatformWin
