import SolstoneWindows.PlatformWin.Layout

/-!
# Sealing a captured segment

The seal of `crates/platform-win/src/lib.rs`. `sealAudioFlac` turns the PCM streams of an
incomplete directory into one FLAC and removes them. `persistSealLen` writes the length
sidecar. `sealOrMerge` moves the directory to its sealed name, merges it into a sealed
directory that is already there, or sets it aside when a media name is taken.

Every function is a program over the disk, so each file-system call can fail or be where the
process stops.
-/

set_option autoImplicit false

namespace SolstoneWindows.PlatformWin

open Lib.Effect Lib.Fs
open ObserverModel (AudioFormat)
open ObserverAudio (Dsp AudioError TimedSourceInput combineTimedToFlac)

/-! ## The audio streams -/

/-- A PCM stream with a readable format sidecar. -/
structure PresentSealAudioSource where
  source : AudioSource
  bytes : List UInt8
  timelineBytes : Option (List UInt8)
  format : AudioFormat
  deriving DecidableEq

/-- What the seal finds of one stream. -/
inductive SealAudioSource where
  | absent
  /-- PCM without a readable format sidecar. It stays as it is. -/
  | orphan
  | present (source : PresentSealAudioSource)
  deriving DecidableEq

def SealAudioSource.combineInput : SealAudioSource → Option TimedSourceInput
  | .present source => some (source.bytes, source.format, source.timelineBytes)
  | .absent => none
  | .orphan => none

def SealAudioSource.isPresent : SealAudioSource → Bool
  | .present _ => true
  | .absent => false
  | .orphan => false

section Audio

variable {S : Type} (json : SegmentJson) (dsp : Dsp S)

def readSealAudioSource (k : Place) (source : AudioSource) : SegProg SealAudioSource := do
  let there ← Prog.call (isFile k (sourceFileName source))
  if !there then
    pure .absent
  else
    let pcm ← Prog.call (metadata k (sourceFileName source))
    if pcm.len = 0 then
      pure .absent
    else
      match ← readIfExists k (sourceFmtFileName source) with
      | none => pure .orphan
      | some fmtBytes =>
        match json.fromSlice fmtBytes with
        | none => pure .orphan
        | some format =>
          let timelineBytes ← readIfExists k (sourceTimelineFileName source)
          let bytes ← Prog.call (read k (sourceFileName source))
          pure (.present ⟨source, bytes, timelineBytes, format⟩)

/-- The names of the sources a FLAC holds, as the sources sidecar lists them. -/
def heard (mic sys : SealAudioSource) : List String :=
  (if mic.isPresent then ["microphone"] else []) ++ if sys.isPresent then ["computer"] else []

/-- Remove one stream's files, once the FLAC holds it. -/
def removeSource (k : Place) : SealAudioSource → SegProg Unit
  | .present source => do
    Prog.call (removeFile k (sourceFileName source.source))
    removeIfExists k (sourceFmtFileName source.source)
    removeIfExists k (sourceTimelineFileName source.source)
  | .absent => pure ()
  | .orphan => pure ()

def sealAudioFlac (k : Place) : SegProg Unit := do
  let mic ← readSealAudioSource json k .mic
  let sys ← readSealAudioSource json k .systemAudio
  if mic = .orphan ∨ sys = .orphan then
    pure ()
  else
    match combineTimedToFlac dsp mic.combineInput sys.combineInput with
    | .error _ => Prog.fail (.invalid "audio")
    | .ok none => pure ()
    | .ok (some flac) =>
      writeSynced k AUDIO_FILE_NAME flac
      -- Which sources the FLAC holds is known only here, before their files go.
      writeSynced k AUDIO_SOURCES_FILE_NAME (json.namesToVec (heard mic sys))
      removeSource k mic
      removeSource k sys

end Audio

/-! ## The length sidecar -/

/-- The entry loop of `has_retained_activity`. -/
def anyRetained (k : Place) : List (String × Node) → SegProg Bool
  | [] => pure false
  | (name, _) :: entries =>
    if isActivityName name then do
      let node ← Prog.call (metadata k name)
      if node.isFile && node.len > 0 then pure true else anyRetained k entries
    else anyRetained k entries

def hasRetainedActivity (k : Place) : SegProg Bool := do
  let there ← Prog.call (dirExists k)
  if !there then
    pure false
  else
    let entries ← Prog.call (readDir k)
    anyRetained k entries

/-- Write the length sidecar. `lenSecs` is `resolve_len_secs`, with the video hint and the
period it is called with: it takes the sealed FLAC, if there is one, and whether activity was
retained. -/
def persistSealLen (lenSecs : Option (List UInt8) → Bool → Nat) (k : Place) : SegProg Unit := do
  let audio ← readIfExists k AUDIO_FILE_NAME
  let retained ← hasRetainedActivity k
  writeSynced k LEN_FILE_NAME (ascii (toString (lenSecs audio retained)))

/-! ## Seal or merge -/

/-- `is_dir`, then `remove_dir_all` or `remove_file`. -/
def dropEntry (k : Place) (name : String) : SegProg Unit := do
  let isDir ← Prog.call (probe fun disk => (node? disk k name).any fun node => !node.isFile)
  if isDir then Prog.call (removeFolder k name) else Prog.call (removeFile k name)

/-- The name of the `counter`-th try for a free quarantine name. -/
def quarantineName (preferred : String) (counter : Nat) : String :=
  if counter = 1 then preferred else preferred ++ "-" ++ toString counter

/-- The loop of `next_quarantine_path`. It ends at the first name that is not taken, which is
among the first `fuel` when there are fewer directories than that. -/
def nextQuarantineFrom (preferred : String) : Nat → Nat → SegProg String
  | 0, counter => pure (quarantineName preferred counter)
  | fuel + 1, counter => do
    let taken ← Prog.call (dirExists (Place.quarantine (quarantineName preferred counter)))
    if taken then nextQuarantineFrom preferred fuel (counter + 1)
    else pure (quarantineName preferred counter)

def nextQuarantinePath (preferred : String) : SegProg String := do
  let disk ← Prog.get
  nextQuarantineFrom preferred (disk.keys.length + 1) 1

/-- The payload names of a merge: everything but the sidecars a sealed directory has of its
own. -/
def isPayload (name : String) : Bool :=
  name != LEN_FILE_NAME && name != ".uploaded" && name != ".uploaded.tmp"

/-- What the listing pass of a merge finds. -/
structure Incoming where
  names : List String
  hasMediaCollision : Bool
  hasNewActivity : Bool
  deriving DecidableEq

/-- The collision test of the listing pass. -/
def surveyCollision (sealed : Place) (name : String) (found : Incoming) : SegProg Incoming :=
  if isPayload name then do
    let taken ← Prog.call (exists? sealed name)
    pure (if taken then { found with hasMediaCollision := true } else found)
  else pure found

/-- The test for a new activity log of the listing pass. -/
def surveyActivity (incomplete sealed : Place) (name : String) (found : Incoming) :
    SegProg Incoming :=
  if isPayload name && isActivityName name then do
    let node ← Prog.call (metadata incomplete name)
    if node.len > 0 then do
      let taken ← Prog.call (exists? sealed name)
      pure (if taken then found else { found with hasNewActivity := true })
    else pure found
  else pure found

/-- The listing pass: which names come in, whether one is taken, and whether there is a new
activity log. -/
def surveyEntries (incomplete sealed : Place) : List (String × Node) → Incoming → SegProg Incoming
  | [], found => pure found
  | (name, _) :: entries, found => do
    let found ← surveyCollision sealed name found
    let found ← surveyActivity incomplete sealed name found
    surveyEntries incomplete sealed entries { found with names := found.names ++ [name] }

/-- The scratch name of the length sidecar. -/
def LEN_TEMP_NAME : String := ".len.tmp"

/-- New activity makes the segment a whole period long and takes its acknowledgement back. -/
def admitActivity (sealed : Place) (periodSecs : Nat) : SegProg Unit := do
  writeSynced sealed LEN_TEMP_NAME (ascii (toString periodSecs))
  match ← Prog.attempt (Prog.call (rename sealed LEN_TEMP_NAME sealed LEN_FILE_NAME)) with
  | .error e => do
    Prog.ignore (Prog.call (removeFile sealed LEN_TEMP_NAME))
    Prog.fail e
  | .ok () => do
    removeIfExists sealed ".uploaded"
    removeIfExists sealed ".uploaded.tmp"

/-- Move one name that is a new activity log. -/
def moveActivityEntry (incomplete sealed : Place) (name : String) : SegProg Unit :=
  if isPayload name && isActivityName name then do
    let taken ← Prog.call (exists? sealed name)
    if taken then pure ()
    else do
      let node ← Prog.call (metadata incomplete name)
      if node.len > 0 then Prog.call (rename incomplete name sealed name) else pure ()
  else pure ()

/-- Move the new activity logs of a directory that is about to be set aside. -/
def moveActivity (incomplete sealed : Place) : List String → SegProg Unit
  | [] => pure ()
  | name :: names => do
    moveActivityEntry incomplete sealed name
    moveActivity incomplete sealed names

/-- Drop one name that is an acknowledgement sidecar. -/
def dropSidecarEntry (incomplete : Place) (name : String) : SegProg Unit :=
  if !isPayload name && name != LEN_FILE_NAME then do
    let there ← Prog.call (exists? incomplete name)
    if there then dropEntry incomplete name else pure ()
  else pure ()

/-- Drop the acknowledgement sidecars of a directory that is about to be set aside. -/
def dropSidecars (incomplete : Place) : List String → SegProg Unit
  | [] => pure ()
  | name :: names => do
    dropSidecarEntry incomplete name
    dropSidecars incomplete names

/-- Move one name into the sealed directory. A name that is taken there is dropped. -/
def moveEntry (incomplete sealed : Place) (name : String) : SegProg Unit := do
  let taken ← Prog.call (exists? sealed name)
  if taken then dropEntry incomplete name
  else Prog.call (rename incomplete name sealed name)

/-- Move every name into the sealed directory. -/
def moveEntries (incomplete sealed : Place) : List String → SegProg Unit
  | [] => pure ()
  | name :: names => do
    moveEntry incomplete sealed name
    moveEntries incomplete sealed names

/-- `create_dir_all` of the quarantine directory. Its entries are directories of their own
here, so the call has nothing to change. It can fail. -/
def createQuarantineDir : SegProg Unit := Prog.call sync

/-- A merge in which a media name is taken: the incoming directory is set aside. New
immutable activity survives it. -/
def setAside (index : Nat) (found : Incoming) : SegProg Unit := do
  Prog.onlyIf found.hasNewActivity (moveActivity (.incomplete index) (.sealed index) found.names)
  createQuarantineDir
  dropSidecars (.incomplete index) found.names
  let name ← nextQuarantinePath (toString index)
  Prog.call (renameDir (.incomplete index) (.quarantine name))

/-- A merge in which no media name is taken. -/
def mergeInto (index : Nat) (found : Incoming) : SegProg Unit := do
  moveEntries (.incomplete index) (.sealed index) found.names
  Prog.call (removeDir (.incomplete index))

/-- Seal segment `index`, or merge it into the sealed directory that is already there. -/
def sealOrMerge (index periodSecs : Nat) : SegProg Unit := do
  let there ← Prog.call (dirExists (Place.sealed index))
  if !there then
    Prog.call (renameDir (.incomplete index) (.sealed index))
  else do
    let entries ← Prog.call (readDir (.incomplete index))
    let found ← surveyEntries (.incomplete index) (.sealed index) entries ⟨[], false, false⟩
    Prog.onlyIf found.hasNewActivity (admitActivity (.sealed index) periodSecs)
    if found.hasMediaCollision then setAside index found else mergeInto index found

/-! ## The two ways to seal -/

/-- Drop dead screen partials. -/
def removePartialEntries (k : Place) : List (String × Node) → SegProg Unit
  | [] => pure ()
  | (name, node) :: entries => do
    Prog.onlyIf (node.isFile && ".partial".toList.isSuffixOf name.toList)
      (Prog.call (removeFile k name))
    removePartialEntries k entries

def removePartialMedia (k : Place) : SegProg Unit := do
  let entries ← Prog.call (readDir k)
  removePartialEntries k entries

section Finalize

variable {S : Type} (json : SegmentJson) (dsp : Dsp S)

/-- What both ways to seal end with. -/
def sealDirectory (lenSecs : Option (List UInt8) → Bool → Nat) (index periodSecs : Nat) :
    SegProg Unit := do
  sealAudioFlac json dsp (.incomplete index)
  persistSealLen lenSecs (.incomplete index)
  sealOrMerge index periodSecs

/-- The seal of a segment whose handles are closed (`LocalSegmentFs::finalize`). -/
def finalizeLive (lenSecs : Option (List UInt8) → Bool → Nat) (index : Nat) : SegProg Unit :=
  sealDirectory json dsp lenSecs index DEFAULT_SEGMENT_SECS

/-- The seal of a segment a previous run left (`LocalRecoveryFs::finalize`). -/
def finalizeRecovered (lenSecs : Option (List UInt8) → Bool → Nat) (index periodSecs : Nat) :
    SegProg Unit := do
  removePartialMedia (.incomplete index)
  sealDirectory json dsp lenSecs index periodSecs

end Finalize

end SolstoneWindows.PlatformWin
