import Mathlib.Data.List.Sort
import SolstoneWindows.PlTransportWin.State
import SolstoneWindows.PlatformWin.Seal

/-!
# The sealed segments on disk

`LocalSealedStore` of `crates/pl-transport-win/src/sealed.rs`: what the uploader can ask of the
segments root. A sealed directory is one whose name is a decimal number. Directories under
`quarantine` are out of sight until they are released.

A listing of a directory is one call here, with the kind and length of each entry.
-/

set_option autoImplicit false

namespace SolstoneWindows.PlTransportWin

open Lib.Effect Lib.Fs
open ObserverModel (saturatingMul)
open ObserverAudio (fromUtf8 parseU64 trim utf8)
open PlatformWin (Place AUDIO_FILE_NAME AUDIO_SOURCES_FILE_NAME LEN_FILE_NAME
  isActivityName quarantineName)

/-- A sealed segment ready to upload. -/
structure SealedSegment where
  index : Nat
  boundaryEpochSecs : Nat
  /-- The recorded length, when there is one. -/
  lenSecs : Option Nat
  audioSources : List String
  files : List String
  deriving DecidableEq

/-- One entry of a sealed directory. -/
structure DirEntryFact where
  name : String
  isFile : Bool
  sizeBytes : Nat
  deriving DecidableEq

def UPLOADED_MARKER : String := ".uploaded"
def UPLOADED_TMP_MARKER : String := ".uploaded.tmp"
def LEN_TMP_MARKER : String := ".len.tmp"
/-- Names the journal that refused a segment. -/
def REFUSED_BY_MARKER : String := ".refused-by"

def contentTypeFor (name : String) : String :=
  if name = AUDIO_FILE_NAME then "audio/flac"
  else if ".mp4".toList.isSuffixOf name.toList then "video/mp4"
  else if isActivityName name then "application/jsonl"
  else "application/octet-stream"

/-! ## Names -/

/-- The index a name of digits stands for. -/
def parseSealedIndex (name : List Char) : Option Nat :=
  if name.all Char.isDigit ∧ name ≠ [] then parseU64 name else none

/-- The index of a set-aside directory: its name up to the first dash. -/
def setAsideIndex (name : String) : Option Nat :=
  parseSealedIndex (name.toList.takeWhile (· ≠ '-'))

/-- The index of a sealed directory. -/
def sealedIndex : Place → Option Nat
  | .sealed index => some index
  | .incomplete _ => none
  | .quarantine _ => none

/-- The name of a set-aside directory. -/
def setAsideName : Place → Option String
  | .quarantine name => some name
  | .sealed _ => none
  | .incomplete _ => none

/-! ## Entries of a sealed directory -/

def readFile (index : Nat) (name : String) : StoreProg (List UInt8) :=
  store (read (.sealed index) name)

/-- The node of an entry, as a listing tells it. -/
def entryFact (entry : String × Node) : DirEntryFact where
  name := entry.1
  isFile := entry.2.isFile
  sizeBytes := if entry.2.isFile then entry.2.len else 0

/-- Every entry of a sealed directory, by name. -/
def listEntries (index : Nat) : StoreProg (List DirEntryFact) := do
  let entries ← store (readDir (.sealed index))
  pure ((entries.map entryFact).insertionSort fun a b => a.name ≤ b.name)

/-- One removal in given surroundings. It is recorded when it goes through. -/
def removeIn (index : Nat) (name : String) (o : Outside) (w : World) : Ended FsError Unit × World :=
  match removeFile (.sealed index) name o.removal (o.found w.disk) with
  | (.ok (), disk) =>
    (.ok (), { w with
      disk := disk
      log := w.log ++ [.removed ⟨index, name, w.identity, dirOf (o.found w.disk) index⟩] })
  | (ended, disk) => (ended, { w with disk := disk })

/-- Remove one file of a sealed directory. -/
def removeEntry (index : Nat) (name : String) : StoreProg Unit := Prog.call (removeIn index name)

/-- Remove a sealed directory, which must be empty. -/
def removeSegmentDir (index : Nat) : StoreProg Unit :=
  storeBy (·.removal) (removeDir (.sealed index))

/-- The modification time of an entry. The time of a folder is not kept here: the surroundings
say it. -/
def modified (index : Nat) (name : String) : StoreProg Nat :=
  store (atomic fun now disk =>
    match node? disk (.sealed index) name with
    | none => .error .notFound
    | some (.file _ mtime) => .ok (mtime, disk)
    | some (.folder _) => .ok (now, disk))

/-- Write an acknowledgement to its scratch name, then move it into place. -/
def writeAck (lib : Libraries) (index : Nat) (ack : UploadAck) : StoreProg Unit := do
  store (create (.sealed index) UPLOADED_TMP_MARKER)
  store (write (.sealed index) UPLOADED_TMP_MARKER (lib.toVec ack))
  store sync
  store (rename (.sealed index) UPLOADED_TMP_MARKER (.sealed index) UPLOADED_MARKER)

/-! ## Scanning -/

/-- Drop what an interrupted acknowledgement, set-aside or release left. -/
def sweep (index : Nat) : StoreProg Unit := do
  let tmp ← store (exists? (.sealed index) UPLOADED_TMP_MARKER)
  Prog.onlyIf tmp (Prog.ignore (removeEntry index UPLOADED_TMP_MARKER))
  let refused ← store (exists? (.sealed index) REFUSED_BY_MARKER)
  Prog.onlyIf refused (Prog.ignore (removeEntry index REFUSED_BY_MARKER))

/-- Whether an entry is a file a scan takes up. An empty activity log is not. -/
def isListed (entry : String × Node) : Bool :=
  entry.2.isFile && !(isActivityName entry.1 && entry.2.len == 0)

def listFiles (index : Nat) : StoreProg (List String) := do
  let entries ← store (readDir (.sealed index))
  pure (((entries.filter isListed).map (·.1)).insertionSort (· ≤ ·))

/-- Whether a listed file is uploaded. -/
def isUploaded (name : String) : Bool :=
  name != UPLOADED_MARKER && name != LEN_FILE_NAME && name != AUDIO_SOURCES_FILE_NAME
    && name != LEN_TMP_MARKER && name != UPLOADED_TMP_MARKER && name != REFUSED_BY_MARKER

/-- The recorded length of a segment. -/
def readLenSecs (index : Nat) : StoreProg (Option Nat) := do
  match ← Prog.attempt (store (read (.sealed index) LEN_FILE_NAME)) with
  | .error _ => pure none
  | .ok bytes => pure ((fromUtf8 bytes).bind fun text => parseU64 (trim text))

/-- The recorded audio sources of a segment. -/
def readAudioSources (lib : Libraries) (index : Nat) : StoreProg (List String) := do
  match ← Prog.attempt (store (read (.sealed index) AUDIO_SOURCES_FILE_NAME)) with
  | .error _ => pure []
  | .ok bytes => pure ((lib.namesFromSlice bytes).getD [])

section Scan

variable (lib : Libraries) (periodSecs : Nat)

/-- One directory of a scan, when it is confirmed as wanted. -/
def scanDir (wantConfirmed : Bool) (index : Nat) : StoreProg (Option SealedSegment) := do
  sweep index
  let files ← listFiles index
  if files.contains UPLOADED_MARKER != wantConfirmed then
    pure none
  else do
    let lenSecs ← readLenSecs index
    let audioSources ← readAudioSources lib index
    pure (some
      { index := index
        boundaryEpochSecs := saturatingMul index periodSecs
        lenSecs := lenSecs
        audioSources := audioSources
        files := files.filter isUploaded })

/-- The directory loop of `scanFiltered`. -/
def scanDirs (wantConfirmed : Bool) : List Nat → StoreProg (List SealedSegment)
  | [] => pure []
  | index :: indices => do
    let segment ← scanDir lib periodSecs wantConfirmed index
    let segments ← scanDirs wantConfirmed indices
    pure (segment.toList ++ segments)

def scanFiltered (wantConfirmed : Bool) : StoreProg (List SealedSegment) := do
  let dirs ← store listDirs
  let segments ← scanDirs lib periodSecs wantConfirmed (dirs.filterMap sealedIndex)
  pure (segments.insertionSort fun a b => a.index ≤ b.index)

/-- Sealed segments still pending upload. -/
def scan : StoreProg (List SealedSegment) := scanFiltered lib periodSecs false

/-- Sealed segments with an acknowledgement. -/
def confirmed : StoreProg (List SealedSegment) := scanFiltered lib periodSecs true

end Scan

/-! ## Quarantine -/

/-- The loop that looks for a free name under `quarantine`. It ends at the first name that is not
taken, which is among the first `fuel` when there are fewer directories than that. -/
def freeQuarantineName (preferred : String) : Nat → Nat → StoreProg String
  | 0, counter => pure (quarantineName preferred counter)
  | fuel + 1, counter => do
    let taken ← store (dirExists (Place.quarantine (quarantineName preferred counter)))
    if taken then freeQuarantineName preferred fuel (counter + 1)
    else pure (quarantineName preferred counter)

/-- Move a segment the journal refused aside, with the name of that journal in it. -/
def quarantine (index : Nat) (refusedBy : String) : StoreProg Unit := do
  -- `create_dir_all` of the quarantine root: its entries are directories of their own here
  store sync
  store (create (.sealed index) REFUSED_BY_MARKER)
  store (write (.sealed index) REFUSED_BY_MARKER (utf8 refusedBy.toList))
  let w ← Prog.get
  let name ← freeQuarantineName (toString index) (w.disk.keys.length + 1) 1
  store (renameDir (.sealed index) (.quarantine name))

/-- Return a set-aside directory to its index, when that is free. -/
def releaseTo (name : String) (index : Nat) : StoreProg Nat := do
  let taken ← store (dirExists (.sealed index))
  if taken then
    pure 0
  else do
    store (renameDir (.quarantine name) (.sealed index))
    Prog.ignore (removeEntry index REFUSED_BY_MARKER)
    pure 1

/-- One set-aside directory of `releaseRefused`: how many it returns. -/
def releaseDir (journal : String) (name : String) : StoreProg Nat := do
  match ← Prog.attempt (store (read (.quarantine name) REFUSED_BY_MARKER)) with
  | .error .notFound => pure 0
  | .error e => Prog.fail e
  | .ok bytes =>
    match fromUtf8 bytes with
    | none => Prog.fail (.invalid "refused-by")
    | some text =>
      if text = journal.toList then
        pure 0
      else
        match setAsideIndex name with
        | none => pure 0
        | some index => releaseTo name index

/-- The directory loop of `releaseRefused`. -/
def releaseDirs (journal : String) : List String → StoreProg Nat
  | [] => pure 0
  | name :: names => do
    let released ← releaseDir journal name
    let more ← releaseDirs journal names
    pure (released + more)

/-- Return to pending what a journal other than this one refused. -/
def releaseRefused (journal : String) : StoreProg Nat := do
  let dirs ← store listDirs
  releaseDirs journal (dirs.filterMap setAsideName)

/-- Whether an entry of a set-aside directory counts as media. -/
def isSetAsideMedia (entry : String × Node) : Bool :=
  entry.2.isFile && entry.1 != LEN_FILE_NAME && entry.1 != AUDIO_SOURCES_FILE_NAME
    && entry.1 != UPLOADED_MARKER && entry.1 != UPLOADED_TMP_MARKER
    && entry.1 != REFUSED_BY_MARKER

/-- The directory loop of `quarantinedMediaDirs`. -/
def countMediaDirs : List String → StoreProg Nat
  | [] => pure 0
  | name :: names => do
    let entries ← store (readDir (Place.quarantine name))
    let more ← countMediaDirs names
    pure ((if entries.any isSetAsideMedia then 1 else 0) + more)

/-- How many set-aside directories hold media. -/
def quarantinedMediaDirs : StoreProg Nat := do
  let dirs ← store listDirs
  countMediaDirs (dirs.filterMap setAsideName)

end SolstoneWindows.PlTransportWin
