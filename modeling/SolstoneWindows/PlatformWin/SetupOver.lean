import SolstoneWindows.Lib.Disk

/-!
# The owner's state when Setup runs over an install

`crates/platform-win/src/setup_over.rs`. Setup renames the data root to a rollback folder,
installs a fresh root, runs the new version's hook, and then deletes the rollback folder. The
hook renames the rollback folder to a kept folder, which Setup does not know, and moves the
entries in it back. Every launch goes on with what is left in a kept folder.

The folders are the directories of one disk, under their names in the parent of the data root.
A listing goes over its entries with `flatten`, so an entry that cannot be read is left out:
`Skipped` says which ones, for each listing of a run. How often a loop tries again before its
deadline is up to the clock, and is a parameter.
-/

set_option autoImplicit false

namespace SolstoneWindows.PlatformWin.SetupOver

open Lib.Effect Lib.Fs

/-! ## Names -/

/-- `str::to_ascii_lowercase`, on the characters of a name. -/
def asciiLowercase (name : List Char) : List Char := name.map Char.toLower

/-- `str::rsplit_once('.')`: the parts before and after the last dot. -/
def rsplitDot : List Char → Option (List Char × List Char)
  | [] => none
  | c :: rest =>
    match rsplitDot rest with
    | some (stem, suffix) => some (c :: stem, suffix)
    | none => if c = '.' then some ([], rest) else none

/-- `Path::extension`: a name that only starts with a dot has none. -/
def extension (name : List Char) : Option (List Char) :=
  match rsplitDot name with
  | some (_ :: _, suffix) => some suffix
  | _ => none

/-- Setup writes its own copies of these into the new root. Everything else in the folder is
the owner's. -/
def isVelopackEntry (name : String) : Bool :=
  asciiLowercase name.toList == "current".toList ||
    asciiLowercase name.toList == "packages".toList ||
    (extension name.toList).any fun suffix => asciiLowercase suffix == "exe".toList

/-- Whether a folder has the name Setup gives the replaced root. -/
def isRollbackName (root candidate : String) : Bool :=
  match rsplitDot candidate.toList with
  | none => false
  | some (stem, suffix) =>
    asciiLowercase stem == asciiLowercase root.toList && suffix.length == 16 &&
      suffix.all Char.isAlphanum

/-- Whether a folder is one the hook has put out of Setup's reach. -/
def isKeptName (root candidate : String) : Bool :=
  (asciiLowercase (root.toList ++ ".kept.".toList)).isPrefixOf (asciiLowercase candidate.toList)

/-- The name a rollback folder is kept under. -/
def keptName (rollback : String) : Option String :=
  (rsplitDot rollback.toList).map fun (stem, suffix) =>
    String.ofList (stem ++ ".kept.".toList ++ suffix)

/-! ## Moving entries back -/

structure Restored where
  /-- How many entries are now back in the data root. -/
  moved : Nat
  /-- The entries that could not be moved, and why. -/
  failed : List (String × FsError)
  deriving DecidableEq

/-- The entries that the listings of one run leave out. -/
structure Skipped where
  /-- Of the parent of the data root. -/
  folders : String → Bool
  /-- Of a folder that is looked at for state. -/
  unseen : String → String → Bool
  /-- Of a folder whose entries are moved. -/
  unread : String → String → Bool

/-- A program over the folders beside the data root. -/
abbrev FolderProg (α : Type) : Type := FsProg String α

/-- Move one entry. The answer is `false` when the root already has this entry: what is there
stays. -/
def moveEntry (folder root name : String) : FolderProg Bool := do
  let taken ← Prog.call (exists? root name)
  if taken then pure false
  else do
    Prog.call (rename folder name root name)
    pure true

/-- One pass over what remains: how many entries moved, and the ones that did not, which stay
for the next pass. -/
def movePass (folder root : String) : List String → FolderProg (Nat × List (String × FsError))
  | [] => pure (0, [])
  | name :: names => do
    let result ← Prog.attempt (moveEntry folder root name)
    let rest ← movePass folder root names
    match result with
    | .ok moved => pure (rest.1 + moved.toNat, rest.2)
    | .error e => pure (rest.1, (name, e) :: rest.2)

/-- The passes until nothing remains or the time is up. -/
def moveLoop (folder root : String) : Nat → List String → Nat → FolderProg Restored
  | 0, remaining, moved => do
    let pass ← movePass folder root remaining
    pure ⟨moved + pass.1, pass.2⟩
  | tries + 1, remaining, moved => do
    let pass ← movePass folder root remaining
    if pass.2 = [] then pure ⟨moved + pass.1, []⟩
    else moveLoop folder root tries (pass.2.map Prod.fst) (moved + pass.1)

/-- The owner's entries of a listing. -/
def ownerEntries (unread : String → Bool) (entries : List (String × Node)) : List String :=
  (entries.map Prod.fst).filter fun name => !unread name && !isVelopackEntry name

def moveState (folder root : String) (tries : Nat) (unread : String → Bool) :
    FolderProg Restored := do
  match ← Prog.attempt (Prog.call (readDir folder)) with
  | .error e => pure ⟨0, [(folder, e)]⟩
  | .ok entries => moveLoop folder root tries (ownerEntries unread entries) 0

/-- Move the state back. The folder goes when no move reported an error. -/
def finish (folder root : String) (tries : Nat) (unread : String → Bool) :
    FolderProg Restored := do
  let restored ← moveState folder root tries unread
  Prog.onlyIf restored.failed.isEmpty (Prog.ignore (Prog.call (removeTree folder)))
  pure restored

/-! ## The hook -/

/-- The renames until one goes through or the time is up. -/
def renameLoop (rollback kept : String) : Nat → FolderProg Bool
  | 0 => do
    match ← Prog.attempt (Prog.call (renameDir rollback kept)) with
    | .ok () => pure true
    | .error _ => pure false
  | tries + 1 => do
    match ← Prog.attempt (Prog.call (renameDir rollback kept)) with
    | .ok () => pure true
    | .error _ => renameLoop rollback kept tries

/-- Rename the rollback folder away from the path Setup will delete, and leave an empty folder
there for Setup to remove. The folder the state is in afterwards. -/
def keepOutOfSetupsReach (rollback : String) (tries : Nat) : FolderProg String :=
  match keptName rollback with
  | none => pure rollback
  | some kept => do
    let renamed ← renameLoop rollback kept tries
    if renamed then do
      Prog.ignore (Prog.call (createDir rollback))
      pure kept
    else pure rollback

/-- Whether a folder holds an entry of the owner's that can be seen. -/
def hasState (unseen : String → Bool) (folder : String) : FolderProg Bool := do
  match ← Prog.attempt (Prog.call (readDir folder)) with
  | .error _ => pure false
  | .ok entries => pure (!(ownerEntries unseen entries).isEmpty)

/-- When a folder last changed; the beginning of time if that cannot be told. -/
def modified : FolderProg Nat := do
  match ← Prog.attempt (Prog.call (atomic fun now disk => .ok (now, disk))) with
  | .ok time => pure time
  | .error _ => pure 0

/-- The loop of `newest_rollback_with_state`. -/
def newestOf (root : String) (skipped : Skipped) :
    List String → Option (Nat × String) → FolderProg (Option (Nat × String))
  | [], newest => pure newest
  | folder :: folders, newest => do
    let isDir ← Prog.call (dirExists folder)
    if !isDir || !isRollbackName root folder then newestOf root skipped folders newest
    else do
      let state ← hasState (skipped.unseen folder) folder
      if !state then newestOf root skipped folders newest
      else do
        let time ← modified
        if newest.all fun best => time > best.1 then
          newestOf root skipped folders (some (time, folder))
        else newestOf root skipped folders newest

/-- The folder Setup just renamed is the most recently changed one holding state. -/
def newestRollbackWithState (root : String) (skipped : Skipped) :
    FolderProg (Option String) := do
  match ← Prog.attempt (Prog.call listDirs) with
  | .error _ => pure none
  | .ok folders => do
    let newest ← newestOf root skipped (folders.filter (!skipped.folders ·)) none
    pure (newest.map Prod.snd)

/-- Carry the owner's state from Setup's rollback folder into the root
(`restore_state_from_rollback`). -/
def restoreWithin (root : String) (keepTries tries : Nat) (skipped : Skipped) :
    FolderProg Restored := do
  match ← newestRollbackWithState root skipped with
  | none => pure ⟨0, []⟩
  | some rollback => do
    let folder ← keepOutOfSetupsReach rollback keepTries
    finish folder root tries (skipped.unread folder)

/-! ## Every launch -/

/-- The folders among the given names. -/
def onlyDirs : List String → FolderProg (List String)
  | [] => pure []
  | folder :: folders => do
    let isDir ← Prog.call (dirExists folder)
    let rest ← onlyDirs folders
    pure (if isDir then folder :: rest else rest)

def keptFolders (root : String) (skipped : Skipped) : FolderProg (List String) := do
  match ← Prog.attempt (Prog.call listDirs) with
  | .error _ => pure []
  | .ok folders =>
    onlyDirs (folders.filter fun folder => !skipped.folders folder && isKeptName root folder)

/-- The loop of `finish_interrupted_restore`. A launch does not wait, so each folder gets one
pass. -/
def finishAll (root : String) (skipped : Skipped) : List String → FolderProg Restored
  | [] => pure ⟨0, []⟩
  | kept :: others => do
    let this ← finish kept root 0 (skipped.unread kept)
    let rest ← finishAll root skipped others
    pure ⟨this.moved + rest.moved, this.failed ++ rest.failed⟩

/-- Finish a restore that a hook could not. -/
def finishInterruptedRestore (root : String) (skipped : Skipped) : FolderProg Restored := do
  let kept ← keptFolders root skipped
  finishAll root skipped kept

end SolstoneWindows.PlatformWin.SetupOver
