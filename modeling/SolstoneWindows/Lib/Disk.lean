import Mathlib.Data.List.AList
import SolstoneWindows.Lib.Effect

/-!
# Directories of files, and calls on them

A disk is a finite set of directories, named by keys `κ`. A directory maps names to nodes: a
file with its bytes and modification time, or a folder whose content nobody here looks into.

The second half gives the file-system calls. Each is a function of the environment's
`Verdict` on the call and of the disk, in the form `Prog.call` takes. A call can go through,
fail, or be where the process stops. Every call but `write` and `writeAt` is atomic: when it fails
or stops it leaves the disk alone. These two can leave any part of their bytes. The existence
probes cannot report an error: a probe that goes blind answers `false`.

`Disk.put`, `Disk.del`, `Disk.putDir` and `Disk.delDir` are the only ways a call changes the
disk, and the `node?` lemmas beside them say what each leaves at every key and name.
-/

set_option autoImplicit false

namespace Lib.Fs

open Lib.Effect

/-- What a name in a directory stands for. -/
inductive Node where
  | file (bytes : List UInt8) (mtime : Nat)
  | folder (id : Nat)
  deriving DecidableEq

/-- The length metadata reports. -/
def Node.len : Node → Nat
  | .file bytes _ => bytes.length
  | .folder _ => 0

def Node.isFile : Node → Bool
  | .file _ _ => true
  | .folder _ => false

/-- A directory: names with their nodes. -/
abbrev Dir : Type := AList fun _ : String => Node

-- Directories are compared by their entries. The instance of `AList` rewrites, and does not
-- evaluate.
instance : DecidableEq Dir := fun a b =>
  decidable_of_iff (a.entries = b.entries) ⟨AList.ext, congrArg AList.entries⟩

/-- A set of directories. -/
abbrev Disk (κ : Type) : Type := AList fun _ : κ => Dir

/-- The directory with the given files. -/
def Dir.of (entries : List (String × Node)) : Dir :=
  entries.foldr (fun e dir => dir.insert e.1 e.2) ∅

/-- A directory without some of its names. -/
def Dir.without (dir : Dir) (names : List String) : Dir :=
  names.foldl (fun dir name => dir.erase name) dir

variable {node : Node}

section Content

variable {κ : Type} [DecidableEq κ]

/-- The disk with the given directories. -/
def Disk.of (dirs : List (κ × List (String × Node))) : Disk κ :=
  dirs.foldr (fun e disk => disk.insert e.1 (Dir.of e.2)) ∅

/-- The node with a given name in a given directory. -/
def node? (disk : Disk κ) (k : κ) (name : String) : Option Node :=
  (disk.lookup k).bind fun dir => dir.lookup name

/-- Give a name of an existing directory a node. -/
def put (disk : Disk κ) (k : κ) (name : String) (node : Node) : Disk κ :=
  match disk.lookup k with
  | none => disk
  | some dir => disk.insert k (dir.insert name node)

/-- Take a name out of a directory. -/
def del (disk : Disk κ) (k : κ) (name : String) : Disk κ :=
  match disk.lookup k with
  | none => disk
  | some dir => disk.insert k (dir.erase name)

/-- Put a whole directory in place. -/
def putDir (disk : Disk κ) (k : κ) (dir : Dir) : Disk κ := disk.insert k dir

/-- Take a whole directory away. -/
def delDir (disk : Disk κ) (k : κ) : Disk κ := disk.erase k

theorem node?_congr {disk disk' : Disk κ} {k : κ} (h : disk'.lookup k = disk.lookup k)
    (name : String) : node? disk' k name = node? disk k name := by
  rw [node?, node?, h]

variable {dir : Dir} {name : String}

theorem node?_of_lookup {disk : Disk κ} {k : κ} (h : disk.lookup k = some dir)
    (name : String) : node? disk k name = dir.lookup name := by
  rw [node?, h]
  rfl

theorem lookup_of_node? {disk : Disk κ} {k : κ}
    (h : node? disk k name = some node) :
    ∃ dir, disk.lookup k = some dir ∧ dir.lookup name = some node :=
  Option.bind_eq_some_iff.mp h

theorem mem_of_lookup_dir_of {entries : List (String × Node)}
    (h : (Dir.of entries).lookup name = some node) : (name, node) ∈ entries := by
  induction entries with
  | nil => cases h
  | cons entry entries ih =>
    rw [show Dir.of (entry :: entries) = (Dir.of entries).insert entry.1 entry.2 from rfl] at h
    by_cases hname : name = entry.1
    · subst hname
      rw [AList.lookup_insert] at h
      cases h
      exact List.mem_cons_self
    · rw [AList.lookup_insert_ne hname] at h
      exact List.mem_cons_of_mem _ (ih h)

/-- The pairs a listing of a directory gives are its names with their nodes. -/
theorem mem_entries_iff :
    (name, node) ∈ dir.entries.map (fun e => (e.1, e.2)) ↔ dir.lookup name = some node := by
  have hlookup : dir.lookup name = some node ↔ ⟨name, node⟩ ∈ dir.entries := AList.mem_lookup_iff
  rw [hlookup, List.mem_map]
  constructor
  · rintro ⟨⟨n, d⟩, hmem, heq⟩
    cases heq
    exact hmem
  · intro hmem
    exact ⟨⟨name, node⟩, hmem, rfl⟩

/-- What is on a disk given by its lists is in the lists. -/
theorem mem_of_node?_disk_of {dirs : List (κ × List (String × Node))} {k : κ}
    (h : node? (Disk.of dirs) k name = some node) :
    ∃ entries, (k, entries) ∈ dirs ∧ (name, node) ∈ entries := by
  induction dirs with
  | nil => cases h
  | cons dir dirs ih =>
    rw [node?,
      show Disk.of (dir :: dirs) = (Disk.of dirs).insert dir.1 (Dir.of dir.2) from rfl] at h
    by_cases hk : k = dir.1
    · subst hk
      rw [AList.lookup_insert] at h
      exact ⟨dir.2, List.mem_cons_self, mem_of_lookup_dir_of h⟩
    · rw [AList.lookup_insert_ne hk] at h
      obtain ⟨entries, hdir, hentry⟩ := ih h
      exact ⟨entries, List.mem_cons_of_mem _ hdir, hentry⟩

section

variable (disk : Disk κ)

include disk

/-- A change to one directory leaves the others alone. -/
theorem lookup_change (k k' : κ) (change : Dir → Dir) : AList.lookup k' (match disk.lookup k with
      | none => disk
      | some dir => disk.insert k (change dir)) =
      if k' = k then (disk.lookup k).map change else disk.lookup k' := by
  cases hdir : disk.lookup k with
  | none =>
    by_cases hk : k' = k
    · subst hk
      simp [hdir]
    · simp [hk]
  | some dir =>
    by_cases hk : k' = k
    · subst hk
      simp
    · simp [hk]

@[simp] theorem lookup_put (k k' : κ) (name : String) (node : Node) :
    (put disk k name node).lookup k' =
      if k' = k then (disk.lookup k).map (·.insert name node) else disk.lookup k' :=
  lookup_change disk k k' _

@[simp] theorem lookup_del (k k' : κ) (name : String) : (del disk k name).lookup k' =
      if k' = k then (disk.lookup k).map (·.erase name) else disk.lookup k' :=
  lookup_change disk k k' _

/-- Setting a name makes no directory. -/
theorem lookup_put_isSome (k k' : κ) (name : String) (node : Node) :
    ((put disk k name node).lookup k').isSome = (disk.lookup k').isSome := by
  rw [lookup_put]
  split
  · rename_i hk
    rw [Option.isSome_map, hk]
  · rfl

/-- Taking a name out removes no directory. -/
theorem lookup_del_isSome (k k' : κ) (name : String) :
    ((del disk k name).lookup k').isSome = (disk.lookup k').isSome := by
  rw [lookup_del]
  split
  · rename_i hk
    rw [Option.isSome_map, hk]
  · rfl

@[simp] theorem lookup_putDir (k k' : κ) (dir : Dir) :
    (putDir disk k dir).lookup k' = if k' = k then some dir else disk.lookup k' := by
  by_cases hk : k' = k
  · subst hk
    simp [putDir]
  · simp [putDir, hk]

@[simp] theorem lookup_delDir (k k' : κ) :
    (delDir disk k).lookup k' = if k' = k then none else disk.lookup k' := by
  by_cases hk : k' = k
  · subst hk
    simp [delDir]
  · simp [delDir, hk]

end

/-- What a directory holds after a name was set. -/
theorem dir_lookup_insert (dir : Dir) (name name' : String) (node : Node) :
    (dir.insert name node).lookup name' = if name' = name then some node else dir.lookup name' := by
  by_cases hn : name' = name
  · subst hn
    simp
  · simp [hn]

/-- What a directory holds after a name was taken out. -/
theorem dir_lookup_erase (dir : Dir) (name name' : String) :
    (dir.erase name).lookup name' = if name' = name then none else dir.lookup name' := by
  by_cases hn : name' = name
  · subst hn
    simp
  · simp [hn]

/-- What a directory holds after some names were taken out. -/
theorem dir_lookup_without (dir : Dir) (names : List String) (name : String) :
    (dir.without names).lookup name = if name ∈ names then none else dir.lookup name := by
  induction names generalizing dir with
  | nil => simp [Dir.without]
  | cons n names ih =>
    have hstep : dir.without (n :: names) = Dir.without (dir.erase n) names := rfl
    rw [hstep, ih, dir_lookup_erase]
    by_cases hmem : name ∈ names
    · simp [hmem]
    · by_cases hn : name = n <;> simp [hmem, hn]

@[simp] theorem node?_put (disk : Disk κ) (k k' : κ) (name name' : String) (node : Node)
    (hdir : (disk.lookup k).isSome) :
    node? (put disk k name node) k' name' =
      if k' = k ∧ name' = name then some node else node? disk k' name' := by
  obtain ⟨dir, hdir⟩ := Option.isSome_iff_exists.mp hdir
  by_cases hk : k' = k
  · subst hk
    simp [node?, hdir, dir_lookup_insert]
  · simp [node?, hk]

/-- Setting a name leaves the others alone. -/
theorem node?_put_ne {disk : Disk κ} {k k' : κ} {name' : String}
    (hne : ¬ (k' = k ∧ name' = name)) :
    node? (put disk k name node) k' name' = node? disk k' name' := by
  cases hdir : disk.lookup k with
  | none => rw [put, hdir]
  | some dir => rw [node?_put _ _ _ _ _ _ (by simp [hdir]), if_neg hne]

@[simp] theorem node?_del (disk : Disk κ) (k k' : κ) (name name' : String) :
    node? (del disk k name) k' name' =
      if k' = k ∧ name' = name then none else node? disk k' name' := by
  by_cases hk : k' = k
  · subst hk
    cases hdir : disk.lookup k' <;> simp [node?, hdir, dir_lookup_erase]
  · simp [node?, hk]

@[simp] theorem node?_putDir (disk : Disk κ) (k k' : κ) (dir : Dir) (name : String) :
    node? (putDir disk k dir) k' name =
      if k' = k then dir.lookup name else node? disk k' name := by
  by_cases hk : k' = k <;> simp [node?, hk]

@[simp] theorem node?_delDir (disk : Disk κ) (k k' : κ) (name : String) :
    node? (delDir disk k) k' name = if k' = k then none else node? disk k' name := by
  by_cases hk : k' = k <;> simp [node?, hk]

end Content

/-! ## Calls -/

/-- How the environment lets a call go. `kept` is how much of a write's bytes reached the
disk; every other call ignores it. -/
inductive Fault where
  | none
  | fail (kept : Nat)
  | stop (kept : Nat)
  deriving DecidableEq

/-- The environment's decision on one call. -/
structure Verdict where
  fault : Fault
  /-- An existence probe meets an error, and answers `false`. -/
  blind : Bool
  /-- The time a file written by this call gets. -/
  now : Nat
  deriving DecidableEq

/-- By default a call goes through. -/
instance : Inhabited Verdict := ⟨⟨.none, false, 0⟩⟩

/-- The error kinds a caller tells apart. -/
inductive FsError where
  | notFound
  /-- The environment let the call fail. -/
  | failed
  /-- The program itself refuses what it read. -/
  | invalid (detail : String)
  deriving DecidableEq

/-- What a call does: its outcome and the disk it leaves. -/
abbrev Body (κ α : Type) : Type := Verdict → Disk κ → Ended FsError α × Disk κ

section Calls

variable {κ α : Type} [DecidableEq κ]

/-- A call that is all or nothing. -/
def atomic (op : Nat → Disk κ → Except FsError (α × Disk κ)) : Body κ α := fun v disk =>
  match v.fault with
  | .none =>
    match op v.now disk with
    | .ok (a, disk') => (.ok a, disk')
    | .error e => (.err e, disk)
  | .fail _ => (.err .failed, disk)
  | .stop _ => (.stopped, disk)

/-- A question about the disk whose answer cannot be an error. -/
def probe (truth : Disk κ → Bool) : Body κ Bool := fun v disk =>
  match v.fault with
  | .stop _ => (.stopped, disk)
  | _ => (.ok (!v.blind && truth disk), disk)

/-- `exists` of a directory. -/
def dirExists (k : κ) : Body κ Bool := probe fun disk => (disk.lookup k).isSome

/-- `exists` of a name in a directory. -/
def exists? (k : κ) (name : String) : Body κ Bool := probe fun disk => (node? disk k name).isSome

/-- `is_file` of a name in a directory. -/
def isFile (k : κ) (name : String) : Body κ Bool :=
  probe fun disk => (node? disk k name).any Node.isFile

/-- The entries of a directory. -/
def readDir (k : κ) : Body κ (List (String × Node)) := atomic fun _ disk =>
  match disk.lookup k with
  | none => .error .notFound
  | some dir => .ok (dir.entries.map fun e => (e.1, e.2), disk)

/-- The node a name stands for, as metadata reports it. -/
def metadata (k : κ) (name : String) : Body κ Node := atomic fun _ disk =>
  match node? disk k name with
  | none => .error .notFound
  | some node => .ok (node, disk)

/-- The whole content of a file. -/
def read (k : κ) (name : String) : Body κ (List UInt8) := atomic fun _ disk =>
  match node? disk k name with
  | none => .error .notFound
  | some (.folder _) => .error .failed
  | some (.file bytes _) => .ok (bytes, disk)

/-- Make a directory, or leave the one that is there. -/
def createDir (k : κ) : Body κ Unit := atomic fun _ disk =>
  match disk.lookup k with
  | none => .ok ((), putDir disk k ∅)
  | some _ => .ok ((), disk)

/-- Open a file for writing from its start: it is empty from here on. -/
def create (k : κ) (name : String) : Body κ Unit := atomic fun now disk =>
  match disk.lookup k with
  | none => .error .notFound
  | some _ =>
    match node? disk k name with
    | some (.folder _) => .error .failed
    | _ => .ok ((), put disk k name (.file [] now))

/-- Open a file for appending, empty if it was not there. -/
def openAppend (k : κ) (name : String) : Body κ Unit := atomic fun now disk =>
  match disk.lookup k with
  | none => .error .notFound
  | some _ =>
    match node? disk k name with
    | some (.folder _) => .error .failed
    | some (.file _ _) => .ok ((), disk)
    | none => .ok ((), put disk k name (.file [] now))

/-- Add bytes at the end of a file. -/
def append (disk : Disk κ) (k : κ) (name : String) (bytes : List UInt8) (now : Nat) : Disk κ :=
  match node? disk k name with
  | some (.file old _) => put disk k name (.file (old ++ bytes) now)
  | _ => disk

/-- Write at the end of an open file. This call can be cut short. -/
def write (k : κ) (name : String) (bytes : List UInt8) : Body κ Unit := fun v disk =>
  match v.fault with
  | .none => (.ok (), append disk k name bytes v.now)
  | .fail kept => (.err .failed, append disk k name (bytes.take kept) v.now)
  | .stop kept => (.stopped, append disk k name (bytes.take kept) v.now)

/-- Give an open file a length: it is cut, or filled up with zeros. -/
def setLen (k : κ) (name : String) (len : Nat) : Body κ Unit := atomic fun now disk =>
  match node? disk k name with
  | some (.file bytes _) => .ok ((), put disk k name (.file (bytes.takeD len 0) now))
  | _ => .error .failed

/-- The bytes of a file after some were put at an offset. -/
def overlay (old : List UInt8) (offset : Nat) (bytes : List UInt8) : List UInt8 :=
  old.takeD offset 0 ++ bytes ++ old.drop (offset + bytes.length)

/-- Put bytes at an offset of a file. -/
def patch (disk : Disk κ) (k : κ) (name : String) (offset : Nat) (bytes : List UInt8) (now : Nat) :
    Disk κ :=
  match node? disk k name with
  | some (.file old _) => put disk k name (.file (overlay old offset bytes) now)
  | _ => disk

/-- Write at an offset of an open file. This call can be cut short. -/
def writeAt (k : κ) (name : String) (offset : Nat) (bytes : List UInt8) : Body κ Unit :=
  fun v disk =>
    match v.fault with
    | .none => (.ok (), patch disk k name offset bytes v.now)
    | .fail kept => (.err .failed, patch disk k name offset (bytes.take kept) v.now)
    | .stop kept => (.stopped, patch disk k name offset (bytes.take kept) v.now)

/-- Wait until a file's bytes are on the medium. -/
def sync : Body κ Unit := atomic fun _ disk => .ok ((), disk)

/-- The time, which is always there to read. -/
def clock : Body κ Nat := fun v disk => (.ok v.now, disk)

def removeFile (k : κ) (name : String) : Body κ Unit := atomic fun _ disk =>
  match node? disk k name with
  | none => .error .notFound
  | some (.folder _) => .error .failed
  | some (.file _ _) => .ok ((), del disk k name)

/-- Remove a folder of a directory with all it holds. -/
def removeFolder (k : κ) (name : String) : Body κ Unit := atomic fun _ disk =>
  match node? disk k name with
  | none => .error .notFound
  | some (.file _ _) => .error .failed
  | some (.folder _) => .ok ((), del disk k name)

/-- Remove a directory, which must be empty. -/
def removeDir (k : κ) : Body κ Unit := atomic fun _ disk =>
  match disk.lookup k with
  | none => .error .notFound
  | some dir => if dir.entries = [] then .ok ((), delDir disk k) else .error .failed

/-- The directories there are. -/
def listDirs : Body κ (List κ) := atomic fun _ disk => .ok (disk.keys, disk)

/-- Remove a directory with all it holds. This call can be cut short, when some of the names are
gone. -/
def removeTree (k : κ) : Body κ Unit := fun v disk =>
  match disk.lookup k, v.fault with
  | some _, .none => (.ok (), delDir disk k)
  | some dir, .fail kept => (.err .failed, putDir disk k (dir.without (dir.keys.take kept)))
  | some dir, .stop kept => (.stopped, putDir disk k (dir.without (dir.keys.take kept)))
  | none, .stop _ => (.stopped, disk)
  | none, _ => (.err .notFound, disk)

/-- Move a node to another name. A file replaces a file; a folder is never replaced, and
replaces nothing. -/
def rename (k : κ) (name : String) (k' : κ) (name' : String) : Body κ Unit := atomic fun _ disk =>
  match node? disk k name, disk.lookup k' with
  | none, _ => .error .notFound
  | _, none => .error .notFound
  | some node, some _ =>
    match node? disk k' name' with
    | some other =>
      if node.isFile && other.isFile then .ok ((), put (del disk k name) k' name' node)
      else .error .failed
    | none => .ok ((), put (del disk k name) k' name' node)

/-- Move a whole directory. -/
def renameDir (k k' : κ) : Body κ Unit := atomic fun _ disk =>
  match disk.lookup k, disk.lookup k' with
  | none, _ => .error .notFound
  | some _, some _ => .error .failed
  | some dir, none => .ok ((), putDir (delDir disk k) k' dir)

end Calls

/-! ## Calls that only read -/

/-- A call that leaves the disk alone. -/
def ReadOnly {κ α : Type} (body : Body κ α) : Prop := ∀ v disk, (body v disk).2 = disk

variable {bytes : List UInt8}

section Reading

variable {κ α : Type}

theorem atomic_readOnly {op : Nat → Disk κ → Except FsError (α × Disk κ)}
    (hop : ∀ now disk r, op now disk = .ok r → r.2 = disk) : ReadOnly (atomic op) := by
  intro v disk
  unfold atomic
  cases v.fault with
  | none =>
    cases hres : op v.now disk with
    | ok r => exact hop v.now disk r hres
    | error e => rfl
  | fail kept | stop kept => rfl

variable {v : Verdict}

/-- What an atomic call returned, its operation returned. -/
theorem atomic_ok {op : Nat → Disk κ → Except FsError (α × Disk κ)}
    {disk : Disk κ} {a : α} (h : (atomic op v disk).1 = .ok a) :
    ∃ disk', op v.now disk = .ok (a, disk') := by
  unfold atomic at h
  cases hfault : v.fault with
  | none =>
    rw [hfault] at h
    cases hres : op v.now disk with
    | ok r =>
      simp only [hres] at h
      cases h
      exact ⟨r.2, rfl⟩
    | error e =>
      simp only [hres] at h
      cases h
  | fail kept | stop kept =>
    rw [hfault] at h
    cases h

theorem probe_readOnly (truth : Disk κ → Bool) : ReadOnly (probe truth) := by
  intro v disk
  unfold probe
  cases v.fault <;> rfl

theorem listDirs_readOnly : ReadOnly (listDirs : Body κ (List κ)) := by
  refine atomic_readOnly fun now disk r hr => ?_
  cases hr
  rfl

theorem listDirs_ok {disk : Disk κ} {dirs : List κ}
    (h : (listDirs v disk).1 = .ok dirs) : dirs = disk.keys := by
  obtain ⟨disk', hop⟩ := atomic_ok h
  cases hop
  rfl

variable [DecidableEq κ] {k : κ} {name : String}

theorem readDir_readOnly : ReadOnly (readDir k) := by
  refine atomic_readOnly fun now disk r hr => ?_
  split at hr
  · cases hr
  · cases hr
    rfl

theorem readDir_ok {disk : Disk κ} {entries : List (String × Node)}
    (h : (readDir k v disk).1 = .ok entries) :
    ∃ dir, disk.lookup k = some dir ∧ entries = dir.entries.map fun e => (e.1, e.2) := by
  obtain ⟨disk', hop⟩ := atomic_ok h
  split at hop
  · cases hop
  · rename_i dir hdir
    cases hop
    exact ⟨dir, hdir, rfl⟩

theorem read_readOnly : ReadOnly (read k name) := by
  refine atomic_readOnly fun now disk r hr => ?_
  split at hr <;> cases hr
  rfl

theorem read_ok {disk : Disk κ} (h : (read k name v disk).1 = .ok bytes) :
    ∃ mtime, node? disk k name = some (.file bytes mtime) := by
  obtain ⟨disk', hop⟩ := atomic_ok h
  split at hop <;> cases hop
  rename_i mtime hnode
  exact ⟨mtime, hnode⟩

/-- A file that a read does not find is not there. -/
theorem read_notFound {disk : Disk κ}
    (h : (read k name v disk).1 = .err .notFound) : node? disk k name = none := by
  unfold Lib.Fs.read atomic at h
  cases hfault : v.fault with
  | none =>
    rw [hfault] at h
    cases hnode : node? disk k name with
    | none => rfl
    | some node =>
      cases node with
      | file bytes mtime | folder id =>
        simp only [hnode] at h
        cases h
  | fail kept | stop kept =>
    rw [hfault] at h
    cases h

end Reading

/-! ## What a call can do -/

section Cases

variable {κ α : Type} (v : Verdict) (disk : Disk κ)

/-- The outcome of a call that did not go through: no value, and the disk as it was. -/
def Refused (disk : Disk κ) (r : Ended FsError α × Disk κ) : Prop :=
  r.2 = disk ∧ ∀ a, r.1 ≠ .ok a

/-- An atomic call goes through or changes nothing. -/
theorem atomic_cases (op : Nat → Disk κ → Except FsError (α × Disk κ)) :
    (∃ a disk', op v.now disk = .ok (a, disk') ∧ atomic op v disk = (.ok a, disk')) ∨
      Refused disk (atomic op v disk) := by
  unfold atomic
  cases v.fault with
  | none =>
    cases hres : op v.now disk with
    | ok r => exact .inl ⟨r.1, r.2, rfl, rfl⟩
    | error e => exact .inr ⟨rfl, nofun⟩
  | fail kept | stop kept => exact .inr ⟨rfl, nofun⟩

variable [DecidableEq κ] (k k' : κ) (name name' : String)

theorem removeFile_cases : (∃ bytes mtime, node? disk k name = some (.file bytes mtime) ∧
      removeFile k name v disk = (.ok (), del disk k name)) ∨
      Refused disk (removeFile k name v disk) := by
  refine (atomic_cases v disk _).imp_left ?_
  rintro ⟨_, disk', hop, heq⟩
  split at hop <;> cases hop
  rename_i bytes mtime hnode
  exact ⟨bytes, mtime, hnode, heq⟩

theorem removeDir_cases : (∃ dir, disk.lookup k = some dir ∧ dir.entries = [] ∧
      removeDir k v disk = (.ok (), delDir disk k)) ∨ Refused disk (removeDir k v disk) := by
  refine (atomic_cases v disk _).imp_left ?_
  rintro ⟨_, disk', hop, heq⟩
  split at hop
  · cases hop
  · rename_i dir hdir
    split at hop <;> cases hop
    exact ⟨dir, hdir, ‹_›, heq⟩

theorem create_cases : ((disk.lookup k).isSome ∧
      create k name v disk = (.ok (), put disk k name (.file [] v.now))) ∨
      Refused disk (create k name v disk) := by
  refine (atomic_cases v disk _).imp_left ?_
  rintro ⟨_, disk', hop, heq⟩
  split at hop
  · cases hop
  · rename_i hdir
    split at hop <;> cases hop
    exact ⟨by simp [hdir], heq⟩

/-- A write leaves some first part of its bytes, and all of them when it goes through. -/
theorem write_cases (bytes : List UInt8) :
    ∃ part now, (write k name bytes v disk).2 = append disk k name part now ∧
      ∀ a, (write k name bytes v disk).1 = .ok a → part = bytes := by
  unfold write
  cases v.fault with
  | none => exact ⟨bytes, v.now, rfl, fun _ _ => rfl⟩
  | fail kept | stop kept => exact ⟨bytes.take kept, v.now, rfl, nofun⟩

theorem rename_cases : (∃ node, node? disk k name = some node ∧ (disk.lookup k').isSome ∧
      rename k name k' name' v disk = (.ok (), put (del disk k name) k' name' node)) ∨
      Refused disk (rename k name k' name' v disk) := by
  refine (atomic_cases v disk _).imp_left ?_
  rintro ⟨_, disk', hop, heq⟩
  split at hop
  · cases hop
  · cases hop
  · rename_i node dir hnode hdir
    refine ⟨node, hnode, by simp [hdir], heq.trans ?_⟩
    split at hop
    · split at hop <;> cases hop
      rfl
    · cases hop
      rfl

theorem renameDir_cases : (∃ dir, disk.lookup k = some dir ∧ disk.lookup k' = none ∧
      renameDir k k' v disk = (.ok (), putDir (delDir disk k) k' dir)) ∨
      Refused disk (renameDir k k' v disk) := by
  refine (atomic_cases v disk _).imp_left ?_
  rintro ⟨_, disk', hop, heq⟩
  split at hop <;> cases hop
  rename_i dir hdir hdir'
  exact ⟨dir, hdir, hdir', heq⟩

end Cases

/-! ## Rules -/

/-- A program over a disk. -/
abbrev FsProg (κ α : Type) : Type := Prog Verdict (Disk κ) FsError α

section Rules

variable {κ α : Type} {D : Verdict → Prop} {disk : Disk κ} {Q : α → Disk κ → Prop}
  {E : FsError → Disk κ → Prop} {C I : Disk κ → Prop}

/-- An atomic call goes through, or leaves the disk alone. -/
theorem Runs.atomic {op : Nat → Disk κ → Except FsError (α × Disk κ)} (hD : D default)
    (hop : ∀ now a disk', op now disk = .ok (a, disk') → Q a disk') (hI : I disk) :
    Runs D disk (Prog.call (Fs.atomic op)) Q (fun _ => I) I := by
  refine Runs.call hD fun v _ => ?_
  unfold Fs.atomic
  cases v.fault with
  | none =>
    cases hres : op v.now disk with
    | ok r => exact hop v.now r.1 r.2 hres
    | error e => exact hI
  | fail kept | stop kept => exact hI

/-- A probe leaves the disk alone, and answers the truth unless it is blind. -/
theorem Runs.probe {truth : Disk κ → Bool} {Q : Bool → Disk κ → Prop} (hD : D default)
    (hsees : Q (truth disk) disk) (hblind : (∃ v, D v ∧ v.blind = true) → Q false disk)
    (hstop : C disk) : Runs D disk (Prog.call (Fs.probe truth)) Q E C := by
  refine Runs.call hD fun v hv => ?_
  have hanswer : Q (!v.blind && truth disk) disk := by
    cases hb : v.blind with
    | true => exact hblind ⟨v, hv, hb⟩
    | false => exact hsees
  unfold Fs.probe
  cases v.fault with
  | none | fail kept => exact hanswer
  | stop kept => exact hstop

/-- A decision that lets the call through. -/
def Clear (v : Verdict) : Prop := v.fault = .none ∧ v.blind = false

instance (v : Verdict) : Decidable (Clear v) := inferInstanceAs (Decidable (_ ∧ _))

theorem clear_default : Clear default := ⟨rfl, rfl⟩

/-- What the result of an all-or-nothing operation has to satisfy. -/
def Lands (Q : α → Disk κ → Prop) (E : FsError → Disk κ → Prop) (disk : Disk κ) :
    Except FsError (α × Disk κ) → Prop
  | .ok (a, disk') => Q a disk'
  | .error e => E e disk

/-- Some call may not be let through. -/
def Faulty (D : Verdict → Prop) : Prop := ∃ v, D v ∧ ¬ Clear v

theorem faulty_of_fault {v : Verdict} (hv : D v) (h : v.fault ≠ .none) : Faulty D :=
  ⟨v, hv, fun hclear => h hclear.1⟩

theorem not_faulty_clear : ¬ Faulty Clear := fun ⟨_, hv, hnot⟩ => hnot hv

/-- An atomic call that is let through does what its operation says. -/
theorem Runs.atomic_lands {op : Nat → Disk κ → Except FsError (α × Disk κ)} (hD : D default)
    (hop : ∀ now, Lands Q E disk (op now disk)) (hfail : Faulty D → E .failed disk)
    (hstop : Faulty D → C disk) : Runs D disk (Prog.call (Fs.atomic op)) Q E C := by
  refine Runs.call hD fun v hv => ?_
  unfold Fs.atomic
  cases hv' : v.fault with
  | none =>
    have hlands := hop v.now
    cases hres : op v.now disk with
    | ok r | error e => rw [hres] at hlands; exact hlands
  | fail kept => exact hfail (faulty_of_fault hv (by simp [hv']))
  | stop kept => exact hstop (faulty_of_fault hv (by simp [hv']))

/-- A probe that sees answers the truth. -/
theorem Runs.probe_lands {truth : Disk κ → Bool} {Q : Bool → Disk κ → Prop} (hD : D default)
    (hsighted : ∀ v, D v → v.blind = false) (hsees : Q (truth disk) disk)
    (hstop : Faulty D → C disk) : Runs D disk (Prog.call (Fs.probe truth)) Q E C := by
  refine Runs.call hD fun v hv => ?_
  unfold Fs.probe
  rw [hsighted v hv]
  cases hv' : v.fault with
  | none | fail kept => exact hsees
  | stop kept => exact hstop (faulty_of_fault hv (by simp [hv']))

variable [DecidableEq κ] {k k' : κ} {name name' : String} {U : Unit → Disk κ → Prop}

section

variable (hD : D default)

include hD

theorem Runs.readDir {Q : List (String × Node) → Disk κ → Prop}
    (hok : ∀ dir, disk.lookup k = some dir → Q (dir.entries.map fun e => (e.1, e.2)) disk)
    (hI : I disk) : Runs D disk (Prog.call (Fs.readDir k)) Q (fun _ => I) I := by
  refine Runs.atomic hD (fun _ _ _ hop => ?_) hI
  split at hop <;> cases hop
  exact hok _ ‹_›

theorem Runs.metadata {Q : Node → Disk κ → Prop}
    (hok : ∀ node, node? disk k name = some node → Q node disk) (hI : I disk) :
    Runs D disk (Prog.call (Fs.metadata k name)) Q (fun _ => I) I := by
  refine Runs.atomic hD (fun _ _ _ hop => ?_) hI
  split at hop <;> cases hop
  exact hok _ ‹_›

theorem Runs.read {Q : List UInt8 → Disk κ → Prop}
    (hok : ∀ bytes mtime, node? disk k name = some (.file bytes mtime) → Q bytes disk) (hI : I disk)
    : Runs D disk (Prog.call (Fs.read k name)) Q (fun _ => I) I := by
  refine Runs.atomic hD (fun _ _ _ hop => ?_) hI
  split at hop <;> cases hop
  exact hok _ _ ‹_›

theorem Runs.createDir (hnew : disk.lookup k = none → U () (putDir disk k ∅))
    (hold : (disk.lookup k).isSome → U () disk) (hI : I disk) :
    Runs D disk (Prog.call (Fs.createDir k)) U (fun _ => I) I := by
  refine Runs.atomic hD (fun _ _ _ hop => ?_) hI
  split at hop <;> cases hop
  · exact hnew ‹_›
  · next hdir => exact hold (by simp [hdir])

/-- The file is empty from here on, whatever it held. -/
theorem Runs.create (hok : ∀ now, (disk.lookup k).isSome → U () (put disk k name (.file [] now)))
    (hI : I disk) : Runs D disk (Prog.call (Fs.create k name)) U (fun _ => I) I := by
  refine Runs.atomic hD (fun now _ _ hop => ?_) hI
  split at hop
  · cases hop
  · next hdir =>
    split at hop <;> cases hop
    exact hok now (by simp [hdir])

theorem Runs.openAppend
    (hold : ∀ bytes mtime, node? disk k name = some (.file bytes mtime) → U () disk)
    (hnew : ∀ now, (disk.lookup k).isSome → node? disk k name = none →
      U () (put disk k name (.file [] now))) (hI : I disk) : Runs D disk
    (Prog.call (Fs.openAppend k name)) U (fun _ => I) I := by
  refine Runs.atomic hD (fun now _ _ hop => ?_) hI
  split at hop
  · cases hop
  · next hdir =>
    split at hop <;> cases hop
    · exact hold _ _ ‹_›
    · exact hnew now (by simp [hdir]) ‹_›

/-- A write puts all its bytes in place, or fails or stops with some first part of them. -/
theorem Runs.write (hok : ∀ now, U () (append disk k name bytes now))
    (hcut : ∀ kept now, I (append disk k name (bytes.take kept) now)) :
    Runs D disk (Prog.call (Fs.write k name bytes)) U (fun _ => I) I := by
  refine Runs.call hD fun v _ => ?_
  unfold Fs.write
  cases v.fault with
  | none => exact hok v.now
  | fail kept | stop kept => exact hcut kept v.now

theorem Runs.setLen {len : Nat}
    (hok : ∀ bytes mtime now, node? disk k name = some (.file bytes mtime) →
      U () (put disk k name (.file (bytes.takeD len 0) now))) (hI : I disk) : Runs D disk
    (Prog.call (Fs.setLen k name len)) U (fun _ => I) I := by
  refine Runs.atomic hD (fun now _ _ hop => ?_) hI
  split at hop <;> cases hop
  exact hok _ _ now ‹_›

/-- A write at an offset puts all its bytes in place, or fails or stops with some first part. -/
theorem Runs.writeAt {offset : Nat} (hok : ∀ now, U () (patch disk k name offset bytes now))
    (hfail : ∀ kept now, E .failed (patch disk k name offset (bytes.take kept) now))
    (hstop : ∀ kept now, C (patch disk k name offset (bytes.take kept) now)) :
    Runs D disk (Prog.call (Fs.writeAt k name offset bytes)) U E C := by
  refine Runs.call hD fun v _ => ?_
  unfold Fs.writeAt
  cases v.fault with
  | none => exact hok v.now
  | fail kept => exact hfail kept v.now
  | stop kept => exact hstop kept v.now

end

omit [DecidableEq κ] in
theorem Runs.sync (hD : D default) (hok : U () disk) (hI : I disk) :
    Runs D disk (Prog.call Fs.sync) U (fun _ => I) I :=
  Runs.atomic hD (fun _ _ _ hop => by cases hop; exact hok) hI

omit [DecidableEq κ] in
theorem Runs.clock {Q : Nat → Disk κ → Prop} (hD : D default) (hok : ∀ now, Q now disk) :
    Runs D disk (Prog.call Fs.clock) Q E C :=
  Runs.call hD fun v _ => hok v.now

theorem Runs.removeFile (hD : D default)
    (hok : ∀ bytes mtime, node? disk k name = some (.file bytes mtime) → U () (del disk k name))
    (hI : I disk) : Runs D disk (Prog.call (Fs.removeFile k name)) U (fun _ => I) I := by
  refine Runs.atomic hD (fun _ _ _ hop => ?_) hI
  split at hop <;> cases hop
  exact hok _ _ ‹_›

theorem Runs.removeFolder (hD : D default)
    (hok : ∀ id, node? disk k name = some (.folder id) → U () (del disk k name)) (hI : I disk) :
    Runs D disk (Prog.call (Fs.removeFolder k name)) U (fun _ => I) I := by
  refine Runs.atomic hD (fun _ _ _ hop => ?_) hI
  split at hop <;> cases hop
  exact hok _ ‹_›

theorem Runs.removeDir (hD : D default)
    (hok : ∀ dir, disk.lookup k = some dir → dir.entries = [] → U () (delDir disk k))
    (hI : I disk) : Runs D disk (Prog.call (Fs.removeDir k)) U (fun _ => I) I := by
  refine Runs.atomic hD (fun _ _ _ hop => ?_) hI
  split at hop
  · cases hop
  · split at hop <;> cases hop
    exact hok _ ‹_› ‹_›

omit [DecidableEq κ] in
theorem Runs.listDirs {Q : List κ → Disk κ → Prop} (hD : D default) (hok : Q disk.keys disk)
    (hI : I disk) : Runs D disk (Prog.call Fs.listDirs) Q (fun _ => I) I :=
  Runs.atomic hD (fun _ _ _ hop => by cases hop; exact hok) hI

/-- A directory goes with all it holds, or is left without some of its names. -/
theorem Runs.removeTree (hD : D default) (hok : (disk.lookup k).isSome → U () (delDir disk k))
    (hcut : ∀ dir gone, disk.lookup k = some dir → I (putDir disk k (dir.without gone)))
    (hI : I disk) : Runs D disk (Prog.call (Fs.removeTree k)) U (fun _ => I) I := by
  refine Runs.call hD fun v _ => ?_
  unfold Fs.removeTree
  cases hdir : disk.lookup k with
  | none => cases v.fault <;> exact hI
  | some dir =>
    cases v.fault with
    | none => exact hok (by simp [hdir])
    | fail kept | stop kept => exact hcut dir _ hdir

/-- A name moves, onto a free name or onto a file it replaces. -/
theorem Runs.rename (hD : D default)
    (hok : ∀ node, node? disk k name = some node → (disk.lookup k').isSome →
      U () (put (del disk k name) k' name' node)) (hI : I disk) :
    Runs D disk (Prog.call (Fs.rename k name k' name')) U (fun _ => I) I := by
  refine Runs.atomic hD (fun _ _ _ hop => ?_) hI
  split at hop
  · cases hop
  · cases hop
  · next node dir hnode hdir =>
    have hmove := hok node hnode (by simp [hdir])
    split at hop
    · split at hop <;> cases hop
      exact hmove
    · cases hop
      exact hmove

theorem Runs.renameDir (hD : D default)
    (hok : ∀ dir, disk.lookup k = some dir → disk.lookup k' = none →
      U () (putDir (delDir disk k) k' dir)) (hI : I disk) :
    Runs D disk (Prog.call (Fs.renameDir k k')) U (fun _ => I) I := by
  refine Runs.atomic hD (fun _ _ _ hop => ?_) hI
  split at hop <;> cases hop
  exact hok _ ‹_› ‹_›

end Rules

end Lib.Fs
