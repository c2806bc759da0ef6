import SolstoneWindows.PlTransportWin.Sealed

/-!
# Calls on the sealed segments

Between any two calls of the uploader somebody else may have put files into sealed directories.
`Peeks D` is what that does to the world, under surroundings that `D` allows: every name keeps
its node, and names appear. A call that only reads moves the world along `Peeks`, and what it
returns is true of the disk it leaves. This is what carries a fact from a read to the removal
that relies on it.
-/

set_option autoImplicit false

namespace SolstoneWindows.Proofs.PlTransportWin

open Lib.Effect Lib.Fs Relation
open SolstoneWindows.PlTransportWin
open SolstoneWindows.PlatformWin (Place)

/-! ## Files that others add -/

/-- What adding a file comes to: a new directory, a new name, or nothing. -/
theorem addEntry_cases (disk : Disk Place) (added : Added) :
    (disk.lookup (.sealed added.index) = none ∧ addEntry disk added =
      putDir disk (.sealed added.index) (Dir.of [(added.name, added.node)])) ∨
    (∃ dir, disk.lookup (.sealed added.index) = some dir ∧ dir.lookup added.name = none ∧
      addEntry disk added = put disk (.sealed added.index) added.name added.node) ∨
    addEntry disk added = disk := by
  unfold addEntry
  cases hsealed : disk.lookup (.sealed added.index) with
  | none => exact .inl ⟨rfl, rfl⟩
  | some dir =>
    cases hname : dir.lookup added.name with
    | none => exact .inr (.inl ⟨dir, rfl, hname, by simp only [hname]⟩)
    | some old => exact .inr (.inr (by simp only [hname]))

variable {disk : Disk Place} {added : Added} {k : Place} {name : String} {node : Node}

/-- A name keeps its node when a file is added. -/
theorem node?_addEntry_of_some (h : node? disk k name = some node) :
    node? (addEntry disk added) k name = some node := by
  rcases addEntry_cases disk added with ⟨hsealed, heq⟩ | ⟨dir, hsealed, hname, heq⟩ | heq
  · have hk : k ≠ .sealed added.index := by
      rintro rfl
      rw [node?, hsealed] at h
      cases h
    rw [heq, node?_putDir, if_neg hk, h]
  · -- The added name was free, so it is not the one asked for.
    have hne : ¬ (k = .sealed added.index ∧ name = added.name) := by
      rintro ⟨rfl, rfl⟩
      rw [node?_of_lookup hsealed, hname] at h
      cases h
    rw [heq, node?_put _ _ _ _ _ _ (by simp [hsealed]), if_neg hne, h]
  · rw [heq, h]

/-- What is there after a file was added was there before, or is the added file. -/
theorem node?_addEntry_cases (h : node? (addEntry disk added) k name = some node) :
    node? disk k name = some node ∨
      (k = .sealed added.index ∧ name = added.name ∧ node = added.node) := by
  rcases addEntry_cases disk added with ⟨hsealed, heq⟩ | ⟨dir, hsealed, hname, heq⟩ | heq
  · rw [heq, node?_putDir] at h
    split at h
    · have hmem := mem_of_lookup_dir_of h
      simp only [List.mem_singleton, Prod.mk.injEq] at hmem
      exact .inr ⟨by assumption, hmem.1, hmem.2⟩
    · exact .inl h
  · rw [heq, node?_put _ _ _ _ _ _ (by simp [hsealed])] at h
    split at h
    · rename_i hsame
      cases h
      exact .inr ⟨hsame.1, hsame.2, rfl⟩
    · exact .inl h
  · rw [heq] at h
    exact .inl h

/-- Only sealed directories are added to. -/
theorem lookup_addEntry_ne (disk : Disk Place)
    (hk : k ≠ .sealed added.index) : (addEntry disk added).lookup k = disk.lookup k := by
  rcases addEntry_cases disk added with ⟨-, heq⟩ | ⟨dir, -, -, heq⟩ | heq <;> simp [heq, hk]

/-- No directory goes away when a file is added. -/
theorem lookup_addEntry_isSome (added : Added)
    (h : (disk.lookup k).isSome) : ((addEntry disk added).lookup k).isSome := by
  rcases addEntry_cases disk added with ⟨-, heq⟩ | ⟨dir, hsealed, -, heq⟩ | heq
  · by_cases hk : k = .sealed added.index <;> simp [heq, hk, h]
  · by_cases hk : k = .sealed added.index <;> simp [heq, hk, h, hsealed]
  · rw [heq]
    exact h

/-- A name keeps its node while files are added. -/
theorem node?_foldl_addEntry (added : List Added) (h : node? disk k name = some node) :
    node? (added.foldl addEntry disk) k name = some node := by
  induction added generalizing disk with
  | nil => exact h
  | cons first rest ih => exact ih (node?_addEntry_of_some h)

/-- What is there after files were added was there before, or is one of them. -/
theorem node?_foldl_addEntry_cases
    {added : List Added} (h : node? (added.foldl addEntry disk) k name = some node) :
    node? disk k name = some node ∨
      ∃ a ∈ added, k = .sealed a.index ∧ name = a.name ∧ node = a.node := by
  induction added generalizing disk with
  | nil => exact .inl h
  | cons first rest ih =>
    rcases ih h with hbefore | ⟨later, hmem, heq⟩
    · rcases node?_addEntry_cases hbefore with hbefore | heq
      · exact .inl hbefore
      · exact .inr ⟨first, List.mem_cons_self, heq⟩
    · exact .inr ⟨later, List.mem_cons_of_mem _ hmem, heq⟩

/-- Directories nobody adds to are as they were. -/
theorem lookup_foldl_addEntry_ne {added : List Added}
    (h : ∀ a ∈ added, k ≠ .sealed a.index) (disk : Disk Place) :
    (added.foldl addEntry disk).lookup k = disk.lookup k := by
  induction added generalizing disk with
  | nil => rfl
  | cons first rest ih =>
    rw [List.foldl_cons, ih (fun a ha => h a (List.mem_cons_of_mem _ ha)),
      lookup_addEntry_ne disk (h first List.mem_cons_self)]

/-- No directory goes away while files are added. -/
theorem lookup_foldl_addEntry_isSome (added : List Added)
    (h : (disk.lookup k).isSome) : ((added.foldl addEntry disk).lookup k).isSome := by
  induction added generalizing disk with
  | nil => exact h
  | cons first rest ih => exact ih (lookup_addEntry_isSome first h)

/-! ## Reading -/

/-- The world a call finds. -/
def Found (D : Outside → Prop) (w w' : World) : Prop :=
  ∃ o, D o ∧ w' = { w with disk := o.found w.disk }

/-- What happens to the world while the uploader only reads. -/
def Peeks (D : Outside → Prop) : World → World → Prop := ReflTransGen (Found D)

instance (D : Outside → Prop) : IsPreorder World (Peeks D) where
  refl _ := .refl
  trans _ _ _ h h' := h.trans h'

section Peeks

variable {D : Outside → Prop} {w w' : World}

/-- Reading changes nothing but the disk, and there only adds. -/
structure Grown (w w' : World) : Prop where
  log : w'.log = w.log
  identity : w'.identity = w.identity
  memory : w'.memory = w.memory
  node : ∀ {k name node}, node? w.disk k name = some node → node? w'.disk k name = some node
  dir : ∀ {k}, (w.disk.lookup k).isSome → (w'.disk.lookup k).isSome

theorem Peeks.grown (h : Peeks D w w') : Grown w w' := by
  induction h with
  | refl => exact ⟨rfl, rfl, rfl, id, id⟩
  | tail _ hlast ih =>
    obtain ⟨o, -, rfl⟩ := hlast
    exact ⟨ih.log, ih.identity, ih.memory, fun hnode => node?_foldl_addEntry o.added
      (ih.node hnode),
      fun hdir => lookup_foldl_addEntry_isSome o.added (ih.dir hdir)⟩

end Peeks

variable {D : Outside → Prop} {w : World} {α : Type}

/-- A read returns what is true of the disk it leaves. -/
theorem store_peeks {body : Body Place α} {Q : α → World → Prop} (hD : D default)
    (hread : ReadOnly body) (hQ : ∀ v w' a, Peeks D w w' → (body v w'.disk).1 = .ok a → Q a w') :
    Moves D (Peeks D) w (store body) Q := by
  unfold store storeBy
  refine Moves.call hD fun o ho => ?_
  dsimp only
  rw [hread]
  have hstep : Peeks D w { w with disk := o.found w.disk } := .single ⟨o, ho, rfl⟩
  exact ⟨hstep, fun a ha => hQ o.fs _ a hstep ha⟩

/-- Waiting for the medium changes nothing. -/
theorem sync_peeks (hD : D default) :
    Moves D (Peeks D) w (store sync) fun _ w' => Peeks D w w' := by
  refine store_peeks hD (atomic_readOnly fun _ _ r hr => ?_) fun _ _ _ hw' _ => hw'
  cases hr
  rfl

theorem listDirs_peeks (hD : D default) :
    Moves D (Peeks D) w (store listDirs) fun dirs w' => dirs = w'.disk.keys :=
  store_peeks hD listDirs_readOnly fun _ _ _ _ hok => listDirs_ok hok

/-! ## Directories as lists -/

/-- A listing tells a directory: every entry once, with its kind and length. -/
structure Lists (w : World) (index : Nat) (entries : List DirEntryFact) : Prop where
  there : (w.disk.lookup (.sealed index)).isSome
  nodup : (entries.map (·.name)).Nodup
  mem : ∀ e, e ∈ entries ↔
    ∃ node, node? w.disk (.sealed index) e.name = some node ∧ e = entryFact (e.name, node)

theorem Lists.filter {index : Nat} {entries : List DirEntryFact}
    (h : Lists w index entries) {keep : DirEntryFact → Bool} : ∀ e ∈ entries.filter keep, ∃ node,
      node? w.disk (.sealed index) e.name = some node ∧ e = entryFact (e.name, node) :=
  fun e he => (h.mem e).mp (List.mem_of_mem_filter he)

/-- The sorted facts of a directory tell it. -/
theorem lists_of_lookup {index : Nat} {dir : Dir}
    (hdir : w.disk.lookup (.sealed index) = some dir) :
    Lists w index (((dir.entries.map fun e => (e.1, e.2)).map entryFact).insertionSort
      fun a b => a.name ≤ b.name) := by
  have hperm := List.perm_insertionSort (fun a b : DirEntryFact => a.name ≤ b.name)
    ((dir.entries.map fun e => (e.1, e.2)).map entryFact)
  refine ⟨by simp [hdir], ?_, ?_⟩
  · rw [(hperm.map (·.name)).nodup_iff, List.map_map, List.map_map]
    exact dir.nodupKeys
  · intro e
    rw [hperm.mem_iff, List.mem_map, node?_of_lookup hdir]
    constructor
    · rintro ⟨⟨name, node⟩, hmem, rfl⟩
      exact ⟨node, mem_entries_iff.mp hmem, rfl⟩
    · rintro ⟨node, hnode, he⟩
      exact ⟨(e.name, node), mem_entries_iff.mpr hnode, he.symm⟩

/-- A listing tells the directory as it is then. -/
theorem listEntries_peeks (hD : D default) (index : Nat) :
    Moves D (Peeks D) w (listEntries index) fun entries w' => Lists w' index entries := by
  unfold listEntries
  have hread : Moves D (Peeks D) w (store (readDir (.sealed index))) fun entries w' =>
      ∃ dir, w'.disk.lookup (.sealed index) = some dir ∧
        entries = dir.entries.map fun e => (e.1, e.2) := by
    refine store_peeks hD readDir_readOnly fun v w' entries _ hok => ?_
    exact readDir_ok hok
  refine hread.bind fun entries w' _ hentries => ?_
  obtain ⟨dir, hdir, rfl⟩ := hentries
  exact Moves.pure (lists_of_lookup hdir)

/-- A file that was read is there, with these bytes. -/
theorem readFile_peeks (hD : D default) (index : Nat) (name : String) :
    Moves D (Peeks D) w (readFile index name) fun bytes w' =>
      ∃ mtime, node? w'.disk (.sealed index) name = some (.file bytes mtime) := by
  refine store_peeks hD read_readOnly fun v w' bytes _ hok => ?_
  exact read_ok hok

/-- Reading the time of an entry leaves the disk alone. -/
theorem modified_readOnly {index : Nat} : ReadOnly (atomic fun now disk =>
      match node? disk (Place.sealed index) name with
      | none => .error .notFound
      | some (.file _ mtime) => .ok (mtime, disk)
      | some (.folder _) => .ok (now, disk)) := by
  refine atomic_readOnly fun now disk r hr => ?_
  cases hnode : node? disk (.sealed index) name with
  | none =>
    rw [hnode] at hr
    cases hr
  | some node =>
    rw [hnode] at hr
    cases node <;> cases hr <;> rfl

/-- The time of a file is the one it has. -/
theorem modified_peeks (hD : D default) (index : Nat) (name : String) :
    Moves D (Peeks D) w (modified index name) fun mtime w' =>
      ∀ bytes mtime', node? w'.disk (.sealed index) name = some (.file bytes mtime') →
        mtime = mtime' := by
  refine store_peeks hD modified_readOnly fun v w' mtime _ hok => ?_
  intro bytes mtime' hnode
  obtain ⟨disk', hop⟩ := atomic_ok hok
  rw [hnode] at hop
  cases hop
  rfl

end SolstoneWindows.Proofs.PlTransportWin
