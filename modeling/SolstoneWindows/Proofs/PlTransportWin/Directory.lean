import SolstoneWindows.Proofs.PlTransportWin.Steps

/-!
# Calls on a directory nobody adds to

While nobody adds to a directory (`Alone`), what a call does to it can be said exactly: a read
leaves it as it was and tells it, a removal takes the one name or nothing. Calls on other
directories go on all the while, and they may fail or stop. `Smooth` surroundings let every call
through; a specification says of each way to end whether it can happen in them.
-/

set_option autoImplicit false

namespace SolstoneWindows.Proofs.PlTransportWin

open Lib.Effect Lib.Fs Relation
open SolstoneWindows.PlTransportWin
open SolstoneWindows.PlatformWin (Place)

/-! ## One directory -/

/-- Nobody else adds to the directory. -/
def Alone (D : Outside → Prop) (index : Nat) : Prop := ∀ o, D o → ∀ a ∈ o.added, a.index ≠ index

/-- Calls that fail only by stopping, and probes that see. -/
def Faultless (D : Outside → Prop) : Prop :=
  ∀ o, D o → o.fs.blind = false ∧ ∀ kept, o.fs.fault ≠ .fail kept

/-- Every call goes through. -/
def Smooth (D : Outside → Prop) : Prop := ∀ o, D o → Clear o.fs ∧ Clear o.removal

/-- The directory, what is remembered, the journal and the zone are as they were. -/
structure Same (index : Nat) (w w' : World) : Prop where
  dir : w'.disk.lookup (.sealed index) = w.disk.lookup (.sealed index)
  memory : w'.memory = w.memory
  identity : w'.identity = w.identity
  zone : w'.zone = w.zone

/-- These names are gone from the directory, and nothing else. -/
structure Gone (index : Nat) (gone : List String) (w w' : World) : Prop where
  node : ∀ name, node? w'.disk (.sealed index) name =
    if name ∈ gone then none else node? w.disk (.sealed index) name
  dir : (w'.disk.lookup (.sealed index)).isSome = (w.disk.lookup (.sealed index)).isSome

/-- These names are gone from the directory, and all else is as it was. -/
structure Cleared (index : Nat) (gone : List String) (w w' : World) : Prop
    extends Gone index gone w w' where
  memory : w'.memory = w.memory
  identity : w'.identity = w.identity
  zone : w'.zone = w.zone

/-- A first part of the names is gone. -/
def Cut (index : Nat) (names : List String) (w w' : World) : Prop :=
  ∃ gone rest, names = gone ++ rest ∧ Cleared index gone w w'

/-- No file has the name. -/
def NoFile (w : World) (index : Nat) (name : String) : Prop :=
  ∀ bytes mtime, node? w.disk (.sealed index) name ≠ some (.file bytes mtime)

/-- The directory was listed in vain. Where calls only stop, there is none. -/
def Unlisted (D : Outside → Prop) (index : Nat) (w w' : World) : Prop :=
  Same index w w' ∧ (Faultless D → w.disk.lookup (.sealed index) = none)

section Directory

variable {index : Nat} {w w' w'' : World} {gone gone' names : List String} {name : String}

theorem Same.refl (index : Nat) (w : World) : Same index w w := ⟨rfl, rfl, rfl, rfl⟩

theorem Same.trans (h : Same index w w') (h' : Same index w' w'') : Same index w w'' :=
  ⟨h'.dir.trans h.dir, h'.memory.trans h.memory, h'.identity.trans h.identity, h'.zone.trans h.zone⟩

theorem Same.node (h : Same index w w') (name : String) :
    node? w'.disk (.sealed index) name = node? w.disk (.sealed index) name :=
  node?_congr h.dir name

theorem Same.cleared (h : Same index w w') : Cleared index [] w w' := by
  refine ⟨⟨fun name => ?_, by rw [h.dir]⟩, h.memory, h.identity, h.zone⟩
  rw [if_neg List.not_mem_nil, h.node]

theorem Cleared.trans (h : Cleared index gone w w') (h' : Cleared index gone' w' w'') :
    Cleared index (gone ++ gone') w w'' := by
  refine ⟨⟨fun name => ?_, h'.dir.trans h.dir⟩, h'.memory.trans h.memory,
    h'.identity.trans h.identity, h'.zone.trans h.zone⟩
  rw [h'.node, h.node]
  by_cases hgone : name ∈ gone <;> by_cases hgone' : name ∈ gone' <;> simp [hgone, hgone']

/-- An absent name may be counted as gone. -/
theorem Same.cleared_absent (h : Same index w w')
    (habsent : node? w.disk (.sealed index) name = none) : Cleared index [name] w w' := by
  refine ⟨⟨fun name' => ?_, by rw [h.dir]⟩, h.memory, h.identity, h.zone⟩
  rw [h.node]
  split
  · rename_i hname
    rw [List.mem_singleton.mp hname, habsent]
  · rfl

theorem Cut.none (h : Same index w w') : Cut index names w w' := ⟨[], names, rfl, h.cleared⟩

theorem Cut.before (h : Same index w w') (h' : Cut index names w' w'') : Cut index names w w'' := by
  obtain ⟨gone, rest, rfl, hgone⟩ := h'
  exact ⟨gone, rest, rfl, h.cleared.trans hgone⟩

theorem Cut.after (h : Cleared index [name] w w') (h' : Cut index names w' w'') :
    Cut index (name :: names) w w'' := by
  obtain ⟨gone, rest, rfl, hgone⟩ := h'
  exact ⟨name :: gone, rest, rfl, h.trans hgone⟩

end Directory

theorem Lists.same {index : Nat} {w w' : World} {entries : List DirEntryFact}
    (hsame : Same index w w') (h : Lists w index entries) : Lists w' index entries := by
  refine ⟨hsame.dir ▸ h.there, h.nodup, fun e => ?_⟩
  rw [h.mem, hsame.node]

/-! ## Reading -/

section Reading

variable {D : Outside → Prop} (hD : D default) {index : Nat} (halone : Alone D index) {w : World}

include halone in
/-- What a call finds of the directory is what was there. -/
theorem found_same {o : Outside} (ho : D o) : Same index w { w with disk := o.found w.disk } := by
  refine ⟨lookup_foldl_addEntry_ne (fun a ha heq => ?_) w.disk, rfl, rfl, rfl⟩
  cases heq
  exact halone o ho _ ha rfl

include halone in
theorem Peeks.same {w' : World} (h : Peeks D w w') : Same index w w' := by
  induction h with
  | refl => exact Same.refl index w
  | tail _ hlast ih =>
    obtain ⟨o, ho, rfl⟩ := hlast
    exact ih.trans (found_same halone ho)

include hD halone

/-- A call that reads: what it answers is said by its operation, and it stops only where calls
can. -/
theorem read_exact {α : Type} {op : Nat → Disk Place → Except FsError (α × Disk Place)}
    (hread : ReadOnly (atomic op)) {Q : α → World → Prop} {E : FsError → World → Prop}
    (hQ : ∀ w' now a disk, Same index w w' → op now w'.disk = .ok (a, disk) → Q a w')
    (hE : ∀ w' now e, Same index w w' →
      (op now w'.disk = .error e ∨ (e = .failed ∧ ¬ Faultless D)) → E e w') :
    Runs D w (store (atomic op)) Q E fun w' => Same index w w' ∧ ¬ Smooth D := by
  unfold store storeBy
  refine Runs.call hD fun o ho => ?_
  dsimp only
  rw [hread]
  have hsame : Same index w { w with disk := o.found w.disk } := found_same halone ho
  unfold atomic
  cases hfault : o.fs.fault with
  | none =>
    cases hop : op o.fs.now (o.found w.disk) with
    | ok r => exact hQ _ _ r.1 r.2 hsame hop
    | error e => exact hE _ o.fs.now e hsame (.inl hop)
  | fail kept =>
    exact hE _ o.fs.now _ hsame (.inr ⟨rfl, fun h => absurd hfault ((h o ho).2 kept)⟩)
  | stop kept =>
    refine ⟨hsame, fun h => ?_⟩
    rw [(h o ho).1.1] at hfault
    cases hfault

/-- A listing tells the directory. It fails only if there is none. -/
theorem listEntries_exact : Runs D w (listEntries index)
      (fun entries w' => Same index w w' ∧ Lists w' index entries)
      (fun _ => Unlisted D index w)
      fun w' => Same index w w' ∧ ¬ Smooth D := by
  have hdir : Runs D w (store (readDir (.sealed index)))
      (fun entries w' => Same index w w' ∧ ∃ dir, w'.disk.lookup (.sealed index) = some dir ∧
        entries = dir.entries.map fun e => (e.1, e.2))
      (fun _ => Unlisted D index w)
      fun w' => Same index w w' ∧ ¬ Smooth D := by
    refine read_exact hD halone readDir_readOnly ?_ ?_
    · intro w' now entries disk hsame hop
      refine ⟨hsame, ?_⟩
      cases hlookup : w'.disk.lookup (.sealed index) with
      | none =>
        rw [hlookup] at hop
        cases hop
      | some dir =>
        rw [hlookup] at hop
        cases hop
        exact ⟨dir, rfl, rfl⟩
    · intro w' now e hsame hop
      refine ⟨hsame, fun hfault => ?_⟩
      rw [← hsame.dir]
      cases hlookup : w'.disk.lookup (.sealed index) with
      | none => rfl
      | some dir =>
        have hop := hop.resolve_right fun h => h.2 hfault
        rw [hlookup] at hop
        cases hop
  refine hdir.bind fun entries w' h => ?_
  obtain ⟨hsame, dir, hlookup, rfl⟩ := h
  exact Runs.pure ⟨hsame, lists_of_lookup hlookup⟩

/-- A file is read as it is. A read fails only if there is no such file. -/
theorem readFile_exact (name : String) : Runs D w (readFile index name)
      (fun bytes w' => Same index w w' ∧
        ∃ mtime, node? w.disk (.sealed index) name = some (.file bytes mtime))
      (fun e w' => Same index w w' ∧
        (e = .notFound → node? w.disk (.sealed index) name = none) ∧ (Faultless D →
          NoFile w index name ∧ (node? w.disk (.sealed index) name = none → e = .notFound)))
      fun w' => Same index w w' ∧ ¬ Smooth D := by
  refine read_exact hD halone read_readOnly ?_ ?_
  · intro w' now bytes disk hsame hop
    rw [hsame.node] at hop
    refine ⟨hsame, ?_⟩
    cases hnode : node? w.disk (.sealed index) name with
    | none =>
      rw [hnode] at hop
      cases hop
    | some node =>
      rw [hnode] at hop
      cases node with
      | file bytes' mtime =>
        cases hop
        exact ⟨mtime, rfl⟩
      | folder id => cases hop
  · intro w' now e hsame hop
    rcases hop with hop | ⟨rfl, hfault⟩
    · rw [hsame.node] at hop
      cases hnode : node? w.disk (.sealed index) name with
      | none =>
        rw [hnode] at hop
        cases hop
        exact ⟨hsame, fun _ => rfl, fun _ => ⟨by simp [NoFile, hnode], fun _ => rfl⟩⟩
      | some node =>
        rw [hnode] at hop
        cases node with
        | file bytes' mtime => cases hop
        | folder id =>
          cases hop
          exact ⟨hsame, by simp, fun _ => ⟨by simp [NoFile, hnode], by simp⟩⟩
    · exact ⟨hsame, by simp, fun h => absurd h hfault⟩

end Reading

/-! ## Removing -/

section Removing

variable {D : Outside → Prop} (hD : D default) {index : Nat} (halone : Alone D index) {w : World}
  {ε : Type}

/-- A name is a folder, which no removal of a file takes. -/
def IsFolder (w : World) (index : Nat) (name : String) : Prop :=
  ∃ id, node? w.disk (.sealed index) name = some (.folder id)

include hD halone

theorem removeEntry_exact (name : String) : Runs D w (removeEntry index name)
      (fun _ w' => Cleared index [name] w w')
      (fun e w' => Same index w w' ∧ (e = .notFound → node? w.disk (.sealed index) name = none) ∧
        (Smooth D → e ≠ .notFound → IsFolder w index name))
      fun w' => Same index w w' ∧ ¬ Smooth D := by
  unfold removeEntry
  refine Runs.call hD fun o ho => ?_
  have hsame : Same index w { w with disk := o.found w.disk } := found_same halone ho
  have hnode := hsame.node name
  -- What a removal that does not go through leaves.
  have hrefused : ∀ ended, removeFile (.sealed index) name o.removal (o.found w.disk) =
      (ended, o.found w.disk) → ended ≠ .ok () →
      removeIn index name o w = (ended, { w with disk := o.found w.disk }) := by
    intro ended hcall hne
    cases ended with
    | ok a => exact absurd rfl hne
    | err e | stopped => rw [removeIn, hcall]
  cases hfault : o.removal.fault with
  | none =>
    cases hhere : node? (o.found w.disk) (.sealed index) name with
    | none =>
      rw [hrefused (.err .notFound) (by simp [removeFile, atomic, hfault, hhere]) (by simp)]
      exact ⟨hsame, fun _ => hnode ▸ hhere, fun _ hne => absurd rfl hne⟩
    | some node =>
      cases node with
      | folder id =>
        rw [hrefused (.err .failed) (by simp [removeFile, atomic, hfault, hhere]) (by simp)]
        exact ⟨hsame, by simp, fun _ _ => ⟨id, hnode ▸ hhere⟩⟩
      | file bytes mtime =>
        have hcall : removeFile (.sealed index) name o.removal (o.found w.disk) =
            (.ok (), del (o.found w.disk) (.sealed index) name) := by
          simp [removeFile, atomic, hfault, hhere]
        rw [removeIn, hcall]
        refine ⟨⟨fun name' => ?_, ?_⟩, rfl, rfl, rfl⟩
        · show node? (del (o.found w.disk) (.sealed index) name) (.sealed index) name' = _
          rw [node?_del, ← hsame.node name']
          simp
        · show ((del (o.found w.disk) (.sealed index) name).lookup (.sealed index)).isSome = _
          rw [lookup_del, if_pos rfl, Option.isSome_map, ← hsame.dir]
  | fail kept =>
    rw [hrefused (.err .failed) (by simp [removeFile, atomic, hfault]) (by simp)]
    refine ⟨hsame, by simp, fun hsmooth => ?_⟩
    rw [(hsmooth o ho).2.1] at hfault
    cases hfault
  | stop kept =>
    rw [hrefused .stopped (by simp [removeFile, atomic, hfault]) (by simp)]
    refine ⟨hsame, fun hsmooth => ?_⟩
    rw [(hsmooth o ho).2.1] at hfault
    cases hfault

/-- The removal loop takes the names in their order. -/
theorem removeAll_exact (names : List String) : Runs D w (removeAll index names : UploadProg ε Bool)
      (fun done w' => if done then Cleared index names w w' else
        Cut index names w w' ∧ (Smooth D → ∃ name ∈ names, IsFolder w index name))
      (fun _ _ => False)
      fun w' => Cut index names w w' ∧ ¬ Smooth D := by
  induction names generalizing w with
  | nil => exact Runs.pure (Same.refl index w).cleared
  | cons name names ih =>
    -- What is still a folder after some names went was one before.
    have hfolder : ∀ {w1 n}, Cleared index [name] w w1 → IsFolder w1 index n →
        IsFolder w index n := by
      rintro w1 n hcleared ⟨id, hid⟩
      rw [hcleared.node] at hid
      split at hid
      · cases hid
      · exact ⟨id, hid⟩
    have hrest : ∀ w1, Cleared index [name] w w1 →
        Runs D w1 (removeAll index names : UploadProg ε Bool)
          (fun done w' => if done then Cleared index (name :: names) w w' else
            Cut index (name :: names) w w' ∧ (Smooth D → ∃ n ∈ name :: names, IsFolder w index n))
          (fun _ _ => False)
          fun w' => Cut index (name :: names) w w' ∧ ¬ Smooth D := by
      intro w1 hcleared
      refine ih.mono (fun done w' h => ?_) (fun _ _ h => h)
        fun w' h => ⟨Cut.after hcleared h.1, h.2⟩
      cases done with
      | true => exact hcleared.trans h
      | false =>
        refine ⟨Cut.after hcleared h.1, fun hsmooth => ?_⟩
        obtain ⟨n, hn, hf⟩ := h.2 hsmooth
        exact ⟨n, List.mem_cons_of_mem _ hn, hfolder hcleared hf⟩
    refine Runs.attempt_bind (removeEntry_exact hD halone name) (fun _ w1 h => hrest w1 h)
      (fun e w1 h => ?_) fun _ h => ⟨Cut.none h.1, h.2⟩
    cases e with
    | notFound => exact hrest w1 (h.1.cleared_absent (h.2.1 rfl))
    | failed | invalid _ =>
      refine Runs.pure ⟨Cut.none h.1, fun hsmooth => ⟨name, List.mem_cons_self, ?_⟩⟩
      exact h.2.2 hsmooth (by simp)

/-- The directory goes only when it is empty. -/
theorem removeSegmentDir_exact : Runs D w (removeSegmentDir index)
      (fun _ w' => w'.disk.lookup (.sealed index) = none ∧ w'.memory = w.memory ∧
        (∀ name, node? w.disk (.sealed index) name = none))
      (fun _ w' => Same index w w' ∧ (Smooth D →
        w.disk.lookup (.sealed index) = none ∨ ∃ name, node? w.disk (.sealed index) name ≠ none))
      fun w' => Same index w w' ∧ ¬ Smooth D := by
  unfold removeSegmentDir storeBy
  refine Runs.call hD fun o ho => ?_
  have hsame : Same index w { w with disk := o.found w.disk } := found_same halone ho
  have hdir : (o.found w.disk).lookup (.sealed index) = w.disk.lookup (.sealed index) := hsame.dir
  unfold removeDir atomic
  cases hfault : o.removal.fault with
  | none =>
    dsimp only
    rw [hdir]
    cases hhere : w.disk.lookup (.sealed index) with
    | none => exact ⟨hsame, fun _ => .inl rfl⟩
    | some dir =>
      by_cases hempty : dir.entries = []
      · simp only [hempty, if_true]
        refine ⟨by simp, rfl, fun name => ?_⟩
        rw [node?_of_lookup hhere, ← Option.not_isSome_iff_eq_none, AList.lookup_isSome,
          AList.mem_keys]
        simp [AList.keys, hempty]
      · simp only [hempty, if_false]
        refine ⟨hsame, fun _ => .inr ?_⟩
        obtain ⟨entry, rest, hentries⟩ := List.exists_cons_of_ne_nil hempty
        refine ⟨entry.1, ?_⟩
        have hlookup : dir.lookup entry.1 = some entry.2 :=
          mem_entries_iff.mp (by simp [hentries])
        simp [node?_of_lookup hhere, hlookup]
  | fail kept | stop kept =>
    refine ⟨hsame, fun hsmooth => ?_⟩
    rw [(hsmooth o ho).2.1] at hfault
    cases hfault

omit hD halone in
theorem Cleared.noFile {w' : World} {gone : List String} {name : String}
    (h : Cleared index gone w w') (hno : NoFile w index name) : NoFile w' index name := by
  intro bytes mtime hnode
  rw [h.node] at hnode
  split at hnode
  · cases hnode
  · exact hno bytes mtime hnode

/-- A probe changes nothing, and sees in surroundings that let calls through. -/
theorem exists_exact (name : String) : Runs D w (store (exists? (.sealed index) name))
      (fun there w' => Same index w w' ∧
        (Smooth D → there = (node? w.disk (.sealed index) name).isSome))
      (fun _ _ => False) fun w' => Same index w w' := by
  unfold store storeBy
  refine Runs.call hD fun o ho => ?_
  have hsame : Same index w { w with disk := o.found w.disk } := found_same halone ho
  unfold exists? probe
  cases hfault : o.fs.fault with
  | none =>
    refine ⟨hsame, fun hsmooth => ?_⟩
    rw [(hsmooth o ho).1.2, ← hsame.node name]
    rfl
  | fail kept =>
    refine ⟨hsame, fun hsmooth => ?_⟩
    rw [(hsmooth o ho).1.1] at hfault
    cases hfault
  | stop kept => exact hsame

/-- A leftover that was seen is dropped. -/
theorem dropLeftover_exact {there : Bool} {name : String}
    (hthere : Smooth D → there = (node? w.disk (.sealed index) name).isSome) :
    Runs D w (Prog.onlyIf there (Prog.ignore (removeEntry index name)) : StoreProg Unit)
      (fun _ w' => (∃ gone, Cleared index gone w w') ∧ (Smooth D → NoFile w' index name))
      (fun _ _ => False) fun _ => True := by
  refine Runs.onlyIf (fun _ => ?_) fun hno => ?_
  · refine Runs.ignore ((removeEntry_exact hD halone name).mono ?_ ?_ fun _ _ => trivial)
    · intro _ w' h
      refine ⟨⟨_, h⟩, fun _ bytes mtime hnode => ?_⟩
      rw [h.node, if_pos List.mem_cons_self] at hnode
      cases hnode
    · intro e w' h
      refine ⟨⟨_, h.1.cleared⟩, fun hsmooth bytes mtime hnode => ?_⟩
      rw [h.1.node] at hnode
      by_cases he : e = .notFound
      · rw [h.2.1 he] at hnode
        cases hnode
      · obtain ⟨id, hid⟩ := h.2.2 hsmooth he
        rw [hid] at hnode
        cases hnode
  · refine ⟨⟨_, (Same.refl index w).cleared⟩, fun hsmooth bytes mtime hnode => ?_⟩
    have hsome := hthere hsmooth
    rw [hno, hnode] at hsome
    cases hsome

end Removing

end SolstoneWindows.Proofs.PlTransportWin
