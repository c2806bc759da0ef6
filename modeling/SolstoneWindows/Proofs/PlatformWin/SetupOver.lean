import SolstoneWindows.PlatformWin.SetupOver
import SolstoneWindows.Proofs.PlatformWin.Merge

/-!
# The restore loses nothing of the owner's

`Carries` is what one `finish` over a folder keeps, at every call: each of the owner's entries
is where it was, or has moved to the free name in the data root. `Keeps` is what follows for
the kept folders and the root; it composes, so it holds of every restore.

The condition is that no entry to be moved has its name taken in the root. The source drops
such an entry from its list without an error, and then removes the folder with it
(`finishInterruptedRestore_drops_entry`). `restore_keeps_state` is the statement for every
history in which that does not happen.
-/

set_option autoImplicit false

namespace SolstoneWindows.Proofs.PlatformWin.SetupOver

open Lib.Effect Lib.Fs
open SolstoneWindows.PlatformWin.SetupOver
open Proofs.PlatformWin (Split Sighted sighted_default probe_sighted)

/-! ## Names -/

section Names

variable {root folder : String}

theorem kept_chars : ".kept.".toList = ['.', 'k', 'e', 'p', 't', '.'] := by decide

/-- The parts around the last dot. -/
theorem rsplitDot_eq {name stem suffix : List Char} (h : rsplitDot name = some (stem, suffix)) :
    name = stem ++ '.' :: suffix := by
  induction name generalizing stem with
  | nil => cases h
  | cons c rest ih =>
    rw [rsplitDot] at h
    cases hrest : rsplitDot rest with
    | some parts =>
      rw [hrest] at h
      cases h
      rw [ih hrest, List.cons_append]
    | none =>
      rw [hrest] at h
      by_cases hc : c = '.'
      · rw [if_pos hc] at h
        cases h
        rw [hc, List.nil_append]
      · rw [if_neg hc] at h
        cases h

/-- A kept folder is not the data root: its name is longer. -/
theorem ne_root_of_kept (h : isKeptName root folder = true) : folder ≠ root := by
  rintro rfl
  have hlength := (List.isPrefixOf_iff_prefix.mp h).length_le
  simp only [asciiLowercase, List.length_map, List.length_append] at hlength
  exact absurd hlength (Nat.not_le.mpr (Nat.lt_add_of_pos_right (by decide)))

/-- The stem and the suffix of a rollback folder's name. -/
theorem rollback_parts (h : isRollbackName root folder = true) :
    ∃ stem suffix, rsplitDot folder.toList = some (stem, suffix) ∧
      asciiLowercase stem = asciiLowercase root.toList ∧ suffix.length = 16 ∧
      suffix.all Char.isAlphanum = true := by
  unfold isRollbackName at h
  split at h
  · cases h
  · rename_i stem suffix hparts
    simp only [Bool.and_eq_true, beq_iff_eq] at h
    exact ⟨stem, suffix, hparts, h.1.1, h.1.2, h.2⟩

/-- A rollback folder is not the data root. -/
theorem ne_root_of_rollback (h : isRollbackName root folder = true) : folder ≠ root := by
  rintro rfl
  obtain ⟨stem, suffix, hparts, hstem, -, -⟩ := rollback_parts h
  have hlength := congrArg List.length hstem
  have hname := congrArg List.length (rsplitDot_eq hparts)
  simp only [asciiLowercase, List.length_map, List.length_append, List.length_cons] at hlength hname
  omega

/-- Lowercase letters come from letters: a dot comes from a dot. -/
theorem toLower_eq_dot {c : Char} (h : c.toLower = '.') : c = '.' := by
  unfold Char.toLower at h
  split at h
  · rename_i hupper
    have hval := congrArg (fun c : Char => c.val.toNat) h
    have hlow := UInt32.le_iff_toNat_le.mp hupper.1
    have hhigh := UInt32.le_iff_toNat_le.mp hupper.2
    simp [UInt32.toNat_add] at hlow hhigh hval
    omega
  · exact h

/-- A rollback folder is not a kept one: there is no dot in its suffix. -/
theorem not_kept_of_rollback (h : isRollbackName root folder = true) :
    isKeptName root folder = false := by
  obtain ⟨stem, suffix, hparts, hstem, -, halnum⟩ := rollback_parts h
  rw [Bool.eq_false_iff]
  intro hkept
  have hprefix := List.isPrefixOf_iff_prefix.mp hkept
  have hname : asciiLowercase folder.toList =
      asciiLowercase root.toList ++ '.' :: asciiLowercase suffix := by
    rw [rsplitDot_eq hparts, ← hstem]
    simp [asciiLowercase]
  have hkeptName : asciiLowercase (root.toList ++ ".kept.".toList) =
      asciiLowercase root.toList ++ ['.', 'k', 'e', 'p', 't', '.'] := by
    rw [kept_chars, asciiLowercase, List.map_append, ← asciiLowercase]
    rfl
  rw [hname, hkeptName, List.prefix_append_right_inj] at hprefix
  obtain ⟨rest, hrest⟩ := hprefix
  have hdot : '.' ∈ asciiLowercase suffix := by
    have htail := (List.cons.inj hrest).2
    rw [← htail]
    simp
  obtain ⟨c, hc, hlower⟩ := List.mem_map.mp hdot
  have hdot' := toLower_eq_dot hlower
  subst hdot'
  exact absurd (List.all_eq_true.mp halnum _ hc) (by decide)

/-- The hook gives a rollback folder a kept name. -/
theorem keptName_kept {kept : String} (h : isRollbackName root folder = true)
    (hkept : keptName folder = some kept) : isKeptName root kept = true := by
  obtain ⟨stem, suffix, hparts, hstem, -, -⟩ := rollback_parts h
  rw [keptName, hparts] at hkept
  obtain rfl := Option.some.inj hkept
  refine List.isPrefixOf_iff_prefix.mpr ⟨asciiLowercase suffix, ?_⟩
  simp [asciiLowercase] at hstem ⊢
  rw [hstem]

end Names

/-! ## One folder -/

/-- An entry that is not one of Setup's own. -/
def Owner (name : String) : Prop := isVelopackEntry name = false

instance (name : String) : Decidable (Owner name) :=
  inferInstanceAs (Decidable (isVelopackEntry name = false))

/-- From `d0` to `d` the owner's entries of the folder stayed where they were, or moved to free
names of the root. Nothing else changed, but for Setup's entries in the folder. -/
structure Carries (root folder : String) (d0 d : Disk String) : Prop where
  owner : ∀ m, Owner m → Split (node? d0 folder m) (node? d0 root m) (node? d folder m)
    (node? d root m)
  velopack : ∀ m, ¬ Owner m → node? d root m = node? d0 root m
  others : ∀ k, k ≠ folder → k ≠ root → d.lookup k = d0.lookup k

variable {name rollback : String} {gone names folders : List String} {unread : String → Bool}
  {skipped : Skipped}

section Folder

variable {root folder : String} {d0 d : Disk String}

theorem carries_refl (root folder : String) (d : Disk String) : Carries root folder d d :=
  ⟨fun _ _ => .inl ⟨rfl, rfl⟩, fun _ _ => rfl, fun _ _ _ => rfl⟩

/-- Moving one of the owner's entries to a free name. -/
theorem Carries.move {node : Node} (hne : folder ≠ root) (h : Carries root folder d0 d)
    (hname : Owner name) (hthere : node? d folder name = some node)
    (hfree : node? d root name = none) (hroot : (d.lookup root).isSome) :
    Carries root folder d0 (put (del d folder name) root name node) := by
  have hroot' : ((del d folder name).lookup root).isSome := by simpa [hne.symm] using hroot
  have hnode : ∀ k m, node? (put (del d folder name) root name node) k m =
      if k = root ∧ m = name then some node
      else if k = folder ∧ m = name then none else node? d k m := by
    intro k m
    rw [node?_put _ _ _ _ _ _ hroot', node?_del]
  refine ⟨fun m hm => ?_, fun m hm => ?_, fun k hk hk' => ?_⟩
  · by_cases heq : m = name
    · subst heq
      -- It was not moved before, because its name in the root was free.
      rcases h.owner m hm with ⟨hi, hs⟩ | ⟨hsome, -, hnone, -⟩
      · refine .inr ⟨by simp [← hi, hthere], by rw [← hs, hfree], ?_, ?_⟩
        · rw [hnode, if_neg (by simp [hne]), if_pos ⟨rfl, rfl⟩]
        · rw [hnode, if_pos ⟨rfl, rfl⟩, ← hi, hthere]
      · rw [hnone] at hthere
        cases hthere
    · have hsame : ∀ k, node? (put (del d folder name) root name node) k m = node? d k m := by
        intro k
        rw [hnode, if_neg fun h => heq h.2, if_neg fun h => heq h.2]
      rw [hsame, hsame]
      exact h.owner m hm
  · have heq : m ≠ name := fun heq => hm (heq ▸ hname)
    rw [hnode, if_neg fun h => heq h.2, if_neg fun h => heq h.2]
    exact h.velopack m hm
  · rw [lookup_put, if_neg hk', lookup_del, if_neg hk]
    exact h.others k hk hk'

/-- A folder that holds nothing of the owner's can go, wholly or in part. -/
theorem Carries.clear {d' : Disk String} (hne : folder ≠ root) (h : Carries root folder d0 d)
    (hgone : ∀ m, Owner m → node? d folder m = none)
    (hfolder : ∀ m, node? d folder m = none → node? d' folder m = none)
    (hothers : ∀ k, k ≠ folder → d'.lookup k = d.lookup k) :
    Carries root folder d0 d' := by
  have hroot : ∀ m, node? d' root m = node? d root m := node?_congr (hothers root hne.symm)
  refine ⟨fun m hm => ?_, fun m hm => ?_, fun k hk hk' => ?_⟩
  · have hsame : node? d' folder m = node? d folder m := by
      rw [hgone m hm, hfolder m (hgone m hm)]
    rw [hsame, hroot]
    exact h.owner m hm
  · rw [hroot]
    exact h.velopack m hm
  · rw [hothers k hk]
    exact h.others k hk hk'

/-- An entry of the owner's that `finish` has to move: its name in the root was free. -/
def Pending (root folder : String) (d0 : Disk String) (m : String) : Prop :=
  Owner m ∧ node? d0 folder m ≠ none ∧ node? d0 root m = none

/-- The entries that were carried, and those of the folder that are gone from it. -/
def Emptied (root folder : String) (d0 : Disk String) (gone : List String) (d : Disk String) :
    Prop :=
  Carries root folder d0 d ∧ ∀ m ∈ gone, node? d folder m = none

/-- One entry moves, or stays with an error. -/
theorem moveEntry_spec (hne : folder ≠ root) (hname : Pending root folder d0 name)
    (h : Emptied root folder d0 gone d) :
    Runs Sighted d (moveEntry folder root name) (fun _ => Emptied root folder d0 (name :: gone))
      (fun _ => Emptied root folder d0 gone) (Carries root folder d0) := by
  obtain ⟨howner, hthere0, hfree0⟩ := hname
  refine Runs.bind (R := fun taken d' => d = d' ∧ taken = (node? d root name).isSome)
    (probe_sighted ⟨rfl, rfl⟩ h.1) ?_
  rintro taken _ ⟨rfl, rfl⟩
  cases hroot : node? d root name with
  | some node =>
    -- The name is taken by the entry itself, which has moved before.
    refine Runs.pure ⟨h.1, fun m hm => ?_⟩
    rcases List.mem_cons.mp hm with rfl | hm
    · rcases h.1.owner m howner with ⟨-, hs⟩ | ⟨-, -, hnone, -⟩
      · rw [hroot, hfree0] at hs
        cases hs
      · exact hnone
    · exact h.2 m hm
  | none =>
    simp only [Option.isSome_none, Bool.false_eq_true, if_false]
    refine Runs.bind (R := fun _ => Emptied root folder d0 (name :: gone)) ?_
      fun _ d h => Runs.pure h
    refine (Runs.rename sighted_default (fun node hnode hdir => ?_) h).mono (fun _ _ h => h)
      (fun _ _ h => h) fun _ h => h.1
    refine ⟨h.1.move hne howner hnode hroot hdir, fun m hm => ?_⟩
    have hdir' : ((del d folder name).lookup root).isSome := by simpa [hne.symm] using hdir
    rw [node?_put _ _ _ _ _ _ hdir', if_neg (by simp [hne]), node?_del]
    rcases List.mem_cons.mp hm with rfl | hm
    · simp
    · rw [h.2 m hm]
      simp

/-- One pass: what is not left with an error has moved. -/
theorem movePass_spec (hne : folder ≠ root) (hnames : ∀ m ∈ names, Pending root folder d0 m)
    (h : Emptied root folder d0 gone d) :
    Runs Sighted d (movePass folder root names) (fun pass d => Emptied root folder d0 gone d ∧
        (∀ m ∈ names, m ∈ pass.2.map Prod.fst ∨ node? d folder m = none) ∧
        ∀ m ∈ pass.2.map Prod.fst, m ∈ names)
      (fun _ => Carries root folder d0) (Carries root folder d0) := by
  induction names generalizing d gone with
  | nil => exact Runs.pure ⟨h, by simp, by simp⟩
  | cons name names ih =>
    have hrest := fun m hm => hnames m (List.mem_cons_of_mem name hm)
    refine Runs.attempt_bind (moveEntry_spec hne (hnames name List.mem_cons_self) h) ?_ ?_
      fun _ h => h
    · intro moved d h
      refine Runs.bind (ih hrest h) ?_
      rintro rest d ⟨⟨hcarries, hgone⟩, hleft, hsub⟩
      refine Runs.pure ⟨⟨hcarries, fun m hm => hgone m (List.mem_cons_of_mem _ hm)⟩,
        fun m hm => ?_, fun m hm => List.mem_cons_of_mem _ (hsub m hm)⟩
      rcases List.mem_cons.mp hm with rfl | hm
      · exact .inr (hgone m List.mem_cons_self)
      · exact hleft m hm
    · intro e d h
      refine Runs.bind (ih hrest h) ?_
      rintro rest d ⟨hcarries, hleft, hsub⟩
      -- The errors of the pass are this one and the ones of the rest.
      have herrors : (((name, e) :: rest.2).map Prod.fst) = name :: rest.2.map Prod.fst := rfl
      refine Runs.pure ⟨hcarries, fun m hm => ?_, fun m hm => ?_⟩
      · rw [herrors]
        rcases List.mem_cons.mp hm with rfl | hm
        · exact .inl List.mem_cons_self
        · rcases hleft m hm with hmem | hnone
          · exact .inl (List.mem_cons_of_mem _ hmem)
          · exact .inr hnone
      · rw [herrors] at hm
        rcases List.mem_cons.mp hm with rfl | hm
        · exact List.mem_cons_self
        · exact List.mem_cons_of_mem _ (hsub m hm)

/-- The passes together: when no error is left, every entry has moved. -/
theorem moveLoop_spec (hne : folder ≠ root) (tries moved : Nat)
    (hnames : ∀ m ∈ names, Pending root folder d0 m) (h : Emptied root folder d0 gone d) :
    Runs Sighted d (moveLoop folder root tries names moved)
      (fun restored d => Carries root folder d0 d ∧
        (restored.failed = [] → ∀ m ∈ names ++ gone, node? d folder m = none))
      (fun _ => Carries root folder d0) (Carries root folder d0) := by
  -- A pass without an error has moved every entry.
  have hdone : ∀ {names gone : List String} {d : Disk String} {failed : List (String × FsError)},
      (∀ m ∈ gone, node? d folder m = none) →
      (∀ m ∈ names, m ∈ failed.map Prod.fst ∨ node? d folder m = none) →
      failed = [] → ∀ m ∈ names ++ gone, node? d folder m = none := by
    rintro names gone d _ hgone hleft rfl
    exact List.forall_mem_append.mpr
      ⟨fun m hm => (hleft m hm).resolve_left List.not_mem_nil, hgone⟩
  induction tries generalizing d names gone moved with
  | zero =>
    refine Runs.bind (movePass_spec hne hnames h) ?_
    rintro pass d ⟨⟨hcarries, hgone⟩, hleft, -⟩
    exact Runs.pure ⟨hcarries, hdone hgone hleft⟩
  | succ tries ih =>
    refine Runs.bind (movePass_spec hne hnames h) ?_
    rintro pass d ⟨⟨hcarries, hgone⟩, hleft, hsub⟩
    by_cases hpass : pass.2 = []
    · rw [if_pos hpass]
      exact Runs.pure ⟨hcarries, fun _ => hdone hgone hleft hpass⟩
    · rw [if_neg hpass]
      -- What has moved in this pass is gone for the next ones.
      have hmoved : ∀ m ∈ gone ++ names.filter (fun m => m ∉ pass.2.map Prod.fst),
          node? d folder m = none := by
        refine List.forall_mem_append.mpr ⟨hgone, fun m hm => ?_⟩
        obtain ⟨hmem, hnot⟩ := List.mem_filter.mp hm
        exact (hleft m hmem).resolve_left (of_decide_eq_true hnot)
      refine (ih _ (fun m hm => hnames m (hsub m hm)) ⟨hcarries, hmoved⟩).weaken ?_
      rintro restored d ⟨hcarries, hall⟩
      refine ⟨hcarries, fun hnone m hm => hall hnone m ?_⟩
      rcases List.mem_append.mp hm with hm | hm
      · by_cases hin : m ∈ pass.2.map Prod.fst
        · exact List.mem_append_left _ hin
        · refine List.mem_append_right _ (List.mem_append_right _ (List.mem_filter.mpr ⟨hm, ?_⟩))
          exact decide_eq_true hin
      · exact List.mem_append_right _ (List.mem_append_left _ hm)

/-- The condition of a restore over a folder: no entry of the owner's in it has its name taken
in the root. -/
def Free (root folder : String) (d : Disk String) : Prop :=
  ∀ m, Owner m → node? d folder m ≠ none → node? d root m = none

/-- When the listing is complete and no name is taken, a restore with no error has moved
everything of the owner's. -/
theorem moveState_spec (hne : folder ≠ root) (tries : Nat)
    (hread : ∀ m, unread m = false) (hfree : Free root folder d) :
    Runs Sighted d (moveState folder root tries unread)
      (fun restored d' => Carries root folder d d' ∧
        (restored.failed = [] → ∀ m, Owner m → node? d' folder m = none))
      (fun _ => Carries root folder d) (Carries root folder d) := by
  have hrefl := carries_refl root folder d
  refine Runs.attempt_bind (Q := fun entries d' => d = d' ∧
    ∀ m, m ∈ entries.map Prod.fst ↔ node? d folder m ≠ none) (Runs.readDir sighted_default
      (fun dir hdir => ⟨rfl, fun m => ?_⟩) hrefl) ?_ (fun _ _ h => Runs.pure ⟨h, by simp⟩)
    fun _ h => h
  · -- A listing names the entries there are.
    rw [node?_of_lookup hdir, List.map_map, ← Option.isSome_iff_ne_none, AList.lookup_isSome,
      AList.mem_keys]
    rfl
  rintro entries _ ⟨rfl, hlisted⟩
  have hnames : ∀ m ∈ ownerEntries unread entries, Pending root folder d m := by
    intro m hm
    obtain ⟨hmem, howner⟩ := List.mem_filter.mp hm
    have howner' : Owner m := by
      simp only [hread m, Bool.not_false, Bool.true_and, Bool.not_eq_true'] at howner
      exact howner
    have hthere := (hlisted m).mp hmem
    exact ⟨howner', hthere, hfree m howner' hthere⟩
  have hnone : ∀ m ∈ ([] : List String), node? d folder m = none := by simp
  refine (moveLoop_spec hne tries 0 hnames ⟨hrefl, hnone⟩).weaken ?_
  rintro restored d' ⟨hcarries, hall⟩
  refine ⟨hcarries, fun hfailed m hm => ?_⟩
  by_cases hthere : node? d folder m = none
  · -- What was not there is not there.
    rcases hcarries.owner m hm with ⟨hi, -⟩ | ⟨hsome, -⟩
    · rw [hi, hthere]
    · exact absurd hthere hsome
  · refine hall hfailed m (List.mem_append_left _ (List.mem_filter.mpr
      ⟨(hlisted m).mpr hthere, ?_⟩))
    simp [hread m, show isVelopackEntry m = false from hm]

/-- A whole `finish` carries the owner's entries. -/
theorem finish_spec (hne : folder ≠ root) (tries : Nat)
    (hread : ∀ m, unread m = false) (hfree : Free root folder d) :
    Ends Sighted d (finish folder root tries unread) (Carries root folder d) := by
  refine Runs.bind (moveState_spec hne tries hread hfree) ?_
  rintro restored d' ⟨hcarries, hall⟩
  refine Runs.bind (R := fun _ => Carries root folder d) (Runs.onlyIf (fun hempty => ?_)
    fun _ => hcarries) fun _ _ h => Runs.pure h
  have hgone := hall (List.isEmpty_iff.mp hempty)
  -- Nothing of the owner's is left, so it does not matter how far the removal gets.
  have hcut : ∀ dir gone, d'.lookup folder = some dir →
      Carries root folder d (putDir d' folder (dir.without gone)) := by
    intro dir gone hdir
    refine hcarries.clear hne hgone (fun m hm => ?_) fun k hk => by simp [hk]
    rw [node?_of_lookup hdir] at hm
    rw [node?_putDir, if_pos rfl, dir_lookup_without, hm, ite_self]
  have hdone : Carries root folder d (delDir d' folder) :=
    hcarries.clear hne hgone (fun m _ => by simp) fun k hk => by simp [hk]
  exact Runs.ignore (Runs.removeTree sighted_default (fun _ => hdone) hcut hcarries)

end Folder

/-! ## All folders -/

/-- From `d0` to `d` every entry of the owner's in a kept folder stayed there or moved to a free
name of the root, and every entry of the root stayed. -/
structure Keeps (root : String) (d0 d : Disk String) : Prop where
  kept : ∀ folder m node, isKeptName root folder = true → Owner m → node? d0 folder m = some node →
    node? d folder m = some node ∨ (node? d0 root m = none ∧ node? d root m = some node)
  root : ∀ m node, node? d0 root m = some node → node? d root m = some node

/-- The condition of a launch: no entry of the owner's in a kept folder has its name taken, in
the root or in another kept folder. -/
structure Separate (root : String) (d : Disk String) : Prop where
  free : ∀ folder, isKeptName root folder = true → Free root folder d
  apart : ∀ folder folder' m, isKeptName root folder = true → isKeptName root folder' = true →
    folder ≠ folder' → Owner m → node? d folder m ≠ none → node? d folder' m = none

section All

variable {root folder : String} {d0 d d' : Disk String}

theorem keeps_refl (root : String) (d : Disk String) : Keeps root d d :=
  ⟨fun _ _ _ _ _ h => .inl h, fun _ _ h => h⟩

theorem Keeps.trans (h : Keeps root d0 d) (h' : Keeps root d d') : Keeps root d0 d' := by
  refine ⟨fun folder m node hkept howner hnode => ?_, fun m node hnode => h'.root m node
    (h.root m node hnode)⟩
  rcases h.kept folder m node hkept howner hnode with hstays | ⟨hfree, hmoved⟩
  · rcases h'.kept folder m node hkept howner hstays with hstays' | ⟨hfree', hmoved'⟩
    · exact .inl hstays'
    · refine .inr ⟨?_, hmoved'⟩
      -- Free later means free before: the root keeps its entries.
      cases hbefore : node? d0 root m with
      | none => rfl
      | some other =>
        rw [h.root m other hbefore] at hfree'
        cases hfree'
  · exact .inr ⟨hfree, h'.root m node hmoved⟩

/-- What a folder carries, the root and the kept folders keep. -/
theorem Carries.keeps (h : Carries root folder d0 d) : Keeps root d0 d := by
  refine ⟨fun folder' m node hkept howner hnode => ?_, fun m node hnode => ?_⟩
  · by_cases heq : folder' = folder
    · subst heq
      rcases h.owner m howner with ⟨hi, -⟩ | ⟨-, hfree, -, hmoved⟩
      · exact .inl (hi.trans hnode)
      · exact .inr ⟨hfree, hmoved.trans hnode⟩
    · refine .inl ?_
      rw [node?, h.others folder' heq (ne_root_of_kept hkept)]
      exact hnode
  · by_cases howner : Owner m
    · rcases h.owner m howner with ⟨-, hs⟩ | ⟨-, hfree, -, -⟩
      · exact hs.trans hnode
      · rw [hfree] at hnode
        cases hnode
    · exact (h.velopack m howner).trans hnode

/-- A restore over one kept folder leaves the names of the others free. -/
theorem Carries.separate (hfolder : isKeptName root folder = true)
    (h : Carries root folder d0 d) (hsep : Separate root d0) : Separate root d := by
  -- No folder gains an entry.
  have hless : ∀ folder' m, isKeptName root folder' = true → Owner m →
      node? d folder' m ≠ none → node? d0 folder' m ≠ none := by
    intro folder' m hkept howner hthere
    by_cases heq : folder' = folder
    · subst heq
      rcases h.owner m howner with ⟨hi, -⟩ | ⟨-, -, hnone, -⟩
      · rwa [← hi]
      · exact absurd hnone hthere
    · rwa [node?, h.others folder' heq (ne_root_of_kept hkept)] at hthere
  refine ⟨fun folder' hkept m howner hthere => ?_,
    fun folder1 folder2 m hkept1 hkept2 hne howner hthere => ?_⟩
  · have hthere0 := hless folder' m hkept howner hthere
    rcases h.owner m howner with ⟨-, hs⟩ | ⟨hsome, -, hgone, -⟩
    · rw [hs]
      exact hsep.free folder' hkept m howner hthere0
    · -- The entry that moved to this name came from `folder`, so no other folder has it.
      by_cases heq : folder' = folder
      · subst heq
        exact absurd hgone hthere
      · exact absurd (hsep.apart folder folder' m hfolder hkept (Ne.symm heq) howner hsome) hthere0
  · by_contra hboth
    exact hless folder2 m hkept2 howner hboth (hsep.apart folder1 folder2 m hkept1 hkept2 hne howner
      (hless folder1 m hkept1 howner hthere))

/-- The kept folders are found, and nothing changes. -/
theorem keptFolders_spec : Runs Sighted d (keptFolders root skipped)
      (fun folders d' => d = d' ∧ ∀ folder ∈ folders, isKeptName root folder = true)
      (fun _ d' => d = d') (d = ·) := by
  have hdirs : ∀ folders : List String, (∀ folder ∈ folders, isKeptName root folder = true) →
      Runs Sighted d (onlyDirs folders)
        (fun found d' => d = d' ∧ ∀ folder ∈ found, isKeptName root folder = true)
        (fun _ d' => d = d') (d = ·) := by
    intro folders hfolders
    induction folders with
    | nil => exact Runs.pure ⟨rfl, by simp⟩
    | cons folder folders ih =>
      refine Runs.bind (R := fun _ d' => d = d')
        (Runs.probe sighted_default rfl (fun _ => rfl) rfl) ?_
      rintro isDir _ rfl
      refine Runs.bind (ih fun folder' h => hfolders folder' (List.mem_cons_of_mem _ h)) ?_
      rintro rest _ ⟨rfl, hrest⟩
      refine Runs.pure ⟨rfl, fun folder' hmem => ?_⟩
      cases isDir with
      | false => exact hrest folder' hmem
      | true =>
        rcases List.mem_cons.mp hmem with rfl | hmem
        · exact hfolders folder' List.mem_cons_self
        · exact hrest folder' hmem
  refine Runs.attempt_bind (Q := fun _ d' => d = d') (Runs.listDirs sighted_default rfl rfl) ?_
    (fun _ _ h => Runs.pure ⟨h, by simp⟩) fun _ h => h
  rintro folders _ rfl
  refine hdirs _ fun folder hmem => ?_
  have hboth := (List.mem_filter.mp hmem).2
  simp only [Bool.and_eq_true] at hboth
  exact hboth.2

/-- One folder after the other. -/
theorem finishAll_spec (hread : ∀ folder m, skipped.unread folder m = false)
    (hfolders : ∀ folder ∈ folders, isKeptName root folder = true)
    (hkeeps : Keeps root d0 d) (hsep : Separate root d) :
    Ends Sighted d (finishAll root skipped folders) (Keeps root d0) := by
  induction folders generalizing d with
  | nil => exact Runs.pure hkeeps
  | cons folder folders ih =>
    have hfolder := hfolders folder List.mem_cons_self
    refine Runs.bind ((finish_spec (ne_root_of_kept hfolder) 0 (hread folder)
      (hsep.free folder hfolder)).loosen fun _ h => hkeeps.trans h.keeps) ?_
    intro this d' hcarries
    refine Runs.bind (ih (fun folder' h => hfolders folder' (List.mem_cons_of_mem _ h))
      (hkeeps.trans hcarries.keeps) (hcarries.separate hfolder hsep)) ?_
    exact fun rest d'' h => Runs.pure h

/-- A launch keeps the owner's state. -/
theorem finishInterruptedRestore_spec (hread : ∀ folder m, skipped.unread folder m = false)
    (hsep : Separate root d) :
    Ends Sighted d (finishInterruptedRestore root skipped) (Keeps root d) := by
  refine Runs.bind (keptFolders_spec.loosen fun _ h => h ▸ keeps_refl root d) ?_
  rintro folders _ ⟨rfl, hfolders⟩
  exact finishAll_spec hread hfolders (keeps_refl root d) hsep

/-! ## The hook -/

/-- From `d0` to `d` every entry of the owner's in a rollback folder stayed there, is in the kept
folder it was renamed to, or moved to a free name of the root. -/
def Rescued (root : String) (d0 d : Disk String) : Prop :=
  ∀ rollback m node, isRollbackName root rollback = true → Owner m →
    node? d0 rollback m = some node →
    node? d rollback m = some node ∨
      (∃ kept, keptName rollback = some kept ∧ node? d kept m = some node) ∨
      (node? d0 root m = none ∧ node? d root m = some node)

/-- The folder the hook chooses has a rollback name, and nothing changes. -/
theorem newestOf_spec {newest : Option (Nat × String)}
    (hnewest : ∀ best, newest = some best → isRollbackName root best.2 = true) :
    Runs Sighted d (newestOf root skipped folders newest)
      (fun found d' => d = d' ∧ ∀ best, found = some best → isRollbackName root best.2 = true)
      (fun _ d' => d = d') (d = ·) := by
  induction folders generalizing newest with
  | nil => exact Runs.pure ⟨rfl, hnewest⟩
  | cons folder folders ih =>
    refine Runs.bind (R := fun _ d' => d = d')
      (Runs.probe sighted_default rfl (fun _ => rfl) rfl) ?_
    rintro isDir _ rfl
    by_cases hskip : (!isDir || !isRollbackName root folder) = true
    · rw [if_pos hskip]
      exact ih hnewest
    rw [if_neg hskip]
    have hname : isRollbackName root folder = true := by
      simp only [Bool.or_eq_true, Bool.not_eq_true', not_or, Bool.not_eq_false] at hskip
      exact hskip.2
    refine Runs.bind (R := fun _ d' => d = d') ?_ ?_
    · exact Runs.attempt_bind (Q := fun _ d' => d = d') (Runs.readDir sighted_default
        (fun _ _ => rfl) rfl) (fun _ _ h => Runs.pure h) (fun _ _ h => Runs.pure h) fun _ h => h
    rintro state _ rfl
    by_cases hstate : (!state) = true
    · rw [if_pos hstate]
      exact ih hnewest
    rw [if_neg hstate]
    refine Runs.bind (R := fun _ d' => d = d') ?_ ?_
    · exact Runs.attempt_bind (Q := fun _ d' => d = d') (Runs.atomic sighted_default
        (fun _ _ _ hop => by cases hop; rfl) rfl) (fun _ _ h => Runs.pure h)
        (fun _ _ h => Runs.pure h) fun _ h => h
    rintro time _ rfl
    by_cases hlater : (newest.all fun best => decide (time > best.1)) = true
    · rw [if_pos hlater]
      refine ih fun best hbest => ?_
      obtain rfl := Option.some.inj hbest
      exact hname
    · rw [if_neg hlater]
      exact ih hnewest

theorem newestRollbackWithState_spec : Runs Sighted d (newestRollbackWithState root skipped)
      (fun found d' => d = d' ∧ ∀ rollback, found = some rollback →
        isRollbackName root rollback = true)
      (fun _ d' => d = d') (d = ·) := by
  refine Runs.attempt_bind (Q := fun _ d' => d = d') (Runs.listDirs sighted_default rfl rfl) ?_
    (fun _ _ h => Runs.pure ⟨h, by simp⟩) fun _ h => h
  rintro folders _ rfl
  refine Runs.bind (newestOf_spec fun _ hbest => by cases hbest) ?_
  rintro newest _ ⟨rfl, hnewest⟩
  refine Runs.pure ⟨rfl, fun rollback hfound => ?_⟩
  obtain ⟨best, hbest, rfl⟩ := Option.map_eq_some_iff.mp hfound
  exact hnewest best hbest

/-- The rollback folder is now at the kept name. -/
structure Renamed (rollback kept : String) (d0 d : Disk String) : Prop where
  fresh : d0.lookup kept = none
  moved : ∀ m, node? d kept m = node? d0 rollback m
  others : ∀ k, k ≠ rollback → k ≠ kept → d.lookup k = d0.lookup k

theorem renameLoop_spec {kept : String} (tries : Nat) :
    Runs Sighted d (renameLoop rollback kept tries)
      (fun renamed d' => if renamed then Renamed rollback kept d d' else d = d')
      (fun _ d' => d = d') (d = ·) := by
  have hrename : Runs Sighted d (Prog.call (renameDir rollback kept))
      (fun _ => Renamed rollback kept d) (fun _ d' => d = d') (d = ·) := by
    refine Runs.renameDir sighted_default (fun dir hdir hfresh => ?_) rfl
    refine ⟨hfresh, fun m => ?_, fun k hk hk' => ?_⟩
    · rw [node?_putDir, if_pos rfl, node?_of_lookup hdir]
    · simp [hk, hk']
  induction tries with
  | zero =>
    exact Runs.attempt_bind hrename (fun _ _ h => Runs.pure h) (fun _ _ h => Runs.pure h)
      fun _ h => h
  | succ tries ih =>
    exact Runs.attempt_bind hrename (fun _ _ h => Runs.pure h) (fun _ _ h => h ▸ ih) fun _ h => h

/-- A renamed folder keeps the kept folders and the root, and its entries are rescued. -/
theorem Renamed.carried {kept : String} (hrollback : isRollbackName root rollback = true)
    (hkept : keptName rollback = some kept) (h : Renamed rollback kept d0 d)
    (hcarries : Carries root kept d d') : Keeps root d0 d' ∧ Rescued root d0 d' := by
  have hkeptName := keptName_kept hrollback hkept
  have hroot : ∀ m, node? d root m = node? d0 root m := node?_congr
    (h.others root (ne_root_of_rollback hrollback).symm (ne_root_of_kept hkeptName).symm)
  have hkeeps : Keeps root d0 d := by
    refine ⟨fun folder m node hfolder _ hnode => .inl ?_, fun m node hnode => ?_⟩
    · -- A kept folder of before is neither the rollback folder nor the new one.
      have hne : folder ≠ rollback := by
        rintro rfl
        rw [not_kept_of_rollback hrollback] at hfolder
        cases hfolder
      have hne' : folder ≠ kept := by
        rintro rfl
        rw [node?, h.fresh] at hnode
        cases hnode
      rw [node?, h.others folder hne hne']
      exact hnode
    · rw [hroot]
      exact hnode
  refine ⟨hkeeps.trans hcarries.keeps, fun rollback' m node hname howner hnode => ?_⟩
  by_cases heq : rollback' = rollback
  · subst heq
    rcases hcarries.owner m howner with ⟨hi, -⟩ | ⟨-, hfree, -, hmoved⟩
    · exact .inr (.inl ⟨kept, hkept, by rw [hi, h.moved, hnode]⟩)
    · exact .inr (.inr ⟨by rw [← hroot, hfree], by rw [hmoved, h.moved, hnode]⟩)
  have hne : rollback' ≠ kept := by
    rintro rfl
    rw [not_kept_of_rollback hname] at hkeptName
    cases hkeptName
  refine .inl ?_
  rw [node?, hcarries.others rollback' hne (ne_root_of_rollback hname), h.others rollback' heq hne]
  exact hnode

/-- A restore from where Setup left the folder rescues its entries. -/
theorem Carries.rescued (hrollback : isRollbackName root rollback = true)
    (h : Carries root rollback d0 d) : Keeps root d0 d ∧ Rescued root d0 d := by
  refine ⟨h.keeps, fun rollback' m node hname howner hnode => ?_⟩
  by_cases heq : rollback' = rollback
  · subst heq
    rcases h.owner m howner with ⟨hi, -⟩ | ⟨-, hfree, -, hmoved⟩
    · exact .inl (hi.trans hnode)
    · exact .inr (.inr ⟨hfree, hmoved.trans hnode⟩)
  · refine .inl ?_
    rw [node?, h.others rollback' heq (ne_root_of_rollback hname)]
    exact hnode

/-- The hook keeps the owner's state, and rescues what is in the rollback folder. -/
theorem restoreWithin_spec (keepTries tries : Nat)
    (hread : ∀ folder m, skipped.unread folder m = false)
    (hfree : ∀ rollback, isRollbackName root rollback = true → Free root rollback d) :
    Ends Sighted d (restoreWithin root keepTries tries skipped)
      (fun d' => Keeps root d d' ∧ Rescued root d d') := by
  have hrefl : Keeps root d d ∧ Rescued root d d := ⟨keeps_refl root d, fun _ _ _ _ _ => .inl⟩
  refine Runs.bind (newestRollbackWithState_spec.loosen fun _ h => h ▸ hrefl) ?_
  rintro found _ ⟨rfl, hfound⟩
  match found, hfound with
  | none, _ => exact Runs.pure hrefl
  | some rollback, hfound =>
    have hrollback := hfound rollback rfl
    have hne := ne_root_of_rollback hrollback
    -- Where the state stays in the rollback folder, the restore goes on from there.
    have hstay : Ends Sighted d (finish rollback root tries (skipped.unread rollback))
        (fun d' => Keeps root d d' ∧ Rescued root d d') :=
      (finish_spec hne tries (hread rollback) (hfree rollback hrollback)).imp
        fun _ h => h.rescued hrollback
    refine Runs.bind (R := fun folder d' => (folder = rollback ∧ d = d') ∨
      (keptName rollback = some folder ∧ Renamed rollback folder d d')) ?_ ?_
    · cases hkept : keptName rollback with
      | none =>
        simp only [keepOutOfSetupsReach, hkept]
        exact Runs.pure (.inl ⟨rfl, rfl⟩)
      | some kept =>
        simp only [keepOutOfSetupsReach, hkept]
        have hkeptName := keptName_kept hrollback hkept
        have hne' : kept ≠ rollback := by
          rintro rfl
          rw [not_kept_of_rollback hrollback] at hkeptName
          cases hkeptName
        refine Runs.bind ((renameLoop_spec keepTries).loosen fun _ h => h ▸ hrefl)
          fun renamed d' h => ?_
        cases renamed with
        | false =>
          have hsame : d = d' := h
          exact Runs.pure (.inl ⟨rfl, hsame⟩)
        | true =>
          have hrenamed : Renamed rollback kept d d' := h
          have hdone := hrenamed.carried hrollback hkept (carries_refl root kept d')
          -- The empty folder left for Setup changes nothing of this.
          refine Runs.bind (R := fun _ => Renamed rollback kept d) (Runs.ignore ((Runs.createDir
            sighted_default (fun hnone => ?_) (fun _ => hrenamed) rfl).mono (fun _ _ h => h)
              (fun _ _ heq => heq ▸ hrenamed) fun _ heq => heq ▸ hdone))
            fun _ d' h => Runs.pure (.inr ⟨rfl, h⟩)
          exact ⟨hrenamed.fresh, fun m => by simp [hne', hrenamed.moved],
            fun k hk hk' => by simp [hk, hrenamed.others k hk hk']⟩
    · rintro folder d' (⟨rfl, rfl⟩ | ⟨hkept, hrenamed⟩)
      · exact hstay
      · have hkeptName := keptName_kept hrollback hkept
        have hfreeKept : Free root folder d' := by
          intro m howner hthere
          rw [hrenamed.moved] at hthere
          rw [node?, hrenamed.others root hne.symm (ne_root_of_kept hkeptName).symm]
          exact hfree rollback hrollback m howner hthere
        exact (finish_spec (ne_root_of_kept hkeptName) tries (hread folder) hfreeKept).imp
          fun _ h => hrenamed.carried hrollback hkept h

/-! ## Histories -/

/-- A restore that meets the condition: the probes see, the listing of a folder yields every
entry, and no entry of the owner's that is to be moved has its name taken. Any call may fail, and
the process may stop at any of them. -/
inductive Restores (root : String) : Disk String → Disk String → Prop
  | hook (d : Disk String) (verdicts : List Verdict) (keepTries tries : Nat)
      (skipped : Skipped) (hsighted : ∀ v ∈ verdicts, Sighted v)
      (hread : ∀ folder m, skipped.unread folder m = false)
      (hfree : ∀ rollback, isRollbackName root rollback = true → Free root rollback d) :
      Restores root d ((restoreWithin root keepTries tries skipped).final verdicts d)
  | launch (d : Disk String) (verdicts : List Verdict) (skipped : Skipped)
      (hsighted : ∀ v ∈ verdicts, Sighted v) (hread : ∀ folder m, skipped.unread folder m = false)
      (hsep : Separate root d) :
      Restores root d ((finishInterruptedRestore root skipped).final verdicts d)

/-- One step of an install's history: a restore, or whatever the running app and Setup do, which
leave the kept folders alone. -/
inductive HistoryStep (root : String) : Disk String → Disk String → Prop
  | restore {d d' : Disk String} (h : Restores root d d') : HistoryStep root d d'
  | other {d d' : Disk String}
      (h : ∀ folder, isKeptName root folder = true → d'.lookup folder = d.lookup folder) :
      HistoryStep root d d'

theorem Restores.keeps (h : Restores root d d') : Keeps root d d' := by
  cases h with
  | hook verdicts keepTries tries skipped hsighted hread hfree =>
    exact ((restoreWithin_spec keepTries tries hread hfree).final hsighted).1
  | launch verdicts skipped hsighted hread hsep =>
    exact (finishInterruptedRestore_spec hread hsep).final hsighted

/-- An entry of a kept folder has moved to its own name in the root: a restore of the history
found the name free and put the entry there. -/
def Returned (root folder m : String) (node : Node) (d0 d : Disk String) : Prop :=
  ∃ d1 d2, Relation.ReflTransGen (HistoryStep root) d0 d1 ∧ Restores root d1 d2 ∧
    Relation.ReflTransGen (HistoryStep root) d2 d ∧ node? d1 folder m = some node ∧
    node? d1 root m = none ∧ node? d2 root m = some node

/-- What one step does to an entry that is still in its kept folder. -/
theorem HistoryStep.kept {m : String} {node : Node}
    (hrun : Relation.ReflTransGen (HistoryStep root) d0 d) (hstep : HistoryStep root d d')
    (hkept : isKeptName root folder = true) (howner : Owner m)
    (hnode : node? d folder m = some node) :
    node? d' folder m = some node ∨ Returned root folder m node d0 d' := by
  cases hstep with
  | other hsame =>
    rw [node?, hsame folder hkept]
    exact .inl hnode
  | restore hrestores =>
    rcases hrestores.keeps.kept folder m node hkept howner hnode with hstays | ⟨hfree, hmoved⟩
    · exact .inl hstays
    · exact .inr ⟨d, d', hrun, hrestores, .refl, hnode, hfree, hmoved⟩

/-- In a history whose restores meet the condition, an entry of the owner's in a kept folder stays
there until it is back in the root under its own name, no restore replaces an entry of the root,
and what the hook does not move back it leaves in the rollback folder or the kept one. -/
theorem restore_keeps_state (root : String) (d0 d : Disk String)
    (hrun : Relation.ReflTransGen (HistoryStep root) d0 d) :
    (∀ folder m node, isKeptName root folder = true → Owner m → node? d0 folder m = some node →
      node? d folder m = some node ∨ Returned root folder m node d0 d) ∧
    (∀ d' m node, Restores root d d' → node? d root m = some node → node? d' root m = some node) ∧
    (∀ verdicts keepTries tries (skipped : Skipped), (∀ v ∈ verdicts, Sighted v) →
      (∀ folder m, skipped.unread folder m = false) →
      (∀ rollback, isRollbackName root rollback = true → Free root rollback d) →
      Rescued root d ((restoreWithin root keepTries tries skipped).final verdicts d)) := by
  refine ⟨fun folder m node hkept howner hnode => ?_, fun d' m node hrestores hnode =>
    hrestores.keeps.root m node hnode, fun verdicts keepTries tries skipped hsighted hread
    hfree => ((restoreWithin_spec keepTries tries hread hfree).final hsighted).2⟩
  -- By induction on the history: the entry leaves its folder at one step at most.
  induction hrun with
  | refl => exact .inl hnode
  | tail hrun hstep ih =>
    rcases ih with hstays | ⟨d1, d2, hbefore, hrestores, hafter, hreturned⟩
    · exact hstep.kept hrun hkept howner hstays
    · exact .inr ⟨d1, d2, hbefore, hrestores, hafter.tail hstep, hreturned⟩

end All

/-- Every entry can be read. -/
def listed : Skipped := ⟨fun _ => false, fun _ _ => false, fun _ _ => false⟩

/-- An install whose hook moved nothing back: the state is in the kept folder. -/
def interrupted : Disk String := Disk.of
  [("Solstone", [("Solstone.exe", .file [1] 0)]),
   ("Solstone.kept.0123456789abcdef", [("config.json", .file [123, 125] 0)])]

theorem interrupted_separate : Separate "Solstone" interrupted := by
  -- The two entries have different names.
  have hall : ∀ k m, Owner m → node? interrupted k m ≠ none →
      k = "Solstone.kept.0123456789abcdef" ∧ m = "config.json" := by
    intro k m howner hthere
    obtain ⟨node, hnode⟩ := Option.ne_none_iff_exists'.mp hthere
    obtain ⟨entries, hdir, hentry⟩ := mem_of_node?_disk_of hnode
    simp only [List.mem_cons, Prod.mk.injEq, List.not_mem_nil, or_false] at hdir
    rcases hdir with ⟨rfl, rfl⟩ | ⟨rfl, rfl⟩
    · obtain ⟨rfl, rfl⟩ := Prod.mk.inj (List.mem_singleton.mp hentry)
      exact absurd howner (by decide)
    · obtain ⟨rfl, rfl⟩ := Prod.mk.inj (List.mem_singleton.mp hentry)
      exact ⟨rfl, rfl⟩
  refine ⟨fun folder _ m howner hthere => ?_, fun folder folder' m _ _ hne howner hthere => ?_⟩
  · obtain ⟨-, rfl⟩ := hall folder m howner hthere
    decide
  · by_contra hthere'
    exact hne ((hall folder m howner hthere).1.trans (hall folder' m howner hthere').1.symm)

/-- The launch after an interrupted hook moves the configuration back. -/
theorem restore_keeps_state_launch :
    node? interrupted "Solstone.kept.0123456789abcdef" "config.json" = some (.file [123, 125] 0) ∧
      Returned "Solstone" "Solstone.kept.0123456789abcdef" "config.json" (.file [123, 125] 0)
        interrupted ((finishInterruptedRestore "Solstone" listed).final [] interrupted) := by
  have hlaunch : Restores "Solstone" interrupted _ :=
    .launch interrupted [] listed (by simp) (fun _ _ => rfl) interrupted_separate
  refine ⟨by decide, ?_⟩
  rcases (restore_keeps_state "Solstone" interrupted _ (.single (.restore hlaunch))).1
    "Solstone.kept.0123456789abcdef" "config.json" (.file [123, 125] 0) (by decide) (by decide)
    (by decide) with hstays | hreturned
  · exact absurd hstays (by decide)
  · exact hreturned

/-- An install that Setup has just run over: the old root is the rollback folder. -/
def setUpOver : Disk String := Disk.of
  [("Solstone", [("Solstone.exe", .file [1] 0)]),
   ("Solstone.0123456789abcdef", [("logs", .folder 1), ("config.json", .file [123, 125] 0)])]

/-- In the hook's three passes every rename of `logs` fails, and no other call does. -/
def logsHeldOpen : List Verdict :=
  List.replicate 9 default ++ [⟨.fail 0, false, 0⟩] ++ List.replicate 3 default ++
    [⟨.fail 0, false, 0⟩, default, ⟨.fail 0, false, 0⟩]

/-- The hook could not move `logs`, which a scanner held open: it stays in the kept folder for the
next launch. The app then starts a log of its own. That launch, in which no call fails, counts the
kept `logs` as neither moved nor failed, and removes the kept folder with it. -/
theorem finishInterruptedRestore_drops_entry :
    let kept := "Solstone.kept.0123456789abcdef"
    let afterHook := (restoreWithin "Solstone" 0 2 listed).final logsHeldOpen setUpOver
    let afterStart := put afterHook "Solstone" "logs" (.folder 2)
    let afterLaunch := (finishInterruptedRestore "Solstone" listed).final [] afterStart
    node? setUpOver "Solstone.0123456789abcdef" "logs" = some (.folder 1) ∧
      node? afterHook kept "logs" = some (.folder 1) ∧
      node? afterStart kept "logs" = some (.folder 1) ∧
      afterLaunch.lookup kept = none ∧ node? afterLaunch "Solstone" "logs" = some (.folder 2) := by
  decide +kernel

end SolstoneWindows.Proofs.PlatformWin.SetupOver
