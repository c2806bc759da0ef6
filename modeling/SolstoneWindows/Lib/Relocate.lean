import SolstoneWindows.Lib.Disk

/-!
# Directories that move as a whole

A program moves whole directories, and changes in them only files that do not count. `Relocated`
says where each directory went: no two went to one place, and every file that counts is in the new
place with its content. `Unadded` is the other direction: what counts on the later disk was on the
earlier one.
-/

set_option autoImplicit false

namespace Lib.Fs

variable {κ : Type} [DecidableEq κ]

/-- The directory at `k` is at `place k` now, with every file that counts. -/
structure Relocated (counts : String → Prop) (d d' : Disk κ) (place : κ → κ) : Prop where
  there : ∀ k, (d.lookup k).isSome → (d'.lookup (place k)).isSome
  injective : ∀ k k', (d.lookup k).isSome → (d.lookup k').isSome → place k = place k' → k = k'
  node : ∀ k name node, counts name → node? d k name = some node →
    node? d' (place k) name = some node

/-- Every file that counts came from where its directory was. -/
def Unadded (counts : String → Prop) (d d' : Disk κ) (place : κ → κ) : Prop :=
  ∀ k' name node, counts name → node? d' k' name = some node →
    ∃ k, place k = k' ∧ node? d k name = some node

section

variable {counts : String → Prop} {d d' d'' : Disk κ} {place place' : κ → κ}

/-- No directory moved. -/
theorem relocated_id (hthere : ∀ k, (d.lookup k).isSome → (d'.lookup k).isSome)
    (hnode : ∀ k name node, counts name → node? d k name = some node →
      node? d' k name = some node) : Relocated counts d d' id :=
  ⟨hthere, fun _ _ _ _ h => h, hnode⟩

theorem unadded_id (hnode : ∀ k name node, counts name → node? d' k name = some node →
    node? d k name = some node) : Unadded counts d d' id :=
  fun k name node hname h => ⟨k, rfl, hnode k name node hname h⟩

theorem Relocated.trans (h : Relocated counts d d' place) (h' : Relocated counts d' d'' place') :
    Relocated counts d d'' (place' ∘ place) := by
  refine ⟨fun k hk => h'.there _ (h.there k hk), fun k1 k2 h1 h2 heq => ?_, ?_⟩
  · exact h.injective k1 k2 h1 h2 (h'.injective _ _ (h.there k1 h1) (h.there k2 h2) heq)
  · intro k name node hname hnode
    exact h'.node _ name node hname (h.node k name node hname hnode)

theorem Unadded.trans (h : Unadded counts d d' place) (h' : Unadded counts d' d'' place') :
    Unadded counts d d'' (place' ∘ place) := by
  intro k'' name node hname hnode
  obtain ⟨k', rfl, hnode'⟩ := h' k'' name node hname hnode
  obtain ⟨k, rfl, hnode''⟩ := h k' name node hname hnode'
  exact ⟨k, rfl, hnode''⟩

/-- One directory moves to a free place. -/
theorem relocated_move {k k' : κ} {dir : Dir} (hdir : d.lookup k = some dir)
    (hfree : d.lookup k' = none) :
    Relocated counts d (putDir (delDir d k) k' dir) (Function.update id k k') := by
  have hne : ∀ k1, (d.lookup k1).isSome → k1 ≠ k' := by
    intro k1 h1 heq
    rw [heq, hfree] at h1
    cases h1
  refine ⟨fun k1 h1 => ?_, fun k1 k2 h1 h2 heq => ?_, fun k1 name node _ hnode => ?_⟩
  · by_cases hk : k1 = k
    · subst hk
      simp
    · rw [Function.update_of_ne hk]
      simp [hk, h1, hne k1 h1]
  · -- the place was free, so nothing else is there
    by_cases hk1 : k1 = k
    · by_cases hk2 : k2 = k
      · rw [hk1, hk2]
      · rw [hk1, Function.update_self, Function.update_of_ne hk2] at heq
        exact absurd heq.symm (hne k2 h2)
    · by_cases hk2 : k2 = k
      · rw [hk2, Function.update_self, Function.update_of_ne hk1] at heq
        exact absurd heq (hne k1 h1)
      · rwa [Function.update_of_ne hk1, Function.update_of_ne hk2] at heq
  · have hthere : (d.lookup k1).isSome := by
      cases hlookup : d.lookup k1 with
      | none => rw [node?, hlookup] at hnode; cases hnode
      | some _ => rfl
    by_cases hk : k1 = k
    · subst hk
      rw [node?_of_lookup hdir] at hnode
      simp [hnode]
    · rw [Function.update_of_ne hk]
      simp [hk, hnode, hne k1 hthere]

theorem unadded_move {k k' : κ} {dir : Dir} (hdir : d.lookup k = some dir) :
    Unadded counts d (putDir (delDir d k) k' dir) (Function.update id k k') := by
  intro k1 name node _ hnode
  by_cases hk' : k1 = k'
  · rw [node?_putDir, if_pos hk'] at hnode
    exact ⟨k, by rw [Function.update_self, hk'], by rw [node?_of_lookup hdir, hnode]⟩
  · rw [node?_putDir, if_neg hk', node?_delDir] at hnode
    split at hnode
    · cases hnode
    · rename_i hk
      exact ⟨k1, by rw [Function.update_of_ne hk]; rfl, hnode⟩

end

end Lib.Fs
