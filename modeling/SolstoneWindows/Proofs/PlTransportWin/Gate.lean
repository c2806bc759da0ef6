import SolstoneWindows.Proofs.PlTransportWin.Cleanup

/-!
# The gate at a directory nobody adds to

In a directory nobody adds to, the gate does nothing, or it takes a first part of its list of
names, or the whole directory is gone (`tryGateDelete_exact`). The list is the covered media, then
the sidecars that belong to the segment's key when no media stays, then the markers.
-/

set_option autoImplicit false

namespace SolstoneWindows.Proofs.PlTransportWin

open Lib.Effect Lib.Fs Relation
open ObserverPl.Ingest
open SolstoneWindows.PlTransportWin
open SolstoneWindows.PlatformWin (Place LEN_FILE_NAME AUDIO_SOURCES_FILE_NAME)

/-! ## The gate -/

/-- The names the gate removes, in their order. -/
def gateNames (matched : List String) (uncovered : Bool) : List String :=
  matched ++ (if uncovered then [] else [LEN_FILE_NAME, AUDIO_SOURCES_FILE_NAME]) ++
    [UPLOADED_MARKER, UPLOADED_TMP_MARKER]

theorem mem_sidecars {name : String} (h : isMedia name = false) :
    name ∈ [LEN_FILE_NAME, AUDIO_SOURCES_FILE_NAME, UPLOADED_MARKER, UPLOADED_TMP_MARKER] := by
  simp only [isMedia, Bool.and_eq_false_iff, bne_eq_false_iff_eq] at h
  simp only [List.mem_cons, List.not_mem_nil, or_false]
  tauto

/-- What the gate makes of a directory of files: the media that is covered, and whether some is
not. -/
structure Weighed (lib : Libraries) (expected : List AckFile) (w : World) (index : Nat)
    (matched : List String) (uncovered : Bool) : Prop where
  there : (w.disk.lookup (.sealed index)).isSome
  files : ∀ name, ¬ IsFolder w index name
  matched_iff : ∀ name, name ∈ matched ↔ isMedia name = true ∧ ∃ bytes mtime,
    node? w.disk (.sealed index) name = some (.file bytes mtime) ∧ CoveredBy lib expected name bytes
  uncovered_iff : uncovered = true ↔ ∃ name bytes mtime, isMedia name = true ∧
    node? w.disk (.sealed index) name = some (.file bytes mtime) ∧
      ¬ CoveredBy lib expected name bytes

/-- The gate did nothing, or took a first part of its names. -/
def GateCut (lib : Libraries) (index : Nat) (expected : List AckFile) (w w' : World) : Prop :=
  Same index w w' ∨ ∃ matched uncovered, Weighed lib expected w index matched uncovered ∧
    Cut index (gateNames matched uncovered) w w'

section Weighed

variable {lib : Libraries} {expected : List AckFile} {w : World} {index : Nat}
  {matched : List String}

theorem Weighed.same {w' : World} {uncovered : Bool} (hsame : Same index w w')
    (h : Weighed lib expected w index matched uncovered) :
    Weighed lib expected w' index matched uncovered := by
  refine ⟨hsame.dir ▸ h.there, ?_, ?_, ?_⟩
  · rintro name ⟨id, hid⟩
    exact h.files name ⟨id, hsame.node name ▸ hid⟩
  · intro name
    rw [h.matched_iff, hsame.node]
  · rw [h.uncovered_iff]
    simp only [hsame.node]

/-- When no media stays, the gate's names are all there is. -/
theorem Weighed.all (h : Weighed lib expected w index matched false) {name : String}
    (hname : node? w.disk (.sealed index) name ≠ none) : name ∈ gateNames matched false := by
  cases hmedia : isMedia name with
  | false =>
    rw [gateNames, List.append_assoc]
    exact List.mem_append_right _ (mem_sidecars hmedia)
  | true =>
    refine List.mem_append_left _ (List.mem_append_left _ ((h.matched_iff name).mpr ⟨hmedia, ?_⟩))
    cases hnode : node? w.disk (.sealed index) name with
    | none => exact absurd hnode hname
    | some node =>
      cases node with
      | folder id => exact absurd ⟨id, hnode⟩ (h.files name)
      | file bytes mtime =>
        refine ⟨bytes, mtime, rfl, ?_⟩
        by_contra hbad
        exact absurd (h.uncovered_iff.mpr ⟨name, bytes, mtime, hmedia, hnode, hbad⟩) nofun

/-- A check of the media of a listed directory weighs it. -/
theorem weighed_of_checked {w' : World} {entries : List DirEntryFact} {uncovered : Bool}
    (hsame : Same index w w') (hlists : Lists w' index entries)
    (hfiles : entries.any (!·.isFile) = false)
    (hchecked : Checked lib w' index expected (entries.filter (isMedia ·.name)) matched uncovered) :
    Weighed lib expected w index matched uncovered := by
  have hentry : ∀ {name node}, node? w.disk (.sealed index) name = some node →
      entryFact (name, node) ∈ entries := by
    intro name node hnode
    exact (hlists.mem _).mpr ⟨node, (hsame.node name).trans hnode, rfl⟩
  have hmedia : ∀ {name node}, node? w.disk (.sealed index) name = some node →
      isMedia name = true → entryFact (name, node) ∈ entries.filter (isMedia ·.name) :=
    fun hnode hm => List.mem_filter.mpr ⟨hentry hnode, hm⟩
  refine ⟨hsame.dir ▸ hlists.there, ?_, ?_, ?_⟩
  · rintro name ⟨id, hnode⟩
    have hfile := List.any_eq_false.mp hfiles _ (hentry hnode)
    exact absurd rfl hfile
  · intro name
    constructor
    · intro hname
      obtain ⟨entry, hmem, rfl⟩ := List.mem_map.mp (hchecked.sublist.subset hname)
      obtain ⟨bytes, mtime, hnode, hcovered⟩ := hchecked.covered _ hname
      refine ⟨by simpa using List.of_mem_filter hmem, bytes, mtime, ?_, hcovered⟩
      rw [← hsame.node, hnode]
    · rintro ⟨hm, bytes, mtime, hnode, hcovered⟩
      exact hchecked.taken _ (hmedia hnode hm) bytes mtime ((hsame.node name).trans hnode) hcovered
  · rw [hchecked.rest]
    constructor
    · rintro ⟨entry, hmem, bytes, mtime, hnode, hbad⟩
      refine ⟨entry.name, bytes, mtime, by simpa using List.of_mem_filter hmem, ?_, hbad⟩
      rw [← hsame.node, hnode]
    · rintro ⟨name, bytes, mtime, hm, hnode, hbad⟩
      exact ⟨_, hmedia hnode hm, bytes, mtime, (hsame.node name).trans hnode, hbad⟩

/-- Two listings of one directory show the same media. -/
theorem sameMedia_of_lists {w1 w2 : World} {entries recheck : List DirEntryFact}
    (hsame : Same index w1 w2) (h1 : Lists w1 index entries) (h2 : Lists w2 index recheck) :
    sameMedia (entries.filter (isMedia ·.name)) (recheck.filter (isMedia ·.name)) = true := by
  have hmem : ∀ e, e ∈ entries ↔ e ∈ recheck := by
    intro e
    rw [h1.mem, h2.mem, hsame.node]
  have hperm : recheck.Perm entries :=
    (List.perm_ext_iff_of_nodup h2.nodup.of_map h1.nodup.of_map).mpr fun e => (hmem e).symm
  unfold sameMedia
  rw [(hperm.filter _).length_eq, beq_self_eq_true, Bool.true_and, List.all_eq_true]
  intro e he
  refine List.any_eq_true.mpr ⟨e, (hperm.filter _).mem_iff.mp he, ?_⟩
  simp

end Weighed

section Gate

variable {lib : Libraries} {D : Outside → Prop} (hD : D default) {index : Nat}
  (halone : Alone D index) {w : World} {expected : List AckFile}

include hD halone

/-- The media of a listing is read while it is there. -/
theorem checkMedia_exact (media : List DirEntryFact) :
    Runs D w (checkMedia lib index expected media) (fun _ w' => Same index w w')
      (fun _ w' => Same index w w' ∧ (Faultless D → ∃ entry ∈ media,
        NoFile w index entry.name))
      fun w' => Same index w w' ∧ ¬ Smooth D := by
  induction media generalizing w with
  | nil => exact Runs.pure (Same.refl index w)
  | cons entry media ih =>
    refine Runs.bind (R := fun _ w' => Same index w w') ?_ fun bytes w1 hw1 => ?_
    · refine (readFile_exact hD halone entry.name).mono (fun _ _ h => h.1) (fun _ _ h => ?_)
        fun _ h => h
      exact ⟨h.1, fun hfault => ⟨entry, List.mem_cons_self, (h.2.2 hfault).1⟩⟩
    · refine Runs.bind (R := fun _ w' => Same index w w') ?_ fun r w2 hw2 => ?_
      · refine ih.mono (fun _ _ h => hw1.trans h) (fun _ _ h => ?_)
          fun _ h => ⟨hw1.trans h.1, h.2⟩
        refine ⟨hw1.trans h.1, fun hfault => ?_⟩
        obtain ⟨e, he, hbad⟩ := h.2 hfault
        exact ⟨e, List.mem_cons_of_mem _ he, fun b m => hw1.node e.name ▸ hbad b m⟩
      · dsimp only
        split <;> exact Runs.pure hw2

/-- The removals of the gate, in a directory it has weighed. -/
theorem gateRemove_exact {matched : List String} {uncovered : Bool}
    (hweighed : Weighed lib expected w index matched uncovered) :
    Runs D w (gateRemove index matched uncovered) (fun r w' => match r with
        | .deleted => uncovered = false ∧ w'.disk.lookup (.sealed index) = none ∧
          w'.memory = w.memory
        | .partially => uncovered = true ∧ Cleared index (gateNames matched uncovered) w w'
        | .blocked => Cut index (gateNames matched uncovered) w w' ∧ ¬ Smooth D
        | .stopped => False)
      (fun _ _ => False)
      fun w' => Cut index (gateNames matched uncovered) w w' ∧ ¬ Smooth D := by
  refine (removeAll_exact hD halone (gateNames matched uncovered)).bind fun done w1 hdone => ?_
  cases done with
  | false =>
    refine Runs.pure ⟨hdone.1, fun hsmooth => ?_⟩
    obtain ⟨name, -, hfolder⟩ := hdone.2 hsmooth
    exact hweighed.files name hfolder
  | true =>
    have hcleared : Cleared index (gateNames matched uncovered) w w1 := hdone
    have hcut : ∀ {w'}, Same index w1 w' → Cut index (gateNames matched uncovered) w w' := by
      intro w' hsame
      refine ⟨gateNames matched uncovered, [], (List.append_nil _).symm, ?_⟩
      simpa using hcleared.trans hsame.cleared
    cases uncovered with
    | true => exact Runs.pure ⟨rfl, hcleared⟩
    | false =>
      refine Runs.attempt_bind (removeSegmentDir_exact hD halone)
        (fun _ w' h => Runs.pure ⟨rfl, h.1, h.2.1.trans hcleared.memory⟩) (fun _ w' h => ?_)
        fun w' h => ⟨hcut h.1, h.2⟩
      refine Runs.pure ⟨hcut h.1, fun hsmooth => ?_⟩
      -- The directory was there, and nothing is left in it.
      rcases h.2 hsmooth with hnone | ⟨name, hname⟩
      · have hthere := hcleared.dir.trans hweighed.there
        rw [hnone] at hthere
        cases hthere
      · rw [hcleared.node] at hname
        split at hname
        · exact hname rfl
        · rename_i hout
          exact hout (hweighed.all hname)

/-- What the gate does to a directory that nobody adds to. -/
theorem tryGateDelete_exact : Runs D w (tryGateDelete lib index expected) (fun r w' => match r with
        | .stopped => Same index w w' ∧ ∃ name, IsFolder w index name
        | .deleted => (∃ matched, Weighed lib expected w index matched false) ∧
          w'.disk.lookup (.sealed index) = none ∧ w'.memory = w.memory
        | .partially => ∃ matched, Weighed lib expected w index matched true ∧
          Cleared index (gateNames matched true) w w'
        | .blocked => (∃ matched uncovered, Weighed lib expected w index matched uncovered ∧
          Cut index (gateNames matched uncovered) w w') ∧ ¬ Smooth D)
      (fun _ => Unlisted D index w)
      fun w' => GateCut lib index expected w w' ∧ ¬ Smooth D := by
  have hlist : ∀ w1, Same index w w1 → Runs D w1 (listEntries index)
      (fun entries w' => Same index w1 w' ∧ Lists w' index entries)
      (fun _ => Unlisted D index w)
      fun w' => GateCut lib index expected w w' ∧ ¬ Smooth D := by
    intro w1 hw1
    refine (listEntries_exact hD halone).mono (fun _ _ h => h) (fun _ _ h => ?_)
      fun _ h => ⟨.inl (hw1.trans h.1), h.2⟩
    exact ⟨hw1.trans h.1, fun hfault => hw1.dir ▸ h.2 hfault⟩
  refine (hlist w (Same.refl index w)).bind fun entries w1 h1 => ?_
  obtain ⟨hw1, hlists⟩ := h1
  -- A folder among the entries ends it.
  have hfolder : ∀ {w' found}, Same index w w' → Lists w' index found →
      found.any (!·.isFile) = true → ∃ name, IsFolder w index name := by
    intro w' found hsame hfound hany
    obtain ⟨entry, hentry, hfile⟩ := List.any_eq_true.mp hany
    obtain ⟨node, hnode, heq⟩ := (hfound.mem entry).mp hentry
    rw [hsame.node] at hnode
    rw [heq] at hfile
    cases node with
    | file bytes mtime => cases hfile
    | folder id => exact ⟨entry.name, id, hnode⟩
  cases hany : entries.any (!·.isFile) with
  | true => exact Runs.pure ⟨hw1, hfolder hw1 hlists hany⟩
  | false =>
    simp only [Bool.false_eq_true, if_false]
    have hcheck : Runs D w1 (checkMedia lib index expected (entries.filter (isMedia ·.name)))
        (fun r w' => Same index w w' ∧
          Checked lib w' index expected (entries.filter (isMedia ·.name)) r.1 r.2)
        (fun _ => Unlisted D index w)
        fun w' => GateCut lib index expected w w' ∧ ¬ Smooth D := by
      refine ((checkMedia_peeks hD hlists.filter).and (checkMedia_exact hD halone _)).mono ?_ ?_ ?_
      · intro r w' h
        exact ⟨hw1.trans h.2, h.1.2⟩
      · intro e w' h
        refine ⟨hw1.trans h.2.1, fun hfault => ?_⟩
        -- Every entry was a file, and still is.
        obtain ⟨entry, hentry, hbad⟩ := h.2.2 hfault
        obtain ⟨node, hnode, heq⟩ := hlists.filter entry hentry
        cases node with
        | file bytes mtime => exact absurd hnode (hbad bytes mtime)
        | folder id =>
          have hfile := List.any_eq_false.mp hany entry (List.mem_of_mem_filter hentry)
          rw [heq] at hfile
          exact absurd rfl hfile
      · intro w' h
        exact ⟨.inl (hw1.trans h.2.1), h.2.2⟩
    refine hcheck.bind fun r w2 h2 => ?_
    obtain ⟨matched, uncovered⟩ := r
    obtain ⟨hw2, hchecked⟩ := h2
    refine (hlist w2 hw2).bind fun recheck w3 h3 => ?_
    obtain ⟨hw3, hlists3⟩ := h3
    have hw := hw2.trans hw3
    split
    · rename_i hany3
      exact Runs.pure ⟨hw, hfolder hw hlists3 hany3⟩
    have hw12 : Same index w1 w2 :=
      ⟨hw2.dir.trans hw1.dir.symm, hw2.memory.trans hw1.memory.symm,
        hw2.identity.trans hw1.identity.symm, hw2.zone.trans hw1.zone.symm⟩
    rw [sameMedia_of_lists (hw12.trans hw3) hlists hlists3]
    have hweighed : Weighed lib expected w index matched uncovered :=
      weighed_of_checked hw2 (hlists.same hw12) hany hchecked
    refine (gateRemove_exact hD halone (hweighed.same hw)).mono ?_ (fun _ _ h => h.elim) ?_
    · intro r w' h
      match r, h with
      | .deleted, h =>
        cases h.1
        exact ⟨⟨matched, hweighed⟩, h.2.1, h.2.2.trans hw.memory⟩
      | .partially, h =>
        cases h.1
        exact ⟨matched, hweighed, hw.cleared.trans h.2⟩
      | .blocked, h => exact ⟨⟨matched, uncovered, hweighed, Cut.before hw h.1⟩, h.2⟩
      | .stopped, h => exact h.elim
    · intro w' h
      exact ⟨.inr ⟨matched, uncovered, hweighed, Cut.before hw h.1⟩, h.2⟩

end Gate

end SolstoneWindows.Proofs.PlTransportWin
