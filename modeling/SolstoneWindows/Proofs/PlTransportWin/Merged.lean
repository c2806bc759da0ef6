import SolstoneWindows.Proofs.PlatformWin.Merge
import SolstoneWindows.Proofs.PlTransportWin.Removal

/-!
# Recordings merged into an uploaded segment

A recording can come in after its segment was uploaded: the seal moves it into a sealed directory
that holds a marker (`PlatformWin.Merge`). The local finish passes that follow prove nothing new,
so what they remove rests on that marker alone. `merged_media_stays` joins the two sides: a
recording the marker does not cover stays, unless the marker is a legacy one and no older than the
recording. In that case the rule on times takes it (`merged_older_media_removed`).
-/

set_option autoImplicit false

namespace SolstoneWindows.Proofs.PlTransportWin

open Lib.Effect Lib.Fs Relation
open SolstoneWindows.PlTransportWin
open SolstoneWindows.PlatformWin (Place sealOrMerge)
open Proofs.PlatformWin (Fresh Payload Safe Sighted held_refl sealOrMerge_custody)

/-! ## Passes that ask no journal -/

/-- One step of a history without uploads. -/
inductive FinishStep (lib : Libraries) (D : Outside → Prop) : World → World → Prop
  | finished {w : World} {ds : List Outside} (periodSecs now : Nat) (hds : ∀ o ∈ ds, D o) :
    FinishStep lib D w ((localFinish lib periodSecs now : UploadProg RouteError Unit).final ds w)
  | restarted {w : World} : FinishStep lib D w { w with memory := {} }
  | paired {w : World} (identity : JournalIdentity) :
    FinishStep lib D w { w with identity := identity }

/-- What a local finish pass may do. -/
def finishing (lib : Libraries) (D : Outside → Prop) : Rules where
  outside := D
  touches _ := True
  posts _ := False
  setsAside _ := False
  releases _ := False
  removes w index name := Reason lib .marked w index name ∨ Reason lib .legacy w index name
  acks _ _ _ := False

/-- Nobody else puts a marker into the directory. -/
def Unmarking (index : Nat) (o : Outside) : Prop :=
  ∀ a ∈ o.added, ¬ (a.index = index ∧ a.name = UPLOADED_MARKER)

/-! ## One change -/

/-- A file that no marker of its directory speaks for. -/
structure Unspoken (lib : Libraries) (index : Nat) (disk : Disk Place) (name : String)
    (bytes : List UInt8) (mtime : Nat) : Prop where
  /-- No acknowledgement there names it with its size and digest. -/
  unlisted : ∀ marker markerTime ack,
    node? disk (.sealed index) UPLOADED_MARKER = some (.file marker markerTime) →
    UploadAck.fromBytes lib marker = some ack →
    ¬ ∃ file ∈ ack.files, file.submitted = name ∧ file.size = bytes.length ∧
      file.sha256 = lib.sha256Hex bytes
  /-- A legacy marker there is older. -/
  newer : ∀ marker markerTime,
    node? disk (.sealed index) UPLOADED_MARKER = some (.file marker markerTime) →
    UploadAck.fromBytes lib marker = none → isStructured marker = false → markerTime < mtime

/-- The file is in place and still unspoken for. -/
structure InPlace (lib : Libraries) (index : Nat) (name : String) (bytes : List UInt8) (mtime : Nat)
    (disk : Disk Place) : Prop extends Unspoken lib index disk name bytes mtime where
  there : node? disk (.sealed index) name = some (.file bytes mtime)

section OneChange

variable {lib : Libraries} {index : Nat} {name : String} {bytes : List UInt8} {mtime : Nat}
  {w w' : World}

/-- A marker that was there before, or none, speaks for no more. -/
theorem Unspoken.of_marker {disk disk' : Disk Place} (h : Unspoken lib index disk name bytes mtime)
    (hmarker : ∀ node, node? disk' (.sealed index) UPLOADED_MARKER = some node →
      node? disk (.sealed index) UPLOADED_MARKER = some node) :
    Unspoken lib index disk' name bytes mtime :=
  ⟨fun marker stamp ack hnode => h.unlisted marker stamp ack (hmarker _ hnode),
    fun marker stamp hnode => h.newer marker stamp (hmarker _ hnode)⟩

/-- No ground takes a file that no marker speaks for. -/
theorem InPlace.no_reason (h : InPlace lib index name bytes mtime w.disk) :
    ¬ (Reason lib .marked w index name ∨ Reason lib .legacy w index name) := by
  rintro (⟨bytes', mtime', hnode, marker, stamp, ack, hmarker, hack, -, file, hfile, hcovers⟩ |
    ⟨bytes', mtime', hnode, marker, stamp, hmarker, hack, hplain, hle⟩)
  · rw [h.there] at hnode
    cases hnode
    simp only [AckFile.covers, Bool.and_eq_true, beq_iff_eq] at hcovers
    exact h.unlisted marker stamp ack hmarker hack
      ⟨file, hfile, hcovers.1.1.1.1, hcovers.1.1.1.2, hcovers.1.1.2⟩
  · rw [h.there] at hnode
    cases hnode
    exact absurd (h.newer marker stamp hmarker hack hplain) (Nat.not_lt.mpr hle)

/-- The file stays through anything a local finish pass may do. -/
theorem Change.inPlace {D : Outside → Prop} (hD : ∀ o, D o → Unmarking index o)
    (hmedia : isMedia name = true) (hname : name ≠ REFUSED_BY_MARKER)
    (h : InPlace lib index name bytes mtime w.disk)
    (hchange : Change lib (finishing lib D) w w') : InPlace lib index name bytes mtime w'.disk := by
  have hswept : isSwept name = false := by
    unfold isSwept
    rw [Bool.or_eq_false_iff, beq_eq_false_iff_ne, beq_eq_false_iff_ne]
    refine ⟨?_, hname⟩
    rintro rfl
    exact absurd hmedia (by decide)
  cases hchange with
  | @found o ho =>
    refine ⟨h.toUnspoken.of_marker fun node hnode => ?_, node?_foldl_addEntry _ h.there⟩
    rcases node?_foldl_addEntry_cases hnode with hnode | ⟨a, ha, hplace, hmark, -⟩
    · exact hnode
    · cases hplace
      exact absurd ⟨rfl, hmark.symm⟩ (hD o ho a ha)
  | @removed i n _ _ _ hmay =>
    refine ⟨h.toUnspoken.of_marker fun node hnode => ?_, ?_⟩
    · rw [node?_removing] at hnode
      split at hnode
      · cases hnode
      · exact hnode
    · rw [node?_removing, if_neg]
      · exact h.there
      -- It is no leftover and no sidecar, and there is no ground to take it.
      rintro ⟨hplace, rfl⟩
      cases hplace
      rcases hmay with hmay | ⟨-, hmay | hmay⟩
      · rw [hswept] at hmay
        cases hmay
      · rw [hmedia] at hmay
        cases hmay
      · exact InPlace.no_reason h hmay
  | @removedDir i dir htouch hdir hempty =>
    have hne : Place.sealed index ≠ .sealed i := by
      intro heq
      have hthere := h.there
      rw [heq, node?_of_lookup hdir] at hthere
      have hmem := mem_entries_iff.mpr hthere
      rw [hempty] at hmem
      cases hmem
    refine ⟨h.toUnspoken.of_marker fun node hnode => ?_, ?_⟩
    · rwa [node?_delDir, if_neg hne] at hnode
    · rw [node?_delDir, if_neg hne]
      exact h.there
  | @scratched i n htouch hscratch b t =>
    refine ⟨h.toUnspoken.of_marker fun node hnode => ?_, ?_⟩
    · rwa [node?_put_ne (fun h => swept_ne_marker hscratch h.2)] at hnode
    · rw [node?_put_ne]
      · exact h.there
      rintro ⟨-, rfl⟩
      rw [hswept] at hscratch
      cases hscratch
  | acked _ hack _ => exact hack.elim
  | setAside _ haside _ _ => exact haside.elim
  | released hrelease _ _ _ => exact hrelease.elim
  | posted hpost => exact hpost.elim
  | _ => exact h

/-- A local finish pass leaves what is not sealed alone. -/
theorem Change.elsewhere_kept {D : Outside → Prop} {k : Place} (hk : ∀ i, k ≠ .sealed i)
    (hchange : Change lib (finishing lib D) w w') : w'.disk.lookup k = w.disk.lookup k := by
  cases hchange with
  | found ho => exact lookup_foldl_addEntry_ne (fun a _ => hk a.index) w.disk
  | removed _ _ => simp [removing, hk]
  | removedDir _ _ _ | scratched _ _ _ _ => simp [hk]
  | acked _ hack _ => exact hack.elim
  | setAside _ haside _ _ => exact haside.elim
  | released hrelease _ _ _ => exact hrelease.elim
  | posted hpost => exact hpost.elim
  | rezoned _ | remembered _ | listed | counted _ => rfl

end OneChange

/-! ## Any number of passes -/

section Passes

variable {lib : Libraries} {index : Nat} {name : String} {bytes : List UInt8} {mtime : Nat}
  {w w' : World}

/-- What every change of a pass keeps, every pass keeps. -/
theorem FinishStep.keeps {D : Outside → Prop} (hD : D default) {P : Disk Place → Prop}
    (hP : ∀ w w', P w.disk → Change lib (finishing lib D) w w' → P w'.disk)
    (h : FinishStep lib D w w') (hw : P w.disk) : P w'.disk := by
  cases h with
  | @finished ds periodSecs now hds =>
    have hpath : Path lib (finishing lib D) w
        ((localFinish lib periodSecs now : UploadProg RouteError Unit).final ds w) :=
      (localFinish_along hD fun _ => ⟨trivial, fun _ _ => Or.inl, fun _ _ => Or.inr⟩).final hds
    exact reflTransGen_invariant (I := fun w : World => P w.disk) (fun _ _ => hP _ _) hw hpath
  | restarted | paired identity => exact hw

/-- A recording that comes in by a merge stays on disk where the merge put it, through any number
of local finish passes, if in the sealed directory no acknowledgement lists it and a legacy marker
is older. The merge may fail or stop anywhere, as long as its probes see, and so may the passes.
Nobody else puts a marker into the directory. -/
theorem merged_media_stays {periodSecs : Nat} {verdicts : List Verdict} {d0 : Disk Place}
    (hsighted : ∀ v ∈ verdicts, Sighted v) (hmedia : isMedia name = true)
    (hname : name ≠ REFUSED_BY_MARKER)
    (hincoming : node? d0 (.incomplete index) name = some (.file bytes mtime))
    (hmerged : w.disk = (sealOrMerge index periodSecs).final verdicts d0)
    (hunspoken : Unspoken lib index w.disk name bytes mtime)
    (hrun : ReflTransGen (FinishStep lib (Unmarking index)) w w') :
    (∀ k, Fresh index d0 name k → node? w.disk k name = some (.file bytes mtime) →
      node? w'.disk k name = some (.file bytes mtime)) ∧
    (Payload name → ∃ k, Fresh index d0 name k ∧
      node? w'.disk k name = some (.file bytes mtime)) := by
  have hdefault : Unmarking index default := nofun
  have hkeeps : ∀ k, Fresh index d0 name k → node? w.disk k name = some (.file bytes mtime) →
      node? w'.disk k name = some (.file bytes mtime) := by
    intro k hfresh hnode
    by_cases hsealed : k = .sealed index
    · subst hsealed
      have hplace : InPlace lib index name bytes mtime w'.disk := by
        refine reflTransGen_invariant (I := fun w : World =>
          InPlace lib index name bytes mtime w.disk) ?_ ⟨hunspoken, hnode⟩ hrun
        intro w1 w2 h hstep
        exact hstep.keeps hdefault (fun _ _ => Change.inPlace (fun _ ho => ho) hmedia hname) h
      exact hplace.there
    · have hother : ∀ i, k ≠ .sealed i := by
        rintro i rfl
        rcases hfresh with h | ⟨h, -⟩ | ⟨q, h, -⟩
        · cases h
        · exact hsealed h
        · cases h
      have hlookup : w'.disk.lookup k = w.disk.lookup k := by
        refine reflTransGen_invariant (I := fun w' : World =>
          w'.disk.lookup k = w.disk.lookup k) ?_ rfl hrun
        intro w1 w2 h hstep
        exact hstep.keeps (P := fun disk => disk.lookup k = w.disk.lookup k) hdefault
          (fun _ _ h hchange => (Change.elsewhere_kept hother hchange).trans h) h
      rw [node?, hlookup]
      exact hnode
  refine ⟨hkeeps, fun hpayload => ?_⟩
  have hsafe : Safe Payload index d0 w.disk := by
    rw [hmerged]
    exact (sealOrMerge_custody (fun _ h => h) periodSecs (held_refl Payload index d0).safe).final
      hsighted
  obtain ⟨k, hfresh, hnode, -⟩ := hsafe.one_place hpayload hincoming
  exact ⟨k, hfresh, hkeeps k hfresh hnode⟩

end Passes

/-- A sealed segment under a legacy marker, with a recording that comes in. Its time is given. -/
def reopened (mtime : Nat) : Disk Place :=
  Disk.of [(.incomplete 7, [("b.mp4", .file [2] mtime)]),
    (.sealed 7, [("a.mp4", .file [1] 3), (UPLOADED_MARKER, .file [] 5)])]

/-- The world after the merge. -/
def mergedWorld (mtime : Nat) : World where
  disk := (sealOrMerge 7 300).final [] (reopened mtime)
  memory := {}
  identity := sampleIdentity
  zone _ := none
  log := []

/-- A recording newer than the marker outlives the pass that removes the older one. -/
theorem merged_media_stays_newer : Unspoken plainLib 7 (mergedWorld 9).disk "b.mp4" [2] 9 ∧
    ∃ k, Fresh 7 (reopened 9) "b.mp4" k ∧
      node? (finishedWorld (mergedWorld 9)).disk k "b.mp4" = some (.file [2] 9) := by
  have hmarker : node? (mergedWorld 9).disk (.sealed 7) UPLOADED_MARKER = some (.file [] 5) := by
    decide +kernel
  have hunspoken : Unspoken plainLib 7 (mergedWorld 9).disk "b.mp4" [2] 9 := by
    refine ⟨fun marker stamp ack hnode hack => ?_, fun marker stamp hnode _ _ => ?_⟩
    · cases hmarker.symm.trans hnode
      cases hack
    · cases hmarker.symm.trans hnode
      decide
  have hincoming : node? (reopened 9) (.incomplete 7) "b.mp4" = some (.file [2] 9) := by
    decide +kernel
  have hds : ∀ o ∈ ([] : List Outside), Unmarking 7 o := List.forall_mem_nil _
  have hrun : ReflTransGen (FinishStep plainLib (Unmarking 7)) (mergedWorld 9)
      (finishedWorld (mergedWorld 9)) := .single (.finished 300 10 hds)
  have hmerged : (mergedWorld 9).disk = (sealOrMerge 7 300).final [] (reopened 9) := rfl
  exact ⟨hunspoken, (merged_media_stays (List.forall_mem_nil _) (by decide)
    (by decide) hincoming hmerged hunspoken hrun).2 ⟨by decide, by decide⟩⟩

/-- A recording no newer than the legacy marker is removed by the next pass. It was never sent,
and no acknowledgement lists it. -/
theorem merged_older_media_removed :
    node? (mergedWorld 4).disk (.sealed 7) "b.mp4" = some (.file [2] 4) ∧
    ReflTransGen (FinishStep plainLib (Unmarking 7)) (mergedWorld 4)
      (finishedWorld (mergedWorld 4)) ∧
    (finishedWorld (mergedWorld 4)).disk.keys = [] := by
  have hds : ∀ o ∈ ([] : List Outside), Unmarking 7 o := List.forall_mem_nil _
  exact ⟨by decide +kernel, .single (.finished 300 10 hds), by decide +kernel⟩

end SolstoneWindows.Proofs.PlTransportWin
