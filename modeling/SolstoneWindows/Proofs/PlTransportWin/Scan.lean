import SolstoneWindows.Proofs.PlTransportWin.Directory

/-!
# What a scan sees and leaves

A scan drops leftovers and otherwise only reads (`idle`). `Seen` says what it makes of one
directory: which files it lists, whether it takes the directory as confirmed, and which length
it records. `scanFiltered_idle` gives the result of a whole scan in terms of `Seen`.
-/

set_option autoImplicit false

namespace SolstoneWindows.Proofs.PlTransportWin

open Lib.Effect Lib.Fs Relation
open SolstoneWindows.PlTransportWin
open ObserverAudio (fromUtf8 parseU64 trim)
open ObserverModel (saturatingMul)
open SolstoneWindows.PlatformWin (Place LEN_FILE_NAME isActivityName)

/-- Rules under which nothing happens but what others add and what a scan drops. -/
def idle (D : Outside → Prop) : Rules where
  outside := D
  touches _ := False
  posts _ := False
  setsAside _ := False
  releases _ := False
  removes _ _ _ := False
  acks _ _ _ := False

theorem idle_le (rules : Rules) : (idle rules.outside).Le rules :=
  ⟨fun _ h => h, fun _ h => h.elim, fun _ h => h.elim, fun _ h => h.elim, fun _ h => h.elim,
    fun _ _ _ h => h.elim, fun _ _ _ h => h.elim⟩

variable {lib : Libraries} {w : World}

/-- A call that reads is idle. -/
theorem idle_of_peeks {D : Outside → Prop} {ε α : Type}
    {p : UploadProg ε α} {Q : α → World → Prop} (h : Moves D (Peeks D) w p Q) :
    Moves D (Path lib (idle D)) w p Q :=
  h.imp fun _ hpeek => Path.of_peeks hpeek

/-- The names a scan lists in a directory. -/
def listedNames (dir : Dir) : List String :=
  (((dir.entries.map fun e => (e.1, e.2)).filter isListed).map (·.1)).insertionSort (· ≤ ·)

/-- The length a directory records. -/
def lenOf (disk : Disk Place) (index : Nat) : Option Nat :=
  match node? disk (.sealed index) LEN_FILE_NAME with
  | some (.file bytes _) => (fromUtf8 bytes).bind fun text => parseU64 (trim text)
  | _ => none

section Directory

variable (lib : Libraries) (periodSecs : Nat) (D : Outside → Prop)

/-- What a scan from `w` to `w'` makes of one directory. -/
def Seen (want : Bool) (w w' : World) (index : Nat) (result : Option SealedSegment) : Prop :=
  ∃ w1 dir, Path lib (idle D) w w1 ∧ Path lib (idle D) w1 w' ∧
    w1.disk.lookup (.sealed index) = some dir ∧
    (Alone D index → Smooth D → ∀ name, isSwept name = true → NoFile w1 index name) ∧
    if (listedNames dir).contains UPLOADED_MARKER = want then
      ∃ segment, result = some segment ∧ segment.index = index ∧
        segment.boundaryEpochSecs = saturatingMul index periodSecs ∧
        segment.files = (listedNames dir).filter isUploaded ∧
        (Faultless D → ∃ w2, Path lib (idle D) w1 w2 ∧ segment.lenSecs = lenOf w2.disk index)
    else result = none

variable {lib periodSecs D}

variable {want : Bool} {w' : World} {index : Nat}

theorem Seen.mono {w0 w'' : World} {result : Option SealedSegment}
    (h : Seen lib periodSecs D want w w' index result) (hbefore : Path lib (idle D) w0 w)
    (hafter : Path lib (idle D) w' w'') : Seen lib periodSecs D want w0 w'' index result := by
  obtain ⟨w1, dir, hto, hfrom, hrest⟩ := h
  exact ⟨w1, dir, hbefore.trans hto, hfrom.trans hafter, hrest⟩

/-- What is seen of a directory is about that directory. -/
theorem Seen.index_eq {segment : SealedSegment}
    (h : Seen lib periodSecs D want w w' index (some segment)) : segment.index = index := by
  obtain ⟨w1, dir, -, -, -, -, hrest⟩ := h
  split at hrest
  · obtain ⟨segment', heq, hindex, -⟩ := hrest
    cases heq
    exact hindex
  · cases hrest

end Directory

/-- The result of a scan of directories: at most one segment for each. -/
structure Scanned (lib : Libraries) (periodSecs : Nat) (D : Outside → Prop) (want : Bool)
    (w w' : World) (segments : List SealedSegment) : Prop where
  nodup : (segments.map (·.index)).Nodup
  seen : ∀ segment ∈ segments, Seen lib periodSecs D want w w' segment.index (some segment)
  /-- A directory that was there is in the result, or was seen and left out. -/
  complete : ∀ index, (w.disk.lookup (.sealed index)).isSome →
    (∃ segment ∈ segments, segment.index = index) ∨ Seen lib periodSecs D want w w' index none

section Result

variable {periodSecs : Nat} {D : Outside → Prop} {want : Bool} {w' : World}

/-- The sealed directories of a disk. -/
theorem mem_sealed_keys {disk : Disk Place} {index : Nat} :
    index ∈ disk.keys.filterMap sealedIndex ↔ (disk.lookup (.sealed index)).isSome := by
  rw [AList.lookup_isSome, List.mem_filterMap]
  constructor
  · rintro ⟨k, hk, hindex⟩
    cases k with
    | sealed i =>
      cases hindex
      exact hk
    | incomplete i | quarantine name => cases hindex
  · intro hk
    exact ⟨.sealed index, hk, rfl⟩

theorem sealed_nodup (disk : Disk Place) : (disk.keys.filterMap sealedIndex).Nodup := by
  refine List.Nodup.filterMap (fun a b index ha hb => ?_) disk.keys_nodup
  cases a with
  | sealed i =>
    cases b with
    | sealed j =>
      cases ha
      cases hb
      rfl
    | incomplete j | quarantine name => cases hb
  | incomplete i | quarantine name => cases ha

variable {result : Nat → Option SealedSegment} {segments : List SealedSegment}

/-- Results that name their own directory come in the order of the directories. -/
theorem flatMap_index_sublist {indices : List Nat}
    (h : ∀ i ∈ indices, ∀ segment, result i = some segment → segment.index = i) :
    ((indices.flatMap fun i => (result i).toList).map (·.index)).Sublist indices := by
  induction indices with
  | nil => exact List.Sublist.slnil
  | cons i indices ih =>
    have hrest := ih fun j hj => h j (List.mem_cons_of_mem _ hj)
    rw [List.flatMap_cons]
    cases hresult : result i with
    | none => exact hrest.cons i
    | some segment =>
      rw [Option.toList_some, List.singleton_append, List.map_cons,
        h i List.mem_cons_self segment hresult]
      exact hrest.cons_cons i

theorem scanned_of_seen
    (hseen : ∀ i ∈ w.disk.keys.filterMap sealedIndex,
      Seen lib periodSecs D want w w' i (result i)) :
    Scanned lib periodSecs D want w w'
      ((w.disk.keys.filterMap sealedIndex).flatMap fun i => (result i).toList) := by
  have hmem : ∀ {segment}, segment ∈ (w.disk.keys.filterMap sealedIndex).flatMap
      (fun i => (result i).toList) → segment.index ∈ w.disk.keys.filterMap sealedIndex ∧
        result segment.index = some segment := by
    intro segment hsegment
    obtain ⟨i, hi, hresult⟩ := List.mem_flatMap.mp hsegment
    rw [Option.mem_toList] at hresult
    have hindex := (hresult ▸ hseen i hi).index_eq
    rw [hindex]
    exact ⟨hi, hresult⟩
  constructor
  · refine (sealed_nodup w.disk).sublist (flatMap_index_sublist fun i hi segment hresult => ?_)
    exact (hresult ▸ hseen i hi).index_eq
  · intro segment hsegment
    obtain ⟨hi, hresult⟩ := hmem hsegment
    exact hresult ▸ hseen _ hi
  · intro index hthere
    have hi := mem_sealed_keys.mpr hthere
    cases hresult : result index with
    | none => exact .inr (hresult ▸ hseen index hi)
    | some segment =>
      refine .inl ⟨segment, List.mem_flatMap.mpr ⟨index, hi, by simp [hresult]⟩, ?_⟩
      exact (hresult ▸ hseen index hi).index_eq

/-- The order of the segments does not matter. -/
theorem Scanned.perm {segments' : List SealedSegment}
    (h : Scanned lib periodSecs D want w w' segments) (hperm : segments'.Perm segments) :
    Scanned lib periodSecs D want w w' segments' := by
  constructor
  · exact (hperm.map _).nodup_iff.mpr h.nodup
  · intro segment hsegment
    exact h.seen segment (hperm.mem_iff.mp hsegment)
  · intro index hthere
    refine (h.complete index hthere).imp_left ?_
    rintro ⟨segment, hsegment, hindex⟩
    exact ⟨segment, hperm.mem_iff.mpr hsegment, hindex⟩

theorem Scanned.peeks {w0 : World} (hpeek : Peeks D w0 w)
    (h : Scanned lib periodSecs D want w w' segments) :
    Scanned lib periodSecs D want w0 w' segments := by
  have hpath : Path lib (idle D) w0 w := Path.of_peeks hpeek
  constructor
  · exact h.nodup
  · intro segment hsegment
    exact (h.seen segment hsegment).mono hpath .refl
  · intro index hthere
    exact (h.complete index (hpeek.grown.dir hthere)).imp_right fun hseen =>
      hseen.mono hpath .refl

end Result

section Scan

variable {periodSecs : Nat} {D : Outside → Prop} (hD : (idle D).outside default)

include hD

theorem sweep_idle (index : Nat) : Moves D (Path lib (idle D)) w (sweep index) fun _ _ => True := by
  have hdrop : ∀ (w : World) {name : String} (there : Bool), isSwept name = true →
      Moves D (Path lib (idle D)) w
        (Prog.onlyIf there (Prog.ignore (removeEntry index name)) : StoreProg Unit)
        fun _ _ => True := by
    intro w name there hname
    exact Moves.onlyIf (ignoreRemove_along hD hname)
  refine (probe_along hD _).bind fun tmp w1 _ _ => ?_
  refine (hdrop w1 tmp rfl).bind fun _ w2 _ _ => ?_
  refine (probe_along hD _).bind fun refused w3 _ _ => ?_
  exact hdrop w3 refused rfl

/-- No leftover outlives a scan that sees and removes. -/
theorem sweep_exact {index : Nat} (halone : Alone D index) : Runs D w (sweep index)
      (fun _ w' => Smooth D → ∀ name, isSwept name = true → NoFile w' index name)
      (fun _ _ => True) fun _ => True := by
  refine Runs.bind ((exists_exact hD halone UPLOADED_TMP_MARKER).mono (fun _ _ h => h)
    (fun _ _ _ => trivial) fun _ _ => trivial) fun tmp w1 h1 => ?_
  refine Runs.bind ((dropLeftover_exact hD halone fun hsmooth => ?_).mono (fun _ _ h => h)
    (fun _ _ _ => trivial) fun _ _ => trivial) fun _ w2 h2 => ?_
  · rw [h1.2 hsmooth, h1.1.node]
  refine Runs.bind ((exists_exact hD halone REFUSED_BY_MARKER).mono (fun _ _ h => h)
    (fun _ _ _ => trivial) fun _ _ => trivial) fun refused w3 h3 => ?_
  refine (dropLeftover_exact hD halone fun hsmooth => ?_).mono (fun _ w4 h4 => ?_)
    (fun _ _ _ => trivial) fun _ _ => trivial
  · rw [h3.2 hsmooth, h3.1.node]
  · intro hsmooth name hname
    obtain ⟨⟨gone, hgone⟩, hrefused⟩ := h4
    rcases Bool.or_eq_true_iff.mp hname with htmp | hname
    · rw [beq_iff_eq.mp htmp]
      exact hgone.noFile (h3.1.cleared.noFile (h2.2 hsmooth))
    · rw [beq_iff_eq.mp hname]
      exact hrefused hsmooth

theorem listFiles_peeks (index : Nat) : Moves D (Peeks D) w (listFiles index) fun files w' =>
      ∃ dir, w'.disk.lookup (.sealed index) = some dir ∧ files = listedNames dir := by
  have hread : Moves D (Peeks D) w (store (readDir (.sealed index))) fun entries w' =>
      ∃ dir, w'.disk.lookup (.sealed index) = some dir ∧
        entries = dir.entries.map fun e => (e.1, e.2) :=
    store_peeks hD readDir_readOnly fun _ _ _ _ hok => readDir_ok hok
  refine hread.bind fun entries w' _ hentries => ?_
  obtain ⟨dir, hdir, rfl⟩ := hentries
  exact Moves.pure ⟨dir, hdir, rfl⟩

/-- A read that can only stop tells a missing file from a file. -/
theorem attempt_read_peeks (hfault : Faultless D) (index : Nat) (name : String) :
    Moves D (Peeks D) w (Prog.attempt (store (read (.sealed index) name)) : StoreProg _)
      fun r w' => match r with
        | .ok bytes => ∃ mtime, node? w'.disk (.sealed index) name = some (.file bytes mtime)
        | .error e => (∀ bytes mtime,
            node? w'.disk (.sealed index) name ≠ some (.file bytes mtime)) ∧
            (e = .notFound ↔ node? w'.disk (.sealed index) name = none) := by
  refine Runs.attempt ?_
  unfold store storeBy
  refine Runs.call hD fun o ho => ?_
  have hpeek :
      Peeks D w { w with disk := (read (.sealed index) name o.fs (o.found w.disk)).2 } := by
    rw [read_readOnly]
    exact .single ⟨o, ho, rfl⟩
  cases hend : (read (.sealed index) name o.fs (o.found w.disk)).1 with
  | ok bytes =>
    refine ⟨hpeek, ?_⟩
    rw [read_readOnly]
    exact read_ok hend
  | stopped => exact hpeek
  | err e =>
    refine ⟨hpeek, ?_⟩
    rw [read_readOnly]
    unfold Lib.Fs.read atomic at hend
    cases hf : o.fs.fault with
    | none =>
      rw [hf] at hend
      cases hnode : node? (o.found w.disk) (.sealed index) name with
      | none =>
        simp only [hnode] at hend
        cases hend
        exact ⟨by simp, by simp⟩
      | some node =>
        cases node with
        | file bytes mtime =>
          simp only [hnode] at hend
          cases hend
        | folder id =>
          simp only [hnode] at hend
          cases hend
          exact ⟨by simp, by simp⟩
    | fail kept => exact absurd hf ((hfault o ho).2 kept)
    | stop kept =>
      rw [hf] at hend
      cases hend

/-- The recorded length is the one of the file that is there. -/
theorem readLenSecs_peeks (index : Nat) : Moves D (Peeks D) w (readLenSecs index) fun len w' =>
      Faultless D → len = lenOf w'.disk index := by
  by_cases hfault : Faultless D
  · refine (attempt_read_peeks hD hfault index LEN_FILE_NAME).bind fun r w1 _ hr => ?_
    cases r with
    | error _ =>
      refine Moves.pure fun _ => ?_
      unfold lenOf
      split
      · rename_i bytes mtime hnode
        exact absurd hnode (hr.1 bytes mtime)
      · rfl
    | ok bytes =>
      obtain ⟨mtime, hnode⟩ := hr
      refine Moves.pure fun _ => ?_
      simp only [lenOf, hnode]
  · exact (readFile_peeks hD index LEN_FILE_NAME).attempt_bind
      (fun _ _ _ _ => Moves.pure fun h => absurd h hfault)
      fun _ _ _ => Moves.pure fun h => absurd h hfault

theorem readAudioSources_peeks (index : Nat) :
    Moves D (Peeks D) w (readAudioSources lib index) fun _ _ => True :=
  (readFile_peeks hD index _).attempt_bind (fun _ _ _ _ => Moves.pure trivial)
    fun _ _ _ => Moves.pure trivial

theorem scanDir_idle (want : Bool) (index : Nat) :
    Moves D (Path lib (idle D)) w (scanDir lib periodSecs want index) fun result w' =>
      Seen lib periodSecs D want w w' index result := by
  have hsweep : Moves D (Path lib (idle D)) w (sweep index) fun _ w' =>
      Alone D index → Smooth D → ∀ name, isSwept name = true → NoFile w' index name := by
    by_cases halone : Alone D index
    · have hidle : Moves D (Path lib (idle D)) w (sweep index) fun _ _ => True :=
        sweep_idle hD index
      refine Runs.mono (Runs.and hidle (sweep_exact hD halone)) ?_ ?_ ?_
      · exact fun _ _ h => ⟨h.1.1, fun _ => h.2⟩
      · exact fun _ _ h => h.1
      · exact fun _ h => h.1
    · exact (sweep_idle hD index).weaken fun _ _ _ _ h => absurd h halone
  refine hsweep.bind fun _ w1 hw1 hleft => ?_
  have hlist : Moves D (Path lib (idle D)) w1 (listFiles index) fun files w' =>
      (∃ dir, w'.disk.lookup (.sealed index) = some dir ∧ files = listedNames dir) ∧
        Peeks D w1 w' :=
    idle_of_peeks ((listFiles_peeks hD index).weaken fun _ _ hpeek h => ⟨h, hpeek⟩)
  refine hlist.bind fun files w2 hw2 hfiles => ?_
  obtain ⟨⟨dir, hdir, rfl⟩, hpeek⟩ := hfiles
  have hleft2 : Alone D index → Smooth D → ∀ name, isSwept name = true → NoFile w2 index name := by
    intro halone hsmooth name hname
    exact (hpeek.same halone).cleared.noFile (hleft halone hsmooth name hname)
  by_cases hwant : (listedNames dir).contains UPLOADED_MARKER = want
  · rw [if_neg (fun h => bne_iff_ne.mp h hwant)]
    refine (idle_of_peeks (readLenSecs_peeks hD index)).bind fun len w3 hw3 hlen => ?_
    refine (idle_of_peeks (readAudioSources_peeks hD index)).bind fun sources w4 hw4 _ => ?_
    refine Moves.pure ⟨w2, dir, hw1.trans hw2, hw3.trans hw4, hdir, hleft2, ?_⟩
    rw [if_pos hwant]
    exact ⟨_, rfl, rfl, rfl, rfl, fun hfault => ⟨w3, hw3, hlen hfault⟩⟩
  · rw [if_pos (bne_iff_ne.mpr hwant)]
    refine Moves.pure ⟨w2, dir, hw1.trans hw2, .refl, hdir, hleft2, ?_⟩
    rw [if_neg hwant]

/-- What a scan returns: what it made of each directory it was given. -/
theorem scanDirs_idle (want : Bool) (indices : List Nat) (hnodup : indices.Nodup) :
    Moves D (Path lib (idle D)) w (scanDirs lib periodSecs want indices) fun segments w' =>
      ∃ result : Nat → Option SealedSegment,
        segments = indices.flatMap (fun i => (result i).toList) ∧
        ∀ i ∈ indices, Seen lib periodSecs D want w w' i (result i) := by
  induction indices generalizing w with
  | nil => exact Moves.pure ⟨fun _ => none, rfl, nofun⟩
  | cons index indices ih =>
    obtain ⟨hfresh, hnodup⟩ := List.nodup_cons.mp hnodup
    refine (scanDir_idle hD want index).bind fun first w1 hw1 hfirst => ?_
    refine (ih hnodup).bind fun segments w2 hw2 hrest => ?_
    obtain ⟨result, rfl, hseen⟩ := hrest
    refine Moves.pure ⟨Function.update result index first, ?_, ?_⟩
    · rw [List.flatMap_cons, Function.update_self]
      congr 1
      refine List.flatMap_congr fun i hi => ?_
      have hne : i ≠ index := fun h => hfresh (h ▸ hi)
      rw [Function.update_of_ne hne]
    · intro i hi
      rcases List.mem_cons.mp hi with rfl | hi
      · rw [Function.update_self]
        exact hfirst.mono .refl hw2
      · have hne : i ≠ index := fun h => hfresh (h ▸ hi)
        rw [Function.update_of_ne hne]
        exact (hseen i hi).mono hw1 .refl

/-- A whole scan. -/
theorem scanFiltered_idle (want : Bool) :
    Moves D (Path lib (idle D)) w (scanFiltered lib periodSecs want) fun segments w' =>
      Scanned lib periodSecs D want w w' segments := by
  have hdirs : Moves D (Path lib (idle D)) w (store listDirs) fun dirs w1 =>
      dirs = w1.disk.keys ∧ Peeks D w w1 :=
    idle_of_peeks ((listDirs_peeks hD).weaken fun _ _ hpeek heq => ⟨heq, hpeek⟩)
  refine hdirs.bind fun dirs w1 _ hfirst => ?_
  obtain ⟨rfl, hpeek⟩ := hfirst
  refine (scanDirs_idle hD want _ (sealed_nodup w1.disk)).bind fun segments w2 _ hfound => ?_
  obtain ⟨result, rfl, hseen⟩ := hfound
  exact Moves.pure (((scanned_of_seen hseen).perm (List.perm_insertionSort _ _)).peeks hpeek)

end Scan

end SolstoneWindows.Proofs.PlTransportWin
