import SolstoneWindows.Proofs.PlTransportWin.Gate
import SolstoneWindows.Proofs.PlTransportWin.Removal

/-!
# What a cleanup leaves of a segment's key

The length and the audio sources beside a recording belong to the key its files are uploaded
under. The gate takes them only when no media stays (`tryGateDelete_keyKept`). The local finish
pass breaks this in one place: under a legacy marker it takes them along with the media that is no
newer than the marker, while newer media stays. `Endangered` says of the directory before the pass
that this can happen, and it does when every call goes through (`cleanup_keeps_key`).
-/

set_option autoImplicit false

namespace SolstoneWindows.Proofs.PlTransportWin

open Lib.Effect Lib.Fs Relation
open SolstoneWindows.PlTransportWin
open SolstoneWindows.PlatformWin (Place LEN_FILE_NAME AUDIO_SOURCES_FILE_NAME)

/-- The sidecars that belong to a segment's key. -/
def keySidecars : List String := [LEN_FILE_NAME, AUDIO_SOURCES_FILE_NAME]

/-- If a media file of the directory is there afterwards, so are the sidecars of its key, as they
were. -/
def KeyKept (index : Nat) (disk disk' : Disk Place) : Prop :=
  (∃ name bytes mtime, isMedia name = true ∧
    node? disk' (.sealed index) name = some (.file bytes mtime)) →
  ∀ s ∈ keySidecars, node? disk' (.sealed index) s = node? disk (.sealed index) s

/-- A media file that is newer than the legacy marker beside it. -/
def Newer (lib : Libraries) (index : Nat) (disk : Disk Place) (name : String) : Prop :=
  isMedia name = true ∧ ∃ marker markerTime bytes mtime,
    node? disk (.sealed index) UPLOADED_MARKER = some (.file marker markerTime) ∧
    UploadAck.fromBytes lib marker = none ∧ isStructured marker = false ∧
    node? disk (.sealed index) name = some (.file bytes mtime) ∧ markerTime < mtime

/-- A directory with a legacy marker, media that is newer than it, and a sidecar of the key. -/
def Endangered (lib : Libraries) (index : Nat) (disk : Disk Place) : Prop :=
  (∃ name, Newer lib index disk name) ∧ ∃ s ∈ keySidecars, node? disk (.sealed index) s ≠ none

/-- What a cleanup of one directory keeps to. -/
structure Spares (lib : Libraries) (index : Nat) (disk disk' : Disk Place) : Prop where
  key : ¬ Endangered lib index disk → KeyKept index disk disk'
  newer : ∀ name, Newer lib index disk name →
    node? disk' (.sealed index) name = node? disk (.sealed index) name

/-! ## Names that are gone -/

variable {disk disk' : Disk Place} {front back gone rest : List String}

section Names

variable {lib : Libraries} {index : Nat} {w w' : World}

variable {s : String}

theorem isMedia_of_keySidecar (hs : s ∈ keySidecars) : isMedia s = false := by
  revert s
  decide

theorem keyKept_of_nodes
    (h : ∀ s ∈ keySidecars, node? disk' (.sealed index) s = node? disk (.sealed index) s) :
    KeyKept index disk disk' :=
  fun _ => h

theorem keyKept_of_no_media
    (h : ∀ name, isMedia name = true → node? disk' (.sealed index) name = none) :
    KeyKept index disk disk' := by
  rintro ⟨name, bytes, mtime, hmedia, hnode⟩
  rw [h name hmedia] at hnode
  cases hnode

theorem node?_of_lookup_none {k : Place} (h : disk.lookup k = none)
    (name : String) : node? disk k name = none := by
  rw [node?, h]
  rfl

theorem spares_of_same (h : disk'.lookup (.sealed index) = disk.lookup (.sealed index)) :
    Spares lib index disk disk' :=
  ⟨fun _ => keyKept_of_nodes fun s _ => node?_congr h s, fun name _ => node?_congr h name⟩

/-- Only what the directory holds matters. -/
theorem Spares.congr {disk1 disk1' : Disk Place} (h : Spares lib index disk1 disk1')
    (hdir : disk1.lookup (.sealed index) = disk.lookup (.sealed index))
    (hdir' : disk'.lookup (.sealed index) = disk1'.lookup (.sealed index)) :
    Spares lib index disk disk' := by
  obtain ⟨hkey, hnewer⟩ := h
  simp only [KeyKept, Endangered, Newer, node?_congr hdir] at hkey hnewer
  constructor <;> simp only [KeyKept, Endangered, Newer, node?_congr hdir']
  · exact hkey
  · exact hnewer

/-- When something after the front of a list is among what is gone, so is the whole front. -/
theorem front_gone (h : front ++ back = gone ++ rest)
    (hs : s ∈ gone) (hfront : s ∉ front) : ∀ n ∈ front, n ∈ gone := by
  rcases List.append_eq_append_iff.mp h with ⟨more, hgone, -⟩ | ⟨more, hfronts, -⟩
  · intro n hn
    rw [hgone]
    exact List.mem_append_left _ hn
  · exact absurd (hfronts ▸ List.mem_append_left _ hs) hfront

/-- The names of a cleanup are media, then perhaps the key, then markers. When a sidecar of the
key is gone, all that media is. -/
theorem keyKept_of_gone (h : front ++ back = gone ++ rest) (hgone : Gone index gone w w')
    (hfront : ∀ s ∈ keySidecars, s ∉ front)
    (hmedia : (∃ s ∈ keySidecars, s ∈ back) → ∀ name bytes mtime, isMedia name = true →
      node? w.disk (.sealed index) name = some (.file bytes mtime) → name ∈ front) :
    KeyKept index w.disk w'.disk := by
  rintro ⟨name, bytes, mtime, hm, hnode⟩ s hs
  rw [hgone.node] at hnode ⊢
  split at hnode
  · cases hnode
  rename_i hstays
  rw [if_neg]
  intro hsgone
  have hback : s ∈ back := by
    have hmem : s ∈ front ++ back := h ▸ List.mem_append_left _ hsgone
    exact (List.mem_append.mp hmem).resolve_left (hfront s hs)
  exact hstays (front_gone h hsgone (hfront s hs) name
    (hmedia ⟨s, hs, hback⟩ name bytes mtime hm hnode))

end Names

/-! ## The gate -/

section Gate

variable {lib : Libraries} {D : Outside → Prop} (hD : D default) {index : Nat}
  (halone : Alone D index) {w : World} {expected : List AckFile}

variable {w' : World}

theorem Weighed.keyKept {matched : List String} {uncovered : Bool}
    (h : Weighed lib expected w index matched uncovered)
    (hnames : gateNames matched uncovered = gone ++ rest) (hgone : Gone index gone w w') :
    KeyKept index w.disk w'.disk := by
  rw [gateNames, List.append_assoc] at hnames
  refine keyKept_of_gone hnames hgone ?_ ?_
  · intro s hs hmatched
    have hmedia := ((h.matched_iff s).mp hmatched).1
    rw [isMedia_of_keySidecar hs] at hmedia
    cases hmedia
  · rintro ⟨s, hs, hback⟩ name bytes mtime hmedia hnode
    cases uncovered with
    | true =>
      -- While media stays, the sidecars are not among the names.
      have hout : ∀ s ∈ keySidecars, s ∉ [UPLOADED_MARKER, UPLOADED_TMP_MARKER] := by decide
      exact absurd hback (hout s hs)
    | false =>
      refine (h.matched_iff name).mpr ⟨hmedia, bytes, mtime, hnode, ?_⟩
      by_contra hbad
      cases h.uncovered_iff.mpr ⟨name, bytes, mtime, hmedia, hnode, hbad⟩

theorem GateCut.keyKept (h : GateCut lib index expected w w') :
    KeyKept index w.disk w'.disk := by
  rcases h with hsame | ⟨matched, uncovered, hweighed, gone, rest, hnames, hgone⟩
  · exact keyKept_of_nodes fun s _ => hsame.node s
  · exact hweighed.keyKept hnames hgone.toGone

include hD halone

/-- The gate takes the sidecars of the key only when no media stays. -/
theorem tryGateDelete_keyKept :
    Ends D w (tryGateDelete lib index expected) fun w' => KeyKept index w.disk w'.disk := by
  refine (tryGateDelete_exact hD halone).mono ?_ ?_ ?_
  · intro r w' h
    match r, h with
    | .stopped, h => exact keyKept_of_nodes fun s _ => h.1.node s
    | .deleted, h => exact keyKept_of_no_media fun name _ => node?_of_lookup_none h.2.1 name
    | .partially, h =>
      obtain ⟨matched, hweighed, hcleared⟩ := h
      exact hweighed.keyKept (List.append_nil _).symm hcleared.toGone
    | .blocked, h =>
      obtain ⟨⟨matched, uncovered, hweighed, gone, rest, hnames, hgone⟩, -⟩ := h
      exact hweighed.keyKept hnames hgone.toGone
  · intro _ w' h
    exact keyKept_of_nodes fun s _ => h.1.node s
  · intro w' h
    exact h.1.keyKept

end Gate

/-! ## The local finish pass -/

section Finish

variable {lib : Libraries} {D : Outside → Prop} (hD : D default) {index now : Nat}
  (halone : Alone D index) {w : World} {ε : Type}

variable {marker : List UInt8} {stamp periodSecs markerTime : Nat} {ack : UploadAck}

theorem not_newer_of_unmarked (hnode : node? w.disk (.sealed index) UPLOADED_MARKER = none)
    (name : String) : ¬ Newer lib index w.disk name := by
  rintro ⟨-, marker, stamp, bytes, mtime, hnode', -⟩
  rw [hnode] at hnode'
  cases hnode'

theorem spares_of_keyKept (h : KeyKept index disk disk')
    (hnewer : ∀ name, ¬ Newer lib index disk name) : Spares lib index disk disk' :=
  ⟨fun _ => h, fun name hname => absurd hname (hnewer name)⟩

include hD halone

variable {P : Disk Place → Prop} {times : List (String × Nat)}

section

variable (hP : ∀ {disk}, disk.lookup (.sealed index) = w.disk.lookup (.sealed index) → P disk)
  (hnone : (∀ name, node? w.disk (.sealed index) name = none) →
    ∀ {disk}, disk.lookup (.sealed index) = none → P disk)

include hP hnone

/-- Removing the directory when it is empty, after some names are gone from it. -/
theorem removeDirOrHold_ends :
    Ends D w (removeDirOrHold index now : UploadProg ε Unit) fun w' => P w'.disk := by
  refine Runs.attempt_bind (removeSegmentDir_exact hD halone) ?_ ?_ fun _ h => hP h.1.dir
  · exact fun _ _ h => Runs.pure (hnone h.2.2 h.1)
  · exact fun _ _ h => Runs.modify (hP h.1.dir)

/-- The end of the removals under a legacy marker: the directory goes if nothing is left in it. -/
theorem legacyEnd_ends : Ends D w (do
      match ← Prog.attempt (listEntries index) with
      | .ok (_ :: _) => pure ()
      | _ => removeDirOrHold index now : UploadProg ε Unit) fun w' => P w'.disk := by
  have hlast : ∀ {w1}, Same index w w1 →
      Ends D w1 (removeDirOrHold index now : UploadProg ε Unit) fun w' => P w'.disk := by
    intro w1 h1
    refine removeDirOrHold_ends hD halone (fun hdir => hP (hdir.trans h1.dir)) fun hempty => ?_
    exact hnone fun name => (h1.node name).symm.trans (hempty name)
  refine Runs.attempt_bind (listEntries_exact hD halone) (fun entries w1 h1 => ?_)
    (fun _ _ h1 => hlast h1.1) fun _ h => hP h.1.dir
  cases entries with
  | nil => exact hlast h1.1
  | cons _ _ => exact Runs.pure (hP h1.1.dir)

end

/-- However the loop ends, it took a first part of the names. -/
theorem removeAll_cut (names : List String) :
    Runs D w (removeAll index names : UploadProg ε Bool) (fun _ => Cut index names w)
      (fun _ _ => False) (Cut index names w) := by
  refine (removeAll_exact hD halone names).mono ?_ (fun _ _ h => h) fun _ h => h.1
  intro done w' h
  cases done with
  | true => exact ⟨names, [], (List.append_nil _).symm, h⟩
  | false => exact h.1

theorem finishUnmarked_spares (hmarker : node? w.disk (.sealed index) UPLOADED_MARKER = none) :
    Ends D w (finishUnmarked index now : UploadProg ε Unit)
      fun w' => Spares lib index w.disk w'.disk := by
  refine Runs.attempt_bind (listEntries_exact hD halone) ?_
    (fun _ _ h => Runs.pure (spares_of_same h.1.dir)) fun _ h => spares_of_same h.1.dir
  rintro entries w1 ⟨hsame, hlists⟩
  dsimp only
  split
  · exact Runs.pure (spares_of_same hsame.dir)
  rename_i hnone
  -- There is no media, so none can be left.
  have hmedia : ∀ name, isMedia name = true → node? w1.disk (.sealed index) name = none := by
    intro name hm
    by_contra hsome
    obtain ⟨node, hnode⟩ := Option.ne_none_iff_exists'.mp hsome
    have hentry := (hlists.mem (entryFact (name, node))).mpr ⟨node, hnode, rfl⟩
    exact hnone (List.any_eq_true.mpr ⟨_, hentry, hm⟩)
  have hspares : ∀ {disk : Disk Place},
      (∀ name, isMedia name = true → node? disk (.sealed index) name = none) →
      Spares lib index w.disk disk :=
    fun h => spares_of_keyKept (keyKept_of_no_media h) (not_newer_of_unmarked hmarker)
  have hgone : ∀ {gone w'}, Gone index gone w1 w' →
      ∀ name, isMedia name = true → node? w'.disk (.sealed index) name = none := by
    intro gone w' h name hm
    rw [h.node, hmedia name hm, ite_self]
  refine Runs.bind ((removeAll_cut hD halone _).mono (fun _ _ h => h) (fun _ _ h => h.elim) ?_)
    fun done w2 h2 => ?_
  · rintro w' ⟨gone, rest, -, h⟩
    exact hspares (hgone h.toGone)
  · obtain ⟨gone, rest, -, h2⟩ := h2
    replace h2 := h2.toGone
    have hw2 : Spares lib index w.disk w2.disk := hspares (hgone h2)
    split
    · exact Runs.modify hw2
    refine removeDirOrHold_ends hD halone ?_ ?_
    · intro disk hdir
      refine hspares fun name hm => ?_
      rw [node?_congr hdir]
      exact hgone h2 name hm
    · intro _ disk hdir
      exact hspares fun name _ => node?_of_lookup_none hdir name

section

variable {w0 : World} (hsame : w.disk.lookup (.sealed index) = w0.disk.lookup (.sealed index))

include hsame

/-- Taking the marker away leaves media and sidecars. -/
theorem dropMarker_keyKept : Ends D w (dropMarker index now : UploadProg ε Unit)
      fun w' => KeyKept index w0.disk w'.disk := by
  have hkept : ∀ {disk : Disk Place}, disk.lookup (.sealed index) = w.disk.lookup (.sealed index) →
      KeyKept index w0.disk disk :=
    fun h => keyKept_of_nodes fun s _ => node?_congr (h.trans hsame) s
  refine Runs.attempt_bind (removeEntry_exact hD halone UPLOADED_MARKER) ?_ ?_
    fun _ h => hkept h.1.dir
  · intro _ w' h
    refine Runs.pure (keyKept_of_nodes fun s hs => ?_)
    have hne : s ∉ [UPLOADED_MARKER] := by
      revert s
      decide
    rw [h.node, if_neg hne, node?_congr hsame]
  · intro e w' h
    cases e with
    | notFound => exact Runs.pure (hkept h.1.dir)
    | failed | invalid _ => exact Runs.modify (hkept h.1.dir)

theorem gateOrHold_keyKept {expected : List AckFile} :
    Ends D w (gateOrHold lib index expected now : UploadProg ε Unit)
      fun w' => KeyKept index w0.disk w'.disk := by
  have hkept : ∀ {w' : World}, KeyKept index w.disk w'.disk → KeyKept index w0.disk w'.disk := by
    intro w' h hmedia s hs
    rw [h hmedia s hs, node?_congr hsame]
  refine Runs.attempt_bind (tryGateDelete_keyKept hD halone) ?_
    (fun _ _ h => Runs.modify (hkept h)) fun _ h => hkept h
  intro result w' h
  cases result with
  | blocked => exact Runs.modify (hkept h)
  | deleted | partially | stopped => exact Runs.pure (hkept h)

end

variable {segment : SealedSegment}

/-- Looking whether an acknowledgement fits leaves the directory alone. -/
theorem physicalMatch_dir : Ends D w (physicalMatch periodSecs index segment ack) fun w' =>
      w'.disk.lookup (.sealed index) = w.disk.lookup (.sealed index) := by
  refine Runs.get_bind ?_
  split
  · exact Runs.pure rfl
  split
  · exact Runs.pure rfl
  refine Runs.bind (R := fun _ (w' : World) => w'.disk = w.disk) (Runs.call hD fun o _ => rfl)
    fun zone w1 hw1 => ?_
  match zone with
  | none => exact Runs.pure (by rw [hw1])
  | some zone =>
    dsimp only
    split
    · exact Runs.pure (by rw [hw1])
    refine Runs.bind (R := fun _ w' =>
      w'.disk.lookup (.sealed index) = w.disk.lookup (.sealed index)) ?_
      fun entries w2 hw2 => Runs.pure hw2
    refine (listEntries_exact hD halone).mono ?_ ?_ ?_
    · exact fun _ w' h => h.1.dir.trans (by rw [hw1])
    · exact fun _ w' h => h.1.dir.trans (by rw [hw1])
    · exact fun w' h => h.1.dir.trans (by rw [hw1])

theorem finishAcked_keyKept :
    Ends D w (finishAcked lib periodSecs index now segment ack : UploadProg ε Unit)
      fun w' => KeyKept index w.disk w'.disk := by
  have hkept : ∀ {w' : World}, w'.disk.lookup (.sealed index) = w.disk.lookup (.sealed index) →
      KeyKept index w.disk w'.disk := fun h => keyKept_of_nodes fun s _ => node?_congr h s
  refine Runs.attempt_bind (physicalMatch_dir hD halone) (fun fits w1 hw1 => ?_)
    (fun _ _ h => Runs.modify (hkept h)) fun _ h => hkept h
  cases fits with
  | false => exact dropMarker_keyKept hD halone hw1
  | true =>
    refine Runs.attempt_bind (listEntries_exact hD halone) (fun entries w2 h2 => ?_)
      (fun _ _ h => Runs.modify (hkept (h.1.dir.trans hw1))) fun _ h => hkept (h.1.dir.trans hw1)
    have hw2 := h2.1.dir.trans hw1
    dsimp only
    split
    · exact dropMarker_keyKept hD halone hw2
    · exact gateOrHold_keyKept hD halone hw2

omit hD halone in
/-- The names the mtime rule removes: media that is no newer than the marker, the sidecars, the
markers. Newer media is not among them, and without any the rule takes all media files. If there
is some, the sidecars that are not there stay so. -/
theorem dated_spares {w' : World}
    (hmarker : node? w.disk (.sealed index) UPLOADED_MARKER = some (.file marker stamp))
    (hack : UploadAck.fromBytes lib marker = none) (hplain : isStructured marker = false)
    (hdated : Dated w w index markerTime times)
    (hnames : (times.filter fun t => t.2 ≤ markerTime).map (·.1) ++
      [LEN_FILE_NAME, AUDIO_SOURCES_FILE_NAME, UPLOADED_MARKER, UPLOADED_TMP_MARKER] = gone ++ rest)
    (hgone : Gone index gone w w') : (∀ name, Newer lib index w.disk name → name ∉ gone) ∧
      (¬ Endangered lib index w.disk → KeyKept index w.disk w'.disk) := by
  have hstamp : markerTime = stamp := by
    obtain ⟨node, hnode, htime⟩ := hdated.marker
    rw [hmarker] at hnode
    cases hnode
    exact htime marker stamp rfl
  have hmedia : ∀ {name}, name ∈ (times.filter fun t => t.2 ≤ markerTime).map (·.1) →
      isMedia name = true ∧ ∀ bytes mtime,
        node? w.disk (.sealed index) name = some (.file bytes mtime) → mtime ≤ stamp := by
    intro name hname
    obtain ⟨t, ht, rfl⟩ := List.mem_map.mp hname
    obtain ⟨ht, hle⟩ := List.mem_filter.mp ht
    obtain ⟨hm, node, hnode, htime⟩ := hdated.media t ht
    refine ⟨hm, fun bytes mtime hnode' => ?_⟩
    rw [hnode] at hnode'
    cases hnode'
    rw [← htime bytes mtime rfl, ← hstamp]
    simpa using hle
  constructor
  · rintro name ⟨hm, marker', stamp', bytes, mtime, hmarker', -, -, hnode, hnewer⟩ hin
    rw [hmarker] at hmarker'
    cases hmarker'
    have hmem := hnames ▸ List.mem_append_left rest hin
    rcases List.mem_append.mp hmem with hold | hside
    · exact absurd ((hmedia hold).2 bytes mtime hnode) (Nat.not_le.mpr hnewer)
    · have hout : ∀ n ∈ [LEN_FILE_NAME, AUDIO_SOURCES_FILE_NAME, UPLOADED_MARKER,
          UPLOADED_TMP_MARKER], isMedia n = false := by decide
      rw [hout name hside] at hm
      cases hm
  · intro hsafe
    by_cases hnewer : ∃ name, Newer lib index w.disk name
    · refine keyKept_of_nodes fun s hs => ?_
      have habsent : node? w.disk (.sealed index) s = none := by
        by_contra hthere
        exact hsafe ⟨hnewer, s, hs, hthere⟩
      rw [hgone.node, habsent, ite_self]
    have hnone := not_exists.mp hnewer
    refine keyKept_of_gone hnames hgone ?_ ?_
    · intro s hs hold
      have hm := (hmedia hold).1
      rw [isMedia_of_keySidecar hs] at hm
      cases hm
    · intro _ name bytes mtime hm hnode
      obtain ⟨t, ht, hname⟩ := List.mem_map.mp (hdated.complete name _ hm hnode)
      refine List.mem_map.mpr ⟨t, List.mem_filter.mpr ⟨ht, ?_⟩, hname⟩
      obtain ⟨-, node, hnode', htime⟩ := hdated.media t ht
      rw [hname, hnode] at hnode'
      cases hnode'
      -- It is no newer than the marker, for nothing is.
      have hle : ¬ stamp < mtime := fun hlt =>
        hnone name ⟨hm, marker, stamp, bytes, mtime, hmarker, hack, hplain, hnode, hlt⟩
      rw [htime bytes mtime rfl, hstamp]
      exact decide_eq_true (Nat.not_lt.mp hle)

omit hD halone in
theorem Dated.same {w1 : World}
    (h : Dated w w1 index markerTime times) (hsame : Same index w w1) :
    Dated w1 w1 index markerTime times := by
  refine ⟨h.marker, h.nodup, fun name node hm hnode => ?_, h.media⟩
  exact h.complete name node hm (hsame.node name ▸ hnode)

/-- Under a legacy marker, newer media stays, and when there is none the key stays with the
media. -/
theorem finishLegacy_spares
    (hmarker : node? w.disk (.sealed index) UPLOADED_MARKER = some (.file marker stamp))
    (hack : UploadAck.fromBytes lib marker = none) :
    Ends D w (finishLegacy index now marker : UploadProg ε Unit)
      fun w' => Spares lib index w.disk w'.disk := by
  unfold finishLegacy
  split
  · exact Runs.pure (spares_of_same rfl)
  rename_i hplain
  refine Runs.attempt_bind (legacyTimes_peeks hD ⟨_, hmarker⟩) ?_
    (fun _ _ h => Runs.pure (spares_of_same (Peeks.same halone h).dir))
    fun _ h => spares_of_same (Peeks.same halone h).dir
  rintro ⟨markerTime, times⟩ w1 ⟨hpeeks, hdated⟩
  have hsame := hpeeks.same halone
  have hdated1 := hdated.same hsame
  rw [← hsame.node] at hmarker
  have hspares : ∀ {w'}, Cut index ((times.filter fun t => t.2 ≤ markerTime).map (·.1) ++
      [LEN_FILE_NAME, AUDIO_SOURCES_FILE_NAME, UPLOADED_MARKER, UPLOADED_TMP_MARKER]) w1 w' →
      Spares lib index w.disk w'.disk := by
    rintro w' ⟨gone, rest, hnames, hgone⟩
    obtain ⟨hnewer, hkey⟩ :=
      dated_spares hmarker hack (by simpa using hplain) hdated1 hnames hgone.toGone
    refine Spares.congr ⟨hkey, fun name hname => ?_⟩ hsame.dir rfl
    rw [hgone.node, if_neg (hnewer name hname)]
  refine Runs.bind ((removeAll_cut hD halone _).mono (fun _ _ h => hspares h)
    (fun _ _ h => h.elim) fun _ h => hspares h) fun done w2 hw2 => ?_
  split
  · exact Runs.modify hw2
  refine legacyEnd_ends hD halone (hw2.congr rfl) fun hempty disk hdir => ?_
  refine ⟨fun _ => keyKept_of_no_media fun name _ => node?_of_lookup_none hdir name, ?_⟩
  -- Newer media keeps the directory from being empty.
  intro name hname
  have hthere := hw2.newer name hname
  obtain ⟨-, marker', stamp', bytes, mtime, -, -, -, hnode, -⟩ := hname
  rw [hnode, hempty name] at hthere
  cases hthere

theorem finishDir_spares (hindex : segment.index = index) :
    Ends D w (finishDir lib periodSecs now segment : UploadProg ε Unit)
      fun w' => Spares lib index w.disk w'.disk := by
  subst hindex
  refine Runs.get_bind ?_
  split
  · exact Runs.pure (spares_of_same rfl)
  -- Every branch starts from a world in which the directory is as it was.
  have hspares : ∀ {w1 disk}, Same segment.index w w1 → Spares lib segment.index w1.disk disk →
      Spares lib segment.index w.disk disk := fun hsame h => h.congr hsame.dir rfl
  refine Runs.attempt_bind (readFile_exact hD halone UPLOADED_MARKER) ?_ ?_
    fun _ h => spares_of_same h.1.dir
  · rintro marker w1 ⟨hsame, stamp, hmarker⟩
    rw [← hsame.node] at hmarker
    dsimp only
    split
    next ack hack =>
      refine (finishAcked_keyKept hD halone).imp fun _ h =>
        hspares hsame (spares_of_keyKept h fun name => ?_)
      -- A marker that is an acknowledgement is no legacy marker.
      rintro ⟨-, _, _, _, _, hnode, hnone, -⟩
      cases hmarker.symm.trans hnode
      exact absurd (hack.symm.trans hnone) nofun
    next hack =>
      exact (finishLegacy_spares hD halone hmarker hack).imp fun _ h => hspares hsame h
  · rintro e w1 ⟨hsame, hread, -⟩
    cases e with
    | notFound =>
      refine (finishUnmarked_spares hD halone ?_).imp fun _ h => hspares hsame h
      rw [hsame.node, hread rfl]
    | failed | invalid _ => exact Runs.pure (spares_of_same hsame.dir)

/-! ### When every call goes through -/

section Smooth

variable (hsmooth : Smooth D)

include hsmooth

omit hD halone in
theorem Smooth.faultless : Faultless D :=
  fun o ho => ⟨(hsmooth o ho).1.2, fun kept hfail => by
    rw [(hsmooth o ho).1.1] at hfail
    cases hfail⟩

variable {name : String} {node : Node}

theorem modified_smooth
    (hnode : node? w.disk (.sealed index) name = some node) :
    Runs D w (modified index name) (fun _ => Same index w) (fun _ _ => False) fun _ => False := by
  refine (read_exact hD halone modified_readOnly (Q := fun _ => Same index w)
    (E := fun _ _ => False) (fun _ _ _ _ h _ => h) ?_).mono (fun _ _ h => h) (fun _ _ h => h)
    fun _ h => h.2 hsmooth
  rintro w' now e hsame (hop | ⟨-, hfault⟩)
  · rw [hsame.node, hnode] at hop
    cases node with
    | _ => cases hop
  · exact hfault hsmooth.faultless

theorem mediaTimes_smooth {media : List DirEntryFact}
    (hmedia : ∀ e ∈ media, ∃ node, node? w.disk (.sealed index) e.name = some node) :
    Runs D w (mediaTimes index media) (fun _ => Same index w) (fun _ _ => False)
      fun _ => False := by
  induction media generalizing w with
  | nil => exact Runs.pure (Same.refl index w)
  | cons entry media ih =>
    rw [List.forall_mem_cons] at hmedia
    obtain ⟨⟨node, hnode⟩, hmedia⟩ := hmedia
    refine (modified_smooth hD halone hsmooth hnode).bind fun _ w1 h1 => ?_
    refine (ih fun e he => ?_).bind fun _ w2 h2 => Runs.pure (h1.trans h2)
    rw [h1.node]
    exact hmedia e he

theorem legacyTimes_smooth
    (hmarker : node? w.disk (.sealed index) UPLOADED_MARKER = some node) :
    Runs D w (legacyTimes index) (fun _ => Same index w) (fun _ _ => False) fun _ => False := by
  refine (modified_smooth hD halone hsmooth hmarker).bind fun _ w1 h1 => ?_
  refine ((listEntries_exact hD halone).mono (fun _ _ h => h) (fun _ _ h => ?_)
    fun _ h => h.2 hsmooth).bind fun entries w2 h2 => ?_
  · -- The marker is in the directory, so there is one to list.
    rw [← h1.node, node?_of_lookup_none (h.2 hsmooth.faultless)] at hmarker
    cases hmarker
  · refine (mediaTimes_smooth hD halone hsmooth fun e he => ?_).bind fun _ w3 h3 =>
      Runs.pure ((h1.trans h2.1).trans h3)
    obtain ⟨node, hnode, -⟩ := (h2.2.mem e).mp (List.mem_of_mem_filter he)
    exact ⟨node, hnode⟩

/-- The pass takes the sidecars from a directory with newer media. -/
theorem finishDir_takes_key (hindex : segment.index = index)
    (hfree : isHeld w.memory index now = false) (hfiles : ∀ name, ¬ IsFolder w index name)
    (hnewer : Newer lib index w.disk name) :
    Ends D w (finishDir lib periodSecs now segment : UploadProg ε Unit)
      fun w' => ∀ s ∈ keySidecars, node? w'.disk (.sealed index) s = none := by
  subst hindex
  obtain ⟨-, marker, stamp, bytes, mtime, hmarker, hack, hplain, -⟩ := hnewer
  refine Runs.get_bind ?_
  rw [if_neg (by simp [hfree])]
  refine Runs.attempt_bind (readFile_exact hD halone UPLOADED_MARKER) ?_ ?_
    fun _ h => (h.2 hsmooth).elim
  · rintro marker' w1 ⟨hsame, stamp', hmarker'⟩
    rw [hmarker] at hmarker'
    cases hmarker'
    simp only [hack, finishLegacy, hplain]
    rw [← hsame.node] at hmarker
    refine Runs.attempt_bind (legacyTimes_smooth hD halone hsmooth hmarker) ?_
      (fun _ _ h => h.elim) fun _ h => h.elim
    rintro ⟨markerTime, times⟩ w2 hsame'
    refine Runs.bind ((removeAll_exact hD halone _).mono (fun _ _ h => h) (fun _ _ h => h.elim)
      fun _ h => (h.2 hsmooth).elim) fun done w3 h3 => ?_
    cases done with
    | false =>
      -- A removal is refused only at a folder, and there is none.
      obtain ⟨name, -, id, hid⟩ := h3.2 hsmooth
      rw [hsame'.node, hsame.node] at hid
      exact absurd ⟨id, hid⟩ (hfiles name)
    | true =>
      have hgone : ∀ s ∈ keySidecars, node? w3.disk (.sealed segment.index) s = none := by
        intro s hs
        rw [h3.node, if_pos (List.mem_append_right _ ?_)]
        revert s
        decide
      refine legacyEnd_ends
        (P := fun disk => ∀ s ∈ keySidecars, node? disk (.sealed segment.index) s = none) hD halone
        (fun hdir s hs => ?_) fun _ _ hdir s _ => node?_of_lookup_none hdir s
      rw [node?_congr hdir, hgone s hs]
  · rintro e w1 ⟨-, -, hread⟩
    exact absurd hmarker ((hread hsmooth.faultless).1 marker stamp)

end Smooth

end Finish

/-- While nobody adds to a directory: the gate keeps the key of the media it leaves, whatever it
expects and whatever fails. A local finish pass does, whatever fails, unless the directory was
endangered before. When every call goes through, a pass over a directory of files that is not on
hold takes the key from every endangered one. -/
theorem cleanup_keeps_key (lib : Libraries) (periodSecs now : Nat) (w : World)
    (segment : SealedSegment) {ds : List Outside}
    (hds : ∀ o ∈ ds, ∀ a ∈ o.added, a.index ≠ segment.index) :
    let finished :=
      ((finishDir lib periodSecs now segment : UploadProg RouteError Unit).final ds w).disk
    (∀ expected, KeyKept segment.index w.disk
      ((tryGateDelete lib segment.index expected).final ds w).disk) ∧
    (¬ Endangered lib segment.index w.disk → KeyKept segment.index w.disk finished) ∧
    ((∀ o ∈ ds, Clear o.fs ∧ Clear o.removal) → isHeld w.memory segment.index now = false →
      (∀ e ∈ (dirOf w.disk segment.index).entries, e.2.isFile = true) →
      (KeyKept segment.index w.disk finished ↔ ¬ Endangered lib segment.index w.disk)) := by
  have halone : Alone (fun o => ∀ a ∈ o.added, a.index ≠ segment.index) segment.index :=
    fun _ ho => ho
  have hspares : Spares lib segment.index w.disk
      ((finishDir lib periodSecs now segment : UploadProg RouteError Unit).final ds w).disk :=
    Runs.final (finishDir_spares nofun halone rfl) hds
  refine ⟨fun expected => (tryGateDelete_keyKept nofun halone).final hds, hspares.key, ?_⟩
  intro hclear hfree hfiles
  refine ⟨fun hkept hendangered => ?_, hspares.key⟩
  obtain ⟨⟨name, hnewer⟩, s, hs, hthere⟩ := hendangered
  have hfolders : ∀ name, ¬ IsFolder w segment.index name := by
    rintro name ⟨id, hid⟩
    obtain ⟨dir, hdir, hlookup⟩ := lookup_of_node? hid
    rw [dirOf, hdir] at hfiles
    cases hfiles _ (AList.mem_lookup_iff.mp hlookup)
  have hgone : ∀ s ∈ keySidecars, node? ((finishDir lib periodSecs now segment :
      UploadProg RouteError Unit).final ds w).disk (.sealed segment.index) s = none :=
    Runs.final (finishDir_takes_key (D := fun o =>
      (∀ a ∈ o.added, a.index ≠ segment.index) ∧ Clear o.fs ∧ Clear o.removal)
      ⟨nofun, by decide, by decide⟩ (fun o ho => ho.1) (fun o ho => ho.2) rfl hfree hfolders hnewer)
      fun o ho => ⟨hds o ho, hclear o ho⟩
  have hstays := hspares.newer name hnewer
  obtain ⟨hm, marker, stamp, bytes, mtime, -, -, -, hnode, -⟩ := hnewer
  rw [← hkept ⟨name, bytes, mtime, hm, hstays.trans hnode⟩ s hs, hgone s hs] at hthere
  exact hthere rfl

/-- A segment with its length and two recordings, and what else is in its directory. -/
def datedWorld (rest : List (String × Node)) : World where
  disk := Disk.of [(.sealed 7, [("a.mp4", .file [1] 3), ("b.mp4", .file [2] 9),
    (LEN_FILE_NAME, .file [0x35] 3)] ++ rest)]
  memory := {}
  identity := ⟨"journal", "ca", "cert"⟩
  zone _ := none
  log := []

def datedSegment : SealedSegment := ⟨7, 2100, some 5, [], ["a.mp4", "b.mp4"]⟩

/-- What a pass leaves of such a directory when no call fails. -/
def finishedDated (rest : List (String × Node)) : Disk Place :=
  ((finishDir plainLib 300 10 datedSegment : UploadProg RouteError Unit).final []
    (datedWorld rest)).disk

/-- A legacy marker whose time is between those of the recordings. -/
def betweenMarker : List (String × Node) := [(UPLOADED_MARKER, .file [] 5)]

/-- Without a marker the pass keeps the key. With a legacy marker between the recordings it does
not. -/
theorem cleanup_keeps_key_unless_marked : KeyKept 7 (datedWorld []).disk (finishedDated []) ∧
      ¬ KeyKept 7 (datedWorld betweenMarker).disk (finishedDated betweenMarker) := by
  have hexact : ∀ rest, (∀ e ∈ (dirOf (datedWorld rest).disk 7).entries, e.2.isFile = true) →
      (KeyKept 7 (datedWorld rest).disk (finishedDated rest) ↔
        ¬ Endangered plainLib 7 (datedWorld rest).disk) := fun rest hfiles =>
    (cleanup_keeps_key plainLib 300 10 (datedWorld rest) datedSegment
      (List.forall_mem_nil _)).2.2 (List.forall_mem_nil _) rfl hfiles
  have hnewer : Newer plainLib 7 (datedWorld betweenMarker).disk "b.mp4" :=
    ⟨by decide, [], 5, [2], 9, by decide, by decide, by decide, by decide, by decide⟩
  constructor
  · refine (hexact [] (by decide)).mpr fun hendangered => ?_
    obtain ⟨name, hname⟩ := hendangered.1
    exact not_newer_of_unmarked (w := datedWorld []) (by decide) name hname
  · intro hkept
    exact (hexact betweenMarker (by decide)).mp hkept
      ⟨⟨"b.mp4", hnewer⟩, LEN_FILE_NAME, by decide, by decide⟩

/-- The pass removes the length with the older recording and leaves the newer one. -/
theorem finishDir_loses_key :
    node? (finishedDated betweenMarker) (.sealed 7) "b.mp4" = some (.file [2] 9) ∧
      node? (finishedDated betweenMarker) (.sealed 7) LEN_FILE_NAME = none ∧
      ¬ KeyKept 7 (datedWorld betweenMarker).disk (finishedDated betweenMarker) := by
  have hleft : node? (finishedDated betweenMarker) (.sealed 7) "b.mp4" = some (.file [2] 9) := by
    decide +kernel
  have hlost : node? (finishedDated betweenMarker) (.sealed 7) LEN_FILE_NAME = none := by
    decide +kernel
  refine ⟨hleft, hlost, fun hkept => ?_⟩
  have hsame := hkept ⟨"b.mp4", [2], 9, by decide, hleft⟩ LEN_FILE_NAME (by decide)
  rw [hlost] at hsame
  exact absurd hsame (by decide)

end SolstoneWindows.Proofs.PlTransportWin
