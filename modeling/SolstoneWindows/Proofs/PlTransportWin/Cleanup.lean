import SolstoneWindows.Proofs.PlTransportWin.Scan

/-!
# Giving up local copies

`Reason` lists the four grounds on which a media file is removed: an acknowledgement of the
current journal that lies in its directory, an acknowledgement that was proved in this run, the
journal's word that the owner removed the segment, and a legacy marker that is no older than the
file. The gate and the local finish pass are shown to remove media on such grounds only. Between
the look at a file and its removal other media may go and files may be added; `Reason` survives
both.
-/

set_option autoImplicit false

namespace SolstoneWindows.Proofs.PlTransportWin

open Lib.Effect Lib.Fs Relation
open ObserverPl.Ingest
open SolstoneWindows.PlTransportWin
open SolstoneWindows.PlatformWin (Place LEN_FILE_NAME AUDIO_SOURCES_FILE_NAME)

/-! ## Grounds -/

/-- An acknowledgement that the log proves: it was built from a valid receipt for an upload of the
segment, or from a listing in which the segment and the listed one match each other alone. -/
inductive Proven (lib : Libraries) (log : List Happening) (index : Nat) : UploadAck → Prop
  | upload {post : Post} {response : IngestResponse} {receipt : UploadReceipt}
    (hpost : .posted post ∈ log) (hindex : post.index = index)
    (hanswer : post.answer = some (.ok response)) (haccepted : response.status.isAccepted = true)
    (hreceipt : validateReceipt response (post.parts.map (localFileOf lib)) = .ok receipt) :
    Proven lib log index
      (uploadAck post.identity index post.day post.segmentKey response.status receipt)
  | listing {listing : Listing} {fact : UnknownSegmentFact} {item : SegmentItem}
    {files : List AckFile} (hlisting : .listed listing ∈ log) (hfact : fact ∈ listing.unknown)
    (hindex : fact.index = index)
    (hselected : selectedListing listing.envelope listing.unknown fact = some item)
    (hfiles : listingFiles fact item = some files) :
    Proven lib log index (listingAck listing.identity listing.day fact item files)

/-- One of the files covers a file with this name and these bytes. -/
def CoveredBy (lib : Libraries) (files : List AckFile) (name : String) (bytes : List UInt8) :
    Prop :=
  ∃ file ∈ files, file.covers ⟨name, true, bytes.length⟩ (lib.sha256Hex bytes) = true

/-- The journal's answer that the owner removed the segment. -/
def SaysRemoved (lib : Libraries) : Except RouteError IngestResponse → Prop
  | .ok response => response.status.isAccepted = false ∧ refusalReason response = "segment_removed"
  | .error (.transport error) => saysRemoved lib error = true
  | .error .awaitingConfirmation => False

/-- The kinds of ground on which media is removed. -/
inductive Kind where
  | marked
  | proven
  | disowned
  | legacy
  deriving DecidableEq

/-- A ground to remove the file with this name, these bytes and this time. -/
def Ground (lib : Libraries) (w : World) (index : Nat) (name : String) (bytes : List UInt8)
    (mtime : Nat) : Kind → Prop
  | .marked => ∃ marker markerTime ack,
    node? w.disk (.sealed index) UPLOADED_MARKER = some (.file marker markerTime) ∧
      UploadAck.fromBytes lib marker = some ack ∧ sameJournal ack w.identity = true ∧
      CoveredBy lib ack.files name bytes
  | .proven => ∃ ack, Proven lib w.log index ack ∧ ack.journalIdentity = w.identity ∧
      CoveredBy lib ack.files name bytes
  | .disowned => ∃ post answer, .posted post ∈ w.log ∧ post.index = index ∧
      post.identity = w.identity ∧ post.answer = some answer ∧ SaysRemoved lib answer ∧
      ∃ part ∈ post.parts, part.filename = name ∧ lib.sha256Hex part.bytes = lib.sha256Hex bytes
  | .legacy => ∃ marker markerTime,
    node? w.disk (.sealed index) UPLOADED_MARKER = some (.file marker markerTime) ∧
      UploadAck.fromBytes lib marker = none ∧ isStructured marker = false ∧ mtime ≤ markerTime

/-- A file that is there, with a ground to remove it. -/
def Reason (lib : Libraries) (kind : Kind) (w : World) (index : Nat) (name : String) : Prop :=
  ∃ bytes mtime, node? w.disk (.sealed index) name = some (.file bytes mtime) ∧
    Ground lib w index name bytes mtime kind

/-- An entry that is there, with a ground to remove it if it is a file. -/
def Excused (lib : Libraries) (kind : Kind) (w : World) (index : Nat) (name : String) : Prop :=
  ∃ node, node? w.disk (.sealed index) name = some node ∧
    ∀ bytes mtime, node = .file bytes mtime → Ground lib w index name bytes mtime kind

variable {ack : UploadAck} {D : Outside → Prop}

section Grounds

variable {lib : Libraries} {kind : Kind} {w w' : World} {index : Nat} {name : String}
  {bytes : List UInt8} {mtime : Nat}

theorem Proven.mono {log log' : List Happening} (hlog : ∀ e ∈ log, e ∈ log')
    (h : Proven lib log index ack) : Proven lib log' index ack := by
  cases h with
  | upload hpost hindex hanswer haccepted hreceipt =>
    exact .upload (hlog _ hpost) hindex hanswer haccepted hreceipt
  | listing hlisting hfact hindex hselected hfiles =>
    exact .listing (hlog _ hlisting) hfact hindex hselected hfiles

/-- A ground stays a ground while the log grows, the journal stays and the marker stays. -/
theorem Ground.mono (h : Ground lib w index name bytes mtime kind)
    (hlog : ∀ e ∈ w.log, e ∈ w'.log) (hidentity : w'.identity = w.identity)
    (hmarker : ∀ node, node? w.disk (.sealed index) UPLOADED_MARKER = some node →
      node? w'.disk (.sealed index) UPLOADED_MARKER = some node) :
    Ground lib w' index name bytes mtime kind := by
  cases kind with
  | marked =>
    obtain ⟨marker, markerTime, ack, hnode, hrest⟩ := h
    exact ⟨marker, markerTime, ack, hmarker _ hnode, hidentity ▸ hrest⟩
  | proven =>
    obtain ⟨ack, hproven, hsame, hcovered⟩ := h
    exact ⟨ack, hproven.mono hlog, hidentity ▸ hsame, hcovered⟩
  | disowned =>
    obtain ⟨post, answer, hpost, hindex, hsame, hrest⟩ := h
    exact ⟨post, answer, hlog _ hpost, hindex, hidentity ▸ hsame, hrest⟩
  | legacy =>
    obtain ⟨marker, markerTime, hnode, hrest⟩ := h
    exact ⟨marker, markerTime, hmarker _ hnode, hrest⟩

theorem Ground.peeks (hw : Peeks D w w') (h : Ground lib w index name bytes mtime kind) :
    Ground lib w' index name bytes mtime kind := by
  refine h.mono (fun e he => ?_) hw.grown.identity fun _ hn => hw.grown.node hn
  rwa [hw.grown.log]

theorem Reason.excused (h : Reason lib kind w index name) : Excused lib kind w index name := by
  obtain ⟨bytes, mtime, hnode, hground⟩ := h
  refine ⟨_, hnode, fun bytes' mtime' heq => ?_⟩
  cases heq
  exact hground

theorem Excused.reason (h : Excused lib kind w index name)
    (hnode : node? w.disk (.sealed index) name = some (.file bytes mtime)) :
    Reason lib kind w index name := by
  obtain ⟨node, hnode', hground⟩ := h
  rw [hnode] at hnode'
  cases hnode'
  exact ⟨bytes, mtime, hnode, hground bytes mtime rfl⟩

/-- What others add leaves an excuse alone. -/
theorem Excused.peeks (hw : Peeks D w w')
    (h : Excused lib kind w index name) : Excused lib kind w' index name := by
  obtain ⟨node, hnode, hground⟩ := h
  exact ⟨node, hw.grown.node hnode, fun bytes mtime heq => (hground bytes mtime heq).peeks hw⟩

/-- The removal of other media leaves an excuse alone. -/
theorem Excused.keep {other : String} (hmedia : isMedia other = true) (hne : name ≠ other)
    (h : Excused lib kind w index name) : Excused lib kind (removing w index other) index name := by
  obtain ⟨node, hnode, hground⟩ := h
  have hmarker : UPLOADED_MARKER ≠ other := by
    rintro rfl
    exact absurd hmedia (by decide)
  refine ⟨node, ?_, fun bytes mtime heq => (hground bytes mtime heq).mono ?_ rfl ?_⟩
  · rw [node?_removing, if_neg (fun h => hne h.2), hnode]
  · intro e he
    exact List.mem_append_left _ he
  · intro node hnode
    rw [node?_removing, if_neg (fun h => hmarker h.2), hnode]

end Grounds

/-! ## The removal loop -/

/-- Names that may be removed in this order: media with an excuse, then sidecars. -/
def Removable (lib : Libraries) (kind : Kind) (index : Nat) (names : List String) (w : World) :
    Prop :=
  ∃ media side, names = media ++ side ∧ media.Nodup ∧
    (∀ n ∈ media, isMedia n = true ∧ Excused lib kind w index n) ∧ ∀ n ∈ side, isMedia n = false

section Loop

variable {lib : Libraries} {kind : Kind} {rules : Rules} (hD : rules.outside default)
  {w : World} {index : Nat} {ε : Type} {name : String} {names : List String}

/-- Whether the first name is removed or turned out to be absent, the others stay removable. -/
theorem Removable.tail {w' : World} (h : Removable lib kind index (name :: names) w)
    (hkeep : ∀ m, isMedia name = true → m ≠ name → Excused lib kind w index m →
      Excused lib kind w' index m) : Removable lib kind index names w' := by
  obtain ⟨media, side, heq, hnodup, hmedia, hside⟩ := h
  cases media with
  | nil =>
    rw [List.nil_append] at heq
    subst heq
    exact ⟨[], names, rfl, List.nodup_nil, nofun, fun m hm => hside m (List.mem_cons_of_mem _ hm)⟩
  | cons m media =>
    cases heq
    obtain ⟨hfresh, hnodup⟩ := List.nodup_cons.mp hnodup
    refine ⟨media, side, rfl, hnodup, fun m hm => ?_, hside⟩
    obtain ⟨hm', hexcused⟩ := hmedia m (List.mem_cons_of_mem _ hm)
    have hne : m ≠ name := fun h => hfresh (h ▸ hm)
    exact ⟨hm', hkeep m (hmedia name List.mem_cons_self).1 hne hexcused⟩

include hD

theorem removeAll_removable (htouch : rules.touches index)
    (hallow : ∀ n ∈ names, isMedia n = true → ∀ w, Reason lib kind w index n →
      rules.removes w index n) (h : Removable lib kind index names w) :
    Along lib rules w (removeAll index names : UploadProg ε Bool) fun _ _ => True := by
  refine removeAll_along (P := fun names w => Removable lib kind index names w ∧
    ∀ n ∈ names, isMedia n = true → ∀ w, Reason lib kind w index n → rules.removes w index n)
    hD ?_ ?_ ?_ ?_ ⟨h, hallow⟩
  · rintro n names w1 bytes mtime ⟨⟨media, side, heq, -, hmedia, hside⟩, hallow⟩ hnode
    refine .inr ⟨htouch, ?_⟩
    cases media with
    | nil =>
      rw [List.nil_append] at heq
      exact .inl (hside n (heq ▸ List.mem_cons_self))
    | cons m media =>
      cases heq
      obtain ⟨hm, hexcused⟩ := hmedia n List.mem_cons_self
      exact .inr (hallow n List.mem_cons_self hm w1 (hexcused.reason hnode))
  · rintro names w1 w2 ⟨⟨media, side, heq, hnodup, hmedia, hside⟩, hallow⟩ hpeek
    exact ⟨⟨media, side, heq, hnodup,
      fun n hn => ⟨(hmedia n hn).1, (hmedia n hn).2.peeks hpeek⟩, hside⟩, hallow⟩
  · rintro n names w1 ⟨hnames, hallow⟩
    exact ⟨hnames.tail fun _ _ _ h => h, fun m hm => hallow m (List.mem_cons_of_mem _ hm)⟩
  · rintro n names w1 ⟨hnames, hallow⟩
    exact ⟨hnames.tail fun _ hmedia hne h => h.keep hmedia hne,
      fun m hm => hallow m (List.mem_cons_of_mem _ hm)⟩

end Loop

/-! ## The gate -/

/-- What the reading pass of the gate finds out about the media it was given. -/
structure Checked (lib : Libraries) (w : World) (index : Nat) (expected : List AckFile)
    (media : List DirEntryFact) (matched : List String) (uncovered : Bool) : Prop where
  sublist : matched.Sublist (media.map (·.name))
  covered : ∀ name ∈ matched, ∃ bytes mtime,
    node? w.disk (.sealed index) name = some (.file bytes mtime) ∧ CoveredBy lib expected name bytes
  rest : uncovered = true ↔ ∃ entry ∈ media, ∃ bytes mtime,
    node? w.disk (.sealed index) entry.name = some (.file bytes mtime) ∧
      ¬ CoveredBy lib expected entry.name bytes
  taken : ∀ entry ∈ media, ∀ bytes mtime,
    node? w.disk (.sealed index) entry.name = some (.file bytes mtime) →
      CoveredBy lib expected entry.name bytes → entry.name ∈ matched

section Gate

variable {lib : Libraries}

variable {expected : List AckFile} {w : World} {index now : Nat}

/-- The gate's test of an entry is the one on its name and bytes. -/
theorem covers_iff {entry : DirEntryFact} {bytes : List UInt8}
    (hsize : entry.sizeBytes = bytes.length) :
    expected.any (·.covers entry (lib.sha256Hex bytes)) = true ↔
      CoveredBy lib expected entry.name bytes := by
  rw [List.any_eq_true]
  unfold CoveredBy AckFile.covers
  simp only [hsize]

theorem checkMedia_peeks (hD : D default)
    {media : List DirEntryFact}
    (hmedia : ∀ e ∈ media, ∃ node, node? w.disk (.sealed index) e.name = some node ∧
      e = entryFact (e.name, node)) :
    Moves D (Peeks D) w (checkMedia lib index expected media) fun r w' =>
      Checked lib w' index expected media r.1 r.2 := by
  induction media generalizing w with
  | nil => exact Moves.pure ⟨List.Sublist.slnil, nofun, by simp, nofun⟩
  | cons entry media ih =>
    refine (readFile_peeks hD index entry.name).bind fun bytes w1 hw1 hread => ?_
    obtain ⟨mtime, hread⟩ := hread
    have hmedia1 : ∀ e ∈ entry :: media, ∃ node,
        node? w1.disk (.sealed index) e.name = some node ∧ e = entryFact (e.name, node) := by
      intro e he
      obtain ⟨node, hnode, heq⟩ := hmedia e he
      exact ⟨node, hw1.grown.node hnode, heq⟩
    -- The file that was read is the one that was listed.
    have hsize : entry.sizeBytes = bytes.length := by
      obtain ⟨node, hnode, heq⟩ := hmedia1 entry List.mem_cons_self
      rw [hread] at hnode
      cases hnode
      rw [heq]
      rfl
    refine (ih fun e he => hmedia1 e (List.mem_cons_of_mem _ he)).bind
      fun r w2 hw2 hrest => ?_
    obtain ⟨matched, uncovered⟩ := r
    have hnode := hw2.grown.node hread
    by_cases hcovers : expected.any (·.covers entry (lib.sha256Hex bytes)) = true
    · have hcovered := (covers_iff hsize).mp hcovers
      simp only [hcovers, if_true]
      refine Moves.pure ⟨hrest.sublist.cons_cons _, ?_, ?_, ?_⟩
      · intro name hname
        rcases List.mem_cons.mp hname with rfl | hname
        · exact ⟨bytes, mtime, hnode, hcovered⟩
        · exact hrest.covered name hname
      · rw [hrest.rest]
        constructor
        · rintro ⟨e, he, hbad⟩
          exact ⟨e, List.mem_cons_of_mem _ he, hbad⟩
        · rintro ⟨e, he, bytes', mtime', hnode', hbad⟩
          rcases List.mem_cons.mp he with rfl | he
          · rw [hnode] at hnode'
            cases hnode'
            exact absurd hcovered hbad
          · exact ⟨e, he, bytes', mtime', hnode', hbad⟩
      · intro e he bytes' mtime' hnode' hcovered'
        rcases List.mem_cons.mp he with rfl | he
        · exact List.mem_cons_self
        · exact List.mem_cons_of_mem _ (hrest.taken e he bytes' mtime' hnode' hcovered')
    · have hbad : ¬ CoveredBy lib expected entry.name bytes := fun h =>
        hcovers ((covers_iff hsize).mpr h)
      simp only [hcovers]
      refine Moves.pure ⟨hrest.sublist.cons _, hrest.covered, ?_, ?_⟩
      · exact ⟨fun _ => ⟨entry, List.mem_cons_self, bytes, mtime, hnode, hbad⟩, fun _ => rfl⟩
      · intro e he bytes' mtime' hnode' hcovered'
        rcases List.mem_cons.mp he with rfl | he
        · rw [hnode] at hnode'
          cases hnode'
          exact absurd hcovered' hbad
        · exact hrest.taken e he bytes' mtime' hnode' hcovered'

/-- The expected files of a gate are grounds for what they cover. -/
def Backs (lib : Libraries) (kind : Kind) (w : World) (index : Nat) (expected : List AckFile) :
    Prop :=
  ∀ name bytes mtime, CoveredBy lib expected name bytes → Ground lib w index name bytes mtime kind

theorem Backs.peeks {kind : Kind} {w' : World}
    (hw : Peeks D w w') (h : Backs lib kind w index expected) :
    Backs lib kind w' index expected :=
  fun name bytes mtime hcovered => (h name bytes mtime hcovered).peeks hw

variable {kind : Kind} {rules : Rules} (hD : rules.outside default) {w : World} {index : Nat}
  {expected : List AckFile}

include hD

theorem gateRemove_along {matched : List String} {uncovered : Bool} (htouch : rules.touches index)
    (hallow : ∀ n ∈ matched, ∀ w, Reason lib kind w index n → rules.removes w index n)
    (hnodup : matched.Nodup)
    (hmatched : ∀ n ∈ matched, isMedia n = true ∧ Excused lib kind w index n) :
    Along lib rules w (gateRemove index matched uncovered) fun _ _ => True := by
  have hside : ∀ n ∈ (if uncovered then [] else [LEN_FILE_NAME, AUDIO_SOURCES_FILE_NAME]) ++
      [UPLOADED_MARKER, UPLOADED_TMP_MARKER], isMedia n = false := by
    cases uncovered <;> decide
  have hnames : Removable lib kind index
      (matched ++ (if uncovered then [] else [LEN_FILE_NAME, AUDIO_SOURCES_FILE_NAME]) ++
        [UPLOADED_MARKER, UPLOADED_TMP_MARKER]) w :=
    ⟨matched, _, List.append_assoc _ _ _, hnodup, hmatched, hside⟩
  have hallow' : ∀ n ∈ matched ++ (if uncovered then [] else [LEN_FILE_NAME,
      AUDIO_SOURCES_FILE_NAME]) ++ [UPLOADED_MARKER, UPLOADED_TMP_MARKER], isMedia n = true →
      ∀ w, Reason lib kind w index n → rules.removes w index n := by
    intro n hn hmedia
    rw [List.append_assoc] at hn
    rcases List.mem_append.mp hn with hn | hn
    · exact hallow n hn
    · rw [hside n hn] at hmedia
      cases hmedia
  refine (removeAll_removable hD htouch hallow' hnames).bind fun done w1 _ _ => ?_
  split
  · exact Moves.pure trivial
  · split
    · exact Moves.pure trivial
    · exact (removeSegmentDir_along hD htouch).attempt_bind (fun _ _ _ _ => Moves.pure trivial)
        fun _ _ _ => Moves.pure trivial

/-- The gate removes only media that the expected files are a ground for. -/
theorem tryGateDelete_along (htouch : rules.touches index)
    (hallow : ∀ name bytes, CoveredBy lib expected name bytes →
      ∀ w, Reason lib kind w index name → rules.removes w index name)
    (hbacks : Backs lib kind w index expected) :
    Along lib rules w (tryGateDelete lib index expected) fun _ _ => True := by
  have hlist : ∀ w, Along lib rules w (listEntries index) fun entries w' =>
      Lists w' index entries ∧ Peeks rules.outside w w' := fun w =>
    along_of_peeks ((listEntries_peeks hD index).weaken fun _ _ hpeek h => ⟨h, hpeek⟩)
  refine (hlist w).bind fun entries w1 _ h1 => ?_
  obtain ⟨hlists, hw1⟩ := h1
  split
  · exact Moves.pure trivial
  have hcheck : Along lib rules w1
      (checkMedia lib index expected (entries.filter (isMedia ·.name))) fun r w' =>
        Checked lib w' index expected (entries.filter (isMedia ·.name)) r.1 r.2 ∧
          Peeks rules.outside w1 w' :=
    along_of_peeks ((checkMedia_peeks hD hlists.filter).weaken fun _ _ hpeek h => ⟨h, hpeek⟩)
  refine hcheck.bind fun r w2 _ h2 => ?_
  obtain ⟨matched, uncovered⟩ := r
  obtain ⟨hchecked, hw2⟩ := h2
  refine (hlist w2).bind fun recheck w3 _ h3 => ?_
  split
  · exact Moves.pure trivial
  split
  · exact Moves.pure trivial
  have hexcused : ∀ n ∈ matched, isMedia n = true ∧ Excused lib kind w3 index n := by
    intro n hn
    obtain ⟨entry, hentry, rfl⟩ := List.mem_map.mp (hchecked.sublist.subset hn)
    obtain ⟨bytes, mtime, hnode, hcovered⟩ := hchecked.covered _ hn
    have hreason : Reason lib kind w2 index entry.name :=
      ⟨bytes, mtime, hnode, ((hbacks.peeks hw1).peeks hw2) _ bytes mtime hcovered⟩
    exact ⟨by simpa using List.of_mem_filter hentry, hreason.excused.peeks h3.2⟩
  refine gateRemove_along hD htouch ?_ ?_ hexcused
  · intro n hn
    obtain ⟨bytes, mtime, -, hcovered⟩ := hchecked.covered n hn
    exact hallow n bytes hcovered
  · exact (hlists.nodup.sublist (List.filter_sublist.map _)).sublist hchecked.sublist

/-- The gate of a whole turn, with a hold when it is blocked. -/
theorem gateOrHold_along {ε : Type} (htouch : rules.touches index)
    (hallow : ∀ w name, Reason lib kind w index name → rules.removes w index name)
    (hbacks : Backs lib kind w index expected) :
    Along lib rules w (gateOrHold lib index expected now : UploadProg ε Unit)
      fun _ _ => True := by
  refine (tryGateDelete_along hD htouch (fun name _ _ w => hallow w name) hbacks).attempt_bind
    (fun result _ _ _ => ?_) fun _ _ _ => setHold_along htouch
  cases result with
  | blocked => exact setHold_along htouch
  | deleted | partially | stopped => exact Moves.pure trivial

theorem finishSegmentRemoved_along {ε : Type} {localFiles : List LocalFile}
    (htouch : rules.touches index)
    (hallow : ∀ w name, Reason lib kind w index name → rules.removes w index name)
    (hbacks : Backs lib kind w index (localFiles.map fun f =>
      { submitted := f.name, written := f.name, size := f.size, sha256 := f.sha256
        disposition := none, listingStatus := none })) :
    Along lib rules w (finishSegmentRemoved lib index localFiles now : UploadProg ε Unit)
      fun _ _ => True := by
  refine (tryGateDelete_along hD htouch (fun name _ _ w => hallow w name) hbacks).attempt_bind
    (fun result _ _ _ => ?_) fun _ _ _ => setHold_along htouch
  cases result with
  | deleted | partially => exact publish_along _
  | blocked | stopped => exact setHold_along htouch

end Gate

/-! ## Local finish -/

/-- Rules under which the local finish pass may work on a directory. -/
structure Finishing (lib : Libraries) (rules : Rules) (index : Nat) : Prop where
  touch : rules.touches index
  marked : ∀ w name, Reason lib .marked w index name → rules.removes w index name
  legacy : ∀ w name, Reason lib .legacy w index name → rules.removes w index name

/-- Nothing was recorded or taken away, and the journal is the same. -/
structure Looks (w w' : World) : Prop extends SameTale w w' where
  node : ∀ {k name node}, node? w.disk k name = some node → node? w'.disk k name = some node

variable {w w' : World}

theorem Looks.trans {w'' : World} (h : Looks w w') (h' : Looks w' w'') : Looks w w'' :=
  ⟨h.toSameTale.trans h'.toSameTale, fun hn => h'.node (h.node hn)⟩

theorem Peeks.looks (h : Peeks D w w') : Looks w w' :=
  ⟨h.sameTale, h.grown.node⟩

section Finish

variable {lib : Libraries} {rules : Rules} (hD : rules.outside default) {w : World}
  {index now : Nat}
  {ε : Type}

include hD

section

variable (htouch : rules.touches index)

include htouch

/-- Sidecars may always be removed. -/
theorem removeAll_sidecars {names : List String} (hside : ∀ n ∈ names, isMedia n = false) :
    Along lib rules w (removeAll index names : UploadProg ε Bool) fun _ _ => True := by
  have hnames : Removable lib .marked index names w :=
    ⟨[], names, rfl, List.nodup_nil, nofun, hside⟩
  refine removeAll_removable hD htouch (fun n hn hmedia => ?_) hnames
  rw [hside n hn] at hmedia
  cases hmedia

theorem removeDirOrHold_along :
    Along lib rules w (removeDirOrHold index now : UploadProg ε Unit) fun _ _ => True :=
  (removeSegmentDir_along hD htouch).attempt_bind (fun _ _ _ _ => Moves.pure trivial)
    fun _ _ _ => setHold_along htouch

theorem finishUnmarked_along :
    Along lib rules w (finishUnmarked index now : UploadProg ε Unit) fun _ _ => True := by
  refine (along_of_peeks (listEntries_peeks hD index)).attempt_bind (fun entries w1 _ _ => ?_)
    fun _ _ _ => Moves.pure trivial
  dsimp only
  split
  · exact Moves.pure trivial
  · refine (removeAll_sidecars hD htouch (by decide)).bind fun done w2 _ _ => ?_
    split
    · exact setHold_along htouch
    · exact removeDirOrHold_along hD htouch

theorem dropMarker_along :
    Along lib rules w (dropMarker index now : UploadProg ε Unit) fun _ _ => True := by
  have hmay : ∀ w1 bytes mtime, Peeks rules.outside w w1 →
      node? w1.disk (.sealed index) UPLOADED_MARKER = some (.file bytes mtime) →
      rules.mayRemove w1 index UPLOADED_MARKER := fun _ _ _ _ _ => .inr ⟨htouch, .inl rfl⟩
  refine (removeEntry_along hD hmay).bind fun r w1 _ _ => ?_
  match r with
  | .ok () | .error .notFound => exact Moves.pure trivial
  | .error .failed | .error (.invalid _) => exact setHold_along htouch

end

theorem listEntries_looks : Along lib rules w (listEntries index) fun _ w' => Looks w w' :=
  along_of_peeks ((listEntries_peeks hD index).weaken fun _ _ hpeek _ => hpeek.looks)

variable {periodSecs : Nat} {segment : SealedSegment}

/-- An acknowledgement counts only under the journal it is from. -/
theorem physicalMatch_along :
    Along lib rules w (physicalMatch periodSecs index segment ack) fun r w' =>
      Looks w w' ∧ (r = true → sameJournal ack w.identity = true) := by
  have hstay : Looks w w := ⟨⟨rfl, rfl⟩, id⟩
  refine Moves.get_bind ?_
  cases hjournal : sameJournal ack w.identity with
  | false => exact Moves.pure ⟨hstay, nofun⟩
  | true =>
    simp only [Bool.not_true, Bool.false_eq_true, if_false]
    split
    · exact Moves.pure ⟨hstay, fun _ => trivial⟩
    have hzone : Along lib rules w (localZone segment.boundaryEpochSecs : StoreProg _)
        fun _ w' => Looks w w' :=
      Moves.call hD fun o ho => ⟨.single (.rezoned ho), fun _ _ => ⟨⟨rfl, rfl⟩, id⟩⟩
    refine hzone.bind fun zone w1 _ hw1 => ?_
    match zone with
    | none => exact Moves.pure ⟨hw1, nofun⟩
    | some zone =>
      dsimp only
      split
      · exact Moves.pure ⟨hw1, nofun⟩
      · refine (listEntries_looks hD).bind fun entries w2 _ hw2 => ?_
        exact Moves.pure ⟨hw1.trans hw2, fun _ => trivial⟩

variable {marker : List UInt8}

/-- Under an acknowledgement, the gate removes what it covers. -/
theorem finishAcked_along (hrules : Finishing lib rules index)
    (hmarker : ∃ mtime, node? w.disk (.sealed index) UPLOADED_MARKER = some (.file marker mtime))
    (hack : UploadAck.fromBytes lib marker = some ack) :
    Along lib rules w (finishAcked lib periodSecs index now segment ack : UploadProg ε Unit)
      fun _ _ => True := by
  refine (physicalMatch_along hD).attempt_bind (fun fits w1 _ h => ?_)
    fun _ _ _ => setHold_along hrules.touch
  cases fits with
  | false => exact dropMarker_along hD hrules.touch
  | true =>
    refine (listEntries_looks hD).attempt_bind (fun entries w2 _ hw2 => ?_)
      fun _ _ _ => setHold_along hrules.touch
    have hlook := h.1.trans hw2
    dsimp only
    split
    · exact dropMarker_along hD hrules.touch
    · refine gateOrHold_along hD hrules.touch hrules.marked ?_
      intro name bytes mtime hcovered
      obtain ⟨markerTime, hnode⟩ := hmarker
      exact ⟨marker, markerTime, ack, hlook.node hnode, hack, hlook.identity ▸ h.2 rfl, hcovered⟩

/-- What the mtime rule knows of the media it looked at. -/
def Timed (w : World) (index : Nat) (name : String) (time : Nat) : Prop :=
  ∃ node, node? w.disk (.sealed index) name = some node ∧
    ∀ bytes mtime, node = .file bytes mtime → time = mtime

omit hD in
theorem Timed.peeks {name : String} {time : Nat} (hw : Peeks D w w')
    (h : Timed w index name time) : Timed w' index name time := by
  obtain ⟨node, hnode, htime⟩ := h
  exact ⟨node, hw.grown.node hnode, htime⟩

omit hD in
theorem mediaTimes_peeks (hD : D default) {media : List DirEntryFact}
    (hmedia : ∀ e ∈ media, ∃ node, node? w.disk (.sealed index) e.name = some node) :
    Moves D (Peeks D) w (mediaTimes index media) fun times w' =>
      times.map (·.1) = media.map (·.name) ∧ ∀ t ∈ times, Timed w' index t.1 t.2 := by
  induction media generalizing w with
  | nil => exact Moves.pure ⟨rfl, nofun⟩
  | cons entry media ih =>
    refine (modified_peeks hD index entry.name).bind fun time w1 hw1 htime => ?_
    have hmedia1 : ∀ e ∈ entry :: media, ∃ node,
        node? w1.disk (.sealed index) e.name = some node := by
      intro e he
      obtain ⟨node, hnode⟩ := hmedia e he
      exact ⟨node, hw1.grown.node hnode⟩
    obtain ⟨node, hnode⟩ := hmedia1 entry List.mem_cons_self
    have htimed : Timed w1 index entry.name time := by
      refine ⟨node, hnode, fun bytes mtime heq => htime bytes mtime ?_⟩
      rw [hnode, heq]
    refine (ih fun e he => hmedia1 e (List.mem_cons_of_mem _ he)).bind fun times w2 hw2 hrest => ?_
    refine Moves.pure ⟨congrArg (entry.name :: ·) hrest.1, ?_⟩
    intro t ht
    rcases List.mem_cons.mp ht with rfl | ht
    · exact htimed.peeks hw2
    · exact hrest.2 t ht

/-- What the mtime rule reads: the time of the marker, and all media with its times. -/
structure Dated (w w' : World) (index markerTime : Nat) (times : List (String × Nat)) : Prop where
  marker : Timed w' index UPLOADED_MARKER markerTime
  nodup : (times.map (·.1)).Nodup
  complete : ∀ name node, isMedia name = true → node? w.disk (.sealed index) name = some node →
    name ∈ times.map (·.1)
  media : ∀ t ∈ times, isMedia t.1 = true ∧ Timed w' index t.1 t.2

omit hD in
/-- The times the mtime rule reads are those of the files. -/
theorem legacyTimes_peeks (hD : D default)
    (hmarker : ∃ node, node? w.disk (.sealed index) UPLOADED_MARKER = some node) :
    Moves D (Peeks D) w (legacyTimes index) fun r w' => Dated w w' index r.1 r.2 := by
  refine (modified_peeks hD index UPLOADED_MARKER).bind fun markerTime w1 hw1 htime => ?_
  have htimed : Timed w1 index UPLOADED_MARKER markerTime := by
    obtain ⟨node, hnode⟩ := hmarker
    refine ⟨node, hw1.grown.node hnode, fun bytes mtime heq => htime bytes mtime ?_⟩
    rw [hw1.grown.node hnode, heq]
  refine (listEntries_peeks hD index).bind fun entries w2 hw2 hlists => ?_
  have hmedia : ∀ e ∈ entries.filter (isMedia ·.name), ∃ node,
      node? w2.disk (.sealed index) e.name = some node := by
    intro e he
    obtain ⟨node, hnode, -⟩ := (hlists.mem e).mp (List.mem_of_mem_filter he)
    exact ⟨node, hnode⟩
  refine (mediaTimes_peeks hD hmedia).bind fun times w3 hw3 htimes => ?_
  refine Moves.pure ⟨(htimed.peeks hw2).peeks hw3, ?_, ?_, ?_⟩
  · rw [htimes.1]
    exact hlists.nodup.sublist (List.filter_sublist.map _)
  · intro name node hmedia hnode
    have hentry : entryFact (name, node) ∈ entries :=
      (hlists.mem _).mpr ⟨node, hw2.grown.node (hw1.grown.node hnode), rfl⟩
    rw [htimes.1]
    exact List.mem_map_of_mem (List.mem_filter.mpr ⟨hentry, hmedia⟩)
  · intro t ht
    refine ⟨?_, htimes.2 t ht⟩
    have hname : t.1 ∈ (entries.filter (isMedia ·.name)).map (·.name) :=
      htimes.1 ▸ List.mem_map_of_mem ht
    obtain ⟨entry, hentry, hname⟩ := List.mem_map.mp hname
    rw [← hname]
    simpa using List.of_mem_filter hentry

/-- Under a legacy marker, media that is no newer than it goes. -/
theorem finishLegacy_along (hrules : Finishing lib rules index)
    (hmarker : ∃ mtime, node? w.disk (.sealed index) UPLOADED_MARKER = some (.file marker mtime))
    (hack : UploadAck.fromBytes lib marker = none) :
    Along lib rules w (finishLegacy index now marker : UploadProg ε Unit) fun _ _ => True := by
  unfold finishLegacy
  split
  · exact Moves.pure trivial
  rename_i hplain
  obtain ⟨stamp, hnode⟩ := hmarker
  have htimes : Along lib rules w (legacyTimes index) fun r w' =>
      Dated w w' index r.1 r.2 ∧ Peeks rules.outside w w' :=
    along_of_peeks ((legacyTimes_peeks hD ⟨_, hnode⟩).weaken fun _ _ hpeek h => ⟨h, hpeek⟩)
  refine htimes.attempt_bind ?_ fun _ _ _ => Moves.pure trivial
  rintro ⟨markerTime, times⟩ w1 _ ⟨⟨⟨node, hnode1, htime⟩, hnodup, -, htimed⟩, hpeek⟩
  replace hnode := hpeek.grown.node hnode
  rw [hnode1] at hnode
  cases hnode
  -- What the rule takes is no newer than the marker, which is still there.
  have hnames : Removable lib .legacy index ((times.filter fun t => t.2 ≤ markerTime).map (·.1) ++
        [LEN_FILE_NAME, AUDIO_SOURCES_FILE_NAME, UPLOADED_MARKER, UPLOADED_TMP_MARKER]) w1 := by
    refine ⟨_, _, rfl, hnodup.sublist (List.filter_sublist.map _), ?_, by decide⟩
    intro n hn
    obtain ⟨t, ht, rfl⟩ := List.mem_map.mp hn
    obtain ⟨ht, hle⟩ := List.mem_filter.mp ht
    obtain ⟨hmedia, node', hnode', htime'⟩ := htimed t ht
    refine ⟨hmedia, node', hnode', fun bytes mtime heq => ?_⟩
    refine ⟨marker, stamp, hnode1, hack, by simpa using hplain, ?_⟩
    rw [← htime' bytes mtime heq, ← htime marker stamp rfl]
    simpa using hle
  refine (removeAll_removable hD hrules.touch (fun n _ _ w => hrules.legacy w n) hnames).bind
    fun done w2 _ _ => ?_
  split
  · exact setHold_along hrules.touch
  refine (along_of_peeks (listEntries_peeks hD index)).attempt_bind (fun remaining w3 _ _ => ?_)
    fun _ _ _ => removeDirOrHold_along hD hrules.touch
  cases remaining with
  | nil => exact removeDirOrHold_along hD hrules.touch
  | cons _ _ => exact Moves.pure trivial

theorem finishDir_along (hrules : Finishing lib rules segment.index) :
    Along lib rules w (finishDir lib periodSecs now segment : UploadProg ε Unit)
      fun _ _ => True := by
  refine Moves.get_bind ?_
  split
  · exact Moves.pure trivial
  refine (along_of_peeks (readFile_peeks hD segment.index UPLOADED_MARKER)).attempt_bind ?_ ?_
  · intro marker w1 _ hmarker
    dsimp only
    split
    · exact finishAcked_along hD hrules hmarker (by assumption)
    · exact finishLegacy_along hD hrules hmarker (by assumption)
  · intro e w1 _
    cases e with
    | notFound => exact finishUnmarked_along hD hrules.touch
    | failed | invalid _ => exact Moves.pure trivial

theorem finishDirs_along {segments : List SealedSegment}
    (hrules : ∀ index, Finishing lib rules index) :
    Along lib rules w (finishDirs lib periodSecs now segments : UploadProg ε Unit)
      fun _ _ => True := by
  induction segments generalizing w with
  | nil => exact Moves.pure trivial
  | cons segment segments ih =>
    exact (finishDir_along hD (hrules _)).bind fun _ w1 _ _ => ih

theorem recountQuarantined_along :
    Along lib rules w (recountQuarantined : UploadProg ε Unit) fun _ _ => True :=
  ((along_of_peeks (listDirs_peeks hD)).bind fun _ _ _ _ =>
    countMediaDirs_peeks hD _).attempt_bind (fun _ _ _ _ => publish_along _)
    fun _ _ _ => Moves.pure trivial

theorem attempt_scan_along (want : Bool) :
    Along lib rules w (Prog.attempt (scanFiltered lib periodSecs want) : UploadProg ε _)
      fun r w' => ∀ segments, r = .ok segments →
        Scanned lib periodSecs rules.outside want w w' segments :=
  ((scanFiltered_idle hD want).imp fun _ =>
    ReflTransGen.mono (fun _ _ => Change.mono (idle_le rules)) _ _).attempt

/-- A local finish pass removes media that an acknowledgement covers or a legacy marker dates. -/
theorem localFinish_along (hrules : ∀ index, Finishing lib rules index) :
    Along lib rules w (localFinish lib periodSecs now : UploadProg ε Unit) fun _ _ => True := by
  refine (attempt_scan_along hD false).bind fun scanned w1 _ _ => ?_
  refine (attempt_scan_along hD true).bind fun acknowledged w2 _ _ => ?_
  refine (finishDirs_along hD hrules).bind fun _ w3 _ _ => ?_
  exact recountQuarantined_along hD

end Finish

end SolstoneWindows.Proofs.PlTransportWin
