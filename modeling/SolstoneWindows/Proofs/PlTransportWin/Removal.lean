import SolstoneWindows.Proofs.PlTransportWin.Tick

/-!
# No media goes without a ground

A history of the uploader is any chain of ticks, local finish passes, restarts and new pairings,
in any surroundings in which nobody else writes acknowledgements. `Sound` is its invariant: every
acknowledgement on disk was proved by an upload or a listing of its own segment, and every
removal of media on record was entitled by what happened before it.

`Sound` is closed under one `Change` of the lawful rules, so under every run of the coordinator.
The one name the rules leave out is `.refused-by`: the gate counts it as media, but a scan drops
it as a leftover of a set-aside.
-/

set_option autoImplicit false

namespace SolstoneWindows.Proofs.PlTransportWin

open Lib.Effect Lib.Fs Relation
open ObserverPl.Ingest
open SolstoneWindows.PlTransportWin
open SolstoneWindows.PlatformWin (Place quarantineName)

/-! ## Histories -/

/-- One step of a history of the uploader. -/
inductive UploaderStep (lib : Libraries) (periodSecs : Nat) (D : Outside → Prop) :
    World → World → Prop
  | ticked {w : World} {ds : List Outside} (hds : ∀ o ∈ ds, D o) :
    UploaderStep lib periodSecs D w ((tick lib periodSecs).final ds w)
  | finished {w : World} {ds : List Outside} (now : Nat) (hds : ∀ o ∈ ds, D o) :
    UploaderStep lib periodSecs D w
      ((localFinish lib periodSecs now : UploadProg RouteError Unit).final ds w)
  | restarted {w : World} : UploaderStep lib periodSecs D w { w with memory := {} }
  | paired {w : World} (identity : JournalIdentity) :
    UploaderStep lib periodSecs D w { w with identity := identity }

/-- A history of the uploader. -/
def UploaderRun (lib : Libraries) (periodSecs : Nat) (D : Outside → Prop) : World → World → Prop :=
  ReflTransGen (UploaderStep lib periodSecs D)

/-- Surroundings in which nobody else writes acknowledgements. -/
def Honest (lib : Libraries) (o : Outside) : Prop :=
  ∀ a ∈ o.added, a.name = UPLOADED_MARKER → ∀ bytes mtime, a.node = .file bytes mtime →
    UploadAck.fromBytes lib bytes = none

/-- Every acknowledgement on disk was proved for the segment it lies with. -/
structure Genuine (lib : Libraries) (w : World) : Prop where
  inSealed : ∀ index bytes mtime ack,
    node? w.disk (.sealed index) UPLOADED_MARKER = some (.file bytes mtime) →
    UploadAck.fromBytes lib bytes = some ack → Proven lib w.log index ack
  inQuarantine : ∀ name index bytes mtime ack, setAsideIndex name = some index →
    node? w.disk (.quarantine name) UPLOADED_MARKER = some (.file bytes mtime) →
    UploadAck.fromBytes lib bytes = some ack → Proven lib w.log index ack

/-- What entitles the uploader to remove a file with these bytes and this time, by what happened
before. -/
inductive Entitled (lib : Libraries) (log : List Happening) (removal : Removal)
    (bytes : List UInt8) (mtime : Nat) : Prop
  /-- An acknowledgement of the current journal, proved for this segment, names the file. -/
  | acknowledged {ack : UploadAck} {file : AckFile} (hproven : Proven lib log removal.index ack)
    (hinstance : ack.journalIdentity.instanceId = removal.identity.instanceId)
    (hca : ack.journalIdentity.caFpPrefix = removal.identity.caFpPrefix)
    (hfile : file ∈ ack.files) (hname : file.submitted = removal.name)
    (hsize : file.size = bytes.length) (hsha : file.sha256 = lib.sha256Hex bytes)
    (hheld : file.disposition = some "written" ∨ file.disposition = some "already_held" ∨
      ∃ status, file.listingStatus = some status ∧ status.isHeld = true)
  /-- The journal answered an upload of these bytes with the owner's removal. -/
  | disowned {post : Post} {answer : Except RouteError IngestResponse} {part : FilePart}
    (hpost : .posted post ∈ log) (hindex : post.index = removal.index)
    (hanswer : post.answer = some answer) (hremoved : SaysRemoved lib answer)
    (hpart : part ∈ post.parts) (hname : part.filename = removal.name)
    (hbytes : part.bytes = bytes)
  /-- A legacy marker in the directory is no older than the file. -/
  | legacy {marker : List UInt8} {markerTime : Nat}
    (hmarker : removal.dir.lookup UPLOADED_MARKER = some (.file marker markerTime))
    (hack : UploadAck.fromBytes lib marker = none) (hplain : isStructured marker = false)
    (htime : mtime ≤ markerTime)

/-- Every removal of media after `log0` was entitled by what happened before it. -/
def Justified (lib : Libraries) (log0 log : List Happening) : Prop :=
  ∀ before after removal, log = log0 ++ before ++ .removed removal :: after →
    isMedia removal.name = true → removal.name ≠ REFUSED_BY_MARKER →
    ∃ bytes mtime, removal.dir.lookup removal.name = some (.file bytes mtime) ∧
      Entitled lib (log0 ++ before) removal bytes mtime

/-- The invariant of a history that began with the log `log0`. -/
structure Sound (lib : Libraries) (log0 : List Happening) (w : World) : Prop where
  genuine : Genuine lib w
  since : log0 <+: w.log
  justified : Justified lib log0 w.log

/-- The rules of the uploader. -/
def lawful (lib : Libraries) (D : Outside → Prop) : Rules where
  outside := D
  touches _ := True
  posts _ := True
  setsAside _ := True
  releases _ := True
  removes w index name := ∃ kind, Reason lib kind w index name
  acks w index ack := Proven lib w.log index ack

/-! ## The log -/

section Log

variable {lib : Libraries} {log0 log : List Happening}

theorem justified_start (lib : Libraries) (log0 : List Happening) : Justified lib log0 log0 := by
  intro before after removal hlog
  have hlen := congrArg List.length hlog
  simp only [List.length_append, List.length_cons] at hlen
  omega

/-- One more event: an old removal keeps its ground, a new one needs one. -/
theorem Justified.append {e : Happening} (h : Justified lib log0 log)
    (he : ∀ removal, e = .removed removal → isMedia removal.name = true →
      removal.name ≠ REFUSED_BY_MARKER →
      ∃ bytes mtime, removal.dir.lookup removal.name = some (.file bytes mtime) ∧
        Entitled lib log removal bytes mtime) :
    Justified lib log0 (log ++ [e]) := by
  intro before after removal hlog hmedia hname
  rcases append_singleton_split hlog with ⟨hbefore, rfl, -⟩ | ⟨rest, hsplit⟩
  · -- The removal is the new event.
    exact hbefore ▸ he removal rfl hmedia hname
  · exact h before rest removal hsplit hmedia hname

end Log

/-! ## Grounds entitle -/

section Entitled

/-- What a fallible map returns comes from its list. -/
theorem mem_of_mapM_some {α β : Type} {f : α → Option β} {xs : List α} {ys : List β} {y : β}
    (h : xs.mapM f = some ys) (hy : y ∈ ys) : ∃ x ∈ xs, f x = some y := by
  induction xs generalizing ys with
  | nil =>
    cases h
    cases hy
  | cons x xs ih =>
    rw [List.mapM_cons] at h
    obtain ⟨first, hfirst, h⟩ := Option.bind_eq_some_iff.mp h
    obtain ⟨rest, hrest, h⟩ := Option.bind_eq_some_iff.mp h
    cases h
    rcases List.mem_cons.mp hy with rfl | hy
    · exact ⟨x, List.mem_cons_self, hfirst⟩
    · obtain ⟨x', hx', heq⟩ := ih hrest hy
      exact ⟨x', List.mem_cons_of_mem _ hx', heq⟩

variable {lib : Libraries} {w : World} {index : Nat} {name : String} {bytes : List UInt8}
  {mtime : Nat}

/-- A file of a proved acknowledgement that covers something is held by the journal. -/
theorem Proven.held {log : List Happening} {ack : UploadAck} {file : AckFile}
    {entry : DirEntryFact} {sha : String} (h : Proven lib log index ack) (hfile : file ∈ ack.files)
    (hcovers : file.covers entry sha = true) :
    file.disposition = some "written" ∨ file.disposition = some "already_held" ∨
      ∃ status, file.listingStatus = some status ∧ status.isHeld = true := by
  simp only [AckFile.covers, Bool.and_eq_true] at hcovers
  obtain ⟨⟨-, hdisposition⟩, hstatus⟩ := hcovers
  cases h with
  | upload hpost hindex hanswer haccepted hreceipt =>
    obtain ⟨descriptor, -, rfl⟩ := List.mem_map.mp hfile
    simp only [Option.all_some, Bool.or_eq_true, beq_iff_eq] at hdisposition
    exact hdisposition.imp (congrArg some) fun h => .inl (congrArg some h)
  | listing hlisting hfact hindex hselected hfiles =>
    obtain ⟨localFile, -, hlisted⟩ := mem_of_mapM_some hfiles hfile
    obtain ⟨listed, -, rfl⟩ := Option.map_eq_some_iff.mp hlisted
    exact .inr (.inr ⟨listed.status, rfl, hstatus⟩)

/-- A proved acknowledgement of the journal at hand entitles to remove what it covers. -/
theorem Proven.entitled {log : List Happening} {removal : Removal} {ack : UploadAck}
    (h : Proven lib log removal.index ack) (hjournal : sameJournal ack removal.identity = true)
    (hcovered : CoveredBy lib ack.files removal.name bytes) :
    Entitled lib log removal bytes mtime := by
  obtain ⟨file, hfile, hcovers⟩ := hcovered
  simp only [sameJournal, Bool.and_eq_true, beq_iff_eq] at hjournal
  have hheld := h.held hfile hcovers
  simp only [AckFile.covers, Bool.and_eq_true, beq_iff_eq] at hcovers
  exact .acknowledged h hjournal.1 hjournal.2 hfile hcovers.1.1.1.1 hcovers.1.1.1.2
    hcovers.1.1.2 hheld

/-- Where every acknowledgement is genuine, a ground entitles. -/
theorem Ground.entitled {kind : Kind} (hsha : Function.Injective lib.sha256Hex)
    (hgenuine : Genuine lib w) (h : Ground lib w index name bytes mtime kind) :
    Entitled lib w.log ⟨index, name, w.identity, dirOf w.disk index⟩ bytes mtime := by
  cases kind with
  | marked =>
    obtain ⟨marker, markerTime, ack, hnode, hack, hjournal, hcovered⟩ := h
    exact (hgenuine.inSealed index marker markerTime ack hnode hack).entitled hjournal hcovered
  | proven =>
    obtain ⟨ack, hproven, hidentity, hcovered⟩ := h
    refine hproven.entitled ?_ hcovered
    simp [sameJournal, hidentity]
  | disowned =>
    obtain ⟨post, answer, hpost, hindex, -, hanswer, hremoved, part, hpart, hname, hdigest⟩ := h
    exact .disowned hpost hindex hanswer hremoved hpart hname (hsha hdigest)
  | legacy =>
    obtain ⟨marker, markerTime, hnode, hack, hplain, htime⟩ := h
    obtain ⟨dir, hdir, hmarker⟩ := lookup_of_node? hnode
    refine .legacy ?_ hack hplain htime
    show (dirOf w.disk index).lookup UPLOADED_MARKER = _
    rw [dirOf, hdir]
    exact hmarker

end Entitled

/-! ## One change -/

section OneChange

variable {lib : Libraries} {log0 : List Happening} {w w' : World}

/-- Genuine acknowledgements stay genuine when markers come only from places that had them. -/
theorem Genuine.of_nodes (h : Genuine lib w) (hlog : ∀ e ∈ w.log, e ∈ w'.log)
    (hsealed : ∀ index node, node? w'.disk (.sealed index) UPLOADED_MARKER = some node →
      node? w.disk (.sealed index) UPLOADED_MARKER = some node ∨
      (∃ name, setAsideIndex name = some index ∧
        node? w.disk (.quarantine name) UPLOADED_MARKER = some node) ∨
      ∀ bytes mtime ack, node = .file bytes mtime → UploadAck.fromBytes lib bytes = some ack →
        Proven lib w.log index ack)
    (hquarantine : ∀ name index node, setAsideIndex name = some index →
      node? w'.disk (.quarantine name) UPLOADED_MARKER = some node →
      node? w.disk (.quarantine name) UPLOADED_MARKER = some node ∨
      node? w.disk (.sealed index) UPLOADED_MARKER = some node) : Genuine lib w' := by
  constructor
  · intro index bytes mtime ack hnode hack
    rcases hsealed index _ hnode with hnode | ⟨name, hindex, hnode⟩ | hfresh
    · exact (h.inSealed index bytes mtime ack hnode hack).mono hlog
    · exact (h.inQuarantine name index bytes mtime ack hindex hnode hack).mono hlog
    · exact (hfresh bytes mtime ack rfl hack).mono hlog
  · intro name index bytes mtime ack hindex hnode hack
    rcases hquarantine name index _ hindex hnode with hnode | hnode
    · exact (h.inQuarantine name index bytes mtime ack hindex hnode hack).mono hlog
    · exact (h.inSealed index bytes mtime ack hnode hack).mono hlog

/-- No marker is new. -/
theorem Genuine.of_fewer (h : Genuine lib w) (hlog : ∀ e ∈ w.log, e ∈ w'.log)
    (hfewer : ∀ k node, node? w'.disk k UPLOADED_MARKER = some node →
      node? w.disk k UPLOADED_MARKER = some node) : Genuine lib w' :=
  h.of_nodes hlog (fun _ _ hnode => .inl (hfewer _ _ hnode))
    fun _ _ _ _ hnode => .inl (hfewer _ _ hnode)

theorem swept_ne_marker {name : String} (h : isSwept name = true) : UPLOADED_MARKER ≠ name := by
  rintro rfl
  exact absurd h (by decide)

/-- An acknowledgement that is read is one the JSON reader gave. -/
theorem fromSlice_of_fromBytes {bytes : List UInt8} {ack : UploadAck}
    (h : UploadAck.fromBytes lib bytes = some ack) : lib.fromSlice bytes = some ack := by
  unfold UploadAck.fromBytes at h
  split at h
  · cases h
  rename_i ack' hread
  split at h
  · cases h
  · split at h
    · cases h
    · cases h
      exact hread

variable {D : Outside → Prop}

/-- Acknowledgements stay genuine under the rules of the uploader. -/
theorem Change.genuine (hjson : ∀ ack ack', lib.fromSlice (lib.toVec ack) = some ack' → ack' = ack)
    (hD : ∀ o, D o → Honest lib o) (hgenuine : Genuine lib w)
    (h : Change lib (lawful lib D) w w') : Genuine lib w' := by
  have hlog : ∀ e ∈ w.log, e ∈ w'.log := fun e he => h.grows.mem he
  cases h with
  | @found o ho =>
    refine hgenuine.of_nodes hlog ?_ ?_
    · intro index node hnode
      rcases node?_foldl_addEntry_cases hnode with hnode | ⟨a, ha, -, hname, rfl⟩
      · exact .inl hnode
      · refine .inr (.inr fun bytes mtime ack heq hack => ?_)
        rw [hD o ho a ha hname.symm bytes mtime heq] at hack
        cases hack
    · intro name index node _ hnode
      rcases node?_foldl_addEntry_cases hnode with hnode | ⟨a, -, hplace, -⟩
      · exact .inl hnode
      · cases hplace
  | removed hnode hmay =>
    refine hgenuine.of_fewer hlog fun k node hnode => ?_
    rw [node?_removing] at hnode
    split at hnode
    · cases hnode
    · exact hnode
  | removedDir htouch hdir hempty =>
    refine hgenuine.of_fewer hlog fun k node hnode => ?_
    rw [node?_delDir] at hnode
    split at hnode
    · cases hnode
    · exact hnode
  | scratched htouch hname bytes mtime =>
    refine hgenuine.of_fewer hlog fun k node hnode => ?_
    rwa [node?_put_ne (fun h => swept_ne_marker hname h.2)] at hnode
  | @acked i ack mtime htouch hack htmp =>
    obtain ⟨dir, hdir, -⟩ := lookup_of_node? htmp
    have hnodes := fun k => node?_put (del w.disk (.sealed i) UPLOADED_TMP_MARKER) (.sealed i) k
      UPLOADED_MARKER UPLOADED_MARKER (.file (lib.toVec ack) mtime) (by simp [hdir])
    refine hgenuine.of_nodes hlog ?_ ?_
    · intro index node hnode
      rw [hnodes] at hnode
      split at hnode
      · -- The acknowledgement just put in place reads back as the one that was proved.
        rename_i hplace
        cases hplace.1
        cases hnode
        refine .inr (.inr fun bytes mtime' ack' heq hread => ?_)
        cases heq
        rw [hjson ack ack' (fromSlice_of_fromBytes hread)]
        exact hack
      · rw [node?_del, if_neg (fun h => absurd h.2 (by decide))] at hnode
        exact .inl hnode
    · intro name index node _ hnode
      rw [hnodes, if_neg (by simp), node?_del, if_neg (by simp)] at hnode
      exact .inl hnode
  | @setAside i dir counter haside hdir hfree =>
    refine hgenuine.of_nodes hlog ?_ ?_
    · intro index node hnode
      rw [node?_putDir, if_neg (by simp), node?_delDir] at hnode
      split at hnode
      · cases hnode
      · exact .inl hnode
    · intro name index node hindex hnode
      rw [node?_putDir] at hnode
      split at hnode
      · rename_i hplace
        cases hplace
        rw [setAsideIndex_quarantineName hindex, node?_of_lookup hdir]
        exact .inr hnode
      · rw [node?_delDir, if_neg (by simp)] at hnode
        exact .inl hnode
  | @released name i dir hrelease hindex hdir hfree =>
    refine hgenuine.of_nodes hlog ?_ ?_
    · intro index node hnode
      rw [node?_putDir] at hnode
      split at hnode
      · rename_i hplace
        cases hplace
        exact .inr (.inl ⟨name, hindex, by rw [node?_of_lookup hdir, hnode]⟩)
      · rw [node?_delDir, if_neg (by simp)] at hnode
        exact .inl hnode
    · intro name' index node _ hnode
      rw [node?_putDir, if_neg (by simp), node?_delDir] at hnode
      split at hnode
      · cases hnode
      · exact .inl hnode
  | rezoned ho | remembered hholds | posted hpost | listed | counted hthere =>
    exact hgenuine.of_fewer hlog fun _ _ hnode => hnode

/-- `Sound` is closed under what the uploader may do. -/
theorem Change.sound (hsha : Function.Injective lib.sha256Hex)
    (hjson : ∀ ack ack', lib.fromSlice (lib.toVec ack) = some ack' → ack' = ack)
    (hD : ∀ o, D o → Honest lib o) (hsound : Sound lib log0 w)
    (h : Change lib (lawful lib D) w w') : Sound lib log0 w' := by
  refine ⟨h.genuine hjson hD hsound.genuine, hsound.since.trans h.grows.log, ?_⟩
  cases h with
  | @removed index name bytes mtime hnode hmay =>
    refine hsound.justified.append fun removal heq hmedia hname => ?_
    cases heq
    obtain ⟨dir, hdir, hlookup⟩ := lookup_of_node? hnode
    refine ⟨bytes, mtime, ?_, ?_⟩
    · show (dirOf w.disk index).lookup name = _
      rw [dirOf, hdir]
      exact hlookup
    · rcases hmay with hswept | ⟨-, hside | ⟨kind, bytes', mtime', hnode', hground⟩⟩
      · -- A scan drops two names: one is no media, the other is left out.
        rcases Bool.or_eq_true_iff.mp hswept with htmp | hrefused
        · cases beq_iff_eq.mp htmp
          have hside : isMedia UPLOADED_TMP_MARKER = false := by decide
          exact absurd (hside.symm.trans hmedia) nofun
        · exact absurd (beq_iff_eq.mp hrefused) hname
      · rw [hside] at hmedia
        cases hmedia
      · rw [hnode] at hnode'
        cases hnode'
        exact hground.entitled hsha hsound.genuine
  | posted hpost | listed | counted hthere => exact hsound.justified.append nofun
  | _ => exact hsound.justified

end OneChange

/-! ## Whole histories -/

section Run

variable {lib : Libraries} {periodSecs : Nat} {log0 : List Happening} {w w' : World}
  {D : Outside → Prop}

theorem lawful_finishing (lib : Libraries) (D : Outside → Prop) (index : Nat) :
    Finishing lib (lawful lib D) index :=
  ⟨trivial, fun _ _ h => ⟨.marked, h⟩, fun _ _ h => ⟨.legacy, h⟩⟩

theorem UploaderStep.sound (hsha : Function.Injective lib.sha256Hex)
    (hjson : ∀ ack ack', lib.fromSlice (lib.toVec ack) = some ack' → ack' = ack)
    (hsound : Sound lib log0 w) (h : UploaderStep lib periodSecs (Honest lib) w w') :
    Sound lib log0 w' := by
  have hdefault : (lawful lib (Honest lib)).outside default := nofun
  have hpath : ∀ {w'}, Path lib (lawful lib (Honest lib)) w w' → Sound lib log0 w' :=
    fun hpath => reflTransGen_invariant (I := Sound lib log0)
      (fun _ _ hs hc => Change.sound hsha hjson (fun _ ho => ho) hs hc) hsound hpath
  cases h with
  | ticked hds =>
    exact hpath ((tick_along hdefault (fun _ => trivial) (lawful_finishing lib _)
      fun _ => ⟨trivial, trivial, trivial, fun _ _ h => ⟨.proven, h⟩,
        fun _ _ h => ⟨.disowned, h⟩, fun _ _ h => h⟩).final hds)
  | finished now hds =>
    exact hpath ((localFinish_along hdefault (lawful_finishing lib _)).final hds)
  | restarted | paired identity =>
    exact ⟨hsound.genuine.of_fewer (fun _ he => he) fun _ _ hnode => hnode, hsound.since,
      hsound.justified⟩

/-- In every history of the uploader, media is removed only on a proved acknowledgement of the
journal at hand, on the journal's word that the owner removed it, or under a legacy marker that is
no older. The digest has no collisions and the JSON reader does not misread what was written. -/
theorem removed_media_entitled (hsha : Function.Injective lib.sha256Hex)
    (hjson : ∀ ack ack', lib.fromSlice (lib.toVec ack) = some ack' → ack' = ack)
    (hgenuine : Genuine lib w) (hrun : UploaderRun lib periodSecs (Honest lib) w w')
    {before after : List Happening} {removal : Removal}
    (hlog : w'.log = w.log ++ before ++ .removed removal :: after)
    (hmedia : isMedia removal.name = true) (hname : removal.name ≠ REFUSED_BY_MARKER) :
    ∃ bytes mtime, removal.dir.lookup removal.name = some (.file bytes mtime) ∧
      Entitled lib (w.log ++ before) removal bytes mtime := by
  have hstart : Sound lib w.log w := ⟨hgenuine, List.prefix_rfl, justified_start lib w.log⟩
  have hsound : Sound lib w.log w' :=
    reflTransGen_invariant (I := Sound lib w.log)
      (fun _ _ hs hstep => UploaderStep.sound hsha hjson hs hstep) hstart hrun
  exact hsound.justified before after removal hlog hmedia hname

end Run

/-- A digest that keeps every byte, and has the form of one for the byte of `a`. -/
def plainDigest (bytes : List UInt8) : String :=
  String.ofList (List.replicate 63 'a' ++ bytes.map fun b => Char.ofNat b.toNat)

def sampleIdentity : JournalIdentity := ⟨"journal", "ca", "cert"⟩

/-- The journal's receipt for a recording. -/
def sampleReceipt : UploadReceipt := ⟨"k", [⟨"a.mp4", "a.mp4", 1, plainDigest [0x61], "written"⟩]⟩

def sampleAck : UploadAck := uploadAck sampleIdentity 7 "19700101" "003500_300" .ok sampleReceipt

/-- A JSON reader that reads one acknowledgement. -/
def plainLib : Libraries where
  sha256Hex := plainDigest
  toVec ack := if ack = sampleAck then [0x7B] else []
  fromSlice bytes := if bytes = [0x7B] then some sampleAck else none
  namesFromSlice _ := none
  bodyField _ _ := none

theorem plainLib_injective : Function.Injective plainLib.sha256Hex := by
  have hvalid : ∀ n : Fin 256, (Char.ofNat n).toNat = n := by decide +kernel
  have hchar : Function.Injective fun b : UInt8 => Char.ofNat b.toNat := by
    intro a b heq
    have hnat : (Char.ofNat a.toNat).toNat = (Char.ofNat b.toNat).toNat := congrArg Char.toNat heq
    rw [hvalid ⟨a.toNat, a.toNat_lt⟩, hvalid ⟨b.toNat, b.toNat_lt⟩] at hnat
    exact UInt8.toNat_inj.mp hnat
  intro a b heq
  exact List.map_injective_iff.mpr hchar (List.append_cancel_left (String.ofList_injective heq))

theorem plainLib_reads (ack ack' : UploadAck)
    (h : plainLib.fromSlice (plainLib.toVec ack) = some ack') : ack' = ack := by
  unfold plainLib at h
  dsimp only at h
  split at h
  · next heq => exact (Option.some.inj h).symm.trans heq.symm
  · cases h

/-- The upload of the recording, and the journal's answer. -/
def samplePost : Post where
  index := 7
  identity := sampleIdentity
  day := "19700101"
  segmentKey := "003500_300"
  parts := [⟨"a.mp4", "video/mp4", [0x61]⟩]
  zone := ⟨0, none⟩
  audioSources := []
  dir := Dir.of []
  answer := some (.ok ⟨.ok, some "k", none, none, .decoded sampleReceipt.files⟩)

/-- A recording beside an acknowledgement, and one that is older than a legacy marker. -/
def markedDisk : Disk Place :=
  Disk.of [(.sealed 7, [("a.mp4", .file [0x61] 3), (UPLOADED_MARKER, .file [0x7B] 5)]),
    (.sealed 8, [("b.mp4", .file [2] 3), (UPLOADED_MARKER, .file [] 5)])]

def markedWorld (log : List Happening) : World where
  disk := markedDisk
  memory := {}
  identity := sampleIdentity
  zone _ := some ⟨0, none⟩
  log := log

/-- The removal of a recording. -/
def recordingRemoval (index : Nat) (name : String) : Removal :=
  ⟨index, name, sampleIdentity, dirOf markedDisk index⟩

/-- The world after a local finish pass with no failures. -/
def finishedWorld (w : World) : World :=
  (localFinish plainLib 300 10 : UploadProg RouteError Unit).final [] w

theorem finishedWorld_run (w : World) :
    UploaderRun plainLib 300 (Honest plainLib) w (finishedWorld w) := by
  have hds : ∀ o ∈ ([] : List Outside), Honest plainLib o := List.forall_mem_nil _
  exact ReflTransGen.single (UploaderStep.finished 10 hds)

/-- The two recordings and the markers beside them, in the order they go. -/
def markedRemovals : List Happening :=
  [.removed (recordingRemoval 7 "a.mp4"),
    .removed ⟨7, UPLOADED_MARKER, sampleIdentity, Dir.of [(UPLOADED_MARKER, .file [0x7B] 5)]⟩,
    .removed (recordingRemoval 8 "b.mp4"),
    .removed ⟨8, UPLOADED_MARKER, sampleIdentity, Dir.of [(UPLOADED_MARKER, .file [] 5)]⟩]

/-- The one acknowledgement on the marked disk. -/
theorem markedDisk_acks {k : Place} {bytes : List UInt8} {mtime : Nat} {ack : UploadAck}
    (hnode : node? markedDisk k UPLOADED_MARKER = some (.file bytes mtime))
    (hack : UploadAck.fromBytes plainLib bytes = some ack) : k = .sealed 7 ∧ ack = sampleAck := by
  have hread : (if bytes = [0x7B] then some sampleAck else none) = some ack :=
    fromSlice_of_fromBytes hack
  split at hread
  · next hbytes =>
    refine ⟨?_, (Option.some.inj hread).symm⟩
    by_contra hother
    by_cases hlegacy : k = .sealed 8
    · have hplain : node? markedDisk (.sealed 8) UPLOADED_MARKER = some (.file [] 5) := by
        decide +kernel
      rw [hlegacy, hplain] at hnode
      cases hnode
      cases hbytes
    · have hnone : markedDisk.lookup k = none :=
        (AList.lookup_insert_ne hother).trans (AList.lookup_insert_ne hlegacy)
      rw [node?, hnone] at hnode
      cases hnode
  · cases hread

theorem genuine_markedWorld : Genuine plainLib (markedWorld [.posted samplePost]) := by
  have hreceipt : validateReceipt ⟨.ok, some "k", none, none, .decoded sampleReceipt.files⟩
      (samplePost.parts.map (localFileOf plainLib)) = .ok sampleReceipt := by decide +kernel
  constructor
  · intro index bytes mtime ack hnode hack
    obtain ⟨hplace, rfl⟩ := markedDisk_acks hnode hack
    cases hplace
    exact .upload List.mem_cons_self rfl rfl rfl hreceipt
  · intro name index bytes mtime ack _ hnode hack
    cases (markedDisk_acks hnode hack).1

/-- A local finish pass after the upload removes both recordings, one on the acknowledgement and one
under the legacy marker. -/
theorem removed_media_entitled_finished :
    (finishedWorld (markedWorld [.posted samplePost])).log =
      [.posted samplePost] ++ markedRemovals ∧
      ∀ removal ∈ [recordingRemoval 7 "a.mp4", recordingRemoval 8 "b.mp4"], ∃ before bytes mtime,
        removal.dir.lookup removal.name = some (.file bytes mtime) ∧
        Entitled plainLib ([.posted samplePost] ++ before) removal bytes mtime := by
  have hlog : (finishedWorld (markedWorld [.posted samplePost])).log =
      [.posted samplePost] ++ markedRemovals := by decide +kernel
  refine ⟨hlog, List.forall_mem_cons.mpr ⟨⟨[], ?_⟩, List.forall_mem_singleton.mpr
    ⟨markedRemovals.take 2, ?_⟩⟩⟩
  · exact removed_media_entitled plainLib_injective plainLib_reads genuine_markedWorld
      (finishedWorld_run _) hlog (by decide) (by decide)
  · exact removed_media_entitled plainLib_injective plainLib_reads genuine_markedWorld
      (finishedWorld_run _) hlog (by decide) (by decide)

/-- What entitles a removal of which nothing is on record. -/
theorem Entitled.legacy_of_nil {lib : Libraries} {removal : Removal} {bytes : List UInt8}
    {mtime : Nat} (h : Entitled lib [] removal bytes mtime) :
    ∃ marker markerTime, removal.dir.lookup UPLOADED_MARKER = some (.file marker markerTime) ∧
      isStructured marker = false := by
  cases h with
  | acknowledged hproven _ _ _ _ _ _ _ =>
    cases hproven with
    | upload hpost => cases hpost
    | listing hlisting => cases hlisting
  | disowned hpost => cases hpost
  | legacy hmarker _ hplain _ => exact ⟨_, _, hmarker, hplain⟩

/-- The same pass with no upload on record: the recording goes on a forged acknowledgement. -/
theorem forged_ack_removes_unentitled :
    (finishedWorld (markedWorld [])).log = markedRemovals ∧
      ∀ bytes mtime, ¬ Entitled plainLib [] (recordingRemoval 7 "a.mp4") bytes mtime := by
  refine ⟨by decide +kernel, fun bytes mtime h => ?_⟩
  obtain ⟨marker, markerTime, hmarker, hplain⟩ := h.legacy_of_nil
  have hforged : (recordingRemoval 7 "a.mp4").dir.lookup UPLOADED_MARKER =
      some (.file [0x7B] 5) := by decide +kernel
  cases hforged.symm.trans hmarker
  cases hplain

/-- A directory that a stopped set-aside left with the name of the journal in it. -/
def refusedWorld : World where
  disk := Disk.of [(.sealed 7, [(REFUSED_BY_MARKER, .file [1] 3)])]
  memory := {}
  identity := sampleIdentity
  zone _ := none
  log := []

/-- A scan drops `.refused-by`, which the gate counts as media, and nothing entitles it. -/
theorem refusedBy_removed_unentitled :
    UploaderRun plainLib 300 (Honest plainLib) refusedWorld (finishedWorld refusedWorld) ∧
    (finishedWorld refusedWorld).log =
      [.removed ⟨7, REFUSED_BY_MARKER, refusedWorld.identity, dirOf refusedWorld.disk 7⟩] ∧
    isMedia REFUSED_BY_MARKER = true ∧
    ∀ bytes mtime, ¬ Entitled plainLib []
      ⟨7, REFUSED_BY_MARKER, refusedWorld.identity, dirOf refusedWorld.disk 7⟩ bytes mtime := by
  refine ⟨finishedWorld_run refusedWorld, by decide +kernel, by decide, fun bytes mtime h => ?_⟩
  obtain ⟨marker, markerTime, hmarker, -⟩ := h.legacy_of_nil
  have hnone : (dirOf refusedWorld.disk 7).lookup UPLOADED_MARKER = none := by decide +kernel
  rw [hnone] at hmarker
  cases hmarker

end SolstoneWindows.Proofs.PlTransportWin
