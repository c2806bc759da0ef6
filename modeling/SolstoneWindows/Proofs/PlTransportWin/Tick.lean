import SolstoneWindows.Proofs.PlTransportWin.Cleanup

/-!
# One tick of the uploader

A tick prepares, sends what is pending and asks for one listing. `Sending` says what the rules
must allow for a directory whose files are sent: the upload itself, an acknowledgement the log
proves, the removal of what it covers, the removal of what the journal disowned, and the set-aside
of a directory the journal keeps refusing. `exchange_along` and `tick_along` lead from the rules of
single directories to a whole tick.
-/

set_option autoImplicit false

namespace SolstoneWindows.Proofs.PlTransportWin

open Lib.Effect Lib.Fs Relation
open ObserverModel (LocalZone)
open ObserverPl.Ingest
open SolstoneWindows.PlTransportWin
open SolstoneWindows.PlatformWin (Place)

/-- Rules under which the files of a directory may be sent. -/
structure Sending (lib : Libraries) (rules : Rules) (index : Nat) : Prop where
  touch : rules.touches index
  post : rules.posts index
  aside : rules.setsAside index
  proven : ∀ w name, Reason lib .proven w index name → rules.removes w index name
  disowned : ∀ w name, Reason lib .disowned w index name → rules.removes w index name
  ack : ∀ w ack, Proven lib w.log index ack → rules.acks w index ack

/-- Rules under which a segment may have its turn. One with no files sends nothing. -/
structure Uploading (lib : Libraries) (rules : Rules) (segment : SealedSegment) : Prop where
  touch : rules.touches segment.index
  send : segment.files ≠ [] → Sending lib rules segment.index

/-- The log holds the upload with this answer. -/
def Answered (lib : Libraries) (w : World) (sent : Sent)
    (answer : Except RouteError IngestResponse) : Prop :=
  ∃ post : Post, .posted post ∈ w.log ∧ post.index = sent.index ∧ post.identity = w.identity ∧
    post.day = sent.day ∧ post.segmentKey = sent.segmentKey ∧
    post.parts.map (localFileOf lib) = sent.localFiles ∧ post.answer = some answer

section Answer

variable {lib : Libraries} {rules : Rules} {w w' : World} {sent : Sent}
  {answer : Except RouteError IngestResponse}

theorem Answered.mono (hw : Grows w w') (h : Answered lib w sent answer) :
    Answered lib w' sent answer := by
  obtain ⟨post, hpost, hindex, hidentity, hrest⟩ := h
  exact ⟨post, hw.mem hpost, hindex, hw.identity ▸ hidentity, hrest⟩

variable {response : IngestResponse}

variable {receipt : UploadReceipt} {ack : UploadAck}

/-- A valid receipt proves its acknowledgement. -/
theorem Answered.proven
    (h : Answered lib w sent (.ok response)) (haccepted : response.status.isAccepted = true)
    (hreceipt : validateReceipt response sent.localFiles = .ok receipt) :
    Proven lib w.log sent.index
      (uploadAck w.identity sent.index sent.day sent.segmentKey response.status receipt) := by
  obtain ⟨post, hpost, hindex, hidentity, hday, hkey, hparts, hanswer⟩ := h
  rw [← hidentity, ← hday, ← hkey]
  exact .upload hpost hindex hanswer haccepted (hparts ▸ hreceipt)

/-- What the journal disowned is what was sent. -/
theorem Answered.backs (h : Answered lib w sent answer) (hremoved : SaysRemoved lib answer) :
    Backs lib .disowned w sent.index (sent.localFiles.map fun f =>
      { submitted := f.name, written := f.name, size := f.size, sha256 := f.sha256
        disposition := none, listingStatus := none }) := by
  obtain ⟨post, hpost, hindex, hidentity, -, -, hparts, hanswer⟩ := h
  rintro name bytes mtime ⟨file, hfile, hcovers⟩
  rw [← hparts, List.map_map] at hfile
  obtain ⟨part, hpart, rfl⟩ := List.mem_map.mp hfile
  simp only [AckFile.covers, Bool.and_eq_true, beq_iff_eq] at hcovers
  exact ⟨post, answer, hpost, hindex, hidentity, hanswer, hremoved, part, hpart,
    hcovers.1.1.1.1, hcovers.1.1.2⟩

/-- An acknowledgement is a ground for what it covers. -/
theorem Proven.backs {index : Nat} (h : Proven lib w.log index ack)
    (hidentity : ack.journalIdentity = w.identity) : Backs lib .proven w index ack.files :=
  fun _ _ _ hcovered => ⟨ack, h, hidentity, hcovered⟩

variable (hD : rules.outside default) {index now : Nat} {ε : Type}

include hD

/-- An acknowledgement that the log proves is written, and then relied on. -/
theorem ackAndGate_along (hrules : Sending lib rules index)
    (hproven : Proven lib w.log index ack) (hidentity : ack.journalIdentity = w.identity) :
    Along lib rules w (ackAndGate lib index ack now : UploadProg ε Unit) fun _ _ => True := by
  have hkeep : ∀ w1, SameTale w w1 → Proven lib w1.log index ack := by
    intro w1 hw1
    rw [hw1.log]
    exact hproven
  have hwrite : Along lib rules w (writeAck lib index ack) fun _ w' => SameTale w w' :=
    writeAck_along hD hrules.touch fun w1 hw1 => hrules.ack w1 ack (hkeep w1 hw1)
  refine hwrite.attempt_bind (fun _ w1 _ htale => ?_) fun _ _ _ => Moves.pure trivial
  refine gateOrHold_along hD hrules.touch hrules.proven ?_
  exact (hkeep w1 htale).backs (hidentity.trans htale.identity.symm)

theorem acceptReceipt_along (hrules : Sending lib rules sent.index)
    (h : Answered lib w sent (.ok response)) (haccepted : response.status.isAccepted = true)
    (hreceipt : validateReceipt response sent.localFiles = .ok receipt) :
    Along lib rules w (acceptReceipt lib now sent response.status receipt : UploadProg ε Outcome)
      fun outcome _ => ∀ day fact, outcome ≠ .unknown day fact := by
  refine (clearReject_along _).bind fun _ w1 hw1 _ => ?_
  refine (rebound_along _ _ _).bind fun _ w2 hw2 _ => ?_
  refine Moves.get_bind ?_
  have h2 : Answered lib w2 sent (.ok response) := h.mono (Path.grows (hw1.trans hw2))
  refine (ackAndGate_along hD hrules (h2.proven haccepted hreceipt) rfl).bind fun _ w3 _ _ => ?_
  refine (publish_along _).bind fun _ w4 _ _ => ?_
  exact Moves.pure nofun

/-- Outcomes that settle a segment, or leave it to the listing pass. -/
def LeavesTo (index : Nat) (outcome : Outcome) : Prop :=
  ∀ day fact, outcome = .unknown day fact → fact.index = index

omit hD in
theorem leavesTo_settled (index : Nat) : LeavesTo index .settled := nofun

theorem readAccepted_along (hrules : Sending lib rules sent.index)
    (h : Answered lib w sent (.ok response)) (haccepted : response.status.isAccepted = true) :
    Along lib rules w (readAccepted lib now sent response : UploadProg ε Outcome)
      fun outcome _ => LeavesTo sent.index outcome := by
  unfold readAccepted
  split
  · rename_i receipt hreceipt
    refine (acceptReceipt_along hD hrules h haccepted hreceipt).weaken fun outcome _ _ hout => ?_
    exact fun day fact heq => absurd heq (hout day fact)
  · refine Moves.pure fun day fact heq => ?_
    cases heq
    rfl
  · refine (registerSegmentBound_along _ _ _ _ _).bind fun _ w1 _ _ => ?_
    exact Moves.pure (leavesTo_settled _)
  · refine (publish_along _).bind fun _ w1 _ _ => ?_
    refine (registerSegmentError_along _ _ _ _).bind fun _ w2 _ _ => ?_
    refine (publish_along _).bind fun _ w3 _ _ => ?_
    exact Moves.pure (leavesTo_settled _)

theorem readRefused_along (hrules : Sending lib rules sent.index)
    (h : Answered lib w sent (.ok response)) (hrefused : response.status.isAccepted = false) :
    Along lib rules w (readRefused lib now sent response : UploadProg ε Outcome)
      fun outcome _ => LeavesTo sent.index outcome := by
  unfold readRefused
  split
  · rename_i hremoved
    refine (finishSegmentRemoved_along hD hrules.touch hrules.disowned
      (h.backs ⟨hrefused, hremoved⟩)).bind fun _ w1 _ _ => ?_
    exact Moves.pure (leavesTo_settled _)
  · refine (registerSegmentError_along _ _ _ _).bind fun _ w1 _ _ => ?_
    refine (publish_along _).bind fun _ w2 _ _ => ?_
    exact Moves.pure (leavesTo_settled _)

theorem registerReject_along (hrules : Sending lib rules index) :
    Along lib rules w (registerReject index : UploadProg ε Unit) fun _ _ => True := by
  refine Moves.bind (remember_along fun _ => by rfl) fun _ w1 _ _ => Moves.get_bind ?_
  split
  · exact Moves.pure trivial
  refine (quarantine_along hD hrules.touch hrules.aside _).attempt_bind (fun _ w2 _ _ => ?_)
    fun _ _ _ => Moves.pure trivial
  exact (clearReject_along _).bind fun _ _ _ _ => recountQuarantined_along hD

theorem readFailure_along {error : TransportError} (hrules : Sending lib rules sent.index) :
    Along lib rules w (readFailure lib now sent error) fun outcome _ =>
      LeavesTo sent.index outcome := by
  refine (publish_along _).bind fun _ w1 _ _ => ?_
  split
  · exact Moves.fail
  split
  · refine (registerReject_along hD hrules).bind fun _ w2 _ _ => ?_
    refine (registerSegmentError_along _ _ _ _).bind fun _ w3 _ _ => ?_
    exact Moves.pure (leavesTo_settled _)
  split
  · exact Moves.fail
  split
  · refine (registerSegmentError_along _ _ _ _).bind fun _ w2 _ _ => ?_
    exact Moves.pure (leavesTo_settled _)
  · exact Moves.fail

/-- Whatever the journal answers, media goes only on a ground. -/
theorem readAnswer_along (hrules : Sending lib rules sent.index) (h : Answered lib w sent answer) :
    Along lib rules w (readAnswer lib now sent answer) fun outcome _ =>
      LeavesTo sent.index outcome := by
  match answer, h with
  | .error .awaitingConfirmation, _ => exact Moves.fail
  | .error (.transport error), h =>
    show Along lib rules w (if saysRemoved lib error then _ else _) _
    split
    · rename_i hremoved
      refine (finishSegmentRemoved_along hD hrules.touch hrules.disowned
        (h.backs hremoved)).bind fun _ w1 _ _ => ?_
      exact Moves.pure (leavesTo_settled _)
    · exact readFailure_along hD hrules
  | .ok response, h =>
    show Along lib rules w (if response.status.isAccepted then _ else _) _
    split
    · rename_i haccepted
      exact readAccepted_along hD hrules h haccepted
    · rename_i hrefused
      exact readRefused_along hD hrules h (by simpa using hrefused)

end Answer

/-! ## Turns -/

variable {segments : List SealedSegment}

section Turns

variable {lib : Libraries} {rules : Rules} (hD : rules.outside default) {w : World}
  {periodSecs now : Nat}

include hD

theorem readParts_peeks (index : Nat) (names : List String) :
    Along lib rules w (readParts index names) fun _ _ => True := by
  induction names generalizing w with
  | nil => exact Moves.pure trivial
  | cons name names ih =>
    refine (along_of_peeks (readFile_peeks hD index name)).bind fun bytes w1 _ _ => ?_
    exact ih.bind fun _ _ _ _ => Moves.pure trivial

theorem ingest_along {index : Nat} {ε : Type} (hpost : rules.posts index) (day segmentKey : String)
    (parts : List FilePart) (zone : LocalZone) (audioSources : List String) (bytes : Nat) :
    Along lib rules w (ingest index day segmentKey parts zone audioSources : UploadProg ε _)
      fun answer w' => Answered lib w'
        ⟨index, day, segmentKey, parts.map (localFileOf lib), bytes⟩ answer := by
  unfold ingest
  refine Moves.call hD fun o _ => ?_
  dsimp only
  split
  · exact ⟨.single (.posted hpost), nofun⟩
  · refine ⟨.single (.posted hpost), fun answer hanswer => ?_⟩
    cases hanswer
    exact ⟨_, List.mem_append_right _ (List.mem_singleton.mpr rfl), rfl, rfl, rfl, rfl, rfl, rfl⟩

variable {segment : SealedSegment}

theorem uploadUnder_along (zone : LocalZone)
    (hrules : Sending lib rules segment.index) :
    Along lib rules w (uploadUnder lib periodSecs now segment zone) fun outcome _ =>
      LeavesTo segment.index outcome := by
  refine Moves.get_bind ?_
  split
  · exact Moves.pure (leavesTo_settled _)
  refine (readParts_peeks hD _ _).attempt_bind (fun parts w1 _ _ => ?_) fun _ _ _ =>
    (publish_along _).bind fun _ _ _ _ => Moves.pure (leavesTo_settled _)
  refine (ingest_along hD hrules.post _ _ parts zone _
    (parts.map (·.bytes.length)).sum).bind fun answer w2 _ hanswer => ?_
  exact readAnswer_along hD hrules hanswer

theorem uploadSegment_along (hrules : Uploading lib rules segment) :
    Along lib rules w (uploadSegment lib periodSecs now segment) fun outcome _ =>
      ∀ day fact, outcome = .unknown day fact → Sending lib rules fact.index := by
  refine Moves.get_bind ?_
  split
  · exact Moves.pure nofun
  split
  · -- No file is expected, so no media is removed.
    have hgate : Along lib rules w (tryGateDelete lib segment.index []) fun _ _ => True := by
      have hnone : ∀ name bytes, ¬ CoveredBy lib [] name bytes := by
        rintro name bytes ⟨file, hfile, -⟩
        cases hfile
      have hbacks : Backs lib .marked w segment.index [] :=
        fun name bytes _ h => absurd h (hnone name bytes)
      exact tryGateDelete_along hD hrules.touch
        (fun name bytes h => absurd h (hnone name bytes)) hbacks
    refine hgate.attempt_bind (fun result w1 _ _ => ?_) fun _ _ _ => Moves.pure nofun
    cases result with
    | deleted | partially | stopped => exact Moves.pure nofun
    | blocked => exact (setHold_along hrules.touch).bind fun _ _ _ _ => Moves.pure nofun
  · rename_i hfiles
    refine (localZone_along hD _).bind fun zone w1 _ _ => ?_
    match zone with
    | none =>
      refine (publish_along _).bind fun _ w2 _ _ => ?_
      exact Moves.fail
    | some zone =>
      refine (uploadUnder_along hD zone (hrules.send hfiles)).weaken fun outcome _ _ hout => ?_
      intro day fact heq
      rw [hout day fact heq]
      exact hrules.send hfiles

theorem uploadSegments_along (hrules : ∀ s ∈ segments, Uploading lib rules s) :
    Along lib rules w (uploadSegments lib periodSecs now segments) fun outcomes _ =>
      ∀ u ∈ unknownOf outcomes, Sending lib rules u.2.index := by
  induction segments generalizing w with
  | nil => exact Moves.pure nofun
  | cons segment segments ih =>
    refine (ask_along hD _).bind fun running w1 _ _ => ?_
    split
    · exact Moves.pure nofun
    refine (uploadSegment_along hD (hrules _ List.mem_cons_self)).bind fun outcome w2 _ hout => ?_
    refine (ih fun s hs => hrules s (List.mem_cons_of_mem _ hs)).bind fun outcomes w3 _ hrest => ?_
    refine Moves.pure fun u hu => ?_
    cases outcome with
    | confirmed upload | settled => exact hrest u hu
    | unknown day fact =>
      rcases List.mem_cons.mp hu with rfl | hu
      · exact hout _ _ rfl
      · exact hrest u hu

end Turns

/-! ## The listing pass -/

section ListingPass

variable {lib : Libraries} {rules : Rules} (hD : rules.outside default) {w : World} {now : Nat}
  {ε : Type}

include hD

variable {day : String}

variable {envelope : SegmentsEnvelope} {facts : List UnknownSegmentFact}

/-- A listed segment is acknowledged by what the listing proves. -/
theorem settleUnknown_along
    {fact : UnknownSegmentFact} (hrules : Sending lib rules fact.index) (hfact : fact ∈ facts)
    (hlisted : .listed ⟨w.identity, day, facts, envelope⟩ ∈ w.log) :
    Along lib rules w (settleUnknown lib now day envelope facts fact : UploadProg ε Unit)
      fun _ _ => True := by
  refine Moves.get_bind ?_
  split
  · refine (publish_along _).bind fun _ w1 _ _ => ?_
    exact registerSegmentBound_along _ _ _ _ _
  rename_i item hselected
  split
  · exact Moves.call hD fun _ _ => ⟨.refl, nofun⟩
  · rename_i files hfiles
    have hproven : Proven lib w.log fact.index (listingAck w.identity day fact item files) :=
      .listing hlisted hfact rfl hselected hfiles
    exact ackAndGate_along hD hrules hproven rfl

theorem settleAll_along
    {rest : List UnknownSegmentFact} (hrules : ∀ f ∈ facts, Sending lib rules f.index)
    (hrest : ∀ f ∈ rest, f ∈ facts) (hlisted : .listed ⟨w.identity, day, facts, envelope⟩ ∈ w.log) :
    Along lib rules w (settleAll lib now day envelope facts rest : UploadProg ε Unit)
      fun _ _ => True := by
  induction rest generalizing w with
  | nil => exact Moves.pure trivial
  | cons fact rest ih =>
    have hfact := hrest fact List.mem_cons_self
    refine (settleUnknown_along hD (hrules fact hfact) hfact hlisted).bind fun _ w1 hw1 _ => ?_
    refine ih (fun f hf => hrest f (List.mem_cons_of_mem _ hf)) ?_
    rw [hw1.grows.identity]
    exact hw1.grows.mem hlisted

theorem listSegments_along (day : String) (facts : List UnknownSegmentFact) :
    Along lib rules w (listSegments day facts : UploadProg ε _) fun r w' =>
      ∀ envelope, r = .ok envelope → .listed ⟨w'.identity, day, facts, envelope⟩ ∈ w'.log := by
  unfold listSegments
  refine Moves.call hD fun o _ => ?_
  split
  · exact ⟨.refl, nofun⟩
  split
  · refine ⟨.refl, fun r hr envelope henvelope => ?_⟩
    cases hr
    cases henvelope
  · refine ⟨.single .listed, fun r hr envelope henvelope => ?_⟩
    cases hr
    cases henvelope
    exact List.mem_append_right _ (List.mem_singleton.mpr rfl)

omit hD in
theorem readListingFailure_along {error : TransportError} :
    Along lib rules w (readListingFailure lib now day error) fun _ _ => True := by
  refine (publish_along _).bind fun _ w1 _ _ => ?_
  split
  · exact Moves.fail
  split
  · refine (publish_along _).bind fun _ w2 _ _ => ?_
    exact boundDay_along _ _
  · exact Moves.fail

theorem listingPass_along {unknown : List (String × UnknownSegmentFact)}
    (hrules : ∀ u ∈ unknown, Sending lib rules u.2.index) :
    Along lib rules w (listingPass lib now unknown) fun _ _ => True := by
  refine Moves.get_bind ?_
  split
  · exact Moves.pure trivial
  rename_i day hday
  refine (listSegments_along hD day _).bind fun r w1 _ hr => ?_
  match r with
  | .error .awaitingConfirmation => exact Moves.fail
  | .error (.transport error) => exact readListingFailure_along
  | .ok envelope =>
    refine (boundDay_along _ _).bind fun _ w2 hw2 _ => ?_
    refine settleAll_along hD ?_ (fun f hf => hf) ?_
    · intro f hf
      obtain ⟨u, hu, rfl⟩ := List.mem_map.mp hf
      exact hrules u (List.mem_of_mem_filter hu)
    · rw [hw2.grows.identity]
      exact hw2.grows.mem (hr envelope rfl)

end ListingPass

/-! ## A tick -/

section Tick

variable {lib : Libraries} {rules : Rules} (hD : rules.outside default) {w : World}
  {periodSecs now : Nat}

/-- The directories of scanned segments are there. -/
theorem Scanned.there {want : Bool} {w' : World}
    {D : Outside → Prop} (h : Scanned lib periodSecs D want w w' segments) :
    ∀ s ∈ segments, (w'.disk.lookup (.sealed s.index)).isSome := by
  intro s hs
  obtain ⟨w1, dir, -, hpath, hdir, -⟩ := h.seen s hs
  refine hpath.dir_stays (fun h => h) (fun h => h) ?_
  rw [hdir]
  rfl

omit hD in
/-- What is counted is there. -/
theorem setPending_along {ε : Type}
    (hthere : ∀ s ∈ segments, (w.disk.lookup (.sealed s.index)).isSome) :
    Along lib rules w (setPending now segments : UploadProg ε Unit) fun _ _ => True := by
  refine Moves.modify ?_ trivial
  refine ReflTransGen.tail (.single (.counted ?_)) (.remembered ?_)
  swap
  · exact fun _ _ => rfl
  intro index hindex
  obtain ⟨s, hs, rfl⟩ := List.mem_map.mp hindex
  exact hthere s (List.mem_of_mem_filter hs)

include hD

theorem recountPending_along {ε : Type} :
    Along lib rules w (recountPending lib periodSecs now : UploadProg ε Unit) fun _ _ => True := by
  refine (attempt_scan_along hD false).bind fun scanned w1 _ hscanned => ?_
  match scanned with
  | .error _ => exact setPending_along nofun
  | .ok segments => exact setPending_along (hscanned segments rfl).there

theorem exchange_along (hthere : ∀ s ∈ segments, (w.disk.lookup (.sealed s.index)).isSome)
    (hrules : ∀ s ∈ segments, Uploading lib rules s) :
    Along lib rules w (exchange lib periodSecs now segments) fun _ _ => True := by
  refine (setPending_along hthere).bind fun _ w1 _ _ => ?_
  refine (uploadSegments_along hD hrules).bind fun outcomes w2 _ hout => ?_
  refine (listingPass_along hD hout).bind fun _ w3 _ _ => ?_
  refine (recountPending_along hD).bind fun _ w4 _ _ => ?_
  exact Moves.pure trivial

theorem prepare_along {ε : Type} (hrelease : ∀ i, rules.releases i)
    (hrules : ∀ index, Finishing lib rules index) :
    Along lib rules w (prepare lib periodSecs now : UploadProg ε Unit) fun _ _ => True := by
  refine Moves.get_bind ?_
  refine ((along_of_peeks (listDirs_peeks hD)).bind fun _ _ _ _ =>
    releaseDirs_along hD hrelease _ _).ignore.bind fun _ w1 _ _ => ?_
  refine (recountQuarantined_along hD).bind fun _ w2 _ _ => ?_
  exact localFinish_along hD hrules

/-- A whole tick stays inside rules that let it work. -/
theorem tick_along (hrelease : ∀ i, rules.releases i)
    (hfinish : ∀ index, Finishing lib rules index) (hsend : ∀ index, Sending lib rules index) :
    Along lib rules w (tick lib periodSecs) fun _ _ => True := by
  refine (ask_along hD _).bind fun gateOpen w1 _ _ => ?_
  split
  · exact Moves.fail
  refine (ask_along hD _).bind fun now w2 _ _ => ?_
  refine (prepare_along hD hrelease hfinish).bind fun _ w3 _ _ => ?_
  refine (attempt_scan_along hD false).bind fun scanned w4 _ hscanned => ?_
  match scanned with
  | .error _ => exact Moves.fail
  | .ok segments =>
    refine exchange_along hD (hscanned segments rfl).there fun s _ => ?_
    exact ⟨(hsend s.index).touch, fun _ => hsend s.index⟩

end Tick

end SolstoneWindows.Proofs.PlTransportWin
