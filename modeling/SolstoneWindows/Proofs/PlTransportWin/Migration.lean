import SolstoneWindows.PlTransportWin.Migration

/-!
# A decision is on disk before it is used

Every function changes the loaded record along `Evolves`: a pending decision stays, with the same
request, or is kept among the settled ones with its result. A save publishes the changed record or
leaves the file, so the file moves along `Evolves` too, whatever fails.

What a failed save breaks is the other direction: the record in memory has a decision that the file
does not have, and `persist_decision` accepts the same decision again without saving it
(`persist_accepts_unsaved`). When the record is loaded again after such a failure, an accepted
decision is on disk (`decision_saved_before_use`).
-/

set_option autoImplicit false

namespace SolstoneWindows.PlTransportWin.Migration

open Lib.Effect Lib.Staged
open PlTransportWin (TransportError)

variable {crates : MigrationCrates}

/-! ## How a record changes -/

/-- Two saved decisions ask for the same, in the same bytes. -/
def SameRequest (d d' : SavedDecision) : Prop :=
  d'.request = d.request ∧ d'.requestBytesBase64 = d.requestBytesBase64

variable {d d' saved : SavedDecision}

theorem SameRequest.trans {d'' : SavedDecision} (h : SameRequest d d')
    (h' : SameRequest d' d'') : SameRequest d d'' :=
  ⟨h'.1.trans h.1, h'.2.trans h.2⟩

/-- The bytes to send depend on the request and its saved form only. -/
theorem SameRequest.decisionBytes (h : SameRequest d d') :
    decisionBytes crates d' = decisionBytes crates d := by
  unfold Migration.decisionBytes
  rw [h.1, h.2]

/-- The record has the decision pending, or kept with a result. -/
def Settles (d : SavedDecision) (record : MigrationRecord) : Prop :=
  (∃ d', record.pendingDecision = some d' ∧ SameRequest d d') ∨
    ∃ d' ∈ record.terminalDecisions, SameRequest d d' ∧ d'.result ≠ "unknown"

/-- No decision of the first record is lost in the second. -/
structure Evolves (r r' : MigrationRecord) : Prop where
  pending : ∀ d, r.pendingDecision = some d → Settles d r'
  terminal : r.terminalDecisions ⊆ r'.terminalDecisions

theorem Evolves.refl (r : MigrationRecord) : Evolves r r where
  pending d hd := .inl ⟨d, hd, rfl, rfl⟩
  terminal := List.Subset.refl _

variable {r : MigrationRecord}

theorem Evolves.trans {r' r'' : MigrationRecord} (h : Evolves r r') (h' : Evolves r' r'') :
    Evolves r r'' where
  pending d hd := by
    rcases h.pending d hd with ⟨d', hd', hsame⟩ | ⟨d', hd', hsame, hresult⟩
    · rcases h'.pending d' hd' with ⟨d'', hd'', hsame'⟩ | ⟨d'', hd'', hsame', hresult⟩
      · exact .inl ⟨d'', hd'', hsame.trans hsame'⟩
      · exact .inr ⟨d'', hd'', hsame.trans hsame', hresult⟩
    · exact .inr ⟨d', h'.terminal hd', hsame, hresult⟩
  terminal := List.Subset.trans h.terminal h'.terminal

/-- The revision is not part of what evolves. -/
theorem evolves_revision (r : MigrationRecord) (n : Nat) : Evolves r { r with revision := n } where
  pending d hd := .inl ⟨d, hd, rfl, rfl⟩
  terminal := List.Subset.refl _

variable {choice : Choice} {cid : Option String}

/-- A new decision is taken only when none is pending, or the pending one has a result. -/
theorem evolves_withDecision (h : ∀ d, r.pendingDecision = some d → d.result = "target_missing") :
    Evolves r (withDecision crates r choice cid) where
  pending d hd := by
    refine .inr ⟨d, ?_, ⟨rfl, rfl⟩, ?_⟩
    · simp [withDecision, hd]
    · rw [h d hd]
      decide
  terminal := List.subset_append_left _ _

/-- A record in which the same request is pending. -/
theorem evolves_of_sameRequest {r' : MigrationRecord} (h : r.pendingDecision = some d)
    (h' : r'.pendingDecision = some d') (hsame : SameRequest d d')
    (hterminal : r'.terminalDecisions = r.terminalDecisions) : Evolves r r' where
  pending saved hsaved := by
    cases h.symm.trans hsaved
    exact .inl ⟨d', h', hsame⟩
  terminal := hterminal ▸ List.Subset.refl _

/-! ## Saving -/

/-- The file as a save of `record` can leave it. -/
def Replaced (record : MigrationRecord) (file file' : Slot MigrationRecord) : Prop :=
  file'.published = file.published ∨
    ∃ n, file'.published = some (.whole { record with revision := n })

theorem load_spec {file : Slot MigrationRecord} {I : Slot MigrationRecord → Prop} (hI : I file) :
    Runs Any file load (fun _ file' => file' = file) (fun _ => I) I := by
  refine (readPublished_spec hI).bind ?_
  rintro content _ ⟨_, rfl⟩
  match content with
  | none => exact Runs.pure rfl
  | some .torn => exact Runs.fail hI
  | some (.whole record) =>
    show Runs Any _ (if record.schema ≠ MIGRATION_RECORD_SCHEMA then _ else _) _ _ _
    split
    · exact Runs.fail hI
    · exact Runs.pure rfl

theorem publishRecord_spec {file : Slot MigrationRecord} {staged : MigrationRecord} :
    Runs Any file (publishRecord staged) (fun _ file' => file'.published = some (.whole staged))
      (fun _ file' => file'.published = file.published ∨ file'.published = some (.whole staged))
      fun file' => file'.published = file.published ∨ file'.published = some (.whole staged) := by
  refine Runs.bind (probe_spec (.inl rfl)) ?_
  rintro _ _ rfl
  refine Runs.bind (Runs.mono stage_spec (fun _ _ h => h) (fun _ _ h => .inl h)
    fun _ h => .inl h) ?_
  rintro _ file1 ⟨hpublished, hstaged⟩
  refine Runs.bind (readStaged_spec (.inl hpublished)) ?_
  rintro _ file1 ⟨rfl, rfl⟩
  refine Runs.bind (R := fun _ file' => file' = file1)
    (Runs.onlyIf (fun _ => Runs.fail (.inl hpublished)) fun _ => rfl) ?_
  rintro _ file1 rfl
  refine Runs.bind (Runs.mono (publish_spec hstaged) (fun _ _ h => h)
    (fun _ _ h => h.imp (·.trans hpublished) And.right)
    fun _ h => h.imp_left (·.trans hpublished)) ?_
  intro _ file2 hmoved
  refine Runs.bind (readPublished_spec (.inr hmoved)) ?_
  rintro _ _ ⟨rfl, rfl⟩
  exact Runs.onlyIf (fun _ => Runs.fail (.inr hmoved)) fun _ => hmoved

variable {s s' : MigrationSession}

/-- A save that returns has published the record. One that does not return leaves the record in
memory as it was given, and the file as it was or with that record. -/
theorem save_spec : Runs Any s save (fun _ s' => ∃ n, s'.record = { s.record with revision := n } ∧
        s'.file.published = some (.whole { s.record with revision := n }))
      (fun _ s' => s'.record = s.record ∧ Replaced s.record s.file s'.file)
      fun s' => s'.record = s.record ∧ Replaced s.record s.file s'.file := by
  refine Runs.get_bind ?_
  show Runs Any s (if s.record.schema ≠ MIGRATION_RECORD_SCHEMA then _ else _) _ _ _
  split
  · exact Runs.fail ⟨rfl, .inl rfl⟩
  refine Runs.bind (R := fun _ s' => s' = s) (Runs.zoom ?_) ?_
  · refine Runs.mono (load_spec (I := fun file' => file' = s.file) rfl) ?_ ?_ ?_
    · rintro _ _ rfl
      rfl
    · rintro _ _ rfl
      exact ⟨rfl, .inl rfl⟩
    · rintro _ rfl
      exact ⟨rfl, .inl rfl⟩
  rintro current s rfl
  cases nextRevision current s.record with
  | none => exact Runs.fail ⟨rfl, .inl rfl⟩
  | some n =>
    refine Runs.bind (R := fun _ s' => s'.record = s.record ∧
      s'.file.published = some (.whole { s.record with revision := n })) (Runs.zoom ?_) ?_
    · refine Runs.mono publishRecord_spec ?_ ?_ ?_
      · intro _ file' h
        exact ⟨rfl, h⟩
      · intro _ file' h
        exact ⟨rfl, h.imp_right fun h => ⟨n, h⟩⟩
      · intro file' h
        exact ⟨rfl, h.imp_right fun h => ⟨n, h⟩⟩
    · rintro _ s' ⟨hrecord, hfile⟩
      refine Runs.modify ⟨n, ?_, hfile⟩
      show { s'.record with revision := n } = _
      rw [hrecord]

/-! ## The calls -/

/-- The request of the pending decision, and its saved form. -/
def requestOf (record : MigrationRecord) : Option (DecisionRequest × String) :=
  record.pendingDecision.map fun d => (d.request, d.requestBytesBase64)

/-- How a call can leave a session that changed the record to `r`, if it changed it, and saved
it. -/
structure Changed (s : MigrationSession) (r : MigrationRecord) (s' : MigrationSession) : Prop where
  evolves : Evolves s.record r
  record : ∃ n, s'.record = { r with revision := n }
  file : Replaced r s.file s'.file

theorem Changed.refl (s : MigrationSession) : Changed s s.record s where
  evolves := Evolves.refl _
  record := ⟨s.record.revision, rfl⟩
  file := .inl rfl

/-- Saving a record that was changed to `r`. -/
theorem save_changed (hevolves : Evolves s.record r) : Runs Any { s with record := r } save
      (fun _ s' => Changed s r s' ∧ s'.file.published = some (.whole s'.record))
      (fun _ s' => Changed s r s' ∧ s'.record = r) (Changed s r) := by
  refine Runs.mono save_spec ?_ ?_ ?_
  · rintro _ s' ⟨n, hrecord, hfile⟩
    exact ⟨⟨hevolves, ⟨n, hrecord⟩, .inr ⟨n, hfile⟩⟩, by rw [hfile, hrecord]⟩
  · rintro _ s' ⟨hrecord, hfile⟩
    exact ⟨⟨hevolves, ⟨_, hrecord⟩, hfile⟩, hrecord⟩
  · rintro s' ⟨hrecord, hfile⟩
    exact ⟨hevolves, ⟨_, hrecord⟩, hfile⟩

def Accepts (choice : Choice) (cid : Option String) (record : MigrationRecord) : Prop :=
  ∃ saved, record.pendingDecision = some saved ∧ saved.request.choice = choice ∧
    saved.request.replacesCid = cid

theorem persistNew_spec (h : ∀ d, s.record.pendingDecision = some d → d.result = "target_missing") :
    Runs Any s (persistNew crates choice cid)
      (fun _ s' => (∃ r, Changed s r s') ∧ Accepts choice cid s'.record ∧
        s'.file.published = some (.whole s'.record))
      (fun _ s' => Changed s s'.record s') fun s' => ∃ r, Changed s r s' := by
  refine Runs.get_bind ?_
  show Runs Any s (if closedOffer s.record then _ else _) _ _ _
  split
  · exact Runs.fail (Changed.refl s)
  refine Runs.modify_bind (Runs.mono (save_changed (evolves_withDecision h)) ?_ ?_ ?_)
  · rintro _ s' ⟨hchanged, hfile⟩
    obtain ⟨n, hrecord⟩ := hchanged.record
    refine ⟨⟨_, hchanged⟩, ?_, hfile⟩
    rw [hrecord]
    exact ⟨_, rfl, rfl, rfl⟩
  · rintro _ s' ⟨hchanged, hrecord⟩
    rw [hrecord]
    exact hchanged
  · intro s' hchanged
    exact ⟨_, hchanged⟩

/-- `persist_decision` accepts what the record already has without touching the file, and saves
what it does not have. -/
theorem persistDecision_spec : Runs Any s (persistDecision crates choice cid)
      (fun _ s' => (∃ r, Changed s r s') ∧ Accepts choice cid s'.record ∧
        (s' = s ∨ s'.file.published = some (.whole s'.record)))
      (fun _ s' => Changed s s'.record s') fun s' => ∃ r, Changed s r s' := by
  refine Runs.get_bind ?_
  show Runs Any s (if malformedDecision s.record choice cid then _ else _) _ _ _
  split
  · exact Runs.fail (Changed.refl s)
  cases hpending : s.record.pendingDecision with
  | none =>
    refine (persistNew_spec ?_).weaken fun _ s' h => ⟨h.1, h.2.1, .inr h.2.2⟩
    intro d hd
    rw [hpending] at hd
    cases hd
  | some saved =>
    show Runs Any s (if saved.request.choice = choice ∧ saved.request.replacesCid = cid then _
      else if saved.result ≠ "target_missing" then _ else _) _ _ _
    split
    next hsame =>
      split
      · exact Runs.fail (Changed.refl s)
      · exact Runs.pure ⟨⟨_, Changed.refl s⟩, ⟨saved, hpending, hsame⟩, .inl rfl⟩
    split
    · exact Runs.fail (Changed.refl s)
    rename_i hmissing
    refine (persistNew_spec ?_).weaken fun _ s' h => ⟨h.1, h.2.1, .inr h.2.2⟩
    intro d hd
    rw [hpending] at hd
    cases hd
    exact not_not.mp hmissing

/-- A call that does not touch the request of the pending decision. -/
def Quiet (s s' : MigrationSession) : Prop :=
  ∃ r, Changed s r s' ∧ requestOf r = requestOf s.record

theorem Quiet.refl (s : MigrationSession) : Quiet s s := ⟨s.record, Changed.refl s, rfl⟩

theorem quiet_save (hevolves : Evolves s.record r) (hrequest : requestOf r = requestOf s.record) :
    Ends Any { s with record := r } save (Quiet s) :=
  Runs.mono (save_changed hevolves) (fun _ _ h => ⟨r, h.1, hrequest⟩)
    (fun _ _ h => ⟨r, h.1, hrequest⟩) fun _ h => ⟨r, h, hrequest⟩

theorem markDecisionTerminal_spec {response : DecisionResponse} :
    Ends Any s (markDecisionTerminal response) (Quiet s) := by
  refine Runs.get_bind ?_
  cases hpending : s.record.pendingDecision with
  | none =>
    simp only [hpending]
    exact Runs.fail (Quiet.refl s)
  | some saved =>
    simp only [hpending]
    split
    · exact Runs.fail (Quiet.refl s)
    · refine Runs.modify_bind (quiet_save (evolves_of_sameRequest hpending rfl ⟨rfl, rfl⟩ rfl) ?_)
      simp [requestOf, withTerminal, hpending]

theorem recordTargetMissing_spec {status : Nat} {body : List UInt8} :
    Ends Any s (recordTargetMissing crates status body) (Quiet s) := by
  refine Runs.get_bind ?_
  show Runs Any s (if !targetMissingReason crates status body then _ else _) _ _ _
  split
  · exact Runs.pure (Quiet.refl s)
  cases hpending : s.record.pendingDecision with
  | none => exact Runs.pure (Quiet.refl s)
  | some saved =>
    show Runs Any s (if saved.request.choice ≠ .replaceDevice ∨ saved.result ≠ "unknown" then _
      else _) _ _ _
    split
    · exact Runs.pure (Quiet.refl s)
    · refine Runs.modify_bind
        (Runs.bind (quiet_save (evolves_of_sameRequest hpending rfl ⟨rfl, rfl⟩ rfl) ?_) ?_)
      · simp [requestOf, withTargetMissing, hpending]
      · intro _ s' hquiet
        exact Runs.pure hquiet

/-- Loading again gives what the file holds. -/
theorem reload_spec (hfile : s.file.published = some (.whole r)) :
    Runs Any s reload (fun _ s' => s' = { s with record := r }) (fun _ s' => s' = s)
      fun s' => s' = s := by
  refine Runs.bind (R := fun current s' => s' = s ∧ current = some r) (Runs.zoom ?_) ?_
  · refine Runs.bind (readPublished_spec (I := fun file' => file' = s.file) rfl |>.mono
      (fun _ _ h => h) ?_ ?_) ?_
    · rintro _ _ rfl
      rfl
    · rintro _ rfl
      rfl
    · rintro _ _ ⟨rfl, rfl⟩
      rw [hfile]
      show Runs Any _ (if r.schema ≠ MIGRATION_RECORD_SCHEMA then _ else _) _ _ _
      split
      · exact Runs.fail rfl
      · exact Runs.pure ⟨rfl, rfl⟩
  · rintro _ _ ⟨rfl, rfl⟩
    exact Runs.modify rfl

/-! ## Runs -/

/-- One call on the loaded record. -/
inductive Call where
  | persistDecision (choice : Choice) (replacesCid : Option String)
  | markDecisionTerminal (response : DecisionResponse)
  | recordTargetMissing (status : Nat) (body : List UInt8)
  | reconcileDecisionState (response : MigrationStateResponse)
  | reload

def Call.run (crates : MigrationCrates) : Call → MigrationProg Unit
  | .persistDecision choice replacesCid => Migration.persistDecision crates choice replacesCid
  | .markDecisionTerminal response => Migration.markDecisionTerminal response
  | .recordTargetMissing status body => do
    let _ ← Migration.recordTargetMissing crates status body
    pure ()
  | .reconcileDecisionState response => do
    match Migration.reconcileDecisionState (← Prog.get).record response with
    | .ok _ => pure ()
    | .error e => Prog.fail e
  | .reload => Migration.reload

/-- A session, and whether a `persist_decision` on the loaded record has failed after it changed
the record. -/
structure Watched where
  session : MigrationSession
  unsaved : Bool

/-- Whether the record has an unsaved decision after a call. -/
def unsavedAfter (w : Watched) (call : Call) (ended : Ended TransportError Unit)
    (record : MigrationRecord) : Bool :=
  match call, ended with
  | .reload, .ok _ => false
  | .persistDecision _ _, .err _ => w.unsaved || decide (record ≠ w.session.record)
  | _, _ => w.unsaved

def Watched.after (crates : MigrationCrates) (w : Watched) (call : Call) (fates : List Fate) :
    Watched where
  session := (call.run crates).final fates w.session
  unsaved := unsavedAfter w call ((call.run crates) fates w.session).1
    ((call.run crates).final fates w.session).record

/-- One step of a run: a call that ends, or a stop and a new start that loads the record. -/
inductive Step (crates : MigrationCrates) : Watched → Watched → Prop
  | call {w : Watched} (call : Call) (fates : List Fate)
      (hends : ((call.run crates) fates w.session).1 ≠ .stopped) :
      Step crates w (w.after crates call fates)
  | restart {w : Watched} (call : Call) (fates : List Fate) (record : MigrationRecord)
      (hstops : ((call.run crates) fates w.session).1 = .stopped)
      (hloads : ((call.run crates).final fates w.session).file.published = some (.whole record)) :
      Step crates w
        { session := { file := ((call.run crates).final fates w.session).file, record }
          unsaved := false }

/-- The file holds a record, the loaded one descends from it, and has the same request pending
unless a decision failed to be saved. -/
structure Kept (w : Watched) (r : MigrationRecord) : Prop where
  file : w.session.file.published = some (.whole r)
  evolves : Evolves r w.session.record
  saved : w.unsaved = false → requestOf w.session.record = requestOf r

@[simp] theorem requestOf_revision (r : MigrationRecord) (n : Nat) :
    requestOf { r with revision := n } = requestOf r := rfl

/-- What a change of the record does to the file it came from. -/
theorem Changed.kept {r1 : MigrationRecord} (h : Changed s r1 s')
    (hfile : s.file.published = some (.whole r)) (hevolves : Evolves r s.record) :
    ∃ r', s'.file.published = some (.whole r') ∧ Evolves r r' ∧ Evolves r' s'.record ∧
      (requestOf r1 = requestOf r → requestOf s'.record = requestOf r') := by
  obtain ⟨n, hrecord⟩ := h.record
  have hchain : Evolves r r1 := hevolves.trans h.evolves
  rcases h.file with hsame | ⟨m, hmoved⟩
  · refine ⟨r, hsame.trans hfile, Evolves.refl r, ?_, ?_⟩
    · rw [hrecord]
      exact hchain.trans (evolves_revision r1 n)
    · intro hrequest
      rw [hrecord, requestOf_revision, hrequest]
  · refine ⟨_, hmoved, hchain.trans (evolves_revision r1 m), ?_, ?_⟩
    · rw [hrecord]
      exact ⟨fun d hd => .inl ⟨d, hd, rfl, rfl⟩, List.Subset.refl _⟩
    · intro _
      rw [hrecord]
      rfl

variable {w w' : Watched}

/-- A call that leaves the pending request alone keeps what is kept. -/
theorem Quiet.kept (h : Quiet w.session s') (hkept : Kept w r) :
    ∃ r', Kept { session := s', unsaved := w.unsaved } r' ∧ Evolves r r' := by
  obtain ⟨r1, hchanged, hrequest⟩ := h
  obtain ⟨r', hfile, hevolves, hmemory, hsaved⟩ := hchanged.kept hkept.file hkept.evolves
  refine ⟨r', ⟨hfile, hmemory, ?_⟩, hevolves⟩
  intro hfresh
  exact hsaved (hrequest.trans (hkept.saved hfresh))

/-- The calls that never touch the pending request. -/
theorem quiet_call {call : Call}
    (hpersist : ∀ choice cid, call ≠ .persistDecision choice cid) (hreload : call ≠ .reload) :
    Ends Any s (call.run crates) (Quiet s) := by
  cases call with
  | persistDecision choice cid => exact absurd rfl (hpersist choice cid)
  | markDecisionTerminal response => exact markDecisionTerminal_spec
  | recordTargetMissing status body =>
    exact Runs.bind recordTargetMissing_spec fun _ _ h => Runs.pure h
  | reconcileDecisionState response =>
    refine Runs.get_bind ?_
    split
    · exact Runs.pure (Quiet.refl s)
    · exact Runs.fail (Quiet.refl s)
  | reload => exact absurd rfl hreload

/-- However a call ends, the file holds a descendant of the record it held. -/
theorem call_file (call : Call) (fates : List Fate)
    (hfile : s.file.published = some (.whole r)) (hevolves : Evolves r s.record) :
    ∃ r', ((call.run crates).final fates s).file.published = some (.whole r') ∧ Evolves r r' := by
  have hchange : Ends Any s (call.run crates) fun s' =>
      s'.file = s.file ∨ ∃ r1, Changed s r1 s' := by
    cases call with
    | persistDecision choice cid =>
      exact Runs.mono persistDecision_spec (fun _ _ h => .inr h.1) (fun _ _ h => .inr ⟨_, h⟩)
        fun _ h => .inr h
    | reload =>
      refine Runs.mono (reload_spec hfile) ?_ ?_ ?_
      · rintro _ _ rfl
        exact .inl rfl
      · rintro _ _ rfl
        exact .inl rfl
      · rintro _ rfl
        exact .inl rfl
    | markDecisionTerminal _ | recordTargetMissing _ _ | reconcileDecisionState _ =>
      refine Runs.mono (quiet_call (by simp) (by simp)) ?_ ?_ ?_
      · exact fun _ _ h => .inr ⟨_, h.choose_spec.1⟩
      · exact fun _ _ h => .inr ⟨_, h.choose_spec.1⟩
      · exact fun _ h => .inr ⟨_, h.choose_spec.1⟩
  have hleft : ((call.run crates).final fates s).file = s.file ∨
      ∃ r1, Changed s r1 ((call.run crates).final fates s) := hchange.final fun _ _ => trivial
  rcases hleft with hsame | ⟨r1, hchanged⟩
  · exact ⟨r, by rw [hsame, hfile], Evolves.refl r⟩
  · obtain ⟨r', hmoved, hfrom, _⟩ := hchanged.kept hfile hevolves
    exact ⟨r', hmoved, hfrom⟩

/-- `persist_decision` keeps what is kept. -/
theorem persist_kept (fates : List Fate) (hkept : Kept w r)
    (hends : ((persistDecision crates choice cid) fates w.session).1 ≠ .stopped) :
    ∃ r', Kept (w.after crates (.persistDecision choice cid) fates) r' ∧ Evolves r r' := by
  have hspec : Runs Any w.session (persistDecision crates choice cid) _ _ _ := persistDecision_spec
  have hsat := (hspec fates fun _ _ => trivial).2
  unfold Watched.after Prog.final Call.run
  dsimp only
  rcases hrun : persistDecision crates choice cid fates w.session with ⟨ended, rest, s'⟩
  rw [hrun] at hsat hends
  cases ended with
  | stopped => exact absurd rfl hends
  | ok a =>
    obtain ⟨⟨r1, hchanged⟩, _, hplace⟩ := hsat
    obtain ⟨r', hfile, hevolves, hmemory, _⟩ := hchanged.kept hkept.file hkept.evolves
    refine ⟨r', ⟨hfile, hmemory, ?_⟩, hevolves⟩
    intro hfresh
    rcases hplace with hsame | hplace
    · -- Nothing was touched: what was kept is still kept.
      have hsession : s' = w.session := hsame
      subst hsession
      rw [hkept.file] at hfile
      cases hfile
      exact hkept.saved hfresh
    · rw [hplace] at hfile
      cases hfile
      rfl
  | err e =>
    obtain ⟨r', hfile, hevolves, hmemory, hsaved⟩ := hsat.kept hkept.file hkept.evolves
    refine ⟨r', ⟨hfile, hmemory, ?_⟩, hevolves⟩
    intro hfresh
    have hflags : w.unsaved = false ∧ s'.record = w.session.record := by
      simpa [unsavedAfter] using hfresh
    refine hsaved ?_
    rw [hflags.2]
    exact hkept.saved hflags.1

theorem reload_kept (fates : List Fate) (hkept : Kept w r)
    (hends : (reload fates w.session).1 ≠ .stopped) :
    ∃ r', Kept (w.after crates .reload fates) r' ∧ Evolves r r' := by
  have hsat := (reload_spec hkept.file fates fun _ _ => trivial).2
  unfold Watched.after Prog.final Call.run
  dsimp only
  rcases hrun : reload fates w.session with ⟨ended, rest, s'⟩
  rw [hrun] at hsat hends
  cases ended with
  | stopped => exact absurd rfl hends
  | ok a =>
    have hsession : s' = { w.session with record := r } := hsat
    subst hsession
    exact ⟨r, ⟨hkept.file, Evolves.refl r, fun _ => rfl⟩, Evolves.refl r⟩
  | err e =>
    have hsession : s' = w.session := hsat
    subst hsession
    exact ⟨r, ⟨hkept.file, hkept.evolves, hkept.saved⟩, Evolves.refl r⟩

/-- One step keeps what is kept, and the file evolves. -/
theorem step_kept (hkept : Kept w r)
    (hstep : Step crates w w') : ∃ r', Kept w' r' ∧ Evolves r r' := by
  cases hstep with
  | restart call fates record hstops hloads =>
    have hleft : ∃ r', ((call.run crates).final fates w.session).file.published =
        some (.whole r') ∧ Evolves r r' := call_file call fates hkept.file hkept.evolves
    obtain ⟨r', hfile, hevolves⟩ := hleft
    rw [hloads] at hfile
    cases hfile
    exact ⟨record, ⟨hloads, Evolves.refl record, fun _ => rfl⟩, hevolves⟩
  | call call fates hends =>
    cases call with
    | persistDecision choice cid => exact persist_kept fates hkept hends
    | reload => exact reload_kept fates hkept hends
    | markDecisionTerminal _ | recordTargetMissing _ _ | reconcileDecisionState _ =>
      exact ((quiet_call (by simp) (by simp)).final fun _ _ => trivial).kept hkept

/-- A whole run keeps what is kept, and the file evolves. -/
theorem run_kept (hkept : Kept w r)
    (hrun : Relation.ReflTransGen (Step crates) w w') : ∃ r', Kept w' r' ∧ Evolves r r' := by
  induction hrun with
  | refl => exact ⟨r, hkept, Evolves.refl r⟩
  | tail _ hstep ih =>
    obtain ⟨r1, hkept1, hevolves1⟩ := ih
    obtain ⟨r2, hkept2, hevolves2⟩ := step_kept hkept1 hstep
    exact ⟨r2, hkept2, hevolves1.trans hevolves2⟩

/-- The decision of one record, as another one has it: pending with the same bytes to send, or
kept with a result. -/
def BytesKept (crates : MigrationCrates) (d : SavedDecision) (record : MigrationRecord) : Prop :=
  (∃ d', record.pendingDecision = some d' ∧ decisionBytes crates d' = decisionBytes crates d) ∨
    ∃ d' ∈ record.terminalDecisions, d'.request = d.request ∧ d'.result ≠ "unknown"

theorem Settles.bytesKept {record : MigrationRecord} (h : Settles d record) :
    BytesKept crates d record := by
  rcases h with ⟨d', hd', hsame⟩ | ⟨d', hd', hsame, hresult⟩
  · exact .inl ⟨d', hd', hsame.decisionBytes⟩
  · exact .inr ⟨d', hd', hsame.1, hresult⟩

/-- In every run of calls on a loaded record, with failures and restarts anywhere:

- a `persist_decision` that returns is backed by the file, which has the accepted request in the
  same bytes, unless an earlier one on the same loaded record failed after it had changed it;
- from any point on, a decision pending in the file stays there with the same bytes to send, in the
  file and in memory, until it has a result, with which it is then kept. -/
theorem decision_saved_before_use (crates : MigrationCrates) {w0 w : Watched}
    (hloaded : w0.session.file.published = some (.whole w0.session.record))
    (hrun : Relation.ReflTransGen (Step crates) w0 w) : (∀ choice cid fates, w.unsaved = false →
      ((persistDecision crates choice cid) fates w.session).1 = .ok () →
      ∃ saved onDisk r,
        ((persistDecision crates choice cid).final fates w.session).record.pendingDecision =
          some saved ∧ saved.request.choice = choice ∧ saved.request.replacesCid = cid ∧
        ((persistDecision crates choice cid).final fates w.session).file.published =
          some (.whole r) ∧ r.pendingDecision = some onDisk ∧ SameRequest saved onDisk) ∧
      ∀ w', Relation.ReflTransGen (Step crates) w w' →
        ∃ r r', w.session.file.published = some (.whole r) ∧
          w'.session.file.published = some (.whole r') ∧
          ∀ d, r.pendingDecision = some d →
            BytesKept crates d r' ∧ BytesKept crates d w'.session.record := by
  have hstart : Kept w0 w0.session.record := ⟨hloaded, Evolves.refl _, fun _ => rfl⟩
  obtain ⟨r, hkept, _⟩ := run_kept hstart hrun
  constructor
  · intro choice cid fates hsaved hok
    have hspec : Runs Any w.session (persistDecision crates choice cid) _ _ _ :=
      persistDecision_spec
    obtain ⟨_, ⟨saved, hpending, hchoice, hcid⟩, _⟩ :=
      hspec.returns (fun (_ : Fate) (_ : _ ∈ fates) => trivial) hok
    obtain ⟨r', hkept', _⟩ := persist_kept fates hkept (by rw [hok]; simp)
    have honDisk : requestOf r' = some (saved.request, saved.requestBytesBase64) := by
      rw [← hkept'.saved (by simp [Watched.after, Call.run, unsavedAfter, hok, hsaved])]
      simp [Watched.after, Call.run, requestOf, hpending]
    obtain ⟨onDisk, hd, hsame⟩ := Option.map_eq_some_iff.mp honDisk
    rw [Prod.mk.injEq] at hsame
    exact ⟨saved, onDisk, r', hpending, hchoice, hcid, hkept'.file, hd, hsame⟩
  · intro w' hlater
    obtain ⟨r', hkept', hevolves⟩ := run_kept hkept hlater
    refine ⟨r, r', hkept.file, hkept'.file, ?_⟩
    intro d hd
    exact ⟨(hevolves.pending d hd).bytesKept,
      ((hevolves.trans hkept'.evolves).pending d hd).bytesKept⟩

/-! ## A decision that was never saved -/

section Unsaved

/-- Crates that write a request as its operation, and make every digest 0. -/
def plainCrates : MigrationCrates where
  requestToVec request := request.operationId.toList.map fun c => UInt8.ofNat c.toNat
  requestFromSlice bytes := some
    { protocolVersion := 1
      operationId := String.ofList (bytes.map fun byte => Char.ofNat byte.toNat)
      choice := .newDevice
      replacesCid := none }
  base64Encode bytes := String.ofList (bytes.map fun byte => Char.ofNat byte.toNat)
  base64Decode text := some (text.toList.map fun c => UInt8.ofNat c.toNat)
  sha256 _ := List.replicate 32 0
  bodyField _ _ := none

/-- A fresh pairing whose offer is open. -/
def offeredRecord : MigrationRecord where
  schema := MIGRATION_RECORD_SCHEMA
  revision := 1
  pairingGeneration := []
  phase := .offered
  cid := "sha256:" ++ String.ofList (List.replicate 64 'a')
  binding := "b"
  pendingDecision := none
  terminalDecisions := []
  serverState := none
  replacedCid := none
  decisionDisplayLabel := none
  offerPending := true

def offeredSession : MigrationSession :=
  { file := { published := some (.whole offeredRecord) }, record := offeredRecord }

/-- The first decision is not saved, and the record is loaded again. -/
def loadedAgain : Watched :=
  (Watched.after plainCrates ⟨offeredSession, false⟩ (.persistDecision .newDevice none)
    [.done, .failed false]).after plainCrates .reload []

/-- The second decision is saved. -/
def decided : Watched := loadedAgain.after plainCrates (.persistDecision .newDevice none) []

/-- The journal's answer to the second decision. -/
def confirmation : DecisionResponse where
  protocolVersion := 1
  operationId := "00000000-0000-5000-8000-000000000000"
  state := .newDevice
  previousCid := none
  cid := offeredRecord.cid
  replacedCid := none
  displayLabel := "desk"

/-- The answer is taken, and is not saved. -/
def answered : Watched :=
  decided.after plainCrates (.markDecisionTerminal confirmation) [.done, .failed false]

/-- After a failed save and a new load, a decision that is accepted is on disk. It stays there with
its bytes when the journal's answer to it cannot be saved. -/
theorem decision_saved_before_use_retried :
    (∃ saved onDisk r, decided.session.record.pendingDecision = some saved ∧
        saved.request.choice = .newDevice ∧ saved.request.replacesCid = none ∧
        decided.session.file.published = some (.whole r) ∧ r.pendingDecision = some onDisk ∧
        SameRequest saved onDisk) ∧
      answered.session.record.phase = .decided ∧
      ∃ r r', decided.session.file.published = some (.whole r) ∧
        answered.session.file.published = some (.whole r') ∧
        ∀ d, r.pendingDecision = some d → BytesKept plainCrates d r' ∧
          BytesKept plainCrates d answered.session.record := by
  have hloaded : Relation.ReflTransGen (Step plainCrates) ⟨offeredSession, false⟩ loadedAgain :=
    .tail (.single (.call _ _ (by decide +kernel))) (.call _ _ (by decide +kernel))
  have hdecided : Step plainCrates loadedAgain decided := .call _ _ (by decide +kernel)
  have hanswered : Step plainCrates decided answered := .call _ _ (by decide +kernel)
  exact ⟨(decision_saved_before_use plainCrates rfl hloaded).1 .newDevice none []
      (by decide +kernel) (by decide +kernel), by decide +kernel,
    (decision_saved_before_use plainCrates rfl (hloaded.tail hdecided)).2 answered
      (.single hanswered)⟩

/-- The first attempt changes the record and fails before anything is written. The second one
returns, and the file has no decision. -/
theorem persist_accepts_unsaved : ∃ changed,
      persistDecision plainCrates .newDevice none [.done, .failed false] offeredSession =
        (.err .io, [], changed) ∧
      persistDecision plainCrates .newDevice none [] changed = (.ok (), [], changed) ∧
      changed.file.published = some (.whole offeredRecord) ∧
      offeredRecord.pendingDecision = none :=
  ⟨{ offeredSession with record := withDecision plainCrates offeredRecord .newDevice none },
    by decide +kernel, by decide +kernel, rfl, rfl⟩

end Unsaved

end SolstoneWindows.PlTransportWin.Migration
