import SolstoneWindows.PlTransportWin.Credential

/-!
# What loading and saving leave

The guards of the source read nothing of a secret, so what they see of a state is its `bare` form.
`load_spec` says that loading gives the bare form of the file, and `saveInner_spec` that saving
writes the bare form of the merged state or leaves the file; no other file of the profile changes.
-/

set_option autoImplicit false

namespace SolstoneWindows.PlTransportWin

open Lib.Effect Lib.Staged

/-! ## States without their secrets -/

def Credential.bare {κ : Type} (credential : Credential κ) : Credential Unit :=
  credential.withSecrets () none none

/-- What the guards see of a state. -/
def PairedState.bare {κ : Type} (state : PairedState κ) : PairedState Unit :=
  state.withCredentials (state.credential.map Credential.bare)
    (state.retirementIntent.map fun intent => intent.credential.bare)

section Bare

variable {κ κ' : Type}

namespace PairedState

@[simp] theorem bare_accessMutationGeneration (state : PairedState κ) :
    state.bare.accessMutationGeneration = state.accessMutationGeneration := rfl

theorem bare_credential (state : PairedState κ) :
    state.bare.credential = state.credential.map Credential.bare := rfl

theorem bare_retirementIntent (state : PairedState κ) : state.bare.retirementIntent =
      state.retirementIntent.map fun intent => intent.withCredential intent.credential.bare := by
  unfold bare withCredentials
  cases state.retirementIntent <;> rfl

/-- Other secrets, the same bare state. -/
theorem bare_withCredentials {state : PairedState κ} {credential intent : Option (Credential κ')}
    (hcredential : credential.map Credential.bare = state.credential.map Credential.bare)
    (hintent : intent.map Credential.bare =
      state.retirementIntent.map fun held => held.credential.bare) :
    (state.withCredentials credential intent).bare = state.bare := by
  unfold bare withCredentials
  simp only [hcredential]
  congr 1
  cases hheld : state.retirementIntent with
  | none => rfl
  | some held =>
    rw [hheld] at hintent
    cases intent with
    | none => cases hintent
    | some credential =>
      have hsame : credential.bare = held.credential.bare := Option.some.inj hintent
      simp only [RetirementIntent.withCredential, Option.map_some, hsame]

variable {crates : CredentialCrates}

@[simp] theorem generation_bare (state : PairedState κ) :
    generation crates state.bare = generation crates state := by
  unfold generation
  rw [bare_credential, Option.map_map]
  rfl

end PairedState

end Bare

/-! ## Protecting -/

variable {credential : Credential String}

variable {protector : Protector}

theorem protectCredential_bare
    {stored : Credential Stored} (h : protectCredential protector credential = .ok stored) :
    stored.bare = credential.bare := by
  unfold protectCredential at h
  split at h
  · cases h
  split at h
  · cases h
    rfl
  split at h
  · cases h
  · cases h
    rfl

variable {stored : Option (Credential Stored)}

theorem protectOptional_some
    (h : protectOptional protector (some credential) = .ok stored) :
    ∃ credential', stored = some credential' ∧
      protectCredential protector credential = .ok credential' := by
  have h : (protectCredential protector credential).map some = .ok stored := h
  cases hprotect : protectCredential protector credential with
  | error error =>
    rw [hprotect] at h
    cases h
  | ok credential' =>
    rw [hprotect] at h
    cases h
    exact ⟨credential', rfl, rfl⟩

theorem protectOptional_bare {credential : Option (Credential String)}
    (h : protectOptional protector credential = .ok stored) :
    stored.map Credential.bare = credential.map Credential.bare := by
  cases credential with
  | none =>
    cases h
    rfl
  | some credential =>
    obtain ⟨stored', rfl, hprotect⟩ := protectOptional_some h
    exact congrArg some (protectCredential_bare hprotect)

variable {state : PairedState String} {record : PairedRecord}

theorem PairedState.toRecord_bare
    (h : toRecord protector state = .ok record) :
    record.bare = state.bare := by
  unfold toRecord at h
  split at h
  · cases h
  rename_i credential hcredential
  split at h
  · cases h
  next intent hintent =>
    cases h
    refine bare_withCredentials (protectOptional_bare hcredential) ?_
    rw [protectOptional_bare hintent, Option.map_map]
    rfl

/-! ## Loading -/

/-- Nothing but the recovery evidence changed. -/
structure SameButEvidence (s s' : Profile) : Prop where
  pairing : s'.pairing = s.pairing
  answer : s'.answer = s.answer
  refused : s'.refused = s.refused

theorem SameButEvidence.refl (s : Profile) : SameButEvidence s s := ⟨rfl, rfl, rfl⟩

/-- What a program of the evidence file leaves alone. -/
theorem onEvidence_spec {α : Type} {s : Profile} {p : Prog Fate (Slot String) TransportError α} :
    Ends Any s (onEvidence p) (SameButEvidence s) := by
  refine Runs.zoom ?_
  intro ds hds
  refine ⟨fun _ _ => trivial, ?_⟩
  cases (p ds s.evidence).1 <;> exact ⟨rfl, rfl, rfl⟩

variable {s : Profile}

theorem unwrapClientKey_spec {stored : Stored} : Runs Any s (unwrapClientKey protector stored)
      (fun key s' => s' = s ∧ unwrapSecret protector stored true = .ok key)
      (fun _ => SameButEvidence s) (SameButEvidence s) := by
  unfold unwrapClientKey
  split
  next key hkey => exact Runs.pure ⟨rfl, hkey⟩
  next hrefused =>
    split
    · exact Runs.fail (.refl s)
    · refine Runs.bind (Runs.mapErr onEvidence_spec) ?_
      intro _ s' hsame
      exact Runs.fail hsame
  · exact Runs.fail (.refl s)

/-- The plain form of a stored credential. -/
structure Unwraps (protector : Protector) (stored : Credential Stored)
    (plain : Credential String) : Prop where
  bare : plain.bare = stored.bare
  token : ∃ refused,
    unwrapDeviceToken protector stored =
      .ok (plain.deviceToken, plain.deviceTokenExpiresAt, refused)

theorem unwrapCredential_spec {stored : Credential Stored} :
    Runs Any s (unwrapCredential protector stored)
      (fun result s' => s' = s ∧ Unwraps protector stored result.1)
      (fun _ => SameButEvidence s) (SameButEvidence s) := by
  refine Runs.bind unwrapClientKey_spec ?_
  rintro key _ ⟨rfl, -⟩
  split
  · exact Runs.fail (.refl _)
  next token expiresAt refused htoken =>
    exact Runs.pure ⟨rfl, rfl, refused, htoken⟩

theorem unwrapOptional_spec : Runs Any s (unwrapOptional protector stored)
      (fun result s' => s' = s ∧
        Option.Rel (Unwraps protector) stored result.1)
      (fun _ => SameButEvidence s) (SameButEvidence s) := by
  cases stored with
  | none => exact Runs.pure ⟨rfl, .none⟩
  | some stored =>
    refine Runs.bind unwrapCredential_spec ?_
    rintro ⟨plain, refused⟩ _ ⟨rfl, hplain⟩
    exact Runs.pure ⟨rfl, .some hplain⟩

namespace PairedState

/-- What the file says, when it can be read: without a file the unpaired state. -/
def onDisk (s : Profile) : Option (PairedState Unit) :=
  match s.pairing.published with
  | none => some (({} : PairedState Unit))
  | some .torn => none
  | some (.whole record) => some record.bare

structure Loaded (protector : Protector) (s : Profile) (state : PairedState String) : Prop where
  bare : onDisk s = some state.bare
  credential : ∀ credential, state.credential = some credential →
    ∃ record stored, s.pairing.published = some (.whole record) ∧
      record.credential = some stored ∧ Unwraps protector stored credential

theorem map_bare_of_unwraps
    {plain : Option (Credential String)} (h : Option.Rel (Unwraps protector) stored plain) :
    plain.map Credential.bare = stored.map Credential.bare := by
  cases h with
  | none => rfl
  | some h => exact congrArg some h.bare

theorem load_spec : Runs Any s (load protector) (fun state s' => s' = s ∧ Loaded protector s state)
      (fun _ => SameButEvidence s) (SameButEvidence s) := by
  have hread : Runs Any s (onPairing (readPublished TransportError.io))
      (fun content s' => content = s.pairing.published ∧ s' = s) (fun _ => SameButEvidence s)
      (SameButEvidence s) := by
    refine Runs.zoom (Runs.mono (readPublished_spec (I := (· = s.pairing)) rfl) ?_ ?_ ?_)
    · rintro content _ ⟨rfl, rfl⟩
      exact ⟨rfl, rfl⟩
    · rintro _ _ rfl
      exact .refl s
    · rintro _ rfl
      exact .refl s
  unfold load loadDetailed
  refine Runs.bind (R := fun result s' => s' = s ∧ Loaded protector s result.1) ?_ ?_
  · refine Runs.bind hread ?_
    rintro content _ ⟨hcontent, rfl⟩
    match content with
    | none =>
      refine Runs.pure ⟨rfl, ?_, fun _ h => nomatch h⟩
      unfold onDisk
      rw [← hcontent]
      rfl
    | some .torn => exact Runs.fail (.refl _)
    | some (.whole record) =>
      refine Runs.bind unwrapOptional_spec ?_
      rintro ⟨credential, refused⟩ _ ⟨rfl, hcredential⟩
      refine Runs.bind unwrapOptional_spec ?_
      rintro ⟨intent, refusedToo⟩ _ ⟨rfl, hintent⟩
      refine Runs.pure ⟨rfl, ?_, ?_⟩
      · unfold onDisk
        rw [← hcontent]
        refine congrArg some (bare_withCredentials (map_bare_of_unwraps hcredential) ?_).symm
        rw [map_bare_of_unwraps hintent, Option.map_map]
        rfl
      · intro plain hplain
        have hplain : credential = some plain := hplain
        subst hplain
        cases hstored : record.credential with
        | none =>
          rw [hstored] at hcredential
          cases hcredential
        | some stored =>
          rw [hstored] at hcredential
          cases hcredential with
          | some hunwraps => exact ⟨record, stored, hcontent.symm, hstored, hunwraps⟩
  · rintro ⟨state, _⟩ _ ⟨rfl, hloaded⟩
    exact Runs.pure ⟨rfl, hloaded⟩

theorem loadState_spec :
    Runs Any s (loadState protector) (fun state s' => s' = s ∧ Loaded protector s state)
      (fun _ => SameButEvidence s) (SameButEvidence s) :=
  Runs.mapErr load_spec

/-! ## Saving -/

/-- The metadata of a file that a save goes by. A state whose history is unavailable goes by none
when the file cannot be read. -/
inductive MetadataOf (unavailable : Bool) :
    Option (Content PairedRecord) → Option PairedRecord → Prop
  | missing : MetadataOf unavailable none none
  | read {record : PairedRecord} (valid : validateSetupIds record.retiredSetupHandoffs = true) :
      MetadataOf unavailable (some (.whole record)) (some record)
  | given_up {content : Option (Content PairedRecord)} (h : unavailable = true) :
      MetadataOf unavailable content none

variable {archived : Bool} {s' : Profile}

theorem readSetupMetadata_spec (unavailable : Bool) :
    Runs Any s (readSetupMetadata archived) (fun metadata s' => s' = s ∧
        MetadataOf unavailable (if archived then s.refused else s.pairing.published) metadata)
      (fun _ s' => s' = s) (fun s' => s' = s) := by
  refine Runs.bind (probe_spec (I := (· = s)) rfl) ?_
  rintro _ _ rfl
  refine Runs.get_bind ?_
  generalize (if archived = true then _ else _ : Option (Content PairedRecord)) = content
  match content with
  | none => exact Runs.pure ⟨rfl, .missing⟩
  | some .torn => exact Runs.fail rfl
  | some (.whole record) =>
    show Runs Any _ (if validateSetupIds record.retiredSetupHandoffs = true then _ else _) _ _ _
    split
    next hvalid => exact Runs.pure ⟨rfl, .read hvalid⟩
    · exact Runs.fail rfl

theorem metadataToSave_spec {unavailable : Bool} :
    Runs Any s (metadataToSave archived unavailable) (fun metadata s' => s' = s ∧
        MetadataOf unavailable (if archived then s.refused else s.pairing.published) metadata)
      (fun _ s' => s' = s) (fun s' => s' = s) := by
  refine Runs.attempt_bind (readSetupMetadata_spec unavailable) (fun _ _ h => Runs.pure h) ?_
    fun _ h => h
  rintro error _ rfl
  cases unavailable with
  | true => exact Runs.pure ⟨rfl, .given_up rfl⟩
  | false => exact Runs.fail rfl

/-- `record` is what a save of the state writes over the files of `s`. -/
structure Saves (protector : Protector) (s : Profile) (state : PairedState String)
    (previous archive : Option PairedRecord) (record : PairedRecord) : Prop where
  readPrevious : MetadataOf state.setupHistoryUnavailable s.pairing.published previous
  readArchive : MetadataOf (absorb false previous state).setupHistoryUnavailable s.refused archive
  valid : validateSetupIds (merged previous archive state).retiredSetupHandoffs = true
  written : toRecord protector (merged previous archive state) = .ok record

/-- Only the pairing file changed, if any, and holds what a save of the state writes. -/
structure Saved (protector : Protector) (s : Profile) (state : PairedState String)
    (s' : Profile) : Prop where
  frame : s' = { s with pairing := s'.pairing }
  published : ∃ previous archive record, Saves protector s state previous archive record ∧
    s'.pairing.published = some (.whole record)

def FileKept (s s' : Profile) : Prop := s'.pairing.published = s.pairing.published

theorem FileKept.trans {s'' : Profile} (h : FileKept s s') (h' : FileKept s' s'') :
    FileKept s s'' := Eq.trans h' h

theorem FileKept.of_sameButEvidence (h : SameButEvidence s s') : FileKept s s' := by
  unfold FileKept
  rw [h.pairing]

/-- The pairing file is as it was, or as a save of the state leaves it. -/
def MaySave (protector : Protector) (s : Profile) (state : PairedState String) (s' : Profile) :
    Prop :=
  (s' = { s with pairing := s'.pairing } ∧ FileKept s s') ∨ Saved protector s state s'

theorem MaySave.refl (protector : Protector) (s : Profile) (state : PairedState String) :
    MaySave protector s state s := .inl ⟨rfl, rfl⟩

theorem publishRecord_spec {slot : Slot PairedRecord} : Runs Any slot (publishRecord record)
      (fun _ slot' => slot'.published = some (.whole record))
      (fun e slot' => slot'.published = slot.published ∨
        e = .durabilityUncertain ∧ slot'.published = some (.whole record))
      fun slot' => slot'.published = slot.published ∨ slot'.published = some (.whole record) := by
  refine Runs.bind (Runs.mono (probe_spec (I := fun slot' => slot'.published = slot.published) rfl)
    (fun _ _ h => h) (fun _ _ h => .inl h) fun _ h => .inl h) ?_
  rintro _ _ rfl
  refine Runs.bind (Runs.mono stage_spec (fun _ _ h => h) (fun _ _ h => .inl h)
    fun _ h => .inl h) ?_
  rintro _ staged ⟨hpublished, hstaged⟩
  refine Runs.bind (Runs.mono (publish_spec hstaged) (fun _ _ h => h) ?_ ?_) ?_
  · exact fun _ _ h => h.imp_left fun h => h.trans hpublished
  · exact fun _ h => h.imp_left fun h => h.trans hpublished
  intro _ moved hmoved
  refine Runs.bind (Runs.mono (readPublished_error (I := (· = moved)) rfl)
    (fun _ _ h => h) ?_ ?_) ?_
  · rintro _ _ ⟨rfl, rfl⟩
    exact .inr ⟨rfl, hmoved⟩
  · rintro _ rfl
    exact .inr hmoved
  rintro content _ ⟨-, rfl⟩
  exact Runs.onlyIf (fun _ => Runs.fail (.inr ⟨rfl, hmoved⟩)) fun _ => hmoved

/-- Only a save whose durability is uncertain fails with the new record on disk. -/
theorem saveInner_spec : Runs Any s (saveInner protector state) (fun _ => Saved protector s state)
      (fun e s' => MaySave protector s state s' ∧ (e ≠ .durabilityUncertain → FileKept s s'))
      (MaySave protector s state) := by
  have hstay : ∀ s', s' = s → MaySave protector s state s' ∧ FileKept s s' := by
    rintro _ rfl
    exact ⟨.refl _ _ _, rfl⟩
  have hfails : ∀ e s', s' = s → MaySave protector s state s' ∧
      (e ≠ StorageError.durabilityUncertain → FileKept s s') :=
    fun _ s' h => ⟨(hstay s' h).1, fun _ => (hstay s' h).2⟩
  refine Runs.bind (Runs.mono metadataToSave_spec (fun _ _ h => h) hfails
    fun s' h => (hstay s' h).1) ?_
  rintro previous s ⟨rfl, hprevious⟩
  refine Runs.bind (Runs.mono metadataToSave_spec (fun _ _ h => h) hfails
    fun s' h => (hstay s' h).1) ?_
  rintro archive s ⟨rfl, harchive⟩
  show Runs Any _
    (if (!validateSetupIds (merged previous archive state).retiredSetupHandoffs) = true
    then _ else _) _ _ _
  split
  · exact Runs.fail (hfails _ _ rfl)
  rename_i hvalid
  split
  · exact Runs.fail (hfails _ _ rfl)
  rename_i record hrecord
  have hsaves : Saves protector s state previous archive record :=
    ⟨hprevious, harchive, by simpa using hvalid, hrecord⟩
  refine Runs.zoom (Runs.mono publishRecord_spec ?_ ?_ ?_)
  · exact fun _ slot h => ⟨rfl, _, _, _, hsaves, h⟩
  · rintro e slot (h | ⟨rfl, h⟩)
    · exact ⟨.inl ⟨rfl, h⟩, fun _ => h⟩
    · exact ⟨.inr ⟨rfl, _, _, _, hsaves, h⟩, fun hne => absurd rfl hne⟩
  · rintro slot (h | h)
    · exact .inl ⟨rfl, h⟩
    · exact .inr ⟨rfl, _, _, _, hsaves, h⟩

/-! ## What a save keeps of a state -/

/-- `d` has the owner of the state: its credential, access generation and intent. -/
structure SameOwner (state : PairedState String) (d : PairedState Unit) : Prop where
  credential : d.credential = state.bare.credential
  access : d.accessMutationGeneration = state.accessMutationGeneration
  intent : d.retirementIntent = state.bare.retirementIntent

/-- Merging changes only what is about handoffs. -/
theorem merged_owner (previous archive : Option PairedRecord) (state : PairedState String) :
    (merged previous archive state).credential = state.credential ∧
      (merged previous archive state).accessMutationGeneration = state.accessMutationGeneration ∧
      (merged previous archive state).retirementIntent = state.retirementIntent := by
  cases previous <;> cases archive <;> exact ⟨rfl, rfl, rfl⟩

theorem sameOwner_merged (previous archive : Option PairedRecord) (state : PairedState String) :
    SameOwner state (merged previous archive state).bare := by
  obtain ⟨hcredential, haccess, hintent⟩ := merged_owner previous archive state
  constructor
  · rw [bare_credential, hcredential, bare_credential]
  · exact haccess
  · rw [bare_retirementIntent, hintent, bare_retirementIntent]

theorem toRecord_credential (h : toRecord protector state = .ok record) :
    protectOptional protector state.credential = .ok record.credential := by
  unfold toRecord at h
  split at h
  · cases h
  next credential hcredential =>
    split at h
    · cases h
    · cases h
      exact hcredential

theorem Saved.onDisk
    (h : Saved protector s state s') : ∃ d, PairedState.onDisk s' = some d ∧ SameOwner state d := by
  obtain ⟨previous, archive, record, hsaves, hpublished⟩ := h.published
  refine ⟨record.bare, by unfold PairedState.onDisk; rw [hpublished], ?_⟩
  rw [toRecord_bare hsaves.written]
  exact sameOwner_merged previous archive state

end PairedState

end SolstoneWindows.PlTransportWin
