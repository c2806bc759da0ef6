import SolstoneWindows.Proofs.PlTransportWin.Credential

/-!
# The pairing file as a compare-and-swap cell

Each function that changes the pairing file has one lemma that says when it can and what it leaves:
`mutate_spec`, `finishPairRejection_spec`, and `exec_cases` for the two that change the intent. A
history is a list of calls, one after the other, each with the protection and the file-system
outcomes it meets.

`save` writes the access generation of its own snapshot. A snapshot that is older than a mutation
puts the generation back, and the same mutation commits a second time
(`mutate_commits_twice`). `pairing_compare_and_swap` says that nothing else does.
-/

set_option autoImplicit false

namespace SolstoneWindows.PlTransportWin.PairedState

open Lib.Effect Lib.Staged

variable {crates : CredentialCrates} {protector : Protector} {s : Profile}

/-! ## What each function changes -/

variable {state : PairedState String} {s' : Profile}

/-- A save over a loaded state leaves the file, or what `state` says of the owner. -/
theorem MaySave.cases (h : MaySave protector s state s') :
    FileKept s s' ∨ ∃ d, onDisk s' = some d ∧ SameOwner state d := by
  rcases h with ⟨-, hkept⟩ | hsaved
  · exact .inl hkept
  · exact .inr hsaved.onDisk

/-- What a program of the answer file leaves alone. -/
theorem onAnswer_spec {α : Type} {p : Prog Fate (Slot AnswerState) StorageError α} :
    Ends Any s (onAnswer p) (FileKept s) := by
  refine Runs.zoom ?_
  intro ds hds
  refine ⟨fun _ _ => trivial, ?_⟩
  cases (p ds s.answer).1 <;> rfl

variable {P : Profile → Prop} {record : PairedRecord} {operationId : String}

/-- A function that starts by loading: a load that fails leaves the file. -/
theorem loadState_bind {β : Type} {g : PairedState String → ProfileProg StorageError β}
    {Q : β → Profile → Prop} (h : ∀ state, Loaded protector s state →
      Runs Any s (g state) Q (fun _ s' => FileKept s s' ∨ P s') fun s' => FileKept s s' ∨ P s') :
    Runs Any s (loadState protector >>= g) Q (fun _ s' => FileKept s s' ∨ P s')
      fun s' => FileKept s s' ∨ P s' := by
  refine Runs.bind (Runs.mono loadState_spec (fun _ _ h => h)
    (fun _ _ h => .inl (.of_sameButEvidence h)) fun _ h => .inl (.of_sameButEvidence h)) ?_
  rintro state s' ⟨rfl, hloaded⟩
  exact h state hloaded

/-- A save leaves the file, or the owner of the saved state in it. -/
theorem saveInner_file
    (hP : ∀ s' d, onDisk s' = some d → SameOwner state d → P s') :
    Runs Any s (saveInner protector state) (fun _ => P) (fun _ s' => FileKept s s' ∨ P s')
      fun s' => FileKept s s' ∨ P s' := by
  have hmay : ∀ s', MaySave protector s state s' → FileKept s s' ∨ P s' := by
    intro s' hmay
    rcases hmay.cases with hkept | ⟨d, hd, howner⟩
    · exact .inl hkept
    · exact .inr (hP s' d hd howner)
  refine Runs.mono saveInner_spec ?_ (fun _ s' h => hmay s' h.1) hmay
  intro _ s' hsaved
  obtain ⟨d, hd, howner⟩ := hsaved.onDisk
  exact hP s' d hd howner

/-- The pairing on disk is at exactly these generations. -/
def AtDisk (crates : CredentialCrates) (key : CasKey) (s : Profile) : Prop :=
  ∃ d, onDisk s = some d ∧ generation crates d = some key.pairingGeneration ∧
    d.accessMutationGeneration = key.accessMutationGeneration

variable {credential : Credential String}

/-- A loaded state that passes the guard of a mutation. -/
theorem Loaded.atDisk {key : CasKey}
    (hloaded : Loaded protector s state) (hcredential : state.credential = some credential)
    (hgeneration : pairingGeneration crates credential.clientCertPem = key.pairingGeneration)
    (haccess : state.accessMutationGeneration = key.accessMutationGeneration) :
    AtDisk crates key s := by
  refine ⟨state.bare, hloaded.bare, ?_, haccess⟩
  rw [generation_bare]
  unfold PairedState.generation
  rw [hcredential]
  exact congrArg some hgeneration

/-- A mutation went through: what was loaded, and the record that replaced it. -/
structure MutationWrites (crates : CredentialCrates) (protector : Protector) (expected : CasKey)
    (f : Credential String → Except StorageError (Credential String)) (s s' : Profile)
    (credential changed : Credential String) (record : PairedRecord) : Prop where
  loaded : ∃ state, Loaded protector s state ∧ state.credential = some credential ∧
    state.retirementIntent = none ∧
    state.accessMutationGeneration = expected.accessMutationGeneration
  expectedPairing : pairingGeneration crates credential.clientCertPem = expected.pairingGeneration
  applied : f credential = .ok changed
  published : s'.pairing.published = some (.whole record)
  written : ∃ stored, record.credential = some stored ∧
    protectCredential protector changed = .ok stored
  access : record.accessMutationGeneration = wrappingSucc expected.accessMutationGeneration
  intent : record.retirementIntent = none

variable {expected : CasKey} {f : Credential String → Except StorageError (Credential String)}

theorem mutate_writes : Runs Any s (mutate crates protector expected f)
      (fun next s' => next = wrappingSucc expected.accessMutationGeneration ∧
        ∃ credential changed record,
          MutationWrites crates protector expected f s s' credential changed record)
      (fun e s' => (FileKept s s' ∧ (e = .durabilityUncertain → AtDisk crates expected s)) ∨
        e = .durabilityUncertain ∧ ∃ credential changed record,
          MutationWrites crates protector expected f s s' credential changed record)
      fun s' => FileKept s s' ∨ ∃ credential changed record,
        MutationWrites crates protector expected f s s' credential changed record := by
  refine Runs.bind (Runs.mapErr (load_spec.mono (fun _ _ h => h) ?_
    fun _ h => .inl (.of_sameButEvidence h))) ?_
  · rintro error s' hsame
    exact .inl ⟨.of_sameButEvidence hsame, (nomatch ·)⟩
  rintro state s ⟨rfl, hloaded⟩
  split
  · exact Runs.fail (.inl ⟨rfl, (nomatch ·)⟩)
  rename_i credential hcredential
  split
  · exact Runs.fail (.inl ⟨rfl, (nomatch ·)⟩)
  rename_i hguard
  simp only [not_or, Bool.not_eq_true, Option.isSome_eq_false_iff, Option.isNone_iff_eq_none,
    ne_eq, not_not] at hguard
  obtain ⟨hintent, hgeneration, haccess⟩ := hguard
  have hdisk : AtDisk crates expected s := hloaded.atDisk hcredential hgeneration haccess
  split
  · exact Runs.fail (.inl ⟨rfl, fun _ => hdisk⟩)
  rename_i changed hchanged
  -- what a save of the changed state writes
  have hwrites : ∀ s', Saved protector s
      { state with
        credential := some changed
        accessMutationGeneration := wrappingSucc state.accessMutationGeneration } s' →
      ∃ credential changed record,
        MutationWrites crates protector expected f s s' credential changed record := by
    intro s' hsaved
    obtain ⟨previous, archive, record, hsaves, hpublished⟩ := hsaved.published
    have hmerged := merged_owner previous archive
      { state with
        credential := some changed
        accessMutationGeneration := wrappingSucc state.accessMutationGeneration }
    have hprotect := toRecord_credential hsaves.written
    have hbare := toRecord_bare hsaves.written
    rw [hmerged.1] at hprotect
    refine ⟨credential, changed, record, ⟨state, hloaded, hcredential, hintent, haccess⟩,
      hgeneration, hchanged, hpublished, ?_, ?_, ?_⟩
    · exact protectOptional_some hprotect
    · rw [← bare_accessMutationGeneration, hbare, ← haccess]
      exact hmerged.2.1
    · have hnone : record.bare.retirementIntent = none := by
        rw [hbare, bare_retirementIntent, hmerged.2.2, hintent]
        rfl
      rw [bare_retirementIntent] at hnone
      exact Option.map_eq_none_iff.mp hnone
  refine Runs.bind (Runs.mono saveInner_spec (fun _ _ h => h) ?_ ?_) ?_
  · rintro e s' ⟨⟨-, hkept⟩ | hsaved, hcertain⟩
    · exact .inl ⟨hkept, fun _ => hdisk⟩
    · by_cases he : e = .durabilityUncertain
      · exact .inr ⟨he, hwrites s' hsaved⟩
      · exact .inl ⟨hcertain he, fun _ => hdisk⟩
  · rintro s' (⟨-, hkept⟩ | hsaved)
    · exact .inl hkept
    · exact .inr (hwrites s' hsaved)
  · intro _ s' hsaved
    exact Runs.pure ⟨congrArg wrappingSucc haccess, hwrites s' hsaved⟩

/-- A mutation went through: what the guards saw before, and what they see now. -/
structure Mutates (crates : CredentialCrates) (expected : CasKey)
    (f : Credential String → Except StorageError (Credential String)) (s s' : Profile) : Prop where
  before : ∃ d, onDisk s = some d ∧ generation crates d = some expected.pairingGeneration ∧
    d.accessMutationGeneration = expected.accessMutationGeneration ∧ d.retirementIntent = none
  after : ∃ credential changed d, f credential = .ok changed ∧
    pairingGeneration crates credential.clientCertPem = expected.pairingGeneration ∧
    onDisk s' = some d ∧ d.credential = some changed.bare ∧
    d.accessMutationGeneration = wrappingSucc expected.accessMutationGeneration ∧
    d.retirementIntent = none

theorem MutationWrites.mutates {changed : Credential String}
    (h : MutationWrites crates protector expected f s s' credential changed record) :
    Mutates crates expected f s s' := by
  obtain ⟨state, hloaded, hcredential, hintent, haccess⟩ := h.loaded
  obtain ⟨stored, hstored, hprotect⟩ := h.written
  constructor
  · obtain ⟨d, hd, hgeneration, haccess⟩ :=
      hloaded.atDisk hcredential h.expectedPairing haccess
    refine ⟨d, hd, hgeneration, haccess, ?_⟩
    rw [hloaded.bare] at hd
    cases hd
    rw [bare_retirementIntent, hintent]
    rfl
  · refine ⟨credential, changed, record.bare, h.applied, h.expectedPairing, ?_, ?_, h.access, ?_⟩
    · unfold onDisk
      rw [h.published]
    · rw [bare_credential, hstored]
      exact congrArg some (protectCredential_bare hprotect)
    · rw [bare_retirementIntent, h.intent]
      rfl

/-- The pairing is at the next generation, if the mutation keeps the certificate. -/
theorem MutationWrites.atDisk {changed : Credential String}
    (h : MutationWrites crates protector expected f s s' credential changed record)
    (hf : ∀ credential changed, f credential = .ok changed →
      changed.clientCertPem = credential.clientCertPem) :
    AtDisk crates
      ⟨expected.pairingGeneration, wrappingSucc expected.accessMutationGeneration⟩ s' := by
  obtain ⟨credential, changed, d, happlied, hcert, hd, hcredential, hnext, -⟩ := h.mutates.after
  refine ⟨d, hd, ?_, hnext⟩
  unfold PairedState.generation
  rw [hcredential, ← hcert]
  exact congrArg (fun cert => some (pairingGeneration crates cert)) (hf credential changed happlied)

theorem mutate_spec : Runs Any s (mutate crates protector expected f)
      (fun next s' => next = wrappingSucc expected.accessMutationGeneration ∧
        Mutates crates expected f s s')
      (fun _ s' => FileKept s s' ∨ Mutates crates expected f s s')
      fun s' => FileKept s s' ∨ Mutates crates expected f s s' := by
  refine Runs.mono mutate_writes ?_ ?_ ?_
  · rintro next s' ⟨hnext, _, _, _, hwrites⟩
    exact ⟨hnext, hwrites.mutates⟩
  · rintro e s' (⟨hkept, -⟩ | ⟨-, _, _, _, hwrites⟩)
    · exact .inl hkept
    · exact .inr hwrites.mutates
  · rintro s' (hkept | ⟨_, _, _, hwrites⟩)
    · exact .inl hkept
    · exact .inr hwrites.mutates

/-- The file has the owner it had, with another intent or another phase of it. -/
structure SameGenerations (s s' : Profile) : Prop where
  keeps : ∃ d d', onDisk s = some d ∧ onDisk s' = some d' ∧ d'.credential = d.credential ∧
    d'.accessMutationGeneration = d.accessMutationGeneration

variable {ownerGeneration : Generation} {accessGeneration : Nat}

/-- The file holds the intent, past its attempt, and the exact credential it names. -/
def Owned (crates : CredentialCrates) (operationId : String) (ownerGeneration : Generation)
    (accessGeneration : Nat) (s : Profile) : Prop :=
  ∃ d, onDisk s = some d ∧
    ownsRejection crates d operationId ownerGeneration accessGeneration = true

/-- The file holds no credential and no intent. -/
def Removed (s : Profile) : Prop :=
  ∃ d, onDisk s = some d ∧ d.credential = none ∧ d.retirementIntent = none

/-- The answer is cleared and the credential removed only for the pairing the intent names. -/
theorem finishPairRejection_spec
    {clearAnswer : Prog Fate (Slot AnswerState) StorageError Unit} :
    Runs Any s (finishPairRejection crates protector operationId ownerGeneration accessGeneration
        (onAnswer clearAnswer))
      (fun done s' => if done then
          Owned crates operationId ownerGeneration accessGeneration s ∧ Removed s'
        else s' = s)
      (fun _ s' => SameButEvidence s s' ∨
        Owned crates operationId ownerGeneration accessGeneration s ∧ (FileKept s s' ∨ Removed s'))
      fun s' => SameButEvidence s s' ∨
        Owned crates operationId ownerGeneration accessGeneration s ∧
          (FileKept s s' ∨ Removed s') := by
  refine Runs.bind (Runs.mono loadState_spec (fun _ _ h => h) (fun _ _ h => .inl h)
    fun _ h => .inl h) ?_
  rintro state s ⟨rfl, hloaded⟩
  split
  next howns =>
    have howned : Owned crates operationId ownerGeneration accessGeneration s :=
      ⟨state.bare, hloaded.bare, by
        rw [← howns, ownsRejection, bare_retirementIntent, generation_bare, Option.any_map]
        rfl⟩
    refine Runs.bind (R := fun _ => FileKept s) (Runs.mono onAnswer_spec ?_ ?_ ?_) ?_
    · exact fun _ _ h => h
    · exact fun _ _ h => .inr ⟨howned, .inl h⟩
    · exact fun _ h => .inr ⟨howned, .inl h⟩
    intro _ cleared hcleared
    refine Runs.bind (Runs.mono (saveInner_file (P := Removed) ?_) (fun _ _ h => h) ?_ ?_) ?_
    · intro s' d hd howner
      exact ⟨d, hd, howner.credential, howner.intent⟩
    · exact fun _ _ h => .inr ⟨howned, h.imp_left hcleared.trans⟩
    · exact fun _ h => .inr ⟨howned, h.imp_left hcleared.trans⟩
    · exact fun _ _ hremoved => Runs.pure ⟨howned, hremoved⟩
  · exact Runs.pure rfl

/-! ## Histories -/

/-- One call of a function that changes the pairing file. -/
inductive PairingCall where
  | mutate (expected : CasKey) (f : Credential String → Except StorageError (Credential String))
  | save (state : PairedState String)
  | installPairRejectionIntent (ownerGeneration : Generation) (accessGeneration : Nat)
      (intent : RetirementIntent String)
  | updateRetirementPhase (operationId : String) (ownerGeneration : Generation)
      (expectedPhase phase : RetirementPhase)
  | finishPairRejection (operationId : String) (ownerGeneration : Generation)
      (accessGeneration : Nat) (clearAnswer : Prog Fate (Slot AnswerState) StorageError Unit)

/-- A call with the protection and the outcomes it meets. -/
structure CallEvent where
  call : PairingCall
  protector : Protector
  fates : List Fate := []

/-- The profile after a call. -/
def CallEvent.exec (crates : CredentialCrates) (event : CallEvent) (s : Profile) : Profile :=
  match event.call with
  | .mutate expected f => (PairedState.mutate crates event.protector expected f).final event.fates s
  | .save state => (PairedState.save event.protector state).final event.fates s
  | .installPairRejectionIntent ownerGeneration accessGeneration intent =>
    (PairedState.installPairRejectionIntent crates event.protector ownerGeneration
      accessGeneration intent).final event.fates s
  | .updateRetirementPhase operationId ownerGeneration expectedPhase phase =>
    (PairedState.updateRetirementPhase crates event.protector operationId ownerGeneration
      expectedPhase phase).final event.fates s
  | .finishPairRejection operationId ownerGeneration accessGeneration clearAnswer =>
    (PairedState.finishPairRejection crates event.protector operationId ownerGeneration
      accessGeneration (onAnswer clearAnswer)).final event.fates s

/-- The profile after the calls. -/
def execAll (crates : CredentialCrates) (events : List CallEvent) (s : Profile) : Profile :=
  events.foldl (fun s event => event.exec crates s) s

/-- What a call does to the file when it changes it. -/
def PairingCall.Changes (crates : CredentialCrates) (call : PairingCall) (s s' : Profile) : Prop :=
  match call with
  | .mutate expected f => Mutates crates expected f s s'
  | .save state => ∃ d, onDisk s' = some d ∧ SameOwner state d
  | .installPairRejectionIntent _ _ _ => SameGenerations s s'
  | .updateRetirementPhase _ _ _ _ => SameGenerations s s'
  | .finishPairRejection operationId ownerGeneration accessGeneration _ =>
    Owned crates operationId ownerGeneration accessGeneration s ∧ Removed s'

/-- Every call leaves the file or changes it as `Changes` says. -/
theorem exec_cases (event : CallEvent) (s : Profile) : FileKept s (event.exec crates s) ∨
      event.call.Changes crates s (event.exec crates s) := by
  obtain ⟨call, protector, fates⟩ := event
  have hany : ∀ fate ∈ fates, Any fate := fun _ _ => trivial
  cases call with
  | mutate expected f =>
    refine Runs.final (C := fun s' => FileKept s s' ∨ Mutates crates expected f s s') ?_ hany
    exact Runs.mono mutate_spec (fun _ _ h => .inr h.2) (fun _ _ h => h) fun _ h => h
  | save state =>
    refine Runs.final (C := fun s' => FileKept s s' ∨ ∃ d, onDisk s' = some d ∧ SameOwner state d)
      (Runs.mapErr (Runs.mono (saveInner_file ?_) (fun _ _ h => .inr h) (fun _ _ h => h)
        fun _ h => h)) hany
    exact fun s' d hd howner => ⟨d, hd, howner⟩
  | installPairRejectionIntent ownerGeneration accessGeneration intent
  | updateRetirementPhase operationId ownerGeneration expectedPhase phase =>
    -- Both save what they loaded with another intent, or refuse.
    refine Runs.final (C := fun s' => FileKept s s' ∨ SameGenerations s s') ?_ hany
    refine Runs.mono (loadState_bind (Q := fun _ => SameGenerations s) fun state hloaded => ?_)
      (fun _ _ h => .inr h) (fun _ _ h => h) fun _ h => h
    split
    · exact saveInner_file fun s' d hd howner =>
        ⟨state.bare, d, hloaded.bare, hd, howner.credential, howner.access⟩
    · exact Runs.fail (.inl rfl)
  | finishPairRejection operationId ownerGeneration accessGeneration clearAnswer =>
    have hfinal : ∀ s', SameButEvidence s s' ∨
        Owned crates operationId ownerGeneration accessGeneration s ∧
          (FileKept s s' ∨ Removed s') → FileKept s s' ∨
        Owned crates operationId ownerGeneration accessGeneration s ∧ Removed s' := by
      rintro s' (hsame | ⟨howned, hkept | hremoved⟩)
      · exact .inl (.of_sameButEvidence hsame)
      · exact .inl hkept
      · exact .inr ⟨howned, hremoved⟩
    refine Runs.final (Runs.mono finishPairRejection_spec ?_ (fun _ => hfinal) hfinal) hany
    intro done s' h
    cases done with
    | true => exact .inr h
    | false => exact .inl (congrArg (fun s : Profile => s.pairing.published) h)

/-- The key of a call that is a mutation and commits, that is changes the file. -/
def CallEvent.commits (crates : CredentialCrates) (event : CallEvent) (s : Profile) :
    List CasKey :=
  match event.call with
  | .mutate expected _ =>
    if (event.exec crates s).pairing.published = s.pairing.published then [] else [expected]
  | _ => []

/-- The keys of the mutations that commit, in order. -/
def committed (crates : CredentialCrates) : List CallEvent → Profile → List CasKey
  | [], _ => []
  | event :: events, s => event.commits crates s ++ committed crates events (event.exec crates s)

theorem FileKept.onDisk (h : FileKept s s') :
    PairedState.onDisk s' = PairedState.onDisk s := by
  unfold PairedState.onDisk
  rw [show s'.pairing.published = s.pairing.published from h]

/-- A mutation that went through changed the file: the access generation is another. -/
theorem Mutates.changed (h : Mutates crates expected f s s') : ¬ FileKept s s' := by
  intro hkept
  obtain ⟨d, hd, -, haccess, -⟩ := h.before
  obtain ⟨-, -, d', -, -, hd', -, hnext, -⟩ := h.after
  rw [hkept.onDisk, hd] at hd'
  cases hd'
  rw [haccess] at hnext
  unfold wrappingSucc at hnext
  omega

/-! ## What one call may do -/

/-- A call changes the file only under its guard: a mutation at the generations it was given and
with no intent on disk, and a mutation that returns has changed it; a finished rejection at the
credential that its intent names. -/
def Guarded (crates : CredentialCrates) (event : CallEvent) (s : Profile) : Prop :=
  match event.call with
  | .mutate expected f =>
    (∀ next, ((PairedState.mutate crates event.protector expected f) event.fates s).1 = .ok next →
      ¬ FileKept s (event.exec crates s) ∧ next = wrappingSucc expected.accessMutationGeneration) ∧
    (¬ FileKept s (event.exec crates s) → Mutates crates expected f s (event.exec crates s))
  | .finishPairRejection operationId ownerGeneration accessGeneration _ =>
    ¬ FileKept s (event.exec crates s) →
      Owned crates operationId ownerGeneration accessGeneration s ∧ Removed (event.exec crates s)
  | _ => True

theorem guarded (event : CallEvent) (s : Profile) : Guarded crates event s := by
  have hcases : FileKept s (event.exec crates s) ∨
      event.call.Changes crates s (event.exec crates s) := exec_cases event s
  obtain ⟨call, protector, fates⟩ := event
  cases call with
  | mutate expected f =>
    refine ⟨fun next hnext => ?_, hcases.resolve_left⟩
    have hreturned : next = wrappingSucc expected.accessMutationGeneration ∧
        Mutates crates expected f s ((mutate crates protector expected f).final fates s) :=
      mutate_spec.returns (fun _ _ => trivial) hnext
    exact ⟨hreturned.2.changed, hreturned.1⟩
  | finishPairRejection operationId ownerGeneration accessGeneration clearAnswer =>
    exact hcases.resolve_left
  | _ => trivial

/-! ## Mutations with one key -/

/-- No committed key of the current pairing is at or above the current access generation. -/
def Ahead (crates : CredentialCrates) (keys : List CasKey) (s : Profile) : Prop :=
  ∀ key ∈ keys, ∀ d, onDisk s = some d → generation crates d = some key.pairingGeneration →
    key.accessMutationGeneration < d.accessMutationGeneration

/-- The call does not put the access generation back behind a committed key: a saved snapshot is
newer than the mutations of its pairing, and a mutation keeps the certificate and does not wrap the
generation. -/
def KeepsAhead (crates : CredentialCrates) (keys : List CasKey) (call : PairingCall) : Prop :=
  match call with
  | .save state => ∀ key ∈ keys, generation crates state = some key.pairingGeneration →
      key.accessMutationGeneration < state.accessMutationGeneration
  | .mutate expected f => expected.accessMutationGeneration + 1 < 2 ^ 64 ∧
      ∀ credential changed, f credential = .ok changed →
        changed.clientCertPem = credential.clientCertPem
  | _ => True

/-- Every call of the history keeps ahead of the keys committed before it. -/
def AllKeepAhead (crates : CredentialCrates) : List CasKey → List CallEvent → Profile → Prop
  | _, [], _ => True
  | keys, event :: events, s =>
    KeepsAhead crates keys event.call ∧
      AllKeepAhead crates (keys ++ event.commits crates s) events (event.exec crates s)

theorem commits_of_kept {event : CallEvent}
    (h : FileKept s (event.exec crates s)) : event.commits crates s = [] := by
  unfold CallEvent.commits
  split
  · exact if_pos h
  · rfl

variable {keys : List CasKey}

theorem ahead_sameGenerations
    (hahead : Ahead crates keys s) (h : SameGenerations s s') : Ahead crates keys s' := by
  obtain ⟨d, d', hd, hd', hcredential, haccess⟩ := h.keeps
  intro key hkey d'' hd'' hgeneration
  rw [hd'] at hd''
  cases hd''
  unfold generation at hgeneration
  rw [hcredential] at hgeneration
  rw [haccess]
  exact hahead key hkey d hd hgeneration

theorem ahead_removed (h : Removed s) : Ahead crates keys s := by
  obtain ⟨d, hd, hcredential, -⟩ := h
  intro key hkey d' hd' hgeneration
  rw [hd] at hd'
  cases hd'
  unfold generation at hgeneration
  rw [hcredential] at hgeneration
  cases hgeneration

theorem ahead_save (hkeeps : KeepsAhead crates keys (.save state))
    (h : ∃ d, onDisk s = some d ∧ SameOwner state d) : Ahead crates keys s := by
  obtain ⟨d, hd, howner⟩ := h
  intro key hkey d' hd' hkeyGeneration
  rw [hd] at hd'
  cases hd'
  have hgeneration : generation crates d = generation crates state := by
    rw [← generation_bare state]
    unfold generation
    rw [howner.credential]
  rw [howner.access]
  exact hkeeps key hkey (hgeneration.symm.trans hkeyGeneration)

section

variable (hahead : Ahead crates keys s)

include hahead

/-- A mutation that goes through was expected above every committed key of its pairing, and leaves
the file above its own. -/
theorem ahead_mutates (hkeeps : KeepsAhead crates keys (.mutate expected f))
    (h : Mutates crates expected f s s') :
    Ahead crates (keys ++ [expected]) s' ∧ expected ∉ keys := by
  obtain ⟨d, hd, hgeneration, haccess, -⟩ := h.before
  obtain ⟨credential, changed, d', hf, hcert, hd', hcredential, hnext, -⟩ := h.after
  have hgeneration' : generation crates d' = some expected.pairingGeneration := by
    unfold generation
    rw [hcredential, ← hcert]
    exact congrArg (fun pem => some (pairingGeneration crates pem)) (hkeeps.2 _ _ hf)
  have hsucc : d'.accessMutationGeneration = expected.accessMutationGeneration + 1 :=
    hnext.trans (Nat.mod_eq_of_lt hkeeps.1)
  constructor
  · intro key hkey d'' hd'' hkeyGeneration
    rw [hd'] at hd''
    cases hd''
    rcases List.mem_append.mp hkey with hold | hnew
    · rw [hgeneration'] at hkeyGeneration
      have hlt := hahead key hold d hd (hgeneration.trans hkeyGeneration)
      omega
    · rw [List.mem_singleton.mp hnew]
      omega
  · intro hold
    have hlt := hahead expected hold d hd hgeneration
    omega

/-- One call: what it commits is new, and the file stays ahead. -/
theorem ahead_exec {event : CallEvent} (hkeeps : KeepsAhead crates keys event.call) :
    Ahead crates (keys ++ event.commits crates s) (event.exec crates s) ∧
      ∀ key ∈ event.commits crates s, key ∉ keys := by
  have hcases : FileKept s (event.exec crates s) ∨
      event.call.Changes crates s (event.exec crates s) := exec_cases event s
  rcases hcases with hkept | hchanges
  · rw [commits_of_kept hkept, List.append_nil]
    refine ⟨fun key hkey d hd => hahead key hkey d ?_, List.forall_mem_nil _⟩
    rwa [← hkept.onDisk]
  obtain ⟨call, protector, fates⟩ := event
  -- only a mutation commits a key
  have hnone : ∀ {s' : Profile}, Ahead crates keys s' →
      Ahead crates (keys ++ []) s' ∧ ∀ key ∈ ([] : List CasKey), key ∉ keys := by
    intro s' h
    rw [List.append_nil]
    exact ⟨h, List.forall_mem_nil _⟩
  cases call with
  | mutate expected f =>
    have hcommits : CallEvent.commits crates ⟨.mutate expected f, protector, fates⟩ s =
        [expected] := if_neg (Mutates.changed hchanges)
    rw [hcommits]
    obtain ⟨hahead', hnew⟩ := ahead_mutates hahead hkeeps hchanges
    refine ⟨hahead', fun key hkey => ?_⟩
    rw [List.mem_singleton.mp hkey]
    exact hnew
  | save state => exact hnone (ahead_save hkeeps hchanges)
  | installPairRejectionIntent _ _ _ | updateRetirementPhase _ _ _ _ =>
    exact hnone (ahead_sameGenerations hahead hchanges)
  | finishPairRejection _ _ _ _ => exact hnone (ahead_removed hchanges.2)

theorem nodup_committed {events : List CallEvent} (hkeep : AllKeepAhead crates keys events s) :
    (committed crates events s).Nodup ∧ ∀ key ∈ committed crates events s, key ∉ keys := by
  induction events generalizing keys s with
  | nil => exact ⟨List.nodup_nil, List.forall_mem_nil _⟩
  | cons event events ih =>
    obtain ⟨hahead', hnew⟩ := ahead_exec hahead hkeep.1
    obtain ⟨hnodup, hlater⟩ := ih hahead' hkeep.2
    have hsingle : (event.commits crates s).Nodup := by
      unfold CallEvent.commits
      split
      · split
        · exact List.nodup_nil
        · exact List.nodup_singleton _
      · exact List.nodup_nil
    constructor
    · refine List.nodup_append.mpr ⟨hsingle, hnodup, ?_⟩
      rintro key hkey _ hkey' rfl
      exact hlater key hkey' (List.mem_append_right _ hkey)
    · intro key hkey hold
      rcases List.mem_append.mp hkey with hkey | hkey
      · exact hnew key hkey hold
      · exact hlater key hkey (List.mem_append_left _ hold)

end

/-- In every history each call changes the file only under its guard; and when no call puts the
access generation back behind a committed mutation, no two mutations with the same key commit. -/
theorem pairing_compare_and_swap (crates : CredentialCrates) (events : List CallEvent)
    (s : Profile) : (∀ before event after, events = before ++ event :: after →
      Guarded crates event (execAll crates before s)) ∧
    (AllKeepAhead crates [] events s → (committed crates events s).Nodup) := by
  refine ⟨fun before event after _ => guarded event _, fun hkeep => ?_⟩
  exact (nodup_committed (List.forall_mem_nil _) hkeep).1

/-! ## A snapshot that is behind -/

/-- Protection that leaves the text as it is. -/
def plainProtector : Protector where
  protect plain := .ok plain
  unprotect base64 := .ok base64

/-- A certificate is its own digest. -/
def plainCrates : CredentialCrates where
  sha256 pem := pem.toList.map fun c => UInt8.ofNat c.toNat

/-- A pairing with secrets of any form. -/
def samplePairing {κ : Type} (key token : κ) : PairedState κ where
  credential := some
    { clientKeyPem := key
      clientCertPem := "c"
      caChainPem := []
      caFpPrefix := []
      instanceId := "i"
      homeLabel := ""
      endpoints := []
      relayOrigin := none
      deviceToken := some token
      deviceTokenExpiresAt := some 1 }

def sampleProfile : Profile where
  pairing := { published := some (.whole (samplePairing (.wrapped "k") (.wrapped "t"))) }

def sampleKey (accessGeneration : Nat) : CasKey := ⟨plainCrates.sha256 "c", accessGeneration⟩

/-- Write another token at the given generation. -/
def sampleMutate (accessGeneration : Nat) : CallEvent where
  call := .mutate (sampleKey accessGeneration) fun credential =>
    .ok { credential with deviceToken := some "u" }
  protector := plainProtector

/-- Two mutations, each at the generation the one before left. -/
theorem pairing_compare_and_swap_two_commits :
    AllKeepAhead plainCrates [] [sampleMutate 0, sampleMutate 1] sampleProfile ∧
      committed plainCrates [sampleMutate 0, sampleMutate 1] sampleProfile =
        [sampleKey 0, sampleKey 1] ∧
      (committed plainCrates [sampleMutate 0, sampleMutate 1] sampleProfile).Nodup := by
  have hkeeps : AllKeepAhead plainCrates [] [sampleMutate 0, sampleMutate 1] sampleProfile := by
    refine ⟨⟨by decide, ?_⟩, ⟨by decide, ?_⟩, trivial⟩ <;>
    · intro credential changed h
      cases h
      rfl
  exact ⟨hkeeps, by decide +kernel,
    (pairing_compare_and_swap plainCrates [sampleMutate 0, sampleMutate 1] sampleProfile).2 hkeeps⟩

/-- A state is loaded; a mutation commits at generation 0; the loaded state is saved, which puts the
generation back to 0; and the same mutation commits again. -/
theorem mutate_commits_twice : ¬ (committed plainCrates
        [sampleMutate 0, ⟨.save (samplePairing "k" "t"), plainProtector, []⟩, sampleMutate 0]
        sampleProfile).Nodup := by
  decide +kernel

end SolstoneWindows.PlTransportWin.PairedState
