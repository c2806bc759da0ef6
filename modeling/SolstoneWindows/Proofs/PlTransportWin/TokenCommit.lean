import SolstoneWindows.PlTransportWin.Client
import SolstoneWindows.Proofs.PlTransportWin.PairingCas

/-!
# A token commit says what is on disk

`Holds` is what a commit claims: the pairing file has the new token at one generation. A mutation
that returns has written it (`holds_of_writes`), and a readback decides by it
(`classifyReadback_spec`), whatever others did to the file in between. Every other outcome marks the
incarnation ineligible, so it cannot use the relay afterwards.
-/

set_option autoImplicit false

namespace SolstoneWindows.PlTransportWin

open Lib.Effect Lib.Staged
open PairedState (Loaded MutationWrites mutate_writes load_spec onDisk AtDisk FileKept)

/-- The pairing file has the pairing at the access generation, with exactly this token. -/
structure Holds (crates : CredentialCrates) (protector : Protector) (key : CasKey)
    (token : String) (expiresAt : Int) (profile : Profile) : Prop where
  record : ∃ record stored, profile.pairing.published = some (.whole record) ∧
    record.credential = some stored ∧
    PairedState.pairingGeneration crates stored.clientCertPem = key.pairingGeneration ∧
    record.accessMutationGeneration = key.accessMutationGeneration ∧
    ∃ refused, unwrapDeviceToken protector stored = .ok (some token, some expiresAt, refused)

/-- What is protected can be read again. -/
def Protector.Lawful (protector : Protector) : Prop :=
  ∀ plain base64, protector.protect plain = .ok base64 → protector.unprotect base64 = .ok plain

variable {crates : CredentialCrates} {protector : Protector}

/-! ## What is written and what is read -/

variable {credential : Credential String} {token : String}

theorem unwrapDeviceToken_protectCredential (hlawful : protector.Lawful)
    {stored : Credential Stored} (hprotect : protectCredential protector credential = .ok stored)
    (htoken : credential.deviceToken = some token) :
    unwrapDeviceToken protector stored =
      .ok (some token, credential.deviceTokenExpiresAt, false) := by
  unfold protectCredential at hprotect
  split at hprotect
  · cases hprotect
  rename_i key hkey
  rw [htoken] at hprotect
  simp only at hprotect
  split at hprotect
  · cases hprotect
  rename_i wrapped hwrapped
  cases hprotect
  unfold wrapSecret at hwrapped
  split at hwrapped
  next base64 hbase64 =>
    cases hwrapped
    simp only [unwrapDeviceToken, Credential.withSecrets, unwrapSecret,
      hlawful token base64 hbase64]
  · cases hwrapped
  · cases hwrapped

/-- A mutation that writes a token leaves it on disk. -/
theorem holds_of_writes (hlawful : protector.Lawful) {expected : CasKey}
    {expiresAt : Int} {s s' : Profile} {changed : Credential String} {record : PairedRecord}
    (h : MutationWrites crates protector expected
      (WindowsTokenTransaction.withToken token expiresAt) s s' credential changed record) :
    Holds crates protector
      ⟨expected.pairingGeneration, wrappingSucc expected.accessMutationGeneration⟩ token expiresAt
      s' := by
  obtain ⟨stored, hstored, hprotect⟩ := h.written
  have happlied := h.applied
  cases happlied
  refine ⟨record, stored, h.published, hstored, ?_, h.access, ?_⟩
  · have hcert := congrArg Credential.clientCertPem (protectCredential_bare hprotect)
    rw [← h.expectedPairing]
    exact congrArg (PairedState.pairingGeneration crates) hcert
  · exact ⟨false, unwrapDeviceToken_protectCredential hlawful hprotect rfl⟩

/-- The file holds the token exactly if what is loaded from it has it. -/
theorem holds_iff_of_loaded (crates : CredentialCrates) (key : CasKey) (token : String)
    (expiresAt : Int) {s : Profile} {state : PairedState String}
    (hloaded : Loaded protector s state) :
    Holds crates protector key token expiresAt s ↔
      ∃ credential, state.credential = some credential ∧
        PairedState.pairingGeneration crates credential.clientCertPem = key.pairingGeneration ∧
        state.accessMutationGeneration = key.accessMutationGeneration ∧
        credential.deviceToken = some token ∧ credential.deviceTokenExpiresAt = some expiresAt := by
  constructor
  · rintro ⟨record, stored, hpublished, hstored, hgeneration, haccess, refused, htoken⟩
    have hbare : record.bare = state.bare := by
      have hdisk := hloaded.bare
      unfold onDisk at hdisk
      rw [hpublished] at hdisk
      exact Option.some.inj hdisk
    -- the record has a credential, so the state has one too
    have hsome : state.credential.isSome = true := by
      have hmap := congrArg (fun d : PairedState Unit => d.credential.isSome) hbare
      simp only [PairedState.bare_credential, Option.isSome_map, hstored] at hmap
      exact hmap.symm
    obtain ⟨credential, hcredential⟩ := Option.isSome_iff_exists.mp hsome
    obtain ⟨record', stored', hpublished', hstored', hunwraps⟩ :=
      hloaded.credential credential hcredential
    rw [hpublished] at hpublished'
    cases hpublished'
    rw [hstored] at hstored'
    cases hstored'
    obtain ⟨refused', htoken'⟩ := hunwraps.token
    rw [htoken] at htoken'
    have heq := Except.ok.inj htoken'
    refine ⟨credential, hcredential, ?_, ?_, (congrArg Prod.fst heq).symm,
      (congrArg (fun x => x.2.1) heq).symm⟩
    · rw [← hgeneration]
      exact congrArg (fun c => PairedState.pairingGeneration crates (Credential.clientCertPem c))
        hunwraps.bare
    · rw [← haccess]
      exact (congrArg PairedState.accessMutationGeneration hbare).symm
  · rintro ⟨credential, hcredential, hgeneration, haccess, htoken, hexpires⟩
    obtain ⟨record, stored, hpublished, hstored, hunwraps⟩ :=
      hloaded.credential credential hcredential
    obtain ⟨refused, hunwrapped⟩ := hunwraps.token
    have hdisk := hloaded.bare
    unfold onDisk at hdisk
    rw [hpublished] at hdisk
    refine ⟨record, stored, hpublished, hstored, ?_, ?_, refused, ?_⟩
    · rw [← hgeneration]
      exact congrArg (fun c => PairedState.pairingGeneration crates (Credential.clientCertPem c))
        hunwraps.bare.symm
    · rw [← haccess]
      exact congrArg PairedState.accessMutationGeneration (Option.some.inj hdisk)
    · rw [hunwrapped, htoken, hexpires]

/-! ## The transaction -/

section Transaction

variable {transaction : WindowsTokenTransaction} {ctx : TokenCommitContext} {s : TokenState}

/-- Anything may happen to the file between two sections. -/
abbrev AnyTurn : Turn Fate Profile → Prop := Turn.Allowed Any fun _ _ => True

variable {ε : Type} {D : Turn Fate Profile → Prop} {C : TokenState → Prop}

/-- The first section, from the state it starts from. -/
theorem atOnce_spec {α : Type} {p : ProfileProg ε α}
    {Q : α → TokenState → Prop} {E : ε → TokenState → Prop} (hdefault : D default)
    (h : Runs Any s.profile p (fun a profile => Q a { s with profile })
      (fun e profile => E e { s with profile }) fun profile => C { s with profile }) :
    Runs D s (atOnce p) Q E C := by
  refine Runs.call hdefault fun turn _ => ?_
  have hend := (h turn.decisions fun _ _ => trivial).2
  show Satisfies Q E C (p turn.decisions s.profile).1 _
  cases hcase : (p turn.decisions s.profile).1 <;> rw [hcase] at hend <;> exact hend

/-- The incarnation cannot use the relay. -/
def Fenced (incarnation : Nat) (fence : RelayFence) : Prop := fence.permit incarnation ≠ .allow

theorem fenced_markRelayIneligible (fence : RelayFence) (incarnation : Nat) :
    Fenced incarnation (fence.markRelayIneligible incarnation) := by
  unfold Fenced RelayFence.permit RelayFence.markRelayIneligible
  simp only [beq_self_eq_true, Bool.or_true, if_true]
  split <;> decide

theorem fenced_of_not_allows {fence : RelayFence} {incarnation : Nat}
    (h : fence.allows incarnation = false) : Fenced incarnation fence := by
  unfold Fenced RelayFence.permit
  unfold RelayFence.allows at h
  split
  · decide
  split
  · decide
  split
  · decide
  · simp_all

/-- The outcome agrees with the file: for a commit that tried to write at `next`. -/
def Truthful (crates : CredentialCrates) (protector : Protector)
    (transaction : WindowsTokenTransaction) (ctx : TokenCommitContext) (next : Nat) :
    TokenCommit → TokenState → Prop
  | .committed generation, s' =>
    Holds crates protector ⟨transaction.pairingGeneration, generation⟩ ctx.token ctx.expiresAt
      s'.profile
  | .unchanged, s' =>
    ¬ Holds crates protector ⟨transaction.pairingGeneration, next⟩ ctx.token ctx.expiresAt
        s'.profile ∧ Fenced transaction.incarnation s'.fence
  | .indeterminate, s' => Fenced transaction.incarnation s'.fence

/-- The write of a commit: it fails, or the token is written at a generation that was read. -/
def Written (crates : CredentialCrates) (protector : Protector)
    (transaction : WindowsTokenTransaction) (ctx : TokenCommitContext) (p p' : Profile) : Prop :=
  FileKept p p' ∨ ∃ current credential changed record,
    MutationWrites crates protector ⟨transaction.pairingGeneration, current⟩
      (WindowsTokenTransaction.withToken ctx.token ctx.expiresAt) p p' credential changed record

/-- What a commit leaves that tried to write at `next`, while others keep to `R`. -/
structure Leaves (crates : CredentialCrates) (protector : Protector)
    (transaction : WindowsTokenTransaction) (ctx : TokenCommitContext)
    (R : Profile → Profile → Prop) (next : Nat) (s : TokenState) (result : TokenCommit)
    (s' : TokenState) : Prop where
  truthful : protector.Lawful → Truthful crates protector transaction ctx next result s'
  disabled : s'.fence.disabled = s.fence.disabled
  key : s'.casKey = s.casKey ∨ ∃ generation,
    s'.casKey = some ⟨transaction.pairingGeneration, generation⟩ ∧
      AtDisk crates ⟨transaction.pairingGeneration, generation⟩ s'.profile
  file : ∃ p p' p'', R s.profile p ∧ Written crates protector transaction ctx p p' ∧ R p' p'' ∧
    FileKept p'' s'.profile

variable {next : Nat} {R : Profile → Profile → Prop} {p p' p'' : Profile}

/-- A program of a commit that has come from `s` to `t`. -/
abbrev Commits (crates : CredentialCrates) (protector : Protector)
    (transaction : WindowsTokenTransaction) (ctx : TokenCommitContext)
    (R : Profile → Profile → Prop) (next : Nat) (s t : TokenState)
    (program : TokenProg Empty TokenCommit) : Prop :=
  Runs (Turn.Allowed Any R) t program (Leaves crates protector transaction ctx R next s)
    (fun _ _ => True) fun _ => True

section Ends

variable (hp : R s.profile p) (hp' : Written crates protector transaction ctx p p')
  (hp'' : R p' p'')

include hp hp' hp''

theorem unchanged_spec
    (h : ¬ Holds crates protector ⟨transaction.pairingGeneration, next⟩ ctx.token
      ctx.expiresAt p'') :
    Commits crates protector transaction ctx R next s { s with profile := p'' }
      transaction.unchanged :=
  Runs.modify_bind (Runs.pure ⟨fun _ => ⟨h, fenced_markRelayIneligible _ _⟩, rfl, .inl rfl,
    p, p', p'', hp, hp', hp'', rfl⟩)

theorem indeterminate_spec {profile : Profile} (hkept : FileKept p'' profile) :
    Commits crates protector transaction ctx R next s { s with profile }
      transaction.indeterminate :=
  Runs.modify_bind (Runs.pure ⟨fun _ => fenced_markRelayIneligible _ _, rfl, .inl rfl,
    p, p', p'', hp, hp', hp'', hkept⟩)

theorem committed_spec {generation : Nat}
    (hat : AtDisk crates ⟨transaction.pairingGeneration, generation⟩ p'')
    (h : protector.Lawful → Holds crates protector ⟨transaction.pairingGeneration, generation⟩
      ctx.token ctx.expiresAt p'') :
    Commits crates protector transaction ctx R next s { s with profile := p'' }
      (transaction.committed generation) :=
  Runs.modify_bind (Runs.pure ⟨h, rfl, .inr ⟨generation, rfl, hat⟩, p, p', p'', hp, hp', hp'', rfl⟩)

end Ends

variable (hrefl : ∀ profile, R profile profile)

include hrefl

/-- What a loaded state decides: the commit is confirmed, or the file does not hold the token. -/
theorem classifyReadback_spec (hp : R s.profile p)
    (hp' : Written crates protector transaction ctx p p') :
    Commits crates protector transaction ctx R next s { s with profile := p' }
      (transaction.classifyReadback crates protector next ctx.token ctx.expiresAt) := by
  refine Runs.attempt_bind (Q := fun state t => ∃ p'', t = { s with profile := p'' } ∧ R p' p'' ∧
      Loaded protector p'' state)
    (E := fun _ t => ∃ p'' profile, t = { s with profile } ∧ R p' p'' ∧ FileKept p'' profile)
    (Runs.zoom (Runs.turn hrefl fun p'' hp'' => load_spec.mono ?_ ?_ fun _ _ => trivial)) ?_ ?_
    fun _ h => h
  · rintro state profile ⟨rfl, hloaded⟩
    exact ⟨profile, rfl, hp'', hloaded⟩
  · exact fun _ profile hsame => ⟨p'', profile, rfl, hp'', .of_sameButEvidence hsame⟩
  rotate_left
  · rintro _ _ ⟨p'', profile, rfl, hp'', hkept⟩
    exact indeterminate_spec hp hp' hp'' hkept
  rintro state _ ⟨p'', rfl, hp'', hloaded⟩
  have hiff := fun key => holds_iff_of_loaded crates key ctx.token ctx.expiresAt hloaded
  dsimp only
  split
  next hnone =>
    refine unchanged_spec hp hp' hp'' fun hholds => ?_
    obtain ⟨credential, hcredential, -⟩ := (hiff _).mp hholds
    rw [hnone] at hcredential
    cases hcredential
  next credential hcredential =>
    split
    next hother =>
      refine unchanged_spec hp hp' hp'' fun hholds => ?_
      obtain ⟨credential', hcredential', hgeneration, -⟩ := (hiff _).mp hholds
      rw [hcredential] at hcredential'
      cases hcredential'
      exact hother hgeneration
    next hsame =>
      split
      next hnew =>
        refine committed_spec hp hp' hp'' (hloaded.atDisk hcredential (not_not.mp hsame) hnew.1)
          fun _ => (hiff _).mpr ?_
        exact ⟨credential, hcredential, not_not.mp hsame, hnew.1, hnew.2.1, hnew.2.2⟩
      rename_i hnew
      refine unchanged_spec hp hp' hp'' fun hholds => ?_
      obtain ⟨credential', hcredential', -, haccess, htoken, hexpires⟩ := (hiff _).mp hholds
      rw [hcredential] at hcredential'
      cases hcredential'
      exact hnew ⟨haccess, htoken, hexpires⟩

theorem publishToken_spec {current : Nat} :
    Commits crates protector transaction ctx R (wrappingSucc current) s s
      (transaction.publishToken crates protector ctx current) := by
  refine Runs.attempt_bind (Q := fun generation t => ∃ p p', t = { s with profile := p' } ∧
      R s.profile p ∧ Written crates protector transaction ctx p p' ∧
      AtDisk crates ⟨transaction.pairingGeneration, generation⟩ p' ∧ (protector.Lawful →
        Holds crates protector ⟨transaction.pairingGeneration, generation⟩ ctx.token ctx.expiresAt
          p'))
    (E := fun _ t => ∃ p p', t = { s with profile := p' } ∧ R s.profile p ∧
      Written crates protector transaction ctx p p')
    (Runs.zoom (Runs.turn hrefl fun p hp => mutate_writes.mono ?_ ?_ fun _ _ => trivial)) ?_ ?_
    fun _ h => h
  · rintro next p' ⟨rfl, credential, changed, record, hwrites⟩
    refine ⟨p, p', rfl, hp, .inr ⟨_, _, _, _, hwrites⟩, hwrites.atDisk ?_, fun hlawful =>
      holds_of_writes hlawful hwrites⟩
    rintro credential _ ⟨⟩
    rfl
  · rintro error p' (⟨hkept, -⟩ | ⟨-, _, _, _, hwrites⟩)
    · exact ⟨p, p', rfl, hp, .inl hkept⟩
    · exact ⟨p, p', rfl, hp, .inr ⟨_, _, _, _, hwrites⟩⟩
  · rintro generation _ ⟨p, p', rfl, hp, hp', hat, hholds⟩
    dsimp only
    split
    · exact committed_spec hp hp' (hrefl p') hat hholds
    · exact classifyReadback_spec hrefl hp hp'
  · rintro _ _ ⟨p, p', rfl, hp, hp'⟩
    exact classifyReadback_spec hrefl hp hp'

omit hrefl

/-- The access generation after the one on disk. -/
def nextGeneration (profile : Profile) : Nat :=
  (onDisk profile).elim 0 fun d => wrappingSucc d.accessMutationGeneration

/-- A file does not hold anything at the generation after its own. -/
theorem not_holds_next {generation : Generation} {expiresAt : Int} {profile : Profile} :
    ¬ Holds crates protector ⟨generation, nextGeneration profile⟩ token expiresAt profile := by
  rintro ⟨record, -, hpublished, -, -, haccess, -⟩
  have hnext : nextGeneration profile = wrappingSucc record.accessMutationGeneration := by
    unfold nextGeneration onDisk
    rw [hpublished]
    rfl
  have haccess : record.accessMutationGeneration = nextGeneration profile := haccess
  rw [hnext] at haccess
  unfold wrappingSucc at haccess
  omega

/-- A commit that the fence lets through tries to write at the generation after the one on disk. -/
theorem commit_spec (hrefl : ∀ profile, R profile profile)
    (hallowed : ¬ (ctx.incarnation ≠ transaction.incarnation ∨
      s.fence.allows transaction.incarnation = false)) :
    Commits crates protector transaction ctx R (nextGeneration s.profile) s s
      (transaction.commit crates protector ctx) := by
  have hstay : Written crates protector transaction ctx s.profile s.profile := .inl rfl
  refine Runs.get_bind ?_
  rw [if_neg hallowed]
  split
  · exact unchanged_spec (hrefl _) hstay (hrefl _) not_holds_next
  refine Runs.attempt_bind (Q := fun state t => t = s ∧ Loaded protector s.profile state)
    (E := fun _ t => ∃ profile, t = { s with profile } ∧ FileKept s.profile profile)
    (atOnce_spec (Turn.allowed_default hrefl) (load_spec.mono ?_ ?_ fun _ _ => trivial)) ?_ ?_
    fun _ h => h
  · rintro state _ ⟨rfl, hloaded⟩
    exact ⟨rfl, hloaded⟩
  · exact fun _ profile hsame => ⟨profile, rfl, .of_sameButEvidence hsame⟩
  · rintro state t ⟨rfl, hloaded⟩
    have hnext : nextGeneration t.profile = wrappingSucc state.accessMutationGeneration := by
      unfold nextGeneration
      rw [hloaded.bare]
      rfl
    dsimp only
    split
    · exact unchanged_spec (hrefl _) hstay (hrefl _) not_holds_next
    split
    · exact unchanged_spec (hrefl _) hstay (hrefl _) not_holds_next
    · rw [hnext]
      exact publishToken_spec hrefl
  · rintro _ _ ⟨profile, rfl, hkept⟩
    exact indeterminate_spec (hrefl _) hstay (hrefl _) hkept

/-- A commit that the fence does not let through does nothing. -/
theorem commit_refused (turns : List (Turn Fate Profile))
    (hrefused : ctx.incarnation ≠ transaction.incarnation ∨
      s.fence.allows transaction.incarnation = false) :
    (transaction.commit crates protector ctx : TokenProg ε TokenCommit) turns s =
      (.ok .unchanged, turns, s) := by
  show (if ctx.incarnation ≠ transaction.incarnation ∨
    s.fence.allows transaction.incarnation = false then _ else _ :
      TokenProg ε TokenCommit) turns s = _
  rw [if_pos hrefused]
  rfl

end Transaction

/-- A token commit is classified truthfully, whatever the durable state, the fence, the outcome of
every file operation and the changes of others to the file in between. -/
theorem commit_classified_truthfully (crates : CredentialCrates) (protector : Protector)
    (hlawful : protector.Lawful) (transaction : WindowsTokenTransaction) (ctx : TokenCommitContext)
    (s : TokenState) (turns : List (Turn Fate Profile)) :
    let run := (transaction.commit crates protector ctx : TokenProg Empty TokenCommit) turns s
    (∀ generation, run.1 = .ok (.committed generation) →
      Holds crates protector ⟨transaction.pairingGeneration, generation⟩ ctx.token ctx.expiresAt
        run.2.2.profile) ∧
    (run.1 = .ok .unchanged →
      ¬ Holds crates protector ⟨transaction.pairingGeneration, nextGeneration s.profile⟩ ctx.token
        ctx.expiresAt run.2.2.profile) ∧
    (∀ result, run.1 = .ok result → (∀ generation, result ≠ .committed generation) →
      ctx.incarnation = transaction.incarnation →
      run.2.2.fence.permit transaction.incarnation ≠ .allow) ∧
    (ctx.incarnation ≠ transaction.incarnation ∨ s.fence.retired = true ∨
      s.fence.incarnation ≠ transaction.incarnation → run.1 = .ok .unchanged ∧ run.2.2 = s) := by
  intro run
  by_cases hrefused : ctx.incarnation ≠ transaction.incarnation ∨
      s.fence.allows transaction.incarnation = false
  · have hrun : run = (.ok .unchanged, turns, s) := commit_refused turns hrefused
    rw [hrun]
    refine ⟨fun _ h => (nomatch h), fun _ => not_holds_next, ?_, fun _ => ⟨rfl, rfl⟩⟩
    intro _ _ _ hsame
    exact fenced_of_not_allows (hrefused.resolve_left (not_not.mpr hsame))
  · have hturns : ∀ turn ∈ turns, AnyTurn turn := fun _ _ => ⟨fun _ => trivial, fun _ _ => trivial⟩
    have htruthful : ∀ result, run.1 = .ok result → Truthful crates protector transaction ctx
        (nextGeneration s.profile) result run.2.2 := fun result hresult =>
      ((commit_spec (fun _ => trivial) hrefused).returns hturns hresult).truthful hlawful
    refine ⟨fun generation h => htruthful _ h, fun h => (htruthful _ h).1, ?_, ?_⟩
    · intro result hresult hother _
      have htruthful := htruthful result hresult
      cases result with
      | committed generation => exact absurd rfl (hother generation)
      | unchanged => exact htruthful.2
      | indeterminate => exact htruthful
    · intro hstale
      refine absurd ?_ hrefused
      rcases hstale with hother | hretired | hother
      · exact .inl hother
      · exact .inr (by simp [RelayFence.allows, hretired])
      · exact .inr (by simp [RelayFence.allows, hother])

/-- The current incarnation of a paired client. -/
def sampleTransaction : WindowsTokenTransaction where
  statePath := true
  pairingGeneration := PairedState.plainCrates.sha256 "c"
  incarnation := 1

def sampleTokenState : TokenState where
  profile := PairedState.sampleProfile
  fence := RelayFence.new true
  casKey := none

/-- A save that ends uncertain, with the new token on disk, is read back and confirmed. -/
theorem commit_classified_truthfully_uncertain :
    Holds PairedState.plainCrates PairedState.plainProtector
      ⟨sampleTransaction.pairingGeneration, 1⟩
      "u" 2
      (((sampleTransaction.commit PairedState.plainCrates PairedState.plainProtector ⟨"u", 2, 1⟩ :
        TokenProg Empty TokenCommit)
        [{}, { decisions := [.done, .done, .done, .done, .done, .done, .done, .failed true] }]
        sampleTokenState).2.2.profile) :=
  (commit_classified_truthfully PairedState.plainCrates PairedState.plainProtector
    (by intro plain base64 h; cases h; rfl)
    sampleTransaction ⟨"u", 2, 1⟩ sampleTokenState
    [{}, { decisions := [.done, .done, .done, .done, .done, .done, .done, .failed true] }]).1 1
    (by decide +kernel)

end SolstoneWindows.PlTransportWin
