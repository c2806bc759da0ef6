import SolstoneWindows.PlTransportWin.PostConnect
import SolstoneWindows.Proofs.PlTransportWin.TokenCommit

/-!
# Revoked relay access

`Sound` is the invariant, over what counts of a session: the access generation on disk, the keys of
the live client and of the clear that was put off, and whether the fence is down. It says that no
key is ahead of the disk, that the fence is down while access is revoked, and that a clear is put
off only at the client's own key. A clear that a newer Ready overtook is stuck: neither it nor the
client can change the file.

A save that is uncertain is settled by the file. If the file still holds the revoked token, the
client is rebuilt with it and may use the relay (`revoked_relay_used_after_uncertain_clear`).
`revoked_relay_stays_revoked` is about the runs in which this does not happen.
-/

set_option autoImplicit false

namespace SolstoneWindows.PlTransportWin

open Lib.Effect Lib.Staged
open PairedState (Loaded MutationWrites mutate_writes load_spec onDisk AtDisk FileKept)

/-! ## What the log says -/

/-- The relay access of a Ready is on disk. -/
def AccessEvent.readyAccepted : AccessEvent → Bool
  | .saved .ready true _ _ => true
  | _ => false

/-- The event has happened, and no Ready was accepted since. -/
def unanswered (event : AccessEvent) (log : List AccessEvent) : Bool :=
  log.foldl (fun seen e => if e.readyAccepted then false else seen || e == event) false

/-- A current outcome without relay access was applied, and no Ready was accepted since. -/
abbrev accessRevoked (log : List AccessEvent) : Bool := unanswered .notConfigured log

/-- A clear was put off, and no Ready was accepted since. -/
abbrev clearOwed (log : List AccessEvent) : Bool := unanswered .putOff log

@[simp] theorem unanswered_append (event e : AccessEvent) (log : List AccessEvent) :
    unanswered event (log ++ [e]) =
      if e.readyAccepted then false else unanswered event log || e == event := by
  simp [unanswered]

/-- Every event of the log is as `P` says, after what was before it. -/
def Along (P : List AccessEvent → AccessEvent → Prop) (log : List AccessEvent) : Prop :=
  ∀ before e after, log = before ++ e :: after → P before e

variable {P : List AccessEvent → AccessEvent → Prop}

theorem along_nil : Along P [] := by
  intro before e after heq
  simp at heq

theorem along_append {log : List AccessEvent}
    {e : AccessEvent} : Along P (log ++ [e]) ↔ Along P log ∧ P log e := by
  constructor
  · intro h
    refine ⟨fun before e' after heq => h before e' (after ++ [e]) (by simp [heq]), ?_⟩
    exact h log e [] rfl
  · rintro ⟨hlog, he⟩ before e' after heq
    rcases append_singleton_split heq with ⟨rfl, rfl, -⟩ | ⟨rest, hsplit⟩
    · exact he
    · exact hlog before e' rest hsplit

instance [∀ log e, Decidable (P log e)] (log : List AccessEvent) : Decidable (Along P log) :=
  decidable_of_iff (∀ n : Fin log.length, P (log.take n) (log.get n)) <| by
    constructor
    · rintro h before e after rfl
      simpa using h ⟨before.length, by simp⟩
    · intro h n
      refine h _ _ (log.drop (n + 1)) ?_
      rw [List.get_eq_getElem, List.getElem_cons_drop, List.take_append_drop]

/-- An event that does not bring the relay back: the client can be rebuilt without relay access, and
an uncertain save leaves none on disk. -/
def AccessEvent.harmless : AccessEvent → Bool
  | .stripped relay => !relay
  | .saved writer wrote uncertain relay =>
    (AccessEvent.saved writer wrote uncertain relay).readyAccepted || !(uncertain && relay)
  | _ => true

/-- The condition: while access is revoked, every event is harmless. -/
def Clean (log : List AccessEvent) : Prop :=
  Along (fun before e => accessRevoked before = true → e.harmless = true) log

instance (log : List AccessEvent) : Decidable (Clean log) :=
  inferInstanceAs (Decidable (Along _ log))

/-- The event is a clear that was put off and changes the file now. -/
def AccessEvent.clears : AccessEvent → Bool
  | .saved .retry true _ _ => true
  | .saved (.endpoints true) true _ _ => true
  | _ => false

/-- A clear that was put off changes the file only if no Ready was accepted since. -/
def ClearsOwed (log : List AccessEvent) : Prop :=
  Along (fun before e => e.clears = true → clearOwed before = true) log

/-! ## The invariant -/

/-- What counts of a session. -/
structure Standing where
  /-- The generation of the client's certificate. -/
  generation : Generation
  /-- The access generation on disk, if the pairing there is the client's. -/
  disk : Option Nat
  client : Option CasKey
  pending : Option CasKey
  disabled : Bool
  log : List AccessEvent

/-- A key of the client's pairing that is not ahead of the disk. -/
structure Behind (generation : Generation) (disk : Option Nat) (key : CasKey) : Prop where
  pairing : key.pairingGeneration = generation
  access : ∀ a, disk = some a → key.accessMutationGeneration ≤ a

/-- The key is the one on disk. -/
def Standing.Current (t : Standing) (key : CasKey) : Prop :=
  t.disk = some key.accessMutationGeneration

structure Standing.Sound (t : Standing) : Prop where
  client : ∀ key, t.client = some key → Behind t.generation t.disk key
  pending : ∀ key, t.pending = some key → Behind t.generation t.disk key
  fenced : accessRevoked t.log = true → t.disabled = true
  revoked : clearOwed t.log = true → accessRevoked t.log = true
  /-- A clear that is owed is the client's own, unless the client cannot change the file. -/
  owed : clearOwed t.log = true → ∀ key own, t.pending = some key → t.client = some own →
    t.Current own → key = own
  /-- A clear that a Ready overtook is stuck, and the client with it. -/
  stuck : clearOwed t.log = false → ∀ key, t.pending = some key →
    t.disabled = true ∧ ¬ t.Current key ∧ ∀ own, t.client = some own → ¬ t.Current own
  clears : ClearsOwed t.log

namespace Standing

variable {t : Standing}

section

variable (h : t.Sound)

include h

variable {key : CasKey}

/-- A clear is owed if it, or the client, can change the file: otherwise both would be stuck. -/
theorem Sound.owed_of_current {own : CasKey} (hcurrent : t.Current key)
    (hkey : t.client = some key ∨ t.pending = some key) (hpending : t.pending = some own) :
    clearOwed t.log = true := by
  by_contra hnot
  have hstuck := h.stuck (by simpa using hnot) own hpending
  rcases hkey with hclient | hown
  · exact hstuck.2.2 key hclient hcurrent
  · rw [hpending] at hown
    cases hown
    exact hstuck.2.1 hcurrent

/-- One more event, that neither accepts a Ready nor puts a clear off nor changes the file. -/
theorem Sound.logged {e : AccessEvent} (hready : e.readyAccepted = false)
    (hclears : e.clears = false) (hput : (e == .putOff) = false)
    (hfence : (e == .notConfigured) = true → t.disabled = true) :
    ({ t with log := t.log ++ [e] } : Standing).Sound := by
  have howed : clearOwed (t.log ++ [e]) = clearOwed t.log := by
    rw [clearOwed, unanswered_append, hready, hput]
    simp
  have hrevoked : accessRevoked (t.log ++ [e]) = (accessRevoked t.log || e == .notConfigured) := by
    rw [accessRevoked, unanswered_append, hready]
    simp
  constructor
  · exact h.client
  · exact h.pending
  · intro hlog
    rcases Bool.or_eq_true_iff.mp (hrevoked.symm.trans hlog) with hold | hnew
    · exact h.fenced hold
    · exact hfence hnew
  · intro hlog
    show accessRevoked (t.log ++ [e]) = true
    rw [hrevoked, h.revoked (howed.symm.trans hlog), Bool.true_or]
  · exact fun hlog => h.owed (howed.symm.trans hlog)
  · exact fun hlog => h.stuck (howed.symm.trans hlog)
  · refine along_append.mpr ⟨h.clears, fun hyes => ?_⟩
    rw [hclears] at hyes
    cases hyes

/-- The file is as it was. -/
theorem Sound.kept (writer : AccessWriter) (uncertain relay : Bool) :
    ({ t with log := t.log ++ [.saved writer false uncertain relay] } : Standing).Sound := by
  refine h.logged ?_ ?_ rfl fun heq => nomatch heq
  · cases writer <;> rfl
  · cases writer with
    | endpoints withClear => cases withClear <;> rfl
    | _ => rfl

/-- The file was changed at a key that was on disk, by the client or by a clear that was put off. -/
theorem Sound.wrote (writer : AccessWriter) (uncertain relay : Bool)
    (hcurrent : t.Current key) (hkey : t.client = some key ∨ t.pending = some key)
    (hclears : (AccessEvent.saved writer true uncertain relay).clears = true → ∃ own, t.pending =
      some own) :
    ({ t with
      disk := some (key.accessMutationGeneration + 1)
      log := t.log ++ [.saved writer true uncertain relay] } : Standing).Sound := by
  have howed : ∀ own, t.pending = some own → clearOwed t.log = true :=
    fun own hpending => h.owed_of_current hcurrent hkey hpending
  have hnext : ∀ own, Behind t.generation t.disk own →
      some (key.accessMutationGeneration + 1) ≠ some own.accessMutationGeneration := by
    intro own hown heq
    have hle := hown.access _ hcurrent
    have heq := Option.some.inj heq
    omega
  have hbehind : ∀ own, Behind t.generation t.disk own →
      Behind t.generation (some (key.accessMutationGeneration + 1)) own := by
    intro own hown
    refine ⟨hown.pairing, ?_⟩
    rintro a ⟨⟩
    have hle := hown.access _ hcurrent
    omega
  have hflag : ∀ event, (AccessEvent.saved writer true uncertain relay == event) = false →
      unanswered event (t.log ++ [.saved writer true uncertain relay]) = true →
      unanswered event t.log = true := by
    intro event hother hlog
    rw [unanswered_append, hother] at hlog
    split at hlog
    · cases hlog
    · simpa using hlog
  constructor
  · exact fun own hown => hbehind own (h.client own hown)
  · exact fun own hown => hbehind own (h.pending own hown)
  · exact fun hlog => h.fenced (hflag .notConfigured rfl hlog)
  · intro hlog
    show accessRevoked _ = true
    have hold := hflag .putOff rfl hlog
    rw [accessRevoked, unanswered_append]
    rw [clearOwed, unanswered_append] at hlog
    split at hlog
    · cases hlog
    next hnot =>
      rw [if_neg hnot, show unanswered .notConfigured t.log = true from h.revoked hold]
      rfl
  · intro _ own own' _ hclient hcur
    exact absurd hcur (hnext own' (h.client own' hclient))
  · intro _ own hpending
    have hold := howed own hpending
    exact ⟨h.fenced (h.revoked hold), hnext own (h.pending own hpending),
      fun own' hclient => hnext own' (h.client own' hclient)⟩
  · refine along_append.mpr ⟨h.clears, ?_⟩
    intro hc
    obtain ⟨own, hpending⟩ := hclears hc
    exact howed own hpending

/-- Nothing is put off any more. -/
theorem Sound.settled : ({ t with pending := none } : Standing).Sound where
  client := h.client
  pending _ hkey := nomatch hkey
  fenced := h.fenced
  revoked := h.revoked
  owed _ _ _ hkey := nomatch hkey
  stuck _ _ hkey := nomatch hkey
  clears := h.clears

/-- The client is rebuilt at the key on disk. -/
theorem Sound.rebuilt (key : CasKey) (disabled : Bool)
    (hpairing : key.pairingGeneration = t.generation) (hcurrent : t.Current key)
    (hpending : ∀ own, t.pending = some own → clearOwed t.log = true ∧ own = key)
    (hfenced : accessRevoked t.log = true → disabled = true) :
    ({ t with client := some key, disabled } : Standing).Sound where
  client := by
    rintro own ⟨⟩
    refine ⟨hpairing, ?_⟩
    intro a ha
    have hdisk : some a = some key.accessMutationGeneration := Eq.trans (Eq.symm ha) hcurrent
    exact (Option.some.inj hdisk).ge
  pending := h.pending
  fenced := hfenced
  revoked := h.revoked
  owed := by
    rintro - own own' hown ⟨⟩ -
    exact (hpending own hown).2
  stuck := by
    intro hlog own hown
    rw [show clearOwed t.log = true from (hpending own hown).1] at hlog
    cases hlog
  clears := h.clears

/-- The clear that is left after the file was read: none, or the one of the file. -/
theorem Sound.reconciled {access : Nat} {isClear : Bool} (hdisk : t.disk = some access)
    (hclear : isClear = true → ∀ own, t.pending = some own → clearOwed t.log = true) :
    let left := pendingAfterReconcile t.pending ⟨t.generation, access⟩ isClear
    ({ t with pending := left } : Standing).Sound ∧
      ∀ own, left = some own → clearOwed t.log = true ∧ own = ⟨t.generation, access⟩ := by
  have hfile : ∀ own, Behind t.generation t.disk own → ¬ own.accessMutationGeneration < access →
      own = ⟨t.generation, access⟩ := by
    rintro ⟨pairing, own⟩ hbehind hnot
    have hle := hbehind.access access hdisk
    have hpairing := hbehind.pairing
    simp only at hle hpairing hnot ⊢
    rw [hpairing, show own = access by omega]
  -- a clear at the file's own key, when one is owed
  have hat : clearOwed t.log = true →
      ({ t with pending := some ⟨t.generation, access⟩ } : Standing).Sound := by
    intro howed
    refine ⟨h.client, ?_, h.fenced, h.revoked, ?_, ?_, h.clears⟩
    · rintro key ⟨⟩
      exact ⟨rfl, fun a ha => (Option.some.inj (hdisk.symm.trans ha)).le⟩
    · rintro - key own ⟨⟩ hown hcurrent
      have haccess := Option.some.inj (hdisk.symm.trans hcurrent)
      exact (hfile own (h.client own hown) (by omega)).symm
    · intro hnot
      rw [howed] at hnot
      cases hnot
  intro left
  cases hpending : t.pending with
  | none =>
    have hleft : left = none := by
      show pendingAfterReconcile t.pending _ _ = none
      rw [hpending]
      rfl
    rw [hleft]
    exact ⟨h.settled, fun _ hown => nomatch hown⟩
  | some own =>
    have hpairing := (h.pending own hpending).pairing
    by_cases hlt : own.accessMutationGeneration < access
    · have hleft : left = if isClear then some ⟨t.generation, access⟩ else none := by
        show pendingAfterReconcile t.pending _ _ = _
        rw [hpending]
        exact if_pos ⟨hpairing, hlt⟩
      rw [hleft]
      split
      next hyes =>
        have howed := hclear hyes own hpending
        refine ⟨hat howed, ?_⟩
        rintro _ ⟨⟩
        exact ⟨howed, rfl⟩
      · exact ⟨h.settled, fun _ hown => nomatch hown⟩
    · have hown := hfile own (h.pending own hpending) hlt
      have hleft : left = some ⟨t.generation, access⟩ := by
        show pendingAfterReconcile t.pending _ _ = _
        rw [hpending, ← hown]
        exact if_neg fun hboth => lt_irrefl _ hboth.2
      have hcurrent : t.Current own := by
        rw [hown]
        exact hdisk
      have howed := h.owed_of_current hcurrent (.inr hpending) hpending
      rw [hleft]
      refine ⟨hat howed, ?_⟩
      rintro _ ⟨⟩
      exact ⟨howed, rfl⟩

/-- The fence goes down for an outcome without relay access. -/
theorem Sound.fence (relay : Bool) : ({ t with
      disabled := true
      log := t.log ++ [.notConfigured] ++ [.stripped relay] } : Standing).Sound := by
  have hdown : ({ t with disabled := true } : Standing).Sound :=
    { h with
      fenced := fun _ => rfl
      stuck := fun hlog key hkey => ⟨rfl, (h.stuck hlog key hkey).2⟩ }
  have hfenced := hdown.logged (e := .notConfigured) rfl rfl rfl fun _ => rfl
  exact hfenced.logged rfl rfl rfl fun _ => rfl

/-- While the fence is up nothing is revoked and nothing put off, so the client may go on. -/
theorem Sound.token (hup : t.disabled = false) (disk : Option Nat) (client : Option CasKey)
    (hclient : ∀ key, client = some key → Behind t.generation disk key) :
    ({ t with disk, client } : Standing).Sound := by
  have hrevoked : ¬ accessRevoked t.log = true := by
    intro hrevoked
    rw [h.fenced hrevoked] at hup
    cases hup
  have hpending : t.pending = none := by
    by_contra hnot
    obtain ⟨own, hown⟩ := Option.ne_none_iff_exists'.mp hnot
    cases howed : clearOwed t.log with
    | true => exact hrevoked (h.revoked howed)
    | false =>
      rw [(h.stuck howed own hown).1] at hup
      cases hup
  have hnone : ∀ own, t.pending ≠ some own := fun own hown => by rw [hpending] at hown; cases hown
  exact ⟨hclient, fun own hown => absurd hown (hnone own), h.fenced, h.revoked,
    fun _ own _ hown => absurd hown (hnone own),
      fun _ own hown => absurd hown (hnone own), h.clears⟩

/-- The clear is put off, at the client's own key. -/
theorem Sound.putOff (hclient : t.client = some key)
    (hrevoked : accessRevoked t.log = true) :
    ({ t with pending := some key, log := t.log ++ [.putOff] } : Standing).Sound := by
  have hlog : accessRevoked (t.log ++ [.putOff]) = true := by
    simp only [unanswered_append]
    simp [AccessEvent.readyAccepted, hrevoked]
  have howed : clearOwed (t.log ++ [.putOff]) = true := by
    simp only [unanswered_append]
    simp [AccessEvent.readyAccepted]
  constructor
  · exact h.client
  · rintro own ⟨⟩
    exact h.client key hclient
  · exact fun _ => h.fenced hrevoked
  · exact fun _ => hlog
  · rintro - own own' ⟨⟩ hown -
    rw [show t.client = some own' from hown] at hclient
    exact (Option.some.inj hclient).symm
  · intro hnot
    rw [show clearOwed (t.log ++ [.putOff]) = true from howed] at hnot
    cases hnot
  · exact along_append.mpr ⟨h.clears, fun hclears => nomatch hclears⟩

end

end Standing

/-! ## The programs -/

variable {profile : Profile} {incarnation next : Nat}

section Programs

variable {crates : AccessCrates} {protector : Protector} {s : AccessSession}

/-- The access generation on disk, if the pairing there has this generation. -/
def diskAccess (crates : CredentialCrates) (generation : Generation) (profile : Profile) :
    Option Nat :=
  (onDisk profile).bind fun d =>
    if PairedState.generation crates d = some generation then some d.accessMutationGeneration
    else none

variable {key : CasKey} {E : Empty → AccessSession → Prop} {token : AccessToken}

theorem atDisk_iff {crates : CredentialCrates} : AtDisk crates key profile ↔
      diskAccess crates key.pairingGeneration profile = some key.accessMutationGeneration := by
  unfold AtDisk diskAccess
  constructor
  · rintro ⟨d, hd, hgeneration, haccess⟩
    rw [hd, Option.bind_some, if_pos hgeneration, haccess]
  · intro h
    obtain ⟨d, hd, hd'⟩ := Option.bind_eq_some_iff.mp h
    split at hd'
    next hgeneration => exact ⟨d, hd, hgeneration, Option.some.inj hd'⟩
    · cases hd'

theorem diskAccess_congr (crates : CredentialCrates) (generation : Generation)
    {profile' : Profile} (h : FileKept profile profile') :
    diskAccess crates generation profile' = diskAccess crates generation profile := by
  unfold diskAccess
  rw [h.onDisk]

/-- The generation of the live client's certificate. -/
def AccessSession.generation (crates : AccessCrates) (s : AccessSession) : Generation :=
  PairedState.pairingGeneration crates.toCredentialCrates s.slot.client.credential.clientCertPem

def AccessSession.standing (crates : AccessCrates) (s : AccessSession) : Standing where
  generation := s.generation crates
  disk := diskAccess crates.toCredentialCrates (s.generation crates) s.profile
  client := s.slot.client.casKey
  pending := s.pendingDurableClear
  disabled := s.slot.fence.disabled
  log := s.log

/-- The access generation on disk is not the last one. -/
def AccessSession.Below (crates : AccessCrates) (s : AccessSession) : Prop :=
  ∀ a, diskAccess crates.toCredentialCrates (s.generation crates) s.profile = some a →
    a + 1 < 2 ^ 64

/-- What a save of a changed credential leaves. -/
structure SavedAs (crates : AccessCrates) (protector : Protector) (writer : AccessWriter)
    (key : CasKey) (f : Credential String → Except StorageError (Credential String))
    (s : AccessSession) (result : Except StorageError Nat) (s' : AccessSession) : Prop where
  eq : s' = { s with profile := s'.profile, log := s'.log }
  sound : (s'.standing crates).Sound
  logged : ∃ wrote, s'.log =
      s.log ++ [.saved writer wrote (isUncertain result) (relayOnDisk protector s'.profile)] ∧
    (∀ next, result = .ok next → wrote = true) ∧
    (wrote = true → ∃ credential changed d, f credential = .ok changed ∧
      onDisk s'.profile = some d ∧ d.credential = some changed.bare)
  returned : ∀ next, result = .ok next → (s'.standing crates).Current ⟨key.pairingGeneration, next⟩
  /-- A save that was tried was tried at the key on disk. -/
  admitted : isUncertain result = true ∨ (∃ next, result = .ok next) →
    (s.standing crates).Current key

theorem isUncertain_iff {result : Except StorageError Nat} :
    isUncertain result = true ↔ result = .error .durabilityUncertain := by
  unfold isUncertain
  split
  · simp
  next hnot => simpa using hnot

theorem standing_congr (crates : AccessCrates) (h : FileKept s.profile profile) :
    ({ s with profile } : AccessSession).standing crates = s.standing crates := by
  unfold AccessSession.standing AccessSession.generation
  rw [diskAccess_congr _ _ h]

theorem mutateFile_spec {writer : AccessWriter}
    {f : Credential String → Except StorageError (Credential String)}
    (hsound : (s.standing crates).Sound) (hbelow : s.Below crates)
    (hkey : s.slot.client.casKey = some key ∨ s.pendingDurableClear = some key)
    (hclears : ∀ uncertain relay, (AccessEvent.saved writer true uncertain relay).clears = true →
      ∃ own, s.pendingDurableClear = some own)
    (hf : ∀ credential changed, f credential = .ok changed →
      changed.clientCertPem = credential.clientCertPem) :
    Runs Any s (mutateFile crates protector writer key f)
      (SavedAs crates protector writer key f s) E fun _ => True := by
  have hpairing : key.pairingGeneration = s.generation crates := by
    rcases hkey with hclient | hpending
    · exact (hsound.client key hclient).pairing
    · exact (hsound.pending key hpending).pairing
  have hcurrent : AtDisk crates.toCredentialCrates key s.profile →
      (s.standing crates).Current key := by
    intro hdisk
    have hdisk := atDisk_iff.mp hdisk
    rw [hpairing] at hdisk
    exact hdisk
  refine Runs.get_bind ?_
  refine Runs.bind (R := fun result s' => ∃ profile, s' = { s with profile } ∧
    ((∃ error, result = .error error ∧ FileKept s.profile profile ∧
        (error = .durabilityUncertain → AtDisk crates.toCredentialCrates key s.profile)) ∨
      ((result = .ok (wrappingSucc key.accessMutationGeneration) ∨
          result = .error .durabilityUncertain) ∧ ∃ credential changed record,
        MutationWrites crates.toCredentialCrates protector key f s.profile profile credential
          changed record))) ?_ ?_
  · refine Runs.attempt (Runs.zoom (mutate_writes.mono ?_ ?_ fun _ _ => trivial))
    · rintro next profile ⟨rfl, hwrites⟩
      exact ⟨profile, rfl, .inr ⟨.inl rfl, hwrites⟩⟩
    · rintro error profile (⟨hkept, hadmitted⟩ | ⟨rfl, hwrites⟩)
      · exact ⟨profile, rfl, .inl ⟨error, rfl, hkept, hadmitted⟩⟩
      · exact ⟨profile, rfl, .inr ⟨.inr rfl, hwrites⟩⟩
  · rintro result s' ⟨profile, rfl, hresult⟩
    refine Runs.get_bind (Runs.modify_bind (Runs.pure ?_))
    rcases hresult with ⟨error, rfl, hkept, hadmitted⟩ | ⟨hreturned, _, _, _, hwrites⟩
    · have hsame : decide (profile.pairing.published ≠ s.profile.pairing.published) = false :=
        decide_eq_false (not_not.mpr hkept)
      refine ⟨rfl, ?_, ⟨_, rfl, fun _ hok => (nomatch hok), ?_⟩, fun _ hok => (nomatch hok), ?_⟩
      · have hstanding := standing_congr crates hkept
        simp only [hsame]
        have hlogged := hsound.kept writer (isUncertain (.error error))
          (relayOnDisk protector profile)
        rw [← hstanding] at hlogged
        exact hlogged
      · intro hwrote
        rw [hsame] at hwrote
        cases hwrote
      · rintro (huncertain | ⟨_, hok⟩)
        · have herror := isUncertain_iff.mp huncertain
          cases herror
          exact hcurrent (hadmitted rfl)
        · cases hok
    · have hchanged : decide (profile.pairing.published ≠ s.profile.pairing.published) = true :=
        decide_eq_true hwrites.mutates.changed
      obtain ⟨d, hd, hgeneration, haccess, -⟩ := hwrites.mutates.before
      obtain ⟨credential, changed, d', happlied, -, hd', hcredential, -⟩ := hwrites.mutates.after
      have hbefore := hcurrent ⟨d, hd, hgeneration, haccess⟩
      have hsucc :
          wrappingSucc key.accessMutationGeneration = key.accessMutationGeneration + 1 := by
        have hlt := hbelow _ hbefore
        unfold wrappingSucc
        omega
      have hdisk : diskAccess crates.toCredentialCrates (s.generation crates) profile =
          some (key.accessMutationGeneration + 1) := by
        have hat := hwrites.atDisk hf
        rw [← hpairing, ← hsucc]
        exact atDisk_iff.mp hat
      have hlogged := hsound.wrote writer (isUncertain result) (relayOnDisk protector profile)
        hbefore hkey (hclears _ _)
      refine ⟨rfl, ?_, ⟨_, rfl, fun _ _ => hchanged, fun _ => ?_⟩, ?_, fun _ => hbefore⟩
      · rw [← hdisk] at hlogged
        simp only [hchanged]
        exact hlogged
      · exact ⟨credential, changed, d', happlied, hd', hcredential⟩
      · intro next hok
        rcases hreturned with hreturned | hreturned
        · rw [hreturned] at hok
          cases hok
          rw [hsucc]
          exact hdisk
        · rw [hreturned] at hok
          cases hok

/-- A rebuilt client has the access it is given, and the pairing it had. -/
theorem rebuildFrom_ok {crates : ClientCrates} {incumbent client : ObserverClient}
    {access : Credential String}
    (h : ObserverClient.rebuildFrom crates incumbent access key incarnation = .ok client) :
    client.casKey = some key ∧
      client.credential.clientCertPem = incumbent.credential.clientCertPem ∧
      client.credential.hasRelay = access.hasRelay := by
  unfold ObserverClient.rebuildFrom ObserverClient.build at h
  split at h
  · cases h
  generalize crates.transport _ = built at h
  cases built with
  | error error => cases h
  | ok _ =>
    cases h
    exact ⟨rfl, rfl, rfl⟩

variable {credential : Credential String} {eligibility : RelayEligibility}

theorem tryReplace_spec {Q : Unit → AccessSession → Prop} {C : AccessSession → Prop}
    (hkept : (∀ slot, s.slot.replaceFromIncumbent crates.toClientCrates credential key eligibility ≠
      .ok slot) → Q () s)
    (hrebuilt : ∀ slot : ClientSlot, slot.client.casKey = some key →
      slot.client.credential.clientCertPem = s.slot.client.credential.clientCertPem →
      slot.client.credential.hasRelay = credential.hasRelay →
      slot.fence.disabled = !s.slot.relayEnabled credential eligibility →
      Q () { s with slot }) :
    Runs Any s (tryReplace crates credential key eligibility) Q E C := by
  refine Runs.modify ?_
  split
  next slot hslot =>
    unfold ClientSlot.replaceFromIncumbent at hslot
    split at hslot
    · cases hslot
    split at hslot
    · cases hslot
    rename_i client hclient
    obtain ⟨hkey, hcert, hrelay⟩ := rebuildFrom_ok hclient
    simp only [RelayFence.advanceFrom, if_true] at hslot
    split at hslot <;>
    · cases hslot
      exact hrebuilt _ hkey hcert hrelay rfl
  next error herror =>
    refine hkept fun slot hslot => ?_
    rw [hslot] at herror
    cases herror

/-- A client that can be rebuilt without its relay access is. -/
theorem replaceFromIncumbent_withoutRelay (slot : ClientSlot) (hlive : slot.fence.retired = false)
    (hrelay : slot.client.credential.hasRelay = true)
    (hkeeps : keepsRelay crates slot.client = false) :
    ∃ slot', slot.replaceFromIncumbent crates.toClientCrates (withoutRelay slot.client.credential)
      key .fromCredential = .ok slot' := by
  simp only [keepsRelay, hrelay, Bool.true_and, Bool.or_eq_false_iff, Bool.not_eq_false',
    List.isEmpty_eq_false_iff] at hkeeps
  obtain ⟨client, hclient⟩ : ∃ client, ObserverClient.rebuildFrom crates.toClientCrates slot.client
      (withoutRelay slot.client.credential) key (wrappingSucc slot.fence.incarnation) =
        .ok client := by
    show ∃ client, ObserverClient.build _ (withoutRelay slot.client.credential) _ _ = .ok client
    rw [ObserverClient.build, if_neg fun h => hkeeps.1 h.1]
    cases htransport : crates.transport (withoutRelay slot.client.credential) with
    | error error =>
      rw [htransport] at hkeeps
      cases hkeeps.2
    | ok _ => exact ⟨_, rfl⟩
  simp [ClientSlot.replaceFromIncumbent, hlive, hclient, RelayFence.advanceFrom]

/-! ## The client after an uncertain save -/

/-- Does the pairing on disk name a relay? -/
def originOnDisk (profile : Profile) : Bool :=
  (onDisk profile).any fun d => d.credential.any (·.relayOrigin.isSome)

theorem relayOrigin_of_loaded {state : PairedState String}
    (hloaded : Loaded protector profile state) (hcredential : state.credential = some credential) :
    originOnDisk profile = credential.relayOrigin.isSome ∧
      relayOnDisk protector profile = credential.hasRelay := by
  obtain ⟨record, stored, hpublished, hstored, hunwraps⟩ :=
    hloaded.credential credential hcredential
  obtain ⟨refused, htoken⟩ := hunwraps.token
  have horigin : stored.relayOrigin = credential.relayOrigin :=
    (congrArg Credential.relayOrigin hunwraps.bare).symm
  constructor
  · unfold originOnDisk
    rw [hloaded.bare, Option.any_some, PairedState.bare_credential, hcredential]
    rfl
  · unfold relayOnDisk
    rw [hpublished]
    simp only [hstored, Option.any_some, htoken, horigin, Credential.hasRelay]

/-- The invariant after a program, as long as what was logged is clean. -/
abbrev KeepsSound (crates : AccessCrates) (s : AccessSession) (p : AccessProg Unit) : Prop :=
  Runs Any s p (fun _ s' => Clean s'.log → (s'.standing crates).Sound) (fun _ _ => True)
    fun _ => True

/-- A client that is rebuilt at the key on disk. -/
theorem rebuilt_sound {slot : ClientSlot} (hsound : (s.standing crates).Sound)
    (hpending : ∀ own, s.pendingDurableClear = some own → clearOwed s.log = true ∧ own = key)
    (hkey : slot.client.casKey = some key)
    (hcert : slot.client.credential.clientCertPem = s.slot.client.credential.clientCertPem)
    (hpairing : key.pairingGeneration = s.generation crates)
    (hcurrent : (s.standing crates).Current key)
    (hfenced : accessRevoked s.log = true → slot.fence.disabled = true) :
    (({ s with slot } : AccessSession).standing crates).Sound := by
  have hrebuilt := hsound.rebuilt key slot.fence.disabled hpairing hcurrent hpending hfenced
  unfold AccessSession.standing AccessSession.generation at hrebuilt ⊢
  rw [hcert, hkey]
  exact hrebuilt

theorem onProfile_load_spec : Runs Any s (onProfile (PairedState.load protector))
    (fun state s' => s' = s ∧ Loaded protector s.profile state)
    (fun _ s' => ∃ profile, s' = { s with profile } ∧ FileKept s.profile profile)
    fun _ => True := by
  refine Runs.zoom (load_spec.mono ?_ ?_ fun _ _ => trivial)
  · rintro state profile ⟨rfl, hloaded⟩
    exact ⟨rfl, hloaded⟩
  · exact fun error profile hsame => ⟨profile, rfl, .of_sameButEvidence hsame⟩

theorem reconcileFromDisk_spec (hsound : (s.standing crates).Sound)
    (hrelay : Clean s.log → accessRevoked s.log = true → relayOnDisk protector s.profile = false)
    (horigin : ∀ own, s.pendingDurableClear = some own → clearOwed s.log = false →
      originOnDisk s.profile = true) :
    KeepsSound crates s (reconcileFromDisk crates protector) := by
  refine Runs.get_bind ?_
  show Runs Any s (if _ then _ else _) _ _ _
  split
  · exact Runs.pure fun _ => hsound
  refine Runs.attempt_bind onProfile_load_spec ?_ ?_ fun _ h => h
  rotate_left
  · rintro _ _ ⟨profile, rfl, hkept⟩
    exact Runs.pure fun _ => (standing_congr crates hkept).symm ▸ hsound
  rintro state s ⟨rfl, hloaded⟩
  dsimp only
  split
  · exact Runs.pure fun _ => hsound
  rename_i credential hcredential
  split
  · exact Runs.pure fun _ => hsound
  rename_i hsame
  have hgeneration : PairedState.pairingGeneration crates.toCredentialCrates
      credential.clientCertPem = s.generation crates := not_not.mp hsame
  have hat : AtDisk crates.toCredentialCrates
      ⟨s.generation crates, state.accessMutationGeneration⟩ s.profile :=
    hloaded.atDisk hcredential hgeneration rfl
  have hdisk := atDisk_iff.mp hat
  obtain ⟨horiginEq, hrelayEq⟩ := relayOrigin_of_loaded hloaded hcredential
  have hclear : (credential.relayOrigin.isNone && credential.deviceToken.isNone &&
      credential.deviceTokenExpiresAt.isNone) = true → ∀ own,
      (s.standing crates).pending = some own → clearOwed s.log = true := by
    intro hclear own hown
    by_contra hnot
    have hsome := horigin own hown (by simpa using hnot)
    rw [horiginEq] at hsome
    simp only [Bool.and_eq_true, Option.isNone_iff_eq_none] at hclear
    rw [hclear.1.1] at hsome
    cases hsome
  obtain ⟨hleft, hown⟩ := hsound.reconciled hdisk hclear
  rw [hgeneration]
  refine Runs.bind (R := fun _ s' => ∃ slot, s' = { s with slot } ∧
    (Clean s.log → (({ s with
        slot
        pendingDurableClear := pendingAfterReconcile s.pendingDurableClear
          ⟨s.generation crates, state.accessMutationGeneration⟩
          (credential.relayOrigin.isNone && credential.deviceToken.isNone &&
            credential.deviceTokenExpiresAt.isNone) } : AccessSession).standing
        crates).Sound)) (tryReplace_spec ?_ ?_) ?_
  · exact fun _ => ⟨s.slot, rfl, fun _ => hleft⟩
  · intro slot hkey hcert _ hdisabled
    refine ⟨slot, rfl, fun hclean => ?_⟩
    refine rebuilt_sound (s := { s with pendingDurableClear := _ }) hleft hown hkey hcert rfl hdisk
      fun hrevoked => ?_
    have hnone := hrelay hclean hrevoked
    rw [hrelayEq] at hnone
    rw [hdisabled]
    show (!credential.hasRelay) = true
    rw [hnone]
    rfl
  · rintro _ _ ⟨slot, rfl, hslot⟩
    exact Runs.modify hslot

theorem tryReplace_sound (hsound : (s.standing crates).Sound)
    (hpending : ∀ own, s.pendingDurableClear = some own → clearOwed s.log = true ∧ own = key)
    (hpairing : key.pairingGeneration = s.generation crates)
    (hcurrent : (s.standing crates).Current key)
    (hfenced : Clean s.log → accessRevoked s.log = true →
      s.slot.relayEnabled credential eligibility = false) :
    KeepsSound crates s (tryReplace crates credential key eligibility) := by
  refine tryReplace_spec (fun _ _ => hsound) ?_
  intro slot hkey hcert _ hdisabled hclean
  refine rebuilt_sound hsound hpending hkey hcert hpairing hcurrent fun hrevoked => ?_
  rw [hdisabled, hfenced hclean hrevoked]
  rfl

section Saved

variable {writer : AccessWriter} {key : CasKey} {result : Except StorageError Nat}
  {f : Credential String → Except StorageError (Credential String)} {s' : AccessSession}

section

variable (h : SavedAs crates protector writer key f s result s')

include h

/-- What others than a Ready leave of the flags. -/
theorem SavedAs.unanswered (hwriter : writer ≠ .ready) (event : AccessEvent)
    (hevent : event = .notConfigured ∨ event = .putOff) :
    unanswered event s'.log = unanswered event s.log := by
  obtain ⟨wrote, hlog, -⟩ := h.logged
  have hready : ∀ uncertain relay,
      (AccessEvent.saved writer wrote uncertain relay).readyAccepted = false := by
    cases writer with
    | ready => exact absurd rfl hwriter
    | _ => exact fun _ _ => rfl
  rw [hlog, unanswered_append, hready]
  rcases hevent with rfl | rfl <;> exact Bool.or_false _

theorem SavedAs.generation : s'.generation crates = s.generation crates := by
  rw [h.eq]
  rfl

/-- An uncertain save while access stays revoked leaves no relay access. -/
theorem SavedAs.relay_gone (huncertain : isUncertain result = true) (hclean : Clean s'.log)
    (hrevoked : accessRevoked s'.log = true) : relayOnDisk protector s'.profile = false := by
  obtain ⟨wrote, hlog, -⟩ := h.logged
  rw [hlog, huncertain] at hclean hrevoked
  rw [accessRevoked, unanswered_append] at hrevoked
  split at hrevoked
  · cases hrevoked
  next hready =>
    have hharmless := (along_append.mp hclean).2 (by simpa using hrevoked)
    simpa [AccessEvent.harmless, hready] using hharmless

/-- An uncertain save is settled by the file. -/
theorem SavedAs.reconcile (hsound : (s.standing crates).Sound)
    (hkey : s.slot.client.casKey = some key ∨ s.pendingDurableClear = some key)
    (hf : writer = .ready → ∀ credential changed, f credential = .ok changed →
      changed.relayOrigin.isSome = true) (huncertain : isUncertain result = true) :
    KeepsSound crates s' (reconcileFromDisk crates protector) := by
  refine reconcileFromDisk_spec h.sound (h.relay_gone huncertain) ?_
  intro own hown hnot
  have hpending : s.pendingDurableClear = some own := by
    rw [h.eq] at hown
    exact hown
  have howed : clearOwed s.log = true :=
    hsound.owed_of_current (h.admitted (.inl huncertain)) hkey hpending
  -- the clear was owed and is not any more, so the save was that of a Ready
  obtain ⟨wrote, hlog, -, hwrote⟩ := h.logged
  rw [hlog, clearOwed, unanswered_append] at hnot
  split at hnot
  next hready =>
    have hwriter : writer = .ready ∧ wrote = true := by
      unfold AccessEvent.readyAccepted at hready
      split at hready
      next heq =>
        cases heq
        exact ⟨rfl, rfl⟩
      · cases hready
    obtain ⟨credential, changed, d, happlied, hd, hcredential⟩ := hwrote hwriter.2
    unfold originOnDisk
    rw [hd, Option.any_some, hcredential]
    exact hf hwriter.1 credential changed happlied
  · rw [show PlTransportWin.unanswered .putOff s.log = true from howed] at hnot
    cases hnot

end

end Saved

/-! ## The operations -/

theorem clearRelay_cert (credential changed : Credential String)
    (h : clearRelay credential = .ok changed) :
    changed.clientCertPem = credential.clientCertPem := by
  cases h
  rfl

/-- Access is revoked, and the client with it, at the key it had. -/
structure Revoked (crates : AccessCrates) (captured : CasKey) (s : AccessSession) : Prop where
  sound : (s.standing crates).Sound
  below : s.Below crates
  client : s.slot.client.casKey = some captured
  revoked : accessRevoked s.log = true
  stripped : Clean s.log → s.slot.client.credential.hasRelay = false

variable {captured : CasKey}

theorem clearDurably_sound (h : Revoked crates captured s) :
    KeepsSound crates s (clearDurably crates protector captured) := by
  refine Runs.get_bind ?_
  show Runs Any s (if _ then _ else _) _ _ _
  split
  · exact Runs.pure fun _ => h.sound
  refine Runs.bind (mutateFile_spec h.sound h.below (.inl h.client) (fun _ _ h => nomatch h)
    clearRelay_cert) ?_
  intro result s' hsaved
  have hrevoked' : accessRevoked s'.log = true :=
    (hsaved.unanswered (by decide) .notConfigured (.inl rfl)).trans h.revoked
  have hclient' : s'.slot.client.casKey = some captured := by rw [hsaved.eq]; exact h.client
  have hput := hsaved.sound.putOff hclient' hrevoked'
  have hinit : ∀ {log : List AccessEvent} {e : AccessEvent}, Clean (log ++ [e]) → Clean log :=
    fun h => (along_append.mp h).1
  cases result with
  | ok generation =>
    refine Runs.modify_bind (Runs.get_bind ?_)
    refine tryReplace_sound hsaved.sound.settled nofun ?_ (hsaved.returned generation rfl) ?_
    · exact (hsaved.sound.client captured hclient').pairing
    · intro hclean _
      obtain ⟨wrote, hlog, -⟩ := hsaved.logged
      have hclean : Clean s'.log := hclean
      rw [hlog] at hclean
      have hnone := h.stripped (hinit hclean)
      show s'.slot.client.credential.hasRelay = false
      rw [hsaved.eq]
      exact hnone
  | error error =>
    cases error with
    | writeFailed => exact Runs.modify_bind (Runs.modify fun _ => hput)
    | durabilityUncertain =>
      refine Runs.modify_bind (Runs.modify_bind (reconcileFromDisk_spec hput ?_ ?_))
      · exact fun hclean _ => hsaved.relay_gone rfl (hinit hclean) hrevoked'
      · intro own _ hnot
        have howed : clearOwed (s'.log ++ [.putOff]) = true := by
          simp only [unanswered_append]
          simp [AccessEvent.readyAccepted]
        rw [howed] at hnot
        cases hnot
    | _ => exact Runs.pure fun _ => hsaved.sound

variable (hsound : (s.standing crates).Sound) (hbelow : s.Below crates)

include hsound hbelow

section

variable (hclient : s.slot.client.casKey = some captured)

include hclient

theorem fenceRelay_spec (hlive : s.slot.fence.retired = false) :
    Runs Any s (fenceRelay crates captured) (fun _ => Revoked crates captured) (fun _ _ => True)
      fun _ => True := by
  refine Runs.modify_bind (Runs.get_bind (Runs.modify_bind ?_))
  refine Runs.bind (R := fun _ s' => ∃ slot : ClientSlot,
    s' = { s with slot, log := s.log ++ [.notConfigured] } ∧
    slot.client.casKey = some captured ∧
    slot.client.credential.clientCertPem = s.slot.client.credential.clientCertPem ∧
    (keepsRelay crates s.slot.client = false → slot.client.credential.hasRelay = false))
    (tryReplace_spec
      (fun hfails => ⟨s.slot.disableRelay, rfl, hclient, rfl, fun hkeeps => ?_⟩) ?_) ?_
  · by_contra hrelay
    obtain ⟨slot, hslot⟩ := replaceFromIncumbent_withoutRelay s.slot.disableRelay hlive
      (Bool.not_eq_false _ ▸ hrelay) hkeeps
    exact hfails slot hslot
  · exact fun slot hkey hcert hrelay _ => ⟨slot, rfl, hkey, hcert, fun _ => hrelay⟩
  rintro _ _ ⟨slot, rfl, hkey, hcert, hstripped⟩
  refine Runs.modify_bind (Runs.modify ?_)
  have hrevoked : accessRevoked (s.log ++ [.notConfigured]) = true := by
    simp [AccessEvent.readyAccepted]
  have hstanding : AccessSession.standing crates
      { s with
        slot := slot.disableRelay
        log := s.log ++ [.notConfigured] ++ [.stripped (keepsRelay crates s.slot.client)] } =
      { s.standing crates with
        disabled := true
        log := s.log ++ [.notConfigured] ++ [.stripped (keepsRelay crates s.slot.client)] } := by
    unfold AccessSession.standing AccessSession.generation
    simp only [ClientSlot.disableRelay, RelayFence.disable, hcert, hkey, hclient]
  constructor
  · exact hstanding.symm ▸ hsound.fence _
  · intro a ha
    exact hbelow a ((congrArg Standing.disk hstanding).symm.trans ha)
  · exact hkey
  · show accessRevoked (s.log ++ [.notConfigured] ++ [.stripped _]) = true
    rw [accessRevoked, unanswered_append, show unanswered _ _ = true from hrevoked]
    rfl
  · intro hclean
    have hharmless := (along_append.mp hclean).2 hrevoked
    exact hstripped (by simpa [AccessEvent.harmless] using hharmless)

theorem applyReady_sound {ready : ValidatedReadyAccess} {now : Int} {current : Bool} :
    KeepsSound crates s (applyReady crates protector ready captured now current) := by
  have happlied : ∀ credential changed, (if current then Except.ok (withReady ready credential)
      else .error StorageError.casMismatch) = .ok changed →
        changed = withReady ready credential := by
    intro credential changed h
    split at h
    · exact (Except.ok.inj h).symm
    · cases h
  refine Runs.get_bind ?_
  show Runs Any s (if _ then _ else _) _ _ _
  split
  · exact Runs.pure fun _ => hsound
  split
  · exact Runs.pure fun _ => hsound
  split
  · exact Runs.pure fun _ => hsound
  refine Runs.bind (mutateFile_spec hsound hbelow (.inl hclient) (fun _ _ h => nomatch h) ?_) ?_
  · intro credential changed h
    rw [happlied credential changed h]
    rfl
  intro result s' hsaved
  cases result with
  | ok generation =>
    -- the Ready is accepted, and what was put off was the client's own clear
    have haccepted : accessRevoked s'.log = false := by
      obtain ⟨wrote, hlog, hwrote, -⟩ := hsaved.logged
      rw [hlog, hwrote generation rfl, accessRevoked, unanswered_append]
      rfl
    have hown : ∀ own, s'.pendingDurableClear = some own → own = captured := by
      intro own hpending
      have hcurrent := hsaved.admitted (.inr ⟨generation, rfl⟩)
      have hpending : s.pendingDurableClear = some own := by
        rw [hsaved.eq] at hpending
        exact hpending
      exact hsound.owed (hsound.owed_of_current hcurrent (.inl hclient) hpending) own captured
        hpending hclient hcurrent
    have hpairing : captured.pairingGeneration = s'.generation crates :=
      (hsound.client captured hclient).pairing.trans hsaved.generation.symm
    refine Runs.bind (R := fun _ s2 => s2.pendingDurableClear = s'.pendingDurableClear ∧
      (({ s2 with pendingDurableClear := none } : AccessSession).standing crates).Sound)
      (tryReplace_spec (fun _ => ⟨rfl, hsaved.sound.settled⟩) ?_) ?_
    · intro slot hkey hcert _ _
      refine ⟨rfl, rebuilt_sound (s := { s' with pendingDurableClear := none }) hsaved.sound.settled
        nofun hkey hcert hpairing (hsaved.returned generation rfl) fun hrevoked => ?_⟩
      rw [show accessRevoked s'.log = true from hrevoked] at haccepted
      cases haccepted
    · rintro _ s2 ⟨hpending, hsound2⟩
      refine Runs.modify fun _ => ?_
      have hnone : (if s2.pendingDurableClear = some captured then none
          else s2.pendingDurableClear) = none := by
        split
        · rfl
        rename_i hother
        cases hcase : s2.pendingDurableClear with
        | none => rfl
        | some own =>
          rw [hown own (hpending ▸ hcase)] at hcase
          exact absurd hcase hother
      rw [hnone]
      exact hsound2
  | error error =>
    cases error with
    | durabilityUncertain =>
      refine hsaved.reconcile hsound (.inl hclient) (fun _ credential changed h => ?_) rfl
      rw [happlied credential changed h]
      rfl
    | _ => exact Runs.pure fun _ => hsaved.sound

end

theorem applyRelayAccessOutcome_sound {validated : Option ValidatedReadyAccess}
    {now : Int} {current : Bool} :
    KeepsSound crates s
      (applyRelayAccessOutcome crates protector validated token captured now current) := by
  refine Runs.get_bind ?_
  split
  · exact Runs.pure fun _ => hsound
  next hguard =>
    simp only [not_or, not_not, Bool.not_eq_true] at hguard
    cases validated with
    | none =>
      exact Runs.bind (fenceRelay_spec hsound hbelow hguard.2.2 hguard.1)
        fun _ _ h => clearDurably_sound h
    | some ready => exact applyReady_sound hsound hbelow hguard.2.2

theorem retryPendingDurableClear_sound :
    KeepsSound crates s (retryPendingDurableClear crates protector) := by
  refine Runs.get_bind ?_
  split
  · exact Runs.pure fun _ => hsound
  split
  · exact Runs.pure fun _ => hsound
  rename_i own hpending
  split
  · exact Runs.pure fun _ => hsound
  refine Runs.bind (mutateFile_spec hsound hbelow (.inr hpending) (fun _ _ _ => ⟨own, hpending⟩)
    clearRelay_cert) ?_
  intro result s' hsaved
  cases result with
  | ok generation =>
    refine Runs.get_bind ?_
    split
    · refine Runs.modify_bind (Runs.get_bind ?_)
      refine tryReplace_sound hsaved.sound.settled nofun ?_ (hsaved.returned generation rfl)
        fun _ _ => rfl
      exact (hsound.pending own hpending).pairing.trans hsaved.generation.symm
    · exact Runs.pure fun _ => hsaved.sound
  | error error =>
    cases error with
    | durabilityUncertain =>
      exact hsaved.reconcile hsound (.inr hpending) (fun h => nomatch h) rfl
    | _ => exact Runs.pure fun _ => hsaved.sound

theorem writeEndpoints_sound {endpoints : List EndpointAddr}
    {disk : Credential String} (hclient : s.slot.client.casKey = some captured) :
    KeepsSound crates s (writeEndpoints crates protector captured endpoints disk) := by
  refine Runs.get_bind ?_
  refine Runs.bind (mutateFile_spec hsound hbelow (.inl hclient) ?_
    fun _ _ h => ?_) ?_
  · intro uncertain relay hclears
    cases hpending : s.pendingDurableClear with
    | none =>
      rw [hpending] at hclears
      cases hclears
    | some own => exact ⟨own, rfl⟩
  · cases h
    cases s.pendingDurableClear.isSome <;> rfl
  intro result s' hsaved
  cases result with
  | ok generation =>
    refine Runs.bind (R := fun _ s2 => s2 = { s' with pendingDurableClear := none })
      (Runs.onlyIf (fun _ => Runs.modify rfl) fun hnone => ?_) ?_
    · rw [hsaved.eq]
      simp only [Option.isSome_eq_false_iff, Option.isNone_iff_eq_none] at hnone
      rw [hnone]
    · rintro _ _ rfl
      refine tryReplace_sound hsaved.sound.settled nofun ?_ (hsaved.returned generation rfl) ?_
      · exact (hsound.client captured hclient).pairing.trans hsaved.generation.symm
      · intro _ hrevoked
        show (!s'.slot.fence.disabled) = false
        rw [show s'.slot.fence.disabled = true from hsaved.sound.fenced hrevoked]
        rfl
  | error error =>
    cases error with
    | durabilityUncertain =>
      exact hsaved.reconcile hsound (.inl hclient) (fun h => nomatch h) rfl
    | _ => exact Runs.pure fun _ => hsaved.sound

theorem commitRefreshedEndpoints_sound {listed : List EndpointAddr} {relay : Bool} :
    KeepsSound crates s (commitRefreshedEndpoints crates protector listed relay token) := by
  refine Runs.get_bind ?_
  split
  · exact Runs.pure fun _ => hsound
  split
  · exact Runs.pure fun _ => hsound
  rename_i captured hclient
  split
  · exact Runs.pure fun _ => hsound
  refine Runs.attempt_bind onProfile_load_spec ?_ ?_ fun _ h => h
  · rintro state s ⟨rfl, -⟩
    dsimp only
    split
    · exact Runs.pure fun _ => hsound
    split
    · exact Runs.pure fun _ => hsound
    · exact writeEndpoints_sound hsound hbelow hclient
  · rintro _ _ ⟨profile, rfl, hkept⟩
    exact Runs.pure fun _ => (standing_congr crates hkept).symm ▸ hsound

end Programs

/-! ## Token commits -/

section Token

variable {crates : CredentialCrates} {protector : Protector} {transaction : WindowsTokenTransaction}
  {ctx : TokenCommitContext} {t t' : TokenState} {outcome : TokenCommit}

/-- Nobody else changes the file. -/
abbrev Alone : Turn Fate Profile → Prop := Turn.Allowed Any Eq

/-- What a token commit does: the file goes on by one at most, and the key is the one it had or the
one on disk. -/
structure TokenMoved (crates : CredentialCrates) (generation : Generation) (t t' : TokenState) :
    Prop where
  disabled : t'.fence.disabled = t.fence.disabled
  disk : diskAccess crates generation t'.profile = diskAccess crates generation t.profile ∨
    ∃ a, diskAccess crates generation t.profile = some a ∧
      diskAccess crates generation t'.profile = some (wrappingSucc a)
  key : t'.casKey = t.casKey ∨ ∃ a, t'.casKey = some ⟨generation, a⟩ ∧
    diskAccess crates generation t'.profile = some a

theorem commit_moved (h : Leaves crates protector transaction ctx Eq next t outcome t') :
    TokenMoved crates transaction.pairingGeneration t t' := by
  obtain ⟨p, p', p'', rfl, hwritten, rfl, hkept⟩ := h.file
  have hdisk := diskAccess_congr crates transaction.pairingGeneration hkept
  refine ⟨h.disabled, ?_, ?_⟩
  · rw [hdisk]
    rcases hwritten with hkept' | ⟨current, _, _, _, hwrites⟩
    · exact .inl (diskAccess_congr _ _ hkept')
    · obtain ⟨d, hd, hgeneration, haccess, -⟩ := hwrites.mutates.before
      have hbefore : AtDisk crates ⟨transaction.pairingGeneration, current⟩ t.profile :=
        ⟨d, hd, hgeneration, haccess⟩
      refine .inr ⟨current, atDisk_iff.mp hbefore, atDisk_iff.mp (hwrites.atDisk ?_)⟩
      rintro credential _ ⟨⟩
      rfl
  · exact h.key.imp_right fun ⟨generation, hkey, hat⟩ => ⟨generation, hkey, atDisk_iff.mp hat⟩

end Token

/-! ## Sessions -/

section Sessions

variable {crates : AccessCrates} {protector : Protector} {s s' : AccessSession}

/-- A commit goes through only while the fence is up. -/
theorem TokenMoved.sound {t : TokenState} (own : Bool)
    (h : TokenMoved crates.toCredentialCrates (s.generation crates)
      ⟨s.profile, s.slot.fence, s.slot.client.casKey⟩ t) (hsound : (s.standing crates).Sound)
    (hbelow : s.Below crates) (hup : s.slot.fence.disabled = false) : (AccessSession.standing crates
      { s with
        profile := t.profile
        slot :=
          { client :=
              { s.slot.client with casKey := if own then t.casKey else s.slot.client.casKey }
            fence := t.fence } }).Sound := by
  have hold : ∀ key, s.slot.client.casKey = some key → ∀ a,
      diskAccess crates.toCredentialCrates (s.generation crates) t.profile = some a →
      key.accessMutationGeneration ≤ a := by
    intro key hkey a ha
    rcases h.disk with hsame | ⟨before, hbefore, hafter⟩
    · exact (hsound.client key hkey).access a (hsame.symm.trans ha)
    · have hle := (hsound.client key hkey).access before hbefore
      have hlt := hbelow before hbefore
      have hnext := Option.some.inj (hafter.symm.trans ha)
      unfold wrappingSucc at hnext
      omega
  have htoken := hsound.token hup
    (diskAccess crates.toCredentialCrates (s.generation crates) t.profile)
    (if own then t.casKey else s.slot.client.casKey) ?_
  · unfold AccessSession.standing at htoken ⊢
    rw [← show t.fence.disabled = s.slot.fence.disabled from h.disabled] at htoken
    exact htoken
  intro key hkey
  have hcases : s.slot.client.casKey = some key ∨ t.casKey = some key := by
    split at hkey
    · exact .inr hkey
    · exact .inl hkey
  rcases hcases with hkey | hkey
  · exact ⟨(hsound.client key hkey).pairing, hold key hkey⟩
  rcases h.key with hsame | ⟨a, hnew, hdisk⟩
  · have hkey : s.slot.client.casKey = some key := hsame.symm.trans hkey
    exact ⟨(hsound.client key hkey).pairing, hold key hkey⟩
  · rw [hnew] at hkey
    cases hkey
    exact ⟨rfl, fun a' ha' => (Option.some.inj (hdisk.symm.trans ha')).le⟩

theorem tokenCommit_sound {ctx : TokenCommitContext} {sections : List (List Fate)}
    {outcome : TokenCommit} (hsound : (s.standing crates).Sound) (hbelow : s.Below crates)
    (hrun : tokenCommit crates protector ctx incarnation sections s = (.ok outcome, s')) :
    (s'.standing crates).Sound := by
  obtain ⟨hreturned, rfl⟩ := Prod.ext_iff.mp hrun
  by_cases hrefused : ctx.incarnation ≠ (s.transaction crates incarnation).incarnation ∨
      s.slot.fence.allows (s.transaction crates incarnation).incarnation = false
  · have hrun : ((s.transaction crates incarnation).commit crates.toCredentialCrates protector
        ctx : TokenProg Empty TokenCommit) (sections.map fun decisions => { decisions })
        ⟨s.profile, s.slot.fence, s.slot.client.casKey⟩ = (.ok .unchanged, _, _) :=
      commit_refused _ hrefused
    have hsame : (tokenCommit crates protector ctx incarnation sections s).2 = s := by
      unfold tokenCommit
      rw [hrun]
      simp
    rw [hsame]
    exact hsound
  · have hup : s.slot.fence.disabled = false := by
      by_contra hdown
      exact hrefused (.inr (by simp [RelayFence.allows, hdown]))
    have halone : ∀ turn ∈ sections.map fun decisions =>
        ({ decisions } : Turn Fate Profile), Alone turn := by
      intro turn hturn
      obtain ⟨decisions, -, rfl⟩ := List.mem_map.mp hturn
      exact ⟨fun _ => rfl, fun _ _ => trivial⟩
    have hmoved := commit_moved ((commit_spec (fun _ => rfl) hrefused).returns halone hreturned)
    have hsound' := hmoved.sound (decide (incarnation = s.slot.client.incarnation))
      hsound hbelow hup
    simp only [decide_eq_true_eq] at hsound'
    exact hsound'

/-- Where a session starts: nothing is put off, and the client is not ahead of the disk. -/
structure Starts (crates : AccessCrates) (s : AccessSession) : Prop where
  log : s.log = []
  pending : s.pendingDurableClear = none
  client : ∀ key, s.slot.client.casKey = some key → Behind (s.generation crates)
    (diskAccess crates.toCredentialCrates (s.generation crates) s.profile) key

theorem Starts.sound (h : Starts crates s) : (s.standing crates).Sound := by
  have hlog : (s.standing crates).log = [] := h.log
  have hnone : ∀ own, (s.standing crates).pending ≠ some own := by
    intro own hown
    rw [show (s.standing crates).pending = none from h.pending] at hown
    cases hown
  constructor
  · exact h.client
  · exact fun own hown => absurd hown (hnone own)
  · rw [hlog]
    exact fun hrevoked => nomatch hrevoked
  · rw [hlog]
    exact fun howed => nomatch howed
  · exact fun _ own _ hown => absurd hown (hnone own)
  · exact fun _ own hown => absurd hown (hnone own)
  · rw [hlog]
    exact along_nil

/-- What a returned program leaves. -/
theorem exec_returns {p : AccessProg Unit} {fates : List Fate} {Q : AccessSession → Prop}
    (hp : Runs Any s p (fun _ => Q) (fun _ _ => True) fun _ => True)
    (hexec : AccessProg.exec p fates s = some s') : Q s' := by
  unfold AccessProg.exec at hexec
  split at hexec
  next heq =>
    cases hexec
    have hfates : ∀ fate ∈ fates, Any fate := fun _ _ => trivial
    have hreturns := hp.returns hfates (congrArg Prod.fst heq)
    rw [Prog.final, heq] at hreturns
    exact hreturns
  · cases hexec

variable {call : AccessCall} {calls : List AccessCall}

theorem exec_sound (hsound : (s.standing crates).Sound)
    (hbelow : s.Below crates) (hexec : call.exec crates protector s = some s')
    (hclean : Clean s'.log) : (s'.standing crates).Sound := by
  cases call with
  | outcome validated token captured now current fates =>
    exact exec_returns (applyRelayAccessOutcome_sound hsound hbelow) hexec hclean
  | retry fates => exact exec_returns (retryPendingDurableClear_sound hsound hbelow) hexec hclean
  | endpoints listed relay token fates =>
    exact exec_returns (commitRefreshedEndpoints_sound hsound hbelow) hexec hclean
  | tokenCommit ctx incarnation sections =>
    rw [AccessCall.exec] at hexec
    split at hexec
    next heq =>
      cases hexec
      exact tokenCommit_sound hsound hbelow heq
    · cases hexec
  | reconnected connectionEpoch =>
    cases hexec
    exact hsound

/-- The state after one more call. -/
theorem execCalls_snoc
    (h : execCalls crates protector (calls ++ [call]) s = some s') :
    ∃ s1, execCalls crates protector calls s = some s1 ∧
      call.exec crates protector s1 = some s' := by
  unfold execCalls at h ⊢
  rw [List.foldlM_append] at h
  obtain ⟨s1, hcalls, hcall⟩ := Option.bind_eq_some_iff.mp h
  simp only [List.foldlM_cons, List.foldlM_nil] at hcall
  obtain ⟨s2, hcall, hlast⟩ := Option.bind_eq_some_iff.mp hcall
  cases hlast
  exact ⟨s1, hcalls, hcall⟩

theorem run_sound (hstart : Starts crates s)
    (hrun : execCalls crates protector calls s = some s')
    (hclean : ∀ before after s1, calls = before ++ after →
      execCalls crates protector before s = some s1 → Clean s1.log ∧ s1.Below crates) :
    (s'.standing crates).Sound := by
  induction calls using List.reverseRecOn generalizing s' with
  | nil =>
    cases hrun
    exact hstart.sound
  | append_singleton calls call ih =>
    obtain ⟨s1, hcalls, hcall⟩ := execCalls_snoc hrun
    have hsound := ih hcalls fun before after s2 heq =>
      hclean before (after ++ [call]) s2 (by rw [heq, List.append_assoc])
    exact exec_sound hsound (hclean calls [call] s1 rfl hcalls).2 hcall
      (hclean (calls ++ [call]) [] s' (List.append_nil _).symm hrun).1

end Sessions

/-- Revoked relay access stays revoked, and no clear that was put off changes the file after a Ready
was accepted: in every session in which, while access is revoked, the client can be rebuilt without
relay access and an uncertain save leaves none on disk, and the access generation does not wrap. -/
theorem revoked_relay_stays_revoked (crates : AccessCrates) (protector : Protector)
    (s : AccessSession) (hstart : Starts crates s) (calls : List AccessCall) (s' : AccessSession)
    (hrun : execCalls crates protector calls s = some s')
    (hclean : ∀ before after s1, calls = before ++ after →
      execCalls crates protector before s = some s1 → Clean s1.log ∧ s1.Below crates) :
    (accessRevoked s'.log = true → s'.slot.eligible = false) ∧ ClearsOwed s'.log := by
  have hsound := run_sound hstart hrun hclean
  refine ⟨fun hrevoked => ?_, hsound.clears⟩
  have hdisabled : s'.slot.fence.disabled = true := hsound.fenced hrevoked
  unfold ClientSlot.eligible RelayFence.permit
  rw [hdisabled]
  split <;> rfl

/-! ## Samples -/

def sampleCrates : AccessCrates where
  toCredentialCrates := PairedState.plainCrates
  transport _ := .ok ()
  parseIpAddr _ := none

def sampleCredential {κ : Type} (key token : κ) : Credential κ where
  clientKeyPem := key
  clientCertPem := "c"
  caChainPem := []
  caFpPrefix := []
  instanceId := "i"
  homeLabel := ""
  endpoints := [⟨"h", 1⟩]
  relayOrigin := some "o"
  deviceToken := some token
  deviceTokenExpiresAt := some 1

/-- A session whose client has an address and relay access. -/
def sampleSession : AccessSession where
  profile :=
    { pairing :=
        { published :=
            some (.whole
              { credential := some (sampleCredential (.wrapped "k") (.wrapped "t")) }) } }
  slot :=
    { client := ⟨sampleCredential "k" "t", some (PairedState.sampleKey 0), 1⟩
      fence := RelayFence.new true }
  token := ⟨1, 1, PairedState.plainCrates.sha256 "c"⟩
  pendingDurableClear := none
  statePath := true

/-- The journal's word, when the access generation on disk is `access`. -/
def sampleOutcome (validated : Option ValidatedReadyAccess) (access : Nat) (fates : List Fate) :
    AccessCall :=
  .outcome validated sampleSession.token (PairedState.sampleKey access) 0 true fates

theorem starts_sampleSession : Starts sampleCrates sampleSession where
  log := rfl
  pending := rfl
  client := by
    rintro key ⟨⟩
    exact ⟨rfl, fun _ _ => Nat.zero_le _⟩

/-- A clear whose file cannot be staged is put off and goes through later, a Ready follows, and then
the journal gives no access again. -/
def sampleCalls : List AccessCall :=
  [sampleOutcome none 0 [.done, .done, .done, .done, .done, .failed false], .retry [],
    sampleOutcome (some ⟨"o", "t", 2⟩) 1 [], sampleOutcome none 2 []]

theorem sampleCalls_clean (before after : List AccessCall) (s1 : AccessSession)
    (hsplit : sampleCalls = before ++ after)
    (hrun : execCalls sampleCrates PairedState.plainProtector before sampleSession = some s1) :
    Clean s1.log ∧ s1.Below sampleCrates := by
  have hall : ∀ n < 5, ((execCalls sampleCrates PairedState.plainProtector (sampleCalls.take n)
      sampleSession).all fun s1 => decide (Clean s1.log) &&
        (diskAccess PairedState.plainCrates (s1.generation sampleCrates) s1.profile).all
          (· + 1 < 2 ^ 64)) = true := by decide +kernel
  have hlen : before.length < 5 := by
    have hlength := congrArg List.length hsplit
    rw [List.length_append, show sampleCalls.length = 4 from rfl] at hlength
    omega
  have hs1 := hall before.length hlen
  rw [hsplit, List.take_left, hrun, Option.all_some, Bool.and_eq_true] at hs1
  refine ⟨of_decide_eq_true hs1.1, fun a ha => ?_⟩
  have hlow := hs1.2
  rw [show diskAccess PairedState.plainCrates _ _ = some a from ha] at hlow
  simpa using hlow

/-- The relay is revoked, ready again after a retry, and revoked again. -/
theorem revoked_relay_stays_revoked_answered : ∃ s',
    execCalls sampleCrates PairedState.plainProtector sampleCalls sampleSession = some s' ∧
      s'.log = [.notConfigured, .stripped false, .saved .notConfigured false false true, .putOff,
        .saved .retry true false false, .saved .ready true false true,
        .notConfigured, .stripped false, .saved .notConfigured true false false] ∧
      s'.slot.eligible = false ∧ ClearsOwed s'.log := by
  have hlog : (execCalls sampleCrates PairedState.plainProtector sampleCalls sampleSession).map
      AccessSession.log = some [.notConfigured, .stripped false,
        .saved .notConfigured false false true, .putOff,
        .saved .retry true false false, .saved .ready true false true,
        .notConfigured, .stripped false,
          .saved .notConfigured true false false] := by decide +kernel
  obtain ⟨s', hrun, hlog⟩ := Option.map_eq_some_iff.mp hlog
  obtain ⟨hineligible, hclears⟩ := revoked_relay_stays_revoked sampleCrates
    PairedState.plainProtector sampleSession starts_sampleSession sampleCalls s' hrun
    sampleCalls_clean
  refine ⟨s', hrun, hlog, hineligible ?_, hclears⟩
  rw [hlog]
  decide

/-- The durable clear ends uncertain with the old content on disk. The client is rebuilt from it,
and may use the relay that was revoked. -/
theorem revoked_relay_used_after_uncertain_clear : Starts sampleCrates sampleSession ∧
      (execCalls sampleCrates PairedState.plainProtector
        [sampleOutcome none 0 [.done, .done, .done, .done, .done, .done, .done, .lost]]
          sampleSession).any
        (fun s' => accessRevoked s'.log && s'.slot.eligible) = true :=
  ⟨starts_sampleSession, by decide +kernel⟩

end SolstoneWindows.PlTransportWin
