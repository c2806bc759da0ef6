import Mathlib.Data.List.Pairwise
import SolstoneWindows.ObserverModel.Setup

/-!
# Whether a choice that is off stays off in the saved configuration

`OffKept` is the property: what does not run is off in the saved configuration. It is about the
moments after a successful save. A toggle that failed to save is remembered, and the next save
carries it when it was an OFF.

The three preferences are carried as they run, so they always satisfy the property. A source is
carried only while its last failed toggle was an OFF. A failed ON for a source that is on in the
saved configuration turns the source off in memory and leaves nothing to carry: the source is
`Stranded`. The next save of anything else keeps it on (`save_keeps_stranded_source_on`). A run
keeps the property at all its saves exactly when it makes no such save (`off_kept_iff`).
-/

set_option autoImplicit false

namespace SolstoneWindows.Proofs.Setup

open ObserverModel
open ObserverModel.Setup

/-! ## The configuration -/

section Config

variable (config : SetupConfig)

@[simp] theorem source_setSource (kind other : SourceKind) (enabled : Bool) :
    (config.setSource kind enabled).source other =
      if other = kind then enabled else config.source other := by
  cases kind <;> cases other <;> rfl

@[simp] theorem preference_setSource (kind : SourceKind) (enabled : Bool) (p : Preference) :
    (config.setSource kind enabled).preference p = config.preference p := by
  cases kind <;> cases p <;> rfl

@[simp] theorem source_setPreference (p : Preference) (enabled : Bool) (kind : SourceKind) :
    (config.setPreference p enabled).source kind = config.source kind := by
  cases p <;> cases kind <;> rfl

@[simp] theorem preference_setPreference (p other : Preference) (enabled : Bool) :
    (config.setPreference p enabled).preference other =
      if other = p then enabled else config.preference other := by
  cases p <;> cases other <;> rfl

/-- Switching off the sources of a list. -/
theorem source_foldl_off (failed : List FailedSourceWrite) (kind : SourceKind) :
    (failed.foldl (fun config f => config.setSource f.kind false) config).source kind =
      (config.source kind && !failed.any fun f => f.kind = kind) := by
  induction failed generalizing config with
  | nil => simp
  | cons f failed ih =>
    rw [List.foldl_cons, ih, source_setSource, List.any_cons]
    by_cases hkind : kind = f.kind
    · simp [hkind]
    · simp [hkind, Ne.symm hkind]

theorem preference_foldl_off (failed : List FailedSourceWrite) (p : Preference) :
    (failed.foldl (fun config f => config.setSource f.kind false) config).preference p =
      config.preference p := by
  induction failed generalizing config with
  | nil => rfl
  | cons f failed ih => rw [List.foldl_cons, ih, preference_setSource]

end Config

/-! ## The candidate -/

section Candidate

variable (a : SetupAuthority)

theorem source_withPendingPreference (config : SetupConfig) (p : Preference) (kind : SourceKind) :
    (a.withPendingPreference config p).source kind = config.source kind := by
  unfold SetupAuthority.withPendingPreference
  split
  · exact source_setPreference config p _ kind
  · rfl

theorem preference_withPendingPreference (config : SetupConfig) (p other : Preference) :
    (a.withPendingPreference config p).preference other =
      if other = p ∧ (a.pendingPreference p).isSome = true then a.runningPreference p
      else config.preference other := by
  unfold SetupAuthority.withPendingPreference
  by_cases hpending : (a.pendingPreference p).isSome = true <;> simp [hpending]

/-- A candidate has a source on when it is saved as on and no OFF of it is pending. -/
theorem source_candidate (kind : SourceKind) : a.candidateWithPendingOff.source kind =
      (a.durable.source kind && !decide (⟨kind, false⟩ ∈ a.failedSources)) := by
  have hany : ((a.failedSources.filter fun f => !f.attempted).any fun f => f.kind = kind) =
      decide (⟨kind, false⟩ ∈ a.failedSources) := by
    rw [Bool.eq_iff_iff, List.any_eq_true, decide_eq_true_eq]
    constructor
    · rintro ⟨⟨kind', attempted⟩, hmem, hkind⟩
      rw [List.mem_filter] at hmem
      simp only [Bool.not_eq_true', decide_eq_true_eq] at hmem hkind
      obtain ⟨hmem, rfl⟩ := hmem
      exact hkind ▸ hmem
    · intro hmem
      exact ⟨_, List.mem_filter.mpr ⟨hmem, rfl⟩, by simp⟩
  unfold SetupAuthority.candidateWithPendingOff
  simp only [List.foldl_cons, List.foldl_nil]
  rw [source_foldl_off, hany, source_withPendingPreference, source_withPendingPreference,
    source_withPendingPreference]
  -- What is left is the login choice, which is not a source.
  split
  · cases kind <;> rfl
  · rfl

/-- A candidate has a preference as it runs when a save of it is pending, and as saved otherwise. -/
theorem preference_candidate (p : Preference) : a.candidateWithPendingOff.preference p =
      if (a.pendingPreference p).isSome = true then a.runningPreference p
      else a.durable.preference p := by
  unfold SetupAuthority.candidateWithPendingOff
  simp only [List.foldl_cons, List.foldl_nil]
  rw [preference_foldl_off, preference_withPendingPreference, preference_withPendingPreference,
    preference_withPendingPreference]
  have hlogin : ∀ q : Preference, (if a.pendingLogin = some false then
      { a.durable with startAtLogin := .explicit false } else a.durable).preference q =
      a.durable.preference q := by
    intro q
    split
    · cases q <;> rfl
    · rfl
  cases p <;> simp [hlogin]

end Candidate

/-! ## What one call does -/

instance : Std.Symm fun f g : FailedSourceWrite => f.kind ≠ g.kind := ⟨fun _ _ h => h.symm⟩

def Toggles (call : Call) (kind : SourceKind) : Prop := ∃ enabled, call = .setSource kind enabled

/-- What does not run is off in the saved configuration. -/
def OffKept (a : SetupAuthority) : Prop :=
  (∀ kind, a.running kind = false → a.durable.source kind = false) ∧
    ∀ p, a.runningPreference p = false → a.durable.preference p = false

/-- The call made a successful save. -/
def Saved (a a' : SetupAuthority) : Prop := a'.saves ≠ a.saves

/-- The source is on in the saved configuration, and its last failed toggle was an ON. -/
def Stranded (a : SetupAuthority) (kind : SourceKind) : Prop :=
  a.durable.source kind = true ∧ ⟨kind, true⟩ ∈ a.failedSources

/-- What holds between any two calls. -/
structure Tracked (a : SetupAuthority) : Prop where
  /-- A source has at most one failed toggle. -/
  one : a.failedSources.Pairwise fun f g => f.kind ≠ g.kind
  /-- A source with a failed toggle does not run. -/
  off : ∀ failed ∈ a.failedSources, a.running failed.kind = false
  /-- A source that does not run though it is saved as on has a failed toggle. -/
  failed : ∀ kind, a.running kind = false → a.durable.source kind = true →
    ∃ attempted, ⟨kind, attempted⟩ ∈ a.failedSources
  preference : ∀ p, a.pendingPreference p = none → a.runningPreference p = a.durable.preference p

/-- A call that saved: its own target is as asked, everything else as the candidate has it. -/
structure Saves (call : Call) (a a' : SetupAuthority) : Prop where
  saved : Saved a a'
  target : ∀ kind enabled, call = .setSource kind enabled →
    a'.running kind = enabled ∧ a'.durable.source kind = enabled
  running : ∀ kind, ¬ Toggles call kind → a'.running kind = a.running kind
  source : ∀ kind, ¬ Toggles call kind →
    a'.durable.source kind = a.candidateWithPendingOff.source kind
  failed : ∀ f, f ∈ a'.failedSources ↔
    f ∈ a.failedSources ∧ f.attempted = true ∧ ¬ Toggles call f.kind
  fewer : a'.failedSources.Sublist a.failedSources
  /-- A preference is the target, saved as it runs, or it is the candidate's. -/
  preference : ∀ p, a'.durable.preference p = a'.runningPreference p ∨
    (a'.durable.preference p = a.candidateWithPendingOff.preference p ∧
      a'.runningPreference p = a.runningPreference p ∧
      a'.pendingPreference p = a.pendingPreference p)

/-- A call that saved nothing. -/
structure Keeps (call : Call) (a a' : SetupAuthority) : Prop where
  saves : a'.saves = a.saves
  durable : a'.durable = a.durable
  running : ∀ kind, a'.running kind = a.running kind ∨ (Toggles call kind ∧ a'.running kind = false)
  failed : (a'.failedSources = a.failedSources ∧ a'.running = a.running) ∨
    ∃ kind enabled, call = .setSource kind enabled ∧ a'.running kind = false ∧
      a'.failedSources = SetupAuthority.recordFailed kind enabled a.failedSources
  preference : ∀ p, a'.pendingPreference p = none →
    a.pendingPreference p = none ∧ a'.runningPreference p = a.runningPreference p

theorem mem_recordFailed (kind : SourceKind) (attempted : Bool) (failed : List FailedSourceWrite)
    (hone : failed.Pairwise fun f g => f.kind ≠ g.kind) (f : FailedSourceWrite) :
    f ∈ SetupAuthority.recordFailed kind attempted failed ↔
      f = ⟨kind, attempted⟩ ∨ (f ∈ failed ∧ f.kind ≠ kind) := by
  induction failed with
  | nil => simp [SetupAuthority.recordFailed]
  | cons g failed ih =>
    rw [List.pairwise_cons] at hone
    unfold SetupAuthority.recordFailed
    split
    · rename_i hkind
      -- The entry of `kind` is replaced, and no other entry has that kind.
      rw [List.mem_cons, List.mem_cons]
      constructor
      · rintro (rfl | hmem)
        · exact .inl rfl
        · exact .inr ⟨.inr hmem, fun h => hone.1 f hmem (hkind.trans h.symm)⟩
      · rintro (rfl | ⟨rfl | hmem, hne⟩)
        · exact .inl rfl
        · exact absurd hkind hne
        · exact .inr hmem
    · rename_i hkind
      rw [List.mem_cons, ih hone.2, List.mem_cons]
      constructor
      · rintro (rfl | h | ⟨hmem, hne⟩)
        · exact .inr ⟨.inl rfl, hkind⟩
        · exact .inl h
        · exact .inr ⟨.inr hmem, hne⟩
      · rintro (h | ⟨rfl | hmem, hne⟩)
        · exact .inr (.inl h)
        · exact .inl rfl
        · exact .inr (.inr ⟨hmem, hne⟩)

theorem pairwise_recordFailed (kind : SourceKind) (attempted : Bool)
    {failed : List FailedSourceWrite} (hone : failed.Pairwise fun f g => f.kind ≠ g.kind) :
    (SetupAuthority.recordFailed kind attempted failed).Pairwise fun f g => f.kind ≠ g.kind := by
  induction failed with
  | nil => simp [SetupAuthority.recordFailed]
  | cons g failed ih =>
    have hcons := List.pairwise_cons.mp hone
    unfold SetupAuthority.recordFailed
    split
    · rename_i hkind
      exact List.pairwise_cons.mpr ⟨fun f hmem => hkind ▸ hcons.1 f hmem, hcons.2⟩
    · rename_i hkind
      refine List.pairwise_cons.mpr ⟨fun f hmem => ?_, ih hcons.2⟩
      rcases (mem_recordFailed kind attempted failed hcons.2 f).mp hmem with rfl | ⟨hmem, -⟩
      · exact hkind
      · exact hcons.1 f hmem

section Apply

variable (written : Bool) (a : SetupAuthority)

/-- The authority after a successful save of the candidate. -/
def persisted (candidate : SetupConfig) : SetupAuthority :=
  { a with
    durable := candidate
    setupReadFailed := false
    failedSources := a.failedSources.filter FailedSourceWrite.attempted
    saves := a.saves ++ [candidate] }

theorem persist_cases (candidate : SetupConfig) :
    a.persist written candidate = (true, persisted a candidate) ∨
      a.persist written candidate = (false, a) := by
  unfold SetupAuthority.persist
  split
  · exact .inr rfl
  · exact .inl rfl

theorem saved_persisted (candidate : SetupConfig) : Saved a (persisted a candidate) := by
  intro h
  have hlength := congrArg List.length h
  simp [persisted] at hlength

/-- The authority with other notes about the login choice, the wizard and the notice. -/
def noted (login : Option Bool) (wizard : Bool) (step : Option WizardStep) (notice : Bool) :
    SetupAuthority :=
  { a with
    pendingLogin := login
    wizardSaveFailed := wizard
    pendingWizard := step
    noticeSaveFailed := notice }

theorem keeps_noted (call : Call) (login : Option Bool) (wizard : Bool) (step : Option WizardStep)
    (notice : Bool) : Keeps call a (noted a login wizard step notice) :=
  ⟨rfl, rfl, fun _ => .inl rfl, .inl ⟨rfl, rfl⟩, fun _ h => ⟨h, rfl⟩⟩

/-- A call that toggles no source and sets no preference. -/
theorem other_cases {call : Call} (hcall : ∀ kind, ¬ Toggles call kind) (candidate : SetupConfig)
    (hsource : ∀ kind, candidate.source kind = a.candidateWithPendingOff.source kind)
    (hpreference : ∀ p, candidate.preference p = a.candidateWithPendingOff.preference p)
    (login : Option Bool) (wizard : Bool) (step : Option WizardStep) (notice : Bool) :
    Saves call a (noted (a.persist written candidate).2 login wizard step notice) ∨
      Keeps call a (noted (a.persist written candidate).2 login wizard step notice) := by
  rcases persist_cases written a candidate with h | h
  · rw [h]
    refine .inl ⟨saved_persisted a candidate, ?_, fun _ _ => rfl, fun kind _ => hsource kind, ?_,
      List.filter_sublist, fun p => .inr ⟨hpreference p, rfl, rfl⟩⟩
    · intro kind enabled heq
      exact absurd ⟨enabled, heq⟩ (hcall kind)
    · intro f
      show f ∈ a.failedSources.filter FailedSourceWrite.attempted ↔ _
      rw [List.mem_filter]
      exact ⟨fun h => ⟨h.1, h.2, hcall f.kind⟩, fun h => ⟨h.1, h.2.1⟩⟩
  · rw [h]
    exact .inr (keeps_noted a call login wizard step notice)

theorem setSource_cases (kind : SourceKind) (enabled : Bool) :
    Saves (.setSource kind enabled) a (a.setSource written kind enabled).2 ∨
      Keeps (.setSource kind enabled) a (a.setSource written kind enabled).2 := by
  have htoggles : ∀ other, Toggles (.setSource kind enabled) other ↔ other = kind := by
    intro other
    constructor
    · rintro ⟨e, h⟩
      exact (Call.setSource.inj h).1.symm
    · rintro rfl
      exact ⟨enabled, rfl⟩
  -- Turning the source off first does not change the candidate.
  obtain ⟨running, hfirst, hrunning⟩ : ∃ running,
      (if !enabled then a.setRunning kind false else a) = { a with running := running } ∧
        ∀ other, other ≠ kind → running other = a.running other := by
    cases enabled with
    | false => exact ⟨_, rfl, fun other hne => Function.update_of_ne hne _ _⟩
    | true => exact ⟨_, rfl, fun _ _ => rfl⟩
  have hother : ∀ value other, other ≠ kind →
      Function.update running kind value other = a.running other := fun value other hne => by
    rw [Function.update_of_ne hne, hrunning other hne]
  unfold SetupAuthority.setSource
  dsimp only
  rw [hfirst]
  rcases persist_cases written { a with running := running }
    (a.candidateWithPendingOff.setSource kind enabled) with h | h
  · refine .inl ?_
    erw [h]
    refine ⟨saved_persisted a _, ?_, ?_, ?_, ?_, List.filter_sublist.trans List.filter_sublist,
      fun p => .inr ⟨preference_setSource _ _ _ p, rfl, rfl⟩⟩
    · rintro _ _ ⟨⟩
      exact ⟨Function.update_self _ _ _, (source_setSource _ _ _ _).trans (if_pos rfl)⟩
    · exact fun other hne => hother enabled other (mt (htoggles other).mpr hne)
    · intro other hne
      exact (source_setSource _ _ _ _).trans (if_neg (mt (htoggles other).mpr hne))
    · intro f
      simp [SetupAuthority.removeFailedSource, SetupAuthority.setRunning, persisted, htoggles,
        and_comm]
  · refine .inr ?_
    erw [h]
    refine ⟨rfl, rfl, fun other => ?_, .inr ⟨kind, enabled, rfl, Function.update_self _ _ _, rfl⟩,
      fun p hp => ⟨hp, rfl⟩⟩
    by_cases hne : other = kind
    · subst hne
      exact .inr ⟨(htoggles other).mpr rfl, Function.update_self _ _ _⟩
    · exact .inl (hother false other hne)

theorem setPreference_cases {call : Call} (hcall : ∀ kind, ¬ Toggles call kind) (p : Preference)
    (enabled : Bool) :
    Saves call a (SetupAuthority.setPreference p written a enabled).2 ∨
      Keeps call a (SetupAuthority.setPreference p written a enabled).2 := by
  obtain ⟨running, hfirst, hrunning⟩ : ∃ running, (if !enabled then
      { a with runningPreference := Function.update a.runningPreference p false } else a) =
        { a with runningPreference := running } ∧
        ∀ q, q ≠ p → running q = a.runningPreference q := by
    cases enabled with
    | false => exact ⟨_, rfl, fun q hne => Function.update_of_ne hne _ _⟩
    | true => exact ⟨_, rfl, fun _ _ => rfl⟩
  unfold SetupAuthority.setPreference
  dsimp only
  rw [hfirst]
  -- Away from `p` the two candidates agree.
  generalize ha1 : { a with runningPreference := running } = a1
  have hsource : ∀ kind, a1.candidateWithPendingOff.source kind =
      a.candidateWithPendingOff.source kind := by
    intro kind
    rw [source_candidate, source_candidate, ← ha1]
  have hpreference : ∀ q, q ≠ p → a1.candidateWithPendingOff.preference q =
      a.candidateWithPendingOff.preference q := by
    intro q hne
    rw [preference_candidate, preference_candidate, ← ha1, ← hrunning q hne]
  rcases persist_cases written a1 (a1.candidateWithPendingOff.setPreference p enabled) with h | h
  · rw [h, ← ha1]
    refine .inl ⟨saved_persisted a _, fun kind enabled' heq => absurd ⟨enabled', heq⟩ (hcall kind),
      fun _ _ => rfl, fun kind _ => ?_, fun f => ?_, List.filter_sublist, fun q => ?_⟩
    · rw [← hsource kind, ← ha1]
      exact source_setPreference _ p enabled kind
    · simp [persisted, hcall]
    · by_cases hne : q = p
      · subst hne
        refine .inl ?_
        simp [persisted]
      · refine .inr ?_
        simp [persisted, hne, ha1, hpreference q hne, hrunning q hne]
  · rw [h, ← ha1]
    refine .inr ⟨rfl, rfl, fun _ => .inl rfl, .inl ⟨rfl, rfl⟩, fun q hq => ?_⟩
    by_cases hne : q = p
    · simp [hne] at hq
    · exact ⟨by simpa [hne] using hq, hrunning q hne⟩

/-- One call saves a candidate, or leaves the saved configuration as it was. -/
theorem apply_cases (call : Call) :
    Saves call a (call.apply written a) ∨ Keeps call a (call.apply written a) := by
  cases call with
  | setSource kind enabled => exact setSource_cases written a kind enabled
  | setDesktopActivityThroughPause enabled | setDesktopActivityWindowTitles enabled
  | setDesktopActivityPageAddresses enabled =>
    exact setPreference_cases written a (by rintro kind ⟨_, ⟨⟩⟩) _ enabled
  | setStartAtLogin enabled =>
    show Saves _ a (SetupAuthority.persist written { a with pendingLogin := some enabled } _).2 ∨
      Keeps _ a (SetupAuthority.persist written { a with pendingLogin := some enabled } _).2
    have hlogin : ∀ candidate,
        (SetupAuthority.persist written { a with pendingLogin := some enabled } candidate).2 =
          { (a.persist written candidate).2 with pendingLogin := some enabled } := by
      intro candidate
      unfold SetupAuthority.persist
      split <;> rfl
    rw [hlogin]
    -- The pending login choice is in the candidate, away from sources and preferences.
    refine other_cases written a (by rintro kind ⟨_, ⟨⟩⟩) _ (fun kind => ?_) (fun p => ?_) _ _ _ _
    · rw [source_candidate, ← source_candidate { a with pendingLogin := some enabled }]
      cases kind <;> rfl
    · rw [preference_candidate, ← preference_candidate { a with pendingLogin := some enabled }]
      cases p <;> rfl
  | setWizardStep step =>
    show Saves _ a (a.setWizardStep written step).2 ∨ Keeps _ a (a.setWizardStep written step).2
    unfold SetupAuthority.setWizardStep
    split
    · exact .inr (keeps_noted a _ _ _ _ _)
    · exact other_cases written a (by rintro kind ⟨_, ⟨⟩⟩) _ (fun kind => by cases kind <;> rfl)
        (fun p => by cases p <;> rfl) _ _ _ _
  | dismissNotice =>
    show Saves _ a (a.dismissNotice written).2 ∨ Keeps _ a (a.dismissNotice written).2
    unfold SetupAuthority.dismissNotice
    split
    · exact .inr (keeps_noted a _ _ _ _ _)
    · exact other_cases written a (by rintro kind ⟨_, ⟨⟩⟩) _ (fun kind => by cases kind <;> rfl)
        (fun p => by cases p <;> rfl) _ _ _ _

end Apply

/-! ## Runs -/

section Runs

variable {call : Call} {a a' : SetupAuthority}

theorem Saves.tracked (h : Saves call a a') (ha : Tracked a) : Tracked a' := by
  refine ⟨ha.one.sublist h.fewer, ?_, ?_, ?_⟩
  · intro f hf
    obtain ⟨hmem, -, htoggles⟩ := (h.failed f).mp hf
    rw [h.running f.kind htoggles]
    exact ha.off f hmem
  · intro kind hoff hon
    by_cases htoggles : Toggles call kind
    · -- The toggled source is saved as it runs.
      obtain ⟨enabled, hcall⟩ := htoggles
      obtain ⟨hrunning, hsource⟩ := h.target kind enabled hcall
      rw [hrunning] at hoff
      rw [hsource, hoff] at hon
      cases hon
    · rw [h.running kind htoggles] at hoff
      rw [h.source kind htoggles, source_candidate, Bool.and_eq_true] at hon
      obtain ⟨attempted, hmem⟩ := ha.failed kind hoff hon.1
      have hnotOff : (⟨kind, false⟩ : FailedSourceWrite) ∉ a.failedSources := by
        simpa using hon.2
      cases attempted with
      | false => exact absurd hmem hnotOff
      | true => exact ⟨true, (h.failed _).mpr ⟨hmem, rfl, htoggles⟩⟩
  · intro p hpending
    rcases h.preference p with hsame | ⟨hdurable, hrunning, hpending'⟩
    · exact hsame.symm
    · rw [hpending'] at hpending
      rw [hdurable, hrunning, preference_candidate, hpending]
      exact ha.preference p hpending

theorem Keeps.tracked (h : Keeps call a a') (ha : Tracked a) : Tracked a' := by
  have hpreference : ∀ p, a'.pendingPreference p = none →
      a'.runningPreference p = a'.durable.preference p := by
    intro p hp
    obtain ⟨hpending, hrunning⟩ := h.preference p hp
    rw [hrunning, h.durable]
    exact ha.preference p hpending
  rcases h.failed with ⟨hfailed, hrunning⟩ | ⟨kind, enabled, hcall, hoff, hfailed⟩
  · refine ⟨hfailed ▸ ha.one, ?_, ?_, hpreference⟩
    · rw [hfailed, hrunning]
      exact ha.off
    · rw [hfailed, hrunning, h.durable]
      exact ha.failed
  · have hmem := mem_recordFailed kind enabled a.failedSources ha.one
    -- A source other than the toggled one runs as it did.
    have hother : ∀ other, other ≠ kind → a'.running other = a.running other := by
      intro other hne
      rcases h.running other with hsame | ⟨⟨e, heq⟩, -⟩
      · exact hsame
      · rw [hcall] at heq
        exact absurd (Call.setSource.inj heq).1.symm hne
    refine ⟨hfailed ▸ pairwise_recordFailed kind enabled ha.one, ?_, ?_, hpreference⟩
    · intro f hf
      rw [hfailed, hmem] at hf
      rcases hf with rfl | ⟨hf, hne⟩
      · exact hoff
      · rw [hother f.kind hne]
        exact ha.off f hf
    · intro other hoff' hon
      rw [hfailed]
      by_cases hne : other = kind
      · exact ⟨enabled, (hmem _).mpr (.inl (by rw [hne]))⟩
      · rw [hother other hne] at hoff'
        rw [h.durable] at hon
        obtain ⟨attempted, hf⟩ := ha.failed other hoff' hon
        exact ⟨attempted, (hmem _).mpr (.inr ⟨hf, hne⟩)⟩

/-- By induction on the calls: the record is kept over every run. -/
theorem tracked_runCalls (calls : List (Call × Bool)) (ha : Tracked a) :
    Tracked (runCalls a calls) := by
  induction calls generalizing a with
  | nil => exact ha
  | cons call calls ih =>
    show Tracked (runCalls (call.1.apply call.2 a) calls)
    refine ih ?_
    rcases apply_cases call.2 a call.1 with h | h <;> exact h.tracked ha

/-- After a successful save, what does not run is off in the saved configuration exactly when no
source other than the call's own was stranded before. -/
theorem Saves.offKept_iff (h : Saves call a a') (ha : Tracked a) :
    OffKept a' ↔ ∀ kind, ¬ Toggles call kind → ¬ Stranded a kind := by
  constructor
  · rintro ⟨hsources, -⟩ kind htoggles ⟨hon, hmem⟩
    -- The candidate has the source on: its one failed toggle is an ON.
    have hnotOff : (⟨kind, false⟩ : FailedSourceWrite) ∉ a.failedSources := by
      intro hmem'
      have hne : (⟨kind, true⟩ : FailedSourceWrite) ≠ ⟨kind, false⟩ := by simp
      exact ha.one.forall hmem hmem' hne rfl
    have hoff := hsources kind ((h.running kind htoggles).trans (ha.off _ hmem))
    rw [h.source kind htoggles, source_candidate, hon] at hoff
    simp [hnotOff] at hoff
  · intro hstranded
    refine ⟨fun kind hoff => ?_, fun p hoff => ?_⟩
    · by_cases htoggles : Toggles call kind
      · obtain ⟨enabled, hcall⟩ := htoggles
        obtain ⟨hrunning, hsource⟩ := h.target kind enabled hcall
        rw [hsource, ← hrunning, hoff]
      · rw [h.source kind htoggles, source_candidate, Bool.and_eq_false_iff]
        rw [h.running kind htoggles] at hoff
        cases hon : a.durable.source kind with
        | false => exact .inl rfl
        | true =>
          obtain ⟨attempted, hmem⟩ := ha.failed kind hoff hon
          cases attempted with
          | false => exact .inr (by simpa using hmem)
          | true => exact absurd ⟨hon, hmem⟩ (hstranded kind htoggles)
    · rcases h.preference p with hsame | ⟨hdurable, hrunning, -⟩
      · rw [hsame, hoff]
      · rw [hrunning] at hoff
        rw [hdurable, preference_candidate]
        split
        · exact hoff
        · rename_i hpending
          rw [← ha.preference p (by simpa using hpending), hoff]

/-- A seeded authority whose values in effect are the saved ones. -/
structure Seeded (a : SetupAuthority) : Prop where
  seeded : ∃ a0 snapshot, a = SetupAuthority.seed a0 snapshot
  source : ∀ kind, a.running kind = a.durable.source kind
  preference : ∀ p, a.runningPreference p = a.durable.preference p

theorem Seeded.tracked (h : Seeded a) : Tracked a := by
  obtain ⟨a0, snapshot, hseed⟩ := h.seeded
  have hfailed : a.failedSources = [] := by rw [hseed]; rfl
  refine ⟨by simp [hfailed], by simp [hfailed], ?_, fun p _ => h.preference p⟩
  intro kind hoff hon
  rw [← h.source kind, hoff] at hon
  cases hon

/-- For every sequence of calls, each save succeeding or failing: after every successful save
everything that does not run is off in the saved configuration, exactly when no call saves while a
source other than its own is on in the saved configuration and has a failed ON as its last failed
toggle. -/
theorem off_kept_iff (hseeded : Seeded a) (calls : List (Call × Bool)) :
    (∀ before call written after, calls = before ++ (call, written) :: after →
        Saved (runCalls a before) (runCalls a (before ++ [(call, written)])) →
        OffKept (runCalls a (before ++ [(call, written)]))) ↔
      ∀ before call written after, calls = before ++ (call, written) :: after →
        Saved (runCalls a before) (runCalls a (before ++ [(call, written)])) →
        ∀ kind, ¬ Toggles call kind → ¬ Stranded (runCalls a before) kind := by
  have hstep : ∀ before call written,
      Saved (runCalls a before) (runCalls a (before ++ [(call, written)])) →
      (OffKept (runCalls a (before ++ [(call, written)])) ↔
        ∀ kind, ¬ Toggles call kind → ¬ Stranded (runCalls a before) kind) := by
    intro before call written hsaved
    have hrun : runCalls a (before ++ [(call, written)]) =
        call.apply written (runCalls a before) := by
      simp [runCalls]
    rw [hrun] at hsaved ⊢
    have htracked := tracked_runCalls before hseeded.tracked
    rcases apply_cases written (runCalls a before) call with h | h
    · exact h.offKept_iff htracked
    · exact absurd h.saves hsaved
  constructor
  · intro h before call written after hcalls hsaved
    exact (hstep before call written hsaved).mp (h before call written after hcalls hsaved)
  · intro h before call written after hcalls hsaved
    exact (hstep before call written hsaved).mpr (h before call written after hcalls hsaved)

end Runs

/-! ## A microphone -/

/-- The owner records the microphone, and that is saved. -/
def micOn : SetupAuthority :=
  SetupAuthority.seed
    { root := true
      durable :=
        { mic := false, systemAudio := false, screen := false, startAtLogin := .explicit false,
          wizard := .done, noticeDismissed := true }
      running := fun _ => false
      runningPreference := Preference.default
      failedSources := []
      wizardSaveFailed := false
      pendingWizard := none
      noticeSaveFailed := false
      loginApplyFailed := false
      pendingLogin := none
      pendingPreference := fun _ => none
      preferenceSaveFailed := fun _ => false
      setupReadFailed := false
      saves := [] }
    { mic := true, systemAudio := false, screen := false, desktopActivityAllowed := true,
      desktopActivityThroughPause := false, desktopActivityWindowTitles := true,
      desktopActivityPageAddresses := true, allowedChoice := none, throughPauseChoice := none,
      windowTitlesChoice := none, pageAddressesChoice := none, startAtLogin := .explicit false,
      wizard := .done, noticeDismissed := true, loginApplyFailed := false,
      setupReadFailed := false }

theorem micOn_seeded : Seeded micOn :=
  ⟨⟨_, _, rfl⟩, fun kind => by cases kind <;> rfl, fun p => by cases p <;> rfl⟩

/-- An OFF that fails to save is carried by the save of the wizard step. -/
theorem off_kept_wizard : (runCalls micOn [(.setSource .mic false, false)]).durable.mic = true ∧
      OffKept (runCalls micOn
        [(.setSource .mic false, false), (.setWizardStep .done, true)]) := by
  refine ⟨by decide, ?_⟩
  refine (off_kept_iff micOn_seeded
    [(.setSource .mic false, false), (.setWizardStep .done, true)]).mpr ?_
    [(.setSource .mic false, false)] (.setWizardStep .done) true [] rfl ?_
  · -- No failed toggle in the run is an ON.
    rintro before call written after hcalls - kind - ⟨-, hmem⟩
    match before, hcalls with
    | [], _ => simp [runCalls, micOn, SetupAuthority.seed] at hmem
    | [first], hcalls =>
      obtain ⟨rfl, -⟩ := List.cons.inj hcalls
      have hlist : (runCalls micOn [(.setSource .mic false, false)]).failedSources =
          [⟨.mic, false⟩] := by decide
      rw [hlist] at hmem
      simp at hmem
    | _ :: _ :: before, hcalls => simp at hcalls
  · intro h
    exact absurd (congrArg List.length h) (by decide)

/-- An OFF fails to save, then an ON fails to save, then the wizard step is saved. The microphone
does not run, and it is on in the saved configuration. -/
theorem save_keeps_stranded_source_on :
    let a := runCalls micOn
      [(.setSource .mic false, false), (.setSource .mic true, false), (.setWizardStep .done, true)]
    a.saves.length = 1 ∧ a.running .mic = false ∧ a.durable.mic = true ∧
      a.saves.getLast?.map SetupConfig.mic = some true := by
  decide

end SolstoneWindows.Proofs.Setup
