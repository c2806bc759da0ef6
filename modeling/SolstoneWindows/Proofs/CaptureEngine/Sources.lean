import SolstoneWindows.Proofs.CaptureEngine.Changes

/-!
# A pause stops the sources

`isOn` reads from the history whether the last that was done with a source was to start it. In a
pause no source is on but desktop activity, and that only while it is switched on and kept on
through pauses (`Halted`). Work and switches keep that, because every start of the source asks
first whether it may be made. Two steps do not keep it by themselves: the pause, which stops the
sources before it is done, and the owner's choice that activity is no longer kept on.

There the source has a gap. `follow_desktop_activity` stops the activity only when its state is
`Active`, and the probe reports a fault while its hooks still run
(`through_pause_leaves_activity_on`). `Seen` says that a history has no such moment.

The second part is about sinks. Each start hands out a sink with a generation of its own, and
`Stale` says that a later start or stop of the source has overtaken one. Whatever is written,
encoded or shown comes from an event whose sink is not stale.
-/

set_option autoImplicit false

namespace SolstoneWindows.Proofs.CaptureEngine

open Lib.Effect Relation
open ObserverModel ObserverState
open ObserverSegment ObserverLifecycle
open SolstoneWindows.CaptureEngine

/-! ## What a step does with the sources -/

/-- The act is not about starts, sinks or captured data. -/
def IsAside : Act → Prop
  | .started _ _ => False
  | .stopped _ => False
  | .wrote _ _ _ => False
  | .encoded _ _ => False
  | .previewed _ => False
  | .handed _ _ => False
  | .retired _ => False
  | _ => True

/-- The act makes the sinks of a source that were handed out before it stale. -/
def Outdates (kind : SourceKind) (act : Act) : Prop :=
  act = .retired kind ∨ ∃ generation, act = .handed kind generation

/-- An entry that a step from `s` adds, and the generations it leaves, as far as the sources and
their sinks go. -/
inductive Enters (s : Engine) (generations : SourceKind → Nat) : Entry → (SourceKind → Nat) → Prop
  | aside {entry : Entry} (haside : IsAside entry.act) : Enters s generations entry generations
  | stopped (kind : SourceKind) : Enters s generations (s.entry (.stopped kind)) generations
  | started (kind : SourceKind) (error : Option SourceError)
    (henabled : s.state.isSourceEnabled kind = true) (hmay : MayStart s kind) :
    Enters s generations (s.entry (.started kind error)) generations
  | used {event : CaptureEvent} {act : Act} (hserves : Serves s event)
    (hcarries : Carries event act)
    (hgenerations : generations = s.generations) : Enters s generations (s.entry act) generations
  | renewed {kind : SourceKind} {entry : Entry} (houtdates : Outdates kind entry.act)
    (hhanded : ∀ generation, entry.act = .handed kind generation →
      generation = generations kind + 1) :
    Enters s generations entry (Function.update generations kind (generations kind + 1))

/-- The generations and the history that a step from `s` comes to, entry by entry. -/
inductive SourceStep (s : Engine) : (SourceKind → Nat) → List Entry → Prop
  | refl : SourceStep s s.generations s.history
  | tail {generations generations' : SourceKind → Nat} {history : List Entry} {entry : Entry}
    (h : SourceStep s generations history) (hentry : Enters s generations entry generations') :
    SourceStep s generations' (history ++ [entry])

variable {act : Act} {s1 s0 started s s' : Engine} {generations generations' : SourceKind → Nat}
  {history : List Entry} {entry : Entry} {kind : SourceKind}

section Steps

theorem SourceStep.one (h : Enters s s.generations entry generations) :
    SourceStep s generations (s.history ++ [entry]) := .tail .refl h

theorem SourceStep.add {new : List Entry} (h : SourceStep s generations history)
    (haside : ∀ entry ∈ new, IsAside entry.act) : SourceStep s generations (history ++ new) := by
  induction new generalizing history with
  | nil => simpa using h
  | cons entry new ih =>
    rw [List.append_cons]
    rw [List.forall_mem_cons] at haside
    exact ih (h.tail (.aside haside.1)) haside.2

theorem sourceStep_adds (hgenerations : s'.generations = s.generations) (h : Adds IsAside s s') :
    SourceStep s s'.generations s'.history := by
  obtain ⟨new, hnew, haside⟩ := h
  rw [hgenerations, hnew]
  exact SourceStep.refl.add haside

theorem IsLevel.isAside {K : SegmentKey → Prop} (h : IsLevel K act) : IsAside act := by
  cases act with
  | opened _ _ | left _ | created _ | finalized _ _ _ => exact trivial
  | _ => exact h

theorem isAside_of_isTally (h : IsTally kind act) : IsAside act := by
  cases act with
  | reported _ _ | refused _ _ | failed _ _ | succeeded _ => exact trivial
  | _ => exact h.elim

theorem Reported.sameGenerations (h : Reported kind s s') : s'.generations = s.generations := by
  rw [h.eq]

theorem Reported.aside (h : Reported kind s s') : Adds IsAside s s' :=
  Adds.mono h.history fun _ => isAside_of_isTally

/-- A start, with what the restart policy makes of it. -/
theorem Reported.sourceStep_started (h : Reported kind s1 s') (error : Option SourceError)
    (henabled : s.state.isSourceEnabled kind = true) (hmay : MayStart s kind)
    (hgenerations : s1.generations = s.generations)
    (hhistory : s1.history = (s.record (.started kind error)).history) :
    SourceStep s s'.generations s'.history := by
  obtain ⟨new, hnew, haside⟩ := h.aside
  rw [h.sameGenerations, hgenerations, hnew, hhistory]
  exact (SourceStep.one (.started kind error henabled hmay)).add haside

theorem Work.sourceStep (h : Work s s') : SourceStep s s'.generations s'.history := by
  cases h with
  | noted act hplain =>
    cases act with
    | stopped kind => exact .one (.stopped kind)
    | displayChanged | looked _ _ | opened _ _ | probed _ _ | left _ | encoderOpened _ _ _ _
    | encoderFinalized _ | asked _ | checked _ =>
      exact sourceStep_adds rfl (Adds.one rfl trivial)
    | _ => exact hplain.elim
  | used hserves hcarries => exact .one (.used hserves hcarries rfl)
  | queued _ _ _ | stored _ | unstored _ _ | deferred _ _ _ | unfinalized _ _ _ | finalized _ _ =>
    exact sourceStep_adds rfl (Adds.one rfl trivial)
  | storedAtOnce key line _ | unstoredAtOnce key line _ _ =>
    have hcreated : Adds IsAside s (s.pushActivityRow key line) := Adds.one rfl trivial
    exact sourceStep_adds rfl (Adds.trans hcreated (Adds.one rfl trivial))
  | reported kind state now =>
    have hreported := reported_report (s := s) kind state now
    exact sourceStep_adds hreported.sameGenerations hreported.aside
  | @started kind henabled hmay _ =>
    exact (reported_markSourceSuccess kind).sourceStep_started none henabled hmay rfl rfl
  | @failedToStart kind error now henabled hmay _ =>
    exact (reported_refuse kind error now).sourceStep_started (some error) henabled hmay rfl rfl
  | pumped error henabled hmay =>
    exact .one (.started .desktopActivity error henabled hmay)
  | handed kind =>
    refine .one (.renewed (.inr ⟨_, rfl⟩) ?_)
    intro generation hact
    injection hact with _ hgeneration
    rw [← hgeneration]
    exact Function.update_self kind _ _
  | retired kind => exact .one (.renewed (.inl rfl) fun _ hact => by cases hact)
  | retried _ =>
    unfold Engine.takeRetry
    split <;> exact sourceStep_adds rfl (Adds.one rfl trivial)
  | _ => exact sourceStep_adds rfl (Adds.same rfl)

theorem Switch.aside (h : Switch s s') : Adds IsAside s s' := by
  cases h with
  | disabled now _ => exact (reported_report _ .inactive now).aside
  | _ => exact Adds.same rfl

theorem Switch.sourceStep (h : Switch s s') : SourceStep s s'.generations s'.history := by
  refine sourceStep_adds ?_ h.aside
  cases h with
  | disabled now _ => exact (reported_report _ .inactive now).sameGenerations
  | _ => rfl

theorem Turn.sourceStep (h : Turn s s') : SourceStep s s'.generations s'.history := by
  cases h with
  | recorded held error => exact sourceStep_adds rfl (Adds.one rfl trivial)
  | _ => exact sourceStep_adds rfl (Adds.same rfl)

theorem Change.sourceStep (h : Change s s') : SourceStep s s'.generations s'.history := by
  rcases h with (h | h) | h <;> exact h.sourceStep

end Steps

/-! ## Sinks -/

/-- The entry stores or shows captured data. -/
def IsData (act : Act) : Prop :=
  match act with
  | .wrote _ _ _ => True
  | .encoded _ _ => True
  | .previewed _ => True
  | _ => False

/-- A sink of this generation was handed to the source. -/
def Handed (history : List Entry) (kind : SourceKind) (generation : Nat) : Prop :=
  ∃ entry ∈ history, entry.act = .handed kind generation

/-- A sink was handed to the source before its latest start or stop. -/
def Stale (history : List Entry) (kind : SourceKind) (generation : Nat) : Prop :=
  ∃ before entry after, history = before ++ entry :: after ∧ Handed before kind generation ∧
    Outdates kind entry.act

/-- Data comes from an event that is being handled and whose sink is not stale. -/
def Fresh (history : List Entry) : Prop :=
  ∀ before entry after, history = before ++ entry :: after → IsData entry.act →
    ∃ event, entry.serving = some event ∧ Carries event entry.act ∧
      ¬ Stale before event.kind event.admission.sourceGeneration

section Sinks

variable {generation : Nat}

theorem handed_append_one (h : Handed (history ++ [entry]) kind generation) :
    Handed history kind generation ∨ entry.act = .handed kind generation := by
  obtain ⟨entry', hentry, hact⟩ := h
  rcases List.mem_append.mp hentry with hentry | hentry
  · exact .inl ⟨entry', hentry, hact⟩
  · exact .inr (List.mem_singleton.mp hentry ▸ hact)

theorem stale_append_one (h : Stale (history ++ [entry]) kind generation) :
    Stale history kind generation ∨ Handed history kind generation ∧ Outdates kind entry.act := by
  obtain ⟨before, entry', after, hsplit, hhanded, houtdates⟩ := h
  rcases append_singleton_split hsplit with ⟨rfl, rfl, rfl⟩ | ⟨after', hbefore⟩
  · exact .inr ⟨hhanded, houtdates⟩
  · exact .inl ⟨before, entry', after', hbefore, hhanded, houtdates⟩

theorem Outdates.kind_eq {kind' : SourceKind} (h : Outdates kind act) (h' : Outdates kind' act) :
    kind' = kind := by
  rcases h with rfl | ⟨generation, rfl⟩ <;>
  · rcases h' with h' | ⟨_, h'⟩ <;> cases h'
    rfl

/-- An entry makes sinks stale only by renewing their source. -/
theorem Enters.outdates_cases (h : Enters s generations entry generations') :
    (∀ kind, ¬ Outdates kind entry.act) ∧ generations' = generations ∨
      ∃ kind, Outdates kind entry.act ∧
        (∀ generation, entry.act = .handed kind generation → generation = generations kind + 1) ∧
        generations' = Function.update generations kind (generations kind + 1) := by
  cases h with
  | aside haside =>
    refine .inl ⟨fun kind houtdates => ?_, rfl⟩
    rcases houtdates with h | ⟨_, h⟩ <;> (rw [h] at haside; exact haside)
  | stopped | started =>
    refine .inl ⟨fun kind houtdates => ?_, rfl⟩
    rcases houtdates with h | ⟨_, h⟩ <;> cases h
  | @used event _ _ hcarries =>
    refine .inl ⟨fun kind houtdates => ?_, rfl⟩
    rcases houtdates with rfl | ⟨_, rfl⟩ <;> cases event <;> exact hcarries
  | renewed houtdates hhanded => exact .inr ⟨_, houtdates, hhanded, rfl⟩

/-- The generations of a source go up, so that a stale sink has a lower one than the source. -/
structure Numbered (generations : SourceKind → Nat) (history : List Entry) : Prop where
  handed : ∀ kind generation, Handed history kind generation → generation ≤ generations kind
  stale : ∀ kind generation, Stale history kind generation → generation < generations kind

theorem Enters.numbered (h : Enters s generations entry generations')
    (hs : Numbered generations history) : Numbered generations' (history ++ [entry]) := by
  rcases h.outdates_cases with ⟨hnone, rfl⟩ | ⟨kind, houtdates, hhanded, rfl⟩
  · constructor <;> intro kind generation hold
    · rcases handed_append_one hold with hold | hact
      · exact hs.handed kind generation hold
      · exact absurd (.inr ⟨generation, hact⟩) (hnone kind)
    · rcases stale_append_one hold with hold | ⟨-, houtdates⟩
      · exact hs.stale kind generation hold
      · exact absurd houtdates (hnone kind)
  -- Every sink of this source is stale now, and the number has gone up.
  have hle : ∀ kind', generations kind' ≤
      Function.update generations kind (generations kind + 1) kind' := by
    intro kind'
    rw [Function.update_apply]
    split
    · next hkind => exact hkind ▸ Nat.le_succ _
    · exact Nat.le_refl _
  constructor <;> intro kind' generation hold
  · rcases handed_append_one hold with hold | hact
    · exact Nat.le_trans (hs.handed kind' generation hold) (hle kind')
    · obtain rfl := houtdates.kind_eq (.inr ⟨generation, hact⟩)
      rw [Function.update_self]
      exact Nat.le_of_eq (hhanded generation hact)
  · rcases stale_append_one hold with hold | ⟨hold, houtdates'⟩
    · exact Nat.lt_of_lt_of_le (hs.stale kind' generation hold) (hle kind')
    · obtain rfl := houtdates.kind_eq houtdates'
      rw [Function.update_self]
      exact Nat.lt_succ_of_le (hs.handed kind' generation hold)

/-- Data is from the event that is handled, whose generation is the one its source has. -/
theorem Enters.data (h : Enters s generations entry generations') (hdata : IsData entry.act) :
    ∃ event, entry.serving = some event ∧ Carries event entry.act ∧
      event.admission.sourceGeneration = generations event.kind := by
  cases h with
  | aside haside =>
    generalize entry.act = act at haside hdata
    cases act <;> first | exact haside.elim | exact hdata.elim
  | stopped | started => exact hdata.elim
  | used hserves hcarries hgenerations =>
    exact ⟨_, hserves.serving, hcarries, hgenerations ▸ hserves.current⟩
  | renewed houtdates => rcases houtdates with h | ⟨_, h⟩ <;> (rw [h] at hdata; exact hdata.elim)

theorem Enters.fresh (h : Enters s generations entry generations')
    (hs : Numbered generations history) (hfresh : Fresh history) : Fresh (history ++ [entry]) := by
  intro before entry' after hsplit hdata
  rcases append_singleton_split hsplit with ⟨rfl, rfl, rfl⟩ | ⟨after', hbefore⟩
  · obtain ⟨event, hserving, hcarries, hcurrent⟩ := h.data hdata
    refine ⟨event, hserving, hcarries, fun hstale => ?_⟩
    exact absurd hcurrent (Nat.ne_of_lt (hs.stale _ _ hstale))
  · exact hfresh before entry' after' hbefore hdata

/-- Sinks are numbered and data is fresh, whatever happens. -/
theorem SourceStep.fresh (h : SourceStep s generations history)
    (hs : Numbered s.generations s.history ∧ Fresh s.history) :
    Numbered generations history ∧ Fresh history := by
  induction h with
  | refl => exact hs
  | tail _ hentry ih => exact ⟨hentry.numbered ih.1, hentry.fresh ih.1 ih.2⟩

end Sinks

/-! ## Starts -/

/-- A start in a pause is one of desktop activity, kept on through pauses. -/
def StartsAllowed (history : List Entry) : Prop :=
  ∀ entry ∈ history, ∀ kind error, entry.act = .started kind error →
    entry.state.isSourceEnabled kind = true ∧
      (entry.state.isPaused = true → kind = .desktopActivity ∧ entry.activityThroughPause = true)

/-- In a pause the source is on only if it is desktop activity, switched on and kept on. -/
def Off (s : Engine) (kind : SourceKind) : Prop :=
  s.state.isPaused = true → isOn s.history kind = true →
    kind = .desktopActivity ∧ s.state.isSourceEnabled kind = true ∧ s.activityThroughPause = true

section Starts

/-- What starts a source found it switched on, and was allowed to. -/
theorem Enters.started_cases {error : Option SourceError}
    (h : Enters s generations entry generations') (hact : entry.act = .started kind error) :
    entry = s.entry (.started kind error) ∧ s.state.isSourceEnabled kind = true ∧
      MayStart s kind := by
  cases h with
  | aside haside =>
    rw [hact] at haside
    exact haside.elim
  | stopped => cases hact
  | started kind' error' henabled hmay =>
    cases hact
    exact ⟨rfl, henabled, hmay⟩
  | @used event _ _ hcarries =>
    cases hact
    cases event <;> exact hcarries.elim
  | renewed houtdates =>
    rw [hact] at houtdates
    rcases houtdates with h | ⟨_, h⟩ <;> cases h

theorem SourceStep.startsAllowed (h : SourceStep s generations history)
    (hs : StartsAllowed s.history) : StartsAllowed history := by
  induction h with
  | refl => exact hs
  | tail _ hentry ih =>
    refine List.forall_mem_append.mpr ⟨ih, List.forall_mem_singleton.mpr fun kind error hact => ?_⟩
    obtain ⟨rfl, henabled, hmay⟩ := hentry.started_cases hact
    exact ⟨henabled, hmay⟩

theorem Adds.isOn (h : Adds IsAside s s') (kind : SourceKind) :
    isOn s'.history kind = isOn s.history kind := by
  obtain ⟨new, hnew, haside⟩ := h
  rw [hnew]
  clear hnew
  generalize s.history = history
  induction new generalizing history with
  | nil => rw [List.append_nil]
  | cons entry new ih =>
    rw [List.forall_mem_cons] at haside
    rw [List.append_cons, ih haside.2, isOn_append]
    unfold turnsOn
    split
    · next hact => rw [hact] at haside; exact haside.1.elim
    · next hact => rw [hact] at haside; exact haside.1.elim
    · rfl

/-- A source that is on after a step was on, or may be started. -/
theorem SourceStep.isOn_cases (h : SourceStep s generations history)
    (hon : isOn history kind = true) :
    isOn s.history kind = true ∨ s.state.isSourceEnabled kind = true ∧ MayStart s kind := by
  induction h with
  | refl => exact .inl hon
  | tail _ hentry ih =>
    rw [isOn_append] at hon
    unfold turnsOn at hon
    split at hon
    · next hact =>
      split at hon
      · next hkind => exact .inr (hkind ▸ (hentry.started_cases hact).2)
      · exact ih hon
    · split at hon
      · cases hon
      · exact ih hon
    · exact ih hon

theorem off_of_isOn (h : isOn s.history kind = false) : Off s kind := by
  intro _ hon
  rw [h] at hon
  cases hon

theorem off_of_unpaused (h : s.state.isPaused = false) : Off s kind := by
  intro hpaused
  rw [h] at hpaused
  cases hpaused

theorem Work.off (h : Work s s') (hs : Off s kind) : Off s' kind := by
  intro hpaused hon
  have hsetup := h.sameSetup
  rw [hsetup.isPaused] at hpaused
  rw [hsetup.isSourceEnabled, hsetup.through]
  rcases h.sourceStep.isOn_cases hon with hon | ⟨henabled, hmay⟩
  · exact hs hpaused hon
  · obtain ⟨hkind, hthrough⟩ := hmay hpaused
    exact ⟨hkind, henabled, hthrough⟩

theorem Path.off (h : Path s s') (hs : Off s kind) : Off s' kind :=
  reflTransGen_invariant (I := (Off · kind)) (fun _ _ hs hwork => hwork.off hs) hs h.works

/-- A switch that goes off finds its source stopped. -/
theorem Switch.off (h : Switch s s') (hs : Off s kind) : Off s' kind := by
  intro hpaused hon
  rw [h.aside.isOn] at hon
  cases h with
  | enabled kind' =>
    have hpaused' : s.state.isPaused = true := by
      rw [← hpaused]
      cases kind' <;> rfl
    obtain ⟨hkind, henabled, hthrough⟩ := hs hpaused' hon
    refine ⟨hkind, ?_, hthrough⟩
    subst hkind
    cases kind' with
    | desktopActivity => rfl
    | _ => exact henabled
  | @disabled kind' now hstopped =>
    have hreported := reported_report (s := (((s.unplan kind').clearSourcePreview kind').reduce
      (.sourceEnabled kind' false)).clearSourcePreview kind') kind' .inactive now
    have hpaused' : s.state.isPaused = true := by
      rw [← hpaused, hreported.sameSetup.isPaused]
      cases kind' <;> rfl
    obtain ⟨hkind, henabled, hthrough⟩ := hs hpaused' hon
    have hother : kind' ≠ kind := by
      rintro rfl
      rw [hstopped] at hon
      cases hon
    refine ⟨hkind, ?_, ?_⟩
    · rw [hreported.sameSetup.isSourceEnabled]
      subst hkind
      cases kind' with
      | desktopActivity => exact absurd rfl hother
      | _ => exact henabled
    · rw [hreported.sameSetup.through]
      exact hthrough
  | allowed _ => exact hs hpaused hon

theorem CalmPath.off (h : CalmPath s s') (hs : Off s kind) : Off s' kind := by
  have hsteps := h.steps
  clear h
  induction hsteps with
  | refl => exact hs
  | tail _ hlast ih =>
    rcases hlast with hwork | hswitch
    · exact hwork.off ih
    · exact hswitch.off ih

/-- A source that is off stays off where nothing but the pause changes. -/
theorem Off.of_paused (hs : Off s kind) (hpaused : s.state.isPaused = true)
    (hhistory : s'.history = s.history)
    (henabled : s'.state.isSourceEnabled kind = s.state.isSourceEnabled kind)
    (hthrough : s'.activityThroughPause = s.activityThroughPause) : Off s' kind := by
  intro _ hon
  rw [hhistory] at hon
  rw [henabled, hthrough]
  exact hs hpaused hon

end Starts

/-! ## Pauses -/

section Pauses

/-- A pause stops the three sources, and desktop activity unless it is kept on. -/
theorem pauseCapture_off : Gives s pauseCapture fun _ s' => ∀ kind, Off s' kind := by
  refine Runs.modify_bind (Runs.modify_bind (Runs.modify_bind ?_))
  generalize hs3 : ((s.record (.stopped .screen)).record (.stopped .systemAudio)).record
    (.stopped .mic) = s3
  have hoff : ∀ kind, kind ≠ .desktopActivity → Off s3 kind := by
    intro kind hkind
    refine off_of_isOn ?_
    subst hs3
    show isOn (s.history ++ [_] ++ [_] ++ [_]) kind = false
    rw [isOn_append, isOn_append, isOn_append]
    cases kind with
    | screen | systemAudio | mic => rfl
    | desktopActivity => exact absurd rfl hkind
  refine Runs.bind (rotateSegments_path true s3) fun _ s4 h4 => ?_
  refine Runs.get_bind (Runs.bind (R := fun _ s5 => ∀ kind, Off s5 kind) ?_ ?_)
  · refine Runs.onlyIf (fun _ => ?_) fun hthrough kind => ?_
    · refine Runs.bind (closeActivity_path s4) fun _ s5 h5 => Runs.modify fun kind => ?_
      by_cases hkind : kind = .desktopActivity
      · subst hkind
        exact off_of_isOn (isOn_stopped _)
      · have hstop : Work s5 (s5.record (.stopped .desktopActivity)) := .noted _ trivial
        exact hstop.off (h5.off (h4.off (hoff kind hkind)))
    · by_cases hkind : kind = .desktopActivity
      · subst hkind
        simp only [Bool.not_eq_false', Engine.activityRunsThroughPause,
          Bool.and_eq_true] at hthrough
        exact fun _ _ => ⟨rfl, hthrough.2, hthrough.1⟩
      · exact h4.off (hoff kind hkind)
  · intro _ s5 h5
    have hrest : Stays Path (do
        drainEvents
        Prog.modify fun s : Engine => { s with writeStalled := false }
        attemptClearStorage
        SolstoneWindows.CaptureEngine.clearPreviews
        foldSourceStates) :=
      drainEvents_path.bind fun _ => (Stays.modify fun _ => .single .unstalled id).bind fun _ =>
        attemptClearStorage_path.bind fun _ => clearPreviews_path.bind fun _ =>
          foldSourceStates_path
    exact (hrest s5).weaken fun _ s6 h6 kind => h6.off (h5 kind)

/-- What is recorded of the pause has nothing to do with the sources. -/
theorem Records.off {ownerBefore : Option OwnerPause} (h : Records ownerBefore s s')
    (hs : Off s kind) : Off s' kind := by
  cases h with
  | same _ | unkept _ => exact hs
  | recorded error _ =>
    intro hpaused hon
    exact hs hpaused (((Adds.one rfl trivial).isOn kind).symm.trans hon)

/-- A change of the pause leaves only what a pause allows. -/
theorem settlePause_off (wasPaused restart : Bool) (ownerBefore : Option OwnerPause)
    (hwas : wasPaused = true → ∀ kind, Off s kind) :
    Gives s (settlePause wasPaused restart ownerBefore)
      fun _ s' => ∀ kind, Off s' kind := by
  by_cases hfirst : s.state.phase = .paused ∧ wasPaused = false
  · refine Runs.get_bind (Runs.bind (Runs.onlyIf (fun _ => pauseCapture_off) fun h => ?_) ?_)
    · simp [hfirst.1, hfirst.2] at h
    intro _ s1 h1
    refine Runs.bind (R := fun _ s2 => s1 = s2) (Runs.onlyIf (fun h => ?_) fun _ => rfl) ?_
    · simp [hfirst.1] at h
    intro _ s2 h2
    subst h2
    exact (recordOwnerPause_spec ownerBefore).weaken fun _ s3 h3 kind => h3.off (h1 kind)
  · -- the pause is not a new one: there is none, or it stopped the sources before
    have hs : ∀ kind, Off s kind := by
      intro kind
      by_cases hpaused : s.state.isPaused = true
      · refine hwas ?_ kind
        simpa [phase_paused_iff.mpr hpaused] using hfirst
      · exact off_of_unpaused (Bool.not_eq_true _ ▸ hpaused)
    refine (settlePause_records wasPaused restart ownerBefore).weaken fun _ s' h kind => ?_
    obtain ⟨⟨mid, hpath, hrecords⟩, -⟩ := h
    exact hrecords.off (hpath.off (hs kind))

theorem autoResumeIfDue_off (hs : ∀ kind, Off s kind) :
    Gives s autoResumeIfDue fun _ s' => ∀ kind, Off s' kind := by
  refine ask_bind fun now => ?_
  refine Runs.get_bind (Runs.onlyIf (fun hdue => Runs.modify_bind ?_) fun _ => hs)
  have hpaused : s.state.isPaused = true := by
    cases howner : s.state.ownerPause with
    | none =>
      simp [StateMachine.pauseDueToExpire, howner] at hdue
    | some pause => simp [StateMachine.isPaused, howner]
  exact settlePause_off true false _ fun _ kind =>
    (hs kind).of_paused hpaused rfl (by cases kind <;> rfl) rfl

/-- A command on the pause leaves the sources alone. -/
theorem requestPause_off (command : EngineCommand) {wasPaused : Bool}
    (hwas : wasPaused = true → s.state.isPaused = true) (hs : ∀ kind, Off s kind) :
    Gives s (requestPause command wasPaused)
      fun _ s' => wasPaused = true → ∀ kind, Off s' kind := by
  have hreduce : ∀ event : AppEvent,
      (∀ kind, (s.reduce event).state.isSourceEnabled kind = s.state.isSourceEnabled kind) →
      wasPaused = true → ∀ kind, Off (s.reduce event) kind := by
    intro event henabled hpaused kind
    exact (hs kind).of_paused (hwas hpaused) rfl (henabled kind) rfl
  refine requestPause_gives command (fun reason _ _ => hreduce _ fun kind => ?_) ?_ ?_
    fun _ hpath _ kind => hpath.off (hs kind)
  · cases reason <;> cases kind <;> rfl
  · exact hreduce _ fun kind => by cases kind <;> rfl
  · exact hreduce _ fun kind => by cases kind <;> rfl

theorem applyPauseCommand_off (command : EngineCommand) (hs : ∀ kind, Off s kind) :
    Gives s (applyPauseCommand command) fun _ s' => ∀ kind, Off s' kind := by
  refine Runs.get_bind (Runs.bind (requestPause_off command (fun h => ?_) hs) ?_)
  · exact phase_paused_iff.mp (beq_iff_eq.mp h)
  · exact fun _ s1 h1 => settlePause_off _ _ _ h1

end Pauses

/-! ## Activity through pauses -/

/-- When activity that is on is no longer kept on through a pause, it is found active. -/
def Seen (history : List Entry) : Prop :=
  ∀ before entry after, history = before ++ entry :: after → ∀ state, entry.act = .checked state →
    entry.activityThroughPause = false → isOn before .desktopActivity = true → state = .active

theorem Seen.of_append {new : List Entry} (h : Seen (history ++ new)) : Seen history := by
  intro before entry after hsplit
  refine h before entry (after ++ new) ?_
  rw [hsplit]
  simp

section Through

theorem SourceStep.seen (h : SourceStep s generations history) (hseen : Seen history) :
    Seen s.history := by
  induction h with
  | refl => exact hseen
  | tail _ _ ih => exact ih hseen.of_append

/-- Histories only grow. -/
theorem Journey.seen (h : Journey s s') (hseen : Seen s'.history) : Seen s.history := by
  induction h with
  | refl => exact hseen
  | tail _ hlast ih => exact ih (hlast.sourceStep.seen hseen)

theorem disableSource_off (kind : SourceKind) :
    Gives s (disableSource kind) fun _ s' => isOn s'.history kind = false := by
  refine Runs.modify_bind (Runs.bind (stopSource_off kind) fun _ s1 h1 => ?_)
  exact (switchOff_spec h1).weaken fun _ s2 h2 => (h2.1.aside.isOn kind).trans h1

/-- In a pause, activity that is not kept on is stopped when it is found active. -/
theorem followInPause_off (hthrough : s.activityThroughPause = false) :
    Gives s followInPause fun _ s' => Seen s'.history → Off s' .desktopActivity := by
  refine request_bind fun state => ?_
  refine Runs.get_bind ?_
  rw [show (s.record (.checked state)).activityThroughPause = false from hthrough]
  refine Runs.onlyIf (fun _ => ?_) fun hactive hseen => ?_
  · exact (stopSource_off .desktopActivity).weaken fun _ s2 h2 _ => off_of_isOn h2
  · -- the source was not stopped, so it was not on
    refine off_of_isOn ?_
    rw [(Adds.one rfl trivial).isOn]
    by_contra hon
    rw [Bool.not_eq_false] at hon
    have hstate := hseen s.history (s.entry (.checked state)) [] rfl state rfl hthrough hon
    subst hstate
    cases hactive

/-- Activity follows the owner's choice that it is no longer kept on through pauses. -/
theorem followDesktopActivity_off (hrun : s.state.runRequested = true)
    (hthrough : s.activityThroughPause = false)
    (hon : s.state.isPaused = true → isOn s.history .desktopActivity = true →
      s.state.isSourceEnabled .desktopActivity = true) :
    Gives s followDesktopActivity
      fun _ s' => Seen s'.history → Off s' .desktopActivity := by
  by_cases henabled : s.state.isSourceEnabled .desktopActivity = true
  · refine Runs.get_bind ?_
    dsimp only
    rw [henabled, hrun]
    split
    · next hwanted =>
      -- the screen is off, or activity is not allowed: the source is switched off
      have hoff : desktopActivityRuns s.activityAllowed (s.state.isSourceEnabled .screen)
          s.activityThroughPause = false := by simpa using hwanted
      rw [hoff]
      exact (disableSource_off .desktopActivity).weaken fun _ s1 h1 _ => off_of_isOn h1
    · refine Runs.onlyIf (fun _ => followInPause_off hthrough) fun hskip _ => ?_
      next hwanted =>
      have hpaused : s.state.phase ≠ .paused := by
        intro hpaused
        simp_all
      exact off_of_unpaused (by simpa [phase_paused_iff] using hpaused)
  · have hs : Off s .desktopActivity := fun hpaused hon' => absurd (hon hpaused hon') henabled
    exact (followDesktopActivity_calm s).weaken fun _ s1 h1 _ => h1.off hs

theorem setDesktopActivityThroughPause_off (enabled : Bool) (hrun : s.state.runRequested = true)
    (hs : ∀ kind, Off s kind) :
    Gives s (setDesktopActivityThroughPause enabled)
      fun _ s' => Seen s'.history → ∀ kind, Off s' kind := by
  refine Runs.modify_bind ?_
  -- every other source is off as before
  have hothers : ∀ kind, kind ≠ .desktopActivity →
      Off { s with activityThroughPause := enabled } kind :=
    fun kind hkind hpaused hon => absurd (hs kind hpaused hon).1 hkind
  have hactivity : Gives { s with activityThroughPause := enabled }
      followDesktopActivity fun _ s' => Seen s'.history → Off s' .desktopActivity := by
    cases enabled with
    | true =>
      have hkept : Off { s with activityThroughPause := true } .desktopActivity :=
        fun hpaused hon => ⟨rfl, (hs .desktopActivity hpaused hon).2.1, rfl⟩
      exact (followDesktopActivity_calm _).weaken fun _ s1 h1 _ => h1.off hkept
    | false =>
      exact followDesktopActivity_off hrun rfl
        fun hpaused hon => (hs .desktopActivity hpaused hon).2.1
  have hboth := (Runs.and hactivity (followDesktopActivity_calm _)).loosen fun _ _ => trivial
  refine Runs.bind hboth fun _ s1 h1 => ?_
  refine (foldSourceStates_path s1).weaken fun _ s2 h2 hseen kind => h2.off ?_
  by_cases hkind : kind = .desktopActivity
  · subst hkind
    exact h1.1 (h2.journey.seen hseen)
  · exact h1.2.off (hothers kind hkind)

end Through

/-! ## Before the start -/

/-- Nothing was started or stopped. -/
def SameStarts (s s' : Engine) : Prop := ∀ kind, isOn s'.history kind = isOn s.history kind

instance : IsPreorder Engine SameStarts where
  refl _ _ := rfl
  trans _ _ _ h h' kind := (h' kind).trans (h kind)

theorem ask_sameStarts {α : Type} (field : Reading → α) : Stays SameStarts (ask field) :=
  Stays.call fun _ _ _ => rfl

theorem modify_sameStarts {change : Engine → Engine} (h : ∀ s, (change s).history = s.history) :
    Stays SameStarts (Prog.modify change : EngineProg Unit) :=
  Stays.modify fun s kind => by rw [h s]

theorem setSourceChoices_sameStarts (setup : SetupSnapshot) :
    Stays SameStarts (setSourceChoices setup) :=
  (modify_sameStarts fun _ => by rfl).bind fun _ =>
    (modify_sameStarts fun _ => by rfl).bind fun _ =>
    (modify_sameStarts fun _ => by rfl).bind fun _ =>
    (modify_sameStarts fun _ => by rfl).bind fun _ =>
    (modify_sameStarts fun _ => by rfl).bind fun _ s => (closeActivity_level s).weaken
      fun _ _ h => (Adds.mono h.history fun _ => IsLevel.isAside).isOn

theorem holdOwnerPauseIn_sameStarts : Stays SameStarts holdOwnerPauseIn := by
  refine (ask_sameStarts _).bind fun now => (ask_sameStarts _).bind fun held =>
    Stays.bind ?_ fun _ => modify_sameStarts fun _ => by rfl
  unfold restorePause
  cases held with
  | none => exact Stays.pure ()
  | some held =>
    dsimp only
    split
    · exact modify_sameStarts fun _ => by rfl
    · exact Stays.bind (Stays.call fun _ _ => (Adds.one rfl trivial).isOn) fun _ => Stays.pure ()

/-- Before the start no source is on. -/
theorem Prepared.isOn (h : Prepared s) (kind : SourceKind) :
    isOn s.history kind = false := by
  induction h with
  | new config deferred artifactId => rw [new_history]; rfl
  | @choose s s' setup _ hset ih =>
    exact (hset.of_runs (setSourceChoices_sameStarts setup s) kind).trans ih
  | @hold s s' _ hhold ih => exact (hhold.of_runs (holdOwnerPauseIn_sameStarts s) kind).trans ih

/-! ## The run -/

/-- The engine was started, and what is on in a pause may be. -/
structure Halted (s : Engine) : Prop where
  run : s.state.runRequested = true
  off : ∀ kind, Off s kind

section Run

theorem SameSetup.runRequested (h : SameSetup s s') :
    s'.state.runRequested = s.state.runRequested := by
  have hview : (Proofs.CaptureEngine.switches s'.state).runRequested =
      (Proofs.CaptureEngine.switches s.state).runRequested := by rw [h.switches]
  exact hview

/-- Once started, an engine is to run. -/
theorem Change.run (h : Change s s') (hs : s.state.runRequested = true) :
    s'.state.runRequested = true := by
  have henabled : ∀ (s : Engine) kind enabled, s.state.runRequested = true →
      (s.reduce (.sourceEnabled kind enabled)).state.runRequested = true := by
    intro s kind enabled hs
    cases kind <;> exact hs
  rcases h with (h | h) | h
  · rw [h.sameSetup.runRequested]
    exact hs
  · cases h with
    | enabled kind => exact henabled s kind true hs
    | @disabled kind now _ =>
      rw [(reported_report kind .inactive now).sameSetup.runRequested]
      exact henabled _ kind false hs
    | allowed _ => exact hs
  · cases h with
    | chosen kind enabled => exact henabled s kind enabled hs
    | paused reason expires => cases reason <;> exact hs
    | requested => rfl
    | _ => exact hs

theorem start_halted (hs : ∀ kind, isOn s.history kind = false) :
    Gives s start fun _ => Halted := by
  refine Runs.modify_bind ?_
  have hpath : Stays Path (do adoptCurrentSegment; startSources; foldSourceStates) :=
    adoptCurrentSegment_path.bind fun _ => (path_of_renews startSources_renews).bind
      fun _ => foldSourceStates_path
  refine (hpath _).weaken fun _ s' h => ⟨?_, fun kind => h.off (off_of_isOn (hs kind))⟩
  rw [h.sameSetup.runRequested]
  rfl

theorem operation_off (operation : Operation) (hs : Halted s) :
    Gives s operation.run fun _ s' => Seen s'.history → ∀ kind, Off s' kind := by
  have hpath : ∀ {p : EngineProg Unit} {s : Engine}, Stays Path p → (∀ kind, Off s kind) →
      Gives s p fun _ s' => ∀ kind, Off s' kind :=
    fun h hs => (h _).weaken fun _ _ h kind => h.off (hs kind)
  have htick : ∀ s : Engine, (∀ kind, Off s kind) → Gives s tick
      fun _ s' => ∀ kind, Off s' kind := by
    intro s hs
    refine Runs.bind (autoResumeIfDue_off hs) fun _ s1 h1 => hpath ?_ h1
    exact (rotateSegments_path false).bind fun _ => serviceStorage_path.bind fun _ =>
      retryDueSources_path.bind fun _ => pumpDesktopActivity_path.bind
      fun _ => foldSourceStates_path
  cases operation with
  | pump =>
    refine Runs.weaken (Runs.bind (hpath drainEvents_path hs.off) fun _ s1 h1 => htick s1 h1) ?_
    exact fun _ _ h _ => h
  | tick => exact (htick s hs.off).weaken fun _ _ h _ => h
  | event event => exact (hpath (handleEvent_path event) hs.off).weaken fun _ _ h _ => h
  | command command =>
    refine Runs.bind (rotateSegments_path false s) fun _ s1 h1 => ?_
    have hoff : ∀ kind, Off s1 kind := fun kind => h1.off (hs.off kind)
    have hpause := (applyPauseCommand_off command hoff).weaken fun _ s' h (_ : Seen s'.history) => h
    cases command with
    | setSourceEnabled kind enabled =>
      exact (setSourceEnabled_calm kind enabled s1).weaken fun _ _ h _ kind => h.off (hoff kind)
    | setDesktopActivityPreferences =>
      exact (hpath closeActivity_path hoff).weaken fun _ _ h _ => h
    | setDesktopActivityThroughPause enabled =>
      have hrun : s1.state.runRequested = true := h1.sameSetup.runRequested.trans hs.run
      exact setDesktopActivityThroughPause_off enabled hrun hoff
    | clearPreviews => exact (hpath clearPreviews_path hoff).weaken fun _ _ h _ => h
    | _ => exact hpause

theorem EngineStep.journey (h : EngineStep s s') : Journey s s' := by
  obtain ⟨operation, hreturns⟩ := h
  exact (hreturns.of_runs (operation_service operation s)).journey

theorem EngineStep.halted (h : EngineStep s s') (hs : Halted s) (hseen : Seen s'.history) :
    Halted s' := by
  refine ⟨?_, ?_⟩
  · exact reflTransGen_invariant (I := fun s : Engine => s.state.runRequested = true)
      (fun _ _ hrun hchange => hchange.run hrun) hs.run h.journey
  · obtain ⟨operation, hreturns⟩ := h
    exact hreturns.of_runs (operation_off operation hs) hseen

/-- The engine before its start has come there by calls, too. -/
theorem Prepared.called (h : Prepared s) :
    ∃ config deferred artifactId, ReflTransGen Called
      (Engine.new config deferred artifactId) s := by
  induction h with
  | new config deferred artifactId => exact ⟨config, deferred, artifactId, .refl⟩
  | choose setup _ hset ih =>
    obtain ⟨config, deferred, artifactId, hrun⟩ := ih
    exact ⟨config, deferred, artifactId, hrun.tail ⟨.setSourceChoices setup, hset⟩⟩
  | hold _ hhold ih =>
    obtain ⟨config, deferred, artifactId, hrun⟩ := ih
    exact ⟨config, deferred, artifactId, hrun.tail ⟨.holdOwnerPauseIn, hhold⟩⟩

theorem EngineStep.called (h : EngineStep s s') : Called s s' := by
  obtain ⟨operation, hreturns⟩ := h
  exact ⟨.operate operation, hreturns⟩

/-- What every change keeps of a new engine holds in every run. -/
theorem invariant_of_new {I : Engine → Prop} (hstep : ∀ s s', Change s s' → I s → I s')
    (hnew : ∀ config deferred artifactId, I (Engine.new config deferred artifactId))
    (hprepared : Prepared s0) (hstart : Returns start s0 started)
    (hrun : ReflTransGen EngineStep started s) : I s := by
  obtain ⟨config, deferred, artifactId, hcalled⟩ := hprepared.called
  have hall : ReflTransGen Called (Engine.new config deferred artifactId) s :=
    (hcalled.tail ⟨.start, hstart⟩).trans (ReflTransGen.mono (fun _ _ h => h.called) _ _ hrun)
  exact invariant_of_change hstep (hnew _ _ _) hall

/-- What every change keeps of an engine with an empty history holds in every run. -/
theorem invariant_of_prepared {I : Engine → Prop} (hstep : ∀ s s', Change s s' → I s → I s')
    (hempty : ∀ s : Engine, s.history = [] → I s) (hprepared : Prepared s0)
    (hstart : Returns start s0 started) (hrun : ReflTransGen EngineStep started s) : I s :=
  invariant_of_new hstep (fun _ _ _ => hempty _ (new_history _ _ _)) hprepared hstart hrun

end Run

/-- From the start on, after every operation: in a pause, screen, system audio and microphone are
off and were not started in it, and desktop activity is on only while it is switched on and kept
on through pauses. Nothing that came through a sink from before the latest stop or start of its
source is written, encoded or shown. The condition is that activity, when the owner ends that it is
kept on in a pause, is found active if it is on. -/
theorem pause_stops_capture (s0 started s : Engine) (hprepared : Prepared s0)
    (hstart : Returns start s0 started) (hrun : ReflTransGen EngineStep started s)
    (hseen : Seen s.history) : (s.state.phase = .paused → ∀ kind, isOn s.history kind = true →
      kind = .desktopActivity ∧ s.state.isSourceEnabled kind = true ∧
        s.activityThroughPause = true) ∧
    StartsAllowed s.history ∧ Fresh s.history := by
  refine ⟨fun hpaused kind => ?_, ?_, ?_⟩
  · have hhalted : Halted s := by
      have hstarted : Halted started := hstart.of_runs (start_halted hprepared.isOn)
      clear hpaused
      induction hrun with
      | refl => exact hstarted
      | tail hprevious hlast ih => exact hlast.halted (ih (hlast.journey.seen hseen)) hseen
    exact hhalted.off kind (phase_paused_iff.mp hpaused)
  · exact invariant_of_prepared (I := fun s => StartsAllowed s.history)
      (fun _ _ h => h.sourceStep.startsAllowed) (fun s hs => by simp [hs, StartsAllowed])
      hprepared hstart hrun
  · refine (invariant_of_prepared 
      (I := fun s => Numbered s.generations s.history ∧ Fresh s.history)
      (fun _ _ h => h.sourceStep.fresh) (fun s hs => ?_) hprepared hstart hrun).2
    refine ⟨⟨?_, ?_⟩, ?_⟩
    · simp [hs, Handed]
    · simp [hs, Stale]
    · simp [hs, Fresh]

/-! ## Activity that is left on -/

/-- Screen and desktop activity are on, and activity is kept on through pauses. -/
def activitySetup : SetupSnapshot where
  screen := true
  systemAudio := false
  mic := false
  desktopActivityAllowed := true
  desktopActivityThroughPause := true
  desktopActivity := true

/-- The engine before its start. -/
def activityEngine : Engine := (setSourceChoices activitySetup).final [] (Engine.new {} [] "a")

def activityStarted : Engine := start.final [] activityEngine

/-- The owner's pause, with activity on. -/
def activityPaused : Engine := (applyCommand (.pause .operator none)).final [] activityStarted

/-- The owner ends that activity is kept on through the pause, while it is in this state. -/
def activityFound (state : SourceState) : Engine :=
  (applyCommand (.setDesktopActivityThroughPause false)).final
    (List.replicate 30 { Reading.quiet with state := state }) activityPaused

/-- A probe with a passing fault is not stopped: in the pause, activity is on and is not to be. -/
theorem through_pause_leaves_activity_on : (start [] activityEngine).1 = .ok () ∧
      (applyCommand (.pause .operator none) [] activityStarted).1 = .ok () ∧
      (applyCommand (.setDesktopActivityThroughPause false)
        (List.replicate 30 { Reading.quiet with state := .faulted .unknown "" })
        activityPaused).1 = .ok () ∧
      (activityFound (.faulted .unknown "")).state.phase = .paused ∧
      isOn (activityFound (.faulted .unknown "")).history .desktopActivity = true ∧
      (activityFound (.faulted .unknown "")).activityThroughPause = false := by
  decide +kernel

/-- A probe that is found active is stopped. -/
theorem pause_stops_capture_active : (activityFound .active).state.phase = .paused ∧
      isOn activityPaused.history .desktopActivity = true ∧
      isOn (activityFound .active).history .desktopActivity = false := by
  have hprepared : Prepared activityEngine :=
    .choose activitySetup (.new {} [] "a") ⟨[], by decide +kernel, rfl⟩
  have hrun : ReflTransGen EngineStep activityStarted (activityFound .active) :=
    .tail (.single ⟨.command (.pause .operator none), [], by decide +kernel, rfl⟩)
      ⟨.command (.setDesktopActivityThroughPause false), _, by decide +kernel, rfl⟩
  have hall : ((activityFound .active).history.all fun entry =>
      match entry.act with
      | .checked state => state == .active
      | _ => true) = true := by decide +kernel
  have hseen : Seen (activityFound .active).history := by
    intro before entry after hsplit state hact _ _
    have hentry := List.all_eq_true.mp hall entry (by rw [hsplit]; simp)
    rw [hact] at hentry
    exact beq_iff_eq.mp hentry
  have hpaused : (activityFound .active).state.phase = .paused := by decide +kernel
  have hstops :=
    (pause_stops_capture activityEngine activityStarted (activityFound .active) hprepared
    ⟨[], by decide +kernel, rfl⟩ hrun hseen).1 hpaused .desktopActivity
  refine ⟨hpaused, by decide +kernel, ?_⟩
  by_contra hon
  rw [Bool.not_eq_false] at hon
  have hthrough : (activityFound .active).activityThroughPause = false := by decide +kernel
  rw [(hstops hon).2.2] at hthrough
  cases hthrough

end SolstoneWindows.Proofs.CaptureEngine
