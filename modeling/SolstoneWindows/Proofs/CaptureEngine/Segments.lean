import SolstoneWindows.Proofs.CaptureEngine.Rotation

/-!
# An observing engine has a segment open

A start leaves a sound engine, and every operation keeps it sound, as long as no rotation found a
running engine with all its enabled sources waiting (`observing_has_segment`). After such a rotation
the engine can observe without a segment (`pump_observing_without_segment`).
-/

set_option autoImplicit false

namespace SolstoneWindows.Proofs.CaptureEngine

open Lib.Effect
open ObserverModel ObserverState
open ObserverSegment ObserverLifecycle
open SolstoneWindows.CaptureEngine

section Segments

variable {s s' : Engine}

theorem restorePause_spec (now : Nat) (held : Option HeldPause) (hs : Settled s) :
    Gives s (restorePause now held) fun _ => Settled := by
  unfold restorePause
  cases held with
  | none => exact Runs.pure hs
  | some held =>
    dsimp only
    split
    · exact Runs.modify (settled_requestedPause _ _ hs)
    · refine request_bind fun error => ?_
      exact Runs.pure ⟨hs.1, hs.2⟩

theorem Prepared.settled (h : Prepared s) : Settled s := by
  induction h with
  | new config deferred artifactId =>
    unfold Engine.new
    dsimp only
    split <;> exact ⟨rfl, rfl⟩
  | @choose s s' setup _ hset ih =>
    refine hset.of_runs ?_
    refine Runs.modify_bind (Runs.modify_bind (Runs.modify_bind (Runs.modify_bind
      (Runs.modify_bind ((closeActivity_path _).weaken fun _ _ h => h.keeps.settled ?_)))))
    have hfirst := settled_sourceEnabled .mic setup.mic (settled_sourceEnabled .systemAudio
      setup.systemAudio (settled_sourceEnabled .screen setup.screen ih))
    exact settled_sourceEnabled .desktopActivity setup.desktopActivity ⟨hfirst.1, hfirst.2⟩
  | @hold s s' _ hhold ih =>
    refine hhold.of_runs ?_
    refine Runs.bind (ask_spec _) fun now s1 h1 => Runs.bind (ask_spec _) fun held s2 h2 => ?_
    subst h1 h2
    refine Runs.bind (restorePause_spec now held ih) fun _ s3 h3 => ?_
    exact Runs.modify ⟨h3.1, h3.2⟩

/-- One operation keeps a sound engine sound. -/
theorem EngineStep.sound (hstep : EngineStep s s') (hs : Sound s) : Sound s' := by
  obtain ⟨operation, hreturns⟩ := hstep
  exact (hreturns.of_runs (operation_service operation s)).sound hs

/-- The chunk was written, perhaps with an error. -/
def Wrote (segment : OpenSegment) (chunk : CaptureChunk) (s : Engine) : Prop :=
  ∃ entry ∈ s.history, ∃ error, entry.act = .wrote segment.key (segment.place chunk) error

/-- A chunk that reaches an open segment is handed to its file system. -/
theorem writeAudioChunk_writes {segment : OpenSegment} (hsegment : s.currentSegment = some segment)
    (chunk : CaptureChunk) :
    Gives s (writeAudioChunk chunk) (fun _ => Wrote segment chunk) False := by
  refine Runs.get_bind ?_
  rw [hsegment]
  refine Runs.bind (R := fun _ => Wrote segment chunk) (Runs.call trivial
    fun reading _ => ⟨_, List.mem_append_right _ List.mem_cons_self, reading.detail, rfl⟩) ?_
  intro error s1 h1
  cases error with
  | some detail => exact Runs.modify_bind (Runs.modify h1)
  | none =>
    refine Runs.get_bind (Runs.onlyIf (fun _ => Runs.modify_bind (Runs.modify ?_)) fun _ => h1)
    unfold Engine.attemptClearStorage
    split <;> exact h1

/-- The end of `handle_event`, for an event that was admitted. -/
def useServed (event : CaptureEvent) : EngineProg Unit := do
  useEvent event
  Prog.modify fun s => { s with serving := none }

theorem updateAudioPreview_keeps_segment (kind : SourceKind) (admission : InputAdmission)
    (chunk : CaptureChunk) :
    Runs (fun _ => True) s (updateAudioPreview kind admission chunk)
      (fun _ s' => s'.currentSegment = s.currentSegment) (fun _ _ => False) fun _ => False := by
  refine Runs.bind (R := fun _ s' => s' = s) (Runs.call trivial fun _ _ => rfl) ?_
  intro wanted s1 h1
  subst h1
  refine Runs.onlyIf (fun _ => ?_) fun _ => rfl
  refine Runs.bind (R := fun _ s' => s' = s1) (Runs.call trivial fun _ _ => rfl) ?_
  intro now s2 h2
  subst h2
  exact Runs.get_bind (Runs.onlyIf (fun _ => Runs.modify_bind (Runs.modify rfl)) fun _ => rfl)

theorem useServed_writes {segment : OpenSegment} (hsegment : s.currentSegment = some segment)
    (kind : SourceKind) (admission : InputAdmission) (chunk : CaptureChunk) :
    Gives s (useServed (.audio kind admission chunk)) (fun _ => Wrote segment chunk) False := by
  exact Runs.bind (Runs.bind (updateAudioPreview_keeps_segment kind admission chunk)
    fun _ s' h => writeAudioChunk_writes (h.trans hsegment) chunk) fun _ _ h => Runs.modify h

/-- In every state reached after a start, when no rotation so far found a running engine with all
its enabled sources waiting, an observing engine has a segment open. An admitted chunk of an
active source is then written to it. -/
theorem observing_has_segment (s0 started s : Engine) (hprepared : Prepared s0)
    (hstart : Returns start s0 started) (hrun : Relation.ReflTransGen EngineStep started s)
    (hcovered : Covered s.history) (hphase : s.state.phase = .observing) :
    ∃ segment, s.currentSegment = some segment ∧ ∀ kind admission chunk reading reading' readings,
        admission.sourceGeneration = s.generations kind →
        admission.streamGeneration = reading.streamGeneration →
        s.state.isSourceEnabled kind = true → reading'.state = .active →
        (kind = .desktopActivity → reading'.exclusionAvailable = true) →
        ∃ rest s', handleEvent (.audio kind admission chunk) (reading :: reading' :: readings) s =
            (.ok (), rest, s') ∧
          ∃ entry ∈ s'.history, ∃ error,
            entry.act = .wrote segment.key (segment.place chunk) error := by
  have hsound : Sound s := reflTransGen_invariant (fun _ _ hs hstep => hstep.sound hs)
    ((hstart.of_runs start_spec).2 hprepared.settled) hrun
  obtain ⟨hrunning, hfault⟩ := running_of_observing hphase
  have hsome : s.currentSegment.isSome = true := by
    rcases hsound.guarded hcovered hrunning with h | h
    · exact h
    · rw [hfault] at h
      cases h
  obtain ⟨segment, hsegment⟩ := Option.isSome_iff_exists.mp hsome
  refine ⟨segment, hsegment, fun kind admission chunk reading reading' readings hgeneration hstream
    henabled hactive hexclusion => ?_⟩
  have hstate : (if kind = .desktopActivity ∧ reading'.exclusionAvailable = false then
      .faulted .unknown "" else reading'.state) = SourceState.active := by
    rw [if_neg, hactive]
    rintro ⟨hkind, hnot⟩
    rw [hexclusion hkind] at hnot
    cases hnot
  -- The checks all pass, so the event comes down to its use.
  have hchecks : (admission.sourceGeneration == s.generations kind &&
      admission.streamGeneration == reading.streamGeneration &&
      s.state.isSourceEnabled kind) = true := by
    simp [hgeneration, hstream, henabled]
  have hevent : handleEvent (.audio kind admission chunk) (reading :: reading' :: readings) s =
      (judgeAdmission kind (admission.sourceGeneration == s.generations kind &&
          admission.streamGeneration == reading.streamGeneration && s.state.isSourceEnabled kind)
        (if kind = .desktopActivity ∧ reading'.exclusionAvailable = false then
          .faulted .unknown "" else reading'.state) >>= fun admitted => do
        Prog.onlyIf admitted (useEvent (.audio kind admission chunk))
        Prog.modify fun s => { s with serving := none }) readings
        { s with serving := some (.audio kind admission chunk) } := rfl
  rw [hevent, hstate, hchecks]
  show ∃ rest s', useServed (.audio kind admission chunk) readings
    { s with serving := some (.audio kind admission chunk) } = (.ok (), rest, s') ∧ _
  obtain ⟨_, hreturns, hentry⟩ := (useServed_writes
    (s := { s with serving := some (.audio kind admission chunk) }) hsegment kind admission
    chunk).exists_ok (fun _ (_ : _ ∈ readings) => trivial)
  exact ⟨_, _, Prod.ext hreturns rfl, hentry⟩

end Segments

/-! ## A microphone -/

/-- The owner records the microphone only. -/
def micOnly : SetupSnapshot where
  screen := false
  systemAudio := false
  mic := true
  desktopActivityAllowed := false
  desktopActivityThroughPause := false
  desktopActivity := false

/-- The outside of an engine with a microphone, at a given second: the answer after `calls` and
three more is the microphone's state. -/
def outside (calls now : Nat) (mic : SourceState) : List Reading :=
  List.replicate (calls + 3) { Reading.quiet with epochSecs := now } ++
    { Reading.quiet with epochSecs := now, state := mic } ::
    List.replicate 40 { Reading.quiet with epochSecs := now }

/-- The engine before its start. -/
def micEngine : Engine := (setSourceChoices micOnly).final [] (Engine.new {} [] "a")

def startedWith (mic : SourceState) : Engine := start.final (outside 8 10 mic) micEngine

/-- The engine after a pump at second 310, in the next window, that finds the microphone active
as before. -/
def micKept : Engine := pump.final (outside 12 310 .active) (startedWith .active)

/-- The same pump, when there was no microphone before. -/
def micPluggedIn : Engine := pump.final (outside 9 310 .active) (startedWith .noInputDevice)

/-- At every rotation so far the microphone was active. -/
theorem micKept_covered : Covered micKept.history := by
  have hall : (micKept.history.all fun entry =>
      (leftKey entry.act).isNone ||
        entry.state.micEnabled && entry.state.mic == some .active) = true := by decide +kernel
  intro entry hentry key hleft _
  have hentry' := List.all_eq_true.mp hall entry hentry
  rw [hleft, leftKey, Option.isNone_some, Bool.false_or, Bool.and_eq_true, beq_iff_eq] at hentry'
  refine .inl fun hwaiting => ?_
  rcases hwaiting .mic hentry'.1 with h | ⟨detail, h⟩ <;>
  · rw [show entry.state.reported .mic = entry.state.mic from rfl, hentry'.2] at h
    cases h

/-- The microphone alone, over one boundary. -/
theorem observing_has_segment_mic :
    micKept.state.phase = .observing ∧ ∃ segment, micKept.currentSegment = some segment := by
  have hprepared : Prepared micEngine :=
    .choose micOnly (.new {} [] "a") ⟨[], by decide +kernel, rfl⟩
  obtain ⟨segment, hsegment, -⟩ := observing_has_segment micEngine (startedWith .active) micKept
    hprepared ⟨outside 8 10 .active, by decide +kernel, rfl⟩
    (.single ⟨.pump, outside 12 310 .active, by decide +kernel, rfl⟩) micKept_covered
    (by decide +kernel)
  exact ⟨by decide +kernel, segment, hsegment⟩

/-- A microphone is plugged in after a boundary that passed without one. The engine observes with
no segment open, and drops the chunk the microphone sends. -/
theorem pump_observing_without_segment :
    (start (outside 8 10 .noInputDevice) micEngine).1 = .ok () ∧
      (pump (outside 9 310 .active) (startedWith .noInputDevice)).1 = .ok () ∧
      micPluggedIn.state.phase = .observing ∧ micPluggedIn.currentSegment = none ∧
      ((handleEvent (.audio .mic ⟨micPluggedIn.generations .mic, 0⟩
        ⟨.mic, [1, 2], none, none⟩)).final
        [Reading.quiet, { Reading.quiet with state := .active }] micPluggedIn).history =
        micPluggedIn.history := by
  decide +kernel

end SolstoneWindows.Proofs.CaptureEngine
