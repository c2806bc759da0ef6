import Mathlib.Tactic.SplitIfs
import SolstoneWindows.CaptureEngine.Engine

/-!
# When an engine is to have a segment open

The phase is `observing` only while the engine runs, unpaused, with a source switched on, and
without a storage fault. `Held` says that such an engine has a segment open. Nearly everything
the engine does moves along `Keeps`. What is left are the places where a switch changes: there the
segment is opened again, or the engine is not to capture.

The source breaks `Held` at one place. A rotation that finds every enabled source without a
device or without permission opens no segment, and nothing opens one when such a source becomes
active later. `Covered` says that a history has no such rotation.
-/

set_option autoImplicit false

namespace SolstoneWindows.Proofs.CaptureEngine

open Lib.Effect
open ObserverModel ObserverState
open ObserverSegment ObserverLifecycle
open SolstoneWindows.CaptureEngine

/-! ## The phase -/

/-- The engine was asked to run, is not paused, and has a source switched on. -/
def Running (machine : StateMachine) : Prop :=
  machine.runRequested = true ∧ machine.isPaused = false ∧ machine.anySourceEnabled = true

/-- Every enabled source reports that it has no device, or no permission. -/
def Waiting (machine : StateMachine) : Prop :=
  ∀ kind, machine.isSourceEnabled kind = true → machine.reported kind = some .noInputDevice ∨
      ∃ detail, machine.reported kind = some (.faulted .accessDenied detail)

/-- The part of the reducer that source reports and storage do not change. -/
def switches (machine : StateMachine) : StateMachine :=
  { machine with
    storageFaulted := false
    screen := none
    systemAudio := none
    mic := none
    desktopActivity := none }

section Phase

variable {machine machine' : StateMachine}

theorem isPaused_of_switches (h : switches machine' = switches machine) :
    machine'.isPaused = machine.isPaused := by
  have hview : (switches machine').isPaused = (switches machine).isPaused := by rw [h]
  exact hview

theorem running_of_switches (h : switches machine' = switches machine)
    (hrunning : Running machine) :
    Running machine' := by
  have hview : Running (switches machine') := by
    rw [h]
    exact hrunning
  exact hview

theorem phase_paused_iff : machine.phase = .paused ↔ machine.isPaused = true := by
  unfold StateMachine.phase
  by_cases hpaused : machine.isPaused = true
  · simp [hpaused]
  · rw [if_neg hpaused]
    refine ⟨fun h => ?_, fun h => absurd h hpaused⟩
    split_ifs at h

/-- The phase of a running engine, past the pause and the first idle. -/
theorem phase_of_running (h : Running machine) (hready : machine.engineReady = true) :
    machine.phase = if machine.storageFaulted || machine.anyEnabledFaulted then .error
      else if machine.anyEnabledActive then .observing
      else if machine.anyEnabledPending then .starting
      else .idle := by
  obtain ⟨hrun, hpaused, henabled⟩ := h
  simp [StateMachine.phase, hrun, hpaused, henabled, hready]

theorem running_of_observing (h : machine.phase = .observing) :
    Running machine ∧ machine.storageFaulted = false := by
  unfold StateMachine.phase at h
  split_ifs at h with hpaused hidle hready hfault hactive
  simp only [Bool.or_eq_true, Bool.not_eq_true', not_or, Bool.not_eq_false] at hidle hfault
  exact ⟨⟨hidle.1, by simpa using hpaused, hidle.2⟩, by simpa using hfault.1⟩

/-- A test that no enabled source passes fails on each. -/
theorem not_test_of_not_anyEnabled {test : Option SourceState → Bool}
    (h : ¬ machine.anyEnabled test = true) {kind : SourceKind}
    (henabled : machine.isSourceEnabled kind = true) : test (machine.reported kind) = false := by
  simp only [StateMachine.anyEnabled, Bool.or_eq_true, Bool.and_eq_true, not_or, not_and,
    Bool.not_eq_true] at h
  obtain ⟨⟨⟨hscreen, hsystemAudio⟩, hmic⟩, hdesktopActivity⟩ := h
  cases kind with
  | screen => exact hscreen henabled
  | systemAudio => exact hsystemAudio henabled
  | mic => exact hmic henabled
  | desktopActivity => exact hdesktopActivity henabled

/-- A running engine is idle only when all its sources wait. -/
theorem waiting_of_idle (h : Running machine) (hready : machine.engineReady = true)
    (hidle : machine.phase = .idle) : Waiting machine := by
  rw [phase_of_running h hready] at hidle
  split_ifs at hidle with hfault hactive hpending
  have hfault' : ¬ machine.anyEnabledFaulted = true := fun h => hfault (by simp [h])
  intro kind henabled
  have hnotFaulted := not_test_of_not_anyEnabled hfault' henabled
  have hnotActive := not_test_of_not_anyEnabled hactive henabled
  have hnotPending := not_test_of_not_anyEnabled hpending henabled
  -- The three tests leave only the two reports.
  match hreport : machine.reported kind with
  | none => simp [hreport] at hnotPending
  | some .active => simp [hreport] at hnotActive
  | some .inactive => simp [hreport] at hnotPending
  | some .noInputDevice => exact .inl rfl
  | some (.faulted reason detail) =>
    have hreason : reason = .accessDenied := by simpa [hreport] using hnotFaulted
    subst hreason
    exact .inr ⟨detail, rfl⟩

end Phase

/-! ## What nearly every function keeps -/

/-- A storage fault is in the reducer when it is in the engine. -/
def Settled (s : Engine) : Prop :=
  s.state.engineReady = true ∧ s.state.storageFaulted = s.storageFault.isSome

/-- A running engine has a segment open, or a storage fault that says why not. -/
def Held (s : Engine) : Prop :=
  Running s.state → s.currentSegment.isSome = true ∨ s.state.storageFaulted = true

/-- Whenever a running engine left a window, some enabled source was not waiting, or desktop
activity was kept on through pauses. -/
def Covered (history : List Entry) : Prop :=
  ∀ entry ∈ history, ∀ key, entry.act = .left key → Running entry.state → ¬ Waiting entry.state ∨
      (entry.activityThroughPause = true ∧ entry.state.desktopActivityEnabled = true)

/-- `Held`, as long as the history is covered. -/
def Guarded (s : Engine) : Prop := Covered s.history → Held s

/-- The switches stay, and so do the invariants. -/
structure Keeps (s s' : Engine) : Prop where
  switches : switches s'.state = switches s.state
  settled : Settled s → Settled s'
  guarded : Settled s → Guarded s → Guarded s'

section Steps

variable {s s' : Engine}

instance : IsPreorder Engine Keeps where
  refl _ := ⟨rfl, id, fun _ h => h⟩
  trans _ _ _ h h' :=
    ⟨h'.switches.trans h.switches, fun hs => h'.settled (h.settled hs),
      fun hs hg => h'.guarded (h.settled hs) (h.guarded hs hg)⟩

/-- The two engines agree on what the invariants read, but for acts that were added. -/
structure Agrees (s s' : Engine) : Prop where
  state : s'.state = s.state
  storageFault : s'.storageFault = s.storageFault
  currentSegment : s'.currentSegment.isSome = s.currentSegment.isSome
  history : s.history <+: s'.history

theorem Agrees.keeps (h : Agrees s s') : Keeps s s' := by
  refine ⟨by rw [h.state], fun hsettled => ?_, fun _ hguarded hcovered => ?_⟩
  · rw [Settled, h.state, h.storageFault]
    exact hsettled
  · rw [Held, h.state, h.currentSegment]
    exact hguarded fun entry hentry => hcovered entry (h.history.subset hentry)

/-- A fault goes only when a running engine has its segment. -/
theorem keeps_clearStorageFault (hhealthy : s.storageHealthy = true) :
    Keeps s s.clearStorageFault := by
  refine ⟨rfl, fun h => ⟨h.1, rfl⟩, fun hsettled hguarded hcovered hrunning => .inl ?_⟩
  have hrunning' : Running s.state := hrunning
  rcases hguarded hcovered hrunning' with hsome | hfault
  · exact hsome
  · simp only [Engine.storageHealthy, Engine.shouldBeCapturing,
      phase_of_running hrunning' hsettled.1, hfault, Bool.and_eq_true] at hhealthy
    show s.currentSegment.isSome = true
    simpa using hhealthy.2

/-- When no segment is wanted for a running engine, all its sources wait. -/
theorem waiting_of_not_segmentWanted (hsettled : Settled s) (hrunning : Running s.state)
    (hwanted : s.segmentWanted = false) :
    Waiting s.state ∧
      ¬ (s.activityThroughPause = true ∧ s.state.desktopActivityEnabled = true) := by
  obtain ⟨hrun, hpaused, henabled⟩ := hrunning
  simp only [Engine.segmentWanted, Engine.shouldBeCapturing, Engine.activityRunsThroughPause,
    StateMachine.isSourceEnabled, hrun, henabled, Bool.and_true, Bool.true_and,
    Bool.or_eq_false_iff, Bool.and_eq_false_iff, bne_eq_false_iff_eq] at hwanted
  obtain ⟨hphase, hactivity⟩ := hwanted
  refine ⟨waiting_of_idle ⟨hrun, hpaused, henabled⟩ hsettled.1 (hphase.resolve_right ?_), ?_⟩
  · intro h
    rw [phase_paused_iff, hpaused] at h
    cases h
  · rintro ⟨hthrough, hdesktop⟩
    rcases hactivity with h | h
    · rw [hthrough] at h
      cases h
    · rw [hdesktop] at h
      cases h

/-- Both invariants. -/
structure Sound (s : Engine) : Prop where
  settled : Settled s
  guarded : Guarded s

theorem Keeps.sound (h : Keeps s s') (hs : Sound s) : Sound s' :=
  ⟨h.settled hs.settled, h.guarded hs.settled hs.guarded⟩

/-- What the invariants do not read may change. -/
theorem Sound.of_same (hs : Sound s) (hstate : s'.state = s.state)
    (hfault : s'.storageFault = s.storageFault) (hsegment : s'.currentSegment = s.currentSegment)
    (hhistory : s'.history = s.history) : Sound s' := by
  have hagrees : Agrees s s' := ⟨hstate, hfault, by rw [hsegment], hhistory ▸ List.prefix_rfl⟩
  exact hagrees.keeps.sound hs

/-- An engine that is not to run is sound. -/
theorem sound_of_not_running (hs : Settled s) (h : ¬ Running s.state) : Sound s :=
  ⟨hs, fun _ hrunning => absurd hrunning h⟩

theorem not_running_of_paused (h : s.state.phase = .paused) : ¬ Running s.state := by
  rintro ⟨-, hpaused, -⟩
  rw [phase_paused_iff, hpaused] at h
  cases h

/-- The engine after an event that leaves the engine's own accounts alone. -/
theorem settled_reduce {event : AppEvent} (hs : Settled s)
    (hready : (ObserverState.reduce s.state event).engineReady = s.state.engineReady)
    (hfault : (ObserverState.reduce s.state event).storageFaulted = s.state.storageFaulted) :
    Settled (s.reduce event) := by
  refine ⟨?_, ?_⟩
  · show (ObserverState.reduce s.state event).engineReady = true
    rw [hready, hs.1]
  · show (ObserverState.reduce s.state event).storageFaulted = s.storageFault.isSome
    rw [hfault, hs.2]

theorem settled_sourceEnabled (kind : SourceKind) (enabled : Bool) (hs : Settled s) :
    Settled (s.reduce (.sourceEnabled kind enabled)) := by
  cases kind with
  | _ => exact settled_reduce hs rfl rfl

/-- A source that may not start leaves the engine stopped or paused. -/
theorem not_running_of_not_sourceMayStart {kind : SourceKind}
    (h : s.sourceMayStart kind = false) : ¬ Running s.state := by
  rintro ⟨hrun, hpaused, -⟩
  have hphase : s.state.phase ≠ .paused := by
    rw [Ne, phase_paused_iff, hpaused]
    exact Bool.false_ne_true
  simp [Engine.sourceMayStart, hrun, hphase] at h

/-- A source switched off does not start the engine. -/
theorem running_of_disabled (kind : SourceKind) (machine : StateMachine)
    (h : Running (ObserverState.reduce machine (.sourceEnabled kind false))) :
    Running machine := by
  obtain ⟨hrun, hpaused, henabled⟩ := h
  have hany : machine.anySourceEnabled = true := by
    cases kind <;> simp only [ObserverState.reduce, StateMachine.anySourceEnabled,
      Bool.or_eq_true] at henabled ⊢ <;> grind
  cases kind with
  | _ => exact ⟨hrun, hpaused, hany⟩

theorem sound_disabled (kind : SourceKind) (hs : Sound s) :
    Sound (s.reduce (.sourceEnabled kind false)) := by
  refine ⟨settled_sourceEnabled kind false hs.settled, fun hcovered hrunning => ?_⟩
  have hfault : (s.reduce (.sourceEnabled kind false)).state.storageFaulted =
      s.state.storageFaulted :=
    (settled_sourceEnabled kind false hs.settled).2.trans hs.settled.2.symm
  rw [hfault]
  exact hs.guarded hcovered (running_of_disabled kind s.state hrunning)

/-! ## Histories of the engine -/

/-- The program returns, with the outside answering in some way. -/
def Returns (p : EngineProg Unit) (s s' : Engine) : Prop :=
  ∃ readings, (p readings s).1 = .ok () ∧ p.final readings s = s'

theorem Returns.of_runs {p : EngineProg Unit} {Q : Engine → Prop} (h : Returns p s s')
    (hruns : Gives s p fun _ => Q) : Q s' := by
  obtain ⟨readings, hreturns, rfl⟩ := h
  exact hruns.returns (fun _ _ => trivial) hreturns

/-- An engine before its start: as constructed, with the owner's choices and held pause. -/
inductive Prepared : Engine → Prop
  | new (config : EngineConfig) (deferred : List SegmentKey) (artifactId : String) :
      Prepared (Engine.new config deferred artifactId)
  | choose {s s' : Engine} (setup : SetupSnapshot) (h : Prepared s)
      (hset : Returns (setSourceChoices setup) s s') : Prepared s'
  | hold {s s' : Engine} (h : Prepared s) (hhold : Returns holdOwnerPauseIn s s') : Prepared s'

/-- What the loop around the engine does with it after the start. -/
inductive Operation where
  | pump
  | tick
  | command (command : EngineCommand)
  | event (event : CaptureEvent)

def Operation.run : Operation → EngineProg Unit
  | .pump => SolstoneWindows.CaptureEngine.pump
  | .tick => SolstoneWindows.CaptureEngine.tick
  | .command c => applyCommand c
  | .event e => handleEvent e

/-- One completed operation. -/
def EngineStep (s s' : Engine) : Prop := ∃ operation : Operation, Returns operation.run s s'

end Steps

end SolstoneWindows.Proofs.CaptureEngine
