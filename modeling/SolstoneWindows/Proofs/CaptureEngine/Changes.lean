import SolstoneWindows.Proofs.CaptureEngine

/-!
# Everything the engine can do

An abstract engine. `Work` is one thing the engine does between two of its decisions: it makes a
call and acts on the answer, or keeps one of its accounts. A step says under which condition it is
taken: a segment is finalized only when it is not open and no row of it is queued, a source is
started in a pause only when it may run through it, data is used only for an event of the current
generation. `Switch` are the changes of the owner's switches, and `Turn` those of the pause and of
the run.

Every function is shown to move the engine along chains of such steps. Work leaves the switches and
the pause alone, so a condition on them that holds when a function is called holds at every start
the function makes. Work that leaves an open segment open keeps the invariants as well, and a
rotation, which does not, ends with the segment opened again (`Renews`), or with none to have.
What a later module proves about a whole run, it proves about one step.
-/

set_option autoImplicit false

namespace SolstoneWindows.Proofs.CaptureEngine

open Lib.Effect Relation
open ObserverModel ObserverState
open ObserverSegment ObserverLifecycle
open SolstoneWindows.CaptureEngine

/-! ## Reports and failures, as functions -/

/-- What a counted failure leaves, and the state to report, when the clock shows `now`. -/
def countFault (s : Engine) (kind : SourceKind) (reason : ErrorReason) (detail : String)
    (now : Nat) : Engine × SourceState :=
  let outcome := (s.lifecycles kind).onFailure
  match outcome.1 with
  | .retryAfter delay =>
    ((s.countFailure kind outcome).plan kind (saturatingAdd now (asSecs delay)),
      .faulted reason detail)
  | .giveUp => ((s.countFailure kind outcome).unplan kind, .faulted reason (markBreakerOpen detail))

/-- What `handle_fault_transition` leaves. -/
def judgeFault (s : Engine) (kind : SourceKind) (current : SourceState) (forceFailure : Bool)
    (now : Nat) : Engine × SourceState :=
  match current with
  | .faulted reason detail =>
    if reason = .accessDenied then (s, current)
    else if forceFailure || !(s.sourceReports kind).any isFaulted then
      countFault s kind reason detail now
    else if (s.lifecycles kind).breaker = .opened then (s, .faulted reason (markBreakerOpen detail))
    else (s, current)
  | _ => (s, current)

/-- What `apply_source_report` leaves, past the preview. -/
def report (s : Engine) (kind : SourceKind) (state : SourceState) (now : Nat) : Engine :=
  let judged := judgeFault s kind state false now
  let settled :=
    if (s.sourceReports kind).any isFaulted && !isFaulted judged.2 then
      judged.1.markSourceSuccess kind
    else judged.1
  (settled.insertReport kind judged.2).record (.reported kind judged.2)

/-- What `apply_source_error` leaves, past the preview. -/
def refuse (s : Engine) (kind : SourceKind) (error : SourceError) (now : Nat) : Engine :=
  let judged := judgeFault s kind (.faulted error.reason error.detail) true now
  (judged.1.insertReport kind judged.2).record (.refused kind judged.2)

/-! ## Steps -/

/-- Acts that nothing depends on but their being there. -/
def IsPlain : Act → Prop
  | .stopped _ => True
  | .displayChanged => True
  | .looked _ _ => True
  | .opened _ _ => True
  | .probed _ _ => True
  | .left _ => True
  | .encoderOpened _ _ _ _ => True
  | .encoderFinalized _ => True
  | .asked _ => True
  | .checked _ => True
  | _ => False

/-- The act stores or shows what the event brought. -/
def Carries : CaptureEvent → Act → Prop
  | .audio _ _ chunk, .wrote _ placed _ => ∃ segment : OpenSegment, placed = segment.place chunk
  | .screen _ frame, .encoded frame' _ => frame' = frame
  | event, .previewed event' => event' = event
  | _, _ => False

/-- The engine is handling an event from the sink its source has now. -/
structure Serves (s : Engine) (event : CaptureEvent) : Prop where
  serving : s.serving = some event
  current : event.admission.sourceGeneration = s.generations event.kind

/-- In a pause only desktop activity may start, when it is kept on through pauses. -/
def MayStart (s : Engine) (kind : SourceKind) : Prop :=
  s.state.isPaused = true → kind = .desktopActivity ∧ s.activityThroughPause = true

/-- What one act does to the answer whether a source is to be started. -/
def licenses (kind : SourceKind) (licensed : Bool) (entry : Entry) : Bool :=
  match entry.act with
  | .asked kind' => if kind' = kind then true else licensed
  | .retried kind' => if kind' = kind then true else licensed
  | .started kind' _ => if kind' = kind then false else licensed
  | _ => licensed

/-- Whether a source is to be started: the owner asked for it, or its planned restart is due, and
it was not started since. -/
def isLicensed (history : List Entry) (kind : SourceKind) : Bool :=
  history.foldl (licenses kind) false

/-- Desktop activity is started on every pump, and every other source for a reason. -/
def Licensed (s : Engine) (kind : SourceKind) : Prop :=
  kind ≠ .desktopActivity → isLicensed s.history kind = true

/-- The segment is not open, and no row of it is queued. -/
structure Sealable (s : Engine) (key : SegmentKey) : Prop where
  closed : s.currentSegment.map OpenSegment.key ≠ some key
  drained : key ∉ s.pendingActivityRows.map PendingActivityRow.key

/-- The row that the engine makes of a line. -/
def nextRow (s : Engine) (key : SegmentKey) (line : String) : PendingActivityRow :=
  ⟨key, s.activityFile key, line, s.committedActivityLens (key, s.activityFile key)⟩

/-- A row was stored, and leaves the queue. -/
def storeRow (s : Engine) (row : PendingActivityRow) (rows : List PendingActivityRow) : Engine :=
  { s.record (.appended row none) with pendingActivityRows := rows }

/-- A row was not stored. -/
def failRow (s : Engine) (row : PendingActivityRow) (detail : String) : Engine :=
  (s.record (.appended row (some detail))).noteStorageFault detail

/-- A segment got its seal. -/
def sealKey (s : Engine) (key : SegmentKey) (videoEnd : VideoEnd) : Engine :=
  { s.record (.finalized key videoEnd none) with pendingSeals := removeSeal key s.pendingSeals }

/-- A segment waits for its seal. -/
def deferKey (s : Engine) (key : SegmentKey) (videoEnd : VideoEnd) (detail : String) : Engine :=
  (s.deferSeal key videoEnd).noteStorageFault detail

/-- One thing the engine does. -/
inductive Work : Engine → Engine → Prop
  | noted {s : Engine} (act : Act) (hplain : IsPlain act) : Work s (s.record act)
  | used {s : Engine} {event : CaptureEvent} {act : Act} (hserves : Serves s event)
    (hcarries : Carries event act) : Work s (s.record act)
  | faulted {s : Engine} (detail : String) : Work s (s.noteStorageFault detail)
  | stalled {s : Engine} (detail : String) :
    Work s ({ s with writeStalled := true }.noteStorageFault detail)
  | unstalled {s : Engine} : Work s { s with writeStalled := false }
  | healed {s : Engine} (hhealthy : s.storageHealthy = true) : Work s s.clearStorageFault
  | delayed {s : Engine} (now : Nat) : Work s (s.delayStorage now)
  | renamed {s : Engine} (artifactId : String) :
    Work s { s with artifactId := artifactId, activityBatchWritten := false }
  | batched {s : Engine} : Work s { s with activityBatchWritten := true }
  | queued {s : Engine} (key : SegmentKey) (line : String) (hbehind : s.pendingActivityRows ≠ []) :
    Work s (s.pushActivityRow key line)
  | stored {s : Engine} {row : PendingActivityRow} {rows : List PendingActivityRow}
    (hfirst : s.pendingActivityRows = row :: rows) : Work s (storeRow s row rows)
  | unstored {s : Engine} {row : PendingActivityRow} {rows : List PendingActivityRow}
    (detail : String) (hfirst : s.pendingActivityRows = row :: rows) :
    Work s (failRow s row detail)
  | storedAtOnce {s : Engine} (key : SegmentKey) (line : String)
    (hempty : s.pendingActivityRows = []) :
    Work s (storeRow (s.pushActivityRow key line) (nextRow s key line) [])
  | unstoredAtOnce {s : Engine} (key : SegmentKey) (line detail : String)
    (hempty : s.pendingActivityRows = []) :
    Work s (failRow (s.pushActivityRow key line) (nextRow s key line) detail)
  | deferred {s : Engine} (key : SegmentKey) (videoEnd : VideoEnd) (detail : String) :
    Work s (deferKey s key videoEnd detail)
  | unfinalized {s : Engine} {key : SegmentKey} (videoEnd : VideoEnd) (detail : String)
    (hsealable : Sealable s key) : Work s (s.record (.finalized key videoEnd (some detail)))
  | finalized {s : Engine} {key : SegmentKey} (videoEnd : VideoEnd) (hsealable : Sealable s key) :
    Work s (sealKey s key videoEnd)
  | detached {s : Engine} : Work s { s with currentSegment := none }
  | attached {s : Engine} (segment : OpenSegment) : Work s { s with currentSegment := some segment }
  | encoding {s : Engine} :
    Work s { s with currentSegment := s.currentSegment.map ({ · with screenEncoderOpen := true }) }
  | reported {s : Engine} (kind : SourceKind) (state : SourceState) (now : Nat) :
    Work s (report s kind state now)
  | started {s : Engine} {kind : SourceKind} (henabled : s.state.isSourceEnabled kind = true)
    (hmay : MayStart s kind) (hlicensed : Licensed s kind) :
    Work s ((s.record (.started kind none)).markSourceSuccess kind)
  | failedToStart {s : Engine} {kind : SourceKind} (error : SourceError) (now : Nat)
    (henabled : s.state.isSourceEnabled kind = true) (hmay : MayStart s kind)
    (hlicensed : Licensed s kind) :
    Work s (refuse ((s.record (.started kind (some error))).clearSourcePreview kind) kind error now)
  | pumped {s : Engine} (error : Option SourceError)
    (henabled : s.state.isSourceEnabled .desktopActivity = true)
    (hmay : MayStart s .desktopActivity) : Work s (s.record (.started .desktopActivity error))
  | handed {s : Engine} (kind : SourceKind) : Work s (s.hand kind)
  | retired {s : Engine} (kind : SourceKind) : Work s (s.retire kind)
  | retried {s : Engine} {kind : SourceKind} (hdue : s.retryAtEpochSecs kind ≠ none) :
    Work s (s.takeRetry kind)
  | serving {s : Engine} (event : Option CaptureEvent) : Work s { s with serving := event }
  | previews {s : Engine} (lastPreview : SourceKind → Option Int) :
    Work s { s with lastPreview := lastPreview }

/-- What one act does to the answer whether a source is on. -/
def turnsOn (kind : SourceKind) (on : Bool) (entry : Entry) : Bool :=
  match entry.act with
  | .started kind' _ => if kind' = kind then true else on
  | .stopped kind' => if kind' = kind then false else on
  | _ => on

/-- Whether a source is on: the last that was done with it was to start it. -/
def isOn (history : List Entry) (kind : SourceKind) : Bool := history.foldl (turnsOn kind) false

/-- A change of the owner's switches. -/
inductive Switch : Engine → Engine → Prop
  | enabled {s : Engine} (kind : SourceKind) : Switch s (s.reduce (.sourceEnabled kind true))
  | disabled {s : Engine} {kind : SourceKind} (now : Nat) (hstopped : isOn s.history kind = false) :
    Switch s (report ((((s.unplan kind).clearSourcePreview kind).reduce
      (.sourceEnabled kind false)).clearSourcePreview kind) kind .inactive now)
  | allowed {s : Engine} (allowed : Bool) : Switch s { s with activityAllowed := allowed }

/-- A change of the pause, or of what is set up before the start. -/
inductive Turn : Engine → Engine → Prop
  | paused {s : Engine} (reason : PauseReason) (expires : Option Nat) :
    Turn s (s.reduce (.requestedPause reason expires))
  | resumed {s : Engine} : Turn s (s.reduce .requestedResume)
  | systemResumed {s : Engine} : Turn s (s.reduce .systemResumed)
  | expired {s : Engine} : Turn s (s.reduce .ownerPauseExpired)
  | recorded {s : Engine} (held : Option HeldPause) (error : Option String) :
    Turn s (s.record (.pauseRecorded held error))
  | through {s : Engine} (enabled : Bool) : Turn s { s with activityThroughPause := enabled }
  | stored {s : Engine} : Turn s { s with pauseStore := true }
  | requested {s : Engine} : Turn s (s.reduce .requestedStart)
  | chosen {s : Engine} (kind : SourceKind) (enabled : Bool) :
    Turn s (s.reduce (.sourceEnabled kind enabled))

/-! ## What a report leaves alone -/

/-- What the engine knows and plans of a source is the same. -/
structure SamePlan (kind : SourceKind) (s s' : Engine) : Prop where
  report : s'.sourceReports kind = s.sourceReports kind
  lifecycle : s'.lifecycles kind = s.lifecycles kind
  retryAt : s'.retryAtEpochSecs kind = s.retryAtEpochSecs kind

theorem SamePlan.refl (kind : SourceKind) (s : Engine) : SamePlan kind s s := ⟨rfl, rfl, rfl⟩

variable {s s' s'' : Engine}

theorem SamePlan.trans {kind : SourceKind} (h : SamePlan kind s s')
    (h' : SamePlan kind s' s'') : SamePlan kind s s'' :=
  ⟨h'.report.trans h.report, h'.lifecycle.trans h.lifecycle, h'.retryAt.trans h.retryAt⟩

/-- The history grows by acts of one kind. -/
abbrev Adds (P : Act → Prop) (s s' : Engine) : Prop :=
  ∃ new, s'.history = s.history ++ new ∧ ∀ entry ∈ new, P entry.act

section Adds

variable {P : Act → Prop}

theorem Adds.same (h : s'.history = s.history) : Adds P s s' :=
  ⟨[], by rw [h, List.append_nil], by simp⟩

theorem Adds.one {act : Act} (h : s'.history = (s.record act).history) (hact : P act) :
    Adds P s s' :=
  ⟨[s.entry act], h, List.forall_mem_singleton.mpr hact⟩

theorem Adds.trans (h : Adds P s s') (h' : Adds P s' s'') : Adds P s s'' := by
  obtain ⟨new, hnew, hall⟩ := h
  obtain ⟨new', hnew', hall'⟩ := h'
  exact ⟨new ++ new', by rw [hnew', hnew, List.append_assoc],
    List.forall_mem_append.mpr ⟨hall, hall'⟩⟩

theorem Adds.mono {P' : Act → Prop} (h : Adds P s s') (hP : ∀ act, P act → P' act) :
    Adds P' s s' := by
  obtain ⟨new, hnew, hall⟩ := h
  exact ⟨new, hnew, fun entry hentry => hP _ (hall entry hentry)⟩

end Adds

/-- The acts of the restart policy of a source. -/
def IsTally (kind : SourceKind) : Act → Prop
  | .reported kind' _ => kind' = kind
  | .refused kind' _ => kind' = kind
  | .failed kind' _ => kind' = kind
  | .succeeded kind' => kind' = kind
  | _ => False

/-- Only what the engine knows and plans of one source changes. -/
structure Reported (kind : SourceKind) (s s' : Engine) : Prop where
  eq : s' = { s with
    state := s'.state
    sourceReports := s'.sourceReports
    lifecycles := s'.lifecycles
    retryAtEpochSecs := s'.retryAtEpochSecs
    history := s'.history }
  switches : switches s'.state = switches s.state
  faulted : s'.state.storageFaulted = s.state.storageFaulted
  others : ∀ other, other ≠ kind → SamePlan other s s'
  history : Adds (IsTally kind) s s'

section Reported

theorem Reported.refl (kind : SourceKind) (s : Engine) : Reported kind s s :=
  ⟨rfl, rfl, rfl, fun other _ => .refl other s, Adds.same rfl⟩

variable {kind : SourceKind}

theorem Reported.trans (h : Reported kind s s') (h' : Reported kind s' s'') :
    Reported kind s s'' := by
  refine ⟨?_, h'.switches.trans h.switches, h'.faulted.trans h.faulted,
    fun other hother => (h.others other hother).trans (h'.others other hother),
    Adds.trans h.history h'.history⟩
  have heq := h'.eq
  rw [h.eq] at heq
  exact heq

theorem reported_record {act : Act} (htally : IsTally kind act) :
    Reported kind s (s.record act) :=
  ⟨rfl, rfl, rfl, fun _ _ => ⟨rfl, rfl, rfl⟩, Adds.one rfl htally⟩

section

variable (kind : SourceKind)

/-- The restart policy of one source. -/
theorem reported_policy (lifecycle : Lifecycle) (retryAt : Option Nat) :
    Reported kind s { s with
      lifecycles := Function.update s.lifecycles kind lifecycle
      retryAtEpochSecs := Function.update s.retryAtEpochSecs kind retryAt } :=
  ⟨rfl, rfl, rfl, fun _ hother => ⟨rfl, Function.update_of_ne hother _ _,
    Function.update_of_ne hother _ _⟩, Adds.same rfl⟩

theorem reported_markSourceSuccess : Reported kind s (s.markSourceSuccess kind) :=
  (reported_policy kind _ _).trans (reported_record rfl)

theorem reported_countFailure (outcome : RetryDecision × Lifecycle) :
    Reported kind s (s.countFailure kind outcome) := by
  have hcount : Reported kind s
      { s with lifecycles := Function.update s.lifecycles kind outcome.2 } :=
    ⟨rfl, rfl, rfl, fun _ hother => ⟨rfl, Function.update_of_ne hother _ _, rfl⟩, Adds.same rfl⟩
  exact hcount.trans (reported_record rfl)

/-- The plan of one source. -/
theorem reported_retryAt (retryAt : Option Nat) : Reported kind s
      { s with retryAtEpochSecs := Function.update s.retryAtEpochSecs kind retryAt } :=
  ⟨rfl, rfl, rfl, fun _ hother => ⟨rfl, rfl, Function.update_of_ne hother _ _⟩, Adds.same rfl⟩

theorem reported_insertReport (state : SourceState) :
    Reported kind s (s.insertReport kind state) := by
  have hothers : ∀ other, other ≠ kind → SamePlan other s (s.insertReport kind state) :=
    fun _ hother => ⟨Function.update_of_ne hother _ _, rfl, rfl⟩
  cases kind with
  | _ => exact ⟨rfl, rfl, rfl, hothers, Adds.same rfl⟩

theorem reported_judgeFault (current : SourceState) (forceFailure : Bool) (now : Nat) : Reported
    kind s (judgeFault s kind current forceFailure now).1 := by
  unfold judgeFault
  split
  · split
    · exact .refl kind s
    · split
      · unfold countFault
        dsimp only
        split <;> exact (reported_countFailure kind _).trans (reported_retryAt kind _)
      · split
        · exact .refl kind s
        · exact .refl kind s
  · exact .refl kind s

theorem reported_report (state : SourceState) (now : Nat) :
    Reported kind s (report s kind state now) := by
  have hjudged := reported_judgeFault (s := s) kind state false now
  unfold report
  dsimp only
  split
  · exact (hjudged.trans (reported_markSourceSuccess kind)).trans
      ((reported_insertReport kind _).trans (reported_record rfl))
  · exact hjudged.trans ((reported_insertReport kind _).trans (reported_record rfl))

theorem reported_refuse (error : SourceError) (now : Nat) :
    Reported kind s (refuse s kind error now) :=
  (reported_judgeFault kind _ true now).trans
    ((reported_insertReport kind _).trans (reported_record rfl))

end

end Reported

/-! ## What work leaves alone -/

/-- The switches, the pause and the setup are the same. -/
structure SameSetup (s s' : Engine) : Prop where
  switches : switches s'.state = switches s.state
  through : s'.activityThroughPause = s.activityThroughPause
  allowed : s'.activityAllowed = s.activityAllowed
  store : s'.pauseStore = s.pauseStore
  config : s'.config = s.config

theorem SameSetup.refl (s : Engine) : SameSetup s s := ⟨rfl, rfl, rfl, rfl, rfl⟩

theorem SameSetup.trans (h : SameSetup s s') (h' : SameSetup s' s'') :
    SameSetup s s'' :=
  ⟨h'.switches.trans h.switches, h'.through.trans h.through, h'.allowed.trans h.allowed,
    h'.store.trans h.store, h'.config.trans h.config⟩

section Setup

variable {kind : SourceKind}

theorem Reported.sameSetup (h : Reported kind s s') : SameSetup s s' :=
  ⟨h.switches, by rw [h.eq], by rw [h.eq], by rw [h.eq], by rw [h.eq]⟩

theorem SameSetup.isPaused (h : SameSetup s s') : s'.state.isPaused = s.state.isPaused :=
  isPaused_of_switches h.switches

theorem SameSetup.ownerPause (h : SameSetup s s') : s'.state.ownerPause = s.state.ownerPause := by
  have hview : (Proofs.CaptureEngine.switches s'.state).ownerPause =
      (Proofs.CaptureEngine.switches s.state).ownerPause := by rw [h.switches]
  exact hview

theorem SameSetup.isSourceEnabled (h : SameSetup s s') (kind : SourceKind) :
    s'.state.isSourceEnabled kind = s.state.isSourceEnabled kind := by
  have hview : (Proofs.CaptureEngine.switches s'.state).isSourceEnabled kind =
      (Proofs.CaptureEngine.switches s.state).isSourceEnabled kind := by rw [h.switches]
  cases kind with
  | _ => exact hview

theorem SameSetup.mayStart (h : SameSetup s s') (hmay : MayStart s kind) :
    MayStart s' kind := by
  unfold MayStart
  rw [h.isPaused, h.through]
  exact hmay

/-- No work touches a switch or the pause. -/
theorem Work.sameSetup (h : Work s s') : SameSetup s s' := by
  cases h with
  | reported kind state now => exact (reported_report kind state now).sameSetup
  | @failedToStart kind error now _ _ _ =>
    have hstarted : SameSetup s ((s.record (.started kind (some error))).clearSourcePreview kind) :=
      ⟨rfl, rfl, rfl, rfl, rfl⟩
    exact hstarted.trans (reported_refuse kind error now).sameSetup
  | storedAtOnce key line _ | unstoredAtOnce key line _ _ =>
    have hpushed : SameSetup s (s.pushActivityRow key line) := ⟨rfl, rfl, rfl, rfl, rfl⟩
    exact hpushed.trans ⟨rfl, rfl, rfl, rfl, rfl⟩
  | _ => exact ⟨rfl, rfl, rfl, rfl, rfl⟩

theorem Reported.currentSegment (h : Reported kind s s') :
    s'.currentSegment = s.currentSegment := by
  rw [h.eq]

theorem Reported.keeps (h : Reported kind s s') : Keeps s s' := by
  obtain ⟨new, hnew, -⟩ := h.history
  refine ⟨h.switches, fun hs => ⟨?_, ?_⟩, fun _ hguarded hcovered hrunning => ?_⟩
  · have hview : (Proofs.CaptureEngine.switches s'.state).engineReady =
        (Proofs.CaptureEngine.switches s.state).engineReady := by rw [h.switches]
    exact hview.trans hs.1
  · rw [h.faulted, hs.2, h.eq]
  · rw [h.currentSegment, h.faulted]
    refine hguarded (fun entry hentry => hcovered entry ?_)
      (running_of_switches h.switches.symm hrunning)
    rw [hnew]
    exact List.mem_append_left new hentry

/-- Work that leaves an open segment open keeps the invariants. -/
theorem Work.keeps (h : Work s s')
    (hsegment : s.currentSegment.isSome = true → s'.currentSegment.isSome = true) :
    Keeps s s' := by
  have hnoted : ∀ {s} act, Keeps s (Engine.record s act) :=
    fun act => Agrees.keeps ⟨rfl, rfl, rfl, List.prefix_append _ _⟩
  have hpushed : ∀ key line, Keeps s (s.pushActivityRow key line) :=
    fun key line => Agrees.keeps ⟨rfl, rfl, rfl, List.prefix_append _ _⟩
  have hfaulted : ∀ {s} detail, Keeps s (Engine.noteStorageFault s detail) :=
    fun detail => ⟨rfl, fun h => ⟨h.1, rfl⟩, fun _ _ _ _ => .inr rfl⟩
  cases h with
  | faulted detail => exact hfaulted detail
  | stalled detail => exact ⟨rfl, fun h => ⟨h.1, rfl⟩, fun _ _ _ _ => .inr rfl⟩
  | healed hhealthy => exact keeps_clearStorageFault hhealthy
  | unstored detail _ => exact trans_of Keeps (hnoted _) (hfaulted detail)
  | storedAtOnce key line _ =>
    refine trans_of Keeps (hpushed key line) ?_
    exact Agrees.keeps ⟨rfl, rfl, rfl, List.prefix_append _ _⟩
  | unstoredAtOnce key line detail _ =>
    exact trans_of Keeps (hpushed key line) (trans_of Keeps (hnoted _) (hfaulted detail))
  | deferred key videoEnd detail =>
    refine trans_of Keeps ?_ (hfaulted detail)
    exact Agrees.keeps ⟨rfl, rfl, rfl, List.prefix_append _ _⟩
  | detached =>
    refine Agrees.keeps ⟨rfl, rfl, ?_, List.prefix_rfl⟩
    cases hopen : s.currentSegment with
    | none => rfl
    | some segment => simp [hopen] at hsegment
  | attached segment => exact ⟨rfl, id, fun _ _ _ _ => .inl rfl⟩
  | encoding => exact Agrees.keeps ⟨rfl, rfl, Option.isSome_map, List.prefix_rfl⟩
  | reported kind state now => exact (reported_report kind state now).keeps
  | started _ _ _ => exact trans_of Keeps (hnoted _) (reported_markSourceSuccess _).keeps
  | failedToStart error now _ _ _ =>
    refine trans_of Keeps ?_ (reported_refuse _ error now).keeps
    exact Agrees.keeps ⟨rfl, rfl, rfl, List.prefix_append _ _⟩
  | noted _ _ | used _ _ | queued _ _ _ | stored _ | unfinalized _ _ _ | finalized _ _
  | pumped _ _ _ | handed _ | retired _ | retried _ =>
    exact Agrees.keeps ⟨rfl, rfl, rfl, List.prefix_append _ _⟩
  | _ => exact Agrees.keeps ⟨rfl, rfl, rfl, List.prefix_rfl⟩

/-- Everything that happens without a change of the pause or of a switch: work, at the end of which
the invariants hold again. -/
structure Path (s s' : Engine) : Prop where
  works : ReflTransGen Work s s'
  keeps : Keeps s s'

instance : IsPreorder Engine Path where
  refl s := ⟨.refl, refl_of Keeps s⟩
  trans _ _ _ h h' := ⟨h.works.trans h'.works, trans_of Keeps h.keeps h'.keeps⟩

theorem Path.refl : Path s s := refl_of Path s

theorem Path.trans (h : Path s s') (h' : Path s' s'') : Path s s'' :=
  trans_of Path h h'

/-- One step of work. Only a rotation leaves its segment. -/
theorem Path.single (h : Work s s')
    (hsegment : s.currentSegment.isSome = true → s'.currentSegment.isSome = true) : Path s s' :=
  ⟨.single h, h.keeps hsegment⟩

theorem sameSetup_of_works (h : ReflTransGen Work s s') : SameSetup s s' := by
  induction h with
  | refl => exact .refl s
  | tail _ hlast ih => exact ih.trans hlast.sameSetup

theorem Path.sameSetup (h : Path s s') : SameSetup s s' := sameSetup_of_works h.works

end Setup

section Seals

variable {key key' : SegmentKey} {seals : List (SegmentKey × VideoEnd)}

theorem mem_insertSeal {videoEnd : VideoEnd} : key' ∈ (insertSeal key videoEnd seals).map Prod.fst ↔
      key' = key ∨ key' ∈ seals.map Prod.fst := by
  induction seals with
  | nil => simp [insertSeal]
  | cons first seals ih =>
    unfold insertSeal
    split
    · next heq => simp [heq]
    · split
      · simp
      · rw [List.map_cons, List.mem_cons, ih, List.map_cons, List.mem_cons]
        exact ⟨fun h => h.elim (.inr ∘ .inl) fun h => h.imp_right .inr,
          fun h => h.elim (.inr ∘ .inl) fun h => h.imp_right .inr⟩

theorem mem_removeSeal :
    key' ∈ (removeSeal key seals).map Prod.fst ↔ key' ≠ key ∧ key' ∈ seals.map Prod.fst := by
  simp only [removeSeal, List.mem_map, List.mem_filter, decide_eq_true_eq]
  constructor
  · rintro ⟨pending, ⟨hmem, hne⟩, rfl⟩
    exact ⟨hne, pending, hmem, rfl⟩
  · rintro ⟨hne, pending, hmem, rfl⟩
    exact ⟨pending, ⟨hmem, hne⟩, rfl⟩

end Seals

/-- Acts that open and leave no window, and are not about starts, sinks or captured data. Rows are
made for segments of `K`, and these are sealed. -/
def IsLevel (K : SegmentKey → Prop) : Act → Prop
  | .created row => K row.key
  | .finalized key _ _ => K key
  | .opened _ _ => False
  | .left _ => False
  | .started _ _ => False
  | .stopped _ => False
  | .wrote _ _ _ => False
  | .encoded _ _ => False
  | .previewed _ => False
  | .handed _ _ => False
  | .retired _ => False
  | _ => True

/-- Work that leaves the windows and the sources as they are, on segments of `K`. -/
structure Level (K : SegmentKey → Prop) (s s' : Engine) : Prop where
  path : Path s s'
  segment : s'.currentSegment = s.currentSegment
  history : Adds (IsLevel K) s s'
  seals : ∀ key ∈ s'.pendingSeals.map Prod.fst, key ∈ s.pendingSeals.map Prod.fst ∨ K key

variable {K : SegmentKey → Prop}

instance : IsPreorder Engine (Level K) where
  refl _ := ⟨.refl, rfl, Adds.same rfl, fun _ => .inl⟩
  trans _ _ _ h h' :=
    ⟨h.path.trans h'.path, h'.segment.trans h.segment, Adds.trans h.history h'.history,
      fun key hkey => (h'.seals key hkey).elim (h.seals key) .inr⟩

theorem Level.same (h : Work s s') (hsegment : s'.currentSegment = s.currentSegment)
    (hhistory : s'.history = s.history) (hseals : s'.pendingSeals = s.pendingSeals) :
    Level K s s' :=
  ⟨.single h (by rw [hsegment]; exact id), hsegment, Adds.same hhistory,
    fun _ hkey => .inl (hseals ▸ hkey)⟩

theorem Level.one (act : Act) (hact : IsLevel K act) (h : Work s s')
    (hsegment : s'.currentSegment = s.currentSegment)
    (hhistory : s'.history = (s.record act).history) (hseals : s'.pendingSeals = s.pendingSeals) :
    Level K s s' :=
  ⟨.single h (by rw [hsegment]; exact id), hsegment, Adds.one hhistory hact,
    fun _ hkey => .inl (hseals ▸ hkey)⟩

theorem Reported.level {kind : SourceKind} (hreported : Reported kind s s') (h : Work s s') :
    Level K s s' := by
  refine ⟨.single h (by rw [hreported.currentSegment]; exact id), hreported.currentSegment,
    Adds.mono hreported.history fun act hact => ?_,
      fun _ hkey => .inl (by rwa [hreported.eq] at hkey)⟩
  cases act with
  | reported _ _ | refused _ _ | failed _ _ | succeeded _ => exact trivial
  | _ => exact hact.elim

/-! ## The functions, along a path -/

variable {α β : Type}

section Functions

variable {C : Prop}

/-- The program, run from `s`, only goes on with the work that began in `s0`. -/
abbrev Works {α : Type} (s0 s : Engine) (p : EngineProg α) : Prop :=
  Gives s p fun _ => Path s0

theorem path_of_level {p : EngineProg α} (h : Stays (Level fun _ => True) p) : Stays Path p :=
  fun s => (h s).weaken fun _ _ => Level.path

theorem ask_level (field : Reading → α) : Stays (Level K) (ask field) C :=
  fun s => Runs.call trivial fun _ _ => refl_of (Level K) s

theorem ask_path (field : Reading → α) : Stays Path (ask field) := path_of_level (ask_level field)

/-- The answer to a question is all that comes of it. -/
theorem ask_spec (field : Reading → α) : Gives s (ask field) (fun _ s' => s = s') C :=
  Runs.call trivial fun _ _ => rfl

/-- A program that starts with a question. -/
theorem ask_bind {field : Reading → α} {f : α → EngineProg β} {Q : β → Engine → Prop}
    (h : ∀ a, Gives s (f a) Q C) : Gives s (ask field >>= f) Q C :=
  Runs.bind (ask_spec field) fun a _ heq => heq ▸ h a

/-- A program that starts with a call. -/
theorem request_bind {field : Reading → α} {act : α → Act} {f : α → EngineProg β}
    {Q : β → Engine → Prop} (h : ∀ a, Gives (s.record (act a)) (f a) Q C) :
    Gives s (request field act >>= f) Q C :=
  Runs.bind (R := fun a s' => s' = s.record (act a)) (Runs.call trivial fun _ _ => rfl)
    fun a _ heq => heq ▸ h a

theorem request_path (field : Reading → α) (act : α → Act)
    (hplain : ∀ a, IsPlain (act a)) : Stays Path (request field act) :=
  Stays.call fun _ _ => .single (.noted _ (hplain _)) id

theorem tell_path (act : Act) (hplain : IsPlain act) : Stays Path (tell act) :=
  Stays.modify fun _ => .single (.noted act hplain) id

theorem noteStorageFault_level (detail : String) : Stays (Level K) (noteStorageFault detail) C :=
  Stays.modify fun _ => .same (.faulted detail) rfl rfl rfl

theorem attemptClearStorage_level : Stays (Level K) attemptClearStorage C := by
  refine Stays.modify fun s => ?_
  unfold Engine.attemptClearStorage
  split
  · next h => exact .same (.healed (Bool.and_eq_true _ _ ▸ h).2) rfl rfl rfl
  · exact refl_of (Level K) s

theorem attemptClearStorage_path : Stays Path attemptClearStorage :=
  path_of_level attemptClearStorage_level

variable {key : SegmentKey} {kind : SourceKind} {admission : InputAdmission} {frame : ScreenFrame}
  {event : CaptureEvent}

theorem Works.after {p : EngineProg α} (hpath : Path s s')
    (hp : Works s' s' p) : Works s s' p :=
  Gives.after hpath hp

/-- Sequencing, when the second part needs to know how far the first one went. -/
theorem Works.bind {p : EngineProg α} {f : α → EngineProg β} (hp : Works s s p)
    (hf : ∀ a s', Path s s' → Works s' s' (f a)) : Works s s (p >>= f) :=
  Runs.bind hp fun a s' h => Works.after h (hf a s' h)

/-! ### Desktop activity rows -/

theorem renewArtifactId_level : Stays (Level K) renewArtifactId C :=
  (ask_level _).bind fun artifactId =>
    Stays.modify fun _ => .same (.renamed artifactId) rfl rfl rfl

theorem uniqueLoop_level (key : SegmentKey) (tries : Nat) :
    Stays (Level K) (uniqueLoop key tries) C := by
  have hprobe : ∀ name, Stays (Level K) (request Reading.fileExists (.probed name)) C :=
    fun name s => Runs.call trivial fun _ _ =>
      .one (.probed name _) trivial (.noted _ trivial) rfl rfl rfl
  induction tries with
  | zero => exact Stays.pure ()
  | succ tries ih =>
    refine Stays.get.bind fun s => (hprobe _).bind fun inIncomplete =>
      (hprobe _).bind fun inSealed => ?_
    split
    · exact renewArtifactId_level.bind fun _ => ih
    · exact Stays.pure ()

theorem beginActivityBatch_level (key : SegmentKey) :
    Stays (Level K) (beginActivityBatch key) C := by
  refine Stays.bind (Stays.get.bind fun s => ?_) fun _ => Stays.modify fun _ =>
    .same .batched rfl rfl rfl
  split
  · exact Stays.pure ()
  · exact uniqueLoop_level key 100

/-- Rows leave the queue in order. -/
theorem flushRows_level (rows : List PendingActivityRow) (hrows : s.pendingActivityRows = rows) :
    Gives s (flushRows rows) (fun _ => Level K s) C := by
  induction rows generalizing s with
  | nil => exact attemptClearStorage_level s
  | cons row rows ih =>
    refine request_bind fun error => ?_
    cases error with
    | none =>
      exact Runs.modify_bind (Gives.after (Level.one (.appended row none) trivial (.stored hrows)
        rfl rfl rfl) (ih rfl))
    | some detail =>
      exact Runs.modify (Level.one (.appended row (some detail)) trivial (.unstored detail hrows)
        rfl rfl rfl)

theorem flushActivityQueue_level : Stays (Level K) flushActivityQueue C := fun s =>
  Runs.get_bind (Runs.onlyIf (fun _ => flushRows_level _ rfl) fun _ => refl_of (Level K) s)

theorem flushActivityQueue_path : Stays Path flushActivityQueue :=
  path_of_level flushActivityQueue_level

/-- A row that finds the queue empty is all of it. -/
theorem pushActivityRow_rows {line : String}
    (hempty : s.pendingActivityRows = []) :
    (s.pushActivityRow key line).pendingActivityRows = [nextRow s key line] := by
  show s.pendingActivityRows ++ [nextRow s key line] = _
  rw [hempty]
  rfl

/-- A row is queued and the queue is flushed. A row that finds the queue empty is stored at once,
or stays with a fault. -/
theorem pushRow_level (line : String) (hkey : K key) : Stays (Level K) (do
      Prog.modify (·.pushActivityRow key line)
      flushActivityQueue : EngineProg Unit) C := by
  intro s
  refine Runs.modify_bind ?_
  cases hrows : s.pendingActivityRows with
  | cons row rows =>
    refine Gives.after (Level.one (.created (nextRow s key line)) hkey (.queued key line ?_)
      rfl rfl rfl) (flushActivityQueue_level _)
    rw [hrows]
    exact List.cons_ne_nil row rows
  | nil =>
    have hcreated : Adds (IsLevel K) s (s.pushActivityRow key line) :=
      Adds.one rfl hkey
    refine Runs.get_bind ?_
    rw [pushActivityRow_rows hrows]
    refine request_bind fun error => ?_
    cases error with
    | none =>
      refine Runs.modify_bind
        (Gives.after ⟨.single (.storedAtOnce key line hrows) id, rfl, ?_, fun _ => .inl⟩
        (attemptClearStorage_level _))
      exact Adds.trans hcreated (Adds.one rfl trivial)
    | some detail =>
      refine Runs.modify ⟨.single (.unstoredAtOnce key line detail hrows) id, rfl, ?_,
        fun _ => .inl⟩
      exact Adds.trans hcreated (Adds.one rfl trivial)

theorem appendActivityRow_level (row : ActivityRow)
    (hkey : K (segmentFor (row.ts / 1000) s.config.segmentSecs)) :
    Gives s (appendActivityRow row) (fun _ => Level K s) C := by
  unfold appendActivityRow
  cases row.line with
  | none => exact Runs.pure (refl_of (Level K) s)
  | some line =>
    exact Runs.get_bind (((Stays.onlyIf _ (beginActivityBatch_level _)).bind
      fun _ => pushRow_level line hkey) s)

theorem appendActivityRows_level (rows : List ActivityRow) :
    Stays (Level fun _ => True) (appendActivityRows rows) C := by
  induction rows with
  | nil => exact Stays.pure ()
  | cons row rows ih => exact Stays.bind (fun s => appendActivityRow_level row trivial) fun _ => ih

theorem closeActivity_level : Stays (Level fun _ => True) closeActivity C :=
  (ask_level _).bind fun rows => appendActivityRows_level rows

theorem closeActivity_path : Stays Path closeActivity := path_of_level closeActivity_level

/-! ### Source reports -/

section

variable (kind : SourceKind)

theorem clearSourcePreview_level : Stays (Level K) (clearSourcePreview kind) C :=
  Stays.modify fun _ => .same (.previews _) rfl rfl rfl

theorem recordFailure_spec (reason : ErrorReason) (detail : String) :
    Gives s (recordFailure kind reason detail)
      (fun state s' => ∃ now, (s', state) = countFault s kind reason detail now) C := by
  refine Runs.get_bind (Runs.modify_bind ?_)
  unfold countFault
  dsimp only
  cases houtcome : (s.lifecycles kind).onFailure.1 with
  | retryAfter delay =>
    refine ask_bind fun now => ?_
    exact Runs.modify_bind (Runs.pure ⟨now, rfl⟩)
  | giveUp => exact Runs.modify_bind (Runs.pure ⟨0, rfl⟩)

theorem handleFaultTransition_spec (current : SourceState) (forceFailure : Bool) :
    Gives s (handleFaultTransition kind (s.sourceReports kind) current forceFailure)
      (fun state s' => ∃ now, (s', state) = judgeFault s kind current forceFailure now) C := by
  unfold handleFaultTransition judgeFault
  cases current with
  | faulted reason detail =>
    dsimp only
    split
    · exact Runs.pure ⟨0, rfl⟩
    · split
      · exact recordFailure_spec kind reason detail
      · refine Runs.get_bind ?_
        split <;> exact Runs.pure ⟨0, rfl⟩
  | _ => exact Runs.pure ⟨0, rfl⟩

/-- A report leaves what `report` says. -/
theorem reportTail_spec (state : SourceState) : Gives s (do
      let s ← Prog.get
      let state ← handleFaultTransition kind (s.sourceReports kind) state false
      Prog.onlyIf ((s.sourceReports kind).any isFaulted && !isFaulted state)
        (Prog.modify (·.markSourceSuccess kind))
      Prog.modify fun s => (s.insertReport kind state).record (.reported kind state))
      (fun _ s' => ∃ now, s' = report s kind state now) C := by
  refine Runs.get_bind (Runs.bind (handleFaultTransition_spec kind state false) ?_)
  rintro reported s1 ⟨now, h1⟩
  have hs : s1 = (judgeFault s kind state false now).1 := congrArg Prod.fst h1
  have hstate : reported = (judgeFault s kind state false now).2 := congrArg Prod.snd h1
  subst hs hstate
  refine Runs.bind (R := fun _ s2 => s2 =
    if (s.sourceReports kind).any isFaulted && !isFaulted (judgeFault s kind state false now).2 then
      (judgeFault s kind state false now).1.markSourceSuccess kind
    else (judgeFault s kind state false now).1) (Runs.onlyIf (fun h => ?_) fun h => ?_) ?_
  · rw [if_pos h]
    exact Runs.modify rfl
  · rw [if_neg (by rw [h]; exact Bool.false_ne_true)]
  · intro _ s2 h2
    subst h2
    exact Runs.modify ⟨now, rfl⟩

theorem applySourceReport_level (state : SourceState) :
    Stays (Level K) (applySourceReport kind state) C := by
  refine (Stays.onlyIf _ (clearSourcePreview_level kind)).bind fun _ s => ?_
  refine (reportTail_spec kind state).weaken fun _ s' ⟨now, h⟩ => ?_
  subst h
  exact (reported_report kind state now).level (.reported kind state now)

theorem applySourceReport_path (state : SourceState) : Stays Path (applySourceReport kind state) :=
  path_of_level (applySourceReport_level kind state)

end

theorem applyEncoderError_level (detail : String) : Stays (Level K) (applyEncoderError detail) C :=
  (clearSourcePreview_level _).bind fun _ => applySourceReport_level _ _

theorem applyEncoderError_path (detail : String) : Stays Path (applyEncoderError detail) :=
  path_of_level (applyEncoderError_level detail)

/-- An error of a start leaves what `refuse` says. -/
theorem applySourceError_spec (kind : SourceKind) (error : SourceError) :
    Gives s (applySourceError kind error)
      (fun _ s' => ∃ now, s' = refuse (s.clearSourcePreview kind) kind error now) C := by
  refine Runs.modify_bind (Runs.get_bind (Runs.bind (handleFaultTransition_spec kind _ true) ?_))
  rintro reported s1 ⟨now, h1⟩
  refine Runs.modify ⟨now, ?_⟩
  unfold refuse
  rw [← h1]

theorem sourceState_path (kind : SourceKind) : Stays Path (sourceState kind) :=
  (ask_path _).bind fun _ => Stays.pure _

theorem screenState_path : Stays Path screenState := by
  refine (ask_path _).bind fun error => ?_
  cases error with
  | none => exact sourceState_path .screen
  | some detail => exact Stays.pure _

theorem foldSourceStates_path : Stays Path foldSourceStates :=
  screenState_path.bind fun _ => (sourceState_path _).bind fun _ =>
    (sourceState_path _).bind fun _ => (sourceState_path _).bind fun _ =>
    (applySourceReport_path _ _).bind fun _ => (applySourceReport_path _ _).bind fun _ =>
    (applySourceReport_path _ _).bind fun _ => applySourceReport_path _ _

/-! ### Segments -/

theorem deferSeal_level (videoEnd : VideoEnd) (detail : String) (hkey : K key) :
    Stays (Level K) (deferSeal key videoEnd detail) C := fun _ =>
  Runs.modify_bind (Runs.modify ⟨.single (.deferred key videoEnd detail) id, rfl,
    Adds.one rfl trivial,
    fun _ hseal => (mem_insertSeal.mp hseal).elim (fun heq => .inr (heq ▸ hkey)) .inl⟩)

/-- A segment that gets its seal does not wait any more. -/
theorem sealKey_level (videoEnd : VideoEnd) (hsealable : Sealable s key)
    (hkey : K key) : Level K s (sealKey s key videoEnd) :=
  ⟨.single (.finalized videoEnd hsealable) id, rfl, Adds.one rfl hkey,
    fun _ hseal => .inl (mem_removeSeal.mp hseal).2⟩

theorem finalizeSegment_level (videoEnd : VideoEnd)
    (hsealable : Sealable s key) (hkey : K key) :
    Gives s (finalizeSegment key videoEnd) (fun _ => Level K s) C := by
  refine request_bind fun error => ?_
  cases error with
  | some detail =>
    exact Gives.after (Level.one (.finalized key videoEnd (some detail)) hkey
      (.unfinalized videoEnd detail hsealable) rfl rfl rfl) (deferSeal_level _ _ hkey _)
  | none =>
    refine Runs.modify_bind (Gives.after (sealKey_level videoEnd hsealable hkey) ?_)
    exact (renewArtifactId_level.bind fun _ => attemptClearStorage_level) _

/-- A segment that is not open is sealed, or waits for its seal. -/
theorem sealSegment_level (segment : OpenSegment)
    (hclosed : s.currentSegment.map OpenSegment.key ≠ some segment.key) (hkey : K segment.key) :
    Gives s (sealSegment segment) (fun _ => Level K s) C := by
  refine request_bind fun error => Gives.after (Level.one (.encoderFinalized error) trivial
    (.noted (.encoderFinalized error) trivial) rfl rfl rfl) ?_
  cases error with
  | some detail => exact applyEncoderError_level detail _
  | none =>
    refine ask_bind fun reading => Runs.get_bind ?_
    split
    · exact ((deferSeal_level _ _ hkey).bind fun _ => renewArtifactId_level) _
    next hrows =>
    refine finalizeSegment_level _ ⟨hclosed, ?_⟩ hkey
    show segment.key ∉ s.pendingActivityRows.map PendingActivityRow.key
    intro hmem
    obtain ⟨row, hrow, hkey⟩ := List.mem_map.mp hmem
    exact hrows (List.any_eq_true.mpr ⟨row, hrow, decide_eq_true hkey⟩)

/-- Afterwards a running engine has its segment or a fault. -/
structure Renews (s s' : Engine) : Prop where
  works : ReflTransGen Work s s'
  sound : Settled s → Sound s'

theorem Renews.path (h : Renews s s') : Path s s' :=
  ⟨h.works, (sameSetup_of_works h.works).switches, fun hs => (h.sound hs).settled,
    fun hs _ => (h.sound hs).guarded⟩

theorem Path.renews (h : Path s s') (h' : Renews s' s'') : Renews s s'' :=
  ⟨h.works.trans h'.works, fun hs => h'.sound (h.keeps.settled hs)⟩

theorem Renews.trans (h : Renews s s') (h' : Path s' s'') : Renews s s'' :=
  ⟨h.works.trans h'.works, fun hs => h'.keeps.sound (h.sound hs)⟩

theorem renews_after {p : EngineProg α} {f : α → EngineProg β}
    (hp : Stays Path p) (hf : ∀ a, Stays Renews (f a)) : Stays Renews (p >>= f) :=
  hp.comp hf Path.renews

theorem renews_before {p : EngineProg α} {f : α → EngineProg β}
    (hp : Stays Renews p) (hf : ∀ a, Stays Path (f a)) : Stays Renews (p >>= f) :=
  hp.comp hf Renews.trans

theorem path_of_renews {p : EngineProg α} (h : Stays Renews p) : Stays Path p :=
  fun s => (h s).weaken fun _ _ => Renews.path

theorem attachSegment_renews (key : SegmentKey) (dir : String) :
    Stays Renews (attachSegment key dir) := by
  refine renews_after (ask_path _) fun _ => renews_after (ask_path _) fun _ => renews_before ?_
    fun _ => flushActivityQueue_path
  exact Stays.modify fun s => ⟨.single (.attached _), fun hs => ⟨hs, fun _ _ => .inl rfl⟩⟩

theorem openSegmentKey_renews (key : SegmentKey) : Stays Renews (openSegmentKey key) := by
  intro s
  refine Runs.get_bind ?_
  split
  · next segment hsegment =>
    refine Runs.pure ⟨.refl, fun hs => ⟨hs, fun _ _ => .inl ?_⟩⟩
    rw [hsegment]
    rfl
  refine renews_after (request_path _ (fun result => .opened key (failure result))
    fun _ => trivial) (fun result => ?_) _
  cases result with
  | error detail =>
    exact Stays.modify fun s => ⟨.single (.faulted detail), fun hs => ⟨⟨hs.1, rfl⟩,
      fun _ _ => .inr rfl⟩⟩
  | ok dir => exact renews_before (attachSegment_renews key dir) fun _ => attemptClearStorage_path

theorem openCurrentSegment_renews : Stays Renews openCurrentSegment :=
  renews_after (ask_path _) fun _ => renews_after Stays.get fun _ => openSegmentKey_renews _

theorem adoptCurrentSegment_path : Stays Path adoptCurrentSegment := by
  refine Stays.get.bind fun s => ?_
  split
  · exact Stays.pure ()
  refine (ask_path _).bind fun now => (request_path _
    (fun result => .looked (segmentFor now s.config.segmentSecs) (failure result))
    fun _ => trivial).bind fun result => ?_
  match result with
  | .ok (some dir) => exact path_of_renews (attachSegment_renews _ dir)
  | .ok none => exact Stays.pure ()
  | .error detail => exact path_of_level (noteStorageFault_level detail)

/-- A window left, as far as the seal goes. -/
theorem leaveSegment_spec (segment : OpenSegment) :
    Gives s (leaveSegment segment) fun _ s' => ReflTransGen Work s s' ∧ (Settled s → Settled s') ∧
      ∃ entry ∈ s'.history, entry.act = .left segment.key ∧ entry.state = s'.state ∧
        entry.activityThroughPause = s'.activityThroughPause := by
  refine Runs.modify_bind ?_
  refine Runs.bind (sealSegment_level (K := fun _ => True) segment (Option.some_ne_none _).symm
    trivial) fun _ s' hlevel => ?_
  refine Runs.modify ⟨.head .detached (hlevel.path.works.tail (.noted _ trivial)),
    fun hsettled => hlevel.path.keeps.settled hsettled, ?_⟩
  exact ⟨s'.entry (.left segment.key), List.mem_append_right _ List.mem_cons_self, rfl, rfl, rfl⟩

/-- After the window was left, the engine has a segment again, or does not have to. -/
theorem reopen_spec (closing : Bool) (key left : SegmentKey) {entry : Entry}
    (hleft : entry ∈ s.history) (hact : entry.act = .left left) (hstate : entry.state = s.state)
    (hthrough : entry.activityThroughPause = s.activityThroughPause) :
    Gives s (reopen closing key) fun _ => Renews s := by
  refine Runs.get_bind ?_
  split
  · exact renews_before (openSegmentKey_renews key) (fun _ => Stays.pure true) _
  next hclosing =>
  simp only [Bool.or_eq_true, not_or, Bool.not_eq_true] at hclosing
  refine Runs.pure ⟨.refl, fun hsettled => ⟨hsettled, fun hcovered hrunning => ?_⟩⟩
  -- The rotation was recorded in this state, and the history is covered.
  obtain ⟨hwaiting, hactivity⟩ := waiting_of_not_segmentWanted hsettled hrunning hclosing.2
  have hentry := hcovered entry hleft left hact
  rw [hstate, hthrough] at hentry
  rcases hentry hrunning with h | h
  · exact absurd hwaiting h
  · exact absurd h hactivity

theorem moveOn_renews (closing : Bool) (segment : OpenSegment) (next : Nat → SegmentKey) :
    Stays Renews (moveOn closing segment next) := by
  intro s
  refine Runs.bind (leaveSegment_spec segment) fun _ s1 h => ?_
  obtain ⟨hworks, hsettled, entry, hleft, hact, hstate, hthrough⟩ := h
  refine Runs.get_bind ?_
  refine (reopen_spec closing _ segment.key hleft hact hstate hthrough).weaken fun _ s2 h => ?_
  exact ⟨hworks.trans h.works, fun hs => h.sound (hsettled hs)⟩

/-- By induction on the rounds: each leaves the engine with its segment, or with none to have. -/
theorem rotateLoop_path (closing : Bool) (now rounds : Nat) :
    Stays Path (rotateLoop closing now rounds) := by
  induction rounds with
  | zero => exact Stays.call fun _ _ => .refl
  | succ rounds ih =>
    refine Stays.get.bind fun s => ?_
    split
    · exact Stays.pure ()
    next segment _ =>
    split
    · exact Stays.pure ()
    split
    · exact closeActivity_path.bind fun _ => (tell_path (.stopped .desktopActivity) trivial).bind
        fun _ => (path_of_renews (moveOn_renews closing segment _)).bind fun _ => Stays.pure ()
    have hforward : Stays Path (stepForward closing segment) := closeActivity_path.bind
      fun _ => path_of_renews (moveOn_renews closing segment _)
    refine hforward.bind fun reopened => ?_
    split
    · exact ih
    · exact Stays.pure ()

theorem rotateSegments_path (closing : Bool) : Stays Path (rotateSegments closing) :=
  fun s answers => ((ask_path _).bind fun _ => rotateLoop_path closing _ _) s answers

theorem ensureSegmentForNow_renews : Stays Renews ensureSegmentForNow := by
  refine renews_after (rotateSegments_path false) fun _ s => ?_
  refine Runs.get_bind ?_
  refine Runs.onlyIf (fun _ => openCurrentSegment_renews _) fun hsome => ?_
  refine ⟨.refl, fun hsettled => ⟨hsettled, fun _ _ => .inl ?_⟩⟩
  simpa using hsome

theorem ensureSegmentForNow_path : Stays Path ensureSegmentForNow :=
  path_of_renews ensureSegmentForNow_renews

/-! ### Captured data -/

theorem writeAudioChunk_works
    {chunk : CaptureChunk} (hserves : Serves s (.audio kind admission chunk)) :
    Works s s (writeAudioChunk chunk) := by
  refine Runs.get_bind ?_
  split
  · exact Runs.pure .refl
  next segment _ =>
  refine request_bind fun error => ?_
  refine Works.after (.single (.used hserves ⟨segment, rfl⟩) id) ?_
  cases error with
  | none =>
    exact (Stays.get.bind fun _ => Stays.onlyIf _
      ((Stays.modify fun _ => .single .unstalled id).bind
      fun _ => attemptClearStorage_path)) _
  | some detail => exact Runs.modify_bind (Runs.modify (.single (.stalled detail) id))

theorem encodeFrame_works (admission : InputAdmission)
    (hserves : Serves s (.screen admission frame)) : Works s s (encodeFrame frame) := by
  refine request_bind fun error => ?_
  refine Works.after (.single (.used hserves (show frame = frame from rfl)) id) ?_
  cases error with
  | none => exact Runs.pure .refl
  | some detail => exact applyEncoderError_path detail _

theorem encodeScreenFrame_works
    (hserves : Serves s (.screen admission frame)) : Works s s (encodeScreenFrame frame) := by
  refine Runs.get_bind ?_
  split
  · exact Runs.pure .refl
  next segment _ =>
  split
  · exact encodeFrame_works admission hserves
  refine request_bind fun error => ?_
  refine Works.after (.single (.noted _ trivial) id) ?_
  cases error with
  | some detail => exact applyEncoderError_path detail _
  | none =>
    refine Runs.modify_bind (Works.after (.single .encoding fun h => Option.isSome_map.trans h) ?_)
    exact encodeFrame_works admission ⟨hserves.serving, hserves.current⟩

/-- A preview shows the event that is handled, which stays so. -/
theorem updatePreview_works (kind : SourceKind) (at_ interval : Int)
    (hserves : Serves s event) (hshows : Carries event (.previewed event)) :
    Gives s (updatePreview kind at_ interval event)
      fun _ s' => Path s s' ∧ Serves s' event := by
  refine Runs.get_bind (Runs.onlyIf (fun _ => ?_) fun _ => ⟨.refl, hserves⟩)
  refine Runs.modify_bind (Runs.modify ⟨.trans (.single
    (.previews (Function.update s.lastPreview kind (some at_))) id)
    (.single (.used ?_ hshows) id), ?_⟩)
  · exact ⟨hserves.serving, hserves.current⟩
  · exact ⟨hserves.serving, hserves.current⟩

theorem useEvent_works (hserves : Serves s event) :
    Works s s (useEvent event) := by
  cases event with
  | audio kind admission chunk =>
    refine Runs.bind (R := fun _ s' => Path s s' ∧ Serves s' (.audio kind admission chunk)) ?_
      fun _ s' h => Works.after h.1 (writeAudioChunk_works h.2)
    refine ask_bind fun wanted => ?_
    refine Runs.onlyIf (fun _ => ?_) fun _ => ⟨.refl, hserves⟩
    refine ask_bind fun now => ?_
    exact updatePreview_works kind _ _ hserves rfl
  | screen admission frame =>
    refine Runs.bind (R := fun _ s' => Path s s' ∧ Serves s' (.screen admission frame)) ?_
      fun _ s' h => Works.after h.1 (encodeScreenFrame_works h.2)
    refine ask_bind fun wanted => ?_
    exact Runs.onlyIf (fun _ => updatePreview_works .screen _ _ hserves rfl)
      fun _ => ⟨.refl, hserves⟩

/-- An event that is admitted comes from the sink its source has now. -/
theorem admits_spec (kind : SourceKind) (admission : InputAdmission) :
    Gives s (admits kind admission)
      fun admitted s' => Path s s' ∧ s'.serving = s.serving ∧ s'.generations = s.generations ∧
        (admitted = true → admission.sourceGeneration = s.generations kind) := by
  refine Runs.get_bind (ask_bind fun stream => ?_)
  refine Runs.bind (R := fun _ s' => s = s') (Runs.bind (ask_spec _) fun reading s2 h2 => ?_) ?_
  · subst h2
    exact Runs.pure rfl
  intro state s3 h3
  subst h3
  have hadmitted : ∀ {b : Bool},
      (admission.sourceGeneration == s.generations kind && admission.streamGeneration == stream &&
        s.state.isSourceEnabled kind && b) = true →
      admission.sourceGeneration = s.generations kind := by
    intro b h
    simp only [Bool.and_eq_true, beq_iff_eq] at h
    exact h.1.1.1
  refine Runs.bind (R := fun _ s' => Path s s' ∧ s'.serving = s.serving ∧
    s'.generations = s.generations) (Runs.onlyIf (fun _ => ?_) fun _ => ⟨.refl, rfl, rfl⟩) ?_
  · exact Runs.modify ⟨.single (.previews _) id, rfl, rfl⟩
  · rintro _ s4 ⟨hpath, hserving, hgenerations⟩
    exact Runs.pure ⟨hpath, hserving, hgenerations, hadmitted⟩

theorem handleEvent_path (event : CaptureEvent) : Stays Path (handleEvent event) := by
  intro s
  refine Runs.modify_bind (Works.after (.single (.serving (some event)) id) ?_)
  refine Runs.bind (admits_spec _ _) ?_
  rintro admitted s1 ⟨hpath, hserving, hgenerations, hadmitted⟩
  refine Works.after hpath (Works.bind (Runs.onlyIf (fun h => ?_) fun _ => .refl) fun _ s2 _ => ?_)
  · exact useEvent_works ⟨hserving, (hadmitted h).trans (by rw [hgenerations])⟩
  · exact Runs.modify (.single (.serving none) id)

theorem handleEvents_path (events : List CaptureEvent) : Stays Path (handleEvents events) := by
  induction events with
  | nil => exact Stays.pure ()
  | cons event events ih => exact (handleEvent_path event).bind fun _ => ih

theorem drainEvents_path : Stays Path drainEvents :=
  (ask_path _).bind fun events => handleEvents_path events

/-! ### Storage that owes something -/

theorem retrySeal_level (videoEnd : VideoEnd) (hkey : K key) :
    Stays (Level K) (retrySeal key videoEnd) := by
  intro s
  refine Runs.get_bind ?_
  split
  · exact Runs.pure (refl_of (Level K) s)
  next hskip =>
  simp only [Bool.or_eq_true, not_or, Bool.not_eq_true, Option.any_eq_false, List.any_eq_false,
    decide_eq_false_iff_not, decide_eq_true_eq] at hskip
  have hsealable : Sealable s key := by
    refine ⟨fun h => ?_, fun hmem => ?_⟩
    · obtain ⟨segment, hsegment, hkey⟩ := Option.map_eq_some_iff.mp h
      exact hskip.1 segment hsegment hkey
    · obtain ⟨row, hrow, hkey⟩ := List.mem_map.mp hmem
      exact hskip.2 row hrow hkey
  refine request_bind fun error => ?_
  cases error with
  | none =>
    exact Runs.modify_bind (Gives.after (sealKey_level videoEnd hsealable hkey)
      (renewArtifactId_level _))
  | some detail =>
    exact Gives.after (Level.one (.finalized key videoEnd (some detail)) hkey
      (.unfinalized videoEnd detail hsealable) rfl rfl rfl) (noteStorageFault_level detail _)

theorem retrySeals_level {seals : List (SegmentKey × VideoEnd)}
    (hseals : ∀ waiting ∈ seals, K waiting.1) : Stays (Level K) (retrySeals seals) := by
  induction seals with
  | nil => exact Stays.pure ()
  | cons waiting seals ih =>
    exact (retrySeal_level _ (hseals waiting List.mem_cons_self)).bind fun _ =>
      ih fun waiting h => hseals waiting (List.mem_cons_of_mem _ h)

theorem serviceStorage_path : Stays Path serviceStorage := by
  refine Stays.get.bind fun s => Stays.onlyIf _ ((ask_path _).bind fun now =>
    (Stays.onlyIf _ ?_).bind fun _ => Stays.modify fun s => ?_)
  · exact flushActivityQueue_path.bind fun _ => Stays.get.bind fun _ =>
      (path_of_level (retrySeals_level fun _ _ => trivial)).bind fun _ => Stays.get.bind fun _ =>
        Stays.onlyIf _ (path_of_renews openCurrentSegment_renews)
  · unfold Engine.settleStorage
    split
    · next hhealthy => exact .single (.healed hhealthy) id
    · split
      · exact .single (.delayed now) id
      · exact .refl

/-! ### Starting and stopping sources -/

theorem isLicensed_append (history : List Entry) (entry : Entry) (kind : SourceKind) :
    isLicensed (history ++ [entry]) kind = licenses kind (isLicensed history kind) entry := by
  simp [isLicensed]

/-- Acts other than starts leave a licence. -/
theorem Licensed.record (h : Licensed s kind) (act : Act) {s1 : Engine}
    (hact : ∀ kind error, act ≠ .started kind error)
    (hhistory : s1.history = (s.record act).history) : Licensed s1 kind := by
  intro hkind
  rw [hhistory]
  show isLicensed (s.history ++ [_]) kind = true
  rw [isLicensed_append, h hkind]
  unfold licenses
  split
  · exact ite_self _
  · exact ite_self _
  · next hstarted => exact absurd hstarted (hact _ _)
  · rfl

theorem startSource_works (hmay : MayStart s kind)
    (hlicensed : Licensed s kind) : Works s s (startSource kind) := by
  refine Runs.get_bind (Runs.onlyIf (fun henabled => ?_) fun _ => .refl)
  refine Runs.modify_bind (Works.after (.single (.handed kind) id) ?_)
  refine request_bind fun error => ?_
  have hhanded : Licensed (s.hand kind) kind :=
    hlicensed.record (.handed kind _) (fun _ _ h => by cases h) rfl
  cases error with
  | none => exact Runs.modify (.single (.started henabled hmay hhanded) id)
  | some error =>
    refine (applySourceError_spec kind error).weaken ?_
    rintro _ s2 ⟨now, rfl⟩
    refine .single (.failedToStart error now henabled hmay hhanded) ?_
    rw [(reported_refuse kind error now).currentSegment]
    exact id

theorem startAsked_works (hmay : MayStart s kind) :
    Works s s (startAsked kind) :=
  Runs.modify_bind (Works.after (.single (.noted _ trivial) id)
    (startSource_works hmay fun _ => by
      show isLicensed (s.history ++ [_]) kind = true
      rw [isLicensed_append]
      exact if_pos rfl))

theorem stopActivity_path : Stays Path stopActivity :=
  ensureSegmentForNow_path.bind fun _ => closeActivity_path.bind fun _ => tell_path _ trivial

theorem stopSource_path (kind : SourceKind) : Stays Path (stopSource kind) := by
  refine (Stays.modify fun _ => .single (.retired kind) id).bind fun _ => ?_
  cases kind with
  | desktopActivity => exact stopActivity_path
  | _ => exact tell_path _ trivial

theorem startEnabled_works (kinds : List SourceKind) (hmay : ∀ kind ∈ kinds, MayStart s kind) :
    Works s s (startEnabled kinds) := by
  induction kinds generalizing s with
  | nil => exact Runs.pure .refl
  | cons kind kinds ih =>
    refine Runs.get_bind (Works.bind (Runs.onlyIf (fun _ => ?_) fun _ => .refl) ?_)
    · exact startAsked_works (hmay kind List.mem_cons_self)
    · intro _ s' hpath
      exact ih fun kind' hkind' => hpath.sameSetup.mayStart
        (hmay kind' (List.mem_cons_of_mem _ hkind'))

theorem mayStart_of_unpaused (h : s.state.isPaused = false) (kind : SourceKind) :
    MayStart s kind := by
  intro hpaused
  rw [h] at hpaused
  cases hpaused

/-! ### Planned restarts -/

section Plans

variable {other : SourceKind}

theorem samePlan_takeRetry (hother : other ≠ kind) : SamePlan other s (s.takeRetry kind) :=
  ⟨rfl, rfl, Function.update_of_ne hother _ _⟩

/-- A start leaves the other sources alone. -/
theorem startSource_samePlan (kind : SourceKind) :
    Gives s (startSource kind) fun _ s' => ∀ other, other ≠ kind →
      SamePlan other s s' := by
  refine Runs.get_bind (Runs.onlyIf (fun _ => Runs.modify_bind ?_) fun _ other _ => .refl other s)
  refine request_bind fun error => ?_
  cases error with
  | none =>
    refine Runs.modify fun other hother => ?_
    have hbefore : SamePlan other s ((s.hand kind).record (.started kind none)) := ⟨rfl, rfl, rfl⟩
    exact hbefore.trans ((reported_markSourceSuccess kind).others other hother)
  | some error =>
    refine (applySourceError_spec kind error).weaken ?_
    rintro _ s2 ⟨now, rfl⟩ other hother
    have hbefore : SamePlan other s (((s.hand kind).record
        (.started kind (some error))).clearSourcePreview kind) := ⟨rfl, rfl, rfl⟩
    exact hbefore.trans ((reported_refuse kind error now).others other hother)

/-- A restart leaves the other sources alone. Desktop activity is another matter: its stop can
seal a segment, and so report an error of the screen's encoder. -/
theorem restart_samePlan (kind : SourceKind) : Gives s (do
      stopSource kind
      startSource kind) fun _ s' => kind ≠ .desktopActivity → ∀ other, other ≠ kind →
        SamePlan other s s' := by
  have hstop : ∀ kind', kind' ≠ .desktopActivity → Gives s (stopSource kind')
      fun _ s' => ∀ other, SamePlan other s s' := by
    intro kind' hkind
    refine Runs.modify_bind ?_
    cases kind' with
    | desktopActivity => exact absurd rfl hkind
    | _ => exact Runs.modify fun _ => ⟨rfl, rfl, rfl⟩
  by_cases hkind : kind = .desktopActivity
  · exact Runs.bind (stopSource_path kind s) fun _ _ _ => (startSource_samePlan kind).weaken
      fun _ _ _ h => absurd hkind h
  · refine Runs.bind (hstop kind hkind) fun _ s1 h1 => (startSource_samePlan kind).weaken ?_
    exact fun _ _ h _ other hother => (h1 other).trans (h other hother)

end Plans

/-- A stop leaves a licence. -/
theorem stopSource_licensed (hlicensed : Licensed s kind) :
    Gives s (stopSource kind) fun _ s' => Licensed s' kind := by
  have hretired : Licensed (s.retire kind) kind :=
    hlicensed.record (.retired kind) (fun _ _ h => by cases h) rfl
  refine Runs.modify_bind ?_
  cases kind with
  | desktopActivity => exact (stopActivity_path _).weaken fun _ _ _ h => absurd rfl h
  | _ => exact Runs.modify (hretired.record _ (fun _ _ h => by cases h) rfl)

/-- The stop leaves the licence that the start needs. -/
theorem restart_works (hunpaused : s.state.isPaused = false)
    (hlicensed : Licensed s kind) :
    Works s s (do
      stopSource kind
      startSource kind) := by
  have hstop := Gives.and (stopSource_path kind s) (stopSource_licensed hlicensed)
  refine Runs.bind hstop fun _ s1 h1 => Works.after h1.1 (startSource_works ?_ h1.2)
  exact h1.1.sameSetup.mayStart (mayStart_of_unpaused hunpaused kind)

/-- The restarts that are due are made in an order in which desktop activity comes last. -/
theorem restartSources_works (kinds : List SourceKind)
    (horder : kinds.Pairwise fun kind later => kind ≠ .desktopActivity ∧ later ≠ kind)
    (hdue : ∀ kind ∈ kinds, s.retryAtEpochSecs kind ≠ none)
    (hunpaused : s.state.isPaused = false) : Works s s (restartSources kinds) := by
  induction kinds generalizing s with
  | nil => exact Runs.pure .refl
  | cons kind kinds ih =>
    obtain ⟨hlater, horder⟩ := List.pairwise_cons.mp horder
    have hretry : Work s (s.takeRetry kind) := .retried (hdue kind List.mem_cons_self)
    have hunpaused' : (s.takeRetry kind).state.isPaused = false :=
      hretry.sameSetup.isPaused.trans hunpaused
    refine Runs.modify_bind (Works.after (.single hretry id) (Runs.get_bind ?_))
    -- the rest of the list is due as before
    refine Runs.bind (R := fun _ s1 => Path (s.takeRetry kind) s1 ∧
      ∀ later ∈ kinds, SamePlan later (s.takeRetry kind) s1) (Runs.onlyIf
      (fun henabled => ?_) fun _ => ⟨.refl, fun _ _ => .refl _ _⟩) ?_
    · have hlicensed : Licensed (s.takeRetry kind) kind := by
        intro _
        show isLicensed (s.history ++ [_]) kind = true
        rw [isLicensed_append, show s.state.isSourceEnabled kind = true from henabled]
        exact if_pos rfl
      refine (Gives.and (restart_works hunpaused' hlicensed) (restart_samePlan kind)).weaken ?_
      rintro _ s1 ⟨hpath, hsame⟩
      exact ⟨hpath, fun later hmem => hsame (hlater later hmem).1 later (hlater later hmem).2⟩
    · rintro _ s1 ⟨hpath, hsame⟩
      refine Works.after hpath (ih horder (fun later hmem => ?_)
        (hpath.sameSetup.isPaused.trans hunpaused'))
      rw [(hsame later hmem).retryAt, (samePlan_takeRetry (hlater later hmem).2).retryAt]
      exact hdue later (List.mem_cons_of_mem _ hmem)

theorem retryDueSources_path : Stays Path retryDueSources := by
  intro s
  refine Runs.get_bind (Runs.onlyIf (fun hphase => ?_) fun _ => .refl)
  refine ask_bind fun now => ?_
  refine restartSources_works _ (List.Pairwise.filter _ (by decide)) (fun kind hmem hnone => ?_) ?_
  · have hdue := (List.mem_filter.mp hmem).2
    rw [hnone] at hdue
    cases hdue
  · have hpaused : s.state.phase ≠ .paused := by simpa using hphase
    rw [Ne, phase_paused_iff, Bool.not_eq_true] at hpaused
    exact hpaused

theorem mayStart_of_desktopActivityMayRun (h : s.desktopActivityMayRun = true) :
    s.state.isSourceEnabled .desktopActivity = true ∧ MayStart s .desktopActivity := by
  simp only [Engine.desktopActivityMayRun, Bool.and_eq_true] at h
  refine ⟨h.1, fun hpaused => ⟨rfl, ?_⟩⟩
  have hrun := h.2
  rw [if_pos (phase_paused_iff.mpr hpaused), Bool.and_eq_true] at hrun
  exact hrun.2

theorem pumpDesktopActivity_path : Stays Path pumpDesktopActivity := by
  intro s
  refine Runs.get_bind (Runs.onlyIf (fun hmay => ?_) fun _ => .refl)
  obtain ⟨henabled, hstart⟩ := mayStart_of_desktopActivityMayRun hmay
  refine ask_bind fun state => ?_
  refine Works.bind (Runs.onlyIf (fun _ => ?_) fun _ => .refl) fun _ s2 _ => closeActivity_path s2
  refine request_bind fun error => ?_
  exact Runs.pure (.single (.pumped error henabled hstart) id)

/-! ### Pauses -/

theorem clearPreviews_path : Stays Path clearPreviews :=
  Stays.modify fun _ => .single (.previews _) id

theorem pauseActivity_path : Stays Path pauseActivity :=
  closeActivity_path.bind fun _ => tell_path (.stopped .desktopActivity) trivial

theorem pauseCapture_path : Stays Path pauseCapture :=
  (tell_path (.stopped .screen) trivial).bind fun _ =>
    (tell_path (.stopped .systemAudio) trivial).bind fun _ =>
    (tell_path (.stopped .mic) trivial).bind fun _ =>
    (rotateSegments_path true).bind fun _ => Stays.get.bind fun _ =>
    (Stays.onlyIf _ pauseActivity_path).bind fun _ => drainEvents_path.bind fun _ =>
    (Stays.modify fun _ => .single .unstalled id).bind fun _ =>
      attemptClearStorage_path.bind fun _ =>
    clearPreviews_path.bind fun _ => foldSourceStates_path

/-- A resume leaves the engine with its segment. -/
theorem resumeCapture_renews (hunpaused : s.state.isPaused = false) :
    Gives s resumeCapture fun _ => Renews s := by
  refine Runs.get_bind (Runs.bind (R := fun _ => Renews s)
    (Runs.onlyIf (fun _ => ?_) fun hnone => ?_)
    fun _ s1 h1 => (foldSourceStates_path s1).weaken fun _ _ h => h1.trans h)
  · refine Runs.bind (ensureSegmentForNow_renews s) fun _ s1 h1 => ?_
    have hmay1 : ∀ kind, MayStart s1 kind := fun kind =>
      h1.path.sameSetup.mayStart (mayStart_of_unpaused hunpaused kind)
    refine Runs.weaken
      (Works.bind (startEnabled_works _ fun kind _ => hmay1 kind) fun _ s2 h2 => ?_)
      fun _ _ h => h1.trans h
    refine ask_bind fun state => ?_
    exact Runs.onlyIf (fun _ => startEnabled_works _ fun kind _ =>
      h2.sameSetup.mayStart (hmay1 kind)) fun _ => .refl
  · refine ⟨.refl, fun hs => sound_of_not_running hs ?_⟩
    rintro ⟨-, -, henabled⟩
    rw [hnone] at henabled
    cases henabled

theorem followInPause_path : Stays Path followInPause := by
  intro s
  refine Works.bind (request_path _ .checked (fun _ => trivial) s) fun state s1 h1 => ?_
  refine Runs.get_bind ?_
  split
  · next hthrough =>
    refine Works.bind (ensureSegmentForNow_path s1) fun _ s2 h2 => startAsked_works ?_
    refine h2.sameSetup.mayStart fun _ => ⟨rfl, ?_⟩
    exact (Bool.and_eq_true _ _ ▸ hthrough).1
  · exact Stays.onlyIf _ (stopSource_path _) s1

end Functions

/-! ## The whole engine -/

def Calm (s s' : Engine) : Prop := Work s s' ∨ Switch s s'

/-- Everything that happens without a change of the pause. -/
structure CalmPath (s s' : Engine) : Prop where
  steps : ReflTransGen Calm s s'
  sound : Sound s → Sound s'

/-- Everything that happens. -/
def Change (s s' : Engine) : Prop := Calm s s' ∨ Turn s s'

def Journey : Engine → Engine → Prop := ReflTransGen Change

instance : IsPreorder Engine CalmPath where
  refl _ := ⟨.refl, id⟩
  trans _ _ _ h h' := ⟨h.steps.trans h'.steps, fun hs => h'.sound (h.sound hs)⟩

instance : IsPreorder Engine Journey where
  refl _ := .refl
  trans _ _ _ h h' := h.trans h'

section Whole

theorem calm_of_works (h : ReflTransGen Work s s') : ReflTransGen Calm s s' :=
  ReflTransGen.mono (fun _ _ => Or.inl) _ _ h

theorem Path.calm (h : Path s s') : CalmPath s s' := ⟨calm_of_works h.works, h.keeps.sound⟩

theorem CalmPath.journey (h : CalmPath s s') : Journey s s' :=
  ReflTransGen.mono (fun _ _ => Or.inl) _ _ h.steps

theorem Path.journey (h : Path s s') : Journey s s' := h.calm.journey

theorem calm_of_path {p : EngineProg α} (h : Stays Path p) : Stays CalmPath p :=
  fun s => (h s).weaken fun _ _ => Path.calm

theorem journey_of_path {p : EngineProg α} (h : Stays Path p) : Stays Journey p :=
  fun s => (h s).weaken fun _ _ => Path.journey

/-- Everything that one operation does. At its end the engine is sound again. -/
structure Service (s s' : Engine) : Prop where
  journey : Journey s s'
  sound : Sound s → Sound s'

instance : IsPreorder Engine Service where
  refl _ := ⟨.refl, id⟩
  trans _ _ _ h h' := ⟨h.journey.trans h'.journey, fun hs => h'.sound (h.sound hs)⟩

theorem service_of_calm {p : EngineProg α} (h : Stays CalmPath p) : Stays Service p :=
  fun s => (h s).weaken fun _ _ hcalm => ⟨hcalm.journey, hcalm.sound⟩

theorem service_of_path {p : EngineProg α} (h : Stays Path p) : Stays Service p :=
  service_of_calm (calm_of_path h)

theorem turn_journey {change : Engine → Engine} (h : ∀ s, Turn s (change s)) :
    Stays Journey (Prog.modify change : EngineProg Unit) :=
  Stays.modify fun s => .single (.inr (h s))

/-! ### Switches -/

theorem isOn_append (history : List Entry) (entry : Entry) (kind : SourceKind) :
    isOn (history ++ [entry]) kind = turnsOn kind (isOn history kind) entry := by
  simp [isOn]

theorem isOn_stopped (kind : SourceKind) :
    isOn (s.record (.stopped kind)).history kind = false := by
  show isOn (s.history ++ [s.entry (.stopped kind)]) kind = false
  rw [isOn_append]
  exact if_pos rfl

theorem stopSource_off (kind : SourceKind) :
    Gives s (stopSource kind) fun _ s' => isOn s'.history kind = false := by
  refine Runs.modify_bind ?_
  cases kind with
  | screen | systemAudio | mic => exact Runs.modify (isOn_stopped _)
  | desktopActivity =>
    refine Runs.bind (ensureSegmentForNow_path _) fun _ s1 _ => ?_
    exact Runs.bind (closeActivity_path s1) fun _ s2 _ => Runs.modify (isOn_stopped _)

variable {kind : SourceKind}

/-- The end of `disableSource`: the switch, and the report that the source is inactive. -/
theorem switchOff_spec (hoff : isOn s.history kind = false) : Gives s (do
      Prog.modify (·.unplan kind)
      clearSourcePreview kind
      SolstoneWindows.CaptureEngine.reduce (.sourceEnabled kind false)
      applySourceReport kind .inactive) fun _ s' => Switch s s' ∧ (Sound s → Sound s') := by
  refine Runs.modify_bind (Runs.modify_bind (Runs.modify_bind (Runs.modify_bind ?_)))
  refine (reportTail_spec kind .inactive).weaken ?_
  rintro _ s1 ⟨now, rfl⟩
  refine ⟨.disabled now hoff, fun hs => ?_⟩
  have hcleared : Sound ((s.unplan kind).clearSourcePreview kind) := hs.of_same rfl rfl rfl rfl
  refine (reported_report kind .inactive now).keeps.sound ?_
  exact (sound_disabled kind hcleared).of_same rfl rfl rfl rfl

theorem disableSource_calm (kind : SourceKind) : Stays CalmPath (disableSource kind) := by
  intro s
  refine Runs.modify_bind ?_
  refine Runs.bind (R := fun _ s1 => Path s s1 ∧ isOn s1.history kind = false) ?_ ?_
  · refine (Gives.and (stopSource_path kind _) (stopSource_off kind)).weaken ?_
    rintro _ s1 ⟨hpath, hoff⟩
    exact ⟨.trans (.single (.retired kind) id) hpath, hoff⟩
  · rintro _ s1 ⟨hpath, hoff⟩
    exact (switchOff_spec hoff).weaken fun _ _ h => ⟨hpath.calm.steps.tail (.inr h.1),
      fun hs => h.2 (hpath.keeps.sound hs)⟩

/-- A source that the switch may start, may start. -/
theorem mayStart_of_sourceMayStart (h : s.sourceMayStart kind = true) :
    MayStart s kind := by
  intro hpaused
  simp only [Engine.sourceMayStart, phase_paused_iff.mpr hpaused, Bool.and_eq_true,
    Bool.or_eq_true, bne_self_eq_false, Bool.false_eq_true, false_or, beq_iff_eq] at h
  exact h.2

theorem enableSource_calm (kind : SourceKind) : Stays CalmPath (enableSource kind) := by
  intro s
  refine Runs.modify_bind (Runs.get_bind (Runs.onlyIf (fun hmay => ?_) fun hnot => ?_))
  · refine Runs.bind (ensureSegmentForNow_renews _) fun _ s1 h1 => ?_
    have hmay1 := h1.path.sameSetup.mayStart (mayStart_of_sourceMayStart hmay)
    refine (startAsked_works hmay1).weaken fun _ s2 h2 => ?_
    have hrenews := h1.trans h2
    exact ⟨.head (.inr (.enabled kind)) (calm_of_works hrenews.works),
      fun hs => hrenews.sound (settled_sourceEnabled kind true hs.settled)⟩
  · exact ⟨.single (.inr (.enabled kind)), fun hs => sound_of_not_running
      (settled_sourceEnabled kind true hs.settled) (not_running_of_not_sourceMayStart hnot)⟩

theorem applySourceEnabled_calm (kind : SourceKind) (enabled : Bool) :
    Stays CalmPath (applySourceEnabled kind enabled) := by
  unfold applySourceEnabled
  split
  · exact enableSource_calm kind
  · exact disableSource_calm kind

theorem followDesktopActivity_calm : Stays CalmPath followDesktopActivity := by
  refine Stays.get.bind fun s => ?_
  dsimp only
  split
  · exact applySourceEnabled_calm _ _
  · exact Stays.onlyIf _ (calm_of_path followInPause_path)

theorem switchSource_calm (kind : SourceKind) (enabled : Bool) :
    Stays CalmPath (switchSource kind enabled) := by
  cases kind with
  | screen =>
    exact (applySourceEnabled_calm .screen enabled).bind fun _ => followDesktopActivity_calm
  | systemAudio => exact applySourceEnabled_calm .systemAudio enabled
  | mic => exact applySourceEnabled_calm .mic enabled
  | desktopActivity =>
    exact (Stays.modify fun _ => ⟨.single (.inr (.allowed enabled)),
      fun hs => hs.of_same rfl rfl rfl rfl⟩).bind fun _ => followDesktopActivity_calm

theorem setSourceEnabled_calm (kind : SourceKind) (enabled : Bool) :
    Stays CalmPath (setSourceEnabled kind enabled) :=
  (switchSource_calm kind enabled).bind fun _ => calm_of_path foldSourceStates_path

theorem setDesktopActivityThroughPause_service (enabled : Bool) :
    Stays Service (setDesktopActivityThroughPause enabled) :=
  (Stays.modify fun _ => ⟨.single (.inr (.through enabled)),
    fun hs => hs.of_same rfl rfl rfl rfl⟩).bind fun _ => service_of_calm
    (followDesktopActivity_calm.bind fun _ => calm_of_path foldSourceStates_path)

/-! ### Operations -/

/-- The owner's pause, as the pause store holds it. -/
def heldOf (pause : OwnerPause) : HeldPause :=
  match pause.expiresAtEpochSecs with
  | some deadline => .until deadline
  | none => .untilResumed

/-- The owner's pause is recorded when it is another one than before. -/
inductive Records (ownerBefore : Option OwnerPause) : Engine → Engine → Prop
  | same {s : Engine} (hsame : s.state.ownerPause = ownerBefore) : Records ownerBefore s s
  | unkept {s : Engine} (hstore : s.pauseStore = false) : Records ownerBefore s s
  | recorded {s : Engine} (error : Option String) (hstore : s.pauseStore = true) :
    Records ownerBefore s (s.record (.pauseRecorded (s.state.ownerPause.map heldOf) error))

variable {ownerBefore : Option OwnerPause}

theorem Records.journey (h : Records ownerBefore s s') : Journey s s' := by
  cases h with
  | same _ | unkept _ => exact .refl
  | recorded error _ => exact .single (.inr (.recorded _ error))

theorem Records.keeps (h : Records ownerBefore s s') : Keeps s s' := by
  cases h with
  | same _ | unkept _ => exact refl_of Keeps s
  | recorded error _ => exact Agrees.keeps ⟨rfl, rfl, rfl, List.prefix_append _ _⟩

theorem recordOwnerPause_spec (ownerBefore : Option OwnerPause) : Gives s (do
      let s ← Prog.get
      Prog.onlyIf (s.state.ownerPause != ownerBefore) (recordOwnerPause s.state.ownerPause) :
        EngineProg Unit)
      fun _ => Records ownerBefore s := by
  refine Runs.get_bind (Runs.onlyIf (fun _ => ?_) fun hsame => ?_)
  · refine Runs.get_bind (Runs.onlyIf (fun hstore => ?_) fun hstore => .unkept hstore)
    refine request_bind fun error => ?_
    exact Runs.pure (.recorded error hstore)
  · exact .same (by simpa using hsame)

/-- Sources stop or start, and then the owner's pause is recorded. Unless a pause has just ended,
the engine was sound already. -/
theorem settlePause_records (wasPaused restart : Bool) (ownerBefore : Option OwnerPause) :
    Gives s (settlePause wasPaused restart ownerBefore) fun _ s' =>
      (∃ mid, Path s mid ∧ Records ownerBefore mid s') ∧
        (Settled s → (s.state.phase ≠ .paused → wasPaused = false → Guarded s) → Sound s') := by
  refine Runs.get_bind ?_
  have htail : ∀ mid, Path s mid →
      (Settled s → (s.state.phase ≠ .paused → wasPaused = false → Guarded s) → Sound mid) →
      Gives mid (do
        let s ← Prog.get
        Prog.onlyIf (s.state.ownerPause != ownerBefore) (recordOwnerPause s.state.ownerPause) :
          EngineProg Unit) fun _ s' => (∃ mid, Path s mid ∧ Records ownerBefore mid s') ∧
        (Settled s → (s.state.phase ≠ .paused → wasPaused = false → Guarded s) → Sound s') :=
    fun mid hmid hsound => (recordOwnerPause_spec ownerBefore).weaken fun _ _ h =>
      ⟨⟨mid, hmid, h⟩, fun hs hguarded => h.keeps.sound (hsound hs hguarded)⟩
  by_cases hpaused : s.state.phase = .paused
  · -- in a pause nothing is resumed, and nothing is to be captured
    refine Runs.bind (Stays.onlyIf _ pauseCapture_path s) fun _ s1 h1 => ?_
    refine Runs.bind (R := fun _ s2 => s1 = s2) (Runs.onlyIf (fun h => ?_) fun _ => rfl) ?_
    · simp [hpaused] at h
    · intro _ s2 h2
      subst h2
      exact htail s1 h1 fun hs _ =>
        h1.keeps.sound (sound_of_not_running hs (not_running_of_paused hpaused))
  · refine Runs.bind (R := fun _ s1 => s = s1) (Runs.onlyIf (fun h => ?_) fun _ => rfl) ?_
    · simp [hpaused] at h
    intro _ s1 h1
    subst h1
    have hunpaused := hpaused
    rw [phase_paused_iff, Bool.not_eq_true] at hunpaused
    refine Runs.bind (R := fun _ s1 => Path s s1 ∧ (Settled s →
      (s.state.phase ≠ .paused → wasPaused = false → Guarded s) → Sound s1))
      (Runs.onlyIf (fun _ => ?_) fun h => ⟨.refl, fun hs hguarded => ⟨hs, hguarded hpaused ?_⟩⟩) ?_
    · exact (resumeCapture_renews hunpaused).weaken fun _ _ h => ⟨h.path, fun hs _ => h.sound hs⟩
    · simp only [Bool.and_eq_false_iff, Bool.or_eq_false_iff, Bool.not_eq_false'] at h
      rcases h with h | h
      · simp [hpaused] at h
      · exact h.1
    · exact fun _ s2 h2 => htail s2 h2.1 h2.2

theorem autoResumeIfDue_service : Stays Service autoResumeIfDue := by
  intro s
  refine ask_bind fun now => ?_
  refine Runs.get_bind (Runs.onlyIf (fun _ => ?_) fun _ => refl_of Service s)
  refine Runs.modify_bind ((settlePause_records _ _ _).weaken fun _ s' h => ?_)
  obtain ⟨⟨mid, hpath, hrecords⟩, hsound⟩ := h
  refine ⟨.head (.inr .expired) (hpath.journey.trans hrecords.journey), fun hs => ?_⟩
  refine hsound (settled_reduce hs.settled rfl rfl) fun _ h => ?_
  cases h

theorem tick_service : Stays Service tick :=
  autoResumeIfDue_service.bind fun _ => service_of_path
    ((rotateSegments_path false).bind fun _ => serviceStorage_path.bind fun _ =>
      retryDueSources_path.bind fun _ => pumpDesktopActivity_path.bind
      fun _ => foldSourceStates_path)

theorem pump_service : Stays Service pump :=
  (service_of_path drainEvents_path).bind fun _ => tick_service

/-- The end of a pause changes nothing for an engine that was not paused. -/
theorem guarded_of_unpaused {event : AppEvent} (hs : Sound s)
    (hpaused : (s.state.phase == .paused) = false)
    (hrun : (ObserverState.reduce s.state event).runRequested = s.state.runRequested)
    (henabled : (ObserverState.reduce s.state event).anySourceEnabled = s.state.anySourceEnabled)
    (hfault : (ObserverState.reduce s.state event).storageFaulted = s.state.storageFaulted) :
    Guarded (s.reduce event) := by
  intro hcovered hrunning
  have hrunning' : Running (ObserverState.reduce s.state event) := hrunning
  show s.currentSegment.isSome = true ∨ (ObserverState.reduce s.state event).storageFaulted = true
  rw [hfault]
  refine hs.guarded hcovered ⟨hrun ▸ hrunning'.1, ?_, henabled ▸ hrunning'.2.2⟩
  rw [beq_eq_false_iff_ne, Ne, phase_paused_iff, Bool.not_eq_true] at hpaused
  exact hpaused

theorem paused_requestedPause (reason : PauseReason) (expires : Option Nat) :
    (s.reduce (.requestedPause reason expires)).state.phase = .paused := by
  rw [phase_paused_iff]
  cases reason with
  | operator => rfl
  | sessionLocked | systemSuspending => exact Bool.or_true _

theorem settled_requestedPause (reason : PauseReason) (expires : Option Nat) (hs : Settled s) :
    Settled (s.reduce (.requestedPause reason expires)) := by
  cases reason with
  | _ => exact settled_reduce hs rfl rfl

/-- After a change of the pause is asked for, the engine is sound unless a pause has just
ended. -/
structure Asked (s s' : Engine) : Prop where
  journey : Journey s s'
  settled : Sound s → Settled s'
  guarded : Sound s → s'.state.phase ≠ .paused → (s.state.phase == .paused) = false → Guarded s'

/-- What a command asks for before `settle_pause`: a change of the pause, or work. -/
theorem requestPause_gives (command : EngineCommand) {wasPaused : Bool} {Q : Engine → Prop}
    (hpause : ∀ reason duration now, Q (s.reduce (.requestedPause reason
      (Option.map (saturatingAdd now) duration))))
    (hresume : Q (s.reduce .requestedResume)) (hsystem : Q (s.reduce .systemResumed))
    (hwork : ∀ s', Path s s' → Q s') : Gives s (requestPause command wasPaused) fun _ => Q := by
  have hpath : Stays Path onDisplayChanged := Stays.get.bind fun _ => Stays.onlyIf _
    ((path_of_level (clearSourcePreview_level _)).bind fun _ => tell_path .displayChanged trivial)
  cases command with
  | pause reason duration => exact ask_bind fun now => Runs.modify (hpause reason duration now)
  | resume => exact Runs.modify hresume
  | systemResume => exact Runs.modify hsystem
  | togglePause =>
    unfold requestPause
    dsimp only
    split
    · exact Runs.modify hresume
    · exact Runs.modify (hpause .operator none 0)
  | _ => exact (hpath s).weaken fun _ => hwork

theorem requestPause_asked (command : EngineCommand) :
    Gives s (requestPause command (s.state.phase == .paused)) fun _ => Asked s := by
  refine requestPause_gives command (fun reason duration now => ?_) ?_ ?_ fun s' hpath => ?_
  · exact ⟨.single (.inr (.paused reason _)),
      fun hs => settled_requestedPause reason _ hs.settled,
      fun _ h => absurd (paused_requestedPause reason _) h⟩
  · exact ⟨.single (.inr .resumed), fun hs => settled_reduce hs.settled rfl rfl,
      fun hs _ h => guarded_of_unpaused hs h rfl rfl rfl⟩
  · exact ⟨.single (.inr .systemResumed), fun hs => settled_reduce hs.settled rfl rfl,
      fun hs _ h => guarded_of_unpaused hs h rfl rfl rfl⟩
  · exact ⟨hpath.journey, fun hs => hpath.keeps.settled hs.settled,
      fun hs _ _ => (hpath.keeps.sound hs).guarded⟩

theorem applyPauseCommand_service (command : EngineCommand) :
    Stays Service (applyPauseCommand command) := by
  intro s
  refine Runs.get_bind (Runs.bind (requestPause_asked command) fun _ s1 h1 => ?_)
  refine (settlePause_records _ _ _).weaken fun _ s2 h2 => ?_
  obtain ⟨⟨mid, hpath, hrecords⟩, hsound⟩ := h2
  exact ⟨h1.journey.trans (hpath.journey.trans hrecords.journey),
    fun hs => hsound (h1.settled hs) (h1.guarded hs)⟩

theorem applyCommand_service (command : EngineCommand) : Stays Service (applyCommand command) := by
  refine (service_of_path (rotateSegments_path false)).bind fun _ => ?_
  have hpause := applyPauseCommand_service command
  cases command with
  | setSourceEnabled kind enabled => exact service_of_calm (setSourceEnabled_calm kind enabled)
  | setDesktopActivityPreferences => exact service_of_path closeActivity_path
  | setDesktopActivityThroughPause enabled => exact setDesktopActivityThroughPause_service enabled
  | clearPreviews => exact service_of_path clearPreviews_path
  | _ => exact hpause

/-- Starting opens the first segment, unless there is nothing to capture. -/
theorem startSources_renews : Stays Renews startSources := by
  intro s
  refine Runs.get_bind ?_
  split
  · next hpaused =>
    have hstill : ∀ {s'}, Path s s' → Renews s s' := fun h => ⟨h.works, fun hs =>
      h.keeps.sound (sound_of_not_running hs (not_running_of_paused hpaused))⟩
    refine Runs.onlyIf (fun hthrough => ?_) fun _ => hstill .refl
    refine Runs.bind (ensureSegmentForNow_path s) fun _ s1 h1 => ?_
    have hmay : MayStart s .desktopActivity := fun _ => ⟨rfl, (Bool.and_eq_true _ _ ▸ hthrough).1⟩
    exact (startAsked_works (h1.sameSetup.mayStart hmay)).weaken fun _ _ h => hstill (h1.trans h)
  · next hpaused =>
    rw [phase_paused_iff, Bool.not_eq_true] at hpaused
    refine Runs.onlyIf (fun _ => ?_) fun hnone => ⟨.refl, fun hs => sound_of_not_running hs ?_⟩
    · refine Runs.bind (ensureSegmentForNow_renews s) fun _ s1 h1 => ?_
      refine (startEnabled_works _ fun kind _ => ?_).weaken fun _ _ h => h1.trans h
      exact h1.path.sameSetup.mayStart (mayStart_of_unpaused hpaused kind)
    · rintro ⟨-, -, henabled⟩
      rw [hnone] at henabled
      cases henabled

theorem start_spec : Gives s start fun _ s' => Journey s s' ∧ (Settled s → Sound s') := by
  have hrenews : Stays Renews (do
      adoptCurrentSegment
      startSources
      foldSourceStates) := renews_after adoptCurrentSegment_path fun _ =>
    renews_before startSources_renews fun _ => foldSourceStates_path
  refine Runs.modify_bind ((hrenews _).weaken fun _ s' h => ?_)
  exact ⟨.head (.inr .requested) h.path.journey, fun hs => h.sound (settled_reduce hs rfl rfl)⟩

/-- The last segment is left for good. -/
theorem stop_works : Gives s stop fun _ => ReflTransGen Work s := by
  refine Runs.bind (rotateSegments_path true s) fun _ s1 h1 => ?_
  refine Runs.bind (tell_path (.stopped .screen) trivial s1) fun _ s2 h2 => ?_
  refine Runs.bind (tell_path (.stopped .systemAudio) trivial s2) fun _ s3 h3 => ?_
  refine Runs.bind (tell_path (.stopped .mic) trivial s3) fun _ s4 h4 => ?_
  refine Runs.bind (pauseActivity_path s4) fun _ s5 h5 => ?_
  refine Runs.bind (drainEvents_path s5) fun _ s6 h6 => ?_
  refine Runs.bind (flushActivityQueue_path s6) fun _ s7 h7 => ?_
  refine Runs.bind (R := fun _ => ReflTransGen Work s7) (Runs.get_bind ?_) fun _ s8 h8 => ?_
  · split
    · exact Runs.pure .refl
    · exact (leaveSegment_spec _).weaken fun _ _ h => h.1
  have hbefore := h1.trans (h2.trans (h3.trans (h4.trans (h5.trans (h6.trans h7)))))
  refine ((clearPreviews_path.bind fun _ => foldSourceStates_path) s8).weaken fun _ _ h => ?_
  exact hbefore.works.trans (h8.trans h.works)

theorem setSourceChoices_journey (setup : SetupSnapshot) : Stays Journey (setSourceChoices setup) :=
  (turn_journey fun _ => .chosen .screen setup.screen).bind fun _ =>
    (turn_journey fun _ => .chosen .systemAudio setup.systemAudio).bind fun _ =>
    (turn_journey fun _ => .chosen .mic setup.mic).bind fun _ =>
    (Stays.modify fun _ => .head (.inl (.inr (.allowed setup.desktopActivityAllowed)))
      (.single (.inr (.through setup.desktopActivityThroughPause)))).bind fun _ =>
    (turn_journey fun _ => .chosen .desktopActivity setup.desktopActivity).bind fun _ =>
    journey_of_path closeActivity_path

theorem holdOwnerPauseIn_journey : Stays Journey holdOwnerPauseIn := by
  refine (journey_of_path (ask_path _)).bind fun now => (journey_of_path (ask_path _)).bind
    fun held => Stays.bind ?_ fun _ => turn_journey fun _ => .stored
  unfold restorePause
  cases held with
  | none => exact Stays.pure ()
  | some held =>
    dsimp only
    split
    · exact turn_journey fun _ => .paused _ _
    · exact (Stays.call fun _ _ => .single (.inr (.recorded _ _))).bind fun _ => Stays.pure ()

end Whole

/-! ## Calls -/

/-- The methods of the engine that the shell calls. New exclusion rules close the open rows of
desktop activity. -/
inductive Method where
  | setSourceChoices (setup : SetupSnapshot)
  | holdOwnerPauseIn
  | setExclusionRules
  | start
  | operate (operation : Operation)
  | stop

def Method.run : Method → EngineProg Unit
  | .setSourceChoices setup => SolstoneWindows.CaptureEngine.setSourceChoices setup
  | .holdOwnerPauseIn => SolstoneWindows.CaptureEngine.holdOwnerPauseIn
  | .setExclusionRules => closeActivity
  | .start => SolstoneWindows.CaptureEngine.start
  | .operate operation => operation.run
  | .stop => SolstoneWindows.CaptureEngine.stop

def Called (s s' : Engine) : Prop := ∃ method : Method, Returns method.run s s'

/-- One operation is a chain of steps, and leaves a sound engine sound. -/
theorem operation_service (operation : Operation) : Stays Service operation.run := by
  cases operation with
  | pump => exact pump_service
  | tick => exact tick_service
  | command command => exact applyCommand_service command
  | event event => exact service_of_path (handleEvent_path event)

/-- Every method is a chain of steps. -/
theorem method_journey (method : Method) : Stays Journey method.run := by
  cases method with
  | setSourceChoices setup => exact setSourceChoices_journey setup
  | holdOwnerPauseIn => exact holdOwnerPauseIn_journey
  | setExclusionRules => exact journey_of_path closeActivity_path
  | start => exact fun s => start_spec.weaken fun _ _ h => h.1
  | operate operation =>
    exact fun s => (operation_service operation s).weaken fun _ _ h => h.journey
  | stop =>
    exact fun s => stop_works.weaken fun _ _ h =>
      ReflTransGen.mono (fun _ _ => Or.inl) _ _ (calm_of_works h)

theorem Called.journey (h : Called s s') : Journey s s' := by
  obtain ⟨method, hreturns⟩ := h
  exact hreturns.of_runs (method_journey method s)

theorem new_history (config : EngineConfig) (deferred : List SegmentKey) (artifactId : String) :
    (Engine.new config deferred artifactId).history = [] := by
  unfold Engine.new
  dsimp only
  split <;> rfl

/-- What every step keeps, every run keeps. -/
theorem invariant_of_change {I : Engine → Prop} (hstep : ∀ s s', Change s s' → I s → I s')
    (hs : I s) (hrun : ReflTransGen Called s s') : I s' := by
  refine reflTransGen_invariant (I := I) (fun a b ha hcall => ?_) hs hrun
  exact reflTransGen_invariant (I := I) (fun c d hc hchange => hstep c d hchange hc)
    ha hcall.journey

end SolstoneWindows.Proofs.CaptureEngine
