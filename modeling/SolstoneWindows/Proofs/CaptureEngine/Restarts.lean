import SolstoneWindows.Proofs.CaptureEngine.RestartPolicy
import SolstoneWindows.Proofs.CaptureEngine.Segments
import SolstoneWindows.Proofs.CaptureEngine.Sources

/-!
# Faulted sources

`watch kind s` is what the engine knows of one source, with the news of it that are in the
history. Every change of the engine is a step of that source's restart policy, or leaves it alone
(`Change.watch`), so what `RestartPolicy` says of runs of the policy holds of the engine.

Both results come with a condition that the source does not meet by itself.

* A fault that follows a refused permission, or a start that went through, finds no plan and makes
  none (`pump_fault_without_plan`).
* A start that goes through forgets the failures, so a source that is inactive for a moment after
  each restart is restarted for ever (`restarts_after_breaker`).
-/

set_option autoImplicit false

namespace SolstoneWindows.Proofs.CaptureEngine

open Lib.Effect Relation
open ObserverModel ObserverState
open ObserverSegment ObserverLifecycle
open SolstoneWindows.CaptureEngine

/-! ## One source of the engine -/

def newsOf (kind : SourceKind) : Act → Option News
  | .asked kind' => if kind' = kind then some .asked else none
  | .started kind' _ => if kind' = kind then some .started else none
  | .retried kind' => if kind' = kind then some .retried else none
  | .dropped kind' => if kind' = kind then some .dropped else none
  | .succeeded kind' => if kind' = kind then some .succeeded else none
  | .failed kind' decision => if kind' = kind then some (.failed decision) else none
  | .reported kind' state => if kind' = kind then some (.reported state) else none
  | .refused kind' state => if kind' = kind then some (.refused state) else none
  | _ => none

def news (kind : SourceKind) (history : List Entry) : List News :=
  history.filterMap fun entry => newsOf kind entry.act

def watch (kind : SourceKind) (s : Engine) : Watch where
  report := s.sourceReports kind
  lifecycle := s.lifecycles kind
  retryAt := s.retryAtEpochSecs kind
  news := news kind s.history

section Watch

variable {s s' : Engine} {kind : SourceKind}

theorem news_append (history new : List Entry) :
    news kind (history ++ new) = news kind history ++ news kind new :=
  List.filterMap_append

/-- Nothing happened to the source. -/
theorem watch_same (hplan : SamePlan kind s s') (h : Adds (newsOf kind · = none) s s') :
    watch kind s' = watch kind s := by
  obtain ⟨new, hhistory, hnone⟩ := h
  have hnews : news kind new = [] := List.filterMap_eq_nil_iff.mpr hnone
  unfold watch
  rw [hplan.report, hplan.lifecycle, hplan.retryAt, hhistory, news_append, hnews, List.append_nil]

@[simp] theorem watch_record (act : Act) : watch kind (s.record act) = match newsOf kind act with
      | some news => (watch kind s).hear news
      | none => watch kind s := by
  have hnews : news kind (s.history ++ [s.entry act]) =
      news kind s.history ++ (newsOf kind act).toList := by
    rw [news_append]
    cases hact : newsOf kind act <;> simp [news, Engine.entry, hact]
  unfold watch Engine.record
  dsimp only
  rw [hnews]
  cases newsOf kind act with
  | none => simp
  | some news => rfl

@[simp] theorem watch_clearSourcePreview (kind' : SourceKind) :
    watch kind (s.clearSourcePreview kind') = watch kind s := rfl

theorem watch_markSourceSuccess :
    watch kind (s.markSourceSuccess kind) = (watch kind s).succeed := by
  unfold Engine.markSourceSuccess
  rw [watch_record]
  simp [newsOf, watch, Watch.hear, Watch.succeed]

theorem watch_insertReport (state : SourceState) :
    watch kind (s.insertReport kind state) = { watch kind s with report := some state } := by
  simp [Engine.insertReport, Engine.reduce, watch]

theorem watch_unplan : watch kind (s.unplan kind) = (watch kind s).unplan := by
  simp [Engine.unplan, watch, Watch.unplan]

/-- A report, and what the history says of it. -/
theorem watch_reported {state : SourceState} {act : Act} {heard : News}
    (hact : newsOf kind act = some heard) :
    watch kind ((s.insertReport kind state).record act) = (watch kind s).note state heard := by
  rw [watch_record, hact, watch_insertReport]
  rfl

theorem watch_countFault (reason : ErrorReason) (detail : String) (now : Nat) :
    watch kind (countFault s kind reason detail now).1 = (watch kind s).fail now := by
  have hcount : watch kind (s.countFailure kind (s.lifecycles kind).onFailure) =
      { (watch kind s).hear (.failed (s.lifecycles kind).onFailure.1) with
        lifecycle := (s.lifecycles kind).onFailure.2 } := by
    unfold Engine.countFailure
    rw [watch_record]
    simp [newsOf, watch, Watch.hear]
  unfold countFault
  dsimp only
  cases houtcome : (s.lifecycles kind).onFailure.1 with
  | retryAfter delay =>
    have hplan : ∀ (s : Engine) retryAt, watch kind (s.plan kind retryAt) =
        { watch kind s with retryAt := some retryAt } := by
      intro s retryAt
      simp [Engine.plan, watch]
    dsimp only
    rw [hplan, hcount, houtcome]
    simp [Watch.fail, Watch.hear, watch, houtcome]
  | giveUp =>
    dsimp only
    rw [watch_unplan, hcount, houtcome]
    simp [Watch.fail, Watch.hear, Watch.unplan, watch, houtcome]

/-- The detail may be marked, the reason stays. -/
theorem countFault_state (s : Engine) (kind : SourceKind) (reason : ErrorReason) (detail : String)
    (now : Nat) :
    ∃ detail', (countFault s kind reason detail now).2 = .faulted reason detail' := by
  unfold countFault
  dsimp only
  split
  · exact ⟨detail, rfl⟩
  · exact ⟨_, rfl⟩

/-- A report of no fault, which after a fault forgets the failures. -/
theorem watch_report_well {state : SourceState} (hstate : isFaulted state = false) (now : Nat) :
    watch kind (report s kind state now) =
      (if (watch kind s).isFaulted = true then (watch kind s).succeed else watch kind s).note state
        (.reported state) := by
  have hjudge : judgeFault s kind state false now = (s, state) := by
    cases state with
    | faulted _ _ => cases hstate
    | _ => rfl
  have hact : newsOf kind (.reported kind state) = some (.reported state) := if_pos rfl
  unfold report
  rw [hjudge]
  dsimp only
  rw [watch_reported hact]
  by_cases hbefore : (watch kind s).isFaulted = true
  · rw [if_pos hbefore, if_pos (by rw [hstate, Bool.and_eq_true]; exact ⟨hbefore, rfl⟩),
      watch_markSourceSuccess]
  · rw [if_neg hbefore, if_neg (by rw [Bool.and_eq_true]; exact fun h => hbefore h.1)]

theorem watch_report (free : Bool) (state : SourceState) (now : Nat) :
    WatchStep free (watch kind s) (watch kind (report s kind state now)) := by
  have hact : ∀ state', newsOf kind (.reported kind state') = some (.reported state') :=
    fun _ => if_pos rfl
  have hwell : isFaulted state = false →
      WatchStep free (watch kind s) (watch kind (report s kind state now)) := by
    intro hstate
    rw [watch_report_well hstate]
    by_cases hbefore : (watch kind s).isFaulted = true
    · rw [if_pos hbefore]
      exact .recovered hstate hbefore
    · rw [if_neg hbefore]
      exact .well hstate (Bool.not_eq_true _ ▸ hbefore)
  cases state with
  | faulted reason detail =>
    -- the report is of a fault, so the failures are not forgotten
    have hreport : ∀ s1 detail', judgeFault s kind (.faulted reason detail) false now =
        (s1, .faulted reason detail') → watch kind (report s kind (.faulted reason detail) now) =
        (watch kind s1).note (.faulted reason detail') (.reported (.faulted reason detail')) := by
      intro s1 detail' hjudge
      unfold report
      rw [hjudge]
      dsimp only
      rw [watch_reported (hact _), if_neg (by simp [isFaulted])]
    by_cases hreason : reason = .accessDenied
    · rw [hreport s detail (by simp [judgeFault, hreason]), hreason]
      exact .forbidden _ detail
    by_cases hbefore : (watch kind s).isFaulted = true
    · obtain ⟨detail', hjudge⟩ : ∃ detail', judgeFault s kind (.faulted reason detail) false now =
          (s, .faulted reason detail') := by
        have hbefore' : (s.sourceReports kind).any isFaulted = true := hbefore
        unfold judgeFault
        dsimp only
        rw [if_neg hreason, hbefore', if_neg (by simp)]
        split <;> exact ⟨_, rfl⟩
      rw [hreport s detail' hjudge]
      exact .persisted detail' hreason hbefore
    · obtain ⟨detail', hdetail⟩ := countFault_state s kind reason detail now
      have hjudge : judgeFault s kind (.faulted reason detail) false now =
          ((countFault s kind reason detail now).1, .faulted reason detail') := by
        have hbefore' : (s.sourceReports kind).any isFaulted = false :=
          Bool.not_eq_true _ ▸ hbefore
        unfold judgeFault
        dsimp only
        rw [if_neg hreason, hbefore', if_pos (by rfl), ← hdetail]
      rw [hreport _ detail' hjudge, watch_countFault]
      exact .broke detail' now hreason (Bool.not_eq_true _ ▸ hbefore)
  | _ => exact hwell rfl

/-- The same step of the history and of the news. -/
theorem hasLicense_news (history : List Entry) (kind : SourceKind) :
    hasLicense (news kind history) = isLicensed history kind := by
  have hfold : ∀ (history : List Entry) (licensed : Bool),
      (news kind history).foldl licenseAfter licensed = history.foldl (licenses kind) licensed := by
    intro history
    induction history with
    | nil => exact fun _ => rfl
    | cons entry history ih =>
      intro licensed
      have hentry : licenses kind licensed entry =
          ((newsOf kind entry.act).elim licensed (licenseAfter licensed)) := by
        unfold licenses newsOf
        cases entry.act <;> dsimp only
        all_goals first | rfl | (split <;> rfl)
      rw [List.foldl_cons, hentry, ← ih]
      cases hact : newsOf kind entry.act <;> simp [news, hact]
  exact hfold history false

theorem watch_refuse (free : Bool) (error : SourceError) (now : Nat)
    (hlicense : free = true ∨ hasLicense (watch kind s).news = true) :
    WatchStep free (watch kind s) (watch kind
      (refuse ((s.record (.started kind (some error))).clearSourcePreview kind) kind
        error now)) := by
  have hact : ∀ state, newsOf kind (.refused kind state) = some (.refused state) :=
    fun _ => if_pos rfl
  generalize hs1 : (s.record (.started kind (some error))).clearSourcePreview kind = s1
  have hstarted : watch kind s1 = (watch kind s).hear .started := by
    rw [← hs1, watch_clearSourcePreview, watch_record]
    simp [newsOf]
  unfold refuse
  dsimp only
  rw [watch_reported (hact _)]
  by_cases hreason : error.reason = .accessDenied
  · have hjudge : judgeFault s1 kind (.faulted error.reason error.detail) true now =
        (s1, .faulted .accessDenied error.detail) := by
      simp [judgeFault, hreason]
    rw [hjudge, hstarted]
    exact .denied error.detail hlicense
  · obtain ⟨detail', hdetail⟩ := countFault_state s1 kind error.reason error.detail now
    have hjudge : judgeFault s1 kind (.faulted error.reason error.detail) true now =
        ((countFault s1 kind error.reason error.detail now).1, .faulted error.reason detail') := by
      unfold judgeFault
      dsimp only
      rw [if_neg hreason, if_pos (Bool.true_or _), ← hdetail]
    rw [hjudge, watch_countFault, hstarted]
    exact .refused detail' now hreason hlicense

end Watch

/-! ## Every change is a step of the policy -/

/-- Nothing happens to the source, or one thing. -/
def Moves (kind : SourceKind) (s s' : Engine) : Prop :=
  watch kind s' = watch kind s ∨ WatchStep (kind == .desktopActivity) (watch kind s) (watch kind s')

section Moves

variable {s s' : Engine} {kind kind' : SourceKind}

/-- What the engine does for another purpose is nothing to the source. -/
theorem moves_same (hplan : SamePlan kind s s') (h : Adds (newsOf kind · = none) s s') :
    Moves kind s s' :=
  .inl (watch_same hplan h)

theorem newsOf_isTally {act : Act} (h : IsTally kind' act) (hne : kind' ≠ kind) :
    newsOf kind act = none := by
  cases act with
  | reported other _ | refused other _ | failed other _ | succeeded other => exact if_neg (h ▸ hne)
  | _ => exact h.elim

/-- The policy of one source is nothing to another. -/
theorem Reported.watch_other (h : Reported kind' s s') (hne : kind' ≠ kind) :
    watch kind s' = watch kind s := by
  exact watch_same (h.others kind hne.symm) (Adds.mono h.history fun _ h => newsOf_isTally h hne)

theorem newsOf_isPlain (kind : SourceKind) {act : Act} (h : IsPlain act) :
    newsOf kind act = none ∨ newsOf kind act = some .asked := by
  cases act with
  | asked kind' =>
    by_cases hkind : kind' = kind
    · exact .inr (if_pos hkind)
    · exact .inl (if_neg hkind)
  | started _ _ | retried _ | dropped _ | succeeded _ | failed _ _ | reported _ _ | refused _ _ =>
    exact h.elim
  | _ => exact .inl rfl

theorem newsOf_carries {event : CaptureEvent} {act : Act} (h : Carries event act) :
    newsOf kind act = none := by
  cases event with
  | audio _ _ _ | screen _ _ => cases act <;> first | rfl | exact h.elim

theorem Licensed.news (h : Licensed s kind) :
    (kind == .desktopActivity) = true ∨ hasLicense (watch kind s).news = true := by
  by_cases hkind : kind = .desktopActivity
  · exact .inl (beq_iff_eq.mpr hkind)
  · right
    show hasLicense (CaptureEngine.news kind s.history) = true
    rw [hasLicense_news]
    exact h hkind

theorem Work.moves (h : Work s s') : Moves kind s s' := by
  cases h with
  | noted act hplain =>
    rcases newsOf_isPlain kind hplain with hact | hact
    · exact moves_same ⟨rfl, rfl, rfl⟩ (Adds.one rfl hact)
    · right
      rw [watch_record, hact]
      exact .asked _
  | used _ hcarries => exact moves_same ⟨rfl, rfl, rfl⟩ (Adds.one rfl (newsOf_carries hcarries))
  | queued _ _ _ | stored _ | unstored _ _ | deferred _ _ _ | unfinalized _ _ _ | finalized _ _
  | handed _ | retired _ => exact moves_same ⟨rfl, rfl, rfl⟩ (Adds.one rfl rfl)
  | storedAtOnce key line _ | unstoredAtOnce key line _ _ =>
    have hcreated : Adds (newsOf kind · = none) s (s.pushActivityRow key line) := Adds.one rfl rfl
    exact moves_same ⟨rfl, rfl, rfl⟩ (Adds.trans hcreated (Adds.one rfl rfl))
  | reported kind' state now =>
    by_cases hkind : kind' = kind
    · subst hkind
      exact .inr (watch_report _ state now)
    · exact .inl ((reported_report kind' state now).watch_other hkind)
  | @started kind' _ _ hlicensed =>
    by_cases hkind : kind' = kind
    · subst hkind
      right
      rw [watch_markSourceSuccess, watch_record]
      simp only [newsOf, if_true]
      exact .started hlicensed.news
    · exact .inl (Eq.trans ((reported_markSourceSuccess kind').watch_other hkind)
        (watch_same ⟨rfl, rfl, rfl⟩ (Adds.one rfl (if_neg hkind))))
  | @failedToStart kind' error now _ _ hlicensed =>
    by_cases hkind : kind' = kind
    · subst hkind
      exact .inr (watch_refuse _ error now hlicensed.news)
    · exact .inl (Eq.trans ((reported_refuse kind' error now).watch_other hkind)
        (watch_same ⟨rfl, rfl, rfl⟩ (Adds.one rfl (if_neg hkind))))
  | pumped error _ _ =>
    by_cases hkind : SourceKind.desktopActivity = kind
    · subst hkind
      right
      rw [watch_record]
      simp only [newsOf, if_true]
      exact .pumped _ rfl
    · exact moves_same ⟨rfl, rfl, rfl⟩ (Adds.one rfl (if_neg hkind))
  | @retried kind' hdue =>
    by_cases hkind : kind' = kind
    · subst hkind
      right
      unfold Engine.takeRetry
      split
      · rw [watch_record, watch_unplan]
        simp only [newsOf, if_true]
        exact .retried hdue
      · rw [watch_record, watch_unplan]
        simp only [newsOf, if_true]
        exact .dropped hdue
    · have hplan := samePlan_takeRetry (s := s) (Ne.symm hkind)
      unfold Engine.takeRetry at hplan ⊢
      by_cases henabled : s.state.isSourceEnabled kind' = true
      · rw [if_pos henabled] at hplan ⊢
        exact moves_same hplan (Adds.one rfl (if_neg hkind))
      · rw [if_neg henabled] at hplan ⊢
        exact moves_same hplan (Adds.one rfl (if_neg hkind))
  | _ => exact moves_same ⟨rfl, rfl, rfl⟩ (Adds.same rfl)

theorem Switch.moves (h : Switch s s') : Moves kind s s' := by
  cases h with
  | @disabled kind' now _ =>
    have hunplan : ∀ kind, watch kind ((((s.unplan kind').clearSourcePreview kind').reduce
        (.sourceEnabled kind' false)).clearSourcePreview kind') = watch kind (s.unplan kind') :=
      fun _ => rfl
    by_cases hkind : kind' = kind
    · subst hkind
      right
      rw [watch_report_well rfl, hunplan, watch_unplan]
      by_cases hbefore : (watch kind' s).isFaulted = true
      · rw [if_pos (by exact hbefore)]
        exact .recovered rfl hbefore
      · rw [if_neg (by exact hbefore)]
        exact .left (Bool.not_eq_true _ ▸ hbefore)
    · left
      rw [(reported_report kind' .inactive now).watch_other hkind, hunplan]
      exact (reported_retryAt kind' none).watch_other hkind
  | enabled _ | allowed _ => exact moves_same ⟨rfl, rfl, rfl⟩ (Adds.same rfl)

theorem Turn.moves (h : Turn s s') : Moves kind s s' := by
  cases h with
  | recorded held error => exact moves_same ⟨rfl, rfl, rfl⟩ (Adds.one rfl rfl)
  | _ => exact moves_same ⟨rfl, rfl, rfl⟩ (Adds.same rfl)

theorem Change.moves (h : Change s s') : Moves kind s s' := by
  rcases h with (h | h) | h <;> exact h.moves

/-- Nothing is known of the sources of a new engine. -/
theorem watch_new (config : EngineConfig) (deferred : List SegmentKey) (artifactId : String) :
    watch kind (Engine.new config deferred artifactId) =
      ⟨none, { config := config.lifecycle }, none, []⟩ := by
  unfold Engine.new
  dsimp only
  split <;> rfl

end Moves

/-! ## Plans -/

/-- The source was reported on, and nothing happened to it since. -/
def Told (w : Watch) : Prop :=
  ∃ state before, w.report = some state ∧ w.news = before ++ [.reported state]

section Plans

variable {s s' : Engine} {kind : SourceKind}

theorem told_report (state : SourceState) (now : Nat) :
    Told (watch kind (report s kind state now)) := by
  have hact : ∀ state', newsOf kind (.reported kind state') = some (.reported state') :=
    fun _ => if_pos rfl
  unfold report
  dsimp only
  rw [watch_reported (hact _)]
  exact ⟨_, _, rfl, rfl⟩

/-- A report tells of one source, and leaves the others. -/
theorem applySourceReport_told (kind : SourceKind) (state : SourceState) :
    Gives s (applySourceReport kind state)
      fun _ s' => Told (watch kind s') ∧ ∀ other, other ≠ kind →
        watch other s' = watch other s := by
  have hclear : Gives s (Prog.onlyIf (isSilent state) (clearSourcePreview kind))
      fun _ s1 => ∀ other, watch other s1 = watch other s :=
    Runs.onlyIf (fun _ => Runs.modify fun _ => rfl) fun _ _ => rfl
  refine hclear.bind fun _ s1 h1 => (reportTail_spec kind state).weaken ?_
  intro _ s' h
  obtain ⟨now, rfl⟩ := h
  refine ⟨told_report state now, fun other hother => ?_⟩
  rw [← h1 other]
  exact (reported_report kind state now).watch_other (Ne.symm hother)

/-- After the states were folded in, every source was told of. -/
theorem foldSourceStates_told :
    Gives s foldSourceStates fun _ s' => ∀ kind, Told (watch kind s') := by
  refine Runs.bind (screenState_path s) fun screen s1 _ => ?_
  refine Runs.bind (sourceState_path _ s1) fun systemAudio s2 _ => ?_
  refine Runs.bind (sourceState_path _ s2) fun mic s3 _ => ?_
  refine Runs.bind (sourceState_path _ s3) fun desktopActivity s4 _ => ?_
  refine (applySourceReport_told .screen screen).bind fun _ s5 h5 => ?_
  refine (applySourceReport_told .systemAudio systemAudio).bind fun _ s6 h6 => ?_
  refine (applySourceReport_told .mic mic).bind fun _ s7 h7 => ?_
  refine (applySourceReport_told .desktopActivity desktopActivity).weaken fun _ s8 h8 kind => ?_
  cases kind with
  | screen =>
    rw [h8.2 _ (by decide), h7.2 _ (by decide), h6.2 _ (by decide)]
    exact h5.1
  | systemAudio =>
    rw [h8.2 _ (by decide), h7.2 _ (by decide)]
    exact h6.1
  | mic =>
    rw [h8.2 _ (by decide)]
    exact h7.1
  | desktopActivity => exact h8.1

theorem pump_told : Gives s pump fun _ s' => ∀ kind, Told (watch kind s') := by
  refine Runs.bind (drainEvents_path s) fun _ s1 _ => ?_
  refine Runs.bind (autoResumeIfDue_service s1) fun _ s2 _ => ?_
  refine Runs.bind (rotateSegments_path false s2) fun _ s3 _ => ?_
  refine Runs.bind (serviceStorage_path s3) fun _ s4 _ => ?_
  refine Runs.bind (retryDueSources_path s4) fun _ s5 _ => ?_
  exact Runs.bind (pumpDesktopActivity_path s5) fun _ _ _ => foldSourceStates_told

/-- A step brings news, and takes none back. -/
theorem Moves.news (h : Moves kind s s') :
    ∃ new, (watch kind s').news = (watch kind s).news ++ new := by
  rcases h with h | h
  · exact ⟨[], by rw [h, List.append_nil]⟩
  · obtain ⟨new, hnew, -⟩ := h.news
    exact ⟨new, hnew⟩

theorem Change.stands (h : Change s s')
    (hs : Steady (CaptureEngine.news kind s.history) → Stands (watch kind s))
    (hsteady : Steady (CaptureEngine.news kind s'.history)) : Stands (watch kind s') := by
  have hmoves : Moves kind s s' := h.moves
  have hbefore : Stands (watch kind s) := by
    obtain ⟨new, hnew⟩ := hmoves.news
    have hsteady' : Steady ((watch kind s).news ++ new) := hnew ▸ hsteady
    exact hs hsteady'.of_append
  rcases hmoves with hsame | hstep
  · rw [hsame]
    exact hbefore
  · exact hstep.stands hbefore hsteady

end Plans

/-- After every pump, in every phase: a source whose last report is a fault other than a refused
permission has its restart planned, or its breaker is open. The condition is that a fault is
reported only of a source whose report before was no fault, or was one whose plan still stood. -/
theorem fault_has_plan (s0 started s s' : Engine) (kind : SourceKind) (reason : ErrorReason)
    (detail : String) (hprepared : Prepared s0) (hstart : Returns start s0 started)
    (hrun : ReflTransGen EngineStep started s) (hpump : Returns pump s s')
    (hsteady : Steady (news kind s'.history))
    (hreport : s'.sourceReports kind = some (.faulted reason detail))
    (hreason : reason ≠ .accessDenied) :
    s'.retryAtEpochSecs kind ≠ none ∨ (s'.lifecycles kind).breaker = .opened := by
  have hstands : Stands (watch kind s') :=
    invariant_of_new (I := fun s => Steady (news kind s.history) → Stands (watch kind s))
      (fun _ _ h => h.stands)
      (fun _ _ _ _ => by
        rw [watch_new]
        exact ⟨by simp [Watch.isFaulted, standing], by simp [standing]⟩)
      hprepared hstart (hrun.tail ⟨.pump, hpump⟩) hsteady
  obtain ⟨state, before, hstate, hnews⟩ := hpump.of_runs pump_told kind
  have hfaulted : state = .faulted reason detail := Option.some.inj (hstate.symm.trans hreport)
  refine hstands.planned ?_
  rw [hnews, standing_append, hfaulted]
  exact if_neg hreason

/-! ## Restarts without hope -/

section Hopeless

variable {s s' : Engine} {kind : SourceKind}

theorem Change.config (h : Change s s') : s'.config = s.config := by
  rcases h with (h | h) | h
  · exact h.sameSetup.config
  · cases h with
    | disabled now _ => exact (reported_report _ .inactive now).sameSetup.config
    | enabled _ | allowed _ => rfl
  · cases h with
    | _ => rfl

/-- The policy runs as it is configured, and what it does without hope is hemmed in. -/
structure Policed (kind : SourceKind) (s : Engine) : Prop where
  sane : Sane s.config.lifecycle (watch kind s)
  hemmed : Hopeless (sinceAsked (news kind s.history)) → Hemmed s.config.lifecycle (watch kind s)

theorem Change.policed (hkind : kind ≠ .desktopActivity) (h : Change s s')
    (hs : s.config.lifecycle.breakerThreshold < 2 ^ 32 → Policed kind s)
    (hsmall : s'.config.lifecycle.breakerThreshold < 2 ^ 32) : Policed kind s' := by
  rw [h.config] at hsmall
  obtain ⟨hsane, hhemmed⟩ := hs hsmall
  have hmoves : Moves kind s s' := h.moves
  rcases hmoves with hsame | hstep
  · have hnews : news kind s'.history = news kind s.history := congrArg Watch.news hsame
    constructor
    · rw [h.config, hsame]
      exact hsane
    · intro hhopeless
      rw [h.config, hsame]
      exact hhemmed (hnews ▸ hhopeless)
  · rw [beq_eq_false_iff_ne.mpr hkind] at hstep
    constructor
    · rw [h.config]
      exact hstep.sane hsmall hsane
    · intro hhopeless
      rw [h.config]
      exact hstep.hemmed hsmall hsane hhemmed hhopeless

theorem policed_new (config : EngineConfig) (deferred : List SegmentKey) (artifactId : String) :
    Policed kind (Engine.new config deferred artifactId) := by
  have hconfig : (Engine.new config deferred artifactId).config = config := by
    unfold Engine.new
    dsimp only
    split <;> rfl
  constructor
  · rw [watch_new, hconfig]
    exact ⟨rfl, fun h => absurd rfl h, fun h => absurd h (Nat.not_succ_le_zero 0)⟩
  · intro _
    rw [watch_new, hconfig]
    exact ⟨.nil _, .counts (.fresh rfl rfl rfl rfl)⟩

end Hopeless

/-- A fault that counts. -/
def broken : SourceState := .faulted .writeFailed ""

/-- A pump in the window of the start, when no restart is due. -/
def pumped (now : Nat) (mic : SourceState) (s : Engine) : Engine := pump.final (outside 4 now mic) s

/-- A pump that restarts the microphone, which starts. -/
def restarted (now : Nat) (mic : SourceState) (s : Engine) : Engine :=
  pump.final (outside 5 now mic) s

/-- Permission was refused, and then the device faults. -/
def deniedThenBroken : Engine :=
  pumped 12 broken (pumped 11 (.faulted .accessDenied "") (startedWith .inactive))

/-- The fault after a refused permission makes no plan: the microphone stays faulty. -/
theorem pump_fault_without_plan : (start (outside 8 10 .inactive) micEngine).1 = .ok () ∧
      (pump (outside 4 11 (.faulted .accessDenied "")) (startedWith .inactive)).1 = .ok () ∧
      (pump (outside 4 12 broken)
        (pumped 11 (.faulted .accessDenied "") (startedWith .inactive))).1 = .ok () ∧
      deniedThenBroken.state.phase ≠ .paused ∧
      deniedThenBroken.state.isSourceEnabled .mic = true ∧
      deniedThenBroken.sourceReports .mic = some broken ∧
      deniedThenBroken.retryAtEpochSecs .mic = none ∧
      (deniedThenBroken.lifecycles .mic).breaker = .closed := by
  decide +kernel

/-- A fault of a microphone that had none plans a restart. -/
theorem fault_has_plan_once :
    (pumped 11 broken (startedWith .inactive)).sourceReports .mic = some broken ∧
      (pumped 11 broken (startedWith .inactive)).retryAtEpochSecs .mic ≠ none := by
  have hprepared : Prepared micEngine :=
    .choose micOnly (.new {} [] "a") ⟨[], by decide +kernel, rfl⟩
  have hnews : news .mic (pumped 11 broken (startedWith .inactive)).history =
      [.asked, .started, .succeeded, .reported .inactive, .failed (.retryAfter (fromSecs 1))] ++
        [.reported broken] := by decide +kernel
  have hsteady : Steady (news .mic (pumped 11 broken (startedWith .inactive)).history) := by
    rw [hnews]
    refine Steady.append (fun before reason detail after hsplit => ?_) fun _ _ _ _ => by decide
    have hmem : News.reported (.faulted reason detail) ∈ ([.asked, .started, .succeeded,
        .reported .inactive, .failed (.retryAfter (fromSecs 1))] : List News) := by
      rw [hsplit]
      simp
    simp at hmem
  refine ⟨by decide +kernel, ?_⟩
  have hplan := fault_has_plan micEngine (startedWith .inactive) (startedWith .inactive)
    (pumped 11 broken (startedWith .inactive)) .mic .writeFailed "" hprepared
    ⟨outside 8 10 .inactive, by decide +kernel, rfl⟩ .refl
    ⟨outside 4 11 broken, by decide +kernel, rfl⟩ hsteady (by decide +kernel) (by decide)
  refine hplan.resolve_right ?_
  decide +kernel

/-- The engine before its start, with a breaker that opens at the second failure. -/
def cautiousEngine : Engine :=
  (setSourceChoices micOnly).final [] (Engine.new { lifecycle := { breakerThreshold := 2 } } [] "a")

def cautiousStarted (mic : SourceState) : Engine := start.final (outside 8 10 mic) cautiousEngine

/-- A restart goes through, the microphone is inactive, and faults again. -/
def flapped (now : Nat) (s : Engine) : Engine := pumped (now + 1) broken (restarted now .inactive s)

/-- The microphone faults after the start. -/
def faultedOnce : Engine := pumped 11 broken (cautiousStarted .inactive)

/-- The microphone faults after the start and after two restarts, and is restarted. -/
def flapping : Engine :=
  restarted 40 .inactive (flapped 30 (flapped 20 faultedOnce))

/-- The outside of a pump that restarts the microphone, which does not start. -/
def refusal (now : Nat) : List Reading :=
  List.replicate 5 { Reading.quiet with epochSecs := now, error := some ⟨.writeFailed, ""⟩ } ++
    outside 0 now broken

/-- The microphone is inactive at the start, then faults, and its restart fails. -/
def hopelessMic : Engine := pump.final (refusal 20) faultedOnce

end SolstoneWindows.Proofs.CaptureEngine
