import Mathlib.Tactic.SplitIfs
import SolstoneWindows.CaptureEngine.Engine

/-!
# The restarts of one source

What the engine knows of a source is its last report, the count of its failures and the time of
its planned restart. `Watch` is that, with the news of the source so far, and `WatchStep` is
everything that can happen to it. A failure is counted when a start fails and when a report of a
fault follows one of no fault. The news say what was reported, and no step looks at them.

Two facts about whole runs of this machine follow from invariants of its steps.

* `Stands`: a source that was reported faulty has a plan or an open breaker, as long as every
  report of a fault comes when its predecessor's plan is still there (`Steady`).
* `Course`: since the owner last started the source, as long as only faults are reported once it
  has failed (`Hopeless`), the delays never go down and the restarts end.
-/

set_option autoImplicit false

namespace SolstoneWindows.Proofs.CaptureEngine

open ObserverModel ObserverState ObserverLifecycle
open SolstoneWindows.CaptureEngine

/-! ## The machine -/

/-- What happens to one source. -/
inductive News where
  /-- The owner starts it: by a start, a resume or a switch. -/
  | asked
  | started
  /-- Its planned restart is made. -/
  | retried
  /-- Its planned restart is forgotten. -/
  | dropped
  | succeeded
  | failed (decision : RetryDecision)
  | reported (state : SourceState)
  | refused (state : SourceState)
  deriving DecidableEq

structure Watch where
  report : Option SourceState
  lifecycle : Lifecycle
  retryAt : Option Nat
  news : List News

namespace Watch

/-- The source's last report is a fault. -/
def isFaulted (w : Watch) : Bool := w.report.any CaptureEngine.isFaulted

/-- The failures counted so far. -/
def count (w : Watch) : Nat := w.lifecycle.consecutiveFailures

def hear (w : Watch) (news : News) : Watch := { w with news := w.news ++ [news] }

/-- A report, under the news that bring it. -/
def note (w : Watch) (state : SourceState) (news : News) : Watch :=
  { w with report := some state, news := w.news ++ [news] }

def succeed (w : Watch) : Watch :=
  { w with retryAt := none, lifecycle := w.lifecycle.onSuccess, news := w.news ++ [.succeeded] }

/-- A counted failure. -/
def fail (w : Watch) (now : Nat) : Watch :=
  { w with
    lifecycle := w.lifecycle.onFailure.2
    retryAt := match w.lifecycle.onFailure.1 with
      | .retryAfter delay => some (saturatingAdd now (asSecs delay))
      | .giveUp => none
    news := w.news ++ [.failed w.lifecycle.onFailure.1] }

/-- No restart is planned any more. -/
def unplan (w : Watch) : Watch := { w with retryAt := none }

end Watch

/-- What one piece of news does to the answer whether the source is to be started. -/
def licenseAfter (licensed : Bool) : News → Bool
  | .asked => true
  | .retried => true
  | .started => false
  | _ => licensed

/-- Whether the source is to be started. -/
def hasLicense (news : List News) : Bool := news.foldl licenseAfter false

/-- One thing that happens to a source. A source that is not free is started for a reason. -/
inductive WatchStep (free : Bool) : Watch → Watch → Prop
  | asked (w : Watch) : WatchStep free w (w.hear .asked)
  | pumped (w : Watch) (hfree : free = true) : WatchStep free w (w.hear .started)
  | retried {w : Watch} (hdue : w.retryAt ≠ none) : WatchStep free w (w.unplan.hear .retried)
  | dropped {w : Watch} (hdue : w.retryAt ≠ none) : WatchStep free w (w.unplan.hear .dropped)
  | started {w : Watch} (hlicense : free = true ∨ hasLicense w.news = true) :
    WatchStep free w (w.hear .started).succeed
  /-- A start that is refused for want of permission. -/
  | denied {w : Watch} (detail : String) (hlicense : free = true ∨ hasLicense w.news = true) :
    WatchStep free w ((w.hear .started).note (.faulted .accessDenied detail)
      (.refused (.faulted .accessDenied detail)))
  | refused {w : Watch} {reason : ErrorReason} (detail : String) (now : Nat)
    (hreason : reason ≠ .accessDenied) (hlicense : free = true ∨ hasLicense w.news = true) :
    WatchStep free w (((w.hear .started).fail now).note (.faulted reason detail)
      (.refused (.faulted reason detail)))
  | well {w : Watch} {state : SourceState} (hwell : isFaulted state = false)
    (hbefore : w.isFaulted = false) : WatchStep free w (w.note state (.reported state))
  | recovered {w : Watch} {state : SourceState} (hwell : isFaulted state = false)
    (hbefore : w.isFaulted = true) : WatchStep free w (w.succeed.note state (.reported state))
  /-- A report that permission is refused. -/
  | forbidden (w : Watch) (detail : String) :
    WatchStep free w (w.note (.faulted .accessDenied detail)
      (.reported (.faulted .accessDenied detail)))
  /-- A fault after a fault. -/
  | persisted {w : Watch} {reason : ErrorReason} (detail : String)
    (hreason : reason ≠ .accessDenied) (hbefore : w.isFaulted = true) :
    WatchStep free w (w.note (.faulted reason detail) (.reported (.faulted reason detail)))
  | broke {w : Watch} {reason : ErrorReason} (detail : String) (now : Nat)
    (hreason : reason ≠ .accessDenied) (hbefore : w.isFaulted = false) :
    WatchStep free w ((w.fail now).note (.faulted reason detail)
      (.reported (.faulted reason detail)))
  /-- The switch of a source without a fault goes off. -/
  | left {w : Watch} (hbefore : w.isFaulted = false) :
    WatchStep free w (w.unplan.note .inactive (.reported .inactive))

/-- A step brings news, and takes none back. The owner's start is a step of its own. -/
theorem WatchStep.news {free : Bool} {w w' : Watch} (h : WatchStep free w w') :
    ∃ new, w'.news = w.news ++ new ∧ (.asked ∈ new → w' = w.hear .asked) := by
  cases h with
  | asked => exact ⟨_, rfl, fun _ => rfl⟩
  | started _ | denied _ _ | recovered _ _ | broke _ _ _ _ =>
    exact ⟨_, List.append_assoc _ _ _, by simp⟩
  | refused _ _ _ _ =>
    exact ⟨_, (congrArg (· ++ _) (List.append_assoc _ _ _)).trans (List.append_assoc _ _ _),
      by simp⟩
  | _ => exact ⟨_, rfl, by simp⟩

/-! ## Counting -/

section Counting

variable {config : BackoffConfig} {free : Bool} {w w' : Watch}

/-- The delay after so many failures. -/
def backoff (config : BackoffConfig) (failures : Nat) : Nat :=
  Lifecycle.currentBackoff { config := config, consecutiveFailures := failures }

/-- The delays never go down: a multiplier of 0 counts as 1. -/
theorem backoff_mono {failures failures' : Nat} (h : failures ≤ failures') :
    backoff config failures ≤ backoff config failures' := by
  have hfactor : max (saturatingPow config.multiplier (failures - 1)) 1 ≤
      max (saturatingPow config.multiplier (failures' - 1)) 1 := by
    rcases Nat.eq_zero_or_pos config.multiplier with hzero | hpos
    · have hone : ∀ exp, max (saturatingPow 0 exp) 1 = 1 := by
        intro exp
        have hpow : 0 ^ exp ≤ 1 := by
          cases exp with
          | zero => exact Nat.le_refl 1
          | succ exp => simp
        unfold saturatingPow
        omega
      simp only [hzero, hone, Nat.le_refl]
    · have hpow : config.multiplier ^ (failures - 1) ≤ config.multiplier ^ (failures' - 1) :=
        Nat.pow_le_pow_right hpos (by omega)
      unfold saturatingPow
      omega
  have hscaled := Nat.mul_le_mul_left config.initial hfactor
  unfold backoff Lifecycle.currentBackoff
  dsimp only
  split_ifs <;> omega

/-- A failure is counted, and the count decides. -/
theorem fail_cases (w : Watch) (now : Nat) (hsmall : w.lifecycle.config.breakerThreshold < 2 ^ 32) :
    (w.lifecycle.config.breakerThreshold ≤ (w.fail now).count ∧ (w.fail now).retryAt = none ∧
      (w.fail now).lifecycle.breaker = .opened ∧ (w.fail now).news = w.news ++ [.failed .giveUp]) ∨
    ((w.fail now).count = w.count + 1 ∧ w.count + 1 < w.lifecycle.config.breakerThreshold ∧
      (w.fail now).news = w.news ++
        [.failed (.retryAfter (backoff w.lifecycle.config (w.count + 1)))]) := by
  unfold Watch.fail Watch.count Lifecycle.onFailure
  dsimp only
  split
  · next hopen => exact .inl ⟨hopen, rfl, rfl, rfl⟩
  next hclosed =>
  have hcount : min (w.lifecycle.consecutiveFailures + 1) (2 ^ 32 - 1) =
      w.lifecycle.consecutiveFailures + 1 := by omega
  refine .inr ⟨hcount, by omega, ?_⟩
  rw [hcount]
  rfl

/-- What is planned was counted, and what was counted is reported. -/
structure Sane (config : BackoffConfig) (w : Watch) : Prop where
  config_eq : w.lifecycle.config = config
  planned : w.retryAt ≠ none → 1 ≤ w.count ∧ w.count < config.breakerThreshold
  counted : 1 ≤ w.count → w.isFaulted = true

section

variable (hs : Sane config w)

include hs

theorem Sane.succeed : Sane config w.succeed :=
  ⟨hs.config_eq, fun h => absurd rfl h, fun h => absurd h (Nat.not_succ_le_zero 0)⟩

theorem Sane.unplan : Sane config w.unplan :=
  ⟨hs.config_eq, fun h => absurd rfl h, hs.counted⟩

theorem Sane.hear (news : News) : Sane config (w.hear news) :=
  ⟨hs.config_eq, hs.planned, hs.counted⟩

/-- A report of a fault is always in order. -/
theorem Sane.note_fault (reason : ErrorReason) (detail : String) (news : News) :
    Sane config (w.note (.faulted reason detail) news) :=
  ⟨hs.config_eq, hs.planned, fun _ => rfl⟩

/-- So is another report when nothing is counted. -/
theorem Sane.note_well (hcount : w.count = 0) (state : SourceState) (news : News) : Sane config
    (w.note state news) := by
  refine ⟨hs.config_eq, hs.planned, fun h => ?_⟩
  have hcount' : (w.note state news).count = 0 := hcount
  omega

theorem Sane.count_eq_zero (hwell : w.isFaulted = false) : w.count = 0 := by
  by_contra h
  have hfaulted := hs.counted (by omega)
  rw [hwell] at hfaulted
  cases hfaulted

theorem Sane.fail_fault (now : Nat) (hsmall : config.breakerThreshold < 2 ^ 32)
    (reason : ErrorReason) (detail : String) (news : News) : Sane config
    ((w.fail now).note (.faulted reason detail) news) := by
  have hconfig : (w.fail now).lifecycle.config = config := by
    rw [← hs.config_eq]
    unfold Watch.fail Lifecycle.onFailure
    dsimp only
    split <;> rfl
  refine ⟨hconfig, fun hplanned => ?_, fun _ => rfl⟩
  rw [← hs.config_eq] at hsmall
  rcases fail_cases w now hsmall with ⟨_, hnone, _⟩ | ⟨hcount, hlt, _⟩
  · exact absurd hnone hplanned
  · have hcount' : ((w.fail now).note (.faulted reason detail) news).count = w.count + 1 := hcount
    rw [hs.config_eq] at hlt
    omega

end

theorem WatchStep.sane (hsmall : config.breakerThreshold < 2 ^ 32) (h : WatchStep free w w')
    (hs : Sane config w) : Sane config w' := by
  cases h with
  | asked => exact hs.hear .asked
  | pumped _ => exact hs.hear .started
  | retried _ => exact hs.unplan.hear .retried
  | dropped _ => exact hs.unplan.hear .dropped
  | started _ => exact (hs.hear .started).succeed
  | denied detail _ => exact (hs.hear .started).note_fault _ detail _
  | refused detail now _ _ => exact (hs.hear .started).fail_fault now hsmall _ detail _
  | well _ hbefore => exact hs.note_well (hs.count_eq_zero hbefore) _ _
  | recovered _ _ => exact hs.succeed.note_well rfl _ _
  | forbidden detail | persisted detail _ _ => exact hs.note_fault _ detail _
  | broke detail now _ _ => exact hs.fail_fault now hsmall _ detail _
  | left hbefore => exact hs.unplan.note_well (hs.count_eq_zero hbefore) _ _

end Counting

/-! ## Plans -/

/-- Where a source stands, by its news. -/
inductive Standing where
  /-- The last report is no fault. -/
  | well
  /-- The last report is a fault that counts, and nothing happened to its plan. -/
  | planned
  /-- The last report is a refused permission, or a fault whose plan was used up. -/
  | bare
  deriving DecidableEq

/-- What a report says. -/
def standingOf : SourceState → Standing
  | .faulted reason _ => if reason = .accessDenied then .bare else .planned
  | _ => .well

def standingAfter (standing : Standing) : News → Standing
  | .reported state => standingOf state
  | .refused state => standingOf state
  | .succeeded => if standing = .planned then .bare else standing
  | .retried => if standing = .planned then .bare else standing
  | .dropped => if standing = .planned then .bare else standing
  | _ => standing

def standing (news : List News) : Standing := news.foldl standingAfter .well

/-- A fault is reported only of a source that has none, or still has its plan. -/
def Steady (news : List News) : Prop :=
  ∀ before reason detail after, news = before ++ .reported (.faulted reason detail) :: after →
    reason ≠ .accessDenied → standing before ≠ .bare

theorem Steady.of_append {before after : List News} (h : Steady (before ++ after)) :
    Steady before := by
  intro first reason detail rest hsplit
  exact h first reason detail (rest ++ after) (by rw [hsplit]; simp)

theorem Steady.append {news : List News} (h : Steady news) {last : News}
    (hlast : ∀ reason detail, last = .reported (.faulted reason detail) → reason ≠ .accessDenied →
      standing news ≠ .bare) : Steady (news ++ [last]) := by
  intro before reason detail after hsplit hreason
  rcases Lib.Effect.append_singleton_split hsplit with ⟨rfl, hend, -⟩ | ⟨after', hbefore⟩
  · exact hlast reason detail hend.symm hreason
  · exact h before reason detail after' hbefore hreason

/-- A source stands as its news say, and one with a plan has a plan or an open breaker. -/
structure Stands (w : Watch) : Prop where
  faulted : w.isFaulted = true ↔ standing w.news ≠ .well
  planned : standing w.news = .planned → w.retryAt ≠ none ∨ w.lifecycle.breaker = .opened

section Plans

variable {free : Bool} {w w' : Watch}

theorem standing_append (news : List News) (last : News) :
    standing (news ++ [last]) = standingAfter (standing news) last := by
  simp [standing]

variable {news : News} {state : SourceState}

theorem Stands.hear (hs : Stands w)
    (hnews : standingAfter (standing w.news) news = standing w.news) : Stands (w.hear news) := by
  have hstanding : standing (w.hear news).news = standing w.news := by
    show standing (w.news ++ [news]) = _
    rw [standing_append, hnews]
  exact ⟨by rw [hstanding]; exact hs.faulted, by rw [hstanding]; exact hs.planned⟩

/-- News that use up a plan. -/
theorem Stands.spend (hs : Stands w) {w1 : Watch} (hreport : w1.report = w.report)
    (hheard : w1.news = w.news ++ [news])
    (hnews : ∀ standing, standingAfter standing news =
      if standing = .planned then .bare else standing) : Stands w1 := by
  have hstanding : standing w1.news =
      if standing w.news = .planned then .bare else standing w.news := by
    rw [hheard, standing_append, hnews]
  have hsame : w1.isFaulted = w.isFaulted := by
    unfold Watch.isFaulted
    rw [hreport]
  constructor
  · rw [hsame, hs.faulted, hstanding]
    cases standing w.news with
    | well | planned | bare => simp
  · intro hplanned
    rw [hstanding] at hplanned
    split at hplanned
    · cases hplanned
    · next hne => exact absurd hplanned hne

/-- After a report a source stands as the report says. -/
theorem stands_note
    (hnews : ∀ standing, standingAfter standing news = standingOf state)
    (hplanned : standingOf state = .planned → w.retryAt ≠ none ∨ w.lifecycle.breaker = .opened) :
    Stands (w.note state news) := by
  have hstanding : standing (w.note state news).news = standingOf state := by
    show standing (w.news ++ [news]) = _
    rw [standing_append, hnews]
  constructor
  · rw [hstanding]
    show isFaulted state = true ↔ _
    cases state with
    | faulted reason detail =>
      by_cases hdenied : reason = .accessDenied <;> simp [isFaulted, standingOf, hdenied]
    | _ => simp [isFaulted, standingOf]
  · rw [hstanding]
    exact hplanned

theorem fail_plans (w : Watch) (now : Nat) :
    (w.fail now).retryAt ≠ none ∨ (w.fail now).lifecycle.breaker = .opened := by
  unfold Watch.fail Lifecycle.onFailure
  dsimp only
  by_cases hopen : min (w.lifecycle.consecutiveFailures + 1) (2 ^ 32 - 1) ≥
      w.lifecycle.config.breakerThreshold
  · rw [if_pos hopen]
    exact .inr rfl
  · rw [if_neg hopen]
    exact .inl (Option.some_ne_none _)

theorem WatchStep.stands (h : WatchStep free w w') (hs : Stands w) (hsteady : Steady w'.news) :
    Stands w' := by
  have hwell : ∀ {state : SourceState}, isFaulted state = false → standingOf state ≠ .planned := by
    intro state hstate
    cases state with
    | faulted _ _ => cases hstate
    | _ => decide
  cases h with
  | asked | pumped _ => exact hs.hear rfl
  | retried _ | dropped _ => exact hs.spend rfl rfl fun _ => rfl
  | started _ =>
    have hstarted : Stands (w.hear .started) := hs.hear rfl
    exact hstarted.spend rfl rfl fun _ => rfl
  | refused _ now _ _ => exact stands_note (fun _ => rfl) fun _ => fail_plans _ now
  | well hstate _ | recovered hstate _ =>
    exact stands_note (fun _ => rfl) fun h => absurd h (hwell hstate)
  | persisted detail hreason hbefore =>
    -- the fault before this one still has its plan
    have hne := hsteady w.news _ detail [] rfl hreason
    refine stands_note (fun _ => rfl) fun _ => hs.planned ?_
    have hfaulted := hs.faulted.mp hbefore
    cases hstanding : standing w.news with
    | well => exact absurd hstanding hfaulted
    | planned => rfl
    | bare => exact absurd hstanding hne
  | broke _ now _ _ => exact stands_note (fun _ => rfl) fun _ => fail_plans _ now
  | _ => exact stands_note (fun _ => rfl) fun h => by cases h

end Plans

/-! ## Restarts without hope -/

/-- The news since the owner last started the source. -/
def stretchAfter (stretch : List News) (news : News) : List News :=
  if news = .asked then [] else stretch ++ [news]

def sinceAsked (news : List News) : List News := news.foldl stretchAfter []

/-- Whether a piece of news is a counted failure. -/
def isFailure : News → Bool
  | .failed _ => true
  | _ => false

def failures (stretch : List News) : Nat := stretch.countP isFailure

/-- The planned restarts that were made. -/
def restarts (stretch : List News) : Nat := stretch.count .retried

/-- The delay that a counted failure brings. -/
def delayOf : News → Option Nat
  | .failed (.retryAfter delay) => some delay
  | _ => none

def delays (stretch : List News) : List Nat := stretch.filterMap delayOf

/-- After the first failure or restart, only faults are reported. -/
def Hopeless (stretch : List News) : Prop :=
  ∀ before state after, stretch = before ++ .reported state :: after →
    failures before + restarts before ≠ 0 → isFaulted state = true

/-- The delays never go down, and a restart is made only after fewer failures, and fewer restarts,
than the breaker takes. -/
structure Bounded (threshold : Nat) (stretch : List News) : Prop where
  delays : (delays stretch).Pairwise (· ≤ ·)
  restarts : ∀ before after, stretch = before ++ .retried :: after →
    failures before < threshold ∧ restarts before < threshold

/-- The failures since the owner's start are counted. -/
inductive Counts (config : BackoffConfig) (w : Watch) : Prop
  | live (hfailures : failures (sinceAsked w.news) ≤ w.count)
    (hrestarts : restarts (sinceAsked w.news) ≤ w.count)
    (hcount : w.count < config.breakerThreshold)
    (hplanned : w.retryAt ≠ none → restarts (sinceAsked w.news) < w.count)
    (hdelays : ∀ delay ∈ delays (sinceAsked w.news), delay ≤ backoff config w.count)
  /-- The breaker took the last failure. -/
  | spent (hcount : config.breakerThreshold ≤ w.count) (hplan : w.retryAt = none)

/-- What can still become of a source without hope. -/
inductive Course (config : BackoffConfig) (w : Watch) : Prop
  | counts (hcounts : Counts config w)
  /-- A start went through and the fault stayed: nothing is counted or planned any more. -/
  | done (hfaulted : w.isFaulted = true) (hplan : w.retryAt = none)
    (hlicense : hasLicense w.news = false)

/-- News that are no failure, no restart, and no start by the owner. -/
def IsIdle : News → Prop
  | .failed _ | .retried | .asked => False
  | _ => True

section Hopeless

variable {config : BackoffConfig} {w w' : Watch} {stretch : List News} {news : News}

theorem sinceAsked_append (before : List News) (h : news ≠ .asked) :
    sinceAsked (before ++ [news]) = sinceAsked before ++ [news] := by
  unfold sinceAsked
  rw [List.foldl_append]
  exact if_neg h

variable {more : List News} {threshold : Nat}

theorem sinceAsked_append_all (before : List News) (h : .asked ∉ more) :
    sinceAsked (before ++ more) = sinceAsked before ++ more := by
  induction more generalizing before with
  | nil => rw [List.append_nil, List.append_nil]
  | cons news more ih =>
    have hfirst : news ≠ .asked := fun hnews => h (hnews ▸ List.mem_cons_self)
    have htail := ih (before ++ [news]) fun hmem => h (List.mem_cons_of_mem _ hmem)
    rw [sinceAsked_append _ hfirst, List.append_assoc, List.append_assoc] at htail
    exact htail

theorem hasLicense_append (before : List News) (news : News) :
    hasLicense (before ++ [news]) = licenseAfter (hasLicense before) news := by
  simp [hasLicense]

theorem delayOf_of_not_isFailure (h : isFailure news = false) : delayOf news = none := by
  cases news with
  | failed _ => cases h
  | _ => rfl

theorem delays_eq_nil (h : failures stretch = 0) : delays stretch = [] :=
  List.filterMap_eq_nil_iff.mpr fun news hnews =>
    delayOf_of_not_isFailure (Bool.not_eq_true _ ▸ List.countP_eq_zero.mp h news hnews)

theorem IsIdle.asked (h : IsIdle news) : news ≠ .asked := by
  rintro rfl
  exact h

theorem IsIdle.retried (h : IsIdle news) : news ≠ .retried := by
  rintro rfl
  exact h

theorem IsIdle.failure (h : IsIdle news) : isFailure news = false := by
  cases news with
  | failed _ => exact h.elim
  | _ => rfl

theorem IsIdle.failures (h : IsIdle news) : failures (stretch ++ [news]) = failures stretch := by
  simp [CaptureEngine.failures, h.failure]

theorem IsIdle.restarts (h : IsIdle news) : restarts (stretch ++ [news]) = restarts stretch := by
  simp [CaptureEngine.restarts, h.retried]

theorem IsIdle.delays (h : IsIdle news) : delays (stretch ++ [news]) = delays stretch := by
  simp [CaptureEngine.delays, delayOf_of_not_isFailure h.failure]

/-- News other than a restart do not make one. -/
theorem Bounded.append (hs : Bounded threshold stretch)
    (hdelays : (CaptureEngine.delays (stretch ++ [news])).Pairwise (· ≤ ·))
    (hretried : news = .retried →
      CaptureEngine.failures stretch < threshold ∧ CaptureEngine.restarts stretch < threshold) :
    Bounded threshold (stretch ++ [news]) := by
  refine ⟨hdelays, fun before after hsplit => ?_⟩
  rcases Lib.Effect.append_singleton_split hsplit with ⟨rfl, hlast, -⟩ | ⟨after', hbefore⟩
  · exact hretried hlast.symm
  · exact hs.restarts before after' hbefore

theorem Bounded.idle (hs : Bounded threshold stretch) (h : IsIdle news) :
    Bounded threshold (stretch ++ [news]) :=
  hs.append (by rw [h.delays]; exact hs.delays) fun hretried => absurd hretried h.retried

/-- The count and the plan stay, or the plan goes. -/
theorem Counts.idle (hs : Counts config w) (hcount : w'.count = w.count)
    (hplan : w'.retryAt ≠ none → w.retryAt ≠ none) (hnews : w'.news = w.news ++ [news])
    (h : IsIdle news) : Counts config w' := by
  have hstretch : sinceAsked w'.news = sinceAsked w.news ++ [news] := by
    rw [hnews, sinceAsked_append _ h.asked]
  cases hs with
  | live hfailures hrestarts hlow hplanned hdelays =>
    refine .live ?_ ?_ (hcount ▸ hlow) (fun hplan' => ?_) ?_
    · rw [hstretch, h.failures, hcount]
      exact hfailures
    · rw [hstretch, h.restarts, hcount]
      exact hrestarts
    · rw [hstretch, h.restarts, hcount]
      exact hplanned (hplan hplan')
    · rw [hstretch, h.delays, hcount]
      exact hdelays
  | spent hhigh hnone =>
    refine .spent (hcount ▸ hhigh) ?_
    by_contra hplan'
    exact hplan hplan' hnone

/-- A failure is counted, or the breaker takes it. -/
theorem Counts.fail (hsmall : config.breakerThreshold < 2 ^ 32) (hsane : Sane config w)
    (hs : Counts config w) (hbounded : Bounded config.breakerThreshold (sinceAsked w.news))
    (now : Nat) : Counts config (w.fail now) ∧
      Bounded config.breakerThreshold (sinceAsked (w.fail now).news) := by
  have hconfig := hsane.config_eq
  have hgiveUp : delays (sinceAsked w.news ++ [.failed .giveUp]) =
      delays (sinceAsked w.news) := by
    simp [delays, delayOf]
  rcases fail_cases w now (hconfig ▸ hsmall) with ⟨hcount, hplan, _, hnews⟩ | ⟨hcount, hlow, hnews⟩
  · rw [hconfig] at hcount
    refine ⟨.spent hcount hplan, ?_⟩
    rw [hnews, sinceAsked_append _ (by simp)]
    exact hbounded.append (by rw [hgiveUp]; exact hbounded.delays) fun h => by cases h
  · rw [hconfig] at hlow hnews
    have hstretch : sinceAsked (w.fail now).news = sinceAsked w.news ++
        [.failed (.retryAfter (backoff config (w.count + 1)))] := by
      rw [hnews, sinceAsked_append _ (by simp)]
    have hdelays : delays (sinceAsked w.news ++
        [.failed (.retryAfter (backoff config (w.count + 1)))]) =
        delays (sinceAsked w.news) ++ [backoff config (w.count + 1)] := by
      simp [delays, delayOf]
    cases hs with
    | spent hhigh _ => omega
    | live hfailures hrestarts _ _ hbelow =>
      -- the new delay is the longest so far
      have hlongest : ∀ delay ∈ delays (sinceAsked w.news), delay ≤ backoff config (w.count + 1) :=
        fun delay hdelay => Nat.le_trans (hbelow delay hdelay) (backoff_mono (Nat.le_succ _))
      have hsame : restarts (sinceAsked (w.fail now).news) = restarts (sinceAsked w.news) := by
        rw [hstretch]
        simp [restarts]
      refine ⟨.live ?_ ?_ (hcount ▸ hlow) (fun _ => ?_) ?_, ?_⟩
      · rw [hstretch, hcount]
        simp only [failures, List.countP_append, List.countP_singleton, isFailure, if_true]
        exact Nat.succ_le_succ hfailures
      · rw [hsame, hcount]
        omega
      · rw [hsame, hcount]
        omega
      · rw [hstretch, hdelays, hcount]
        exact List.forall_mem_append.mpr ⟨hlongest, List.forall_mem_singleton.mpr (Nat.le_refl _)⟩
      · rw [hstretch]
        refine hbounded.append ?_ fun h => by cases h
        rw [hdelays, List.pairwise_append]
        refine ⟨hbounded.delays, List.pairwise_singleton _ _, fun delay hdelay delay' hdelay' => ?_⟩
        rw [List.mem_singleton.mp hdelay']
        exact hlongest delay hdelay

/-- Nothing is counted or planned, and nothing happened. -/
theorem Counts.fresh (hcount : w.count = 0) (hplan : w.retryAt = none)
    (hfailures : failures (sinceAsked w.news) = 0) (hrestarts : restarts (sinceAsked w.news) = 0) :
    Counts config w := by
  by_cases hlow : w.count < config.breakerThreshold
  · refine .live (by omega) (by omega) hlow (fun h => absurd hplan h) ?_
    simp [delays_eq_nil hfailures]
  · exact .spent (Nat.le_of_not_lt hlow) hplan

/-- The stretch so far is bounded, and will be. -/
def Hemmed (config : BackoffConfig) (w : Watch) : Prop :=
  Bounded config.breakerThreshold (sinceAsked w.news) ∧ Course config w

theorem Bounded.nil (threshold : Nat) : Bounded threshold [] :=
  ⟨List.Pairwise.nil, fun before after h => by simp at h⟩

/-- The owner's start begins a new stretch. -/
theorem Sane.hemmed_asked (hs : Sane config w) : Hemmed config (w.hear .asked) := by
  have hstretch : sinceAsked (w.hear .asked).news = [] := by
    show sinceAsked (w.news ++ [.asked]) = []
    simp [sinceAsked, stretchAfter]
  constructor
  · rw [hstretch]
    exact .nil _
  by_cases hlow : w.count < config.breakerThreshold
  · refine .counts (.live ?_ ?_ hlow (fun hplan => ?_) ?_)
    · rw [hstretch]
      exact Nat.zero_le _
    · rw [hstretch]
      exact Nat.zero_le _
    · rw [hstretch]
      exact (hs.planned hplan).1
    · rw [hstretch]
      simp [delays]
  · refine .counts (.spent (Nat.le_of_not_lt hlow) ?_)
    by_contra hplan
    exact hlow (hs.planned hplan).2

/-- A start that goes through ends the counting, when the fault stays. -/
theorem Course.succeed (hsane : Sane config w) (hs : Course config w)
    (hlicense : hasLicense w.news = false) : Course config w.succeed := by
  by_cases hfaulted : w.isFaulted = true
  · refine .done hfaulted rfl ?_
    show hasLicense (w.news ++ [.succeeded]) = false
    rw [hasLicense_append]
    exact hlicense
  -- nothing was counted before
  have hzero : w.count = 0 := hsane.count_eq_zero (Bool.not_eq_true _ ▸ hfaulted)
  cases hs with
  | counts hcounts =>
    exact .counts (hcounts.idle (hzero ▸ rfl) (fun h => absurd rfl h) rfl trivial)
  | done hfaulted' _ _ => exact absurd hfaulted' hfaulted

/-- A report of a fault changes nothing. -/
theorem Course.note_fault (hs : Course config w) {reason : ErrorReason} {detail : String}
    (hidle : IsIdle news) (hstarted : licenseAfter (hasLicense w.news) news = hasLicense w.news) :
    Course config (w.note (.faulted reason detail) news) := by
  cases hs with
  | counts hcounts => exact .counts (hcounts.idle rfl id rfl hidle)
  | done hfaulted hplan hlicense =>
    refine .done rfl hplan ?_
    show hasLicense (w.news ++ [news]) = false
    rw [hasLicense_append, hstarted]
    exact hlicense

theorem Hopeless.of_append (h : Hopeless (stretch ++ more)) : Hopeless stretch :=
  fun before state after hsplit => h before state (after ++ more) (by simp [hsplit])

/-- News that count nothing leave the stretch bounded. -/
theorem bounded_idle (hs : Bounded threshold (sinceAsked w.news))
    (hnews : w'.news = w.news ++ [news]) (hidle : IsIdle news) :
    Bounded threshold (sinceAsked w'.news) := by
  rw [hnews, sinceAsked_append _ hidle.asked]
  exact hs.idle hidle

/-- A report that is no fault comes before the first failure. -/
theorem Hemmed.well {state : SourceState} (hstate : isFaulted state = false)
    (hbounded : Bounded config.breakerThreshold (sinceAsked w.news)) (hcount : w.count = 0)
    (hplan : w.retryAt = none)
    (hhopeless : Hopeless (sinceAsked (w.note state (.reported state)).news)) :
    Hemmed config (w.note state (.reported state)) := by
  have hidle : IsIdle (.reported state) := trivial
  have hstretch : sinceAsked (w.note state (.reported state)).news =
      sinceAsked w.news ++ [.reported state] := sinceAsked_append _ hidle.asked
  have hearly : failures (sinceAsked w.news) + restarts (sinceAsked w.news) = 0 := by
    by_contra hlate
    have hfaulted := hhopeless _ state [] hstretch hlate
    rw [hstate] at hfaulted
    cases hfaulted
  have hcounts : Counts config w := .fresh hcount hplan (by omega) (by omega)
  exact ⟨bounded_idle hbounded rfl hidle, .counts (hcounts.idle rfl id rfl hidle)⟩

/-- A start uses the licence up, and changes nothing else. -/
theorem Hemmed.started (hs : Hemmed config w) :
    Hemmed config (w.hear .started) ∧ hasLicense (w.hear .started).news = false := by
  have hlicense : hasLicense (w.hear .started).news = false := by
    show hasLicense (w.news ++ [.started]) = false
    rw [hasLicense_append]
    rfl
  refine ⟨⟨bounded_idle hs.1 rfl trivial, ?_⟩, hlicense⟩
  cases hs.2 with
  | counts hcounts => exact .counts (hcounts.idle rfl id rfl trivial)
  | done hfaulted hplan _ => exact .done hfaulted hplan hlicense

/-- A planned restart is made while the failures are counted. -/
theorem Hemmed.retried (hs : Hemmed config w) (hdue : w.retryAt ≠ none) :
    Hemmed config (w.unplan.hear .retried) := by
  obtain ⟨hbounded, hcourse⟩ := hs
  have hstretch : sinceAsked (w.unplan.hear .retried).news = sinceAsked w.news ++ [.retried] :=
    sinceAsked_append w.news (by simp)
  have hdelays : delays (sinceAsked w.news ++ [.retried]) = delays (sinceAsked w.news) := by
    simp [delays, delayOf]
  have hfailures' : failures (sinceAsked w.news ++ [.retried]) = failures (sinceAsked w.news) := by
    simp [failures, isFailure]
  have hrestarts' : restarts (sinceAsked w.news ++ [.retried]) =
      restarts (sinceAsked w.news) + 1 := by
    simp [restarts]
  cases hcourse with
  | done _ hplan _ => exact absurd hplan hdue
  | counts hcounts =>
    cases hcounts with
    | spent _ hplan => exact absurd hplan hdue
    | live hfailures _ hlow hplanned hbelow =>
      have hfewer := hplanned hdue
      constructor
      · rw [hstretch]
        refine hbounded.append (by rw [hdelays]; exact hbounded.delays) fun _ => ?_
        omega
      · refine .counts (.live ?_ ?_ hlow (fun h => absurd rfl h) ?_)
        · rw [hstretch, hfailures']
          exact hfailures
        · rw [hstretch, hrestarts']
          exact hfewer
        · rw [hstretch, hdelays]
          exact hbelow

/-- A counted failure and its report. -/
theorem Hemmed.fail (hsmall : config.breakerThreshold < 2 ^ 32) (hsane : Sane config w)
    (hbounded : Bounded config.breakerThreshold (sinceAsked w.news)) (hcounts : Counts config w)
    (now : Nat) (state : SourceState) (hidle : IsIdle news) :
    Hemmed config ((w.fail now).note state news) := by
  obtain ⟨hcounts', hbounded'⟩ := hcounts.fail hsmall hsane hbounded now
  exact ⟨bounded_idle hbounded' rfl hidle, .counts (hcounts'.idle rfl id rfl hidle)⟩

theorem WatchStep.hemmed (hsmall : config.breakerThreshold < 2 ^ 32) (h : WatchStep false w w')
    (hsane : Sane config w) (hs : Hopeless (sinceAsked w.news) → Hemmed config w)
    (hhopeless : Hopeless (sinceAsked w'.news)) : Hemmed config w' := by
  obtain ⟨new, hnew, hasked⟩ := h.news
  by_cases hmem : .asked ∈ new
  · rw [hasked hmem]
    exact hsane.hemmed_asked
  have hw : Hemmed config w := by
    rw [hnew, sinceAsked_append_all _ hmem] at hhopeless
    exact hs hhopeless.of_append
  obtain ⟨⟨hbounded, hcourse⟩, hlicense⟩ := hw.started
  cases h with
  | asked => exact hsane.hemmed_asked
  | pumped hfree => cases hfree
  | retried hdue => exact hw.retried hdue
  | dropped hdue =>
    refine ⟨bounded_idle hw.1 rfl trivial, ?_⟩
    cases hw.2 with
    | counts hcounts => exact .counts (hcounts.idle rfl (fun h => absurd rfl h) rfl trivial)
    | done _ hplan _ => exact absurd hplan hdue
  | started _ =>
    exact ⟨bounded_idle hbounded rfl trivial,
      hcourse.succeed (hsane.hear .started) hlicense⟩
  | denied detail _ => exact ⟨bounded_idle hbounded rfl trivial, hcourse.note_fault trivial rfl⟩
  | refused detail now _ hlicensed =>
    refine Hemmed.fail hsmall (hsane.hear .started) hbounded ?_ now _ trivial
    cases hw.2 with
    | counts hcounts => exact hcounts.idle rfl id rfl trivial
    | done _ _ hnone =>
      rcases hlicensed with hfree | hlicensed
      · cases hfree
      · rw [hnone] at hlicensed
        cases hlicensed
  | well hstate hbefore =>
    have hzero := hsane.count_eq_zero hbefore
    refine .well hstate hw.1 hzero ?_ hhopeless
    by_contra hplan
    have := (hsane.planned hplan).1
    omega
  | recovered hstate _ =>
    exact .well hstate (bounded_idle hw.1 rfl trivial) rfl rfl hhopeless
  | forbidden _ | persisted _ _ _ =>
    exact ⟨bounded_idle hw.1 rfl trivial, hw.2.note_fault trivial rfl⟩
  | broke detail now _ hbefore =>
    cases hw.2 with
    | counts hcounts => exact Hemmed.fail hsmall hsane hw.1 hcounts now _ trivial
    | done hfaulted _ _ =>
      rw [hbefore] at hfaulted
      cases hfaulted
  | left hbefore =>
    exact .well (w := w.unplan) rfl hw.1 (hsane.count_eq_zero hbefore) rfl hhopeless

end Hopeless

end SolstoneWindows.Proofs.CaptureEngine
