import Mathlib.Data.List.Basic
import SolstoneWindows.ObserverRecovery

/-!
# Which segments recovery reaches

`recoverAll` is run on a file system that keeps a list of the calls made to it. `Recovered` says
what a complete recovery is: one call for each stale segment, in the order of the scan and of the
kind the scan asks for, and one outcome for each.

A seal that fails is passed over, and the segment is deferred. A quarantine that fails is not: the
loop ends there, the segments after it are not looked at, and no outcome is reported for any
(`recoverAll_stops_at_quarantine`). So recovery is complete exactly when no quarantine fails
(`recoverAll_recovered_iff`).
-/

set_option autoImplicit false

namespace SolstoneWindows.Proofs.ObserverRecovery

open ObserverModel
open SolstoneWindows.ObserverRecovery

/-! ## The calls that were made -/

/-- A call that recovery made for a segment, and whether it went through. -/
inductive Attempt where
  | finalize (seg : StaleSegment) (went : Bool)
  | quarantine (seg : StaleSegment) (went : Bool)
  deriving DecidableEq

def Attempt.segment : Attempt → StaleSegment
  | .finalize seg _ => seg
  | .quarantine seg _ => seg

/-- What is to be reported of a call. A quarantine that failed has no outcome. -/
def Attempt.outcome : Attempt → Option RecoveryOutcome
  | .finalize seg true => some (.finalized seg.key)
  | .finalize seg false => some (.deferred seg.key)
  | .quarantine seg true => some (.quarantined seg.key)
  | .quarantine _ false => none

section

variable {σ ε : Type}

def went : Except ε Unit → Bool
  | .ok _ => true
  | .error _ => false

/-- The file system, with a list of the calls made to it. -/
def recorded (fs : RecoveryFs σ ε) : RecoveryFs (σ × List Attempt) ε where
  scanIncomplete s := ((fs.scanIncomplete s.1).1, (fs.scanIncomplete s.1).2, s.2)
  finalize seg s :=
    ((fs.finalize seg s.1).1, (fs.finalize seg s.1).2,
      s.2 ++ [.finalize seg (went (fs.finalize seg s.1).1)])
  quarantine seg s :=
    ((fs.quarantine seg s.1).1, (fs.quarantine seg s.1).2,
      s.2 ++ [.quarantine seg (went (fs.quarantine seg s.1).1)])

/-- Every segment was given its one call, nothing usable was quarantined, and each call is
reported. -/
structure Recovered (stale : List StaleSegment) (attempts : List Attempt)
    (result : Except ε (List RecoveryOutcome)) : Prop where
  attempted : attempts.map Attempt.segment = stale
  unusable : ∀ seg ok, Attempt.quarantine seg ok ∈ attempts → seg.hasUsableData = false
  reported : ∃ outcomes, result = .ok outcomes ∧ attempts.map Attempt.outcome = outcomes.map some

/-- No quarantine failed. -/
def QuarantinesWent (attempts : List Attempt) : Prop :=
  ∀ seg, Attempt.quarantine seg false ∉ attempts

/-! ## The loop -/

/-- What a run of the loop over `stale` adds: calls for the segments it reached, each of the kind
the scan asks for. The loop returns all outcomes, or its last call is a quarantine that failed. -/
structure Loop (stale : List StaleSegment) (outcomes : List RecoveryOutcome)
    (added : List Attempt) (result : Except ε (List RecoveryOutcome)) : Prop where
  unusable : ∀ seg ok, Attempt.quarantine seg ok ∈ added → seg.hasUsableData = false
  ended : (added.map Attempt.segment = stale ∧ QuarantinesWent added ∧
      ∃ more, result = .ok (outcomes ++ more) ∧ added.map Attempt.outcome = more.map some) ∨
    (∃ e, result = .error e) ∧ ¬ QuarantinesWent added

/-- One segment more, whose call has an outcome. -/
theorem Loop.cons {stale : List StaleSegment} {outcomes : List RecoveryOutcome}
    {added : List Attempt} {result : Except ε (List RecoveryOutcome)} {seg : StaleSegment}
    {attempt : Attempt} {outcome : RecoveryOutcome} (hseg : attempt.segment = seg)
    (houtcome : attempt.outcome = some outcome)
    (husable : ∀ other ok, attempt = .quarantine other ok → other.hasUsableData = false)
    (h : Loop stale (outcomes ++ [outcome]) added result) :
    Loop (seg :: stale) outcomes (attempt :: added) result := by
  refine ⟨?_, ?_⟩
  · intro other ok hmem
    rcases List.mem_cons.mp hmem with heq | hmem
    · exact husable other ok heq.symm
    · exact h.unusable other ok hmem
  · -- A call with an outcome is not a quarantine that failed.
    have hnot : ∀ other, Attempt.quarantine other false ≠ attempt := by
      intro other heq
      rw [← heq] at houtcome
      cases houtcome
    rcases h.ended with ⟨hmap, hwent, more, hresult, hmore⟩ | ⟨herror, hfailed⟩
    · refine .inl ⟨?_, ?_, outcome :: more, ?_, ?_⟩
      · rw [List.map_cons, hseg, hmap]
      · intro other hmem
        rcases List.mem_cons.mp hmem with heq | hmem
        · exact hnot other heq
        · exact hwent other hmem
      · rw [hresult, List.append_assoc, List.singleton_append]
      · rw [List.map_cons, List.map_cons, houtcome, hmore]
    · refine .inr ⟨herror, fun hwent => hfailed fun other hmem => ?_⟩
      exact hwent other (List.mem_cons_of_mem _ hmem)

section Steps

variable (fs : RecoveryFs σ ε) {seg : StaleSegment} (stale : List StaleSegment)
  (outcomes : List RecoveryOutcome) (s : σ) (before : List Attempt)

/-- A usable segment is sealed or deferred, and the loop goes on. -/
theorem recoverEach_usable (h : seg.hasUsableData = true) :
    ∃ attempt outcome s', attempt.segment = seg ∧ attempt.outcome = some outcome ∧
      (∀ other ok, attempt ≠ Attempt.quarantine other ok) ∧
      recoverEach (recorded fs) (seg :: stale) outcomes (s, before) =
        recoverEach (recorded fs) stale (outcomes ++ [outcome]) (s', before ++ [attempt]) := by
  rw [recoverEach, if_pos h]
  rcases hcall : fs.finalize seg s with ⟨result, s'⟩
  cases result with
  | ok value =>
    refine ⟨.finalize seg true, .finalized seg.key, s', rfl, rfl, by simp, ?_⟩
    simp only [recorded, hcall, went]
  | error e =>
    refine ⟨.finalize seg false, .deferred seg.key, s', rfl, rfl, by simp, ?_⟩
    simp only [recorded, hcall, went]

/-- An unusable segment is quarantined, and the loop goes on unless that fails. -/
theorem recoverEach_unusable (h : seg.hasUsableData = false) :
    (∃ s', recoverEach (recorded fs) (seg :: stale) outcomes (s, before) =
        recoverEach (recorded fs) stale (outcomes ++ [.quarantined seg.key])
          (s', before ++ [.quarantine seg true])) ∨
      ∃ e s', recoverEach (recorded fs) (seg :: stale) outcomes (s, before) =
        (.error e, s', before ++ [.quarantine seg false]) := by
  rw [recoverEach, if_neg (by simp [h])]
  rcases hcall : fs.quarantine seg s with ⟨result, s'⟩
  cases result with
  | ok value => exact .inl ⟨s', by simp only [recorded, hcall, went]⟩
  | error e => exact .inr ⟨e, s', by simp only [recorded, hcall, went]⟩

end Steps

/-- By induction on the segments left: the loop adds their calls in order. -/
theorem recoverEach_loop (fs : RecoveryFs σ ε) (stale : List StaleSegment)
    (outcomes : List RecoveryOutcome) (s : σ) (before : List Attempt) :
    ∃ added, (recoverEach (recorded fs) stale outcomes (s, before)).2.2 = before ++ added ∧
      Loop stale outcomes added (recoverEach (recorded fs) stale outcomes (s, before)).1 := by
  induction stale generalizing outcomes s before with
  | nil =>
    refine ⟨[], by simp [recoverEach], by simp, .inl ⟨rfl, by simp [QuarantinesWent], [], ?_, rfl⟩⟩
    rw [List.append_nil]
    rfl
  | cons seg stale ih =>
    cases husable : seg.hasUsableData with
    | true =>
      obtain ⟨attempt, outcome, s', hseg, houtcome, hkind, hstep⟩ :=
        recoverEach_usable fs stale outcomes s before husable
      obtain ⟨added, hadded, hloop⟩ := ih (outcomes ++ [outcome]) s' (before ++ [attempt])
      refine ⟨attempt :: added, ?_, ?_⟩
      · rw [hstep, hadded, List.append_assoc, List.singleton_append]
      · rw [hstep]
        exact hloop.cons hseg houtcome fun other ok heq => absurd heq (hkind other ok)
    | false =>
      rcases recoverEach_unusable fs stale outcomes s before husable with
        ⟨s', hstep⟩ | ⟨e, s', hstep⟩
      · obtain ⟨added, hadded, hloop⟩ := ih (outcomes ++ [.quarantined seg.key]) s'
          (before ++ [.quarantine seg true])
        refine ⟨.quarantine seg true :: added, ?_, ?_⟩
        · rw [hstep, hadded, List.append_assoc, List.singleton_append]
        · rw [hstep]
          refine hloop.cons rfl rfl fun other ok heq => ?_
          cases heq
          exact husable
      · -- The loop ends with the failed quarantine as its last call.
        refine ⟨[.quarantine seg false], by rw [hstep], ?_, ?_⟩
        · intro other ok hmem
          cases List.mem_singleton.mp hmem
          exact husable
        · refine .inr ⟨⟨e, by rw [hstep]⟩, fun hwent => ?_⟩
          exact hwent seg List.mem_cons_self

/-! ## The whole recovery -/

/-- Whatever list the scan returns and whichever calls fail, recovery is complete exactly when no
quarantine fails. -/
theorem recoverAll_recovered_iff (fs : RecoveryFs σ ε) (s scanned : σ) (stale : List StaleSegment)
    (hscan : fs.scanIncomplete s = (.ok stale, scanned)) :
    Recovered stale (recoverAll (recorded fs) (s, [])).2.2 (recoverAll (recorded fs) (s, [])).1 ↔
      QuarantinesWent (recoverAll (recorded fs) (s, [])).2.2 := by
  have hrun : recoverAll (recorded fs) (s, []) =
      recoverEach (recorded fs) stale [] (scanned, []) := by
    simp [recoverAll, recorded, hscan]
  rw [hrun]
  obtain ⟨added, hadded, hloop⟩ := recoverEach_loop fs stale [] scanned []
  rw [hadded, List.nil_append]
  refine ⟨fun h => ?_, fun hwent => ?_⟩
  · obtain ⟨outcomes, hresult, -⟩ := h.reported
    rcases hloop.ended with ⟨-, hwent, -⟩ | ⟨⟨e, herror⟩, -⟩
    · exact hwent
    · rw [hresult] at herror
      cases herror
  · rcases hloop.ended with ⟨hmap, -, more, hresult, hmore⟩ | ⟨-, hfailed⟩
    · exact ⟨hmap, hloop.unusable, more, by rw [hresult, List.nil_append], hmore⟩
    · exact absurd hwent hfailed

end

/-! ## Two segments -/

/-- A file system with an unusable segment 1 and a usable segment 2. Its seals fail, and `moves`
says whether its quarantines go through. -/
def twoSegments (moves : Bool) : RecoveryFs Unit Unit where
  scanIncomplete s :=
    (.ok [⟨⟨300, 1⟩, "1.incomplete", false⟩, ⟨⟨600, 2⟩, "2.incomplete", true⟩], s)
  finalize _ s := (.error (), s)
  quarantine _ s := (if moves then .ok () else .error (), s)

/-- The quarantine goes through and the seal fails: both segments are reported. -/
theorem recoverAll_recovered_two : (recoverAll (recorded (twoSegments true)) ((), [])).1.toOption =
        some [.quarantined ⟨300, 1⟩, .deferred ⟨600, 2⟩] ∧
      Recovered [⟨⟨300, 1⟩, "1.incomplete", false⟩, ⟨⟨600, 2⟩, "2.incomplete", true⟩]
        (recoverAll (recorded (twoSegments true)) ((), [])).2.2
        (recoverAll (recorded (twoSegments true)) ((), [])).1 := by
  refine ⟨by decide, (recoverAll_recovered_iff (twoSegments true) () () _ rfl).mpr ?_⟩
  have hattempts : (recoverAll (recorded (twoSegments true)) ((), [])).2.2 =
      [.quarantine ⟨⟨300, 1⟩, "1.incomplete", false⟩ true,
        .finalize ⟨⟨600, 2⟩, "2.incomplete", true⟩ false] := by decide
  rw [hattempts]
  intro seg hmem
  simp at hmem

/-- The quarantine of segment 1 fails: the usable segment 2 gets no call, and nothing is
reported. -/
theorem recoverAll_stops_at_quarantine : (recoverAll (recorded (twoSegments false)) ((), [])).2.2 =
        [.quarantine ⟨⟨300, 1⟩, "1.incomplete", false⟩ false] ∧
      (recoverAll (recorded (twoSegments false)) ((), [])).1.toOption = none := by
  decide

end SolstoneWindows.Proofs.ObserverRecovery
