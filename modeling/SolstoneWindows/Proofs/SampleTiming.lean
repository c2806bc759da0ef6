import Mathlib.Data.List.Chain
import SolstoneWindows.ObserverSampleTiming

/-!
# Samples follow each other without a gap

`finish_pending` goes through the arrivals from a timer that holds a sample back. The next arrival
ends that sample, so what is left of the run begins where it ends, and one step of the chain is the
stamp of one arrival (`stamp_spec`).
-/

set_option autoImplicit false

namespace SolstoneWindows.Proofs.SampleTiming

open ObserverSampleTiming

/-- The arrival keeps its own time. -/
abbrev Keeps (anchor : Int) (pair : Int × StampedSample) : Prop :=
  pair.2.sampleTime = pair.1 - anchor

/-- A sample begins where the one before it ends, and its arrival keeps its time exactly if it is
not before the anchor and the minimum after the time before it. -/
structure Follows (anchor minDuration : Int) (pair next : Int × StampedSample) : Prop where
  contiguous : next.2.sampleTime = pair.2.sampleTime + pair.2.sampleDuration
  keeps : Keeps anchor next ↔ anchor ≤ next.1 ∧ pair.2.sampleTime + minDuration ≤ next.1 - anchor

/-- The samples of these arrivals, and what the timer says of them. -/
structure Stamped (anchor minDuration windowEnd : Int) (arrivals : List Int) (timer : SampleTimer)
    (samples : List StampedSample) : Prop where
  count : samples.length = arrivals.length
  bounds : ∀ sample ∈ samples, 0 ≤ sample.sampleTime ∧ minDuration ≤ sample.sampleDuration
  first : ∀ pair ∈ (arrivals.zip samples).head?, Keeps anchor pair ↔ anchor ≤ pair.1
  chain : (arrivals.zip samples).IsChain (Follows anchor minDuration)
  clamps : timer.clampEvents = (arrivals.zip samples).countP (¬ Keeps anchor ·)
  /-- Past the end of the window the last sample is as short as it may be. -/
  ended : ∀ sample ∈ samples.getLast?, timer.lastEnd = sample.sampleTime + sample.sampleDuration ∧
      (windowEnd < timer.lastEnd → sample.sampleDuration = minDuration)

section Finish

variable {timer : SampleTimer} {prev : Int}

/-- After a pending sample. -/
theorem stamp_spec (arrival : Int) (hpending : timer.pending = some prev) (hprev : 0 ≤ prev)
    (hmin : 0 < timer.minDuration) :
    prev + timer.minDuration ≤ (timer.stamp arrival).1 ∧
      ((timer.stamp arrival).2 = true ↔ (timer.stamp arrival).1 ≠ arrival - timer.anchor) ∧
      ((timer.stamp arrival).1 = arrival - timer.anchor ↔
        timer.anchor ≤ arrival ∧ prev + timer.minDuration ≤ arrival - timer.anchor) := by
  unfold SampleTimer.stamp
  rw [hpending]
  dsimp only
  split
  · refine ⟨Int.le_refl _, ?_, ?_⟩
    · simp only [true_iff]
      omega
    · omega
  · refine ⟨by omega, ?_, ?_⟩
    · simp only [decide_eq_true_eq]
      omega
    · omega

/-- What is left of a run: the sample that is held back, and those of the arrivals to come. -/
theorem finish_pending (windowEnd : Int) (arrivals : List Int) (timer : SampleTimer)
    (hpending : timer.pending = some prev) (hprev : 0 ≤ prev) (hmin : 0 < timer.minDuration)
    (hgap : timer.minDuration ≤ timer.lastGap)
    (hcount : timer.clampEvents + arrivals.length < 2 ^ 64) :
    ∃ duration rest, (timer.finish windowEnd arrivals).2 = ⟨prev, duration⟩ :: rest ∧
      rest.length = arrivals.length ∧
      (∀ sample ∈ ⟨prev, duration⟩ :: rest,
        0 ≤ sample.sampleTime ∧ timer.minDuration ≤ sample.sampleDuration) ∧
      (∀ arrival, ((arrival, ⟨prev, duration⟩) :: arrivals.zip rest).IsChain
        (Follows timer.anchor timer.minDuration)) ∧
      (timer.finish windowEnd arrivals).1.clampEvents =
        timer.clampEvents + (arrivals.zip rest).countP (¬ Keeps timer.anchor ·) ∧
      ∀ sample ∈ (⟨prev, duration⟩ :: rest).getLast?,
        (timer.finish windowEnd arrivals).1.lastEnd = sample.sampleTime + sample.sampleDuration ∧
          (windowEnd < (timer.finish windowEnd arrivals).1.lastEnd →
            sample.sampleDuration = timer.minDuration) := by
  induction arrivals generalizing timer prev with
  | nil =>
    simp only [SampleTimer.finish, SampleTimer.flush, hpending]
    refine ⟨_, [], rfl, rfl, ?_, fun _ => .singleton _, by simp, ?_⟩
    · simp only [List.forall_mem_singleton]
      omega
    · intro sample hsample
      obtain rfl : (⟨prev, _⟩ : StampedSample) = sample := Option.some.inj hsample
      refine ⟨rfl, fun hlate => ?_⟩
      dsimp only at hlate ⊢
      omega
  | cons arrival arrivals ih =>
    obtain ⟨hfloor, hclamped, hkeeps⟩ := stamp_spec arrival hpending hprev hmin
    rcases hstamp : timer.stamp arrival with ⟨time, clamped⟩
    rw [hstamp] at hfloor hclamped hkeeps
    have hpush : timer.push arrival = ({ timer with
        clampEvents := timer.clampEvents + if clamped then 1 else 0
        lastGap := time - prev
        pending := some time }, some ⟨prev, time - prev⟩) := by
      have hroom : min (timer.clampEvents + 1) (2 ^ 64 - 1) = timer.clampEvents + 1 := by
        rw [List.length_cons] at hcount
        omega
      unfold SampleTimer.push
      rw [hstamp]
      cases clamped with
      | false => simp [hpending]
      | true => simp only [if_true, hroom, hpending]
    rw [List.length_cons] at hcount
    obtain ⟨duration, rest, hrun, hlength, hbounds, hchain, hclamps, hended⟩ :=
      ih (timer.push arrival).1 (by rw [hpush]) (by omega) (by rw [hpush]; exact hmin)
        (by rw [hpush]; dsimp only; omega) (by rw [hpush]; dsimp only; split <;> omega)
    simp only [SampleTimer.finish]
    rw [hrun]
    simp only [hpush] at hbounds hchain hclamps hended ⊢
    refine ⟨time - prev, ⟨time, duration⟩ :: rest, rfl, by simp [hlength], ?_, ?_, ?_, hended⟩
    · exact List.forall_mem_cons.mpr ⟨⟨hprev, by dsimp only; omega⟩, hbounds⟩
    · exact fun _ => .cons_cons ⟨by dsimp only; omega, hkeeps⟩ (hchain arrival)
    · rw [hclamps, List.zip_cons_cons, List.countP_cons]
      simp only [decide_eq_true_eq]
      by_cases hsame : time = arrival - timer.anchor
      · rw [if_neg (by rw [hclamped]; exact not_not.mpr hsame), if_neg (not_not.mpr hsame)]
        omega
      · rw [if_pos (hclamped.mpr hsame), if_pos hsame]
        omega

end Finish

/-- The samples of any run are contiguous and at least as long as the minimum. An arrival is moved
only where it has to be, and the timer counts these. -/
theorem finish_stamped (anchor minDuration windowEnd : Int) (arrivals : List Int)
    (hmin : 0 < minDuration) (hcount : arrivals.length < 2 ^ 64) :
    Stamped anchor minDuration windowEnd arrivals
      ((SampleTimer.new anchor minDuration).finish windowEnd arrivals).1
      ((SampleTimer.new anchor minDuration).finish windowEnd arrivals).2 := by
  cases arrivals with
  | nil =>
    exact ⟨rfl, fun _ h => (nomatch h), fun _ h => (nomatch h), .nil, rfl, fun _ h => nomatch h⟩
  | cons arrival arrivals =>
    rw [List.length_cons] at hcount
    -- the first arrival has no time before it
    have hpush : (SampleTimer.new anchor minDuration).push arrival =
        ({ SampleTimer.new anchor minDuration with
          clampEvents := if arrival - anchor < 0 then 1 else 0
          pending := some (max (arrival - anchor) 0) }, none) := by
      unfold SampleTimer.push SampleTimer.stamp SampleTimer.new
      by_cases hneg : arrival - anchor < 0 <;> simp [hneg]
    obtain ⟨duration, rest, hrun, hlength, hbounds, hchain, hclamps, hended⟩ :=
      finish_pending windowEnd arrivals ((SampleTimer.new anchor minDuration).push arrival).1
        (by rw [hpush]) (by omega) (by rw [hpush]; exact hmin)
        (by rw [hpush]; exact Int.le_refl _) (by rw [hpush]; dsimp only; split <;> omega)
    simp only [SampleTimer.finish]
    rw [hrun]
    simp only [hpush] at hbounds hchain hclamps hended ⊢
    refine ⟨by simp [hlength], hbounds, ?_, hchain arrival, ?_, hended⟩
    · rintro _ ⟨⟩
      dsimp only [Keeps]
      omega
    · rw [hclamps, Option.toList_none, List.nil_append, List.zip_cons_cons, List.countP_cons]
      have hmoved : ¬ Keeps anchor (arrival, ⟨max (arrival - anchor) 0, duration⟩) ↔
          arrival - anchor < 0 := by
        dsimp only [Keeps]
        omega
      simp only [decide_eq_true_eq, hmoved]
      exact Nat.add_comm _ _

/-- An arrival before the anchor, one that comes too soon, and one in time. -/
theorem finish_stamped_moved :
    Stamped 10 2 12 [4, 11, 20] ⟨10, 2, none, 8, 2, 12⟩ [⟨0, 2⟩, ⟨2, 8⟩, ⟨10, 2⟩] :=
  finish_stamped 10 2 12 [4, 11, 20] (by decide) (by decide)

end SolstoneWindows.Proofs.SampleTiming
