import Mathlib.Data.List.Induction
import SolstoneWindows.ObserverModel.JournalLink

/-!
# Connected is earned

A history is the list of readings so far, the oldest first. `Earned` and `Held` are the two grounds
for showing connected, said of the history alone: a recent answer, or a short grace after an episode
that ended connected. `Follows` relates the fields of the presenter to the history, and every
reading keeps it.
-/

set_option autoImplicit false

namespace SolstoneWindows.Proofs.JournalLink

open ObserverModel

structure Reading where
  input : LinkInput
  time : Nat
  deriving DecidableEq

/-! ## Histories -/

/-- The presenter after the readings, from a default one. -/
def presenterAfter (history : List Reading) : LinkPresenter :=
  history.foldl (fun p reading => (p.present reading.input reading.time).2) {}

/-- What a reading shows after the history. -/
def shownAt (history : List Reading) (reading : Reading) : Option JournalLink :=
  ((presenterAfter history).present reading.input reading.time).1

/-- What each reading showed. -/
def links : List Reading → List Reading → List (Option JournalLink)
  | _, [] => []
  | before, reading :: rest => shownAt before reading :: links (before ++ [reading]) rest

/-- The last link that was shown, if any was. -/
def lastLink (history : List Reading) : Option JournalLink :=
  ((links [] history).filterMap id).getLast?

def stampOf (history : List Reading) : Option Nat :=
  history.getLast?.bind fun reading => reading.input.answered

/-- The longest lease of some readings. -/
def longestLease (readings : List Reading) : Nat :=
  (readings.map fun reading => reading.input.leaseMs).foldl max 0

/-- The answer was first seen at `first`, and the stamp has not changed in `later`. -/
structure Heard (before : List Reading) (first : Reading) (later : List Reading) : Prop where
  some : first.input.answered.isSome = true
  change : first.input.answered ≠ stampOf before
  same : ∀ reading ∈ later, reading.input.answered = first.input.answered

/-- An answer whose lease has not run out. -/
def Earned (history : List Reading) (time : Nat) : Prop :=
  ∃ before first later, history = before ++ first :: later ∧ Heard before first later ∧
    first.time ≤ time ∧ time < first.time + longestLease (first :: later)

/-- The readings since `first` are an episode: they are up, and the one before them is not. -/
structure Episode (before : List Reading) (first : Reading) (later : List Reading) : Prop where
  start : ∀ reading, before.getLast? = some reading → reading.input.up = false
  up : ∀ reading ∈ first :: later, reading.input.up = true

/-- The grace of an episode that came after connected. -/
def Held (history : List Reading) (time : Nat) : Prop :=
  ∃ before first later, history = before ++ first :: later ∧ Episode before first later ∧
    lastLink before = some .connected ∧ time < first.time + RESUME_GRACE_MS

/-! ## The fields and the history -/

/-- What the fields of the presenter say about the history. -/
structure Follows (history : List Reading) (p : LinkPresenter) : Prop where
  answered : p.answered = stampOf history
  heard : ∀ time, p.heardAt = some time → ∃ before first later,
    history = before ++ first :: later ∧ Heard before first later ∧ time = first.time ∧
      p.leaseMs = longestLease (first :: later)
  lastShown : p.lastShown = lastLink history
  down : p.shown = none → ∀ reading, history.getLast? = some reading → reading.input.up = false
  hold : p.shown ≠ none → ∃ before first later, history = before ++ first :: later ∧
    Episode before first later ∧ ∀ limit, p.holdUntil = some limit →
      lastLink before = some .connected ∧ limit ≤ first.time + RESUME_GRACE_MS

section

variable {history : List Reading} {reading : Reading} {p : LinkPresenter}

theorem stampOf_append (history : List Reading) (reading : Reading) :
    stampOf (history ++ [reading]) = reading.input.answered := by
  simp [stampOf]

theorem saturatingAdd_le (a b : Nat) : saturatingAdd a b ≤ a + b := by
  unfold saturatingAdd
  omega

theorem links_append (before history : List Reading) (reading : Reading) :
    links before (history ++ [reading]) =
      links before history ++ [shownAt (before ++ history) reading] := by
  induction history generalizing before with
  | nil => simp [links]
  | cons first history ih => simp [links, ih]

theorem lastLink_append (history : List Reading) (reading : Reading) :
    lastLink (history ++ [reading]) = match shownAt history reading with
      | none => lastLink history
      | some link => some link := by
  unfold lastLink
  rw [links_append, List.nil_append]
  cases hshown : shownAt history reading with
  | none | some link => simp

theorem presenterAfter_append (history : List Reading) (reading : Reading) :
    presenterAfter (history ++ [reading]) =
      ((presenterAfter history).present reading.input reading.time).2 := by
  simp [presenterAfter]

/-! ## One reading -/

/-- The presenter once the reading was heard and its episode entered. -/
def entered (p : LinkPresenter) (reading : Reading) : LinkPresenter :=
  let q := { p.hear reading.input reading.time with noNetwork := !reading.input.network }
  q.enter (q.fresh reading.time)
    (reading.input.network && (p.hear reading.input reading.time).noNetwork)
    reading.time

/-- The evidence of a presenter: the fields that an episode leaves alone. -/
def SameEvidence (p q : LinkPresenter) : Prop :=
  q.answered = p.answered ∧ q.heardAt = p.heardAt ∧ q.leaseMs = p.leaseMs ∧
    q.lastShown = p.lastShown

theorem entered_evidence (p : LinkPresenter) (reading : Reading) :
    SameEvidence (p.hear reading.input reading.time) (entered p reading) := by
  unfold entered LinkPresenter.enter
  dsimp only
  split
  · exact ⟨rfl, rfl, rfl, rfl⟩
  · split
    · exact ⟨rfl, rfl, rfl, rfl⟩
    · exact ⟨rfl, rfl, rfl, rfl⟩

theorem hear_shown (p : LinkPresenter) (reading : Reading) :
    (p.hear reading.input reading.time).shown = p.shown ∧
      (p.hear reading.input reading.time).lastShown = p.lastShown ∧
      (p.hear reading.input reading.time).holdUntil = p.holdUntil ∧
      (p.hear reading.input reading.time).droppedAt = p.droppedAt := by
  unfold LinkPresenter.hear
  split <;> exact ⟨rfl, rfl, rfl, rfl⟩

/-- A drop leaves the evidence and the hold alone. -/
theorem drop_evidence (p : LinkPresenter) (nowMs : Nat) :
    SameEvidence p (p.drop nowMs) ∧ (p.drop nowMs).holdUntil = p.holdUntil := by
  unfold LinkPresenter.drop
  split <;> exact ⟨⟨rfl, rfl, rfl, rfl⟩, rfl⟩

/-- A drop is recent. -/
def Dwells (p : LinkPresenter) (time : Nat) : Prop :=
  ∃ dropped ∈ p.droppedAt, time < saturatingAdd dropped DOWN_DWELL_MS

def Grace (p : LinkPresenter) (time : Nat) : Prop := ∃ limit ∈ p.holdUntil, time < limit

/-- Connected is chosen on a lease that runs, or on a hold. -/
def Grounded (p : LinkPresenter) (network : Bool) (time : Nat) : Prop :=
  (p.fresh time = true ∧ ¬ Dwells p time) ∨ (p.fresh time = false ∧ network = true ∧ Grace p time)

theorem grounded_iff (p : LinkPresenter) (network : Bool) (time : Nat) :
    ((p.fresh time && !p.dwelling time) || p.holding (p.fresh time) network time) = true ↔
      Grounded p network time := by
  have hdwells : p.dwelling time = true ↔ Dwells p time := by
    simp [LinkPresenter.dwelling, Dwells, Option.any_eq_true]
  have hgrace : (p.holdUntil.any fun limit => time < limit) = true ↔ Grace p time := by
    simp [Grace, Option.any_eq_true]
  unfold LinkPresenter.holding Grounded
  rw [← hdwells, ← hgrace]
  simp [and_assoc]

/-- What is shown without a ground, when there was one last at `since`. -/
def unreached (network : Bool) (since time : Nat) : JournalLink :=
  if !network || OFFLINE_AFTER_MS ≤ time - since then .offline else .connecting

theorem unreached_ne (network : Bool) (since time : Nat) :
    unreached network since time ≠ .connected := by
  unfold unreached
  split <;> decide

/-- What a reading that is up leaves of the presenter that entered the episode. -/
theorem present_cases {q : LinkPresenter} (hq : q = entered p reading)
    (hup : reading.input.up = true) :
    (Grounded q reading.input.network reading.time ∧
      p.present reading.input reading.time = (some .connected, { q with
        holdUntil := if q.fresh reading.time then none else q.holdUntil
        shown := some .connected
        lastShown := some .connected })) ∨
    ∃ link, ¬ Grounded q reading.input.network reading.time ∧
      link = unreached reading.input.network (q.drop reading.time).unreachedSince reading.time ∧
      p.present reading.input reading.time = (some link,
        { q.drop reading.time with shown := some link, lastShown := some link }) := by
  -- the lease is read before the episode is entered, which leaves it alone
  have hfresh : (p.hear reading.input reading.time).fresh reading.time = q.fresh reading.time := by
    obtain ⟨-, hheard, hlease, -⟩ := entered_evidence p reading
    unfold LinkPresenter.fresh
    rw [hq, hheard, hlease]
  have hpresent : p.present reading.input reading.time =
      let chosen := q.choose ((p.hear reading.input reading.time).fresh reading.time)
        reading.input.network reading.time
      (some chosen.1, { (if (p.hear reading.input reading.time).fresh reading.time &&
          chosen.1 = .connected then { chosen.2 with holdUntil := none } else chosen.2)
        with shown := some chosen.1, lastShown := some chosen.1 }) := by
    unfold LinkPresenter.present
    rw [hup, hq]
    rfl
  rw [hpresent, hfresh]
  unfold LinkPresenter.choose
  split
  · next hground =>
    refine .inl ⟨(grounded_iff ..).mp hground, ?_⟩
    cases q.fresh reading.time <;> rfl
  · next hground =>
    refine .inr ⟨_, fun h => hground ((grounded_iff ..).mpr h), rfl, ?_⟩
    have hne := unreached_ne reading.input.network (q.drop reading.time).unreachedSince reading.time
    unfold unreached at hne
    simp only [decide_eq_false hne, Bool.and_false, Bool.false_eq_true, if_false]
    rfl

theorem present_down (p : LinkPresenter) (reading : Reading) (hup : reading.input.up = false) :
    (p.present reading.input reading.time).1 = none ∧
      SameEvidence (p.hear reading.input reading.time) (p.present reading.input reading.time).2 ∧
      (p.present reading.input reading.time).2.shown = none := by
  unfold LinkPresenter.present
  rw [hup]
  exact ⟨rfl, ⟨rfl, rfl, rfl, rfl⟩, rfl⟩

/-- What a reading that is up does after the episode is entered. -/
structure Shows (q : LinkPresenter) (reading : Reading) (link : JournalLink) (p' : LinkPresenter) :
    Prop where
  ground : link = .connected → q.fresh reading.time = true ∨ (reading.input.network = true ∧
    ∃ limit, q.holdUntil = some limit ∧ reading.time < limit)
  answered : p'.answered = q.answered
  heardAt : p'.heardAt = q.heardAt
  leaseMs : p'.leaseMs = q.leaseMs
  lastShown : p'.lastShown = some link
  shown : p'.shown = some link
  holdUntil : p'.holdUntil = q.holdUntil ∨ p'.holdUntil = none

theorem present_up (p : LinkPresenter) (reading : Reading) (hup : reading.input.up = true) :
    ∃ link, (p.present reading.input reading.time).1 = some link ∧
      Shows (entered p reading) reading link (p.present reading.input reading.time).2 := by
  rcases present_cases (p := p) rfl hup with ⟨hground, heq⟩ | ⟨link, -, hlink, heq⟩
  · rw [heq]
    refine ⟨_, rfl, fun _ => ?_, rfl, rfl, rfl, rfl, rfl, ?_⟩
    · exact hground.imp And.left And.right
    · dsimp only
      split
      · exact .inr rfl
      · exact .inl rfl
  · obtain ⟨⟨hanswered, hheard, hlease, -⟩, hhold⟩ := drop_evidence (entered p reading) reading.time
    rw [heq]
    refine ⟨link, rfl, fun h => ?_, hanswered, hheard, hlease, rfl, rfl, .inl hhold⟩
    exact absurd (hlink.symm.trans h) (unreached_ne _ _ _)

/-- The stamp since an answer is the answer's. -/
theorem Heard.stamp {before later : List Reading} {first : Reading} (h : Heard before first later) :
    stampOf (before ++ first :: later) = first.input.answered := by
  rcases List.eq_nil_or_concat later with rfl | ⟨later', last, rfl⟩
  · rw [stampOf_append]
  · rw [List.concat_eq_append] at h ⊢
    rw [← List.cons_append, ← List.append_assoc, stampOf_append]
    exact h.same last (List.mem_append_right _ List.mem_cons_self)

/-- Hearing a reading keeps what the evidence says. -/
theorem Follows.hear (h : Follows history p) (reading : Reading) :
    (p.hear reading.input reading.time).answered = stampOf (history ++ [reading]) ∧
    ∀ time, (p.hear reading.input reading.time).heardAt = some time →
      ∃ before first later, history ++ [reading] = before ++ first :: later ∧
        Heard before first later ∧ time = first.time ∧
        (p.hear reading.input reading.time).leaseMs = longestLease (first :: later) := by
  rw [stampOf_append]
  unfold LinkPresenter.hear
  split
  · -- a new stamp: this reading is the first with it
    next hnew =>
    refine ⟨rfl, fun time htime => ⟨history, reading, [], rfl, ⟨?_, ?_, by simp⟩, ?_, ?_⟩⟩
    · cases hstamp : reading.input.answered with
      | none => rw [hstamp] at htime; cases htime
      | some stamp => rfl
    · rw [← h.answered]
      exact hnew
    · obtain ⟨_, _, rfl⟩ := Option.map_eq_some_iff.mp htime
      rfl
    · simp [longestLease]
  · next hsame =>
    have hsame : reading.input.answered = p.answered := not_not.mp hsame
    refine ⟨hsame.symm, fun time htime => ?_⟩
    obtain ⟨before, first, later, rfl, hheard, htime, hlease⟩ := h.heard time htime
    refine ⟨before, first, later ++ [reading], by simp, ?_, htime, ?_⟩
    · refine ⟨hheard.some, hheard.change,
        List.forall_mem_append.mpr ⟨hheard.same, List.forall_mem_singleton.mpr ?_⟩⟩
      rw [hsame, h.answered, hheard.stamp]
    · simp [longestLease, hlease]

/-- The episode of a reading that is up, and what its hold goes back to. -/
theorem Follows.enter (h : Follows history p) (reading : Reading) (hup : reading.input.up = true) :
    ∃ before first later, history ++ [reading] = before ++ first :: later ∧
      Episode before first later ∧ ∀ limit, (entered p reading).holdUntil = some limit →
        lastLink before = some .connected ∧ limit ≤ first.time + RESUME_GRACE_MS := by
  obtain ⟨hshown, hlast, hhold, -⟩ := hear_shown p reading
  unfold entered LinkPresenter.enter
  dsimp only
  rw [hshown]
  cases hp : p.shown with
  | none =>
    refine ⟨history, reading, [], rfl, ⟨h.down hp, by simpa using hup⟩, fun limit hlimit => ?_⟩
    dsimp only at hlimit
    split at hlimit
    · next hconnected =>
      rw [hlast, h.lastShown] at hconnected
      rw [Option.some.injEq] at hlimit
      rw [← hlimit]
      exact ⟨hconnected.1, saturatingAdd_le _ _⟩
    · cases hlimit
  | some link =>
    obtain ⟨before, first, later, rfl, hepisode, hlimits⟩ := h.hold (by simp [hp])
    refine ⟨before, first, later ++ [reading], by simp, ⟨hepisode.start, ?_⟩,
      fun limit hlimit => ?_⟩
    · rw [← List.cons_append]
      exact List.forall_mem_append.mpr ⟨hepisode.up, List.forall_mem_singleton.mpr hup⟩
    · refine hlimits limit ?_
      dsimp only at hlimit
      split at hlimit <;> exact hhold.symm.trans hlimit

/-- A reading keeps the fields in step with the history. -/
theorem Follows.step (h : Follows history (presenterAfter history)) (reading : Reading) :
    Follows (history ++ [reading]) (presenterAfter (history ++ [reading])) := by
  rw [presenterAfter_append]
  obtain ⟨hanswered, hheard⟩ := h.hear reading
  have hlink := lastLink_append history reading
  unfold shownAt at hlink
  cases hup : reading.input.up with
  | false =>
    obtain ⟨hnone, ⟨ha, hh, hl, hls⟩, hshown⟩ := present_down (presenterAfter history) reading hup
    rw [hnone] at hlink
    refine ⟨ha.trans hanswered, fun time htime => ?_, ?_, fun _ reading' hreading' => ?_,
      fun hne => absurd hshown hne⟩
    · rw [hl]
      exact hheard time (hh.symm.trans htime)
    · rw [hls, (hear_shown _ reading).2.1, h.lastShown, hlink]
    · rw [List.getLast?_concat, Option.some.injEq] at hreading'
      rw [← hreading']
      exact hup
  | true =>
    obtain ⟨link, hsome, hshows⟩ := present_up (presenterAfter history) reading hup
    rw [hsome] at hlink
    obtain ⟨ha, hh, hl, -⟩ := entered_evidence (presenterAfter history) reading
    refine ⟨?_, fun time htime => ?_, ?_, fun hnone => ?_, fun _ => ?_⟩
    · rw [hshows.answered, ha, hanswered]
    · rw [hshows.leaseMs, hl]
      refine hheard time ?_
      rw [← hh, ← hshows.heardAt, htime]
    · rw [hshows.lastShown, hlink]
    · rw [hshows.shown] at hnone
      cases hnone
    · obtain ⟨before, first, later, hsplit, hepisode, hlimits⟩ := h.enter reading hup
      refine ⟨before, first, later, hsplit, hepisode, fun limit hlimit => ?_⟩
      rcases hshows.holdUntil with hsame | hnone
      · exact hlimits limit (hsame ▸ hlimit)
      · rw [hnone] at hlimit
        cases hlimit

/-- Every history. -/
theorem follows (history : List Reading) : Follows history (presenterAfter history) := by
  induction history using List.reverseRecOn with
  | nil => exact ⟨rfl, nofun, rfl, nofun, fun h => absurd rfl h⟩
  | append_singleton history reading ih => exact ih.step reading

/-- The times of a history do not go back. -/
def Ordered (history : List Reading) : Prop :=
  (history.map Reading.time).Pairwise (· ≤ ·)

/-- No reading is later than the last one. -/
theorem Ordered.le_last (h : Ordered (history ++ [reading])) {first : Reading}
    (hfirst : first ∈ history ++ [reading]) : first.time ≤ reading.time := by
  unfold Ordered at h
  rw [List.map_append, List.pairwise_append] at h
  rcases List.mem_append.mp hfirst with hfirst | hfirst
  · exact h.2.2 first.time (List.mem_map_of_mem hfirst) reading.time (by simp)
  · exact Nat.le_of_eq (congrArg _ (List.mem_singleton.mp hfirst))

theorem Ordered.of_append {later : List Reading} (h : Ordered (history ++ later)) :
    Ordered history := by
  unfold Ordered at h
  rw [List.map_append, List.pairwise_append] at h
  exact h.1

theorem grounds (hordered : Ordered (history ++ [reading]))
    (hconnected : shownAt history reading = some .connected) :
    Earned (history ++ [reading]) reading.time ∨
      (reading.input.network = true ∧ Held (history ++ [reading]) reading.time) := by
  have hfollows := follows history
  unfold shownAt at hconnected
  cases hup : reading.input.up with
  | false =>
    rw [(present_down _ reading hup).1] at hconnected
    cases hconnected
  | true =>
    obtain ⟨link, hsome, hshows⟩ := present_up (presenterAfter history) reading hup
    rw [hconnected, Option.some.injEq] at hsome
    rcases hshows.ground hsome.symm with hfresh | ⟨hnetwork, limit, hlimit, hlt⟩
    · left
      unfold LinkPresenter.fresh at hfresh
      obtain ⟨heard, hheard, hlease⟩ := (Option.any_eq_true _ _).mp hfresh
      obtain ⟨-, hh, hl, -⟩ := entered_evidence (presenterAfter history) reading
      obtain ⟨before, first, later, hsplit, hfirst, htime, hlongest⟩ :=
        (hfollows.hear reading).2 heard (hh ▸ hheard)
      have hbefore : first.time ≤ reading.time := by
        refine hordered.le_last ?_
        rw [hsplit]
        exact List.mem_append_right _ List.mem_cons_self
      refine ⟨before, first, later, hsplit, hfirst, hbefore, ?_⟩
      have hbound := saturatingAdd_le heard (entered (presenterAfter history) reading).leaseMs
      have hlease := of_decide_eq_true hlease
      rw [hl, hlongest] at hbound hlease
      omega
    · right
      obtain ⟨before, first, later, hsplit, hepisode, hlimits⟩ := hfollows.enter reading hup
      obtain ⟨hlast, hbound⟩ := hlimits limit hlimit
      exact ⟨hnetwork, before, first, later, hsplit, hepisode, hlast, by omega⟩

theorem shown_of_lastLink {link : JournalLink} (h : lastLink history = some link) :
    ∃ before reading later, history = before ++ reading :: later ∧
      shownAt before reading = some link := by
  induction history using List.reverseRecOn with
  | nil => cases h
  | append_singleton history reading ih =>
    rw [lastLink_append] at h
    cases hshown : shownAt history reading with
    | none =>
      rw [hshown] at h
      obtain ⟨before, reading', later, rfl, hreading'⟩ := ih h
      exact ⟨before, reading', later ++ [reading], by simp, hreading'⟩
    | some link' =>
      rw [hshown] at h
      exact ⟨history, reading, [], rfl, hshown.trans h⟩

/-- Nothing is connected before the first answer. The grace goes back to an earlier connected, so
the induction is on the length of the history. -/
theorem answered_of_connected (hordered : Ordered (history ++ [reading]))
    (hconnected : shownAt history reading = some .connected) :
    ∃ answer ∈ history ++ [reading], answer.input.answered.isSome = true := by
  induction hlength : history.length using Nat.strongRecOn generalizing history reading with
  | _ n ih =>
    rcases grounds hordered hconnected with ⟨before, first, later, hsplit, hfirst, -, -⟩ |
      ⟨-, before, first, later, hsplit, -, hlast, -⟩
    · refine ⟨first, ?_, hfirst.some⟩
      rw [hsplit]
      exact List.mem_append_right _ List.mem_cons_self
    · obtain ⟨before', reading', later', rfl, hreading'⟩ := shown_of_lastLink hlast
      have hwhole : history ++ [reading] =
          (before' ++ [reading']) ++ (later' ++ first :: later) := by
        rw [hsplit]
        simp
      have hshorter : before'.length < n := by
        have hlengths := congrArg List.length hwhole
        simp only [List.length_append, List.length_cons, List.length_nil] at hlengths
        omega
      rw [hwhole] at hordered ⊢
      obtain ⟨answer, hanswer, hsome⟩ := ih _ hshorter hordered.of_append hreading' rfl
      exact ⟨answer, List.mem_append_left _ hanswer, hsome⟩

/-- When a reading shows connected, the current stamp is an answer whose lease runs, or the network
is on and the episode is within the grace after connected. Either way there has been an answer. -/
theorem connected_is_earned (history : List Reading) (reading : Reading)
    (hordered : Ordered (history ++ [reading]))
    (hconnected : shownAt history reading = some .connected) :
    ((reading.input.answered.isSome = true ∧ Earned (history ++ [reading]) reading.time) ∨
      (reading.input.network = true ∧ Held (history ++ [reading]) reading.time)) ∧
    ∃ answer ∈ history ++ [reading], answer.input.answered.isSome = true := by
  refine ⟨?_, answered_of_connected hordered hconnected⟩
  rcases grounds hordered hconnected with hearned | hheld
  · left
    refine ⟨?_, hearned⟩
    obtain ⟨before, first, later, hsplit, hfirst, -, -⟩ := hearned
    have hstamp := hfirst.stamp
    rw [← hsplit, stampOf_append] at hstamp
    rw [hstamp]
    exact hfirst.some
  · exact .inr hheld

end

/-- An answer, a lock, and the way back a minute later. -/
def lockedHistory : List Reading :=
  [⟨⟨true, some 1, leaseMs 15, true⟩, 0⟩, ⟨⟨false, some 1, leaseMs 15, true⟩, 1000⟩]

/-- The reading of the way back. -/
def unlocked : Reading := ⟨⟨true, some 1, leaseMs 15, true⟩, 61000⟩

/-- The grace holds connected, though the lease has run out. -/
theorem connected_is_earned_resumed : shownAt lockedHistory unlocked = some .connected ∧
    ((unlocked.input.answered.isSome = true ∧ Earned (lockedHistory ++ [unlocked]) 61000) ∨
      (unlocked.input.network = true ∧ Held (lockedHistory ++ [unlocked]) 61000)) := by
  have hconnected : shownAt lockedHistory unlocked = some .connected := by decide
  have hordered : Ordered (lockedHistory ++ [unlocked]) := by
    unfold Ordered
    decide
  exact ⟨hconnected, (connected_is_earned lockedHistory unlocked hordered hconnected).1⟩

end SolstoneWindows.Proofs.JournalLink
