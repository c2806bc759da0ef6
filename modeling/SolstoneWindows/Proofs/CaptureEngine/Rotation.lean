import SolstoneWindows.Proofs.CaptureEngine.Changes

/-!
# A rotation catches up with the clock

`rotate_segments` goes on from window to window until the open segment is the one of the clock. It
adds the configured length as it is, while `segment_for` takes a length of 0 as 1. So a length of 0
leads back to the same window, and the loop does not end once the clock is past it
(`rotateLoop_stuck`). With every other length each step forward leaves a later window, and the loop
ends with the clock's window or with none (`rotateLoop_rotated`).
-/

set_option autoImplicit false

namespace SolstoneWindows.Proofs.CaptureEngine

open Lib.Effect
open SolstoneWindows.ObserverModel SolstoneWindows.ObserverSegment
open SolstoneWindows.CaptureEngine

section Rotation

variable {s s' s'' : Engine}

/-- The window a call opened. -/
def openedKey : Act → Option SegmentKey
  | .opened key none => some key
  | _ => none

/-- The window a call left to its seal. -/
def leftKey : Act → Option SegmentKey
  | .left key => some key
  | _ => none

/-- The window of the open segment, if there is one. -/
def openKeys (s : Engine) : List SegmentKey := (s.currentSegment.map OpenSegment.key).toList

/-- From `s` to `s'` the engine opened and left these windows, in this order. -/
structure Turned (s s' : Engine) (opened left : List SegmentKey) : Prop where
  config : s'.config = s.config
  history : ∃ new, s'.history = s.history ++ new ∧
    new.filterMap (fun entry => openedKey entry.act) = opened ∧
    new.filterMap (fun entry => leftKey entry.act) = left

theorem Turned.trans {opened left opened' left' : List SegmentKey} (h : Turned s s' opened left)
    (h' : Turned s' s'' opened' left') : Turned s s'' (opened ++ opened') (left ++ left') := by
  obtain ⟨new, hnew, rfl, rfl⟩ := h.history
  obtain ⟨new', hnew', rfl, rfl⟩ := h'.history
  exact ⟨h'.config.trans h.config, new ++ new', by rw [hnew', hnew, List.append_assoc],
    List.filterMap_append, List.filterMap_append⟩

theorem turned_same (hconfig : s'.config = s.config := by rfl)
    (hhistory : s'.history = s.history := by rfl) : Turned s s' [] [] :=
  ⟨hconfig, [], hhistory.trans (List.append_nil _).symm, rfl, rfl⟩

theorem turned_record (act : Act) :
    Turned s (s.record act) (openedKey act).toList (leftKey act).toList := by
  refine ⟨rfl, [s.entry act], rfl, ?_, ?_⟩
  · cases h : openedKey act <;> simp [Engine.entry, h]
  · cases h : leftKey act <;> simp [Engine.entry, h]

theorem Level.turned {K : SegmentKey → Prop} (h : Level K s s') : Turned s s' [] [] := by
  obtain ⟨new, hnew, hlevel⟩ := h.history
  refine ⟨h.path.sameSetup.config, new, hnew, ?_, ?_⟩
  · refine List.filterMap_eq_nil_iff.mpr fun entry hentry => ?_
    have hact := hlevel entry hentry
    cases hkind : entry.act with
    | opened => rw [hkind] at hact; exact hact.elim
    | _ => rfl
  · refine List.filterMap_eq_nil_iff.mpr fun entry hentry => ?_
    have hact := hlevel entry hentry
    cases hkind : entry.act with
    | left => rw [hkind] at hact; exact hact.elim
    | _ => rfl

/-- A window is opened, or the open failed and none is. -/
theorem openSegmentKey_turned (key : SegmentKey) (hnone : s.currentSegment = none) :
    Gives s (openSegmentKey key) (fun _ s' => Turned s s' (openKeys s') [] ∧
      ∀ segment ∈ s'.currentSegment, segment.key = key) False := by
  refine Runs.get_bind ?_
  rw [hnone]
  refine request_bind fun result => ?_
  match result with
  | .error detail =>
    refine Runs.weaken (noteStorageFault_level (K := fun _ => True) detail _) fun _ s' hlevel => ?_
    have hnone' : s'.currentSegment = none := hlevel.segment.trans hnone
    rw [openKeys, hnone']
    exact ⟨(turned_record _).trans hlevel.turned, fun _ h => nomatch h⟩
  | .ok dir =>
    have hattach : Gives (s.record (.opened key none)) (attachSegment key dir) (fun _ s' =>
        ∃ segment : OpenSegment, segment.key = key ∧
          Level (fun _ => True)
            { s.record (.opened key none) with currentSegment := some segment } s') False :=
      ask_bind fun _ => ask_bind fun _ => Runs.modify_bind <|
        Runs.weaken (flushActivityQueue_level _) fun _ _ hlevel => ⟨_, rfl, hlevel⟩
    refine Runs.bind hattach fun _ s1 ⟨segment, hkey, hlevel⟩ => ?_
    refine Runs.weaken (attemptClearStorage_level (K := fun _ => True) s1) fun _ s' hlevel' => ?_
    have hsegment : s'.currentSegment = some segment := hlevel'.segment.trans hlevel.segment
    refine ⟨?_, fun other hother => ?_⟩
    · rw [openKeys, hsegment, Option.map_some, hkey]
      exact (turned_record (.opened key none)).trans
        ((Turned.trans turned_same hlevel.turned).trans hlevel'.turned)
    · rw [hsegment] at hother
      exact Option.some.inj hother ▸ hkey

theorem leaveSegment_turned (segment : OpenSegment) : Gives s (leaveSegment segment)
      (fun _ s' => Turned s s' [] [segment.key] ∧ s'.currentSegment = none) False := by
  refine Runs.modify_bind ?_
  refine Runs.bind (sealSegment_level (K := fun _ => True) segment (Option.some_ne_none _).symm
    trivial) fun _ s' hlevel => ?_
  exact Runs.modify ⟨(Turned.trans turned_same hlevel.turned).trans (turned_record _),
    hlevel.segment⟩

/-- One window is left. The next one is open, or none is. -/
theorem moveOn_turned (closing : Bool) (segment : OpenSegment) (next : Nat → SegmentKey) :
    Gives s (moveOn closing segment next) (fun reopened s' =>
      Turned s s' (openKeys s') [segment.key] ∧
      (∀ segment' ∈ s'.currentSegment, segment'.key = next s.config.segmentSecs) ∧
      (reopened = false → s'.currentSegment = none)) False := by
  refine Runs.bind (leaveSegment_turned segment) fun _ s1 ⟨hleft, hnone⟩ => ?_
  refine Runs.get_bind (Runs.get_bind ?_)
  rw [hleft.config]
  show Runs _ _ (if _ then _ else _) _ _ _
  split
  · refine Runs.bind (openSegmentKey_turned _ hnone) fun _ s' ⟨hopened, hkey⟩ => ?_
    exact Runs.pure ⟨hleft.trans hopened, hkey, fun h => nomatch h⟩
  · refine Runs.pure ⟨?_, fun _ h => ?_, fun _ => hnone⟩
    · rw [openKeys, hnone]
      exact hleft
    · rw [hnone] at h
      exact nomatch h

/-- What a rotation at the time `now` leaves behind. The segment still open is the one of the
clock. Every window that was open is left exactly once or is still open, and each window left
starts after the one before it. -/
structure Rotated (now : Nat) (s s' : Engine) : Prop where
  current : ∀ segment ∈ s'.currentSegment, segment.key = segmentFor now s.config.segmentSecs
  windows : ∃ opened left, Turned s s' opened left ∧ openKeys s ++ opened = left ++ openKeys s' ∧
    left.Pairwise (fun key later => key.boundaryEpochSecs < later.boundaryEpochSecs) ∧
    ∀ key ∈ left, ∃ segment ∈ s.currentSegment,
      segment.key.boundaryEpochSecs ≤ key.boundaryEpochSecs

/-- A rotation that leaves no window. -/
theorem Rotated.stay {now : Nat}
    (h : ∀ segment ∈ s.currentSegment, segment.key = segmentFor now s.config.segmentSecs) :
    Rotated now s s :=
  ⟨h, [], [], turned_same, List.append_nil _, List.Pairwise.nil, fun _ hkey => nomatch hkey⟩

/-- A rotation that first leaves one window for a later one. -/
theorem Rotated.cons {now : Nat} {segment : OpenSegment} (hopen : s.currentSegment = some segment)
    (hturned : Turned s s' (openKeys s') [segment.key])
    (hlater : ∀ next ∈ s'.currentSegment,
      segment.key.boundaryEpochSecs < next.key.boundaryEpochSecs)
    (h : Rotated now s' s'') : Rotated now s s'' := by
  obtain ⟨opened, left, hrest, hwindows, hpairwise, hfrom⟩ := h.windows
  refine ⟨hturned.config ▸ h.current, openKeys s' ++ opened, segment.key :: left,
    hturned.trans hrest, ?_, List.pairwise_cons.mpr ⟨fun key hkey => ?_, hpairwise⟩, ?_⟩
  · rw [openKeys, hopen, hwindows]
    rfl
  · obtain ⟨next, hnext, hle⟩ := hfrom key hkey
    exact Nat.lt_of_lt_of_le (hlater next hnext) hle
  · refine List.forall_mem_cons.mpr ⟨⟨segment, hopen, Nat.le_refl _⟩, fun key hkey => ?_⟩
    obtain ⟨next, hnext, hle⟩ := hfrom key hkey
    exact ⟨segment, hopen, Nat.le_trans (Nat.le_of_lt (hlater next hnext)) hle⟩

/-- A length that is not 0 leads to a later window. -/
theorem boundary_lt_next {boundary period : Nat} (hperiod : period ≠ 0) :
    boundary < (segmentFor (boundary + period) period).boundaryEpochSecs := by
  have hpos : 0 < period := Nat.pos_of_ne_zero hperiod
  show boundary < (boundary + period) / max period 1 * max period 1
  rw [Nat.max_eq_left hpos, Nat.add_div_right _ hpos, Nat.succ_mul]
  exact Nat.lt_div_mul_add hpos

/-- A step forward leaves the window for a later one, or for none. -/
theorem stepForward_turned (closing : Bool) (segment : OpenSegment)
    (hperiod : s.config.segmentSecs ≠ 0) :
    Gives s (stepForward closing segment) (fun reopened s' =>
      Turned s s' (openKeys s') [segment.key] ∧
      (∀ next ∈ s'.currentSegment, segment.key.boundaryEpochSecs < next.key.boundaryEpochSecs) ∧
      (reopened = false → s'.currentSegment = none)) False := by
  refine Runs.bind (closeActivity_level s) fun _ s1 hlevel => ?_
  refine Runs.weaken (moveOn_turned closing segment _) fun _ s' ⟨hturned, hkey, hclosed⟩ => ?_
  refine ⟨hlevel.turned.trans hturned, fun next hnext => ?_, hclosed⟩
  rw [hkey next hnext]
  exact boundary_lt_next (hlevel.turned.config ▸ hperiod)

theorem stepBack_rotated {segment : OpenSegment} (closing : Bool) (now : Nat)
    (hopen : s.currentSegment = some segment) :
    Gives s (stepBack closing now segment) (fun _ => Rotated now s) False := by
  refine Runs.bind (closeActivity_level s) fun _ s1 hlevel => Runs.modify_bind ?_
  refine Runs.bind (moveOn_turned closing segment _) fun _ s' ⟨hturned, hkey, _⟩ => Runs.pure ?_
  have hturned' := (hlevel.turned.trans (turned_record (.stopped .desktopActivity))).trans hturned
  refine ⟨fun other hother => (hkey other hother).trans ?_, openKeys s', [segment.key], hturned',
    ?_, List.pairwise_singleton _ _, List.forall_mem_singleton.mpr ⟨segment, hopen, Nat.le_refl _⟩⟩
  · show segmentFor now s1.config.segmentSecs = _
    rw [hlevel.turned.config]
  · rw [openKeys, hopen]
    rfl

/-- The loop ends. A window not after the clock costs a round, and the next one starts later. -/
theorem rotateLoop_rotated (closing : Bool) (now rounds : Nat) (hperiod : s.config.segmentSecs ≠ 0)
    (hrounds : 1 ≤ rounds)
    (hmeasure : ∀ segment ∈ s.currentSegment,
      now + 2 ≤ rounds + min segment.key.boundaryEpochSecs (now + 1)) :
    Gives s (rotateLoop closing now rounds) (fun _ => Rotated now s) False := by
  induction rounds generalizing s with
  | zero => exact absurd hrounds (Nat.not_succ_le_zero 0)
  | succ rounds ih =>
    refine Runs.get_bind ?_
    cases hopen : s.currentSegment with
    | none =>
      exact Runs.pure (.stay fun segment h => by rw [hopen] at h; exact nomatch h)
    | some segment =>
      have hbudget := hmeasure segment hopen
      show Runs _ _ (if _ then _ else _) _ _ _
      split
      · next hcurrent =>
        refine Runs.pure (.stay fun other hother => ?_)
        rw [hopen] at hother
        obtain rfl := Option.some.inj hother
        exact (of_decide_eq_false (Bool.not_eq_true' _ ▸ hcurrent) |> not_not.mp).symm
      · split
        · exact stepBack_rotated closing now hopen
        · next hpast =>
          refine Runs.bind (stepForward_turned closing segment hperiod)
            fun reopened s' ⟨hturned, hlater, hclosed⟩ => ?_
          cases reopened with
          | false =>
            refine Runs.pure (.cons hopen hturned hlater (.stay fun other h => ?_))
            rw [hclosed rfl] at h
            exact nomatch h
          | true =>
            refine Runs.weaken (ih (hturned.config ▸ hperiod) (by omega) fun next hnext => ?_)
              fun _ _ => .cons hopen hturned hlater
            have := hlater next hnext
            omega

/-! ### A length of 0 -/

def firstWindow : OpenSegment := ⟨⟨0, 0⟩, "", 0, 0, false⟩

/-- An engine with a segment length of 0, in the window of the time 0. -/
def stuck (history : List Entry) : Engine :=
  { Engine.new { segmentSecs := 0 } [] "" with
    currentSegment := some firstWindow
    history := history }

/-- With no failure, the step forward opens the window it has left. -/
theorem stepForward_stuck (history : List Entry) :
    ∃ later, stepForward true firstWindow [] (stuck history) = (.ok true, [], stuck later) := by
  obtain ⟨later, hleft⟩ : ∃ later, leaveSegment firstWindow [] (stuck history) =
      (.ok (), [], { stuck later with currentSegment := none }) := ⟨_, rfl⟩
  obtain ⟨last, hopened⟩ : ∃ last, reopen true ⟨0, 0⟩ []
      { stuck later with currentSegment := none } = (.ok true, [], stuck last) := ⟨_, rfl⟩
  have hkey : segmentFor (0 + 0) 0 = ⟨0, 0⟩ := by decide
  refine ⟨last, ?_⟩
  calc stepForward true firstWindow [] (stuck history)
    _ = moveOn true firstWindow (fun period => segmentFor (0 + period) period) []
        (stuck history) := rfl
    _ = reopen true (segmentFor (0 + 0) 0) [] { stuck later with currentSegment := none } :=
      Prog.bind_of_ok hleft
    _ = (.ok true, [], stuck last) := by rw [hkey]; exact hopened

/-- However many rounds the loop is given, it is in the same window after them. -/
theorem rotateLoop_stuck (rounds : Nat) (history : List Entry) :
    (rotateLoop true 1 rounds [] (stuck history)).1 = .stopped := by
  induction rounds generalizing history with
  | zero => rfl
  | succ rounds ih =>
    obtain ⟨later, hstep⟩ := stepForward_stuck history
    -- The time is past the window, so the round goes forward.
    have hround : rotateLoop true 1 (rounds + 1) [] (stuck history) = (stepForward true firstWindow
        >>= fun reopened => if reopened then rotateLoop true 1 rounds else pure ()) []
        (stuck history) := by
      refine (Prog.bind_of_ok rfl).trans ?_
      show (if !shouldRotate ⟨0, 0⟩ 1 0 then pure () else _ : EngineProg Unit) _ _ = _
      rw [show shouldRotate ⟨0, 0⟩ 1 0 = true by decide]
      rfl
    rw [hround, Prog.bind_of_ok hstep]
    exact ih later

/-- The loop starts with the clock's answer. -/
theorem rotateSegments_eq (closing : Bool) (ds : List Reading) :
    rotateSegments closing ds s = rotateLoop closing (ds.headD default).epochSecs
      ((ds.headD default).epochSecs + 2 + ds.length) ds.tail s := by
  cases ds <;> rfl

theorem rotateSegments_stuck :
    (rotateSegments true [{ Reading.quiet with epochSecs := 1 }] (stuck [])).1 = .stopped := by
  rw [rotateSegments_eq]
  exact rotateLoop_stuck 4 []

/-- A rotation of every engine with this segment length ends and catches up, exactly if the length
is not 0. -/
theorem rotateSegments_catches_up_iff (period : Nat) :
    (∀ (s : Engine) (closing : Bool) (ds : List Reading), s.config.segmentSecs = period →
      (rotateSegments closing ds s).1 = .ok () ∧
        Rotated (ds.headD default).epochSecs s ((rotateSegments closing).final ds s)) ↔
      period ≠ 0 := by
  constructor
  · intro h hzero
    have hok := (h (stuck []) true [{ Reading.quiet with epochSecs := 1 }] hzero.symm).1
    exact nomatch hok.symm.trans rotateSegments_stuck
  · intro hperiod s closing ds hs
    have hrun := rotateLoop_rotated closing (ds.headD default).epochSecs
      ((ds.headD default).epochSecs + 2 + ds.length) (hs ▸ hperiod) (by omega)
      fun _ _ => by omega
    obtain ⟨_, hok, hrotated⟩ := hrun.exists_ok fun d (_ : d ∈ ds.tail) => trivial
    rw [Prog.final, rotateSegments_eq]
    exact ⟨hok, hrotated⟩

/-- With the length 0, the clock past the window and the owner closing, no number of rounds is
enough. -/
theorem no_length_rotates_forever : (stuck []).config.segmentSecs = 0 ∧
    (rotateSegments true [{ Reading.quiet with epochSecs := 1 }] (stuck [])).1 = .stopped ∧
    ∀ rounds, (rotateLoop true 1 rounds [] (stuck [])).1 = .stopped :=
  ⟨rfl, rotateSegments_stuck, fun rounds => rotateLoop_stuck rounds []⟩

end Rotation

end SolstoneWindows.Proofs.CaptureEngine
