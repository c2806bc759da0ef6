import SolstoneWindows.Proofs.CaptureEngine.Changes

/-!
# Trouble with storage is shown

The storage owes something while a segment waits for its seal, an activity row is queued, or the
last chunk was not written. `Shown` says that the engine then has a storage fault and the reducer
knows it, and `owed` reads from the history which segments wait.

One step keeps both, so they hold between any two calls of the engine, in any order of calls
(`storage_trouble_shown`). The third part is about every seal the engine asks for: the segment is
not the open one, and it has no row in the queue.
-/

set_option autoImplicit false

namespace SolstoneWindows.Proofs.CaptureEngine

open Lib.Effect Relation
open ObserverModel ObserverState
open ObserverSegment ObserverLifecycle
open SolstoneWindows.CaptureEngine

/-! ## Faults -/

/-- The storage owes something. -/
def Owes (s : Engine) : Prop :=
  s.pendingSeals ≠ [] ∨ s.writeStalled = true ∨ s.pendingActivityRows ≠ []

/-- What the storage owes is a fault of the engine and of the reducer. -/
structure Shown (s : Engine) : Prop where
  fault : Owes s → s.storageFault.isSome = true
  settled : s.state.storageFaulted = s.storageFault.isSome

variable {kind : SourceKind} {key key' : SegmentKey} {seals : List (SegmentKey × VideoEnd)}

section Faults

variable {s s' : Engine}

/-- The two engines owe the same, and have the same fault. -/
structure SameDebt (s s' : Engine) : Prop where
  seals : s'.pendingSeals = s.pendingSeals
  stalled : s'.writeStalled = s.writeStalled
  rows : s'.pendingActivityRows = s.pendingActivityRows
  fault : s'.storageFault = s.storageFault
  faulted : s'.state.storageFaulted = s.state.storageFaulted

theorem SameDebt.shown (h : SameDebt s s') (hs : Shown s) : Shown s' := by
  refine ⟨fun howes => ?_, ?_⟩
  · rw [h.fault]
    refine hs.fault ?_
    unfold Owes at howes
    rw [h.seals, h.stalled, h.rows] at howes
    exact howes
  · rw [h.faulted, h.fault]
    exact hs.settled

theorem SameDebt.trans {s'' : Engine} (h : SameDebt s s') (h' : SameDebt s' s'') : SameDebt s s'' :=
  ⟨h'.seals.trans h.seals, h'.stalled.trans h.stalled, h'.rows.trans h.rows,
    h'.fault.trans h.fault, h'.faulted.trans h.faulted⟩

theorem Reported.sameDebt (h : Reported kind s s') : SameDebt s s' :=
  ⟨by rw [h.eq], by rw [h.eq], by rw [h.eq], by rw [h.eq], h.faulted⟩

/-- A fault shows whatever is owed. -/
theorem shown_noteStorageFault (detail : String) : Shown (s.noteStorageFault detail) :=
  ⟨fun _ => rfl, rfl⟩

/-- A healthy storage owes nothing. -/
theorem not_owes_of_healthy (h : s.storageHealthy = true) : ¬ Owes s := by
  simp only [Engine.storageHealthy, Bool.and_eq_true, List.isEmpty_iff, Bool.not_eq_true',
    Bool.eq_false_iff] at h
  rintro (hseals | hstalled | hrows)
  · exact hseals h.1.1.1
  · exact h.1.1.2 hstalled
  · exact hrows h.1.2

/-- Fewer debts need no new fault. -/
theorem Shown.of_fewer (hs : Shown s) (howes : Owes s' → Owes s)
    (hfault : s'.storageFault = s.storageFault)
    (hfaulted : s'.state.storageFaulted = s.state.storageFaulted) : Shown s' :=
  ⟨fun h => hfault ▸ hs.fault (howes h), by rw [hfaulted, hfault]; exact hs.settled⟩

theorem removeSeal_ne_nil (h : removeSeal key seals ≠ []) : seals ≠ [] := by
  rintro rfl
  exact h rfl

theorem Work.shown (h : Work s s') (hs : Shown s) : Shown s' := by
  cases h with
  | faulted detail | stalled detail | unstored detail _ | unstoredAtOnce key line detail _
  | deferred key videoEnd detail => exact shown_noteStorageFault detail
  | healed hhealthy =>
    exact ⟨fun howes => absurd (show Owes s from howes) (not_owes_of_healthy hhealthy), rfl⟩
  | unstalled =>
    refine hs.of_fewer (fun howes => ?_) rfl rfl
    rcases howes with h | h | h
    · exact .inl h
    · cases h
    · exact .inr (.inr h)
  | queued key line hbehind =>
    -- the row joins others, so there is a fault already
    exact hs.of_fewer (fun _ => .inr (.inr hbehind)) rfl rfl
  | stored hfirst =>
    refine hs.of_fewer (fun _ => .inr (.inr ?_)) rfl rfl
    rw [hfirst]
    exact List.cons_ne_nil _ _
  | storedAtOnce key line hempty =>
    refine hs.of_fewer (fun howes => ?_) rfl rfl
    rcases howes with h | h | h
    · exact .inl h
    · exact .inr (.inl h)
    · exact absurd rfl h
  | finalized videoEnd _ =>
    refine hs.of_fewer (fun howes => ?_) rfl rfl
    rcases howes with h | h | h
    · exact .inl (removeSeal_ne_nil h)
    · exact .inr (.inl h)
    · exact .inr (.inr h)
  | reported kind state now => exact (reported_report kind state now).sameDebt.shown hs
  | @failedToStart kind error now _ _ _ =>
    have hstarted : Shown ((s.record (.started kind (some error))).clearSourcePreview kind) :=
      SameDebt.shown (s := s) ⟨rfl, rfl, rfl, rfl, rfl⟩ hs
    exact (reported_refuse kind error now).sameDebt.shown hstarted
  | _ => exact SameDebt.shown (s := s) ⟨rfl, rfl, rfl, rfl, rfl⟩ hs

theorem sameDebt_sourceEnabled (kind : SourceKind) (enabled : Bool) :
    SameDebt s (s.reduce (.sourceEnabled kind enabled)) := by
  cases kind with
  | _ => exact ⟨rfl, rfl, rfl, rfl, rfl⟩

theorem Switch.sameDebt (h : Switch s s') : SameDebt s s' := by
  cases h with
  | enabled kind => exact sameDebt_sourceEnabled kind true
  | @disabled kind now _ =>
    have hunplanned : SameDebt s ((s.unplan kind).clearSourcePreview kind) :=
      ⟨rfl, rfl, rfl, rfl, rfl⟩
    have hoff : SameDebt s ((((s.unplan kind).clearSourcePreview kind).reduce
        (.sourceEnabled kind false)).clearSourcePreview kind) :=
      hunplanned.trans ((sameDebt_sourceEnabled kind false).trans ⟨rfl, rfl, rfl, rfl, rfl⟩)
    exact hoff.trans (reported_report kind .inactive now).sameDebt
  | allowed _ => exact ⟨rfl, rfl, rfl, rfl, rfl⟩

theorem Turn.sameDebt (h : Turn s s') : SameDebt s s' := by
  cases h with
  | paused reason expires =>
    cases reason with
    | _ => exact ⟨rfl, rfl, rfl, rfl, rfl⟩
  | chosen kind enabled => exact sameDebt_sourceEnabled kind enabled
  | _ => exact ⟨rfl, rfl, rfl, rfl, rfl⟩

theorem Change.shown (h : Change s s') (hs : Shown s) : Shown s' := by
  rcases h with (h | h) | h
  · exact h.shown hs
  · exact h.sameDebt.shown hs
  · exact h.sameDebt.shown hs

end Faults

/-! ## Seals -/

/-- What one act does to the answer whether a segment waits for its seal. A finalize that fails
leaves the answer: it was made for a segment that waits, or is followed by `.deferred`. -/
def owedAfter (key : SegmentKey) (owed : Bool) (entry : Entry) : Bool :=
  match entry.act with
  | .deferred key' => if key' = key then true else owed
  | .finalized key' _ none => if key' = key then false else owed
  | _ => owed

/-- Whether a segment waits for its seal: it was left to the engine, or put off, and no finalize
of it has returned since. -/
def owed (deferred : List SegmentKey) (history : List Entry) (key : SegmentKey) : Bool :=
  history.foldl (owedAfter key) (decide (key ∈ deferred))

def waiting (s : Engine) : List SegmentKey := s.pendingSeals.map Prod.fst

/-- Whether an act is about a seal. -/
def IsSeal : Act → Prop
  | .deferred _ => True
  | .finalized _ _ _ => True
  | _ => False

/-- What a step does about seals. -/
inductive SealStep (s s' : Engine) : Prop
  | none (hseals : s'.pendingSeals = s.pendingSeals) (new : List Entry)
    (hhistory : s'.history = s.history ++ new) (hnew : ∀ entry ∈ new, ¬ IsSeal entry.act)
  | deferred (key : SegmentKey) (videoEnd : VideoEnd)
    (hseals : s'.pendingSeals = insertSeal key videoEnd s.pendingSeals) (entry : Entry)
    (hact : entry.act = .deferred key) (hhistory : s'.history = s.history ++ [entry])
  | tried (key : SegmentKey) (videoEnd : VideoEnd) (detail : String) (hsealable : Sealable s key)
    (hseals : s'.pendingSeals = s.pendingSeals)
    (hhistory : s'.history = s.history ++ [s.entry (.finalized key videoEnd (some detail))])
  | sealed (key : SegmentKey) (videoEnd : VideoEnd) (hsealable : Sealable s key)
    (hseals : s'.pendingSeals = removeSeal key s.pendingSeals)
    (hhistory : s'.history = s.history ++ [s.entry (.finalized key videoEnd none)])

section Seals

variable {s s' : Engine}

theorem sealStep_adds (hseals : s'.pendingSeals = s.pendingSeals) (h : Adds (¬ IsSeal ·) s s') :
    SealStep s s' := by
  obtain ⟨new, hnew, hnot⟩ := h
  exact .none hseals new hnew hnot

variable {act : Act} {deferred : List SegmentKey} {history : List Entry}

theorem not_isSeal_of_isPlain (h : IsPlain act) : ¬ IsSeal act := by
  cases act <;> first | exact fun hseal => hseal | exact fun _ => h

theorem not_isSeal_of_carries {event : CaptureEvent} (h : Carries event act) :
    ¬ IsSeal act := by
  cases act <;> first | exact fun hseal => hseal | (cases event <;> exact fun _ => h)

theorem not_isSeal_of_isTally (h : IsTally kind act) : ¬ IsSeal act := by
  cases act <;> first | exact fun hseal => hseal | exact fun _ => h

/-- What the restart policy does after a step that has nothing to do with seals. -/
theorem Reported.sealStep {s1 : Engine} (h : Reported kind s1 s')
    (hseals : s1.pendingSeals = s.pendingSeals) (hadds : Adds (¬ IsSeal ·) s s1) : SealStep s s' :=
  sealStep_adds (h.sameDebt.seals.trans hseals)
    (Adds.trans hadds (Adds.mono h.history fun _ => not_isSeal_of_isTally))

theorem Work.sealStep (h : Work s s') : SealStep s s' := by
  cases h with
  | noted act hplain => exact sealStep_adds rfl (Adds.one rfl (not_isSeal_of_isPlain hplain))
  | used _ hcarries => exact sealStep_adds rfl (Adds.one rfl (not_isSeal_of_carries hcarries))
  | queued _ _ _ | stored _ | unstored _ _ | pumped _ _ _ | handed _ | retired _ =>
    exact sealStep_adds rfl (Adds.one rfl id)
  | storedAtOnce key line _ | unstoredAtOnce key line _ _ =>
    have hcreated : Adds (¬ IsSeal ·) s (s.pushActivityRow key line) := Adds.one rfl id
    exact sealStep_adds rfl (Adds.trans hcreated (Adds.one rfl id))
  | deferred key videoEnd detail => exact .deferred key videoEnd rfl _ rfl rfl
  | unfinalized videoEnd detail hsealable => exact .tried _ videoEnd detail hsealable rfl rfl
  | finalized videoEnd hsealable => exact .sealed _ videoEnd hsealable rfl rfl
  | reported kind state now => exact (reported_report kind state now).sealStep rfl (Adds.same rfl)
  | started _ _ _ => exact (reported_markSourceSuccess _).sealStep rfl (Adds.one rfl id)
  | failedToStart error now _ _ _ =>
    exact (reported_refuse _ error now).sealStep rfl (Adds.one rfl id)
  | retried _ =>
    unfold Engine.takeRetry
    split <;> exact sealStep_adds rfl (Adds.one rfl id)
  | _ => exact sealStep_adds rfl (Adds.same rfl)

theorem Switch.sealStep (h : Switch s s') : SealStep s s' := by
  cases h with
  | disabled now _ => exact (reported_report _ .inactive now).sealStep rfl (Adds.same rfl)
  | _ => exact sealStep_adds rfl (Adds.same rfl)

theorem Turn.sealStep (h : Turn s s') : SealStep s s' := by
  cases h with
  | recorded held error => exact sealStep_adds rfl (Adds.one rfl id)
  | _ => exact sealStep_adds rfl (Adds.same rfl)

theorem Change.sealStep (h : Change s s') : SealStep s s' := by
  rcases h with (h | h) | h <;> exact h.sealStep

/-- Acts that are not about seals leave the answer. -/
theorem owed_append {new : List Entry}
    (hnew : ∀ entry ∈ new, ¬ IsSeal entry.act) :
    owed deferred (history ++ new) key = owed deferred history key := by
  have hstep : ∀ (entries : List Entry) (answer : Bool), (∀ entry ∈ entries, ¬ IsSeal entry.act) →
      entries.foldl (owedAfter key) answer = answer := by
    intro entries
    induction entries with
    | nil => exact fun _ _ => rfl
    | cons entry entries ih =>
      intro answer hentries
      have hfirst : owedAfter key answer entry = answer := by
        have hact := hentries entry List.mem_cons_self
        unfold owedAfter
        split
        · next heq => exact absurd (heq ▸ trivial) hact
        · next heq => exact absurd (heq ▸ trivial) hact
        · rfl
      rw [List.foldl_cons, hfirst]
      exact ih answer fun entry' h => hentries entry' (List.mem_cons_of_mem _ h)
  unfold owed
  rw [List.foldl_append]
  exact hstep new _ hnew

theorem owed_append_one {entry : Entry} :
    owed deferred (history ++ [entry]) key = owedAfter key (owed deferred history key) entry := by
  simp [owed]

/-- The engine's list of waiting segments is what the history says. -/
def Kept (deferred : List SegmentKey) (s : Engine) : Prop :=
  ∀ key, key ∈ waiting s ↔ owed deferred s.history key = true

theorem SealStep.kept (h : SealStep s s') (hs : Kept deferred s) :
    Kept deferred s' := by
  intro key
  have hkey := hs key
  unfold waiting at hkey ⊢
  cases h with
  | none hseals new hhistory hnew =>
    rw [hseals, hhistory, owed_append hnew]
    exact hkey
  | deferred key' videoEnd hseals entry hact hhistory =>
    rw [hseals, hhistory, owed_append_one, mem_insertSeal, hkey, owedAfter, hact]
    by_cases heq : key' = key
    · simp [heq]
    · simp [heq, Ne.symm heq]
  | tried key' videoEnd detail _ hseals hhistory =>
    rw [hseals, hhistory, owed_append_one]
    exact hkey
  | sealed key' videoEnd _ hseals hhistory =>
    rw [hseals, hhistory, owed_append_one, mem_removeSeal, hkey]
    show _ ↔ (if key' = key then false else owed deferred s.history key) = true
    by_cases heq : key' = key
    · simp [heq]
    · simp [heq, Ne.symm heq]

/-- A seal is asked for when its segment is closed and its rows are stored. -/
def SealsFree (history : List Entry) : Prop :=
  ∀ entry ∈ history, ∀ key videoEnd error, entry.act = .finalized key videoEnd error →
    entry.openKey ≠ some key ∧ key ∉ entry.queuedKeys

theorem SealStep.sealsFree (h : SealStep s s') (hs : SealsFree s.history) :
    SealsFree s'.history := by
  have hnext : ∀ key videoEnd error, Sealable s key →
      SealsFree (s.history ++ [s.entry (.finalized key videoEnd error)]) := by
    intro key videoEnd error hsealable
    refine List.forall_mem_append.mpr ⟨hs, List.forall_mem_singleton.mpr ?_⟩
    rintro key' videoEnd' error' ⟨⟩
    exact ⟨hsealable.closed, hsealable.drained⟩
  cases h with
  | none _ new hhistory hnew =>
    rw [hhistory]
    exact List.forall_mem_append.mpr ⟨hs, fun entry hentry key videoEnd error hact =>
      absurd (hact ▸ trivial) (hnew entry hentry)⟩
  | deferred _ _ _ entry hdeferred hhistory =>
    rw [hhistory]
    refine List.forall_mem_append.mpr ⟨hs, List.forall_mem_singleton.mpr ?_⟩
    intro key videoEnd error hact
    rw [hdeferred] at hact
    cases hact
  | tried key videoEnd detail hsealable _ hhistory =>
    rw [hhistory]
    exact hnext key videoEnd (some detail) hsealable
  | sealed key videoEnd hsealable _ hhistory =>
    rw [hhistory]
    exact hnext key videoEnd Option.none hsealable

end Seals

/-! ## The run -/

theorem mem_foldl_insertSeal (deferred : List SegmentKey) (seals : List (SegmentKey × VideoEnd))
    (key : SegmentKey) :
    key ∈ (deferred.foldl (fun seals key => insertSeal key none seals) seals).map Prod.fst ↔
      key ∈ deferred ∨ key ∈ seals.map Prod.fst := by
  induction deferred generalizing seals with
  | nil => simp
  | cons first deferred ih =>
    rw [List.foldl_cons, ih, mem_insertSeal, List.mem_cons]
    exact ⟨fun h => h.elim (.inl ∘ .inr) fun h => h.imp_left .inl,
      fun h => h.elim (fun h => h.elim (.inr ∘ .inl) .inl) (.inr ∘ .inr)⟩

section New

variable (config : EngineConfig) (deferred : List SegmentKey) (artifactId : String)

theorem shown_new : Shown (Engine.new config deferred artifactId) := by
  unfold Engine.new
  dsimp only
  split
  · next hempty =>
    refine ⟨?_, rfl⟩
    rintro (h | h | h)
    · exact absurd (List.isEmpty_iff.mp hempty) h
    · cases h
    · exact absurd rfl h
  · exact shown_noteStorageFault _

theorem mem_new_pendingSeals :
    key ∈ (Engine.new config deferred artifactId).pendingSeals.map Prod.fst ↔ key ∈ deferred := by
  have hseals : (Engine.new config deferred artifactId).pendingSeals =
      deferred.foldl (fun seals key => insertSeal key none seals) [] := by
    unfold Engine.new
    dsimp only
    split <;> rfl
  rw [hseals, mem_foldl_insertSeal]
  simp

end New

/-- After any calls of the engine, whatever the outside answers: what the storage owes is a fault
that keeps the engine from observing, a segment waits for its seal until a finalize of it returns,
and no seal was asked for a segment that was open or had a row in the queue. -/
theorem storage_trouble_shown (config : EngineConfig) (deferred : List SegmentKey)
    (artifactId : String) (s : Engine)
    (hrun : ReflTransGen Called (Engine.new config deferred artifactId) s) :
    (Owes s → s.storageFault.isSome = true ∧ s.state.storageFaulted = true ∧
      s.state.phase ≠ .observing) ∧
    (∀ key, key ∈ waiting s ↔ owed deferred s.history key = true) ∧
    SealsFree s.history := by
  have hshown : Shown s :=
    invariant_of_change (fun _ _ h => h.shown) (shown_new config deferred artifactId) hrun
  have hkept : Kept deferred s :=
    invariant_of_change (fun _ _ h => h.sealStep.kept) (fun key => by
      rw [waiting, mem_new_pendingSeals, new_history]
      simp [owed]) hrun
  have hfree : SealsFree s.history := by
    refine invariant_of_change (I := fun s => SealsFree s.history)
      (fun _ _ h => h.sealStep.sealsFree) ?_ hrun
    rw [new_history]
    simp [SealsFree]
  refine ⟨fun howes => ?_, hkept, hfree⟩
  have hfault := hshown.fault howes
  have hfaulted : s.state.storageFaulted = true := hshown.settled.trans hfault
  refine ⟨hfault, hfaulted, fun hobserving => ?_⟩
  rw [(running_of_observing hobserving).2] at hfaulted
  cases hfaulted

/-- A recovered segment that waits for its seal, past a pump whose finalize fails. -/
def recoveredEngine : Engine :=
  pump.final (List.replicate 20 { Reading.quiet with error := some ⟨.writeFailed, "busy"⟩ })
    (Engine.new {} [⟨300, 1⟩] "a")

/-- A segment of an earlier run, whose seal fails again. -/
theorem storage_trouble_shown_recovered :
    waiting recoveredEngine = [⟨300, 1⟩] ∧ recoveredEngine.storageFault = some "busy" ∧
      recoveredEngine.state.phase ≠ .observing := by
  have hcalled : Called (Engine.new {} [⟨300, 1⟩] "a") recoveredEngine :=
    ⟨.operate .pump, _, by decide +kernel, rfl⟩
  have hwaiting : waiting recoveredEngine = [⟨300, 1⟩] := by decide +kernel
  obtain ⟨hshown, -, -⟩ := storage_trouble_shown {} [⟨300, 1⟩] "a" recoveredEngine (.single hcalled)
  have howes : Owes recoveredEngine := by
    refine .inl fun hnone => ?_
    rw [waiting, hnone] at hwaiting
    cases hwaiting
  exact ⟨hwaiting, by decide +kernel, (hshown howes).2.2⟩

end SolstoneWindows.Proofs.CaptureEngine
