import SolstoneWindows.CaptureEngine.PauseStore
import SolstoneWindows.Lib.Replay
import SolstoneWindows.Proofs.CaptureEngine.Changes
import SolstoneWindows.Proofs.Timeline

/-!
# The owner's pause survives a restart

The pause store is a file, and the engine's history says what was asked of it. `storeStep` is
what one entry does to the file, so `Replays storeStep` takes the file along a whole run.

The argument has three parts. A pause that was encoded decodes to itself (`decode_encode`), and a
save replaces the file as a whole or not at all (`save_spec`), so after a run the file holds what
was last recorded (`load_of_replays`). What was last recorded is the owner's pause, between any
two calls (`Mirrors`): the engine records it in the one function where it can have changed. And a
launch turns what the file holds back into the owner's pause.
-/

set_option autoImplicit false

namespace SolstoneWindows.Proofs.CaptureEngine

open Lib.Effect Lib.Replay Relation
open ObserverModel ObserverState
open ObserverSegment ObserverLifecycle
open SolstoneWindows.CaptureEngine
open ObserverAudio (fromUtf8 isWhitespace parseU64 trim utf8)
open Proofs.Timeline

/-! ## The text -/

/-- A deadline is a `u64`. -/
def Fits : HeldPause → Prop
  | .untilResumed => True
  | .until deadline => deadline < 2 ^ 64

/-- A text that begins and ends in something else than whitespace is trimmed of what follows. -/
theorem trim_append {first last : Char} (text after : List Char)
    (hfirst : isWhitespace first = false) (hlast : isWhitespace last = false)
    (hafter : ∀ c ∈ after, isWhitespace c = true) :
    trim (first :: text ++ [last] ++ after) = first :: text ++ [last] := by
  have hfront : (first :: text ++ [last] ++ after).dropWhile isWhitespace =
      first :: text ++ [last] ++ after := by
    simp [hfirst]
  have hback : ((first :: text ++ [last] ++ after).reverse).dropWhile isWhitespace =
      (first :: text ++ [last]).reverse := by
    rw [List.reverse_append, List.dropWhile_append_of_pos (by simpa using hafter)]
    simp [hlast]
  rw [trim, hfront, hback, List.reverse_reverse]

/-- A number is written with a last digit. -/
theorem toDigits_eq_append (n : Nat) :
    ∃ text last, Nat.toDigits 10 n = text ++ [last] ∧ isWhitespace last = false := by
  have hne : Nat.toDigits 10 n ≠ [] := Nat.toDigits_ne_nil
  refine ⟨_, _, (List.dropLast_append_getLast hne).symm, ?_⟩
  exact isWhitespace_of_isDigit (toDigits_isDigit (List.getLast_mem hne))

theorem trim_digits (n : Nat) : trim (Nat.toDigits 10 n) = Nat.toDigits 10 n := by
  have hdigit : ∀ c ∈ Nat.toDigits 10 n, isWhitespace c = false :=
    fun c hc => isWhitespace_of_isDigit (toDigits_isDigit hc)
  have hkeep : ∀ text : List Char, (∀ c ∈ text, isWhitespace c = false) →
      text.dropWhile isWhitespace = text := by
    intro text htext
    cases text with
    | nil => rfl
    | cons c text => simp [htext c List.mem_cons_self]
  rw [trim, hkeep _ hdigit, hkeep _ (by simpa using hdigit), List.reverse_reverse]

/-- A pause that was written is read back. -/
theorem decode_encode {pause : HeldPause} (hfits : Fits pause) : decode (encode pause) = pause := by
  cases pause with
  | untilResumed => decide +kernel
  | «until» deadline =>
    obtain ⟨text, last, hdigits, hlast⟩ := toDigits_eq_append deadline
    have hline : trim (encode (.until deadline)) = UNTIL ++ Nat.toDigits 10 deadline := by
      have hafter : ∀ c ∈ ['\n'], isWhitespace c = true := by
        intro c hc
        rw [List.mem_singleton.mp hc]
        decide
      have htrim := trim_append ("ntil ".toList ++ text) ['\n']
        (show isWhitespace 'u' = false by decide) hlast hafter
      rw [encode, hdigits]
      simpa [UNTIL] using htrim
    have hbegins : UNTIL.isPrefixOf (UNTIL ++ Nat.toDigits 10 deadline) = true :=
      List.isPrefixOf_iff_prefix.mpr (List.prefix_append _ _)
    have hother : UNTIL ++ Nat.toDigits 10 deadline ≠ UNTIL_RESUMED := by
      intro h
      rw [h] at hbegins
      exact absurd hbegins (by decide +kernel)
    have hstrip : stripUntil (UNTIL ++ Nat.toDigits 10 deadline) =
        some (Nat.toDigits 10 deadline) := by
      unfold stripUntil
      rw [if_pos hbegins, List.drop_left]
    have hparse : parseU64 (Nat.toDigits 10 deadline) = some deadline := by
      rw [parseU64_digits Nat.toDigits_ne_nil (fun c hc => toDigits_isDigit hc)
        (by rw [Nat.ofDigitChars_ten_toDigits]; exact hfits), Nat.ofDigitChars_ten_toDigits]
    unfold decode
    dsimp only
    rw [hline, if_neg hother, hstrip, Option.bind_some, trim_digits, hparse]

/-- The text is a timed pause. -/
def Dated (text : List Char) (deadline : Nat) : Prop :=
  ∃ n, trim text = UNTIL ++ n ∧ parseU64 (trim n) = some deadline

/-- What is not a timed pause lasts until the owner resumes. -/
theorem decode_of_not_dated {text : List Char} (h : ∀ deadline, ¬ Dated text deadline) :
    decode text = .untilResumed := by
  unfold decode
  dsimp only
  split
  · rfl
  split
  · next deadline hparsed =>
    obtain ⟨n, hn, hparse⟩ := Option.bind_eq_some_iff.mp hparsed
    unfold stripUntil at hn
    split at hn
    · next hpre =>
      obtain ⟨rest, hrest⟩ := List.isPrefixOf_iff_prefix.mp hpre
      cases hn
      rw [← hrest, List.drop_left] at hparse
      exact absurd ⟨rest, hrest.symm, hparse⟩ (h deadline)
    · cases hn
  · rfl

theorem parseU64_lt {text : List Char} {n : Nat} (h : parseU64 text = some n) : n < 2 ^ 64 := by
  unfold parseU64 at h
  dsimp only at h
  split at h
  · next hfits =>
    cases h
    exact hfits.2.2
  · cases h

theorem decode_fits (text : List Char) : Fits (decode text) := by
  unfold decode
  dsimp only
  split
  · exact trivial
  · split
    · next deadline hparsed =>
      obtain ⟨n, -, hparse⟩ := Option.bind_eq_some_iff.mp hparsed
      exact parseU64_lt hparse
    · exact trivial

/-! ## The file -/

section File

variable (files : PauseFiles)

/-- What a step on the disk leaves. -/
theorem diskStep_spec {done : PauseFiles → PauseFiles} {torn : Nat → PauseFiles → PauseFiles}
    {E : Unit → PauseFiles → Prop} (htorn : ∀ written, E () (torn written files)) :
    Runs (fun _ => True) files (diskStep done torn) (fun _ files' => files' = done files) E
      fun _ => False := by
  refine Runs.call trivial fun fate _ => ?_
  by_cases hfails : fate.fails = true
  · rw [if_pos hfails]
    exact htorn fate.written
  · rw [if_neg hfails]
    rfl

/-- A save replaces the file as a whole, or not at all. -/
theorem save_spec (pause : HeldPause) : Runs (fun _ => True) files (save pause)
      (fun _ files' => files'.file = some (utf8 (encode pause)))
      (fun _ files' => files'.file = files.file) fun _ => False := by
  refine Runs.bind (diskStep_spec _ fun _ => rfl) fun _ files1 h1 => ?_
  refine Runs.bind (diskStep_spec _ fun _ => by rw [h1]; rfl) fun _ files2 h2 => ?_
  refine Runs.bind (diskStep_spec _ fun _ => by rw [h2, h1]; rfl) fun _ files3 h3 => ?_
  refine Runs.bind (diskStep_spec _ fun _ => by rw [h3, h2, h1]; rfl) fun _ files4 h4 => ?_
  refine (diskStep_spec _ fun _ => by rw [h4, h3, h2, h1]; rfl).weaken fun _ files5 h5 => ?_
  rw [h5, h4, h3]
  rfl

theorem clear_spec : Runs (fun _ => True) files clear (fun _ files' => files'.file = none)
      (fun _ files' => files'.file = files.file) fun _ => False :=
  (diskStep_spec _ fun _ => rfl).weaken fun _ files' h => by rw [h]

end File

/-- What is asked of the store. -/
def storeCall : Option HeldPause → PauseProg Unit
  | some pause => save pause
  | none => clear

/-- The store does what an entry of the history asks of it, with the answer the entry has. -/
def storeStep (entry : Entry) (files files' : PauseFiles) : Prop :=
  match entry.act with
  | .pauseRecorded held error => ∃ fates,
      (storeCall held fates files).1 = (if error.isNone then .ok () else .err ()) ∧
        (storeCall held).final fates files = files'
  | _ => files = files'

/-- What one entry leaves as the recorded pause. -/
def pauseAfter (held : Option HeldPause) (entry : Entry) : Option HeldPause :=
  match entry.act with
  | .pauseRecorded held' none => held'
  | _ => held

/-- The pause that was last recorded. -/
def lastHeld (held : Option HeldPause) (history : List Entry) : Option HeldPause :=
  history.foldl pauseAfter held

/-- Every deadline that was to be recorded is a `u64`. -/
def RecordsFit (history : List Entry) : Prop :=
  ∀ entry ∈ history, ∀ pause error, entry.act = .pauseRecorded (some pause) error → Fits pause

section Loads

variable {lossy : List UInt8 → List Char}

/-- The file after an answered call. -/
theorem storeCall_load (hlossy : ∀ text, lossy (utf8 text) = text) {held : Option HeldPause}
    (hfits : ∀ pause ∈ held, Fits pause) (files : PauseFiles) (fates : List Fate) :
    ((storeCall held fates files).1 = .ok () →
      load lossy false ((storeCall held).final fates files) = held) ∧
    ((storeCall held fates files).1 = .err () →
      load lossy false ((storeCall held).final fates files) = load lossy false files) := by
  cases held with
  | none =>
    have hsat := (clear_spec files fates fun _ _ => trivial).2
    constructor
    · intro h
      rw [show (clear fates files).1 = _ from h] at hsat
      have hfile : ((storeCall none).final fates files).file = none := hsat
      simp [load, hfile]
    · intro h
      rw [show (clear fates files).1 = _ from h] at hsat
      have hfile : ((storeCall none).final fates files).file = files.file := hsat
      simp [load, hfile]
  | some pause =>
    have hsat := (save_spec files pause fates fun _ _ => trivial).2
    constructor
    · intro h
      rw [show (save pause fates files).1 = _ from h] at hsat
      have hfile : ((storeCall (some pause)).final fates files).file =
        some (utf8 (encode pause)) := hsat
      simp [load, hfile, hlossy, decode_encode (hfits pause rfl)]
    · intro h
      rw [show (save pause fates files).1 = _ from h] at hsat
      have hfile : ((storeCall (some pause)).final fates files).file = files.file := hsat
      simp [load, hfile]

/-- Along a run the file holds what was last recorded. -/
theorem load_of_replays (hlossy : ∀ text, lossy (utf8 text) = text) {history : List Entry}
    {files files' : PauseFiles} (hfits : RecordsFit history)
    (hreplays : Replays storeStep history files files') :
    load lossy false files' = lastHeld (load lossy false files) history := by
  induction history generalizing files with
  | nil =>
    cases hreplays
    rfl
  | cons entry history ih =>
    obtain ⟨files1, hstep, hrest⟩ := hreplays
    have htail := ih (fun entry' h => hfits entry' (List.mem_cons_of_mem _ h)) hrest
    have hfirst : load lossy false files1 = pauseAfter (load lossy false files) entry := by
      unfold storeStep at hstep
      unfold pauseAfter
      split at hstep
      · next held error hact =>
        obtain ⟨fates, hanswer, rfl⟩ := hstep
        have hpauses : ∀ pause ∈ held, Fits pause :=
          fun pause hpause => hfits entry List.mem_cons_self pause error (by rw [hact, hpause])
        have hload := storeCall_load hlossy hpauses files fates
        rw [hact]
        cases error with
        | none => exact hload.1 hanswer
        | some detail => exact hload.2 hanswer
      · next hother =>
        cases hstep
        split
        · next hact => exact absurd hact (hother _ _)
        · rfl
    rw [htail, hfirst]
    rfl

end Loads

/-! ## The engine's record -/

/-- The act goes to the pause store. -/
def IsPauseRecord : Act → Prop
  | .pauseRecorded _ _ => True
  | _ => False

/-- Every call of the pause store succeeded. -/
def Succeeds (history : List Entry) : Prop :=
  ∀ entry ∈ history, ∀ held error, entry.act = .pauseRecorded held error → error = none

/-- Nothing was asked of the pause store. -/
structure SameRecord (s s' : Engine) : Prop where
  store : s'.pauseStore = s.pauseStore
  history : Adds (¬ IsPauseRecord ·) s s'

/-- Nor has the owner's pause changed. -/
structure SamePause (s s' : Engine) : Prop extends SameRecord s s' where
  owner : s'.state.ownerPause = s.state.ownerPause

section Same

variable {s s' s'' : Engine}

theorem sameRecord_of_history (hstore : s'.pauseStore = s.pauseStore)
    (hhistory : s'.history = s.history) : SameRecord s s' :=
  ⟨hstore, Adds.same hhistory⟩

theorem SameRecord.trans (h : SameRecord s s') (h' : SameRecord s' s'') : SameRecord s s'' :=
  ⟨h'.store.trans h.store, Adds.trans h.history h'.history⟩

instance : IsPreorder Engine SamePause where
  refl _ := ⟨sameRecord_of_history rfl rfl, rfl⟩
  trans _ _ _ h h' := ⟨h.toSameRecord.trans h'.toSameRecord, h'.owner.trans h.owner⟩

theorem Reported.sameRecord {kind : SourceKind} (h : Reported kind s s') : SameRecord s s' := by
  refine ⟨h.sameSetup.store, Adds.mono h.history fun act htally => ?_⟩
  cases act with
  | pauseRecorded _ _ => exact fun _ => htally
  | _ => exact id

theorem not_isPauseRecord_of_isPlain {act : Act} (h : IsPlain act) : ¬ IsPauseRecord act := by
  cases act with
  | pauseRecorded _ _ => exact fun _ => h
  | _ => exact id

theorem not_isPauseRecord_of_carries {event : CaptureEvent} {act : Act} (h : Carries event act) :
    ¬ IsPauseRecord act := by
  cases act with
  | pauseRecorded _ _ =>
    cases event with
    | audio _ _ _ | screen _ _ => exact fun _ => h
  | _ => exact id

theorem Work.sameRecord (h : Work s s') : SameRecord s s' := by
  refine ⟨h.sameSetup.store, ?_⟩
  cases h with
  | noted act hplain => exact Adds.one rfl (not_isPauseRecord_of_isPlain hplain)
  | used _ hcarries => exact Adds.one rfl (not_isPauseRecord_of_carries hcarries)
  | queued _ _ _ | stored _ | unstored _ _ | deferred _ _ _ | unfinalized _ _ _ | finalized _ _
  | pumped _ _ _ | handed _ | retired _ => exact Adds.one rfl id
  | storedAtOnce key line _ | unstoredAtOnce key line _ _ =>
    have hcreated : Adds (¬ IsPauseRecord ·) s (s.pushActivityRow key line) := Adds.one rfl id
    exact Adds.trans hcreated (Adds.one rfl id)
  | reported kind state now => exact (reported_report kind state now).sameRecord.history
  | @started kind _ _ _ =>
    have hstarted : Adds (¬ IsPauseRecord ·) s (s.record (.started kind none)) := Adds.one rfl id
    exact Adds.trans hstarted (reported_markSourceSuccess kind).sameRecord.history
  | @failedToStart kind error now _ _ _ =>
    have hstarted : Adds (¬ IsPauseRecord ·) s
        ((s.record (.started kind (some error))).clearSourcePreview kind) := Adds.one rfl id
    exact Adds.trans hstarted (reported_refuse kind error now).sameRecord.history
  | retried _ =>
    unfold Engine.takeRetry
    split <;> exact Adds.one rfl id
  | _ => exact Adds.same rfl

theorem Work.samePause (h : Work s s') : SamePause s s' :=
  ⟨h.sameRecord, h.sameSetup.ownerPause⟩

theorem samePause_sourceEnabled (kind : SourceKind) (enabled : Bool) :
    SamePause s (s.reduce (.sourceEnabled kind enabled)) := by
  refine ⟨sameRecord_of_history rfl rfl, ?_⟩
  cases kind with
  | screen | systemAudio | mic | desktopActivity => rfl

theorem Switch.samePause (h : Switch s s') : SamePause s s' := by
  cases h with
  | enabled kind => exact samePause_sourceEnabled kind true
  | @disabled kind now _ =>
    have hswitched : SamePause s ((((s.unplan kind).clearSourcePreview kind).reduce
        (.sourceEnabled kind false)).clearSourcePreview kind) :=
      ⟨sameRecord_of_history rfl rfl, (samePause_sourceEnabled (s := s) kind false).owner⟩
    have hreported := reported_report (s := (((s.unplan kind).clearSourcePreview kind).reduce
      (.sourceEnabled kind false)).clearSourcePreview kind) kind .inactive now
    exact trans_of SamePause hswitched ⟨hreported.sameRecord, hreported.sameSetup.ownerPause⟩
  | allowed _ => exact ⟨sameRecord_of_history rfl rfl, rfl⟩

theorem samePause_of_steps (h : Relation.ReflTransGen Calm s s') : SamePause s s' := by
  induction h with
  | refl => exact refl_of SamePause s
  | tail _ hlast ih =>
    rcases hlast with hwork | hswitch
    · exact trans_of SamePause ih hwork.samePause
    · exact trans_of SamePause ih hswitch.samePause

theorem samePause_of_calm {α : Type} {p : EngineProg α} (h : Stays CalmPath p) :
    Stays SamePause p :=
  fun s => (h s).weaken fun _ _ h => samePause_of_steps h.steps

theorem samePause_of_path {α : Type} {p : EngineProg α} (h : Stays Path p) : Stays SamePause p :=
  samePause_of_calm (calm_of_path h)

theorem setSourceChoices_samePause (setup : SetupSnapshot) :
    Stays SamePause (setSourceChoices setup) :=
  (Stays.modify fun _ => samePause_sourceEnabled .screen setup.screen).bind fun _ =>
    (Stays.modify fun _ => samePause_sourceEnabled .systemAudio setup.systemAudio).bind fun _ =>
    (Stays.modify fun _ => samePause_sourceEnabled .mic setup.mic).bind fun _ =>
    (Stays.modify fun _ => ⟨sameRecord_of_history rfl rfl, rfl⟩).bind fun _ =>
    (Stays.modify fun _ => samePause_sourceEnabled .desktopActivity setup.desktopActivity).bind
      fun _ => samePause_of_path closeActivity_path

theorem start_samePause : Stays SamePause start :=
  (Stays.modify fun _ => ⟨sameRecord_of_history rfl rfl, rfl⟩).bind fun _ => samePause_of_path
    (adoptCurrentSegment_path.bind fun _ => (path_of_renews startSources_renews).bind
      fun _ => foldSourceStates_path)

theorem setDesktopActivityThroughPause_samePause (enabled : Bool) :
    Stays SamePause (setDesktopActivityThroughPause enabled) :=
  (Stays.modify fun _ => ⟨sameRecord_of_history rfl rfl, rfl⟩).bind fun _ => samePause_of_calm
    (followDesktopActivity_calm.bind fun _ => calm_of_path foldSourceStates_path)

end Same

/-- The last recorded pause is `owner`, if every record was made. -/
structure Mirrors (held0 : Option HeldPause) (owner : Option OwnerPause) (s : Engine) : Prop where
  store : s.pauseStore = true
  held : Succeeds s.history → lastHeld held0 s.history = owner.map heldOf
  fit : RecordsFit s.history

/-- The deadline of the owner's pause is a `u64`. -/
def OwnerFits (owner : Option OwnerPause) : Prop := ∀ pause ∈ owner, Fits (heldOf pause)

section Mirrors

variable {s s' : Engine} {held0 : Option HeldPause} {owner : Option OwnerPause}

theorem lastHeld_append {history new : List Entry}
    (hnew : ∀ entry ∈ new, ¬ IsPauseRecord entry.act) :
    lastHeld held0 (history ++ new) = lastHeld held0 history := by
  unfold lastHeld
  rw [List.foldl_append]
  generalize history.foldl pauseAfter held0 = held
  induction new with
  | nil => rfl
  | cons entry new ih =>
    have hentry : pauseAfter held entry = held := by
      unfold pauseAfter
      split
      · next hact => exact absurd (hact ▸ trivial) (hnew entry List.mem_cons_self)
      · rfl
    rw [List.foldl_cons, hentry]
    exact ih fun entry' h => hnew entry' (List.mem_cons_of_mem _ h)

theorem Succeeds.of_append {history new : List Entry} (h : Succeeds (history ++ new)) :
    Succeeds history :=
  fun entry hentry => h entry (List.mem_append_left _ hentry)

theorem SameRecord.mirrors (h : SameRecord s s') (hs : Mirrors held0 owner s) :
    Mirrors held0 owner s' := by
  obtain ⟨new, hnew, hquiet⟩ := h.history
  refine ⟨h.store.trans hs.store, fun hsucceeds => ?_, ?_⟩
  · rw [hnew] at hsucceeds ⊢
    rw [lastHeld_append hquiet]
    exact hs.held hsucceeds.of_append
  · rw [hnew]
    exact List.forall_mem_append.mpr ⟨hs.fit, fun entry hentry pause error hact =>
      absurd (hact ▸ trivial) (hquiet entry hentry)⟩

/-- The record of a pause is the last one. -/
theorem Mirrors.record (hs : Mirrors held0 owner s) {owner' : Option OwnerPause}
    (hfits : OwnerFits owner') (error : Option String) :
    Mirrors held0 owner' (s.record (.pauseRecorded (owner'.map heldOf) error)) := by
  refine ⟨hs.store, fun hsucceeds => ?_, ?_⟩
  · have herror : error = none := hsucceeds (s.entry (.pauseRecorded (owner'.map heldOf) error))
      (List.mem_append_right _ List.mem_cons_self) _ _ rfl
    show lastHeld held0 (s.history ++ [s.entry (.pauseRecorded (owner'.map heldOf) error)]) = _
    rw [herror, lastHeld, List.foldl_append]
    rfl
  · refine List.forall_mem_append.mpr ⟨hs.fit, List.forall_mem_singleton.mpr ?_⟩
    intro pause error' hact
    have hheld : owner'.map heldOf = some pause := by
      injection hact
    obtain ⟨pause', hpause', rfl⟩ := Option.map_eq_some_iff.mp hheld
    exact hfits pause' hpause'

/-- Where the owner's pause can have changed it is recorded. -/
theorem Records.mirrors (h : Records owner s s') (hs : Mirrors held0 owner s)
    (hfits : OwnerFits s.state.ownerPause) : Mirrors held0 s'.state.ownerPause s' := by
  cases h with
  | same hsame => rw [hsame]; exact hs
  | unkept hstore => rw [hs.store] at hstore; cases hstore
  | recorded error _ => exact hs.record hfits error

/-- Between two calls the last recorded pause is the owner's. -/
structure PauseKept (held0 : Option HeldPause) (s : Engine) : Prop where
  mirrors : Mirrors held0 s.state.ownerPause s
  fits : OwnerFits s.state.ownerPause

theorem SamePause.held (h : SamePause s s') (hs : PauseKept held0 s) : PauseKept held0 s' := by
  obtain ⟨hmirrors, hfits⟩ := hs
  rw [← h.owner] at hmirrors hfits
  exact ⟨h.mirrors hmirrors, hfits⟩

theorem settlePause_held (wasPaused restart : Bool) (hs : Mirrors held0 owner s)
    (hfits : OwnerFits s.state.ownerPause) :
    Gives s (settlePause wasPaused restart owner) fun _ => PauseKept held0 := by
  refine (settlePause_records wasPaused restart owner).weaken fun _ s' h => ?_
  obtain ⟨⟨mid, hpath, hrecords⟩, -⟩ := h
  have hmid := samePause_of_steps hpath.calm.steps
  rw [← hmid.owner] at hfits
  have howner : s'.state.ownerPause = mid.state.ownerPause := by
    cases hrecords with
    | same _ | unkept _ | recorded _ _ => rfl
  exact ⟨hrecords.mirrors (hmid.mirrors hs) hfits, howner ▸ hfits⟩

theorem saturatingAdd_lt (a b : Nat) : saturatingAdd a b < 2 ^ 64 := by
  unfold saturatingAdd
  omega

/-- A command on the pause asks nothing of the store. -/
theorem requestPause_sameRecord (command : EngineCommand) (wasPaused : Bool)
    (hfits : OwnerFits s.state.ownerPause) :
    Gives s (requestPause command wasPaused)
      fun _ s' => SameRecord s s' ∧ OwnerFits s'.state.ownerPause := by
  refine requestPause_gives command (fun reason duration now => ?_) ?_ ?_ fun s' hpath => ?_
  · refine ⟨sameRecord_of_history rfl rfl, ?_⟩
    cases reason with
    | operator =>
      intro pause hpause
      cases hpause
      cases duration with
      | none => exact trivial
      | some duration => exact saturatingAdd_lt now duration
    | sessionLocked | systemSuspending => exact hfits
  · exact ⟨sameRecord_of_history rfl rfl, fun _ h => by cases h⟩
  · exact ⟨sameRecord_of_history rfl rfl, hfits⟩
  · have hsame := samePause_of_steps hpath.calm.steps
    rw [hsame.owner]
    exact ⟨hsame.toSameRecord, hfits⟩

end Mirrors

/-! ## Calls -/

section Calls

variable {s s' : Engine} {held0 : Option HeldPause}

theorem held_of_samePause {α : Type} {p : EngineProg α} (h : Stays SamePause p)
    (hs : PauseKept held0 s) :
    Gives s p fun _ => PauseKept held0 :=
  (h s).weaken fun _ _ h => h.held hs

theorem autoResumeIfDue_held (hs : PauseKept held0 s) :
    Gives s autoResumeIfDue fun _ => PauseKept held0 := by
  refine ask_bind fun now => ?_
  refine Runs.get_bind (Runs.onlyIf (fun _ => Runs.modify_bind ?_) fun _ => hs)
  have hexpired : SameRecord s (s.reduce .ownerPauseExpired) := sameRecord_of_history rfl rfl
  exact settlePause_held true false (hexpired.mirrors hs.mirrors) fun _ h => by cases h

theorem tick_held (hs : PauseKept held0 s) : Gives s tick fun _ => PauseKept held0 := by
  refine Runs.bind (autoResumeIfDue_held hs) fun _ s1 h1 => held_of_samePause ?_ h1
  exact samePause_of_path ((rotateSegments_path false).bind fun _ => serviceStorage_path.bind
    fun _ => retryDueSources_path.bind fun _ => pumpDesktopActivity_path.bind
    fun _ => foldSourceStates_path)

theorem applyCommand_held (command : EngineCommand) (hs : PauseKept held0 s) :
    Gives s (applyCommand command) fun _ => PauseKept held0 := by
  refine Runs.bind (held_of_samePause (samePause_of_path (rotateSegments_path false)) hs) ?_
  intro _ s1 h1
  have hpause : Gives s1 (applyPauseCommand command) fun _ => PauseKept held0 := by
    refine Runs.get_bind (Runs.bind (requestPause_sameRecord command _ h1.fits) ?_)
    intro _ s2 h2
    exact settlePause_held _ _ (h2.1.mirrors h1.mirrors) h2.2
  cases command with
  | setSourceEnabled kind enabled =>
    exact held_of_samePause (samePause_of_calm (setSourceEnabled_calm kind enabled)) h1
  | setDesktopActivityPreferences =>
    exact held_of_samePause (samePause_of_path closeActivity_path) h1
  | setDesktopActivityThroughPause enabled =>
    exact held_of_samePause (setDesktopActivityThroughPause_samePause enabled) h1
  | clearPreviews => exact held_of_samePause (samePause_of_path clearPreviews_path) h1
  | _ => exact hpause

theorem method_held (method : Method) (hhold : method ≠ .holdOwnerPauseIn)
    (hs : PauseKept held0 s) :
    Gives s method.run fun _ => PauseKept held0 := by
  cases method with
  | setSourceChoices setup => exact held_of_samePause (setSourceChoices_samePause setup) hs
  | holdOwnerPauseIn => exact absurd rfl hhold
  | setExclusionRules => exact held_of_samePause (samePause_of_path closeActivity_path) hs
  | start => exact held_of_samePause start_samePause hs
  | stop =>
    exact stop_works.weaken fun _ _ h => (samePause_of_steps (calm_of_works h)).held hs
  | operate operation =>
    cases operation with
    | pump =>
      exact Runs.bind (held_of_samePause (samePause_of_path drainEvents_path) hs)
        fun _ s1 h1 => tick_held h1
    | tick => exact tick_held hs
    | command command => exact applyCommand_held command hs
    | event event => exact held_of_samePause (samePause_of_path (handleEvent_path event)) hs

/-- A call of an engine that holds its pause in a store, or an automatic resume on its own. -/
def CalledHeld (s s' : Engine) : Prop :=
  (∃ method : Method, method ≠ .holdOwnerPauseIn ∧ Returns method.run s s') ∨
    Returns autoResumeIfDue s s'

theorem CalledHeld.held (h : CalledHeld s s') (hs : PauseKept held0 s) : PauseKept held0 s' := by
  rcases h with ⟨method, hhold, hreturns⟩ | hreturns
  · exact hreturns.of_runs (method_held method hhold hs)
  · exact hreturns.of_runs (autoResumeIfDue_held hs)

end Calls

/-! ## A launch -/

/-- The owner's choices are set. -/
def Chosen (s s' : Engine) : Prop := ∃ setup, Returns (setSourceChoices setup) s s'

/-- What a launch makes of a held pause. -/
def launched (now : Nat) (held : Option HeldPause) : Option OwnerPause :=
  (held.bind (HeldPause.restored now)).map OwnerPause.mk

section Launch

variable {s0 : Engine} {config : EngineConfig} {deferred : List SegmentKey} {artifactId : String}

/-- Before a launch there is no pause and no record of one. -/
theorem chosen_unpaused (h : ReflTransGen Chosen (Engine.new config deferred artifactId) s0) :
    s0.state.ownerPause = none ∧ ∀ entry ∈ s0.history, ¬ IsPauseRecord entry.act := by
  have hsame : SamePause (Engine.new config deferred artifactId) s0 := by
    refine reflTransGen_invariant (I := SamePause (Engine.new config deferred artifactId)) ?_
      (refl_of SamePause _) h
    intro s s' hs hchosen
    obtain ⟨setup, hreturns⟩ := hchosen
    exact trans_of SamePause hs (hreturns.of_runs (setSourceChoices_samePause setup s))
  have hnew : (Engine.new config deferred artifactId).state.ownerPause = none := by
    unfold Engine.new
    dsimp only
    split <;> rfl
  obtain ⟨new, hhistory, hquiet⟩ := hsame.history
  rw [new_history, List.nil_append] at hhistory
  rw [hhistory]
  exact ⟨hsame.owner.trans hnew, hquiet⟩

/-- The engine that a launch leaves. -/
theorem holdOwnerPauseIn_final (clock store : Reading) (rest : List Reading) :
    holdOwnerPauseIn.final (clock :: store :: rest) s0 = match store.heldPause with
      | none => { s0 with pauseStore := true }
      | some held =>
        match held.restored clock.epochSecs with
        | some expires =>
          { s0.reduce (.requestedPause .operator expires) with pauseStore := true }
        | none =>
          { s0.record (.pauseRecorded none (rest.headD default).detail) with
            pauseStore := true } := by
  show ((restorePause clock.epochSecs store.heldPause >>= fun _ =>
    Prog.modify fun s => { s with pauseStore := true }) rest s0).2.2 = _
  cases store.heldPause with
  | none => rfl
  | some held =>
    unfold restorePause
    dsimp only
    cases held.restored clock.epochSecs with
    | some expires => rfl
    | none =>
      cases rest with
      | nil | cons reading rest => rfl

theorem lastHeld_quiet {history : List Entry}
    (hquiet : ∀ entry ∈ history, ¬ IsPauseRecord entry.act)
    (held : Option HeldPause) : lastHeld held history = held := by
  have happend : lastHeld held ([] ++ history) = lastHeld held [] := lastHeld_append hquiet
  exact happend

/-- A launch brings back what the store holds. -/
theorem holdOwnerPauseIn_held (hnone : s0.state.ownerPause = none)
    (hquiet : ∀ entry ∈ s0.history, ¬ IsPauseRecord entry.act) (clock store : Reading)
    (rest : List Reading) (hfits : ∀ held ∈ store.heldPause, Fits held) :
    PauseKept store.heldPause (holdOwnerPauseIn.final (clock :: store :: rest) s0) ∧
      (holdOwnerPauseIn.final (clock :: store :: rest) s0).state.ownerPause =
        launched clock.epochSecs store.heldPause := by
  have hfit : RecordsFit s0.history := fun entry hentry pause error hact =>
    absurd (hact ▸ trivial) (hquiet entry hentry)
  rw [holdOwnerPauseIn_final]
  unfold launched
  cases hheld : store.heldPause with
  | none =>
    refine ⟨⟨⟨rfl, fun _ => ?_, hfit⟩, ?_⟩, hnone⟩
    · show lastHeld none s0.history = s0.state.ownerPause.map heldOf
      rw [hnone, lastHeld_quiet hquiet]
      rfl
    · show OwnerFits s0.state.ownerPause
      rw [hnone]
      exact fun _ h => by cases h
  | some held =>
    have hheldFits := hfits held hheld
    dsimp only
    cases hrestored : held.restored clock.epochSecs with
    | some expires =>
      -- the pause that comes back is the one that is held
      have hback : heldOf ⟨expires⟩ = held := by
        unfold HeldPause.restored at hrestored
        cases held with
        | untilResumed => cases hrestored; rfl
        | «until» deadline =>
          dsimp only at hrestored
          split at hrestored
          · cases hrestored; rfl
          · cases hrestored
      refine ⟨⟨⟨rfl, fun _ => ?_, hfit⟩, ?_⟩, ?_⟩
      · show lastHeld (some held) s0.history = some (heldOf ⟨expires⟩)
        rw [hback, lastHeld_quiet hquiet]
      · intro pause hpause
        cases hpause
        rw [hback]
        exact hheldFits
      · rw [Option.bind_some, hrestored]
        rfl
    | none =>
      -- the deadline has passed, and the record is removed
      obtain ⟨pause, hpause⟩ : ∃ pause, heldOf pause = held := by
        cases held with
        | untilResumed => exact ⟨⟨none⟩, rfl⟩
        | «until» deadline => exact ⟨⟨some deadline⟩, rfl⟩
      have hbefore : Mirrors (some held) (some pause) { s0 with pauseStore := true } := by
        refine ⟨rfl, fun _ => ?_, hfit⟩
        show lastHeld (some held) s0.history = some (heldOf pause)
        rw [hpause, lastHeld_quiet hquiet]
      have hfits : OwnerFits none := fun _ h => by cases h
      have hafter : Mirrors (some held) none
          { s0.record (.pauseRecorded none (rest.headD default).detail) with pauseStore := true } :=
        hbefore.record hfits (rest.headD default).detail
      refine ⟨⟨?_, ?_⟩, ?_⟩
      · show Mirrors (some held) s0.state.ownerPause _
        rw [hnone]
        exact hafter
      · show OwnerFits s0.state.ownerPause
        rw [hnone]
        exact hfits
      · rw [Option.bind_some, hrestored]
        exact hnone

end Launch

/-- The pause a launch makes of a held one, spelled out. -/
theorem launched_eq_some_iff {now : Nat} {held : Option HeldPause} {expires : Option Nat} :
    launched now held = some ⟨expires⟩ ↔ (held = some .untilResumed ∧ expires = none) ∨
        ∃ deadline, held = some (.until deadline) ∧ now < deadline ∧ expires = some deadline := by
  unfold launched
  cases held with
  | none => simp
  | some held =>
    cases held with
    | untilResumed => simp [HeldPause.restored, eq_comm]
    | «until» deadline =>
      by_cases hlate : now < deadline
      · simp [HeldPause.restored, hlate, eq_comm]
      · simp [HeldPause.restored, hlate]

/-- A pause store whose calls succeed holds the owner's pause between any two calls. A launch
leaves the engine paused by the owner when the store holds an indefinite pause, which every text
that is not a timed one is, or one with a deadline to come, and else clears the store. -/
theorem owner_pause_survives (lossy : List UInt8 → List Char)
    (hlossy : ∀ text, lossy (utf8 text) = text)
    (config : EngineConfig) (deferred : List SegmentKey) (artifactId : String)
    (s0 held : Engine) (hchosen : ReflTransGen Chosen (Engine.new config deferred artifactId) s0)
    (files0 : PauseFiles) (clock store : Reading) (rest : List Reading)
    (hload : store.heldPause = load lossy false files0)
    (hheld : holdOwnerPauseIn.final (clock :: store :: rest) s0 = held) :
    (∀ s files, ReflTransGen CalledHeld held s → Succeeds s.history →
      Replays storeStep s.history files0 files →
      load lossy false files = s.state.ownerPause.map heldOf) ∧
    (∀ started files, Returns start held started → Succeeds started.history →
      Replays storeStep started.history files0 files →
      (∀ expires, started.state.phase = .paused ∧ started.state.ownerPause = some ⟨expires⟩ ↔
        (load lossy false files0 = some .untilResumed ∧ expires = none) ∨
          ∃ deadline, load lossy false files0 = some (.until deadline) ∧
            clock.epochSecs < deadline ∧ expires = some deadline) ∧
      (started.state.ownerPause = none → files.file = none)) ∧
    (∀ text, (∀ deadline, ¬ Dated text deadline) → decode text = .untilResumed) := by
  obtain ⟨hnone, hquiet⟩ := chosen_unpaused hchosen
  have hfits : ∀ pause ∈ store.heldPause, Fits pause := by
    intro pause hpause
    obtain ⟨bytes, -, rfl⟩ := Option.map_eq_some_iff.mp (hload ▸ hpause)
    exact decode_fits (lossy bytes)
  obtain ⟨hkept, howner⟩ := holdOwnerPauseIn_held hnone hquiet clock store rest hfits
  rw [hheld] at hkept howner
  rw [hload] at hkept howner
  -- the file of a run, from what the run recorded
  have hfile : ∀ s files, PauseKept (load lossy false files0) s → Succeeds s.history →
      Replays storeStep s.history files0 files →
      load lossy false files = s.state.ownerPause.map heldOf := by
    intro s files hs hsucceeds hreplays
    rw [load_of_replays hlossy hs.mirrors.fit hreplays]
    exact hs.mirrors.held hsucceeds
  refine ⟨fun s files hrun => ?_, fun started files hstart hsucceeds hreplays => ?_,
    fun _ => decode_of_not_dated⟩
  · exact hfile s files
      (reflTransGen_invariant (I := PauseKept _) (fun _ _ hs hcall => hcall.held hs) hkept hrun)
  · have hsame : SamePause held started := hstart.of_runs (start_samePause held)
    have howner' : started.state.ownerPause = launched clock.epochSecs (load lossy false files0) :=
      hsame.owner.trans howner
    refine ⟨fun expires => ?_, fun hunpaused => ?_⟩
    · rw [← launched_eq_some_iff, ← howner']
      refine ⟨And.right, fun hpaused => ⟨?_, hpaused⟩⟩
      rw [phase_paused_iff]
      simp [StateMachine.isPaused, hpaused]
    · have hempty := hfile started files (hsame.held hkept) hsucceeds hreplays
      rw [hunpaused] at hempty
      simpa [load] using hempty

/-- The text of valid UTF-8, and nothing for other bytes. -/
def strictText (bytes : List UInt8) : List Char := (fromUtf8 bytes).getD []

theorem strictText_utf8 (text : List Char) : strictText (utf8 text) = text := by
  simp [strictText]

/-- A pause until second 1900. -/
def timedFiles : PauseFiles where
  file := some (utf8 "until 1900\n".toList)

theorem load_timedFiles : load strictText false timedFiles = some (.until 1900) := by
  show some (decode (strictText (utf8 "until 1900\n".toList))) = _
  rw [strictText_utf8]
  decide +kernel

/-- The engine that was launched at a second with this pause held. -/
def launchedAt (now : Nat) : Engine :=
  holdOwnerPauseIn.final [{ Reading.quiet with epochSecs := now },
    { Reading.quiet with heldPause := some (.until 1900) }] (Engine.new {} [] "a")

/-- A pause up to 1900: a start at 1000 takes it up, one at 1900 drops it with its file. -/
theorem owner_pause_survives_timed :
    (start.final [] (launchedAt 1000)).state.ownerPause = some ⟨some 1900⟩ ∧
      ∀ files, Replays storeStep (start.final [] (launchedAt 1900)).history timedFiles files →
        files.file = none := by
  have hlate := (owner_pause_survives strictText strictText_utf8 {} [] "a" _ (launchedAt 1900)
    .refl timedFiles _ _ [] load_timedFiles.symm rfl).2.1
  have hstart : ∀ s : Engine, (start [] s).1 = .ok () → Returns start s (start.final [] s) :=
    fun _ h => ⟨[], h, rfl⟩
  have hsucceeds : ∀ history : List Entry, (history.all fun entry =>
      match entry.act with
      | .pauseRecorded _ error => error.isNone
      | _ => true) = true → Succeeds history := by
    intro history hall entry hentry held error hact
    have hentry' := List.all_eq_true.mp hall entry hentry
    rw [hact] at hentry'
    exact Option.isNone_iff_eq_none.mp hentry'
  refine ⟨by decide +kernel, fun files hreplays => ?_⟩
  have hreturns := hstart (launchedAt 1900) (by decide +kernel)
  exact (hlate _ files hreturns (hsucceeds _ (by decide +kernel)) hreplays).2 (by decide +kernel)

end SolstoneWindows.Proofs.CaptureEngine
