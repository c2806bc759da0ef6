import SolstoneWindows.Lib.Replay
import SolstoneWindows.Proofs.CaptureEngine.Storage
import SolstoneWindows.Proofs.PlatformWin.AppendActivity

/-!
# Rows of desktop activity, from the engine to the disk

The engine gives each row a file and an offset, and hands the rows to the file system in order. A
row that fails stays at the head of the queue, and holds up the seal of its segment. `RowStep` is
what one step can do to this, and `Ordered` what follows for the engine: the lines of a file are
those that were stored and then those that are queued, each at the offset where the ones before it
end.

On the disk, `activityStep` says what one call of the history does: the append and the seal run as
modelled in `PlatformWin`, with every call of theirs free to fail, and every other call leaves the
activity files alone. `Placed` says where the rows of each file are (`Filed`), and a step of the
engine and its call on the disk keep it together.

Two segments of one index would share a directory. That there are none is `Keyed`: every key that
the engine names is a window of its period.
-/

set_option autoImplicit false

namespace SolstoneWindows.Proofs.CaptureEngine

open Lib.Effect Lib.Fs Lib.Replay Relation
open ObserverModel ObserverSegment
open SolstoneWindows.CaptureEngine
open SolstoneWindows.PlatformWin (Place SegProg SegmentJson appendActivity finalizeLive)
open ObserverAudio (Dsp)
open Proofs.PlatformWin (Sighted IsActivity Apart Blank Filed Safe)

/-! ## The rows of the engine -/

/-- The file a row goes to. -/
def rowFile (row : PendingActivityRow) : SegmentKey × String := (row.key, row.fileName)

def rowBytes (row : PendingActivityRow) : List UInt8 := row.line.toUTF8.data.toList

/-- What a row adds to a file. -/
def bytesFor (file : SegmentKey × String) (row : PendingActivityRow) : List UInt8 :=
  if rowFile row = file then rowBytes row else []

def assignedBy (file : SegmentKey × String) (entry : Entry) : List UInt8 :=
  match entry.act with
  | .created row => bytesFor file row
  | _ => []

def storedBy (file : SegmentKey × String) (entry : Entry) : List UInt8 :=
  match entry.act with
  | .appended row none => bytesFor file row
  | _ => []

/-- The lines that were assigned to a file, in the order of their creation. -/
def assigned (file : SegmentKey × String) (history : List Entry) : List UInt8 :=
  history.flatMap (assignedBy file)

/-- The lines that the file system said it stored. -/
def stored (file : SegmentKey × String) (history : List Entry) : List UInt8 :=
  history.flatMap (storedBy file)

/-- The lines that are queued for a file. -/
def queuedFor (file : SegmentKey × String) (rows : List PendingActivityRow) : List UInt8 :=
  rows.flatMap (bytesFor file)

/-- The act is nothing to the rows. -/
def IsOther : Act → Prop
  | .created _ => False
  | .appended _ _ => False
  | .finalized _ _ _ => False
  | _ => True

/-- The engine, as far as the rows go. -/
structure Book where
  rows : List PendingActivityRow
  lens : SegmentKey × String → Nat
  history : List Entry

def book (s : Engine) : Book := ⟨s.pendingActivityRows, s.committedActivityLens, s.history⟩

/-- One step, as far as the rows go. -/
inductive RowStep : Book → Book → Prop
  | other {b : Book} {new : List Entry} (hother : ∀ entry ∈ new, IsOther entry.act) :
    RowStep b { b with history := b.history ++ new }
  | created {b : Book} {row : PendingActivityRow} {entry : Entry} (hact : entry.act = .created row)
    (hoffset : row.committedLen = b.lens (rowFile row)) (hname : IsActivity row.fileName) :
    RowStep b ⟨b.rows ++ [row], Function.update b.lens (rowFile row)
      (b.lens (rowFile row) + (rowBytes row).length), b.history ++ [entry]⟩
  | stored {b : Book} {row : PendingActivityRow} {rows : List PendingActivityRow} {entry : Entry}
    (hact : entry.act = .appended row none) (hrows : b.rows = row :: rows) :
    RowStep b { b with rows := rows, history := b.history ++ [entry] }
  | unstored {b : Book} {row : PendingActivityRow} {rows : List PendingActivityRow}
    {detail : String} {entry : Entry} (hact : entry.act = .appended row (some detail))
    (hrows : b.rows = row :: rows) : RowStep b { b with history := b.history ++ [entry] }
  | finalized {b : Book} {key : SegmentKey} {videoEnd : VideoEnd} {error : Option String}
    {entry : Entry} (hact : entry.act = .finalized key videoEnd error)
    (hdrained : key ∉ b.rows.map PendingActivityRow.key) :
    RowStep b { b with history := b.history ++ [entry] }

variable {kind : SourceKind} {act : Act}

section Steps

variable {s s' : Engine}

theorem rowStep_adds (hrows : s'.pendingActivityRows = s.pendingActivityRows)
    (hlens : s'.committedActivityLens = s.committedActivityLens) (h : Adds IsOther s s') :
    RowStep (book s) (book s') := by
  obtain ⟨new, hnew, hother⟩ := h
  unfold book
  rw [hrows, hlens, hnew]
  exact .other hother

theorem isOther_of_isTally (h : IsTally kind act) : IsOther act := by
  cases act with
  | reported _ _ | refused _ _ | failed _ _ | succeeded _ => exact trivial
  | _ => exact h.elim

theorem isOther_of_isPlain (h : IsPlain act) : IsOther act := by
  cases act with
  | created _ | appended _ _ | finalized _ _ _ => exact h
  | _ => exact trivial

theorem isOther_of_carries {event : CaptureEvent} (h : Carries event act) : IsOther act := by
  cases event with
  | audio _ _ _ | screen _ _ => cases act <;> first | exact trivial | exact h

theorem Reported.rowStep (h : Reported kind s s') : RowStep (book s) (book s') :=
  rowStep_adds (by rw [h.eq]) (by rw [h.eq]) (Adds.mono h.history fun _ => isOther_of_isTally)

theorem isActivity_activityFile (s : Engine) (key : SegmentKey) :
    IsActivity (s.activityFile key) := by
  show "_desktop_activity.jsonl".toList.isSuffixOf (s.activityFile key).toList = true
  rw [List.isSuffixOf_iff_suffix]
  unfold Engine.activityFile activityFileName
  rw [String.toList_append]
  exact List.suffix_append _ _

theorem pushActivityRow_rowStep (key : SegmentKey) (line : String) :
    RowStep (book s) (book (s.pushActivityRow key line)) :=
  .created rfl rfl (isActivity_activityFile s key)

theorem Work.rowSteps (h : Work s s') : ReflTransGen RowStep (book s) (book s') := by
  cases h with
  | noted act hplain =>
    exact .single (rowStep_adds rfl rfl (Adds.one rfl (isOther_of_isPlain hplain)))
  | used _ hcarries =>
    exact .single (rowStep_adds rfl rfl (Adds.one rfl (isOther_of_carries hcarries)))
  | queued key line _ => exact .single (pushActivityRow_rowStep key line)
  | stored hfirst => exact .single (.stored rfl hfirst)
  | unstored detail hfirst => exact .single (.unstored rfl hfirst)
  | storedAtOnce key line hempty =>
    exact .tail (.single (pushActivityRow_rowStep key line))
      (.stored rfl (pushActivityRow_rows hempty))
  | unstoredAtOnce key line detail hempty =>
    exact .tail (.single (pushActivityRow_rowStep key line))
      (.unstored rfl (pushActivityRow_rows hempty))
  | deferred _ _ _ | pumped _ _ _ | handed _ | retired _ =>
    exact .single (rowStep_adds rfl rfl (Adds.one rfl trivial))
  | unfinalized _ _ hsealable | finalized _ hsealable =>
    exact .single (.finalized rfl hsealable.drained)
  | reported kind state now => exact .single (reported_report kind state now).rowStep
  | @started kind _ _ _ =>
    have hstarted : RowStep (book s) (book (s.record (.started kind none))) :=
      rowStep_adds rfl rfl (Adds.one rfl trivial)
    exact .tail (.single hstarted) (reported_markSourceSuccess kind).rowStep
  | @failedToStart kind error now _ _ _ =>
    have hstarted : RowStep (book s)
        (book ((s.record (.started kind (some error))).clearSourcePreview kind)) :=
      rowStep_adds rfl rfl (Adds.one rfl trivial)
    exact .tail (.single hstarted) (reported_refuse kind error now).rowStep
  | retried _ =>
    unfold Engine.takeRetry
    split <;> exact .single (rowStep_adds rfl rfl (Adds.one rfl trivial))
  | _ => exact .single (rowStep_adds rfl rfl (Adds.same rfl))

theorem Path.rowSteps (h : Path s s') : ReflTransGen RowStep (book s) (book s') := by
  have hworks := h.works
  clear h
  induction hworks with
  | refl => exact .refl
  | tail _ hlast ih => exact ih.trans hlast.rowSteps

end Steps

/-! ## The order of the rows -/

/-- The lines of a file are stored in the order of their creation, each behind the ones before. -/
structure Ordered (b : Book) : Prop where
  lens : ∀ file, b.lens file = (assigned file b.history).length
  rows : ∀ file, assigned file b.history = stored file b.history ++ queuedFor file b.rows
  offsets : ∀ before row after, b.rows = before ++ row :: after →
    row.committedLen = (stored (rowFile row) b.history ++ queuedFor (rowFile row) before).length
  created : ∀ row ∈ b.rows, ∃ entry ∈ b.history, entry.act = .created row
  named : ∀ entry ∈ b.history, ∀ row, entry.act = .created row → IsActivity row.fileName

variable {entry : Entry} {new : List Entry} {row : PendingActivityRow}

section Order

variable {b b' : Book} {file : SegmentKey × String}

theorem assigned_append (history new : List Entry) :
    assigned file (history ++ new) = assigned file history ++ assigned file new :=
  List.flatMap_append

theorem stored_append (history new : List Entry) :
    stored file (history ++ new) = stored file history ++ stored file new :=
  List.flatMap_append

theorem assignedBy_of_ne (h : ∀ row, entry.act ≠ .created row) : assignedBy file entry = [] := by
  unfold assignedBy
  split
  · next hact => exact absurd hact (h _)
  · rfl

theorem storedBy_of_ne (h : ∀ row, entry.act ≠ .appended row none) : storedBy file entry = [] := by
  unfold storedBy
  split
  · next hact => exact absurd hact (h _)
  · rfl

/-- What new entries do to the order: they assign lines, and store lines that were queued. -/
theorem Ordered.extend (hb : Ordered b) {rows : List PendingActivityRow}
    {lens : SegmentKey × String → Nat}
    (hlens : ∀ file, lens file = b.lens file + (assigned file new).length)
    (hqueue : ∀ file, queuedFor file b.rows ++ assigned file new =
      stored file new ++ queuedFor file rows)
    (hoffsets : ∀ before row after, rows = before ++ row :: after → row.committedLen =
      (stored (rowFile row) (b.history ++ new) ++ queuedFor (rowFile row) before).length)
    (hcreated : ∀ row ∈ rows, row ∈ b.rows ∨ ∃ entry ∈ new, entry.act = .created row)
    (hnamed : ∀ entry ∈ new, ∀ row, entry.act = .created row → IsActivity row.fileName) :
    Ordered ⟨rows, lens, b.history ++ new⟩ := by
  refine ⟨fun file => ?_, fun file => ?_, hoffsets, fun row hrow => ?_,
    List.forall_mem_append.mpr ⟨hb.named, hnamed⟩⟩
  · rw [assigned_append, List.length_append, ← hb.lens]
    exact hlens file
  · rw [assigned_append, stored_append, hb.rows, List.append_assoc, hqueue, List.append_assoc]
  · rcases hcreated row hrow with hrow | ⟨entry, hentry, hact⟩
    · obtain ⟨entry, hentry, hact⟩ := hb.created row hrow
      exact ⟨entry, List.mem_append_left _ hentry, hact⟩
    · exact ⟨entry, List.mem_append_right _ hentry, hact⟩

theorem stored_of_ne {history : List Entry}
    (hact : ∀ entry ∈ new, ∀ row, entry.act ≠ .appended row none) :
    stored file (history ++ new) = stored file history := by
  have hnone : stored file new = [] :=
    List.flatMap_eq_nil_iff.mpr fun entry hentry => storedBy_of_ne (hact entry hentry)
  rw [stored_append, hnone, List.append_nil]

/-- The rows are the same, and the history only tells of other things. -/
theorem Ordered.of_quiet (hb : Ordered b)
    (hcreated : ∀ entry ∈ new, ∀ row, entry.act ≠ .created row)
    (hstored : ∀ entry ∈ new, ∀ row, entry.act ≠ .appended row none) :
    Ordered { b with history := b.history ++ new } := by
  have hassigned : ∀ file, assigned file new = [] := fun file =>
    List.flatMap_eq_nil_iff.mpr fun entry hentry => assignedBy_of_ne (hcreated entry hentry)
  have hnone : ∀ file, stored file new = [] := fun file =>
    List.flatMap_eq_nil_iff.mpr fun entry hentry => storedBy_of_ne (hstored entry hentry)
  refine hb.extend (fun file => by simp [hassigned]) (fun file => by simp [hassigned, hnone])
    (fun before row after hsplit => ?_) (fun row => .inl) fun entry hentry row hact => ?_
  · rw [stored_of_ne hstored]
    exact hb.offsets before row after hsplit
  · exact absurd hact (hcreated entry hentry row)

theorem ne_of_isOther (h : IsOther act) :
    (∀ row, act ≠ .created row) ∧ ∀ row error, act ≠ .appended row error := by
  constructor
  · intro row hact
    rw [hact] at h
    exact h
  · intro row error hact
    rw [hact] at h
    exact h

theorem RowStep.ordered (h : RowStep b b') (hb : Ordered b) : Ordered b' := by
  cases h with
  | other hother =>
    exact hb.of_quiet (fun entry h => (ne_of_isOther (hother entry h)).1)
      fun entry h row => (ne_of_isOther (hother entry h)).2 row none
  | @created row entry hact hoffset hname =>
    -- the row goes to the end of its file
    have hassigned : ∀ file, assigned file [entry] = bytesFor file row := by
      simp [assigned, assignedBy, hact]
    have hstored : ∀ file, CaptureEngine.stored file [entry] = [] := by
      simp [CaptureEngine.stored, storedBy, hact]
    refine hb.extend (fun file => ?_) (fun file => ?_) (fun before row' after hsplit => ?_)
      (fun row' hrow' => ?_) fun entry' hentry' row' hact' => ?_
    · rw [hassigned]
      by_cases hfile : rowFile row = file
      · subst hfile
        rw [Function.update_self, bytesFor, if_pos rfl]
      · rw [Function.update_of_ne (Ne.symm hfile), bytesFor, if_neg hfile]
        rfl
    · rw [hassigned, hstored]
      simp [queuedFor]
    · rw [stored_append, hstored, List.append_nil]
      -- the row is the last one, or one of those before
      rcases append_singleton_split hsplit with ⟨hbefore, rfl, -⟩ | ⟨after', hbefore⟩
      · rw [hoffset, hb.lens, hbefore, ← hb.rows]
      · exact hb.offsets before row' after' hbefore
    · rcases List.mem_append.mp hrow' with hrow' | hrow'
      · exact .inl hrow'
      · rw [List.mem_singleton.mp hrow']
        exact .inr ⟨entry, List.mem_cons_self, hact⟩
    · rw [List.mem_singleton.mp hentry', hact] at hact'
      cases hact'
      exact hname
  | @stored row rows entry hact hrows =>
    have hassigned : ∀ file, assigned file [entry] = [] := by simp [assigned, assignedBy, hact]
    have hstored : ∀ file, CaptureEngine.stored file [entry] = bytesFor file row := by
      simp [CaptureEngine.stored, storedBy, hact]
    refine hb.extend (fun file => by simp [hassigned]) (fun file => ?_)
      (fun before row' after hsplit => ?_)
        (fun row' hrow' => ?_) fun entry' hentry' row' hact' => ?_
    · rw [hassigned, hstored, hrows, List.append_nil]
      rfl
    · have hoffset := hb.offsets (row :: before) row' after (by rw [hrows, hsplit]; rfl)
      rw [hoffset, stored_append, hstored, List.append_assoc]
      rfl
    · rw [hrows]
      exact .inl (.tail _ hrow')
    · rw [List.mem_singleton.mp hentry', hact] at hact'
      cases hact'
  | unstored hact _ | finalized hact _ =>
    exact hb.of_quiet (by simp [hact]) (by simp [hact])

end Order

/-! ## The rows on the disk -/

/-- The key is a window of the period: its index says when it begins. -/
def IsWindow (periodSecs : Nat) (key : SegmentKey) : Prop :=
  key.boundaryEpochSecs = key.index * max periodSecs 1

/-- The act creates a row for the segment, or seals it. -/
def NamesKey (key : SegmentKey) : Act → Prop
  | .created row => row.key = key
  | .finalized key' _ _ => key' = key
  | _ => False

/-- Rows are created for windows, and windows are sealed. -/
def Windowed (periodSecs : Nat) (history : List Entry) : Prop :=
  ∀ entry ∈ history, ∀ key, NamesKey key entry.act → IsWindow periodSecs key

/-- The activity files are as they were. -/
def SameActivity (d d' : Disk Place) : Prop :=
  ∀ k name, IsActivity name → node? d' k name = node? d k name

/-- The program, run under such verdicts, gives this answer. -/
def Answers (D : Verdict → Prop) (p : SegProg Unit) (error : Option String) (d d' : Disk Place) :
    Prop :=
  ∃ verdicts, (∀ v ∈ verdicts, D v) ∧ p.final verdicts d = d' ∧ match error with
    | none => (p verdicts d).1 = .ok ()
    | some _ => ∃ e, (p verdicts d).1 = .err e

/-- What the calls of the engine do to the disk. The process does not stop in one of them. -/
def activityStep {S : Type} (json : SegmentJson) (dsp : Dsp S) (entry : Entry)
    (d d' : Disk Place) : Prop :=
  match entry.act with
  | .appended row error =>
    Answers (fun _ => True)
      (appendActivity row.key.index row.fileName (rowBytes row) row.committedLen) error d d'
  | .finalized key _ error =>
    -- a handle of the segment that cannot be flushed keeps the seal from beginning
    (error ≠ none ∧ d' = d) ∨
      ∃ lenSecs, Answers Sighted (finalizeLive json dsp lenSecs key.index) error d d'
  | _ => SameActivity d d'

/-- No row of the file is queued. -/
def Drained (file : SegmentKey × String) (rows : List PendingActivityRow) : Prop :=
  ∀ row ∈ rows, rowFile row ≠ file

/-- The segment had no file of that name at first. -/
def IsNew (d0 : Disk Place) (key : SegmentKey) (name : String) : Prop :=
  node? d0 (.incomplete key.index) name = none ∧ node? d0 (.sealed key.index) name = none

/-- The rows of every activity file are where they should be. -/
def Placed (periodSecs : Nat) (d0 d : Disk Place) (b : Book) : Prop :=
  ∀ key name, IsWindow periodSecs key → IsActivity name →
    Filed d key.index name (stored (key, name) b.history) (Drained (key, name) b.rows)
      (IsNew d0 key name)

/-- Sealed activity files are there, as they were. -/
def SealedKept (d d' : Disk Place) : Prop :=
  ∀ index name node, IsActivity name → node? d (.sealed index) name = some node →
    node? d' (.sealed index) name = some node

variable {key : SegmentKey}

section Disk

variable {S : Type} {json : SegmentJson} {dsp : Dsp S} {periodSecs : Nat} {d0 d d' : Disk Place}
  {b b' : Book}

theorem IsWindow.eq {key' : SegmentKey} (h : IsWindow periodSecs key)
    (h' : IsWindow periodSecs key') (hindex : key.index = key'.index) : key = key' := by
  cases key with
  | mk boundary index =>
    cases key' with
    | mk boundary' index' =>
      have hboundary : boundary = index * max periodSecs 1 := h
      have hboundary' : boundary' = index' * max periodSecs 1 := h'
      have hindex' : index = index' := hindex
      rw [hboundary, hboundary', hindex']

theorem Windowed.of_append {history : List Entry} (h : Windowed periodSecs (history ++ new)) :
    Windowed periodSecs history :=
  fun entry hentry => h entry (List.mem_append_left _ hentry)

/-- Nothing happened to the activity files, and no row left the queue. -/
theorem Placed.of_same (hb : Placed periodSecs d0 d b) (hsame : SameActivity d d')
    (hstored : ∀ file, stored file b'.history = stored file b.history)
    (hrows : ∀ row ∈ b.rows, row ∈ b'.rows) : Placed periodSecs d0 d' b' := by
  intro key name hwindow hname
  rw [hstored]
  exact (hb key name hwindow hname).congr (fun hdrained row hrow => hdrained row (hrows row hrow))
    (hsame _ _ hname) (hsame _ _ hname) fun q node hnode => (hsame _ _ hname).trans hnode

theorem SameActivity.trans {d'' : Disk Place} (h : SameActivity d d') (h' : SameActivity d' d'') :
    SameActivity d d'' :=
  fun k name hname => (h' k name hname).trans (h k name hname)

/-- Calls that are nothing to the rows leave the activity files alone. -/
theorem sameActivity_of_replays (hother : ∀ entry ∈ new, IsOther entry.act)
    (h : Replays (activityStep json dsp) new d d') : SameActivity d d' := by
  induction new generalizing d with
  | nil =>
    cases h
    exact fun _ _ _ => rfl
  | cons entry new ih =>
    obtain ⟨d1, hstep, hrest⟩ := h
    have hfirst : SameActivity d d1 := by
      have hact := hother entry List.mem_cons_self
      unfold activityStep at hstep
      split at hstep
      · next hact' => rw [hact'] at hact; exact hact.elim
      · next hact' => rw [hact'] at hact; exact hact.elim
      · exact hstep
    exact hfirst.trans (ih (fun entry h => hother entry (List.mem_cons_of_mem _ h)) hrest)

variable {rest rows : List PendingActivityRow} {error : Option String}

/-- The queue's first row is about to be stored behind what its file has. -/
theorem Ordered.first (hb : Ordered b)
    (hrows : b.rows = row :: rest) :
    row.committedLen = (stored (rowFile row) b.history).length := by
  have hoffset := hb.offsets [] row rest hrows
  rw [hoffset]
  simp [queuedFor]

theorem Ordered.window (hb : Ordered b) (hwindowed : Windowed periodSecs b.history)
    (hrows : b.rows = row :: rest) :
    IsWindow periodSecs row.key := by
  obtain ⟨entry, hentry, hact⟩ := hb.created row (by rw [hrows]; exact List.mem_cons_self)
  exact hwindowed entry hentry row.key (by rw [hact]; rfl)

/-- An append to a file is nothing to any other. -/
theorem Placed.apart (hb : Placed periodSecs d0 d b) (hwindow : IsWindow periodSecs row.key)
    (hapart : Apart (.incomplete row.key.index) row.fileName d d') {name : String}
    (hkey : IsWindow periodSecs key) (hname : IsActivity name) (hne : rowFile row ≠ (key, name))
    (hdrained : Drained (key, name) rows → Drained (key, name) b.rows) :
    Filed d' key.index name (stored (key, name) b.history) (Drained (key, name) rows)
      (IsNew d0 key name) := by
  refine (hb key name hkey hname).congr hdrained (hapart _ _ ?_) (hapart _ _ (by simp))
    fun q _ hnode => (hapart _ _ (by simp)).trans hnode
  intro ⟨hplace, hfile⟩
  have hindex : key.index = row.key.index := by
    injection hplace
  refine hne ?_
  unfold rowFile
  rw [hkey.eq hwindow hindex, hfile]

theorem Placed.store (hb : Placed periodSecs d0 d b) (hordered : Ordered b)
    (hwindowed : Windowed periodSecs b.history) (hact : entry.act = .appended row none)
    (hrows : b.rows = row :: rows)
    (hstep : activityStep json dsp entry d d') :
    Placed periodSecs d0 d' { b with rows := rows, history := b.history ++ [entry] } := by
  unfold activityStep at hstep
  rw [hact] at hstep
  obtain ⟨verdicts, _, hfinal, hok⟩ := hstep
  have hspec := (PlatformWin.appendActivity_spec d row.key.index row.fileName (rowBytes row)
    row.committedLen).returns (fun _ _ => trivial) hok
  rw [hfinal] at hspec
  obtain ⟨hapart, hwhole⟩ := hspec
  intro key name hkey hname
  have hstored : stored (key, name) (b.history ++ [entry]) =
      stored (key, name) b.history ++ bytesFor (key, name) row := by
    rw [stored_append]
    simp [stored, storedBy, hact]
  rw [hstored]
  by_cases hfile : rowFile row = (key, name)
  · rw [hordered.first hrows, hfile] at hwhole
    obtain ⟨rfl, rfl⟩ : row.key = key ∧ row.fileName = name := Prod.mk.inj hfile
    rw [bytesFor, if_pos hfile]
    exact (hb row.key row.fileName hkey hname).append hapart hwhole
  rw [bytesFor, if_neg hfile, List.append_nil]
  refine hb.apart (hordered.window hwindowed hrows) hapart hkey hname hfile ?_
  intro hdrained row' hrow'
  rw [hrows] at hrow'
  rcases List.mem_cons.mp hrow' with rfl | hrow'
  · exact hfile
  · exact hdrained row' hrow'

theorem Placed.fail (hb : Placed periodSecs d0 d b) (hordered : Ordered b)
    (hwindowed : Windowed periodSecs b.history) {detail : String}
    (hact : entry.act = .appended row (some detail))
    (hrows : b.rows = row :: rows) (hstep : activityStep json dsp entry d d') :
    Placed periodSecs d0 d' { b with history := b.history ++ [entry] } := by
  unfold activityStep at hstep
  rw [hact] at hstep
  obtain ⟨verdicts, _, hfinal, e, hfail⟩ := hstep
  have hspec := (PlatformWin.appendActivity_spec d row.key.index row.fileName (rowBytes row)
    row.committedLen).fails (fun _ _ => trivial) hfail
  rw [hfinal] at hspec
  obtain ⟨hapart, htorn⟩ := hspec
  intro key name hkey hname
  rw [stored_of_ne (by simp [hact])]
  by_cases hfile : rowFile row = (key, name)
  · rw [hordered.first hrows, hfile] at htorn
    obtain ⟨rfl, rfl⟩ : row.key = key ∧ row.fileName = name := Prod.mk.inj hfile
    refine (hb row.key row.fileName hkey hname).tear (fun hdrained => ?_) hapart htorn
    exact hdrained row (by rw [hrows]; exact List.mem_cons_self) hfile
  · exact hb.apart (hordered.window hwindowed hrows) hapart hkey hname hfile id

theorem safe_of_answers {lenSecs : Option (List UInt8) → Bool → Nat} {n : Nat}
    (h : Answers Sighted (finalizeLive json dsp lenSecs n) error d d') :
    Safe IsActivity n d d' := by
  obtain ⟨verdicts, hsighted, rfl, _⟩ := h
  exact (PlatformWin.finalizeLive_safe json dsp lenSecs n d).final hsighted

theorem Placed.seal (hb : Placed periodSecs d0 d b) {videoEnd : VideoEnd}
    (hact : entry.act = .finalized key videoEnd error) (hwindow : IsWindow periodSecs key)
    (hdrained : key ∉ b.rows.map PendingActivityRow.key)
    (hstep : activityStep json dsp entry d d') :
    Placed periodSecs d0 d' { b with history := b.history ++ [entry] } := by
  have hstored : ∀ file, stored file (b.history ++ [entry]) = stored file b.history :=
    fun file => stored_of_ne (by simp [hact])
  unfold activityStep at hstep
  rw [hact] at hstep
  rcases hstep with ⟨-, rfl⟩ | ⟨lenSecs, hanswers⟩
  · exact hb.of_same (fun _ _ _ => rfl) hstored fun _ hrow => hrow
  · have hsafe := safe_of_answers hanswers
    intro key' name hkey' hname
    rw [hstored]
    by_cases hindex : key.index = key'.index
    · have hkeys := hwindow.eq hkey' hindex
      subst hkeys
      refine (hb key name hkey' hname).seal (fun row hrow hfile => ?_) hname hsafe
      exact hdrained (List.mem_map.mpr ⟨row, hrow, congrArg Prod.fst hfile⟩)
    · exact (hb key' name hkey' hname).seal_other hindex hsafe

/-- A step of the engine and its calls on the disk. -/
theorem RowStep.placed (h : RowStep b b') (hordered : Ordered b)
    (hb : ∀ d, Replays (activityStep json dsp) b.history d0 d → Placed periodSecs d0 d b)
    (hwindowed : Windowed periodSecs b'.history)
    (hreplays : Replays (activityStep json dsp) b'.history d0 d') : Placed periodSecs d0 d' b' := by
  cases h with
  | other hother =>
    obtain ⟨d, hbefore, hnew⟩ := replays_append.mp hreplays
    refine (hb d hbefore).of_same (sameActivity_of_replays hother hnew) (fun file => ?_)
      fun _ hrow => hrow
    exact stored_of_ne fun entry hentry row => (ne_of_isOther (hother entry hentry)).2 row none
  | created hact _ _ =>
    obtain ⟨d, hbefore, hstep⟩ := replays_append_one.mp hreplays
    unfold activityStep at hstep
    rw [hact] at hstep
    exact (hb d hbefore).of_same hstep (fun file => stored_of_ne (by simp [hact]))
      fun _ hrow => List.mem_append_left _ hrow
  | stored hact hrows =>
    obtain ⟨d, hbefore, hstep⟩ := replays_append_one.mp hreplays
    exact (hb d hbefore).store hordered hwindowed.of_append hact hrows hstep
  | unstored hact hrows =>
    obtain ⟨d, hbefore, hstep⟩ := replays_append_one.mp hreplays
    exact (hb d hbefore).fail hordered hwindowed.of_append hact hrows hstep
  | @finalized key _ _ entry hact hdrained =>
    obtain ⟨d, hbefore, hstep⟩ := replays_append_one.mp hreplays
    have hwindow : IsWindow periodSecs key :=
      hwindowed entry (List.mem_append_right _ List.mem_cons_self) key (by rw [hact]; rfl)
    exact (hb d hbefore).seal hact hwindow hdrained hstep

theorem RowStep.history (h : RowStep b b') : ∃ new, b'.history = b.history ++ new := by
  cases h with
  | _ => exact ⟨_, rfl⟩

/-- No call changes a sealed activity file. -/
theorem sealedKept_of_activityStep (h : activityStep json dsp entry d d') : SealedKept d d' := by
  intro index name node hname hnode
  unfold activityStep at h
  split at h
  · next row error _ =>
    obtain ⟨verdicts, _, rfl, _⟩ := h
    have hapart : Ends (fun _ => True) d
        (appendActivity row.key.index row.fileName (rowBytes row) row.committedLen)
        (Apart (.incomplete row.key.index) row.fileName d) :=
      (PlatformWin.appendActivity_spec d row.key.index row.fileName (rowBytes row)
        row.committedLen).mono (fun _ _ h => h.1) (fun _ _ h => h.1) fun _ h => h.1
    rw [hapart.final (fun _ _ => trivial) _ _ (by simp)]
    exact hnode
  · next key _ error _ =>
    rcases h with ⟨-, rfl⟩ | ⟨lenSecs, hanswers⟩
    · exact hnode
    · have hsafe := safe_of_answers hanswers
      by_cases hindex : index = key.index
      · subst hindex
        exact hsafe.sealed_kept hname hnode
      obtain ⟨rest, hcustody⟩ := hsafe
      have hrest : rest ≠ some (.sealed index) := by
        intro heq
        rcases hcustody.place with hplace | ⟨-, hfresh⟩
        · rw [heq] at hplace
          cases hplace
        · obtain ⟨q, hq, -⟩ := hfresh _ heq
          cases hq
      have hsame := hcustody.others (.sealed index) (by simp [hindex]) (by simp) hrest
      simpa [node?, hsame] using hnode
  · rw [h _ _ hname]
    exact hnode

theorem sealedKept_of_replays {history : List Entry}
    (h : Replays (activityStep json dsp) history d d') : SealedKept d d' := by
  induction history generalizing d with
  | nil =>
    cases h
    exact fun _ _ _ _ hnode => hnode
  | cons entry history ih =>
    obtain ⟨d1, hstep, hrest⟩ := h
    intro index name node hname hnode
    exact ih hrest index name node hname
      (sealedKept_of_activityStep hstep index name node hname hnode)

end Disk

/-! ## Windows -/

/-- The engine has its period, and names windows of it only. -/
structure Keyed (periodSecs : Nat) (s : Engine) : Prop where
  period : s.config.segmentSecs = periodSecs
  seals : ∀ key ∈ s.pendingSeals.map Prod.fst, IsWindow periodSecs key
  windows : Windowed periodSecs s.history

section Windows

variable {s s' : Engine} {periodSecs : Nat}

theorem isWindow_segmentFor (now periodSecs : Nat) :
    IsWindow periodSecs (segmentFor now periodSecs) := by
  show now / max periodSecs 1 * max periodSecs 1 =
    now / max periodSecs 1 * max periodSecs 1 / max periodSecs 1 * max periodSecs 1
  rw [Nat.mul_div_cancel _ (by omega)]

/-- What a step does to the windows: the segments it names and the ones that come to wait. -/
theorem Keyed.after (hs : Keyed periodSecs s) (hconfig : s'.config = s.config)
    (hseals : ∀ key ∈ s'.pendingSeals.map Prod.fst,
      key ∈ s.pendingSeals.map Prod.fst ∨ IsWindow periodSecs key)
    (hhistory : Adds (fun act => ∀ key, NamesKey key act → IsWindow periodSecs key) s s') :
    Keyed periodSecs s' := by
  obtain ⟨new, hnew, hkeys⟩ := hhistory
  refine ⟨by rw [hconfig]; exact hs.period, fun key hkey => ?_, ?_⟩
  · exact (hseals key hkey).elim (hs.seals key) id
  · rw [hnew]
    exact List.forall_mem_append.mpr ⟨hs.windows, hkeys⟩

theorem Keyed.of_same (hs : Keyed periodSecs s) (hconfig : s'.config = s.config := by rfl)
    (hseals : s'.pendingSeals = s.pendingSeals := by rfl)
    (hhistory : s'.history = s.history := by rfl) : Keyed periodSecs s' :=
  hs.after hconfig (fun _ hkey => .inl (hseals ▸ hkey)) (Adds.same hhistory)

theorem Level.keyed (h : Level (IsWindow periodSecs) s s') (hs : Keyed periodSecs s) :
    Keyed periodSecs s' := by
  refine hs.after h.path.sameSetup.config h.seals (Adds.mono h.history fun act hact key hkey => ?_)
  cases act with
  | created _ | finalized _ _ _ => exact hkey ▸ hact
  | _ => exact hkey.elim

theorem keyed_of_level {α : Type} {p : EngineProg α} (h : Stays (Level (IsWindow periodSecs)) p) :
    Preserves (Keyed periodSecs) p :=
  fun s hs => (h s).weaken fun _ _ hlevel => hlevel.keyed hs

theorem openCurrentSegment_keyed : Preserves (Keyed periodSecs) openCurrentSegment := by
  have hask : ∀ {α : Type} (field : Reading → α), Preserves (Keyed periodSecs) (ask field) :=
    fun field => keyed_of_level (ask_level field)
  refine (hask _).bind fun now => Preserves.get_bind fun _ _ => Preserves.get_bind fun s _ => ?_
  split
  · exact Preserves.pure ()
  refine Preserves.bind (Preserves.call fun _ _ hs => ?_) fun result => ?_
  · exact hs.after rfl (fun _ => .inl) (Adds.one rfl fun _ hkey => hkey.elim)
  cases result with
  | error detail => exact keyed_of_level (noteStorageFault_level detail)
  | ok dir =>
    refine Preserves.bind ?_ fun _ => keyed_of_level attemptClearStorage_level
    exact (hask _).bind fun _ => (hask _).bind fun _ => Preserves.bind
      (Preserves.modify fun _ hs => hs.of_same) fun _ => keyed_of_level flushActivityQueue_level

theorem serviceStorage_keyed : Preserves (Keyed periodSecs) serviceStorage := by
  have hretry : Preserves (Keyed periodSecs) retryStorage := by
    refine (keyed_of_level flushActivityQueue_level).bind fun _ => Preserves.get_bind fun s hs => ?_
    refine (keyed_of_level (retrySeals_level fun waiting hwaiting => ?_)).bind fun _ =>
      Preserves.get_bind fun _ _ => Preserves.onlyIf _ openCurrentSegment_keyed
    exact hs.seals waiting.1 (List.mem_map_of_mem hwaiting)
  refine Preserves.get_bind fun s _ => Preserves.onlyIf _ ((keyed_of_level (ask_level _)).bind
    fun now => (Preserves.onlyIf _ hretry).bind fun _ => Preserves.modify fun s hs => ?_)
  unfold Engine.settleStorage
  split
  · exact hs.of_same
  · split
    · exact hs.of_same
    · exact hs

end Windows

/-! ## Runs -/

/-- What the engine does besides: it makes no rows, stores none, and seals nothing. The segments
that wait for their seal are windows. -/
structure Elsewhere (s s' : Engine) : Prop where
  config : s'.config = s.config
  rows : s'.pendingActivityRows = s.pendingActivityRows
  lens : s'.committedActivityLens = s.committedActivityLens
  seals : ∀ key ∈ s'.pendingSeals.map Prod.fst,
    key ∈ s.pendingSeals.map Prod.fst ∨ IsWindow s.config.segmentSecs key
  history : Adds IsOther s s'

/-- One step of the engine that has to do with rows, or anything else. A segment is sealed that is
not open any more. -/
inductive ActivityStep (s s' : Engine) : Prop
  | append (row : ActivityRow) (h : Returns (appendActivityRow row) s s')
  | flush (h : Returns flushActivityQueue s s')
  | close (segment : OpenSegment) (hwindow : IsWindow s.config.segmentSecs segment.key)
    (hclosed : s.currentSegment.map OpenSegment.key ≠ some segment.key)
    (h : Returns (sealSegment segment) s s')
  | service (h : Returns serviceStorage s s')
  | elsewhere (h : Elsewhere s s')

section Runs

variable {s s' : Engine} {periodSecs : Nat}

theorem ActivityStep.rowSteps (h : ActivityStep s s') :
    ReflTransGen RowStep (book s) (book s') := by
  cases h with
  | append row h =>
    exact (h.of_runs (appendActivityRow_level (K := fun _ => True) row trivial)).path.rowSteps
  | flush h => exact (h.of_runs (flushActivityQueue_path s)).rowSteps
  | close segment _ hclosed h =>
    exact (h.of_runs (sealSegment_level (K := fun _ => True) segment hclosed trivial)).path.rowSteps
  | service h => exact (h.of_runs (serviceStorage_path s)).rowSteps
  | elsewhere h => exact .single (rowStep_adds h.rows h.lens h.history)

theorem ActivityStep.keyed (h : ActivityStep s s') (hs : Keyed periodSecs s) :
    Keyed periodSecs s' := by
  cases h with
  | append row h =>
    have hkey := isWindow_segmentFor (row.ts / 1000) s.config.segmentSecs
    exact (h.of_runs (appendActivityRow_level row (hs.period ▸ hkey))).keyed hs
  | flush h => exact (h.of_runs (flushActivityQueue_level s)).keyed hs
  | close segment hwindow hclosed h =>
    exact (h.of_runs (sealSegment_level segment hclosed (hs.period ▸ hwindow))).keyed hs
  | service h => exact h.of_runs (serviceStorage_keyed s hs)
  | elsewhere h =>
    refine hs.after h.config (hs.period ▸ h.seals) (Adds.mono h.history fun act hact key hkey => ?_)
    cases act with
    | created _ | finalized _ _ _ => exact hact.elim
    | _ => exact hkey.elim

section New

variable (config : EngineConfig) (deferred : List SegmentKey) (artifactId : String)

theorem new_rows : (Engine.new config deferred artifactId).pendingActivityRows = [] ∧
    (Engine.new config deferred artifactId).committedActivityLens = (fun _ => 0) ∧
    (Engine.new config deferred artifactId).config = config := by
  unfold Engine.new
  dsimp only
  split <;> exact ⟨rfl, rfl, rfl⟩

theorem ordered_new : Ordered ⟨[], fun _ => 0, []⟩ :=
  ⟨fun _ => rfl, fun _ => rfl, fun _ _ _ hsplit => absurd hsplit.symm (by simp),
    List.forall_mem_nil _, List.forall_mem_nil _⟩

theorem keyed_new (hdeferred : ∀ key ∈ deferred, IsWindow config.segmentSecs key) :
    Keyed config.segmentSecs (Engine.new config deferred artifactId) := by
  refine ⟨by rw [(new_rows config deferred artifactId).2.2], fun key hkey => ?_, ?_⟩
  · exact hdeferred key ((mem_new_pendingSeals config deferred artifactId).mp hkey)
  · rw [new_history]
    exact fun _ hentry => absurd hentry (by simp)

end New

/-- The rows are in order, and on the disk they are where they should be. -/
structure Tracked {S : Type} (json : SegmentJson) (dsp : Dsp S) (periodSecs : Nat)
    (d0 : Disk Place) (b : Book) : Prop where
  ordered : Ordered b
  placed : ∀ d, Replays (activityStep json dsp) b.history d0 d → Placed periodSecs d0 d b

section Tracked

variable {S : Type} {json : SegmentJson} {dsp : Dsp S} {d0 d : Disk Place} {b b' : Book}

/-- The windows of a later history are those of an earlier one, and more. -/
theorem windowed_of_rowSteps (h : ReflTransGen RowStep b b')
    (hwindowed : Windowed periodSecs b'.history) : Windowed periodSecs b.history := by
  induction h with
  | refl => exact hwindowed
  | tail _ hstep ih =>
    obtain ⟨new, hnew⟩ := hstep.history
    rw [hnew] at hwindowed
    exact ih hwindowed.of_append

theorem tracked_of_rowSteps (h : ReflTransGen RowStep b b')
    (hwindowed : Windowed periodSecs b'.history) (hb : Tracked json dsp periodSecs d0 b) :
    Tracked json dsp periodSecs d0 b' := by
  induction h with
  | refl => exact hb
  | tail hsteps hstep ih =>
    have hbefore := ih (windowed_of_rowSteps (.single hstep) hwindowed)
    exact ⟨hstep.ordered hbefore.ordered,
      fun _ => hstep.placed hbefore.ordered hbefore.placed hwindowed⟩

/-- What a run keeps. -/
theorem tracked_of_run (hrun : ReflTransGen ActivityStep s s') (hkeyed : Keyed periodSecs s)
    (hs : Tracked json dsp periodSecs d0 (book s)) :
    Keyed periodSecs s' ∧ Tracked json dsp periodSecs d0 (book s') := by
  induction hrun with
  | refl => exact ⟨hkeyed, hs⟩
  | tail _ hstep ih =>
    have hkeyed' := hstep.keyed ih.1
    exact ⟨hkeyed', tracked_of_rowSteps hstep.rowSteps hkeyed'.windows ih.2⟩

/-- A file with bytes assigned to it was named in a row that the engine created. -/
theorem created_of_assigned {file : SegmentKey × String} {history : List Entry}
    (h : assigned file history ≠ []) :
    ∃ entry ∈ history, ∃ row, entry.act = .created row ∧ rowFile row = file := by
  obtain ⟨entry, hentry, hbytes⟩ : ∃ entry ∈ history, assignedBy file entry ≠ [] := by
    simpa [assigned, List.flatMap_eq_nil_iff] using h
  refine ⟨entry, hentry, ?_⟩
  unfold assignedBy at hbytes
  split at hbytes
  · next row hact =>
    refine ⟨row, hact, ?_⟩
    by_contra hne
    exact hbytes (if_neg hne)
  · exact absurd rfl hbytes

end Tracked

/-- The file is in one place of its segment, and holds these bytes. If the segment had no file of
that name at first, its directories have nothing else under the name. -/
inductive StoredOnce (d0 d : Disk Place) (key : SegmentKey) (name : String) (bytes : List UInt8) :
    Prop
  | incomplete (mtime : Nat)
    (hnode : node? d (.incomplete key.index) name = some (.file bytes mtime))
    (halone : IsNew d0 key name → Blank d (.sealed key.index) name)
  | sealed (mtime : Nat) (hnode : node? d (.sealed key.index) name = some (.file bytes mtime))
    (halone : Blank d (.incomplete key.index) name)
  /-- A seal that found both directories set one aside. -/
  | aside (q : String) (mtime : Nat)
    (hnode : node? d (.quarantine q) name = some (.file bytes mtime))
    (halone : Blank d (.incomplete key.index) name)
    (hnew : IsNew d0 key name → Blank d (.sealed key.index) name)

theorem storedOnce_of_filed {d0 d : Disk Place} {name : String} {bytes : List UInt8} {clean : Prop}
    (h : Filed d key.index name bytes clean (IsNew d0 key name)) (hclean : clean)
    (hbytes : bytes ≠ []) : StoredOnce d0 d key name bytes := by
  cases h with
  | unwritten hstored _ => exact absurd hstored hbytes
  | live junk mtime hnode hjunk halone =>
    rw [hjunk hclean, List.append_nil] at hnode
    exact .incomplete mtime hnode halone
  | sealed mtime hnode _ hblank => exact .sealed mtime hnode hblank
  | aside q mtime hnode _ hblank halone => exact .aside q mtime hnode hblank halone

/-- Whatever prefix a failed append left behind: once no row is queued, the file of every row has
exactly the lines assigned to it, in the order of their creation; and an activity file of a sealed
directory stays as it is from then on. -/
theorem activity_rows_stored_once {S : Type} (json : SegmentJson) (dsp : Dsp S)
    (config : EngineConfig) (deferred : List SegmentKey) (artifactId : String) (s : Engine)
    (d0 d : Disk Place) (hdeferred : ∀ key ∈ deferred, IsWindow config.segmentSecs key)
    (hrun : ReflTransGen ActivityStep (Engine.new config deferred artifactId) s)
    (hdisk : Replays (activityStep json dsp) s.history d0 d) :
    (s.pendingActivityRows = [] → ∀ key name, assigned (key, name) s.history ≠ [] →
      StoredOnce d0 d key name (assigned (key, name) s.history)) ∧
    ∀ before after d1, s.history = before ++ after →
      Replays (activityStep json dsp) before d0 d1 → Replays (activityStep json dsp) after d1 d →
      SealedKept d1 d := by
  have htracked0 : Tracked json dsp config.segmentSecs d0
      (book (Engine.new config deferred artifactId)) := by
    obtain ⟨hrows, hlens, -⟩ := new_rows config deferred artifactId
    rw [book, hrows, hlens, new_history]
    refine ⟨ordered_new, fun d hreplays => ?_⟩
    cases hreplays
    exact fun _ _ _ _ => .unwritten rfl fun hnew =>
      ⟨PlatformWin.blank_of_none hnew.1, PlatformWin.blank_of_none hnew.2⟩
  obtain ⟨hkeyed, htracked⟩ :=
    tracked_of_run hrun (keyed_new config deferred artifactId hdeferred) htracked0
  refine ⟨fun hempty key name hbytes => ?_, fun before after d1 _ _ hafter => ?_⟩
  · obtain ⟨entry, hentry, row, hact, hfile⟩ := created_of_assigned hbytes
    obtain ⟨rfl, rfl⟩ : row.key = key ∧ row.fileName = name := Prod.mk.inj hfile
    have hwindow : IsWindow config.segmentSecs row.key :=
      hkeyed.windows entry hentry row.key (by rw [hact]; rfl)
    have hname : IsActivity row.fileName := htracked.ordered.named entry hentry row hact
    -- nothing is queued, so what was assigned was stored
    have hstored := htracked.ordered.rows (row.key, row.fileName)
    rw [show (book s).rows = [] from hempty, show queuedFor _ [] = [] from rfl,
      List.append_nil] at hstored
    rw [show assigned _ s.history = _ from hstored] at hbytes ⊢
    refine storedOnce_of_filed
      (htracked.placed d hdisk row.key row.fileName hwindow hname) ?_ hbytes
    rw [show (book s).rows = [] from hempty]
    exact List.forall_mem_nil _
  · exact sealedKept_of_replays hafter

end Runs

def tornRow : Engine :=
  (appendActivityRow ⟨300000, some "a\n"⟩).final
    (List.replicate 4 { Reading.quiet with error := some ⟨.writeFailed, "full"⟩ })
    (Engine.new {} [] "a")

/-- The row is tried again. -/
def rowStored : Engine := flushActivityQueue.final [] tornRow

def rowName : String := "000500_300_a_desktop_activity.jsonl"

def rowAppend : SegProg Unit := appendActivity 1 rowName [97, 10] 0

/-- The first append writes one byte of two, and cannot take it back. -/
def tornDisk : Disk Place :=
  rowAppend.final (List.replicate 6 default ++ [⟨.fail 1, false, 0⟩, ⟨.fail 0, false, 0⟩]) ∅

theorem tornDisk_replays : Replays (activityStep (PlatformWin.codecOf []) PlatformWin.rawDsp)
    rowStored.history ∅ (rowAppend.final [] tornDisk) := by
  have hacts : rowStored.history.map Entry.act =
      [.created ⟨⟨300, 1⟩, rowName, "a\n", 0⟩,
        .appended ⟨⟨300, 1⟩, rowName, "a\n", 0⟩ (some "full"),
        .appended ⟨⟨300, 1⟩, rowName, "a\n", 0⟩ none] := by
    decide +kernel
  have hbytes : rowBytes ⟨⟨300, 1⟩, rowName, "a\n", 0⟩ = [97, 10] := by decide +kernel
  have hreplays : Replays (fun act => activityStep (PlatformWin.codecOf []) PlatformWin.rawDsp
      ⟨{}, false, act, none, none, []⟩) (rowStored.history.map Entry.act) ∅
      (rowAppend.final [] tornDisk) := by
    rw [hacts]
    refine ⟨∅, fun _ _ _ => rfl, tornDisk, ?_, _, ?_, rfl⟩
    · simp only [activityStep, hbytes]
      exact ⟨_, fun _ _ => trivial, rfl, .failed, by decide +kernel⟩
    · simp only [activityStep, hbytes]
      exact ⟨[], fun _ _ => trivial, rfl, by decide +kernel⟩
  exact replays_map.mp hreplays

/-- The first append left half a row. The flush stores it once. -/
theorem activity_rows_stored_once_torn :
    node? tornDisk (.incomplete 1) rowName = some (.file [97] 0) ∧
      StoredOnce ∅ (rowAppend.final [] tornDisk) ⟨300, 1⟩ rowName [97, 10] := by
  have hfirst : Returns (appendActivityRow ⟨300000, some "a\n"⟩) (Engine.new {} [] "a") tornRow :=
    ⟨_, by decide +kernel, rfl⟩
  have hsecond : Returns flushActivityQueue tornRow rowStored := ⟨[], by decide +kernel, rfl⟩
  have hassigned : assigned (⟨300, 1⟩, rowName) rowStored.history = [97, 10] := by decide +kernel
  have hstored := (activity_rows_stored_once _ _ {} [] "a" rowStored ∅ _ (by simp)
    (.tail (.single (.append _ hfirst)) (.flush hsecond)) tornDisk_replays).1 (by decide +kernel)
    ⟨300, 1⟩ rowName (by rw [hassigned]; simp)
  rw [hassigned] at hstored
  exact ⟨by decide +kernel, hstored⟩

end SolstoneWindows.Proofs.CaptureEngine
