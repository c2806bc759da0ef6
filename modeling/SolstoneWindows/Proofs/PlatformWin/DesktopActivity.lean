import SolstoneWindows.PlatformWin.DesktopActivity

/-!
# What the search for a page address reads

`Contained` is the statement: both passes together examine at most 400 nodes, none below depth 24
and none below a password node or a document; the values of at most one node are read, and that
node is a document of the raw view that is a control element and no password; an address that is
returned is what those values normalize to; and if the tree answered an error to anything it was
asked, the search returns nothing.

The proof follows the recursion. `Kept` is the invariant of the shared state and `Outcome` what a
call adds to it, one clause for each way to exit. The count is below 400 at every call, so
`2 * (400 - count)` nested calls are enough.
-/

set_option autoImplicit false

namespace SolstoneWindows.Proofs.PlatformWin.DesktopActivity

open Lib.Effect
open SolstoneWindows.PlatformWin.DesktopActivity

section

variable {N : Type} (tree : UiaNode N)

/-! ## The walked tree -/

/-- A node that the walk may go below: no password, and no document. -/
def Plain (node : N) : Prop :=
  tree.isPassword node = .ok false ∧
    ∃ type, tree.controlType node = .ok type ∧ type ≠ UIA_DOCUMENT_CONTROL_TYPE_ID

/-- `node` is reached from `root` over first children and next siblings. `path` are the nodes above
it, and each of them is plain. -/
inductive Reached (root : N) : List N → N → Prop
  | root : Reached root [] root
  | child {path : List N} {parent child : N} (h : Reached root path parent)
      (hplain : Plain tree parent) (hchild : tree.firstChild parent = .ok (some child)) :
      Reached root (path ++ [parent]) child
  | sibling {path : List N} {parent child next : N} (h : Reached root (path ++ [parent]) child)
      (hnext : tree.nextSibling child = .ok (some next)) : Reached root (path ++ [parent]) next

variable {node : N} {path : List N}

variable {tree} in
theorem Reached.plain {root : N} (h : Reached tree root path node) :
    ∀ ancestor ∈ path, Plain tree ancestor := by
  induction h with
  | root => simp
  | child _ hplain _ ih =>
    exact List.forall_mem_append.mpr ⟨ih, List.forall_mem_singleton.mpr hplain⟩
  | sibling _ _ ih => exact ih

/-- A document whose values may be read. -/
structure Readable (root : N) (path : List N) (node : N) : Prop where
  reached : Reached tree root path node
  notPassword : tree.isPassword node = .ok false
  document : tree.controlType node = .ok UIA_DOCUMENT_CONTROL_TYPE_ID
  control : tree.isControlElement node = .ok true

/-! ## The trace -/

def isExamined : Asked N → Bool
  | .examined _ _ _ => true
  | _ => false

def isRead : Asked N → Bool
  | .value _ _ _ => true
  | .legacyValue _ _ _ => true
  | _ => false

/-- The values that were read, in order. -/
def reads (w : Walk N) : List (Asked N) := w.trace.filter isRead

/-- How many nodes were examined. -/
def examinedCount (w : Walk N) : Nat := w.trace.countP isExamined

def rootOf (controlRoot : N) (rawRoot : Option N) : View → Option N
  | .control => some controlRoot
  | .raw => rawRoot

/-- Only what may be examined was examined. -/
structure Kept (roots : View → Option N) (w : Walk N) : Prop where
  counted : w.count = examinedCount w
  bounded : w.count ≤ 400
  examined : ∀ view path node, .examined view path node ∈ w.trace →
    path.length ≤ 24 ∧ ∃ root, roots view = some root ∧ Reached tree root path node

/-- A fact, or a step to a child or a sibling, that the tree answers with an error. -/
def Unavailable : Asked N → Prop
  | .fact .controlType node => ∃ e, tree.controlType node = .error e
  | .fact .isPassword node => ∃ e, tree.isPassword node = .error e
  | .fact .isControlElement node => ∃ e, tree.isControlElement node = .error e
  | .fact .firstChild node => ∃ e, tree.firstChild node = .error e
  | .fact .nextSibling node => ∃ e, tree.nextSibling node = .error e
  | _ => False

/-- Nothing was read yet, and every answer was there. -/
structure Quiet (w : Walk N) : Prop where
  unread : reads w = []
  available : ∀ asked ∈ w.trace, ¬ Unavailable tree asked

/-- The values of one document of the raw view were read, or some of them, or none. -/
def ReadsOne (roots : View → Option N) (w : Walk N) : Prop :=
  reads w = [] ∨ ∃ root path node, roots .raw = some root ∧ Readable tree root path node ∧
    (reads w = [.value .raw path node] ∨
      reads w = [.value .raw path node, .legacyValue .raw path node])

/-- The node's values normalize to `url`, and to nothing else. -/
def Gives (normalizeUrl : String → Option String) (node : N) (url : String) : Prop :=
  ∃ value legacy, (tree.valueProperty node).bind normalizeUrl = value ∧
    (tree.legacyValueProperty node).bind normalizeUrl = legacy ∧
    (value = some url ∧ (legacy = some url ∨ legacy = none) ∨ value = none ∧ legacy = some url)

/-- The address was read from one document. -/
def Found (normalizeUrl : String → Option String) (roots : View → Option N) (w : Walk N)
    (url : String) : Prop :=
  ∃ root path node, roots .raw = some root ∧ Readable tree root path node ∧
    reads w = [.value .raw path node, .legacyValue .raw path node] ∧
    Gives tree normalizeUrl node url ∧ ∀ asked ∈ w.trace, ¬ Unavailable tree asked

/-- What a call leaves, by the way it exits. -/
structure Outcome (normalizeUrl : String → Option String) (roots : View → Option N)
    (readValues : Bool) (result : WalkResult) (w : Walk N) : Prop where
  kept : Kept tree roots w
  quiet : result = .notFound ∨ result = .documentReady → Quiet tree w
  one : ReadsOne tree roots w
  found : ∀ url, result = .found url → Found tree normalizeUrl roots w url
  unread : readValues = false → reads w = [] ∧ ∀ url, result ≠ .found url

/-! ## The steps of the walk -/

section Steps

variable (normalizeUrl : String → Option String) {roots : View → Option N} {readValues : Bool}
  {w : Walk N}

/-- The walk goes on from `w` and ends as `Outcome` says, with at least the count it had. -/
abbrev Yields (roots : View → Option N) (readValues : Bool) (w : Walk N)
    (p : WalkProg N WalkResult) : Prop :=
  Runs (fun _ => True) w p
    (fun result w' => Outcome tree normalizeUrl roots readValues result w' ∧ w.count ≤ w'.count)
    (fun _ _ => False) fun _ => False

variable {tree} {normalizeUrl}

/-- Note something that is neither a node examined nor, if it is a read, out of place. -/
theorem Kept.note {asked : Asked N} (h : Kept tree roots w) (hasked : isExamined asked = false) :
    Kept tree roots { w with trace := w.trace ++ [asked] } := by
  refine ⟨?_, h.bounded, ?_⟩
  · show w.count = (w.trace ++ [asked]).countP isExamined
    rw [List.countP_append, h.counted]
    simp [examinedCount, hasked]
  · intro view path node hmem
    rcases List.mem_append.mp hmem with hmem | hmem
    · exact h.examined view path node hmem
    · rw [← List.mem_singleton.mp hmem] at hasked
      cases hasked

/-- What one more note adds to what was read. -/
theorem Quiet.reads_note {w' : Walk N} (h : Quiet tree w) (asked : Asked N)
    (htrace : w'.trace = w.trace ++ [asked]) : reads w' = [asked].filter isRead := by
  rw [reads, htrace, List.filter_append, show w.trace.filter isRead = [] from h.unread]
  rfl

section

variable (hkept : Kept tree roots w)

include hkept

/-- An exit that read nothing and missed nothing. -/
theorem Outcome.of_quiet {result : WalkResult} (hquiet : Quiet tree w)
    (hresult : ∀ url, result ≠ .found url) :
    Outcome tree normalizeUrl roots readValues result w where
  kept := hkept
  quiet _ := hquiet
  one := .inl hquiet.unread
  found url h := absurd h (hresult url)
  unread _ := ⟨hquiet.unread, hresult⟩

theorem pure_yields {result : WalkResult} (hquiet : Quiet tree w)
    (hresult : ∀ url, result ≠ .found url) :
    Yields tree normalizeUrl roots readValues w (pure result) :=
  Runs.pure ⟨.of_quiet hkept hquiet hresult, Nat.le_refl _⟩

/-- The walk may stop wherever nothing was read out of place. -/
theorem stop_yields (hone : ReadsOne tree roots w) (hunread : readValues = false → reads w = []) :
    Yields tree normalizeUrl roots readValues w (pure .stop) := by
  refine Runs.pure ⟨⟨hkept, ?_, hone, ?_, fun h => ⟨hunread h, ?_⟩⟩, Nat.le_refl _⟩
  · rintro (h | h)
    · cases h
    · cases h
  · intro url h
    cases h
  · intro url h
    cases h

/-- Look at the clock, and stop when it is late. -/
theorem late_yields {p : WalkProg N WalkResult} (hone : ReadsOne tree roots w)
    (hunread : readValues = false → reads w = [])
    (hp : Yields tree normalizeUrl roots readValues w p) :
    Yields tree normalizeUrl roots readValues w (isLate >>= fun late =>
      if late then pure .stop else p) := by
  refine Runs.bind (R := fun _ w' => w' = w) (Runs.call trivial fun _ _ => rfl) ?_
  intro late w' h
  subst h
  split
  · exact stop_yields hkept hone hunread
  · exact hp

/-- Ask for a fact, and stop when it is not available. -/
theorem ask_yields {α : Type} {fact : Fact} {answer : N → Except UiaFactUnavailable α}
    {f : Except UiaFactUnavailable α → WalkProg N WalkResult}
    (hfact : Unavailable tree (.fact fact node) → ∃ e, answer node = .error e)
    (hquiet : Quiet tree w) (hstop : ∀ e, f (.error e) = pure .stop)
    (hok : ∀ a w', answer node = .ok a → w'.count = w.count → Kept tree roots w' →
      Quiet tree w' → Yields tree normalizeUrl roots readValues w' (f (.ok a))) :
    Yields tree normalizeUrl roots readValues w (ask fact node answer >>= f) := by
  refine Runs.bind (R := fun r w' => r = answer node ∧
    w' = { w with trace := w.trace ++ [.fact fact node] })
      (Runs.modify_bind (Runs.pure ⟨rfl, rfl⟩)) ?_
  rintro _ _ ⟨rfl, rfl⟩
  have hunread : reads { w with trace := w.trace ++ [.fact fact node] } = [] :=
    hquiet.reads_note (.fact fact node) rfl
  cases hanswer : answer node with
  | error e =>
    rw [hstop]
    exact stop_yields (hkept.note rfl) (.inl hunread) fun _ => hunread
  | ok a =>
    refine hok a _ hanswer rfl (hkept.note rfl) ⟨hunread, ?_⟩
    refine List.forall_mem_append.mpr ⟨hquiet.available, List.forall_mem_singleton.mpr ?_⟩
    intro hmissing
    obtain ⟨e, herror⟩ := hfact hmissing
    rw [hanswer] at herror
    cases herror

end

theorem judge_found {value legacy : Option String} {url : String}
    (h : judge normalizeUrl value legacy = .found url) :
    value.bind normalizeUrl = some url ∧
        (legacy.bind normalizeUrl = some url ∨ legacy.bind normalizeUrl = none) ∨
      value.bind normalizeUrl = none ∧ legacy.bind normalizeUrl = some url := by
  unfold judge at h
  cases hv : value.bind normalizeUrl with
  | none =>
    cases hl : legacy.bind normalizeUrl with
    | none =>
      rw [hv, hl] at h
      cases h
    | some l =>
      rw [hv, hl] at h
      cases h
      exact .inr ⟨rfl, rfl⟩
  | some v =>
    cases hl : legacy.bind normalizeUrl with
    | none =>
      rw [hv, hl] at h
      cases h
      exact .inl ⟨rfl, .inr rfl⟩
    | some l =>
      rw [hv, hl] at h
      dsimp only at h
      split at h
      · rename_i heq
        cases h
        exact .inl ⟨rfl, .inl (by rw [heq])⟩
      · cases h

theorem readDocument_yields {root : N} (hroot : roots .raw = some root)
    (hreadable : Readable tree root path node) (hkept : Kept tree roots w) (hquiet : Quiet tree w) :
    Yields tree normalizeUrl roots true w (readDocument tree normalizeUrl .raw path node) := by
  have hvalue : reads { w with trace := w.trace ++ [.value .raw path node] } =
      [.value .raw path node] := hquiet.reads_note (.value .raw path node) rfl
  have hboth : reads { w with
      trace := (w.trace ++ [.value .raw path node]) ++ [.legacyValue .raw path node] } =
      [.value .raw path node, .legacyValue .raw path node] := by
    rw [reads, List.filter_append]
    exact congrArg (· ++ [Asked.legacyValue .raw path node]) hvalue
  refine late_yields hkept (.inl hquiet.unread) (fun h => by cases h) ?_
  refine Runs.modify_bind ?_
  refine late_yields (hkept.note rfl)
    (.inr ⟨root, path, node, hroot, hreadable, .inl hvalue⟩) (fun h => by cases h) ?_
  refine Runs.modify_bind (Runs.pure ⟨⟨(hkept.note rfl).note rfl, ?_, ?_, ?_, ?_⟩, Nat.le_refl _⟩)
  · intro h
    unfold judge at h
    split at h
    · split at h <;> simp at h
    all_goals simp at h
  · exact .inr ⟨root, path, node, hroot, hreadable, .inr hboth⟩
  · intro url hurl
    refine ⟨root, path, node, hroot, hreadable, hboth, ⟨_, _, rfl, rfl, ?_⟩, ?_⟩
    · exact judge_found hurl
    · simp only [List.forall_mem_append, List.forall_mem_singleton]
      exact ⟨⟨hquiet.available, id⟩, id⟩
  · intro h
    cases h

/-- A node that was just examined. -/
theorem Kept.examine {view : View} {root : N} (h : Kept tree roots w)
    (hcount : w.count < 400) (hdepth : path.length ≤ 24) (hroot : roots view = some root)
    (hreached : Reached tree root path node) :
    Kept tree roots { w with
      count := w.count + 1
      trace := w.trace ++ [.examined view path node] } := by
  refine ⟨?_, hcount, ?_⟩
  · show w.count + 1 = (w.trace ++ [Asked.examined view path node]).countP isExamined
    rw [List.countP_append, h.counted]
    simp [examinedCount, isExamined]
  · intro view' path' node' hmem
    rcases List.mem_append.mp hmem with hmem | hmem
    · exact h.examined view' path' node' hmem
    · cases List.mem_singleton.mp hmem
      exact ⟨hdepth, root, hroot, hreached⟩

theorem Quiet.examine (h : Quiet tree w) (view : View) (path : List N) (node : N) :
    Quiet tree { w with
      count := w.count + 1
      trace := w.trace ++ [.examined view path node] } :=
  ⟨h.reads_note (.examined view path node) rfl,
    List.forall_mem_append.mpr ⟨h.available, List.forall_mem_singleton.mpr id⟩⟩

theorem walkDocument_yields {view : View} {root : N}
    (hview : readValues = true → view = .raw) (hroot : roots view = some root)
    (hreached : Reached tree root path node) (hpassword : tree.isPassword node = .ok false)
    (htype : tree.controlType node = .ok UIA_DOCUMENT_CONTROL_TYPE_ID)
    (hkept : Kept tree roots w) (hquiet : Quiet tree w) :
    Yields tree normalizeUrl roots readValues w
      (walkDocument tree normalizeUrl view path node readValues) := by
  unfold walkDocument
  refine ask_yields hkept id hquiet (fun _ => rfl) fun control w' hcontrol hcount hkept hquiet => ?_
  cases control with
  | false => exact pure_yields hkept hquiet (by simp)
  | true =>
    cases readValues with
    | false => exact pure_yields hkept hquiet (by simp)
    | true =>
      cases hview rfl
      exact readDocument_yields hroot ⟨hreached, hpassword, htype, hcontrol⟩ hkept hquiet

end Steps

/-! ## The walk -/

variable {calls depth : Nat}

section Walk

variable (normalizeUrl : String → Option String) {roots : View → Option N} {view : View} {root : N}
  {readValues : Bool}

/-- What holds when the walk comes to a node. -/
structure Entry (roots : View → Option N) (root : N) (depth : Nat) (path : List N) (node : N)
    (w : Walk N) : Prop where
  kept : Kept tree roots w
  quiet : Quiet tree w
  room : w.count < 400
  depth_eq : depth = path.length
  depth_le : depth ≤ 24
  reached : Reached tree root path node

/-- The state with the node examined. -/
def examine (view : View) (path : List N) (node : N) (w : Walk N) : Walk N :=
  { w with
    count := w.count + 1
    trace := w.trace ++ [.examined view path node] }

/-- As `Yields`, with a count that grew. -/
abbrev Advances (roots : View → Option N) (readValues : Bool) (w : Walk N)
    (p : WalkProg N WalkResult) : Prop :=
  Runs (fun _ => True) w p
    (fun result w' => Outcome tree normalizeUrl roots readValues result w' ∧ w.count < w'.count)
    (fun _ _ => False) fun _ => False

variable {tree} {normalizeUrl}

/-- A call of `walk_node`, when the loop over the children does as it should. -/
theorem walkNode_succ_advances (hview : readValues = true → view = .raw)
    (hroot : roots view = some root) {w : Walk N} (h : Entry tree roots root depth path node w)
    (hsiblings : ∀ child w', w'.count = w.count + 1 →
      Entry tree roots root (depth + 1) (path ++ [node]) child w' →
      Yields tree normalizeUrl roots readValues w'
        (walkSiblings tree normalizeUrl view readValues calls child (depth + 1) (path ++ [node]))) :
    Advances tree normalizeUrl roots readValues w
      (walkNode tree normalizeUrl view readValues (calls + 1) node depth path) := by
  have hkept : Kept tree roots (examine view path node w) :=
    h.kept.examine h.room (h.depth_eq ▸ h.depth_le) hroot h.reached
  have hquiet : Quiet tree (examine view path node w) := h.quiet.examine view path node
  -- The node itself is counted, so whatever follows may leave the count as it is.
  have advance : ∀ {p : WalkProg N WalkResult},
      Yields tree normalizeUrl roots readValues (examine view path node w) p →
      Runs (fun _ => True) (examine view path node w) p (fun result w' =>
        Outcome tree normalizeUrl roots readValues result w' ∧ w.count < w'.count)
        (fun _ _ => False) fun _ => False :=
    fun hp => hp.weaken fun _ _ ⟨hout, hle⟩ => ⟨hout, hle⟩
  refine Runs.modify_bind (Runs.get_bind (advance ?_))
  split
  · exact pure_yields hkept hquiet (by simp)
  refine late_yields hkept (.inl hquiet.unread) (fun _ => hquiet.unread) ?_
  refine ask_yields hkept id hquiet (fun _ => rfl) fun password w1 hpassword hw1 hkept hquiet => ?_
  cases password with
  | true =>
    refine ask_yields hkept id hquiet (fun _ => rfl) fun type w2 _ _ hkept hquiet => ?_
    dsimp only
    split <;> exact pure_yields hkept hquiet (by simp)
  | false =>
    refine ask_yields hkept id hquiet (fun _ => rfl) fun type w2 htype hw2 hkept hquiet => ?_
    dsimp only
    split
    · rename_i hdocument
      exact walkDocument_yields hview hroot h.reached hpassword (hdocument ▸ htype) hkept hquiet
    rename_i hdocument
    split
    · exact pure_yields hkept hquiet (by simp)
    rename_i hlimits
    refine late_yields hkept (.inl hquiet.unread) (fun _ => hquiet.unread) ?_
    refine ask_yields hkept id hquiet (fun _ => rfl) fun child w3 hchild hw3 hkept hquiet => ?_
    cases child with
    | none => exact pure_yields hkept hquiet (by simp)
    | some child =>
      have hplain : Plain tree node := ⟨hpassword, type, htype, hdocument⟩
      have hcount : w3.count = w.count + 1 := hw3.trans (hw2.trans hw1)
      have hroom : ¬ w.count + 1 ≥ 400 := fun hfull => hlimits (.inr hfull)
      refine hsiblings child w3 hcount
        ⟨hkept, hquiet, by omega, ?_, by omega, h.reached.child hplain hchild⟩
      simp [h.depth_eq]

/-- A call of the loop over siblings, when the calls it makes do as they should. -/
theorem walkSiblings_succ_yields {parent child : N}
    {w : Walk N} (h : Entry tree roots root depth (path ++ [parent]) child w)
    (hnode : Advances tree normalizeUrl roots readValues w
      (walkNode tree normalizeUrl view readValues calls child depth (path ++ [parent])))
    (hsiblings : ∀ sibling w', w.count < w'.count →
      Entry tree roots root depth (path ++ [parent]) sibling w' →
      Yields tree normalizeUrl roots readValues w'
        (walkSiblings tree normalizeUrl view readValues calls sibling depth (path ++ [parent]))) :
    Yields tree normalizeUrl roots readValues w
      (walkSiblings tree normalizeUrl view readValues (calls + 1) child depth
        (path ++ [parent])) := by
  refine hnode.bind ?_
  rintro result w' ⟨hout, hlt⟩
  -- Every exit leaves a count that grew.
  have widen : ∀ {p : WalkProg N WalkResult}, Yields tree normalizeUrl roots readValues w' p →
      Runs (fun _ => True) w' p (fun result w'' =>
        Outcome tree normalizeUrl roots readValues result w'' ∧ w.count ≤ w''.count)
        (fun _ _ => False) fun _ => False :=
    fun hp => hp.weaken fun _ _ ⟨hout, hle⟩ => ⟨hout, by omega⟩
  cases result with
  | found url | documentReady | stop => exact Runs.pure ⟨hout, Nat.le_of_lt hlt⟩
  | notFound =>
    have hquiet : Quiet tree w' := hout.quiet (.inl rfl)
    refine widen (Runs.get_bind ?_)
    split
    · exact pure_yields hout.kept hquiet (by simp)
    rename_i hroom
    refine late_yields hout.kept (.inl hquiet.unread) (fun _ => hquiet.unread) ?_
    refine ask_yields hout.kept id hquiet (fun _ => rfl) fun next w1 hnext hw1 hkept hquiet => ?_
    cases next with
    | none => exact pure_yields hkept hquiet (by simp)
    | some sibling =>
      exact hsiblings sibling w1 (by omega)
        ⟨hkept, hquiet, by omega, h.depth_eq, h.depth_le, h.reached.sibling hnext⟩

variable (tree normalizeUrl) in
/-- The two functions together, by induction on the calls they may nest. -/
theorem walk_yields (hview : readValues = true → view = .raw) (hroot : roots view = some root)
    (calls : Nat) : (∀ depth path node w, Entry tree roots root depth path node w →
      2 * (400 - w.count) ≤ calls + 1 →
      Advances tree normalizeUrl roots readValues w
        (walkNode tree normalizeUrl view readValues calls node depth path)) ∧
    ∀ depth path parent child w, Entry tree roots root depth (path ++ [parent]) child w →
      2 * (400 - w.count) ≤ calls →
      Yields tree normalizeUrl roots readValues w
        (walkSiblings tree normalizeUrl view readValues calls child depth (path ++ [parent])) := by
  induction calls with
  | zero =>
    refine ⟨fun depth path node w h hcalls => ?_, fun depth path parent child w h hcalls => ?_⟩ <;>
    · have := h.room
      omega
  | succ calls ih =>
    refine ⟨fun depth path node w h hcalls => ?_, fun depth path parent child w h hcalls => ?_⟩
    · refine walkNode_succ_advances hview hroot h fun child w' hcount hchild => ?_
      exact ih.2 (depth + 1) path node child w' hchild (by omega)
    · refine walkSiblings_succ_yields h (ih.1 _ _ _ w h (by omega)) ?_
      intro sibling w' hlt hsibling
      have := hsibling.room
      exact ih.2 depth path parent sibling w' hsibling (by omega)

end Walk

/-! ## Both passes -/

/-- What one search of the page address may do. -/
structure Contained (normalizeUrl : String → Option String) (controlRoot : N) (rawRoot : Option N)
    (result : Option String) (w : Walk N) : Prop where
  /-- Both passes together examine at most 400 nodes. -/
  bounded : examinedCount w ≤ 400
  /-- No node lies below depth 24, below a password node or below a document. -/
  examined : ∀ view path node, .examined view path node ∈ w.trace → path.length ≤ 24 ∧
    (∀ ancestor ∈ path, Plain tree ancestor) ∧
    ∃ root, rootOf controlRoot rawRoot view = some root ∧ Reached tree root path node
  /-- The values of at most one node are read, a document that shows in the raw view. -/
  one : ReadsOne tree (rootOf controlRoot rawRoot) w
  /-- An address is what the values of that document normalize to. -/
  found : ∀ url, result = some url → Found tree normalizeUrl (rootOf controlRoot rawRoot) w url
  /-- An error that the tree answers leaves the search without a result. -/
  unavailable : ∀ asked ∈ w.trace, Unavailable tree asked → result = none

section Views

variable (normalizeUrl : String → Option String) (controlRoot : N) (rawRoot : Option N)

/-- The search returns, and keeps to what it may read. -/
abbrev Searches (w : Walk N) (p : WalkProg N (Option String)) : Prop :=
  Runs (fun _ => True) w p (Contained tree normalizeUrl controlRoot rawRoot) (fun _ _ => False)
    fun _ => False

variable {tree normalizeUrl controlRoot rawRoot}

theorem Contained.of_kept {w : Walk N} {result : Option String}
    (hkept : Kept tree (rootOf controlRoot rawRoot) w)
    (hone : ReadsOne tree (rootOf controlRoot rawRoot) w) (hfound : ∀ url, result = some url →
      Found tree normalizeUrl (rootOf controlRoot rawRoot) w url) :
    Contained tree normalizeUrl controlRoot rawRoot result w where
  bounded := hkept.counted ▸ hkept.bounded
  examined view path node hmem := by
    obtain ⟨hdepth, root, hroot, hreached⟩ := hkept.examined view path node hmem
    exact ⟨hdepth, hreached.plain, root, hroot, hreached⟩
  one := hone
  found := hfound
  unavailable asked hmem hmissing := by
    cases result with
    | none => rfl
    | some url =>
      obtain ⟨_, _, _, _, _, _, _, havailable⟩ := hfound url rfl
      exact absurd hmissing (havailable asked hmem)

/-- An exit without a result. -/
theorem none_contained {w : Walk N} (hkept : Kept tree (rootOf controlRoot rawRoot) w)
    (hone : ReadsOne tree (rootOf controlRoot rawRoot) w) :
    Searches tree normalizeUrl controlRoot rawRoot w (pure none) :=
  Runs.pure (.of_kept hkept hone fun url h => by cases h)

/-- The second pass. -/
theorem rawPass_contained {root : N} {w : Walk N} (hroot : rawRoot = some root)
    (hkept : Kept tree (rootOf controlRoot rawRoot) w) (hquiet : Quiet tree w)
    (hroom : w.count < 400)
    (hcalls : WALK_CALLS ≤ calls) :
    Searches tree normalizeUrl controlRoot rawRoot w (do
      let result ← walkNode tree normalizeUrl .raw true calls root 0 []
      match result with
      | .found url => pure (some url)
      | _ => pure none) := by
  have hentry : Entry tree (rootOf controlRoot rawRoot) root 0 [] root w :=
    ⟨hkept, hquiet, hroom, rfl, Nat.zero_le 24, .root⟩
  have hview : true = true → View.raw = .raw := fun _ => rfl
  have hwalk := (walk_yields tree normalizeUrl hview hroot calls).1 0 [] root w hentry
    (by simp only [WALK_CALLS] at hcalls; omega)
  refine hwalk.bind ?_
  rintro result w' ⟨hout, _⟩
  cases result with
  | found url =>
    refine Runs.pure (.of_kept hout.kept hout.one ?_)
    intro url' h
    cases h
    exact hout.found url rfl
  | _ => exact none_contained hout.kept hout.one

variable (tree normalizeUrl controlRoot rawRoot)

theorem walkUiaViews_runs (hcalls : WALK_CALLS ≤ calls) :
    Searches tree normalizeUrl controlRoot rawRoot {}
      (walkUiaViews tree normalizeUrl calls controlRoot rawRoot) := by
  have hentry : Entry tree (rootOf controlRoot rawRoot) controlRoot 0 [] controlRoot {} :=
    ⟨⟨rfl, Nat.zero_le 400, nofun⟩, ⟨rfl, nofun⟩, Nat.zero_lt_succ 399, rfl, Nat.zero_le 24, .root⟩
  have hview : false = true → View.control = .raw := fun h => by cases h
  have hwalk := (walk_yields tree normalizeUrl hview rfl calls).1 0 [] controlRoot {} hentry
    (by simp only [WALK_CALLS] at hcalls; show 2 * 400 ≤ calls + 1; omega)
  refine hwalk.bind ?_
  rintro discovered w ⟨hout, _⟩
  have hnone : Searches tree normalizeUrl controlRoot rawRoot w (pure none) :=
    none_contained hout.kept hout.one
  split
  · exact hnone
  rename_i hstop
  -- The first pass reads nothing, so it found nothing either.
  have hquiet : Quiet tree w := by
    cases discovered with
    | found url => exact absurd rfl ((hout.unread rfl).2 url)
    | notFound => exact hout.quiet (.inl rfl)
    | documentReady => exact hout.quiet (.inr rfl)
    | stop => exact absurd rfl hstop
  refine Runs.get_bind ?_
  split
  · exact hnone
  refine Runs.bind (R := fun _ w' => w' = w) (Runs.call trivial fun _ _ => rfl) ?_
  intro late w' h
  subst h
  split
  · exact hnone
  cases rawRoot with
  | none => exact hnone
  | some root =>
    exact rawPass_contained rfl hout.kept hquiet (by omega) hcalls

/-- For every tree, whatever the clock shows, the search returns and keeps to what it may read. -/
theorem walkUiaViews_contained (extra : Nat) (clock : List Nat) : ∃ result rest w,
      walkUiaViews tree normalizeUrl (WALK_CALLS + extra) controlRoot rawRoot clock {} =
        (.ok result, rest, w) ∧
      Contained tree normalizeUrl controlRoot rawRoot result w := by
  have hruns := walkUiaViews_runs tree normalizeUrl controlRoot rawRoot
    (Nat.le_add_right WALK_CALLS extra)
  obtain ⟨result, hresult, hcontained⟩ := hruns.exists_ok fun d (_ : d ∈ clock) => trivial
  exact ⟨result, _, _, Prod.ext hresult rfl, hcontained⟩

end Views

end

end SolstoneWindows.Proofs.PlatformWin.DesktopActivity
