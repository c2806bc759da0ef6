import SolstoneWindows.Lib.Effect

/-!
# Reading a page address from the accessibility tree

`walk_uia_views` of `crates/platform-win/src/desktop_activity.rs`. A node is only what it answers,
so the tree is a type of nodes with arbitrary answers: it may be endless, or come back to a node it
has shown before. `Instant::elapsed` is the next decision of the outside, in nanoseconds.

`walk_node` calls itself, and its loop over siblings ends only because the count of nodes does. The
two functions take the number of nested calls they may make; `WALK_CALLS` is enough for every tree,
and running out of it is the failure of the program.

`trace` is what was asked of the tree, noted as it is asked, whatever the answer. No function reads
it.
-/

set_option autoImplicit false

namespace SolstoneWindows.PlatformWin.DesktopActivity

open Lib.Effect

/-- A fact that the accessibility tree did not give. -/
inductive UiaFactUnavailable where
  | mk
  deriving DecidableEq

/-- What the nodes of an accessibility tree answer. -/
structure UiaNode (N : Type) where
  controlType : N → Except UiaFactUnavailable Int
  isPassword : N → Except UiaFactUnavailable Bool
  isControlElement : N → Except UiaFactUnavailable Bool
  valueProperty : N → Option String
  legacyValueProperty : N → Option String
  firstChild : N → Except UiaFactUnavailable (Option N)
  nextSibling : N → Except UiaFactUnavailable (Option N)

def UIA_DOCUMENT_CONTROL_TYPE_ID : Int := 50030

inductive WalkResult where
  | found (url : String)
  | notFound
  | documentReady
  | stop
  deriving DecidableEq

/-- The two views of the tree. -/
inductive View where
  | control
  | raw
  deriving DecidableEq

/-- The answers of a node that may be unavailable. -/
inductive Fact where
  | controlType
  | isPassword
  | isControlElement
  | firstChild
  | nextSibling
  deriving DecidableEq

/-- What was asked of the tree. A node that is examined or read comes with the nodes above it on the
walk, from the root down. -/
inductive Asked (N : Type) where
  | examined (view : View) (path : List N) (node : N)
  | fact (fact : Fact) (node : N)
  | value (view : View) (path : List N) (node : N)
  | legacyValue (view : View) (path : List N) (node : N)
  deriving DecidableEq

/-- The state both passes share. -/
structure Walk (N : Type) where
  count : Nat := 0
  trace : List (Asked N) := []

abbrev WalkProg (N α : Type) : Type := Prog Nat (Walk N) Unit α

/-- The time both passes have. -/
def DEADLINE : Nat := 2000000000

section Walk

variable {N : Type} (tree : UiaNode N) (normalizeUrl : String → Option String)

/-- `start.elapsed() >= deadline`. -/
def isLate : WalkProg N Bool := Prog.call fun elapsed w => (.ok (decide (elapsed ≥ DEADLINE)), w)

def note (asked : Asked N) : WalkProg N Unit :=
  Prog.modify fun w => { w with trace := w.trace ++ [asked] }

/-- Ask a node for a fact. -/
def ask {α : Type} (fact : Fact) (node : N) (answer : N → Except UiaFactUnavailable α) :
    WalkProg N (Except UiaFactUnavailable α) := do
  note (.fact fact node)
  pure (answer node)

/-- The verdict on the two values of a document. -/
def judge (value legacy : Option String) : WalkResult :=
  match value.bind normalizeUrl, legacy.bind normalizeUrl with
  | some v, some l => if v = l then .found v else .stop
  | some v, none => .found v
  | none, some l => .found l
  | none, none => .stop

/-- A control element of type Document. -/
def readDocument (view : View) (path : List N) (node : N) : WalkProg N WalkResult := do
  let late ← isLate
  if late then pure .stop
  else
    note (.value view path node)
    let late ← isLate
    if late then pure .stop
    else
      note (.legacyValue view path node)
      pure (judge normalizeUrl (tree.valueProperty node) (tree.legacyValueProperty node))

/-- A node of type Document. A non-control placeholder supplies no URL and is never a content
subtree. -/
def walkDocument (view : View) (path : List N) (node : N) (readValues : Bool) :
    WalkProg N WalkResult := do
  match ← ask .isControlElement node tree.isControlElement with
  | .error _ => pure .stop
  | .ok false => pure .notFound
  | .ok true =>
    if readValues then readDocument tree normalizeUrl view path node else pure .documentReady

mutual

/-- `walk_node`. -/
def walkNode (view : View) (readValues : Bool) :
    Nat → N → Nat → List N → WalkProg N WalkResult
  | 0, _, _, _ => Prog.fail ()
  | calls + 1, node, depth, path => do
    Prog.modify fun w => { w with
      count := w.count + 1
      trace := w.trace ++ [.examined view path node] }
    let w ← Prog.get
    if w.count > 400 then pure .stop
    else
      let late ← isLate
      if late then pure .stop
      else
        match ← ask .isPassword node tree.isPassword with
        | .error _ => pure .stop
        | .ok true =>
          match ← ask .controlType node tree.controlType with
          | .error _ => pure .stop
          | .ok type =>
            if type = UIA_DOCUMENT_CONTROL_TYPE_ID then pure .stop else pure .notFound
        | .ok false =>
          match ← ask .controlType node tree.controlType with
          | .error _ => pure .stop
          | .ok type =>
            if type = UIA_DOCUMENT_CONTROL_TYPE_ID then
              walkDocument tree normalizeUrl view path node readValues
            else if depth ≥ 24 ∨ w.count ≥ 400 then pure .stop
            else
              let late ← isLate
              if late then pure .stop
              else
                match ← ask .firstChild node tree.firstChild with
                | .error _ => pure .stop
                | .ok none => pure .notFound
                | .ok (some child) =>
                  walkSiblings view readValues calls child (depth + 1) (path ++ [node])

/-- The loop of `walk_node` over a child and the siblings after it. -/
def walkSiblings (view : View) (readValues : Bool) :
    Nat → N → Nat → List N → WalkProg N WalkResult
  | 0, _, _, _ => Prog.fail ()
  | calls + 1, child, depth, path => do
    let result ← walkNode view readValues calls child depth path
    match result with
    | .notFound =>
      let w ← Prog.get
      if w.count ≥ 400 then pure .stop
      else
        let late ← isLate
        if late then pure .stop
        else
          match ← ask .nextSibling child tree.nextSibling with
          | .error _ => pure .stop
          | .ok none => pure .notFound
          | .ok (some sibling) => walkSiblings view readValues calls sibling depth path
    | result => pure result

end

/-- The calls that every walk gets by with. -/
def WALK_CALLS : Nat := 802

/-- Control-view discovery reads only password and type metadata and navigation. Only the
subsequent raw pass can read a document's URL. Both passes share limits. -/
def walkUiaViews (calls : Nat) (controlRoot : N) (rawRoot : Option N) :
    WalkProg N (Option String) := do
  let discovered ← walkNode tree normalizeUrl .control false calls controlRoot 0 []
  if discovered = .stop then pure none
  else
    let w ← Prog.get
    if w.count ≥ 400 then pure none
    else
      let late ← isLate
      if late then pure none
      else
        match rawRoot with
        | none => pure none
        | some root =>
          let result ← walkNode tree normalizeUrl .raw true calls root 0 []
          match result with
          | .found url => pure (some url)
          | _ => pure none

end Walk

end SolstoneWindows.PlatformWin.DesktopActivity
