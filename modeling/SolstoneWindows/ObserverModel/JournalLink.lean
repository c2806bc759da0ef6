import SolstoneWindows.ObserverModel

/-!
# When the journal counts as connected

`LinkPresenter` of `crates/observer-model/src/journal_link.rs`: it folds readings of the evidence
into the link that every surface shows. The clock is an argument, in milliseconds.

`present` is cut where the source has its blank lines: what was heard (`hear`), the start of an
episode (`enter`), and the choice of the link (`choose`).
-/

set_option autoImplicit false

namespace SolstoneWindows.ObserverModel

def CHECK_TIMEOUT_SECS : Nat := 5
/-- A drop from connected is shown at least this long before connected returns. -/
def DOWN_DWELL_MS : Nat := 1000
/-- Connecting becomes offline after this long. -/
def OFFLINE_AFTER_MS : Nat := 30000
/-- How long connected is held after a pause, a lock or sleep. -/
def RESUME_GRACE_MS : Nat := 500

/-- How long one answer keeps connected true. -/
def leaseMs (checkSecs : Nat) : Nat := (checkSecs + CHECK_TIMEOUT_SECS + 1) * 1000

inductive JournalLink where
  | connected
  | connecting
  | offline
  deriving DecidableEq

/-- One reading of the evidence. -/
structure LinkInput where
  up : Bool
  /-- A stamp that changes each time the journal answers. -/
  answered : Option Nat
  leaseMs : Nat
  /-- False only while the system reports no network at all. -/
  network : Bool
  deriving DecidableEq

structure LinkPresenter where
  noNetwork : Bool := false
  answered : Option Nat := none
  heardAt : Option Nat := none
  /-- The longest lease since the last answer. -/
  leaseMs : Nat := 0
  shown : Option JournalLink := none
  lastShown : Option JournalLink := none
  unreachedSince : Nat := 0
  droppedAt : Option Nat := none
  holdUntil : Option Nat := none
  deriving DecidableEq

namespace LinkPresenter

def fresh (p : LinkPresenter) (nowMs : Nat) : Bool :=
  p.heardAt.any fun heard => nowMs < saturatingAdd heard p.leaseMs

/-- Take the answer stamp and the lease of a reading. -/
def hear (p : LinkPresenter) (input : LinkInput) (nowMs : Nat) : LinkPresenter :=
  if input.answered ≠ p.answered then
    { p with
      answered := input.answered
      heardAt := input.answered.map fun _ => nowMs
      leaseMs := input.leaseMs }
  else { p with leaseMs := max p.leaseMs input.leaseMs }

/-- The start of an episode, or the network coming back within one. -/
def enter (p : LinkPresenter) (fresh networkBack : Bool) (nowMs : Nat) : LinkPresenter :=
  match p.shown with
  | none =>
    { p with
      unreachedSince := nowMs
      droppedAt := none
      holdUntil :=
        if p.lastShown = some .connected ∧ fresh = false then
          some (saturatingAdd nowMs RESUME_GRACE_MS)
        else none }
  | some _ => if networkBack then { p with unreachedSince := nowMs } else p

def dwelling (p : LinkPresenter) (nowMs : Nat) : Bool :=
  p.droppedAt.any fun dropped => nowMs < saturatingAdd dropped DOWN_DWELL_MS

def holding (p : LinkPresenter) (fresh network : Bool) (nowMs : Nat) : Bool :=
  !fresh && network && p.holdUntil.any fun limit => nowMs < limit

/-- A drop from connected begins its dwell. -/
def drop (p : LinkPresenter) (nowMs : Nat) : LinkPresenter :=
  if p.shown = some .connected then { p with droppedAt := some nowMs, unreachedSince := nowMs }
  else p

/-- The link to show, and what the choice changes. -/
def choose (p : LinkPresenter) (fresh network : Bool) (nowMs : Nat) : JournalLink × LinkPresenter :=
  if (fresh && !p.dwelling nowMs) || p.holding fresh network nowMs then
    (.connected, p)
  else
    let p := p.drop nowMs
    (if !network || OFFLINE_AFTER_MS ≤ nowMs - p.unreachedSince then .offline else .connecting, p)

/-- Present the link at `nowMs`; `none` while the input is not up. -/
def present (p : LinkPresenter) (input : LinkInput) (nowMs : Nat) :
    Option JournalLink × LinkPresenter :=
  let p := p.hear input nowMs
  let networkBack := input.network && p.noNetwork
  let p := { p with noNetwork := !input.network }
  if !input.up then
    (none, { p with shown := none })
  else
    let fresh := p.fresh nowMs
    let p := p.enter fresh networkBack nowMs
    let (next, p) := p.choose fresh input.network nowMs
    let p := if fresh && next = .connected then { p with holdUntil := none } else p
    (some next, { p with shown := some next, lastShown := some next })

end LinkPresenter

end SolstoneWindows.ObserverModel
