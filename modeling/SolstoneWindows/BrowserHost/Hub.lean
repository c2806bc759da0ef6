/-!
# Update quiescence of the hub

`crates/browser-host/src/hub.rs`: `quiesce`, `resume`, what asks for them, and what is refused in
between: the first part of `serve`, with the deadline of its handshake, and `register`. The delivery
half of `compute` and the answer to a batch do not read the flag and are left out. Times are
milliseconds of the runtime's clock.
-/

set_option autoImplicit false

namespace SolstoneWindows.BrowserHost

def HANDSHAKE_MS_BUDGET : Nat := 5000
/-- How long an update waits for connected hosts to leave. -/
def QUIESCE_WAIT : Nat := 10000
/-- How long a quiesce requested over the pipe holds before sessions resume. -/
def QUIESCE_LEASE : Nat := 120000
/-- Concurrent sessions admitted. -/
def MAX_SESSIONS : Nat := 16

structure SessionEntry where
  id : Nat
  brand : String
  inst : String
  deriving DecidableEq

/-- The flag of the hub, the sessions, and everything that is still to act on the flag. -/
structure Hub where
  quiescing : Bool := false
  now : Nat := 0
  sessions : List SessionEntry := []
  nextSession : Nat := 1
  /-- When `serve` let the connections in that have not said yet what they are. -/
  connected : List Nat := []
  /-- When the `local_quiesce` connections asked that wait for the sessions to close. -/
  waiting : List Nat := []
  /-- When the `local_quiesce` connections were answered whose spawned task still sleeps. -/
  leases : List Nat := []
  /-- In-process `quiesce` calls without their `resume`. -/
  inProcess : Nat := 0
  deriving DecidableEq

def Hub.quiesce (hub : Hub) : Hub := { hub with quiescing := true }

/-- The update did not happen: admit sessions again. -/
def Hub.resume (hub : Hub) : Hub := { hub with quiescing := false }

def Hub.isQuiescing (hub : Hub) : Bool := hub.quiescing

/-- The sessions that a new one of this browser profile does not replace. -/
def Hub.remaining (hub : Hub) (brand inst : String) : List SessionEntry :=
  hub.sessions.filter fun session => !(session.brand = brand && session.inst = inst)

/-- A session is entered, unless too many others are there. The flag is not read again. -/
def Hub.register (hub : Hub) (brand inst : String) : Hub :=
  let remaining := hub.remaining brand inst
  if MAX_SESSIONS ≤ remaining.length then hub
  else { hub with
    sessions := remaining ++ [⟨hub.nextSession, brand, inst⟩]
    nextSession := hub.nextSession + 1 }

inductive HubEvent where
  | passed (ms : Nat)
  | connected
  /-- A connection let in at this time says `local_quiesce`. -/
  | asked (since : Nat)
  /-- A connection let in at this time says `local_hello` and `hello`. -/
  | hello (since : Nat) (brand inst : String)
  /-- A connection let in at this time is dropped. -/
  | dropped (since : Nat)
  /-- A session ends. -/
  | left (id : Nat)
  /-- The connection that asked at this time gets its reply. -/
  | answered (asked : Nat)
  /-- The task of the connection answered at this time wakes. -/
  | woke (answered : Nat)
  /-- `quiesce_for_update`. -/
  | quiesced
  /-- `resume_after_update`. -/
  | resumed
  deriving DecidableEq

/-- The connection may still say what it is. -/
def Hub.inHandshake (hub : Hub) (since : Nat) : Bool :=
  hub.connected.contains since && hub.now ≤ since + HANDSHAKE_MS_BUDGET

/-- A connection is let in unless the hub is quiescing, and a reply is given when no session is left
or the wait is over. No task oversleeps, and none wakes early. -/
def Hub.enabled (hub : Hub) : HubEvent → Bool
  | .passed ms => hub.leases.all fun answered => hub.now + ms ≤ answered + QUIESCE_LEASE
  | .connected => !hub.isQuiescing
  | .asked since => hub.inHandshake since
  | .hello since _ _ => hub.inHandshake since
  | .dropped since => hub.connected.contains since
  | .left _ => true
  | .answered asked =>
    hub.waiting.contains asked && (hub.sessions.isEmpty || asked + QUIESCE_WAIT ≤ hub.now)
  | .woke answered => hub.leases.contains answered && answered + QUIESCE_LEASE ≤ hub.now
  | .quiesced => true
  | .resumed => 0 < hub.inProcess

def Hub.after (hub : Hub) : HubEvent → Hub
  | .passed ms => { hub with now := hub.now + ms }
  | .connected => { hub with connected := hub.now :: hub.connected }
  | .asked since =>
    { hub.quiesce with connected := hub.connected.erase since, waiting := hub.now :: hub.waiting }
  | .hello since brand inst =>
    { hub.register brand inst with connected := hub.connected.erase since }
  | .dropped since => { hub with connected := hub.connected.erase since }
  | .left id => { hub with sessions := hub.sessions.filter (·.id ≠ id) }
  | .answered asked =>
    { hub with waiting := hub.waiting.erase asked, leases := hub.now :: hub.leases }
  | .woke answered => { hub.resume with leases := hub.leases.erase answered }
  | .quiesced => { hub.quiesce with inProcess := hub.inProcess + 1 }
  | .resumed => { hub.resume with inProcess := hub.inProcess - 1 }

def Hub.step (hub : Hub) (event : HubEvent) : Hub :=
  if hub.enabled event then hub.after event else hub

def Hub.run (events : List HubEvent) : Hub := events.foldl Hub.step {}

inductive Capture where
  | unavailable
  | notPaired
  | paused
  | intakeOff
  | permitted
  deriving DecidableEq

/-- The gate that `compute` publishes. -/
def Hub.capture (hub : Hub) (failed paired paused full : Bool) : Capture :=
  if hub.isQuiescing || failed then .unavailable
  else if !paired then .notPaired
  else if paused then .paused
  else if full then .intakeOff
  else .permitted

inductive BatchResult where
  | accepted (periodId : String)
  | duplicate (periodId : String)
  | rejected (reason : String)
  deriving DecidableEq

/-- `store` is what the store makes of the batch. -/
def Hub.offer (hub : Hub) (paired : Bool) (store : BatchResult) : BatchResult :=
  if hub.isQuiescing || !paired then .rejected "resource_exhausted" else store

end SolstoneWindows.BrowserHost
