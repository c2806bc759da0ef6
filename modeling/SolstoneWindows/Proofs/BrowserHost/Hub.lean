import Mathlib.Data.List.Count
import Mathlib.Data.List.Induction
import SolstoneWindows.BrowserHost.Hub

/-!
# Who holds the hub quiet

The flag is set only for a request, so it is clear when none is left (`run_outstanding`). The
other direction is lost by a request that ends while another one is open: there is one flag, and
each end clears it. A session is refused at the door only, so a connection that was let in before
the request becomes a session while it is open. `step_honoured_iff` says exactly when a step keeps
the promise.
-/

set_option autoImplicit false

namespace SolstoneWindows.Proofs.BrowserHost

open SolstoneWindows.BrowserHost

variable {hub : Hub}

/-- A reply is younger than a lease. -/
def isLive (now answered : Nat) : Bool := now < answered + QUIESCE_LEASE

/-- The requests that ask for quiet: connections that wait for their reply or were answered less
than a lease ago, and in-process calls without their `resume`. -/
def opened (hub : Hub) : Nat :=
  hub.waiting.length + hub.leases.countP (isLive hub.now) + hub.inProcess

/-- The requests that have not ended: the tasks that are about to wake are among them. -/
def outstanding (hub : Hub) : Nat := hub.waiting.length + hub.leases.length + hub.inProcess

/-- New connections and batches are refused. -/
structure Refuses (hub : Hub) : Prop where
  connections : hub.step .connected = hub
  capture : ∀ failed paired paused full, hub.capture failed paired paused full = .unavailable
  batches : ∀ paired store, hub.offer paired store = .rejected "resource_exhausted"

/-- What a step from `hub` owes to the open requests: no session is entered while there is one, the
hub it leaves is quiet if one is open then, and not quiet if none is outstanding. -/
structure Honoured (hub : Hub) (event : HubEvent) : Prop where
  sessions : 0 < opened hub → (hub.step event).nextSession = hub.nextSession
  quiet : 0 < opened (hub.step event) →
    (hub.step event).isQuiescing = true ∧ Refuses (hub.step event)
  freed : outstanding (hub.step event) = 0 → (hub.step event).isQuiescing = false

theorem refuses_of_quiescing (h : hub.quiescing = true) : Refuses hub := by
  constructor <;> intros <;>
    simp [Hub.step, Hub.enabled, Hub.capture, Hub.offer, Hub.isQuiescing, h]

/-- A request that ends is the only open one, and a connection becomes a session when none is open.
A lease is over when its task wakes. -/
def Apart (hub : Hub) (event : HubEvent) : Prop :=
  hub.enabled event = true → match event with
    | .woke _ => opened hub = 0
    | .resumed => opened hub = 1
    | .hello _ brand inst => (hub.remaining brand inst).length < MAX_SESSIONS → opened hub = 0
    | _ => True

theorem opened_passed_le (ms : Nat) : opened (hub.after (.passed ms)) ≤ opened hub := by
  have hlive : hub.leases.countP (isLive (hub.now + ms)) ≤ hub.leases.countP (isLive hub.now) := by
    refine List.countP_mono_left fun answered _ h => ?_
    simp only [isLive, decide_eq_true_eq] at h ⊢
    omega
  simp only [opened, Hub.after]
  omega

theorem nextSession_register (brand inst : String) :
    (hub.register brand inst).nextSession = hub.nextSession ↔
      MAX_SESSIONS ≤ (hub.remaining brand inst).length := by
  unfold Hub.register
  dsimp only
  split
  · next hfull => simp [hfull]
  · next hroom => simp [hroom]

theorem step_outstanding (event : HubEvent) (h : hub.quiescing = true → 0 < outstanding hub) :
    (hub.step event).quiescing = true → 0 < outstanding (hub.step event) := by
  unfold Hub.step
  split
  · cases event with
    | passed | connected | dropped | left => exact h
    | hello since brand inst =>
      simp only [Hub.after, Hub.register, outstanding]
      split <;> exact h
    | woke | resumed => exact fun h => nomatch h
    | asked | answered | quiesced =>
      intro _
      simp only [outstanding, Hub.after, List.length_cons]
      omega
  · exact h

/-- From a hub that is quiet for its open requests, a step enters no session while one is open and
leaves such a hub again, exactly if it is `Apart`. -/
theorem step_quiet_iff (event : HubEvent) (h : 0 < opened hub → hub.quiescing = true) :
    ((0 < opened hub → (hub.step event).nextSession = hub.nextSession) ∧
      (0 < opened (hub.step event) → (hub.step event).quiescing = true)) ↔ Apart hub event := by
  unfold Hub.step Apart
  split
  · next henabled =>
    rw [forall_prop_of_true henabled]
    cases event with
    | passed ms =>
      refine iff_of_true ⟨fun _ => rfl, fun hpos => h ?_⟩ trivial
      exact Nat.lt_of_lt_of_le hpos (opened_passed_le ms)
    | connected | dropped | left => exact iff_of_true ⟨fun _ => rfl, h⟩ trivial
    | asked | quiesced => exact iff_of_true ⟨fun _ => rfl, fun _ => rfl⟩ trivial
    | answered asked =>
      -- The flag was set when the connection asked, and the wait counts as open.
      simp only [Hub.enabled, Bool.and_eq_true, List.contains_iff_mem] at henabled
      have hpos := List.length_pos_of_mem henabled.1
      exact iff_of_true ⟨fun _ => rfl, fun _ => h (by unfold opened; omega)⟩ trivial
    | hello since brand inst =>
      have hquiet : (hub.register brand inst).quiescing = hub.quiescing := by
        unfold Hub.register
        dsimp only
        split <;> rfl
      have hopened : opened (hub.after (.hello since brand inst)) = opened hub := by
        unfold Hub.after Hub.register
        dsimp only
        split <;> rfl
      rw [hopened]
      simp only [Hub.after, nextSession_register, hquiet]
      rw [and_iff_left h]
      omega
    | woke answered =>
      -- The lease that ends is over, so the others are as many as before.
      simp only [Hub.enabled, Bool.and_eq_true, decide_eq_true_eq] at henabled
      have hover : isLive hub.now answered = false := decide_eq_false (Nat.not_lt.mpr henabled.2)
      have hopened : opened (hub.after (.woke answered)) = opened hub := by
        simp [opened, Hub.after, Hub.resume, List.countP_erase, hover]
      rw [hopened]
      simp [Hub.after, Hub.resume]
    | resumed =>
      simp only [Hub.enabled, decide_eq_true_eq] at henabled
      simp only [opened, Hub.after, Hub.resume, Bool.false_eq_true, implies_true, true_and,
        imp_false]
      omega
  · next hnot => exact iff_of_true ⟨fun _ => rfl, h⟩ fun henabled => absurd henabled hnot

theorem run_append (events : List HubEvent) (event : HubEvent) :
    Hub.run (events ++ [event]) = (Hub.run events).step event :=
  List.foldl_append

theorem run_outstanding (events : List HubEvent) :
    (Hub.run events).quiescing = true → 0 < outstanding (Hub.run events) := by
  induction events using List.reverseRecOn with
  | nil => exact fun h => nomatch h
  | append_singleton events event ih =>
    rw [run_append]
    exact step_outstanding event ih

/-- One more step of a run that is quiet for its open requests. -/
theorem step_honoured_iff {events : List HubEvent} (event : HubEvent)
    (h : 0 < opened (Hub.run events) → (Hub.run events).quiescing = true) :
    Honoured (Hub.run events) event ↔ Apart (Hub.run events) event := by
  rw [← step_quiet_iff event h]
  refine ⟨fun hstep => ⟨hstep.sessions, fun hpos => (hstep.quiet hpos).1⟩,
    fun hstep => ⟨hstep.1, fun hpos => ?_, fun hnone => ?_⟩⟩
  · exact ⟨hstep.2 hpos, refuses_of_quiescing (hstep.2 hpos)⟩
  · refine Bool.eq_false_iff.mpr fun hquiescing => ?_
    have hsome := run_outstanding (events ++ [event])
    rw [run_append] at hsome
    have hpos := hsome hquiescing
    omega

/-- The leases compose along a run, exactly if no request of it ends while another one is open and
no connection becomes a session while one is. -/
theorem quiesce_leases_compose_iff (events : List HubEvent) :
    (∀ before event, before ++ [event] <+: events → Honoured (Hub.run before) event) ↔
      ∀ before event, before ++ [event] <+: events → Apart (Hub.run before) event := by
  have hstart : 0 < opened (Hub.run []) → (Hub.run []).quiescing = true := fun h => nomatch h
  constructor
  · intro h before event hprefix
    refine (step_honoured_iff event ?_).mp (h before event hprefix)
    -- The last step before left a hub that is quiet for its open requests.
    cases before using List.reverseRecOn with
    | nil => exact hstart
    | append_singleton earlier last =>
      rw [run_append]
      exact fun hpos => ((h earlier last ((List.prefix_append _ _).trans hprefix)).quiet hpos).1
  · intro h
    have hquiet : ∀ before, before <+: events →
        0 < opened (Hub.run before) → (Hub.run before).quiescing = true := by
      intro before hbefore
      induction before using List.reverseRecOn with
      | nil => exact hstart
      | append_singleton earlier last ih =>
        have hearlier := ih ((List.prefix_append _ _).trans hbefore)
        rw [run_append]
        exact ((step_quiet_iff last hearlier).mpr (h earlier last hbefore)).2
    intro before event hprefix
    exact (step_honoured_iff event (hquiet before ((List.prefix_append _ _).trans hprefix))).mpr
      (h before event hprefix)

/-- Two connections are let in and ask four seconds apart: the first lease ends the second. And a
connection that was let in before an in-process call says `hello` after it: it becomes a session. -/
theorem quiesce_leases_overlap :
    let hub := Hub.run [.connected, .connected, .asked 0, .answered 0, .passed 4000, .asked 0,
      .answered 4000, .passed 116000, .woke 0]
    let entered := Hub.run [.connected, .quiesced, .hello 0 "chrome" "a"]
    (hub.now = 120000 ∧ hub.leases = [4000] ∧ hub.isQuiescing = false ∧
      hub.capture false true false false = .permitted) ∧
    entered.isQuiescing = true ∧ entered.inProcess = 1 ∧
      entered.sessions = [⟨1, "chrome", "a"⟩] := by
  decide

end SolstoneWindows.Proofs.BrowserHost
