import Mathlib.Data.List.Infix
import SolstoneWindows.CaptureEngine.DesktopActivity

/-!
# What the scheduler keeps to itself

Every call of the scheduler is cut into `Act`s, the places where the code reads something new: one
event of the probe, one result of the URL helper, one change of the rules. The states between two
acts are the moments of a history, and `run_acts` says that the acts of a call make up the call.

Most of the state does not matter here. `Front` is what does: the window in front, the owner's
choices, the request in flight, and what was said and asked so far. One act changes the front in
one of few ways (`Turn`), and taking a result in one more (`Admission`). The main results follow
from these by induction over the acts:

- `scheduler_keeps_private`: at every moment the window in front is one the rules allow, nothing is
  in front while the screen is locked, and titles and addresses are there only if chosen. Every row
  shows exactly an interval that was open.
- `url_belongs_to_window`: a page address is recorded only for the window it was asked for.
- `poll_withholds_foreground`: when a poll that cannot read the policy says nothing of the
  foreground.
-/

set_option autoImplicit false

namespace SolstoneWindows.Proofs.DesktopActivity

open CaptureEngine.DesktopActivity
open ObserverExclusion (ExclusionRules foregroundExcluded)
open ObserverModel.DesktopActivity

/-! ## The front -/

/-- What a foreground row shows of an interval. -/
def payloadOf (fg : OpenForeground) : ForegroundPayload :=
  ⟨fg.app, some fg.exeName, fg.title, fg.url⟩

/-- The window an interval is about. -/
def windowOf (fg : OpenForeground) : Nat × String × String := (fg.windowId, fg.exeName, fg.rawTitle)

/-- The request for the page address of a window. -/
def requestFor (hooks : Hooks) (generation : Nat) (fg : OpenForeground) :
    DesktopActivityUrlRequest :=
  ⟨generation, fg.windowId, fg.exeName, hooks.titleFingerprint fg.rawTitle⟩

/-- What a row shows of the foreground. -/
def shown (row : DesktopActivityRow) : Option ForegroundPayload :=
  match row.payload with
  | .foreground payload => some payload
  | _ => none

/-- The request a call makes. -/
def requested : SourceCall → Option DesktopActivityUrlRequest
  | .requestUrl request => some request
  | .cancelUrl => none

/-- The part of a desk that is about the foreground. -/
@[ext]
structure Front where
  foreground : Option OpenForeground
  locked : Bool
  titles : Bool
  addresses : Bool
  rules : ExclusionRules
  generation : Nat
  inFlight : Bool
  said : List ForegroundPayload
  asked : List DesktopActivityUrlRequest

def front (d : Desk) : Front where
  foreground := d.openForeground
  locked := d.isLocked
  titles := d.windowTitles
  addresses := d.pageAddresses
  rules := d.exclusionRules
  generation := d.urlState.generation
  inFlight := d.urlState.inFlight
  said := d.rows.filterMap shown
  asked := d.calls.filterMap requested

namespace Front

/-- The interval ends, with a row. -/
def close (v : Front) : Front :=
  { v with foreground := none, said := v.said ++ v.foreground.toList.map payloadOf }

/-- Another interval begins where one ends. -/
def split (old new : OpenForeground) (v : Front) : Front :=
  { v with foreground := some new, said := v.said ++ [payloadOf old] }

def clear (v : Front) : Front := { v with generation := v.generation + 1, inFlight := false }

def drop (v : Front) : Front :=
  { v with generation := v.generation + v.inFlight.toNat, inFlight := false }

def ask (hooks : Hooks) (fg : OpenForeground) (v : Front) : Front :=
  { v with inFlight := true, asked := v.asked ++ [requestFor hooks v.generation fg] }

end Front

section Fronts

variable (d : Desk) (nowMs : Nat)

theorem front_push {row : DesktopActivityRow} (h : shown row = none) :
    front (d.push row) = front d := by
  simp [front, Desk.push, List.filterMap_append, h]

@[simp]
theorem front_cancelUrl : front d.cancelUrl = front d := by
  simp [front, Desk.cancelUrl, List.filterMap_append, requested]

@[simp]
theorem front_clearRequest : front d.clearRequest = (front d).clear := by
  simp [front, Desk.clearRequest, Desk.cancelUrl, Front.clear, List.filterMap_append, requested]

@[simp]
theorem front_dropRequest : front d.dropRequest = (front d).drop := by
  unfold Desk.dropRequest
  cases hflight : d.urlState.inFlight with
  | true =>
    rw [if_pos rfl, front_clearRequest]
    simp [Front.clear, Front.drop, front, hflight]
  | false => simp [Front.drop, front, hflight]

@[simp]
theorem front_requestUrl (hooks : Hooks) (fg : OpenForeground) :
    front (d.requestUrl hooks fg nowMs) = (front d).ask hooks fg := by
  simp [front, Desk.requestUrl, Front.ask, requestFor, List.filterMap_append, requested]

@[simp]
theorem front_closeForeground : front (d.closeForeground nowMs) = (front d).close := by
  unfold Desk.closeForeground Front.close
  cases hopen : d.openForeground with
  | none => simp [front, hopen]
  | some old =>
    simp [front, hopen, Desk.push, List.filterMap_append, OpenForeground.row,
      DesktopActivityRow.foreground, shown, payloadOf]

@[simp]
theorem front_splitForeground (old new : OpenForeground) :
    front (d.splitForeground old new nowMs) = (front d).split old new := by
  simp [front, Desk.splitForeground, Front.split, Desk.push, List.filterMap_append,
    OpenForeground.row, DesktopActivityRow.foreground, shown, payloadOf]

@[simp]
theorem front_transitionAvailability (method : String) (capability : AvailabilityCapability)
    (status : AvailabilityStatus) :
    front (d.transitionAvailability nowMs method capability status) = front d := by
  unfold Desk.transitionAvailability
  dsimp only
  split
  · rfl
  · split
    · rfl
    · exact front_push _ rfl

@[simp]
theorem front_closeAvailability (method : String) (capability : AvailabilityCapability) :
    front (d.closeAvailability nowMs method capability) = front d := by
  unfold Desk.closeAvailability
  dsimp only
  split
  · rfl
  · exact front_push _ rfl

@[simp]
theorem front_urlUnavailable : front (d.urlUnavailable nowMs) = front d :=
  front_transitionAvailability d nowMs "uia" .url .unavailable

@[simp]
theorem front_closeActivity : front (d.closeActivity nowMs) = front d := by
  unfold Desk.closeActivity
  split
  · rfl
  · exact front_push _ rfl

@[simp]
theorem front_splitActivityAt : front (d.splitActivityAt nowMs) = front d := by
  unfold Desk.splitActivityAt
  split
  · rfl
  · exact front_push _ rfl

/-- Rows of the other kinds show nothing of the foreground. -/
theorem front_availabilityRows (entries : List (AvailabilityKey × OpenAvailability))
    (kept : List (AvailabilityKey × OpenAvailability)) :
    front { d with
      rows := d.rows ++ entries.map fun entry => entry.2.row nowMs entry.1
      openAvailabilities := kept } = front d := by
  have hnone : (entries.map fun entry => entry.2.row nowMs entry.1).filterMap shown = [] := by
    rw [List.filterMap_eq_nil_iff]
    intro row hrow
    obtain ⟨entry, -, rfl⟩ := List.mem_map.mp hrow
    rfl
  simp [front, List.filterMap_append, hnone]

end Fronts

/-! ## What one act does -/

/-- What the scheduler owes to the owner's choices. -/
structure Private (v : Front) : Prop where
  /-- The window in front is not one the rules exclude. -/
  allowed : ∀ fg, v.foreground = some fg → foregroundExcluded v.rules fg.exeName fg.rawTitle = false
  /-- Nothing is in front while the screen is locked. -/
  unlocked : v.locked = true → v.foreground = none
  title : ∀ fg, v.foreground = some fg → fg.title.isSome = true → v.titles = true
  url : ∀ fg, v.foreground = some fg → fg.url.isSome = true → v.addresses = true

/-- Every request of the current generation has been given up, or there was none in flight. -/
def Settles (v v' : Front) : Prop :=
  v.generation < v'.generation ∨ (v'.generation = v.generation ∧ v.inFlight = false)

/-- What an act does to the request in flight. -/
inductive Flight (hooks : Hooks) (v v' : Front) : Prop
  /-- None is in flight afterwards. -/
  | settled (hasked : v'.asked = v.asked) (hquiet : v'.inFlight = false) (hsettles : Settles v v')
  /-- The one in flight stays, and so does what it is for. -/
  | waiting (hasked : v'.asked = v.asked) (hgen : v'.generation = v.generation)
    (hflight : v'.inFlight = v.inFlight)
    (hwindow : v'.foreground.map windowOf = v.foreground.map windowOf)
    (haddresses : v.addresses = true → v'.addresses = true)
    (hlocked : v.locked = false → v'.locked = false)
  /-- A new one is made, for the window in front. -/
  | asked (fg : OpenForeground) (hasked : v'.asked = v.asked ++ [requestFor hooks v'.generation fg])
    (hflight : v'.inFlight = true) (hsettles : Settles v v') (hfg : v'.foreground = some fg)
    (haddresses : v'.addresses = true) (hlocked : v'.locked = false)

/-- A row is said only of the interval that was open. -/
def Said (v v' : Front) : Prop :=
  v'.said = v.said ∨ ∃ fg, v.foreground = some fg ∧ v'.said = v.said ++ [payloadOf fg]

/-- The front has this page address. -/
def HasUrl (v : Front) (u : String) : Prop := ∃ fg, v.foreground = some fg ∧ fg.url = some u

/-- What an act other than taking a result does. -/
structure Turn (hooks : Hooks) (v v' : Front) : Prop where
  safe : Private v → Private v'
  said : Said v v'
  flight : Flight hooks v v'
  url : ∀ u, HasUrl v' u → HasUrl v u

variable {fg fg' : OpenForeground}

section Turns

variable {hooks : Hooks} {v v' : Front}

/-- With no window in front there is nothing to keep to. -/
theorem private_none (h : v.foreground = none) : Private v := by
  refine ⟨?_, fun _ => h, ?_, ?_⟩ <;>
  · intro fg hfg
    rw [h] at hfg
    cases hfg

theorem private_some (h : v.foreground = some fg) : Private v ↔
    foregroundExcluded v.rules fg.exeName fg.rawTitle = false ∧ ¬ v.locked = true ∧
      (fg.title.isSome = true → v.titles = true) ∧ (fg.url.isSome = true → v.addresses = true) := by
  constructor
  · intro hv
    refine ⟨hv.allowed fg h, fun hlocked => ?_, hv.title fg h, hv.url fg h⟩
    have hnone := hv.unlocked hlocked
    rw [h] at hnone
    cases hnone
  · rintro ⟨hallowed, hlocked, htitle, hurl⟩
    refine ⟨?_, fun hl => absurd hl hlocked, ?_, ?_⟩ <;>
    · intro fg' hfg'
      cases h.symm.trans hfg'
      assumption

theorem hasUrl_some (h : v.foreground = some fg) (u : String) : HasUrl v u ↔ fg.url = some u := by
  simp [HasUrl, h]

theorem Turn.refl (hooks : Hooks) (v : Front) : Turn hooks v v :=
  ⟨id, .inl rfl, .waiting rfl rfl rfl rfl id id, fun _ h => h⟩

theorem said_close (v : Front) : v.close.said = v.said ∨
    ∃ fg, v.foreground = some fg ∧ v.close.said = v.said ++ [payloadOf fg] := by
  unfold Front.close
  cases hfg : v.foreground with
  | none => exact .inl (by simp)
  | some fg => exact .inr ⟨fg, rfl, rfl⟩

theorem settles_drop (v : Front) : Settles v v.drop := by
  unfold Settles Front.drop
  cases v.inFlight with
  | true => exact .inl (Nat.lt_succ_self _)
  | false => exact .inr ⟨rfl, rfl⟩

/-- Nothing is in front afterwards. -/
theorem Turn.shut (hfg : v'.foreground = none) (hsaid : v'.said = v.said ∨ v'.said = v.close.said)
    (hasked : v'.asked = v.asked) (hquiet : v'.inFlight = false) (hsettles : Settles v v') :
    Turn hooks v v' where
  safe _ := private_none hfg
  said := by
    rcases hsaid with hsaid | hsaid
    · exact .inl hsaid
    · unfold Said
      rw [hsaid]
      exact said_close v
  flight := .settled hasked hquiet hsettles
  url := by
    rintro u ⟨fg, h, -⟩
    rw [hfg] at h
    cases h

/-- Another window comes to the front. Its page address may be asked for. -/
theorem Turn.opened (hlocked : v.locked = false)
    (hallowed : foregroundExcluded v.rules fg.exeName fg.rawTitle = false)
    (htitle : fg.title.isSome = true → v.titles = true) (hurl : fg.url = none)
    (hv' : v' = { v.close.drop with foreground := some fg } ∨
      (v.addresses = true ∧ v' = { v.close.drop with foreground := some fg }.ask hooks fg)) :
    Turn hooks v v' := by
  have hview : v'.foreground = some fg ∧ v'.locked = v.locked ∧ v'.rules = v.rules ∧
      v'.titles = v.titles ∧ v'.said = v.close.said := by
    rcases hv' with rfl | ⟨-, rfl⟩ <;> exact ⟨rfl, rfl, rfl, rfl, rfl⟩
  obtain ⟨hfg, hl, hr, ht, hsaid⟩ := hview
  refine ⟨fun _ => (private_some hfg).mpr ?_, ?_, ?_, fun u => ?_⟩
  · rw [hr, hl, ht, hlocked, hurl]
    exact ⟨hallowed, nofun, htitle, nofun⟩
  · unfold Said
    rw [hsaid]
    exact said_close v
  · rcases hv' with rfl | ⟨haddresses, rfl⟩
    · exact .settled rfl rfl (settles_drop v)
    · exact .asked fg rfl rfl (settles_drop v) rfl haddresses hlocked
  · rw [hasUrl_some hfg, hurl]
    exact nofun

/-- Other rules, which allow the window in front. -/
theorem Turn.ruled {rules : ExclusionRules} (hallowed : ∀ fg, v.foreground = some fg →
      foregroundExcluded rules fg.exeName fg.rawTitle = false) :
    Turn hooks v { v with rules := rules } :=
  ⟨fun h => ⟨hallowed, h.unlocked, h.title, h.url⟩, .inl rfl, .waiting rfl rfl rfl rfl id id,
    fun _ h => h⟩

/-- The interval begins anew, for the same window, and shows no more than is chosen. -/
theorem Turn.restyled (hfg : v.foreground = some fg)
    (hfg' : v'.foreground = some fg') (hwindow : windowOf fg' = windowOf fg)
    (hrules : v'.rules = v.rules) (hlocked : v'.locked = v.locked)
    (htitle : Private v → fg'.title.isSome = true → v'.titles = true)
    (hurl : ∀ u, fg'.url = some u → fg.url = some u)
    (haddresses : Private v → fg'.url.isSome = true → v'.addresses = true)
    (hsaid : v'.said = v.said ++ [payloadOf fg] ∨ v'.said = v.said)
    (hflight : Flight hooks v v') : Turn hooks v v' := by
  obtain ⟨hid, hexe, hraw⟩ : fg'.windowId = fg.windowId ∧ fg'.exeName = fg.exeName ∧
      fg'.rawTitle = fg.rawTitle := by
    simpa [windowOf] using hwindow
  refine ⟨fun h => (private_some hfg').mpr ?_, ?_, hflight, fun u => ?_⟩
  · obtain ⟨hallowed, hunlocked, -⟩ := (private_some hfg).mp h
    rw [hrules, hexe, hraw, hlocked]
    exact ⟨hallowed, hunlocked, htitle h, haddresses h⟩
  · exact hsaid.symm.imp_right fun hsaid => ⟨fg, hfg, hsaid⟩
  · rw [hasUrl_some hfg', hasUrl_some hfg]
    exact hurl u

end Turns

/-! ## Each act -/

section Acts

variable (hooks : Hooks) (d : Desk) (nowMs : Nat)

/-- The page address of a new window is asked for when it is a browser's and addresses are
chosen. -/
theorem front_askForUrl (fg : OpenForeground) : front (d.askForUrl hooks fg nowMs) = front d ∨
      ((front d).addresses = true ∧
        front (d.askForUrl hooks fg nowMs) = (front d).ask hooks fg) := by
  unfold Desk.askForUrl
  split
  · rename_i hwanted
    split
    · refine .inr ⟨?_, front_requestUrl d nowMs hooks fg⟩
      exact (Bool.and_eq_true_iff.mp hwanted).1
    · exact .inl (front_urlUnavailable d nowMs)
  · exact .inl rfl

theorem turn_shut : Turn hooks (front d) (front (d.closeForeground nowMs).dropRequest) := by
  rw [front_dropRequest, front_closeForeground]
  exact .shut rfl (.inr rfl) rfl rfl (settles_drop _)

/-- The front after an interval was opened on a desk whose last one was closed. -/
theorem front_opened (fg : OpenForeground) :
    front { (d.closeForeground nowMs).dropRequest with openForeground := some fg } =
      { (front d).close.drop with foreground := some fg } := by
  rw [← front_closeForeground d nowMs, ← front_dropRequest]
  rfl

theorem title_of_choice {chosen : Bool} {title : String}
    (h : (if chosen = true then some title else none).isSome = true) : chosen = true := by
  cases chosen with
  | true => rfl
  | false => cases h

theorem closed_windowTitles :
    (d.closeForeground nowMs).dropRequest.windowTitles = d.windowTitles := by
  have h : (front (d.closeForeground nowMs).dropRequest).titles = (front d).titles := by
    rw [front_dropRequest, front_closeForeground]
    rfl
  exact h

variable {d' : Desk}

theorem turn_opened (hlocked : ¬ d.isLocked = true)
    (hallowed : ¬ foregroundExcluded d.exclusionRules fg.exeName fg.rawTitle = true)
    (htitle : fg.title = if (d.closeForeground nowMs).dropRequest.windowTitles
      then some fg.rawTitle else none) (hurl : fg.url = none)
    (hd' : front d' = { (front d).close.drop with foreground := some fg }) :
    Turn hooks (front d) (front (d'.askForUrl hooks fg nowMs)) := by
  refine Turn.opened (Bool.eq_false_iff.mpr hlocked) (Bool.eq_false_iff.mpr hallowed) ?_ hurl ?_
  · intro hsome
    rw [htitle, closed_windowTitles] at hsome
    exact title_of_choice hsome
  · rcases front_askForUrl hooks d' nowMs fg with hsame | ⟨haddresses, hask⟩
    · exact .inl (hsame.trans hd')
    · rw [hd'] at haddresses hask
      exact .inr ⟨haddresses, hask⟩

theorem turn_handleForeground (windowId : Nat) (app exeName title : String) :
    Turn hooks (front d) (front (d.handleForeground hooks windowId app exeName title nowMs)) := by
  unfold Desk.handleForeground
  split
  · exact .refl hooks _
  rename_i hlocked
  split
  · exact turn_shut hooks d nowMs
  · rename_i hallowed
    split
    · exact .refl hooks _
    · refine turn_opened hooks d nowMs hlocked hallowed rfl rfl ?_
      rw [front_closeAvailability, front_opened]

theorem turn_handleTitleChanged (windowId : Nat) (title : String) :
    Turn hooks (front d) (front (d.handleTitleChanged hooks windowId title nowMs)) := by
  unfold Desk.handleTitleChanged
  split
  · exact .refl hooks _
  rename_i hlocked
  split
  · exact .refl hooks _
  split
  · exact .refl hooks _
  split
  · exact .refl hooks _
  · split
    · exact turn_shut hooks d nowMs
    · rename_i hallowed
      exact turn_opened hooks d nowMs hlocked hallowed rfl rfl (front_opened d nowMs _)

/-- A lock ends what is in front. The activity interval is no part of the front. -/
theorem front_handleActivityState (newState : ActivityState) :
    front (d.handleActivityState newState nowMs) =
      if newState = .locked then { front d with locked := true }.close.drop
      else { front d with locked := false } := by
  unfold Desk.handleActivityState
  dsimp only
  rw [front_closeAvailability]
  generalize hd' : (if d.openActivity.all fun a => a.state != newState then _ else d) = d'
  have hfront : front d' = front d := by
    subst hd'
    split
    · exact front_closeActivity d nowMs
    · rfl
  rw [← hfront]
  split
  · rw [front_dropRequest, front_closeForeground]
    rfl
  · rfl

theorem turn_handleActivityState (newState : ActivityState) :
    Turn hooks (front d) (front (d.handleActivityState newState nowMs)) := by
  rw [front_handleActivityState]
  split
  · exact .shut rfl (.inr rfl) rfl rfl (settles_drop (front d))
  · refine ⟨fun h => ⟨h.allowed, nofun, h.title, h.url⟩, .inl rfl, ?_, fun _ h => h⟩
    exact .waiting rfl rfl rfl rfl id fun _ => rfl

theorem turn_handleEvent (event : DesktopActivityProbeEvent) :
    Turn hooks (front d) (front (d.handleEvent hooks nowMs event)) := by
  cases event with
  | foreground windowId app exeName title =>
    exact turn_handleForeground hooks d nowMs windowId app exeName title
  | titleChanged windowId title => exact turn_handleTitleChanged hooks d nowMs windowId title
  | activityStateChanged newState => exact turn_handleActivityState hooks d nowMs newState
  | foregroundUnavailable =>
    unfold Desk.handleEvent
    rw [front_transitionAvailability]
    exact turn_shut hooks d nowMs
  | idleUnavailable =>
    unfold Desk.handleEvent
    rw [front_transitionAvailability, front_closeActivity]
    exact .refl hooks _

theorem turn_handleCoarseEvent (event : DesktopActivityProbeEvent) :
    Turn hooks (front d) (front (d.handleCoarseEvent hooks nowMs event)) := by
  unfold Desk.handleCoarseEvent
  split
  · exact turn_handleEvent hooks d nowMs _
  · exact turn_handleEvent hooks d nowMs _
  · exact .refl hooks _

theorem turn_queryForeground (snapshot : Option ForegroundSnapshot) :
    Turn hooks (front d) (front (d.queryForeground hooks snapshot nowMs)) := by
  unfold Desk.queryForeground
  split
  · split
    · exact .refl hooks _
    · exact turn_handleEvent hooks d nowMs _
  · exact .refl hooks _

theorem turn_setExclusionRules (rules : ExclusionRules) :
    Turn hooks (front d) (front (d.setExclusionRules rules nowMs)) := by
  unfold Desk.setExclusionRules
  dsimp only
  split
  · rename_i hopen
    refine .ruled ?_
    intro fg hfg
    exact absurd (hopen.symm.trans hfg) nofun
  rename_i fg hopen
  split
  · rw [front_clearRequest, front_closeForeground]
    exact .shut rfl (.inr rfl) rfl rfl (.inl (Nat.lt_succ_self _))
  · rename_i hallowed
    refine .ruled ?_
    intro fg' hfg
    cases hopen.symm.trans hfg
    exact Bool.eq_false_iff.mpr hallowed

theorem turn_refreshRules (shared : Option ExclusionRules) :
    Turn hooks (front d) (front (d.refreshRules shared nowMs)) := by
  unfold Desk.refreshRules
  split
  · exact .refl hooks _
  · split
    · exact .refl hooks _
    · exact turn_setExclusionRules hooks d nowMs _

theorem front_discardForeground :
    front d.discardForeground = { (front d).drop with foreground := none } := by
  rw [← front_dropRequest]
  rfl

theorem turn_discardForeground : Turn hooks (front d) (front d.discardForeground) := by
  rw [front_discardForeground]
  exact .shut rfl (.inl rfl) rfl rfl (settles_drop (front d))

theorem turn_checkCadence : Turn hooks (front d) (front (d.checkCadence hooks nowMs)) := by
  unfold Desk.checkCadence
  split
  · exact .refl hooks _
  rename_i fg hopen
  split
  · rename_i hwanted
    obtain ⟨haddresses, hunlocked⟩ := Bool.and_eq_true_iff.mp hwanted
    have hlocked : d.isLocked = false := by simpa using hunlocked
    split
    · split
      · rw [front_requestUrl]
        refine ⟨fun h => ⟨h.allowed, h.unlocked, h.title, h.url⟩, .inl rfl, ?_, fun _ h => h⟩
        exact .asked fg rfl rfl (.inl (Nat.lt_succ_self _)) hopen haddresses hlocked
      · exact .refl hooks _
    · rw [front_urlUnavailable]
      exact .refl hooks _
  · exact .refl hooks _

/-- The address of the window in front goes, if it has one. -/
theorem front_dropUrl : front (d.dropUrl nowMs) = front d ∨ ∃ fg, (front d).foreground = some fg ∧
      front (d.dropUrl nowMs) = (front d).split fg { fg with startMs := nowMs, url := none } := by
  unfold Desk.dropUrl
  split
  · exact .inl rfl
  · rename_i fg hopen
    split
    · exact .inr ⟨fg, hopen, front_splitForeground d nowMs fg _⟩
    · exact .inl rfl

theorem turn_checkDeadline : Turn hooks (front d) (front (d.checkDeadline nowMs)) := by
  unfold Desk.checkDeadline
  split
  · split
    · exact .refl hooks _
    · split
      · rw [front_clearRequest]
        have hsettles : ∀ {v : Front}, v.generation = (front d).generation →
            Settles (front d) v.clear := fun h => .inl (by simp [Front.clear, h])
        have hdrop := front_dropUrl (d.urlUnavailable nowMs) nowMs
        rw [front_urlUnavailable] at hdrop
        rcases hdrop with heq | ⟨fg, hfg, heq⟩
        · rw [heq]
          exact ⟨fun h => ⟨h.allowed, h.unlocked, h.title, h.url⟩, .inl rfl,
            .settled rfl rfl (hsettles rfl), fun _ h => h⟩
        · rw [heq]
          exact .restyled hfg rfl rfl rfl rfl (fun h => h.title fg hfg) nofun nofun (.inl rfl)
            (.settled rfl rfl (hsettles rfl))
      · exact .refl hooks _
  · exact .refl hooks _

/-- The front once the new choices are in place, before the interval is split. -/
theorem front_chosen (titles addresses : Bool) (hd' : d' =
      let d1 := { d with windowTitles := titles, pageAddresses := addresses }
      let d2 := if (d.windowTitles && !titles) || (d.pageAddresses && !addresses)
        then d1.clearRequest else d1
      if d.pageAddresses && !addresses then d2.closeAvailability nowMs "uia" .url else d2) :
    front d' = { front d with titles := titles, addresses := addresses }.clear ∨
      (front d' = { front d with titles := titles, addresses := addresses } ∧
        (d.pageAddresses = true → addresses = true)) := by
  subst hd'
  dsimp only
  rw [apply_ite front, front_closeAvailability, ite_self]
  split
  · exact .inl (front_clearRequest _)
  · rename_i hoff
    refine .inr ⟨rfl, fun haddresses => ?_⟩
    simp only [haddresses, Bool.or_eq_true_iff, not_or, Bool.true_and] at hoff
    simpa using hoff.2

theorem turn_setPreferences (titles addresses : Bool) :
    Turn hooks (front d) (front (d.setPreferences titles addresses nowMs)) := by
  unfold Desk.setPreferences
  dsimp only
  generalize hd' : (if (d.pageAddresses && !addresses) = true then _ else _) = d'
  have hchosen := front_chosen d nowMs titles addresses hd'.symm
  -- A request in flight is given up, unless addresses stay chosen.
  have hflight : ∀ v' : Front, v'.asked = (front d').asked → v'.inFlight = (front d').inFlight →
      v'.generation = (front d').generation → v'.addresses = (front d').addresses →
      v'.locked = (front d').locked →
      v'.foreground.map windowOf = (front d').foreground.map windowOf →
      Flight hooks (front d) v' := by
    intro v' hasked hin hgen haddresses hlocked hwindow
    rcases hchosen with heq | ⟨heq, hkeeps⟩
    · rw [heq] at hasked hin hgen
      exact .settled hasked hin (.inl (hgen ▸ Nat.lt_succ_self _))
    · rw [heq] at hasked hin hgen haddresses hlocked hwindow
      exact .waiting hasked hgen hin hwindow (fun h => haddresses.trans (hkeeps h))
        fun h => hlocked.trans h
  have hview : (front d').foreground = (front d).foreground ∧ (front d').rules = (front d).rules ∧
      (front d').locked = (front d).locked ∧ (front d').titles = titles ∧
      (front d').addresses = addresses ∧ (front d').said = (front d).said := by
    rcases hchosen with heq | ⟨heq, -⟩ <;>
    · rw [heq]
      exact ⟨rfl, rfl, rfl, rfl, rfl, rfl⟩
  obtain ⟨hfg, hrules, hlocked, htitles, haddresses, hsaid⟩ := hview
  split
  · rename_i hopen
    have hnone : (front d').foreground = none := hopen
    refine ⟨fun _ => private_none hnone, .inl hsaid, hflight _ rfl rfl rfl rfl rfl rfl, ?_⟩
    exact fun u ⟨fg, h, _⟩ => absurd (hnone.symm.trans h) nofun
  rename_i fg hopen
  have hbefore : (front d).foreground = some fg := hfg.symm.trans hopen
  generalize hnewTitle : (if titles = true then some fg.rawTitle else none) = newTitle
  generalize hnewUrl : (if addresses = true then fg.url else none) = newUrl
  have htitle : newTitle.isSome = true → titles = true := by
    rw [← hnewTitle]
    exact title_of_choice
  have hurl : ∀ u, newUrl = some u → addresses = true ∧ fg.url = some u := by
    intro u hu
    rw [← hnewUrl] at hu
    split at hu
    · exact ⟨‹_›, hu⟩
    · cases hu
  split
  · rw [front_splitForeground]
    refine .restyled hbefore rfl rfl hrules hlocked ?_ (fun u hu => (hurl u hu).2) ?_ (.inl ?_)
      (hflight _ rfl rfl rfl rfl rfl ?_)
    · intro _ hsome
      exact htitles.trans (htitle hsome)
    · intro _ hsome
      obtain ⟨u, hu⟩ := Option.isSome_iff_exists.mp hsome
      exact haddresses.trans (hurl u hu).1
    · show (front d').said ++ [payloadOf fg] = (front d).said ++ [payloadOf fg]
      rw [hsaid]
    · show some (windowOf fg) = (front d').foreground.map windowOf
      rw [hfg, hbefore]
      rfl
  · -- Nothing is split: what the interval shows is what the new choices allow.
    rename_i hsame
    obtain ⟨hsameTitle, hsameUrl⟩ : ¬ (d.windowTitles ≠ titles ∧ fg.title ≠ newTitle) ∧
        ¬ (d.pageAddresses ≠ addresses ∧ fg.url ≠ newUrl) := by
      simpa only [Bool.or_eq_true_iff, Bool.and_eq_true_iff, bne_iff_ne, not_or] using hsame
    refine .restyled hbefore hopen rfl hrules hlocked ?_ (fun _ h => h) ?_ (.inr hsaid)
      (hflight _ rfl rfl rfl rfl rfl rfl)
    · intro hprivate hsome
      refine htitles.trans ?_
      by_contra hoff
      have hwas : d.windowTitles = true := hprivate.title fg hbefore hsome
      refine hsameTitle ⟨fun h => hoff (h ▸ hwas), fun h => hoff (htitle ?_)⟩
      rw [← h]
      exact hsome
    · intro hprivate hsome
      refine haddresses.trans ?_
      by_contra hoff
      have hwas : d.pageAddresses = true := hprivate.url fg hbefore hsome
      obtain ⟨u, hu⟩ := Option.isSome_iff_exists.mp hsome
      exact hsameUrl ⟨fun h => hoff (h ▸ hwas), fun h => hoff (hurl u (h ▸ hu)).1⟩

theorem turn_onBoundary (boundaryMs : Nat) :
    Turn hooks (front d) (front (d.onBoundary boundaryMs)) := by
  unfold Desk.onBoundary
  dsimp only
  rw [front_availabilityRows, front_splitActivityAt]
  unfold Desk.splitForegroundAt
  split
  · exact .refl hooks _
  rename_i fg hopen
  rw [front_splitForeground]
  refine .restyled hopen rfl rfl rfl rfl (fun h => h.title fg hopen) (fun _ h => h)
    (fun h => h.url fg hopen) (.inl rfl) (.waiting rfl rfl rfl ?_ id id)
  show some (windowOf fg) = d.openForeground.map windowOf
  rw [hopen]
  rfl

theorem turn_closeAll : Turn hooks (front d) (front (d.closeAll nowMs)) := by
  unfold Desk.closeAll
  dsimp only
  rw [front_availabilityRows, front_closeActivity, front_closeForeground, front_clearRequest]
  exact .shut rfl (.inr rfl) rfl rfl (.inl (Nat.lt_succ_self _))

theorem turn_sourceUnavailable : Turn hooks (front d) (front (d.sourceUnavailable nowMs)) := by
  unfold Desk.sourceUnavailable
  dsimp only
  rw [front_transitionAvailability, front_transitionAvailability]
  split
  · exact turn_closeAll hooks d nowMs
  · rw [front_cancelUrl]
    exact .refl hooks _

/-! ## Taking a result -/

/-- What taking a result does: nothing, when it is of an older generation. Otherwise no request is
in flight afterwards, and an address that is recorded is the one of the result. -/
structure Admission (hooks : Hooks) (result : DesktopActivityUrlResult) (v v' : Front) : Prop where
  safe : Private v → Private v'
  said : Said v v'
  asked : v'.asked = v.asked
  generation : v'.generation = v.generation
  stale : result.generation ≠ v.generation → v' = v
  taken : result.generation = v.generation → v'.inFlight = false
  url : ∀ u, HasUrl v' u → HasUrl v u ∨
    (result.generation = v.generation ∧ result.url.bind hooks.normalizeUrl = some u ∧
      v'.foreground.map windowOf = v.foreground.map windowOf)

section

variable {result : DesktopActivityUrlResult} {v : Front} (h : result.generation = v.generation)

include h

/-- A result that is taken and changes nothing else. -/
theorem Admission.consumed : Admission hooks result v { v with inFlight := false } :=
  ⟨fun h => ⟨h.allowed, h.unlocked, h.title, h.url⟩, .inl rfl, rfl, rfl, fun hne => absurd h hne,
    fun _ => rfl, fun _ hu => .inl hu⟩

/-- A result that changes the address of the window in front. -/
theorem Admission.recorded {url : Option String} (hfg : v.foreground = some fg)
    (haddresses : v.addresses = true)
    (hurl : ∀ u, url = some u → result.url.bind hooks.normalizeUrl = some u) :
    Admission hooks result v ({ v with inFlight := false }.split fg
      { fg with startMs := nowMs, url := url }) := by
  refine ⟨fun hv => (private_some rfl).mpr ?_, .inr ⟨fg, hfg, rfl⟩, rfl, rfl,
    fun hne => absurd h hne, fun _ => rfl, ?_⟩
  · obtain ⟨hallowed, hunlocked, htitle, -⟩ := (private_some hfg).mp hv
    exact ⟨hallowed, hunlocked, htitle, fun _ => haddresses⟩
  · rintro u ⟨fg', heq, hu⟩
    cases heq
    refine .inr ⟨h, hurl u hu, ?_⟩
    show some (windowOf fg) = v.foreground.map windowOf
    rw [hfg]
    rfl

theorem admission_recordUrl (haddresses : v.addresses = true)
    (hd : front d = { v with inFlight := false }) :
    Admission hooks result v (front (d.recordUrl hooks result nowMs)) := by
  have hdrop : ∀ d' : Desk, front d' = front d →
      Admission hooks result v (front (d'.dropUrl nowMs)) := by
    intro d' hd'
    rcases front_dropUrl d' nowMs with heq | ⟨fg', hfg', heq⟩
    · rw [heq, hd', hd]
      exact .consumed hooks h
    · rw [hd', hd] at hfg' heq
      rw [heq]
      exact .recorded hooks nowMs h hfg' haddresses nofun
  unfold Desk.recordUrl
  split
  · exact hdrop _ (front_urlUnavailable d nowMs)
  dsimp only
  split
  · exact hdrop _ (front_closeAvailability d nowMs "uia" .url)
  rename_i url hurl
  have hd' := (front_closeAvailability d nowMs "uia" .url).trans hd
  generalize d.closeAvailability nowMs "uia" .url = d' at hd' ⊢
  unfold Desk.setUrl
  split
  · rw [hd']
    exact .consumed hooks h
  rename_i fg' hopen
  have hfg' : v.foreground = some fg' := by
    have : (front d').foreground = some fg' := hopen
    rwa [hd'] at this
  split
  · rw [hd']
    exact .consumed hooks h
  · rw [front_splitForeground, hd']
    refine .recorded hooks nowMs h hfg' haddresses ?_
    rintro u ⟨⟩
    exact hurl

end

theorem admission_admitUrlResult (result : DesktopActivityUrlResult)
    (snapshot : Option ForegroundSnapshot) :
    Admission hooks result (front d) (front (d.admitUrlResult hooks result snapshot nowMs)) := by
  unfold Desk.admitUrlResult
  split
  · exact ⟨id, .inl rfl, rfl, rfl, fun _ => rfl, fun heq => absurd heq ‹_›, fun _ hu => .inl hu⟩
  rename_i hgen
  have hgen : result.generation = (front d).generation := not_not.mp hgen
  dsimp only
  split
  · exact .consumed hooks hgen
  split
  · exact .consumed hooks hgen
  split
  · exact .consumed hooks hgen
  rename_i hwanted
  have haddresses : d.pageAddresses = true := by
    simp only [Bool.or_eq_true_iff, not_or] at hwanted
    simpa using hwanted.1
  split
  · exact .consumed hooks hgen
  · split
    · exact admission_recordUrl hooks _ nowMs hgen haddresses rfl
    · exact .consumed hooks hgen

end Acts

/-! ## Histories -/

/-- What the scheduler does between two moments. -/
inductive Act where
  | refresh (shared : Option ExclusionRules) (nowMs : Nat)
  | discard
  | coarse (event : DesktopActivityProbeEvent) (nowMs : Nat)
  | unavailable (nowMs : Nat)
  | event (event : DesktopActivityProbeEvent) (nowMs : Nat)
  | query (snapshot : Option ForegroundSnapshot) (nowMs : Nat)
  /-- A result that comes while the exclusion policy is unavailable. -/
  | ignored (result : DesktopActivityUrlResult)
  | take (result : DesktopActivityUrlResult) (snapshot : Option ForegroundSnapshot) (nowMs : Nat)
  | deadline (nowMs : Nat)
  | cadence (nowMs : Nat)
  | preferences (titles addresses : Bool) (nowMs : Nat)
  | rules (rules : ExclusionRules) (nowMs : Nat)
  | boundary (boundaryMs : Nat)
  | sourceUnavailable (nowMs : Nat)
  | closeAll (nowMs : Nat)

/-- The result that is delivered in an act. -/
def Act.result : Act → Option DesktopActivityUrlResult
  | .ignored result => some result
  | .take result _ _ => some result
  | _ => none

def act (hooks : Hooks) (d : Desk) : Act → Desk
  | .refresh shared nowMs => d.refreshRules shared nowMs
  | .discard => d.discardForeground
  | .coarse event nowMs => d.handleCoarseEvent hooks nowMs event
  | .unavailable nowMs => d.exclusionUnavailable nowMs
  | .event event nowMs => d.handleEvent hooks nowMs event
  | .query snapshot nowMs => d.queryForeground hooks snapshot nowMs
  | .ignored _ => d
  | .take result snapshot nowMs => d.admitUrlResult hooks result snapshot nowMs
  | .deadline nowMs => d.checkDeadline nowMs
  | .cadence nowMs => d.checkCadence hooks nowMs
  | .preferences titles addresses nowMs => d.setPreferences titles addresses nowMs
  | .rules rules nowMs => d.setExclusionRules rules nowMs
  | .boundary boundaryMs => d.onBoundary boundaryMs
  | .sourceUnavailable nowMs => d.sourceUnavailable nowMs
  | .closeAll nowMs => d.closeAll nowMs

/-- The acts of taking a result. -/
def resultActs (answers : PollAnswers) (nowMs : Nat) : List Act :=
  match answers.result with
  | none => []
  | some result =>
    if answers.availableAtResult then
      [.refresh answers.rulesAtResult nowMs, .take result answers.snapshotAtResult nowMs]
    else [.ignored result]

/-- The acts a call consists of. -/
def actsOf : Call → List Act
  | .pollAndStep answers nowMs => .refresh answers.rules nowMs ::
    if !answers.available then
      .discard :: answers.coarseEvents.map (.coarse · nowMs) ++ [.unavailable nowMs]
    else
      answers.events.map (.event · nowMs) ++ .query answers.snapshot nowMs ::
        (resultActs answers nowMs ++ [.deadline nowMs, .cadence nowMs])
  | .setPreferences titles addresses nowMs => [.preferences titles addresses nowMs]
  | .setExclusionRules rules nowMs => [.rules rules nowMs]
  | .onBoundary boundaryMs => [.boundary boundaryMs]
  | .sourceUnavailable nowMs => [.sourceUnavailable nowMs]
  | .closeAll nowMs => [.closeAll nowMs]

def run (hooks : Hooks) (d : Desk) (acts : List Act) : Desk := acts.foldl (act hooks) d

variable {a : Act}

section Histories

variable (hooks : Hooks) (d : Desk)

theorem run_append (acts acts' : List Act) :
    run hooks d (acts ++ acts') = run hooks (run hooks d acts) acts' :=
  List.foldl_append

/-- The acts of a call make up the call. -/
theorem run_actsOf (call : Call) : run hooks d (actsOf call) = d.call hooks call := by
  cases call with
  | pollAndStep answers nowMs =>
    unfold actsOf Desk.call Desk.pollAndStep
    cases havailable : answers.available with
    | false => simp [run, act, havailable, List.foldl_map]
    | true =>
      cases hresult : answers.result with
      | none => simp [run, act, resultActs, havailable, hresult, List.foldl_map]
      | some result =>
        cases hat : answers.availableAtResult with
        | false | true =>
          simp [run, act, resultActs, havailable, hresult, hat, List.foldl_map,
            Desk.handleUrlResult]
  | _ => rfl

/-- The acts of a history make up the history. -/
theorem run_acts (calls : List Call) :
    run hooks d (calls.flatMap actsOf) = calls.foldl (Desk.call hooks) d := by
  induction calls generalizing d with
  | nil => rfl
  | cons call calls ih => rw [List.flatMap_cons, run_append, run_actsOf, ih, List.foldl_cons]

/-- What an act does to the front, when it takes no result. -/
theorem turn_act (ha : a.result = none) : Turn hooks (front d) (front (act hooks d a)) := by
  cases a with
  | refresh shared nowMs => exact turn_refreshRules hooks d nowMs shared
  | discard => exact turn_discardForeground hooks d
  | coarse event nowMs => exact turn_handleCoarseEvent hooks d nowMs event
  | unavailable nowMs =>
    show Turn hooks (front d) (front (d.exclusionUnavailable nowMs))
    unfold Desk.exclusionUnavailable
    rw [front_urlUnavailable, front_transitionAvailability]
    exact .refl hooks _
  | event event nowMs => exact turn_handleEvent hooks d nowMs event
  | query snapshot nowMs => exact turn_queryForeground hooks d nowMs snapshot
  | ignored result | take result snapshot nowMs => cases ha
  | deadline nowMs => exact turn_checkDeadline hooks d nowMs
  | cadence nowMs => exact turn_checkCadence hooks d nowMs
  | preferences titles addresses nowMs => exact turn_setPreferences hooks d nowMs titles addresses
  | rules rules nowMs => exact turn_setExclusionRules hooks d nowMs rules
  | boundary boundaryMs => exact turn_onBoundary hooks d boundaryMs
  | sourceUnavailable nowMs => exact turn_sourceUnavailable hooks d nowMs
  | closeAll nowMs => exact turn_closeAll hooks d nowMs

/-- What an act does when it takes a result. -/
theorem admission_act {result : DesktopActivityUrlResult} (ha : a.result = some result) :
    front (act hooks d a) = front d ∨ Admission hooks result (front d) (front (act hooks d a)) := by
  cases a with
  | ignored result' => exact .inl rfl
  | take result' snapshot nowMs =>
    cases ha
    exact .inr (admission_admitUrlResult hooks d nowMs result snapshot)
  | _ => cases ha

/-- One act keeps the promises, and says only what is open. -/
theorem act_private (a : Act) :
    (Private (front d) → Private (front (act hooks d a))) ∧
      Said (front d) (front (act hooks d a)) := by
  cases ha : a.result with
  | none => exact ⟨(turn_act hooks d ha).safe, (turn_act hooks d ha).said⟩
  | some result =>
    rcases admission_act hooks d ha with heq | h
    · rw [heq]
      exact ⟨id, .inl rfl⟩
    · exact ⟨h.safe, h.said⟩

end Histories

theorem private_new (titles addresses : Bool) (rules : ExclusionRules) :
    Private (front (new titles addresses rules)) :=
  private_none rfl

variable {d : Desk} {acts : List Act} {payload : ForegroundPayload}

theorem run_private (hooks : Hooks) (hd : Private (front d)) (acts : List Act) :
    Private (front (run hooks d acts)) := by
  induction acts generalizing d with
  | nil => exact hd
  | cons a acts ih => exact ih ((act_private hooks d a).1 hd)

/-- An act of the history said this, of the interval that was open then. -/
def SaidDuring (hooks : Hooks) (d : Desk) (acts : List Act) (payload : ForegroundPayload) : Prop :=
  ∃ before a fg, before ++ [a] <+: acts ∧ (run hooks d before).openForeground = some fg ∧
    payload = payloadOf fg ∧
    (front (run hooks d (before ++ [a]))).said = (front (run hooks d before)).said ++ [payload]

theorem SaidDuring.later {hooks : Hooks}
    (h : SaidDuring hooks d acts payload) (a : Act) : SaidDuring hooks d (acts ++ [a]) payload := by
  obtain ⟨before, b, fg, hpre, hrest⟩ := h
  exact ⟨before, b, fg, hpre.trans (List.prefix_append acts [a]), hrest⟩

/-- Everything said in a history was said in some act, of the interval that was open then. -/
theorem run_said (hooks : Hooks) (d : Desk) (acts : List Act)
    (h : payload ∈ (front (run hooks d acts)).said) :
    payload ∈ (front d).said ∨ SaidDuring hooks d acts payload := by
  induction acts using List.reverseRecOn with
  | nil => exact .inl h
  | append_singleton acts a ih =>
    have hlast : run hooks d (acts ++ [a]) = act hooks (run hooks d acts) a :=
      run_append hooks d acts [a]
    rcases (act_private hooks (run hooks d acts) a).2 with hsame | ⟨fg, hfg, hsaid⟩
    · rw [hlast, hsame] at h
      exact (ih h).imp_right (·.later a)
    have hin := h
    rw [hlast, hsaid] at hin
    rcases List.mem_append.mp hin with hin | hin
    · exact (ih hin).imp_right (·.later a)
    · rw [List.mem_singleton] at hin
      refine .inr ⟨acts, a, fg, List.prefix_rfl, hfg, hin, ?_⟩
      rw [hlast, hsaid, hin]

/-- In every history of the scheduler, whatever the probe, the rules, the URL helper and the clock
say: at every moment the window in front is allowed by the rules, nothing is in front while the
screen is locked, and a title or an address is there only if the owner chose them. Every foreground
row shows exactly an interval that was open when the row was written, and so kept to this. -/
theorem scheduler_keeps_private (hooks : Hooks) (titles addresses : Bool) (rules : ExclusionRules)
    (calls : List Call) :
    Private (front (calls.foldl (Desk.call hooks) (new titles addresses rules))) ∧
    (∀ moment, moment <+: calls.flatMap actsOf →
      Private (front (run hooks (new titles addresses rules) moment))) ∧
    ∀ row ∈ (calls.foldl (Desk.call hooks) (new titles addresses rules)).rows,
      ∀ payload, row.payload = .foreground payload →
      SaidDuring hooks (new titles addresses rules) (calls.flatMap actsOf) payload := by
  have hstart := private_new titles addresses rules
  rw [← run_acts]
  refine ⟨run_private hooks hstart _, fun moment _ => run_private hooks hstart moment, ?_⟩
  intro row hrow payload hpayload
  have hsaid : payload ∈ (front (run hooks (new titles addresses rules)
      (calls.flatMap actsOf))).said := by
    refine List.mem_filterMap.mpr ⟨row, hrow, ?_⟩
    simp [shown, hpayload]
  rcases run_said hooks _ _ hsaid with hin | h
  · -- A new scheduler has said nothing.
    cases hin
  · exact h

/-! ## Whose page address it is -/

/-- The requests made so far, oldest first. -/
def requests (d : Desk) : List DesktopActivityUrlRequest := (front d).asked

/-- How many results were delivered. -/
def deliveries (acts : List Act) : Nat := acts.countP fun a => a.result.isSome

/-- A source that delivers at most one result for each request, whenever it likes: the `n`-th
result is the one of request `owner n`, made before, and carries its generation and window. -/
structure Faithful (hooks : Hooks) (start : Desk) (owner : Nat → Nat) (acts : List Act) : Prop where
  once : ∀ i j, i < deliveries acts → j < deliveries acts → owner i = owner j → i = j
  answers : ∀ before a result, before ++ [a] <+: acts → a.result = some result →
    ∃ request, (requests (run hooks start before))[owner (deliveries before)]? = some request ∧
      result.generation = request.generation ∧ result.windowId = request.windowId

/-- A request for this window is in flight and nothing has come between: no other window or title,
no lock, no exclusion, no choice against addresses, no new generation. -/
structure Kept (fg : OpenForeground) (generation : Nat) (d : Desk) : Prop where
  window : d.openForeground.map windowOf = some (windowOf fg)
  allowed : foregroundExcluded d.exclusionRules fg.exeName fg.rawTitle = false
  unlocked : d.isLocked = false
  addresses : d.pageAddresses = true
  inFlight : d.urlState.inFlight = true
  generation : d.urlState.generation = generation

/-- The last request was made for a window that has been kept in front since. -/
structure Since (hooks : Hooks) (start : Desk) (acts before : List Act) (ask : Act)
    (mid : List Act) (fg : OpenForeground) (generation : Nat) : Prop where
  acts_eq : acts = before ++ ask :: mid
  asked : requests (run hooks start (before ++ [ask])) =
    requests (run hooks start before) ++ [requestFor hooks generation fg]
  last : requests (run hooks start acts) = requests (run hooks start (before ++ [ask]))
  kept : ∀ m, m <+: mid → Kept fg generation (run hooks start (before ++ ask :: m))

/-- What holds of the requests at every moment. -/
structure Ledger (hooks : Hooks) (start : Desk) (owner : Nat → Nat) (acts : List Act) : Prop where
  bounded : ∀ request ∈ requests (run hooks start acts),
    request.generation ≤ (run hooks start acts).urlState.generation
  /-- Only the request in flight can still be answered under the current generation. -/
  latest : ∀ i request, (requests (run hooks start acts))[i]? = some request →
    request.generation = (run hooks start acts).urlState.generation →
    (∀ k < deliveries acts, owner k ≠ i) →
    (run hooks start acts).urlState.inFlight = true ∧
      i + 1 = (requests (run hooks start acts)).length
  since : (run hooks start acts).urlState.inFlight = true →
    ∃ before ask mid fg, Since hooks start acts before ask mid fg
      (run hooks start acts).urlState.generation

variable {before mid : List Act}

section Ownership

variable {hooks : Hooks} {start : Desk} {owner : Nat → Nat}

theorem run_snoc (acts : List Act) (a : Act) :
    run hooks start (acts ++ [a]) = act hooks (run hooks start acts) a :=
  run_append hooks start acts [a]

variable {generation : Nat}

/-- A moment of waiting follows a moment of waiting. -/
theorem Kept.waiting {d' : Desk} (h : Kept fg generation d) (hprivate : Private (front d'))
    (hwindow : d'.openForeground.map windowOf = d.openForeground.map windowOf)
    (haddresses : d'.pageAddresses = true) (hlocked : d'.isLocked = false)
    (hflight : d'.urlState.inFlight = true) (hgen : d'.urlState.generation = generation) :
    Kept fg generation d' := by
  refine ⟨hwindow.trans h.window, ?_, hlocked, haddresses, hflight, hgen⟩
  obtain ⟨fg', hfg', hsame⟩ := Option.map_eq_some_iff.mp (hwindow.trans h.window)
  simp only [windowOf, Prod.mk.injEq] at hsame
  rw [← hsame.2.1, ← hsame.2.2]
  exact hprivate.allowed fg' hfg'

variable {ask : Act} {v' : Front}

theorem Since.extend (h : Since hooks start acts before ask mid fg generation)
    (hasked : requests (run hooks start (acts ++ [a])) = requests (run hooks start acts))
    (hkept : Kept fg generation (run hooks start (acts ++ [a]))) :
    Since hooks start (acts ++ [a]) before ask (mid ++ [a]) fg generation := by
  refine ⟨by rw [h.acts_eq, List.append_assoc, List.cons_append], h.asked, hasked.trans h.last, ?_⟩
  intro m hm
  rcases List.prefix_concat_iff.mp hm with rfl | hm
  · rw [← List.cons_append, ← List.append_assoc, ← h.acts_eq]
    exact hkept
  · exact h.kept m hm

/-- The state at the last moment, of which `Since` speaks. -/
theorem Since.now (h : Since hooks start acts before ask mid fg generation) :
    Kept fg generation (run hooks start acts) := by
  have hlast := h.kept mid List.prefix_rfl
  rwa [← h.acts_eq] at hlast

theorem Ledger.nil (titles addresses : Bool) (rules : ExclusionRules) :
    Ledger hooks (new titles addresses rules) owner [] := by
  refine ⟨?_, ?_, ?_⟩
  · intro request h
    cases h
  · intro i request h
    cases h
  · intro h
    cases h

theorem deliveries_snoc (acts : List Act) (a : Act) :
    deliveries (acts ++ [a]) = deliveries acts + if a.result.isSome then 1 else 0 := by
  simp [deliveries, List.countP_append, List.countP_cons]

/-- A request that settles earlier ones leaves none of them under the new generation. -/
theorem Ledger.unanswerable (h : Ledger hooks start owner acts)
    (hsettles : Settles (front (run hooks start acts)) v') {i : Nat}
    {request : DesktopActivityUrlRequest}
    (hi : (requests (run hooks start acts))[i]? = some request)
    (hgen : request.generation = v'.generation) (hopen : ∀ k < deliveries acts, owner k ≠ i) :
    False := by
  rcases hsettles with hlt | ⟨heq, hquiet⟩
  · have hle := h.bounded request (List.mem_of_getElem? hi)
    have hlt' : (run hooks start acts).urlState.generation < v'.generation := hlt
    omega
  · have hin := (h.latest i request hi (hgen.trans heq) hopen).1
    rw [show (run hooks start acts).urlState.inFlight = false from hquiet] at hin
    cases hin

theorem Settles.le {v : Front} (h : Settles v v') : v.generation ≤ v'.generation := by
  rcases h with h | ⟨h, -⟩
  · exact h.le
  · exact h.ge

section

variable (h : Ledger hooks start owner acts)

include h

/-- An act that leaves the requests, the generation and what is in flight keeps the ledger. -/
theorem Ledger.carry
    (hasked : requests (run hooks start (acts ++ [a])) = requests (run hooks start acts))
    (hgen : (run hooks start (acts ++ [a])).urlState.generation =
      (run hooks start acts).urlState.generation)
    (hflight : (run hooks start (acts ++ [a])).urlState.inFlight =
      (run hooks start acts).urlState.inFlight)
    (hkept : ∀ fg, Kept fg (run hooks start acts).urlState.generation (run hooks start acts) →
      Kept fg (run hooks start acts).urlState.generation (run hooks start (acts ++ [a]))) :
    Ledger hooks start owner (acts ++ [a]) := by
  refine ⟨?_, ?_, fun hin => ?_⟩
  · rw [hasked, hgen]
    exact h.bounded
  · intro i request hi hr hopen
    rw [hasked] at hi ⊢
    rw [hgen] at hr
    rw [hflight]
    refine h.latest i request hi hr fun k hk => hopen k ?_
    rw [deliveries_snoc]
    omega
  · rw [hgen]
    obtain ⟨before, ask, mid, fg, hsince⟩ := h.since (hflight ▸ hin)
    exact ⟨before, ask, mid ++ [a], fg, hsince.extend hasked (hkept fg hsince.now)⟩

/-- An act that takes no result keeps the ledger. -/
theorem Ledger.turn (hstart : Private (front start)) (ha : a.result = none) : Ledger hooks start
    owner (acts ++ [a]) := by
  have hturn := turn_act hooks (run hooks start acts) ha
  rw [← run_snoc] at hturn
  have hdeliveries : deliveries (acts ++ [a]) = deliveries acts := by
    simp [deliveries_snoc, ha]
  have hprivate : Private (front (run hooks start (acts ++ [a]))) := run_private hooks hstart _
  cases hturn.flight with
  | settled hasked hquiet hsettles =>
    have hasked : requests (run hooks start (acts ++ [a])) =
        requests (run hooks start acts) := hasked
    refine ⟨?_, ?_, fun hin => ?_⟩
    · intro request hrequest
      exact (h.bounded request (hasked ▸ hrequest)).trans hsettles.le
    · intro i request hi hgen hopen
      rw [hasked] at hi
      rw [hdeliveries] at hopen
      exact (h.unanswerable hsettles hi hgen hopen).elim
    · rw [show (run hooks start (acts ++ [a])).urlState.inFlight = false from hquiet] at hin
      cases hin
  | waiting hasked hgen hflight hwindow haddresses hlocked =>
    refine h.carry hasked hgen hflight fun fg hnow => ?_
    exact hnow.waiting hprivate hwindow (haddresses hnow.addresses) (hlocked hnow.unlocked)
      (hflight.trans hnow.inFlight) hgen
  | asked fg hasked hflight hsettles hfg haddresses hlocked =>
    have hasked : requests (run hooks start (acts ++ [a])) = requests (run hooks start acts) ++
      [requestFor hooks (run hooks start (acts ++ [a])).urlState.generation fg] := hasked
    refine ⟨?_, ?_, fun _ => ?_⟩
    · rw [hasked]
      exact List.forall_mem_append.mpr
        ⟨fun request hold => (h.bounded request hold).trans hsettles.le,
        List.forall_mem_singleton.mpr le_rfl⟩
    · intro i request hi hgen hopen
      rw [hasked] at hi ⊢
      rw [hdeliveries] at hopen
      refine ⟨hflight, ?_⟩
      rcases Nat.lt_or_ge i (requests (run hooks start acts)).length with hlt | hge
      · rw [List.getElem?_append_left hlt] at hi
        exact (h.unanswerable hsettles hi hgen hopen).elim
      · have hlen := (List.getElem?_eq_some_iff.mp hi).1
        simp only [List.length_append, List.length_singleton] at hlen ⊢
        omega
    · refine ⟨acts, a, [], fg, rfl, hasked, rfl, ?_⟩
      intro m hm
      rw [List.prefix_nil.mp hm]
      refine ⟨?_, ?_, hlocked, haddresses, hflight, rfl⟩
      · show (front (run hooks start (acts ++ [a]))).foreground.map windowOf = _
        rw [hfg]
        rfl
      · exact hprivate.allowed fg hfg

/-- A result that is not taken keeps the ledger. -/
theorem Ledger.untaken
    (hsame : front (run hooks start (acts ++ [a])) = front (run hooks start acts)) :
    Ledger hooks start owner (acts ++ [a]) := by
  refine h.carry (congrArg Front.asked hsame) (congrArg Front.generation hsame)
    (congrArg Front.inFlight hsame) fun fg hnow => ⟨?_, ?_, ?_, ?_, ?_, ?_⟩
  · exact (congrArg (fun v : Front => v.foreground.map windowOf) hsame).trans hnow.window
  · exact (congrArg (fun v : Front => foregroundExcluded v.rules fg.exeName fg.rawTitle)
      hsame).trans hnow.allowed
  · exact (congrArg Front.locked hsame).trans hnow.unlocked
  · exact (congrArg Front.addresses hsame).trans hnow.addresses
  · exact (congrArg Front.inFlight hsame).trans hnow.inFlight
  · exact congrArg Front.generation hsame

variable {result : DesktopActivityUrlResult}

/-- A result that is taken is the one of the request in flight. -/
theorem Ledger.owned (hsource : Faithful hooks start owner (acts ++ [a]))
    (ha : a.result = some result)
    (hgen : result.generation = (run hooks start acts).urlState.generation) :
    (run hooks start acts).urlState.inFlight = true ∧
      owner (deliveries acts) + 1 = (requests (run hooks start acts)).length := by
  obtain ⟨request, hi, hrequest, -⟩ := hsource.answers acts a result List.prefix_rfl ha
  refine h.latest _ request hi (hrequest.symm.trans hgen) ?_
  intro k hk heq
  have hlt : deliveries acts < deliveries (acts ++ [a]) := by
    simp [deliveries_snoc, ha]
  have := hsource.once k (deliveries acts) (hk.trans hlt) hlt heq
  omega

/-- A result that is taken keeps the ledger: nothing is in flight afterwards. -/
theorem Ledger.taken (hsource : Faithful hooks start owner (acts ++ [a]))
    (ha : a.result = some result)
    (hgen : result.generation = (run hooks start acts).urlState.generation)
    (hadmission : Admission hooks result (front (run hooks start acts)) (front (run hooks start
      (acts ++ [a])))) : Ledger hooks start owner (acts ++ [a]) := by
  have hasked : requests (run hooks start (acts ++ [a])) = requests (run hooks start acts) :=
    hadmission.asked
  have hsame : (run hooks start (acts ++ [a])).urlState.generation =
    (run hooks start acts).urlState.generation := hadmission.generation
  have hquiet : (run hooks start (acts ++ [a])).urlState.inFlight = false := hadmission.taken hgen
  refine ⟨?_, ?_, fun hin => ?_⟩
  · rw [hasked, hsame]
    exact h.bounded
  · intro i request hi hr hopen
    rw [hasked] at hi
    rw [hsame] at hr
    have hdeliveries : deliveries (acts ++ [a]) = deliveries acts + 1 := by
      simp [deliveries_snoc, ha]
    -- Both this request and the one just answered are the last one made.
    have hlast := (h.latest i request hi hr fun k hk => hopen k (by omega)).2
    have howned := (h.owned hsource ha hgen).2
    exact absurd (show owner (deliveries acts) = i by omega) (hopen _ (by omega))
  · rw [hquiet] at hin
    cases hin

end

theorem Faithful.initial {acts' : List Act} (h : Faithful hooks start owner acts')
    (hpre : acts <+: acts') : Faithful hooks start owner acts := by
  have hle : deliveries acts ≤ deliveries acts' := hpre.sublist.countP_le
  exact ⟨fun i j hi hj => h.once i j (hi.trans_le hle) (hj.trans_le hle),
    fun before a result hbefore => h.answers before a result (hbefore.trans hpre)⟩

/-- The ledger holds at every moment of a history. -/
theorem ledger_run (titles addresses : Bool) (rules : ExclusionRules)
    (hsource : Faithful hooks (new titles addresses rules) owner acts) :
    Ledger hooks (new titles addresses rules) owner acts := by
  induction acts using List.reverseRecOn with
  | nil => exact .nil titles addresses rules
  | append_singleton acts a ih =>
    have hledger := ih (hsource.initial (List.prefix_append acts [a]))
    cases ha : a.result with
    | none => exact hledger.turn (private_new titles addresses rules) ha
    | some result =>
      have hact := admission_act hooks (run hooks (new titles addresses rules) acts) ha
      rw [← run_snoc] at hact
      rcases hact with hsame | hadmission
      · exact hledger.untaken hsame
      · by_cases hgen : result.generation =
            (run hooks (new titles addresses rules) acts).urlState.generation
        · exact hledger.taken hsource ha hgen hadmission
        · exact hledger.untaken (hadmission.stale hgen)

/-- With a source that delivers at most one result for each request, an address that appears on the
window in front is the normalized result of a request for that window, program and title. At every
moment since that request the same window was in front, allowed, unlocked, with addresses chosen and
the request in flight. -/
theorem url_belongs_to_window {titles addresses : Bool} {rules : ExclusionRules} {calls : List Call}
    (hsource : Faithful hooks (new titles addresses rules) owner (calls.flatMap actsOf))
    {before after : List Act} {a : Act} {u : String}
    (hacts : calls.flatMap actsOf = before ++ a :: after)
    (hnew : ¬ HasUrl (front (run hooks (new titles addresses rules) before)) u)
    (hurl : HasUrl (front (run hooks (new titles addresses rules) (before ++ [a]))) u) :
    ∃ result pre ask mid fg, a.result = some result ∧ result.url.bind hooks.normalizeUrl = some u ∧
      before = pre ++ ask :: mid ∧
      (requests (run hooks (new titles addresses rules) pre)).length = owner (deliveries before) ∧
      requests (run hooks (new titles addresses rules) (pre ++ [ask])) =
        requests (run hooks (new titles addresses rules) pre) ++
          [requestFor hooks result.generation fg] ∧
      (∀ m, m <+: mid → Kept fg result.generation
        (run hooks (new titles addresses rules) (pre ++ ask :: m))) ∧
      (run hooks (new titles addresses rules) (before ++ [a])).openForeground.map windowOf =
        some (windowOf fg) := by
  have hpre : before ++ [a] <+: calls.flatMap actsOf := by
    rw [hacts]
    exact ⟨after, by simp⟩
  have hsource := hsource.initial hpre
  have hledger := ledger_run titles addresses rules
    (hsource.initial (List.prefix_append before [a]))
  rw [run_snoc] at hurl
  cases ha : a.result with
  | none => exact absurd ((turn_act hooks _ ha).url u hurl) hnew
  | some result =>
    rcases admission_act hooks (run hooks (new titles addresses rules) before) ha with
      hsame | hadmission
    · rw [hsame] at hurl
      exact absurd hurl hnew
    · obtain ⟨hgen, hnorm, hwindow⟩ := (hadmission.url u hurl).resolve_left hnew
      obtain ⟨hflight, hlast⟩ := hledger.owned hsource ha hgen
      obtain ⟨pre, ask, mid, fg, hsince⟩ := hledger.since hflight
      have hgen : (run hooks (new titles addresses rules) before).urlState.generation =
        result.generation := hgen.symm
      rw [hgen] at hsince
      refine ⟨result, pre, ask, mid, fg, rfl, hnorm, hsince.acts_eq, ?_, hsince.asked,
        hsince.kept, ?_⟩
      · have hlen : (requests (run hooks (new titles addresses rules) before)).length =
            (requests (run hooks (new titles addresses rules) pre)).length + 1 := by
          rw [hsince.last, hsince.asked]
          simp
        omega
      · rw [run_snoc]
        exact hwindow.trans hsince.now.window

end Ownership

/-- Hooks that keep the address as it is. -/
def plainHooks : Hooks where
  normalizeUrl url := some url
  titleFingerprint _ := 0

/-- A browser comes to the front, and its page address comes back with the next poll. -/
def browserCalls : List Call :=
  [.pollAndStep { events := [.foreground 7 "Chrome" "chrome.exe" "Page"] } 1000,
    .pollAndStep {
      result := some ⟨0, 7, some "a.example", false⟩
      snapshotAtResult := some ⟨7, "Chrome", "chrome.exe", "Page"⟩ } 2000]

def browserStart : Desk := new true true ⟨[], [], false⟩

/-- The acts before the result is taken. -/
def browserBefore : List Act := (browserCalls.flatMap actsOf).take 8

def browserAdmit : Act :=
  .take ⟨0, 7, some "a.example", false⟩ (some ⟨7, "Chrome", "chrome.exe", "Page"⟩) 2000

theorem eq_take_of_snoc_prefix (h : before ++ [a] <+: acts) :
    before = acts.take before.length ∧ acts[before.length]? = some a := by
  obtain ⟨rest, rfl⟩ := h
  simp

theorem browser_faithful : Faithful plainHooks browserStart id (browserCalls.flatMap actsOf) := by
  refine ⟨fun i j _ _ h => h, ?_⟩
  intro before a result hpre ha
  obtain ⟨htake, hget⟩ := eq_take_of_snoc_prefix hpre
  have hlt : before.length < 11 := (List.getElem?_eq_some_iff.mp hget).1
  -- The one result of the history is in the ninth act.
  have hchecked : ∀ n < 11, ∀ r ∈ ((browserCalls.flatMap actsOf)[n]?.bind Act.result).toList,
      ∃ q ∈ ((requests (run plainHooks browserStart ((browserCalls.flatMap actsOf).take n)))[
        deliveries ((browserCalls.flatMap actsOf).take n)]?).toList,
        r.generation = q.generation ∧ r.windowId = q.windowId := by
    decide +kernel
  obtain ⟨q, hq, hgen, hwindow⟩ := hchecked before.length hlt result (by simp [hget, ha])
  rw [← htake] at hq
  exact ⟨q, by simpa using hq, hgen, hwindow⟩

/-- The theorem at a history of two polls. -/
theorem url_belongs_to_window_browser :
    HasUrl (front (run plainHooks browserStart (browserBefore ++ [browserAdmit]))) "a.example" ∧
    ∃ result pre ask mid fg, browserAdmit.result = some result ∧ browserBefore = pre ++ ask :: mid ∧
      Kept fg result.generation (run plainHooks browserStart (pre ++ ask :: mid)) := by
  have hacts : browserCalls.flatMap actsOf =
      browserBefore ++ browserAdmit :: [.deadline 2000, .cadence 2000] := rfl
  have hnew : ¬ HasUrl (front (run plainHooks browserStart browserBefore)) "a.example" := by
    rintro ⟨fg, hfg, hurl⟩
    have hnone : (front (run plainHooks browserStart browserBefore)).foreground.bind
        OpenForeground.url = none := by decide +kernel
    rw [hfg] at hnone
    rw [Option.bind_some, hurl] at hnone
    cases hnone
  have hurl : HasUrl (front (run plainHooks browserStart (browserBefore ++ [browserAdmit])))
      "a.example" :=
    ⟨⟨2000, 7, "Chrome", "chrome.exe", "Page", some "Page", some "a.example"⟩,
      by decide +kernel, rfl⟩
  obtain ⟨result, pre, ask, mid, fg, hresult, -, hbefore, -, -, hkept, -⟩ :=
    url_belongs_to_window browser_faithful hacts hnew hurl
  exact ⟨hurl, result, pre, ask, mid, fg, hresult, hbefore, hkept mid List.prefix_rfl⟩

/-! ## While the policy cannot be read -/

/-- Nothing is in front, nothing is asked, and this was said so far. -/
structure Blank (said : List ForegroundPayload) (v : Front) : Prop where
  foreground : v.foreground = none
  quiet : v.inFlight = false
  said : v.said = said

/-- The shared rules are new to the scheduler, and exclude the window in front. -/
def NewlyExcluded (d : Desk) (shared : Option ExclusionRules) : Prop :=
  ∃ rules fg, shared = some rules ∧ rules ≠ d.exclusionRules ∧ d.openForeground = some fg ∧
    foregroundExcluded rules fg.exeName fg.rawTitle = true

section Unreadable

variable (hooks : Hooks) (d : Desk) (nowMs : Nat)

theorem blank_handleCoarseEvent {said : List ForegroundPayload} (h : Blank said (front d))
    (event : DesktopActivityProbeEvent) :
    Blank said (front (d.handleCoarseEvent hooks nowMs event)) := by
  unfold Desk.handleCoarseEvent
  split
  · show Blank said (front (d.handleActivityState _ nowMs))
    rw [front_handleActivityState]
    split
    · refine ⟨rfl, rfl, ?_⟩
      simp [Front.drop, Front.close, h.foreground, h.said]
    · exact ⟨h.foreground, h.quiet, h.said⟩
  · unfold Desk.handleEvent
    rw [front_transitionAvailability, front_closeActivity]
    exact h
  · exact h

/-- What is said up to the check of the policy: the open window, if new rules exclude it. -/
theorem said_refreshRules (shared : Option ExclusionRules) :
    (front (d.refreshRules shared nowMs)).said = (front d).said ↔ ¬ NewlyExcluded d shared := by
  unfold Desk.refreshRules
  split
  · refine iff_of_true rfl ?_
    rintro ⟨rules, fg, h, -⟩
    cases h
  rename_i rules
  split
  · rename_i hsame
    refine iff_of_true rfl ?_
    rintro ⟨rules', fg, h, hnew, -⟩
    cases h
    exact hnew hsame
  · rename_i hnew
    unfold Desk.setExclusionRules
    dsimp only
    split
    · rename_i hopen
      refine iff_of_true rfl ?_
      rintro ⟨rules', fg, -, -, h, -⟩
      exact absurd (hopen.symm.trans h) nofun
    rename_i fg hopen
    have hopen : d.openForeground = some fg := hopen
    split
    · rename_i hexcluded
      refine iff_of_false ?_ (not_not.mpr ⟨rules, fg, rfl, hnew, hopen, hexcluded⟩)
      rw [front_clearRequest, front_closeForeground]
      simp [Front.clear, Front.close, front, hopen]
    rename_i hallowed
    refine iff_of_true rfl ?_
    rintro ⟨rules', fg', h, -, h', hexcluded⟩
    cases h
    cases hopen.symm.trans h'
    exact hallowed hexcluded

/-- While the exclusion policy cannot be read, a poll leaves no window in front and no request in
flight. It adds no foreground row exactly when the shared rules, which are looked at first, do not
newly exclude the window that was in front: that window's interval is closed with a row. -/
theorem poll_withholds_foreground (answers : PollAnswers) :
    Blank (front d).said (front (d.pollAndStep hooks { answers with available := false } nowMs)) ↔
      ¬ NewlyExcluded d answers.rules := by
  have hblank : Blank (front (d.refreshRules answers.rules nowMs)).said
      (front (d.pollAndStep hooks { answers with available := false } nowMs)) := by
    show Blank _ (front (Desk.exclusionUnavailable nowMs _))
    unfold Desk.exclusionUnavailable
    rw [front_urlUnavailable, front_transitionAvailability]
    refine List.foldlRecOn (motive := fun d' => Blank _ (front d')) answers.coarseEvents _ ?_ ?_
    · rw [front_discardForeground]
      exact ⟨rfl, rfl, rfl⟩
    · intro d' hd' event _
      exact blank_handleCoarseEvent hooks d' nowMs hd' event
  rw [← said_refreshRules d nowMs answers.rules, ← hblank.said]
  exact ⟨fun h => h.said, fun h => ⟨hblank.foreground, hblank.quiet, h⟩⟩

end Unreadable

/-- A window comes to the front. The owner then excludes its program, and the policy cannot be read
at the next poll: that poll adds a row with the program and the title of the window. -/
theorem excluded_window_said_unreadable :
    let d := [Call.pollAndStep { events := [.foreground 7 "Notes" "notes.exe" "diary"] } 1].foldl
      (Desk.call plainHooks) (new true false ⟨[], [], false⟩)
    let answers : PollAnswers := { rules := some ⟨["notes.exe"], [], false⟩, available := false }
    d.rows = [] ∧ (d.pollAndStep plainHooks answers 2).rows.map shown =
      [some ⟨"Notes", some "notes.exe", some "diary", none⟩] := by
  decide +kernel

end SolstoneWindows.Proofs.DesktopActivity
