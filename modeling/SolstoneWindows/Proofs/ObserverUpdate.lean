import Mathlib.Data.List.Induction
import SolstoneWindows.ObserverUpdate

/-!
# What the pane shows was earned

Before a check has succeeded there is nothing to install and no version to name (`Unfound`). A
dismissed failure then leaves "up to date", and it is the only event that does.
-/

set_option autoImplicit false

namespace SolstoneWindows.Proofs.ObserverUpdate

open SolstoneWindows.ObserverUpdate

variable {seen : List UpdateEvent}

/-- A check that was completed, and did not fail. -/
def IsCheck : UpdateEvent → Prop
  | .checkResult _ _ => True
  | .downloaded _ => True
  | _ => False

/-- "Up to date" comes after a check, and "staged" after a download no check has refused since. -/
structure Earned (seen : List UpdateEvent) : Prop where
  upToDate : (run seen).display = .upToDate → ∃ event ∈ seen, IsCheck event
  staged : (run seen).activity = .idle → (run seen).display = .staged →
    ∃ before version after, seen = before ++ .downloaded version :: after ∧
      ∀ now, .checkFailed now ∉ after

theorem run_append (seen : List UpdateEvent) (event : UpdateEvent) :
    run (seen ++ [event]) = reduce (run seen) event :=
  List.foldl_append

/-- No version was found. -/
structure Unfound (s : UpdateState) : Prop where
  staged : s.staged = none
  available : s.available = none
  version : s.status.availableVersion = none

theorem unfound_run (h : ∀ event ∈ seen, ¬ IsCheck event) : Unfound (run seen) := by
  induction seen using List.reverseRecOn with
  | nil => exact ⟨rfl, rfl, rfl⟩
  | append_singleton seen event ih =>
    rw [List.forall_mem_append, List.forall_mem_singleton] at h
    obtain ⟨hstaged, havailable, hversion⟩ := ih h.1
    rw [run_append]
    cases event with
    | checkResult => exact absurd trivial h.2
    | downloaded => exact absurd trivial h.2
    | dismissed =>
      refine ⟨hstaged, rfl, ?_⟩
      show (if _ then _ else _ : ReconciledUpdateStatus).availableVersion = none
      split <;> exact hversion
    | checkFailed => exact ⟨rfl, rfl, hversion⟩
    | _ => exact ⟨hstaged, havailable, hversion⟩

/-- A failure that was dismissed although nothing was found before. -/
def Forgets (seen : List UpdateEvent) : Prop :=
  (run seen).configValid = true ∧ (run seen).status.lastCheckOutcome = some .failed ∧
    ∀ event ∈ seen, ¬ IsCheck event

/-- Without such a dismissal there is no outcome but a failure. -/
theorem outcome_run (h : ∀ event ∈ seen, ¬ IsCheck event)
    (hforgets : ∀ before, before ++ [.dismissed] <+: seen → ¬ Forgets before) :
    (run seen).configValid = true → (run seen).status.lastCheckOutcome = none ∨
      (run seen).status.lastCheckOutcome = some .failed := by
  induction seen using List.reverseRecOn with
  | nil => exact fun _ => .inl rfl
  | append_singleton seen event ih =>
    rw [List.forall_mem_append, List.forall_mem_singleton] at h
    have ih := ih h.1 fun before hbefore => hforgets before (hbefore.trans (List.prefix_append _ _))
    rw [run_append]
    cases event with
    | checkResult => exact absurd trivial h.2
    | downloaded => exact absurd trivial h.2
    | dismissed =>
      intro hvalid
      have hkept : (run seen).status.lastCheckOutcome ≠ some .failed := fun hfailed =>
        hforgets seen (List.prefix_refl _) ⟨hvalid, hfailed, h.1⟩
      simp only [reduce, if_neg hkept]
      exact ih hvalid
    | checkFailed => exact fun _ => .inr rfl
    | configInvalid => exact fun hvalid => nomatch hvalid
    | _ => exact ih

/-- A staged version was downloaded, and no check failed since. -/
theorem staged_run (h : (run seen).staged.isSome = true) :
    ∃ before version after, seen = before ++ .downloaded version :: after ∧
      ∀ now, .checkFailed now ∉ after := by
  induction seen using List.reverseRecOn with
  | nil => cases h
  | append_singleton seen event ih =>
    rw [run_append] at h
    have hlater (hstaged : (run seen).staged.isSome = true)
      (hevent : ∀ now, event ≠ .checkFailed now) :
        ∃ before version after, seen ++ [event] = before ++ .downloaded version :: after ∧
          ∀ now, .checkFailed now ∉ after := by
      obtain ⟨before, version, after, rfl, hafter⟩ := ih hstaged
      refine ⟨before, version, after ++ [event], by simp, fun now hmem => ?_⟩
      rw [List.mem_append, List.mem_singleton] at hmem
      exact hmem.elim (hafter now) fun heq => hevent now heq.symm
    cases event with
    | downloaded version => exact ⟨seen, version, [], rfl, fun _ h => nomatch h⟩
    | checkFailed => cases h
    | checkResult now result => cases result <;> exact hlater h nofun
    | _ => exact hlater h nofun

/-- Everything the pane shows in a run was earned, exactly if no failure is dismissed in it before a
check has succeeded. -/
theorem display_earned_iff (events : List UpdateEvent) : (∀ seen, seen <+: events → Earned seen) ↔
      ∀ before, before ++ [.dismissed] <+: events → ¬ Forgets before := by
  constructor
  · rintro h before hbefore ⟨hvalid, hfailed, hnone⟩
    obtain ⟨hstaged, -, hversion⟩ := unfound_run hnone
    have hshown : (run (before ++ [.dismissed])).display = .upToDate := by
      rw [run_append]
      simp [reduce, UpdateState.display, hvalid, hfailed, hstaged, hversion]
    obtain ⟨event, hmem, hcheck⟩ := (h _ hbefore).upToDate hshown
    rcases List.mem_append.mp hmem with hmem | hmem
    · exact hnone event hmem hcheck
    · rw [List.mem_singleton.mp hmem] at hcheck
      exact hcheck
  · intro h seen hseen
    constructor
    · intro hshown
      by_contra hnone
      have hnone : ∀ event ∈ seen, ¬ IsCheck event := fun event hmem hcheck =>
        hnone ⟨event, hmem, hcheck⟩
      obtain ⟨hstaged, havailable, -⟩ := unfound_run hnone
      have houtcome := outcome_run hnone fun before hbefore => h before (hbefore.trans hseen)
      revert hshown
      unfold UpdateState.display
      grind
    · intro hidle hshown
      refine staged_run ?_
      revert hshown
      unfold UpdateState.display
      grind

/-- The first check fails, and the failure is dismissed: "up to date". -/
theorem display_earned_fails : ¬ Earned [.checkFailed 0, .dismissed] := fun h => by
  obtain ⟨event, hmem, hcheck⟩ := h.upToDate rfl
  simp only [List.mem_cons, List.not_mem_nil, or_false] at hmem
  rcases hmem with rfl | rfl <;> exact hcheck

end SolstoneWindows.Proofs.ObserverUpdate
