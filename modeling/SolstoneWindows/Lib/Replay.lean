import Mathlib.Logic.Basic

/-!
# What a history did to something outside

A program keeps a history of its calls, and something outside (a file, a disk) answers each of
them by a step of its own. `Replays step` says that the entries of a history, one after another,
take the outside from one state to another. The outside may have a choice at every step.
-/

set_option autoImplicit false

namespace SolstoneWindows.Lib.Replay

section

variable {E D : Type} {step : E → D → D → Prop}

/-- The entries, in their order, take `d` to `d'`. -/
def Replays (step : E → D → D → Prop) : List E → D → D → Prop
  | [], d, d' => d = d'
  | entry :: entries, d, d' => ∃ d1, step entry d d1 ∧ Replays step entries d1 d'

theorem replays_append {entries entries' : List E} {d d' : D} :
    Replays step (entries ++ entries') d d' ↔
      ∃ d1, Replays step entries d d1 ∧ Replays step entries' d1 d' := by
  induction entries generalizing d with
  | nil => exact ⟨fun h => ⟨d, rfl, h⟩, fun ⟨_, hd, h⟩ => by cases hd; exact h⟩
  | cons entry entries ih =>
    constructor
    · intro ⟨d1, hstep, hrest⟩
      obtain ⟨d2, hentries, hentries'⟩ := ih.mp hrest
      exact ⟨d2, ⟨d1, hstep, hentries⟩, hentries'⟩
    · intro ⟨d2, ⟨d1, hstep, hentries⟩, hentries'⟩
      exact ⟨d1, hstep, ih.mpr ⟨d2, hentries, hentries'⟩⟩

theorem replays_append_one {entries : List E} {entry : E} {d d' : D} :
    Replays step (entries ++ [entry]) d d' ↔ ∃ d1, Replays step entries d d1 ∧
      step entry d1 d' := by
  rw [replays_append]
  constructor
  · intro ⟨d1, hentries, d2, hstep, hd⟩
    exact ⟨d1, hentries, by cases hd; exact hstep⟩
  · intro ⟨d1, hentries, hstep⟩
    exact ⟨d1, hentries, d', hstep, rfl⟩

/-- A step that depends on a part of the entry only. -/
theorem replays_map {F : Type} {part : F → E} {entries : List F} {d d' : D} :
    Replays step (entries.map part) d d' ↔
      Replays (fun entry => step (part entry)) entries d d' := by
  induction entries generalizing d with
  | nil => exact Iff.rfl
  | cons entry entries ih => exact exists_congr fun d1 => and_congr_right fun _ => ih

end

end SolstoneWindows.Lib.Replay
