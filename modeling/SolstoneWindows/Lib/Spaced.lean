import Mathlib.Data.List.Basic

/-!
# Pieces in order, with gaps

`Spaced P pieces xs` says that `xs` is the given pieces one after the other, each complete and
contiguous, with elements that satisfy `P` before, between and after them. It is what a stream
promises when some of what it was given may be damaged: the good pieces are all there, once and
in order, and everything else is known to come from `P`.
-/

set_option autoImplicit false

namespace Lib.Streams

/-- The pieces in order, with gaps of elements that satisfy `P`. -/
inductive Spaced {α : Type} (P : α → Prop) : List (List α) → List α → Prop where
  | nil : Spaced P [] []
  | gap {x : α} {pieces : List (List α)} {xs : List α} :
    P x → Spaced P pieces xs → Spaced P pieces (x :: xs)
  | piece {piece : List α} {pieces : List (List α)} {xs : List α} :
    Spaced P pieces xs → Spaced P (piece :: pieces) (piece ++ xs)

variable {α : Type} {P : α → Prop}

/-- A gap on its own. -/
theorem Spaced.gaps {xs : List α} (h : ∀ x ∈ xs, P x) : Spaced P [] xs := by
  induction xs with
  | nil => exact .nil
  | cons x xs ih =>
    exact .gap (h x List.mem_cons_self) (ih fun y hy => h y (List.mem_cons_of_mem _ hy))

/-- A gap with empty pieces, which take no room. -/
theorem Spaced.empties {pieces : List (List α)} {xs : List α} (hxs : ∀ x ∈ xs, P x)
    (h : ∀ piece ∈ pieces, piece = []) : Spaced P pieces xs := by
  induction pieces with
  | nil => exact .gaps hxs
  | cons piece pieces ih =>
    obtain rfl := h piece List.mem_cons_self
    exact .piece (ih fun p hp => h p (List.mem_cons_of_mem _ hp))

/-- One whole piece. -/
theorem Spaced.single (piece : List α) : Spaced P [piece] piece := by
  have h : Spaced P [piece] (piece ++ []) := .piece .nil
  rwa [List.append_nil] at h

theorem Spaced.append {pieces pieces' : List (List α)} {xs xs' : List α}
    (h : Spaced P pieces xs) (h' : Spaced P pieces' xs') :
    Spaced P (pieces ++ pieces') (xs ++ xs') := by
  induction h with
  | nil => exact h'
  | gap hx _ ih => exact .gap hx ih
  | piece _ ih =>
    rw [List.cons_append, List.append_assoc]
    exact .piece ih

theorem Spaced.mono {P' : α → Prop} {pieces : List (List α)} {xs : List α}
    (h : Spaced P pieces xs) (hP : ∀ x, P x → P' x) : Spaced P' pieces xs := by
  induction h with
  | nil => exact .nil
  | gap hx _ ih => exact .gap (hP _ hx) ih
  | piece _ ih => exact .piece ih

/-- In an empty stream every piece is empty. -/
theorem Spaced.of_nil {pieces : List (List α)} (h : Spaced P pieces []) :
    ∀ piece ∈ pieces, piece = [] := by
  generalize hxs : ([] : List α) = xs at h
  induction h with
  | nil => intro piece hpiece; cases hpiece
  | gap _ _ _ => cases hxs
  | piece _ ih =>
    obtain ⟨rfl, rfl⟩ := List.append_eq_nil_iff.mp hxs.symm
    intro piece hpiece
    rcases List.mem_cons.mp hpiece with rfl | hmem
    · rfl
    · exact ih rfl piece hmem

end Lib.Streams
