import Mathlib.Data.List.Chain
import Mathlib.Data.List.Induction

/-!
# Chains in which every element names the one before it

`R p c` reads: `c` names `p` as its predecessor. When a name belongs to one element only and a
first element names nothing, a chain is determined by its last element.
-/

set_option autoImplicit false

namespace Lib.BackLink

variable {α : Type} {R : α → α → Prop} {First : α → Prop}

/-- Two relations that hold along a list hold together along it. -/
theorem isChain_and {S : α → α → Prop} {xs : List α} (hR : List.IsChain R xs)
    (hS : List.IsChain S xs) : List.IsChain (fun p c => R p c ∧ S p c) xs := by
  induction xs with
  | nil => exact .nil
  | cons x xs ih =>
    rw [List.isChain_cons] at hR hS ⊢
    exact ⟨fun y hy => ⟨hR.1 y hy, hS.1 y hy⟩, ih hR.2 hS.2⟩

/-- The predecessor of the last element, when there is one, is named by it. -/
theorem link_last {xs : List α} {p c : α} (h : List.IsChain R (xs ++ [p] ++ [c])) : R p c := by
  obtain ⟨_, _, hlink⟩ := List.isChain_append.mp h
  exact hlink p (by simp) c (by simp)

/-- Two chains that end alike are equal. That a name belongs to one element, and that a first
element names none, is asked of the elements of the two chains only. -/
theorem eq_of_last_eq {xs ys : List α} {c : α}
    (hunique : ∀ p ∈ xs, ∀ q ∈ ys, ∀ d, R p d → R q d → p = q)
    (hfirst : ∀ p, p ∈ xs ∨ p ∈ ys → ∀ d, First d → ¬ R p d)
    (hxs : List.IsChain R (xs ++ [c])) (hys : List.IsChain R (ys ++ [c]))
    (hxsFirst : ∀ x ∈ (xs ++ [c]).head?, First x) (hysFirst : ∀ y ∈ (ys ++ [c]).head?, First y) :
    xs = ys := by
  -- From the end to the front: the last element fixes the one before it, which ends the rest.
  induction xs using List.reverseRecOn generalizing ys c with
  | nil =>
    have hc : First c := hxsFirst c rfl
    rcases List.eq_nil_or_concat ys with rfl | ⟨ys, q, rfl⟩
    · rfl
    · rw [List.concat_eq_append] at hys
      exact absurd (link_last hys) (hfirst q (.inr (by simp)) c hc)
  | append_singleton xs p ih =>
    have hp : R p c := link_last hxs
    rcases List.eq_nil_or_concat ys with rfl | ⟨ys, q, rfl⟩
    · exact absurd hp (hfirst p (.inl (by simp)) c (hysFirst c rfl))
    rw [List.concat_eq_append] at hys hysFirst hunique hfirst ⊢
    have hq : R q c := link_last hys
    have hpq : p = q := hunique p (by simp) q (by simp) c hp hq
    subst hpq
    have hxs' := (List.isChain_append.mp hxs).1
    have hys' := (List.isChain_append.mp hys).1
    have hrest : xs = ys := by
      refine ih ?_ ?_ hxs' hys' ?_ ?_
      · intro a ha b hb
        exact hunique a (List.mem_append_left _ ha) b (List.mem_append_left _ hb)
      · intro a ha
        exact hfirst a (ha.imp (List.mem_append_left _) (List.mem_append_left _))
      · intro x hx
        exact hxsFirst x (by simpa [List.head?_append] using hx)
      · intro y hy
        exact hysFirst y (by simpa [List.head?_append] using hy)
    rw [hrest]

end Lib.BackLink
