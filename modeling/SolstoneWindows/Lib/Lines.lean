import Mathlib.Data.List.Basic

/-!
# Text as lines that keep their terminator

`splitInclusive` cuts a list after every separator. It is the inverse of joining, on lists of
lines that each end in their only separator (`IsLine`): joining and cutting again gives the lines
back, and cutting and joining always gives the text back.
-/

set_option autoImplicit false

namespace Lib.Lines

variable {α : Type} [DecidableEq α] {sep : α} {line rest : List α} {lines : List (List α)}

/-- Cut after every separator. What follows the last one is a piece of its own, unless it is
empty. -/
def splitInclusive (sep : α) : List α → List (List α)
  | [] => []
  | x :: xs =>
    if x = sep then [x] :: splitInclusive sep xs
    else
      match splitInclusive sep xs with
      | [] => [[x]]
      | piece :: pieces => (x :: piece) :: pieces

omit [DecidableEq α] in
/-- A line: one separator, and it comes last. -/
def IsLine (sep : α) (line : List α) : Prop := ∃ body, sep ∉ body ∧ line = body ++ [sep]

/-- A line in front of a text is its first piece. -/
theorem splitInclusive_line_append (h : IsLine sep line) (rest : List α) :
    splitInclusive sep (line ++ rest) = line :: splitInclusive sep rest := by
  obtain ⟨body, hbody, rfl⟩ := h
  induction body with
  | nil => simp [splitInclusive]
  | cons x body ih =>
    rw [List.mem_cons, not_or] at hbody
    obtain ⟨hx, hbody⟩ := hbody
    have hcut : splitInclusive sep (body ++ [sep] ++ rest)
        = (body ++ [sep]) :: splitInclusive sep rest := ih hbody
    show splitInclusive sep (x :: (body ++ [sep] ++ rest)) = _
    rw [splitInclusive, if_neg (Ne.symm hx), hcut]
    rfl

/-- Lines that are joined are cut where they were joined. -/
theorem splitInclusive_flatten (h : ∀ line ∈ lines, IsLine sep line) :
    splitInclusive sep lines.flatten = lines := by
  induction lines with
  | nil => rfl
  | cons line lines ih =>
    obtain ⟨hline, hlines⟩ := List.forall_mem_cons.mp h
    rw [List.flatten_cons, splitInclusive_line_append hline, ih hlines]

omit [DecidableEq α] in
/-- Lines that are joined end in the separator. -/
theorem getLast?_flatten_lines (hne : lines ≠ []) (h : ∀ line ∈ lines, IsLine sep line) :
    lines.flatten.getLast? = some sep := by
  obtain ⟨front, last, rfl⟩ := List.eq_nil_or_concat lines |>.resolve_left hne
  rw [List.concat_eq_append] at h ⊢
  obtain ⟨body, _, rfl⟩ := h last (by simp)
  simp

/-- Cutting loses nothing. -/
theorem flatten_splitInclusive (text : List α) : (splitInclusive sep text).flatten = text := by
  induction text with
  | nil => rfl
  | cons x text ih =>
    rw [splitInclusive]
    split
    · rw [List.flatten_cons, ih]
      rfl
    -- The first piece takes `x` in front; without a piece there was no text.
    split
    next hnil =>
      rw [hnil] at ih
      rw [← ih]
      rfl
    next piece pieces hcons =>
      rw [hcons] at ih
      rw [← ih]
      rfl

end Lib.Lines
