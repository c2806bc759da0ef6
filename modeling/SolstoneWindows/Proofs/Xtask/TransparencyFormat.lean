import SolstoneWindows.Xtask.TransparencyFormat
import SolstoneWindows.Lib.Lines

/-!
# An entry is one line

The canonical rendering of an entry holds one newline, at its end (`renderTransparencyEntry_ok`), so
rendered entries can be joined to a ledger and cut again.
-/

set_option autoImplicit false

namespace SolstoneWindows.Xtask

open Lib.Lines

/-! ## An entry is one line -/

theorem newline_notMem_renderAsciiByte (byte : UInt8) : NEWLINE ∉ renderAsciiByte byte := by
  have key : ∀ n : Fin 256, NEWLINE ∉ renderAsciiByte (UInt8.ofFin n) := by decide +kernel
  exact key byte.toFin

theorem newline_notMem_renderAsciiString (value : String) : NEWLINE ∉ renderAsciiString value := by
  intro hmem
  simp only [renderAsciiString, List.mem_append, List.mem_singleton, List.mem_flatMap] at hmem
  rcases hmem with (hquote | ⟨byte, _, hbyte⟩) | hquote
  · exact absurd hquote (by decide)
  · exact newline_notMem_renderAsciiByte byte hbyte
  · exact absurd hquote (by decide)

theorem newline_notMem_renderUnsigned (value : Nat) : NEWLINE ∉ renderUnsigned value := by
  intro hmem
  obtain ⟨digit, hdigit, heq⟩ := List.mem_map.mp hmem
  have hrange := Nat.isDigit_of_mem_toDigits (by decide) (by decide) hdigit
  simp only [Char.isDigit, Bool.and_eq_true, decide_eq_true_eq] at hrange
  have hbyte : digit.val.toNat % 2 ^ 8 = 10 := by
    rw [← UInt32.toNat_toUInt8]
    exact congrArg UInt8.toNat heq
  have hlow : 48 ≤ digit.val.toNat := hrange.1
  have hhigh : digit.val.toNat ≤ 57 := hrange.2
  omega

/-- Pieces without a newline are joined by commas without one. -/
theorem newline_notMem_intersperse {pieces : List Bytes} (h : ∀ piece ∈ pieces, NEWLINE ∉ piece) :
    NEWLINE ∉ (pieces.intersperse [0x2c]).flatten := by
  induction pieces with
  | nil => simp
  | cons piece pieces ih =>
    obtain ⟨hpiece, hpieces⟩ := List.forall_mem_cons.mp h
    cases pieces with
    | nil => simpa using hpiece
    | cons next pieces =>
      rw [List.intersperse_cons_cons]
      have hcomma : NEWLINE ∉ ([0x2c] : Bytes) := by decide
      have hrest := ih hpieces
      simp only [List.flatten_cons, List.mem_append, not_or]
      exact ⟨hpiece, hcomma, hrest⟩

theorem newline_notMem_renderField {field : String × Bytes} (h : NEWLINE ∉ field.2) :
    NEWLINE ∉ renderField field := by
  have hcolon : NEWLINE ∉ ([0x3a] : Bytes) := by decide
  simp only [renderField, List.mem_append, not_or]
  exact ⟨⟨newline_notMem_renderAsciiString _, hcolon⟩, h⟩

theorem newline_notMem_renderObject {fields : List (String × Bytes)} {output : Bytes}
    (hok : renderObject fields = .ok output) (h : ∀ field ∈ fields, NEWLINE ∉ field.2) :
    NEWLINE ∉ output := by
  simp only [renderObject] at hok
  split at hok
  · cases hok
  cases hok
  have hfields : NEWLINE ∉
      (((fields.insertionSort byKey).map renderField).intersperse [0x2c]).flatten := by
    apply newline_notMem_intersperse
    intro piece hpiece
    obtain ⟨field, hfield, rfl⟩ := List.mem_map.mp hpiece
    exact newline_notMem_renderField (h field ((List.mem_insertionSort byKey).mp hfield))
  simp only [List.mem_append, not_or]
  exact ⟨⟨by decide, hfields⟩, by decide⟩

/-- From a computation that returned, the value it went on with. -/
theorem bind_eq_ok {ε α β : Type} {x : Except ε α} {f : α → Except ε β} {b : β}
    (h : (x >>= f) = .ok b) : ∃ a, x = .ok a ∧ f a = .ok b := by
  cases x with
  | error e => cases h
  | ok a => exact ⟨a, rfl, h⟩

-- One case for each constructor of a node, and the two lists that nodes nest through.
mutual

theorem newline_notMem_renderNode : ∀ (node : CanonicalNode) (output : Bytes),
    renderNode node = .ok output → NEWLINE ∉ output
  | .unsigned value, output, h => by
    rw [renderNode] at h
    cases h
    exact newline_notMem_renderUnsigned value
  | .string value, output, h => by
    rw [renderNode] at h
    cases h
    exact newline_notMem_renderAsciiString value
  | .array values, output, h => by
    rw [renderNode] at h
    obtain ⟨rendered, hrendered, hout⟩ := bind_eq_ok h
    cases hout
    have hpieces := newline_notMem_intersperse
      (newline_notMem_renderNodes values rendered hrendered)
    simp only [List.mem_append, not_or]
    exact ⟨⟨by decide, hpieces⟩, by decide⟩
  | .object entries, output, h => by
    rw [renderNode] at h
    obtain ⟨fields, hfields, hout⟩ := bind_eq_ok h
    exact newline_notMem_renderObject hout (newline_notMem_renderEntries entries fields hfields)

theorem newline_notMem_renderNodes : ∀ (values : List CanonicalNode) (rendered : List Bytes),
    renderNodes values = .ok rendered → ∀ piece ∈ rendered, NEWLINE ∉ piece
  | [], rendered, h => by
    rw [renderNodes] at h
    cases h
    simp
  | value :: values, rendered, h => by
    rw [renderNodes] at h
    obtain ⟨first, hfirst, h⟩ := bind_eq_ok h
    obtain ⟨rest, hrest, h⟩ := bind_eq_ok h
    cases h
    rw [List.forall_mem_cons]
    exact ⟨newline_notMem_renderNode value first hfirst,
      newline_notMem_renderNodes values rest hrest⟩

theorem newline_notMem_renderEntries :
    ∀ (entries : List (String × CanonicalNode)) (fields : List (String × Bytes)),
      renderEntries entries = .ok fields → ∀ field ∈ fields, NEWLINE ∉ field.2
  | [], fields, h => by
    rw [renderEntries] at h
    cases h
    simp
  | (key, value) :: entries, fields, h => by
    rw [renderEntries] at h
    obtain ⟨first, hfirst, h⟩ := bind_eq_ok h
    obtain ⟨rest, hrest, h⟩ := bind_eq_ok h
    cases h
    rw [List.forall_mem_cons]
    exact ⟨newline_notMem_renderNode value first hfirst,
      newline_notMem_renderEntries entries rest hrest⟩

end

/-- The canonical form of an entry is one line. -/
theorem canonicalizeTransparencyJson_isLine {entry : TransparencyLedgerEntryV1} {bytes : Bytes}
    (h : canonicalizeTransparencyJson entry = .ok bytes) : IsLine NEWLINE bytes := by
  obtain ⟨node, _, h⟩ := bind_eq_ok h
  obtain ⟨output, houtput, h⟩ := bind_eq_ok h
  cases h
  exact ⟨output, newline_notMem_renderNode node output houtput, rfl⟩

section Crates

variable {Value : Type} {crates : Crates Value} {bytes : Bytes} {model : TransparencyLedgerEntryV1}

/-- What rendering an entry has checked. -/
theorem renderTransparencyEntry_ok (h : renderTransparencyEntry crates model = .ok bytes) :
    crates.validate (crates.toValue model) = true ∧ IsLine NEWLINE bytes := by
  obtain ⟨_, hvalid, h⟩ := bind_eq_ok h
  constructor
  · unfold validateTransparencyEntryValue at hvalid
    split at hvalid
    · assumption
    · cases hvalid
  · cases hcanonical : canonicalizeTransparencyJson model with
    | error e => rw [hcanonical] at h; cases h
    | ok output =>
      rw [hcanonical] at h
      cases h
      exact canonicalizeTransparencyJson_isLine hcanonical

end Crates

end SolstoneWindows.Xtask
