import Mathlib.Data.List.TakeDrop
import Mathlib.Data.List.TakeWhile
import SolstoneWindows.ObserverLog.Record
import SolstoneWindows.Proofs.ObserverLog.Time

/-!
# What is written is one line of the grammar

A line is its tokens with one space between two of them (`encode_eq`). Every token that is written
is `Plain`, that is free of spaces and line ends, so the scanner gets the same tokens back, and
accepts each: the header token by token, then the fields, whose names are pairwise different and
none of the header's.
-/

set_option autoImplicit false

namespace SolstoneWindows.ObserverLog

variable {F : Type} {floats : Floats F}

/-! ## Plain text -/

/-- Neither a space nor the end of a line. -/
def PlainChar (c : Char) : Prop := c ≠ ' ' ∧ c ≠ '\n' ∧ c ≠ '\r'

instance (c : Char) : Decidable (PlainChar c) := inferInstanceAs (Decidable (_ ∧ _))

/-- A text that can stand as one token. -/
def Plain (text : List Char) : Prop := ∀ c ∈ text, PlainChar c

instance (text : List Char) : Decidable (Plain text) := List.decidableBAll _ text

variable {c sign sep : Char}

variable {p : Char → Bool} {i : Int} {accepts : List Char → Bool} {timestamp : SystemTime}

/-- A class of characters without the three is plain. -/
theorem plainChar_of_class (h : p c = true)
    (hspace : p ' ' = false := by decide) (hnewline : p '\n' = false := by decide)
    (hreturn : p '\r' = false := by decide) : PlainChar c := by
  refine ⟨?_, ?_, ?_⟩
  · rintro rfl
    rw [hspace] at h
    cases h
  · rintro rfl
    rw [hnewline] at h
    cases h
  · rintro rfl
    rw [hreturn] at h
    cases h

variable {text a b s name rest : List Char}

theorem plain_of_all (h : text.all p = true)
    (hspace : p ' ' = false := by decide) (hnewline : p '\n' = false := by decide)
    (hreturn : p '\r' = false := by decide) : Plain text := fun c hc =>
  plainChar_of_class (List.all_eq_true.mp h c hc) hspace hnewline hreturn

@[simp] theorem plain_nil : Plain [] := List.forall_mem_nil _

@[simp] theorem plain_cons : Plain (c :: text) ↔ PlainChar c ∧ Plain text :=
  List.forall_mem_cons

@[simp] theorem plain_append : Plain (a ++ b) ↔ Plain a ∧ Plain b :=
  List.forall_mem_append

theorem plain_isDigit (h : ∀ c ∈ text, c.isDigit = true) : Plain text :=
  plain_of_all (List.all_eq_true.mpr h)

/-! ## Numbers -/

variable {n bound : Nat}

theorem isDigit_natText (h : c ∈ natText n) : c.isDigit = true :=
  Nat.isDigit_of_mem_toDigits (by decide) (by decide) h

theorem plain_natText (n : Nat) : Plain (natText n) := plain_isDigit fun _ => isDigit_natText

theorem natText_ne_nil (n : Nat) : natText n ≠ [] := Nat.toDigits_ne_nil

/-- A number that is not zero is written without a leading zero. -/
theorem head?_natText_ne (h : n ≠ 0) : (natText n).head? ≠ some '0' := by
  induction n using Nat.strongRecOn with
  | ind n ih =>
    unfold natText
    by_cases hsmall : n < 10
    · rw [Nat.toDigits_of_lt_base hsmall]
      have key : ∀ n : Fin 10, n.val ≠ 0 → [n.val.digitChar].head? ≠ some '0' := by decide
      exact key ⟨n, hsmall⟩ h
    · rw [Nat.toDigits_of_base_le (by decide) (by omega)]
      have hrest : (natText (n / 10)).head? ≠ some '0' := ih (n / 10) (by omega) (by omega)
      rw [List.head?_append_of_ne_nil _ Nat.toDigits_ne_nil]
      exact hrest

theorem head?_natText_ne_sign (hc : c.isDigit = false) : (natText n).head? ≠ some c := by
  intro hhead
  have hdigit := isDigit_natText (List.mem_of_mem_head? hhead)
  rw [hc] at hdigit
  cases hdigit

theorem all_isDigit_natText (n : Nat) : (natText n).all Char.isDigit = true :=
  List.all_eq_true.mpr fun _ => isDigit_natText

theorem ofDigitChars_natText (n : Nat) : Nat.ofDigitChars 10 (natText n) 0 = n :=
  Nat.ofDigitChars_ten_toDigits

theorem stripSign_natText (h : sign.isDigit = false) : stripSign sign (natText n) = natText n :=
  if_neg (head?_natText_ne_sign h)

theorem parseUnsigned_natText (h : n < bound) : parseUnsigned bound (natText n) = some n := by
  unfold parseUnsigned
  have hplus : stripSign '+' (natText n) = natText n := stripSign_natText (by decide)
  simp only [hplus, ofDigitChars_natText]
  exact if_pos ⟨natText_ne_nil n, all_isDigit_natText n, h⟩

theorem isPlainNumber_natText (h : n < bound) : isPlainNumber bound (natText n) = true := by
  by_cases hzero : n = 0
  · subst hzero
    rfl
  · simp [isPlainNumber, natText_ne_nil, head?_natText_ne hzero, all_isDigit_natText,
      parseUnsigned_natText h]

theorem isValidLenToken_natText (h : n ≤ EXCLUDED_LEN_CAP) :
    isValidLenToken (natText n) = true := by
  by_cases hzero : n = 0
  · subst hzero
    rfl
  have hbound : n < 2 ^ 64 := by
    unfold EXCLUDED_LEN_CAP at h
    omega
  unfold isValidLenToken
  rw [parseUnsigned_natText hbound]
  simp [natText_ne_nil, head?_natText_ne hzero, all_isDigit_natText, h]

theorem length_natText_le {k : Nat} (h : n < 10 ^ k) (hk : 0 < k) : (natText n).length ≤ k :=
  (Nat.length_toDigits_le_iff (by decide) hk).mpr h

theorem isValidU128Token_natText (h : n < 2 ^ 128) : isValidU128Token (natText n) = true := by
  have hlength : (natText n).length ≤ 40 := length_natText_le (by omega) (by decide)
  unfold isValidU128Token
  rw [isPlainNumber_natText h]
  simp [hlength]

theorem parseI128_intText (hlow : -2 ^ 127 ≤ i) (hhigh : i < 2 ^ 127) :
    parseI128 (intText i) = some i := by
  unfold intText
  split
  next hneg =>
    show (if natText i.natAbs ≠ [] ∧ _ ∧ Nat.ofDigitChars 10 (natText i.natAbs) 0 ≤ 2 ^ 127 then
      some (-(Nat.ofDigitChars 10 (natText i.natAbs) 0 : Int)) else none) = some i
    rw [ofDigitChars_natText, if_pos ⟨natText_ne_nil _, all_isDigit_natText _, by omega⟩]
    congr 1
    omega
  next hneg =>
    unfold parseI128
    split
    next rest heq =>
      exact absurd (congrArg List.head? heq) (head?_natText_ne_sign (by decide))
    · rw [parseUnsigned_natText (by omega : i.natAbs < 2 ^ 127)]
      show some (Int.ofNat i.natAbs) = some i
      congr 1
      exact Int.natAbs_of_nonneg (by omega)

theorem isValidI128Token_intText (hlow : -2 ^ 127 ≤ i) (hhigh : i < 2 ^ 127) :
    isValidI128Token (intText i) = true := by
  by_cases hzero : i = 0
  · subst hzero
    rfl
  have hhead := head?_natText_ne (n := i.natAbs) (by omega)
  have hlength : (natText i.natAbs).length ≤ 39 := length_natText_le (by omega) (by decide)
  have hparse := parseI128_intText hlow hhigh
  have hne : natText i.natAbs ≠ ['0'] := fun heq => hhead (by rw [heq]; rfl)
  unfold isValidI128Token
  unfold intText at hparse ⊢
  split at hparse
  next hneg =>
    rw [if_pos hneg, hparse]
    simp [stripSign, natText_ne_nil, hhead, all_isDigit_natText, hne]
    omega
  rename_i hneg
  rw [if_neg hneg, hparse]
  have hminus : natText i.natAbs ≠ ['-', '0'] := fun heq =>
    head?_natText_ne_sign (n := i.natAbs) (c := '-') (by decide) (by rw [heq]; rfl)
  simp [stripSign_natText, natText_ne_nil, hhead, all_isDigit_natText, hne, hminus]
  omega

theorem plain_intText (i : Int) : Plain (intText i) := by
  unfold intText
  split
  · exact plain_cons.mpr ⟨by decide, plain_natText _⟩
  · exact plain_natText _

/-! ## Names -/

theorem plain_isValidToken (h : isValidToken s = true) : Plain s := by
  simp only [isValidToken, Bool.and_eq_true] at h
  exact plain_of_all h.2

theorem relativeFile_eq_some {file out : List Char} (h : relativeFile file = some out) :
    out = file ∧ file ≠ [] ∧ Plain file := by
  unfold relativeFile at h
  split at h
  · cases h
  rename_i hshape
  split at h
  · cases h
  next hchars =>
    split at h
    · cases h
    · have hall : file.all isFileChar = true := by simpa using hchars
      exact ⟨(Option.some.inj h).symm, fun hnil => hshape (.inl hnil), plain_of_all hall⟩

/-- Every character of a name is one that may follow its first. -/
theorem all_isIdentChar (h : isValidIdent s = true) : s.all isIdentChar = true := by
  cases s with
  | nil => rfl
  | cons c rest =>
    simp only [isValidIdent, Bool.and_eq_true] at h
    have hstart : isIdentChar c = true := by
      have hc := h.1
      simp only [isIdentStart, isIdentChar, Bool.or_eq_true] at hc ⊢
      tauto
    simp [hstart, h.2]

theorem plain_isValidIdent (h : isValidIdent s = true) : Plain s :=
  plain_of_all (all_isIdentChar h)

theorem notMem_of_isValidIdent (h : isValidIdent s = true)
    (hc : isIdentChar c = false := by decide) : c ∉ s := by
  intro hmem
  have hident := List.all_eq_true.mp (all_isIdentChar h) c hmem
  rw [hc] at hident
  cases hident

theorem isValidIdent_emittedName (h : isValidIdent name = true) :
    isValidIdent (emittedName name) = true := by
  unfold emittedName
  split
  · show (isIdentStart 'f' && (isIdentChar '_' && name.all isIdentChar)) = true
    rw [all_isIdentChar h]
    rfl
  · exact h

theorem emittedName_notMem (name : List Char) : emittedName name ∉ RESERVED_HEADERS := by
  unfold emittedName
  split
  · have key : ∀ name ∈ RESERVED_HEADERS, "f_".toList ++ name ∉ RESERVED_HEADERS := by decide
    exact key name ‹_›
  · assumption

/-! ## Floating-point numbers -/

/-- `rest` is what follows a plain text at the front of `s`. -/
def FollowsPlain (s rest : List Char) : Prop := ∃ text, s = text ++ rest ∧ Plain text

theorem FollowsPlain.refl (s : List Char) : FollowsPlain s s := ⟨[], rfl, plain_nil⟩

theorem FollowsPlain.cons (hc : PlainChar c)
    (h : FollowsPlain s rest) : FollowsPlain (c :: s) rest := by
  obtain ⟨text, rfl, htext⟩ := h
  exact ⟨c :: text, rfl, plain_cons.mpr ⟨hc, htext⟩⟩

theorem FollowsPlain.plain (h : FollowsPlain s rest) (hrest : Plain rest) : Plain s := by
  obtain ⟨text, rfl, htext⟩ := h
  exact plain_append.mpr ⟨htext, hrest⟩

theorem spanDigits_follows (s : List Char) : FollowsPlain s (spanDigits s).2 := by
  refine ⟨s.takeWhile Char.isDigit, ?_, plain_isDigit fun c hc => List.mem_takeWhile_imp hc⟩
  show s = s.takeWhile Char.isDigit ++ (s.span Char.isDigit).2
  rw [List.span_eq_takeWhile_dropWhile, List.takeWhile_append_dropWhile]

/-- Digits that must be there. -/
theorem someDigits_follows
    (h : (if (spanDigits s).1 = [] then none else some (spanDigits s).2) = some rest) :
    FollowsPlain s rest := by
  split at h
  · cases h
  · cases h
    exact spanDigits_follows s

theorem skipInteger_follows (h : skipInteger s = some rest) : FollowsPlain s rest := by
  unfold skipInteger at h
  split at h
  next tail =>
    cases h
    exact (FollowsPlain.refl _).cons (by decide)
  next c tail hzero =>
    split at h
    next hc =>
      have hplain : PlainChar c :=
        plainChar_of_class (p := fun c => '1' ≤ c && c ≤ '9') (by simpa using hc)
      cases h
      exact (spanDigits_follows tail).cons hplain
    · cases h
  · cases h

theorem skipFraction_follows (h : skipFraction s = some rest) : FollowsPlain s rest := by
  unfold skipFraction at h
  split at h
  next tail => exact (someDigits_follows h).cons (by decide)
  · cases h
    exact .refl _

theorem skipExponent_follows (h : skipExponent s = some rest) : FollowsPlain s rest := by
  unfold skipExponent at h
  split at h
  next c tail =>
    split at h
    next hc =>
      have hplain : PlainChar c := by
        obtain rfl | rfl := hc <;> decide
      simp only at h
      -- the sign of the exponent, if there is one
      split at h
      · exact ((someDigits_follows h).cons (by decide)).cons hplain
      · exact ((someDigits_follows h).cons (by decide)).cons hplain
      · exact (someDigits_follows h).cons hplain
    · cases h
      exact .refl _
  · cases h
    exact .refl _

theorem plain_stripSign (h : Plain (stripSign sign s)) (hsign : PlainChar sign) : Plain s := by
  unfold stripSign at h
  split at h
  next hhead =>
    rw [← List.cons_head?_tail hhead]
    exact plain_cons.mpr ⟨hsign, h⟩
  · exact h

theorem plain_isValidFloatRepr (h : isValidFloatRepr s = true) : Plain s := by
  simp only [isValidFloatRepr, Bool.or_eq_true, beq_iff_eq, or_assoc] at h
  obtain rfl | rfl | rfl | h := h
  · decide
  · decide
  · decide
  · rw [Option.bind_eq_bind, Option.bind_eq_some_iff] at h
    obtain ⟨afterInteger, hinteger, h⟩ := h
    rw [Option.bind_eq_some_iff] at h
    obtain ⟨afterFraction, hfraction, hexponent⟩ := h
    have hfraction := (skipFraction_follows hfraction).plain
      ((skipExponent_follows hexponent).plain plain_nil)
    exact plain_stripSign ((skipInteger_follows hinteger).plain hfraction) (by decide)

theorem floatText_valid {f : F} (h : floatText floats f = some text) :
    isValidFloatRepr text = true := by
  unfold floatText at h
  split at h
  · cases h
    decide
  split at h
  · cases h
    decide
  split at h
  · cases h
    decide
  split at h
  · cases h
    assumption
  · cases h

/-! ## Field tokens -/

theorem splitOnce_append (h : sep ∉ a) : splitOnce sep (a ++ sep :: b) = some (a, b) := by
  have hall : ∀ c ∈ a, (decide (c ≠ sep)) = true := fun c hc =>
    decide_eq_true fun heq => h (heq ▸ hc)
  unfold splitOnce
  rw [List.dropWhile_append_of_pos hall, List.takeWhile_append_of_pos hall]
  simp

/-- The number is one of its type. -/
def FieldValue.InRange : FieldValue F → Prop
  | .i128 i => -2 ^ 127 ≤ i ∧ i < 2 ^ 127
  | .u128 u => u < 2 ^ 128
  | _ => True

/-- What is written for a value is `type:value`, and is accepted as such. -/
theorem valueText_valid {value : FieldValue F} (hrange : value.InRange)
    (h : valueText floats value = some text) :
    Plain text ∧ ∃ typ val, splitOnce ':' text = some (typ, val) ∧
      isValidValue floats typ val = true := by
  cases value with
  | bool b =>
    cases h
    cases b <;> exact ⟨by decide, _, _, rfl, rfl⟩
  | i128 i =>
    cases h
    refine ⟨plain_append.mpr ⟨by decide, plain_intText i⟩, ['i'], intText i,
      splitOnce_append (a := ['i']) (by decide), ?_⟩
    exact isValidI128Token_intText hrange.1 hrange.2
  | u128 u =>
    cases h
    refine ⟨plain_append.mpr ⟨by decide, plain_natText u⟩, ['u'], natText u,
      splitOnce_append (a := ['u']) (by decide), ?_⟩
    exact isValidU128Token_natText hrange
  | f64 f =>
    obtain ⟨repr, hrepr, rfl⟩ := Option.map_eq_some_iff.mp h
    have hvalid := floatText_valid hrepr
    refine ⟨plain_append.mpr ⟨by decide, plain_isValidFloatRepr hvalid⟩, ['f'], repr,
      splitOnce_append (a := ['f']) (by decide), ?_⟩
    show (isValidFloatRepr repr && (floats.parse repr).isSome) = true
    rw [hvalid, floats.parse_isSome repr hvalid]
    rfl
  | len len =>
    cases h
    refine ⟨plain_append.mpr ⟨by decide, plain_natText _⟩, ['l'], _,
      splitOnce_append (a := ['l']) (by decide), ?_⟩
    exact isValidLenToken_natText (Nat.min_le_right _ _)

/-- The tokens of the fields that are written. -/
def fieldTokens (emitted : List (List Char × List Char)) : List (List Char) :=
  emitted.map fun (name, text) => name ++ '=' :: text

/-- A written field: its name is one of the grammar and no header, and its text is plain. -/
structure IsEmitted (field : List Char × List Char) : Prop where
  ident : isValidIdent field.1 = true
  notReserved : field.1 ∉ RESERVED_HEADERS
  plain : Plain field.2

variable {seen tokens : List (List Char)}

section

variable {fields : List (Field F)} (hrange : ∀ field ∈ fields, field.value.InRange)

include hrange

theorem isEmitted_of_mem : ∀ field ∈ emittedFields floats seen fields, IsEmitted field := by
  fun_induction emittedFields floats seen fields with
  | case1 => exact List.forall_mem_nil _
  | case2 seen field fields hident ih | case3 seen field fields hident hseen ih
  | case4 seen field fields hident hseen hnone ih => exact ih (List.forall_mem_cons.mp hrange).2
  | case5 seen field fields hident hseen text htext ih =>
    have hrange := List.forall_mem_cons.mp hrange
    have hvalid : isValidIdent field.name = true := by simpa using hident
    refine List.forall_mem_cons.mpr ⟨?_, ih hrange.2⟩
    exact
      { ident := isValidIdent_emittedName hvalid
        notReserved := emittedName_notMem _
        plain := (valueText_valid hrange.1 htext).1 }

/-- The scanner's loop over the fields takes the steps of the writer's. -/
theorem scanFields_emitted :
    scanFields floats seen (fieldTokens (emittedFields floats seen fields)) = some () := by
  fun_induction emittedFields floats seen fields with
  | case1 => rfl
  | case2 seen field fields hident ih | case3 seen field fields hident hseen ih
  | case4 seen field fields hident hseen hnone ih => exact ih (List.forall_mem_cons.mp hrange).2
  | case5 seen field fields hident hseen text htext ih =>
    have hrange := List.forall_mem_cons.mp hrange
    have hvalid : isValidIdent field.name = true := by simpa using hident
    have hname := isValidIdent_emittedName hvalid
    obtain ⟨-, typ, val, hsplit, hvalue⟩ := valueText_valid hrange.1 htext
    have hequals := splitOnce_append (b := text) (notMem_of_isValidIdent (c := '=') hname)
    have hrest := ih hrange.2
    simp only [fieldTokens, List.map_cons, scanFields] at hrest ⊢
    simp [hequals, hname, hseen, hsplit, hvalue, hrest]

end

/-- No two written fields have the same name, nor one of those already written. -/
theorem nodup_emitted (seen : List (List Char)) (fields : List (Field F)) :
    ((emittedFields floats seen fields).map Prod.fst).Nodup ∧
      ∀ name ∈ (emittedFields floats seen fields).map Prod.fst, name ∉ seen := by
  fun_induction emittedFields floats seen fields with
  | case1 => exact ⟨List.nodup_nil, List.forall_mem_nil _⟩
  | case2 seen field fields hident ih | case3 seen field fields hident hseen ih
  | case4 seen field fields hident hseen hnone ih => exact ih
  | case5 seen field fields hident hseen text htext ih =>
    refine ⟨List.nodup_cons.mpr ⟨fun hmem => ?_, ih.1⟩, List.forall_mem_cons.mpr ⟨hseen, ?_⟩⟩
    · exact ih.2 _ hmem (List.mem_append_right _ (List.mem_singleton_self _))
    · exact fun name hmem hold => ih.2 name hmem (List.mem_append_left _ hold)

/-! ## The tokens of a line -/

def headerTokens (header : Header) : List (List Char) :=
  [VERSION, "ts=".toList ++ formatRfc3339Utc header.now, "lvl=".toList ++ header.level,
    "tgt=".toList ++ (if isValidToken header.target then header.target else ['-']),
    "mod=".toList ++ (header.module.filter isValidToken).getD ['-'],
    "file=".toList ++ (header.file.bind relativeFile).getD ['-'],
    "loc=".toList ++ (header.line.map natText).getD ['-']]

def columnTokens (header : Header) : List (List Char) :=
  (header.column.map fun col => "col=".toList ++ natText col).toList

def spanTokens (header : Header) : List (List Char) :=
  let validSpans := header.spans.filter isValidIdent
  if validSpans.isEmpty then [] else ["spans=".toList ++ ['+'].intercalate validSpans]

def lineTokens (floats : Floats F) (header : Header) (fields : List (Field F)) :
    List (List Char) :=
  headerTokens header ++
    (columnTokens header ++ (spanTokens header ++ fieldTokens (emittedFields floats [] fields)))

theorem intercalate_cons (sep : Char) (token : List Char) (tokens : List (List Char)) :
    [sep].intercalate (token :: tokens) = token ++ (tokens.map (sep :: ·)).flatten := by
  induction tokens generalizing token with
  | nil => simp
  | cons next tokens ih => simp [List.intercalate_cons_cons, ih]

/-- A line is its tokens with a space between two of them. -/
theorem encode_eq (header : Header) (fields : List (Field F)) :
    encode floats header fields = [' '].intercalate
      (lineTokens floats header fields) ++ ['\n'] := by
  have hcolumn : (header.column.map fun col => " col=".toList ++ natText col).getD [] =
      ((columnTokens header).map (' ' :: ·)).flatten := by
    unfold columnTokens
    cases header.column <;> simp
  have hspans : (if (header.spans.filter isValidIdent).isEmpty then []
      else " spans=".toList ++ ['+'].intercalate (header.spans.filter isValidIdent)) =
      ((spanTokens header).map (' ' :: ·)).flatten := by
    unfold spanTokens
    simp only
    split <;> simp
  unfold encode lineTokens headerTokens
  simp only [hcolumn, hspans, List.cons_append, intercalate_cons, List.map_cons, List.map_append,
    List.flatten_cons, List.flatten_append, fieldTokens, List.map_map]
  simp [Function.comp_def]

theorem mem_intercalate
    (h : c ∈ [sep].intercalate tokens) : c = sep ∨ ∃ token ∈ tokens, c ∈ token := by
  cases tokens with
  | nil => cases h
  | cons token tokens =>
    rw [intercalate_cons, List.mem_append, List.mem_flatten] at h
    obtain h | ⟨piece, hpiece, hc⟩ := h
    · exact .inr ⟨token, List.mem_cons_self, h⟩
    · obtain ⟨token', htoken', rfl⟩ := List.mem_map.mp hpiece
      obtain rfl | hc := List.mem_cons.mp hc
      · exact .inl rfl
      · exact .inr ⟨token', List.mem_cons_of_mem _ htoken', hc⟩

/-- A line whose tokens are nonempty ends as one of them does. -/
theorem getLast?_intercalate (htokens : ∀ token ∈ tokens, token ≠ [])
    (h : ([' '].intercalate tokens).getLast? = some c) : ∃ token ∈ tokens, c ∈ token := by
  induction tokens with
  | nil => cases h
  | cons token tokens ih =>
    cases tokens with
    | nil =>
      rw [List.intercalate_singleton] at h
      exact ⟨token, List.mem_cons_self, List.mem_of_getLast? h⟩
    | cons next tokens =>
      have hrest : [' '].intercalate (next :: tokens) ≠ [] := by
        rw [intercalate_cons]
        simp [htokens next]
      rw [List.intercalate_cons_cons, List.getLast?_append_of_ne_nil _ hrest] at h
      obtain ⟨token', htoken', hc⟩ := ih (List.forall_mem_cons.mp htokens).2 h
      exact ⟨token', List.mem_cons_of_mem _ htoken', hc⟩

/-- What the scanner does with the tokens of a line. -/
theorem parseLine_intercalate (floats : Floats F) (hne : tokens ≠ [])
    (htokens : ∀ token ∈ tokens, token ≠ [] ∧ Plain token) :
    '\n' ∉ [' '].intercalate tokens ∧ ([' '].intercalate tokens).splitOn ' ' = tokens ∧
    parseLine floats ([' '].intercalate tokens) = (do
      let (timestamp, rest) ← scanHeader tokens
      let rest ← scanColumn rest
      let rest ← scanSpans rest
      scanFields floats [] rest
      some timestamp) := by
  have hsplit : ([' '].intercalate tokens).splitOn ' ' = tokens :=
    List.splitOn_intercalate ' '
      (fun token hmem hspace => ((htokens token hmem).2 _ hspace).1 rfl) hne
  have hchar : ∀ c, c ≠ ' ' → ¬ PlainChar c → c ∉ [' '].intercalate tokens := by
    intro c hspace hplain hmem
    obtain heq | ⟨token, htoken, hc⟩ := mem_intercalate hmem
    · exact hspace heq
    · exact hplain ((htokens token htoken).2 c hc)
  have hhead : ([' '].intercalate tokens).head? ≠ some ' ' := by
    cases tokens with
    | nil => exact absurd rfl hne
    | cons token tokens =>
      obtain ⟨hnonempty, hplain⟩ := htokens token List.mem_cons_self
      rw [intercalate_cons, List.head?_append_of_ne_nil _ hnonempty]
      exact fun hspace => (hplain _ (List.mem_of_mem_head? hspace)).1 rfl
  have hlast : ([' '].intercalate tokens).getLast? ≠ some ' ' := by
    intro hspace
    obtain ⟨token, htoken, hc⟩ := getLast?_intercalate (fun token h => (htokens token h).1) hspace
    exact ((htokens token htoken).2 _ hc).1 rfl
  have hnil : [' '].intercalate tokens ≠ [] := by
    intro hnil
    rw [hnil] at hsplit
    have hempty := (htokens [] (by rw [← hsplit]; decide)).1
    exact hempty rfl
  have hany : tokens.any List.isEmpty = false := by
    simpa using fun token hmem => (htokens token hmem).1
  have hnewline := hchar '\n' (by decide) (by decide)
  refine ⟨hnewline, hsplit, ?_⟩
  unfold parseLine
  rw [if_neg (by simp [hnewline, hchar '\r' (by decide) (by decide), hhead, hlast, hnil])]
  simp only [hsplit, hany]
  rfl

/-! ## The scanner on a written line -/

@[simp] theorem stripLabel_append (label : String) (text : List Char) :
    stripLabel label (label.toList ++ text) = some text := by
  unfold stripLabel
  rw [if_pos (List.prefix_append _ _), List.drop_left]

/-- A header whose numbers are of their types, at a level of the grammar. -/
structure Header.InRange (header : Header) : Prop where
  level : header.level ∈ LEVELS
  line : ∀ n ∈ header.line, n < 2 ^ 32
  column : ∀ n ∈ header.column, n < 2 ^ 32

theorem plain_padded (width : Nat) (n : Int) : Plain (padded width n) := by
  have hzeros : ∀ k, Plain (List.replicate k '0') := fun k c hc => by
    rw [List.eq_of_mem_replicate hc]
    decide
  have hdigits : Plain (Nat.toDigits 10 n.natAbs) := plain_natText _
  unfold padded
  simp only
  split
  · exact plain_cons.mpr ⟨by decide, plain_append.mpr ⟨hzeros _, hdigits⟩⟩
  · exact plain_append.mpr ⟨hzeros _, hdigits⟩

theorem plain_formatRfc3339Utc (now : Int) : Plain (formatRfc3339Utc now) := by
  unfold formatRfc3339Utc
  simp only [plain_append, plain_cons, plain_padded, plain_nil, and_true, true_and]
  decide

/-- What a header token says: something plain that its check accepts, or a dash. -/
structure Says (accepts : List Char → Bool) (text : List Char) : Prop where
  plain : Plain text
  accepted : ¬ (text ≠ ['-'] ∧ accepts text = false)

theorem says_dash (accepts : List Char → Bool) : Says accepts ['-'] :=
  ⟨by decide, fun h => h.1 rfl⟩

theorem says_accepted (hplain : Plain text)
    (h : accepts text = true) : Says accepts text := by
  refine ⟨hplain, fun hrefused => ?_⟩
  rw [h] at hrefused
  cases hrefused.2

theorem says_getD {value : Option (List Char)}
    (h : ∀ text ∈ value, Says accepts text) : Says accepts (value.getD ['-']) := by
  cases value with
  | none => exact says_dash accepts
  | some text => exact h text rfl

theorem says_target (target : List Char) :
    Says isValidToken (if isValidToken target then target else ['-']) := by
  split
  next hvalid => exact says_accepted (plain_isValidToken hvalid) hvalid
  · exact says_dash _

theorem says_module (module : Option (List Char)) :
    Says isValidToken ((module.filter isValidToken).getD ['-']) := by
  refine says_getD fun text htext => ?_
  have hvalid := (Option.filter_eq_some_iff.mp htext).2
  exact says_accepted (plain_isValidToken hvalid) hvalid

theorem says_file (file : Option (List Char)) :
    Says (fun text => (relativeFile text).isSome) ((file.bind relativeFile).getD ['-']) := by
  refine says_getD fun text htext => ?_
  obtain ⟨path, -, hpath⟩ := Option.bind_eq_some_iff.mp htext
  obtain ⟨rfl, -, hplain⟩ := relativeFile_eq_some hpath
  exact says_accepted hplain (by rw [hpath]; rfl)

theorem says_line {line : Option Nat} (h : ∀ n ∈ line, n < 2 ^ 32) :
    Says isValidU32Token ((line.map natText).getD ['-']) := by
  refine says_getD fun text htext => ?_
  obtain ⟨n, hn, rfl⟩ := Option.map_eq_some_iff.mp htext
  exact says_accepted (plain_natText n) (isPlainNumber_natText (h n hn))

theorem labelled_plain {label : List Char} (h : Plain text)
    (hlabel : label ≠ [] ∧ Plain label := by decide) : label ++ text ≠ [] ∧ Plain (label ++ text) :=
  ⟨List.append_ne_nil_of_left_ne_nil hlabel.1 _, plain_append.mpr ⟨hlabel.2, h⟩⟩

variable {header : Header}

theorem headerTokens_plain (hheader : header.InRange) :
    ∀ token ∈ headerTokens header, token ≠ [] ∧ Plain token := by
  simp only [headerTokens, List.forall_mem_cons]
  exact ⟨by decide, labelled_plain (plain_formatRfc3339Utc _), labelled_plain
      ((by decide : ∀ level ∈ LEVELS, Plain level) _ hheader.level),
    labelled_plain (says_target _).plain, labelled_plain (says_module _).plain,
    labelled_plain (says_file _).plain, labelled_plain (says_line hheader.line).plain,
    List.forall_mem_nil _⟩

theorem scanHeader_headerTokens (hheader : header.InRange)
    (htime : parseRfc3339Utc (formatRfc3339Utc header.now) = some timestamp)
    (rest : List (List Char)) :
    scanHeader (headerTokens header ++ rest) = some (timestamp, rest) := by
  have hfile := (says_file header.file).accepted
  simp only [Option.isSome_eq_false_iff] at hfile
  simp only [headerTokens, List.cons_append, List.nil_append, scanHeader, stripLabel_append,
    Option.bind_eq_bind, Option.bind_some, htime, ne_eq, not_true, if_false, hheader.level,
    if_neg (says_target header.target).accepted, if_neg (says_module header.module).accepted,
    if_neg hfile, if_neg (says_line hheader.line).accepted]

/-! ### Column and spans -/

/-- The token of a field is not taken for a header's. -/
theorem stripLabel_fieldToken {label : String}
    (hlabel : label.toList ∈ RESERVED_HEADERS.map (· ++ ['='])) (hname : isValidIdent name = true)
    (hreserved : name ∉ RESERVED_HEADERS) : stripLabel label (name ++ '=' :: text) = none := by
  unfold stripLabel
  refine if_neg fun hstarts => ?_
  obtain ⟨header, hheader, hlabel⟩ := List.mem_map.mp hlabel
  obtain ⟨tail, htail⟩ := hstarts
  have hequals : '=' ∉ header := by
    have key : ∀ header ∈ RESERVED_HEADERS, '=' ∉ header := by decide
    exact key header hheader
  -- both sides split at the first equals sign
  have hsplit := splitOnce_append (b := tail) hequals
  rw [← hlabel, List.append_assoc, List.singleton_append] at htail
  rw [htail, splitOnce_append (notMem_of_isValidIdent hname)] at hsplit
  have heq : name = header := (Prod.mk.inj (Option.some.inj hsplit)).1
  exact hreserved (heq ▸ hheader)

/-- A token that does not start with a label. -/
theorem scanColumn_skip
    (h : ∀ token ∈ tokens, stripLabel "col=" token = none) : scanColumn tokens = some tokens := by
  cases tokens with
  | nil => rfl
  | cons token tokens => simp only [scanColumn, h token List.mem_cons_self]

theorem scanSpans_skip
    (h : ∀ token ∈ tokens, stripLabel "spans=" token = none) : scanSpans tokens = some tokens := by
  cases tokens with
  | nil => rfl
  | cons token tokens => simp only [scanSpans, h token List.mem_cons_self]

theorem scanColumn_columnTokens (hheader : header.InRange)
    {rest : List (List Char)} (hrest : ∀ token ∈ rest, stripLabel "col=" token = none) :
    scanColumn (columnTokens header ++ rest) = some rest := by
  unfold columnTokens
  cases hcolumn : header.column with
  | none => exact scanColumn_skip hrest
  | some col =>
    have hvalid : isValidU32Token (natText col) = true :=
      isPlainNumber_natText (hheader.column col hcolumn)
    simp only [Option.map_some, Option.toList_some, List.singleton_append, scanColumn,
      stripLabel_append, hvalid, if_true]

theorem scanSpans_spanTokens {rest : List (List Char)}
    (hrest : ∀ token ∈ rest, stripLabel "spans=" token = none) :
    scanSpans (spanTokens header ++ rest) = some rest := by
  unfold spanTokens
  simp only
  split
  · exact scanSpans_skip hrest
  rename_i hspans
  have hvalid : ∀ name ∈ header.spans.filter isValidIdent, isValidIdent name = true :=
    fun name hname => (List.mem_filter.mp hname).2
  have hsplit : (['+'].intercalate (header.spans.filter isValidIdent)).splitOn '+' =
      header.spans.filter isValidIdent :=
    List.splitOn_intercalate '+' (fun name hname => notMem_of_isValidIdent (hvalid name hname))
      (by simpa using hspans)
  have hnil : ['+'].intercalate (header.spans.filter isValidIdent) ≠ [] := by
    intro hnil
    rw [hnil] at hsplit
    have hempty := hvalid [] (by rw [← hsplit]; decide)
    cases hempty
  simp only [List.singleton_append, scanSpans, stripLabel_append, if_neg hnil, hsplit,
    List.all_eq_true.mpr hvalid, if_true]

theorem columnTokens_plain (header : Header) :
    ∀ token ∈ columnTokens header, token ≠ [] ∧ Plain token := by
  intro token htoken
  obtain ⟨col, -, rfl⟩ := Option.map_eq_some_iff.mp (Option.mem_toList.mp htoken)
  exact labelled_plain (plain_natText col)

theorem spanTokens_plain (header : Header) :
    ∀ token ∈ spanTokens header, token ≠ [] ∧ Plain token := by
  have hspans : Plain (['+'].intercalate (header.spans.filter isValidIdent)) := by
    intro c hc
    obtain rfl | ⟨name, hname, hc⟩ := mem_intercalate hc
    · decide
    · exact plain_isValidIdent (List.mem_filter.mp hname).2 c hc
  unfold spanTokens
  simp only
  split
  · exact List.forall_mem_nil _
  · exact List.forall_mem_singleton.mpr (labelled_plain hspans)

variable {emitted : List (List Char × List Char)}

theorem fieldTokens_plain (h : ∀ field ∈ emitted, IsEmitted field) :
    ∀ token ∈ fieldTokens emitted, token ≠ [] ∧ Plain token := by
  intro token htoken
  obtain ⟨⟨name, text⟩, hfield, rfl⟩ := List.mem_map.mp htoken
  have hemitted := h _ hfield
  refine ⟨by simp, plain_append.mpr ⟨plain_isValidIdent hemitted.ident, ?_⟩⟩
  exact plain_cons.mpr ⟨by decide, hemitted.plain⟩

theorem stripLabel_fieldTokens {label : String}
    (hlabel : label.toList ∈ RESERVED_HEADERS.map (· ++ ['=']))
    (h : ∀ field ∈ emitted, IsEmitted field) :
    ∀ token ∈ fieldTokens emitted, stripLabel label token = none := by
  intro token htoken
  obtain ⟨⟨name, text⟩, hfield, rfl⟩ := List.mem_map.mp htoken
  have hemitted := h _ hfield
  exact stripLabel_fieldToken hlabel hemitted.ident hemitted.notReserved

theorem stripLabel_spanTokens (header : Header) :
    ∀ token ∈ spanTokens header, stripLabel "col=" token = none := by
  unfold spanTokens
  simp only
  split
  · exact List.forall_mem_nil _
  · refine List.forall_mem_singleton.mpr ?_
    simp [stripLabel]

/-! ## The line -/

/-- The names of the fields of a line: those of the tokens that follow its header. -/
def fieldNames (line : List Char) : List (List Char) :=
  (((scanColumn ((line.splitOn ' ').drop 7)).bind scanSpans).getD []).map
    fun token => token.takeWhile (· ≠ '=')

theorem map_takeWhile_fieldTokens (h : ∀ field ∈ emitted, IsEmitted field) :
    (fieldTokens emitted).map (fun token => token.takeWhile (· ≠ '=')) =
      emitted.map Prod.fst := by
  unfold fieldTokens
  rw [List.map_map]
  refine List.map_congr_left fun field hfield => ?_
  have hname : '=' ∉ field.1 := notMem_of_isValidIdent (h field hfield).ident
  have hequals : ∀ c ∈ field.1, decide (c ≠ '=') = true := fun c hc =>
    decide_eq_true fun heq => hname (heq ▸ hc)
  show (field.1 ++ '=' :: field.2).takeWhile (· ≠ '=') = field.1
  rw [List.takeWhile_append_of_pos hequals]
  simp

/-- What is written is one line, that the scanner accepts, with the fields that were written. -/
theorem encode_line (hheader : header.InRange)
    (htime : parseRfc3339Utc (formatRfc3339Utc header.now) = some timestamp)
    {fields : List (Field F)} (hfields : ∀ field ∈ fields, field.value.InRange) :
    ∃ line, encode floats header fields = line ++ ['\n'] ∧ '\n' ∉ line ∧
      parseLine floats line = some timestamp ∧
      fieldNames line = (emittedFields floats [] fields).map Prod.fst := by
  have hemitted : ∀ field ∈ emittedFields floats [] fields, IsEmitted field :=
    isEmitted_of_mem hfields
  have htokens : ∀ token ∈ lineTokens floats header fields, token ≠ [] ∧ Plain token := by
    simp only [lineTokens, List.forall_mem_append]
    exact ⟨headerTokens_plain hheader, columnTokens_plain header, spanTokens_plain header,
      fieldTokens_plain hemitted⟩
  obtain ⟨hnewline, hsplit, hparse⟩ :=
    parseLine_intercalate floats (by simp [lineTokens, headerTokens]) htokens
  -- what each step of the scanner leaves of the tokens
  have hcolumn : scanColumn (columnTokens header ++ (spanTokens header ++
      fieldTokens (emittedFields floats [] fields))) = some (spanTokens header ++
      fieldTokens (emittedFields floats [] fields)) :=
    scanColumn_columnTokens hheader (List.forall_mem_append.mpr
      ⟨stripLabel_spanTokens header, stripLabel_fieldTokens (by decide) hemitted⟩)
  have hspans : scanSpans (spanTokens header ++ fieldTokens (emittedFields floats [] fields)) =
      some (fieldTokens (emittedFields floats [] fields)) :=
    scanSpans_spanTokens (stripLabel_fieldTokens (by decide) hemitted)
  refine ⟨_, encode_eq header fields, hnewline, ?_, ?_⟩
  · rw [hparse, lineTokens, scanHeader_headerTokens hheader htime]
    simp only [Option.bind_eq_bind, Option.bind_some, hcolumn, hspans, scanFields_emitted hfields]
  · unfold fieldNames
    rw [hsplit]
    show (((scanColumn (columnTokens header ++ _)).bind scanSpans).getD []).map _ = _
    rw [hcolumn, Option.bind_some, hspans, Option.getD_some, map_takeWhile_fieldTokens hemitted]

end SolstoneWindows.ObserverLog
