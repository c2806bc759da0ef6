import SolstoneWindows.PlatformWin.WriteChunk

/-!
# Reading timeline rows back

The write path writes rows with `timelineRow`; the seal reads them with `parseTimeline`. Whole
rows read back as they were written (`parseTimeline_timelineText`), and a row whose append was
cut short reads as nothing or as an entry with the same start and at most the same length
(`parseTimeline_cut_row`).

The proofs follow the reader: bytes to text, text to lines, a line to words, a word to a
number.
-/

set_option autoImplicit false

namespace SolstoneWindows.Proofs.Timeline

open ObserverAudio
open SolstoneWindows.PlatformWin (timelineText)

/-! ## Bytes and text -/

/-- The bytes of a text are read first, and what follows them on its own. -/
theorem fromUtf8_append (text : List Char) (rest : List UInt8) :
    fromUtf8 (utf8 text ++ rest) = (fromUtf8 rest).map (text ++ ·) := by
  induction text with
  | nil => simp [utf8]
  | cons c text ih =>
    have hbytes : ByteArray.mk (utf8 (c :: text) ++ rest).toArray =
        [c].utf8Encode ++ ByteArray.mk (utf8 text ++ rest).toArray := by
      refine ByteArray.ext ?_
      simp [utf8, List.utf8Encode_singleton]
    have hrest := congrArg (Option.map (c :: ·)) ih
    rw [fromUtf8, Option.map_map, Option.map_map] at hrest
    rw [fromUtf8, hbytes, ByteArray.utf8Decode?_utf8Encode_singleton_append, Option.map_map]
    simpa [Function.comp_def] using hrest

theorem fromUtf8_nil : fromUtf8 [] = some [] := by
  rw [fromUtf8, show ByteArray.mk [].toArray = ByteArray.empty from rfl,
    ByteArray.utf8Decode?_empty]
  rfl

@[simp] theorem fromUtf8_utf8 (text : List Char) : fromUtf8 (utf8 text) = some text := by
  have happend := fromUtf8_append text []
  rw [fromUtf8_nil] at happend
  simpa using happend

variable {c : Char}

/-- A character of seven bits is one byte. -/
theorem utf8_cons (text : List Char) (hc : c.toNat ≤ 127) :
    utf8 (c :: text) = UInt8.ofNat c.toNat :: utf8 text := by
  simp [utf8, String.utf8EncodeChar, hc]

/-- A first part of the bytes of a seven-bit text is the bytes of a first part of it. -/
theorem take_utf8 {text : List Char} (htext : ∀ c ∈ text, c.toNat ≤ 127) (kept : Nat) :
    (utf8 text).take kept = utf8 (text.take kept) := by
  induction text generalizing kept with
  | nil => simp [utf8]
  | cons c text ih =>
    cases kept with
    | zero => simp [utf8]
    | succ kept =>
      have hc : c.toNat ≤ 127 := htext c List.mem_cons_self
      rw [utf8_cons text hc, List.take_succ_cons, List.take_succ_cons, utf8_cons _ hc,
        ih (fun c' hc' => htext c' (List.mem_cons_of_mem _ hc'))]

/-! ## Digits -/

theorem isDigit_bounds (hc : c.isDigit = true) : 48 ≤ c.toNat ∧ c.toNat ≤ 57 := by
  simpa [Char.isDigit, UInt32.le_iff_toNat_le] using hc

theorem isWhitespace_of_isDigit (hc : c.isDigit = true) : isWhitespace c = false := by
  have hbounds := isDigit_bounds hc
  simp only [isWhitespace, Bool.or_eq_false_iff, Bool.and_eq_false_iff,
    decide_eq_false_iff_not, beq_eq_false_iff_ne]
  omega

variable {n us len : Nat}

theorem toDigits_isDigit (hc : c ∈ Nat.toDigits 10 n) : c.isDigit = true :=
  Nat.isDigit_of_mem_toDigits (by decide) (by decide) hc

/-- Digits only add to the value read so far. -/
theorem le_ofDigitChars (digits : List Char) (start : Nat) :
    start ≤ Nat.ofDigitChars 10 digits start := by
  induction digits generalizing start with
  | nil => exact Nat.le_refl start
  | cons c digits ih =>
    rw [Nat.ofDigitChars_cons]
    have hrest := ih (10 * start + (c.toNat - '0'.toNat))
    omega

/-- The first digits of a number have at most its value. -/
theorem ofDigitChars_take_le (n kept : Nat) :
    Nat.ofDigitChars 10 ((Nat.toDigits 10 n).take kept) 0 ≤ n := by
  have hsplit : Nat.ofDigitChars 10 (Nat.toDigits 10 n) 0 =
      Nat.ofDigitChars 10 ((Nat.toDigits 10 n).drop kept)
        (Nat.ofDigitChars 10 ((Nat.toDigits 10 n).take kept) 0) := by
    rw [← Nat.ofDigitChars_append, List.take_append_drop]
  rw [Nat.ofDigitChars_ten_toDigits] at hsplit
  exact Nat.le_trans (le_ofDigitChars _ _) (Nat.le_of_eq hsplit.symm)

variable {digits word line : List Char}

theorem stripPlus_digits (hdigits : ∀ c ∈ digits, c.isDigit = true) :
    stripPlus digits = digits := by
  cases digits with
  | nil => rfl
  | cons c rest =>
    have hplus : c ≠ '+' := by
      rintro rfl
      exact absurd (hdigits '+' List.mem_cons_self) (by decide)
    rw [stripPlus, if_neg hplus]

/-- A digit string that fits reads as its value. -/
theorem parseU64_digits (hne : digits ≠ [])
    (hdigits : ∀ c ∈ digits, c.isDigit = true) (hfits : Nat.ofDigitChars 10 digits 0 < 2 ^ 64) :
    parseU64 digits = some (Nat.ofDigitChars 10 digits 0) := by
  have hall : digits.all Char.isDigit = true := List.all_eq_true.mpr hdigits
  rw [parseU64, stripPlus_digits hdigits, if_pos ⟨hne, hall, hfits⟩]

/-- What a digit string reads as, if anything, is its value. -/
theorem eq_of_parseU64_digits
    (hdigits : ∀ c ∈ digits, c.isDigit = true) (h : parseU64 digits = some n) :
    n = Nat.ofDigitChars 10 digits 0 := by
  rw [parseU64, stripPlus_digits hdigits] at h
  split at h
  · exact (Option.some.inj h).symm
  · cases h

/-! ## Words of a line -/

/-- Characters that are not whitespace go to the word read so far. -/
theorem splitWhitespaceFrom_append {more : List Char} (word rest : List Char)
    (hmore : ∀ c ∈ more, isWhitespace c = false) :
    splitWhitespaceFrom word (more ++ rest) = splitWhitespaceFrom (word ++ more) rest := by
  induction more generalizing word with
  | nil => rw [List.nil_append, List.append_nil]
  | cons c more ih =>
    have hc : ¬ isWhitespace c = true := by simp [hmore c List.mem_cons_self]
    rw [List.cons_append, splitWhitespaceFrom, if_neg hc,
      ih (word ++ [c]) fun c' hc' => hmore c' (List.mem_cons_of_mem _ hc'), List.append_assoc]
    rfl

/-- A run of characters with no whitespace is one word. -/
theorem splitWhitespace_word (hne : word ≠ [])
    (hword : ∀ c ∈ word, isWhitespace c = false) : splitWhitespace word = [word] := by
  have hrun := splitWhitespaceFrom_append [] [] hword
  rw [List.append_nil, List.nil_append] at hrun
  rw [splitWhitespace, hrun, splitWhitespaceFrom, if_neg hne]

/-- A word ends at a space. -/
theorem splitWhitespace_space (rest : List Char) (hne : word ≠ [])
    (hword : ∀ c ∈ word, isWhitespace c = false) :
    splitWhitespace (word ++ ' ' :: rest) = word :: splitWhitespace rest := by
  rw [splitWhitespace, splitWhitespaceFrom_append [] _ hword, List.nil_append,
    splitWhitespaceFrom, if_pos (by decide), if_neg hne, splitWhitespace]

/-- A line of two digit strings is an entry. -/
theorem parseLine_digits {us len : List Char} (hus : us ≠ []) (hlen : len ≠ [])
    (hus' : ∀ c ∈ us, c.isDigit = true) (hlen' : ∀ c ∈ len, c.isDigit = true)
    (hfits : Nat.ofDigitChars 10 us 0 < 2 ^ 64) (hfits' : Nat.ofDigitChars 10 len 0 < 2 ^ 64) :
    parseLine (us ++ ' ' :: len) =
      some (Nat.ofDigitChars 10 us 0, Nat.ofDigitChars 10 len 0) := by
  rw [parseLine, splitWhitespace_space len hus fun c hc => isWhitespace_of_isDigit (hus' c hc),
    splitWhitespace_word hlen fun c hc => isWhitespace_of_isDigit (hlen' c hc)]
  simp only [parseU64_digits hus hus' hfits, parseU64_digits hlen hlen' hfits']

/-- A line of one word is no entry. -/
theorem parseLine_word (hword : ∀ c ∈ word, c.isDigit = true) : parseLine word = none := by
  by_cases hne : word = []
  · subst hne
    rfl
  · rw [parseLine, splitWhitespace_word hne fun c hc => isWhitespace_of_isDigit (hword c hc)]

/-! ## Lines of a text -/

/-- A line ends at the line feed. -/
theorem lines_append (rest : List Char) (hline : ∀ c ∈ line, c ≠ '\n') :
    lines (line ++ '\n' :: rest) = line :: lines rest := by
  induction line with
  | nil => simp [lines]
  | cons c line ih =>
    have hrest := ih fun c' hc' => hline c' (List.mem_cons_of_mem _ hc')
    rw [List.cons_append, lines, if_neg (hline c List.mem_cons_self), hrest]

/-- A text without a line feed is one line, or none when it is empty. -/
theorem lines_single (hne : line ≠ []) (hline : ∀ c ∈ line, c ≠ '\n') : lines line = [line] := by
  induction line with
  | nil => exact absurd rfl hne
  | cons c line ih =>
    rw [lines, if_neg (hline c List.mem_cons_self)]
    by_cases hempty : line = []
    · subst hempty
      rfl
    · rw [ih hempty fun c' hc' => hline c' (List.mem_cons_of_mem _ hc')]

/-! ## Rows -/

/-- The text of a row without its line feed. -/
def rowLine (entry : Nat × Nat) : List Char :=
  Nat.toDigits 10 entry.1 ++ ' ' :: Nat.toDigits 10 entry.2

/-- The text of whole rows. -/
def rowsText (entries : List (Nat × Nat)) : List Char :=
  entries.flatMap fun entry => timelineRow entry.1 entry.2

theorem timelineRow_eq (us len : Nat) : timelineRow us len = rowLine (us, len) ++ ['\n'] := by
  simp [timelineRow, rowLine]

theorem timelineText_eq (entries : List (Nat × Nat)) :
    timelineText entries = utf8 (rowsText entries) := by
  simp [timelineText, rowsText, utf8, List.flatMap_assoc]

variable {entry : Nat × Nat}

/-- The characters of a row are digits and one space. -/
theorem rowLine_mem (hc : c ∈ rowLine entry) : c.isDigit = true ∨ c = ' ' := by
  rcases List.mem_append.mp hc with hc | hc
  · exact .inl (toDigits_isDigit hc)
  · rcases List.mem_cons.mp hc with rfl | hc
    · exact .inr rfl
    · exact .inl (toDigits_isDigit hc)

theorem rowLine_ne_newline (hc : c ∈ rowLine entry) : c ≠ '\n' := by
  rintro rfl
  rcases rowLine_mem hc with hdigit | heq
  · exact absurd hdigit (by decide)
  · exact absurd heq (by decide)

/-- A row is seven-bit text. -/
theorem timelineRow_seven_bit (hc : c ∈ timelineRow us len) : c.toNat ≤ 127 := by
  rw [timelineRow_eq] at hc
  rcases List.mem_append.mp hc with hc | hc
  · rcases rowLine_mem hc with hdigit | rfl
    · have := isDigit_bounds hdigit
      omega
    · decide
  · rw [List.mem_singleton.mp hc]
    decide

/-- Entries whose numbers fit a `u64`. -/
def Fits (entries : List (Nat × Nat)) : Prop :=
  ∀ entry ∈ entries, entry.1 < 2 ^ 64 ∧ entry.2 < 2 ^ 64

theorem parseLine_rowLine (hus : entry.1 < 2 ^ 64) (hlen : entry.2 < 2 ^ 64) :
    parseLine (rowLine entry) = some entry := by
  rw [rowLine, parseLine_digits Nat.toDigits_ne_nil Nat.toDigits_ne_nil
    (fun _ => toDigits_isDigit) (fun _ => toDigits_isDigit)
    (by rwa [Nat.ofDigitChars_ten_toDigits]) (by rwa [Nat.ofDigitChars_ten_toDigits]),
    Nat.ofDigitChars_ten_toDigits, Nat.ofDigitChars_ten_toDigits]

variable {entries : List (Nat × Nat)}

/-- Whole rows read back, and what comes after them is read on its own. -/
theorem filterMap_lines_rowsText (hfits : Fits entries)
    (rest : List Char) : (lines (rowsText entries ++ rest)).filterMap parseLine =
      entries ++ (lines rest).filterMap parseLine := by
  induction entries with
  | nil => rfl
  | cons entry entries ih =>
    have hentry := hfits entry List.mem_cons_self
    have hrest := ih fun e he => hfits e (List.mem_cons_of_mem _ he)
    have htext : rowsText (entry :: entries) ++ rest =
        rowLine entry ++ '\n' :: (rowsText entries ++ rest) := by
      simp [rowsText, timelineRow_eq]
    rw [htext, lines_append _ fun _ => rowLine_ne_newline, List.filterMap_cons,
      parseLine_rowLine hentry.1 hentry.2, hrest]
    rfl

/-- Whole rows read back if what follows them is text, and it is read on its own. Otherwise nothing
is read. -/
theorem parseTimeline_append (hfits : Fits entries) (rest : List UInt8) :
    parseTimeline (timelineText entries ++ rest) =
      if (fromUtf8 rest).isSome then entries ++ parseTimeline rest else [] := by
  rw [parseTimeline, timelineText_eq, fromUtf8_append]
  cases hrest : fromUtf8 rest with
  | none => rfl
  | some text =>
    simp only [Option.map_some, Option.isSome_some, if_true, parseTimeline, hrest]
    exact filterMap_lines_rowsText hfits text

/-- Whole rows read back as they were written. -/
theorem parseTimeline_timelineText (hfits : Fits entries) :
    parseTimeline (timelineText entries) = entries := by
  have hrows := parseTimeline_append hfits []
  rw [parseTimeline, fromUtf8_nil] at hrows
  simpa [parseTimeline, fromUtf8_nil, lines] using hrows

/-- A first part of one row reads as nothing, or as the row with at most its length. -/
theorem filterMap_lines_take_row (hus : us < 2 ^ 64) (hlen : len < 2 ^ 64)
    (kept : Nat) : (lines ((timelineRow us len).take kept)).filterMap parseLine = [] ∨
      ∃ len' ≤ len,
        (lines ((timelineRow us len).take kept)).filterMap parseLine = [(us, len')] := by
  by_cases hwhole : (timelineRow us len).length ≤ kept
  · -- The whole row is there.
    refine .inr ⟨len, Nat.le_refl len, ?_⟩
    rw [List.take_of_length_le hwhole, timelineRow_eq,
      lines_append [] fun _ => rowLine_ne_newline, List.filterMap_cons,
      parseLine_rowLine hus hlen]
    rfl
  · -- What is there is a first part of the row's line.
    have hline : (timelineRow us len).take kept = (rowLine (us, len)).take kept := by
      rw [timelineRow_eq] at hwhole ⊢
      rw [List.take_append_of_le_length (by simp at hwhole; omega)]
    rw [hline]
    by_cases hempty : (rowLine (us, len)).take kept = []
    · rw [hempty]
      exact .inl rfl
    rw [lines_single hempty fun _ hc => rowLine_ne_newline (List.mem_of_mem_take hc),
      List.filterMap_cons, List.filterMap_nil]
    rcases Nat.lt_or_ge (Nat.toDigits 10 us).length kept with hlong | hshort
    · -- The start and the space are there, and perhaps some digits of the length.
      obtain ⟨more, rfl⟩ := Nat.exists_eq_add_of_lt hlong
      have hparts : (rowLine (us, len)).take ((Nat.toDigits 10 us).length + more + 1) =
          Nat.toDigits 10 us ++ ' ' :: (Nat.toDigits 10 len).take more := by
        rw [rowLine, Nat.add_assoc, List.take_length_add_append, List.take_succ_cons]
      rw [hparts]
      by_cases hnone : (Nat.toDigits 10 len).take more = []
      · -- A word and the space after it are no entry.
        rw [hnone, parseLine, splitWhitespace_space [] Nat.toDigits_ne_nil
          fun c hc => isWhitespace_of_isDigit (toDigits_isDigit hc)]
        exact .inl rfl
      have hle := ofDigitChars_take_le len more
      refine .inr ⟨_, hle, ?_⟩
      rw [parseLine_digits Nat.toDigits_ne_nil hnone (fun _ => toDigits_isDigit)
        (fun _ hc => toDigits_isDigit (List.mem_of_mem_take hc))
        (by rwa [Nat.ofDigitChars_ten_toDigits]) (Nat.lt_of_le_of_lt hle hlen),
        Nat.ofDigitChars_ten_toDigits]
    · -- Only digits of the start are there.
      have hdigits : (rowLine (us, len)).take kept = (Nat.toDigits 10 us).take kept := by
        rw [rowLine, List.take_append_of_le_length hshort]
      rw [hdigits, parseLine_word fun _ hc => toDigits_isDigit (List.mem_of_mem_take hc)]
      exact .inl rfl

/-- Rows with a first part of one more row after them read as the rows, and perhaps one more
entry with at most the last row's length. -/
theorem parseTimeline_cut_row (hfits : Fits entries)
    (hus : us < 2 ^ 64) (hlen : len < 2 ^ 64) (kept : Nat) :
    parseTimeline (timelineText entries ++ (utf8 (timelineRow us len)).take kept) = entries ∨
      ∃ len' ≤ len, parseTimeline (timelineText entries ++ (utf8 (timelineRow us len)).take kept) =
        entries ++ [(us, len')] := by
  have hread : parseTimeline (timelineText entries ++ (utf8 (timelineRow us len)).take kept) =
      entries ++ (lines ((timelineRow us len).take kept)).filterMap parseLine := by
    rw [parseTimeline_append hfits, take_utf8 (fun _ => timelineRow_seven_bit), parseTimeline,
      fromUtf8_utf8]
    rfl
  rw [hread]
  rcases filterMap_lines_take_row hus hlen kept with hnone | ⟨len', hle, hsome⟩
  · exact .inl (by rw [hnone, List.append_nil])
  · exact .inr ⟨len', hle, by rw [hsome]⟩

end SolstoneWindows.Proofs.Timeline
