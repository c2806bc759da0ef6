import SolstoneWindows.ObserverLog.Format
import SolstoneWindows.Proofs.ObserverLog.Record

/-!
# The lines of events carry lengths, not text

`allFields_inRange` is what the encoding needs of an event's fields: the numbers of the event are of
their types, and those of its spans are because they were parsed as such.

Two events are `Alike` if they differ only in texts, and those have the same length up to the cap.
The visitor does not tell them apart, so neither does anything computed from what it keeps: the
rendered fields of a span, and the line.
-/

set_option autoImplicit false

namespace SolstoneWindows.ObserverLog

variable {F : Type} {floats : Floats F} {addFields : List (List Char) → List Char}

/-! ## The fields of a line are of their types -/

theorem record_inRange {value : Value F} (h : value.InRange) :
    (SafeVisitor.record value).InRange := by
  cases value with
  | i64 value =>
    obtain ⟨hlow, hhigh⟩ := h
    show -2 ^ 127 ≤ value ∧ value < 2 ^ 127
    omega
  | u64 value =>
    have hlt : value < 2 ^ 64 := h
    show value < 2 ^ 128
    omega
  | i128 value | u128 value => exact h
  | _ => exact trivial

theorem parseUnsigned_lt {bound n : Nat} {s : List Char} (h : parseUnsigned bound s = some n) :
    n < bound := by
  unfold parseUnsigned at h
  simp only at h
  split at h
  next hdigits =>
    cases h
    exact hdigits.2.2
  · cases h

theorem parseI128_inRange {s : List Char} {i : Int} (h : parseI128 s = some i) :
    -2 ^ 127 ≤ i ∧ i < 2 ^ 127 := by
  unfold parseI128 at h
  split at h
  next rest =>
    split at h
    next hdigits =>
      cases h
      have hle := hdigits.2.2
      omega
    · cases h
  · obtain ⟨n, hn, rfl⟩ := Option.map_eq_some_iff.mp h
    have hlt := parseUnsigned_lt hn
    show -2 ^ 127 ≤ (n : Int) ∧ (n : Int) < 2 ^ 127
    omega

theorem parseSpanValue_inRange {typ val : List Char} {value : FieldValue F}
    (h : parseSpanValue floats typ val = some value) : value.InRange := by
  unfold parseSpanValue at h
  split at h
  · split at h
    · cases h
      trivial
    split at h
    · cases h
      trivial
    · cases h
  split at h
  · obtain ⟨i, hi, rfl⟩ := Option.map_eq_some_iff.mp h
    exact parseI128_inRange hi
  split at h
  · obtain ⟨u, hu, rfl⟩ := Option.map_eq_some_iff.mp h
    exact parseUnsigned_lt hu
  split at h
  · obtain ⟨f, -, rfl⟩ := Option.map_eq_some_iff.mp h
    trivial
  split at h
  · obtain ⟨len, -, rfl⟩ := Option.map_eq_some_iff.mp h
    trivial
  · cases h

theorem parseSpanToken_inRange {token : List Char} {field : Field F}
    (h : parseSpanToken floats token = some field) : field.value.InRange := by
  simp only [parseSpanToken, Option.bind_eq_bind, Option.bind_eq_some_iff] at h
  obtain ⟨_, -, _, -, value, hvalue, hfield⟩ := h
  cases hfield
  exact parseSpanValue_inRange hvalue

theorem allFields_inRange {event : Event F} (hfields : ∀ field ∈ event.fields, field.2.InRange)
    (spans : List (Span F)) : ∀ field ∈ allFields floats addFields event spans,
      field.value.InRange := by
  intro field hfield
  obtain hown | hspan := List.mem_append.mp hfield
  · obtain ⟨recorded, hrecorded, rfl⟩ := List.mem_map.mp hown
    exact record_inRange (hfields recorded hrecorded)
  · obtain ⟨span, -, hspan⟩ := List.mem_flatMap.mp hspan
    obtain ⟨token, -, htoken⟩ := List.mem_filterMap.mp hspan
    exact parseSpanToken_inRange htoken

/-! ## Texts of one length -/

/-- The counter holds the length of what was written so far, up to the cap. -/
theorem foldl_capped (pieces : List (List Char)) (written : Nat) :
    pieces.foldl (fun count piece => count + min (byteLen piece) (EXCLUDED_LEN_CAP - count))
        (min written EXCLUDED_LEN_CAP) =
      min (written + byteLen pieces.flatten) EXCLUDED_LEN_CAP := by
  induction pieces generalizing written with
  | nil => rfl
  | cons piece pieces ih =>
    have hstep : min written EXCLUDED_LEN_CAP +
        min (byteLen piece) (EXCLUDED_LEN_CAP - min written EXCLUDED_LEN_CAP) =
        min (written + byteLen piece) EXCLUDED_LEN_CAP := by omega
    have hlen : byteLen (piece :: pieces).flatten = byteLen piece + byteLen pieces.flatten := by
      simp [byteLen]
    rw [List.foldl_cons, hstep, ih, hlen, Nat.add_assoc]

theorem cappedLenPieces_eq (pieces : List (List Char)) :
    cappedLenPieces pieces = min (byteLen pieces.flatten) EXCLUDED_LEN_CAP := by
  have hfold := foldl_capped pieces 0
  rwa [Nat.zero_add] at hfold

/-- The lengths are equal as far as they are told apart. -/
def SameCappedLen (a b : Nat) : Prop := min a EXCLUDED_LEN_CAP = min b EXCLUDED_LEN_CAP

/-- Values that differ at most in their text, of the same length up to the cap. -/
inductive Value.Alike : Value F → Value F → Prop
  | refl (value : Value F) : Value.Alike value value
  | str {a b : List Char} : SameCappedLen (byteLen a) (byteLen b) → Value.Alike (.str a) (.str b)
  | bytes {a b : List UInt8} : SameCappedLen a.length b.length → Value.Alike (.bytes a) (.bytes b)
  | debug {a b : List (List Char)} :
      SameCappedLen (byteLen a.flatten) (byteLen b.flatten) → Value.Alike (.debug a) (.debug b)
  | error {a b : List (List Char)} :
      SameCappedLen (byteLen a.flatten) (byteLen b.flatten) → Value.Alike (.error a) (.error b)

/-- The same fields, with alike values. -/
def Recorded.Alike (a b : Recorded F) : Prop :=
  List.Forall₂ (fun x y => x.1 = y.1 ∧ Value.Alike x.2 y.2) a b

structure Event.Alike (a b : Event F) : Prop where
  level : a.level = b.level
  target : a.target = b.target
  module : a.module = b.module
  file : a.file = b.file
  line : a.line = b.line
  fields : Recorded.Alike a.fields b.fields

structure Span.Alike (a b : Span F) : Prop where
  name : a.name = b.name
  records : List.Forall₂ Recorded.Alike a.records b.records

theorem record_alike {a b : Value F} (h : Value.Alike a b) :
    SafeVisitor.record a = SafeVisitor.record b := by
  cases h with
  | refl => rfl
  | str hlen | bytes hlen => exact congrArg FieldValue.len hlen
  | debug hlen | error hlen =>
    show FieldValue.len (cappedLenPieces _) = FieldValue.len (cappedLenPieces _)
    rw [cappedLenPieces_eq, cappedLenPieces_eq]
    exact congrArg FieldValue.len hlen

/-- What a function makes of lists that it does not tell apart item by item. -/
theorem map_eq_of_forall₂ {α β : Type} {R : α → α → Prop} {f : α → β}
    (hf : ∀ x y, R x y → f x = f y) {xs ys : List α} (h : List.Forall₂ R xs ys) :
    xs.map f = ys.map f := by
  induction h with
  | nil => rfl
  | cons hxy _ ih => rw [List.map_cons, List.map_cons, hf _ _ hxy, ih]

theorem fields_alike {a b : Recorded F} (h : Recorded.Alike a b) :
    SafeVisitor.fields a = SafeVisitor.fields b := by
  refine map_eq_of_forall₂ (fun x y hxy => ?_) h
  show ({ name := x.1, value := SafeVisitor.record x.2 } : Field F) = ⟨y.1, SafeVisitor.record y.2⟩
  rw [hxy.1, record_alike hxy.2]

theorem formatted_alike {a b : Span F} (h : Span.Alike a b) :
    a.formatted floats addFields = b.formatted floats addFields := by
  refine congrArg addFields (map_eq_of_forall₂ (fun x y hxy => ?_) h.records)
  unfold SafeFields.formatFields
  rw [fields_alike hxy]

/-- Nothing of a line depends on more of a text than its capped length. -/
theorem formatEvent_alike {now : Int} {event event' : Event F} {spans spans' : List (Span F)}
    (hevent : Event.Alike event event') (hspans : List.Forall₂ Span.Alike spans spans') :
    formatEvent floats addFields now event spans =
      formatEvent floats addFields now event' spans' := by
  have hnames : spans.map Span.name = spans'.map Span.name :=
    map_eq_of_forall₂ (fun _ _ hspan => hspan.name) hspans
  have hfields : (spans.map fun span =>
      (splitWhitespace (span.formatted floats addFields)).filterMap (parseSpanToken floats)) =
      spans'.map fun span =>
      (splitWhitespace (span.formatted floats addFields)).filterMap (parseSpanToken floats) :=
    map_eq_of_forall₂ (fun _ _ hspan => by rw [formatted_alike hspan]) hspans
  simp only [formatEvent, allFields, hevent.level, hevent.target, hevent.module, hevent.file,
    hevent.line, fields_alike hevent.fields, hnames, List.flatMap_def, hfields]

/-! ## The line of an event -/

theorem level_mem (level : Level) : level.asStr ∈ LEVELS := by
  cases level <;> decide

/-- The line of an event is one line of the grammar, at the event's time to the millisecond, with
no field twice and none named as a header; and events that differ only in texts of the same capped
length have the same line. -/
theorem formatEvent_well_formed_textless (floats : Floats F)
    (addFields : List (List Char) → List Char) {now : Int} (hnow : 0 ≤ now)
    (hend : now < END_OF_9999) (event : Event F) (hline : ∀ n ∈ event.line, n < 2 ^ 32)
    (hvalues : ∀ field ∈ event.fields, field.2.InRange) (spans : List (Span F)) :
    (∃ line, formatEvent floats addFields now event spans = line ++ ['\n'] ∧ '\n' ∉ line ∧
      parseLine floats line = some (now - now % 1000000) ∧
      (fieldNames line).Nodup ∧ ∀ name ∈ fieldNames line, name ∉ RESERVED_HEADERS) ∧
    ∀ event' spans', Event.Alike event event' → List.Forall₂ Span.Alike spans spans' →
      formatEvent floats addFields now event' spans' =
        formatEvent floats addFields now event spans := by
  refine ⟨?_, fun event' spans' hevent hspans => (formatEvent_alike hevent hspans).symm⟩
  have hrange : ∀ field ∈ allFields floats addFields event spans, field.value.InRange :=
    allFields_inRange hvalues spans
  have hheader : Header.InRange
      { now, level := event.level.asStr, target := event.target, module := event.module,
        file := event.file, line := event.line, column := none, spans := spans.map Span.name } :=
    ⟨level_mem event.level, hline, by simp⟩
  have hstart : START_OF_0000 ≤ now := by
    unfold START_OF_0000
    omega
  obtain ⟨line, hencode, hnewline, hparse, hnames⟩ :=
    encode_line hheader ((parseRfc3339Utc_format hend hstart).mpr (.inl hnow)) hrange
  refine ⟨line, hencode, hnewline, hparse, ?_, ?_⟩
  · rw [hnames]
    exact (nodup_emitted [] _).1
  · rw [hnames]
    intro name hname
    obtain ⟨field, hfield, rfl⟩ := List.mem_map.mp hname
    exact (isEmitted_of_mem hrange field hfield).notReserved

/-- Floating-point numbers of which there is only zero. -/
def onlyZero : Floats Unit where
  isNan _ := false
  isInfinity _ := false
  isNegInfinity _ := false
  debug _ := "0.0".toList
  parse _ := some ()
  parse_isSome _ _ := rfl

/-- An event with a field named as a header and a text, inside a span with a field of the same
name. -/
def sampleEvent (path : String) : Event Unit where
  level := .info
  target := "app".toList
  module := none
  file := some "src/main.rs".toList
  line := some 7
  fields := [("ts".toList, .u64 3), ("path".toList, .str path.toList)]

def sampleSpan (text : String) : Span Unit :=
  ⟨"sync".toList, [[("path".toList, .debug [text.toList])], [("n".toList, .u64 1)]]⟩

/-- The event's line is well formed, and another path and another text of the same lengths give the
same line. -/
theorem formatEvent_well_formed_textless_sample :
    (∃ line, formatEvent onlyZero [' '].intercalate 1500000 (sampleEvent "C:\\a b")
        [sampleSpan "secret"] = line ++ ['\n'] ∧ '\n' ∉ line ∧
      parseLine onlyZero line = some (1500000 - 1500000 % 1000000) ∧
      (fieldNames line).Nodup ∧ ∀ name ∈ fieldNames line, name ∉ RESERVED_HEADERS) ∧
    formatEvent onlyZero [' '].intercalate 1500000 (sampleEvent "D:\\x y") [sampleSpan "public"] =
      formatEvent onlyZero [' '].intercalate 1500000 (sampleEvent "C:\\a b")
        [sampleSpan "secret"] := by
  obtain ⟨hline, hsame⟩ := formatEvent_well_formed_textless onlyZero [' '].intercalate
    (by decide : (0 : Int) ≤ 1500000) (by decide) (sampleEvent "C:\\a b")
    (fun n hn => by cases hn; decide)
    (List.forall_mem_cons.mpr ⟨show 3 < 2 ^ 64 by decide, List.forall_mem_singleton.mpr trivial⟩)
    [sampleSpan "secret"]
  refine ⟨hline, hsame _ _ ⟨rfl, rfl, rfl, rfl, rfl, ?_⟩ (.cons ⟨rfl, ?_⟩ .nil)⟩
  · exact .cons ⟨rfl, .refl _⟩ (.cons ⟨rfl, .str (show _ = _ by decide)⟩ .nil)
  · exact .cons (.cons ⟨rfl, .debug (show _ = _ by decide)⟩ .nil)
      (.cons (.cons ⟨rfl, .refl _⟩ .nil) .nil)

end SolstoneWindows.ObserverLog
