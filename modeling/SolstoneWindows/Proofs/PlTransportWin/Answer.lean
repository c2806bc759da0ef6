import SolstoneWindows.PlTransportWin.Answer

/-!
# The answer file is canonical

What is parsed is what would be written. A file that is not refused begins and ends as one that was
written (`parseAnswer_cases`), but for one in which the start and the end share a quote.
-/

set_option autoImplicit false

namespace SolstoneWindows.PlTransportWin

variable {bytes : List UInt8} {state : AnswerState} {s before after : List Char}

/-- One quote is the last character of the start and the first one of the end. -/
def overlappingAnswer : List UInt8 := textBytes (answerStart ++ ['\x7d'] ++ ['\n'])

/-- A file in which the start and the end do not overlap. -/
def shapedAnswer (rest : List Char) : List UInt8 :=
  textBytes (answerStart ++ rest ++ answerEnd ++ ['\n'])

theorem quote_of_isValidDigest (h : isValidDigest s = true) : '"' ∉ s := by
  intro hmem
  simp only [isValidDigest, Bool.or_eq_true, Bool.and_eq_true, List.isEmpty_iff,
    List.all_eq_true] at h
  rcases h with rfl | ⟨-, hall⟩
  · exact List.not_mem_nil hmem
  · exact absurd (hall _ hmem) (by decide)

theorem findText_eq_some {needle : List Char} (h : findText needle s = some (before, after)) :
    s = before ++ needle ++ after := by
  induction s generalizing before with
  | nil =>
    rw [findText] at h
    split at h
    · next hempty =>
      cases h
      rw [List.isEmpty_iff.mp hempty]
      rfl
    · cases h
  | cons c s ih =>
    rw [findText] at h
    split at h
    · next hstart =>
      cases h
      exact (List.prefix_iff_eq_append.mp (List.isPrefixOf_iff_prefix.mp hstart)).symm
    · obtain ⟨⟨before', after'⟩, hfound, heq⟩ := Option.map_eq_some_iff.mp h
      cases heq
      rw [ih hfound]
      rfl

/-- What has not the first character of the needle is before it. -/
theorem findText_append {c : Char} {needle : List Char} (h : c ∉ before) :
    findText (c :: needle) (before ++ c :: needle ++ after) = some (before, after) := by
  induction before with
  | nil => simp [findText]
  | cons c' before ih =>
    rw [List.mem_cons, not_or] at h
    simpa [findText, h.1] using ih h.2

theorem parseAnswer_shaped (rest : List Char) : parseAnswer (shapedAnswer rest) =
      match findText answerMiddle rest with
      | none => some (.error "missing rejected field delimiter")
      | some (confirmed, rejected) =>
        if !isValidDigest confirmed || !isValidDigest rejected then
          some (.error "malformed digest field in answer")
        else some (.ok ⟨String.ofList confirmed, String.ofList rejected⟩) := by
  have htext : String.fromUTF8? ⟨(shapedAnswer rest).toArray⟩ =
      some (String.ofList (answerStart ++ rest ++ answerEnd ++ ['\n'])) :=
    dif_pos (String.ofList _).isValidUTF8
  have hstart : answerStart <+: answerStart ++ rest ++ answerEnd := by
    rw [List.append_assoc]
    exact List.prefix_append _ _
  rw [parseAnswer, htext]
  simp only [String.toList_ofList]
  rw [List.getLast?_concat, List.dropLast_concat, if_neg (not_not.mpr rfl),
    List.isPrefixOf_iff_prefix.mpr hstart, List.isSuffixOf_iff_suffix.mpr (List.suffix_append _ _),
    List.length_append, Nat.add_sub_cancel, List.take_left, List.drop_left, if_neg (by decide)]
  exact if_neg (by simp)

/-- A text with this start and this end has one of the two shapes. -/
theorem shape_cases (hstart : answerStart <+: s) (hfinish : answerEnd <:+ s) :
    s = answerStart ++ ['\x7d'] ∨ ∃ rest, s = answerStart ++ rest ++ answerEnd := by
  have hlength : answerStart.length = 14 ∧ answerEnd.length = 2 := by decide +kernel
  obtain ⟨front, rfl⟩ := hfinish
  rcases Nat.lt_or_ge front.length answerStart.length with hlt | hle
  · -- There is room for one character after the start.
    obtain ⟨rest, hrest⟩ := hstart
    have hroom := congrArg List.length hrest
    rw [List.length_append, List.length_append] at hroom
    match rest with
    | [] => exact absurd ⟨front, hrest.symm⟩ (mt List.isSuffixOf_iff_suffix.mpr (by decide +kernel))
    | [c] =>
      have hlast := congrArg List.getLast? hrest
      rw [List.getLast?_concat, List.getLast?_append] at hlast
      cases hlast
      exact .inl hrest.symm
    | _ :: _ :: _ =>
      simp only [List.length_cons] at hroom
      omega
  · obtain ⟨rest, rfl⟩ := List.prefix_of_prefix_length_le hstart (List.prefix_append _ _) hle
    exact .inr ⟨rest, rfl⟩

/-- A file is refused, or it has one of the two shapes. -/
theorem parseAnswer_cases (bytes : List UInt8) :
    (∃ e, parseAnswer bytes = some (.error e)) ∨ bytes = overlappingAnswer ∨
      ∃ rest, bytes = shapedAnswer rest := by
  unfold parseAnswer
  split
  · exact .inl ⟨_, rfl⟩
  next text htext =>
  split
  · exact .inl ⟨_, rfl⟩
  next hlast =>
  dsimp only
  split
  · exact .inl ⟨_, rfl⟩
  next hshape =>
  simp only [Bool.or_eq_true, Bool.not_eq_true', not_or, Bool.not_eq_false,
    List.isPrefixOf_iff_prefix, List.isSuffixOf_iff_suffix] at hshape
  have hbytes : bytes = textBytes (text.toList.dropLast ++ ['\n']) := by
    rw [List.dropLast_append_getLast? _ (not_not.mp hlast), textBytes, String.ofList_toList]
    unfold String.fromUTF8? at htext
    split at htext <;> cases htext
    rfl
  rw [hbytes]
  rcases shape_cases hshape.1 hshape.2 with hs | ⟨rest, hs⟩
  · exact .inr (.inl (by rw [hs]; rfl))
  · exact .inr (.inr ⟨rest, by rw [hs]; rfl⟩)

theorem parseAnswer_overlapping : parseAnswer overlappingAnswer = none := by
  decide +kernel

theorem parseAnswer_ok_iff :
    parseAnswer bytes = some (.ok state) ↔ encodeAnswer state = .ok bytes := by
  constructor
  · intro h
    rcases parseAnswer_cases bytes with ⟨e, herror⟩ | rfl | ⟨rest, rfl⟩
    · rw [herror] at h
      cases h
    · rw [parseAnswer_overlapping] at h
      cases h
    · rw [parseAnswer_shaped] at h
      split at h
      · cases h
      next confirmed rejected hfound =>
      split at h
      · cases h
      next hvalid =>
      cases h
      rw [encodeAnswer, String.toList_ofList, String.toList_ofList, if_neg hvalid,
        findText_eq_some hfound, shapedAnswer]
      simp only [List.append_assoc]
  · intro h
    unfold encodeAnswer at h
    split at h
    · cases h
    next hvalid =>
    cases h
    have hquote : '"' ∉ state.confirmed.toList := by
      simp only [Bool.or_eq_true, Bool.not_eq_true', not_or, Bool.not_eq_false] at hvalid
      exact quote_of_isValidDigest hvalid.1
    have hmiddle : answerMiddle = '"' :: answerMiddle.tail := by decide +kernel
    have hfound : findText answerMiddle (state.confirmed.toList ++ answerMiddle ++
        state.rejected.toList) = some (state.confirmed.toList, state.rejected.toList) := by
      rw [hmiddle]
      exact findText_append hquote
    have hshaped := parseAnswer_shaped (state.confirmed.toList ++ answerMiddle ++
      state.rejected.toList)
    rw [hfound, shapedAnswer] at hshaped
    simpa only [List.append_assoc, if_neg hvalid, String.ofList_toList] using hshaped

theorem parseAnswer_none_iff : parseAnswer bytes = none ↔ bytes = overlappingAnswer := by
  refine ⟨fun h => ?_, fun heq => heq ▸ parseAnswer_overlapping⟩
  rcases parseAnswer_cases bytes with ⟨e, herror⟩ | heq | ⟨rest, rfl⟩
  · rw [herror] at h
    cases h
  · exact heq
  · rw [parseAnswer_shaped] at h
    split at h
    · cases h
    · split at h <;> cases h

/-- What the codec promises of a file. -/
structure Canonical (bytes : List UInt8) : Prop where
  returns : parseAnswer bytes ≠ none
  exact : ∀ state, parseAnswer bytes = some (.ok state) ↔ encodeAnswer state = .ok bytes
  resets : ∀ files nonce, files.answer = some bytes → (∀ state, encodeAnswer state ≠ .ok bytes) →
    ∃ empty, encodeAnswer {} = .ok empty ∧ readAnswerOrReset files nonce (.ok ()) (.ok ()) =
      some (.ok (some {}), ⟨some empty, (nonce, bytes) :: files.unreadable⟩)

/-- The codec is canonical, but for the one file it panics at. -/
theorem answer_canonical_iff (bytes : List UInt8) :
    Canonical bytes ↔ bytes ≠ overlappingAnswer := by
  refine ⟨fun h heq => h.returns (parseAnswer_none_iff.mpr heq), fun hne => ?_⟩
  have hreturns : parseAnswer bytes ≠ none := mt parseAnswer_none_iff.mp hne
  refine ⟨hreturns, fun state => parseAnswer_ok_iff, fun files nonce hfile hother => ?_⟩
  obtain ⟨parsed, hparsed⟩ := Option.ne_none_iff_exists'.mp hreturns
  refine ⟨_, rfl, ?_⟩
  rw [readAnswerOrReset, hfile]
  cases parsed with
  | ok state => exact absurd (parseAnswer_ok_iff.mp hparsed) (hother state)
  | error e =>
    show (parseAnswer bytes).bind _ = _
    rw [hparsed]
    rfl

/-- The start of an answer, a brace and a newline. -/
theorem parseAnswer_panics : parseAnswer
    [123, 34, 99, 111, 110, 102, 105, 114, 109, 101, 100, 34, 58, 34, 125, 10] = none := by
  decide +kernel

end SolstoneWindows.PlTransportWin
