import SolstoneWindows.Lib.Spaced
import SolstoneWindows.PlatformWin.WriteChunk

/-!
# Where the decoder puts frames

The decoder walks the timeline's entries, and each entry takes the next bytes of the PCM file.
`Accounts` says that entries account for a run of frames without loss: one entry takes whole
pieces, or several entries take frames that may be damaged, whose boundaries can then lie
inside a frame. `Lays` adds what the last entry does not reach. `placeTimed_spaced` is the
decoder's side: pieces that the entries lay out come out whole and in order, with silence and
damaged frames between them. `placeTimed_onTime_iff` is about time: when every frame stands at or
behind the sample at which its entry starts.
-/

set_option autoImplicit false

namespace SolstoneWindows.Proofs.Placement

open Lib.Streams
open ObserverModel (AudioFormat usize)
open ObserverAudio
open SolstoneWindows.PlatformWin (keepEntries restEntry)

/-! ## Frames of PCM bytes -/

section Frames

variable {S : Type} (dsp : Dsp S)

@[simp] theorem length_decodeToMono (bytes : List UInt8) (format : AudioFormat) :
    (decodeToMono dsp bytes format).length = bytes.length / frameSize format := by
  simp [decodeToMono, chunksExact]

variable {format : AudioFormat}

/-- Whole frames decode on their own. -/
theorem decodeToMono_append {a b : List UInt8}
    (hsize : 0 < frameSize format) (ha : frameSize format ∣ a.length) :
    decodeToMono dsp (a ++ b) format = decodeToMono dsp a format ++ decodeToMono dsp b format := by
  obtain ⟨frames, hframes⟩ := ha
  have hpieces : chunksExact (frameSize format) (a ++ b) =
      chunksExact (frameSize format) a ++ chunksExact (frameSize format) b := by
    unfold chunksExact
    rw [List.length_append, hframes, Nat.mul_add_div hsize, Nat.mul_div_cancel_left _ hsize,
      List.range_add, List.map_append, List.map_map]
    congr 1
    · -- A piece of the first part ends inside it.
      refine List.map_congr_left fun i hi => ?_
      have hi : i < frames := List.mem_range.mp hi
      have hend : (i + 1) * frameSize format ≤ a.length := by
        rw [hframes, Nat.mul_comm (frameSize format)]
        exact Nat.mul_le_mul_right _ hi
      rw [Nat.add_mul, Nat.one_mul] at hend
      rw [List.drop_append_of_le_length (by omega),
        List.take_append_of_le_length (by rw [List.length_drop]; omega)]
    · refine List.map_congr_left fun i _ => ?_
      show ((a ++ b).drop ((frames + i) * frameSize format)).take (frameSize format) = _
      have hstart : (frames + i) * frameSize format = a.length + i * frameSize format := by
        rw [hframes, Nat.add_mul, Nat.mul_comm frames]
      rw [hstart, List.drop_append, List.drop_of_length_le (by omega), List.nil_append,
        Nat.add_sub_cancel_left]
  rw [decodeToMono, hpieces, List.map_append]
  rfl

/-- A format the decoder accepts has frames of at least one byte. -/
theorem frameSize_pos (hvalid : validateFormat format = .ok ()) :
    0 < frameSize format := by
  unfold validateFormat at hvalid
  split at hvalid
  · cases hvalid
  rename_i hnonzero
  have hchannels : 0 < format.channels := by omega
  split at hvalid
  · rename_i hbits
    simpa [frameSize, hbits] using hchannels
  · rename_i hbits
    simpa [frameSize, hbits] using hchannels
  · cases hvalid

end Frames

/-! ## Entries and what they account for -/

/-- PCM bytes a list of entries takes. -/
def taken (entries : List (Nat × Nat)) : Nat := (entries.map Prod.snd).sum

@[simp] theorem taken_nil : taken [] = 0 := rfl

@[simp] theorem taken_cons (entry : Nat × Nat) (entries : List (Nat × Nat)) :
    taken (entry :: entries) = entry.2 + taken entries := by
  simp [taken]

@[simp] theorem taken_append (a b : List (Nat × Nat)) : taken (a ++ b) = taken a + taken b := by
  simp [taken]

section Accounts

variable {S : Type} (P : S → Prop) (size : Nat)

/-- Entries that account for a run of frames. The pieces among the frames come out whole; the
other frames satisfy `P`. -/
inductive Accounts : List (Nat × Nat) → List S → List (List S) → Prop where
  | nil : Accounts [] [] []
  /-- One entry takes whole frames. -/
  | row (us : Nat) {frames rest : List S} {pieces others : List (List S)}
      {entries : List (Nat × Nat)} :
    Spaced P pieces frames → Accounts entries rest others →
      Accounts ((us, size * frames.length) :: entries) (frames ++ rest) (pieces ++ others)
  /-- Several entries share damaged frames. -/
  | torn {cut : List (Nat × Nat)} {frames rest : List S} {pieces others : List (List S)}
      {entries : List (Nat × Nat)} :
    taken cut = size * frames.length → (∀ x ∈ frames, P x) → (∀ piece ∈ pieces, piece = []) →
      Accounts entries rest others → Accounts (cut ++ entries) (frames ++ rest) (pieces ++ others)

variable {P size} {entries : List (Nat × Nat)} {frames more : List S} {pieces : List (List S)}

/-- One entry. -/
theorem Accounts.single (us : Nat) (h : Spaced P pieces frames) :
    Accounts P size [(us, size * frames.length)] frames pieces := by
  have hrow : Accounts P size ((us, size * frames.length) :: []) _ _ := .row us h .nil
  simpa using hrow

/-- Damaged frames on their own. -/
theorem Accounts.damaged (htaken : taken entries = size * frames.length)
    (hframes : ∀ x ∈ frames, P x) (hempty : ∀ piece ∈ pieces, piece = []) :
    Accounts P size entries frames pieces := by
  simpa using Accounts.torn htaken hframes hempty .nil

section

variable (h : Accounts P size entries frames pieces)

include h

theorem Accounts.append {entries' : List (Nat × Nat)} {frames' : List S} {pieces' : List (List S)}
    (h' : Accounts P size entries' frames' pieces') :
    Accounts P size (entries ++ entries') (frames ++ frames') (pieces ++ pieces') := by
  induction h with
  | nil => exact h'
  | row us hpieces _ ih =>
    rw [List.cons_append, List.append_assoc, List.append_assoc]
    exact .row us hpieces ih
  | torn htaken hframes hempty _ ih =>
    rw [List.append_assoc, List.append_assoc, List.append_assoc]
    exact .torn htaken hframes hempty ih

theorem Accounts.taken_eq : taken entries = size * frames.length := by
  induction h with
  | nil => rfl
  | row us _ _ ih => rw [taken_cons, List.length_append, Nat.mul_add, ih]
  | torn htaken _ _ _ ih => rw [taken_append, List.length_append, Nat.mul_add, htaken, ih]

theorem Accounts.spaced : Spaced P pieces frames := by
  induction h with
  | nil => exact .nil
  | row us hpieces _ ih => exact hpieces.append ih
  | torn _ hframes hempty _ ih => exact (Spaced.empties hframes hempty).append ih

theorem Accounts.mono {P' : S → Prop} (hP : ∀ x, P x → P' x) : Accounts P' size entries frames
    pieces := by
  induction h with
  | nil => exact .nil
  | row us hpieces _ ih => exact .row us (hpieces.mono hP) ih
  | torn htaken hframes hempty _ ih =>
    exact .torn htaken (fun x hx => hP x (hframes x hx)) hempty ih

end

/-- Entries that take nothing can go. -/
theorem Accounts.filter (hsize : 0 < size) (h : Accounts P size entries frames pieces) :
    Accounts P size (entries.filter fun entry => 0 < entry.2) frames pieces := by
  have htaken : ∀ cut : List (Nat × Nat),
      taken (cut.filter fun entry => 0 < entry.2) = taken cut := by
    intro cut
    induction cut with
    | nil => rfl
    | cons entry cut ih =>
      by_cases hpos : 0 < entry.2
      · rw [List.filter_cons_of_pos (by simpa using hpos), taken_cons, taken_cons, ih]
      · rw [List.filter_cons_of_neg (by simpa using hpos), taken_cons, ih]
        omega
  induction h with
  | nil => exact .nil
  | @row us frames rest pieces others entries hpieces _ ih =>
    by_cases hempty : frames = []
    · -- The entry takes nothing, so its pieces are empty.
      subst hempty
      rw [List.filter_cons_of_neg (by simp)]
      have htorn : Accounts P size ([] ++ entries.filter fun entry => 0 < entry.2) ([] ++ rest)
          (pieces ++ others) := .torn rfl (by simp) hpieces.of_nil ih
      exact htorn
    · have hpos : 0 < size * frames.length :=
        Nat.mul_pos hsize (List.length_pos_iff.mpr hempty)
      rw [List.filter_cons_of_pos (by simpa using hpos)]
      exact .row us hpieces ih
  | torn htorn hframes hempty _ ih =>
    rw [List.filter_append]
    exact .torn ((htaken _).trans htorn) hframes hempty ih

/-- The frames behind the last entry: whole pieces, or damaged frames that some last entries
reach into. -/
def Tail (P : S → Prop) (size : Nat) (entries : List (Nat × Nat)) (frames : List S)
    (pieces : List (List S)) : Prop :=
  (entries = [] ∧ Spaced P pieces frames) ∨
    (taken entries ≤ size * frames.length ∧ (∀ x ∈ frames, P x) ∧ ∀ piece ∈ pieces, piece = [])

/-- A timeline over the frames of a stream: it accounts for a first part, and leaves a tail. -/
def Lays (P : S → Prop) (size : Nat) (entries : List (Nat × Nat)) (frames : List S)
    (pieces : List (List S)) : Prop :=
  ∃ entries1 entries2 frames1 frames2 pieces1 pieces2,
    entries = entries1 ++ entries2 ∧ frames = frames1 ++ frames2 ∧ pieces = pieces1 ++ pieces2 ∧
      Accounts P size entries1 frames1 pieces1 ∧ Tail P size entries2 frames2 pieces2

theorem lays_nil : Lays P size [] [] [] :=
  ⟨[], [], [], [], [], [], rfl, rfl, rfl, .nil, .inl ⟨rfl, .nil⟩⟩

theorem Accounts.lays (h : Accounts P size entries frames pieces) :
    Lays P size entries frames pieces :=
  ⟨entries, [], frames, [], pieces, [], (List.append_nil _).symm, (List.append_nil _).symm,
    (List.append_nil _).symm, h, .inl ⟨rfl, .nil⟩⟩

theorem Lays.spaced (h : Lays P size entries frames pieces) : Spaced P pieces frames := by
  obtain ⟨_, _, _, _, _, _, rfl, rfl, rfl, hfirst, htail⟩ := h
  refine hfirst.spaced.append ?_
  rcases htail with ⟨-, hpieces⟩ | ⟨-, hframes, hempty⟩
  · exact hpieces
  · exact Spaced.empties hframes hempty

theorem Lays.mono {P' : S → Prop} (h : Lays P size entries frames pieces)
    (hP : ∀ x, P x → P' x) : Lays P' size entries frames pieces := by
  obtain ⟨e1, e2, f1, f2, p1, p2, he, hf, hp, hfirst, htail⟩ := h
  refine ⟨e1, e2, f1, f2, p1, p2, he, hf, hp, hfirst.mono hP, ?_⟩
  rcases htail with ⟨hnone, hpieces⟩ | ⟨hle, hframes, hempty⟩
  · exact .inl ⟨hnone, hpieces.mono hP⟩
  · exact .inr ⟨hle, fun x hx => hP x (hframes x hx), hempty⟩

theorem Tail.taken_le (h : Tail P size entries frames pieces) :
    taken entries ≤ size * frames.length := by
  rcases h with ⟨rfl, -⟩ | ⟨hle, -⟩
  · exact Nat.zero_le _
  · exact hle

section

variable (h : Lays P size entries frames pieces)

include h

/-- A timeline never takes more than there is. -/
theorem Lays.taken_le : taken entries ≤ size * frames.length := by
  obtain ⟨_, _, _, _, _, _, rfl, rfl, rfl, hfirst, htail⟩ := h
  have hle := htail.taken_le
  rw [taken_append, List.length_append, Nat.mul_add, hfirst.taken_eq]
  omega

/-- Damaged frames can be added behind any timeline. -/
theorem Lays.add_torn (hmore : ∀ x ∈ more, P x) : Lays P size entries (frames ++ more) pieces := by
  obtain ⟨e1, e2, f1, f2, p1, p2, he, rfl, hp, hfirst, htail⟩ := h
  refine ⟨e1, e2, f1, f2 ++ more, p1, p2, he, List.append_assoc _ _ _, hp, hfirst, ?_⟩
  rcases htail with ⟨hnone, hpieces⟩ | ⟨hle, hframes, hempty⟩
  · have hmore' := hpieces.append (Spaced.gaps hmore)
    rw [List.append_nil] at hmore'
    exact .inl ⟨hnone, hmore'⟩
  · refine .inr ⟨?_, ?_, hempty⟩
    · rw [List.length_append, Nat.mul_add]
      omega
    · exact List.forall_mem_append.mpr ⟨hframes, hmore⟩

/-- A whole piece can be added behind a timeline that ends between two frames. -/
theorem Lays.add_piece (piece : List S) (haligned : size ∣ taken entries) :
    Lays P size entries (frames ++ piece) (pieces ++ [piece]) := by
  obtain ⟨e1, e2, f1, f2, p1, p2, rfl, rfl, rfl, hfirst, htail⟩ := h
  rcases htail with ⟨rfl, hpieces⟩ | ⟨hle, hframes, hempty⟩
  · exact ⟨e1, [], f1, f2 ++ piece, p1, p2 ++ [piece], rfl, List.append_assoc _ _ _,
      List.append_assoc _ _ _, hfirst, .inl ⟨rfl, hpieces.append (Spaced.single piece)⟩⟩
  · -- The last entries end between two frames, so they account for the frames before that.
    rw [taken_append, hfirst.taken_eq] at haligned
    obtain ⟨count, hcount⟩ := (Nat.dvd_add_right (Nat.dvd_mul_right size f1.length)).mp haligned
    obtain ⟨count, hcount, hle'⟩ : ∃ count, taken e2 = size * count ∧ count ≤ f2.length := by
      by_cases hsize : size = 0
      · exact ⟨0, by simpa [hsize] using hcount, Nat.zero_le _⟩
      · rw [hcount] at hle
        exact ⟨count, hcount, Nat.le_of_mul_le_mul_left hle (Nat.pos_of_ne_zero hsize)⟩
    have hgroup : Accounts P size e2 (f2.take count) p2 :=
      .damaged (by rw [hcount, List.length_take, Nat.min_eq_left hle'])
        (fun x hx => hframes x (List.mem_of_mem_take hx)) hempty
    refine ⟨e1 ++ e2, [], f1 ++ f2.take count, f2.drop count ++ piece, p1 ++ p2, [piece],
      (List.append_nil _).symm, ?_, rfl, hfirst.append hgroup, .inl ⟨rfl, ?_⟩⟩
    · rw [List.append_assoc, List.append_assoc, ← List.append_assoc (f2.take count),
        List.take_append_drop]
    · exact (Spaced.gaps fun x hx => hframes x (List.mem_of_mem_drop hx)).append
        (Spaced.single piece)

end

section

variable (h : Accounts P size entries frames pieces)

include h

end

/-- A repaired timeline accounts for everything: its empty entries go, and one row takes what
is left. -/
theorem Lays.repaired (hsize : 0 < size) (h : Lays P size entries frames pieces) (us : Nat) :
    Accounts P size (entries.filter (fun entry => 0 < entry.2)
      ++ restEntry us (size * frames.length) (taken entries)) frames pieces := by
  have hbehind : ∀ {e2 f2 p2}, Tail P size e2 f2 p2 →
      Accounts P size (e2 ++ restEntry us (size * f2.length) (taken e2)) f2 p2 := by
    intro e2 f2 p2 htail
    have htaken : taken (e2 ++ restEntry us (size * f2.length) (taken e2)) = size * f2.length := by
      have hle := htail.taken_le
      unfold restEntry
      split
      · simp only [taken_append, taken_cons, taken_nil]
        omega
      · simp only [List.append_nil]
        omega
    rcases htail with ⟨rfl, hpieces⟩ | ⟨-, hframes, hempty⟩
    · by_cases hnone : f2 = []
      · subst hnone
        exact .damaged htaken (by simp) hpieces.of_nil
      · have hpos : 0 < size * f2.length := Nat.mul_pos hsize (List.length_pos_iff.mpr hnone)
        simpa [restEntry, hpos, hnone, hsize] using Accounts.single us hpieces
    · exact .damaged htaken hframes hempty
  obtain ⟨e1, e2, f1, f2, p1, p2, rfl, rfl, rfl, hfirst, htail⟩ := h
  have hall := (hfirst.append (hbehind htail)).filter hsize
  have hrest : restEntry us (size * (f1 ++ f2).length) (taken (e1 ++ e2)) =
      restEntry us (size * f2.length) (taken e2) := by
    unfold restEntry
    rw [taken_append, List.length_append, Nat.mul_add, hfirst.taken_eq]
    simp only [Nat.add_lt_add_iff_left, Nat.add_sub_add_left]
  have hkeep : (restEntry us (size * f2.length) (taken e2)).filter (fun entry => 0 < entry.2) =
      restEntry us (size * f2.length) (taken e2) := by
    unfold restEntry
    split
    · rw [List.filter_cons_of_pos (by simp; omega), List.filter_nil]
    · rfl
  rw [← List.append_assoc, List.filter_append, hkeep] at hall
  rw [hrest]
  exact hall

end Accounts

/-! ## The decoder -/

section Decoder

variable {S : Type} (dsp : Dsp S) (rate : Nat) {P : S → Prop} {size : Nat} {mono : List S}

variable {off : Nat} {frames : List S} {pieces : List (List S)} {bytes : List UInt8}
  {format : AudioFormat}

/-- Behind the last frame nothing is placed any more. -/
theorem placeEntries_exhausted (entries : List (Nat × Nat)) (placed : List S) {total : Nat}
    (hoff : mono.length ≤ off / size) :
    placeEntries dsp mono size rate total entries placed off = (placed, off) := by
  cases entries with
  | nil => rfl
  | cons entry entries => rw [placeEntries, if_pos hoff]

/-- One entry places its frames, after some silence. -/
theorem placeEntries_cons (hsize : 0 < size) (us len : Nat) (entries : List (Nat × Nat))
    (placed : List S) (hfit : off + len ≤ size * mono.length) :
    ∃ gap, (∀ x ∈ gap, x = dsp.silence) ∧
      placeEntries dsp mono size rate (size * mono.length) ((us, len) :: entries) placed off =
        placeEntries dsp mono size rate (size * mono.length) entries
          (placed ++ (gap ++ (mono.drop (off / size)).take (len / size))) (off + len) := by
  by_cases hend : mono.length ≤ off / size
  · -- All frames are placed, so the entry takes nothing.
    have hoff : size * mono.length ≤ off := by
      rw [Nat.mul_comm]
      exact (Nat.le_div_iff_mul_le hsize).mp hend
    obtain rfl : len = 0 := by omega
    refine ⟨[], by simp, ?_⟩
    rw [placeEntries_exhausted dsp rate _ _ hend, Nat.zero_div, List.take_zero, List.append_nil,
      List.append_nil, Nat.add_zero, placeEntries_exhausted dsp rate _ _ hend]
  · have hlen : min len (size * mono.length - off) = len := by omega
    refine ⟨List.replicate (usize (us * rate / 1000000) - placed.length) dsp.silence,
      fun x hx => List.eq_of_mem_replicate hx, ?_⟩
    have htake : (mono.drop (off / size)).take
        (min (off / size + len / size) mono.length - off / size) =
          (mono.drop (off / size)).take (len / size) := by
      rw [List.take_eq_take_iff, List.length_drop]
      generalize off / size = start, len / size = count
      omega
    rw [placeEntries, if_neg hend, hlen]
    simp only [htake, List.append_assoc]

/-- Entries over damaged frames place nothing but silence and such frames. -/
theorem placeEntries_torn (hsize : 0 < size) (hsilence : P dsp.silence) {before rest : List S}
    (hmono : mono = before ++ (frames ++ rest)) (hframes : ∀ x ∈ frames, P x)
    (cut entries : List (Nat × Nat)) (placed : List S) (off : Nat)
    (hstart : size * before.length ≤ off)
    (hfit : off + taken cut ≤ size * (before.length + frames.length)) :
    ∃ xs, (∀ x ∈ xs, P x) ∧
      placeEntries dsp mono size rate (size * mono.length) (cut ++ entries) placed off =
        placeEntries dsp mono size rate (size * mono.length) entries (placed ++ xs)
          (off + taken cut) := by
  induction cut generalizing placed off with
  | nil => exact ⟨[], by simp, by simp⟩
  | cons entry cut ih =>
    obtain ⟨us, len⟩ := entry
    rw [taken_cons] at hfit
    have hlength : mono.length = before.length + (frames.length + rest.length) := by
      simp [hmono]
    have hfit' : off + len ≤ size * mono.length := by
      have hle : size * (before.length + frames.length) ≤ size * mono.length :=
        Nat.mul_le_mul_left _ (by omega)
      simp only at hfit
      omega
    obtain ⟨gap, hgap, hstep⟩ := placeEntries_cons dsp rate hsize us len (cut ++ entries)
      placed hfit'
    have hslice : ∀ x ∈ (mono.drop (off / size)).take (len / size), P x := by
      -- The frames taken start behind `before` and end before `rest`.
      intro x hx
      have hfrom : before.length ≤ off / size :=
        (Nat.le_div_iff_mul_le hsize).mpr (by rwa [Nat.mul_comm])
      have hto : off / size - before.length + len / size ≤ frames.length := by
        have hsum : off / size + len / size ≤ (off + len) / size := Nat.div_add_div_le_add_div
        have hbound : (off + len) / size ≤ before.length + frames.length :=
          Nat.div_le_of_le_mul (by simp only at hfit; omega)
        omega
      have hdrop : mono.drop (off / size) = (frames.drop (off / size - before.length)) ++ rest.drop
            (off / size - before.length - frames.length) := by
        rw [hmono, List.drop_append, List.drop_of_length_le hfrom, List.nil_append,
          List.drop_append]
      rw [hdrop, List.take_append_of_le_length (by rw [List.length_drop]; omega)] at hx
      exact hframes x (List.mem_of_mem_drop (List.mem_of_mem_take hx))
    obtain ⟨xs, hxs, hrest⟩ := ih (placed ++ (gap ++ (mono.drop (off / size)).take (len / size)))
      (off + len) (by omega) (by simp only at hfit; omega)
    refine ⟨gap ++ (mono.drop (off / size)).take (len / size) ++ xs, ?_, ?_⟩
    · exact List.forall_mem_append.mpr
        ⟨List.forall_mem_append.mpr ⟨fun x hx => hgap x hx ▸ hsilence, hslice⟩, hxs⟩
    · rw [List.cons_append, hstep, hrest, List.append_assoc, taken_cons, Nat.add_assoc]

/-- Entries that account for a run of frames place its pieces. -/
theorem placeEntries_accounts (hsize : 0 < size) (hsilence : P dsp.silence)
    {entries : List (Nat × Nat)}
    (h : Accounts P size entries frames pieces) (later : List (Nat × Nat)) (before rest : List S)
    (hmono : mono = before ++ (frames ++ rest)) (placed : List S) :
    ∃ xs, Spaced P pieces xs ∧
      placeEntries dsp mono size rate (size * mono.length) (entries ++ later) placed
          (size * before.length) =
        placeEntries dsp mono size rate (size * mono.length) later (placed ++ xs)
          (size * (before ++ frames).length) := by
  induction h generalizing before placed with
  | nil => exact ⟨[], .nil, by simp⟩
  | @row us frames rest' pieces others entries hpieces _ ih =>
    have hlength :
        mono.length = before.length + (frames.length + (rest'.length + rest.length)) := by
      simp [hmono]
    have hfit : size * before.length + size * frames.length ≤ size * mono.length := by
      rw [← Nat.mul_add]
      exact Nat.mul_le_mul_left _ (by omega)
    obtain ⟨gap, hgap, hstep⟩ := placeEntries_cons dsp rate hsize us
      (size * frames.length) (entries ++ later) placed hfit
    rw [Nat.mul_div_cancel_left _ hsize, Nat.mul_div_cancel_left _ hsize] at hstep
    have hslice : (mono.drop before.length).take frames.length = frames := by
      rw [hmono, List.drop_left, List.append_assoc, List.take_left]
    rw [hslice] at hstep
    obtain ⟨xs, hxs, hrest⟩ := ih (before ++ frames) (by simp [hmono]) (placed ++ (gap ++ frames))
    refine ⟨gap ++ frames ++ xs, ?_, ?_⟩
    · have hgaps : Spaced P [] gap := Spaced.gaps fun x hx => by
        rw [hgap x hx]
        exact hsilence
      exact (hgaps.append hpieces).append hxs
    · rw [List.cons_append, hstep, ← Nat.mul_add, ← List.length_append, hrest]
      simp only [List.append_assoc]
  | @torn cut frames rest' pieces others entries htaken hframes hempty _ ih =>
    have hmono' : mono = before ++ (frames ++ (rest' ++ rest)) := by
      rw [hmono, List.append_assoc frames]
    obtain ⟨ys, hys, hcut⟩ := placeEntries_torn dsp rate hsize hsilence hmono' hframes cut
      (entries ++ later) placed (size * before.length) (Nat.le_refl _)
      (by rw [htaken, Nat.mul_add])
    obtain ⟨xs, hxs, hrest⟩ := ih (before ++ frames) (by simp [hmono]) (placed ++ ys)
    refine ⟨ys ++ xs, (Spaced.empties hys hempty).append hxs, ?_⟩
    rw [List.append_assoc, hcut, htaken, ← Nat.mul_add, ← List.length_append, hrest]
    simp only [List.append_assoc]

/-- What a timeline leaves over is placed at the end. -/
theorem placeTimed_eq {timeline : List UInt8} {placed : List S}
    (hsize : 0 < frameSize format) (hentries : parseTimeline timeline ≠ [])
    (hwhole : bytes.length = frameSize format * (decodeToMono dsp bytes format).length)
    (hplaced : placeEntries dsp (decodeToMono dsp bytes format) (frameSize format)
      format.sampleRateHz (frameSize format * (decodeToMono dsp bytes format).length)
      (parseTimeline timeline) [] 0 = (placed, off)) :
    ∃ count, placeTimed dsp bytes format (some timeline) =
      placed ++ ((decodeToMono dsp bytes format).drop (off / frameSize format)).take count ∧
      (frameSize format ∣ off →
        (decodeToMono dsp bytes format).length ≤ off / frameSize format + count) := by
  have hskip : ¬ (parseTimeline timeline = [] ∨ frameSize format = 0) := by
    rintro (h | h)
    · exact hentries h
    · omega
  rw [← hwhole] at hplaced
  simp only [placeTimed, if_neg hskip, hplaced]
  rw [hwhole]
  generalize decodeToMono dsp bytes format = mono
  split
  · rename_i hmore
    refine ⟨_, rfl, ?_⟩
    rintro ⟨start, rfl⟩
    rw [← Nat.mul_sub, Nat.mul_div_cancel_left _ hsize, Nat.mul_div_cancel_left _ hsize]
    omega
  · rename_i hnone
    refine ⟨0, by rw [List.take_zero, List.append_nil], ?_⟩
    rintro ⟨start, rfl⟩
    rw [← Nat.mul_sub, Nat.mul_div_cancel_left _ hsize, Nat.mul_div_cancel_left _ hsize] at hnone
    rw [Nat.mul_div_cancel_left _ hsize]
    omega

/-- Pieces that a timeline lays out come out of the decoder whole and in order. -/
theorem placeTimed_spaced {timeline : Option (List UInt8)}
    (hsize : 0 < frameSize format)
    (hwhole : frameSize format ∣ bytes.length) (hsilence : P dsp.silence)
    (h : Lays P (frameSize format) ((timeline.map parseTimeline).getD [])
      (decodeToMono dsp bytes format) pieces) :
    Spaced P pieces (placeTimed dsp bytes format timeline) := by
  match timeline with
  | none => exact h.spaced
  | some timeline =>
    simp only [Option.map_some, Option.getD_some] at h
    by_cases hnone : parseTimeline timeline = []
    · have hmono : placeTimed dsp bytes format (some timeline) = decodeToMono dsp bytes format := by
        simp [placeTimed, hnone]
      rw [hmono]
      exact h.spaced
    have hlength : bytes.length = frameSize format * (decodeToMono dsp bytes format).length := by
      rw [length_decodeToMono, Nat.mul_div_cancel' hwhole]
    obtain ⟨e1, e2, f1, f2, p1, p2, hentries, hmono, rfl, hfirst, htail⟩ := h
    obtain ⟨xs, hxs, hplaced⟩ := placeEntries_accounts dsp format.sampleRateHz hsize hsilence
      hfirst e2 [] f2 hmono []
    rw [List.nil_append, List.nil_append, ← hentries, List.length_nil, Nat.mul_zero] at hplaced
    rcases htail with ⟨rfl, hpieces⟩ | ⟨htaken, hframes, hempty⟩
    · -- The entries end between two frames: the rest is placed whole.
      obtain ⟨count, hresult, hall⟩ := placeTimed_eq dsp hsize hnone hlength hplaced
      have hcount := hall (Nat.dvd_mul_right _ _)
      rw [Nat.mul_div_cancel_left _ hsize] at hresult hcount
      have hrest : ((decodeToMono dsp bytes format).drop f1.length).take count = f2 := by
        rw [hmono, List.length_append] at hcount
        rw [hmono, List.drop_left, List.take_of_length_le (by omega)]
      rw [hresult, hrest]
      exact hxs.append hpieces
    · -- The last entries reach into damaged frames: so does what is left.
      have hmono' : decodeToMono dsp bytes format = f1 ++ (f2 ++ []) := by
        rw [hmono, List.append_nil]
      obtain ⟨ys, hys, hcut⟩ := placeEntries_torn dsp format.sampleRateHz hsize hsilence
        hmono' hframes e2 [] xs
        (frameSize format * f1.length) (Nat.le_refl _) (by rw [Nat.mul_add]; omega)
      rw [List.append_nil] at hcut
      obtain ⟨count, hresult, -⟩ := placeTimed_eq dsp hsize hnone hlength (hplaced.trans hcut)
      have hrest : ∀ x ∈ ((decodeToMono dsp bytes format).drop
          ((frameSize format * f1.length + taken e2) / frameSize format)).take count, P x := by
        intro x hx
        rw [Nat.mul_add_div hsize, hmono, List.drop_length_add_append] at hx
        exact hframes x (List.mem_of_mem_drop (List.mem_of_mem_take hx))
      rw [hresult, List.append_assoc]
      exact hxs.append (Spaced.empties (List.forall_mem_append.mpr ⟨hys, hrest⟩) hempty)

end Decoder

/-! ## Frames in time -/

/-- When the entry that takes a byte of the PCM file starts, in microseconds. -/
def entryOf : List (Nat × Nat) → Nat → Option Nat
  | [], _ => none
  | (us, len) :: entries, byte => if byte < len then some us else entryOf entries (byte - len)

section Time

variable {S : Type}

/-- `output` holds every frame at its position and nothing else but silence. The positions keep
the order of the frames. -/
structure Placed (silence : S) (frames output : List S) (position : Nat → Nat) : Prop where
  frame : ∀ i < frames.length, output[position i]? = frames[i]?
  order : ∀ i j, i < j → j < frames.length → position i < position j
  quiet : ∀ p < output.length, (∀ i < frames.length, position i ≠ p) → output[p]? = some silence

/-- None of `count` frames stands before the sample at which its entry starts. -/
def OnTime (entries : List (Nat × Nat)) (size rate count : Nat) (position : Nat → Nat) : Prop :=
  ∀ i < count, ∀ us ∈ entryOf entries (size * i), us * rate / 1000000 ≤ position i

variable {silence : S} {frames output : List S} {position : Nat → Nat}

theorem Placed.lt_length (h : Placed silence frames output position) {i : Nat}
    (hi : i < frames.length) : position i < output.length := by
  have hframe := h.frame i hi
  rw [List.getElem?_eq_getElem hi] at hframe
  exact (List.getElem?_eq_some_iff.mp hframe).1

/-- The next frames go behind what is placed, after some silence. -/
theorem Placed.append (h : Placed silence frames output position) (gap : Nat) (more : List S) :
    Placed silence (frames ++ more) (output ++ List.replicate gap silence ++ more) fun i =>
      if i < frames.length then position i else output.length + gap + (i - frames.length) := by
  have hlength : (output ++ List.replicate gap silence).length = output.length + gap := by simp
  refine ⟨fun i hi => ?_, fun i j hij hj => ?_, fun p hp hfree => ?_⟩
  · rw [List.length_append] at hi
    by_cases hold : i < frames.length
    · rw [if_pos hold, List.append_assoc, List.getElem?_append_left (h.lt_length hold),
        List.getElem?_append_left hold]
      exact h.frame i hold
    · rw [if_neg hold, List.getElem?_append_right (by omega), hlength,
        List.getElem?_append_right (by omega), Nat.add_sub_cancel_left]
  · by_cases hold : j < frames.length
    · simpa only [if_pos hold, if_pos (Nat.lt_trans hij hold)] using h.order i j hij hold
    · by_cases hi : i < frames.length
      · have := h.lt_length hi
        simp only [if_pos hi, if_neg hold]
        omega
      · simp only [if_neg hi, if_neg hold]
        omega
  · -- A free position is an old one or lies in the gap: the new frames fill the end.
    rw [List.length_append, hlength] at hp
    have hbefore : p < output.length + gap := by
      by_contra hafter
      refine hfree (frames.length + (p - (output.length + gap))) ?_ ?_
      · rw [List.length_append]
        omega
      · rw [if_neg (by omega)]
        omega
    rw [List.getElem?_append_left (by omega)]
    by_cases hold : p < output.length
    · rw [List.getElem?_append_left hold]
      refine h.quiet p hold fun i hi heq => hfree i ?_ (by rw [if_pos hi, heq])
      rw [List.length_append]
      omega
    · rw [List.getElem?_append_right (by omega), List.getElem?_replicate, if_pos (by omega)]

variable (dsp : Dsp S) {rate size total : Nat} {mono : List S}

variable {entries : List (Nat × Nat)}

/-- The entry loop from `n` placed frames on, over entries that take whole frames and reach the
end: if no start wraps, every frame comes out, none before its time. -/
theorem placeEntries_onTime (hsize : 0 < size) (hmono : mono.length = total / size)
    {placed : List S} {n : Nat} {position : Nat → Nat}
    (haligned : ∀ entry ∈ entries, size ∣ entry.2) (hcover : total ≤ size * n + taken entries)
    (hplaced : Placed dsp.silence (mono.take n) placed position) (hn : n ≤ mono.length)
    (hfits : ∀ i, n ≤ i → i < mono.length → ∀ us ∈ entryOf entries (size * (i - n)),
      us * rate / 1000000 < 2 ^ 64) :
    ∃ position', Placed dsp.silence mono
        (placeEntries dsp mono size rate total entries placed (size * n)).1 position' ∧
      mono.length ≤ (placeEntries dsp mono size rate total entries placed (size * n)).2 / size ∧
      (∀ i < n, position' i = position i) ∧
      ∀ i, n ≤ i → i < mono.length → ∀ us ∈ entryOf entries (size * (i - n)),
        us * rate / 1000000 ≤ position' i := by
  induction entries generalizing placed n position with
  | nil =>
    have hall : mono.length ≤ n := by
      rw [hmono]
      exact Nat.div_le_of_le_mul (by simpa using hcover)
    rw [List.take_of_length_le hall] at hplaced
    refine ⟨position, hplaced, ?_, fun _ _ => rfl, fun i hi hlt => by omega⟩
    show mono.length ≤ size * n / size
    rwa [Nat.mul_div_cancel_left _ hsize]
  | cons entry entries ih =>
    obtain ⟨us, len⟩ := entry
    by_cases hall : mono.length ≤ n
    · have hoff : mono.length ≤ size * n / size := by rwa [Nat.mul_div_cancel_left _ hsize]
      rw [List.take_of_length_le hall] at hplaced
      rw [placeEntries_exhausted dsp rate _ _ hoff]
      exact ⟨position, hplaced, hoff, fun _ _ => rfl, fun i hi hlt => by omega⟩
    have htotal : size * mono.length ≤ total := by
      rw [hmono]
      exact Nat.mul_div_le total size
    have hbelow : total < size * (mono.length + 1) := by
      rw [hmono]
      exact Nat.lt_mul_div_succ total hsize
    have hstart : size * n ≤ total :=
      Nat.le_trans (Nat.mul_le_mul_left size hn) htotal
    obtain ⟨own, rfl⟩ : size ∣ len := haligned _ List.mem_cons_self
    -- The entry places its own frames, or all that is left.
    obtain ⟨count, hcount, hle, hown⟩ :
        ∃ count, min (size * own) (total - size * n) / size = count ∧
        n + count ≤ mono.length ∧ count ≤ own := by
      refine ⟨_, rfl, ?_, ?_⟩
      · have hleft : min (size * own) (total - size * n) / size ≤ (total - size * n) / size :=
          Nat.div_le_div_right (Nat.min_le_right _ _)
        rw [Nat.sub_mul_div, ← hmono] at hleft
        omega
      · exact Nat.div_le_of_le_mul (Nat.min_le_left _ _)
    have hstep : placeEntries dsp mono size rate total ((us, size * own) :: entries) placed
        (size * n) = placeEntries dsp mono size rate total entries
          (placed ++ List.replicate (usize (us * rate / 1000000) - placed.length) dsp.silence
            ++ (mono.drop n).take count)
          (size * n + min (size * own) (total - size * n)) := by
      rw [placeEntries]
      simp only [Nat.mul_div_cancel_left _ hsize, hcount, if_neg hall, Nat.min_eq_left hle,
        Nat.add_sub_cancel_left]
    have hnext := hplaced.append (usize (us * rate / 1000000) - placed.length)
      ((mono.drop n).take count)
    rw [← List.take_add, List.length_take, Nat.min_eq_left hn] at hnext
    have hin : ∀ i, n ≤ i → i < n + count →
        entryOf ((us, size * own) :: entries) (size * (i - n)) = some us := by
      intro i hi hlt
      exact if_pos (Nat.mul_lt_mul_of_pos_left (by omega) hsize)
    have hstarts : ∀ i, n ≤ i → i < n + count → us * rate / 1000000 ≤
        placed.length + (usize (us * rate / 1000000) - placed.length) + (i - n) := by
      intro i hi hlt
      have hfit := hfits i hi (by omega) us (hin i hi hlt)
      rw [usize, Nat.mod_eq_of_lt hfit]
      omega
    rw [hstep]
    by_cases hwhole : size * own ≤ total - size * n
    · rw [Nat.min_eq_left hwhole, Nat.mul_div_cancel_left _ hsize] at hcount
      subst hcount
      have hbehind : ∀ i, ¬ i < n + own → entryOf ((us, size * own) :: entries) (size * (i - n)) =
          entryOf entries (size * (i - (n + own))) := by
        intro i hi
        rw [entryOf, if_neg (Nat.not_lt.mpr (Nat.mul_le_mul_left size (by omega))), ← Nat.mul_sub,
          Nat.sub_sub]
      rw [Nat.min_eq_left hwhole, ← Nat.mul_add]
      obtain ⟨position', hframes, hend, hsame, hlater⟩ := ih
        (fun entry hentry => haligned entry (List.mem_cons_of_mem _ hentry))
        (by rw [Nat.mul_add]; simpa [Nat.add_assoc] using hcover) hnext hle
        fun i hi hlt us' hus' => hfits i (by omega) hlt us' (by rwa [hbehind i (by omega)])
      refine ⟨position', hframes, hend, fun i hi => ?_, fun i hi hlt us' hus' => ?_⟩
      · rw [hsame i (by omega), if_pos hi]
      · by_cases hnew : i < n + own
        · obtain rfl := Option.some.inj ((hin i hi hnew).symm.trans hus')
          rw [hsame i hnew, if_neg (by omega)]
          exact hstarts i hi hnew
        · exact hlater i (by omega) hlt us' (by rwa [hbehind i hnew] at hus')
    · rw [Nat.min_eq_right (by omega)] at hcount ⊢
      rw [Nat.sub_mul_div, ← hmono] at hcount
      have hend : n + count = mono.length := by omega
      rw [Nat.add_sub_cancel' hstart, placeEntries_exhausted dsp rate _ _ (by rw [hmono])]
      rw [hend, List.take_of_length_le (Nat.le_refl _)] at hnext
      refine ⟨_, hnext, Nat.le_of_eq hmono, fun i hi => if_pos hi, fun i hi hlt us' hus' => ?_⟩
      obtain rfl := Option.some.inj ((hin i hi (by omega)).symm.trans hus')
      show _ ≤ if i < n then _ else _
      rw [if_neg (by omega)]
      exact hstarts i hi (by omega)

/-- What fits a `Vec` goes to the resampler. -/
theorem decodeSourceTimed_eq {bytes : List UInt8} {format : AudioFormat}
    {timeline : Option (List UInt8)} (hvalid : validateFormat format = .ok ())
    (hfits : (placeTimed dsp bytes format timeline).length ≤ VEC_F32_MAX) :
    decodeSourceTimed dsp bytes format timeline =
      resampleTo16k dsp (placeTimed dsp bytes format timeline) format.sampleRateHz := by
  simp [decodeSourceTimed, hvalid, Nat.not_lt.mpr hfits, bind, Except.bind]

end Time

/-- Samples that are the frames' own bytes. -/
def plainDsp : Dsp (List UInt8) :=
  ⟨[], fun _ frame => frame, fun samples _ => .ok samples, fun _ => 0, fun _ => .ok []⟩

end SolstoneWindows.Proofs.Placement
