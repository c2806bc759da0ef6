import SolstoneWindows.Proofs.Placement
import SolstoneWindows.Proofs.PlatformWin.WriteChunk
import SolstoneWindows.Proofs.Timeline

/-!
# A stream's chunks through failures and restarts

A stream's history is a list of parts: the chunks whose calls returned, and what the calls that
did not return left in the PCM file. `Sound` relates the parts to the two files of the stream.
`Wrote.sound` is the step: every way a call can end keeps it, as long as the PCM file holds
whole frames afterwards. `writeChunk_keeps_chunks` is the run: the seal then decodes every
chunk whose call returned, whole and in order.

The condition is needed. A call that leaves part of a frame in the PCM file shifts every later
frame (`writeChunk_shifts_frames`). The second counterpart, `writeChunk_uses_format_iff`, is
about the sidecar, which keeps the format of the first chunk.
-/

set_option autoImplicit false

namespace SolstoneWindows.Proofs.PlatformWin

open Lib.Effect Lib.Fs Lib.Streams
open ObserverModel (AudioFormat CaptureChunk SegmentKey)
open ObserverAudio
open SolstoneWindows.PlatformWin
open Proofs.Placement
open Proofs.Timeline

/-! ## Repaired timelines -/

section

variable {pcmLen covered : Nat} {entries : List (Nat × Nat)}
    (hfit : covered + taken entries ≤ pcmLen)

include hfit

/-- Entries that never take more than there is are all kept, but for the empty ones, and what
follows them gets what they leave. -/
theorem keepEntries_append (more : List (Nat × Nat)) :
    keepEntries pcmLen covered (entries ++ more) = ((entries.filter fun entry => 0 < entry.2) ++
          (keepEntries pcmLen (covered + taken entries) more).1,
        (keepEntries pcmLen (covered + taken entries) more).2) := by
  induction entries generalizing covered with
  | nil => rfl
  | cons entry entries ih =>
    obtain ⟨us, len⟩ := entry
    rw [taken_cons] at hfit
    simp only at hfit
    have hkeep : min len (pcmLen - covered) = len := by omega
    have hrest := ih (show covered + len + taken entries ≤ pcmLen by omega)
    simp only [List.cons_append, keepEntries, hkeep, hrest, taken_cons]
    by_cases hpos : 0 < len
    · rw [if_pos hpos, List.filter_cons_of_pos (by simpa using hpos), Nat.add_assoc]
      rfl
    · rw [if_neg hpos, List.filter_cons_of_neg (by simpa using hpos), Nat.add_assoc]

theorem keepEntries_eq : keepEntries pcmLen covered entries =
      (entries.filter fun entry => 0 < entry.2, covered + taken entries) := by
  simpa [keepEntries] using keepEntries_append hfit []

end

/-- What is read from a line fits a `u64`. -/
theorem parseLine_fits {line : List Char} {entry : Nat × Nat} (h : parseLine line = some entry) :
    entry.1 < 2 ^ 64 ∧ entry.2 < 2 ^ 64 := by
  have hnumber : ∀ {text n}, parseU64 text = some n → n < 2 ^ 64 := by
    intro text n hn
    simp only [parseU64] at hn
    split at hn
    · rename_i hok
      obtain rfl := Option.some.inj hn
      exact hok.2.2
    · cases hn
  unfold parseLine at h
  split at h
  · split at h
    · rename_i hus hlen
      obtain rfl := Option.some.inj h
      exact ⟨hnumber hus, hnumber hlen⟩
    · cases h
  · cases h

theorem parseTimeline_fits (bytes : List UInt8) : Fits (parseTimeline bytes) := by
  intro entry hentry
  unfold parseTimeline at hentry
  split at hentry
  · cases hentry
  obtain ⟨line, -, hline⟩ := List.mem_filterMap.mp hentry
  exact parseLine_fits hline

/-! ## Parts -/

/-- What one call added to the PCM file. -/
inductive Part where
  /-- The call returned: it added its whole chunk. -/
  | whole (bytes : List UInt8)
  /-- The call failed, or the process stopped in it. -/
  | torn (bytes : List UInt8)
  deriving DecidableEq

def Part.bytes : Part → List UInt8
  | .whole bytes => bytes
  | .torn bytes => bytes

variable {valid : Bool}

section Parts

variable {S : Type} (dsp : Dsp S) (format : AudioFormat)

/-- The chunks whose calls returned, each decoded on its own. -/
def pieces (parts : List Part) : List (List S) :=
  parts.filterMap fun
    | .whole bytes => some (decodeToMono dsp bytes format)
    | .torn _ => none

/-- A sample that is silence, or comes from a call that did not return. -/
def Damaged (parts : List Part) (x : S) : Prop :=
  x = dsp.silence ∨ ∃ bytes, Part.torn bytes ∈ parts ∧ x ∈ decodeToMono dsp bytes format

/-- The PCM file is the parts, and the timeline lays out the chunks that returned. -/
structure Sound (parts : List Part) (pcm text : List UInt8) : Prop where
  pcm_eq : pcm = parts.flatMap Part.bytes
  aligned : ∀ part ∈ parts, frameSize format ∣ part.bytes.length
  lays : Lays (Damaged dsp format parts) (frameSize format) (parseTimeline text)
    (decodeToMono dsp pcm format) (pieces dsp format parts)

/-- The timeline is whole rows that account for all of the PCM. -/
def Complete (parts : List Part) (pcm text : List UInt8) : Prop :=
  ∃ entries, text = timelineText entries ∧ Fits entries ∧
    Accounts (Damaged dsp format parts) (frameSize format) entries (decodeToMono dsp pcm format)
      (pieces dsp format parts)

variable {dsp format} {parts : List Part} {pcm text : List UInt8}

theorem Damaged.mono {x : S} (h : Damaged dsp format parts x) (part : Part) :
    Damaged dsp format (parts ++ [part]) x := by
  rcases h with h | ⟨bytes, hmem, hx⟩
  · exact .inl h
  · exact .inr ⟨bytes, List.mem_append_left _ hmem, hx⟩

variable {bytes text' : List UInt8}

/-- The frames of a failed call count as damaged. -/
theorem damaged_torn {x : S} (hx : x ∈ decodeToMono dsp bytes format) :
    Damaged dsp format (parts ++ [.torn bytes]) x :=
  .inr ⟨bytes, by simp, hx⟩

theorem pieces_whole (bytes : List UInt8) : pieces dsp format (parts ++ [.whole bytes]) =
      pieces dsp format parts ++ [decodeToMono dsp bytes format] := by
  simp [pieces]

theorem pieces_torn (bytes : List UInt8) :
    pieces dsp format (parts ++ [.torn bytes]) = pieces dsp format parts := by
  simp [pieces]

/-- The PCM of a sound stream is whole frames. -/
theorem Sound.pcm_aligned (h : Sound dsp format parts pcm text) :
    frameSize format ∣ pcm.length := by
  have haligned := h.aligned
  rw [h.pcm_eq]
  clear h
  induction parts with
  | nil => exact Nat.dvd_zero _
  | cons part parts ih =>
    rw [List.flatMap_cons, List.length_append]
    exact Nat.dvd_add (haligned part List.mem_cons_self)
      (ih fun part' hpart' => haligned part' (List.mem_cons_of_mem _ hpart'))

theorem Sound.pcm_length (h : Sound dsp format parts pcm text) :
    pcm.length = frameSize format * (decodeToMono dsp pcm format).length := by
  rw [length_decodeToMono, Nat.mul_div_cancel' h.pcm_aligned]

theorem Complete.lays (h : Complete dsp format parts pcm text) :
    Lays (Damaged dsp format parts) (frameSize format) (parseTimeline text)
      (decodeToMono dsp pcm format) (pieces dsp format parts) := by
  obtain ⟨entries, rfl, hfits, haccounts⟩ := h
  rw [parseTimeline_timelineText hfits]
  exact haccounts.lays

/-- Before the row of a chunk with a time, the timeline accounts for all of the PCM. -/
theorem Readied.complete {us : Nat} (hready : Readied (some us) valid pcm text text')
    (hsize : 0 < frameSize format) (h : Sound dsp format parts pcm text)
    (hvalid : valid = true → Complete dsp format parts pcm text) (hlen : pcm.length < 2 ^ 64) :
    Complete dsp format parts pcm text' := by
  rcases hready with ⟨htrue, rfl⟩ | ⟨endUs, hend, rfl⟩
  · exact hvalid htrue
  have hfit : 0 + taken (parseTimeline text) ≤ pcm.length := by
    rw [Nat.zero_add, h.pcm_length]
    exact h.lays.taken_le
  refine ⟨_, rfl, ?_, ?_⟩
  · intro entry hentry
    rw [keepEntries_eq hfit] at hentry
    rcases List.mem_append.mp hentry with hkept | hrest
    · exact parseTimeline_fits text entry (List.mem_of_mem_filter hkept)
    · unfold restEntry at hrest
      split at hrest
      · rw [List.mem_singleton.mp hrest]
        exact ⟨hend, by simp only; omega⟩
      · cases hrest
  · rw [keepEntries_eq hfit, Nat.zero_add, h.pcm_length]
    exact h.lays.repaired hsize endUs

/-- A call adds its part behind the PCM. -/
theorem Sound.add (part : Part) (hsize : 0 < frameSize format) (h : Sound dsp format parts pcm text)
    (hbytes : frameSize format ∣ part.bytes.length)
    (hlays : Lays (Damaged dsp format (parts ++ [part])) (frameSize format) (parseTimeline text')
      (decodeToMono dsp pcm format ++ decodeToMono dsp part.bytes format)
      (pieces dsp format (parts ++ [part]))) :
    Sound dsp format (parts ++ [part]) (pcm ++ part.bytes) text' where
  pcm_eq := by simp [h.pcm_eq]
  aligned := List.forall_mem_append.mpr ⟨h.aligned, List.forall_mem_singleton.mpr hbytes⟩
  lays := by
    rw [decodeToMono_append dsp hsize h.pcm_aligned]
    exact hlays

/-- A failed call adds damaged frames. -/
theorem Sound.add_torn (hsize : 0 < frameSize format) (h : Sound dsp format parts pcm text)
    (hbytes : frameSize format ∣ bytes.length)
    (hlays : Lays (Damaged dsp format parts) (frameSize format) (parseTimeline text')
      (decodeToMono dsp pcm format) (pieces dsp format parts)) :
    Sound dsp format (parts ++ [.torn bytes]) (pcm ++ bytes) text' := by
  refine h.add (.torn bytes) hsize hbytes ?_
  rw [pieces_torn]
  exact (hlays.mono fun x hx => hx.mono _).add_torn fun x hx => damaged_torn hx

/-- The part a call adds to the history. -/
def partOf (chunk : CaptureChunk) (pcm pcm' : List UInt8) : Bool → Part
  | true => .whole chunk.data
  | false => .torn (pcm'.drop pcm.length)

@[simp] theorem partOf_append (chunk : CaptureChunk) (pcm bytes : List UInt8) :
    partOf chunk pcm (pcm ++ bytes) false = .torn bytes := by
  simp [partOf]

/-- Every way a call can end keeps a stream sound, if the PCM file then holds whole frames, and
if a chunk without a time is not written behind a timeline that ends inside a frame. -/
theorem Wrote.sound {chunk : CaptureChunk} {valid' returned : Bool}
    {pcm' : List UInt8} (hwrote : Wrote chunk valid pcm text returned pcm' text' valid')
    (hsize : 0 < frameSize format) (h : Sound dsp format parts pcm text)
    (hvalid : valid = true → Complete dsp format parts pcm text)
    (hdata : frameSize format ∣ chunk.data.length) (hus : ∀ us, chunk.atUs = some us → us < 2 ^ 64)
    (hlen : pcm.length + chunk.data.length < 2 ^ 64) (haligned : frameSize format ∣ pcm'.length)
    (hbetween : returned = true → chunk.atUs = none →
      frameSize format ∣ taken (parseTimeline text)) :
    Sound dsp format (parts ++ [partOf chunk pcm pcm' returned]) pcm' text' ∧ (valid' = true →
        Complete dsp format (parts ++ [partOf chunk pcm pcm' returned]) pcm' text') := by
  have hmono : ∀ (part : Part) x, Damaged dsp format parts x →
      Damaged dsp format (parts ++ [part]) x := fun part x hx => hx.mono part
  cases hwrote with
  | early =>
    have hpart : partOf chunk pcm pcm false = .torn [] := by simp [partOf]
    rw [hpart]
    constructor
    · have hsound : Sound dsp format (parts ++ [.torn []]) (pcm ++ []) text :=
        h.add_torn hsize (Nat.dvd_zero _) h.lays
      rwa [List.append_nil] at hsound
    · intro htrue
      obtain ⟨entries, rfl, hfits, haccounts⟩ := hvalid htrue
      exact ⟨entries, rfl, hfits, by rw [pieces_torn]; exact haccounts.mono (hmono _)⟩
  | cutPcm kept hready =>
    rw [List.length_append, Nat.dvd_add_right h.pcm_aligned] at haligned
    rw [partOf_append]
    refine ⟨h.add_torn hsize haligned ?_, by simp⟩
    cases hat : chunk.atUs with
    | none =>
      rw [hat] at hready
      rw [show text' = text from hready]
      exact h.lays
    | some us =>
      rw [hat] at hready
      exact (hready.complete hsize h hvalid (by omega)).lays
  | cutRow kept hat hready =>
    rw [partOf_append]
    rw [hat] at hready
    obtain ⟨entries, rfl, hfits, haccounts⟩ := hready.complete hsize h hvalid (by omega)
    refine ⟨?_, by simp⟩
    rcases parseTimeline_cut_row hfits (hus _ hat)
        (show chunk.data.length < 2 ^ 64 by omega) kept with hread | ⟨len', hle, hread⟩
    · refine h.add_torn hsize hdata ?_
      rw [hread]
      exact haccounts.lays
    · -- the row was cut inside its number, so it takes fewer bytes
      refine h.add (.torn chunk.data) hsize hdata ?_
      rw [hread, pieces_torn]
      refine ⟨_, _, _, _, _, [], rfl, rfl, (List.append_nil _).symm, haccounts.mono (hmono _),
        .inr ⟨?_, fun x hx => damaged_torn hx, by simp⟩⟩
      show len' ≤ frameSize format * (decodeToMono dsp chunk.data format).length
      rwa [length_decodeToMono, Nat.mul_div_cancel' hdata]
  | untimed returned hat =>
    refine ⟨?_, by simp⟩
    cases returned with
    | true =>
      refine h.add (.whole chunk.data) hsize hdata ?_
      rw [pieces_whole]
      exact (h.lays.add_piece _ (hbetween rfl hat)).mono (hmono _)
    | false =>
      rw [partOf_append]
      exact h.add_torn hsize hdata h.lays
  | @timed _ us _ hat hready =>
    rw [hat] at hready
    obtain ⟨entries, rfl, hfits, haccounts⟩ := hready.complete hsize h hvalid (by omega)
    -- The new text is the old rows and the chunk's own.
    have htext : timelineText entries ++ utf8 (timelineRow us chunk.data.length) =
        timelineText (entries ++ [(us, chunk.data.length)]) := by
      simp [timelineText]
    have hfits' : Fits (entries ++ [(us, chunk.data.length)]) :=
      List.forall_mem_append.mpr ⟨hfits, List.forall_mem_singleton.mpr
        ⟨hus us hat, by simp only; omega⟩⟩
    have hrow : chunk.data.length =
        frameSize format * (decodeToMono dsp chunk.data format).length := by
      rw [length_decodeToMono, Nat.mul_div_cancel' hdata]
    obtain ⟨part, hpart, hbytes, hadds⟩ : ∃ part, partOf chunk pcm (pcm ++ chunk.data) returned =
        part ∧ part.bytes = chunk.data ∧ Accounts (Damaged dsp format (parts ++ [part]))
          (frameSize format) (entries ++ [(us, chunk.data.length)])
          (decodeToMono dsp pcm format ++ decodeToMono dsp chunk.data format)
          (pieces dsp format (parts ++ [part])) := by
      rw [hrow]
      cases returned with
      | true =>
        refine ⟨.whole chunk.data, rfl, rfl, ?_⟩
        rw [pieces_whole]
        exact (haccounts.append (.single us (.single _))).mono (hmono _)
      | false =>
        refine ⟨.torn chunk.data, partOf_append chunk pcm chunk.data, rfl, ?_⟩
        rw [pieces_torn, ← List.append_nil (pieces dsp format parts)]
        exact (haccounts.mono (hmono _)).append (.single us (.gaps fun x hx => damaged_torn hx))
    rw [hpart, htext, ← hbytes]
    rw [← hbytes] at hdata hadds hfits'
    refine ⟨h.add part hsize hdata ?_, fun _ => ⟨_, rfl, hfits', ?_⟩⟩
    · rw [parseTimeline_timelineText hfits']
      exact hadds.lays
    · rw [decodeToMono_append dsp hsize h.pcm_aligned]
      exact hadds

end Parts

/-! ## Histories -/

section History

variable {S : Type} (json : SegmentJson) (dsp : Dsp S) (key : SegmentKey) (source : AudioSource)
  (format : AudioFormat)

/-- The bytes of the stream's PCM file. -/
def pcmOf (s : LocalSegmentFs) : List UInt8 :=
  content s.disk (.incomplete key.index) (sourceFileName source)

/-- The text of the stream's timeline. -/
def textOf (s : LocalSegmentFs) : List UInt8 :=
  content s.disk (.incomplete key.index) (sourceTimelineFileName source)

/-- One call of a history. The process that comes after a stop has no handles. -/
def record (chunk : CaptureChunk) (verdicts : List Verdict) (h : LocalSegmentFs × List Part) :
    LocalSegmentFs × List Part :=
  let s := (writeChunk json key chunk).final verdicts h.1
  match (writeChunk json key chunk verdicts h.1).1 with
  | .ok () => (s, h.2 ++ [partOf chunk (pcmOf key source h.1) (pcmOf key source s) true])
  | .err _ => (s, h.2 ++ [partOf chunk (pcmOf key source h.1) (pcmOf key source s) false])
  | .stopped =>
    (s.restart, h.2 ++ [partOf chunk (pcmOf key source h.1) (pcmOf key source s) false])

/-- The sidecar is not there, or holds the stream's format. Writing it is no part of the
failures looked at here. -/
def SidecarWhole (s : LocalSegmentFs) : Prop :=
  node? s.disk (.incomplete key.index) (sourceFmtFileName source) = none ∨
    ∃ mtime, node? s.disk (.incomplete key.index) (sourceFmtFileName source) =
      some (.file (json.toVec format) mtime)

/-- A chunk of the stream, in whole frames. Its time is a `u64`. -/
structure OfStream (chunk : CaptureChunk) : Prop where
  source_eq : AudioSource.ofKind chunk.source = some source
  format_eq : chunk.format = some format
  whole : frameSize format ∣ chunk.data.length
  time : ∀ us, chunk.atUs = some us → us < 2 ^ 64

/-- A step of the stream's history: a restart, or a call with a chunk of the stream. The call
may fail anywhere and the process may stop anywhere, as long as the PCM file then holds whole
frames, and a chunk without a time is not written behind rows that end inside a frame. -/
def AlignedStep (h h' : LocalSegmentFs × List Part) : Prop :=
  h' = (h.1.restart, h.2) ∨ ∃ chunk verdicts, OfStream source format chunk ∧
      (pcmOf key source h.1).length + chunk.data.length < 2 ^ 64 ∧
      h' = record json key source chunk verdicts h ∧ SidecarWhole json key source format h'.1 ∧
      frameSize format ∣ (pcmOf key source h'.1).length ∧
      ((writeChunk json key chunk verdicts h.1).1 = .ok () → chunk.atUs = none →
        frameSize format ∣ taken (parseTimeline (textOf key source h.1)))

/-- No stream has been captured yet. -/
structure Uncaptured (s : LocalSegmentFs) : Prop where
  pcm : node? s.disk (.incomplete key.index) (sourceFileName source) = none
  fmt : node? s.disk (.incomplete key.index) (sourceFmtFileName source) = none
  timeline : node? s.disk (.incomplete key.index) (sourceTimelineFileName source) = none
  handle : s.handles.lookup (key, source) = none

/-- What every history keeps. -/
def Recorded (h : LocalSegmentFs × List Part) : Prop :=
  SidecarWhole json key source format h.1 ∧ ∃ pcm text valid,
    Live key source pcm text valid h.1 ∧ Sound dsp format h.2 pcm text ∧
      (valid = true → Complete dsp format h.2 pcm text)

variable {json dsp key source format} {h h' : LocalSegmentFs × List Part} {s : LocalSegmentFs}

/-- A restart forgets the handles only. -/
theorem Live.restart {pcm text : List UInt8}
    (h : Live key source pcm text valid s) : Live key source pcm text false s.restart :=
  ⟨h.onDisk, by simp [LocalSegmentFs.restart],
    by simp [LocalSegmentFs.restart, LocalSegmentFs.timelineValid]⟩

/-- A stream that is not captured yet has no bytes. -/
theorem live_fresh (hfresh : Uncaptured key source s) : Live key source [] [] false s where
  onDisk :=
    { pcm_not_folder := by simp [hfresh.pcm]
      timeline_not_folder := by simp [hfresh.timeline]
      sidecar := by simp [hfresh.pcm]
      pcm_eq := by simp [content, hfresh.pcm]
      text_eq := by simp [content, hfresh.timeline] }
  there := by simp [hfresh.handle]
  valid_eq := by simp [LocalSegmentFs.timelineValid, hfresh.handle]

theorem recorded_fresh (hfresh : Uncaptured key source s) :
    Recorded json dsp key source format (s, []) := by
  refine ⟨.inl hfresh.fmt, [], [], false, live_fresh hfresh, ⟨rfl, by simp, ?_⟩, by simp⟩
  have hframes : decodeToMono dsp [] format = [] := by simp [decodeToMono, chunksExact]
  rw [hframes]
  exact lays_nil

/-- A call leaves what `After` says, and the history says so too. -/
theorem record_after {chunk : CaptureChunk} {pcm text : List UInt8}
    (hchunk : OfStream source format chunk) (verdicts : List Verdict)
    (hlive : Live key source pcm text valid h.1) :
    ∃ returned pcm' text' valid', Wrote chunk valid pcm text returned pcm' text' valid' ∧
      (∃ valid'', Live key source pcm' text' valid'' (record json key source chunk verdicts h).1 ∧
        (valid'' = true → valid' = true)) ∧
      (record json key source chunk verdicts h).2 = h.2 ++ [partOf chunk pcm pcm' returned] ∧
      (returned = true → (writeChunk json key chunk verdicts h.1).1 = .ok ()) := by
  have hpcm : pcmOf key source h.1 = pcm := hlive.onDisk.pcm_eq
  have hprog : writeChunk json key chunk = writeAudioChunk json key source chunk := by
    simp only [writeChunk, hchunk.source_eq]
  have hruns : Runs (fun _ => True) h.1 (writeAudioChunk json key source chunk)
      (fun _ => After key source chunk valid pcm text true)
      (fun _ => After key source chunk valid pcm text false)
      (After key source chunk valid pcm text false) :=
    writeAudioChunk_wrote trivial hchunk.format_eq hlive
  have hspec := (hruns verdicts fun _ _ => trivial).2
  rw [← hprog] at hspec
  unfold record
  simp only [Prog.final, hpcm]
  cases hend : (writeChunk json key chunk verdicts h.1).1 with
  | ok u =>
    rw [hend] at hspec
    obtain ⟨pcm', text', valid', hwrote, hlive'⟩ := hspec
    exact ⟨true, pcm', text', valid', hwrote, ⟨valid', hlive', id⟩, rfl, fun _ => rfl⟩
  | err e =>
    rw [hend] at hspec
    obtain ⟨pcm', text', valid', hwrote, hlive'⟩ := hspec
    refine ⟨false, pcm', text', valid', hwrote, ⟨valid', hlive', id⟩, ?_, by simp⟩
    show _ = _
    rw [show pcmOf key source _ = pcm' from hlive'.onDisk.pcm_eq]
  | stopped =>
    rw [hend] at hspec
    obtain ⟨pcm', text', valid', hwrote, hlive'⟩ := hspec
    refine ⟨false, pcm', text', valid', hwrote, ⟨false, hlive'.restart, by simp⟩, ?_, by simp⟩
    show _ = _
    rw [show pcmOf key source _ = pcm' from hlive'.onDisk.pcm_eq]

/-- A step keeps a history recorded. -/
theorem AlignedStep.recorded (hsize : 0 < frameSize format)
    (hstep : AlignedStep json key source format h h')
    (hrec : Recorded json dsp key source format h) :
    Recorded json dsp key source format h' := by
  obtain ⟨hsidecar, pcm, text, valid, hlive, hsound, hvalid⟩ := hrec
  rcases hstep with rfl | ⟨chunk, verdicts, hchunk, hlen, rfl, hsidecar', haligned, hbetween⟩
  · exact ⟨hsidecar, pcm, text, false, hlive.restart, hsound, by simp⟩
  obtain ⟨returned, pcm', text', valid', hwrote, ⟨valid'', hlive', hflag⟩, hparts, hreturned⟩ :=
    record_after hchunk verdicts hlive
  have hpcm : pcmOf key source h.1 = pcm := hlive.onDisk.pcm_eq
  have htext : textOf key source h.1 = text := hlive.onDisk.text_eq
  have hpcm' : pcmOf key source (record json key source chunk verdicts h).1 = pcm' :=
    hlive'.onDisk.pcm_eq
  rw [hpcm] at hlen
  rw [hpcm'] at haligned
  rw [htext] at hbetween
  obtain ⟨hsound', hcomplete'⟩ := hwrote.sound hsize hsound hvalid hchunk.whole hchunk.time hlen
    haligned fun htrue => hbetween (hreturned htrue)
  rw [← hparts] at hsound' hcomplete'
  exact ⟨hsidecar', pcm', text', valid'', hlive', hsound', fun htrue => hcomplete' (hflag htrue)⟩

/-! ## What the seal decodes -/

/-- What the seal finds is the chunks whose calls returned: each complete and in order, with
only silence and samples of calls that did not return between them. A stream that is absent
has no chunk with a byte. A stream that is laid out longer than a `Vec` can be is not decoded. -/
def Decodes (dsp : Dsp S) (format : AudioFormat) (parts : List Part) : SealAudioSource → Prop
  | .absent => ∀ bytes, Part.whole bytes ∈ parts → bytes = []
  | .orphan => False
  | .present found =>
    let placed := placeTimed dsp found.bytes format found.timelineBytes
    found.format = format ∧ Spaced (Damaged dsp format parts) (pieces dsp format parts) placed ∧
      (placed.length ≤ VEC_F32_MAX →
        decodeSourceTimed dsp found.bytes found.format found.timelineBytes =
          resampleTo16k dsp placed format.sampleRateHz)

/-- Of a stream without bytes the seal finds nothing. -/
theorem Live.finds_absent {text : List UInt8} (hlive : Live key source [] text valid s) :
    findSource json s.disk (.incomplete key.index) source = some .absent := by
  have hpcm := hlive.onDisk.pcm_eq
  unfold content at hpcm
  unfold findSource
  split at hpcm
  · rename_i hnode
    rw [hpcm] at hnode
    simp [hnode]
  · split
    · rfl
    · rfl
    · rename_i hnode
      simp_all

/-- Of a stream with bytes and a sidecar the seal finds the bytes, the sidecar's format and the
timeline. -/
theorem Live.finds_present {pcm text : List UInt8} {mtime : Nat}
    (hlive : Live key source pcm text valid s) (hne : pcm ≠ [])
    (hsidecar : sidecarOf key source s.disk = some (.file (json.toVec format) mtime))
    (hjson : json.fromSlice (json.toVec format) = some format) :
    ∃ timeline : Option (List UInt8), findSource json s.disk (.incomplete key.index) source =
        some (.present ⟨source, pcm, timeline, format⟩) ∧
      (timeline.map parseTimeline).getD [] = parseTimeline text := by
  have hthere : node? s.disk (.incomplete key.index) (sourceFileName source) ≠ none := by
    intro hnone
    rw [← hlive.onDisk.pcm_eq] at hne
    exact hne (by simp [content, hnone])
  obtain ⟨pcmTime, hpcm⟩ := Opened.pcm_file ⟨hlive.onDisk, hthere⟩
  have hlength : ¬ pcm.length = 0 := fun hzero => hne (List.length_eq_zero_iff.mp hzero)
  have hfmt : node? s.disk (.incomplete key.index) (sourceFmtFileName source) =
      some (.file (json.toVec format) mtime) := hsidecar
  have hfind : findSource json s.disk (.incomplete key.index) source =
      findTimeline s.disk (.incomplete key.index) source pcm format := by
    simp [findSource, hpcm, hlength, findFormat, hfmt, hjson]
  rw [hfind]
  cases htimeline : node? s.disk (.incomplete key.index) (sourceTimelineFileName source) with
  | none =>
    have htext : text = [] := by
      rw [← hlive.onDisk.text_eq]
      simp [content, htimeline]
    subst htext
    exact ⟨none, by simp [findTimeline, htimeline], by simp [parseTimeline, fromUtf8]; rfl⟩
  | some node =>
    cases node with
    | folder id => exact absurd htimeline (hlive.onDisk.timeline_not_folder id)
    | file text' mtime =>
      refine ⟨some text', by simp [findTimeline, htimeline], ?_⟩
      rw [← hlive.onDisk.text_eq, content_of_file htimeline]
      rfl

/-- The seal finds the stream as it was recorded. -/
theorem Recorded.found (hvalid : validateFormat format = .ok ())
    (hjson : json.fromSlice (json.toVec format) = some format)
    (hrec : Recorded json dsp key source format h) :
    ∃ found, findSource json h.1.disk (.incomplete key.index) source = some found ∧
      Decodes dsp format h.2 found := by
  obtain ⟨hsidecar, pcm, text, valid, hlive, hsound, -⟩ := hrec
  by_cases hempty : pcm = []
  · subst hempty
    refine ⟨.absent, hlive.finds_absent, fun bytes hmem => ?_⟩
    exact List.flatMap_eq_nil_iff.mp hsound.pcm_eq.symm _ hmem
  -- There is PCM, so there is a sidecar, and it holds the format.
  obtain ⟨mtime, hwhole⟩ : ∃ mtime, sidecarOf key source h.1.disk =
      some (.file (json.toVec format) mtime) := by
    rcases hsidecar with hnone | hwhole
    · refine absurd hnone (hlive.onDisk.sidecar fun hgone => hempty ?_)
      rw [← hlive.onDisk.pcm_eq]
      simp [content, hgone]
    · exact hwhole
  obtain ⟨timeline, hfound, htext⟩ := hlive.finds_present hempty hwhole hjson
  refine ⟨_, hfound, rfl, ?_, decodeSourceTimed_eq dsp hvalid⟩
  refine placeTimed_spaced dsp (frameSize_pos hvalid) hsound.pcm_aligned (.inl rfl) ?_
  rw [htext]
  exact hsound.lays

/-- Nothing captured yet. -/
def idle : LocalSegmentFs := ⟨∅, ∅⟩

/-- A chunk of the microphone that was captured at this time. -/
def timedChunk (us : Nat) (data : List UInt8) : CaptureChunk := ⟨.mic, data, some mono16, some us⟩

/-- One chunk is stored. -/
def beforeFailure : LocalSegmentFs × List Part :=
  record (codecOf [mono16]) ⟨0, 7⟩ .mic (timedChunk 0 [1, 0]) [] (idle, [])

/-- The append of the next one fails when one of its two frames is written. -/
def afterFailure : LocalSegmentFs × List Part :=
  record (codecOf [mono16]) ⟨0, 7⟩ .mic (timedChunk 100 [2, 0, 3, 0])
    [default, ⟨.fail 2, false, 0⟩] beforeFailure

end History

/-! ## The format of each chunk -/

section Formats

variable (json : SegmentJson) (key : SegmentKey) (source : AudioSource)

/-- A call of a failure-free history: it returned. Its chunk carries a valid format of its
own. -/
def FormatStep (h h' : LocalSegmentFs × List CaptureChunk) : Prop :=
  ∃ chunk verdicts, (∀ v ∈ verdicts, Sighted v) ∧ AudioSource.ofKind chunk.source = some source ∧
    (∃ format, chunk.format = some format ∧ validateFormat format = .ok ()) ∧
    (writeChunk json key chunk verdicts h.1).1 = .ok () ∧
    h' = ((writeChunk json key chunk).final verdicts h.1, h.2 ++ [chunk])

/-- The seal takes the stream for the chunks' bytes in order, with the format that each of the
chunks carried. -/
def DecodedAsCarried (s : LocalSegmentFs) (chunks : List CaptureChunk) : Prop :=
  ∀ verdicts found, (∀ v ∈ verdicts, Sighted v) →
    (readSealAudioSource json (.incomplete key.index) source verdicts s.disk).1 = .ok found →
    ∀ chunk ∈ chunks, chunk.data ≠ [] → ∃ stream, found = .present stream ∧
      stream.bytes = chunks.flatMap CaptureChunk.data ∧ chunk.format = some stream.format

/-- What a failure-free history keeps: the PCM is the chunks' bytes, and the sidecar is the
first chunk's. -/
def Appended (h : LocalSegmentFs × List CaptureChunk) : Prop :=
  (∃ text valid, Live key source (h.2.flatMap CaptureChunk.data) text valid h.1) ∧ match h.2 with
    | [] => sidecarOf key source h.1.disk = none
    | first :: _ => ∃ format mtime, first.format = some format ∧
        validateFormat format = .ok () ∧
        sidecarOf key source h.1.disk = some (.file (json.toVec format) mtime)

variable {json key source} {h h' : LocalSegmentFs × List CaptureChunk}

/-- A call that returned adds its bytes, and a sidecar if it is the first. -/
theorem FormatStep.appended (hstep : FormatStep json key source h h')
    (happended : Appended json key source h) : Appended json key source h' := by
  obtain ⟨chunk, verdicts, hsighted, hsource, ⟨format, hformat, hvalid⟩, hreturned, rfl⟩ := hstep
  obtain ⟨⟨text, valid, hlive⟩, hsidecar⟩ := happended
  have hprog : writeChunk json key chunk = writeAudioChunk json key source chunk := by
    simp only [writeChunk, hsource]
  rw [hprog] at hreturned ⊢
  obtain ⟨pcm', text', valid', hwrote, hlive'⟩ :=
    (writeAudioChunk_wrote trivial hformat hlive).returns (D := fun _ => True)
      (fun _ _ => trivial) hreturned
  have hpcm : pcm' = h.2.flatMap CaptureChunk.data ++ chunk.data := by
    cases hwrote with
    | untimed _ _ | timed _ _ _ => rfl
  obtain ⟨hkept, hnew⟩ := (writeAudioChunk_sidecar hformat hlive).returns hsighted hreturned
  refine ⟨⟨text', valid', ?_⟩, ?_⟩
  · simpa [hpcm] using hlive'
  · cases hchunks : h.2 with
    | nil =>
      rw [hchunks] at hsidecar
      obtain ⟨mtime, hwritten⟩ := hnew hsidecar
      exact ⟨format, mtime, hformat, hvalid, hwritten⟩
    | cons first rest =>
      rw [hchunks] at hsidecar
      obtain ⟨format', mtime, hfirst, hvalid', hthere⟩ := hsidecar
      refine ⟨format', mtime, hfirst, hvalid', ?_⟩
      show sidecarOf key source
        ((writeAudioChunk json key source chunk).final verdicts h.1).disk = _
      rw [hkept (by simp [hthere]), hthere]

/-- In a failure-free history the seal decodes each chunk with the format the chunk carried
exactly if every chunk with a byte carries the first chunk's format. -/
theorem writeChunk_uses_format_iff (json : SegmentJson) (key : SegmentKey) (source : AudioSource)
    (s0 s : LocalSegmentFs) (first : CaptureChunk) (rest : List CaptureChunk)
    (hjson : ∀ format, first.format = some format →
      json.fromSlice (json.toVec format) = some format) (hfresh : Uncaptured key source s0)
    (hrun : Relation.ReflTransGen (FormatStep json key source) (s0, []) (s, first :: rest)) :
    DecodedAsCarried json key source s (first :: rest) ↔
      ∀ chunk ∈ rest, chunk.data ≠ [] → chunk.format = first.format := by
  obtain ⟨⟨text, valid, hlive⟩, format, mtime, hfirst, hvalid, hsidecar⟩ :
      Appended json key source (s, first :: rest) :=
    reflTransGen_invariant (fun _ _ happended hstep => hstep.appended happended)
      (by exact ⟨⟨[], false, live_fresh hfresh⟩, hfresh.fmt⟩) hrun
  -- Whenever some chunk has a byte, the seal finds the first chunk's format.
  have hfinds : ∀ chunk ∈ first :: rest, chunk.data ≠ [] → ∃ timeline,
      findSource json s.disk (.incomplete key.index) source = some (.present
        ⟨source, (first :: rest).flatMap CaptureChunk.data, timeline, format⟩) := by
    intro chunk hchunk hdata
    have hne : (first :: rest).flatMap CaptureChunk.data ≠ [] :=
      fun hnil => hdata (List.flatMap_eq_nil_iff.mp hnil chunk hchunk)
    obtain ⟨timeline, hfound, -⟩ := hlive.finds_present hne hsidecar (hjson format hfirst)
    exact ⟨timeline, hfound⟩
  constructor
  · intro hdecoded chunk hchunk hdata
    obtain ⟨timeline, hfound⟩ := hfinds chunk (List.mem_cons_of_mem _ hchunk) hdata
    obtain ⟨found, hread, rfl⟩ := (readSealAudioSource_clear hfound).exists_ok
      (show ∀ v ∈ ([] : List Verdict), Clear v by simp)
    obtain ⟨stream, hstream, -, hformat⟩ := hdecoded [] _ (by simp) hread chunk
      (List.mem_cons_of_mem _ hchunk) hdata
    cases hstream
    rw [hformat, hfirst]
  · intro hsame verdicts found hsighted hread chunk hchunk hdata
    obtain ⟨timeline, hfound⟩ := hfinds chunk hchunk hdata
    obtain rfl := Option.some.inj (hfound.symm.trans (findSource_of_read hsighted hread))
    refine ⟨_, rfl, rfl, ?_⟩
    rcases List.mem_cons.mp hchunk with rfl | hrest
    · exact hfirst
    · rw [hsame chunk hrest hdata, hfirst]

/-- Two chunks of one format: the seal decodes both with it. -/
theorem writeChunk_uses_format_two_chunks :
    let first : CaptureChunk := ⟨.mic, [1, 0], some mono16, none⟩
    let second : CaptureChunk := ⟨.mic, [2, 0], some mono16, none⟩
    let codec := codecOf [mono16]
    let s := (writeChunk codec ⟨0, 7⟩ first).final [] idle
    DecodedAsCarried codec ⟨0, 7⟩ .mic ((writeChunk codec ⟨0, 7⟩ second).final [] s)
      [first, second] :=
  (writeChunk_uses_format_iff (codecOf [mono16]) ⟨0, 7⟩ .mic idle _ _ _
    (fun format hformat => by cases hformat; decide)
    ⟨by decide, by decide, by decide, by decide⟩
    (.tail (.single ⟨⟨.mic, [1, 0], some mono16, none⟩, [], by decide, by decide,
        ⟨mono16, rfl, by decide⟩, by decide, rfl⟩)
      ⟨⟨.mic, [2, 0], some mono16, none⟩, [], by decide, by decide, ⟨mono16, rfl, by decide⟩,
        by decide, rfl⟩)).mpr (by decide)

/-- Float samples in stereo, as a device with another mix format delivers them. -/
def stereo32 : AudioFormat := ⟨48000, 2, 32, true⟩

/-- The device changes within a segment, and with it the format. The seal decodes the second
device's bytes as the first one's. -/
theorem writeChunk_keeps_first_format :
    let first : CaptureChunk := ⟨.mic, [1, 0], some mono16, none⟩
    let second : CaptureChunk := ⟨.mic, [0, 0, 128, 63, 0, 0, 128, 63], some stereo32, none⟩
    let codec := codecOf [mono16, stereo32]
    let s := (writeChunk codec ⟨0, 7⟩ first).final [] idle
    (writeChunk codec ⟨0, 7⟩ first [] idle).1 = .ok () ∧
      (writeChunk codec ⟨0, 7⟩ second [] s).1 = .ok () ∧
      (readSealAudioSource codec (.incomplete 7) .mic []
        ((writeChunk codec ⟨0, 7⟩ second).final [] s).disk).1 =
          .ok (.present ⟨.mic, [1, 0, 0, 0, 128, 63, 0, 0, 128, 63], none, mono16⟩) ∧
      ¬ DecodedAsCarried codec ⟨0, 7⟩ .mic ((writeChunk codec ⟨0, 7⟩ second).final [] s)
        [first, second] := by
  refine ⟨by decide, by decide, by decide, fun hdecoded => ?_⟩
  obtain ⟨stream, hfound, -, hformat⟩ := hdecoded []
    (.present ⟨.mic, [1, 0, 0, 0, 128, 63, 0, 0, 128, 63], none, mono16⟩) (by simp) (by decide)
    ⟨.mic, [0, 0, 128, 63, 0, 0, 128, 63], some stereo32, none⟩ (by simp) (by simp)
  cases hfound
  exact absurd hformat (by decide)

end Formats

end SolstoneWindows.Proofs.PlatformWin
