import SolstoneWindows.Proofs.PlatformWin.Merge

/-!
# Retries of a seal keep the audio

A seal encodes the PCM streams of a directory into `audio.flac` and then removes them one at a
time. A failure or a stop sends the directory through the seal again. `findSource` is what the
seal finds of a stream, as a function of the disk.

Between attempts a disk is in one of two phases. `Intact`: the streams are as the first attempt
found them. `Encoded`: the streams are gone and `audio.flac` holds their combination, in the
incoming directory or where the merge has moved it. An attempt that ends between the removal of
the microphone's PCM and the removal of the system's leaves a third kind of disk
(`Halfway`), from which the next attempt encodes the system's stream alone over the file
that held both (`finalizeLive_drops_mic`). `finalize_keeps_audio` says that in every other run
the sealed `audio.flac` is the combination of what the first attempt found.
-/

set_option autoImplicit false

namespace SolstoneWindows.Proofs.PlatformWin

open Lib.Effect Lib.Fs
open ObserverModel (AudioFormat)
open ObserverAudio (Dsp combineTimedToFlac)
open SolstoneWindows.PlatformWin

/-! ## What a seal finds -/

variable {k : Place} {found : PresentSealAudioSource} {name : String}

section Find

variable (json : SegmentJson)

/-- What the seal finds of a stream whose format sidecar reads as `format`. A folder in the
place of the timeline cannot be read. -/
def findTimeline (d : Disk Place) (k : Place) (source : AudioSource) (bytes : List UInt8)
    (format : AudioFormat) : Option SealAudioSource :=
  match node? d k (sourceTimelineFileName source) with
  | none => some (.present ⟨source, bytes, none, format⟩)
  | some (.folder _) => none
  | some (.file timeline _) => some (.present ⟨source, bytes, some timeline, format⟩)

/-- What the seal finds of a stream with PCM bytes. -/
def findFormat (d : Disk Place) (k : Place) (source : AudioSource) (bytes : List UInt8) :
    Option SealAudioSource :=
  match node? d k (sourceFmtFileName source) with
  | none => some .orphan
  | some (.folder _) => none
  | some (.file fmtBytes _) =>
    match json.fromSlice fmtBytes with
    | none => some .orphan
    | some format => findTimeline d k source bytes format

/-- What the seal finds of a stream, or nothing when some read of it cannot succeed. -/
def findSource (d : Disk Place) (k : Place) (source : AudioSource) : Option SealAudioSource :=
  match node? d k (sourceFileName source) with
  | none => some .absent
  | some (.folder _) => some .absent
  | some (.file bytes _) =>
    if bytes.length = 0 then some .absent else findFormat json d k source bytes

/-- The three files of a stream. -/
def streamNames (source : AudioSource) : List String :=
  [sourceFileName source, sourceFmtFileName source, sourceTimelineFileName source]

variable {json}

variable {d : Disk Place} {source : AudioSource}

/-- What is found of a stream depends on its three files only. -/
theorem findSource_congr {d' : Disk Place}
    (h : ∀ name ∈ streamNames source, node? d' k name = node? d k name) :
    findSource json d' k source = findSource json d k source := by
  have hpcm := h (sourceFileName source) (by simp [streamNames])
  have hfmt := h (sourceFmtFileName source) (by simp [streamNames])
  have htime := h (sourceTimelineFileName source) (by simp [streamNames])
  simp only [findSource, findFormat, findTimeline, hpcm, hfmt, htime]

/-- A stream whose PCM is gone is absent. -/
theorem findSource_of_none
    (h : node? d k (sourceFileName source) = none) :
    findSource json d k source = some .absent := by
  simp [findSource, h]

section

variable {d : Disk Place} {source : AudioSource}
    (h : findSource json d k source = some (.present found))

include h

/-- A present stream carries its own name. -/
theorem source_of_present : found.source = source := by
  simp only [findSource, findFormat, findTimeline] at h
  repeat' split at h
  all_goals first
    | cases h; rfl
    | simp at h

/-- A present stream has a format sidecar that reads. -/
theorem format_of_present :
    ∃ fmtBytes mtime, node? d k (sourceFmtFileName source) = some (.file fmtBytes mtime) ∧
      json.fromSlice fmtBytes ≠ none := by
  simp only [findSource, findFormat] at h
  repeat' split at h
  all_goals first
    | exact ⟨_, _, by assumption, by simp_all⟩
    | simp at h

end

/-- A stream without a readable format has no sidecar, or one that does not read. -/
theorem format_of_orphan
    (h : findSource json d k source = some .orphan) (fmtBytes : List UInt8) (mtime : Nat)
    (hfmt : node? d k (sourceFmtFileName source) = some (.file fmtBytes mtime)) :
    json.fromSlice fmtBytes = none := by
  simp only [findSource, findFormat, hfmt] at h
  cases hjson : json.fromSlice fmtBytes with
  | none => rfl
  | some format =>
    simp only [hjson, findTimeline] at h
    repeat' split at h
    all_goals cases h

/-- A read result that agrees with the disk. -/
def Reads (d : Disk Place) (k : Place) (name : String) : Option (List UInt8) → Prop
  | none => node? d k name = none
  | some bytes => ∃ mtime, node? d k name = some (.file bytes mtime)

variable {D : Verdict → Prop}

/-- The disk is as it was, and some call is not let through or a folder has the name. -/
def Unreadable (D : Verdict → Prop) (d : Disk Place) (k : Place) (name : String)
    (d' : Disk Place) : Prop :=
  d = d' ∧ (Faulty D ∨ ∃ id, node? d k name = some (.folder id))

/-- Reading a file gives its content, or says that it is not there. -/
theorem readIfExists_spec (hD : D default) :
    Runs D d (readIfExists k name) (fun r d' => d = d' ∧ Reads d k name r)
      (fun _ => Unreadable D d k name) (Unreadable D d k name) := by
  have hfaulty : Faulty D → Unreadable D d k name d := fun h => ⟨rfl, .inl h⟩
  refine Runs.attempt_bind (Q := fun bytes d' => d = d' ∧ Reads d k name (some bytes))
    (E := fun e d' => (e = .notFound → d = d' ∧ Reads d k name none) ∧
      (e ≠ .notFound → Unreadable D d k name d'))
    (Runs.atomic_lands hD (fun _ => ?_) (fun h => ⟨by simp, fun _ => hfaulty h⟩) hfaulty)
    (fun _ _ h => Runs.pure h) (fun e _ h => ?_) fun _ h => h
  · cases hnode : node? d k name with
    | none => exact ⟨fun _ => ⟨rfl, hnode⟩, fun h => absurd rfl h⟩
    | some node =>
      cases node with
      | file bytes mtime => exact ⟨rfl, mtime, hnode⟩
      | folder id => exact ⟨by simp, fun _ => ⟨rfl, .inr ⟨id, hnode⟩⟩⟩
  · cases e with
    | notFound => exact Runs.pure (h.1 rfl)
    | failed | invalid _ => exact Runs.fail (h.2 (by simp))

/-- The disk is as it was, and some call is not let through or a file of the stream cannot be
read. -/
def Unfound (D : Verdict → Prop) (json : SegmentJson) (d : Disk Place) (k : Place)
    (source : AudioSource) (d' : Disk Place) : Prop :=
  d = d' ∧ (Faulty D ∨ findSource json d k source = none)

/-- Reading a stream changes nothing and gives what `findSource` says. -/
theorem readSealAudioSource_exact (hD : D default) (hsighted : ∀ v, D v → v.blind = false)
    (source : AudioSource) :
    Runs D d (readSealAudioSource json k source)
      (fun r d' => d = d' ∧ findSource json d k source = some r)
      (fun _ => Unfound D json d k source) (Unfound D json d k source) := by
  have hfaulty : Faulty D → Unfound D json d k source d := fun h => ⟨rfl, .inl h⟩
  refine Runs.bind (R := fun there d' => d = d' ∧
    there = (node? d k (sourceFileName source)).any Node.isFile)
    (Runs.probe_lands hD hsighted ⟨rfl, rfl⟩ hfaulty) ?_
  rintro there _ ⟨rfl, rfl⟩
  cases hpcm : node? d k (sourceFileName source) with
  | none => exact Runs.pure ⟨rfl, findSource_of_none hpcm⟩
  | some pcm =>
    cases pcm with
    | folder id => exact Runs.pure ⟨rfl, by simp [findSource, hpcm]⟩
    | file bytes mtime =>
      refine Runs.bind (R := fun node d' => d = d' ∧ node = .file bytes mtime)
        (Runs.atomic_lands hD (fun _ => ?_) hfaulty hfaulty) ?_
      · simp only [hpcm]
        exact ⟨rfl, rfl⟩
      rintro node _ ⟨rfl, rfl⟩
      by_cases hlen : bytes.length = 0
      · rw [show (Node.file bytes mtime).len = 0 from hlen, if_pos rfl]
        exact Runs.pure ⟨rfl, by simp [findSource, hpcm, hlen]⟩
      rw [if_neg (show ¬ (Node.file bytes mtime).len = 0 from hlen)]
      have hsource : findSource json d k source = findFormat json d k source bytes := by
        simp [findSource, hpcm, hlen]
      -- a folder in the place of the sidecar or of the timeline
      have hfolder : findFormat json d k source bytes = none → Unfound D json d k source d :=
        fun hnone => ⟨rfl, .inr (hsource.trans hnone)⟩
      rw [hsource]
      refine Runs.bind ((readIfExists_spec hD).loosen ?_) ?_
      · rintro _ ⟨rfl, h | ⟨id, hfmt⟩⟩
        · exact hfaulty h
        · exact hfolder (by simp [findFormat, hfmt])
      rintro fmt _ ⟨rfl, hfmt⟩
      cases fmt with
      | none => exact Runs.pure ⟨rfl, by simp [findFormat, show node? d k _ = none from hfmt]⟩
      | some fmtBytes =>
        obtain ⟨fmtTime, hfmt⟩ := hfmt
        cases hjson : json.fromSlice fmtBytes with
        | none =>
          simp only [hjson]
          exact Runs.pure ⟨rfl, by simp [findFormat, hfmt, hjson]⟩
        | some format =>
          simp only [hjson]
          have hformat : findFormat json d k source bytes =
              findTimeline d k source bytes format := by
            simp [findFormat, hfmt, hjson]
          rw [hformat] at hfolder ⊢
          refine Runs.bind ((readIfExists_spec hD).loosen ?_) ?_
          · rintro _ ⟨rfl, h | ⟨id, htimeline⟩⟩
            · exact hfaulty h
            · exact hfolder (by simp [findTimeline, htimeline])
          rintro timeline _ ⟨rfl, htimeline⟩
          refine Runs.bind (R := fun pcm d' => d = d' ∧ pcm = bytes)
            (Runs.atomic_lands hD (fun _ => ?_) hfaulty hfaulty) ?_
          · simp only [hpcm]
            exact ⟨rfl, rfl⟩
          rintro pcm _ ⟨rfl, rfl⟩
          cases timeline with
          | none =>
            exact Runs.pure ⟨rfl, by simp [findTimeline, show node? d k _ = none from htimeline]⟩
          | some timeline =>
            obtain ⟨_, htimeline⟩ := htimeline
            exact Runs.pure ⟨rfl, by simp [findTimeline, htimeline]⟩

theorem readSealAudioSource_spec (source : AudioSource) :
    Runs Sighted d (readSealAudioSource json k source)
      (fun r d' => d = d' ∧ findSource json d k source = some r)
      (fun _ d' => d = d') (d = ·) :=
  (readSealAudioSource_exact sighted_default (fun _ hv => hv) source).loosen fun _ h => h.1

/-- What the seal reads, whenever it reads a stream, is what `findSource` says. -/
theorem findSource_of_read
    {verdicts : List Verdict} {found : SealAudioSource} (hsighted : ∀ v ∈ verdicts, Sighted v)
    (hread : (readSealAudioSource json k source verdicts d).1 = .ok found) :
    findSource json d k source = some found :=
  ((readSealAudioSource_spec source).returns hsighted hread).2

/-- When no read fails, the seal reads the stream. -/
theorem readSealAudioSource_clear {found : SealAudioSource}
    (hfound : findSource json d k source = some found) :
    Runs Clear d (readSealAudioSource json k source) (fun r _ => r = found) (fun _ _ => False)
      fun _ => False := by
  have hread : ∀ d', ¬ Unfound Clear json d k source d' := by
    rintro d' ⟨-, hfaulty | hnone⟩
    · exact not_faulty_clear hfaulty
    · rw [hfound] at hnone
      cases hnone
  refine (readSealAudioSource_exact clear_default (fun _ hv => hv.2) source).mono ?_
    (fun _ d' h => hread d' h) hread
  rintro r d' ⟨-, hr⟩
  rw [hfound] at hr
  exact (Option.some.inj hr).symm

end Find

/-! ## The phases of a directory -/

/-- The names whose custody matters here: the FLAC and the two PCM files. -/
def AudioName (m : String) : Prop := m = AUDIO_FILE_NAME ∨ ∃ source, m = sourceFileName source

theorem payload_of_audioName (m : String) (h : AudioName m) : Payload m := by
  rcases h with rfl | ⟨source, rfl⟩
  · exact ⟨by decide, by decide⟩
  · cases source <;> exact ⟨by decide, by decide⟩

/-- The FLAC is not one of a stream's files. -/
theorem audioFileName_not_stream (source : AudioSource) : AUDIO_FILE_NAME ∉ streamNames source := by
  cases source <;> decide

/-- The two streams share no file. -/
theorem streamNames_disjoint {source source' : AudioSource} :
    ∀ m ∈ streamNames source, m ∈ streamNames source' → source = source' := by
  cases source <;> cases source' <;> decide

theorem sourceFileName_mem (source : AudioSource) :
    sourceFileName source ∈ streamNames source := List.mem_cons_self

section Phases

variable {json : SegmentJson} {n : Nat} {d0 d : Disk Place} {flac : List UInt8}

/-- The streams of `gone` are found no more, and those that the first attempt found have lost their
PCM. The others are as it found them, and nothing but the incoming directory has changed. -/
structure Streams (json : SegmentJson) (n : Nat) (d0 : Disk Place) (gone : AudioSource → Bool)
    (d : Disk Place) : Prop where
  cleared : ∀ source, gone source = true → findSource json d (.incomplete n) source = some .absent ∧
      (findSource json d0 (.incomplete n) source ≠ some .absent →
        node? d (.incomplete n) (sourceFileName source) = none)
  kept : ∀ source, gone source = false →
    findSource json d (.incomplete n) source = findSource json d0 (.incomplete n) source
  others : ∀ k, k ≠ .incomplete n → d.lookup k = d0.lookup k

/-- All streams are as the first attempt found them. -/
abbrev Intact (json : SegmentJson) (n : Nat) (d0 d : Disk Place) : Prop :=
  Streams json n d0 (fun _ => false) d

/-- The FLAC is written, and the streams of `gone` are cleared. -/
structure Clearing (json : SegmentJson) (n : Nat) (d0 : Disk Place) (flac : List UInt8)
    (gone : AudioSource → Bool) (d : Disk Place) : Prop extends Streams json n d0 gone d where
  written : ∃ mtime, node? d (.incomplete n) AUDIO_FILE_NAME = some (.file flac mtime)

/-- The streams are gone, and the FLAC is in custody since the disk `d1` on which it had taken
their place. -/
def Encoded (json : SegmentJson) (n : Nat) (d0 : Disk Place) (flac : List UInt8)
    (d : Disk Place) : Prop :=
  ∃ d1, (∀ k, k ≠ .incomplete n → d1.lookup k = d0.lookup k) ∧
    (∃ mtime, node? d1 (.incomplete n) AUDIO_FILE_NAME = some (.file flac mtime)) ∧
    (∀ source, findSource json d1 (.incomplete n) source = some .absent) ∧
    Safe AudioName n d1 d

variable {gone : AudioSource → Bool}

/-- A change under a name that is no stream's keeps the streams. -/
theorem Streams.of_same {d' : Disk Place} (h : Streams json n d0 gone d)
    (hname : ∀ source, name ∉ streamNames source)
    (hsame : ∀ m, m ≠ name → node? d' (.incomplete n) m = node? d (.incomplete n) m)
    (hothers : ∀ k, k ≠ .incomplete n → d'.lookup k = d.lookup k) : Streams json n d0 gone d' := by
  have hstream : ∀ source m, m ∈ streamNames source →
      node? d' (.incomplete n) m = node? d (.incomplete n) m :=
    fun source m hm => hsame m fun heq => hname source (heq ▸ hm)
  have hfind : ∀ source, findSource json d' (.incomplete n) source =
      findSource json d (.incomplete n) source := fun source => findSource_congr (hstream source)
  refine ⟨fun source hgone => ?_, fun source hkept => (hfind source).trans (h.kept source hkept),
    fun k hk => (hothers k hk).trans (h.others k hk)⟩
  rw [hfind, hstream source _ (sourceFileName_mem source)]
  exact h.cleared source hgone

variable {node : Node}

/-- Setting a name that is no stream's keeps the streams. -/
theorem Streams.put (hname : ∀ source, name ∉ streamNames source)
    (h : Streams json n d0 gone d) (hdir : (d.lookup (.incomplete n)).isSome) :
    Streams json n d0 gone (Lib.Fs.put d (.incomplete n) name node) :=
  h.of_same hname (fun m hne => by simp [hdir, hne]) fun k hk => by simp [hk]

/-- Taking out a name that is no stream's keeps the streams. -/
theorem Streams.del (hname : ∀ source, name ∉ streamNames source) (h : Streams json n d0 gone d) :
    Streams json n d0 gone (Lib.Fs.del d (.incomplete n) name) :=
  h.of_same hname (fun m hne => by simp [hne]) fun k hk => by simp [hk]

/-- Removing a stream's PCM clears the stream, and then its other files can go. -/
theorem Clearing.clear {source : AudioSource} (hname : name ∈ streamNames source)
    (h : Clearing json n d0 flac gone d)
    (hpcm : node? (Lib.Fs.del d (.incomplete n) name) (.incomplete n) (sourceFileName source)
      = none) :
    Clearing json n d0 flac (Function.update gone source true)
      (Lib.Fs.del d (.incomplete n) name) := by
  -- The files of the other stream stay as they are.
  have hsame : ∀ other, other ≠ source → ∀ m ∈ streamNames other,
      node? (Lib.Fs.del d (.incomplete n) name) (.incomplete n) m = node? d (.incomplete n) m := by
    intro other hother m hm
    have hne : m ≠ name := by
      rintro rfl
      exact hother (streamNames_disjoint _ hm hname)
    simp [hne]
  refine ⟨⟨fun other hgone => ?_, fun other hkept => ?_, fun k hk => ?_⟩, ?_⟩
  · by_cases heq : other = source
    · subst heq
      exact ⟨findSource_of_none hpcm, fun _ => hpcm⟩
    · rw [Function.update_of_ne heq] at hgone
      rw [findSource_congr (hsame other heq), hsame other heq _ (sourceFileName_mem other)]
      exact h.cleared other hgone
  · have heq : other ≠ source := by
      rintro rfl
      simp at hkept
    rw [Function.update_of_ne heq] at hkept
    exact (findSource_congr (hsame other heq)).trans (h.kept other hkept)
  · simpa [hk] using h.others k hk
  · have hne : AUDIO_FILE_NAME ≠ name := by
      rintro rfl
      exact audioFileName_not_stream source hname
    simpa [hne] using h.written

/-- When every stream that was there is cleared, the FLAC has taken their place. -/
theorem Clearing.encoded (h : Clearing json n d0 flac gone d)
    (hall : ∀ source, gone source = false →
      findSource json d0 (.incomplete n) source = some .absent) :
    Encoded json n d0 flac d := by
  refine ⟨d, h.others, h.written, fun source => ?_, (held_refl AudioName n d).safe⟩
  cases hgone : gone source with
  | true => exact (h.cleared source hgone).1
  | false => rw [h.kept source hgone, hall source hgone]

/-- Once encoded, no stream is found any more. -/
theorem Encoded.absent (h : Encoded json n d0 flac d) (source : AudioSource) :
    findSource json d (.incomplete n) source = some .absent := by
  obtain ⟨d1, -, -, habsent, rest, hcust⟩ := h
  have hsource := habsent source
  rcases hcust.place with rfl | ⟨hgone, -⟩
  · have hsplit := hcust.split (sourceFileName source) (.inr ⟨source, rfl⟩)
    rw [Option.bind_some] at hsplit
    rcases hsplit with ⟨hsame, -⟩ | ⟨-, -, hnone, -⟩
    · -- The PCM name is as it was on `d1`: missing, a folder, or empty.
      cases hpcm : node? d1 (.incomplete n) (sourceFileName source) with
      | none => exact findSource_of_none (hsame.trans hpcm)
      | some pcm =>
        cases pcm with
        | folder id => simp [findSource, hsame, hpcm]
        | file bytes mtime =>
          have hempty : bytes.length = 0 := by
            by_contra hlen
            simp only [findSource, hpcm, hlen, if_false, findFormat, findTimeline] at hsource
            repeat' split at hsource
            all_goals cases hsource
          simp [findSource, hsame, hpcm, hempty]
    · exact findSource_of_none hnone
  · exact findSource_of_none (by simp [node?, hgone])

/-- A name that is not tracked can be set in the incoming directory. -/
theorem Encoded.put (hname : ¬ AudioName name) (h : Encoded json n d0 flac d) :
    Encoded json n d0 flac (Lib.Fs.put d (.incomplete n) name node) := by
  obtain ⟨d1, hothers, hflac, habsent, hsafe⟩ := h
  exact ⟨d1, hothers, hflac, habsent, hsafe.put_incomplete hname⟩

/-- A name that is not tracked can be taken out of the incoming directory. -/
theorem Encoded.del (hname : ¬ AudioName name) (h : Encoded json n d0 flac d) :
    Encoded json n d0 flac (Lib.Fs.del d (.incomplete n) name) := by
  obtain ⟨d1, hothers, hflac, habsent, hsafe⟩ := h
  exact ⟨d1, hothers, hflac, habsent, hsafe.del_incomplete hname⟩

end Phases

/-! ## One attempt -/

variable {mic sys : SealAudioSource} {I : Disk Place → Prop}

section Attempt

variable {S : Type} {json : SegmentJson} {dsp : Dsp S} {n : Nat} {d0 d : Disk Place}
  {flac : List UInt8}

/-- Removing a stream's files: the stream is as it was, or cleared. A stream that was not there
counts as cleared. -/
theorem removeSource_spec {gone : AudioSource → Bool} {source : AudioSource}
    {found : SealAudioSource}
    (hfound : findSource json d0 (.incomplete n) source = some found) (hreads : found ≠ .orphan)
    (hkept : gone source = false) (h : Clearing json n d0 flac gone d) :
    let Cleared := Clearing json n d0 flac (Function.update gone source true)
    Runs Sighted d (removeSource (.incomplete n) found) (fun _ => Cleared)
      (fun _ d' => Clearing json n d0 flac gone d' ∨ Cleared d')
      (fun d' => Clearing json n d0 flac gone d' ∨ Cleared d') := by
  intro Cleared
  match found with
  | .orphan => exact absurd rfl hreads
  | .absent =>
    refine Runs.pure ⟨⟨fun other hgone => ?_, fun other hother => ?_, h.others⟩, h.written⟩
    · by_cases heq : other = source
      · subst heq
        exact ⟨(h.kept other hkept).trans hfound, fun hne => absurd hfound hne⟩
      · rw [Function.update_of_ne heq] at hgone
        exact h.cleared other hgone
    · refine h.kept other ?_
      by_cases heq : other = source
      · exact heq ▸ hkept
      · rwa [Function.update_of_ne heq] at hother
  | .present present =>
    obtain rfl := source_of_present hfound
    have hgone : ∀ {d}, Cleared d → node? d (.incomplete n)
        (sourceFileName present.source) = none :=
      fun h => (h.cleared _ (Function.update_self ..)).2 (by simp [hfound])
    have hdel : ∀ {d name}, name ∈ streamNames present.source → Cleared d →
        Cleared (del d (.incomplete n) name) := by
      intro d name hname h
      have h' := h.clear hname (by simp [hgone h])
      rwa [Function.update_idem] at h'
    refine Runs.bind (R := fun _ => Cleared) (Runs.removeFile sighted_default
      (fun _ _ _ => h.clear (sourceFileName_mem _) (by simp)) (.inl h)) fun _ d h => ?_
    refine Runs.bind ((removeIfExists_keeps sighted_default
      (fun _ h => hdel (by simp [streamNames]) h) h).loosen fun _ h => .inr h) fun _ d h => ?_
    exact (removeIfExists_keeps sighted_default
      (fun _ h => hdel (by simp [streamNames]) h) h).loosen fun _ h => .inr h

/-- A disk with the microphone's PCM removed and the system's still there, when on `d0` both were
found. -/
def Halfway (json : SegmentJson) (n : Nat) (d0 d : Disk Place) : Prop :=
  (∃ found, findSource json d0 (.incomplete n) .mic = some (.present found)) ∧
    (∃ found, findSource json d0 (.incomplete n) .systemAudio = some (.present found)) ∧
    node? d (.incomplete n) (sourceFileName .mic) = none ∧
    node? d (.incomplete n) (sourceFileName .systemAudio) ≠ none

/-- Where an attempt can leave a directory that has something to encode. -/
def Settled (json : SegmentJson) (n : Nat) (d0 : Disk Place) (flac : List UInt8)
    (d : Disk Place) : Prop :=
  Intact json n d0 d ∨ Encoded json n d0 flac d

/-- Where an attempt can stop. -/
def Left (json : SegmentJson) (n : Nat) (d0 : Disk Place) (flac : List UInt8)
    (d : Disk Place) : Prop :=
  Settled json n d0 flac d ∨ Halfway json n d0 d

/-- The first attempt finds streams that it can encode. -/
structure Encodes (json : SegmentJson) (dsp : Dsp S) (n : Nat) (d0 : Disk Place)
    (mic sys : SealAudioSource) (flac : List UInt8) : Prop where
  micFound : findSource json d0 (.incomplete n) .mic = some mic
  sysFound : findSource json d0 (.incomplete n) .systemAudio = some sys
  micReads : mic ≠ .orphan
  sysReads : sys ≠ .orphan
  combined : combineTimedToFlac dsp mic.combineInput sys.combineInput = .ok (some flac)

/-- With the microphone's stream cleared and the system's not, the directory is halfway if both were
there. -/
theorem Clearing.left_of_mic (he : Encodes json dsp n d0 mic sys flac)
    (h : Clearing json n d0 flac (Function.update (fun _ => false) .mic true) d) :
    Left json n d0 flac d := by
  have hmic := h.cleared .mic (Function.update_self ..)
  have hsys := (h.kept .systemAudio rfl).trans he.sysFound
  match mic, sys with
  | .orphan, _ => exact absurd rfl he.micReads
  | _, .orphan => exact absurd rfl he.sysReads
  | .absent, _ =>
    refine .inl (.inl ⟨by simp, fun source _ => ?_, h.others⟩)
    cases source with
    | mic => exact hmic.1.trans he.micFound.symm
    | systemAudio => exact h.kept _ rfl
  | .present _, .absent =>
    refine .inl (.inr (h.encoded fun source hsource => ?_))
    cases source with
    | mic => cases hsource
    | systemAudio => exact he.sysFound
  | .present _, .present _ =>
    refine .inr ⟨⟨_, he.micFound⟩, ⟨_, he.sysFound⟩, hmic.2 (by simp [he.micFound]),
      fun hnone => ?_⟩
    rw [findSource_of_none hnone] at hsys
    cases hsys

/-- The removal of the streams, once the FLAC is written. The system's stream is the second to
go. -/
theorem removeSources_spec (he : Encodes json dsp n d0 mic sys flac)
    (h : Clearing json n d0 flac (fun _ => false) d) :
    Runs Sighted d (do removeSource (.incomplete n) mic; removeSource (.incomplete n) sys)
      (fun _ => Encoded json n d0 flac) (fun _ => Left json n d0 flac) (Left json n d0 flac) := by
  have hdone : ∀ {d}, Clearing json n d0 flac
      (Function.update (Function.update (fun _ => false) .mic true) .systemAudio true) d →
      Encoded json n d0 flac d :=
    fun h => h.encoded fun source hsource => by cases source <;> cases hsource
  refine Runs.bind ((removeSource_spec he.micFound he.micReads rfl h).loosen fun _ h =>
    h.elim (fun h => .inl (.inl h.toStreams)) fun h => h.left_of_mic he) fun _ d h => ?_
  exact ((removeSource_spec he.sysFound he.sysReads rfl h).loosen fun _ h =>
    h.elim (fun h => h.left_of_mic he) fun h => .inl (.inr (hdone h))).weaken fun _ _ h => hdone h

/-- The audio seal of a directory with its streams intact encodes them, or fails before the
first removal, or halfway. -/
theorem sealAudioFlac_intact (he : Encodes json dsp n d0 mic sys flac) (h : Intact json n d0 d) :
    Runs Sighted d (sealAudioFlac json dsp (.incomplete n)) (fun _ => Encoded json n d0 flac)
      (fun _ => Left json n d0 flac) (Left json n d0 flac) := by
  have hleft : ∀ {d}, Intact json n d0 d → Left json n d0 flac d := fun h => .inl (.inl h)
  refine Runs.bind ((readSealAudioSource_spec .mic).loosen fun _ heq => heq ▸ hleft h) ?_
  rintro mic' _ ⟨rfl, hfound⟩
  rw [h.kept _ rfl, he.micFound] at hfound
  cases hfound
  refine Runs.bind ((readSealAudioSource_spec .systemAudio).loosen fun _ heq => heq ▸ hleft h) ?_
  rintro sys' _ ⟨rfl, hfound⟩
  rw [h.kept _ rfl, he.sysFound] at hfound
  cases hfound
  rw [if_neg (by simp [he.micReads, he.sysReads])]
  simp only [he.combined]
  refine Runs.bind ((writeSynced_spec sighted_default
    (fun _ _ h hdir => h.put audioFileName_not_stream hdir) flac h).loosen fun _ h => hleft h) ?_
  rintro _ d ⟨h, hwritten⟩
  have hput : ∀ (d : Disk Place) (node : Node), Clearing json n d0 flac (fun _ => false) d →
      (d.lookup (.incomplete n)).isSome →
      Clearing json n d0 flac (fun _ => false)
        (put d (.incomplete n) AUDIO_SOURCES_FILE_NAME node) :=
    fun _ _ h hdir => ⟨h.put (fun source => by cases source <;> decide) hdir, by
      simpa [hdir, show AUDIO_FILE_NAME ≠ AUDIO_SOURCES_FILE_NAME by decide] using h.written⟩
  refine Runs.bind ((writeSynced_keeps sighted_default hput _ ⟨h, hwritten⟩).loosen
    fun _ h => hleft h.toStreams) fun _ d h => ?_
  exact removeSources_spec he h

/-- The audio seal of an encoded directory finds nothing to do. -/
theorem sealAudioFlac_encoded (h : Encoded json n d0 flac d) :
    Ends Sighted d (sealAudioFlac json dsp (.incomplete n)) (Encoded json n d0 flac) := by
  refine Runs.bind ((readSealAudioSource_spec .mic).loosen fun _ heq => heq ▸ h) ?_
  rintro mic _ ⟨rfl, hfound⟩
  rw [h.absent] at hfound
  cases hfound
  refine Runs.bind ((readSealAudioSource_spec .systemAudio).loosen fun _ heq => heq ▸ h) ?_
  rintro sys _ ⟨rfl, hfound⟩
  rw [h.absent] at hfound
  cases hfound
  exact Runs.pure h

/-- Looking for retained activity changes nothing. -/
theorem hasRetainedActivity_keeps (hI : I d) : Ends Sighted d (hasRetainedActivity k) I := by
  have hentries : ∀ (entries : List (String × Node)) {d}, I d →
      Ends Sighted d (anyRetained k entries) I := by
    intro entries
    induction entries with
    | nil => exact fun hI => Runs.pure hI
    | cons e entries ih =>
      intro d hI
      rw [anyRetained]
      split
      · refine Runs.bind (R := fun _ => I) (Runs.metadata sighted_default (fun _ _ => hI)
          hI) fun node d hI => ?_
        split
        · exact Runs.pure hI
        · exact ih hI
      · exact ih hI
  refine Runs.bind (R := fun _ => I) (Runs.probe sighted_default hI (fun _ => hI) hI)
    fun there d hI => ?_
  cases there with
  | false => exact Runs.pure hI
  | true =>
    exact Runs.bind (R := fun _ => I) (Runs.readDir sighted_default (fun _ _ => hI) hI)
      fun entries d hI => hentries entries hI

/-- Writing the length sidecar keeps what every node under its name keeps. -/
theorem persistSealLen_keeps (lenSecs : Option (List UInt8) → Bool → Nat)
    (hput : ∀ d node, I d → (d.lookup k).isSome → I (put d k LEN_FILE_NAME node)) (hI : I d) :
    Ends Sighted d (persistSealLen lenSecs k) I := by
  refine Runs.bind (readIfExists_keeps sighted_default hI) fun audio d hI => ?_
  refine Runs.bind (hasRetainedActivity_keeps hI) fun retained d hI => ?_
  exact writeSynced_keeps sighted_default hput _ hI

/-- Dropping screen partials keeps what taking out such a name keeps. -/
theorem removePartialMedia_keeps
    (hdel : ∀ d name, ".partial".toList.isSuffixOf name.toList = true → I d → I (del d k name))
    (hI : I d) : Ends Sighted d (removePartialMedia k) I := by
  have hentries : ∀ (entries : List (String × Node)) {d}, I d →
      Ends Sighted d (removePartialEntries k entries) I := by
    intro entries
    induction entries with
    | nil => exact fun hI => Runs.pure hI
    | cons e entries ih =>
      intro d hI
      refine Runs.bind (R := fun _ => I) (Runs.onlyIf (fun hdead => ?_) fun _ => hI)
        fun _ d hI => ih hI
      have hname := (Bool.and_eq_true_iff.mp hdead).2
      exact Runs.removeFile sighted_default (fun _ _ _ => hdel d _ hname hI) hI
  exact Runs.bind (R := fun _ => I) (Runs.readDir sighted_default (fun _ _ => hI) hI)
    fun entries d hI => hentries entries hI

section

variable (lenSecs : Option (List UInt8) → Bool → Nat)

include lenSecs

/-- After the audio seal, an encoded directory stays encoded to the end of the attempt. -/
theorem sealDirectory_tail (periodSecs : Nat) (h : Encoded json n d0 flac d) :
    Ends Sighted d (do persistSealLen lenSecs (.incomplete n); sealOrMerge n periodSecs)
      (Encoded json n d0 flac) := by
  have hlen : ¬ AudioName LEN_FILE_NAME := fun hname =>
    absurd (payload_of_audioName _ hname).1 (by decide)
  refine Runs.bind (persistSealLen_keeps lenSecs (fun _ _ h _ => h.put hlen) h) fun _ d h => ?_
  obtain ⟨d1, hothers, hflac, habsent, hsafe⟩ := h
  have hwrap : ∀ {d}, Safe AudioName n d1 d → Encoded json n d0 flac d :=
    fun hsafe => ⟨d1, hothers, hflac, habsent, hsafe⟩
  exact (sealOrMerge_custody payload_of_audioName periodSecs hsafe).mono (fun _ _ => hwrap)
    (fun _ _ => hwrap) fun _ => hwrap

/-- One seal of a directory with its streams intact leaves it settled or halfway. -/
theorem sealDirectory_intact (periodSecs : Nat) (he : Encodes json dsp n d0 mic sys flac)
    (h : Intact json n d0 d) :
    Ends Sighted d (sealDirectory json dsp lenSecs n periodSecs) (Left json n d0 flac) := by
  have hleft : ∀ {d}, Encoded json n d0 flac d → Left json n d0 flac d := fun h => .inl (.inr h)
  refine Runs.bind (sealAudioFlac_intact he h) fun _ d h => ?_
  exact (sealDirectory_tail lenSecs periodSecs h).imp fun _ h => hleft h

end

/-- A screen partial is neither the FLAC nor a stream's file. -/
theorem partial_not_audio (h : ".partial".toList.isSuffixOf name.toList = true) :
    name ≠ AUDIO_FILE_NAME ∧ ∀ source, name ∉ streamNames source := by
  refine ⟨?_, fun source hmem => ?_⟩
  · rintro rfl
    exact absurd h (by decide)
  · revert h
    revert name
    cases source <;> decide

end Attempt

/-! ## A stream without a readable format -/

section Orphan

variable {S : Type} {json : SegmentJson} {dsp : Dsp S} {n : Nat} {d0 d : Disk Place}
  {source : AudioSource}

/-- The PCM and the format sidecar of a stream. -/
def PcmAndFormat (source : AudioSource) (m : String) : Prop :=
  m = sourceFileName source ∨ m = sourceFmtFileName source

theorem payload_of_pcmAndFormat (m : String) (h : PcmAndFormat source m) : Payload m := by
  rcases h with rfl | rfl <;> cases source <;> exact ⟨by decide, by decide⟩

variable {P : String → Prop}

/-- A tracked name of the incoming directory is as it was, or no longer there. -/
theorem Safe.incoming (h : Safe P n d0 d) {m : String} (hm : P m) :
    node? d (.incomplete n) m = node? d0 (.incomplete n) m ∨ node? d (.incomplete n) m = none := by
  obtain ⟨rest, h⟩ := h
  rcases h.place with rfl | ⟨habsent, -⟩
  · rcases h.split m hm with ⟨hsame, -⟩ | ⟨-, -, hnone, -⟩
    · exact .inl hsame
    · exact .inr hnone
  · exact .inr (by simp [node?, habsent])

/-- A stream without a readable format never becomes one that is encoded. -/
theorem not_present_of_orphan (horphan : findSource json d0 (.incomplete n) source = some .orphan)
    (h : Safe (PcmAndFormat source) n d0 d) (found : PresentSealAudioSource) :
    findSource json d (.incomplete n) source ≠ some (.present found) := by
  intro hfound
  obtain ⟨fmtBytes, mtime, hfmt, hreads⟩ := format_of_present hfound
  rcases h.incoming (.inr rfl) with hsame | hnone
  · exact hreads (format_of_orphan horphan fmtBytes mtime (hsame ▸ hfmt))
  · rw [hnone] at hfmt
    cases hfmt

/-- A name of the other stream, or of none, is not tracked. -/
theorem not_pcmAndFormat {source' : AudioSource} (hne : source' ≠ source)
    (hname : name ∈ streamNames source') : ¬ PcmAndFormat source name := by
  rintro (rfl | rfl) <;> exact hne (streamNames_disjoint _ hname (by simp [streamNames]))

/-- Removing the files of a stream keeps what is tracked, when none of them is. -/
theorem removeSource_custody {found : SealAudioSource}
    (hP : ∀ f, found = .present f → ∀ name ∈ streamNames f.source, ¬ P name) (h : Safe P n d0 d) :
    Ends Sighted d (removeSource (.incomplete n) found) (Safe P n d0) := by
  match found with
  | .absent | .orphan => exact Runs.pure h
  | .present f =>
    have hother : ∀ name ∈ streamNames f.source, ¬ P name := hP f rfl
    refine Runs.bind (R := fun _ => Safe P n d0) (Runs.removeFile sighted_default
      (fun _ _ _ => h.del_incomplete (hother _ (by simp [streamNames]))) h)
      fun _ d h => ?_
    refine Runs.bind (removeIfExists_keeps sighted_default
      (fun _ h => h.del_incomplete (hother _ (by simp [streamNames]))) h) fun _ d h => ?_
    exact removeIfExists_keeps sighted_default
      (fun _ h => h.del_incomplete (hother _ (by simp [streamNames]))) h

/-- The audio seal touches audio names only: its own, and those of the streams it found. -/
theorem sealAudioFlac_custody
    (hP : ∀ source f, findSource json d (.incomplete n) source = some (.present f) →
      ∀ name ∈ streamNames f.source, ¬ P name)
    (hflac : ¬ P AUDIO_FILE_NAME) (hheard : ¬ P AUDIO_SOURCES_FILE_NAME) (h : Safe P n d0 d) :
    Ends Sighted d (sealAudioFlac json dsp (.incomplete n)) (Safe P n d0) := by
  refine Runs.bind ((readSealAudioSource_spec .mic).loosen fun _ heq => heq ▸ h) ?_
  rintro mic _ ⟨rfl, hmic⟩
  refine Runs.bind ((readSealAudioSource_spec .systemAudio).loosen fun _ heq => heq ▸ h) ?_
  rintro sys _ ⟨rfl, hsys⟩
  split
  · exact Runs.pure h
  split
  · exact Runs.fail h
  · exact Runs.pure h
  refine Runs.bind (writeSynced_keeps sighted_default
    (fun _ _ h _ => h.put_incomplete hflac) _ h) fun _ d h => ?_
  refine Runs.bind (writeSynced_keeps sighted_default
    (fun _ _ h _ => h.put_incomplete hheard) _ h) fun _ d h => ?_
  have hmic' : ∀ f, mic = .present f → ∀ name ∈ streamNames f.source, ¬ P name := by
    intro f hf
    exact hP .mic f (hf ▸ hmic)
  have hsys' : ∀ f, sys = .present f → ∀ name ∈ streamNames f.source, ¬ P name := by
    intro f hf
    exact hP .systemAudio f (hf ▸ hsys)
  exact Runs.bind (removeSource_custody hmic' h) fun _ d h => removeSource_custody hsys' h

/-- The audio seal never touches the PCM of a stream without a readable format. -/
theorem sealAudioFlac_orphan (horphan : findSource json d0 (.incomplete n) source = some .orphan)
    (h : Safe (PcmAndFormat source) n d0 d) :
    Ends Sighted d (sealAudioFlac json dsp (.incomplete n)) (Safe (PcmAndFormat source) n d0) := by
  have hflac : ¬ PcmAndFormat source AUDIO_FILE_NAME := by
    rintro (heq | heq) <;> revert heq <;> cases source <;> decide
  have hheard : ¬ PcmAndFormat source AUDIO_SOURCES_FILE_NAME := by
    rintro (heq | heq) <;> revert heq <;> cases source <;> decide
  refine sealAudioFlac_custody (fun source' f hf name hname => ?_) hflac hheard h
  -- A stream that is present is the other one.
  refine not_pcmAndFormat (fun heq => ?_) hname
  have hsource := source_of_present hf
  rw [heq] at hsource
  exact not_present_of_orphan horphan h f (hsource ▸ hf)

/-- One seal keeps the PCM of a stream without a readable format. -/
theorem sealDirectory_orphan (lenSecs : Option (List UInt8) → Bool → Nat) (periodSecs : Nat)
    (horphan : findSource json d0 (.incomplete n) source = some .orphan)
    (h : Safe (PcmAndFormat source) n d0 d) :
    Ends Sighted d (sealDirectory json dsp lenSecs n periodSecs)
      (Safe (PcmAndFormat source) n d0) := by
  have hlen : ¬ PcmAndFormat source LEN_FILE_NAME := fun hname =>
    absurd (payload_of_pcmAndFormat _ hname).1 (by decide)
  refine Runs.bind (sealAudioFlac_orphan horphan h) fun _ d h => ?_
  refine Runs.bind (persistSealLen_keeps lenSecs (fun _ _ h _ => h.put_incomplete hlen) h)
    fun _ d h => ?_
  exact sealOrMerge_custody payload_of_pcmAndFormat periodSecs h

end Orphan

/-! ## Runs of attempts -/

section Attempts

variable {S : Type} (json : SegmentJson) (dsp : Dsp S) (n : Nat)

/-- One attempt at sealing segment `n`, live or by recovery, with any calls failing and a stop
anywhere. -/
def SealStep (d d' : Disk Place) : Prop :=
  ∃ verdicts lenSecs, (∀ v ∈ verdicts, Sighted v) ∧
    (d' = (finalizeLive json dsp lenSecs n).final verdicts d ∨
      ∃ periodSecs, d' = (finalizeRecovered json dsp lenSecs n periodSecs).final verdicts d)

/-- An attempt that is not cut off between the two removals. -/
def WholeStep (d d' : Disk Place) : Prop :=
  SealStep json dsp n d d' ∧ ¬ Halfway json n d d'

variable {json dsp n} {d0 d d' : Disk Place}

/-- What holds however both kinds of attempt end holds after a step. -/
theorem SealStep.keeps {J : Disk Place → Prop} (hstep : SealStep json dsp n d d') (hI : I d)
    (hdead : ∀ d, I d → Ends Sighted d (removePartialMedia (.incomplete n)) I)
    (hseal : ∀ lenSecs periodSecs d, I d →
      Ends Sighted d (sealDirectory json dsp lenSecs n periodSecs) J)
    (hIJ : ∀ d, I d → J d) : J d' := by
  obtain ⟨verdicts, lenSecs, hsighted, rfl | ⟨periodSecs, rfl⟩⟩ := hstep
  · exact (hseal lenSecs DEFAULT_SEGMENT_SECS d hI).final hsighted
  · refine Runs.final (Runs.bind ((hdead d hI).loosen hIJ) ?_)
      hsighted
    exact fun _ d hI => hseal lenSecs periodSecs d hI

/-- Whatever the run, a whole attempt keeps a directory with something to encode settled. -/
theorem WholeStep.settled {flac : List UInt8} (he : Encodes json dsp n d0 mic sys flac)
    (hstep : WholeStep json dsp n d d') (h : Settled json n d0 flac d) :
    Settled json n d0 flac d' := by
  rcases h with hintact | hencoded
  · have hleft : Left json n d0 flac d' := hstep.1.keeps hintact
      (fun _ h => removePartialMedia_keeps
        (fun _ _ hdead h => h.del (partial_not_audio hdead).2) h)
      (fun lenSecs periodSecs _ h => sealDirectory_intact lenSecs periodSecs he h)
      (fun _ h => .inl (.inl h))
    rcases hleft with hset | ⟨hmic0, hsys0, hgone, hthere⟩
    · exact hset
    · rw [← hintact.kept _ rfl] at hmic0 hsys0
      exact absurd ⟨hmic0, hsys0, hgone, hthere⟩ hstep.2
  · refine .inr (hstep.1.keeps hencoded (fun _ h => ?_)
      (fun lenSecs periodSecs _ h => Runs.bind (sealAudioFlac_encoded h) fun _ _ h =>
        sealDirectory_tail lenSecs periodSecs h) (fun _ h => h))
    refine removePartialMedia_keeps (fun _ _ hdead h => h.del ?_) h
    rintro (heq | ⟨source, rfl⟩)
    · exact (partial_not_audio hdead).1 heq
    · exact (partial_not_audio hdead).2 source (sourceFileName_mem source)

/-- Any attempt keeps the PCM of a stream without a readable format. -/
theorem SealStep.orphan {source : AudioSource}
    (horphan : findSource json d0 (.incomplete n) source = some .orphan)
    (hstep : SealStep json dsp n d d') (h : Safe (PcmAndFormat source) n d0 d) :
    Safe (PcmAndFormat source) n d0 d' := by
  refine hstep.keeps h (fun _ h => ?_)
    (fun lenSecs periodSecs _ h => sealDirectory_orphan lenSecs periodSecs horphan h)
    (fun _ h => h)
  refine removePartialMedia_keeps (fun _ _ hdead h => h.del_incomplete ?_) h
  rintro (rfl | rfl) <;> exact (partial_not_audio hdead).2 source (by simp [streamNames])

/-- A place that can hold an incoming name can, seen from a disk on which only the incoming
directory has changed. -/
theorem Fresh.congr {d1 : Disk Place} {m : String} {k : Place}
    (h : ∀ k, k ≠ .incomplete n → d1.lookup k = d0.lookup k) (hfresh : Fresh n d0 m k) :
    Fresh n d1 m k := by
  rcases hfresh with hk | ⟨hk, hfree⟩ | ⟨q, rfl, hnew⟩
  · exact .inl hk
  · exact .inr (.inl ⟨hk, (node?_congr (h _ (by simp)) m).trans hfree⟩)
  · exact .inr (.inr ⟨q, rfl, (h _ (by simp)).trans hnew⟩)

/-- In every run of attempts none of which is cut off between the two removals: once the
directory has left its place, its `audio.flac` is the combination of the streams the first
attempt found, in exactly one place. And in such a run a stream without a readable format,
which the seal does not encode, keeps its PCM, in exactly one place. -/
theorem finalize_keeps_audio {S : Type} (json : SegmentJson) (dsp : Dsp S) (n : Nat)
    (d0 d : Disk Place) (hrun : Relation.ReflTransGen (WholeStep json dsp n) d0 d) :
    (∀ mic sys flac, findSource json d0 (.incomplete n) .mic = some mic →
      findSource json d0 (.incomplete n) .systemAudio = some sys →
      mic ≠ .orphan → sys ≠ .orphan →
      combineTimedToFlac dsp mic.combineInput sys.combineInput = .ok (some flac) →
      d.lookup (.incomplete n) = none →
      ∃! k, Fresh n d0 AUDIO_FILE_NAME k ∧
        ∃ mtime, node? d k AUDIO_FILE_NAME = some (.file flac mtime)) ∧
    (∀ source node, findSource json d0 (.incomplete n) source = some .orphan →
      node? d0 (.incomplete n) (sourceFileName source) = some node →
      ∃! k, Fresh n d0 (sourceFileName source) k ∧
        node? d k (sourceFileName source) = some node) := by
  refine ⟨fun mic sys flac hmic hsys hmic' hsys' hflac hgone => ?_,
    fun source node horphan hnode => ?_⟩
  · have hset : Settled json n d0 flac d := reflTransGen_invariant
      (fun _ _ h hstep => hstep.settled ⟨hmic, hsys, hmic', hsys', hflac⟩ h)
      (.inl ⟨by simp, fun _ _ => rfl, fun _ _ => rfl⟩) hrun
    rcases hset with hintact | ⟨d1, hothers, ⟨mtime, hwritten⟩, -, hsafe⟩
    · -- The directory is gone, so no stream is left in it; but one was there to encode.
      have habsent : ∀ source, findSource json d0 (.incomplete n) source = some .absent := by
        intro source
        rw [← hintact.kept source rfl]
        exact findSource_of_none (by simp [node?, hgone])
      rw [habsent] at hmic hsys
      cases hmic
      cases hsys
      cases hflac
    · obtain ⟨k, hfresh, hk, honly⟩ := hsafe.one_place (.inl rfl) hwritten
      refine ⟨k, ⟨hfresh.congr fun k hk => (hothers k hk).symm, mtime, hk⟩, ?_⟩
      rintro k' ⟨hfresh', mtime', hk'⟩
      exact honly k' (hfresh'.congr hothers) (by simp [hk'])
  · have hsafe : Safe (PcmAndFormat source) n d0 d := reflTransGen_invariant
      (fun _ _ h hstep => hstep.1.orphan horphan h)
      (held_refl (PcmAndFormat source) n d0).safe hrun
    obtain ⟨k, hfresh, hk, honly⟩ := hsafe.one_place (.inl rfl) hnode
    exact ⟨k, ⟨hfresh, hk⟩, fun k' hk' => honly k' hk'.1 (by simp [hk'.2])⟩

/-! ## Two streams of one frame each -/

/-- The sidecar text `serde_json` writes for a format. -/
def sidecarText (format : AudioFormat) : List UInt8 :=
  ascii ("\x7b\"sample_rate_hz\":" ++ toString format.sampleRateHz
    ++ ",\"channels\":" ++ toString format.channels
    ++ ",\"bits_per_sample\":" ++ toString format.bitsPerSample
    ++ ",\"is_float\":" ++ (if format.isFloat then "true" else "false") ++ "\x7d")

/-- The codec on the sidecars of the given formats. -/
def codecOf (formats : List AudioFormat) : SegmentJson :=
  ⟨sidecarText, fun bytes => formats.find? fun format => sidecarText format = bytes,
    fun names => ascii (",".intercalate names)⟩

/-- 16-bit mono at the target rate. -/
def mono16 : AudioFormat := ⟨16000, 1, 16, false⟩

/-- Samples as whole numbers, and an encoder that writes them one after the other. -/
def rawDsp : Dsp Int where
  silence := 0
  frame := fun _ bytes =>
    let n := (bytes.getD 0 0).toNat + 256 * (bytes.getD 1 0).toNat
    if n < 32768 then n else (n : Int) - 65536
  resample := fun samples _ => .ok samples
  toI16 := id
  encode := fun samples => .ok (samples.flatMap fun sample =>
    [UInt8.ofNat (sample % 256).toNat, UInt8.ofNat (sample / 256 % 256).toNat])

/-- A captured segment 7 with one frame of each source. -/
def twoStreams : Disk Place :=
  Disk.of
    [(.incomplete 7, [("mic.pcm", .file [1, 0] 3), ("mic.fmt.json", .file (sidecarText mono16) 3),
        ("system-audio.pcm", .file [2, 0] 3),
        ("system-audio.fmt.json", .file (sidecarText mono16) 3)])]

/-- The disk after an attempt. -/
def attempted (verdicts : List Verdict) (d : Disk Place) : Disk Place :=
  (finalizeLive (codecOf [mono16]) rawDsp (fun _ _ => 1) 7).final verdicts d

/-- The first attempt fails in the middle of `audio.flac`, the second goes through: the sealed FLAC
holds both frames. -/
theorem finalize_keeps_audio_two_attempts :
    let torn := attempted (List.replicate 11 default ++ [⟨.fail 1, false, 0⟩]) twoStreams
    node? torn (.incomplete 7) AUDIO_FILE_NAME = some (.file [1] 0) ∧
      ∃! k, Fresh 7 twoStreams AUDIO_FILE_NAME k ∧ ∃ mtime,
        node? (attempted [] torn) k AUDIO_FILE_NAME = some (.file [1, 0, 2, 0] mtime) := by
  intro torn
  have hfirst : WholeStep (codecOf [mono16]) rawDsp 7 twoStreams torn :=
    ⟨⟨_, fun _ _ => 1, by decide, .inl rfl⟩, fun hhalf => absurd hhalf.2.2.1 (by decide)⟩
  have hsecond : WholeStep (codecOf [mono16]) rawDsp 7 torn (attempted [] torn) :=
    ⟨⟨[], fun _ _ => 1, by decide, .inl rfl⟩, fun hhalf => hhalf.2.2.2 (by decide)⟩
  exact ⟨by decide, (finalize_keeps_audio (codecOf [mono16]) rawDsp 7 twoStreams _
    (.tail (.single hfirst) hsecond)).1
    (.present ⟨.mic, [1, 0], none, mono16⟩) (.present ⟨.systemAudio, [2, 0], none, mono16⟩)
    [1, 0, 2, 0] (by decide) (by decide) (by decide) (by decide) (by decide) (by decide)⟩

/-- The first attempt fails when it has removed `mic.pcm` and goes on to `mic.fmt.json`; the
second goes through. The sealed FLAC then has silence in the place of the microphone. -/
theorem finalizeLive_drops_mic :
    let d :=
      attempted [] (attempted (List.replicate 17 default ++ [⟨.fail 0, false, 0⟩]) twoStreams)
    combineTimedToFlac rawDsp (some ([1, 0], mono16, none)) (some ([2, 0], mono16, none)) =
        .ok (some [1, 0, 2, 0]) ∧
      node? d (.sealed 7) AUDIO_FILE_NAME = some (.file [0, 0, 2, 0] 0) ∧
      ∀ k ∈ [Place.sealed 7, .incomplete 7], node? d k "mic.pcm" = none := by
  decide

end Attempts

end SolstoneWindows.Proofs.PlatformWin
