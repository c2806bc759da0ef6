import SolstoneWindows.PlatformWin.WriteChunk
import SolstoneWindows.Proofs.PlatformWin.SealAudio

/-!
# What one write call leaves

`Wrote` lists everything one `writeChunk` call can leave of a stream: its PCM bytes, its
timeline text, and whether the process still holds the timeline for complete.
`writeAudioChunk_wrote` proves it of the program, for every call that fails and every point where
the process stops. What follows for audio is a matter of `Wrote` alone.
-/

set_option autoImplicit false

namespace SolstoneWindows.Proofs.PlatformWin

open Lib.Effect Lib.Fs
open ObserverModel (AudioFormat CaptureChunk SegmentKey)
open ObserverAudio (parseTimeline timelineRow utf8)
open SolstoneWindows.PlatformWin

/-! ## A stream on disk -/

/-- The bytes under a name, none if it is not there. -/
def content (d : Disk Place) (k : Place) (name : String) : List UInt8 :=
  match node? d k name with
  | some (.file bytes _) => bytes
  | _ => []

variable {d : Disk Place} {k : Place} {name : String}

theorem content_of_file {bytes : List UInt8}
    {mtime : Nat} (h : node? d k name = some (.file bytes mtime)) : content d k name = bytes := by
  rw [content, h]

theorem content_congr {d' : Disk Place}
    (h : node? d' k name = node? d k name) : content d' k name = content d k name := by
  rw [content, content, h]

section Names

variable (source : AudioSource)

theorem timeline_ne_pcm : sourceTimelineFileName source ≠ sourceFileName source := by
  cases source <;> decide

theorem fmt_ne_pcm : sourceFmtFileName source ≠ sourceFileName source := by
  cases source <;> decide

theorem fmt_ne_timeline : sourceFmtFileName source ≠ sourceTimelineFileName source := by
  cases source <;> decide

theorem temp_ne_pcm : sourceTimelineTempName source ≠ sourceFileName source := by
  cases source <;> decide

theorem temp_ne_timeline : sourceTimelineTempName source ≠ sourceTimelineFileName source := by
  cases source <;> decide

theorem temp_ne_fmt : sourceTimelineTempName source ≠ sourceFmtFileName source := by
  cases source <;> decide

end Names

/-- The stream's PCM bytes and timeline text in the directory `k`. No folder has one of their
names, and PCM comes with a sidecar. -/
structure OnDisk (k : Place) (source : AudioSource) (pcm text : List UInt8) (d : Disk Place) :
    Prop where
  pcm_not_folder : ∀ id, node? d k (sourceFileName source) ≠ some (.folder id)
  timeline_not_folder : ∀ id, node? d k (sourceTimelineFileName source) ≠ some (.folder id)
  sidecar : node? d k (sourceFileName source) ≠ none → node? d k (sourceFmtFileName source) ≠ none
  pcm_eq : content d k (sourceFileName source) = pcm
  text_eq : content d k (sourceTimelineFileName source) = text

section Disk

variable {source : AudioSource} {pcm text : List UInt8} {d' : Disk Place}

section

variable (h : OnDisk k source pcm text d)

include h

/-- Only the stream's own names matter. -/
theorem OnDisk.congr (hpcm : node? d' k (sourceFileName source) = node? d k (sourceFileName source))
    (htimeline : node? d' k (sourceTimelineFileName source) =
      node? d k (sourceTimelineFileName source))
    (hfmt : node? d k (sourceFmtFileName source) ≠ none →
      node? d' k (sourceFmtFileName source) ≠ none) :
    OnDisk k source pcm text d' where
  pcm_not_folder := fun id => hpcm ▸ h.pcm_not_folder id
  timeline_not_folder := fun id => htimeline ▸ h.timeline_not_folder id
  sidecar := fun hthere => hfmt (h.sidecar (hpcm ▸ hthere))
  pcm_eq := (content_congr hpcm).trans h.pcm_eq
  text_eq := (content_congr htimeline).trans h.text_eq

/-- A name that is no file of the stream's can hold anything. -/
theorem OnDisk.put_other (hdir : (d.lookup k).isSome)
    (hpcm : name ≠ sourceFileName source) (htimeline : name ≠ sourceTimelineFileName source)
    (node : Node) :
    OnDisk k source pcm text (put d k name node) := by
  refine h.congr (node?_put_ne fun heq => hpcm heq.2.symm)
    (node?_put_ne fun heq => htimeline heq.2.symm) fun hthere => ?_
  rw [node?_put _ _ _ _ _ _ hdir]
  split
  · simp
  · exact hthere

/-- Give the PCM file new bytes. -/
theorem OnDisk.put_pcm (hdir : (d.lookup k).isSome)
    (hfmt : node? d k (sourceFmtFileName source) ≠ none) (bytes : List UInt8) (mtime : Nat) :
    OnDisk k source bytes text (put d k (sourceFileName source) (.file bytes mtime)) := by
  have htimeline : node? (put d k (sourceFileName source) (.file bytes mtime)) k
      (sourceTimelineFileName source) = node? d k (sourceTimelineFileName source) :=
    node?_put_ne fun heq => timeline_ne_pcm source heq.2
  have hpcm : node? (put d k (sourceFileName source) (.file bytes mtime)) k
      (sourceFileName source) = some (.file bytes mtime) := by
    simp [hdir]
  exact {
    pcm_not_folder := fun id => by simp [hpcm]
    timeline_not_folder := fun id => htimeline ▸ h.timeline_not_folder id
    sidecar := fun _ => by
      rwa [node?_put_ne fun heq => fmt_ne_pcm source heq.2]
    pcm_eq := content_of_file hpcm
    text_eq := (content_congr htimeline).trans h.text_eq }

/-- Give the timeline new text. -/
theorem OnDisk.put_timeline (hdir : (d.lookup k).isSome) (bytes : List UInt8) (mtime : Nat) :
    OnDisk k source pcm bytes (put d k (sourceTimelineFileName source) (.file bytes mtime)) := by
  have hpcm : node? (put d k (sourceTimelineFileName source) (.file bytes mtime)) k
      (sourceFileName source) = node? d k (sourceFileName source) :=
    node?_put_ne fun heq => timeline_ne_pcm source heq.2.symm
  have htimeline : node? (put d k (sourceTimelineFileName source) (.file bytes mtime)) k
      (sourceTimelineFileName source) = some (.file bytes mtime) := by
    simp [hdir]
  exact {
    pcm_not_folder := fun id => hpcm ▸ h.pcm_not_folder id
    timeline_not_folder := fun id => by simp [htimeline]
    sidecar := fun hthere => by
      rw [node?_put_ne fun heq => fmt_ne_timeline source heq.2]
      exact h.sidecar (hpcm ▸ hthere)
    pcm_eq := (content_congr hpcm).trans h.pcm_eq
    text_eq := content_of_file htimeline }

end

/-- A stream whose PCM file is there, as it is while a handle is open. -/
structure Opened (k : Place) (source : AudioSource) (pcm text : List UInt8) (d : Disk Place) :
    Prop extends OnDisk k source pcm text d where
  there : node? d k (sourceFileName source) ≠ none

section

variable (h : Opened k source pcm text d)

include h

theorem Opened.put_other (hdir : (d.lookup k).isSome)
    (hpcm : name ≠ sourceFileName source) (htimeline : name ≠ sourceTimelineFileName source)
    (node : Node) :
    Opened k source pcm text (put d k name node) where
  toOnDisk := h.toOnDisk.put_other hdir hpcm htimeline node
  there := by
    rw [node?_put_ne fun heq => hpcm heq.2.symm]
    exact h.there

theorem Opened.put_timeline (hdir : (d.lookup k).isSome) (bytes : List UInt8) (mtime : Nat) :
    Opened k source pcm bytes (put d k (sourceTimelineFileName source) (.file bytes mtime)) where
  toOnDisk := h.toOnDisk.put_timeline hdir bytes mtime
  there := by
    rw [node?_put_ne fun heq => timeline_ne_pcm source heq.2.symm]
    exact h.there

/-- An open PCM file has its bytes. -/
theorem Opened.pcm_file : ∃ mtime, node? d k (sourceFileName source) = some (.file pcm mtime) := by
  cases hnode : node? d k (sourceFileName source) with
  | none => exact absurd hnode h.there
  | some node =>
    cases node with
    | folder id => exact absurd hnode (h.pcm_not_folder id)
    | file bytes mtime =>
      have heq := h.pcm_eq
      rw [content_of_file hnode] at heq
      exact ⟨mtime, by rw [heq]⟩

/-- Bytes appended to an open PCM file are behind the ones there. -/
theorem Opened.append_pcm (bytes : List UInt8) (now : Nat) :
    Opened k source (pcm ++ bytes) text (append d k (sourceFileName source) bytes now) := by
  obtain ⟨mtime, hnode⟩ := h.pcm_file
  obtain ⟨dir, hdir, -⟩ := lookup_of_node? hnode
  have hput : append d k (sourceFileName source) bytes now =
      put d k (sourceFileName source) (.file (pcm ++ bytes) now) := by
    simp only [append, hnode]
  rw [hput]
  exact {
    toOnDisk := h.toOnDisk.put_pcm (by simp [hdir]) (h.sidecar h.there) _ _
    there := by simp [hdir] }

/-- Bytes appended to a timeline are behind the ones there. -/
theorem Opened.append_timeline {mtime : Nat}
    (hnode : node? d k (sourceTimelineFileName source) = some (.file text mtime))
    (bytes : List UInt8) (now : Nat) :
    Opened k source pcm (text ++ bytes)
      (append d k (sourceTimelineFileName source) bytes now) := by
  obtain ⟨dir, hdir, -⟩ := lookup_of_node? hnode
  have hput : append d k (sourceTimelineFileName source) bytes now =
      put d k (sourceTimelineFileName source) (.file (text ++ bytes) now) := by
    simp only [append, hnode]
  rw [hput]
  exact h.put_timeline (by simp [hdir]) _ _

end

end Disk

/-! ## Bringing the timeline up to the PCM -/

/-- A timeline text that accounts for `pcmLen` bytes, made from another one. -/
def Repaired (pcmLen : Nat) (text text' : List UInt8) : Prop :=
  ∃ us < 2 ^ 64, text' = timelineText ((keepEntries pcmLen 0 (parseTimeline text)).1 ++
    restEntry us pcmLen (keepEntries pcmLen 0 (parseTimeline text)).2)

/-- The end of a timeline fits a `u64`, because the sums saturate. -/
theorem endUs_lt (rate : Nat) (entries : List (Nat × Nat)) : endUs rate entries < 2 ^ 64 := by
  have hfold : ∀ end_ < 2 ^ 64, entries.foldl (fun end_ (entry : Nat × Nat) =>
      ObserverModel.saturatingAdd (max end_ entry.1)
        (ObserverModel.saturatingMul entry.2 1000000 / rate)) end_ < 2 ^ 64 := by
    induction entries with
    | nil => exact fun _ hend => hend
    | cons entry entries ih =>
      intro end_ _
      exact ih _ (Nat.lt_of_le_of_lt (Nat.min_le_right _ _) (by decide))
  exact hfold 0 (by decide)

/-- What a repair makes of a timeline text, for PCM of this byte rate. -/
def repairedText (rate pcmLen : Nat) (text : List UInt8) : List UInt8 :=
  let kept := keepEntries pcmLen 0 (parseTimeline text)
  timelineText (kept.1 ++ restEntry (endUs rate kept.1) pcmLen kept.2)

section Programs

variable {D : Verdict → Prop} {json : SegmentJson} {source : AudioSource} {pcm text : List UInt8}

/-- There is nothing to repair. -/
abbrev Done (pcmLen : Nat) (text : List UInt8) : Prop :=
  (keepEntries pcmLen 0 (parseTimeline text)).2 = pcmLen ∧
    timelineText (keepEntries pcmLen 0 (parseTimeline text)).1 = text

variable {pcmLen : Nat}

/-- The repair leaves the timeline alone, or writes its text beside the timeline and renames it into
place. -/
theorem reconcileAudioTimeline_spec {I : Disk Place → Prop}
    {Q : Unit → Disk Place → Prop} (hD : D default)
    (htext : content d k (sourceTimelineFileName source) = text) (hI : I d)
    (hdone : Done pcmLen text → Q () d)
    (hrepair : ¬ Done pcmLen text →
      (∀ d node, I d → (d.lookup k).isSome → I (put d k (sourceTimelineTempName source) node)) ∧
      ∀ rate d mtime, I d → (d.lookup k).isSome →
        Q () (put (del d k (sourceTimelineTempName source))
        k (sourceTimelineFileName source) (.file (repairedText rate pcmLen text) mtime))) :
    Runs D d (reconcileAudioTimeline json k source pcmLen) Q (fun _ => I) I := by
  refine Runs.bind ((readIfExists_spec hD).loosen fun _ h => h.1 ▸ hI) ?_
  rintro found _ ⟨rfl, hfound⟩
  have hbytes : found.getD [] = text := by
    rw [← htext]
    cases found with
    | none =>
      have hnone : node? d k (sourceTimelineFileName source) = none := hfound
      simp [content, hnone]
    | some bytes =>
      obtain ⟨mtime, hnode⟩ := hfound
      exact (content_of_file hnode).symm
  rw [hbytes]
  by_cases hsame : Done pcmLen text
  · simp only [repairTimeline, if_pos hsame]
    exact Runs.pure (hdone hsame)
  obtain ⟨hput, hmove⟩ := hrepair hsame
  simp only [repairTimeline, if_neg hsame]
  refine Runs.bind (R := fun _ => I) (Runs.read hD (fun _ _ _ => hI) hI)
    fun fmtBytes d hI => ?_
  cases json.fromSlice fmtBytes with
  | none => exact Runs.fail hI
  | some format =>
    by_cases hrate : byteRate format = 0
    · simp only [if_pos hrate]
      exact Runs.fail hI
    simp only [if_neg hrate]
    refine Runs.bind (writeSynced_spec hD hput _ hI) ?_
    rintro _ d ⟨hI, mtime, htemp⟩
    refine Runs.rename hD (fun node hnode hdir => ?_) hI
    obtain rfl : node = .file _ mtime := Option.some.inj (hnode.symm.trans htemp)
    exact hmove (byteRate format) d mtime hI hdir

/-- Taking the scratch name away leaves the stream's files. -/
theorem Opened.del_temp (h : Opened k source pcm text d) :
    Opened k source pcm text (del d k (sourceTimelineTempName source)) := by
  have hothers : ∀ name, sourceTimelineTempName source ≠ name →
      node? (del d k (sourceTimelineTempName source)) k name = node? d k name := by
    intro name hne
    rw [node?_del, if_neg fun heq => hne heq.2.symm]
  exact {
    toOnDisk := h.toOnDisk.congr (hothers _ (temp_ne_pcm source))
      (hothers _ (temp_ne_timeline source))
      fun hthere => by rwa [hothers _ (temp_ne_fmt source)]
    there := by
      rw [hothers _ (temp_ne_pcm source)]
      exact h.there }

theorem reconcileAudioTimeline_opened (hD : D default) (h : Opened k source pcm text d) :
    Runs D d (reconcileAudioTimeline json k source pcm.length)
      (fun _ d => ∃ rate, Opened k source pcm (repairedText rate pcm.length text) d)
      (fun _ => Opened k source pcm text) (Opened k source pcm text) := by
  refine reconcileAudioTimeline_spec hD h.text_eq h (fun hdone => ⟨0, ?_⟩)
    fun _ => ⟨fun d node h hdir => ?_, fun rate d mtime h hdir => ⟨rate, ?_⟩⟩
  · simpa [repairedText, restEntry, hdone.1, hdone.2] using h
  · exact h.put_other hdir (temp_ne_pcm source) (temp_ne_timeline source) node
  · exact h.del_temp.put_timeline (by simpa using hdir) _ _

/-- The sidecar is there once the write of it has returned. -/
theorem writeSidecar_spec (hD : D default) (format : AudioFormat) (h : OnDisk k source pcm text d) :
    Runs D d (writeSidecar json k source (some format))
      (fun _ d => OnDisk k source pcm text d ∧ node? d k (sourceFmtFileName source) ≠ none)
      (fun _ => OnDisk k source pcm text) (OnDisk k source pcm text) := by
  refine Runs.bind (R := fun there d => OnDisk k source pcm text d ∧
    (there = true → node? d k (sourceFmtFileName source) ≠ none)) ?_ fun there d h => ?_
  · refine Runs.probe hD ⟨h, fun hthere => ?_⟩ (fun _ => ⟨h, by simp⟩) h
    exact Option.isSome_iff_ne_none.mp hthere
  cases there with
  | true => exact Runs.pure ⟨h.1, h.2 rfl⟩
  | false =>
    refine (writeSynced_spec hD (fun _ node h hdir => h.put_other hdir (fmt_ne_pcm source)
      (fmt_ne_timeline source) node) _ h.1).weaken ?_
    rintro _ d ⟨h, mtime, hnode⟩
    exact ⟨h, by simp [hnode]⟩

end Programs

/-! ## A stream and its handle -/

/-- The stream as the process has it: its files, and whether it takes the timeline for
complete. A stream with a handle has a PCM file. -/
structure Live (key : SegmentKey) (source : AudioSource) (pcm text : List UInt8) (valid : Bool)
    (s : LocalSegmentFs) : Prop where
  onDisk : OnDisk (.incomplete key.index) source pcm text s.disk
  there : (s.handles.lookup (key, source)).isSome →
    node? s.disk (.incomplete key.index) (sourceFileName source) ≠ none
  valid_eq : s.timelineValid key source = valid

/-- A stream with an open handle. -/
structure Running (key : SegmentKey) (source : AudioSource) (pcm text : List UInt8) (valid : Bool)
    (s : LocalSegmentFs) : Prop where
  opened : Opened (.incomplete key.index) source pcm text s.disk
  handle : (s.handles.lookup (key, source)).isSome
  valid_eq : s.timelineValid key source = valid

section Handles

variable {key : SegmentKey} {source : AudioSource} {pcm text : List UInt8} {valid : Bool}
  {s : LocalSegmentFs}

section

variable (h : Running key source pcm text valid s)

include h

theorem Running.live : Live key source pcm text valid s :=
  ⟨h.opened.toOnDisk, fun _ => h.opened.there, h.valid_eq⟩

/-- The handles do not depend on the disk. -/
theorem Running.with_disk {pcm' text' : List UInt8} {d : Disk Place}
    (hd : Opened (.incomplete key.index) source pcm' text' d) :
    Running key source pcm' text' valid { s with disk := d } :=
  ⟨hd, h.handle, h.valid_eq⟩

/-- An open handle is changed, and its flag with it. -/
theorem Running.update {f : SegmentHandle → SegmentHandle} {valid' : Bool}
    (hf : ∀ handle, handle.timelineValid = valid → (f handle).timelineValid = valid') :
    Running key source pcm text valid' (s.updateHandle key source f) := by
  obtain ⟨handle, hhandle⟩ := Option.isSome_iff_exists.mp h.handle
  have hvalid := h.valid_eq
  simp only [LocalSegmentFs.timelineValid, hhandle, Option.any_some] at hvalid
  simp only [LocalSegmentFs.updateHandle, hhandle]
  exact ⟨h.opened, by simp, by simpa [LocalSegmentFs.timelineValid] using hf handle hvalid⟩

end

variable {D : Verdict → Prop} {json : SegmentJson}

/-- A new directory is as empty as an absent one. -/
theorem Live.createDir (h : Live key source pcm text valid s)
    (hnone : s.disk.lookup (.incomplete key.index) = none) :
    Live key source pcm text valid { s with disk := putDir s.disk (.incomplete key.index) ∅ } := by
  have hnodes : ∀ name,
      node? (putDir s.disk (.incomplete key.index) ∅) (.incomplete key.index) name =
      node? s.disk (.incomplete key.index) name := by
    intro name
    simp [node?, hnone]
  exact ⟨h.onDisk.congr (hnodes _) (hnodes _) (fun hthere => by rwa [hnodes]),
    fun hhandle => by
      show node? (putDir s.disk (.incomplete key.index) ∅) _ _ ≠ none
      rw [hnodes]
      exact h.there hhandle,
    h.valid_eq⟩

/-- Once the stream is open it has a handle and a PCM file. -/
theorem openStream_spec (hD : D default) (format : AudioFormat)
    (h : Live key source pcm text valid s) :
    Runs D s (openStream json key source (some format))
      (fun _ => Running key source pcm text valid) (fun _ => Live key source pcm text valid)
      (Live key source pcm text valid) := by
  refine Runs.get_bind ?_
  cases hhandle : s.handles.lookup (key, source) with
  | some handle =>
    have hsome : (s.handles.lookup (key, source)).isSome := by simp [hhandle]
    exact Runs.pure ⟨⟨h.onDisk, h.there hsome⟩, hsome, h.valid_eq⟩
  | none =>
    have hfalse : valid = false := by
      rw [← h.valid_eq]
      simp [LocalSegmentFs.timelineValid, hhandle]
    -- Without a handle the rest of the stream's state is its files.
    have hlive : ∀ d, OnDisk (.incomplete key.index) source pcm text d →
        Live key source pcm text valid { s with disk := d } := by
      intro d hd
      exact ⟨hd, by simp [hhandle], h.valid_eq⟩
    refine Runs.bind (R := fun _ s' => ∃ d, s' = { s with disk := d } ∧
      OnDisk (.incomplete key.index) source pcm text d ∧
        node? d (.incomplete key.index) (sourceFmtFileName source) ≠ none)
      (Runs.zoom ((writeSidecar_spec hD format h.onDisk).mono (fun _ d hd => ⟨d, rfl, hd⟩)
        (fun _ => hlive) hlive)) ?_
    rintro _ _ ⟨d, rfl, hd, hfmt⟩
    refine Runs.bind (R := fun _ s' => ∃ d, s' = { s with disk := d } ∧
      Opened (.incomplete key.index) source pcm text d)
      (Runs.zoom (Runs.openAppend hD (fun bytes mtime hnode => ⟨d, rfl, hd, by simp [hnode]⟩)
        (fun now hdir hnone => ⟨_, rfl, ?_⟩) (hlive d hd))) ?_
    · -- A new PCM file is as empty as an absent one.
      have hempty : pcm = [] := by
        rw [← hd.pcm_eq]
        simp only [content] at hnone ⊢
        simp [hnone]
      subst hempty
      exact ⟨hd.put_pcm hdir hfmt [] now, by
        show node? (put d (.incomplete key.index) (sourceFileName source) (.file [] now)) _ _ ≠ none
        rw [node?_put _ _ _ _ _ _ hdir]
        simp⟩
    · rintro _ _ ⟨d, rfl, hd⟩
      refine Runs.modify ⟨hd, by simp, ?_⟩
      rw [hfalse]
      simp [LocalSegmentFs.timelineValid]

/-- The timeline text a chunk's row goes behind. -/
def Readied (atUs : Option Nat) (valid : Bool) (pcm text text' : List UInt8) : Prop :=
  match atUs with
  | none => text' = text
  | some _ => (valid = true ∧ text' = text) ∨ Repaired pcm.length text text'

theorem prepareTimeline_spec (hD : D default) (atUs : Option Nat)
    (h : Running key source pcm text valid s) :
    Runs D s (prepareTimeline json key source atUs)
      (fun _ s => ∃ text', Readied atUs valid pcm text text' ∧
        Running key source pcm text' valid s)
      (fun _ => Live key source pcm text valid) (Live key source pcm text valid) := by
  cases atUs with
  | none => exact Runs.pure ⟨text, rfl, h⟩
  | some us =>
    refine Runs.get_bind ?_
    cases hvalid : valid with
    | true =>
      have hflag : s.timelineValid key source = true := h.valid_eq.trans hvalid
      simp only [hflag, if_true]
      exact Runs.pure ⟨text, .inl ⟨rfl, rfl⟩, hvalid ▸ h⟩
    | false =>
      have hflag : s.timelineValid key source = false := h.valid_eq.trans hvalid
      simp only [hflag, Bool.false_eq_true, if_false]
      rw [hvalid] at h
      refine Runs.bind (R := fun pcm' s' => s = s' ∧ pcm'.len = pcm.length) (Runs.zoom
        (Runs.metadata hD (fun node hnode => ⟨rfl, ?_⟩) h.live)) ?_
      · obtain ⟨mtime, hfile⟩ := h.opened.pcm_file
        obtain rfl : node = .file pcm mtime := Option.some.inj (hnode.symm.trans hfile)
        rfl
      · rintro node _ ⟨rfl, hlen⟩
        rw [hlen]
        exact Runs.zoom ((reconcileAudioTimeline_opened hD h.opened).mono
          (fun _ _ ⟨rate, hd⟩ => ⟨_, .inr ⟨_, endUs_lt rate _, rfl⟩, h.with_disk hd⟩)
          (fun _ _ hd => (h.with_disk hd).live) fun _ hd => (h.with_disk hd).live)

/-- A chunk with a time gets its row; if the append of it is cut short, a first part of it. -/
theorem appendRow_spec (hD : D default) (len us : Nat) (h : Running key source pcm text false s) :
    Runs D s (appendRow key source len (some us))
      (fun _ => Running key source pcm (text ++ utf8 (timelineRow us len)) true)
      (fun _ s => ∃ kept, Live key source pcm
        (text ++ (utf8 (timelineRow us len)).take kept) false s)
      (fun s => ∃ kept, Live key source pcm
        (text ++ (utf8 (timelineRow us len)).take kept) false s) := by
  have huntouched : ∃ kept,
      Live key source pcm (text ++ (utf8 (timelineRow us len)).take kept) false s := by
    refine ⟨0, ?_⟩
    rw [List.take_zero, List.append_nil]
    exact h.live
  refine Runs.bind (R := fun _ s' => ∃ d mtime, s' = { s with disk := d } ∧
    Opened (.incomplete key.index) source pcm text d ∧
      node? d (.incomplete key.index) (sourceTimelineFileName source) = some (.file text mtime))
    (Runs.zoom (Runs.openAppend hD (fun bytes mtime hnode => ?_) (fun now hdir hnone => ?_)
      huntouched)) ?_
  · have heq := h.opened.text_eq
    rw [content_of_file hnode] at heq
    exact ⟨s.disk, mtime, rfl, h.opened, by rw [hnode, heq]⟩
  · -- A new timeline is as empty as an absent one.
    have hempty : text = [] := by
      rw [← h.opened.text_eq]
      simp [content, hnone]
    subst hempty
    exact ⟨_, now, rfl, h.opened.put_timeline hdir [] now, by
      rw [node?_put _ _ _ _ _ _ hdir]
      simp⟩
  rintro _ _ ⟨d, mtime, rfl, hd, hnode⟩
  refine Runs.bind (R := fun _ => Running key source pcm (text ++ utf8 (timelineRow us len)) false)
    (Runs.zoom (Runs.write hD (fun now => h.with_disk (hd.append_timeline hnode _ now))
      fun kept now => ⟨kept, (h.with_disk (hd.append_timeline hnode _ now)).live⟩)) ?_
  intro _ s h
  exact Runs.modify (h.update fun _ _ => rfl)

/-- A flush notes its time and changes nothing else. -/
theorem flushHandle_keeps {I : LocalSegmentFs → Prop} (hD : D default) (hflush : ∀ s now, I s →
      I (s.updateHandle key source fun h => { h with lastFlush := some now })) (h : I s) :
    Ends D s (flushHandle key source) I := by
  refine Ends.bind (Runs.get h) ?_
  intro s' s h
  refine Ends.bind ?_ fun elapsed s h => ?_
  · cases (s'.handles.lookup (key, source)).bind (·.lastFlush) with
    | none => exact Runs.pure h
    | some lastFlush =>
      exact Ends.bind (Runs.zoom (Runs.clock hD fun _ => h)) fun _ _ h => Runs.pure h
  refine Runs.onlyIf (fun _ => ?_) fun _ => h
  refine Ends.bind (Runs.zoom (Runs.sync hD h h)) fun _ s h => ?_
  refine Ends.bind (Runs.zoom (Runs.clock hD fun _ => h)) fun now s h => ?_
  exact Runs.modify (hflush s now h)

/-! ## One call -/

/-- What a call can leave of the PCM bytes, the timeline text and the handle's flag, and whether
it then returned. -/
inductive Wrote (chunk : CaptureChunk) (valid : Bool) (pcm text : List UInt8) :
    Bool → List UInt8 → List UInt8 → Bool → Prop where
  /-- It failed before it touched the stream. -/
  | early : Wrote chunk valid pcm text false pcm text valid
  /-- It failed when some of the PCM was written. -/
  | cutPcm (kept : Nat) {text' : List UInt8} : Readied chunk.atUs valid pcm text text' →
    Wrote chunk valid pcm text false (pcm ++ chunk.data.take kept) text' false
  /-- It failed when the PCM and some of the row were written. -/
  | cutRow {us : Nat} (kept : Nat) {text' : List UInt8} : chunk.atUs = some us →
    Readied chunk.atUs valid pcm text text' →
    Wrote chunk valid pcm text false (pcm ++ chunk.data)
      (text' ++ (utf8 (timelineRow us chunk.data.length)).take kept) false
  /-- A chunk without a time is written. The flush after it may still fail. -/
  | untimed (returned : Bool) : chunk.atUs = none →
    Wrote chunk valid pcm text returned (pcm ++ chunk.data) text false
  /-- A chunk with a time is written, with its row. -/
  | timed (returned : Bool) {us : Nat} {text' : List UInt8} : chunk.atUs = some us →
    Readied chunk.atUs valid pcm text text' →
    Wrote chunk valid pcm text returned (pcm ++ chunk.data)
      (text' ++ utf8 (timelineRow us chunk.data.length)) true

/-- The stream after a call on it. -/
def After (key : SegmentKey) (source : AudioSource) (chunk : CaptureChunk) (valid : Bool)
    (pcm text : List UInt8) (returned : Bool) (s : LocalSegmentFs) : Prop :=
  ∃ pcm' text' valid', Wrote chunk valid pcm text returned pcm' text' valid' ∧
    Live key source pcm' text' valid' s

variable {chunk : CaptureChunk}

theorem Live.early (s : LocalSegmentFs)
    (h : Live key source pcm text valid s) : After key source chunk valid pcm text false s :=
  ⟨pcm, text, valid, .early, h⟩

/-- A call on an open stream leaves it in a way that `Wrote` lists. -/
theorem writeOpened_wrote (hD : D default) (chunk : CaptureChunk)
    (h : Running key source pcm text valid s) :
    Runs D s (writeOpened json key source chunk)
      (fun _ => After key source chunk valid pcm text true)
      (fun _ => After key source chunk valid pcm text false)
      (After key source chunk valid pcm text false) := by
  refine Runs.bind ((prepareTimeline_spec hD chunk.atUs h).loosen Live.early) ?_
  rintro _ s ⟨text', hready, h⟩
  refine Runs.bind (R := fun _ => Running key source pcm text' false)
    (Runs.modify (h.update fun _ _ => rfl)) fun _ s h => ?_
  have hcut : ∀ kept s, Live key source (pcm ++ chunk.data.take kept) text' false s →
      After key source chunk valid pcm text false s :=
    fun kept s h => ⟨_, _, _, .cutPcm kept hready, h⟩
  refine Runs.bind (R := fun _ => Running key source (pcm ++ chunk.data) text' false)
    (Runs.zoom (Runs.write hD (fun now => h.with_disk (h.opened.append_pcm _ now))
      fun kept now => hcut kept _ (h.with_disk (h.opened.append_pcm _ now)).live)) ?_
  intro _ s hwritten
  -- The flush decides only whether the call returns.
  have hflush : ∀ text'' valid'' s, (∀ returned, Wrote chunk valid pcm text returned
      (pcm ++ chunk.data) text'' valid'') →
      Running key source (pcm ++ chunk.data) text'' valid'' s →
      Runs D s (flushHandle key source) (fun _ => After key source chunk valid pcm text true)
        (fun _ => After key source chunk valid pcm text false)
        (After key source chunk valid pcm text false) := by
    intro text'' valid'' s hwrote h
    exact (flushHandle_keeps hD (fun _ now h => h.update fun _ hvalid => hvalid) h).mono
      (fun _ _ h => ⟨_, _, _, hwrote true, h.live⟩)
      (fun _ _ h => ⟨_, _, _, hwrote false, h.live⟩) fun _ h => ⟨_, _, _, hwrote false, h.live⟩
  cases hat : chunk.atUs with
  | none =>
    have hsame : text' = text := by
      rw [hat] at hready
      exact hready
    subst hsame
    exact Runs.bind (R := fun _ => Running key source (pcm ++ chunk.data) text' false)
      (Runs.pure hwritten) fun _ s h => hflush _ _ s (fun returned => .untimed returned hat) h
  | some us =>
    refine Runs.bind ((appendRow_spec hD chunk.data.length us hwritten).mono (fun _ _ h => h)
      (fun _ s ⟨kept, h⟩ => ⟨_, _, _, .cutRow kept hat hready, h⟩)
      fun s ⟨kept, h⟩ => ⟨_, _, _, .cutRow kept hat hready, h⟩) fun _ s h => ?_
    exact hflush _ _ s (fun returned => .timed returned hat hready) h

/-- One call leaves the stream in a way that `Wrote` lists. -/
theorem writeAudioChunk_wrote (hD : D default) {format : AudioFormat}
    (hformat : chunk.format = some format) (h : Live key source pcm text valid s) :
    Runs D s (writeAudioChunk json key source chunk)
      (fun _ => After key source chunk valid pcm text true)
      (fun _ => After key source chunk valid pcm text false)
      (After key source chunk valid pcm text false) := by
  -- Making the directory changes no file.
  refine Runs.bind (R := fun _ => Live key source pcm text valid)
    (Runs.zoom (Runs.createDir hD h.createDir (fun _ => h) h.early)) ?_
  intro _ s h
  rw [hformat]
  refine Runs.bind ((openStream_spec hD format h).loosen Live.early) ?_
  exact fun _ s h => writeOpened_wrote hD chunk h

end Handles

/-! ## The sidecar -/

section Sidecar

variable {D : Verdict → Prop} {json : SegmentJson} {key : SegmentKey} {source : AudioSource}
  {node : Option Node} {s : LocalSegmentFs}

/-- The sidecar of the stream. -/
def sidecarOf (key : SegmentKey) (source : AudioSource) (d : Disk Place) : Option Node :=
  node? d (.incomplete key.index) (sourceFmtFileName source)

variable {pcm text : List UInt8} {valid : Bool}

theorem sidecarOf_put (hne : sourceFmtFileName source ≠ name)
    (other : Node) :
    sidecarOf key source (put d (.incomplete key.index) name other) = sidecarOf key source d :=
  node?_put_ne fun heq => hne heq.2

theorem sidecarOf_append (hne : sourceFmtFileName source ≠ name)
    (bytes : List UInt8) (now : Nat) (h : sidecarOf key source d = node) :
    sidecarOf key source (append d (.incomplete key.index) name bytes now) = node :=
  append_keeps (I := fun d => sidecarOf key source d = node)
    (fun _ other h _ => (sidecarOf_put hne other).trans h) h bytes now

/-- Repairing a timeline does not touch the sidecar. -/
theorem reconcileAudioTimeline_sidecar (hD : D default) (pcmLen : Nat)
    (h : sidecarOf key source d = node) :
    Ends D d (reconcileAudioTimeline json (.incomplete key.index) source pcmLen)
      fun d => sidecarOf key source d = node := by
  refine reconcileAudioTimeline_spec hD rfl h (fun _ => h) fun _ =>
    ⟨fun d other h _ => ?_, fun _ d mtime h _ => ?_⟩
  · exact (sidecarOf_put (temp_ne_fmt source).symm other).trans h
  · rw [sidecarOf_put (fmt_ne_timeline source), sidecarOf, node?_del,
      if_neg fun heq => temp_ne_fmt source heq.2.symm]
    exact h

/-- Once the stream is open, a call does not touch the sidecar. -/
theorem writeOpened_sidecar (hD : D default) (chunk : CaptureChunk)
    (h : sidecarOf key source s.disk = node) :
    Ends D s (writeOpened json key source chunk)
      fun s => sidecarOf key source s.disk = node := by
  have hupdate : ∀ f (s : LocalSegmentFs), (s.updateHandle key source f).disk = s.disk := by
    intro f s
    unfold LocalSegmentFs.updateHandle
    split <;> rfl
  refine Ends.bind ?_ fun _ s h => ?_
  · cases chunk.atUs with
    | none => exact Runs.pure h
    | some us =>
      refine Ends.bind (Runs.get h) ?_
      intro s' s h
      cases s'.timelineValid key source with
      | true => exact Runs.pure h
      | false =>
        refine Ends.bind (Runs.zoom (Runs.metadata hD (fun _ _ => h) h)) fun pcm s h => ?_
        exact Runs.zoom (reconcileAudioTimeline_sidecar hD pcm.len h)
  refine Ends.bind (Runs.modify (by rwa [hupdate])) fun _ s h => ?_
  refine Ends.bind
    (Runs.zoom (Runs.write hD (fun now => sidecarOf_append (fmt_ne_pcm source) _ now h)
      fun kept now => sidecarOf_append (fmt_ne_pcm source) _ now h)) fun _ s h => ?_
  refine Ends.bind ?_ fun _ s h => ?_
  · cases chunk.atUs with
    | none => exact Runs.pure h
    | some us =>
      refine Ends.bind (Runs.zoom (Runs.openAppend hD (fun _ _ _ => h)
          (fun now _ _ => (sidecarOf_put (fmt_ne_timeline source) _).trans h)
          h)) fun _ s h => ?_
      refine Ends.bind
        (Runs.zoom (Runs.write hD (fun now => sidecarOf_append (fmt_ne_timeline source) _ now h)
          fun kept now => sidecarOf_append (fmt_ne_timeline source) _ now h)) fun _ s h => ?_
      exact Runs.modify (by rwa [hupdate])
  exact flushHandle_keeps hD (fun s now h => (hupdate _ s ▸ h :)) h

/-- The sidecar on a disk when a call with this format found the sidecar `node`. -/
def SidecarAfter (json : SegmentJson) (key : SegmentKey) (source : AudioSource)
    (format : AudioFormat) (node : Option Node) (d : Disk Place) : Prop :=
  (node ≠ none → sidecarOf key source d = node) ∧
    (node = none → ∃ mtime, sidecarOf key source d = some (.file (json.toVec format) mtime))

/-- Opening a stream keeps a sidecar that is there, and writes one if there is none. -/
theorem openStream_sidecar (format : AudioFormat)
    (h : Live key source pcm text valid s) :
    Runs Sighted s (openStream json key source (some format))
      (fun _ s' => SidecarAfter json key source format (sidecarOf key source s.disk) s'.disk)
      (fun _ _ => True) fun _ => True := by
  refine Runs.get_bind ?_
  cases hhandle : s.handles.lookup (key, source) with
  | some handle =>
    -- A stream with a handle has PCM, and PCM comes with a sidecar.
    have hthere := h.onDisk.sidecar (h.there (by simp [hhandle]))
    exact Runs.pure ⟨fun _ => rfl, fun hnone => absurd hnone hthere⟩
  | none =>
    refine Runs.bind (R := fun _ s' => SidecarAfter json key source format
      (sidecarOf key source s.disk) s'.disk) ?_ fun _ s' h => ?_
    · refine Runs.zoom (Runs.bind (R := fun there d => s.disk = d ∧
        there = (sidecarOf key source s.disk).isSome) (probe_sighted ⟨rfl, rfl⟩ trivial) ?_)
      · rintro _ d ⟨rfl, rfl⟩
        cases hsidecar : sidecarOf key source s.disk with
        | some node => exact Runs.pure ⟨fun _ => hsidecar, by simp⟩
        | none =>
          refine (writeSynced_spec (I := fun _ => True) sighted_default (fun _ _ _ _ => trivial) _
            trivial).mono ?_ (fun _ _ _ => trivial) fun _ _ => trivial
          rintro _ d ⟨-, hwritten⟩
          exact ⟨fun hne => absurd rfl hne, fun _ => hwritten⟩
    refine Runs.bind (R := fun _ s' => SidecarAfter json key source format
      (sidecarOf key source s.disk) s'.disk)
      (Runs.zoom (Runs.openAppend sighted_default (fun _ _ _ => h) (fun _ _ _ => ?_)
        trivial)) fun _ _ h => Runs.modify h
    show SidecarAfter _ _ _ _ _ (put _ _ _ _)
    rw [SidecarAfter, sidecarOf_put (fmt_ne_pcm source)]
    exact h

/-- A call keeps a sidecar that is there, and leaves its chunk's format if there is none. -/
theorem writeAudioChunk_sidecar {chunk : CaptureChunk}
    {format : AudioFormat} (hformat : chunk.format = some format)
    (h : Live key source pcm text valid s) :
    Runs Sighted s (writeAudioChunk json key source chunk)
      (fun _ s' => SidecarAfter json key source format (sidecarOf key source s.disk) s'.disk)
      (fun _ _ => True) fun _ => True := by
  refine Runs.bind (R := fun _ s' => sidecarOf key source s'.disk = sidecarOf key source s.disk ∧
    Live key source pcm text valid s') ?_ fun _ s' h' => ?_
  · refine Runs.zoom (Runs.createDir sighted_default (fun hnone => ⟨?_, ?_⟩) (fun _ => ⟨rfl, h⟩)
      trivial)
    · simp [sidecarOf, node?, hnone]
    · exact h.createDir hnone
  · obtain ⟨hsame, h'⟩ := h'
    rw [hformat]
    refine Runs.bind (openStream_sidecar format h') fun _ s'' h'' => ?_
    rw [hsame] at h''
    refine (writeOpened_sidecar sighted_default chunk rfl).mono (fun _ s''' hkept => ?_)
      (fun _ _ _ => trivial) fun _ _ => trivial
    rw [SidecarAfter, hkept]
    exact h''

end Sidecar

end SolstoneWindows.Proofs.PlatformWin
