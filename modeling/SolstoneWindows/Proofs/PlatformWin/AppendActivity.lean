import Mathlib.Data.List.TakeDrop
import SolstoneWindows.PlatformWin.AppendActivity
import SolstoneWindows.Proofs.PlatformWin.SealAudio

/-!
# One append, and one seal

What a call of `append_activity` and a call of `finalize` leave of an activity file.

* `appendActivity_spec`: a call that returns leaves the committed bytes and the line; one that fails
  leaves the committed bytes with something after them, or the file as it was, or an empty file
  where there was none. Every other file is as it was.
* `finalizeLive_safe`: a seal only moves activity files: they are in the custody of `Merge`.

`Filed` says where the rows of one activity file are, and its lemmas what each call does to that.
-/

set_option autoImplicit false

namespace SolstoneWindows.Proofs.PlatformWin

open Lib.Effect Lib.Fs
open SolstoneWindows.PlatformWin
open ObserverAudio (Dsp)

/-! ## One append -/

/-- Every file but one is as it was. -/
def Apart (k : Place) (name : String) (d d' : Disk Place) : Prop :=
  ∀ k' m, ¬ (k' = k ∧ m = name) → node? d' k' m = node? d k' m

/-- Every other file is as it was, and this one has the committed bytes, with something after
them. -/
structure Kept (k : Place) (name : String) (committed : List UInt8) (d d' : Disk Place) : Prop where
  apart : Apart k name d d'
  file : ∃ junk mtime, node? d' k name = some (.file (committed ++ junk) mtime)

section Append

variable {k : Place} {name : String} {committed : List UInt8} {d d' : Disk Place}

theorem apart_refl (d : Disk Place) : Apart k name d d := fun _ _ _ => rfl

theorem Apart.put (h : Apart k name d d') (node : Node) : Apart k name d (put d' k name node) := by
  intro k' m hne
  rw [node?_put_ne hne]
  exact h k' m hne

/-- A new directory is empty. -/
theorem Apart.putDir (h : Apart k name d d') {k1 : Place} (hnone : d'.lookup k1 = none) :
    Apart k name d (putDir d' k1 ∅) ∧ node? (putDir d' k1 ∅) k name = node? d' k name := by
  have hsame : ∀ k' m, node? (Lib.Fs.putDir d' k1 ∅) k' m = node? d' k' m := by
    intro k' m
    by_cases hk : k' = k1
    · subst hk
      simp [node?, hnone]
    · simp [hk]
  exact ⟨fun k' m hne => (hsame k' m).trans (h k' m hne), hsame k name⟩

/-- Bytes that are put at the end are appended. -/
theorem overlay_end (committed bytes : List UInt8) :
    overlay committed committed.length bytes = committed ++ bytes := by
  unfold overlay
  rw [List.takeD_eq_take 0 (Nat.le_refl _), List.take_length,
    List.drop_eq_nil_of_le (Nat.le_add_right _ _), List.append_nil]

/-- Setting the file to the committed bytes, with anything after them. -/
theorem Kept.put (h : Kept k name committed d d') (junk : List UInt8) (now : Nat) :
    Kept k name committed d (put d' k name (.file (committed ++ junk) now)) ∧
      node? (Lib.Fs.put d' k name (.file (committed ++ junk) now)) k name =
        some (.file (committed ++ junk) now) := by
  obtain ⟨junk', mtime, hfile⟩ := h.file
  obtain ⟨dir, hdir, -⟩ := lookup_of_node? hfile
  have hnode : node? (Lib.Fs.put d' k name (.file (committed ++ junk) now)) k name =
      some (.file (committed ++ junk) now) := by
    rw [node?_put _ _ _ _ _ _ (by simp [hdir]), if_pos ⟨rfl, rfl⟩]
  exact ⟨⟨h.apart.put _, junk, now, hnode⟩, hnode⟩

theorem cutBack_spec (h : Kept k name committed d d') :
    Runs (fun _ => True) d' (cutBack k name committed.length)
      (fun _ d' => Kept k name committed d d' ∧ ∃ mtime, node? d' k name =
        some (.file committed mtime))
      (fun _ => Kept k name committed d) (Kept k name committed d) := by
  refine Runs.bind (R := fun _ d' => Kept k name committed d d' ∧ ∃ mtime, node? d' k name =
    some (.file committed mtime)) ?_ fun _ d' h => Runs.sync trivial h h.1
  refine Runs.setLen trivial (fun bytes mtime now hnode => ?_) h
  obtain ⟨junk, mtime', hfile⟩ := h.file
  rw [hnode] at hfile
  cases hfile
  rw [List.takeD_left]
  have hput := h.put [] now
  rw [List.append_nil] at hput
  exact ⟨hput.1, now, hput.2⟩

theorem takeBack_spec (e : FsError) (h : Kept k name committed d d')
    {Q : Unit → Disk Place → Prop} :
    Runs (fun _ => True) d' (takeBack k name committed.length e) Q
      (fun _ => Kept k name committed d) (Kept k name committed d) :=
  Runs.bind (cutBack_spec h) fun _ _ h => Runs.fail h.1

/-- A write to a file that holds the committed bytes and nothing else. -/
theorem writeLine_spec (line : List UInt8) (h : Kept k name committed d d')
    (hexact : ∃ mtime, node? d' k name = some (.file committed mtime)) :
    Runs (fun _ => True) d' (writeLine k name line committed.length)
      (fun _ d' => Kept k name committed d d' ∧ ∃ mtime, node? d' k name =
        some (.file (committed ++ line) mtime))
      (fun _ => Kept k name committed d) (Kept k name committed d) := by
  obtain ⟨mtime, hexact⟩ := hexact
  have hpatch : ∀ bytes now, patch d' k name committed.length bytes now =
      put d' k name (.file (committed ++ bytes) now) := by
    intro bytes now
    unfold patch
    rw [hexact]
    dsimp only
    rw [overlay_end]
  have hwrite : Runs (fun _ => True) d' (Prog.call (writeAt k name committed.length line))
      (fun _ d' => Kept k name committed d d' ∧ ∃ mtime, node? d' k name =
        some (.file (committed ++ line) mtime))
      (fun _ => Kept k name committed d) (Kept k name committed d) := by
    refine Runs.writeAt trivial (fun now => ?_) (fun kept now => ?_) fun kept now => ?_
    · rw [hpatch]
      exact ⟨(h.put line now).1, now, (h.put line now).2⟩
    · rw [hpatch]
      exact (h.put _ now).1
    · rw [hpatch]
      exact (h.put _ now).1
  refine Runs.bind (R := fun _ d1 => d' = d1) (Runs.sync trivial rfl h) fun _ d1 hd1 => ?_
  subst hd1
  refine Runs.attempt_bind hwrite (fun _ d1 h1 => ?_) (fun e _ h => takeBack_spec e h) fun _ h => h
  exact Runs.attempt_bind (Runs.sync trivial h1 h1.1) (fun _ _ h => Runs.pure h)
    (fun e _ h => takeBack_spec e h) fun _ h => h

/-- The bytes of a file, which are none when there is no file. -/
def Holds (node : Option Node) (bytes : List UInt8) : Prop :=
  node = none ∧ bytes = [] ∨ ∃ mtime, node = some (.file bytes mtime)

/-- What an append that failed leaves of its file. -/
inductive Torn (committedLen : Nat) (before after : Option Node) : Prop
  | same (hsame : after = before)
  | made (mtime : Nat) (hbefore : before = none) (hafter : after = some (.file [] mtime))
  | cut (bytes junk : List UInt8) (mtime : Nat) (hbefore : Holds before bytes)
    (hlen : committedLen ≤ bytes.length)
    (hafter : after = some (.file (bytes.take committedLen ++ junk) mtime))

/-- What an append that returned leaves of its file. -/
def Whole (committedLen : Nat) (line : List UInt8) (before after : Option Node) : Prop :=
  ∃ bytes mtime, Holds before bytes ∧ committedLen ≤ bytes.length ∧
    after = some (.file (bytes.take committedLen ++ line) mtime)

theorem Kept.torn {committedLen : Nat} {bytes : List UInt8}
    (h : Kept k name (bytes.take committedLen) d d') (hlen : committedLen ≤ bytes.length)
    {before : Option Node} (hbefore : Holds before bytes) :
    Apart k name d d' ∧ Torn committedLen before (node? d' k name) := by
  obtain ⟨junk, mtime, hfile⟩ := h.file
  exact ⟨h.apart, .cut bytes junk mtime hbefore hlen hfile⟩

/-- The file is open, and holds `bytes`. -/
theorem appendOpened_spec (line : List UInt8) (committedLen : Nat) {bytes : List UInt8}
    {mtime : Nat} {before : Option Node} (hapart : Apart k name d d')
    (hnode : node? d' k name = some (.file bytes mtime)) (hbefore : Holds before bytes)
    (hopen : Torn committedLen before (node? d' k name)) :
    Runs (fun _ => True) d' (appendOpened k name line committedLen)
      (fun _ d' => Apart k name d d' ∧ Whole committedLen line before (node? d' k name))
      (fun _ d' => Apart k name d d' ∧ Torn committedLen before (node? d' k name))
      fun d' => Apart k name d d' ∧ Torn committedLen before (node? d' k name) := by
  have hopen' := And.intro hapart hopen
  refine Runs.bind (R := fun node d1 => d' = d1 ∧ node = .file bytes mtime)
    (Runs.metadata trivial (fun node hfound => ⟨rfl, ?_⟩) hopen') ?_
  · rw [hnode] at hfound
    exact (Option.some.inj hfound).symm
  intro node d1 h1
  obtain ⟨rfl, rfl⟩ := h1
  show Runs _ d' (if bytes.length < committedLen then _ else _) _ _ _
  by_cases hshort : bytes.length < committedLen
  · rw [if_pos hshort]
    exact Runs.fail hopen'
  rw [if_neg hshort]
  have hlen : committedLen ≤ bytes.length := Nat.le_of_not_lt hshort
  have htake : (bytes.take committedLen).length = committedLen := by simp [hlen]
  have hkept : Kept k name (bytes.take committedLen) d d' :=
    ⟨hapart, bytes.drop committedLen, mtime, by rw [hnode, List.take_append_drop]⟩
  have htorn : ∀ d', Kept k name (bytes.take committedLen) d d' →
      Apart k name d d' ∧ Torn committedLen before (node? d' k name) :=
    fun _ h => h.torn hlen hbefore
  have hcut : Runs (fun _ => True) d'
      (Prog.onlyIf (committedLen < bytes.length) (cutBack k name committedLen))
      (fun _ d' => Kept k name (bytes.take committedLen) d d' ∧ ∃ mtime, node? d' k name =
        some (.file (bytes.take committedLen) mtime))
      (fun _ => Kept k name (bytes.take committedLen) d)
      (Kept k name (bytes.take committedLen) d) := by
    refine Runs.onlyIf (fun _ => ?_) fun hequal => ?_
    · have hspec := cutBack_spec hkept
      rw [htake] at hspec
      exact hspec
    · have hall : bytes.length ≤ committedLen := Nat.le_of_not_lt (of_decide_eq_false hequal)
      exact ⟨hkept, mtime, by rw [List.take_of_length_le hall, hnode]⟩
  refine Runs.bind (hcut.loosen htorn) fun _ d1 h1 => ?_
  have hline := writeLine_spec line h1.1 h1.2
  rw [htake] at hline
  refine hline.mono (fun _ d2 h2 => ?_) (fun _ => htorn) htorn
  obtain ⟨mtime', hwhole⟩ := h2.2
  exact ⟨h2.1.apart, bytes, mtime', hbefore, hlen, hwhole⟩

end Append

theorem isSealedOnly_spec {I : Disk Place → Prop} {d : Disk Place} (index : Nat) (hI : I d) :
    Ends (fun _ => True) d (isSealedOnly index) I := by
  refine Runs.bind (R := fun _ => I) (Runs.probe trivial hI (fun _ => hI) hI) fun there d hI => ?_
  cases there with
  | true => exact Runs.pure hI
  | false => exact Runs.probe trivial hI (fun _ => hI) hI

/-- One append, whatever its calls do. -/
theorem appendActivity_spec (d : Disk Place) (index : Nat) (name : String) (line : List UInt8)
    (committedLen : Nat) :
    Runs (fun _ => True) d (appendActivity index name line committedLen)
      (fun _ d' => Apart (.incomplete index) name d d' ∧
        Whole committedLen line (node? d (.incomplete index) name)
          (node? d' (.incomplete index) name))
      (fun _ d' => Apart (.incomplete index) name d d' ∧
        Torn committedLen (node? d (.incomplete index) name) (node? d' (.incomplete index) name))
      fun d' => Apart (.incomplete index) name d d' ∧
        Torn committedLen (node? d (.incomplete index) name)
          (node? d' (.incomplete index) name) := by
  -- until the file is open nothing happens to it
  have hsame : ∀ d', Apart (.incomplete index) name d d' ∧ node? d' (.incomplete index) name =
      node? d (.incomplete index) name → Apart (.incomplete index) name d d' ∧
      Torn committedLen (node? d (.incomplete index) name) (node? d' (.incomplete index) name) :=
    fun d' h => ⟨h.1, .same h.2⟩
  refine Runs.bind ((isSealedOnly_spec (I := fun d' => Apart (.incomplete index) name d d' ∧
    node? d' (.incomplete index) name = node? d (.incomplete index) name) index
    ⟨apart_refl d, rfl⟩).loosen hsame) fun sealedOnly d1 h1 => ?_
  cases sealedOnly with
  | true => exact Runs.fail (hsame d1 h1)
  | false =>
    refine Runs.bind (R := fun _ d' => Apart (.incomplete index) name d d' ∧
      node? d' (.incomplete index) name = node? d (.incomplete index) name)
      (Runs.createDir trivial (fun hnone => ?_) (fun _ => h1) (hsame d1 h1))
      fun _ d2 h2 => ?_
    · obtain ⟨hapart, hnode⟩ := h1.1.putDir hnone
      exact ⟨hapart, hnode.trans h1.2⟩
    refine Runs.bind (R := fun _ d' => Apart (.incomplete index) name d d' ∧
      ∃ bytes mtime, node? d' (.incomplete index) name = some (.file bytes mtime) ∧
        Holds (node? d (.incomplete index) name) bytes ∧
        Torn committedLen (node? d (.incomplete index) name) (node? d' (.incomplete index) name))
      (Runs.openAppend trivial (fun bytes mtime hnode => ?_) (fun now hdir hnone => ?_)
        (hsame d2 h2)) fun _ d3 h3 => ?_
    · exact ⟨h2.1, bytes, mtime, hnode, .inr ⟨mtime, by rw [← h2.2, hnode]⟩, .same h2.2⟩
    · have hnode : node? (put d2 (.incomplete index) name (.file [] now)) (.incomplete index) name =
          some (.file [] now) := by simp [hdir]
      have hbefore : node? d (.incomplete index) name = none := by rw [← h2.2, hnone]
      exact ⟨h2.1.put _, [], now, hnode, .inl ⟨hbefore, rfl⟩, .made now hbefore hnode⟩
    · obtain ⟨hapart, bytes, mtime, hnode, hbefore, htorn⟩ := h3
      exact appendOpened_spec line committedLen hapart hnode hbefore htorn

/-! ## One seal -/

/-- The activity files. -/
def IsActivity (name : String) : Prop := isActivityName name = true

instance (name : String) : Decidable (IsActivity name) :=
  inferInstanceAs (Decidable (isActivityName name = true))

theorem payload_of_isActivity (m : String) (h : IsActivity m) : Payload m := by
  have hne : ∀ name, isActivityName name = false → m ≠ name := by
    intro name hname heq
    subst heq
    rw [IsActivity, hname] at h
    cases h
  refine ⟨?_, hne _ (by decide)⟩
  unfold isPayload
  rw [Bool.and_eq_true, Bool.and_eq_true, bne_iff_ne, bne_iff_ne, bne_iff_ne]
  exact ⟨⟨hne _ (by decide), hne _ (by decide)⟩, hne _ (by decide)⟩

/-- A seal loses no activity file, and changes none. -/
theorem finalizeLive_safe {S : Type} (json : SegmentJson) (dsp : Dsp S)
    (lenSecs : Option (List UInt8) → Bool → Nat) (n : Nat) (d : Disk Place) :
    Ends Sighted d (finalizeLive json dsp lenSecs n) (Safe IsActivity n d) := by
  have hstart : Safe IsActivity n d d := (held_refl IsActivity n d).safe
  refine Runs.bind (sealAudioFlac_custody (fun _ f _ => by cases f.source <;> decide)
    (by decide) (by decide) hstart) fun _ d1 h1 => ?_
  refine Runs.bind (persistSealLen_keeps lenSecs
    (fun _ _ h _ => h.put_incomplete (by decide)) h1) fun _ d2 h2 => ?_
  exact sealOrMerge_custody payload_of_isActivity DEFAULT_SEGMENT_SECS h2

/-! ## Where the rows of a file are -/

/-- There is nothing under the name, or nothing in it. -/
def Blank (d : Disk Place) (k : Place) (name : String) : Prop :=
  ∀ node, node? d k name = some node → node.len = 0

/-- Where the rows of one activity file of a segment are. `clean` is when none of its rows is
queued, and `new` when the segment had no file of that name at first. -/
inductive Filed (d : Disk Place) (index : Nat) (name : String) (stored : List UInt8)
    (clean new : Prop) : Prop
  /-- No row is stored. -/
  | unwritten (hstored : stored = [])
    (halone : new → Blank d (.incomplete index) name ∧ Blank d (.sealed index) name)
  /-- The file can still be appended to. After the rows there may be part of a queued one. -/
  | live (junk : List UInt8) (mtime : Nat)
    (hnode : node? d (.incomplete index) name = some (.file (stored ++ junk) mtime))
    (hjunk : clean → junk = []) (halone : new → Blank d (.sealed index) name)
  /-- The file was sealed. -/
  | sealed (mtime : Nat) (hnode : node? d (.sealed index) name = some (.file stored mtime))
    (hstored : stored ≠ []) (hblank : Blank d (.incomplete index) name)
  /-- The file was set aside with its directory. -/
  | aside (q : String) (mtime : Nat)
    (hnode : node? d (.quarantine q) name = some (.file stored mtime)) (hstored : stored ≠ [])
    (hblank : Blank d (.incomplete index) name) (halone : new → Blank d (.sealed index) name)

section Filed

variable {d d' : Disk Place} {index : Nat} {name : String} {stored line : List UInt8}
  {clean clean' new : Prop}

theorem blank_congr {k k' : Place} (h : node? d' k' name = node? d k name) (hb : Blank d k name) :
    Blank d' k' name := by
  intro node hnode
  rw [h] at hnode
  exact hb node hnode

theorem blank_of_none {k : Place} (h : node? d k name = none) : Blank d k name := by
  intro node hnode
  rw [h] at hnode
  cases hnode

/-- Nothing happened to the file, in any of its places. -/
theorem Filed.congr (h : Filed d index name stored clean new) (hclean : clean' → clean)
    (hincomplete : node? d' (.incomplete index) name = node? d (.incomplete index) name)
    (hsealed : node? d' (.sealed index) name = node? d (.sealed index) name)
    (haside : ∀ q node, node? d (.quarantine q) name = some node →
      node? d' (.quarantine q) name = some node) : Filed d' index name stored clean' new := by
  cases h with
  | unwritten hstored halone =>
    exact .unwritten hstored fun hnew =>
      ⟨blank_congr hincomplete (halone hnew).1, blank_congr hsealed (halone hnew).2⟩
  | live junk mtime hnode hjunk halone =>
    exact .live junk mtime (hincomplete.trans hnode) (fun hc => hjunk (hclean hc))
      fun hnew => blank_congr hsealed (halone hnew)
  | sealed mtime hnode hstored hblank =>
    exact .sealed mtime (hsealed.trans hnode) hstored (blank_congr hincomplete hblank)
  | aside q mtime hnode hstored hblank halone =>
    exact .aside q mtime (haside q _ hnode) hstored (blank_congr hincomplete hblank)
      fun hnew => blank_congr hsealed (halone hnew)

/-- A file with nothing in it is too short for a row that comes after others. -/
theorem Blank.short {k : Place} {bytes : List UInt8} (hb : Blank d k name)
    (hholds : Holds (node? d k name) bytes) (hlen : stored.length ≤ bytes.length) :
    stored = [] := by
  have hzero : bytes.length = 0 := by
    rcases hholds with ⟨_, hbytes⟩ | ⟨mtime, hnode⟩
    · rw [hbytes]
      rfl
    · exact hb _ hnode
  exact List.eq_nil_of_length_eq_zero (by omega)

theorem Holds.unique {node : Option Node} {bytes bytes' : List UInt8} {mtime : Nat}
    (h : Holds node bytes) (hnode : node = some (.file bytes' mtime)) : bytes = bytes' := by
  rcases h with ⟨hnone, _⟩ | ⟨mtime', hnode'⟩
  · rw [hnone] at hnode
    cases hnode
  · rw [hnode] at hnode'
    cases hnode'
    rfl

/-- What a file that can take a row starts with is what was stored in it. -/
theorem Filed.take_eq {bytes : List UInt8} (h : Filed d index name stored clean new)
    (hholds : Holds (node? d (.incomplete index) name) bytes)
    (hlen : stored.length ≤ bytes.length) :
    (new → Blank d (.sealed index) name) ∧ bytes.take stored.length = stored := by
  cases h with
  | unwritten hstored halone =>
    rw [hstored]
    exact ⟨fun hnew => (halone hnew).2, rfl⟩
  | live junk mtime hnode _ halone =>
    rw [hholds.unique hnode, List.take_left]
    exact ⟨halone, rfl⟩
  | sealed _ _ hstored hblank | aside _ _ _ hstored hblank _ =>
    exact absurd (hblank.short hholds hlen) hstored

/-- The next row of the file is stored. -/
theorem Filed.append (h : Filed d index name stored clean new)
    (hapart : Apart (.incomplete index) name d d')
    (hwhole : Whole stored.length line (node? d (.incomplete index) name)
      (node? d' (.incomplete index) name)) :
    Filed d' index name (stored ++ line) clean' new := by
  obtain ⟨bytes, mtime, hholds, hlen, hafter⟩ := hwhole
  have hsealed : node? d' (.sealed index) name = node? d (.sealed index) name :=
    hapart _ _ (by simp)
  obtain ⟨halone, htake⟩ := h.take_eq hholds hlen
  rw [htake] at hafter
  refine .live [] mtime ?_ (fun _ => rfl) fun hnew => blank_congr hsealed (halone hnew)
  rw [hafter, List.append_nil]

/-- The next row of the file is not stored, and stays queued. -/
theorem Filed.tear (h : Filed d index name stored clean new) (hdirty : ¬ clean')
    (hapart : Apart (.incomplete index) name d d')
    (htorn : Torn stored.length (node? d (.incomplete index) name)
      (node? d' (.incomplete index) name)) :
    Filed d' index name stored clean' new := by
  have hsealed : node? d' (.sealed index) name = node? d (.sealed index) name :=
    hapart _ _ (by simp)
  have haside : ∀ q, node? d' (.quarantine q) name = node? d (.quarantine q) name :=
    fun q => hapart _ _ (by simp)
  cases htorn with
  | same hsame =>
    exact h.congr (fun hc => absurd hc hdirty) hsame hsealed
      fun q _ hnode => (haside q).trans hnode
  | made mtime hbefore hafter =>
    have hblank' : Blank d' (.incomplete index) name := by
      intro node hnode
      rw [hafter] at hnode
      cases hnode
      rfl
    cases h with
    | unwritten hstored halone =>
      exact .unwritten hstored fun hnew => ⟨hblank', blank_congr hsealed (halone hnew).2⟩
    | live _ _ hnode _ _ =>
      rw [hbefore] at hnode
      cases hnode
    | sealed mtime hnode hstored _ =>
      exact .sealed mtime (hsealed.trans hnode) hstored hblank'
    | aside q mtime hnode hstored _ halone =>
      exact .aside q mtime ((haside q).trans hnode) hstored hblank'
        fun hnew => blank_congr hsealed (halone hnew)
  | cut bytes junk mtime hholds hlen hafter =>
    obtain ⟨halone, htake⟩ := h.take_eq hholds hlen
    rw [htake] at hafter
    exact .live junk mtime hafter (fun hc => absurd hc hdirty)
      fun hnew => blank_congr hsealed (halone hnew)

section

variable {P : String → Prop} {n : Nat} {rest : Option Place} (h : Custody P n d d' rest)

include h

/-- A set-aside directory that is there is not the one that comes in. -/
theorem Custody.quarantined {q : String} {node : Node}
    (hnode : node? d (.quarantine q) name = some node) :
    node? d' (.quarantine q) name = some node := by
  obtain ⟨dir, hdir, hentry⟩ := lookup_of_node? hnode
  have hrest : rest ≠ some (.quarantine q) := by
    intro heq
    rcases h.place with hplace | ⟨-, hfresh⟩
    · rw [heq] at hplace
      cases hplace
    · obtain ⟨q', hq', hnone⟩ := hfresh _ heq
      rw [hdir] at hnone
      cases hnone
  have hdir' : d'.lookup (.quarantine q) = some dir :=
    (h.others _ (by simp) (by simp) hrest).trans hdir
  rw [node?_of_lookup hdir']
  exact hentry

/-- What is left in the incoming directory was there. -/
theorem Custody.incoming (hm : P name) : node? d' (.incomplete n) name = none ∨
      rest = some (.incomplete n) ∧
        node? d' (.incomplete n) name = node? d (.incomplete n) name := by
  rcases h.place with rfl | ⟨habsent, -⟩
  · rcases h.split name hm with ⟨hsame, -⟩ | ⟨-, -, hnone, -⟩
    · exact .inr ⟨rfl, hsame⟩
    · exact .inl hnone
  · left
    simp [node?, habsent]

end

/-- A seal of another segment. -/
theorem Filed.seal_other (h : Filed d index name stored clean new) {n : Nat} (hne : n ≠ index)
    (hsafe : Safe IsActivity n d d') : Filed d' index name stored clean new := by
  obtain ⟨rest, hcustody⟩ := hsafe
  have hrest : ∀ k, k = .incomplete index ∨ k = .sealed index → rest ≠ some k := by
    intro k hk heq
    rcases hcustody.place with hplace | ⟨-, hfresh⟩
    · rw [heq] at hplace
      rcases hk with rfl | rfl
      · cases hplace
        exact hne rfl
      · cases hplace
    · obtain ⟨q, rfl, -⟩ := hfresh k heq
      rcases hk with hk | hk <;> cases hk
  have hlookup : ∀ k, k = .incomplete index ∨ k = .sealed index →
      node? d' k name = node? d k name := by
    intro k hk
    have hsame := hcustody.others k (by rcases hk with rfl | rfl <;> simp [Ne.symm hne])
      (by rcases hk with rfl | rfl <;> simp [Ne.symm hne]) (hrest k hk)
    simp [node?, hsame]
  exact h.congr id (hlookup _ (.inl rfl)) (hlookup _ (.inr rfl)) fun q _ => hcustody.quarantined

/-- A seal of the segment itself, with none of the file's rows queued. -/
theorem Filed.seal (h : Filed d index name stored clean new) (hclean : clean)
    (hname : IsActivity name) (hsafe : Safe IsActivity index d d') :
    Filed d' index name stored clean new := by
  obtain ⟨rest, hcustody⟩ := hsafe
  have hsplit := hcustody.split name hname
  have hblank : Blank d (.incomplete index) name → Blank d' (.incomplete index) name := by
    intro hb
    rcases hcustody.incoming hname with hnone | ⟨-, hsame⟩
    · exact blank_of_none hnone
    · exact blank_congr hsame hb
  -- what the sealed directory has now was there, or came in
  have hsealed : Blank d (.incomplete index) name → Blank d (.sealed index) name →
      Blank d' (.sealed index) name := by
    intro hi hs
    rcases hsplit with ⟨-, hsame⟩ | ⟨-, -, -, hmoved⟩
    · exact blank_congr hsame hs
    · exact blank_congr hmoved hi
  cases h with
  | unwritten hstored halone =>
    exact .unwritten hstored fun hnew =>
      ⟨hblank (halone hnew).1, hsealed (halone hnew).1 (halone hnew).2⟩
  | sealed mtime hnode hstored hb =>
    rcases hsplit with ⟨-, hsame⟩ | ⟨-, hfree, -, -⟩
    · exact .sealed mtime (hsame.trans hnode) hstored (hblank hb)
    · rw [hnode] at hfree
      cases hfree
  | aside q mtime hnode hstored hb halone =>
    exact .aside q mtime (hcustody.quarantined hnode) hstored (hblank hb)
      fun hnew => hsealed hb (halone hnew)
  | live junk mtime hnode hjunk halone =>
    rw [hjunk hclean, List.append_nil] at hnode
    by_cases hstored : stored = []
    · -- an empty file is as good as none
      have hb : Blank d (.incomplete index) name := by
        intro node hnode'
        rw [hnode] at hnode'
        cases hnode'
        rw [hstored]
        rfl
      exact .unwritten hstored fun hnew => ⟨hblank hb, hsealed hb (halone hnew)⟩
    rcases hsplit with ⟨hrest, hsame⟩ | ⟨-, -, hgone, hmoved⟩
    · obtain ⟨k, hk, hnode'⟩ := Option.bind_eq_some_iff.mp (hrest.trans hnode)
      rcases hcustody.place with hplace | ⟨habsent, hfresh⟩
      · rw [hk] at hplace
        cases hplace
        refine .live [] mtime ?_ (fun _ => rfl) fun hnew => blank_congr hsame (halone hnew)
        rw [hnode', List.append_nil]
      · obtain ⟨q, rfl, -⟩ := hfresh k hk
        exact .aside q mtime hnode' hstored (blank_of_none (by simp [node?, habsent]))
          fun hnew => blank_congr hsame (halone hnew)
    · refine .sealed mtime (hmoved.trans hnode) hstored ?_
      rcases hcustody.incoming hname with hnone | ⟨hplace, hsame⟩
      · exact blank_of_none hnone
      · rw [hplace] at hgone
        exact blank_of_none hgone

end Filed

end SolstoneWindows.Proofs.PlatformWin
