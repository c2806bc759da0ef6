import SolstoneWindows.PlatformWin.Seal

/-!
# A merge loses no payload

`sealOrMerge` moves the files of an incomplete directory one by one, and any call on the way
can fail or be where the process stops. `Custody` is what every disk on the way satisfies,
relative to the disk the first attempt found: each payload name is where it was, or has moved
from the incoming directory to a name that was free in the sealed one; and the incoming
directory is in its place, in quarantine under a fresh name, or gone.

`sealOrMerge_custody` is the step lemma: one attempt keeps `Custody`, however it ends.
`sealOrMerge_accounts` is the result over any number of attempts: every payload of the
incoming directory is in exactly one place, and every payload of the sealed directory is still
there, with the same bytes.

The payload here is every name but the sidecars `.len`, `.uploaded` and `.uploaded.tmp` and
the scratch name `.len.tmp`. A merge that brings new activity rewrites `.len`
(`sealOrMerge_rewrites_len`), through that scratch name. The probes are assumed to see what is
there: a rename replaces a file that its probe missed.
-/

set_option autoImplicit false

namespace SolstoneWindows.Proofs.PlatformWin

open Lib.Effect Lib.Fs
open SolstoneWindows.PlatformWin

/-! ## Programs that touch one name -/

/-- The environment lets probes see. Everything else may fail or stop. -/
def Sighted (v : Verdict) : Prop := v.blind = false

instance (v : Verdict) : Decidable (Sighted v) := inferInstanceAs (Decidable (v.blind = false))

theorem sighted_default : Sighted default := rfl

/-- A probe that sees answers the truth. -/
theorem probe_sighted {κ : Type} {disk : Disk κ} {truth : Disk κ → Bool}
    {Q : Bool → Disk κ → Prop} {E : FsError → Disk κ → Prop} {C : Disk κ → Prop}
    (hsees : Q (truth disk) disk) (hstop : C disk) :
    Runs Sighted disk (Prog.call (probe truth)) Q E C :=
  Runs.probe_lands sighted_default (fun _ hv => hv) hsees fun _ => hstop

section OneName

variable {D : Verdict → Prop} {I : Disk Place → Prop} {disk : Disk Place} {k : Place}
  {name : String}

/-- A write at the end of a file is a `put`, or nothing. -/
theorem append_keeps
    (hput : ∀ disk node, I disk → (disk.lookup k).isSome → I (put disk k name node))
    (hI : I disk) (bytes : List UInt8) (now : Nat) : I (append disk k name bytes now) := by
  unfold append
  cases hnode : node? disk k name with
  | none => exact hI
  | some node =>
    obtain ⟨dir, hdir, -⟩ := lookup_of_node? hnode
    cases node with
    | folder id => exact hI
    | file old mtime => exact hput disk _ hI (by simp [hdir])

/-- Writing a file keeps what every node under its name keeps, and leaves the file with its
bytes if it returns. -/
theorem writeSynced_spec (hD : D default)
    (hput : ∀ disk node, I disk → (disk.lookup k).isSome → I (put disk k name node))
    (bytes : List UInt8) (hI : I disk) :
    Runs D disk (writeSynced k name bytes)
      (fun _ disk => I disk ∧ ∃ mtime, node? disk k name = some (.file bytes mtime))
      (fun _ => I) I := by
  refine Runs.bind (R := fun _ disk => I disk ∧ (disk.lookup k).isSome ∧
    ∃ mtime, node? disk k name = some (.file [] mtime)) ?_ fun _ disk hI => ?_
  · refine Runs.create hD (fun now hdir => ⟨hput disk _ hI hdir, ?_, now, ?_⟩) hI
    · simpa using hdir
    · simp [hdir]
  obtain ⟨hI, hdir, mtime, hnode⟩ := hI
  refine Runs.bind (R := fun _ disk => I disk ∧ ∃ mtime, node? disk k name =
    some (.file bytes mtime)) ?_ fun _ disk hI => Runs.sync hD hI hI.1
  refine Runs.write hD (fun now => ⟨append_keeps hput hI bytes now, now, ?_⟩)
    fun kept => append_keeps hput hI (bytes.take kept)
  simp [append, hnode, hdir]

/-- Writing a file keeps what every node under its name keeps. -/
theorem writeSynced_keeps (hD : D default)
    (hput : ∀ disk node, I disk → (disk.lookup k).isSome → I (put disk k name node))
    (bytes : List UInt8) (hI : I disk) :
    Ends D disk (writeSynced k name bytes) I :=
  (writeSynced_spec hD hput bytes hI).weaken fun _ _ h => h.1

/-- Removing a file keeps what taking its name out keeps. -/
theorem removeIfExists_keeps (hD : D default) (hdel : ∀ disk, I disk → I (del disk k name))
    (hI : I disk) :
    Ends D disk (removeIfExists k name) I := by
  refine Runs.attempt_bind (Runs.removeFile hD (fun _ _ _ => hdel disk hI) hI)
    (fun _ _ h => Runs.pure h) (fun e _ h => ?_) fun _ h => h
  cases e with
  | notFound => exact Runs.pure h
  | failed | invalid _ => exact Runs.fail h

/-- Reading a file changes nothing. -/
theorem readIfExists_keeps (hD : D default) (hI : I disk) :
    Ends D disk (readIfExists k name) I := by
  refine Runs.attempt_bind (Runs.read hD (fun _ _ _ => hI) hI) (fun _ _ h => Runs.pure h)
    (fun e _ h => ?_) fun _ h => h
  cases e with
  | notFound => exact Runs.pure h
  | failed | invalid _ => exact Runs.fail h

/-- Dropping an entry keeps what taking its name out keeps. -/
theorem dropEntry_keeps (hD : D default) (hdel : ∀ disk, I disk → I (del disk k name))
    (hI : I disk) : Ends D disk (dropEntry k name) I := by
  refine Ends.bind (Runs.probe hD hI (fun _ => hI) hI) fun isDir disk hI => ?_
  cases isDir with
  | true => exact Runs.removeFolder hD (fun _ _ => hdel disk hI) hI
  | false => exact Runs.removeFile hD (fun _ _ _ => hdel disk hI) hI

end OneName

/-! ## Custody -/

/-- A name whose file a merge must not lose: a payload name that is not the scratch name of
the length sidecar. -/
def Payload (name : String) : Prop := isPayload name = true ∧ name ≠ LEN_TEMP_NAME

/-- Where one payload name is, with `i` under the incoming directory and `s` under the sealed
one: where `i0` and `s0` say it was, or moved to the free name. -/
def Split (i0 s0 i s : Option Node) : Prop :=
  (i = i0 ∧ s = s0) ∨ (i0 ≠ none ∧ s0 = none ∧ i = none ∧ s = i0)

/-- The disk `d` accounts for the names `P` of the disk `d0`, with the incoming directory of
segment `n` now at `rest`. -/
structure Custody (P : String → Prop) (n : Nat) (d0 d : Disk Place)
    (rest : Option Place) : Prop where
  /-- Each of the names is where it was, or has moved to the sealed directory. -/
  split : ∀ m, P m → Split (node? d0 (.incomplete n) m) (node? d0 (.sealed n) m)
    (rest.bind (node? d · m)) (node? d (.sealed n) m)
  /-- The incoming directory is in place, set aside under a fresh name, or gone. -/
  place : rest = some (.incomplete n) ∨ (d.lookup (.incomplete n) = none ∧
      ∀ k, rest = some k → ∃ q, k = .quarantine q ∧ d0.lookup k = none)
  /-- Every other directory is as it was. -/
  others : ∀ k, k ≠ .sealed n → k ≠ .incomplete n → rest ≠ some k → d.lookup k = d0.lookup k

/-- A disk that accounts for the names, wherever the incoming directory is. -/
def Safe (P : String → Prop) (n : Nat) (d0 d : Disk Place) : Prop :=
  ∃ rest, Custody P n d0 d rest

/-- A disk that accounts for the names, with the incoming directory in its place. -/
def Held (P : String → Prop) (n : Nat) (d0 d : Disk Place) : Prop :=
  Custody P n d0 d (some (.incomplete n))

variable {node : Node}

section Custody

variable {P : String → Prop} {n : Nat} {d0 d d' : Disk Place}

/-- The first attempt starts in custody. -/
theorem held_refl (P : String → Prop) (n : Nat) (d : Disk Place) : Held P n d d :=
  ⟨fun _ _ => .inl ⟨rfl, rfl⟩, .inl rfl, fun _ _ _ _ => rfl⟩

theorem Held.safe (h : Held P n d0 d) : Safe P n d0 d := ⟨_, h⟩

/-- A change that leaves the tracked names of both directories alone keeps custody. -/
theorem Held.of_agree (h : Held P n d0 d)
    (hinc : ∀ m, P m → node? d' (.incomplete n) m = node? d (.incomplete n) m)
    (hsealed : ∀ m, P m → node? d' (.sealed n) m = node? d (.sealed n) m)
    (hothers : ∀ k, k ≠ .sealed n → k ≠ .incomplete n → d'.lookup k = d.lookup k) :
    Held P n d0 d' := by
  refine ⟨fun m hm => ?_, .inl rfl, fun k hs hi hr => ?_⟩
  · have hsplit := h.split m hm
    simp only [Option.bind_some] at hsplit ⊢
    rw [hinc m hm, hsealed m hm]
    exact hsplit
  · rw [hothers k hs hi]
    exact h.others k hs hi hr

variable {name : String} {dir : Dir}

/-- Setting a name that is not tracked in the sealed directory keeps custody. -/
theorem Held.put_sealed (hname : ¬ P name)
    (h : Held P n d0 d) (hdir : (d.lookup (.sealed n)).isSome) :
    Held P n d0 (put d (.sealed n) name node) := by
  refine h.of_agree (fun m _ => by simp [hdir]) (fun m hm => ?_) fun k hs _ => by simp [hs]
  have hne : m ≠ name := fun heq => hname (heq ▸ hm)
  simp [hdir, hne]

/-- Taking a name that is not tracked out of either directory keeps custody. -/
theorem Held.del {k : Place} (hk : k = .sealed n ∨ k = .incomplete n)
    (hname : ¬ P name) (h : Held P n d0 d) : Held P n d0 (del d k name) := by
  have hne : ∀ m, P m → m ≠ name := fun m hm heq => hname (heq ▸ hm)
  refine h.of_agree (fun m hm => by simp [hne m hm]) (fun m hm => by simp [hne m hm]) ?_
  intro k' hs hi
  rcases hk with rfl | rfl
  · simp [hs]
  · simp [hi]

/-- Moving a name to the sealed directory, where it is free, keeps custody. -/
theorem Held.move (h : Held P n d0 d)
    (hnode : node? d (.incomplete n) name = some node) (hfree : node? d (.sealed n) name = none)
    (hdir : (d.lookup (.sealed n)).isSome) :
    Held P n d0 (put (Lib.Fs.del d (.incomplete n) name) (.sealed n) name node) := by
  have hdir' : ((Lib.Fs.del d (.incomplete n) name).lookup (.sealed n)).isSome := by
    simpa using hdir
  refine ⟨fun m hm => ?_, .inl rfl, fun k hs hi hr => ?_⟩
  · have hsplit := h.split m hm
    simp only [Option.bind_some] at hsplit ⊢
    by_cases heq : m = name
    · subst heq
      -- The name was where it started: nothing else leaves it free in the sealed directory.
      rcases hsplit with ⟨hi, hs⟩ | ⟨hi, -, -, hs⟩
      · refine .inr ⟨by simp [← hi, hnode], by rw [← hs, hfree], by simp [hdir], ?_⟩
        rw [node?_put _ _ _ _ _ _ hdir', ← hi, hnode]
        simp
      · exact absurd (hs.symm.trans hfree) hi
    · simpa [hdir, heq] using hsplit
  · simpa [hs, hi] using h.others k hs hi hr

/-- The whole incoming directory moves to a sealed name that is free. -/
theorem Held.renameDir_sealed (h : Held P n d0 d)
    (hdir : d.lookup (.incomplete n) = some dir) (hfree : d.lookup (.sealed n) = none) :
    Safe P n d0 (putDir (delDir d (.incomplete n)) (.sealed n) dir) := by
  refine ⟨none, fun m hm => ?_, .inr ⟨by simp, by simp⟩, fun k hs hi _ => ?_⟩
  · have hsplit := h.split m hm
    have hnone : node? d (.sealed n) m = none := by simp [node?, hfree]
    simp only [Option.bind_some, hnone, node?_of_lookup hdir] at hsplit
    simp only [Option.bind_none, node?_putDir, if_true]
    rcases hsplit with ⟨hi, hs⟩ | ⟨hi, -, -, hs⟩
    · rw [hi]
      cases hi0 : node? d0 (.incomplete n) m with
      | none => exact .inl ⟨rfl, hs⟩
      | some node => exact .inr ⟨by simp, hs.symm, rfl, rfl⟩
    · exact absurd hs.symm hi
  · simpa [hs, hi] using h.others k hs hi (by simp [hi, eq_comm])

/-- The incoming directory is set aside under a name that is free. -/
theorem Held.renameDir_quarantine {q : String} (h : Held P n d0 d)
    (hdir : d.lookup (.incomplete n) = some dir) (hfree : d.lookup (.quarantine q) = none) :
    Safe P n d0 (putDir (delDir d (.incomplete n)) (.quarantine q) dir) := by
  have hfresh : d0.lookup (.quarantine q) = none := by
    rw [← h.others _ (by simp) (by simp) (by simp), hfree]
  refine ⟨some (.quarantine q), fun m hm => ?_, .inr ⟨by simp, ?_⟩, fun k hs hi hr => ?_⟩
  · simpa [node?_of_lookup hdir] using h.split m hm
  · rintro k ⟨⟩
    exact ⟨q, rfl, hfresh⟩
  · have hne : k ≠ .quarantine q := fun heq => hr (heq ▸ rfl)
    simpa [hs, hi, hne] using h.others k hs hi (by simp [hi, eq_comm])

/-- The incoming directory, moved empty, is removed. -/
theorem Held.removeDir (h : Held P n d0 d)
    (hdir : d.lookup (.incomplete n) = some dir) (hempty : dir.entries = []) :
    Safe P n d0 (delDir d (.incomplete n)) := by
  have hnone : ∀ m, node? d (.incomplete n) m = none := by
    intro m
    rw [node?_of_lookup hdir, AList.lookup, hempty]
    rfl
  refine ⟨none, fun m hm => ?_, .inr ⟨by simp, by simp⟩, fun k hs hi _ => ?_⟩
  · simpa [hnone] using h.split m hm
  · simpa [hi] using h.others k hs hi (by simp [hi, eq_comm])

/-- A name that is not tracked can be set in the incoming directory, wherever that is. -/
theorem Safe.put_incomplete (hname : ¬ P name)
    (h : Safe P n d0 d) : Safe P n d0 (put d (.incomplete n) name node) := by
  obtain ⟨rest, hcust⟩ := h
  rcases hcust.place with rfl | ⟨habsent, -⟩
  · cases hdir : d.lookup (.incomplete n) with
    | none =>
      have hsame : put d (.incomplete n) name node = d := by simp [put, hdir]
      rw [hsame]
      exact ⟨_, hcust⟩
    | some dir =>
      refine (Held.of_agree hcust (fun m hm => ?_) (fun m _ => by simp [hdir])
        fun k _ hi => by simp [hi]).safe
      have hne : m ≠ name := fun heq => hname (heq ▸ hm)
      simp [hdir, hne]
  · have hsame : put d (.incomplete n) name node = d := by simp [put, habsent]
    rw [hsame]
    exact ⟨_, hcust⟩

/-- A name that is not tracked can be taken out of the incoming directory, wherever that is. -/
theorem Safe.del_incomplete (hname : ¬ P name) (h : Safe P n d0 d) :
    Safe P n d0 (Lib.Fs.del d (.incomplete n) name) := by
  obtain ⟨rest, hcust⟩ := h
  rcases hcust.place with rfl | ⟨habsent, -⟩
  · exact (Held.del (.inr rfl) hname hcust).safe
  · have hsame : Lib.Fs.del d (.incomplete n) name = d := by simp [Lib.Fs.del, habsent]
    rw [hsame]
    exact ⟨_, hcust⟩

end Custody

/-! ## The parts of a merge -/

section Parts

variable {P : String → Prop} {n : Nat} {d0 d : Disk Place}

/-- Custody, with every tracked name among `names` free in the sealed directory. -/
structure Merging (P : String → Prop) (n : Nat) (d0 : Disk Place) (names : List String)
    (d : Disk Place) : Prop where
  held : Held P n d0 d
  free : ∀ m ∈ names, P m → node? d (.sealed n) m = none

variable {k : Place} {name : String} {I : Disk Place → Prop}

/-- A probe for a name answers whether it is there. -/
theorem runs_exists (hI : I d) :
    Runs Sighted d (Prog.call (exists? k name))
      (fun b d' => I d' ∧ (b = false → node? d' k name = none)) (fun _ => I) I := by
  refine probe_sighted ⟨hI, fun hb => ?_⟩ hI
  simpa using hb

/-- What the listing pass has found of the entries it has seen. -/
def Surveyed (n : Nat) (d : Disk Place) (entries : List (String × Node)) (found0 found : Incoming) :
    Prop :=
  found.names = found0.names ++ entries.map Prod.fst ∧
    (found.hasMediaCollision = false → found0.hasMediaCollision = false ∧
      ∀ e ∈ entries, isPayload e.1 = true → node? d (.sealed n) e.1 = none)

/-- The collision test leaves its flag down only if the name is free. -/
theorem surveyCollision_spec (name : String) (found0 : Incoming) :
    Runs Sighted d (surveyCollision (.sealed n) name found0)
      (fun found d' => d = d' ∧ found.names = found0.names ∧
        (found.hasMediaCollision = false → found0.hasMediaCollision = false ∧
          (isPayload name = true → node? d (.sealed n) name = none)))
      (fun _ d' => d = d') (d = ·) := by
  unfold surveyCollision
  split
  · refine Runs.bind (runs_exists (I := (d = ·)) rfl) ?_
    rintro taken _ ⟨rfl, hfree⟩
    cases taken with
    | true => exact Runs.pure ⟨rfl, rfl, by simp⟩
    | false => exact Runs.pure ⟨rfl, rfl, fun hc => ⟨hc, fun _ => hfree rfl⟩⟩
  · next hpay => exact Runs.pure ⟨rfl, rfl, fun hc => ⟨hc, fun hp => absurd hp hpay⟩⟩

/-- The activity test only raises its own flag. -/
theorem surveyActivity_spec (name : String) (found0 : Incoming) :
    Runs Sighted d (surveyActivity (.incomplete n) (.sealed n) name found0)
      (fun found d' => d = d' ∧ found.names = found0.names ∧
        found.hasMediaCollision = found0.hasMediaCollision)
      (fun _ d' => d = d') (d = ·) := by
  unfold surveyActivity
  split
  · refine Runs.bind (R := fun _ d' => d = d') (Runs.metadata sighted_default
      (fun _ _ => rfl) rfl) ?_
    rintro node _ rfl
    split
    · refine Runs.bind (runs_exists (I := (d = ·)) rfl) ?_
      rintro taken _ ⟨rfl, -⟩
      cases taken <;> exact Runs.pure ⟨rfl, rfl, rfl⟩
    · exact Runs.pure ⟨rfl, rfl, rfl⟩
  · exact Runs.pure ⟨rfl, rfl, rfl⟩

/-- The listing pass changes nothing, and sees every payload name that is taken. -/
theorem surveyEntries_spec (entries : List (String × Node)) (found0 : Incoming) :
    Runs Sighted d (surveyEntries (.incomplete n) (.sealed n) entries found0)
      (fun found d' => d = d' ∧ Surveyed n d entries found0 found)
      (fun _ d' => d = d') (d = ·) := by
  induction entries generalizing found0 with
  | nil => exact Runs.pure ⟨rfl, by simp [Surveyed]⟩
  | cons e entries ih =>
    refine Runs.bind (surveyCollision_spec e.1 found0) ?_
    rintro found _ ⟨rfl, hnames, hcoll⟩
    refine Runs.bind (surveyActivity_spec e.1 found) ?_
    rintro found' _ ⟨rfl, hnames', hcoll'⟩
    refine (ih _).weaken ?_
    rintro final _ ⟨rfl, hfinal, hclear⟩
    refine ⟨rfl, by simp [hfinal, hnames', hnames], fun hc => ?_⟩
    obtain ⟨hprev, hrest⟩ := hclear hc
    obtain ⟨hfirst, hthis⟩ := hcoll (by rw [← hcoll']; exact hprev)
    refine ⟨hfirst, fun e' he' => ?_⟩
    rcases List.mem_cons.mp he' with rfl | he'
    · exact hthis
    · exact hrest e' he'

/-- The names a sealed directory keeps for itself are not tracked. -/
theorem not_tracked_sidecar (hP : ∀ m, P m → Payload m)
    (h : isPayload name = false) : ¬ P name :=
  fun hp => absurd (hP name hp).1 (by simp [h])

variable {names : List String}

/-- Setting a name that is no payload in the sealed directory keeps a merge going. -/
theorem Merging.put_sealed
    (hname : ¬ P name) (h : Merging P n d0 names d) (hdir : (d.lookup (.sealed n)).isSome) :
    Merging P n d0 names (put d (.sealed n) name node) := by
  refine ⟨h.held.put_sealed hname hdir, fun m hm hp => ?_⟩
  have hne : m ≠ name := fun heq => hname (heq ▸ hp)
  simpa [hdir, hne] using h.free m hm hp

/-- Taking a name that is no payload out of either directory keeps a merge going. -/
theorem Merging.del
    (hk : k = .sealed n ∨ k = .incomplete n) (hname : ¬ P name) (h : Merging P n d0 names d) :
    Merging P n d0 names (del d k name) := by
  refine ⟨h.held.del hk hname, fun m hm hp => ?_⟩
  have hne : m ≠ name := fun heq => hname (heq ▸ hp)
  simpa [hne] using h.free m hm hp

/-- Admitting new activity touches sidecar names of the sealed directory only. -/
theorem admitActivity_spec (hP : ∀ m, P m → Payload m)
    (periodSecs : Nat) (h : Merging P n d0 names d) :
    Ends Sighted d (admitActivity (.sealed n) periodSecs) (Merging P n d0 names) := by
  have hlen : ¬ P LEN_FILE_NAME := not_tracked_sidecar hP (by decide)
  have htemp : ¬ P LEN_TEMP_NAME := fun hp => (hP _ hp).2 rfl
  refine Runs.bind (writeSynced_keeps sighted_default
    (fun _ _ h hdir => h.put_sealed htemp hdir) _ h) fun _ d h => ?_
  refine Runs.attempt_bind (Q := fun _ => Merging P n d0 names)
    (Runs.rename sighted_default (fun node _ hdir => ?_) h) ?_ ?_ fun _ h => h
  · exact (h.del (.inl rfl) htemp).put_sealed hlen (by simpa using hdir)
  · intro _ d h
    refine Runs.bind (removeIfExists_keeps sighted_default
      (fun _ h => h.del (.inl rfl) (not_tracked_sidecar hP (by decide))) h) fun _ d h => ?_
    exact removeIfExists_keeps sighted_default
      (fun _ h => h.del (.inl rfl) (not_tracked_sidecar hP (by decide))) h
  · intro _ d h
    exact Ends.bind (Runs.ignore (Runs.removeFile sighted_default
      (fun _ _ _ => h.del (.inl rfl) htemp) h)) fun _ d h => Runs.fail h

/-- Moving one activity log, to a free name, keeps custody. -/
theorem moveActivityEntry_spec (name : String) (h : Held P n d0 d) :
    Ends Sighted d (moveActivityEntry (.incomplete n) (.sealed n) name) (Held P n d0) := by
  unfold moveActivityEntry
  split
  · refine Runs.bind (runs_exists h) ?_
    rintro taken d ⟨h, hfree⟩
    cases taken with
    | true => exact Runs.pure h
    | false =>
      refine Runs.bind (R := fun _ d' => Held P n d0 d' ∧ node? d' (.sealed n) name = none)
        (Runs.metadata sighted_default (fun _ _ => ⟨h, hfree rfl⟩) h) ?_
      rintro node d ⟨h, hfree⟩
      split
      · exact Runs.rename sighted_default (fun _ hnode hdir => h.move hnode hfree hdir)
          h
      · exact Runs.pure h
  · exact Runs.pure h

/-- Moving new activity out of a directory that will be set aside keeps custody. -/
theorem moveActivity_spec (names : List String) (h : Held P n d0 d) :
    Ends Sighted d (moveActivity (.incomplete n) (.sealed n) names) (Held P n d0) := by
  induction names generalizing d with
  | nil => exact Runs.pure h
  | cons name names ih => exact Runs.bind (moveActivityEntry_spec name h) fun _ d h => ih h

/-- Dropping one acknowledgement sidecar keeps custody. -/
theorem dropSidecarEntry_spec (hP : ∀ m, P m → Payload m) (name : String) (h : Held P n d0 d) :
    Ends Sighted d (dropSidecarEntry (.incomplete n) name) (Held P n d0) := by
  unfold dropSidecarEntry
  split
  · next hside =>
    have hname : ¬ P name := not_tracked_sidecar hP (by simp_all)
    refine Runs.bind (runs_exists h) ?_
    rintro there d ⟨h, -⟩
    cases there with
    | true => exact dropEntry_keeps sighted_default (fun _ h => h.del (.inr rfl) hname) h
    | false => exact Runs.pure h
  · exact Runs.pure h

/-- Dropping the acknowledgement sidecars of the incoming directory keeps custody. -/
theorem dropSidecars_spec (hP : ∀ m, P m → Payload m) (names : List String) (h : Held P n d0 d) :
    Ends Sighted d (dropSidecars (.incomplete n) names) (Held P n d0) := by
  induction names generalizing d with
  | nil => exact Runs.pure h
  | cons name names ih => exact Runs.bind (dropSidecarEntry_spec hP name h) fun _ d h => ih h

/-- Moving one entry of a merge without collision: it goes to its free name, or it is a
sidecar and is dropped. -/
theorem moveEntry_spec (hnot : name ∉ names)
    (h : Merging P n d0 (name :: names) d) :
    Runs Sighted d (moveEntry (.incomplete n) (.sealed n) name)
      (fun _ => Merging P n d0 names) (fun _ => Held P n d0) (Held P n d0) := by
  have hrest : Merging P n d0 names d := ⟨h.held, fun m hm => h.free m (List.mem_cons_of_mem _ hm)⟩
  refine Runs.bind (R := fun taken d' => d = d' ∧ (taken = true → ¬ P name) ∧
    (taken = false → node? d (.sealed n) name = none)) ?_ ?_
  · refine probe_sighted ⟨rfl, fun htaken hp => ?_, by simp⟩ h.held
    simp [h.free name List.mem_cons_self hp] at htaken
  rintro taken _ ⟨rfl, hside, hfree⟩
  cases taken with
  | true =>
    exact (dropEntry_keeps sighted_default (fun _ h => h.del (.inr rfl) (hside rfl)) hrest).mono
      (fun _ _ h => h) (fun _ _ h => h.held) fun _ h => h.held
  | false =>
    refine Runs.rename sighted_default (fun node hnode hdir => ?_) h.held
    refine ⟨h.held.move hnode (hfree rfl) hdir, fun m hm hp => ?_⟩
    have hne : m ≠ name := fun heq => hnot (heq ▸ hm)
    simpa [hdir, hne] using hrest.free m hm hp

/-- Moving the entries of a merge without collision keeps custody. Names are moved once each,
so what one move takes is not what a later one needs free. -/
theorem moveEntries_spec (hnodup : names.Nodup) (h : Merging P n d0 names d) :
    Ends Sighted d (moveEntries (.incomplete n) (.sealed n) names) (Held P n d0) := by
  induction names generalizing d with
  | nil => exact Runs.pure h.held
  | cons name names ih =>
    obtain ⟨hnot, hnodup⟩ := List.nodup_cons.mp hnodup
    exact Runs.bind (moveEntry_spec hnot h) fun _ d h => ih hnodup h

/-- Looking for a free quarantine name changes nothing. -/
theorem nextQuarantineFrom_keeps (preferred : String) (fuel counter : Nat)
    (hI : I d) :
    Ends Sighted d (nextQuarantineFrom preferred fuel counter) I := by
  induction fuel generalizing counter d with
  | zero => exact Runs.pure hI
  | succ fuel ih =>
    refine Ends.bind (Runs.probe sighted_default hI (fun _ => hI) hI) fun taken d hI => ?_
    cases taken with
    | true => exact ih (counter + 1) hI
    | false => exact Runs.pure hI

/-- Setting the incoming directory aside keeps custody. -/
theorem setAside_spec (hP : ∀ m, P m → Payload m) (found : Incoming) (h : Held P n d0 d) :
    Ends Sighted d (setAside n found) (Safe P n d0) := by
  have hsafe : ∀ d, Held P n d0 d → Safe P n d0 d := fun _ h => h.safe
  refine Runs.bind (R := fun _ => Held P n d0)
    (Runs.onlyIf (fun _ => ?_) fun _ => h) fun _ d h => ?_
  · exact (moveActivity_spec found.names h).loosen hsafe
  refine Runs.bind (R := fun _ => Held P n d0) (Runs.sync sighted_default h h.safe)
    fun _ d h => ?_
  refine Runs.bind ((dropSidecars_spec hP found.names h).loosen hsafe) fun _ d h => ?_
  refine Runs.bind (R := fun _ => Held P n d0) (Runs.bind (R := fun _ => Held P n d0) (Runs.get h)
    fun _ d h => ?_) fun name d h => ?_
  · exact (nextQuarantineFrom_keeps _ _ _ h).loosen hsafe
  · exact Runs.renameDir sighted_default (fun _ hdir hfree => h.renameDir_quarantine hdir hfree)
      h.safe

/-- Moving every entry and removing the emptied directory keeps custody. -/
theorem mergeInto_spec {found : Incoming} (hnodup : found.names.Nodup)
    (h : Merging P n d0 found.names d) :
    Ends Sighted d (mergeInto n found) (Safe P n d0) := by
  refine Runs.bind ((moveEntries_spec hnodup h).loosen fun _ h => h.safe) fun _ d h => ?_
  exact Runs.removeDir sighted_default (fun _ hdir hempty => h.removeDir hdir hempty)
    h.safe

end Parts

/-! ## Whole attempts -/

section Attempts

variable {P : String → Prop} {n : Nat} {d0 d : Disk Place}

/-- A merge with the incoming directory in its place. -/
theorem sealOrMerge_held (hP : ∀ m, P m → Payload m) (periodSecs : Nat) (h : Held P n d0 d) :
    Ends Sighted d (sealOrMerge n periodSecs) (Safe P n d0) := by
  refine Runs.bind (R := fun _ d' => d = d')
    (Runs.probe sighted_default rfl (fun _ => rfl) h.safe) ?_
  rintro there _ rfl
  cases there with
  | false =>
    exact Runs.renameDir sighted_default (fun _ hdir hfree => h.renameDir_sealed hdir hfree)
      h.safe
  | true =>
    refine Runs.bind (R := fun entries d' => d = d' ∧ (entries.map Prod.fst).Nodup)
      (Runs.readDir sighted_default (fun dir _ => ⟨rfl, by rw [List.map_map]; exact dir.nodupKeys⟩)
        h.safe) ?_
    rintro entries _ ⟨rfl, hnodup⟩
    refine Runs.bind ((surveyEntries_spec entries ⟨[], false, false⟩).loosen fun _ heq =>
      heq ▸ h.safe) ?_
    rintro found _ ⟨rfl, hnames, hclear⟩
    rw [List.nil_append] at hnames
    -- Without a collision every payload name is free, and stays so while activity is admitted.
    by_cases hcoll : found.hasMediaCollision = true
    · have hmerging : Merging P n d0 [] d := ⟨h, by simp⟩
      refine Runs.bind (R := fun _ => Merging P n d0 [])
        (Runs.onlyIf (fun _ => ?_) fun _ => hmerging) fun _ d h => ?_
      · exact (admitActivity_spec hP periodSecs hmerging).loosen fun _ h => h.held.safe
      · rw [if_pos hcoll]
        exact setAside_spec hP found h.held
    · have hfree := (hclear (by simpa using hcoll)).2
      have hmerging : Merging P n d0 found.names d := by
        refine ⟨h, fun m hm hp => ?_⟩
        rw [hnames, List.mem_map] at hm
        obtain ⟨e, he, rfl⟩ := hm
        exact hfree e he (hP _ hp).1
      refine Runs.bind (R := fun _ => Merging P n d0 found.names)
        (Runs.onlyIf (fun _ => ?_) fun _ => hmerging) fun _ d h => ?_
      · exact (admitActivity_spec hP periodSecs hmerging).loosen fun _ h => h.held.safe
      · rw [if_neg hcoll]
        exact mergeInto_spec (hnames ▸ hnodup) h

/-- A merge that finds no incoming directory changes nothing. -/
theorem sealOrMerge_absent (periodSecs : Nat) (habsent : d.lookup (.incomplete n) = none) :
    Runs Sighted d (sealOrMerge n periodSecs) (fun _ d' => d = d') (fun _ d' => d = d')
      (d = ·) := by
  refine Runs.bind (R := fun _ d' => d = d')
    (Runs.probe sighted_default rfl (fun _ => rfl) rfl) ?_
  rintro there _ rfl
  cases there with
  | false =>
    refine Runs.renameDir sighted_default (fun _ hdir _ => ?_) rfl
    rw [habsent] at hdir
    cases hdir
  | true =>
    refine Runs.bind (R := fun _ _ => False)
      (Runs.readDir sighted_default (fun _ hdir => ?_) rfl) fun _ _ h => h.elim
    rw [habsent] at hdir
    cases hdir

/-- One attempt keeps every payload accounted for, however it ends. -/
theorem sealOrMerge_custody (hP : ∀ m, P m → Payload m) (periodSecs : Nat) (h : Safe P n d0 d) :
    Ends Sighted d (sealOrMerge n periodSecs) (Safe P n d0) := by
  obtain ⟨rest, hcust⟩ := h
  rcases hcust.place with rfl | ⟨habsent, -⟩
  · exact sealOrMerge_held hP periodSecs hcust
  · exact (sealOrMerge_absent periodSecs habsent).mono (fun _ _ heq => heq ▸ ⟨rest, hcust⟩)
      (fun _ _ heq => heq ▸ ⟨rest, hcust⟩) fun _ heq => heq ▸ ⟨rest, hcust⟩

/-- One attempt at sealing segment `n`, with any calls failing and a stop anywhere. -/
def MergeStep (n : Nat) (d d' : Disk Place) : Prop :=
  ∃ periodSecs verdicts, (∀ v ∈ verdicts, Sighted v) ∧
    d' = (sealOrMerge n periodSecs).final verdicts d

/-- A place that can hold an incoming file with name `m`: the incoming directory itself, the
sealed directory if the name was free there, or a quarantine directory that is new. -/
def Fresh (n : Nat) (d0 : Disk Place) (m : String) (k : Place) : Prop :=
  k = .incomplete n ∨ (k = .sealed n ∧ node? d0 (.sealed n) m = none) ∨
    ∃ q, k = .quarantine q ∧ d0.lookup k = none

variable {m : String}

/-- A disk in custody holds each tracked incoming name in one fresh place, and no other fresh
place has the name at all. -/
theorem Safe.one_place (h : Safe P n d0 d) (hm : P m)
    (hnode : node? d0 (.incomplete n) m = some node) :
    ∃ k, Fresh n d0 m k ∧ node? d k m = some node ∧
      ∀ k', Fresh n d0 m k' → node? d k' m ≠ none → k' = k := by
  obtain ⟨rest, h⟩ := h
  have hplace := h.place
  -- A fresh place other than the sealed directory holds the name only if it is `rest`.
  have honly : ∀ k, Fresh n d0 m k → k ≠ .sealed n → node? d k m ≠ none → rest = some k := by
    intro k hfresh hs hsome
    by_contra hrest
    rcases hfresh with rfl | ⟨rfl, -⟩ | ⟨q, rfl, hnew⟩
    · rcases hplace with heq | ⟨habsent, -⟩
      · exact hrest heq
      · exact hsome (by simp [node?, habsent])
    · exact hs rfl
    · exact hsome (by simp [node?, h.others _ hs (by simp) hrest, hnew])
  have hsplit := h.split m hm
  rw [hnode] at hsplit
  rcases hsplit with ⟨hrest, hsealed⟩ | ⟨-, hfree, hrest, hsealed⟩
  · obtain ⟨k, rfl, hk⟩ := Option.bind_eq_some_iff.mp hrest
    have hfresh : Fresh n d0 m k := by
      rcases hplace with heq | ⟨-, hq⟩
      · cases heq
        exact .inl rfl
      · obtain ⟨q, rfl, hnew⟩ := hq k rfl
        exact .inr (.inr ⟨q, rfl, hnew⟩)
    refine ⟨k, hfresh, hk, fun k' hfresh' hk' => ?_⟩
    by_cases hs : k' = .sealed n
    · subst hs
      rcases hfresh' with heq | ⟨-, hfree⟩ | ⟨q, heq, -⟩
      · cases heq
      · exact absurd (hsealed.trans hfree) hk'
      · cases heq
    · exact (Option.some.inj (honly k' hfresh' hs hk')).symm
  · refine ⟨.sealed n, .inr (.inl ⟨rfl, hfree⟩), hsealed, fun k' hfresh' hk' => ?_⟩
    by_contra hs
    have heq := honly k' hfresh' hs hk'
    rw [heq, Option.bind_some] at hrest
    exact hk' hrest

/-- A disk in custody still has each payload of the sealed directory, as it was. -/
theorem Safe.sealed_kept (h : Safe P n d0 d) (hm : P m)
    (hnode : node? d0 (.sealed n) m = some node) : node? d (.sealed n) m = some node := by
  obtain ⟨rest, h⟩ := h
  rcases h.split m hm with ⟨-, hsealed⟩ | ⟨-, hfree, -, -⟩
  · rw [hsealed, hnode]
  · rw [hnode] at hfree
    cases hfree

/-- After any number of attempts at sealing segment `n`, each of which may fail or stop at any
call, every payload that was in the incoming directory is in exactly one place, and every
payload that was in the sealed directory is still there, with the same content. -/
theorem sealOrMerge_accounts (n : Nat) (d0 d : Disk Place)
    (hrun : Relation.ReflTransGen (MergeStep n) d0 d) (m : String) (hm : Payload m) (node : Node) :
    (node? d0 (.incomplete n) m = some node → ∃! k, Fresh n d0 m k ∧ node? d k m = some node) ∧
    (node? d0 (.sealed n) m = some node → node? d (.sealed n) m = some node) := by
  have hsafe : Safe Payload n d0 d := by
    refine reflTransGen_invariant ?_ (held_refl Payload n d0).safe hrun
    rintro d _ h ⟨periodSecs, verdicts, hsighted, rfl⟩
    exact (sealOrMerge_custody (fun _ hm => hm) periodSecs h).final hsighted
  refine ⟨fun hnode => ?_, hsafe.sealed_kept hm⟩
  obtain ⟨k, hfresh, hk, honly⟩ := hsafe.one_place hm hnode
  exact ⟨k, ⟨hfresh, hk⟩, fun k' hk' => honly k' hk'.1 (by simp [hk'.2])⟩

/-- Segment 7 sealed with a screen recording, and captured again with an activity log. -/
def remerged : Disk Place :=
  Disk.of
    [(.incomplete 7, [("1_desktop_activity.jsonl", .file [1] 5)]),
      (.sealed 7, [(".len", .file (ascii "10") 3), ("display_1_screen.mp4", .file [2] 3)])]

/-- An attempt on that disk whose first write fails halfway keeps the recording. -/
theorem sealOrMerge_accounts_failed_write :
    node? ((sealOrMerge 7 300).final (List.replicate 6 default ++ [⟨.fail 1, false, 9⟩]) remerged)
      (.sealed 7) "display_1_screen.mp4" = some (.file [2] 3) :=
  (sealOrMerge_accounts 7 remerged _
    (.single ⟨300, List.replicate 6 default ++ [⟨.fail 1, false, 9⟩], by decide, rfl⟩)
    "display_1_screen.mp4" ⟨by decide, by decide⟩ _).2 (by decide)

/-- The name `.len` is not kept: new activity makes the sealed segment a whole period long, so
the merge replaces the bytes `10` with `300`. -/
theorem sealOrMerge_rewrites_len : node? remerged (.sealed 7) ".len" = some (.file (ascii "10") 3) ∧
      node? ((sealOrMerge 7 300).final [] remerged) (.sealed 7) ".len" =
        some (.file (ascii "300") 0) := by
  decide

/-- Segment 7 sealed and captured again with a screen recording of the same name. -/
def recordedTwice : Disk Place :=
  Disk.of
    [(.incomplete 7, [("display_1_screen.mp4", .file [1] 5)]),
      (.sealed 7, [("display_1_screen.mp4", .file [2] 3)])]

/-- An existence check that meets an error loses a recording. When the survey of the names does not
see the sealed one, the move finds it and deletes the incoming one; when the move does not see it
either, the incoming one replaces it. -/
theorem sealOrMerge_blind_loses :
    let blind : Verdict := ⟨.none, true, 0⟩
    let surveyed := (sealOrMerge 7 300).final [default, default, blind] recordedTwice
    let moved := (sealOrMerge 7 300).final [default, default, blind, blind] recordedTwice
    surveyed.keys = [.sealed 7] ∧
      node? surveyed (.sealed 7) "display_1_screen.mp4" = some (.file [2] 3) ∧
      moved.keys = [.sealed 7] ∧
      node? moved (.sealed 7) "display_1_screen.mp4" = some (.file [1] 5) := by
  decide

end Attempts

end SolstoneWindows.Proofs.PlatformWin
