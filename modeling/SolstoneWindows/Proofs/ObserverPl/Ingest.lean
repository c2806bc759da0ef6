import Mathlib.Data.Fintype.EquivFin
import Mathlib.Data.List.NodupEquivFin
import Mathlib.Tactic.IntervalCases
import SolstoneWindows.ObserverPl.Ingest

/-!
# The receipt check is exact

`validateReceipt` looks for repeated names, compares two lengths and searches twice, once in each
direction. `validateReceipt_exact` says what that adds up to: the descriptors and the files that
were sent are in bijection, and each descriptor covers its file.
-/

set_option autoImplicit false

namespace SolstoneWindows.ObserverPl.Ingest

/-! ## What a receipt has to show -/

/-- The segment a response names, by its status. -/
def NamesSegment (response : IngestResponse) (segment : String) : Prop :=
  ((response.status = .ok ∨ response.status = .collision) ∧ response.segment = some segment) ∨
    (response.status = .duplicate ∧ response.existingSegment = some segment)

/-- A SHA-256 in text: 64 lowercase hexadecimal digits. -/
def IsDigest (value : String) : Prop :=
  value.length = 64 ∧ ∀ c ∈ value.toList, c ∈ "0123456789abcdef".toList

/-- The journal holds the bytes of a file that was sent. -/
structure Covers (desc : FileDescriptor) (file : LocalFile) : Prop where
  name : desc.submitted = file.name
  size : desc.size = file.size
  sha256 : desc.sha256 = file.sha256
  digest : IsDigest desc.sha256
  held : desc.disposition = "written" ∨ desc.disposition = "already_held"

/-- Descriptors and files in bijection. -/
def Paired (descriptors : List FileDescriptor) (files : List LocalFile) : Prop :=
  ∃ pairing : Fin descriptors.length ≃ Fin files.length,
    ∀ i, Covers (descriptors.get i) (files.get (pairing i))

/-! ## The checks, one at a time -/

theorem hexDigit_iff (c : Char) :
    (c.isDigit || ('a' ≤ c && c ≤ 'f')) = true ↔ c ∈ "0123456789abcdef".toList := by
  constructor
  · intro h
    have hrange : (48 ≤ c.toNat ∧ c.toNat ≤ 57) ∨ (97 ≤ c.toNat ∧ c.toNat ≤ 102) := by
      simpa [Char.isDigit, Char.le_def, UInt32.le_iff_toNat_le] using h
    rw [← Char.ofNat_toNat c]
    rcases hrange with ⟨hlow, hhigh⟩ | ⟨hlow, hhigh⟩
    · interval_cases c.toNat <;> decide
    · interval_cases c.toNat <;> decide
  · have hall : ("0123456789abcdef".toList.all fun c => c.isDigit || ('a' ≤ c && c ≤ 'f')) =
        true := by decide
    exact List.all_eq_true.mp hall c

theorem isSha256Lower_iff (value : String) : isSha256Lower value = true ↔ IsDigest value := by
  simp only [isSha256Lower, IsDigest, Bool.and_eq_true, beq_iff_eq, List.all_eq_true, hexDigit_iff]

theorem serverSegmentOf_eq_ok (response : IngestResponse) (segment : String) :
    serverSegmentOf response = .ok segment ↔ NamesSegment response segment := by
  unfold serverSegmentOf NamesSegment
  cases response.status <;> cases response.segment <;> cases response.existingSegment <;> simp

theorem firstRepeated_eq_none (seen names : List String) :
    firstRepeated seen names = none ↔ names.Nodup ∧ ∀ name ∈ names, name ∉ seen := by
  induction names generalizing seen with
  | nil => simp [firstRepeated]
  | cons name names ih =>
    unfold firstRepeated
    split
    · rename_i hseen
      simp [hseen]
    rename_i hnew
    rw [ih, List.nodup_cons]
    simp only [List.mem_cons, not_or, forall_eq_or_imp]
    -- A later name differs from this one exactly if this one does not come again.
    constructor
    · rintro ⟨hnodup, hrest⟩
      exact ⟨⟨fun hin => (hrest name hin).1 rfl, hnodup⟩, hnew, fun n hn => (hrest n hn).2⟩
    · rintro ⟨⟨hfresh, hnodup⟩, -, hrest⟩
      exact ⟨hnodup, fun n hn => ⟨fun heq => hfresh (heq ▸ hn), hrest n hn⟩⟩

theorem checkDescriptor_eq_ok {desc : FileDescriptor} {file : LocalFile}
    (hname : desc.submitted = file.name) :
    checkDescriptor desc file = .ok () ↔ Covers desc file := by
  unfold checkDescriptor
  constructor
  · intro h
    repeat' split at h
    all_goals try cases h
    rename_i hdigest hsha hsize hheld
    exact ⟨hname, not_not.mp hsize, not_not.mp hsha,
      (isSha256Lower_iff _).mp (not_not.mp hdigest), hheld⟩
  · intro h
    rw [if_neg (not_not.mpr ((isSha256Lower_iff _).mpr h.digest)), if_neg (not_not.mpr h.sha256),
      if_neg (not_not.mpr h.size),
      if_pos h.held]

/-- The descriptor the loop finds for a file. -/
def found (descriptors : List FileDescriptor) (file : LocalFile) : Option FileDescriptor :=
  descriptors.find? fun desc => desc.submitted == file.name

theorem checkLocalFiles_eq_ok (descriptors : List FileDescriptor) (files : List LocalFile) :
    checkLocalFiles descriptors files = .ok () ↔
      ∀ file ∈ files, ∃ desc, found descriptors file = some desc ∧ Covers desc file := by
  induction files with
  | nil => simp [checkLocalFiles]
  | cons file files ih =>
    unfold checkLocalFiles
    rw [List.forall_mem_cons, ← ih, ← found]
    cases hfound : found descriptors file with
    | none => simp
    | some desc =>
      have hname : desc.submitted = file.name := by
        simpa using List.find?_some hfound
      have hcovers := checkDescriptor_eq_ok hname
      cases hcheck : checkDescriptor desc file with
      | error fault =>
        rw [hcheck] at hcovers
        simp [hcheck, ← hcovers]
      | ok _ => simp [hcheck, hcovers.mp hcheck]

/-! ## The receipt -/

/-- Distinct names belong to distinct places. -/
theorem nodup_map_iff {α β : Type} (f : α → β) (xs : List α) :
    (xs.map f).Nodup ↔ Function.Injective fun i => f (xs.get i) := by
  rw [← List.nodup_ofFn]
  have hmap : List.ofFn (fun i => f (xs.get i)) = (List.ofFn xs.get).map f :=
    List.map_ofFn.symm
  rw [hmap, List.ofFn_get]

section Receipt

variable {descriptors : List FileDescriptor} {files : List LocalFile}

/-- With distinct names on the files, each covered by a descriptor, and as many descriptors as
files: no descriptor is left over. -/
theorem paired_of_covered (hnames : (files.map (·.name)).Nodup)
    (hlength : descriptors.length = files.length)
    (hcovered : ∀ file ∈ files, ∃ desc ∈ descriptors, Covers desc file) :
    Paired descriptors files := by
  have hchoice : ∀ j : Fin files.length, ∃ i : Fin descriptors.length,
      Covers (descriptors.get i) (files.get j) := by
    intro j
    obtain ⟨desc, hmem, hcovers⟩ := hcovered _ (List.get_mem files j)
    obtain ⟨i, rfl⟩ := List.get_of_mem hmem
    exact ⟨i, hcovers⟩
  choose place hplace using hchoice
  -- Two files covered by one descriptor have one name.
  have hinjective : Function.Injective place := by
    intro j k hjk
    refine (nodup_map_iff _ files).mp hnames ?_
    show (files.get j).name = (files.get k).name
    rw [← (hplace j).name, hjk, (hplace k).name]
  have hbijective : Function.Bijective place :=
    (Fintype.bijective_iff_injective_and_card place).mpr ⟨hinjective, by simp [hlength]⟩
  let pairing := Equiv.ofBijective place hbijective
  refine ⟨pairing.symm, fun i => ?_⟩
  have hcovers := hplace (pairing.symm i)
  rwa [show place (pairing.symm i) = i from pairing.apply_symm_apply i] at hcovers

/-- In a pairing no name is submitted twice, if the files have distinct names. -/
theorem Paired.nodup_submitted (h : Paired descriptors files)
    (hnames : (files.map (·.name)).Nodup) : (descriptors.map (·.submitted)).Nodup := by
  obtain ⟨pairing, hcovers⟩ := h
  rw [nodup_map_iff]
  intro i k hik
  refine pairing.injective ((nodup_map_iff _ files).mp hnames ?_)
  show (files.get (pairing i)).name = (files.get (pairing k)).name
  rw [← (hcovers i).name, ← (hcovers k).name]
  exact hik

/-- The search by name finds the descriptor that covers the file. -/
theorem found_of_covers (hnodup : (descriptors.map (·.submitted)).Nodup) {desc : FileDescriptor}
    {file : LocalFile} (hmem : desc ∈ descriptors) (h : Covers desc file) :
    found descriptors file = some desc := by
  cases hfound : found descriptors file with
  | none =>
    have hnone := List.find?_eq_none.mp hfound desc hmem
    simp [h.name] at hnone
  | some other =>
    have hname : other.submitted = desc.submitted := by
      rw [h.name]
      simpa using List.find?_some hfound
    rw [List.inj_on_of_nodup_map hnodup (List.mem_of_find?_eq_some hfound) hmem hname]

end Receipt

/-- The receipt check is exact, for every response and all files with distinct names: it gives a
receipt if and only if the descriptors are decoded, the status names a segment, and descriptors and
files are in bijection, each descriptor covering its file. The receipt is that segment with those
descriptors. -/
theorem validateReceipt_exact (response : IngestResponse) (files : List LocalFile)
    (hnames : (files.map (·.name)).Nodup) (receipt : UploadReceipt) :
    validateReceipt response files = .ok receipt ↔
      response.fileDescriptors = .decoded receipt.files ∧
        NamesSegment response receipt.serverSegment ∧ Paired receipt.files files := by
  rw [← serverSegmentOf_eq_ok]
  constructor
  · intro h
    unfold validateReceipt at h
    split at h
    · cases h
    · cases h
    rename_i descriptors hdecoded
    split at h
    · cases h
    rename_i segment hsegment
    split at h
    · cases h
    split at h
    · cases h
    rename_i hlength
    split at h
    · cases h
    rename_i hchecked
    split at h
    · cases h
    cases h
    refine ⟨hdecoded, hsegment, paired_of_covered hnames (not_not.mp hlength) ?_⟩
    intro file hfile
    obtain ⟨desc, hfound, hcovers⟩ :=
      (checkLocalFiles_eq_ok descriptors files).mp hchecked file hfile
    exact ⟨desc, List.mem_of_find?_eq_some hfound, hcovers⟩
  · rintro ⟨hdecoded, hsegment, hpaired⟩
    have hnodup := hpaired.nodup_submitted hnames
    obtain ⟨pairing, hcovers⟩ := hpaired
    have hlength : receipt.files.length = files.length := by
      simpa using Fintype.card_congr pairing
    have hchecked : checkLocalFiles receipt.files files = .ok () := by
      rw [checkLocalFiles_eq_ok]
      intro file hfile
      obtain ⟨j, rfl⟩ := List.get_of_mem hfile
      have hcovers := hcovers (pairing.symm j)
      rw [pairing.apply_symm_apply] at hcovers
      exact ⟨_, found_of_covers hnodup (List.get_mem _ _) hcovers, hcovers⟩
    have hextra : receipt.files.find?
        (fun desc => !files.any (·.name == desc.submitted)) = none := by
      rw [List.find?_eq_none]
      intro desc hdesc
      obtain ⟨i, rfl⟩ := List.get_of_mem hdesc
      simp only [Bool.not_eq_true', Bool.not_eq_false, List.any_eq_true, beq_iff_eq]
      exact ⟨_, List.get_mem files (pairing i), (hcovers i).name.symm⟩
    unfold validateReceipt
    rw [hdecoded]
    dsimp only
    rw [hsegment, (firstRepeated_eq_none [] _).mpr ⟨hnodup, fun _ _ => List.not_mem_nil⟩]
    dsimp only
    rw [if_neg (not_not.mpr hlength), hchecked, hextra]

/-- The journal wrote one file under another name and held the other, and lists them the other way
round. -/
theorem validateReceipt_exact_reordered :
    let screen : LocalFile := ⟨"screen.webm", String.ofList (List.replicate 64 'a'), 5⟩
    let audio : LocalFile := ⟨"audio.flac", String.ofList (List.replicate 64 '7'), 3⟩
    let held : FileDescriptor := ⟨audio.name, "audio.flac", 3, audio.sha256, "already_held"⟩
    let written : FileDescriptor := ⟨screen.name, "0.webm", 5, screen.sha256, "written"⟩
    validateReceipt ⟨.ok, some "120000_300", none, none, .decoded [held, written]⟩ [screen, audio] =
      .ok ⟨"120000_300", [held, written]⟩ := by
  intro screen audio held written
  refine (validateReceipt_exact _ [screen, audio] (by decide) _).mpr
    ⟨rfl, .inl ⟨.inl rfl, rfl⟩, Equiv.swap 0 1, fun i => ?_⟩
  match i with
  | 0 => exact ⟨rfl, rfl, rfl, (isSha256Lower_iff _).mp (by decide +kernel), .inr rfl⟩
  | 1 => exact ⟨rfl, rfl, rfl, (isSha256Lower_iff _).mp (by decide +kernel), .inl rfl⟩

end SolstoneWindows.ObserverPl.Ingest
