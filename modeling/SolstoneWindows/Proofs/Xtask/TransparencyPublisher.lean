import SolstoneWindows.Lib.BackLink
import SolstoneWindows.Proofs.Xtask.TransparencyFormat
import SolstoneWindows.Xtask.TransparencyPublisher

/-!
# The walk and the ledger read one chain

`validateLedgerBytes_eq_ok_iff` and `walkLockedChain_ok` state what each reader has checked: a link
of the ledger is a link of the walk, and the version named by an entry is the one of its
predecessor.

The walk fetches under that version, and does not compare it with the version the fetched entry
gives itself. `chain_readers_agree_iff` shows that this comparison is all that is missing.
-/

set_option autoImplicit false

namespace SolstoneWindows.Xtask

open Lib.Lines
open Lib.BackLink (isChain_and eq_of_last_eq)

section Readers

variable {Value : Type} {crates : Crates Value} {bytes : Bytes} {model : TransparencyLedgerEntryV1}

/-! ## What parsing has checked -/

section

variable (h : parseEntry crates bytes = .ok model)

include h

theorem renderTransparencyEntry_of_parseEntry :
    renderTransparencyEntry crates model = .ok bytes := by
  have hcanonical : parseCanonical crates bytes = .ok model := by
    unfold parseEntry at h
    split at h
    · cases h
    · split at h
      · cases h
      · cases h
        assumption
  unfold parseCanonical at hcanonical
  split at hcanonical
  · cases hcanonical
  split at hcanonical
  · cases hcanonical
  split at hcanonical
  · cases hcanonical
  split at hcanonical
  · cases hcanonical
  rename_i rendered hrendered
  split at hcanonical
  · cases hcanonical
  next hsame =>
    cases hcanonical
    rw [hrendered, not_not.mp hsame]

theorem parseEntry_isLine : IsLine NEWLINE bytes :=
  (renderTransparencyEntry_ok (renderTransparencyEntry_of_parseEntry h)).2

theorem one_le_seq_of_parseEntry : 1 ≤ model.seq :=
  crates.one_le_seq model (renderTransparencyEntry_ok (renderTransparencyEntry_of_parseEntry h)).1

end

variable {version : String}

/-! ## The forward reader -/

def Read (crates : Crates Value) (entry : ChainEntry) : Prop :=
  parseEntry crates entry.bytes = .ok entry.model

/-- What the ledger asks of an entry that follows `last`. -/
def Admitted (crates : Crates Value) (entry : ChainEntry) : Option ChainEntry → Prop
  | some previous => LedgerLink crates previous entry.model
  | none => Genesis entry.model

variable {entry current previous p : ChainEntry}

variable {last : Option ChainEntry} {ledger : Bytes} {tip : ChainEntry}
  {pointer : TransparencyLatestV1}

theorem checkLine_eq_ok_iff :
    checkLine crates last entry.model = .ok () ↔ Admitted crates entry last := by
  cases last with
  | none =>
    show (if Genesis entry.model then _ else _) = _ ↔ Genesis entry.model
    split <;> simp_all
  | some previous =>
    show (if LedgerLink crates previous entry.model then _ else _) = _ ↔
      LedgerLink crates previous entry.model
    split <;> simp_all

variable {entries later walked : List ChainEntry}

theorem validateLines_eq_ok_iff {lines : List Bytes} :
    validateLines crates last lines = .ok entries ↔ entries.map (·.bytes) = lines ∧
        (∀ entry ∈ entries, Read crates entry ∧ entry.signature = none) ∧
        (∀ entry ∈ entries.head?, Admitted crates entry last) ∧
        entries.IsChain fun previous entry => LedgerLink crates previous entry.model := by
  induction lines generalizing last entries with
  | nil =>
    simp only [validateLines, Except.ok.injEq, List.map_eq_nil_iff]
    constructor
    · intro h
      subst h
      simp
    · intro h
      exact h.1.symm
  | cons raw lines ih =>
    rw [validateLines]
    constructor
    · intro h
      obtain ⟨model, hmodel, h⟩ := bind_eq_ok h
      obtain ⟨_, hlink, h⟩ := bind_eq_ok h
      obtain ⟨rest, hrest, h⟩ := bind_eq_ok h
      cases h
      obtain ⟨hbytes, hread, hfirst, hchain⟩ := ih.mp hrest
      have hadmitted : Admitted crates ⟨model, raw, none⟩ last := checkLine_eq_ok_iff.mp hlink
      rw [List.forall_mem_cons, List.isChain_cons, List.map_cons, hbytes]
      exact ⟨rfl, ⟨⟨hmodel, rfl⟩, hread⟩, by simpa using hadmitted, hfirst, hchain⟩
    · rintro ⟨hbytes, hread, hfirst, hchain⟩
      obtain ⟨entry, rest, rfl, rfl, hrestBytes⟩ := List.map_eq_cons_iff.mp hbytes
      rw [List.forall_mem_cons] at hread
      obtain ⟨⟨hmodel, hsignature⟩, hread⟩ := hread
      rw [List.isChain_cons] at hchain
      have hentry : entry = ⟨entry.model, entry.bytes, none⟩ := by
        rw [← hsignature]
      have hrest : validateLines crates (some entry) lines = .ok rest :=
        ih.mpr ⟨hrestBytes, hread, hchain.1, hchain.2⟩
      have hlink : checkLine crates last entry.model = .ok () :=
        checkLine_eq_ok_iff.mpr (hfirst entry rfl)
      rw [hmodel]
      show (checkLine crates last entry.model >>= fun _ => _) = _
      rw [hlink]
      show (validateLines crates (some ⟨entry.model, entry.bytes, none⟩) lines >>= fun _ => _) = _
      rw [← hentry, hrest]
      rfl

/-- A list of entries that the ledger accepts, apart from its framing. -/
structure Ledger (crates : Crates Value) (entries : List ChainEntry) : Prop where
  read : ∀ entry ∈ entries, Read crates entry
  genesis : ∀ entry ∈ entries.head?, Genesis entry.model
  linked : entries.IsChain fun previous entry => LedgerLink crates previous entry.model

theorem isLine_of_read (h : ∀ entry ∈ entries, Read crates entry) :
    ∀ line ∈ entries.map (·.bytes), IsLine NEWLINE line := by
  intro line hline
  obtain ⟨entry, hentry, rfl⟩ := List.mem_map.mp hline
  exact parseEntry_isLine (h entry hentry)

/-- Joined entries are cut again where they were joined. -/
theorem validateLedgerBytes_flatten (hne : entries ≠ [])
    (hread : ∀ entry ∈ entries, Read crates entry) :
    validateLedgerBytes crates (entries.map (·.bytes)).flatten =
      validateLines crates none (entries.map (·.bytes)) := by
  have hlines := isLine_of_read hread
  have hlast := getLast?_flatten_lines (by simpa using hne) hlines
  unfold validateLedgerBytes
  rw [if_neg, splitInclusive_flatten hlines]
  rintro (hnil | hend)
  · rw [hnil] at hlast
    cases hlast
  · exact hend hlast

/-- The ledger accepts exactly the joined lines of a chain from its genesis. -/
theorem validateLedgerBytes_eq_ok_iff :
    validateLedgerBytes crates ledger = .ok entries ↔
      entries ≠ [] ∧ ledger = (entries.map (·.bytes)).flatten ∧ Ledger crates entries ∧
        ∀ entry ∈ entries, entry.signature = none := by
  constructor
  · intro h
    unfold validateLedgerBytes at h
    split at h
    · cases h
    rename_i hframed
    obtain ⟨hbytes, hread, hfirst, hchain⟩ := validateLines_eq_ok_iff.mp h
    have hledger : ledger = (entries.map (·.bytes)).flatten := by
      rw [hbytes, flatten_splitInclusive]
    have hne : entries ≠ [] := by
      intro hnil
      rw [hnil] at hledger
      exact hframed (.inl hledger)
    exact ⟨hne, hledger, ⟨fun e he => (hread e he).1, hfirst, hchain⟩, fun e he => (hread e he).2⟩
  · rintro ⟨hne, rfl, hledger, hsignature⟩
    rw [validateLedgerBytes_flatten hne hledger.read]
    exact validateLines_eq_ok_iff.mpr ⟨rfl, fun e he => ⟨hledger.read e he, hsignature e he⟩,
      hledger.genesis, hledger.linked⟩

/-! ## The backward reader -/

variable {store : Store}

theorem read_of_fetchSignedEntry
    (h : fetchSignedEntry crates store version = .ok entry) : Read crates entry := by
  obtain ⟨body, _, h⟩ := bind_eq_ok h
  obtain ⟨signature, _, h⟩ := bind_eq_ok h
  obtain ⟨model, hmodel, h⟩ := bind_eq_ok h
  obtain ⟨_, _, h⟩ := bind_eq_ok h
  obtain ⟨_, _, h⟩ := bind_eq_ok h
  obtain ⟨_, _, h⟩ := bind_eq_ok h
  cases h
  exact hmodel

theorem fetchSignedEntry_eq {body signature : Bytes}
    (hbody : store ("releases/" ++ PRODUCT ++ "/v/" ++ version ++ "/ledger-entry.json") =
      some ⟨200, body⟩)
    (hsignature : store ("releases/" ++ PRODUCT ++ "/v/" ++ version
      ++ "/ledger-entry.json.minisig") = some ⟨200, signature⟩) :
    fetchSignedEntry crates store version = checkSignedEntry crates body signature := by
  simp [fetchSignedEntry, fetchRequired, hbody, hsignature, bind, Except.bind]

/-- Each fetch of the walk goes down in sequence, and a walk stops at sequence 1. -/
theorem walkFrom_fetches
    (hread : Read crates current) :
    (walkFrom crates store current later).1 < current.model.seq := by
  have hone := one_le_seq_of_parseEntry hread
  fun_induction walkFrom crates store current later with
  | case1 | case2 | case3 => exact hone
  | case4 current later hseq => omega
  | case5 current later hseq hversion previous hfetch hlink rest ih =>
    have hprevious := read_of_fetchSignedEntry hfetch
    have hfewer : rest.1 < previous.model.seq := ih hprevious (one_le_seq_of_parseEntry hprevious)
    have hlt := hlink.seq_lt
    show rest.1 + 1 < current.model.seq
    omega
  | case6 current later hseq => omega

/-- Every entry names its predecessor by the version that the predecessor gives itself. -/
def VersionLinked (entries : List ChainEntry) : Prop :=
  entries.IsChain fun previous entry => entry.model.prevVersion = previous.model.version

/-- What the store holds under the version that an entry names. A first entry names none. -/
def StoredBehind (crates : Crates Value) (store : Store) (entry previous : ChainEntry) : Prop :=
  entry.model.seq ≠ 1 ∧ fetchSignedEntry crates store entry.model.prevVersion = .ok previous

/-- Of the entries that the store holds behind a tip, each one stands under the version it gives
itself. -/
def FiledByVersion (crates : Crates Value) (store : Store) (tip : ChainEntry) : Prop :=
  ∀ entry previous, Relation.ReflTransGen (StoredBehind crates store) tip entry →
    StoredBehind crates store entry previous → previous.model.version = entry.model.prevVersion

theorem filedByVersion_first (hseq : current.model.seq = 1) :
    FiledByVersion crates store current := by
  intro entry previous hreach hbehind
  rcases hreach.cases_head with rfl | ⟨next, hnext, -⟩
  · exact absurd hseq hbehind.1
  · exact absurd hseq hnext.1

theorem filedByVersion_iff (hbehind : StoredBehind crates store current previous) :
    FiledByVersion crates store current ↔
      current.model.prevVersion = previous.model.version ∧
        FiledByVersion crates store previous := by
  -- The store answers a version with one entry.
  have hunique : ∀ {other}, StoredBehind crates store current other → other = previous :=
    fun hother => Except.ok.inj (hother.2.symm.trans hbehind.2)
  constructor
  · intro h
    exact ⟨(h current previous .refl hbehind).symm, fun entry other hreach =>
      h entry other (.head hbehind hreach)⟩
  · rintro ⟨hversion, hrest⟩ entry other hreach hother
    rcases hreach.cases_head with rfl | ⟨next, hnext, hreach⟩
    · rw [hunique hother, hversion]
    · exact hrest entry other (hunique hnext ▸ hreach) hother

/-- A walk that succeeds has put a chain from its genesis in front of the entries it had. -/
theorem walkFrom_ok (h : (walkFrom crates store current later).2 = .ok walked) :
    ∃ earlier, walked = earlier ++ current :: later ∧ (∀ entry ∈ earlier, Read crates entry) ∧
      (∀ entry ∈ (earlier ++ [current]).head?, Genesis entry.model) ∧
      (earlier ++ [current]).IsChain (WalkLink crates) ∧
      (VersionLinked (earlier ++ [current]) ↔ FiledByVersion crates store current) := by
  fun_induction walkFrom crates store current later with
  | case1 current later hseq hgenesis =>
    cases h
    refine ⟨[], rfl, by simp, ?_, by simp, ?_⟩
    · intro entry hentry
      cases hentry
      exact ⟨hseq, hgenesis⟩
    · exact iff_of_true (List.isChain_singleton _) (filedByVersion_first hseq)
  | case2 | case3 | case4 => cases h
  | case5 current later hseq hversion previous hfetch hlink rest ih =>
    obtain ⟨earlier, rfl, hread, hgenesis, hchain, hversions⟩ := ih h
    have hlast : ∀ R : ChainEntry → ChainEntry → Prop,
        (earlier ++ [previous] ++ [current]).IsChain R ↔
          R previous current ∧ (earlier ++ [previous]).IsChain R := by
      intro R
      simp [List.isChain_append, and_left_comm]
    refine ⟨earlier ++ [previous], by simp, ?_, ?_, (hlast _).mpr ⟨hlink, hchain⟩, ?_⟩
    · exact List.forall_mem_append.mpr ⟨hread, List.forall_mem_singleton.mpr
        (read_of_fetchSignedEntry hfetch)⟩
    · intro entry hentry
      exact hgenesis entry (by simpa [List.head?_append] using hentry)
    · rw [filedByVersion_iff ⟨hseq, hfetch⟩, ← hversions]
      exact hlast _
  | case6 => cases h

/-- What the walk returns: a chain that ends in the tip, whose entries were all read. -/
theorem walkLockedChain_ok
    (hread : Read crates tip) (h : (walkLockedChain crates store tip).2 = .ok walked) :
    (∃ earlier, walked = earlier ++ [tip]) ∧ (∀ entry ∈ walked, Read crates entry) ∧
      (∀ entry ∈ walked.head?, Genesis entry.model) ∧ walked.IsChain (WalkLink crates) ∧
      (VersionLinked walked ↔ FiledByVersion crates store tip) := by
  obtain ⟨earlier, rfl, hearlier, hgenesis, hchain, hversions⟩ := walkFrom_ok h
  refine ⟨⟨earlier, rfl⟩, ?_, hgenesis, hchain, hversions⟩
  exact List.forall_mem_append.mpr ⟨hearlier, List.forall_mem_singleton.mpr hread⟩

/-! ## Agreement -/

/-- The forward reader takes the joined entries for the same chain. -/
def ReadForward (crates : Crates Value) (entries : List ChainEntry) : Prop :=
  ∃ ledger, validateLedgerBytes crates (entries.map (·.bytes)).flatten = .ok ledger ∧
    ledger.map (fun entry => (entry.model, entry.bytes)) =
      entries.map fun entry => (entry.model, entry.bytes)

/-- The forward reader asks for what the walk does, and for the version. -/
theorem ledgerLink_iff : LedgerLink crates previous entry.model ↔
      WalkLink crates previous entry ∧ entry.model.prevVersion = previous.model.version := by
  unfold LedgerLink WalkLink
  constructor
  · rintro ⟨hseq, hsha, hversion, htime⟩
    exact ⟨⟨hseq, hsha.symm, htime⟩, hversion⟩
  · rintro ⟨⟨hseq, hsha, htime⟩, hversion⟩
    exact ⟨hseq, hsha.symm, hversion, htime⟩

/-- An entry as the ledger has it, without a signature. -/
def unsigned (entry : ChainEntry) : ChainEntry := { entry with signature := none }

theorem readForward_iff (hne : entries ≠ []) (hread : ∀ entry ∈ entries, Read crates entry)
    (hgenesis : ∀ entry ∈ entries.head?, Genesis entry.model)
    (hchain : entries.IsChain (WalkLink crates)) :
    ReadForward crates entries ↔ VersionLinked entries := by
  constructor
  · rintro ⟨ledger, hledger, hsame⟩
    obtain ⟨_, _, hok, _⟩ := validateLedgerBytes_eq_ok_iff.mp hledger
    have hmodels : ledger.map (·.model) = entries.map (·.model) := by
      simpa [Function.comp_def] using congrArg (List.map Prod.fst) hsame
    have hversions : (ledger.map (·.model)).IsChain fun previous model =>
        model.prevVersion = previous.version :=
      (List.isChain_map _).mpr (hok.linked.imp fun _ _ hlink => (ledgerLink_iff.mp hlink).2)
    rw [hmodels, List.isChain_map] at hversions
    exact hversions
  · intro hversions
    -- The ledger's entries are the walked ones without their signatures.
    refine ⟨entries.map unsigned, ?_, by simp [unsigned, Function.comp_def]⟩
    have hbytes : entries.map (·.bytes) = (entries.map unsigned).map (·.bytes) := by
      simp [unsigned, Function.comp_def]
    rw [validateLedgerBytes_eq_ok_iff]
    refine ⟨by simpa using hne, by rw [hbytes], ⟨?_, ?_, ?_⟩, ?_⟩
    · intro entry hentry
      obtain ⟨walked, hwalked, rfl⟩ := List.mem_map.mp hentry
      exact hread walked hwalked
    · intro entry hentry
      rw [List.head?_map] at hentry
      obtain ⟨walked, hwalked, rfl⟩ := Option.mem_map.mp hentry
      exact hgenesis walked hwalked
    · rw [List.isChain_map]
      exact (isChain_and hchain hversions).imp fun _ _ h => ledgerLink_iff.mpr h
    · intro entry hentry
      obtain ⟨walked, _, rfl⟩ := List.mem_map.mp hentry
      rfl

/-- What is loaded for a pointer, from the ledger or by the walk, is a chain of read entries from a
genesis to the tip that the pointer names. -/
theorem loadEntriesForPointer_chain {again : Bool}
    (h : loadEntriesForPointer crates store pointer = .ok (entries, again)) :
    (∀ entry ∈ entries, Read crates entry) ∧ (∀ entry ∈ entries.head?, Genesis entry.model) ∧
      entries.IsChain (WalkLink crates) ∧ ∃ tip ∈ entries.getLast?,
        crates.transparencySha256Hex tip.bytes = pointer.tipSha256 ∧
          tip.model.seq = pointer.chainLength := by
  obtain ⟨tip, htip, h⟩ := bind_eq_ok h
  obtain ⟨_, hnamed, h⟩ := bind_eq_ok h
  simp only [requirePointerTip, ite_eq_right_iff, reduceCtorEq, imp_false, not_or, not_not]
    at hnamed
  split at h
  · cases h
  rename_i response _
  split at h
  · rename_i hfast
    cases h
    simp only [fastEntries, Option.ite_none_right_eq_some, Option.filter_eq_some_iff,
      Option.any_eq_true, Bool.and_eq_true, decide_eq_true_eq] at hfast
    obtain ⟨-, hledger, last, hlast, ⟨hdigest, hmodel⟩, -⟩ := hfast
    have hvalid : validateLedgerBytes crates response.body = .ok entries := by
      revert hledger
      cases validateLedgerBytes crates response.body <;> simp [Except.toOption]
    obtain ⟨-, -, hok, -⟩ := validateLedgerBytes_eq_ok_iff.mp hvalid
    exact ⟨hok.read, hok.genesis, hok.linked.imp fun _ _ h => (ledgerLink_iff.mp h).1, last, hlast,
      hdigest, hmodel ▸ hnamed.2⟩
  · obtain ⟨walked, hwalked, h⟩ := bind_eq_ok h
    obtain ⟨_, _, h⟩ := bind_eq_ok h
    cases h
    obtain ⟨⟨earlier, rfl⟩, hread, hgenesis, hchain, -⟩ :=
      walkLockedChain_ok (read_of_fetchSignedEntry htip) hwalked
    exact ⟨hread, hgenesis, hchain, tip, List.getLast?_concat, hnamed⟩

/-- Entries of a ledger with equal bytes are equal. -/
theorem entry_eq_of_bytes {q : ChainEntry} (hp : Read crates p) (hq : Read crates q)
    (hsigP : p.signature = none) (hsigQ : q.signature = none) (h : p.bytes = q.bytes) : p = q := by
  have hmodel : p.model = q.model := by
    have hread := hp.symm.trans (h ▸ hq : parseEntry crates p.bytes = .ok q.model)
    exact Except.ok.inj hread
  cases p
  cases q
  simp_all

/-- No entry of a ledger precedes a genesis. -/
theorem not_ledgerLink_genesis {d : ChainEntry} (hp : Read crates p) (hd : Genesis d.model) :
    ¬ LedgerLink crates p d.model := by
  intro hlink
  have hlt := (ledgerLink_iff.mp hlink).1.seq_lt
  have hone := one_le_seq_of_parseEntry hp
  have hseq : d.model.seq = 1 := hd.1
  omega

/-- Two ledgers that end in the same bytes are equal, unless two of their lines have one digest. -/
theorem ledger_eq_of_last {ledger' : Bytes} {entries' : List ChainEntry}
    (h : validateLedgerBytes crates ledger = .ok entries)
    (h' : validateLedgerBytes crates ledger' = .ok entries')
    (hsha : ∀ p ∈ entries, ∀ q ∈ entries', crates.transparencySha256Hex p.bytes =
      crates.transparencySha256Hex q.bytes → p.bytes = q.bytes)
    (hlast : entries.getLast?.map (·.bytes) = entries'.getLast?.map (·.bytes)) :
    ledger = ledger' := by
  obtain ⟨hne, rfl, hok, hsig⟩ := validateLedgerBytes_eq_ok_iff.mp h
  obtain ⟨hne', rfl, hok', hsig'⟩ := validateLedgerBytes_eq_ok_iff.mp h'
  obtain ⟨front, last, rfl⟩ := List.eq_nil_or_concat entries |>.resolve_left hne
  obtain ⟨front', last', rfl⟩ := List.eq_nil_or_concat entries' |>.resolve_left hne'
  simp only [List.concat_eq_append] at *
  have hsame : ∀ p ∈ front ++ [last], ∀ q ∈ front' ++ [last'], p.bytes = q.bytes → p = q :=
    fun p hp q hq hbytes => entry_eq_of_bytes (hok.read p hp) (hok'.read q hq) (hsig p hp)
      (hsig' q hq) hbytes
  have hend : last = last' := by
    rw [List.getLast?_concat, List.getLast?_concat] at hlast
    exact hsame last (by simp) last' (by simp) (Option.some.inj hlast)
  subst hend
  have hfront : front = front' := by
    refine eq_of_last_eq ?_ ?_ hok.linked hok'.linked hok.genesis hok'.genesis
    · intro p hp q hq d hpd hqd
      have hp' := List.mem_append_left [last] hp
      have hq' := List.mem_append_left [last] hq
      have hdigest := (ledgerLink_iff.mp hpd).1.2.1.trans (ledgerLink_iff.mp hqd).1.2.1.symm
      exact hsame p hp' q hq' (hsha p hp' q hq' hdigest)
    · rintro p (hp | hp) d hd
      · exact not_ledgerLink_genesis (hok.read p (List.mem_append_left _ hp)) hd
      · exact not_ledgerLink_genesis (hok'.read p (List.mem_append_left _ hp)) hd
  rw [hfront]

/-- The readers of the chain, from any store and any tip that was parsed from its bytes. The walk
fetches fewer entries than the tip's sequence number. The ledger takes what it returns for the same
chain exactly when every entry that the store holds behind the tip stands there under its own
version. A ledger is determined by its last line, as long as no two lines have one digest. -/
theorem chain_readers_agree_iff (crates : Crates Value) (store : Store) (tip : ChainEntry)
    (htip : parseEntry crates tip.bytes = .ok tip.model) :
    (walkLockedChain crates store tip).1 ≤ tip.model.seq ∧
      (∀ walked, (walkLockedChain crates store tip).2 = .ok walked →
        (ReadForward crates walked ↔ FiledByVersion crates store tip)) ∧
      ∀ ledger ledger' entries entries', validateLedgerBytes crates ledger = .ok entries →
        validateLedgerBytes crates ledger' = .ok entries' →
        (∀ p ∈ entries, ∀ q ∈ entries', crates.transparencySha256Hex p.bytes =
          crates.transparencySha256Hex q.bytes → p.bytes = q.bytes) →
        entries.getLast?.map (·.bytes) = entries'.getLast?.map (·.bytes) →
        ledger = ledger' := by
  refine ⟨(walkFrom_fetches htip).le, ?_, ?_⟩
  · intro walked hwalked
    obtain ⟨⟨earlier, rfl⟩, hread, hgenesis, hchain, hversions⟩ := walkLockedChain_ok htip hwalked
    rw [← hversions]
    exact readForward_iff (by simp) hread hgenesis hchain
  · intro ledger ledger' entries entries' h h' hsha hlast
    exact ledger_eq_of_last h h' hsha hlast

end Readers

/-! ## Two entries -/

section TwoEntries

/-- An entry of a short chain. Only the links, the version and the time vary. -/
def shortEntry (seq : Nat) (version prevVersion prevSha256 publishedUtc : String) :
    TransparencyLedgerEntryV1 where
  artifacts := [⟨7, "setup.exe", String.ofList (List.replicate 64 'a')⟩]
  manifests := [⟨"manifest.json", String.ofList (List.replicate 64 'b')⟩]
  prevSha256 := prevSha256
  prevVersion := prevVersion
  product := PRODUCT
  proofs := []
  publishedUtc := publishedUtc
  schema := "https://solpbc.org/schemas/transparency-ledger-entry/v1.json"
  seq := seq
  sourceCommit := String.ofList (List.replicate 40 'c')
  version := version

def firstEntry : TransparencyLedgerEntryV1 :=
  shortEntry 1 "1.0.0" "" ZERO_SHA256 "2026-07-22T00:00:00Z"

/-- What stands for the digest of `firstEntry`. -/
def firstDigest : String := "d"

/-- It names a version and the digest of `firstEntry`, whose version is 1.0.0. -/
def secondEntry (named : String) : TransparencyLedgerEntryV1 :=
  shortEntry 2 "1.2.0" named firstDigest "2026-07-23T00:00:00Z"

/-- Kept folded: entries are compared by name, not byte by byte. -/
@[irreducible] def canonicalBytes (entry : TransparencyLedgerEntryV1) : Bytes :=
  (canonicalizeTransparencyJson entry).toOption.getD []

/-- A JSON reader, a schema and a digest for these entries; every signature verifies. -/
def shortCrates : Crates TransparencyLedgerEntryV1 where
  fromSlice bytes :=
    [firstEntry, secondEntry "1.0.0", secondEntry "1.1.0"].find? (bytes = canonicalBytes ·)
  fromValue := some
  toValue := id
  validate entry := 1 ≤ entry.seq
  transparencySha256Hex bytes := if bytes = canonicalBytes firstEntry then firstDigest else "e"
  minisignVerifies _ _ := true
  one_le_seq _ h := of_decide_eq_true h

def signatureOf (entry : TransparencyLedgerEntryV1) : Bytes :=
  asBytes ("trusted comment: "
    ++ formatEntryTrustedComment shortCrates entry (canonicalBytes entry))

/-- An entry as it is fetched. -/
def signed (entry : TransparencyLedgerEntryV1) : ChainEntry :=
  ⟨entry, canonicalBytes entry, some (signatureOf entry)⟩

/-- The first entry is stored under the version that the second one names. There is no ledger. -/
def shortStore (named : String) : Store := fun key =>
  if key = "releases/solstone-windows/v/" ++ named ++ "/ledger-entry.json" then
    some ⟨200, canonicalBytes firstEntry⟩
  else if key = "releases/solstone-windows/v/" ++ named ++ "/ledger-entry.json.minisig" then
    some ⟨200, signatureOf firstEntry⟩
  else if key = "releases/solstone-windows/v/1.2.0/ledger-entry.json" then
    some ⟨200, canonicalBytes (secondEntry named)⟩
  else if key = "releases/solstone-windows/v/1.2.0/ledger-entry.json.minisig" then
    some ⟨200, signatureOf (secondEntry named)⟩
  else some ⟨404, []⟩

theorem parseEntry_first : parseEntry shortCrates (canonicalBytes firstEntry) = .ok firstEntry := by
  decide +kernel

theorem parseEntry_second {named : String} (hnamed : named = "1.0.0" ∨ named = "1.1.0") :
    parseEntry shortCrates (canonicalBytes (secondEntry named)) = .ok (secondEntry named) := by
  rcases hnamed with rfl | rfl
  · decide +kernel
  · decide +kernel

/-- Whatever version the second entry names, the first one is fetched under it. -/
theorem storedBehind_second (named : String) (hnamed : named = "1.0.0" ∨ named = "1.1.0") :
    StoredBehind shortCrates (shortStore named) (signed (secondEntry named))
      (signed firstEntry) := by
  refine ⟨by show 2 ≠ 1; decide, ?_⟩
  have hchecked : checkSignedEntry shortCrates (canonicalBytes firstEntry)
      (signatureOf firstEntry) = .ok (signed firstEntry) := by decide +kernel
  rcases hnamed with rfl | rfl
  · exact (fetchSignedEntry_eq (by decide +kernel) (by decide +kernel)).trans hchecked
  · exact (fetchSignedEntry_eq (by decide +kernel) (by decide +kernel)).trans hchecked

theorem walkLockedChain_second (named : String) (hnamed : named = "1.0.0" ∨ named = "1.1.0") :
    (walkLockedChain shortCrates (shortStore named) (signed (secondEntry named))).2 =
      .ok [signed firstEntry, signed (secondEntry named)] := by
  have hversion : (signed (secondEntry named)).model.prevVersion ≠ "" := by
    show named ≠ ""
    rcases hnamed with rfl | rfl <;> decide
  have htime : firstEntry.publishedUtc < (secondEntry named).publishedUtc := by
    show "2026-07-22T00:00:00Z" < "2026-07-23T00:00:00Z"
    decide +kernel
  have hlink : WalkLink shortCrates (signed firstEntry) (signed (secondEntry named)) :=
    ⟨rfl, if_pos rfl, htime⟩
  have hgenesis : Genesis (signed firstEntry).model := ⟨rfl, rfl, rfl⟩
  have hbehind := storedBehind_second named hnamed
  rw [walkLockedChain, walkFrom, if_neg hbehind.1, if_neg hversion, hbehind.2]
  simp only [dif_pos hlink]
  rw [walkFrom, if_pos hgenesis.1, if_pos hgenesis.2]

/-- The second entry names the first by its own version: two entries are loaded by the walk, and
they are a chain to the tip that the pointer names. -/
theorem loadEntriesForPointer_chain_two :
    let entries := [signed firstEntry, signed (secondEntry "1.0.0")]
    entries.IsChain (WalkLink shortCrates) ∧ ∃ tip ∈ entries.getLast?,
      shortCrates.transparencySha256Hex tip.bytes = "e" ∧ tip.model.seq = 2 := by
  have htip : fetchSignedEntry shortCrates (shortStore "1.0.0") "1.2.0" =
      .ok (signed (secondEntry "1.0.0")) := by
    decide +kernel
  have hload : loadEntriesForPointer shortCrates (shortStore "1.0.0") ⟨2, "e", "1.2.0"⟩ =
      .ok ([signed firstEntry, signed (secondEntry "1.0.0")], true) := by
    have hnamed : requirePointerTip shortCrates ⟨2, "e", "1.2.0"⟩ (signed (secondEntry "1.0.0")) =
        .ok () := by decide +kernel
    have hledger : shortStore "1.0.0" ("releases/" ++ PRODUCT ++ "/ledger.jsonl") =
        some ⟨404, []⟩ := by decide +kernel
    simp [loadEntriesForPointer, htip, hnamed, hledger, walkLockedChain_second _ (.inl rfl),
      fastEntries, checkUnusedLedger, bind, Except.bind, pure, Except.pure]
  exact (loadEntriesForPointer_chain hload).2.2

/-- The same store: what is walked is read forward. -/
theorem chain_readers_agree_two :
    ReadForward shortCrates [signed firstEntry, signed (secondEntry "1.0.0")] := by
  have hagree := chain_readers_agree_iff shortCrates (shortStore "1.0.0")
    (signed (secondEntry "1.0.0")) (parseEntry_second (.inl rfl))
  refine (hagree.2.1 _ (walkLockedChain_second _ (.inl rfl))).mpr ?_
  exact (filedByVersion_iff (storedBehind_second _ (.inl rfl))).mpr ⟨rfl, filedByVersion_first rfl⟩

/-- An entry that is stored under another version than its own, which the next entry names, is
walked, and the ledger of the walked entries is refused. -/
theorem walk_accepts_misplaced_entry :
    let tip := signed (secondEntry "1.1.0")
    parseEntry shortCrates tip.bytes = .ok tip.model ∧
      ∃ walked, (walkLockedChain shortCrates (shortStore "1.1.0") tip).2 = .ok walked ∧
        validateLedgerBytes shortCrates (walked.map (·.bytes)).flatten =
          .error (.chainInvalid "derived ledger has broken linkage"
            "contiguous sequence digest version and increasing time") := by
  have hsecond := parseEntry_second (.inr rfl)
  refine ⟨hsecond, _, walkLockedChain_second _ (.inr rfl), ?_⟩
  have hread : ∀ entry ∈ [signed firstEntry, signed (secondEntry "1.1.0")],
      Read shortCrates entry := by
    simp only [List.forall_mem_cons]
    exact ⟨parseEntry_first, hsecond, by simp⟩
  have hlink : ¬ LedgerLink shortCrates ⟨firstEntry, canonicalBytes firstEntry, none⟩
      (secondEntry "1.1.0") := by
    intro hlink
    have hversion : "1.1.0" = "1.0.0" := hlink.2.2.1
    exact absurd hversion (by decide)
  have hgenesis : Genesis firstEntry := ⟨rfl, rfl, rfl⟩
  rw [validateLedgerBytes_flatten (List.cons_ne_nil _ _) hread]
  show validateLines shortCrates none
    [canonicalBytes firstEntry, canonicalBytes (secondEntry "1.1.0")] = _
  simp only [validateLines, parseEntry_first, hsecond, checkLine, if_pos hgenesis, if_neg hlink,
    bind, Except.bind]

end TwoEntries

end SolstoneWindows.Xtask
