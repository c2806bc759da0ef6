import SolstoneWindows.Lib.Relocate
import SolstoneWindows.Proofs.PlTransportWin.Removal

/-!
# Segments a journal refused

A refused segment is set aside: its directory gets a record of the journal, and moves under
`quarantine`. A release for another journal moves it back. `Shift` is one thing that a set-aside, a
release or a scan does to the segments root, whatever fails and wherever the process stops, and
what a whole run keeps is proved about one `Shift`: every directory is in one place with its
payload, a directory without a record stays where it is, and one with a record leaves only in a
release for a journal that the record does not name.

That a release brings a segment back is about a call that returns: `Outcome` follows the directory
through it.
-/

set_option autoImplicit false

namespace SolstoneWindows.Proofs.PlTransportWin

open Lib.Effect Lib.Fs Relation
open SolstoneWindows.PlTransportWin
open ObserverAudio (fromUtf8 utf8)
open SolstoneWindows.PlatformWin (Place quarantineName)
open Proofs.Timeline (fromUtf8_utf8 parseU64_digits toDigits_isDigit)

/-! ## Shifts -/

/-- A file of the segment, and none of the names a scan drops. -/
def IsPayload (name : String) : Prop := isSwept name = false

/-- The places of a segment: its sealed directory, and the names it can be set aside under. -/
inductive Home (index : Nat) : Place → Prop
  | sealed : Home index (.sealed index)
  | aside (counter : Nat) : Home index (.quarantine (quarantineName (toString index) counter))

/-- The record of the directory says this. -/
def Refused (dir : Dir) (text : List Char) : Prop :=
  ∃ bytes mtime, dir.lookup REFUSED_BY_MARKER = some (.file bytes mtime) ∧
    fromUtf8 bytes = some text

/-- One thing that happens to the segments root. `asides` are the segments that may be set aside,
and for whom; `frees` is what the record of a directory may say that is released. -/
inductive Shift (D : Outside → Prop) (asides : Nat → String → Prop) (frees : List Char → Prop) :
    Disk Place → Disk Place → Prop
  | found {d : Disk Place} {o : Outside} (ho : D o) : Shift D asides frees d (o.found d)
  | dropped {d : Disk Place} (index : Nat) {name : String} (hname : isSwept name = true) :
    Shift D asides frees d (del d (.sealed index) name)
  | marked {d : Disk Place} (index : Nat) (bytes : List UInt8) (mtime : Nat) :
    Shift D asides frees d (put d (.sealed index) REFUSED_BY_MARKER (.file bytes mtime))
  | setAside {d : Disk Place} {index : Nat} {journal : String} {dir : Dir} (counter : Nat)
    (haside : asides index journal) (hdir : d.lookup (.sealed index) = some dir)
    (hrecord : Refused dir journal.toList)
    (hfree : d.lookup (.quarantine (quarantineName (toString index) counter)) = none) :
    Shift D asides frees d (putDir (delDir d (.sealed index))
      (.quarantine (quarantineName (toString index) counter)) dir)
  | released {d : Disk Place} {q : String} {index : Nat} {dir : Dir} {text : List Char}
    (hindex : setAsideIndex q = some index) (hdir : d.lookup (.quarantine q) = some dir)
    (hrecord : Refused dir text) (hfrees : frees text)
    (hfree : d.lookup (.sealed index) = none) :
    Shift D asides frees d (putDir (delDir d (.quarantine q)) (.sealed index) dir)

/-- What happens to the segments root in a call. -/
def Shifts (D : Outside → Prop) (asides : Nat → String → Prop) (frees : List Char → Prop)
    (w w' : World) : Prop := ReflTransGen (Shift D asides frees) w.disk w'.disk

/-- What happens to it in a release for the journal. -/
abbrev Releases (D : Outside → Prop) (journal : String) : World → World → Prop :=
  Shifts D (fun _ _ => False) (· ≠ journal.toList)

instance (D : Outside → Prop) (asides : Nat → String → Prop) (frees : List Char → Prop) :
    IsPreorder World (Shifts D asides frees) where
  refl _ := .refl
  trans _ _ _ h h' := h.trans h'

/-- What happens to it while nothing is set aside and nothing is released. -/
abbrev Stills (D : Outside → Prop) : World → World → Prop :=
  Shifts D (fun _ _ => False) fun _ => False

/-- The segment at the index was set aside in a call from `w` to `w'`: its directory is under a
name that was free, with every payload file and the record, and the index has no directory. If
nobody adds files, no other payload came along. -/
structure MovedAside (D : Outside → Prop) (w w' : World) (index : Nat) (refusedBy : String)
    (counter : Nat) (dir : Dir) : Prop where
  free : w.disk.lookup (.quarantine (quarantineName (toString index) counter)) = none
  aside : w'.disk.lookup (.quarantine (quarantineName (toString index) counter)) = some dir
  gone : w'.disk.lookup (.sealed index) = none
  record : Refused dir refusedBy.toList
  payload : ∀ name node, IsPayload name → node? w.disk (.sealed index) name = some node →
    dir.lookup name = some node
  unadded : (∀ o, D o → o.added = []) → ∀ name node, IsPayload name →
    dir.lookup name = some node → node? w.disk (.sealed index) name = some node

/-! ## What a shift keeps -/

/-- Every directory is somewhere, in its own place, with its payload. If nobody adds files, there is
no payload besides. -/
structure Carried (D : Outside → Prop) (d d' : Disk Place) (place : Place → Place) : Prop where
  relocated : Relocated IsPayload d d' place
  home : ∀ index k, Home index k → Home index (place k)
  unadded : (∀ o, D o → o.added = []) → Unadded IsPayload d d' place

/-- Names that a scan drops may have changed in sealed directories, and nothing else. -/
structure Brushed (d d' : Disk Place) : Prop where
  dir : ∀ k, (d'.lookup k).isSome = (d.lookup k).isSome
  node : ∀ k name, IsPayload name → node? d' k name = node? d k name
  aside : ∀ q, d'.lookup (.quarantine q) = d.lookup (.quarantine q)

/-- What is set aside with a record has one that can be read. -/
def Readable (d : Disk Place) : Prop :=
  ∀ q dir node, d.lookup (.quarantine q) = some dir →
    dir.lookup REFUSED_BY_MARKER = some node → ∃ text, Refused dir text

/-- The index is free, and what is set aside of it was refused by the journal. -/
structure Hidden (journal : String) (index : Nat) (d : Disk Place) : Prop where
  free : d.lookup (.sealed index) = none
  refused : ∀ q dir text, d.lookup (.quarantine q) = some dir → setAsideIndex q = some index →
    Refused dir text → text = journal.toList

section Keeps

variable {D : Outside → Prop} {asides : Nat → String → Prop} {frees : List Char → Prop}
  {d d' : Disk Place}

/-- Others do not add to what is set aside. -/
theorem found_aside (o : Outside) (d : Disk Place) (q : String) :
    (o.found d).lookup (.quarantine q) = d.lookup (.quarantine q) :=
  lookup_foldl_addEntry_ne (fun _ _ => by simp) d

theorem Carried.refl (D : Outside → Prop) (d : Disk Place) : Carried D d d id :=
  ⟨relocated_id (fun _ h => h) fun _ _ _ _ h => h, fun _ _ h => h,
    fun _ => unadded_id fun _ _ _ _ h => h⟩

theorem Carried.trans {d'' : Disk Place} {place place' : Place → Place}
    (h : Carried D d d' place) (h' : Carried D d' d'' place') :
    Carried D d d'' (place' ∘ place) :=
  ⟨h.relocated.trans h'.relocated, fun index k hk => h'.home index _ (h.home index k hk),
    fun hquiet => (h.unadded hquiet).trans (h'.unadded hquiet)⟩

variable {name journal : String} {dir : Dir} {index : Nat}

theorem brushed_del (d : Disk Place) (index : Nat) (hname : isSwept name = true) :
    Brushed d (del d (.sealed index) name) := by
  refine ⟨fun k => by rw [lookup_del_isSome], fun k name' hpayload => ?_, fun q => by simp⟩
  rw [node?_del, if_neg fun h => ?_]
  rw [h.2, IsPayload, hname] at hpayload
  cases hpayload

theorem brushed_put (d : Disk Place) (index : Nat) (hname : isSwept name = true)
    (node : Node) : Brushed d (put d (.sealed index) name node) := by
  refine ⟨fun k => by rw [lookup_put_isSome], fun k name' hpayload => node?_put_ne fun h => ?_,
    fun q => by simp⟩
  rw [h.2, IsPayload, hname] at hpayload
  cases hpayload

theorem Brushed.carried (h : Brushed d d') : Carried D d d' id := by
  refine ⟨relocated_id (fun k hk => ?_) fun k name node hpayload hnode => ?_, fun _ _ h => h,
    fun _ => unadded_id fun k name node hpayload hnode => ?_⟩
  · rw [h.dir]
    exact hk
  · rw [h.node k name hpayload]
    exact hnode
  · rw [← h.node k name hpayload]
    exact hnode

/-- A directory moves between the places of its segment. -/
theorem carried_of_move {k k' : Place} (hdir : d.lookup k = some dir)
    (hfree : d.lookup k' = none) (hhome : ∀ index, Home index k → Home index k') :
    Carried D d (putDir (delDir d k) k' dir) (Function.update id k k') := by
  refine ⟨relocated_move hdir hfree, fun index k1 hk1 => ?_, fun _ => unadded_move hdir⟩
  by_cases hk : k1 = k
  · subst hk
    rw [Function.update_self]
    exact hhome index hk1
  · rw [Function.update_of_ne hk]
    exact hk1

/-- What neither sets aside nor releases moves no directory. -/
theorem Shift.still (h : Shift D (fun _ _ => False) (fun _ => False) d d') :
    Carried D d d' id := by
  cases h with
  | @found o ho =>
    refine ⟨relocated_id (fun k => lookup_foldl_addEntry_isSome o.added) fun k name node _ =>
      node?_foldl_addEntry o.added, fun _ _ h => h,
      fun hquiet => unadded_id fun k name node _ h => ?_⟩
    rw [Outside.found, hquiet o ho] at h
    exact h
  | dropped index hname => exact (brushed_del d index hname).carried
  | marked index bytes mtime => exact (brushed_put d index rfl _).carried
  | setAside _ haside _ _ _ => exact haside.elim
  | released _ _ _ hfrees _ => exact hfrees.elim

theorem Shift.carried (h : Shift D asides frees d d') : ∃ place, Carried D d d' place := by
  cases h with
  | found ho => exact ⟨id, (Shift.found ho).still⟩
  | dropped index hname => exact ⟨id, (Shift.dropped index hname).still⟩
  | marked index bytes mtime => exact ⟨id, (Shift.marked index bytes mtime).still⟩
  | @setAside index journal dir counter _ hdir _ hfree =>
    refine ⟨_, carried_of_move hdir hfree fun index' hhome => ?_⟩
    cases hhome with
    | sealed => exact .aside counter
  | @released q index dir text hindex hdir _ _ hfree =>
    refine ⟨_, carried_of_move hdir hfree fun index' hhome => ?_⟩
    cases hhome with
    | aside counter =>
      -- the name was given at a set-aside of this segment
      rw [setAsideIndex_quarantineName hindex]
      exact .sealed

/-- What is set aside stays, or is released. -/
theorem Shift.stays {q : String} (h : Shift D asides frees d d')
    (hdir : d.lookup (.quarantine q) = some dir) :
    d'.lookup (.quarantine q) = some dir ∨ ∃ text, Refused dir text ∧ frees text := by
  cases h with
  | @found o _ => exact .inl ((found_aside o d q).trans hdir)
  | dropped index hname => exact .inl (((brushed_del d index hname).aside q).trans hdir)
  | marked index bytes mtime => exact .inl (((brushed_put d index rfl _).aside q).trans hdir)
  | @setAside index journal dir' counter _ _ _ hfree =>
    refine .inl ?_
    rw [lookup_putDir, if_neg fun heq => ?_, lookup_delDir, if_neg (by simp), hdir]
    rw [← heq, hdir] at hfree
    cases hfree
  | @released q' index dir' text _ hdir' hrecord hfrees _ =>
    by_cases heq : q = q'
    · subst heq
      rw [hdir] at hdir'
      cases hdir'
      exact .inr ⟨text, hrecord, hfrees⟩
    · exact .inl (by simp [heq, hdir])

/-- What neither sets aside nor releases leaves what is set aside. -/
theorem Shift.aside_same (h : Shift D (fun _ _ => False) (fun _ => False) d d') (q : String) :
    d'.lookup (.quarantine q) = d.lookup (.quarantine q) := by
  cases h with
  | @found o _ => exact found_aside o d q
  | dropped index hname => exact (brushed_del d index hname).aside q
  | marked index bytes mtime => exact (brushed_put d index rfl _).aside q
  | setAside _ haside _ _ _ => exact haside.elim
  | released _ _ _ hfrees _ => exact hfrees.elim

theorem Shift.readable (h : Shift D asides frees d d') (hd : Readable d) : Readable d' := by
  intro q dir node hdir hnode
  cases h with
  | @found o _ => exact hd q dir node ((found_aside o d q).symm.trans hdir) hnode
  | dropped index hname =>
    exact hd q dir node (((brushed_del d index hname).aside q).symm.trans hdir) hnode
  | marked index bytes mtime =>
    exact hd q dir node (((brushed_put d index rfl _).aside q).symm.trans hdir) hnode
  | @setAside index journal dir' counter _ _ hrecord _ =>
    rw [lookup_putDir] at hdir
    split at hdir
    · cases hdir
      exact ⟨_, hrecord⟩
    · rw [lookup_delDir, if_neg (by simp)] at hdir
      exact hd q dir node hdir hnode
  | @released q' index dir' text _ _ _ _ _ =>
    by_cases heq : q = q'
    · simp [heq] at hdir
    · exact hd q dir node (by simpa [heq] using hdir) hnode

theorem lookup_found_alone {o : Outside} (ho : D o) (halone : Alone D index)
    (d : Disk Place) : (o.found d).lookup (.sealed index) = d.lookup (.sealed index) :=
  lookup_foldl_addEntry_ne (fun a ha heq => halone o ho a ha (by cases heq; rfl)) d

theorem Refused.unique {text text' : List Char} (h : Refused dir text)
    (h' : Refused dir text') : text = text' := by
  obtain ⟨bytes, mtime, hnode, htext⟩ := h
  obtain ⟨bytes', mtime', hnode', htext'⟩ := h'
  rw [hnode] at hnode'
  cases hnode'
  rw [htext] at htext'
  exact Option.some.inj htext'

theorem Brushed.hidden (h : Brushed d d')
    (hd : Hidden journal index d) : Hidden journal index d' := by
  refine ⟨?_, fun q dir text hdir => hd.refused q dir text ((h.aside q).symm.trans hdir)⟩
  rw [← Option.not_isSome_iff_eq_none, h.dir, Option.not_isSome_iff_eq_none]
  exact hd.free

/-- While set-asides are for the journal and releases for no other, the index stays free. -/
theorem Shift.hidden (halone : Alone D index)
    (h : Shift D asides frees d d') (hasides : ∀ index' journal', asides index' journal' →
      journal' = journal) (hfrees : ∀ text, frees text → text ≠ journal.toList)
    (hd : Hidden journal index d) : Hidden journal index d' := by
  cases h with
  | @found o ho =>
    refine ⟨(lookup_found_alone ho halone d).trans hd.free, fun q dir text hdir => ?_⟩
    exact hd.refused q dir text ((found_aside o d q).symm.trans hdir)
  | dropped index' hname => exact (brushed_del d index' hname).hidden hd
  | marked index' bytes mtime => exact (brushed_put d index' rfl _).hidden hd
  | @setAside index' journal' dir' counter haside _ hrecord _ =>
    refine ⟨by simp [hd.free], fun q dir text hdir hindex htext => ?_⟩
    rw [lookup_putDir] at hdir
    split at hdir
    · cases hdir
      rw [htext.unique hrecord, hasides index' journal' haside]
    · rw [lookup_delDir, if_neg (by simp)] at hdir
      exact hd.refused q dir text hdir hindex htext
  | @released q' index' dir' text' hindex' hdir' hrecord hfree' _ =>
    -- what is released was refused by another journal, so it is not of this index
    have hne : index ≠ index' := by
      rintro rfl
      exact hfrees text' hfree' (hd.refused q' dir' text' hdir' hindex' hrecord)
    refine ⟨by simp [hne, hd.free], fun q dir text hdir => ?_⟩
    by_cases heq : q = q'
    · simp [heq] at hdir
    · exact hd.refused q dir text (by simpa [heq] using hdir)

end Keeps

/-! ## Calls -/

inductive StoreCall where
  | quarantine (index : Nat) (refusedBy : String)
  | releaseRefused (journal : String)
  | scan

/-- The program of a call. -/
def StoreCall.run (lib : Libraries) (periodSecs : Nat) : StoreCall → StoreProg Unit
  | .quarantine index refusedBy => PlTransportWin.quarantine index refusedBy
  | .releaseRefused journal => do
    let _ ← PlTransportWin.releaseRefused journal
    pure ()
  | .scan => do
    let _ ← PlTransportWin.scan lib periodSecs
    pure ()

/-- What a call sets aside. -/
def StoreCall.asides : StoreCall → Nat → String → Prop
  | .quarantine index refusedBy => fun index' journal => index' = index ∧ journal = refusedBy
  | _ => fun _ _ => False

def StoreCall.frees : StoreCall → List Char → Prop
  | .releaseRefused journal => (· ≠ journal.toList)
  | _ => fun _ => False

section Calls

variable {lib : Libraries} {periodSecs : Nat} {D : Outside → Prop} {asides : Nat → String → Prop}
  {frees : List Char → Prop} {w w' : World} {d d' : Disk Place} {α ε : Type}

theorem Shifts.of_peeks (h : Peeks D w w') : Shifts D asides frees w w' := by
  induction h with
  | refl => exact .refl
  | tail _ hlast ih =>
    obtain ⟨o, ho, rfl⟩ := hlast
    exact ih.tail (.found ho)

/-- A program that only looks. -/
theorem Moves.of_peeks {p : Prog Outside World ε α} {Q : α → World → Prop}
    (h : Moves D (Peeks D) w p Q) :
    Moves D (Shifts D asides frees) w p fun a w' => Q a w' ∧ Peeks D w w' :=
  (h.weaken fun _ _ hpeek hQ => ⟨hQ, hpeek⟩).imp fun _ => Shifts.of_peeks

theorem Shift.mono (h : Shift D (fun _ _ => False) (fun _ => False) d d') :
    Shift D asides frees d d' := by
  cases h with
  | found ho => exact .found ho
  | dropped index hname => exact .dropped index hname
  | marked index bytes mtime => exact .marked index bytes mtime
  | setAside _ haside _ _ _ => exact haside.elim
  | released _ _ _ hfrees _ => exact hfrees.elim

/-- A program that neither sets aside nor releases. -/
theorem Moves.of_stills {p : Prog Outside World ε α} {Q : α → World → Prop}
    (h : Moves D (Stills D) w p Q) :
    Moves D (Shifts D asides frees) w p fun a w' => Q a w' ∧ Stills D w w' :=
  (h.weaken fun _ _ hstill hQ => ⟨hQ, hstill⟩).imp fun _ hstill =>
    ReflTransGen.mono (fun _ _ => Shift.mono) _ _ hstill

theorem Stills.carried (h : Stills D w w') : Carried D w.disk w'.disk id :=
  reflTransGen_invariant (I := fun d => Carried D w.disk d id)
    (fun _ _ hd hstep => hd.trans hstep.still) (Carried.refl D _) h

theorem Stills.aside (h : Stills D w w') (q : String) :
    w'.disk.lookup (.quarantine q) = w.disk.lookup (.quarantine q) :=
  reflTransGen_invariant (I := fun d => d.lookup (.quarantine q) = w.disk.lookup (.quarantine q))
    (fun _ _ hd hstep => (hstep.aside_same q).trans hd) rfl h

variable {q : String} {index : Nat}

theorem Peeks.aside (h : Peeks D w w') :
    w'.disk.lookup (.quarantine q) = w.disk.lookup (.quarantine q) := by
  induction h with
  | refl => rfl
  | tail _ hlast ih =>
    obtain ⟨o, -, rfl⟩ := hlast
    rw [← ih]
    exact found_aside o _ q

/-- A scan drops leftovers, and finds what others added. -/
theorem shifts_of_idle (h : Path lib (idle D) w w') : Shifts D asides frees w w' := by
  induction h with
  | refl => exact .refl
  | tail _ hlast ih =>
    refine ih.trans ?_
    cases hlast with
    | found ho => exact .single (.found ho)
    | removed _ hmay =>
      rcases hmay with hswept | ⟨htouch, -⟩
      · exact .single (.dropped _ hswept)
      · exact htouch.elim
    | removedDir htouch _ _ | scratched htouch _ _ _ | acked htouch _ _ => exact htouch.elim
    | setAside _ haside _ _ => exact haside.elim
    | released hrelease _ _ _ => exact hrelease.elim
    | _ => exact .refl

variable (hD : D default)

include hD

/-- A set-aside that returns has moved the directory, with the record in it. -/
theorem quarantine_shifts {refusedBy : String} (haside : asides index refusedBy) :
    Moves D (Shifts D asides frees) w (quarantine index refusedBy) fun _ w' =>
      ∃ counter dir, MovedAside D w w' index refusedBy counter dir := by
  refine (Moves.of_stills (Moves.of_peeks (sync_peeks hD))).bind fun _ w1 _ h1 => ?_
  have hput : ∀ w bytes mtime, Stills D w { w with
      disk := put w.disk (.sealed index) REFUSED_BY_MARKER (.file bytes mtime) } :=
    fun w bytes mtime => .single (.marked index bytes mtime)
  refine (Moves.of_stills (create_moves hD Shifts.of_peeks (hput · []))).bind fun _ w2 _ h2 => ?_
  refine (Moves.of_stills (write_moves hD Shifts.of_peeks hput h2.1.2)).bind fun _ w3 _ h3 => ?_
  refine Moves.get_bind
    ((Moves.of_peeks (freeQuarantineName_peeks hD _ _ _)).bind fun name w4 _ h4 => ?_)
  obtain ⟨⟨counter, rfl⟩, hpeek⟩ := h4
  refine storeBy_moves hD Shifts.of_peeks fun o w5 h5 => ?_
  -- up to the move the directory stays, and its payload in it
  have hstill : Stills D w w5 :=
    h1.2.trans (h2.2.trans (h3.2.trans (Shifts.of_peeks (hpeek.trans h5))))
  obtain ⟨mtime, hrecord⟩ := h3.1.2
  replace hrecord := h5.grown.node (hpeek.grown.node hrecord)
  refine (renameDir_cases o.fs w5.disk _ _).imp_left fun ⟨dir, hdir, hfree, heq⟩ => ?_
  rw [node?_of_lookup hdir] at hrecord
  have hrefused : Refused dir refusedBy.toList := ⟨_, mtime, hrecord, fromUtf8_utf8 _⟩
  rw [heq]
  refine ⟨.single (.setAside counter haside hdir hrefused hfree), fun _ _ => ⟨counter, dir, ?_⟩⟩
  refine ⟨(hstill.aside _).symm.trans hfree, by simp, by simp, hrefused, ?_, ?_⟩
  · intro name node hpayload hnode
    rw [← node?_of_lookup hdir]
    exact hstill.carried.relocated.node _ name node hpayload hnode
  · intro hquiet name node hpayload hnode
    rw [← node?_of_lookup hdir] at hnode
    obtain ⟨_, rfl, hbefore⟩ := hstill.carried.unadded hquiet _ name node hpayload hnode
    exact hbefore

theorem removeEntry_shifts (index : Nat) {name : String} (hname : isSwept name = true) :
    Moves D (Shifts D asides frees) w (removeEntry index name) fun _ _ => True := by
  refine Moves.call hD fun o ho => ⟨?_, fun _ _ => trivial⟩
  have hfound : Shifts D asides frees w { w with disk := o.found w.disk } := .single (.found ho)
  rcases removeIn_cases o w index name with ⟨bytes, mtime, -, hr⟩ | ⟨hw, -⟩
  · rw [hr]
    exact hfound.tail (.dropped index hname)
  · rw [hw]
    exact hfound

omit hD in
/-- A release or a scan leaves a directory at the index. -/
theorem Shift.busy (h : Shift D (fun _ _ => False) frees d d')
    (hbusy : (d.lookup (.sealed index)).isSome) : (d'.lookup (.sealed index)).isSome := by
  cases h with
  | @found o _ => exact lookup_foldl_addEntry_isSome o.added hbusy
  | dropped index' _ => rwa [lookup_del_isSome]
  | marked index' bytes mtime => rwa [lookup_put_isSome]
  | setAside _ haside _ _ _ => exact haside.elim
  | @released q index' dir _ _ _ _ _ _ =>
    by_cases heq : index = index'
    · simp [heq]
    · simpa [heq] using hbusy

omit hD in
theorem Shifts.busy (h : Shifts D (fun _ _ => False) frees w w')
    (hbusy : (w.disk.lookup (.sealed index)).isSome) :
    (w'.disk.lookup (.sealed index)).isSome :=
  reflTransGen_invariant (I := fun d => (d.lookup (Place.sealed index)).isSome = true)
    (fun _ _ hbusy hstep => hstep.busy hbusy) hbusy h

/-- A release that returns leaves the index in use. -/
theorem releaseTo_shifts {dir : Dir} {text : List Char}
    (hindex : setAsideIndex q = some index) (hfrees : frees text)
    (hdir : w.disk.lookup (.quarantine q) = some dir) (hrecord : Refused dir text) :
    Moves D (Shifts D (fun _ _ => False) frees) w (releaseTo q index) fun _ w' =>
      (w'.disk.lookup (.sealed index)).isSome := by
  have hprobe : Moves D (Peeks D) w (store (dirExists (Place.sealed index))) fun taken w' =>
      taken = true → (w'.disk.lookup (.sealed index)).isSome := by
    refine store_peeks hD (probe_readOnly _) fun v w' taken _ hok htaken => ?_
    subst htaken
    unfold dirExists probe at hok
    cases hfault : v.fault with
    | stop kept => rw [hfault] at hok; cases hok
    | none | fail kept => rw [hfault] at hok; simp_all
  refine (Moves.of_peeks hprobe).bind fun taken w1 _ h1 => ?_
  cases taken with
  | true => exact Moves.pure (h1.1 rfl)
  | false =>
    have hmove : Moves D (Shifts D (fun _ _ => False) frees) w1
        (store (renameDir (.quarantine q) (.sealed index))) fun _ w' =>
          (w'.disk.lookup (.sealed index)).isSome := by
      refine storeBy_moves hD Shifts.of_peeks fun o w2 h2 => ?_
      have hsame : w2.disk.lookup (.quarantine q) = some dir := by
        rw [h2.aside, h1.2.aside, hdir]
      refine (renameDir_cases o.fs w2.disk _ _).imp_left fun ⟨dir', hdir', hfree, heq⟩ => ?_
      rw [hsame] at hdir'
      cases hdir'
      rw [heq]
      exact ⟨.single (.released hindex hsame hrecord hfrees hfree), fun _ _ => by simp⟩
    refine hmove.bind fun _ w2 _ h2 => ?_
    refine (removeEntry_shifts hD index rfl).ignore.bind fun _ w3 h3 _ => ?_
    exact Moves.pure (h3.busy h2)

/-- A release that comes to a directory of another journal, and returns, leaves its index in
use. -/
theorem releaseDir_shifts (journal q : String) :
    Moves D (Releases D journal) w (releaseDir journal q)
      fun _ w' => ∀ dir text index, w.disk.lookup (.quarantine q) = some dir → Refused dir text →
        text ≠ journal.toList → setAsideIndex q = some index →
        (w'.disk.lookup (.sealed index)).isSome := by
  have hread : Moves D (Releases D journal) w
      (Prog.attempt (store (read (.quarantine q) REFUSED_BY_MARKER)) : StoreProg _) fun r w' =>
        Peeks D w w' ∧ (∀ bytes, r = .ok bytes → ∃ mtime,
            node? w'.disk (.quarantine q) REFUSED_BY_MARKER = some (.file bytes mtime)) ∧
          (r = .error .notFound → node? w'.disk (.quarantine q) REFUSED_BY_MARKER = none) := by
    refine Runs.attempt (Runs.call hD fun o ho => ?_)
    have hpeek : Peeks D w { w with
        disk := (read (.quarantine q) REFUSED_BY_MARKER o.fs (o.found w.disk)).2 } := by
      rw [read_readOnly]
      exact .single ⟨o, ho, rfl⟩
    cases hend : (read (.quarantine q) REFUSED_BY_MARKER o.fs (o.found w.disk)).1 with
    | ok bytes =>
      refine ⟨Shifts.of_peeks hpeek, hpeek, ?_, fun h => by cases h⟩
      rintro _ ⟨⟩
      rw [read_readOnly]
      exact read_ok hend
    | stopped => exact Shifts.of_peeks hpeek
    | err e =>
      refine ⟨Shifts.of_peeks hpeek, hpeek, (fun _ h => by cases h), ?_⟩
      rintro ⟨⟩
      rw [read_readOnly]
      exact read_notFound hend
  refine hread.bind fun r w1 _ h1 => ?_
  obtain ⟨hpeek, hfile, hnone⟩ := h1
  cases r with
  | error e =>
    cases e with
    | notFound =>
      refine Moves.pure fun dir text index hdir hrecord _ _ => ?_
      obtain ⟨bytes, mtime, hnode, -⟩ := hrecord
      have hnone := hnone rfl
      rw [node?, hpeek.aside, hdir, Option.bind_some, hnode] at hnone
      cases hnone
    | _ => exact Moves.fail
  | ok bytes =>
    obtain ⟨mtime, hnode⟩ := hfile bytes rfl
    obtain ⟨dir1, hdir1, hlookup⟩ := lookup_of_node? hnode
    have hsame : ∀ dir, w.disk.lookup (.quarantine q) = some dir → dir = dir1 := by
      intro dir hdir
      rw [hpeek.aside, hdir] at hdir1
      exact Option.some.inj hdir1
    -- the record was read
    have htext : ∀ dir text, w.disk.lookup (.quarantine q) = some dir → Refused dir text →
        fromUtf8 bytes = some text := by
      intro dir text hdir hrecord
      obtain ⟨bytes', mtime', hnode', htext⟩ := hrecord
      rw [hsame dir hdir, hlookup] at hnode'
      cases hnode'
      exact htext
    dsimp only
    cases hutf : fromUtf8 bytes with
    | none => exact Moves.fail
    | some text =>
      dsimp only
      by_cases hjournal : text = journal.toList
      · rw [if_pos hjournal]
        refine Moves.pure fun dir text' index hdir hrecord hne _ => ?_
        have heq := htext dir text' hdir hrecord
        rw [hutf] at heq
        cases heq
        exact absurd hjournal hne
      · rw [if_neg hjournal]
        cases hindex : setAsideIndex q with
        | none => exact Moves.pure fun _ _ _ _ _ _ h => by cases h
        | some index =>
          have hrecord : Refused dir1 text := ⟨bytes, mtime, hlookup, hutf⟩
          refine (releaseTo_shifts hD hindex hjournal hdir1 hrecord).weaken
            fun _ w2 _ hbusy _ _ index' _ _ _ heq => ?_
          cases heq
          exact hbusy

theorem releaseDirs_shifts (journal : String) (names : List String) :
    Moves D (Releases D journal) w (releaseDirs journal names)
      fun _ _ => True := by
  induction names generalizing w with
  | nil => exact Moves.pure trivial
  | cons q names ih =>
    refine (releaseDir_shifts hD journal q).bind fun _ w1 _ _ => ?_
    exact ih.bind fun _ _ _ _ => Moves.pure trivial

/-- Every call, however it ends. -/
theorem StoreCall.shifts (call : StoreCall) :
    Moves D (Shifts D call.asides call.frees) w (call.run lib periodSecs) fun _ _ => True := by
  cases call with
  | quarantine index refusedBy =>
    exact (quarantine_shifts hD ⟨rfl, rfl⟩).weaken fun _ _ _ _ => trivial
  | releaseRefused journal =>
    exact ((Moves.of_peeks (listDirs_peeks hD)).bind fun dirs w1 _ _ =>
      releaseDirs_shifts hD journal _).bind fun _ _ _ _ => Moves.pure trivial
  | scan =>
    have hidle : (idle D).outside default := hD
    exact Moves.bind ((scanFiltered_idle hidle false).imp fun _ => shifts_of_idle)
      fun _ _ _ _ => Moves.pure trivial

end Calls

/-! ## A release -/

/-- The payload of the directory is at the index. -/
def Holds (dir : Dir) (index : Nat) (d : Disk Place) : Prop :=
  ∃ dir', d.lookup (.sealed index) = some dir' ∧
    ∀ name, IsPayload name → dir'.lookup name = dir.lookup name

/-- What became of a set-aside directory whose index was free. -/
inductive Outcome (d0 : Disk Place) (q : String) (dir : Dir) (index : Nat) (d : Disk Place) : Prop
  | waiting (haside : d.lookup (.quarantine q) = some dir) (hfree : d.lookup (.sealed index) = none)
  | back (hgone : d.lookup (.quarantine q) = none) (hback : Holds dir index d)
  /-- Another set-aside directory of the index is there. -/
  | taken (haside : d.lookup (.quarantine q) = some dir) (q' : String) (dir' : Dir)
    (hne : q' ≠ q) (hindex : setAsideIndex q' = some index)
    (hother : d0.lookup (.quarantine q') = some dir') (hholds : Holds dir' index d)

/-- The directory is back at its index, or another one of the index is. -/
def Returned (d0 : Disk Place) (q : String) (dir : Dir) (index : Nat) (d : Disk Place) : Prop :=
  (d.lookup (.quarantine q) = none ∧ Holds dir index d) ∨
    (d.lookup (.quarantine q) = some dir ∧ ∃ q' dir', q' ≠ q ∧ setAsideIndex q' = some index ∧
      d0.lookup (.quarantine q') = some dir' ∧ Holds dir' index d)

/-- A release in progress: nothing was set aside since, and the directory is as the outcome says. -/
structure Followed (d0 : Disk Place) (q : String) (dir : Dir) (index : Nat) (d : Disk Place) :
    Prop where
  asides : ∀ q' dir', d.lookup (.quarantine q') = some dir' → d0.lookup (.quarantine q') = some dir'
  outcome : Outcome d0 q dir index d

section Release

variable {D : Outside → Prop} {frees : List Char → Prop} {d0 d d' : Disk Place} {q : String}
  {dir : Dir} {index : Nat}

/-- The other places may change; names that a scan drops may change. -/
theorem Outcome.congr (h : Outcome d0 q dir index d)
    (haside : d'.lookup (.quarantine q) = d.lookup (.quarantine q))
    (hfree : d.lookup (.sealed index) = none → d'.lookup (.sealed index) = none)
    (hholds : ∀ dir', Holds dir' index d → Holds dir' index d') : Outcome d0 q dir index d' := by
  cases h with
  | waiting h hnone => exact .waiting (haside.trans h) (hfree hnone)
  | back h hback => exact .back (haside.trans h) (hholds _ hback)
  | taken h q' dir' hne hindex hother hback =>
    exact .taken (haside.trans h) q' dir' hne hindex hother (hholds _ hback)

theorem Outcome.not_free (h : Outcome d0 q dir index d) (hfree : d.lookup (.sealed index) = none) :
    d.lookup (.quarantine q) = some dir := by
  have hempty : ∀ dir', ¬ Holds dir' index d := by
    intro dir' ⟨dir'', hdir'', _⟩
    rw [hfree] at hdir''
    cases hdir''
  cases h with
  | waiting h _ => exact h
  | back _ hback => exact absurd hback (hempty _)
  | taken h _ _ _ _ _ _ => exact h

theorem Outcome.returned (h : Outcome d0 q dir index d)
    (hbusy : (d.lookup (.sealed index)).isSome) : Returned d0 q dir index d := by
  cases h with
  | waiting _ hfree =>
    rw [hfree] at hbusy
    cases hbusy
  | back hgone hback => exact .inl ⟨hgone, hback⟩
  | taken haside q' dir' hne hindex hother hholds =>
    exact .inr ⟨haside, q', dir', hne, hindex, hother, hholds⟩

theorem Brushed.holds (h : Brushed d d') (dir' : Dir) (hholds : Holds dir' index d) :
    Holds dir' index d' := by
  obtain ⟨dir1, hdir1, hsame⟩ := hholds
  obtain ⟨dir2, hdir2⟩ : ∃ dir2, d'.lookup (.sealed index) = some dir2 := by
    refine Option.isSome_iff_exists.mp ?_
    rw [h.dir, hdir1]
    rfl
  refine ⟨dir2, hdir2, fun name hpayload => ?_⟩
  have heq := h.node (.sealed index) name hpayload
  rw [node?_of_lookup hdir2, node?_of_lookup hdir1] at heq
  rw [heq, hsame name hpayload]

theorem Brushed.followed (h : Brushed d d') (hd : Followed d0 q dir index d) :
    Followed d0 q dir index d' := by
  refine ⟨fun q' dir' hdir' => hd.asides q' dir' ((h.aside q').symm.trans hdir'), ?_⟩
  refine hd.outcome.congr (h.aside q) (fun hfree => ?_) h.holds
  rw [← Option.not_isSome_iff_eq_none, h.dir, Option.not_isSome_iff_eq_none]
  exact hfree

theorem Shift.followed (halone : Alone D index) (hindex : setAsideIndex q = some index)
    (h : Shift D (fun _ _ => False) frees d d') (hd : Followed d0 q dir index d) :
    Followed d0 q dir index d' := by
  cases h with
  | @found o ho =>
    refine ⟨fun q' dir' h => hd.asides q' dir' ((found_aside o d q').symm.trans h), ?_⟩
    have hsame := lookup_found_alone ho halone d
    refine hd.outcome.congr (found_aside o d q) (fun h => hsame.trans h) fun dir' h => ?_
    obtain ⟨dir1, hdir1, hnames⟩ := h
    exact ⟨dir1, hsame.trans hdir1, hnames⟩
  | dropped index' hname => exact (brushed_del d index' hname).followed hd
  | marked index' bytes mtime => exact (brushed_put d index' rfl _).followed hd
  | setAside _ haside _ _ _ => exact haside.elim
  | @released q' index' dir' text hindex' hdir' _ _ hfree =>
    refine ⟨fun q1 dir1 h => ?_, ?_⟩
    · by_cases heq : q1 = q'
      · simp [heq] at h
      · exact hd.asides q1 dir1 (by simpa [heq] using h)
    by_cases hq : q' = q
    · -- it is this directory, and it goes to its index
      subst hq
      rw [hindex] at hindex'
      cases hindex'
      rw [hd.outcome.not_free hfree] at hdir'
      cases hdir'
      exact .back (by simp) ⟨dir, by simp, fun _ _ => rfl⟩
    · by_cases hi : index' = index
      · subst hi
        refine .taken ?_ q' dir' hq hindex' (hd.asides q' dir' hdir')
          ⟨dir', by simp, fun _ _ => rfl⟩
        rw [lookup_putDir, if_neg (by simp), lookup_delDir, if_neg (by simp [Ne.symm hq])]
        exact hd.outcome.not_free hfree
      · have hne : index ≠ index' := Ne.symm hi
        refine hd.outcome.congr (by simp [Ne.symm hq]) (fun h => by simp [hne, h]) fun dir1 h => ?_
        obtain ⟨dir2, hdir2, hnames⟩ := h
        exact ⟨dir2, by simp [hne, hdir2], hnames⟩

variable {w : World} {journal : String} {text : List Char}

/-- The loop comes to the directory while it waits, or finds its index in use. -/
theorem releaseDirs_busy (hD : D default) (halone : Alone D index)
    (hindex : setAsideIndex q = some index) (hrecord : Refused dir text)
    (htext : text ≠ journal.toList) {names : List String} (hq : q ∈ names)
    (hd : Followed d0 q dir index w.disk) :
    Moves D (Releases D journal) w (releaseDirs journal names)
      fun _ w' => (w'.disk.lookup (.sealed index)).isSome := by
  induction names generalizing w with
  | nil => cases hq
  | cons q1 names ih =>
    refine (releaseDir_shifts hD journal q1).bind fun _ w1 h1 hpost => ?_
    have hd1 : Followed d0 q dir index w1.disk :=
      reflTransGen_invariant (fun _ _ hd h => h.followed halone hindex hd) hd h1
    -- once the index is in use it stays so, and otherwise the directory is still to come
    by_cases hbusy : (w1.disk.lookup (.sealed index)).isSome
    · refine (releaseDirs_shifts hD journal names).bind fun _ w2 h2 _ => ?_
      exact Moves.pure (h2.busy hbusy)
    rcases List.mem_cons.mp hq with rfl | hq
    · have hfree : w.disk.lookup (.sealed index) = none := by
        rw [← Option.not_isSome_iff_eq_none]
        exact fun hbefore => hbusy (h1.busy hbefore)
      exact absurd (hpost dir text index (hd.outcome.not_free hfree) hrecord htext hindex) hbusy
    · exact (ih hq hd1).bind fun _ _ _ h => Moves.pure h

/-- A release that returns has brought the directory back, or another one of its index. -/
theorem releaseRefused_outcome (hD : D default) (halone : Alone D index)
    (hindex : setAsideIndex q = some index) (hdir : w.disk.lookup (.quarantine q) = some dir)
    (hrecord : Refused dir text) (htext : text ≠ journal.toList)
    (hfree : w.disk.lookup (.sealed index) = none) :
    Moves D (Releases D journal) w (releaseRefused journal)
      fun _ w' => Outcome w.disk q dir index w'.disk ∧
        (w'.disk.lookup (.sealed index)).isSome := by
  have hstart : Followed w.disk q dir index w.disk := ⟨fun _ _ h => h, .waiting hdir hfree⟩
  have hkeep : ∀ {w' : World}, Releases D journal w w' → Followed w.disk q dir index w'.disk :=
    fun h => reflTransGen_invariant (fun _ _ hd h => h.followed halone hindex hd) hstart h
  refine Moves.weaken ((Moves.of_peeks (listDirs_peeks hD)).bind fun dirs w1 h1 hdirs => ?_)
    fun _ _ h hbusy => ⟨(hkeep h).outcome, hbusy⟩
  obtain ⟨rfl, hpeek⟩ := hdirs
  refine releaseDirs_busy hD halone hindex hrecord htext ?_ (hkeep h1)
  refine List.mem_filterMap.mpr ⟨.quarantine q, ?_, rfl⟩
  rw [← AList.mem_keys, ← AList.lookup_isSome, hpeek.aside, hdir]
  rfl

end Release

/-! ## A release that meets no failure -/

/-- The program returns. -/
abbrev Completes {α : Type} (D : Outside → Prop) (w : World) (p : StoreProg α)
    (Q : α → World → Prop := fun _ _ => True) : Prop :=
  Runs D w p Q (fun _ _ => False) fun _ => False

section Calm

variable {D : Outside → Prop} (hD : D default) (hsmooth : Smooth D)
  (hquiet : ∀ o, D o → o.added = []) {w : World} {α : Type}

include hD hsmooth hquiet

/-- A call that goes through, on a disk that nobody else touches. -/
theorem store_calm {body : Body Place α} {Q : α → World → Prop} {E : FsError → World → Prop}
    (h : ∀ v, Clear v → Satisfies Q E (fun _ => False) (body v w.disk).1
      { w with disk := (body v w.disk).2 }) : Runs D w (store body) Q E fun _ => False := by
  refine Runs.call hD fun o ho => ?_
  have hfound : o.found w.disk = w.disk := by
    rw [Outside.found, hquiet o ho]
    rfl
  dsimp only
  rw [hfound]
  exact h o.fs (hsmooth o ho).1

omit hquiet in
/-- A removal does not stop the process. -/
theorem removeEntry_calm (index : Nat) (name : String) :
    Runs D w (removeEntry index name) (fun _ _ => True) (fun _ _ => True) fun _ => False := by
  refine Runs.call hD fun o ho => ?_
  cases hended : (removeIn index name o w).1 with
  | ok a | err e => trivial
  | stopped =>
    unfold removeIn removeFile atomic at hended
    rw [(hsmooth o ho).2.1] at hended
    dsimp only at hended
    split at hended
    · cases hended
    · rename_i heq
      simp only at hended
      split at heq <;> (cases heq; cases hended)

theorem releaseTo_calm {q : String} {index : Nat} {dir : Dir}
    (hdir : w.disk.lookup (.quarantine q) = some dir) :
    Completes D w (releaseTo q index) := by
  have hprobe : Completes D w (store (dirExists (Place.sealed index)))
      fun taken w' => taken = (w.disk.lookup (.sealed index)).isSome ∧ w' = w := by
    refine store_calm hD hsmooth hquiet fun v hv => ?_
    unfold dirExists probe
    rw [hv.1, hv.2]
    exact ⟨rfl, rfl⟩
  refine hprobe.bind fun taken w1 h1 => ?_
  obtain ⟨htaken, rfl⟩ := h1
  cases taken with
  | true => exact Runs.pure trivial
  | false =>
    have hfree : w1.disk.lookup (.sealed index) = none := by
      rw [← Option.not_isSome_iff_eq_none, ← htaken]
      exact Bool.false_ne_true
    have hmove : Completes D w1 (store (renameDir (.quarantine q) (.sealed index))) := by
      refine store_calm hD hsmooth hquiet fun v hv => ?_
      unfold renameDir atomic
      rw [hv.1]
      dsimp only
      rw [hdir, hfree]
      trivial
    refine hmove.bind fun _ w2 _ => ?_
    refine Runs.bind (Runs.ignore (Q := fun _ _ => True)
      (removeEntry_calm hD hsmooth index REFUSED_BY_MARKER)) fun _ w3 _ => ?_
    exact Runs.pure trivial

/-- A record that can be read keeps nothing from being released. -/
theorem releaseDir_calm (hread : Readable w.disk) (journal q : String) :
    Completes D w (releaseDir journal q) := by
  have hcall : Completes D w (Prog.attempt (store (read (.quarantine q) REFUSED_BY_MARKER)))
      fun r w' => w' = w ∧ (r = .error .notFound ∨
        ∃ dir bytes text, w.disk.lookup (.quarantine q) = some dir ∧ r = .ok bytes ∧
          fromUtf8 bytes = some text) := by
    refine Runs.attempt (store_calm hD hsmooth hquiet fun v hv => ?_)
    unfold Lib.Fs.read atomic
    rw [hv.1]
    dsimp only
    cases hnode : node? w.disk (.quarantine q) REFUSED_BY_MARKER with
    | none => exact ⟨rfl, .inl rfl⟩
    | some node =>
      obtain ⟨dir, hdir, hlookup⟩ := lookup_of_node? hnode
      obtain ⟨text, bytes, mtime, hrecord, htext⟩ := hread q dir node hdir hlookup
      rw [hrecord] at hlookup
      cases hlookup
      exact ⟨rfl, .inr ⟨dir, bytes, text, hdir, rfl, htext⟩⟩
  refine hcall.bind fun r w1 h1 => ?_
  obtain ⟨rfl, rfl | ⟨dir, bytes, text, hdir, rfl, htext⟩⟩ := h1
  · exact Runs.pure trivial
  · dsimp only
    rw [htext]
    dsimp only
    split
    · exact Runs.pure trivial
    · cases hindex : setAsideIndex q with
      | none => exact Runs.pure trivial
      | some index => exact releaseTo_calm hD hsmooth hquiet hdir

/-- A release returns when nothing fails. -/
theorem releaseRefused_calm (hread : Readable w.disk) (journal : String) :
    Completes D w (releaseRefused journal) := by
  have hloop : ∀ names w, Readable w.disk → Completes D w (releaseDirs journal names) := by
    intro names
    induction names with
    | nil => exact fun _ _ => Runs.pure trivial
    | cons q names ih =>
      intro w hread
      refine Runs.bind (Runs.mono (Runs.and (releaseDir_calm hD hsmooth hquiet hread journal q)
        (releaseDir_shifts hD journal q)) (fun _ _ h => h.2.1) (fun _ _ h => h.1)
        fun _ h => h.1) fun _ w1 h1 => ?_
      have hread1 : Readable w1.disk :=
        reflTransGen_invariant (fun _ _ hd h => h.readable hd) hread h1
      exact Runs.bind (ih w1 hread1) fun _ _ _ => Runs.pure trivial
  have hlist : Completes D w (store listDirs) fun _ w' => w' = w := by
    refine store_calm hD hsmooth hquiet fun v hv => ?_
    unfold listDirs atomic
    rw [hv.1]
    rfl
  refine hlist.bind fun dirs w1 h1 => ?_
  subst h1
  exact hloop _ _ hread

end Calm

/-! ## Runs -/

/-- One step: a call, which may fail or be cut short at any point, or something that leaves the
segments root alone, such as a restart or a new pairing. -/
inductive StoreStep (lib : Libraries) (periodSecs : Nat) (D : Outside → Prop) (w w' : World) : Prop
  | called (call : StoreCall) (os : List Outside) (hos : ∀ o ∈ os, D o)
    (h : (call.run lib periodSecs).final os w = w')
  | elsewhere (h : w'.disk = w.disk)

/-- The directory left in a release for another journal. -/
def Left (lib : Libraries) (periodSecs : Nat) (D : Outside → Prop) (w0 w : World) (q : String)
    (dir : Dir) : Prop :=
  ∃ w1 w2 journal text os, ReflTransGen (StoreStep lib periodSecs D) w0 w1 ∧
    w1.disk.lookup (.quarantine q) = some dir ∧ Refused dir text ∧ text ≠ journal.toList ∧
    ((StoreCall.releaseRefused journal).run lib periodSecs).final os w1 = w2 ∧
    ReflTransGen (StoreStep lib periodSecs D) w2 w

/-- The segment was read from a sealed directory, while what is set aside was where it is. -/
def ListedFrom (w : World) (segment : SealedSegment) : Prop :=
  ∃ (d : Disk Place) (dir : Dir), d.lookup (.sealed segment.index) = some dir ∧
    segment.files = (listedNames dir).filter isUploaded ∧
    ∀ q, d.lookup (.quarantine q) = w.disk.lookup (.quarantine q)

/-- The client's journal is this one: set-asides are for it, and releases too. -/
def StoreCall.IsFor (journal : String) : StoreCall → Prop
  | .quarantine _ refusedBy => refusedBy = journal
  | .releaseRefused journal' => journal' = journal
  | .scan => True

/-- One step while the client's journal is this one. -/
inductive StepFor (lib : Libraries) (periodSecs : Nat) (D : Outside → Prop) (journal : String)
    (w w' : World) : Prop
  | called (call : StoreCall) (hfor : call.IsFor journal) (os : List Outside)
    (hos : ∀ o ∈ os, D o) (h : (call.run lib periodSecs).final os w = w')
  | elsewhere (h : w'.disk = w.disk)

section Runs

variable {lib : Libraries} {periodSecs : Nat} {D : Outside → Prop} (hD : D default)
  {w0 w w' : World}

include hD

theorem StoreStep.carried (h : StoreStep lib periodSecs D w w') :
    ∃ place, Carried D w.disk w'.disk place := by
  cases h with
  | called call os hos h =>
    have hshifts : Shifts D call.asides call.frees w w' := h ▸ (call.shifts hD).final hos
    unfold Shifts at hshifts
    generalize w.disk = d, w'.disk = d' at hshifts
    induction hshifts with
    | refl => exact ⟨id, Carried.refl D _⟩
    | tail _ hlast ih =>
      obtain ⟨place, hplace⟩ := ih
      obtain ⟨place', hplace'⟩ := hlast.carried
      exact ⟨_, hplace.trans hplace'⟩
  | elsewhere h =>
    rw [h]
    exact ⟨id, Carried.refl D _⟩

theorem StoreStep.readable (h : StoreStep lib periodSecs D w w') (hw : Readable w.disk) :
    Readable w'.disk := by
  cases h with
  | called call os hos h =>
    have hshifts : Shifts D call.asides call.frees w w' := h ▸ (call.shifts hD).final hos
    exact reflTransGen_invariant (fun _ _ hd h => h.readable hd) hw hshifts
  | elsewhere h =>
    rw [h]
    exact hw

variable {os : List Outside} {q : String} {dir : Dir}

/-- A call keeps what is set aside, or is a release for a journal other than the recorded one. -/
theorem StoreCall.stays (call : StoreCall) (hos : ∀ o ∈ os, D o)
    (hdir : w.disk.lookup (.quarantine q) = some dir) :
    ((call.run lib periodSecs).final os w).disk.lookup (.quarantine q) = some dir ∨
      ∃ text, Refused dir text ∧ call.frees text := by
  have hshifts : Shifts D call.asides call.frees w ((call.run lib periodSecs).final os w) :=
    (call.shifts hD).final hos
  refine reflTransGen_invariant (I := fun d => d.lookup (.quarantine q) = some dir ∨
    ∃ text, Refused dir text ∧ call.frees text) (fun d d' hd h => ?_) (.inl hdir) hshifts
  rcases hd with hd | hd
  · exact h.stays hd
  · exact .inr hd

theorem stays_or_left (hrun : ReflTransGen (StoreStep lib periodSecs D) w0 w)
    (hdir : w0.disk.lookup (.quarantine q) = some dir) :
    w.disk.lookup (.quarantine q) = some dir ∨ Left lib periodSecs D w0 w q dir := by
  induction hrun with
  | refl => exact .inl hdir
  | @tail w1 w2 hbefore hstep ih =>
    rcases ih with hdir1 | ⟨w3, w4, journal, text, os, hto, hdir3, hrecord, htext, hcall, hfrom⟩
    · cases hstep with
      | elsewhere h =>
        rw [h]
        exact .inl hdir1
      | called call os hos h =>
        rcases call.stays hD hos hdir1 with hstays | ⟨text, hrecord, hfrees⟩
        · rw [← h]
          exact .inl hstays
        · cases call with
          | quarantine index refusedBy | scan => exact hfrees.elim
          | releaseRefused journal =>
            exact .inr ⟨w1, w2, journal, text, os, hbefore, hdir1, hrecord, hfrees, h, .refl⟩
    · exact .inr ⟨w3, w4, journal, text, os, hto, hdir3, hrecord, htext, hcall,
        hfrom.tail hstep⟩

theorem carried_of_run (hrun : ReflTransGen (StoreStep lib periodSecs D) w0 w) :
    ∃ place, Carried D w0.disk w.disk place := by
  induction hrun with
  | refl => exact ⟨id, Carried.refl D _⟩
  | tail _ hstep ih =>
    obtain ⟨place, hplace⟩ := ih
    obtain ⟨place', hplace'⟩ := hstep.carried hD
    exact ⟨_, hplace.trans hplace'⟩

theorem StepFor.hidden {journal : String} {index : Nat} (halone : Alone D index)
    (h : StepFor lib periodSecs D journal w w') (hw : Hidden journal index w.disk) :
    Hidden journal index w'.disk := by
  cases h with
  | elsewhere h =>
    rw [h]
    exact hw
  | called call hfor os hos h =>
    have hshifts : Shifts D call.asides call.frees w w' := h ▸ (call.shifts hD).final hos
    have hasides : ∀ index' journal', call.asides index' journal' → journal' = journal := by
      intro index' journal' haside
      cases call with
      | quarantine => exact haside.2.trans hfor
      | releaseRefused | scan => exact haside.elim
    have hfrees : ∀ text, call.frees text → text ≠ journal.toList := by
      intro text hfree
      cases call with
      | releaseRefused journal' => exact hfor ▸ hfree
      | quarantine | scan => exact hfree.elim
    exact reflTransGen_invariant (fun _ _ hd hstep => hstep.hidden halone hasides hfrees hd) hw
      hshifts

/-- What a scan lists was in a sealed directory at some point of it. -/
theorem scan_reads (hos : ∀ o ∈ os, D o) {segments : List SealedSegment}
    (hok : (scan lib periodSecs os w).1 = .ok segments) {segment : SealedSegment}
    (hsegment : segment ∈ segments) :
    ∃ w1 dir, Stills D w w1 ∧ w1.disk.lookup (.sealed segment.index) = some dir ∧
      segment.files = (listedNames dir).filter isUploaded := by
  have hidle : (idle D).outside default := hD
  have hscanned := (Runs.returns (scanFiltered_idle (w := w) hidle false) hos hok).2
  obtain ⟨w1, dir, hto, -, hdir, -, hrest⟩ := hscanned.seen segment hsegment
  refine ⟨w1, dir, shifts_of_idle hto, hdir, ?_⟩
  split at hrest
  · obtain ⟨segment', heq, -, -, hfiles, -⟩ := hrest
    cases heq
    exact hfiles
  · cases hrest

end Runs

/-- A name given at set-aside stands for its index. -/
theorem setAsideIndex_self {index : Nat} (hindex : index < 2 ^ 64) (counter : Nat) :
    setAsideIndex (quarantineName (toString index) counter) = some index := by
  have hdigit : ∀ c ∈ Nat.toDigits 10 index, c.isDigit = true := fun c hc => toDigits_isDigit hc
  rw [setAsideIndex, takeWhile_quarantineName, parseSealedIndex,
    if_pos ⟨List.all_eq_true.mpr hdigit, Nat.toDigits_ne_nil⟩,
    parseU64_digits Nat.toDigits_ne_nil hdigit (by rwa [Nat.ofDigitChars_ten_toDigits]),
    Nat.ofDigitChars_ten_toDigits]

/-- What a run of set-asides, releases and scans from `w0` to `w` keeps, and what the next call
does. -/
structure SetAsideKept (lib : Libraries) (periodSecs : Nat) (D : Outside → Prop) (w0 w : World) :
    Prop where
  /-- Every directory is in one of the places of its segment with its payload, and no other is
  there. -/
  carried : ∃ place, Carried D w0.disk w.disk place
  /-- What is set aside stays, unless a release for a journal other than the recorded one came to
  it. -/
  stays : ∀ q dir, w0.disk.lookup (.quarantine q) = some dir →
    w.disk.lookup (.quarantine q) = some dir ∨ Left lib periodSecs D w0 w q dir
  /-- Without a record it stays in any case. -/
  unrecorded : ∀ q dir, w0.disk.lookup (.quarantine q) = some dir →
    (∀ text, ¬ Refused dir text) → w.disk.lookup (.quarantine q) = some dir
  /-- A set-aside that returns leaves the directory aside, with its payload and the record in it,
  and nothing at the index. -/
  aside : ∀ index refusedBy os, (∀ o ∈ os, D o) → (quarantine index refusedBy os w).1 = .ok () →
    ∃ counter dir,
      MovedAside D w ((quarantine index refusedBy).final os w) index refusedBy counter dir
  /-- While the client's journal is the one that refused what is set aside of a free index, and
  nobody else writes to the index, no scan lists it. -/
  hidden : ∀ journal index, Alone D index → Hidden journal index w.disk →
    ∀ w', ReflTransGen (StepFor lib periodSecs D journal) w w' → ∀ os segments,
    (∀ o ∈ os, D o) → (scan lib periodSecs os w').1 = .ok segments →
    ∀ segment ∈ segments, segment.index ≠ index
  /-- A scan lists what is in sealed directories. -/
  listed : ∀ os segments, (∀ o ∈ os, D o) → (scan lib periodSecs os w).1 = .ok segments →
    ∀ segment ∈ segments, ListedFrom w segment
  /-- A release for another journal, with the index free, brings the directory back or another one
  of its index. -/
  released : ∀ journal index counter dir text, index < 2 ^ 64 →
    w.disk.lookup (.quarantine (quarantineName (toString index) counter)) = some dir →
    Refused dir text → text ≠ journal.toList → w.disk.lookup (.sealed index) = none →
    Alone D index → ∀ os n, (∀ o ∈ os, D o) → (releaseRefused journal os w).1 = .ok n →
    Returned w.disk (quarantineName (toString index) counter) dir index
      ((releaseRefused journal).final os w).disk
  /-- It returns if nothing fails and nobody else is at work. -/
  returns : Readable w0.disk → Smooth D → (∀ o, D o → o.added = []) → ∀ journal os,
    (∀ o ∈ os, D o) → ∃ n, (releaseRefused journal os w).1 = .ok n

/-- Set-asides, releases and scans, whatever fails and wherever the process stops, lose no segment,
and give none back to the journal that it was set aside for. -/
theorem set_aside_until_released (lib : Libraries) (periodSecs : Nat) (D : Outside → Prop)
    (hD : D default) (w0 w : World) (hrun : ReflTransGen (StoreStep lib periodSecs D) w0 w) :
    SetAsideKept lib periodSecs D w0 w := by
  refine ⟨carried_of_run hD hrun, fun q dir hdir => stays_or_left hD hrun hdir, ?_, ?_, ?_, ?_, ?_,
    ?_⟩
  · intro q dir hdir hnone
    rcases stays_or_left hD hrun hdir with hstays | ⟨_, _, _, text, _, _, _, hrecord, _⟩
    · exact hstays
    · exact absurd hrecord (hnone text)
  · intro index refusedBy os hos hok
    have hspec : Moves D (Shifts D (fun _ _ => True) fun _ => False) w (quarantine index refusedBy)
        _ := quarantine_shifts hD trivial
    exact (Runs.returns hspec hos hok).2
  · intro journal index halone hhidden w' hafter os segments hos hok segment hsegment heq
    have hw' : Hidden journal index w'.disk :=
      reflTransGen_invariant (I := fun w => Hidden journal index w.disk)
        (fun _ _ hw hstep => hstep.hidden hD halone hw) hhidden hafter
    obtain ⟨w1, dir, hstill, hdir, -⟩ := scan_reads hD hos hok hsegment
    have hw1 : Hidden journal index w1.disk :=
      reflTransGen_invariant (fun _ _ hd hstep => hstep.hidden halone (fun _ _ h => h.elim)
        (fun _ h => h.elim) hd) hw' hstill
    rw [heq, hw1.free] at hdir
    cases hdir
  · intro os segments hos hok segment hsegment
    obtain ⟨w1, dir, hstill, hdir, hfiles⟩ := scan_reads hD hos hok hsegment
    exact ⟨w1.disk, dir, hdir, hfiles, hstill.aside⟩
  · intro journal index counter dir text hindex hdir hrecord htext hfree halone os released hos hok
    have hspec := releaseRefused_outcome hD halone (setAsideIndex_self hindex counter) hdir hrecord
      htext hfree
    obtain ⟨houtcome, hbusy⟩ := (Runs.returns hspec hos hok).2
    exact houtcome.returned hbusy
  · intro hread hsmooth hquiet journal os hos
    have hreadable : Readable w.disk :=
      reflTransGen_invariant (I := fun w => Readable w.disk)
        (fun _ _ hd h => h.readable hD hd) hread hrun
    obtain ⟨released, hok, -⟩ :=
      (releaseRefused_calm hD hsmooth hquiet hreadable journal).exists_ok hos
    exact ⟨released, hok⟩

/-- A sealed segment. -/
def sealedWorld : World where
  disk := Disk.of [(.sealed 7, [("a.mp4", .file [1] 3)])]
  memory := {}
  identity := ⟨"J", "ca", "cert"⟩
  zone _ := none
  log := []

/-- The segment was set aside for one journal. -/
def asideWorld : World := (quarantine 7 "J").final [] sealedWorld

/-- The directory with its record. -/
def asideDir : Dir := Dir.of [(REFUSED_BY_MARKER, .file [74] 0), ("a.mp4", .file [1] 3)]

/-- Segment 7 is set aside for one journal. A release for that journal leaves it there, and the
scan after it does not list it; a release for another journal brings it back. -/
theorem set_aside_until_released_other :
    (∃ counter dir, MovedAside (· = default) sealedWorld asideWorld 7 "J" counter dir) ∧
      (∀ segments, (scan plainLib 300 [] ((releaseRefused "J").final [] asideWorld)).1 =
        .ok segments → ∀ segment ∈ segments, segment.index ≠ 7) ∧
      Returned asideWorld.disk "7" asideDir 7 ((releaseRefused "K").final [] asideWorld).disk := by
  have hos : ∀ o ∈ ([] : List Outside), o = default := List.forall_mem_nil _
  have halone : Alone (· = default) 7 := by
    intro o ho a ha
    rw [ho] at ha
    cases ha
  have hrun : ReflTransGen (StoreStep plainLib 300 (· = default)) sealedWorld asideWorld :=
    .single (.called (.quarantine 7 "J") [] hos rfl)
  have hbefore := set_aside_until_released plainLib 300 (· = default) rfl sealedWorld sealedWorld
    .refl
  have hkept := set_aside_until_released plainLib 300 (· = default) rfl sealedWorld asideWorld hrun
  have hkeys : asideWorld.disk.keys = [.quarantine "7"] := by decide +kernel
  have hlookup : asideWorld.disk.lookup (.quarantine "7") = some asideDir := by decide +kernel
  have hrecord : Refused asideDir ['J'] := ⟨[74], 0, by decide +kernel, by decide +kernel⟩
  refine ⟨hbefore.aside 7 "J" [] hos (by decide +kernel), ?_, ?_⟩
  · have hhidden : Hidden "J" 7 asideWorld.disk := by
      refine ⟨by decide +kernel, fun q dir text hdir _ htext => ?_⟩
      have hq : Place.quarantine q ∈ asideWorld.disk.keys := by
        rw [← AList.mem_keys, ← AList.lookup_isSome, hdir]
        rfl
      rw [hkeys, List.mem_singleton] at hq
      cases hq
      rw [hlookup] at hdir
      cases hdir
      exact htext.unique hrecord
    intro segments hok
    exact hkept.hidden "J" 7 halone hhidden _
      (.single (.called (.releaseRefused "J") rfl [] hos rfl)) [] segments hos hok
  · exact hkept.released "K" 7 1 asideDir ['J'] (by decide) hlookup hrecord (by decide)
      (by decide +kernel) halone [] 1 hos (by decide +kernel)

/-- A set-aside whose move fails: the journal that refused the segment is offered it again. -/
theorem refused_segment_listed_again :
    (quarantine 7 "J" (List.replicate 4 default ++ [{ fs := ⟨.fail 0, false, 0⟩ }]) sealedWorld).1 =
        .err .failed ∧
      ((scan plainLib 300 [] ((quarantine 7 "J").final
        (List.replicate 4 default ++ [{ fs := ⟨.fail 0, false, 0⟩ }]) sealedWorld)).1 =
          .ok [⟨7, 2100, none, [], ["a.mp4"]⟩]) := by
  decide +kernel

end SolstoneWindows.Proofs.PlTransportWin
