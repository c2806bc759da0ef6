import SolstoneWindows.PlTransportWin.Coordinator
import SolstoneWindows.Proofs.PlTransportWin.Store
import SolstoneWindows.Proofs.Timeline

/-!
# Everything the uploader can do

An abstract uploader. `Change lib rules` is one thing that can happen to the world while the
uploader runs: somebody adds files, a file or an empty directory is removed, a scratch file is
written, an acknowledgement is put in place, a directory is set aside or released, the
coordinator remembers something, an event is recorded. The `Rules` say which of these are
allowed: which directories may be worked on, which media may be removed, which acknowledgements
may be written.

Every function of the coordinator is shown to move the world along `Path`, the chains of such
changes, under any pattern of failures and stops. What a later module proves about a whole run,
it proves about one `Change`.
-/

set_option autoImplicit false

namespace SolstoneWindows.Proofs.PlTransportWin

open Lib.Effect Lib.Fs Relation
open ObserverPl.Ingest
open SolstoneWindows.PlTransportWin
open SolstoneWindows.PlatformWin (Place quarantineName)
open Proofs.Timeline (eq_of_parseU64_digits toDigits_isDigit)

/-! ## Changes -/

/-- What is allowed to happen. -/
structure Rules where
  /-- The surroundings. -/
  outside : Outside → Prop
  /-- The directories that are worked on. Only the leftovers of a scan may go elsewhere. -/
  touches : Nat → Prop
  /-- The directories whose files are sent. -/
  posts : Nat → Prop
  /-- The directories that may go to quarantine. -/
  setsAside : Nat → Prop
  /-- The directories that may come back from quarantine. -/
  releases : Nat → Prop
  /-- The media that may be removed. -/
  removes : World → Nat → String → Prop
  /-- The acknowledgements that may be put in place. -/
  acks : World → Nat → UploadAck → Prop

/-- The names a scan drops. -/
def isSwept (name : String) : Bool := name == UPLOADED_TMP_MARKER || name == REFUSED_BY_MARKER

/-- Whether a file may be removed. -/
def Rules.mayRemove (rules : Rules) (w : World) (index : Nat) (name : String) : Prop :=
  isSwept name = true ∨ (rules.touches index ∧ (isMedia name = false ∨ rules.removes w index name))

/-- The world after a file of a sealed directory was removed. -/
def removing (w : World) (index : Nat) (name : String) : World :=
  { w with
    disk := del w.disk (.sealed index) name
    log := w.log ++ [.removed ⟨index, name, w.identity, dirOf w.disk index⟩] }

/-- What is there after a removal. -/
theorem node?_removing (w : World) (index : Nat) (name : String) (k : Place) (name' : String) :
    node? (removing w index name).disk k name' =
      if k = .sealed index ∧ name' = name then none else node? w.disk k name' :=
  node?_del w.disk (.sealed index) k name name'

/-- One thing that can happen. -/
inductive Change (lib : Libraries) (rules : Rules) : World → World → Prop
  | found {w : World} {o : Outside} (ho : rules.outside o) :
    Change lib rules w { w with disk := o.found w.disk }
  | rezoned {w : World} {o : Outside} (ho : rules.outside o) :
    Change lib rules w { w with zone := o.rezoned.getD w.zone }
  | remembered {w : World} {memory : Memory} (hholds : ∀ index, ¬ rules.touches index →
      memory.deleteHolds index = w.memory.deleteHolds index) :
    Change lib rules w { w with memory := memory }
  | removed {w : World} {index : Nat} {name : String} {bytes : List UInt8} {mtime : Nat}
    (hnode : node? w.disk (.sealed index) name = some (.file bytes mtime))
    (hmay : rules.mayRemove w index name) : Change lib rules w (removing w index name)
  | removedDir {w : World} {index : Nat} {dir : Dir} (htouch : rules.touches index)
    (hdir : w.disk.lookup (.sealed index) = some dir) (hempty : dir.entries = []) :
    Change lib rules w { w with disk := delDir w.disk (.sealed index) }
  | scratched {w : World} {index : Nat} {name : String} (htouch : rules.touches index)
    (hname : isSwept name = true) (bytes : List UInt8) (mtime : Nat) :
    Change lib rules w { w with disk := put w.disk (.sealed index) name (.file bytes mtime) }
  | acked {w : World} {index : Nat} {ack : UploadAck} {mtime : Nat} (htouch : rules.touches index)
    (hack : rules.acks w index ack)
    (htmp : node? w.disk (.sealed index) UPLOADED_TMP_MARKER = some (.file (lib.toVec ack) mtime)) :
    Change lib rules w { w with
      disk := put (del w.disk (.sealed index) UPLOADED_TMP_MARKER) (.sealed index)
        UPLOADED_MARKER (.file (lib.toVec ack) mtime) }
  | setAside {w : World} {index : Nat} {dir : Dir} (counter : Nat) (haside : rules.setsAside index)
    (hdir : w.disk.lookup (.sealed index) = some dir)
    (hfree : w.disk.lookup (.quarantine (quarantineName (toString index) counter)) = none) :
    Change lib rules w { w with
      disk := putDir (delDir w.disk (.sealed index))
        (.quarantine (quarantineName (toString index) counter)) dir }
  | released {w : World} {name : String} {index : Nat} {dir : Dir}
    (hrelease : rules.releases index) (hindex : setAsideIndex name = some index)
    (hdir : w.disk.lookup (.quarantine name) = some dir)
    (hfree : w.disk.lookup (.sealed index) = none) :
    Change lib rules w { w with
      disk := putDir (delDir w.disk (.quarantine name)) (.sealed index) dir }
  | posted {w : World} {post : Post} (hpost : rules.posts post.index) :
    Change lib rules w { w with log := w.log ++ [.posted post] }
  | listed {w : World} {listing : Listing} :
    Change lib rules w { w with log := w.log ++ [.listed listing] }
  | counted {w : World} {indices : List Nat}
    (hthere : ∀ index ∈ indices, (w.disk.lookup (.sealed index)).isSome) :
    Change lib rules w { w with log := w.log ++ [.counted indices] }

/-- Everything that can happen in a run. -/
def Path (lib : Libraries) (rules : Rules) : World → World → Prop := ReflTransGen (Change lib rules)

instance (lib : Libraries) (rules : Rules) : IsPreorder World (Path lib rules) where
  refl _ := .refl
  trans _ _ _ h h' := h.trans h'

/-- A program that does only what the rules allow, and returns as `Q` says. -/
abbrev Along {ε α : Type} (lib : Libraries) (rules : Rules) (w : World) (p : UploadProg ε α)
    (Q : α → World → Prop) : Prop :=
  Moves rules.outside (Path lib rules) w p Q

/-- Nothing was recorded, and the journal is the same. -/
structure SameTale (w w' : World) : Prop where
  log : w'.log = w.log
  identity : w'.identity = w.identity

theorem SameTale.trans {w w' w'' : World} (h : SameTale w w') (h' : SameTale w' w'') :
    SameTale w w'' :=
  ⟨h'.log.trans h.log, h'.identity.trans h.identity⟩

theorem Peeks.sameTale {D : Outside → Prop} {w w' : World} (h : Peeks D w w') : SameTale w w' :=
  ⟨h.grown.log, h.grown.identity⟩

section Changes

variable {lib : Libraries} {rules : Rules} {w w' : World}

theorem Path.of_peeks (h : Peeks rules.outside w w') : Path lib rules w w' :=
  ReflTransGen.mono (fun _ _ ⟨_, ho, heq⟩ => heq ▸ .found ho) _ _ h

/-- Rules that allow more allow the same changes. -/
structure Rules.Le (rules rules' : Rules) : Prop where
  outside : ∀ o, rules.outside o → rules'.outside o
  touches : ∀ index, rules.touches index → rules'.touches index
  posts : ∀ index, rules.posts index → rules'.posts index
  setsAside : ∀ index, rules.setsAside index → rules'.setsAside index
  releases : ∀ index, rules.releases index → rules'.releases index
  removes : ∀ w index name, rules.removes w index name → rules'.removes w index name
  acks : ∀ w index ack, rules.acks w index ack → rules'.acks w index ack

theorem Change.mono {rules' : Rules} (hle : rules.Le rules') (h : Change lib rules w w') :
    Change lib rules' w w' := by
  cases h with
  | found ho => exact .found (hle.outside _ ho)
  | rezoned ho => exact .rezoned (hle.outside _ ho)
  | remembered hholds =>
    exact .remembered fun index hindex => hholds index fun htouch => hindex (hle.touches _ htouch)
  | removed hnode hmay =>
    refine .removed hnode (hmay.imp_right ?_)
    exact fun ⟨htouch, hmay⟩ => ⟨hle.touches _ htouch, hmay.imp_right (hle.removes _ _ _)⟩
  | removedDir htouch hdir hempty => exact .removedDir (hle.touches _ htouch) hdir hempty
  | scratched htouch hname bytes mtime => exact .scratched (hle.touches _ htouch) hname bytes mtime
  | acked htouch hack htmp => exact .acked (hle.touches _ htouch) (hle.acks _ _ _ hack) htmp
  | setAside counter haside hdir hfree =>
    exact .setAside counter (hle.setsAside _ haside) hdir hfree
  | released hrelease hindex hdir hfree =>
    exact .released (hle.releases _ hrelease) hindex hdir hfree
  | posted hpost => exact .posted (hle.posts _ hpost)
  | listed => exact .listed
  | counted hthere => exact .counted hthere

/-- The log only grows and the journal stays. -/
structure Grows (w w' : World) : Prop where
  log : w.log <+: w'.log
  identity : w'.identity = w.identity

theorem Grows.mem {e : Happening} (h : Grows w w') (he : e ∈ w.log) : e ∈ w'.log :=
  h.log.subset he

theorem Change.grows (h : Change lib rules w w') : Grows w w' := by
  cases h with
  | removed _ _ | posted _ | listed | counted _ => exact ⟨List.prefix_append _ _, rfl⟩
  | _ => exact ⟨List.prefix_rfl, rfl⟩

theorem Path.grows (h : Path lib rules w w') : Grows w w' := by
  induction h with
  | refl => exact ⟨List.prefix_rfl, rfl⟩
  | tail _ hlast ih =>
    exact ⟨ih.log.trans hlast.grows.log, hlast.grows.identity.trans ih.identity⟩

/-- What can happen to a directory that is not worked on: nothing, others add to it, a leftover
of it is dropped, or it comes back from quarantine. -/
theorem Change.elsewhere {index : Nat} (htouch : ¬ rules.touches index)
    (haside : ¬ rules.setsAside index) (h : Change lib rules w w') :
    w'.disk.lookup (.sealed index) = w.disk.lookup (.sealed index) ∨
    (∃ o, rules.outside o ∧ w'.disk = o.found w.disk) ∨
    (∃ name, isSwept name = true ∧ w'.disk = del w.disk (.sealed index) name) ∨
    (∃ name dir, rules.releases index ∧ setAsideIndex name = some index ∧
      w.disk.lookup (.quarantine name) = some dir ∧ w.disk.lookup (.sealed index) = none ∧
      w'.disk.lookup (.sealed index) = some dir) := by
  have hne : ∀ {i}, rules.touches i → Place.sealed index ≠ .sealed i := by
    rintro i hi ⟨⟩
    exact htouch hi
  cases h with
  | found ho => exact .inr (.inl ⟨_, ho, rfl⟩)
  | @removed i name _ _ _ hmay =>
    by_cases hi : i = index
    · subst hi
      rcases hmay with hswept | ⟨htouch', -⟩
      · exact .inr (.inr (.inl ⟨name, hswept, rfl⟩))
      · exact absurd htouch' htouch
    · have hother : Place.sealed index ≠ .sealed i := by
        rintro ⟨⟩
        exact hi rfl
      exact .inl (by simp [removing, hother])
  | removedDir htouch' _ _ | scratched htouch' _ _ _ | acked htouch' _ _ =>
    exact .inl (by simp [hne htouch'])
  | @setAside i _ counter haside' _ _ =>
    have hother : Place.sealed index ≠ .sealed i := by
      rintro ⟨⟩
      exact haside haside'
    exact .inl (by simp [hother])
  | @released name i dir hrelease hindex hdir hfree =>
    by_cases hi : i = index
    · subst hi
      exact .inr (.inr (.inr ⟨name, dir, hrelease, hindex, hdir, hfree, by simp⟩))
    · have hother : Place.sealed index ≠ .sealed i := by
        rintro ⟨⟩
        exact hi rfl
      exact .inl (by simp [hother])
  | _ => exact .inl rfl

/-- A directory that is not worked on stays. -/
theorem Path.dir_stays {index : Nat} (htouch : ¬ rules.touches index)
    (haside : ¬ rules.setsAside index) (h : Path lib rules w w')
    (hdir : (w.disk.lookup (.sealed index)).isSome) :
    (w'.disk.lookup (.sealed index)).isSome := by
  induction h with
  | refl => exact hdir
  | tail _ hlast ih =>
    rcases hlast.elsewhere htouch haside with heq | ⟨o, -, heq⟩ | ⟨name, -, heq⟩ |
      ⟨name, dir, -, -, -, -, heq⟩
    · rw [heq]
      exact ih
    · rw [heq]
      exact lookup_foldl_addEntry_isSome o.added ih
    · rw [heq, lookup_del, if_pos rfl, Option.isSome_map]
      exact ih
    · rw [heq]
      rfl

end Changes

/-! ## Names at set-aside -/

theorem toList_toString (n : Nat) : (toString n).toList = Nat.toDigits 10 n := by
  show (Nat.repr n).toList = _
  simp [Nat.repr]

/-- Up to its first dash, a name given at set-aside is the index. -/
theorem takeWhile_quarantineName (index counter : Nat) :
    (quarantineName (toString index) counter).toList.takeWhile (· ≠ '-') =
      Nat.toDigits 10 index := by
  have hdash : ∀ c ∈ Nat.toDigits 10 index, decide (c ≠ '-') = true := by
    intro c hc
    refine decide_eq_true ?_
    rintro rfl
    exact absurd (toDigits_isDigit hc) (by decide)
  unfold quarantineName
  split
  · have hself : (Nat.toDigits 10 index ++ []).takeWhile (· ≠ '-') =
        Nat.toDigits 10 index ++ [].takeWhile (· ≠ '-') := List.takeWhile_append_of_pos hdash
    simpa [toList_toString] using hself
  · rw [String.toList_append, String.toList_append, toList_toString, List.append_assoc,
      List.takeWhile_append_of_pos hdash]
    simp

/-- A name given at set-aside stands for no other index. -/
theorem setAsideIndex_quarantineName {index counter found : Nat}
    (h : setAsideIndex (quarantineName (toString index) counter) = some found) :
    found = index := by
  have hdigit : ∀ c ∈ Nat.toDigits 10 index, c.isDigit = true := fun c hc => toDigits_isDigit hc
  rw [setAsideIndex, takeWhile_quarantineName, parseSealedIndex] at h
  split at h
  · rw [eq_of_parseU64_digits hdigit h, Nat.ofDigitChars_ten_toDigits]
  · cases h

/-! ## Single calls -/

section Moving

variable {D : Outside → Prop} (hD : D default) {R : World → World → Prop} [IsPreorder World R]
  (hpeek : ∀ {w w' : World}, Peeks D w w' → R w w') {w : World} {α : Type} {index : Nat}
  {name : String}

include hD hpeek

/-- A call that changes the disk or does not return. What it does comes after what was added. -/
theorem storeBy_moves {verdict : Outside → Verdict} {body : Body Place α} {Q : α → World → Prop}
    (h : ∀ o w1, Peeks D w w1 → (R w1 { w1 with disk := (body (verdict o) w1.disk).2 } ∧
        ∀ a, (body (verdict o) w1.disk).1 = .ok a →
          Q a { w1 with disk := (body (verdict o) w1.disk).2 }) ∨
      ((body (verdict o) w1.disk).2 = w1.disk ∧ ∀ a, (body (verdict o) w1.disk).1 ≠ .ok a)) :
    Moves D R w (storeBy verdict body) Q := by
  refine Moves.call hD fun o ho => ?_
  have hfound : Peeks D w { w with disk := o.found w.disk } := .single ⟨o, ho, rfl⟩
  rcases h o _ hfound with ⟨hR, hQ⟩ | ⟨hdisk, hend⟩
  · exact ⟨trans_of R (hpeek hfound) hR, hQ⟩
  · exact ⟨hdisk.symm ▸ hpeek hfound, fun a ha => absurd ha (hend a)⟩

/-- Starting a file: it is there, and empty. -/
theorem create_moves
    (hput : ∀ w mtime, R w { w with disk := put w.disk (.sealed index) name (.file [] mtime) }) :
    Moves D R w (store (create (.sealed index) name)) fun _ w' => SameTale w w' ∧
      ∃ mtime, node? w'.disk (.sealed index) name = some (.file [] mtime) := by
  refine storeBy_moves hD hpeek fun o w1 hw1 => ?_
  refine (create_cases o.fs w1.disk (.sealed index) name).imp_left fun ⟨hdir, heq⟩ => ?_
  rw [heq]
  refine ⟨hput w1 o.fs.now, fun _ _ => ⟨⟨hw1.grown.log, hw1.grown.identity⟩, o.fs.now, ?_⟩⟩
  simp [node?_put _ _ _ _ _ _ hdir]

/-- Filling a file: when the call returns, all bytes are there. -/
theorem write_moves {bytes : List UInt8} (hput : ∀ w part mtime,
      R w { w with disk := put w.disk (.sealed index) name (.file part mtime) })
    (hempty : ∃ mtime, node? w.disk (.sealed index) name = some (.file [] mtime)) :
    Moves D R w (store (write (.sealed index) name bytes)) fun _ w' => SameTale w w' ∧
      ∃ mtime, node? w'.disk (.sealed index) name = some (.file bytes mtime) := by
  refine storeBy_moves hD hpeek fun o w1 hw1 => .inl ?_
  obtain ⟨mtime, hnode⟩ := hempty
  replace hnode := hw1.grown.node hnode
  obtain ⟨dir, hdir, -⟩ := lookup_of_node? hnode
  obtain ⟨part, now, hdisk, hall⟩ := write_cases o.fs w1.disk (.sealed index) name bytes
  have happend : append w1.disk (.sealed index) name part now =
      put w1.disk (.sealed index) name (.file part now) := by
    simp only [append, hnode, List.nil_append]
  rw [hdisk, happend]
  refine ⟨hput w1 part now, fun a ha => ⟨⟨hw1.grown.log, hw1.grown.identity⟩, now, ?_⟩⟩
  rw [node?_put _ _ _ _ _ _ (by simp [hdir]), if_pos ⟨rfl, rfl⟩, hall a ha]

end Moving

section Calls

variable {lib : Libraries} {rules : Rules} (hD : rules.outside default) {w : World} {ε α : Type}

/-- A call that reads. -/
theorem along_of_peeks {p : UploadProg ε α} {Q : α → World → Prop}
    (h : Moves rules.outside (Peeks rules.outside) w p Q) : Along lib rules w p Q :=
  h.imp fun _ => Path.of_peeks

include hD

theorem ask_along (answer : Outside → α) :
    Along lib rules w (ask answer : UploadProg ε α) fun _ _ => True :=
  Moves.call hD fun _ _ => ⟨.refl, fun _ _ => trivial⟩

theorem localZone_along (epochSecs : Nat) :
    Along lib rules w (localZone epochSecs : UploadProg ε _) fun _ _ => True :=
  Moves.call hD fun _ ho => ⟨.single (.rezoned ho), fun _ _ => trivial⟩

omit hD in
/-- A program that changes what the coordinator remembers. -/
theorem modify_along {f : World → World} (h : ∃ memory, f w = { w with memory := memory } ∧
      ∀ index, ¬ rules.touches index → memory.deleteHolds index = w.memory.deleteHolds index) :
    Along lib rules w (Prog.modify f : UploadProg ε Unit) fun _ _ => True := by
  obtain ⟨memory, hmemory, hholds⟩ := h
  exact Moves.modify (hmemory ▸ .single (.remembered hholds)) trivial

omit hD in
/-- What is remembered of holds stays. -/
theorem remember_along {f : Memory → Memory} (hf : ∀ m, (f m).deleteHolds = m.deleteHolds) :
    Along lib rules w (remember f : UploadProg ε Unit) fun _ _ => True :=
  modify_along ⟨_, rfl, fun index _ => congrFun (hf w.memory) index⟩

omit hD in
/-- A counter is published. -/
theorem publish_along (f : UploadStatus → UploadStatus) :
    Along lib rules w (publish f : UploadProg ε Unit) fun _ _ => True :=
  remember_along fun _ => rfl

omit hD in
theorem rebound_along (day segmentKey : String) (f : Option SegmentBound → Option SegmentBound) :
    Along lib rules w (rebound day segmentKey f : UploadProg ε Unit) fun _ _ => True := by
  refine modify_along ⟨_, rfl, ?_⟩
  exact fun _ _ => rfl

omit hD in
theorem registerSegmentError_along (day segmentKey signature : String) (now : Nat) :
    Along lib rules w (registerSegmentError day segmentKey signature now : UploadProg ε Unit)
      fun _ _ => True :=
  rebound_along day segmentKey _

omit hD in
theorem registerSegmentBound_along (day segmentKey signature : String) (now durationSecs : Nat) :
    Along lib rules w
      (registerSegmentBound day segmentKey signature now durationSecs : UploadProg ε Unit)
      fun _ _ => True :=
  rebound_along day segmentKey _

omit hD in
theorem clearReject_along (index : Nat) :
    Along lib rules w (clearReject index : UploadProg ε Unit) fun _ _ => True :=
  remember_along fun _ => rfl

omit hD in
theorem boundDay_along (day : String) (now : Nat) :
    Along lib rules w (boundDay day now : UploadProg ε Unit) fun _ _ => True :=
  remember_along fun _ => rfl

omit hD in
theorem setHold_along {index now : Nat} (htouch : rules.touches index) :
    Along lib rules w (setHold index now : UploadProg ε Unit) fun _ _ => True := by
  refine modify_along ⟨_, rfl, fun i hi => ?_⟩
  have hne : i ≠ index := fun h => hi (h ▸ htouch)
  exact Function.update_of_ne hne _ _

end Calls

/-! ## Removing -/

/-- A file was removed, perhaps after others added some. -/
def Removed (D : Outside → Prop) (index : Nat) (name : String) (w w' : World) : Prop :=
  ∃ w1 bytes mtime, Peeks D w w1 ∧
    node? w1.disk (.sealed index) name = some (.file bytes mtime) ∧ w' = removing w1 index name

/-- What one removal does: it removes the file, or finds what others added. -/
theorem removeIn_cases (o : Outside) (w : World) (index : Nat) (name : String) :
    (∃ bytes mtime, node? (o.found w.disk) (.sealed index) name = some (.file bytes mtime) ∧
      removeIn index name o w = (.ok (), removing { w with disk := o.found w.disk } index name)) ∨
    ((removeIn index name o w).2 = { w with disk := o.found w.disk } ∧
      ∀ a, (removeIn index name o w).1 ≠ .ok a) := by
  unfold removeIn
  rcases removeFile_cases o.removal (o.found w.disk) (.sealed index) name with
    ⟨bytes, mtime, hnode, heq⟩ | ⟨hdisk, hend⟩
  · refine .inl ⟨bytes, mtime, hnode, ?_⟩
    rw [heq]
    rfl
  · refine .inr ?_
    rcases hcall : removeFile (.sealed index) name o.removal (o.found w.disk) with ⟨ended, disk⟩
    rw [hcall] at hdisk hend ⊢
    subst hdisk
    cases ended with
    | ok a => exact absurd rfl (hend a)
    | err e | stopped => exact ⟨rfl, nofun⟩

section Removing

variable {lib : Libraries} {rules : Rules} (hD : rules.outside default) {w : World} {ε : Type}
  {index : Nat}

include hD

/-- An attempt to remove a file that may be removed. -/
theorem removeEntry_along {name : String} (hmay : ∀ w1 bytes mtime, Peeks rules.outside w w1 →
      node? w1.disk (.sealed index) name = some (.file bytes mtime) →
      rules.mayRemove w1 index name) :
    Along lib rules w (Prog.attempt (removeEntry index name) : UploadProg ε _) fun r w' =>
      match r with
      | .ok () => Removed rules.outside index name w w'
      | .error _ => Peeks rules.outside w w' := by
  refine Runs.attempt (Runs.call hD fun o ho => ?_)
  have hfound : Peeks rules.outside w { w with disk := o.found w.disk } := .single ⟨o, ho, rfl⟩
  rcases removeIn_cases o w index name with ⟨bytes, mtime, hnode, hr⟩ | ⟨hw, hend⟩
  · rw [hr]
    refine ⟨?_, _, bytes, mtime, hfound, hnode, rfl⟩
    exact (Path.of_peeks hfound).tail (.removed hnode (hmay _ bytes mtime hfound hnode))
  · rw [hw]
    cases hended : (removeIn index name o w).1 with
    | ok a => exact absurd hended (hend a)
    | err e => exact ⟨Path.of_peeks hfound, hfound⟩
    | stopped => exact Path.of_peeks hfound

/-- The removal loop. `P` is what makes the names still to come removable. -/
theorem removeAll_along {P : List String → World → Prop} {names : List String}
    (hmay : ∀ {n names w1 bytes mtime}, P (n :: names) w1 →
      node? w1.disk (.sealed index) n = some (.file bytes mtime) → rules.mayRemove w1 index n)
    (hpeek : ∀ {names w1 w2}, P names w1 → Peeks rules.outside w1 w2 → P names w2)
    (hskip : ∀ {n names w1}, P (n :: names) w1 → P names w1)
    (hdrop : ∀ {n names w1}, P (n :: names) w1 → P names (removing w1 index n)) (h : P names w) :
    Along lib rules w (removeAll index names : UploadProg ε Bool) fun _ _ => True := by
  induction names generalizing w with
  | nil => exact Moves.pure trivial
  | cons n names ih =>
    refine (removeEntry_along hD fun w1 bytes mtime hw1 hnode =>
      hmay (hpeek h hw1) hnode).bind fun r w' _ hr => ?_
    match r, hr with
    | .ok (), hr =>
      obtain ⟨w1, bytes, mtime, hw1, hnode, rfl⟩ := hr
      exact ih (hdrop (hpeek h hw1))
    | .error .notFound, hr => exact ih (hskip (hpeek h hr))
    | .error .failed, _ | .error (.invalid _), _ => exact Moves.pure trivial

/-- A leftover is dropped, whatever comes of it. -/
theorem ignoreRemove_along {name : String} (hname : isSwept name = true) :
    Along lib rules w (Prog.ignore (removeEntry index name) : UploadProg ε Unit)
      fun _ _ => True := by
  unfold Prog.ignore
  refine (removeEntry_along hD fun _ _ _ _ _ => .inl hname).bind fun _ _ _ _ => ?_
  exact Moves.pure trivial

theorem removeSegmentDir_along (htouch : rules.touches index) :
    Along lib rules w (removeSegmentDir index) fun _ _ => True := by
  refine storeBy_moves hD Path.of_peeks fun o w1 _ => ?_
  refine (removeDir_cases o.removal w1.disk (.sealed index)).imp_left
    fun ⟨dir, hdir, hempty, heq⟩ => ?_
  rw [heq]
  exact ⟨.single (.removedDir htouch hdir hempty), fun _ _ => trivial⟩

end Removing

/-! ## Writing -/

section Writing

variable {lib : Libraries} {rules : Rules} (hD : rules.outside default) {w : World} {index : Nat}

include hD

/-- An acknowledgement is put in place whole, or not at all. -/
theorem writeAck_along {ack : UploadAck} (htouch : rules.touches index)
    (hack : ∀ w1, SameTale w w1 → rules.acks w1 index ack) :
    Along lib rules w (writeAck lib index ack) fun _ w' => SameTale w w' := by
  have hput : ∀ w bytes mtime, Path lib rules w { w with
      disk := put w.disk (.sealed index) UPLOADED_TMP_MARKER (.file bytes mtime) } :=
    fun w bytes mtime => .single (.scratched htouch rfl bytes mtime)
  refine (create_moves hD Path.of_peeks (hput · [])).bind fun _ w1 _ h1 => ?_
  refine (write_moves hD Path.of_peeks hput h1.2).bind fun _ w2 _ h2 => ?_
  refine (along_of_peeks (sync_peeks hD)).bind fun _ w3 _ h3 => ?_
  refine storeBy_moves hD Path.of_peeks fun o w4 h4 => ?_
  -- Nobody took the scratch file away since it was written.
  obtain ⟨mtime, htmp⟩ := h2.2
  replace htmp := h4.grown.node (h3.grown.node htmp)
  have htale : SameTale w w4 :=
    ((h1.1.trans h2.1).trans h3.sameTale).trans h4.sameTale
  rcases rename_cases o.fs w4.disk (.sealed index) (.sealed index) UPLOADED_TMP_MARKER
    UPLOADED_MARKER with ⟨node, hnode, -, heq⟩ | ⟨hdisk, hend⟩
  · rw [htmp] at hnode
    cases hnode
    rw [heq]
    exact .inl ⟨.single (.acked htouch (hack w4 htale) htmp),
      fun _ _ => ⟨htale.log, htale.identity⟩⟩
  · exact .inr ⟨hdisk, hend⟩

end Writing

/-! ## Setting aside and releasing -/

/-- The name that is looked for is one of those that stand for the index. -/
theorem freeQuarantineName_peeks {D : Outside → Prop} (hD : D default) {w : World}
    (preferred : String) (fuel counter : Nat) :
    Moves D (Peeks D) w (freeQuarantineName preferred fuel counter) fun name _ =>
      ∃ counter', name = quarantineName preferred counter' := by
  induction fuel generalizing w counter with
  | zero => exact Moves.pure ⟨counter, rfl⟩
  | succ fuel ih =>
    have hprobe : Moves D (Peeks D) w
        (store (dirExists (Place.quarantine (quarantineName preferred counter))))
        fun _ _ => True := store_peeks hD (probe_readOnly _) fun _ _ _ _ _ => trivial
    refine hprobe.bind fun taken w' _ _ => ?_
    cases taken with
    | true => exact ih (counter + 1)
    | false => exact Moves.pure ⟨counter, rfl⟩

section SetAside

variable {lib : Libraries} {rules : Rules} (hD : rules.outside default) {w : World} {index : Nat}

include hD

/-- A probe changes nothing. -/
theorem probe_along (truth : Disk Place → Bool) :
    Along lib rules w (store (probe truth)) fun _ _ => True :=
  along_of_peeks (store_peeks hD (probe_readOnly truth) fun _ _ _ _ _ => trivial)

theorem quarantine_along (htouch : rules.touches index) (haside : rules.setsAside index)
    (refusedBy : String) :
    Along lib rules w (quarantine index refusedBy) fun _ _ => True := by
  refine (along_of_peeks (sync_peeks hD)).bind fun _ w1 _ _ => ?_
  have hput : ∀ w bytes mtime, Path lib rules w { w with
      disk := put w.disk (.sealed index) REFUSED_BY_MARKER (.file bytes mtime) } :=
    fun w bytes mtime => .single (.scratched htouch rfl bytes mtime)
  refine (create_moves hD Path.of_peeks (hput · [])).bind fun _ w2 _ h2 => ?_
  refine (write_moves hD Path.of_peeks hput h2.2).bind fun _ w3 _ _ => ?_
  refine Moves.get_bind ((along_of_peeks (freeQuarantineName_peeks hD _ _ _)).bind
    fun name w4 _ hname => ?_)
  obtain ⟨counter, rfl⟩ := hname
  refine storeBy_moves hD Path.of_peeks fun o w5 _ => ?_
  refine (renameDir_cases o.fs w5.disk _ _).imp_left fun ⟨dir, hdir, hfree, heq⟩ => ?_
  rw [heq]
  exact ⟨.single (.setAside counter haside hdir hfree), fun _ _ => trivial⟩

theorem releaseTo_along {name : String} (hrelease : rules.releases index)
    (hindex : setAsideIndex name = some index) :
    Along lib rules w (releaseTo name index) fun _ _ => True := by
  refine (probe_along hD _).bind fun taken w1 _ _ => ?_
  cases taken with
  | true => exact Moves.pure trivial
  | false =>
    have hmove : Along lib rules w1 (store (renameDir (.quarantine name) (.sealed index)))
        fun _ _ => True := by
      refine storeBy_moves hD Path.of_peeks fun o w2 _ => ?_
      refine (renameDir_cases o.fs w2.disk _ _).imp_left fun ⟨dir, hdir, hfree, heq⟩ => ?_
      rw [heq]
      exact ⟨.single (.released hrelease hindex hdir hfree), fun _ _ => trivial⟩
    refine hmove.bind fun _ w2 _ _ => ?_
    refine (ignoreRemove_along hD rfl).bind fun _ w3 _ _ => ?_
    exact Moves.pure trivial

theorem releaseDir_along (hrelease : ∀ i, rules.releases i) (journal name : String) :
    Along lib rules w (releaseDir journal name) fun _ _ => True := by
  have hread : Along lib rules w (store (read (.quarantine name) REFUSED_BY_MARKER))
      fun _ _ => True := along_of_peeks (store_peeks hD read_readOnly fun _ _ _ _ _ => trivial)
  refine hread.attempt_bind (fun bytes w1 _ _ => ?_) fun e w1 _ => ?_
  · dsimp only
    split
    · exact Moves.fail
    split
    · exact Moves.pure trivial
    · split
      · exact Moves.pure trivial
      · rename_i hindex
        exact releaseTo_along hD (hrelease _) hindex
  · cases e with
    | notFound => exact Moves.pure trivial
    | failed | invalid _ => exact Moves.fail

theorem releaseDirs_along (hrelease : ∀ i, rules.releases i) (journal : String)
    (names : List String) :
    Along lib rules w (releaseDirs journal names) fun _ _ => True := by
  induction names generalizing w with
  | nil => exact Moves.pure trivial
  | cons name names ih =>
    refine (releaseDir_along hD hrelease journal name).bind fun _ w1 _ _ => ?_
    exact ih.bind fun _ _ _ _ => Moves.pure trivial

theorem countMediaDirs_peeks (names : List String) :
    Along lib rules w (countMediaDirs names) fun _ _ => True := by
  induction names generalizing w with
  | nil => exact Moves.pure trivial
  | cons name names ih =>
    have hread : Along lib rules w (store (readDir (Place.quarantine name))) fun _ _ => True :=
      along_of_peeks (store_peeks hD readDir_readOnly fun _ _ _ _ _ => trivial)
    refine hread.bind fun _ w1 _ _ => ?_
    exact ih.bind fun _ _ _ _ => Moves.pure trivial

end SetAside

end SolstoneWindows.Proofs.PlTransportWin
