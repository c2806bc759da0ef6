import Mathlib.Logic.Relation

/-!
# Programs whose calls the environment decides

A program works on a state `σ` and makes calls that can fail, or at which the process can
stop. What each call does is decided by the environment, one decision `δ` per call. `Prog` is
the monad of such programs: it takes the decisions still to come, and gives back how the run
ended, the decisions left and the state. A program is an ordinary function, so it can be run
on a list of decisions. When the list is used up, every further call gets the default
decision.

`Runs D s p Q E C` is the specification: from the state `s`, whatever decisions allowed by `D`
the environment makes, `p` either returns a value as `Q` says, or fails as `E` says, or stops
in a state that satisfies `C`. `C` is what makes this a logic of crashes: it has to hold at
every call. The rules below are the ones of a Hoare logic; a client states one `Runs` lemma for
each of its functions and composes them with `Runs.bind` and `Runs.attempt`.

`Stays` is the coarser statement that suits frame conditions: a program that returns has moved
the state along a preorder. `Preserves` is the one for invariants. `Moves` says this however the
program ends, and of the value it returns.

`Runs.final` and `reflTransGen_invariant` lead from one program to whole histories: a state
predicate that every program keeps, however it ends, holds in every state reached.
-/

set_option autoImplicit false

namespace Lib.Effect

/-- How one run of a program ends. -/
inductive Ended (ε α : Type) where
  /-- It returned a value. -/
  | ok (a : α)
  /-- It failed, and its caller goes on. -/
  | err (e : ε)
  /-- The process stopped. -/
  | stopped
  deriving DecidableEq

/-- A program over `σ`: from the decisions to come and the state, how it ends, the decisions
left and the state it leaves. -/
def Prog (δ σ ε α : Type) : Type := List δ → σ → Ended ε α × List δ × σ

section Prog

variable {δ σ ε ε' α β : Type}

/-- Sequencing. A failure or a stop skips the rest. -/
def Prog.bind (p : Prog δ σ ε α) (f : α → Prog δ σ ε β) : Prog δ σ ε β := fun ds s =>
  match p ds s with
  | (.ok a, ds, s) => f a ds s
  | (.err e, ds, s) => (.err e, ds, s)
  | (.stopped, ds, s) => (.stopped, ds, s)

instance : Monad (Prog δ σ ε) where
  pure a := fun ds s => (.ok a, ds, s)
  bind := Prog.bind

/-- The rest of a run whose first part is known. -/
theorem Prog.bind_of_ok {p : Prog δ σ ε α} {f : α → Prog δ σ ε β} {ds ds' : List δ} {s s' : σ}
    {a : α} (h : p ds s = (.ok a, ds', s')) : (p >>= f) ds s = f a ds' s' := by
  show Prog.bind p f ds s = _
  rw [Prog.bind, h]

/-- Fail with `e`. -/
def Prog.fail (e : ε) : Prog δ σ ε α := fun ds s => (.err e, ds, s)

/-- Run `p` and hand its result to the caller, failure included. A stop is not caught. What is
left cannot fail, so the caller's failures can be of any type. -/
def Prog.attempt (p : Prog δ σ ε α) : Prog δ σ ε' (Except ε α) := fun ds s =>
  match p ds s with
  | (.ok a, ds, s) => (.ok (.ok a), ds, s)
  | (.err e, ds, s) => (.ok (.error e), ds, s)
  | (.stopped, ds, s) => (.stopped, ds, s)

/-- Run `p` and drop its result, failure included. -/
def Prog.ignore (p : Prog δ σ ε α) : Prog δ σ ε' Unit := p.attempt >>= fun _ => pure ()

/-- Run `p` and turn its failures into the caller's. -/
def Prog.mapErr (g : ε → ε') (p : Prog δ σ ε α) : Prog δ σ ε' α := fun ds s =>
  match p ds s with
  | (.ok a, ds, s) => (.ok a, ds, s)
  | (.err e, ds, s) => (.err (g e), ds, s)
  | (.stopped, ds, s) => (.stopped, ds, s)

/-- Run `p` under a condition. -/
def Prog.onlyIf (c : Bool) (p : Prog δ σ ε Unit) : Prog δ σ ε Unit :=
  match c with
  | true => p
  | false => pure ()

/-- Read the state. -/
def Prog.get : Prog δ σ ε σ := fun ds s => (.ok s, ds, s)

/-- Change the state by a step that cannot fail. -/
def Prog.modify (f : σ → σ) : Prog δ σ ε Unit := fun ds s => (.ok (), ds, f s)

/-- A call: the next decision says what it does. -/
def Prog.call [Inhabited δ] (f : δ → σ → Ended ε α × σ) : Prog δ σ ε α := fun ds s =>
  match ds with
  | [] => ((f default s).1, [], (f default s).2)
  | d :: ds => ((f d s).1, ds, (f d s).2)

/-- Run a program of a part `τ` of the state. -/
def Prog.zoom {τ : Type} (get : σ → τ) (set : τ → σ → σ) (p : Prog δ τ ε α) : Prog δ σ ε α :=
  fun ds s => ((p ds (get s)).1, (p ds (get s)).2.1, set (p ds (get s)).2.2 s)

/-- The state a run leaves, however it ends. -/
def Prog.final (p : Prog δ σ ε α) (ds : List δ) (s : σ) : σ := (p ds s).2.2

end Prog

/-! ## Specifications -/

/-- What an outcome and the state with it satisfy: `Q` on a value, `E` on a failure, `C` on a
stop. -/
def Satisfies {σ ε α : Type} (Q : α → σ → Prop) (E : ε → σ → Prop) (C : σ → Prop) :
    Ended ε α → σ → Prop
  | .ok a, s => Q a s
  | .err e, s => E e s
  | .stopped, s => C s

/-- From `s`, under every list of decisions that `D` allows, `p` ends as `Q`, `E` and `C`
say. -/
def Runs {δ σ ε α : Type} (D : δ → Prop) (s : σ) (p : Prog δ σ ε α) (Q : α → σ → Prop)
    (E : ε → σ → Prop) (C : σ → Prop) : Prop :=
  ∀ ds : List δ, (∀ d ∈ ds, D d) →
    (∀ d ∈ (p ds s).2.1, D d) ∧ Satisfies Q E C (p ds s).1 (p ds s).2.2

/-- From `s`, however `p` ends, it leaves a state that satisfies `C`. -/
abbrev Ends {δ σ ε α : Type} (D : δ → Prop) (s : σ) (p : Prog δ σ ε α) (C : σ → Prop) : Prop :=
  Runs D s p (fun _ => C) (fun _ => C) C

/-- What holds if the program returns. With `False` for `C`, it does return. -/
abbrev Gives {δ σ ε α : Type} (s : σ) (p : Prog δ σ ε α) (Q : α → σ → Prop)
    (C : Prop := True) : Prop :=
  Runs (fun _ => True) s p Q (fun _ _ => C) fun _ => C

section Rules

variable {δ σ ε ε' α β : Type} {D : δ → Prop} {s : σ} {p : Prog δ σ ε α} {f : α → Prog δ σ ε β}
  {Q R : α → σ → Prop} {Q' : β → σ → Prop} {E : ε → σ → Prop} {C : σ → Prop}

/-- Consequence: weaken what is said of each way to end. -/
theorem Runs.mono {E' : ε → σ → Prop} {C' : σ → Prop} (h : Runs D s p R E' C')
    (hQ : ∀ a s', R a s' → Q a s') (hE : ∀ e s', E' e s' → E e s')
    (hC : ∀ s', C' s' → C s') : Runs D s p Q E C := by
  intro ds hds
  obtain ⟨hrest, hsat⟩ := h ds hds
  refine ⟨hrest, ?_⟩
  cases hend : (p ds s).1 with
  | ok a => rw [hend] at hsat; exact hQ a _ hsat
  | err e => rw [hend] at hsat; exact hE e _ hsat
  | stopped => rw [hend] at hsat; exact hC _ hsat

/-- Consequence on the value only. -/
theorem Runs.weaken (h : Runs D s p R E C) (hQ : ∀ a s', R a s' → Q a s') : Runs D s p Q E C :=
  h.mono hQ (fun _ _ he => he) (fun _ hc => hc)

/-- Consequence on what the failures and the stops share. -/
theorem Runs.loosen {C' : σ → Prop} (h : Runs D s p Q (fun _ => C') C')
    (hC : ∀ s', C' s' → C s') : Runs D s p Q (fun _ => C) C :=
  h.mono (fun _ _ hq => hq) (fun _ => hC) hC

/-- Two specifications of one program hold together. -/
theorem Runs.and {E' : ε → σ → Prop} {C' : σ → Prop} (h : Runs D s p Q E C)
    (h' : Runs D s p R E' C') :
    Runs D s p (fun a s' => Q a s' ∧ R a s') (fun e s' => E e s' ∧ E' e s')
      fun s' => C s' ∧ C' s' := by
  intro ds hds
  obtain ⟨hrest, hsat⟩ := h ds hds
  have hsat' := (h' ds hds).2
  refine ⟨hrest, ?_⟩
  cases hend : (p ds s).1 with
  | _ => rw [hend] at hsat hsat'; exact ⟨hsat, hsat'⟩

theorem Gives.and (h : Gives s p Q) (h' : Gives s p R) :
    Gives s p fun a s' => Q a s' ∧ R a s' :=
  (Runs.and h h').mono (fun _ _ hq => hq) (fun _ _ _ => trivial) fun _ _ => trivial

theorem Runs.pure {a : α} (h : Q a s) : Runs D s (Pure.pure a) Q E C :=
  fun _ hds => ⟨hds, h⟩

theorem Runs.fail {e : ε} (h : E e s) : Runs D s (Prog.fail e : Prog δ σ ε α) Q E C :=
  fun _ hds => ⟨hds, h⟩

/-- Sequencing: the second program starts from what the first one returned. -/
theorem Runs.bind (hp : Runs D s p R E C) (hf : ∀ a s', R a s' → Runs D s' (f a) Q' E C) :
    Runs D s (p >>= f) Q' E C := by
  intro ds hds
  obtain ⟨hrest, hsat⟩ := hp ds hds
  show (∀ d ∈ (Prog.bind p f ds s).2.1, D d) ∧
    Satisfies Q' E C (Prog.bind p f ds s).1 (Prog.bind p f ds s).2.2
  unfold Prog.bind
  rcases hrun : p ds s with ⟨end_, ds', s'⟩
  rw [hrun] at hrest hsat
  cases end_ with
  | ok a => exact hf a s' hsat ds' hrest
  | err e | stopped => exact ⟨hrest, hsat⟩

/-- Sequencing of programs that keep what they start from. -/
theorem Ends.bind (hp : Ends D s p C) (hf : ∀ a s', C s' → Ends D s' (f a) C) :
    Ends D s (p >>= f) C :=
  Runs.bind hp hf

theorem Ends.imp {C' : σ → Prop} (h : Ends D s p C) (hC : ∀ s', C s' → C' s') : Ends D s p C' :=
  h.mono (fun _ => hC) (fun _ => hC) hC

/-- A caught failure is a value of the caller. -/
theorem Runs.attempt {Q : Except ε α → σ → Prop} {E' : ε' → σ → Prop}
    (h : Runs D s p (fun a => Q (.ok a)) (fun e => Q (.error e)) C) :
    Runs D s p.attempt Q E' C := by
  intro ds hds
  obtain ⟨hrest, hsat⟩ := h ds hds
  unfold Prog.attempt
  rcases hrun : p ds s with ⟨end_, ds', s'⟩
  rw [hrun] at hrest hsat
  cases end_ with
  | _ => exact ⟨hrest, hsat⟩

/-- Going on after a caught failure, from each of the two ends. -/
theorem Runs.attempt_bind {g : Except ε α → Prog δ σ ε' β} {E' : ε' → σ → Prop} {C' : σ → Prop}
    (h : Runs D s p Q E C') (hok : ∀ a s', Q a s' → Runs D s' (g (.ok a)) Q' E' C)
    (herror : ∀ e s', E e s' → Runs D s' (g (.error e)) Q' E' C) (hstop : ∀ s', C' s' → C s') :
    Runs D s (p.attempt >>= g) Q' E' C :=
  Runs.bind (Runs.attempt (Q := fun r s' => Runs D s' (g r) Q' E' C) (h.mono hok herror hstop))
    fun _ _ h => h

theorem Runs.mapErr {g : ε → ε'} {E' : ε' → σ → Prop}
    (h : Runs D s p Q (fun e => E' (g e)) C) : Runs D s (p.mapErr g) Q E' C := by
  intro ds hds
  obtain ⟨hrest, hsat⟩ := h ds hds
  unfold Prog.mapErr
  rcases hrun : p ds s with ⟨end_, ds', s'⟩
  rw [hrun] at hrest hsat
  cases end_ with
  | _ => exact ⟨hrest, hsat⟩

/-- A result nobody looks at: value and failure lead to the same place. -/
theorem Runs.ignore {Q : Unit → σ → Prop} {E' : ε' → σ → Prop}
    (h : Runs D s p (fun _ => Q ()) (fun _ => Q ()) C) : Runs D s p.ignore Q E' C :=
  (Runs.attempt (Q := fun _ => Q ()) h).bind fun _ _ hq => Runs.pure hq

theorem Runs.onlyIf {c : Bool} {p : Prog δ σ ε Unit} {Q : Unit → σ → Prop}
    (hyes : c = true → Runs D s p Q E C) (hno : c = false → Q () s) :
    Runs D s (Prog.onlyIf c p) Q E C := by
  cases c with
  | true => exact hyes rfl
  | false => exact Runs.pure (hno rfl)

theorem Runs.get {Q : σ → σ → Prop} (h : Q s s) : Runs D s (Prog.get : Prog δ σ ε σ) Q E C :=
  fun _ hds => ⟨hds, h⟩

/-- A program that starts by reading the state. -/
theorem Runs.get_bind {g : σ → Prog δ σ ε β} (h : Runs D s (g s) Q' E C) :
    Runs D s (Prog.get >>= g) Q' E C :=
  fun ds hds => h ds hds

/-- A program that starts by changing the state. -/
theorem Runs.modify_bind {g : σ → σ} {f : Unit → Prog δ σ ε β}
    (h : Runs D (g s) (f ()) Q' E C) : Runs D s (Prog.modify g >>= f) Q' E C :=
  fun ds hds => h ds hds

theorem Runs.modify {g : σ → σ} {Q : Unit → σ → Prop} (h : Q () (g s)) :
    Runs D s (Prog.modify g : Prog δ σ ε Unit) Q E C :=
  fun _ hds => ⟨hds, h⟩

/-- A call, under every decision `D` allows. The default decision is one of them. -/
theorem Runs.call [Inhabited δ] {g : δ → σ → Ended ε α × σ} (hdefault : D default)
    (h : ∀ d, D d → Satisfies Q E C (g d s).1 (g d s).2) : Runs D s (Prog.call g) Q E C := by
  intro ds hds
  cases ds with
  | nil => exact ⟨List.forall_mem_nil _, h default hdefault⟩
  | cons d ds =>
    exact ⟨fun d' hd' => hds d' (List.mem_cons_of_mem _ hd'), h d (hds d List.mem_cons_self)⟩

/-- A program of a part of the state changes that part only. -/
theorem Runs.zoom {τ : Type} {get : σ → τ} {set : τ → σ → σ} {q : Prog δ τ ε α}
    (h : Runs D (get s) q (fun a t => Q a (set t s)) (fun e t => E e (set t s))
      fun t => C (set t s)) : Runs D s (q.zoom get set) Q E C := by
  intro ds hds
  obtain ⟨hrest, hsat⟩ := h ds hds
  refine ⟨hrest, ?_⟩
  show Satisfies Q E C (q ds (get s)).1 (set (q ds (get s)).2.2 s)
  cases hend : (q ds (get s)).1 with
  | _ => rw [hend] at hsat; exact hsat

/-- A predicate that holds however the program ends holds in the state it leaves. -/
theorem Runs.final (h : Ends D s p C) {ds : List δ} (hds : ∀ d ∈ ds, D d) : C (p.final ds s) := by
  have hsat := (h ds hds).2
  unfold Prog.final
  cases hend : (p ds s).1 with
  | _ => rw [hend] at hsat; exact hsat

/-- What a specification says of a run that returned. -/
theorem Runs.returns (h : Runs D s p Q E C) {ds : List δ} (hds : ∀ d ∈ ds, D d) {a : α}
    (hret : (p ds s).1 = .ok a) : Q a (p.final ds s) := by
  have hsat := (h ds hds).2
  rw [hret] at hsat
  exact hsat

/-- What a specification says of a run that failed. -/
theorem Runs.fails (h : Runs D s p Q E C) {ds : List δ} (hds : ∀ d ∈ ds, D d) {e : ε}
    (hfail : (p ds s).1 = .err e) : E e (p.final ds s) := by
  have hsat := (h ds hds).2
  rw [hfail] at hsat
  exact hsat

/-- A program that cannot fail or stop returns. -/
theorem Runs.exists_ok (h : Runs D s p Q (fun _ _ => False) fun _ => False) {ds : List δ}
    (hds : ∀ d ∈ ds, D d) : ∃ a, (p ds s).1 = .ok a ∧ Q a (p.final ds s) := by
  have hsat := (h ds hds).2
  cases hend : (p ds s).1 with
  | ok a => exact ⟨a, rfl, h.returns hds hend⟩
  | err e | stopped => rw [hend] at hsat; exact hsat.elim

end Rules

/-! ## Programs that move along a relation -/

/-- Whenever `p` returns, under any decisions, it has taken the state along `R`. -/
def Stays {δ σ ε α : Type} (R : σ → σ → Prop) (p : Prog δ σ ε α) (C : Prop := True) : Prop :=
  ∀ s, Gives s p (fun _ => R s) C

section Stays

variable {δ σ ε α β : Type} {R : σ → σ → Prop} {p : Prog δ σ ε α} {f : α → Prog δ σ ε β} {C : Prop}

theorem Stays.call [Inhabited δ] {g : δ → σ → Ended ε α × σ} (h : ∀ d s, R s (g d s).2) :
    Stays R (Prog.call g) := by
  intro s
  refine Runs.call trivial fun d _ => ?_
  cases hend : (g d s).1 with
  | ok a => exact h d s
  | err e | stopped => trivial

theorem Stays.modify {g : σ → σ} (h : ∀ s, R s (g s)) :
    Stays R (Prog.modify g : Prog δ σ ε Unit) C :=
  fun s => Runs.modify (h s)

/-- Sequencing, when the relations of the two parts compose. -/
theorem Stays.comp {R' R'' : σ → σ → Prop} (hp : Stays R p C) (hf : ∀ a, Stays R' (f a) C)
    (h : ∀ {s s' s''}, R s s' → R' s' s'' → R'' s s'') : Stays R'' (p >>= f) C := by
  intro s
  refine (hp s).bind fun a s' hs => ?_
  exact (hf a s').weaken fun _ _ hs' => h hs hs'

variable [IsPreorder σ R]

theorem Stays.pure (a : α) : Stays R (Pure.pure a : Prog δ σ ε α) C :=
  fun s => Runs.pure (refl_of R s)

theorem Stays.get : Stays R (Prog.get : Prog δ σ ε σ) C := fun s => Runs.get (refl_of R s)

theorem Stays.bind (hp : Stays R p C) (hf : ∀ a, Stays R (f a) C) : Stays R (p >>= f) C :=
  hp.comp hf (trans_of R)

/-- A program that comes after a step along the relation. -/
theorem Gives.after {s s' : σ} (h : R s s') (hp : Gives s' p (fun _ => R s') C) :
    Gives s' p (fun _ => R s) C :=
  hp.weaken fun _ _ h' => trans_of R h h'

theorem Stays.onlyIf {p : Prog δ σ ε Unit} (c : Bool) (h : Stays R p C) :
    Stays R (Prog.onlyIf c p) C := by
  intro s
  exact Runs.onlyIf (fun _ => h s) fun _ => refl_of R s

end Stays

/-! ## Programs that keep a predicate -/

/-- Whenever `p` returns from a state that satisfies `I`, under any decisions, it leaves one. -/
def Preserves {δ σ ε α : Type} (I : σ → Prop) (p : Prog δ σ ε α) : Prop :=
  ∀ s, I s → Runs (fun _ => True) s p (fun _ => I) (fun _ _ => True) fun _ => True

section Preserves

variable {δ σ ε α β : Type} {I : σ → Prop} {p : Prog δ σ ε α} {f : α → Prog δ σ ε β}

theorem Preserves.call [Inhabited δ] {g : δ → σ → Ended ε α × σ} (h : ∀ d s, I s → I (g d s).2) :
    Preserves I (Prog.call g) := by
  intro s hs
  refine Runs.call trivial fun d _ => ?_
  cases hend : (g d s).1 with
  | ok a => exact h d s hs
  | err e | stopped => trivial

theorem Preserves.modify {g : σ → σ} (h : ∀ s, I s → I (g s)) :
    Preserves I (Prog.modify g : Prog δ σ ε Unit) :=
  fun s hs => Runs.modify (h s hs)

theorem Preserves.pure (a : α) : Preserves I (Pure.pure a : Prog δ σ ε α) :=
  fun _ hs => Runs.pure hs

theorem Preserves.bind (hp : Preserves I p) (hf : ∀ a, Preserves I (f a)) : Preserves I (p >>= f) :=
  fun s hs => (hp s hs).bind fun a s' hs' => hf a s' hs'

/-- A program that starts by reading the state, which satisfies the predicate. -/
theorem Preserves.get_bind {g : σ → Prog δ σ ε β} (h : ∀ s, I s → Preserves I (g s)) :
    Preserves I (Prog.get >>= g) :=
  fun s hs => Runs.get_bind (h s hs s hs)

theorem Preserves.onlyIf {p : Prog δ σ ε Unit} (c : Bool) (h : Preserves I p) :
    Preserves I (Prog.onlyIf c p) :=
  fun s hs => Runs.onlyIf (fun _ => h s hs) fun _ => hs

end Preserves

/-! ## Programs that move along a relation, however they end -/

/-- From `s`, `p` takes the state along `R` however it ends, and what it returns is as `Q`
says. -/
def Moves {δ σ ε α : Type} (D : δ → Prop) (R : σ → σ → Prop) (s : σ) (p : Prog δ σ ε α)
    (Q : α → σ → Prop) : Prop :=
  Runs D s p (fun a s' => R s s' ∧ Q a s') (fun _ => R s) (R s)

section Moves

variable {δ σ ε ε' α β : Type} {D : δ → Prop} {R : σ → σ → Prop} {s : σ} {p : Prog δ σ ε α}
  {f : α → Prog δ σ ε β} {Q Q' : α → σ → Prop} {Q'' : β → σ → Prop}

/-- Consequence on the value. The step that was taken may be used. -/
theorem Moves.weaken (h : Moves D R s p Q) (hQ : ∀ a s', R s s' → Q a s' → Q' a s') :
    Moves D R s p Q' :=
  Runs.weaken h fun a s' hq => ⟨hq.1, hQ a s' hq.1 hq.2⟩

/-- Consequence on the relation. -/
theorem Moves.imp {R' : σ → σ → Prop} (h : Moves D R s p Q) (hR : ∀ s', R s s' → R' s s') :
    Moves D R' s p Q :=
  Runs.mono h (fun _ s' hq => ⟨hR s' hq.1, hq.2⟩) (fun _ => hR) hR

theorem Moves.call [Inhabited δ] {g : δ → σ → Ended ε α × σ} (hdefault : D default)
    (h : ∀ d, D d → R s (g d s).2 ∧ ∀ a, (g d s).1 = .ok a → Q a (g d s).2) :
    Moves D R s (Prog.call g) Q := by
  refine Runs.call hdefault fun d hd => ?_
  obtain ⟨hR, hQ⟩ := h d hd
  cases hend : (g d s).1 with
  | ok a => exact ⟨hR, hQ a hend⟩
  | err e | stopped => exact hR

theorem Moves.modify {g : σ → σ} {Q : Unit → σ → Prop} (hR : R s (g s)) (hQ : Q () (g s)) :
    Moves D R s (Prog.modify g : Prog δ σ ε Unit) Q :=
  Runs.modify ⟨hR, hQ⟩

/-- A caught failure moves the state as the failure did. -/
theorem Moves.attempt (h : Moves D R s p Q) : Moves D R s (p.attempt : Prog δ σ ε' (Except ε α))
      fun result s' => ∀ a, result = .ok a → Q a s' := by
  refine Runs.attempt (Runs.mono h (fun a s' hq => ⟨hq.1, ?_⟩) (fun e s' hR => ⟨hR, ?_⟩)
    fun _ hR => hR)
  · intro a' ha
    cases ha
    exact hq.2
  · intro a' ha
    cases ha

theorem Moves.ignore (h : Moves D R s p Q) :
    Moves D R s (p.ignore : Prog δ σ ε' Unit) fun _ _ => True :=
  Runs.ignore (Runs.mono h (fun _ _ hq => ⟨hq.1, trivial⟩) (fun _ _ hR => ⟨hR, trivial⟩)
    fun _ hR => hR)

/-- A program that starts by reading the state. -/
theorem Moves.get_bind {g : σ → Prog δ σ ε β} (h : Moves D R s (g s) Q'') :
    Moves D R s (Prog.get >>= g) Q'' :=
  Runs.get_bind h

/-- The state a program leaves, however it ended. -/
theorem Moves.final (h : Moves D R s p Q) {ds : List δ} (hds : ∀ d ∈ ds, D d) :
    R s (p.final ds s) :=
  Runs.final (Runs.mono h (fun _ _ hq => hq.1) (fun _ _ hR => hR) fun _ hR => hR) hds

variable [IsPreorder σ R]

theorem Moves.pure {a : α} (h : Q a s) : Moves D R s (Pure.pure a : Prog δ σ ε α) Q :=
  Runs.pure ⟨refl_of R s, h⟩

theorem Moves.fail {e : ε} : Moves D R s (Prog.fail e : Prog δ σ ε α) Q :=
  Runs.fail (refl_of R s)

/-- Sequencing. -/
theorem Moves.bind (hp : Moves D R s p Q)
    (hf : ∀ a s', R s s' → Q a s' → Moves D R s' (f a) Q'') : Moves D R s (p >>= f) Q'' := by
  refine Runs.bind hp fun a s' hq => ?_
  exact Runs.mono (hf a s' hq.1 hq.2) (fun _ _ hq' => ⟨trans_of R hq.1 hq'.1, hq'.2⟩)
    (fun _ _ hR => trans_of R hq.1 hR) fun _ hR => trans_of R hq.1 hR

/-- Going on after a caught failure, from each of the two ends. -/
theorem Moves.attempt_bind {g : Except ε α → Prog δ σ ε' β} (hp : Moves D R s p Q)
    (hok : ∀ a s', R s s' → Q a s' → Moves D R s' (g (.ok a)) Q'')
    (herror : ∀ e s', R s s' → Moves D R s' (g (.error e)) Q'') :
    Moves D R s (p.attempt >>= g) Q'' := by
  refine hp.attempt.bind fun result s' hR hresult => ?_
  cases result with
  | ok a => exact hok a s' hR (hresult a rfl)
  | error e => exact herror e s' hR

theorem Moves.onlyIf {c : Bool} {p : Prog δ σ ε Unit}
    (h : Moves D R s p fun _ _ => True) : Moves D R s (Prog.onlyIf c p) fun _ _ => True :=
  Runs.onlyIf (fun _ => h) fun _ => ⟨refl_of R s, trivial⟩

end Moves

/-! ## Histories -/

/-- A predicate that every step keeps holds in every state reached from one that satisfies
it. -/
theorem reflTransGen_invariant {σ : Type} {step : σ → σ → Prop} {I : σ → Prop}
    (hstep : ∀ s s', I s → step s s' → I s') {s s' : σ} (hinit : I s)
    (hrun : Relation.ReflTransGen step s s') : I s' := by
  induction hrun with
  | refl => exact hinit
  | tail _ hlast ih => exact hstep _ _ ih hlast

/-- The last entry of a list, or one before it. -/
theorem append_singleton_split {α : Type} {history before after : List α} {last entry : α}
    (h : history ++ [last] = before ++ entry :: after) :
    (before = history ∧ entry = last ∧ after = []) ∨
      ∃ after', history = before ++ entry :: after' := by
  rcases List.eq_nil_or_concat after with rfl | ⟨after', last', rfl⟩
  · obtain ⟨hbefore, hlast⟩ := List.append_inj' h rfl
    cases hlast
    exact .inl ⟨hbefore.symm, rfl, rfl⟩
  · have hlists : history ++ [last] = (before ++ entry :: after') ++ [last'] := by
      rw [h]
      simp
    exact .inr ⟨after', (List.append_inj' hlists rfl).1⟩

end Lib.Effect
