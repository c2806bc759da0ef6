import SolstoneWindows.Lib.Effect

/-!
# A file that is replaced as a whole

A slot is a file and the staging file beside it. New content is written to the staging file,
flushed, and moved over the published file in one step. Each step is a call that the environment
decides: it is done, it fails before or after it took effect, or the process stops there.

`stage_spec`, `publish_spec` and the two `read` lemmas say what each part leaves: until the move the
published file is untouched, and however the move ends it holds what it held or the new content.
-/

set_option autoImplicit false

namespace Lib.Staged

open Lib.Effect

/-- What a file holds: one whole value, or bytes that are no value. -/
inductive Content (κ : Type) where
  | whole (value : κ)
  | torn
  deriving DecidableEq

/-- A published file and the staging file beside it, when they exist. -/
structure Slot (κ : Type) where
  published : Option (Content κ) := none
  staged : Option (Content κ) := none
  deriving DecidableEq

/-- What becomes of one call. -/
inductive Fate where
  | done
  /-- It fails, before or after its effect. -/
  | failed (happened : Bool)
  /-- It fails and the staging file is gone, but not over the published one. -/
  | lost
  /-- The process stops, before or after the effect. -/
  | stopped (happened : Bool)
  deriving DecidableEq

instance : Inhabited Fate := ⟨.done⟩

variable {κ σ ε : Type}

def step (error : ε) (effect : σ → σ) : Prog Fate σ ε Unit :=
  Prog.call fun fate s =>
    match fate with
    | .done => (.ok (), effect s)
    | .failed happened => (.err error, if happened then effect s else s)
    | .lost => (.err error, s)
    | .stopped happened => (.stopped, if happened then effect s else s)

/-- A call without an effect. -/
def probe (error : ε) : Prog Fate σ ε Unit := step error id

/-- Write a value to the staging file and flush it. A write that fails leaves no whole value. -/
def stage (error : ε) (value : κ) : Prog Fate (Slot κ) ε Unit := do
  step error fun slot => { slot with staged := some .torn }
  step error fun slot => { slot with staged := some (.whole value) }
  probe error

/-- Move the staging file over the published one. A move that fails is `refused` when the staging
file is still there, and `uncertain` when it is not. -/
def publish (refused uncertain : ε) : Prog Fate (Slot κ) ε Unit :=
  Prog.call fun fate slot =>
    match fate with
    | .done => (.ok (), { published := slot.staged, staged := none })
    | .failed true => (.err uncertain, { published := slot.staged, staged := none })
    | .failed false => (.err refused, slot)
    | .lost => (.err uncertain, { slot with staged := none })
    | .stopped happened =>
      (.stopped, if happened then { published := slot.staged, staged := none } else slot)

/-- Read the published file. -/
def readPublished (error : ε) : Prog Fate (Slot κ) ε (Option (Content κ)) := do
  probe error
  return (← Prog.get).published

/-- Read the staging file. -/
def readStaged (error : ε) : Prog Fate (Slot κ) ε (Option (Content κ)) := do
  probe error
  return (← Prog.get).staged

section Specs

variable {s : Slot κ} {error refused uncertain : ε} {value : κ}

/-- Every decision is allowed. -/
abbrev Any : Fate → Prop := fun _ => True

/-- A call keeps what its effect keeps, and fails with its own error. -/
theorem step_error {t : σ} {effect : σ → σ} {I : σ → Prop} (hI : I t) (heffect : I (effect t)) :
    Runs Any t (step error effect) (fun _ t' => t' = effect t)
      (fun e t' => e = error ∧ I t') I := by
  refine Runs.call trivial ?_
  intro fate _
  cases fate with
  | done => rfl
  | failed happened => cases happened <;> exact ⟨rfl, by assumption⟩
  | lost => exact ⟨rfl, hI⟩
  | stopped happened => cases happened <;> assumption

theorem step_spec {t : σ} {effect : σ → σ} {I : σ → Prop} (hI : I t) (heffect : I (effect t)) :
    Runs Any t (step error effect) (fun _ t' => t' = effect t) (fun _ => I) I :=
  (step_error hI heffect).mono (fun _ _ h => h) (fun _ _ h => h.2) fun _ h => h

theorem probe_spec {t : σ} {I : σ → Prop} (hI : I t) :
    Runs Any t (probe error) (fun _ t' => t' = t) (fun _ => I) I :=
  step_spec hI hI

/-- Staging leaves the published file alone. -/
theorem stage_spec : Runs Any s (stage error value)
      (fun _ s' => s'.published = s.published ∧ s'.staged = some (.whole value))
      (fun _ s' => s'.published = s.published) fun s' => s'.published = s.published := by
  let Kept := fun s' : Slot κ => s'.published = s.published
  refine Runs.bind (step_spec (I := Kept) (by rfl) (by rfl)) ?_
  rintro _ _ rfl
  refine Runs.bind (step_spec (I := Kept) (by rfl) (by rfl)) ?_
  rintro _ _ rfl
  refine (probe_spec (I := Kept) (by rfl)).weaken ?_
  rintro _ _ rfl
  exact ⟨rfl, rfl⟩

/-- A move puts the staged content in place, or leaves the old one. A move that fails and may have
happened says so. -/
theorem publish_spec {content : Content κ} (hstaged : s.staged = some content) :
    Runs Any s (publish refused uncertain) (fun _ s' => s'.published = some content)
      (fun e s' => s'.published = s.published ∨ e = uncertain ∧ s'.published = some content)
      fun s' => s'.published = s.published ∨ s'.published = some content := by
  refine Runs.call trivial ?_
  intro fate _
  cases fate with
  | done => exact hstaged
  | failed happened =>
    cases happened with
    | true => exact .inr ⟨rfl, hstaged⟩
    | false => exact .inl rfl
  | lost => exact .inl rfl
  | stopped happened =>
    cases happened with
    | true => exact .inr hstaged
    | false => exact .inl rfl

theorem readPublished_error {I : Slot κ → Prop} (hI : I s) :
    Runs Any s (readPublished error) (fun content s' => content = s.published ∧ s' = s)
      (fun e s' => e = error ∧ I s') I := by
  refine (step_error hI hI).bind ?_
  rintro _ _ rfl
  exact Runs.get_bind (Runs.pure ⟨rfl, rfl⟩)

theorem readPublished_spec {I : Slot κ → Prop} (hI : I s) :
    Runs Any s (readPublished error) (fun content s' => content = s.published ∧ s' = s)
      (fun _ => I) I :=
  (readPublished_error hI).mono (fun _ _ h => h) (fun _ _ h => h.2) fun _ h => h

theorem readStaged_spec {I : Slot κ → Prop} (hI : I s) :
    Runs Any s (readStaged error) (fun content s' => content = s.staged ∧ s' = s)
      (fun _ => I) I := by
  refine (probe_spec hI).bind ?_
  rintro _ _ rfl
  exact Runs.get_bind (Runs.pure ⟨rfl, rfl⟩)

end Specs

end Lib.Staged
