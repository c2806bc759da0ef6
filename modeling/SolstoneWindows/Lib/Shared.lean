import SolstoneWindows.Lib.Effect

/-!
# Programs that share their state with others

A program that takes a lock several times runs as a sequence of sections. Before each section others
may have changed the state. A `Turn` is one section: what others did before it, and the decisions of
the environment inside it.

`Runs.turn` is the rule: what holds of the section in every state that others can leave holds of the
turn. What others can do is a relation `Rely`.
-/

set_option autoImplicit false

namespace Lib.Effect

/-- One section: what others did first, and the decisions inside. -/
structure Turn (δ σ : Type) where
  others : σ → σ := id
  decisions : List δ := []

instance {δ σ : Type} : Inhabited (Turn δ σ) := ⟨{}⟩

variable {δ σ ε α : Type}

/-- Run a program as one section. -/
def Prog.turn (p : Prog δ σ ε α) : Prog (Turn δ σ) σ ε α :=
  Prog.call fun turn s =>
    ((p turn.decisions (turn.others s)).1, (p turn.decisions (turn.others s)).2.2)

/-- The others keep to `Rely`, and the decisions to `D`. -/
structure Turn.Allowed (D : δ → Prop) (Rely : σ → σ → Prop) (turn : Turn δ σ) : Prop where
  others : ∀ s, Rely s (turn.others s)
  decisions : ∀ d ∈ turn.decisions, D d

theorem Turn.allowed_default {D : δ → Prop} {Rely : σ → σ → Prop} (hrefl : ∀ s, Rely s s) :
    Turn.Allowed D Rely (default : Turn δ σ) :=
  ⟨hrefl, List.forall_mem_nil _⟩

theorem Runs.turn {D : δ → Prop} {Rely : σ → σ → Prop} {s : σ} {p : Prog δ σ ε α}
    {Q : α → σ → Prop} {E : ε → σ → Prop} {C : σ → Prop} (hrefl : ∀ s, Rely s s)
    (h : ∀ s', Rely s s' → Runs D s' p Q E C) :
    Runs (Turn.Allowed D Rely) s p.turn Q E C := by
  refine Runs.call (Turn.allowed_default hrefl) ?_
  intro turn hturn
  exact (h _ (hturn.others s) turn.decisions hturn.decisions).2

end Lib.Effect
