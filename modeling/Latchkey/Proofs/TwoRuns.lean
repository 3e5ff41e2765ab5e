import Latchkey.Proofs.Execution

/-!
# Two runs compared

Two programs run against two backends, and somebody sees but a part of what they come to. What is
seen of a program as a whole is compared part by part: where the answers to its calls look alike,
and what is done with answers that look alike comes to results that do, the two runs cannot be told
apart.
-/

namespace Latchkey

/-- Two results look alike: values that do, or errors that do. -/
inductive ResultsAlike {ε ε' α α' : Type} (E : ε → ε' → Prop) (P : α → α' → Prop) :
    Except ε α → Except ε' α' → Prop where
  | ok {a : α} {a' : α'} (h : P a a') : ResultsAlike E P (.ok a) (.ok a')
  | error {e : ε} {e' : ε'} (h : E e e') : ResultsAlike E P (.error e) (.error e')

theorem ResultsAlike.refl {ε α : Type} {E : ε → ε → Prop} (hE : ∀ e, E e e) (x : Except ε α) :
    ResultsAlike E Eq x x := by
  cases x with
  | ok a => exact .ok rfl
  | error e => exact .error (hE e)

theorem ResultsAlike.mapError {ε ε' η η' α α' : Type} {E : ε → ε' → Prop} {F : η → η' → Prop}
    {P : α → α' → Prop} {g : ε → η} {g' : ε' → η'} {x : Except ε α} {x' : Except ε' α'}
    (h : ResultsAlike E P x x') (hg : ∀ e e', E e e' → F (g e) (g' e')) :
    ResultsAlike F P (x.mapError g) (x'.mapError g') := by
  cases h with
  | ok h => exact .ok h
  | error h => exact .error (hg _ _ h)

/-- Two backends, and which of their states look alike. -/
structure Pairing (σ σ' : Type) where
  left : Backend σ
  right : Backend σ'
  alike : σ → σ' → Prop

namespace Pairing

variable {σ σ' : Type} (D : Pairing σ σ')

/-- In states that look alike a call is answered alike, or fails on either side, and leaves states
that look alike. -/
def AnswersAlike {β : Type} (c : Call β) (P : β → β → Prop) : Prop :=
  ∀ s s', D.alike s s' →
    ResultsAlike (fun _ _ => True) P (D.left.answer c s).1 (D.right.answer c s').1 ∧
      D.alike (D.left.answer c s).2 (D.right.answer c s').2

variable {ε ε' α α' : Type}

/-- From states that look alike two programs come to results that do, and leave such states. -/
def RunsAlike (E : ε → ε' → Prop) (P : α → α' → Prop) (p : ExceptT ε Program α)
    (p' : ExceptT ε' Program α') : Prop :=
  ∀ s s', D.alike s s' →
    ResultsAlike E P (Program.run D.left p.run s).value (Program.run D.right p'.run s').value ∧
      D.alike (Program.run D.left p.run s).state (Program.run D.right p'.run s').state

variable {D} {E : ε → ε' → Prop} {P : α → α' → Prop}

theorem runsAlike_bind {β β' : Type} {Q : β → β' → Prop} {p : ExceptT ε Program α}
    {p' : ExceptT ε' Program α'} {f : α → ExceptT ε Program β} {f' : α' → ExceptT ε' Program β'}
    (hp : D.RunsAlike E P p p') (hf : ∀ a a', P a a' → D.RunsAlike E Q (f a) (f' a')) :
    D.RunsAlike E Q (p >>= f) (p' >>= f') := by
  intro s s' hs
  obtain ⟨hresult, hstate⟩ := hp s s' hs
  simp only [Program.run_bind, Program.run_andThen]
  generalize Program.run D.left p.run s = run at hresult hstate ⊢
  generalize Program.run D.right p'.run s' = run' at hresult hstate ⊢
  obtain ⟨value, state, sent⟩ := run
  obtain ⟨value', state', sent'⟩ := run'
  cases hresult with
  | ok h => exact hf _ _ h state state' hstate
  | error h => exact ⟨.error h, hstate⟩

theorem runsAlike_liftExcept {x : Except ε α} {x' : Except ε' α'} (h : ResultsAlike E P x x') :
    D.RunsAlike E P (liftM x : ExceptT ε Program α) (liftM x' : ExceptT ε' Program α') :=
  fun _ _ hs => ⟨h, hs⟩

theorem runsAlike_pure {a : α} {a' : α'} (h : P a a') :
    D.RunsAlike E P (pure a) (pure a') :=
  fun _ _ hs => ⟨.ok h, hs⟩

theorem runsAlike_throw {e : ε} {e' : ε'} (h : E e e') :
    D.RunsAlike E P (throw e : ExceptT ε Program α) (throw e' : ExceptT ε' Program α') :=
  fun _ _ hs => ⟨.error h, hs⟩

/-- Where errors that look alike are told in ways that do, so are the runs. -/
theorem runsAlike_adapt {η η' : Type} {F : η → η' → Prop} {g : ε → η} {g' : ε' → η'}
    {p : ExceptT ε Program α} {p' : ExceptT ε' Program α'} (hp : D.RunsAlike E P p p')
    (hg : ∀ e e', E e e' → F (g e) (g' e')) :
    D.RunsAlike F P (ExceptT.adapt g p) (ExceptT.adapt g' p') := by
  have hrun {ε η α : Type} (g : ε → η) (p : ExceptT ε Program α) : (ExceptT.adapt g p).run =
      Program.andThen p.run fun x => .done (x.mapError g) := rfl
  intro s s' hs
  obtain ⟨hresult, hstate⟩ := hp s s' hs
  rw [hrun, hrun, Program.run_andThen, Program.run_andThen]
  exact ⟨hresult.mapError hg, hstate⟩

/-- A call that is answered alike, where all faults look alike. -/
theorem runsAlike_ofCall {E : Failure → Failure → Prop} {β : Type} {c : Call β} {P : β → β → Prop}
    (h : D.AnswersAlike c P) (hE : ∀ f f', E (.store f) (.store f')) :
    D.RunsAlike E P (Request.ofCall c) (Request.ofCall c) := by
  intro s s' hs
  obtain ⟨hanswer, hstate⟩ := h s s' hs
  exact ⟨hanswer.mapError fun f f' _ => hE f f', hstate⟩

end Pairing

end Latchkey
