import Latchkey.Notice
import Latchkey.Store.Call

/-!
# Programs

A request is a tree of store calls and notices: what is done next depends on what was answered. It
runs against a backend, which answers one node at a time; nothing else of the world is visible to
it. A call that fails has no other effect.
-/

namespace Latchkey

/-- A computation that calls a store and sends notices. -/
inductive Program (α : Type) : Type 1 where
  | done (a : α)
  | call {β : Type} (c : Call β) (next : Except StoreFault β → Program α)
  | notify (n : Notice) (next : Bool → Program α)

namespace Program

variable {α β : Type}

/-- One program after another. -/
def andThen : Program α → (α → Program β) → Program β
  | .done a, f => f a
  | .call c next, f => .call c fun answer => (next answer).andThen f
  | .notify n next, f => .notify n fun delivered => (next delivered).andThen f

instance : Monad Program where
  pure := .done
  bind := andThen

theorem andThen_done (p : Program α) : p.andThen .done = p := by
  induction p with
  | done a => rfl
  | call c next ih => simp only [andThen, ih]
  | notify n next ih => simp only [andThen, ih]

theorem andThen_assoc {γ : Type} (p : Program α) (f : α → Program β) (g : β → Program γ) :
    (p.andThen f).andThen g = p.andThen fun a => (f a).andThen g := by
  induction p with
  | done a => rfl
  | call c next ih => simp only [andThen, ih]
  | notify n next ih => simp only [andThen, ih]

instance : LawfulMonad Program :=
  LawfulMonad.mk' Program andThen_done (fun _ _ => rfl) andThen_assoc

/-- Sends a notice. Whether it is delivered makes no difference. -/
def send (n : Notice) : Program Unit :=
  .notify n fun _ => .done ()

end Program

/-- A program that may break off with a failure. -/
abbrev Request (α : Type) := ExceptT Failure Program α

namespace Request

variable {α β : Type}

/-- Calls the store; a fault breaks the request off. -/
def ofCall (c : Call β) : Request β :=
  ExceptT.mk (.call c fun answer => .done (answer.mapError .store))

/-- Sends a notice. -/
def send (n : Notice) : Request Unit :=
  ExceptT.lift (Program.send n)

/-- Goes on if an input is acceptable. -/
def accept (checked : Except Invalid α) : Request α :=
  ExceptT.mk (.done (checked.mapError .invalid))

/-- Goes on with what was found, or breaks off. -/
def orFail (found : Option α) (failure : Failure) : Request α :=
  match found with
  | some a => pure a
  | none => throw failure

end Request

/-! ## Running -/

/-- What answers programs: a store and a way to deliver notices, with a state of their own. -/
structure Backend (σ : Type) where
  answer : {β : Type} → Call β → σ → Except StoreFault β × σ
  deliver : Notice → σ → Bool × σ

/-- What is left of a run: its value, the state after it and the notices sent, in order. -/
structure Run (σ α : Type) where
  value : α
  state : σ
  sent : List Notice

namespace Backend

variable {σ : Type}

/-- Tables in memory. All notices are delivered. -/
def memory : Backend Tables where
  answer c t := c.apply t
  deliver _ t := (true, t)

/-- The backend that does nothing but fail, for one reason. -/
def broken (fault : StoreFault) : Backend σ where
  answer _ s := (.error fault, s)
  deliver _ s := (true, s)

/-- The backend, but for the calls that a rule lets fail. -/
def failing (b : Backend σ) (rule : {β : Type} → Call β → Option StoreFault) : Backend σ where
  answer c s :=
    match rule c with
    | some fault => (.error fault, s)
    | none => b.answer c s
  deliver := b.deliver

/-- The backend, with no notice delivered. -/
def silent (b : Backend σ) : Backend σ :=
  { b with deliver := fun _ s => (false, s) }

end Backend

/-- Runs a program against a backend. -/
def Program.run {σ α : Type} (b : Backend σ) : Program α → σ → Run σ α
  | .done a, s => ⟨a, s, []⟩
  | .call c next, s =>
    let (answer, s) := b.answer c s
    (next answer).run b s
  | .notify n next, s =>
    let (delivered, s) := b.deliver n s
    let rest := (next delivered).run b s
    { rest with sent := n :: rest.sent }

end Latchkey
