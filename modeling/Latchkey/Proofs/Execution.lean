import Latchkey.Service

/-!
# Requests on tables in memory

`Request.exec` is what a request answers and what it leaves behind. A request is the sequence of
its parts, so `exec` is computed part by part. What a request can do to the tables is also bounded
by the calls it may make at all (`Program.Makes`), whatever they are answered.
-/

namespace Latchkey

namespace Program

variable {σ α β : Type}

/-- A program that goes on as another runs as the first and then as the other. -/
theorem run_andThen (b : Backend σ) (p : Program α) (f : α → Program β) (s : σ) :
    (p.andThen f).run b s =
      { (f (p.run b s).value).run b (p.run b s).state with
        sent := (p.run b s).sent ++ ((f (p.run b s).value).run b (p.run b s).state).sent } := by
  induction p generalizing s with
  | done a => rfl
  | call c next ih => simp only [andThen, run, ih]
  | notify n next ih => simp only [andThen, run, ih, List.cons_append]

/-- What may break off goes on as a program that goes on where the first part has not. -/
theorem run_bind {ε : Type} (r : ExceptT ε Program α) (f : α → ExceptT ε Program β) :
    (r >>= f).run = andThen r.run fun
      | .ok a => (f a).run
      | .error e => .done (.error e) := by
  simp only [ExceptT.run_bind]
  refine congrArg (andThen r.run) (funext ?_)
  intro x
  cases x <;> rfl

/-- Every call that a program may make, whatever it is answered, is of a kind. -/
def Makes (P : {β : Type} → Call β → Prop) : Program α → Prop
  | .done _ => True
  | .call c next => P c ∧ ∀ answer, (next answer).Makes P
  | .notify _ next => ∀ delivered, (next delivered).Makes P

variable {P : {β : Type} → Call β → Prop}

theorem makes_andThen {p : Program α} {f : α → Program β} (hp : p.Makes P)
    (hf : ∀ a, (f a).Makes P) : (p.andThen f).Makes P := by
  induction p with
  | done a => exact hf a
  | call c next ih => exact ⟨hp.1, fun answer => ih answer (hp.2 answer)⟩
  | notify n next ih => exact fun delivered => ih delivered (hp delivered)

theorem Makes.mono {Q : {β : Type} → Call β → Prop} {p : Program α} (hp : p.Makes P)
    (h : ∀ {β : Type} {c : Call β}, P c → Q c) : p.Makes Q := by
  induction p with
  | done a => trivial
  | call c next ih => exact ⟨h hp.1, fun answer => ih answer (hp.2 answer)⟩
  | notify n next ih => exact fun delivered => ih delivered (hp delivered)

theorem makes_any (p : Program α) : p.Makes fun _ => True := by
  induction p with
  | done a => trivial
  | call c next ih => exact ⟨trivial, ih⟩
  | notify n next ih => exact ih

/-- What every call of a kind keeps, a program of such calls keeps. -/
theorem run_of_makes {I : Tables → Prop}
    (keeps : ∀ {β : Type} (c : Call β) (t : Tables), P c → I t → I (c.apply t).2)
    {p : Program α} (hp : p.Makes P) {t : Tables} (ht : I t) :
    I (p.run Backend.memory t).state := by
  induction p generalizing t with
  | done a => exact ht
  | call c next ih => exact ih _ (hp.2 _) (keeps c t hp.1 ht)
  | notify n next ih => exact ih _ (hp _) ht

end Program

namespace Request

variable {α β : Type}

/-- What a request answers on tables in memory, and the tables after it. -/
def exec (r : Request α) (t : Tables) : Except Failure α × Tables :=
  ((Program.run Backend.memory r.run t).value, (Program.run Backend.memory r.run t).state)

/-! ## Part by part -/

@[simp] theorem mapError_ok {ε ε' : Type} (f : ε → ε') (a : α) :
    (Except.ok a).mapError f = .ok a := rfl

/-- A request goes on where the part before has succeeded. -/
theorem exec_bind (r : Request α) (f : α → Request β) (t : Tables) :
    (r >>= f).exec t =
      match r.exec t with
      | (.ok a, t) => (f a).exec t
      | (.error e, t) => (.error e, t) := by
  simp only [exec, Program.run_bind, Program.run_andThen]
  cases (Program.run Backend.memory r.run t).value <;> rfl

@[simp] theorem exec_pure (a : α) (t : Tables) : (pure a : Request α).exec t = (.ok a, t) := rfl

@[simp] theorem exec_throw (e : Failure) (t : Tables) :
    (throw e : Request α).exec t = (.error e, t) := rfl

@[simp] theorem exec_ofCall (c : Call α) (t : Tables) :
    (Request.ofCall c).exec t = ((c.apply t).1.mapError .store, (c.apply t).2) := rfl

@[simp] theorem exec_send (n : Notice) (t : Tables) : (Request.send n).exec t = (.ok (), t) := rfl

@[simp] theorem exec_accept (checked : Except Invalid α) (t : Tables) :
    (Request.accept checked).exec t = (checked.mapError .invalid, t) := rfl

@[simp] theorem exec_liftExcept (x : Except Failure α) (t : Tables) :
    (liftM x : Request α).exec t = (x, t) := rfl

@[simp] theorem exec_orFail (found : Option α) (e : Failure) (t : Tables) :
    (Request.orFail found e).exec t = (found.elim (.error e) .ok, t) := by
  cases found <;> rfl

/-! ## The calls of a request -/

variable {P : {β : Type} → Call β → Prop}

/-- Every call that a request may make is of a kind. -/
def Makes (P : {β : Type} → Call β → Prop) (r : Request α) : Prop :=
  Program.Makes P r.run

theorem Makes.mono {Q : {β : Type} → Call β → Prop} {r : Request α} (hr : r.Makes P)
    (h : ∀ {β : Type} {c : Call β}, P c → Q c) : r.Makes Q :=
  Program.Makes.mono hr h

theorem makes_any (r : Request α) : r.Makes fun _ => True :=
  Program.makes_any _

theorem makes_bind {r : Request α} {f : α → Request β} (hr : r.Makes P)
    (hf : ∀ a, (f a).Makes P) : (r >>= f).Makes P := by
  rw [Makes, Program.run_bind]
  refine Program.makes_andThen hr ?_
  intro x
  cases x with
  | ok a => exact hf a
  | error e => trivial

theorem makes_pure (a : α) : (pure a : Request α).Makes P := trivial

theorem makes_throw (e : Failure) : (throw e : Request α).Makes P := trivial

theorem makes_ofCall {c : Call α} (h : P c) : (Request.ofCall c).Makes P :=
  ⟨h, fun _ => trivial⟩

theorem makes_send (n : Notice) : (Request.send n).Makes P := fun _ => trivial

theorem makes_accept (checked : Except Invalid α) : (Request.accept checked).Makes P := trivial

theorem makes_liftExcept (x : Except Failure α) : (liftM x : Request α).Makes P := trivial

theorem makes_orFail (found : Option α) (e : Failure) : (Request.orFail found e).Makes P := by
  cases found <;> trivial

/-- What every call of a kind keeps, a request of such calls keeps. -/
theorem exec_of_makes {I : Tables → Prop}
    (keeps : ∀ {β : Type} (c : Call β) (t : Tables), P c → I t → I (c.apply t).2)
    {r : Request α} (hr : r.Makes P) {t : Tables} (ht : I t) : I (r.exec t).2 :=
  Program.run_of_makes keeps hr ht

end Request

end Latchkey
