import Latchkey.Http.Router
import Latchkey.Proofs.History

/-!
# Requests over HTTP on tables in memory

`Handler.exec` is what the handling of a request ends in and what it leaves behind, computed part by
part as `Request.exec` is. A response to a route is made of what its handler ends in.
-/

namespace Latchkey.Http

namespace Handler

variable {α β : Type}

/-- What a handler ends in on tables in memory, and the tables after it. -/
def exec (r : Handler α) (t : Tables) : Except Problem α × Tables :=
  ((Program.run Backend.memory r.run t).value, (Program.run Backend.memory r.run t).state)

/-- A handler goes on where the part before has come to no problem. -/
theorem exec_bind (r : Handler α) (f : α → Handler β) (t : Tables) :
    exec (r >>= f) t =
      match exec r t with
      | (.ok a, t) => exec (f a) t
      | (.error e, t) => (.error e, t) := by
  simp only [exec, Program.run_bind, Program.run_andThen]
  cases (Program.run Backend.memory r.run t).value <;> rfl

@[simp] theorem exec_pure (a : α) (t : Tables) : exec (pure a) t = (.ok a, t) := rfl

@[simp] theorem exec_throw (e : Problem) (t : Tables) :
    exec (throw e : Handler α) t = (.error e, t) := rfl

@[simp] theorem exec_liftExcept (x : Except Problem α) (t : Tables) :
    exec (liftM x : Handler α) t = (x, t) := rfl

/-- An operation is performed as by the service alone, its failure told as a problem. -/
theorem exec_perform (app : App) (given : Given) (op : Operation α) (t : Tables) :
    exec (app.perform given op) t =
      ((app.service.perform ⟨given, op⟩ t).1.mapError .failure,
        (app.service.perform ⟨given, op⟩ t).2) := by
  have hrun : ExceptT.run (app.perform given op) =
      Program.andThen (app.service.request given op).run fun x => .done (x.mapError .failure) :=
    rfl
  simp only [exec, hrun, Program.run_andThen]
  rfl

end Handler

/-! ## Responses -/

/-- The status and the body of a response to what a handler ends in. -/
def responseTo : Except Problem Json → Nat × Option Json
  | .ok body => (200, some body)
  | .error problem => (problem.report.status, some problem.report.body)

/-- What a client is told by a response, apart from its headers. -/
def Response.told (r : Response) : Nat × Option Json :=
  (r.status, r.body)

variable {σ : Type} (b : Backend σ) (s : σ) (app : App) (given : Given)

/-- A route is answered with what its handler ends in, which is all that touches the store. -/
theorem Route.run_respond (m : Message) (r : Route) :
    ((r.respond app given m).run b s).value.told =
        responseTo (Program.run b (r.handle app given m).run s).value ∧
      ((r.respond app given m).run b s).state =
        (Program.run b (r.handle app given m).run s).state := by
  have hrespond : r.respond app given m = Program.andThen (r.handle app given m).run fun x =>
      .done (match x with
        | .ok body => jsonResponse 200 body
        | .error problem => jsonResponse problem.report.status problem.report.body) := by
    refine congrArg (Program.andThen (r.handle app given m).run) (funext ?_)
    intro x
    cases x <;> rfl
  rw [hrespond, Program.run_andThen]
  refine ⟨?_, rfl⟩
  simp only [Program.run]
  cases (Program.run b (r.handle app given m).run s).value <;> rfl

/-- What a client is told depends on its request and on what the handler of the route ends in, if
the request leads to one. -/
theorem told_respond (m : Message) : ((respond app given m).run b s).value.told =
    if m.method = "OPTIONS" then (200, none)
    else
      let inner := match Route.ofPath? m.route with
        | none => notFound.told
        | some r =>
          if m.method = "GET" || m.method = "HEAD" then
            responseTo (Program.run b (r.handle app given m).run s).value
          else methodNotAllowed.told
      (inner.1, if m.method = "HEAD" then none else inner.2) := by
  have hdispatch : ((dispatch app given m).run b s).value.told =
      match Route.ofPath? m.route with
        | none => notFound.told
        | some r =>
          if m.method = "GET" || m.method = "HEAD" then
            responseTo (Program.run b (r.handle app given m).run s).value
          else methodNotAllowed.told := by
    unfold dispatch
    cases Route.ofPath? m.route with
    | none => rfl
    | some r =>
      dsimp only
      split
      · exact (Route.run_respond b s app given m r).1
      · rfl
  unfold respond
  split
  · rfl
  · rw [← hdispatch]
    exact congrArg (fun run : Run σ Response => run.value.told)
      (Program.run_andThen b (dispatch app given m) _ s)

/-- A route is answered with what its handler ends in, which is all that touches the tables. -/
theorem run_respond_get (t : Tables) {m : Message} {r : Route}
    (hmethod : m.method = "GET") (hroute : m.route = r.path) :
    let run := (respond app given m).run Backend.memory t
    (run.value.status, run.value.body) = responseTo (Handler.exec (r.handle app given m) t).1 ∧
      run.state = (Handler.exec (r.handle app given m) t).2 := by
  have hof : Route.ofPath? m.route = some r := by
    rw [hroute]
    cases r <;> rfl
  have hdispatch : dispatch app given m = r.respond app given m := by
    simp only [dispatch, hof, hmethod, decide_true, Bool.true_or, if_true]
  have hrespond : respond app given m = Program.andThen (dispatch app given m) fun inner =>
      .done {
        status := inner.status
        headers := inner.headers ++ crossOriginHeaders app m ++
          [field "access-control-expose-headers" requestIdName,
            (requestIdName, requestId given m)]
        body := inner.body } := by
    unfold respond
    rw [hmethod]
    rfl
  rw [hrespond, hdispatch, Program.run_andThen]
  exact Route.run_respond Backend.memory t app given m r

end Latchkey.Http
