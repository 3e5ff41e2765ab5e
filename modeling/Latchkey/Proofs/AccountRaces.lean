import Mathlib.Data.List.Permutation
import Latchkey.Proofs.AccountCalls
import Latchkey.Proofs.AccountRequests
import Latchkey.Proofs.Interleaving

/-!
# Requests on accounts that race

A request that writes an account looks first and writes later, and in between others have their
turns. A save is up to date if it writes what the request would make of the accounts as they are at
that moment. If all saves are up to date, the requests take effect one after the other, in the order
of their last calls. A save that is not up to date takes back what others have written since.
-/

namespace Latchkey

namespace Service

variable (s : Service) (given : Given)

/-- The calls of a request. What it answers is forgotten, but for why it failed. -/
def program (r : AccountRequest) : Program (Except Failure Unit) :=
  (s.request r.asked.given r.asked.op).run.andThen fun answer => .done (answer.map fun _ => ())

/-! ## The calls of each request -/

theorem program_signUp (username password : String) :
    s.program ⟨given, .signUp username password⟩ =
      match checkUsername username, checkPassword s.session.minPassword password with
      | .error e, _ => .done (.error (.invalid e))
      | .ok _, .error e => .done (.error (.invalid e))
      | .ok _, .ok _ =>
        .call (.isTaken username) fun
          | .error fault => .done (.error (.store fault))
          | .ok true => .done (.error .usernameUnavailable)
          | .ok false =>
            match s.passwords.digest given.salt password with
            | .error e => .done (.error e)
            | .ok digest =>
              .call (.insertAccount (Session.newAccount s.session given username digest)) fun
                | .error fault => .done (.error (.store fault))
                | .ok none => .done (.error .usernameUnavailable)
                | .ok (some a) => .notify ⟨a, .accountCreated⟩ fun _ => .done (.ok ()) :=
  Session.signUp_andThen s.session s.passwords given username password _

theorem program_forgotPassword (username : String) :
    s.program ⟨given, .forgotPassword username⟩ =
      .call (.findAccountNamed username) fun
        | .error fault => .done (.error (.store fault))
        | .ok none => .done (.error (.notFound .account username))
        | .ok (some a) =>
          .call (.saveAccount (a.withReset given.uuid (given.now.addHours Session.resetHours)) []
            given.now) fun
            | .error fault => .done (.error (.store fault))
            | .ok a => .notify ⟨a, .forgottenPassword⟩ fun _ => .done (.ok ()) :=
  Session.forgotPassword_andThen given username _

theorem program_resetPassword (password : String) (token : Uuid) :
    s.program ⟨given, .resetPassword password token⟩ =
      .call (.findAccountResetBy token) fun
        | .error fault => .done (.error (.store fault))
        | .ok none => .done (.error .resetTokenNotFound)
        | .ok (some a) =>
          if Session.isResetExpired a given.now then .done (.error .resetTokenExpired)
          else
            match checkPassword s.session.minPassword password,
              s.passwords.digest given.salt password with
            | .error e, _ => .done (.error (.invalid e))
            | .ok _, .error e => .done (.error e)
            | .ok _, .ok digest =>
              .call (.saveAccount { a.withoutReset with passwordDigest := digest } [.passwordReset]
                given.now) fun
                | .error fault => .done (.error (.store fault))
                | .ok a => .notify ⟨a, .passwordReset⟩ fun _ => .done (.ok ()) :=
  Session.resetPassword_andThen s.session s.passwords given password token _

theorem program_updateAccount (username : String) (update : ProfileUpdate) :
    s.program ⟨given, .updateAccount username update⟩ =
      .call (.findAccountNamed username) fun
        | .error fault => .done (.error (.store fault))
        | .ok none => .done (.error (.notFound .account username))
        | .ok (some a) =>
          if (update.apply a).events.isEmpty then .done (.ok ())
          else
            .call (.saveAccount (update.apply a).account (update.apply a).events given.now) fun
              | .error fault => .done (.error (.store fault))
              | .ok _ => .done (.ok ()) :=
  Session.updateAccount_andThen given username update _

end Service

/-! ## The turns of a request -/

/-- The row that a program is about to save. -/
def Program.saves? {α : Type} : Program α → Option Account
  | .call (.saveAccount a _ _) _ => some a
  | _ => none

/-- A request that has looked at the tables and is about to write: to add its draft unless the name
is taken, or to save a row that it has made of one that is there. -/
inductive Service.Pending (s : Service) (t : Tables) (r : AccountRequest) :
    Program (Except Failure Unit) → Prop
  | insert (a : NewAccount) (next : Except StoreFault (Option Account) → _)
      (draft : ∀ contents, s.draft r contents =
        if contents.any (·.username = a.username) then .error .usernameUnavailable
        else .ok (a.row 0))
      (refused : (next (.ok none)).settle = .done (.error .usernameUnavailable))
      (added : ∀ b, (next (.ok (some b))).settle = .done (.ok ())) :
      s.Pending t r (.call (.insertAccount a) next)
  | save (a : Account) (events : List SecurityEvent) (now : Instant)
      (next : Except StoreFault Account → _) (row : t.HasRowOf a)
      (draft : ∀ contents b, (contents.map (·.username)).Nodup → s.draft r contents = .ok b →
        b.username = a.username ∨ b ∉ contents)
      (saved : ∀ b, (next (.ok b)).settle = .done (.ok ())) :
      s.Pending t r (.call (.saveAccount a events now) next)

namespace Service

variable {s : Service} {t : Tables} {r : AccountRequest}

/-- The first turn of a request leaves the tables alone. It is the last or leads up to a write. -/
def Opens (s : Service) (t : Tables) (r : AccountRequest) (q : Program (Except Failure Unit)) :
    Prop :=
  q.saves? = none ∧ ∃ q', q.step t = (q', t) ∧
    ((∃ outcome, q' = .done outcome) ∨ s.Pending t r q')

theorem opens_signUp (given : Given) (username password : String) :
    s.Opens t ⟨given, .signUp username password⟩
      (s.program ⟨given, .signUp username password⟩) := by
  have hdraft (contents : List Account) : s.draft ⟨given, .signUp username password⟩ contents =
      s.draftSignUp given username password contents := rfl
  unfold draftSignUp at hdraft
  rw [program_signUp]
  cases husername : checkUsername username with
  | error e => exact ⟨rfl, _, rfl, .inl ⟨_, rfl⟩⟩
  | ok _ =>
    cases hpassword : checkPassword s.session.minPassword password with
    | error e => exact ⟨rfl, _, rfl, .inl ⟨_, rfl⟩⟩
    | ok _ =>
      refine ⟨rfl, _, rfl, ?_⟩
      simp only [Call.apply, Call.look]
      cases t.isTaken username with
      | true => exact .inl ⟨_, rfl⟩
      | false =>
        cases hdigest : s.passwords.digest given.salt password with
        | error e => exact .inl ⟨_, rfl⟩
        | ok digest =>
          simp only [husername, hpassword, hdigest] at hdraft
          exact .inr (.insert _ _ hdraft rfl fun _ => rfl)

theorem opens_forgotPassword (given : Given) (username : String) :
    s.Opens t ⟨given, .forgotPassword username⟩
      (s.program ⟨given, .forgotPassword username⟩) := by
  rw [program_forgotPassword]
  refine ⟨rfl, _, rfl, ?_⟩
  simp only [Call.apply, Call.look]
  cases hfound : t.accountNamed? username with
  | none => exact .inl ⟨_, rfl⟩
  | some a =>
    obtain ⟨hrow, hname⟩ := Tables.accountNamed?_some hfound
    refine .inr (.save _ _ _ _ ⟨a, hrow, rfl, rfl⟩ ?_ fun _ => rfl)
    intro contents b _ hdraft
    exact .inl ((username_draftForgotPassword hdraft).trans hname.symm)

theorem opens_resetPassword (given : Given) (password : String) (token : Uuid) :
    s.Opens t ⟨given, .resetPassword password token⟩
      (s.program ⟨given, .resetPassword password token⟩) := by
  rw [program_resetPassword]
  refine ⟨rfl, _, rfl, ?_⟩
  simp only [Call.apply, Call.look]
  cases hfound : t.accountResetBy? token with
  | none => exact .inl ⟨_, rfl⟩
  | some a =>
    dsimp only
    split
    · exact .inl ⟨_, rfl⟩
    · split
      · exact .inl ⟨_, rfl⟩
      · exact .inl ⟨_, rfl⟩
      · have hrow := List.mem_of_find?_eq_some hfound
        refine .inr (.save _ _ _ _ ⟨a, hrow, rfl, rfl⟩ ?_ fun _ => rfl)
        intro contents b hnodup hdraft
        exact .inr (not_mem_of_draftResetPassword hnodup hdraft)

theorem opens_updateAccount (given : Given) (username : String) (update : ProfileUpdate) :
    s.Opens t ⟨given, .updateAccount username update⟩
      (s.program ⟨given, .updateAccount username update⟩) := by
  rw [program_updateAccount]
  refine ⟨rfl, _, rfl, ?_⟩
  simp only [Call.apply, Call.look]
  cases hfound : t.accountNamed? username with
  | none => exact .inl ⟨_, rfl⟩
  | some a =>
    obtain ⟨hmem, hname⟩ := Tables.accountNamed?_some hfound
    have hrow : t.HasRowOf (update.apply a).account :=
      ⟨a, hmem, (update.apply_id a).symm, (update.apply_username a).symm⟩
    dsimp only
    split
    · exact .inl ⟨_, rfl⟩
    · refine .inr (.save _ _ _ _ hrow ?_ fun _ => rfl)
      intro contents b _ hdraft
      rw [update.apply_username a, hname]
      exact .inl (username_draftUpdateAccount hdraft)

theorem opens_program (s : Service) (t : Tables) (r : AccountRequest) :
    s.Opens t r (s.program r) := by
  obtain ⟨given, ask⟩ := r
  cases ask with
  | signUp username password => exact opens_signUp given username password
  | forgotPassword username => exact opens_forgotPassword given username
  | resetPassword password token => exact opens_resetPassword given password token
  | updateAccount username update => exact opens_updateAccount given username update

/-- What a request comes to in one piece, and the accounts after it. -/
def effect (s : Service) (r : AccountRequest) (contents : List Account) :
    Except Failure Unit × List Account :=
  match s.draft r contents with
  | .error e => (.error e, contents)
  | .ok a => (.ok (), put contents a)

theorem effect_of_draft_error {contents : List Account} {e : Failure}
    (h : s.draft r contents = .error e) : s.effect r contents = (.error e, contents) := by
  rw [effect, h]

theorem effect_of_draft_ok {contents : List Account} {a : Account}
    (h : s.draft r contents = .ok a) : s.effect r contents = (.ok (), put contents a) := by
  rw [effect, h]

theorem effect_of_follows {α : Type} {result : Except Failure α × Tables}
    (h : t.Follows (s.draft r t.contents) result) :
    s.effect r t.contents = (result.1.map fun _ => (), result.2.contents) := by
  cases h with
  | refused e hdraft =>
    rw [effect_of_draft_error hdraft]
    rfl
  | put a answer t' hdraft hputs =>
    rw [effect_of_draft_ok hdraft, hputs.contents]
    rfl

theorem run_program (s : Service) (h : t.AccountsInOrder) (r : AccountRequest) :
    s.effect r t.contents = (((s.program r).run Backend.memory t).value,
      ((s.program r).run Backend.memory t).state.contents) ∧
    ((s.program r).run Backend.memory t).state.AccountsInOrder := by
  have hvalue : ((s.program r).run Backend.memory t).value =
      (s.perform r.asked t).1.map fun _ => () := by
    rw [program, Program.run_andThen]
    rfl
  have hstate : ((s.program r).run Backend.memory t).state = (s.perform r.asked t).2 := by
    rw [program, Program.run_andThen]
    rfl
  have hfollows := s.follows_perform h r
  rw [hvalue, hstate]
  exact ⟨effect_of_follows hfollows, hfollows.inOrder h⟩

/-- The last turn of a request. It has come to what it comes to in one piece exactly if it has not
saved a row that is out of date. -/
structure LastTurn (s : Service) (t t' : Tables) (r : AccountRequest)
    (q : Program (Except Failure Unit)) (outcome : Except Failure Unit) : Prop where
  step : q.step t = (.done outcome, t')
  inOrder : t'.AccountsInOrder
  rows : ∀ b, t.HasRowOf b → t'.HasRowOf b
  effect_iff : s.effect r t.contents = (outcome, t'.contents) ↔
    ∀ a ∈ q.saves?, s.draft r t.contents = .ok a.content

theorem effect_iff_of_saves?_eq_none {q : Program (Except Failure Unit)}
    {after : Except Failure Unit × List Account} (hsaves : q.saves? = none)
    (heffect : s.effect r t.contents = after) : s.effect r t.contents = after ↔
      ∀ a ∈ q.saves?, s.draft r t.contents = .ok a.content := by
  constructor
  · intro _ a ha
    rw [hsaves] at ha
    cases ha
  · intro _
    exact heffect

theorem lastTurn_program (h : t.AccountsInOrder) {outcome : Except Failure Unit}
    (hsaves : (s.program r).saves? = none) (hstep : (s.program r).step t = (.done outcome, t)) :
    s.LastTurn t t r (s.program r) outcome := by
  refine ⟨hstep, h, fun b hb => hb, effect_iff_of_saves?_eq_none hsaves ?_⟩
  obtain ⟨hvalue, hstate⟩ := Program.run_of_step_eq_done hstep
  have heffect := (s.run_program h r).1
  rw [hvalue, hstate] at heffect
  exact heffect

/-- The name is looked up once more with the write, so an account that is added is up to date. -/
theorem lastTurn_insert (h : t.AccountsInOrder) {a : NewAccount}
    {next : Except StoreFault (Option Account) → Program (Except Failure Unit)}
    (hdraft : s.draft r t.contents =
      if t.contents.any (·.username = a.username) then .error .usernameUnavailable
      else .ok (a.row 0))
    (hrefused : (next (.ok none)).settle = .done (.error .usernameUnavailable))
    (hadded : ∀ b, (next (.ok (some b))).settle = .done (.ok ())) :
    ∃ outcome t', s.LastTurn t t' r (.call (.insertAccount a) next) outcome := by
  rw [← t.isTaken_eq] at hdraft
  cases htaken : t.isTaken a.username with
  | true =>
    rw [htaken, if_pos rfl] at hdraft
    refine ⟨.error .usernameUnavailable, t, ?_, h, fun b hb => hb,
      effect_iff_of_saves?_eq_none rfl ?_⟩
    · simp only [Program.step, Call.apply, Call.sure, Tables.insertAccount_of_taken htaken,
        hrefused]
    · exact effect_of_draft_error hdraft
  | false =>
    rw [htaken, if_neg Bool.false_ne_true] at hdraft
    refine ⟨.ok (), (t.insertAccount a).2, ?_, h.insertAccount a, fun b hb => hb.insertAccount a,
      effect_iff_of_saves?_eq_none rfl ?_⟩
    · simp only [Program.step, Call.apply, Call.sure, (Tables.insertAccount_of_free htaken).1,
        hadded]
    · rw [effect_of_draft_ok hdraft, Tables.contents_insertAccount htaken]

/-- A save that leaves what the draft would leave has saved the draft. -/
theorem lastTurn_save (h : t.AccountsInOrder) {a : Account} {events : List SecurityEvent}
    {now : Instant} {next : Except StoreFault Account → Program (Except Failure Unit)}
    (hrow : t.HasRowOf a)
    (hdraft : ∀ b, s.draft r t.contents = .ok b → b.username = a.username ∨ b ∉ t.contents)
    (hsaved : ∀ b, (next (.ok b)).settle = .done (.ok ())) :
    s.LastTurn t (t.saveAccount a events now).2 r (.call (.saveAccount a events now) next)
      (.ok ()) := by
  refine ⟨?_, h.saveAccount hrow events now, fun b hb => hb.saveAccount h hrow events now, ?_⟩
  · simp only [Program.step, Call.apply, (Tables.accounts_saveAccount h hrow events now).1, hsaved]
  rw [Tables.contents_saveAccount h hrow]
  constructor
  · intro heffect b hb
    obtain rfl : a = b := Option.some.inj hb
    cases hmade : s.draft r t.contents with
    | error e =>
      rw [effect_of_draft_error hmade] at heffect
      cases (Prod.mk.inj heffect).1
    | ok c =>
      rw [effect_of_draft_ok hmade] at heffect
      have hthere : ∃ c ∈ t.contents, c.username = a.content.username := by
        obtain ⟨b, hb, -, hname⟩ := hrow
        exact ⟨b.content, List.mem_map.2 ⟨b, hb, rfl⟩, hname⟩
      rcases eq_or_mem_of_put_eq (Prod.mk.inj heffect).2 hthere with heq | ⟨hne, hmem⟩
      · rw [heq]
      · -- The draft would be another account's, which it leaves as it is.
        rcases hdraft c hmade with hsame | hnew
        · exact absurd hsame hne
        · exact absurd hmem hnew
  · intro hfresh
    rw [effect_of_draft_ok (hfresh a rfl)]

/-- A turn leads up to a write and leaves the tables alone, or it is the last. -/
theorem turn (h : t.AccountsInOrder) {q : Program (Except Failure Unit)}
    (hq : q = s.program r ∨ s.Pending t r q) :
    (∃ q', q.step t = (q', t) ∧ q.saves? = none ∧ s.Pending t r q') ∨
      ∃ outcome t', s.LastTurn t t' r q outcome := by
  rcases hq with rfl | hq
  · obtain ⟨hsaves, q', hstep, hlast⟩ := s.opens_program t r
    rcases hlast with ⟨outcome, rfl⟩ | hpending
    · exact .inr ⟨outcome, t, lastTurn_program h hsaves hstep⟩
    · exact .inl ⟨q', hstep, hsaves, hpending⟩
  · cases hq with
    | insert a next hdraft hrefused hadded =>
      exact .inr (lastTurn_insert h (hdraft t.contents) hrefused hadded)
    | save a events now next hrow hdraft hsaved =>
      have hnodup : (t.contents.map (·.username)).Nodup := by
        rw [Tables.usernames_contents]
        exact h.usernames
      exact .inr ⟨_, _, lastTurn_save h hrow (fun b => hdraft t.contents b hnodup) hsaved⟩

/-! ## Races -/

/-- Requests on accounts that share tables. -/
abbrev Race := Pool AccountRequest (Except Failure Unit)

/-- The race of requests after some turns. -/
def race (s : Service) (t : Tables) (requests : List AccountRequest) (schedule : List Nat) : Race :=
  (Pool.start s.program t requests).run schedule

/-- The tables can come about from nothing, by requests in one piece and by races. -/
inductive Reachable (s : Service) : Tables → Prop
  | empty : s.Reachable {}
  | performed {t : Tables} (h : s.Reachable t) (x : Asked) : s.Reachable (s.perform x t).2
  | raced {t : Tables} (h : s.Reachable t) (requests : List AccountRequest) (schedule : List Nat) :
    s.Reachable (s.race t requests schedule).tables

/-- Accounts are in order and every request has not begun or is about to write. -/
structure RaceInOrder (s : Service) (p : Race) : Prop where
  tables : p.tables.AccountsInOrder
  threads : ∀ r q, some (r, q) ∈ p.threads → q = s.program r ∨ s.Pending p.tables r q

variable {p : Race}

theorem Pending.mono {t' : Tables} {q : Program (Except Failure Unit)} (h : s.Pending t r q)
    (hrows : ∀ b, t.HasRowOf b → t'.HasRowOf b) : s.Pending t' r q := by
  cases h with
  | insert a next hdraft hrefused hadded => exact .insert a next hdraft hrefused hadded
  | save a events now next hrow hdraft hsaved =>
    exact .save a events now next (hrows a hrow) hdraft hsaved

theorem Pending.ne_done {q : Program (Except Failure Unit)} (h : s.Pending t r q)
    (outcome : Except Failure Unit) : q ≠ .done outcome := by
  rintro rfl
  cases h

theorem RaceInOrder.step (h : s.RaceInOrder p) (i : Nat) : s.RaceInOrder (p.step i) := by
  cases hthread : p.thread? i with
  | none =>
    rw [Pool.step_of_idle hthread]
    exact h
  | some thread =>
    obtain ⟨r, q⟩ := thread
    rcases turn h.tables (h.threads r q (Pool.mem_threads hthread)) with
      ⟨q', hstep, -, hpending⟩ | ⟨outcome, t', hlast⟩
    · rw [Pool.step_of_pending hthread hstep hpending.ne_done]
      refine ⟨h.tables, ?_⟩
      intro r' q'' hmem
      rcases List.mem_or_eq_of_mem_set hmem with hmem | heq
      · exact h.threads r' q'' hmem
      · cases heq
        exact .inr hpending
    · rw [Pool.step_of_done hthread hlast.step]
      refine ⟨hlast.inOrder, ?_⟩
      intro r' q'' hmem
      rcases List.mem_or_eq_of_mem_set hmem with hmem | heq
      · exact (h.threads r' q'' hmem).imp_right fun hpending => hpending.mono hlast.rows
      · cases heq

theorem RaceInOrder.run (h : s.RaceInOrder p) (schedule : List Nat) :
    s.RaceInOrder (p.run schedule) := by
  induction schedule generalizing p with
  | nil => exact h
  | cons i schedule ih => exact ih (h.step i)

theorem raceInOrder (h : t.AccountsInOrder) (requests : List AccountRequest)
    (schedule : List Nat) : s.RaceInOrder (s.race t requests schedule) := by
  refine RaceInOrder.run ⟨h, ?_⟩ schedule
  intro r q hmem
  exact .inl (Pool.mem_threads_start s.program hmem).2

theorem reachable_after (h : List Asked) : s.Reachable (s.after {} h) :=
  s.after_induction (I := s.Reachable) (fun x _ ht => ht.performed x) .empty h

theorem Reachable.accountsInOrder (h : s.Reachable t) : t.AccountsInOrder := by
  induction h with
  | empty => exact Tables.accountsInOrder_empty
  | performed _ x ih => exact s.accountsInOrder_perform ih x
  | raced _ requests schedule ih => exact (raceInOrder ih requests schedule).tables

/-! ## One after the other -/

/-- The race has come to what the requests that are over come to one after the other, in the order
of their last calls, from the same tables. -/
def InStep (s : Service) (t : Tables) (p : Race) : Prop :=
  (serial s.program t (p.log.map (·.1))).1 = p.log ∧
    (serial s.program t (p.log.map (·.1))).2.contents = p.tables.contents

/-- If the next call of a request saves a row, the row is what the request makes of the accounts as
they are. -/
def UpToDate (s : Service) (p : Race) (i : Nat) : Prop :=
  ∀ thread ∈ p.thread? i, ∀ a ∈ thread.2.saves?,
    s.draft thread.1 p.tables.contents = .ok a.content

theorem inStep_step_iff (hin : s.RaceInOrder p) (ht : t.AccountsInOrder) (h : s.InStep t p)
    (i : Nat) : s.InStep t (p.step i) ↔ s.UpToDate p i := by
  unfold UpToDate
  cases hthread : p.thread? i with
  | none =>
    rw [Pool.step_of_idle hthread]
    constructor
    · intro _ a ha
      cases ha
    · intro _
      exact h
  | some thread =>
    obtain ⟨r, q⟩ := thread
    have hsingle : (∀ thread ∈ some (r, q), ∀ a ∈ thread.2.saves?,
        s.draft thread.1 p.tables.contents = .ok a.content) ↔
        ∀ a ∈ q.saves?, s.draft r p.tables.contents = .ok a.content :=
      ⟨fun hall => hall (r, q) rfl, fun hall _ hmem => Option.some.inj hmem ▸ hall⟩
    rw [hsingle]
    rcases turn hin.tables (hin.threads r q (Pool.mem_threads hthread)) with
      ⟨q', hstep, hsaves, hpending⟩ | ⟨outcome, t', hlast⟩
    · rw [Pool.step_of_pending hthread hstep hpending.ne_done, hsaves]
      constructor
      · intro _ a ha
        cases ha
      · intro _
        exact h
    · rw [Pool.step_of_done hthread hlast.step, ← hlast.effect_iff]
      obtain ⟨hlog, hcontents⟩ := h
      have hserial : (serial s.program t (p.log.map (·.1))).2.AccountsInOrder :=
        serial_induction s.program (I := Tables.AccountsInOrder)
          (fun r t ht => (s.run_program ht r).2) ht _
      -- One after the other, the request would find the same contents under other numbers.
      have hrun := (s.run_program hserial r).1
      rw [hcontents] at hrun
      simp only [InStep, List.map_append, List.map_singleton, serial_append, hlog, serial, hrun]
      simp only [List.append_cancel_left_eq, List.cons.injEq, Prod.mk.injEq, and_true, true_and]

/-- Every save in the race is up to date. -/
def SavesUpToDate (s : Service) (t : Tables) (requests : List AccountRequest)
    (schedule : List Nat) : Prop :=
  ∀ n (hn : n < schedule.length), s.UpToDate (s.race t requests (schedule.take n)) schedule[n]

instance {i : Nat} : Decidable (s.UpToDate p i) :=
  inferInstanceAs (Decidable (∀ thread ∈ p.thread? i, ∀ a ∈ thread.2.saves?, _))

instance {requests : List AccountRequest} {schedule : List Nat} :
    Decidable (s.SavesUpToDate t requests schedule) :=
  inferInstanceAs (Decidable (∀ n (_ : n < schedule.length), s.UpToDate _ _))

theorem race_take_succ (requests : List AccountRequest) {schedule : List Nat} {n : Nat}
    (hn : n < schedule.length) :
    s.race t requests (schedule.take (n + 1)) =
      (s.race t requests (schedule.take n)).step schedule[n] := by
  rw [race, ← List.take_append_getElem hn, Pool.run_append]
  rfl

theorem inStep_race (h : t.AccountsInOrder) {requests : List AccountRequest}
    {schedule : List Nat} (hsaves : s.SavesUpToDate t requests schedule) (n : Nat) :
    s.InStep t (s.race t requests (schedule.take n)) := by
  induction n with
  | zero => exact ⟨rfl, rfl⟩
  | succ n ih =>
    by_cases hn : n < schedule.length
    · rw [race_take_succ requests hn]
      exact (inStep_step_iff (raceInOrder h requests _) h ih _).2 (hsaves n hn)
    · rw [List.take_of_length_le (Nat.le_succ_of_le (Nat.not_lt.1 hn)),
        ← List.take_of_length_le (Nat.not_lt.1 hn)]
      exact ih

end Service

/-- The account without its number and without times. -/
def Account.timeless (a : Account) : Account :=
  { a with
    id := 0
    resetExpiresAt := a.resetExpiresAt.map fun _ => ⟨0, 0⟩
    createdAt := ⟨0, 0⟩ }

namespace Service

variable {s : Service} {t : Tables}

/-- One after the other in some order, from the same tables, the requests come to what they have
come to in the race and leave the same accounts, but for numbers and times. -/
def Serializable (s : Service) (t : Tables) (requests : List AccountRequest) (p : Race) : Prop :=
  ∃ order : List AccountRequest, order.Perm requests ∧ (serial s.program t order).1.Perm p.log ∧
    (serial s.program t order).2.accounts.map Account.timeless =
      p.tables.accounts.map Account.timeless

theorem InStep.serializable {requests : List AccountRequest} {schedule : List Nat}
    (h : s.InStep t (s.race t requests schedule))
    (hover : (s.race t requests schedule).isOver = true) :
    s.Serializable t requests (s.race t requests schedule) := by
  obtain ⟨hlog, hcontents⟩ := h
  have htimeless (t : Tables) :
      t.accounts.map Account.timeless = t.contents.map Account.timeless := by
    rw [Tables.contents, List.map_map]
    rfl
  refine ⟨(s.race t requests schedule).log.map (·.1),
    Pool.perm_log s.program t requests schedule hover, List.Perm.of_eq hlog, ?_⟩
  rw [htimeless, htimeless, hcontents]

/-- At every moment of a race the requests that are over have come to what they come to one after
the other, in the order of their last calls, if and only if every save was up to date. Then the race
as a whole is serializable. -/
theorem inStep_iff_savesUpToDate (h : s.Reachable t) (requests : List AccountRequest)
    (schedule : List Nat) :
    ((∀ n, s.InStep t (s.race t requests (schedule.take n))) ↔
      s.SavesUpToDate t requests schedule) ∧
    (s.SavesUpToDate t requests schedule → (s.race t requests schedule).isOver = true →
      s.Serializable t requests (s.race t requests schedule)) := by
  refine ⟨⟨?_, inStep_race h.accountsInOrder⟩, ?_⟩
  · intro hsteps n hn
    have hnext := hsteps (n + 1)
    rw [race_take_succ requests hn] at hnext
    exact (inStep_step_iff (raceInOrder h.accountsInOrder requests _) h.accountsInOrder
      (hsteps n) _).1 hnext
  · intro hsaves hover
    have hstep := inStep_race h.accountsInOrder hsaves schedule.length
    rw [List.take_length] at hstep
    exact hstep.serializable hover

end Service

/-! ## A race that is serializable and one that is not -/

/-- Ada has an account and has asked for a reset. -/
def adaResets : Tables :=
  Service.plain.after {}
    [⟨.sample 1, .signUp "ada@example.com" "old-password"⟩,
      ⟨.sample 2, .forgotPassword "ada@example.com"⟩]

/-- She completes the reset. -/
def adaCompletes : AccountRequest :=
  ⟨.sample 3, .resetPassword "new-password" (Given.sample 2).uuid⟩

/-- She tells her name. -/
def adaNames : AccountRequest :=
  ⟨.sample 4, .updateAccount "ada@example.com" { fullName := .set (some "Ada") }⟩

/-- Someone else signs up. -/
def eveSignsUp : AccountRequest :=
  ⟨.sample 5, .signUp "eve@example.com" "her-password"⟩

theorem race_eveSignsUp_adaCompletes : Service.plain.Reachable adaResets ∧
    (∀ n, Service.plain.InStep adaResets
      (Service.plain.race adaResets [eveSignsUp, adaCompletes] ([0, 1, 1, 0].take n))) ∧
    Service.plain.Serializable adaResets [eveSignsUp, adaCompletes]
      (Service.plain.race adaResets [eveSignsUp, adaCompletes] [0, 1, 1, 0]) := by
  have hreachable : Service.plain.Reachable adaResets := Service.reachable_after _
  have hsaves : Service.plain.SavesUpToDate adaResets [eveSignsUp, adaCompletes] [0, 1, 1, 0] := by
    decide +kernel
  obtain ⟨hsteps, hserial⟩ :=
    Service.inStep_iff_savesUpToDate hreachable [eveSignsUp, adaCompletes] [0, 1, 1, 0]
  exact ⟨hreachable, hsteps.2 hsaves, hserial hsaves (by decide +kernel)⟩

/-- The name is saved with the row as it was before the reset: the old password and the reset token
are back. -/
theorem not_serializable_adaNames_adaCompletes : Service.plain.Reachable adaResets ∧
    (Service.plain.race adaResets [adaNames, adaCompletes] [0, 1, 1, 0]).isOver = true ∧
    ¬Service.plain.Serializable adaResets [adaNames, adaCompletes]
      (Service.plain.race adaResets [adaNames, adaCompletes] [0, 1, 1, 0]) := by
  refine ⟨Service.reachable_after _, by decide +kernel, ?_⟩
  rintro ⟨order, horder, -, haccounts⟩
  revert haccounts
  rcases List.perm_pair.1 horder with rfl | rfl
  · decide +kernel
  · decide +kernel

end Latchkey
