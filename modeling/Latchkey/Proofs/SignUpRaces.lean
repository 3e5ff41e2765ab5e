import Latchkey.Proofs.PasswordKeeping
import Latchkey.Proofs.SecurityTrail

/-!
# Sign-ups that race

A sign-up looks whether its name is taken, and the store looks again when it adds the account. So of
all sign-ups under a free name the first that comes to its last call wins, whatever others do
meanwhile, and all the others are refused. The account has the winner's password until a reset.
-/

namespace Latchkey

open Session

namespace Service

variable (s : Service)

/-! ## What is left of a sign-up -/

/-- A sign-up that is valid looks whether the name is taken, and then it adds the account. -/
inductive SigningUp (username password : String) (x : Asked) :
    Program (Except Failure Reply) → Prop where
  | looking : SigningUp username password x (s.replyTo x)
  | adding (digest : String) (made : s.passwords.digest x.given.salt password = .ok digest) :
      SigningUp username password x
        (addAccount s.session x.given username digest fun answer => .done (answer.map .tokens))

section Turns

variable {s} {username password : String} {x : Asked} {q : Program (Except Failure Reply)}
variable (hdigests : s.passwords.Digests) (hx : s.signUp? username x = some password)
variable (hq : s.SigningUp username password x q) {t : Tables}

include hx in
theorem step_replyTo_signUp {digest : String}
    (hdigest : s.passwords.digest x.given.salt password = .ok digest) (t : Tables) :
    (s.replyTo x).step t =
      (if t.isTaken username then .done (.error .usernameUnavailable)
        else addAccount s.session x.given username digest fun answer =>
          .done (answer.map .tokens), t) := by
  obtain ⟨hasked, hname, hpassword⟩ := signUp?_eq_some hx
  have hcalls : s.replyTo ⟨x.given, .signUp username password⟩ = _ :=
    signUp_andThen s.session s.passwords x.given username password _
  rw [hasked, hcalls, hname, hpassword, hdigest]
  simp only [Program.step, Call.apply, Call.look]
  cases t.isTaken username <;> rfl

include hdigests hx hq

/-- Under a taken name a sign-up is refused with its next call. -/
theorem SigningUp.step_of_taken (htaken : t.isTaken username = true) :
    q.step t = (.done (.error .usernameUnavailable), t) := by
  cases hq with
  | looking =>
    obtain ⟨digest, hdigest⟩ := hdigests x.given.salt password
    rw [step_replyTo_signUp hx hdigest, if_pos htaken]
  | adding digest hmade =>
    have hinsert := Tables.insertAccount_of_taken
      (a := newAccount s.session x.given username digest) htaken
    simp only [addAccount, Program.step, Call.apply, Call.sure, hinsert]
    rfl

/-- Under a free name a sign-up goes on to add the account, or it adds it. -/
theorem SigningUp.step_of_free (hfree : t.isTaken username = false) :
    (∃ q', q.step t = (q', t) ∧ s.SigningUp username password x q' ∧ ∀ a, q' ≠ .done a) ∨
      ∃ digest tokens, s.passwords.digest x.given.salt password = .ok digest ∧
        q.step t = (.done (.ok (.tokens tokens)),
          (t.insertAccount (newAccount s.session x.given username digest)).2) := by
  cases hq with
  | looking =>
    obtain ⟨digest, hdigest⟩ := hdigests x.given.salt password
    refine .inl ⟨_, ?_, .adding digest hdigest, ?_⟩
    · rw [step_replyTo_signUp hx hdigest, if_neg (by simp [hfree])]
    · intro a heq
      cases heq
  | adding digest hmade =>
    have hinsert := Tables.insertAccount_of_free
      (a := newAccount s.session x.given username digest) hfree
    refine .inr ⟨digest, tokensFor s.session x.given
      ((newAccount s.session x.given username digest).row t.nextId) none, hmade, ?_⟩
    simp only [addAccount, Program.step, Call.apply, Call.sure, hinsert.1]
    rfl

end Turns

/-! ## Races under a name -/

/-- The sign-ups under a name that are over, each with what came of it. -/
def signUps (username : String) (log : List (Asked × Except Failure Reply)) :
    List (Asked × Except Failure Reply) :=
  log.filter fun e => (s.signUp? username e.1).isSome

/-- Tables are in order, requests only make calls that are allowed, and every sign-up under the name
looks or is about to add the account. -/
structure Racing (username : String) (p : Pool Asked (Except Failure Reply)) : Prop where
  holds : p.Holds s.Allows Tables.InOrder
  signing : ∀ x q password, some (x, q) ∈ p.threads → s.signUp? username x = some password →
    s.SigningUp username password x q

/-- Requests that are no sign-ups under the name uphold its digest, but for resets. -/
def Upholding (username : String) (digest? : Option String)
    (p : Pool Asked (Except Failure Reply)) : Prop :=
  ∀ x q, some (x, q) ∈ p.threads → s.signUp? username x = none →
    q.Upholds (·.HasDigest username digest?) fun answer =>
      digest? ≠ none ∧ isReset username (x, answer)

variable {s} {username password : String} {x : Asked} {q : Program (Except Failure Reply)}
variable {p p' : Pool Asked (Except Failure Reply)} {i : Nat} {digest? : Option String}

theorem signUps_append (log log' : List (Asked × Except Failure Reply)) :
    s.signUps username (log ++ log') = s.signUps username log ++ s.signUps username log' :=
  List.filter_append ..

theorem signUps_singleton_of_some (hx : s.signUp? username x = some password)
    (answer : Except Failure Reply) : s.signUps username [(x, answer)] = [(x, answer)] := by
  simp [signUps, hx]

theorem signUps_singleton_of_none (hx : s.signUp? username x = none)
    (answer : Except Failure Reply) : s.signUps username [(x, answer)] = [] := by
  simp [signUps, hx]

/-- The turn is of a sign-up under the name, or it is not. -/
theorem isTurnOfSignUp_or (s : Service) (username : String) (p : Pool Asked (Except Failure Reply))
    (i : Nat) :
    (∃ x q password, p.thread? i = some (x, q) ∧ s.signUp? username x = some password) ∨
      ∀ x q, p.thread? i = some (x, q) → s.signUp? username x = none := by
  cases hthread : p.thread? i with
  | none => exact .inr fun _ _ h => nomatch h
  | some thread =>
    obtain ⟨x, q⟩ := thread
    cases hx : s.signUp? username x with
    | some password => exact .inl ⟨x, q, password, rfl, hx⟩
    | none =>
      refine .inr fun x' q' heq => ?_
      cases heq
      exact hx

section Steps

variable (hdigests : s.passwords.Digests) (h : s.Racing username p) (hturn : p.Turn i p')

include hdigests h hturn in
theorem Racing.turn : s.Racing username p' ∧ p.tables.Grows p'.tables := by
  obtain ⟨hholds, hgrows⟩ := h.holds.turn s.keeps_inOrder hturn
  refine ⟨⟨hholds, ?_⟩, hgrows⟩
  intro x q password hmem hx
  rcases hturn.mem_threads hmem with hmem | ⟨q₀, hthread, hq, hleft⟩
  · exact h.signing x q password hmem hx
  · have hbefore := h.signing x q₀ password (Pool.mem_threads hthread) hx
    cases htaken : p.tables.isTaken username with
    | true =>
      rw [hbefore.step_of_taken hdigests hx htaken] at hq
      exact absurd hq.symm (hleft _)
    | false =>
      rcases hbefore.step_of_free hdigests hx htaken with ⟨q', hstep, hafter, -⟩ |
        ⟨digest, tokens, -, hstep⟩
      · rw [hstep] at hq
        exact hq ▸ hafter
      · rw [hstep] at hq
        exact absurd hq.symm (hleft _)

include hdigests h hturn in
/-- Once the name is taken, it stays taken, and sign-ups are refused. -/
theorem Racing.turn_of_taken (htaken : p.tables.isTaken username = true) :
    p'.tables.isTaken username = true ∧ ∃ losers,
      (∀ e ∈ losers, e.2 = .error .usernameUnavailable) ∧
        s.signUps username p'.log = s.signUps username p.log ++ losers := by
  refine ⟨(h.turn hdigests hturn).2.isTaken htaken, ?_⟩
  have hnothing : ∃ losers : List (Asked × Except Failure Reply),
      (∀ e ∈ losers, e.2 = .error .usernameUnavailable) ∧
        s.signUps username p.log = s.signUps username p.log ++ losers :=
    ⟨[], List.forall_mem_nil _, (List.append_nil _).symm⟩
  cases hturn with
  | idle hthread => exact hnothing
  | pending x q q' t hthread hstep hleft => exact hnothing
  | ended x q a t hthread hstep =>
    rw [signUps_append]
    cases hx : s.signUp? username x with
    | none =>
      rw [signUps_singleton_of_none hx, List.append_nil]
      exact hnothing
    | some password =>
      have hq := h.signing x q password (Pool.mem_threads hthread) hx
      rw [hq.step_of_taken hdigests hx htaken] at hstep
      cases hstep
      rw [signUps_singleton_of_some hx]
      refine ⟨_, ?_, rfl⟩
      intro e he
      rw [List.mem_singleton.1 he]

/-- A sign-up under a taken name leaves all tables alone. -/
theorem Racing.tables_of_taken (hdigests : s.passwords.Digests) (h : s.Racing username p)
    (hturn : p.Turn i p') (htaken : p.tables.isTaken username = true)
    (hthread : p.thread? i = some (x, q)) (hx : s.signUp? username x = some password) :
    p'.tables = p.tables := by
  have hq := h.signing x q password (Pool.mem_threads hthread) hx
  rw [hturn.eq_step, Pool.step_of_done hthread (hq.step_of_taken hdigests hx htaken)]

end Steps

theorem Upholding.turn (h : s.Upholding username digest? p) (hturn : p.Turn i p')
    (hdigest : p.tables.HasDigest username digest?) : s.Upholding username digest? p' := by
  intro x q hmem hx
  rcases hturn.mem_threads hmem with hmem | ⟨q₀, hthread, rfl, -⟩
  · exact h x q hmem hx
  · exact ((h x q₀ (Pool.mem_threads hthread) hx).step hdigest).1

/-- After the turn of another request the name has the digest that it had, or its account has been
reset. -/
theorem Upholding.hasDigest_turn (h : s.Upholding username digest? p) (hturn : p.Turn i p')
    (hdigest : p.tables.HasDigest username digest?)
    (hother : ∀ x q, p.thread? i = some (x, q) → s.signUp? username x = none) :
    p'.tables.HasDigest username digest? ∨ digest? ≠ none ∧ ∃ e ∈ p'.log, isReset username e := by
  cases hturn with
  | idle hthread => exact .inl hdigest
  | ended x q a t hthread hstep =>
    have hafter := ((h x q (Pool.mem_threads hthread) (hother x q hthread)).step hdigest).2
    rw [hstep] at hafter
    refine hafter.imp_right ?_
    rintro ⟨a', ⟨hsome, hreset⟩, heq⟩
    cases heq
    exact ⟨hsome, _, List.mem_append_right _ (List.mem_singleton.2 rfl), hreset⟩
  | pending x q q' t hthread hstep hleft =>
    have hafter := ((h x q (Pool.mem_threads hthread) (hother x q hthread)).step hdigest).2
    rw [hstep] at hafter
    refine .inl (hafter.resolve_right ?_)
    rintro ⟨a, -, heq⟩
    exact hleft a heq

/-! ## Before and after a sign-up has won -/

/-- The name is still free and no sign-up under it is over. -/
structure StillOpen (s : Service) (username : String) (p : Pool Asked (Except Failure Reply)) :
    Prop where
  racing : s.Racing username p
  free : p.tables.isTaken username = false
  signUps : s.signUps username p.log = []
  upholding : ∀ digest?, s.Upholding username digest? p

/-- One sign-up has won and all others that are over were refused. The account has the winner's
digest, or it has been reset. -/
structure WonBy (s : Service) (username : String) (winner : Asked) (digest : String)
    (p : Pool Asked (Except Failure Reply)) : Prop where
  racing : s.Racing username p
  taken : p.tables.isTaken username = true
  signUps : ∃ tokens losers, (∀ e ∈ losers, e.2 = .error .usernameUnavailable) ∧
    s.signUps username p.log = (winner, .ok (.tokens tokens)) :: losers
  kept : (∃ e ∈ p.log, isReset username e) ∨
    p.tables.HasDigest username (some digest) ∧ s.Upholding username (some digest) p

theorem WonBy.turn (hdigests : s.passwords.Digests) {winner : Asked} {digest : String}
    (h : s.WonBy username winner digest p) (hturn : p.Turn i p') :
    s.WonBy username winner digest p' := by
  obtain ⟨htaken, refused, hrefused, hlog⟩ := h.racing.turn_of_taken hdigests hturn h.taken
  refine ⟨(h.racing.turn hdigests hturn).1, htaken, ?_, ?_⟩
  · obtain ⟨tokens, losers, hlosers, hsignUps⟩ := h.signUps
    refine ⟨tokens, losers ++ refused, ?_, ?_⟩
    · exact List.forall_mem_append.2 ⟨hlosers, hrefused⟩
    · rw [hlog, hsignUps, List.cons_append]
  · rcases h.kept with ⟨e, he, hreset⟩ | ⟨hdigest, hupholding⟩
    · exact .inl ⟨e, hturn.mem_log he, hreset⟩
    · have hafter : p'.tables.HasDigest username (some digest) ∨
          ∃ e ∈ p'.log, isReset username e := by
        rcases isTurnOfSignUp_or s username p i with ⟨x, q, password, hthread, hx⟩ | hother
        · rw [h.racing.tables_of_taken hdigests hturn h.taken hthread hx]
          exact .inl hdigest
        · exact (hupholding.hasDigest_turn hturn hdigest hother).imp_right And.right
      rcases hafter with hafter | hreset
      · exact .inr ⟨hafter, hupholding.turn hturn hdigest⟩
      · exact .inl hreset

/-- A turn leaves the name free, or a sign-up wins with it. -/
theorem StillOpen.turn (hdigests : s.passwords.Digests) (h : s.StillOpen username p)
    (hturn : p.Turn i p') :
    s.StillOpen username p' ∨ ∃ winner password digest, s.signUp? username winner = some password ∧
      s.passwords.digest winner.given.salt password = .ok digest ∧
        s.WonBy username winner digest p' := by
  have hracing := (h.racing.turn hdigests hturn).1
  have hfree := Tables.hasDigest_of_free h.free
  have hupholding (digest? : Option String) : s.Upholding username digest? p' :=
    (h.upholding digest?).turn hturn (hfree digest?)
  rcases isTurnOfSignUp_or s username p i with ⟨x, q, password, hthread, hx⟩ | hother
  · have hq := h.racing.signing x q password (Pool.mem_threads hthread) hx
    rcases hq.step_of_free hdigests hx h.free with ⟨q', hgoesOn, -, hleft⟩ |
      ⟨digest, tokens, hdigest, hwins⟩
    · have hafter := hturn.eq_step.trans (Pool.step_of_pending hthread hgoesOn hleft)
      exact .inl ⟨hracing, hafter ▸ h.free, hafter ▸ h.signUps, hupholding⟩
    · have hafter := hturn.eq_step.trans (Pool.step_of_done hthread hwins)
      have hadded := (Tables.insertAccount_of_free
        (a := newAccount s.session x.given username digest) h.free).2
      refine .inr ⟨x, password, digest, hx, hdigest, hracing, ?_, ?_, .inr ⟨?_, hupholding _⟩⟩
      · rw [hafter, Tables.isTaken, hadded, List.any_append]
        exact Bool.or_eq_true_iff.2 (.inr (by simp [newAccount, NewAccount.row]))
      · refine ⟨tokens, [], List.forall_mem_nil _, ?_⟩
        rw [hafter, signUps_append, h.signUps, signUps_singleton_of_some hx]
        rfl
      · rw [hafter]
        exact (hfree (some digest)).insertAccount fun _ => rfl
  · have hstill : p'.tables.HasDigest username none :=
      ((h.upholding none).hasDigest_turn hturn (hfree none) hother).resolve_right
        fun hreset => hreset.1 rfl
    refine .inl ⟨hracing, hstill.isTaken_eq_false, ?_, hupholding⟩
    cases hturn with
    | idle hthread => exact h.signUps
    | ended x q a t hthread hstep =>
      rw [signUps_append, h.signUps, signUps_singleton_of_none (hother x q hthread)]
      rfl
    | pending x q q' t hthread hstep hleft => exact h.signUps

theorem WonBy.run (hdigests : s.passwords.Digests) {winner : Asked} {digest : String}
    (h : s.WonBy username winner digest p) (schedule : List Nat) :
    s.WonBy username winner digest (p.run schedule) := by
  induction schedule generalizing p with
  | nil => exact h
  | cons i schedule ih => exact ih (h.turn hdigests (p.turn_step i))

/-- After any turns the name is still free or a sign-up has won. -/
theorem StillOpen.run (hdigests : s.passwords.Digests) (h : s.StillOpen username p)
    (schedule : List Nat) :
    s.StillOpen username (p.run schedule) ∨
      ∃ winner password digest, s.signUp? username winner = some password ∧
        s.passwords.digest winner.given.salt password = .ok digest ∧
          s.WonBy username winner digest (p.run schedule) := by
  induction schedule generalizing p with
  | nil => exact .inl h
  | cons i schedule ih =>
    rcases h.turn hdigests (p.turn_step i) with hopen | ⟨winner, password, digest, hx, hd, hwon⟩
    · exact ih hopen
    · exact .inr ⟨winner, password, digest, hx, hd, hwon.run hdigests schedule⟩

/-- Under a name that is taken all sign-ups are refused. -/
theorem Racing.run_of_taken (hdigests : s.passwords.Digests) (h : s.Racing username p)
    (htaken : p.tables.isTaken username = true)
    (hlog : ∀ e ∈ s.signUps username p.log, e.2 = .error .usernameUnavailable)
    (schedule : List Nat) :
    s.Racing username (p.run schedule) ∧ (p.run schedule).tables.isTaken username = true ∧
      ∀ e ∈ s.signUps username (p.run schedule).log, e.2 = .error .usernameUnavailable := by
  induction schedule generalizing p with
  | nil => exact ⟨h, htaken, hlog⟩
  | cons i schedule ih =>
    have hturn := p.turn_step i
    obtain ⟨hstill, losers, hlosers, hsignUps⟩ := h.turn_of_taken hdigests hturn htaken
    refine ih (h.turn hdigests hturn).1 hstill ?_
    rw [hsignUps]
    exact List.forall_mem_append.2 ⟨hlog, hlosers⟩

/-- Before the first turn. -/
theorem racing_start (ht : t.InOrder) (requests : List Asked) (username : String) :
    s.Racing username (Pool.start s.replyTo t requests) ∧
      ∀ digest?, s.Upholding username digest? (Pool.start s.replyTo t requests) := by
  refine ⟨⟨⟨ht, ?_⟩, ?_⟩, ?_⟩
  · intro x q hmem
    obtain ⟨-, rfl⟩ := Pool.mem_threads_start s.replyTo hmem
    exact s.allows_replyTo x t
  · intro x q password hmem hx
    obtain ⟨-, rfl⟩ := Pool.mem_threads_start s.replyTo hmem
    exact .looking
  · intro digest? x q hmem hx
    obtain ⟨-, rfl⟩ := Pool.mem_threads_start s.replyTo hmem
    exact s.upholds_replyTo hx digest?

/-- In tables that come about, whatever requests share them and in whatever order they take their
turns: if a name is taken, every sign-up under it is refused and no turn of it changes the tables.
If the name is free, it stays free until a sign-up under it wins; all others are refused. Then there
is one account of the name, its creation is on record once, and unless its password has been reset
it is the winner's. When the race is over, every sign-up has come to one or the other. -/
theorem one_signUp_wins (s : Service) (hverifies : s.passwords.Verifies)
    (hdigests : s.passwords.Digests) {t : Tables} (ht : s.Reaches {} t) (requests : List Asked)
    (schedule : List Nat) (username : String) :
    let p := s.share t requests schedule
    (t.isTaken username = true →
      (∀ e ∈ s.signUps username p.log, e.2 = .error .usernameUnavailable) ∧
      ∀ i x q, p.thread? i = some (x, q) → s.signUp? username x ≠ none →
        (p.step i).tables = p.tables) ∧
    (t.isTaken username = false →
      (s.signUps username p.log = [] ∧ p.tables.isTaken username = false) ∨
      ∃ winner tokens losers password,
        s.signUps username p.log = (winner, .ok (.tokens tokens)) :: losers ∧
        (∀ e ∈ losers, e.2 = .error .usernameUnavailable) ∧
        s.signUp? username winner = some password ∧
        (p.tables.accounts.map (·.username)).count username = 1 ∧
        ∀ a ∈ p.tables.accounts, a.username = username →
          (p.tables.securityLabels a.id).count SecurityEvent.created.label = 1 ∧
          ((∀ e ∈ p.log, isReset username e = false) → ∀ presented,
            s.passwords.verify presented a.passwordDigest =
              .ok (decide (presented = password)))) ∧
    (p.isOver = true → ((s.signUps username p.log).map (·.1)).Perm
      (requests.filter fun x => (s.signUp? username x).isSome)) := by
  intro p
  obtain ⟨hracing, hupholding⟩ := racing_start (s := s) ht.inOrder requests username
  refine ⟨fun htaken => ?_, fun hfree => ?_, fun hover => ?_⟩
  · obtain ⟨hafter, hstill, hrefused⟩ := hracing.run_of_taken hdigests htaken
      (fun _ he => nomatch he) schedule
    refine ⟨hrefused, fun i x q hthread hx => ?_⟩
    obtain ⟨password, hx⟩ := Option.ne_none_iff_exists'.1 hx
    exact hafter.tables_of_taken hdigests (p.turn_step i) hstill hthread hx
  · have hopen : s.StillOpen username (Pool.start s.replyTo t requests) :=
      ⟨hracing, hfree, rfl, hupholding⟩
    rcases hopen.run hdigests schedule with hopen | ⟨winner, password, digest, hx, hdigest, hwon⟩
    · exact .inl ⟨hopen.signUps, hopen.free⟩
    · obtain ⟨tokens, losers, hlosers, hsignUps⟩ := hwon.signUps
      refine .inr ⟨winner, tokens, losers, password, hsignUps, hlosers, hx, ?_, ?_⟩
      · obtain ⟨a, ha, hname⟩ := List.any_eq_true.1 hwon.taken
        exact List.count_eq_one_of_mem hwon.racing.holds.tables.accounts.usernames
          (List.mem_map.2 ⟨a, ha, of_decide_eq_true hname⟩)
      · intro a ha hname
        obtain ⟨rest, hlabels, hrest⟩ := (ht.shared requests schedule).beginsWithCreation a ha
        refine ⟨?_, fun hreset presented => ?_⟩
        · rw [hlabels, List.count_cons_self, List.count_eq_zero_of_not_mem hrest]
        · have hkept := hwon.kept.resolve_left fun ⟨e, he, his⟩ =>
            Bool.false_ne_true ((hreset e he).symm.trans his)
          rw [← Option.some.inj (hkept.1 a ha hname)]
          exact hverifies _ _ _ hdigest presented
  · have hperm := (Pool.perm_log s.replyTo t requests schedule hover).filter
      fun x => (s.signUp? username x).isSome
    rw [List.filter_map] at hperm
    exact hperm

end Service

/-- Two sign-ups under one name, and an update of the account that may be there. -/
def twoSignUps : List Asked :=
  [⟨.sample 1, .signUp "ada@example.com" "correct horse"⟩,
    ⟨.sample 2, .signUp "ada@example.com" "battery staple"⟩,
    ⟨.sample 3, .updateAccount "ada@example.com" { fullName := .set (some "Ada") }⟩]

/-- Both look before either adds the account; the second is the first to add it. -/
theorem one_signUp_wins_twoSignUps : Service.plain.passwords.Verifies ∧
    Service.plain.passwords.Digests ∧ Service.plain.Reaches {} {} ∧
    ({} : Tables).isTaken "ada@example.com" = false ∧
    let p := Service.plain.share {} twoSignUps [0, 1, 1, 2, 0, 2]
    p.isOver = true ∧ (p.tables.accounts.map (·.username)).count "ada@example.com" = 1 ∧
      ∀ a ∈ p.tables.accounts, a.username = "ada@example.com" → ∀ presented,
        Service.plain.passwords.verify presented a.passwordDigest =
          .ok (decide (presented = "battery staple")) := by
  have hdigests : Service.plain.passwords.Digests := fun _ secret => ⟨secret, rfl⟩
  have hover : (Service.plain.share {} twoSignUps [0, 1, 1, 2, 0, 2]).isOver = true := by
    decide +kernel
  have hpasswords : (Service.plain.signUps "ada@example.com"
      (Service.plain.share {} twoSignUps [0, 1, 1, 2, 0, 2]).log).map
        (fun e => Service.plain.signUp? "ada@example.com" e.1) =
      [some "battery staple", some "correct horse"] := by
    decide +kernel
  have hreset : ∀ e ∈ (Service.plain.share {} twoSignUps [0, 1, 1, 2, 0, 2]).log,
      Service.isReset "ada@example.com" e = false := by
    decide +kernel
  obtain ⟨-, hfree, -⟩ := Service.plain.one_signUp_wins Hasher.plain_verifies hdigests .here
    twoSignUps [0, 1, 1, 2, 0, 2] "ada@example.com"
  rcases hfree rfl with ⟨hnone, -⟩ | ⟨winner, tokens, losers, password, hsignUps, -, hx, hone, hrow⟩
  · rw [hnone] at hpasswords
    cases hpasswords
  · rw [hsignUps, List.map_cons, hx] at hpasswords
    obtain rfl : password = "battery staple" := Option.some.inj (List.cons.inj hpasswords).1
    exact ⟨Hasher.plain_verifies, hdigests, .here, rfl, hover, hone,
      fun a ha hname => (hrow a ha hname).2 hreset⟩

end Latchkey
