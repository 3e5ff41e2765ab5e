import Latchkey.Proofs.History
import Latchkey.Proofs.SignIn

/-!
# Requests that are interrupted

A request may be dropped between two of its calls, or one of its calls may fail. A request that
breaks off at a fault and writes in one call at most leaves the tables as they were or as it would
have left them, wherever it is interrupted. All requests are of this kind but one: a sign-in puts
its origin on record in one call and registers its device in another, and in between its record
stands alone.
-/

namespace Latchkey

/-- The call changes nothing, whatever the tables are. -/
def Call.Looks {β : Type} (c : Call β) : Prop :=
  ∀ t, (c.apply t).2 = t

/-- Tables in memory with the number of calls made so far. One call fails and does nothing. -/
def Backend.failingAt (k : Nat) (fault : StoreFault) : Backend (Nat × Tables) where
  answer c s :=
    if s.1 + 1 = k then (.error fault, (s.1 + 1, s.2))
    else ((c.apply s.2).1, (s.1 + 1, (c.apply s.2).2))
  deliver _ s := (true, s)

namespace Program

variable {α β : Type}

/-- The tables after a program that is dropped right after so many of its calls. -/
def dropped : Program α → Nat → Tables → Tables
  | .done _, _, t => t
  | .call _ _, 0, t => t
  | .call c next, k + 1, t => (next (c.apply t).1).dropped k (c.apply t).2
  | .notify _ next, k, t => (next true).dropped k t

/-- Any fault ends the program with a failure, and on every path so many calls at most write. -/
def WritesAtMost : Program (Except Failure α) → Nat → Prop
  | .done _, _ => True
  | .call c next, n =>
    (∀ fault, next (.error fault) = .done (.error (.store fault))) ∧
      (c.Looks ∧ (∀ answer, (next answer).WritesAtMost n) ∨
        ∃ m, n = m + 1 ∧ ∀ answer, (next answer).WritesAtMost m)
  | .notify _ next, n => ∀ delivered, (next delivered).WritesAtMost n

theorem WritesAtMost.mono {p : Program (Except Failure α)} {m n : Nat} (hp : p.WritesAtMost m)
    (h : m ≤ n) : p.WritesAtMost n := by
  induction p generalizing m n with
  | done a => trivial
  | call c next ih =>
    obtain ⟨hfault, ⟨hlooks, hnext⟩ | ⟨l, rfl, hnext⟩⟩ := hp
    · exact ⟨hfault, .inl ⟨hlooks, fun answer => ih answer (hnext answer) h⟩⟩
    · refine ⟨hfault, .inr ⟨n - 1, by omega, fun answer => ?_⟩⟩
      exact ih answer (hnext answer) (by omega)
  | notify notice next ih => exact fun delivered => ih delivered (hp delivered) h

theorem writesAtMost_andThen {p : Program (Except Failure α)}
    {f : Except Failure α → Program (Except Failure β)} {m n : Nat} (hp : p.WritesAtMost m)
    (hok : ∀ a, (f (.ok a)).WritesAtMost n) (herror : ∀ e, f (.error e) = .done (.error e)) :
    (p.andThen f).WritesAtMost (m + n) := by
  induction p generalizing m with
  | done x =>
    cases x with
    | ok a => exact (hok a).mono (Nat.le_add_left n m)
    | error e =>
      show (f (.error e)).WritesAtMost (m + n)
      rw [herror e]
      trivial
  | call c next ih =>
    obtain ⟨hfault, hcall⟩ := hp
    refine ⟨fun fault => ?_, ?_⟩
    · show (next (.error fault)).andThen f = _
      rw [hfault fault]
      exact herror _
    · rcases hcall with ⟨hlooks, hnext⟩ | ⟨l, rfl, hnext⟩
      · exact .inl ⟨hlooks, fun answer => ih answer (hnext answer)⟩
      · exact .inr ⟨l + n, by omega, fun answer => ih answer (hnext answer)⟩
  | notify notice next ih => exact fun delivered => ih delivered (hp delivered)

/-! ## One write at most -/

/-- A program that only looks changes nothing, run or dropped. -/
theorem state_of_writesAtMost_zero {p : Program (Except Failure α)} (hp : p.WritesAtMost 0)
    (t : Tables) : (p.run Backend.memory t).state = t ∧ ∀ k, p.dropped k t = t := by
  induction p generalizing t with
  | done a => exact ⟨rfl, fun _ => rfl⟩
  | call c next ih =>
    obtain ⟨-, ⟨hlooks, hnext⟩ | ⟨m, hm, -⟩⟩ := hp
    · obtain ⟨hrun, hdropped⟩ := ih _ (hnext (c.apply t).1) (c.apply t).2
      refine ⟨hrun.trans (hlooks t), fun k => ?_⟩
      cases k with
      | zero => rfl
      | succ k => exact (hdropped k).trans (hlooks t)
    · cases hm
  | notify notice next ih => exact ih true (hp true) t

/-- Where a program that writes at most once is dropped, it has not written yet or will not write
any more. -/
theorem dropped_of_writesAtMost_one {p : Program (Except Failure α)} (hp : p.WritesAtMost 1)
    (k : Nat) (t : Tables) :
    p.dropped k t = t ∨ p.dropped k t = (p.run Backend.memory t).state := by
  induction p generalizing k t with
  | done a => exact .inl rfl
  | call c next ih =>
    cases k with
    | zero => exact .inl rfl
    | succ k =>
      obtain ⟨-, ⟨hlooks, hnext⟩ | ⟨m, hm, hnext⟩⟩ := hp
      · have h := ih (c.apply t).1 (hnext _) k (c.apply t).2
        rcases h with h | h
        · exact .inl (h.trans (hlooks t))
        · exact .inr h
      · obtain rfl : m = 0 := by omega
        obtain ⟨hrun, hdropped⟩ := state_of_writesAtMost_zero (hnext (c.apply t).1) (c.apply t).2
        exact .inr ((hdropped k).trans hrun.symm)
  | notify notice next ih => exact ih true (hp true) k t

section FailingAt

variable {k made : Nat} {fault : StoreFault} {t : Tables} {c : Call β}
variable {next : Except StoreFault β → Program α}

theorem run_call_of_fault (h : made + 1 = k) :
    (Program.call c next).run (Backend.failingAt k fault) (made, t) =
      (next (.error fault)).run (Backend.failingAt k fault) (made + 1, t) := by
  simp only [run, Backend.failingAt, if_pos h]

theorem run_call_of_answer (h : made + 1 ≠ k) :
    (Program.call c next).run (Backend.failingAt k fault) (made, t) =
      (next (c.apply t).1).run (Backend.failingAt k fault) (made + 1, (c.apply t).2) := by
  simp only [run, Backend.failingAt, if_neg h]

end FailingAt

/-- A program that breaks off at a fault leaves what it leaves undisturbed, or what it leaves where
it is dropped. -/
theorem run_failingAt {p : Program (Except Failure α)} {n : Nat} (hp : p.WritesAtMost n) (k : Nat)
    (fault : StoreFault) (made : Nat) (t : Tables) :
    (p.run (Backend.failingAt k fault) (made, t)).state.2 = (p.run Backend.memory t).state ∨
      ∃ j, (p.run (Backend.failingAt k fault) (made, t)).state.2 = p.dropped j t := by
  induction p generalizing n made t with
  | done a => exact .inl rfl
  | call c next ih =>
    obtain ⟨hfault, hcall⟩ := hp
    by_cases hk : made + 1 = k
    · refine .inr ⟨0, ?_⟩
      rw [run_call_of_fault hk, hfault fault]
      rfl
    · have hnext : ∃ m, (next (c.apply t).1).WritesAtMost m := by
        rcases hcall with ⟨-, hnext⟩ | ⟨m, -, hnext⟩
        · exact ⟨n, hnext _⟩
        · exact ⟨m, hnext _⟩
      obtain ⟨m, hnext⟩ := hnext
      rw [run_call_of_answer hk]
      rcases ih _ hnext (made + 1) (c.apply t).2 with h | ⟨j, h⟩
      · exact .inl h
      · exact .inr ⟨j + 1, h⟩
  | notify notice next ih => exact ih true (hp true) made t

end Program

namespace Request

variable {α β : Type}

/-- The tables after a request that is dropped right after so many of its calls. -/
def dropped (r : Request α) (k : Nat) (t : Tables) : Tables :=
  Program.dropped r.run k t

/-- What a request answers if one of its calls fails, and the tables after it. -/
def execFailing (r : Request α) (k : Nat) (fault : StoreFault) (t : Tables) :
    Except Failure α × Tables :=
  let run := Program.run (Backend.failingAt k fault) r.run (0, t)
  (run.value, run.state.2)

/-- The tables are those before the request, or those that it leaves if nothing disturbs it. -/
def LeavesWhole (r : Request α) (t t' : Tables) : Prop :=
  t' = t ∨ t' = (r.exec t).2

/-- Any fault ends the request, and on every path so many calls at most write. -/
def WritesAtMost (r : Request α) (n : Nat) : Prop :=
  Program.WritesAtMost r.run n

theorem writesAtMost_bind {r : Request α} {f : α → Request β} {m n : Nat} (hr : r.WritesAtMost m)
    (hf : ∀ a, (f a).WritesAtMost n) : (r >>= f).WritesAtMost (m + n) := by
  rw [WritesAtMost, Program.run_bind]
  exact Program.writesAtMost_andThen hr hf fun _ => rfl

/-- A part that only looks leaves the writing to the rest. -/
theorem writesAtMost_bind_look {r : Request α} {f : α → Request β} {n : Nat}
    (hr : r.WritesAtMost 0) (hf : ∀ a, (f a).WritesAtMost n) : (r >>= f).WritesAtMost n :=
  Nat.zero_add n ▸ writesAtMost_bind hr hf

/-- A part that may write leaves no writing to the rest. -/
theorem writesAtMost_bind_write {r : Request α} {f : α → Request β} {n : Nat}
    (hr : r.WritesAtMost n) (hf : ∀ a, (f a).WritesAtMost 0) : (r >>= f).WritesAtMost n :=
  writesAtMost_bind hr hf

variable (n : Nat)

theorem writesAtMost_pure (a : α) : (pure a : Request α).WritesAtMost n := trivial

theorem writesAtMost_throw (e : Failure) : (throw e : Request α).WritesAtMost n := trivial

theorem writesAtMost_look {c : Call α} (h : c.Looks) : (Request.ofCall c).WritesAtMost n :=
  ⟨fun _ => rfl, .inl ⟨h, fun _ => trivial⟩⟩

theorem writesAtMost_write (c : Call α) : (Request.ofCall c).WritesAtMost 1 :=
  ⟨fun _ => rfl, .inr ⟨0, rfl, fun _ => trivial⟩⟩

theorem writesAtMost_send (notice : Notice) : (Request.send notice).WritesAtMost n :=
  fun _ => trivial

theorem writesAtMost_accept (checked : Except Invalid α) :
    (Request.accept checked).WritesAtMost n := trivial

theorem writesAtMost_liftExcept (x : Except Failure α) :
    (liftM x : Request α).WritesAtMost n := trivial

theorem writesAtMost_orFail (found : Option α) (e : Failure) :
    (Request.orFail found e).WritesAtMost n := by
  cases found <;> trivial

/-- A request that writes at most once leaves the tables whole wherever it is interrupted. -/
theorem leavesWhole_of_writesAtMost_one {r : Request α} (hr : r.WritesAtMost 1) (k : Nat)
    (t : Tables) : r.LeavesWhole t (r.dropped k t) ∧
      ∀ fault, r.LeavesWhole t (r.execFailing k fault t).2 := by
  have hdropped (j : Nat) : r.LeavesWhole t (r.dropped j t) :=
    Program.dropped_of_writesAtMost_one hr j t
  refine ⟨hdropped k, fun fault => ?_⟩
  rcases Program.run_failingAt hr k fault 0 t with h | ⟨j, h⟩
  · exact .inr h
  · show r.LeavesWhole t (Program.run (Backend.failingAt k fault) r.run (0, t)).state.2
    rw [h]
    exact hdropped j

end Request

/-! ## The requests that write at most once -/

open Request

namespace Session

variable (settings : SessionSettings) (hasher : Hasher) (given : Given)

theorem writesAtMost_findAccount (n : Nat) (username : String) :
    (findAccount username).WritesAtMost n :=
  writesAtMost_bind_look (writesAtMost_look 0 fun _ => rfl) fun _ => writesAtMost_orFail n _ _

theorem writesAtMost_signUp (username password : String) :
    (signUp settings hasher given username password).WritesAtMost 1 := by
  refine writesAtMost_bind_look (writesAtMost_accept 0 _) fun _ => ?_
  refine writesAtMost_bind_look (writesAtMost_accept 0 _) fun _ => ?_
  refine writesAtMost_bind_look (writesAtMost_look 0 fun _ => rfl) fun taken => ?_
  cases taken with
  | true => exact writesAtMost_throw 1 _
  | false =>
    refine writesAtMost_bind_look (writesAtMost_liftExcept 0 _) fun _ => ?_
    refine writesAtMost_bind_write (writesAtMost_write _) fun _ => ?_
    refine writesAtMost_bind_look (writesAtMost_orFail 0 _ _) fun _ => ?_
    exact writesAtMost_bind_look (writesAtMost_send 0 _) fun _ => writesAtMost_pure 0 _

theorem writesAtMost_signIn_none (username password : String) :
    (signIn settings hasher given username password none).WritesAtMost 1 := by
  refine writesAtMost_bind_look (writesAtMost_look 0 fun _ => rfl) fun found => ?_
  cases found with
  | none =>
    refine writesAtMost_bind_look (writesAtMost_liftExcept 0 _) fun _ => ?_
    exact writesAtMost_bind_look (writesAtMost_liftExcept 0 _) fun _ => writesAtMost_throw 1 _
  | some account =>
    refine writesAtMost_bind_look (writesAtMost_liftExcept 0 _) fun fitting => ?_
    cases fitting with
    | false => exact writesAtMost_throw 1 _
    | true => exact writesAtMost_bind_write (writesAtMost_write _) fun _ => writesAtMost_pure 0 _

theorem writesAtMost_refresh (n : Nat) (token : Uuid) :
    (refresh settings given token).WritesAtMost n := by
  refine writesAtMost_bind_look (writesAtMost_look 0 fun _ => rfl) fun _ => ?_
  refine writesAtMost_bind_look (writesAtMost_orFail 0 _ _) fun _ => ?_
  refine writesAtMost_bind_look (writesAtMost_look 0 fun _ => rfl) fun _ => ?_
  exact writesAtMost_bind_look (writesAtMost_orFail 0 _ _) fun _ => writesAtMost_pure n _

theorem writesAtMost_authenticateBearer (n : Nat) (token : String) :
    (authenticateBearer settings given token).WritesAtMost n := by
  unfold authenticateBearer
  split
  · exact writesAtMost_pure n _
  · exact writesAtMost_throw n _

theorem writesAtMost_forgotPassword (username : String) :
    (forgotPassword given username).WritesAtMost 1 := by
  refine writesAtMost_bind_look (writesAtMost_findAccount 0 username) fun _ => ?_
  refine writesAtMost_bind_write (writesAtMost_write _) fun _ => ?_
  exact writesAtMost_bind_look (writesAtMost_send 0 _) fun _ => writesAtMost_pure 0 _

theorem writesAtMost_resetPassword (password : String) (token : Uuid) :
    (resetPassword settings hasher given password token).WritesAtMost 1 := by
  refine writesAtMost_bind_look (writesAtMost_look 0 fun _ => rfl) fun _ => ?_
  refine writesAtMost_bind_look (writesAtMost_orFail 0 _ _) fun _ => ?_
  split
  · exact writesAtMost_throw 1 _
  · refine writesAtMost_bind_look (writesAtMost_accept 0 _) fun _ => ?_
    refine writesAtMost_bind_look (writesAtMost_liftExcept 0 _) fun _ => ?_
    refine writesAtMost_bind_write (writesAtMost_write _) fun _ => ?_
    exact writesAtMost_bind_look (writesAtMost_send 0 _) fun _ => writesAtMost_pure 0 _

theorem writesAtMost_revokeDevice (username : String) (token : Uuid) :
    (revokeDevice username token).WritesAtMost 1 := by
  refine writesAtMost_bind_look (writesAtMost_findAccount 0 username) fun _ => ?_
  refine writesAtMost_bind_write (writesAtMost_write _) fun removed => ?_
  cases removed with
  | true => exact writesAtMost_pure 0 _
  | false => exact writesAtMost_throw 0 _

theorem writesAtMost_updateAccount (username : String) (update : ProfileUpdate) :
    (updateAccount given username update).WritesAtMost 1 := by
  refine writesAtMost_bind_look (writesAtMost_findAccount 0 username) fun _ => ?_
  dsimp only
  split
  · exact writesAtMost_pure 1 _
  · exact writesAtMost_write _

end Session

namespace Keyring

open Session

variable (limit : Int) (hasher : Hasher) (given : Given)

theorem writesAtMost_create (username : String) (request : KeyRequest) :
    (create limit hasher given username request).WritesAtMost 1 := by
  refine writesAtMost_bind_look (writesAtMost_accept 0 _) fun _ => ?_
  refine writesAtMost_bind_look (writesAtMost_accept 0 _) fun _ => ?_
  refine writesAtMost_bind_look (writesAtMost_findAccount 0 username) fun _ => ?_
  refine writesAtMost_bind_look (writesAtMost_liftExcept 0 _) fun _ => ?_
  refine writesAtMost_bind_write (writesAtMost_write _) fun _ => ?_
  refine writesAtMost_bind_look (writesAtMost_orFail 0 _ _) fun _ => ?_
  exact writesAtMost_bind_look (writesAtMost_send 0 _) fun _ => writesAtMost_pure 0 _

theorem writesAtMost_update (username : String) (id : RowId) (u : KeyUpdate) :
    (update given username id u).WritesAtMost 1 := by
  refine writesAtMost_bind_look (writesAtMost_accept 0 _) fun _ => ?_
  refine writesAtMost_bind_look (writesAtMost_findAccount 0 username) fun _ => ?_
  refine writesAtMost_bind_write (writesAtMost_write _) fun _ => ?_
  exact writesAtMost_bind_look (writesAtMost_orFail 0 _ _) fun _ => writesAtMost_pure 0 _

theorem writesAtMost_delete (username : String) (id : RowId) :
    (delete given username id).WritesAtMost 1 := by
  refine writesAtMost_bind_look (writesAtMost_findAccount 0 username) fun _ => ?_
  refine writesAtMost_bind_write (writesAtMost_write _) fun _ => ?_
  refine writesAtMost_bind_look (writesAtMost_orFail 0 _ _) fun _ => ?_
  exact writesAtMost_send 0 _

theorem writesAtMost_authenticate (n : Nat) (raw : String) :
    (authenticate hasher raw).WritesAtMost n := by
  unfold authenticate
  split
  · exact writesAtMost_pure n _
  · exact writesAtMost_bind_look (writesAtMost_look 0 fun _ => rfl) fun _ => writesAtMost_pure n _

theorem writesAtMost_owned (n : Nat) (account : Account) (id : RowId) :
    (owned account id).WritesAtMost n :=
  writesAtMost_bind_look (writesAtMost_look 0 fun _ => rfl) fun _ => writesAtMost_orFail n _ _

end Keyring

/-- The operation is a sign-in with an origin. -/
def Operation.BringsOrigin {α : Type} : Operation α → Prop
  | .signIn _ _ (some _) => True
  | _ => False

open Session Keyring in
/-- All requests but sign-ins with an origin write at most once. -/
theorem Service.writesAtMost_one (s : Service) (given : Given) {α : Type} {op : Operation α}
    (h : ¬op.BringsOrigin) : (s.request given op).WritesAtMost 1 := by
  have hread {β : Type} (username : String) {f : Account → Request β}
      (hf : ∀ a, (f a).WritesAtMost 1) : (Session.findAccount username >>= f).WritesAtMost 1 :=
    writesAtMost_bind_look (writesAtMost_findAccount 0 username) hf
  have hlook {β : Type} {c : Call β} (h : c.Looks) := writesAtMost_look 1 h
  cases op with
  | signUp username password => exact writesAtMost_signUp ..
  | signIn username password fingerprint =>
    cases fingerprint with
    | none => exact writesAtMost_signIn_none ..
    | some f => exact (h trivial).elim
  | refresh token => exact writesAtMost_refresh ..
  | authenticateBearer token => exact writesAtMost_authenticateBearer ..
  | forgotPassword username => exact writesAtMost_forgotPassword ..
  | resetPassword password token => exact writesAtMost_resetPassword ..
  | activeDevices username =>
    exact hread username fun _ =>
      writesAtMost_bind_look (writesAtMost_look 0 fun _ => rfl) fun _ => writesAtMost_pure 1 _
  | revokeDevice username token => exact writesAtMost_revokeDevice ..
  | revokeAllDevices username => exact hread username fun _ => writesAtMost_write _
  | findAccount username => exact writesAtMost_findAccount ..
  | updateAccount username update => exact writesAtMost_updateAccount ..
  | securityPage username page => exact hread username fun _ => hlook fun _ => rfl
  | chargePage username page => exact hread username fun _ => hlook fun _ => rfl
  | createKey username request => exact writesAtMost_create ..
  | updateKey username id update => exact writesAtMost_update ..
  | deleteKey username id => exact writesAtMost_delete ..
  | authenticateKey raw => exact writesAtMost_authenticate ..
  | countKeys username => exact hread username fun _ => hlook fun _ => rfl
  | listKeys username => exact hread username fun _ => hlook fun _ => rfl
  | findKey username id => exact hread username fun _ => writesAtMost_owned ..
  | keyPage username id page =>
    exact hread username fun _ =>
      writesAtMost_bind_look (writesAtMost_owned 0 _ _) fun _ => hlook fun _ => rfl

/-! ## Sign-ins with an origin -/

namespace Session

variable {settings : SessionSettings} {hasher : Hasher} {given : Given} {t : Tables}
variable {username password : String} {f : Fingerprint} {account : Account}

/-- A refused sign-in changes nothing, interrupted or not. -/
theorem state_signIn_refused
    (h : ∀ a, t.accountNamed? username = some a →
      hasher.verify password a.passwordDigest ≠ .ok true) (k : Nat) :
    (signIn settings hasher given username password (some f)).dropped k t = t ∧
      ∀ fault, ((signIn settings hasher given username password (some f)).execFailing k fault
        t).2 = t := by
  have hrefused : ∃ e, signInTo settings hasher given password (some f)
      (t.accountNamed? username) = .done (.error e) := signInTo_refused h
  obtain ⟨e, he⟩ := hrefused
  simp only [Request.dropped, Request.execFailing, run_signIn]
  refine ⟨?_, fun fault => ?_⟩
  · cases k with
    | zero => rfl
    | succ k => simp only [Program.dropped, Call.apply, Call.look, he]
  · by_cases hk : 0 + 1 = k
    · rw [Program.run_call_of_fault hk]
      rfl
    · rw [Program.run_call_of_answer hk]
      simp only [Call.apply, Call.look, he]
      rfl

/-- The check of an origin looks in its first call and writes in its second. -/
theorem dropped_checkOrigin (next : Program (Except Failure Tokens)) (k : Nat) :
    (checkOrigin given account (some f) next).dropped k t =
      if k < 2 then t else next.dropped (k - 2) (withOrigin given account (some f) t) := by
  rw [checkOrigin, Origin.verify_eq]
  rcases k with _ | _ | k
  · rfl
  · rfl
  · rw [if_neg (by omega)]
    simp only [Program.andThen, Program.dropped, Call.apply, Call.look, Call.sure]
    cases Origin.isSeen (t.securityTrailOf account.id) f <;> rfl

/-- An accepted sign-in has its origin on record after the third call and its device registered
after the fourth. -/
theorem dropped_signIn (hfound : t.accountNamed? username = some account)
    (hverify : hasher.verify password account.passwordDigest = .ok true) (k : Nat) :
    (signIn settings hasher given username password (some f)).dropped k t =
      if k < 3 then t
      else if k = 3 then withOrigin given account (some f) t
      else withDevice settings given account (some f) t := by
  rw [Request.dropped, run_signIn]
  rcases k with _ | k
  · rfl
  · simp only [Program.dropped, Call.apply, Call.look, signInTo_accepted hfound hverify]
    rw [dropped_checkOrigin]
    rcases k with _ | _ | _ | k
    · rfl
    · rfl
    · rfl
    · rw [if_neg (by omega), if_neg (by omega), if_neg (by omega)]
      rfl

/-- The check of an origin goes on whatever fails. If the fault comes right after it, it has made
both its calls. -/
theorem run_checkOrigin_failingAt (given : Given) (account : Account) (f : Fingerprint)
    (next : Program (Except Failure Tokens)) (k : Nat) (fault : StoreFault) (made : Nat)
    (t : Tables) : ∃ made' t',
      ((checkOrigin given account (some f) next).run (Backend.failingAt k fault) (made, t)).value =
        (next.run (Backend.failingAt k fault) (made', t')).value ∧
      ((checkOrigin given account (some f) next).run (Backend.failingAt k fault) (made, t)).state =
        (next.run (Backend.failingAt k fault) (made', t')).state ∧
      (made' + 1 = k → made' = made + 2 ∧ t' = withOrigin given account (some f) t) := by
  rw [checkOrigin, Origin.verify_eq, Program.andThen]
  by_cases h1 : made + 1 = k
  · rw [Program.run_call_of_fault h1]
    exact ⟨made + 1, t, rfl, rfl, fun h => by omega⟩
  · rw [Program.run_call_of_answer h1]
    dsimp only [Call.apply, Call.look, Program.andThen]
    by_cases h2 : made + 1 + 1 = k
    · rw [Program.run_call_of_fault h2]
      exact ⟨made + 2, t, rfl, rfl, fun h => by omega⟩
    · rw [Program.run_call_of_answer h2]
      refine ⟨made + 2, withOrigin given account (some f) t, ?_, ?_, fun _ => ⟨rfl, rfl⟩⟩ <;>
        dsimp only [Call.apply, Call.sure] <;>
        cases Origin.isSeen (t.securityTrailOf account.id) f <;> rfl

/-- An accepted sign-in answers with a failure only if its first call fails or its last. By then its
origin is on record. -/
theorem execFailing_signIn (hfound : t.accountNamed? username = some account)
    (hverify : hasher.verify password account.passwordDigest = .ok true) {k : Nat}
    {fault : StoreFault} {e : Failure} {t' : Tables}
    (h : (signIn settings hasher given username password (some f)).execFailing k fault t =
      (.error e, t')) :
    k = 1 ∧ t' = t ∨ k = 4 ∧ t' = withOrigin given account (some f) t := by
  rw [Request.execFailing, run_signIn] at h
  by_cases h1 : 0 + 1 = k
  · rw [Program.run_call_of_fault h1] at h
    exact .inl ⟨h1.symm, (Prod.mk.inj h).2.symm⟩
  · rw [Program.run_call_of_answer h1] at h
    dsimp only [Call.apply, Call.look] at h
    obtain ⟨made, t₁, hvalue, hstate, hlast⟩ := run_checkOrigin_failingAt given account f
      (registerDevice settings given account (some f)) k fault (0 + 1) t
    rw [signInTo_accepted hfound hverify, hvalue, hstate, registerDevice] at h
    by_cases h2 : made + 1 = k
    · obtain ⟨rfl, rfl⟩ := hlast h2
      rw [Program.run_call_of_fault h2] at h
      exact .inr ⟨h2.symm, (Prod.mk.inj h).2.symm⟩
    · rw [Program.run_call_of_answer h2] at h
      cases (Prod.mk.inj h).1

/-- The record of an origin alone is neither nothing nor all that a sign-in leaves. -/
theorem not_leavesWhole_withOrigin (hfound : t.accountNamed? username = some account)
    (hverify : hasher.verify password account.passwordDigest = .ok true) :
    ¬(signIn settings hasher given username password (some f)).LeavesWhole t
      (withOrigin given account (some f) t) := by
  rintro (h | h)
  · have hlength := congrArg (·.securityTrail.length) h
    simp [withOrigin, Tables.recordSecurity] at hlength
  · rw [exec_signIn_accepted hfound hverify] at h
    have hlength := congrArg (·.devices.length) h
    simp [withDevice, Tables.insertDevice] at hlength

theorem leavesWhole_dropped_signIn_iff (hfound : t.accountNamed? username = some account)
    (hverify : hasher.verify password account.passwordDigest = .ok true) (k : Nat) :
    (signIn settings hasher given username password (some f)).LeavesWhole t
      ((signIn settings hasher given username password (some f)).dropped k t) ↔ k ≠ 3 := by
  rw [dropped_signIn hfound hverify]
  constructor
  · rintro h rfl
    exact not_leavesWhole_withOrigin hfound hverify h
  · intro hk
    by_cases h : k < 3
    · rw [if_pos h]
      exact .inl rfl
    · rw [if_neg h, if_neg hk]
      exact .inr (congrArg Prod.snd (exec_signIn_accepted hfound hverify)).symm

theorem leavesWhole_execFailing_signIn_iff (hfound : t.accountNamed? username = some account)
    (hverify : hasher.verify password account.passwordDigest = .ok true) {k : Nat}
    {fault : StoreFault} {e : Failure} {t' : Tables}
    (h : (signIn settings hasher given username password (some f)).execFailing k fault t =
      (.error e, t')) :
    (signIn settings hasher given username password (some f)).LeavesWhole t t' ↔ k ≠ 4 := by
  rcases execFailing_signIn hfound hverify h with ⟨rfl, rfl⟩ | ⟨rfl, rfl⟩
  · exact iff_of_true (.inl rfl) (by omega)
  · exact iff_of_false (not_leavesWhole_withOrigin hfound hverify) fun h => h rfl

end Session

/-! ## Every request -/

/-- The operation is a sign-in with an origin, and its password fits. -/
def Service.ChecksOrigin (s : Service) (t : Tables) {α : Type} : Operation α → Prop
  | .signIn username password (some _) => ∃ account, t.accountNamed? username = some account ∧
      s.passwords.verify password account.passwordDigest = .ok true
  | _ => False

theorem Service.ChecksOrigin.bringsOrigin {s : Service} {t : Tables} {α : Type}
    {op : Operation α} (h : s.ChecksOrigin t op) : op.BringsOrigin := by
  cases op with
  | signIn username password fingerprint =>
    cases fingerprint with
    | none => exact h
    | some f => trivial
  | _ => exact h

namespace Service

variable (s : Service) (given : Given) (t : Tables)

theorem leavesWhole_signIn_iff (username password : String) (f : Fingerprint) (k : Nat) :
    let op := Operation.signIn username password (some f)
    ((s.request given op).LeavesWhole t ((s.request given op).dropped k t) ↔
        ¬(s.ChecksOrigin t op ∧ k = 3)) ∧
      ∀ fault e t', (s.request given op).execFailing k fault t = (.error e, t') →
        ((s.request given op).LeavesWhole t t' ↔ ¬(s.ChecksOrigin t op ∧ k = 4)) := by
  intro op
  by_cases hchecks : s.ChecksOrigin t op
  · obtain ⟨account, hfound, hverify⟩ := id hchecks
    refine ⟨?_, fun fault e t' h => ?_⟩
    · exact (Session.leavesWhole_dropped_signIn_iff hfound hverify k).trans
        (not_congr (and_iff_right hchecks)).symm
    · exact (Session.leavesWhole_execFailing_signIn_iff hfound hverify h).trans
        (not_congr (and_iff_right hchecks)).symm
  · have hrefused (a : Account) (hfound : t.accountNamed? username = some a) :
        s.passwords.verify password a.passwordDigest ≠ .ok true :=
      fun hverify => hchecks ⟨a, hfound, hverify⟩
    refine ⟨iff_of_true (.inl ?_) fun h => hchecks h.1, fun fault e t' h => ?_⟩
    · exact (Session.state_signIn_refused hrefused k).1
    · have hsame : t' = t :=
        (congrArg Prod.snd h).symm.trans ((Session.state_signIn_refused hrefused k).2 fault)
      exact iff_of_true (.inl hsame) fun h => hchecks h.1

/-- A request that is dropped, or that fails as one of its calls does, leaves the tables as they
were or as it would have left them, but for a sign-in that is dropped after it has put its origin on
record, or whose device cannot be registered after that. -/
theorem leavesWhole_iff {α : Type} (op : Operation α) (k : Nat) :
    ((s.request given op).LeavesWhole t ((s.request given op).dropped k t) ↔
        ¬(s.ChecksOrigin t op ∧ k = 3)) ∧
      ∀ fault e t', (s.request given op).execFailing k fault t = (.error e, t') →
        ((s.request given op).LeavesWhole t t' ↔ ¬(s.ChecksOrigin t op ∧ k = 4)) := by
  by_cases horigin : op.BringsOrigin
  · cases op with
    | signIn username password fingerprint =>
      cases fingerprint with
      | none => exact horigin.elim
      | some f => exact s.leavesWhole_signIn_iff given t username password f k
    | _ => exact horigin.elim
  · have hchecks : ¬s.ChecksOrigin t op := fun h => horigin h.bringsOrigin
    obtain ⟨hdropped, hfailing⟩ :=
      leavesWhole_of_writesAtMost_one (s.writesAtMost_one given horigin) k t
    refine ⟨iff_of_true hdropped fun h => hchecks h.1, fun fault e t' h => ?_⟩
    have hwhole := hfailing fault
    rw [h] at hwhole
    exact iff_of_true hwhole fun h => hchecks h.1

end Service

/-- Ada has an account. -/
def adaSignedUp : Tables :=
  Service.plain.after {} [⟨.sample 1, .signUp "ada@example.com" "old-password"⟩]

/-- She signs in from a place and with an agent of which nothing is known. -/
def adaSignsIn : Operation Tokens :=
  .signIn "ada@example.com" "old-password"
    (some ⟨"203.0.113.9", ⟨none, none, none⟩, ⟨"Other", none, none, "Other", none, none⟩⟩)

/-- Her sign-in fails because her device cannot be registered. -/
theorem leavesWhole_adaSignsIn :
    let request := Service.plain.request (.sample 2) adaSignsIn
    Service.plain.ChecksOrigin adaSignedUp adaSignsIn ∧
    ∃ e t', request.execFailing 4 ⟨"connection lost"⟩ adaSignedUp = (.error e, t') ∧
      ¬request.LeavesWhole adaSignedUp t' := by
  intro request
  have hchecks : Service.plain.ChecksOrigin adaSignedUp adaSignsIn := ⟨_, rfl, rfl⟩
  have hiff := (Service.plain.leavesWhole_iff (.sample 2) adaSignedUp adaSignsIn 4).2
    ⟨"connection lost"⟩ _ _ rfl
  exact ⟨hchecks, _, _, rfl, fun hwhole => hiff.1 hwhole ⟨hchecks, rfl⟩⟩

/-- The record of her origin stands although she was neither let in nor told of it, and her next
sign-in from there tells her nothing. -/
theorem not_leavesWhole_adaSignsIn :
    let request := Service.plain.request (.sample 2) adaSignsIn
    request.dropped 3 adaSignedUp ≠ adaSignedUp ∧
    request.dropped 3 adaSignedUp ≠ (request.exec adaSignedUp).2 ∧
    (Program.run Backend.memory request.run adaSignedUp).sent.map (·.subject.kind) =
      ["unrecognized_device"] ∧
    (Program.run Backend.memory request.run (request.dropped 3 adaSignedUp)).sent = [] := by
  decide +kernel

end Latchkey
