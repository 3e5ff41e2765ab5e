import Latchkey.Proofs.AccountCalls
import Latchkey.Proofs.Credentials
import Latchkey.Proofs.Footprint
import Latchkey.Proofs.Reach

/-!
# Requests that keep passwords

A name is free, or its account has a password. A sign-up under the name takes it, and a reset sets
the password. Every other request leaves both as they are, whatever others do in between: what it
writes of a name and a password it has read in the tables.
-/

namespace Latchkey

open Session

/-! ## What calls uphold -/

namespace Program

variable {α : Type}

/-- Tables that satisfy a condition when a call is made satisfy it after the call. Only the last
call may break it, and then the program comes to something that excuses it. -/
def Upholds (G : Tables → Prop) (Excuses : α → Prop) : Program α → Prop
  | .done _ => True
  | .call c next => ∀ t, G t →
      (G (c.apply t).2 ∧ (next (c.apply t).1).Upholds G Excuses) ∨
        ∃ a, Excuses a ∧ (next (c.apply t).1).settle = .done a
  | .notify _ next => ∀ delivered, (next delivered).Upholds G Excuses

variable {G : Tables → Prop} {Excuses : α → Prop} {p : Program α} {t : Tables}

/-- What all calls keep, the program upholds. -/
theorem Makes.upholds {P : {β : Type} → Call β → Prop} (h : p.Makes P)
    (keeps : ∀ {β : Type} (c : Call β) (t : Tables), P c → G t → G (c.apply t).2) :
    p.Upholds G Excuses := by
  induction p with
  | done a => trivial
  | call c next ih => exact fun t ht => .inl ⟨keeps c t h.1 ht, ih _ (h.2 _)⟩
  | notify n next ih => exact fun delivered => ih delivered (h delivered)

theorem Upholds.settle (h : p.Upholds G Excuses) : p.settle.Upholds G Excuses := by
  induction p with
  | done a => trivial
  | call c next ih => exact h
  | notify n next ih => exact ih true (h true)

theorem Upholds.step (h : p.Upholds G Excuses) (ht : G t) :
    (p.step t).1.Upholds G Excuses ∧
      (G (p.step t).2 ∨ ∃ a, Excuses a ∧ (p.step t).1 = .done a) := by
  cases p with
  | done a => exact ⟨trivial, .inl ht⟩
  | call c next =>
    rcases h t ht with ⟨hafter, hnext⟩ | ⟨a, ha, hdone⟩
    · exact ⟨hnext.settle, .inl hafter⟩
    · refine ⟨?_, .inr ⟨a, ha, hdone⟩⟩
      rw [step, hdone]
      trivial
  | notify n next => exact ⟨(h true).settle, .inl ht⟩

end Program

/-! ## The digest of a name -/

namespace Tables

variable {t : Tables} {username : String} {digest? : Option String}

/-- The account of this name, if there is one, has the given digest. If none is given, the name is
free. -/
def HasDigest (t : Tables) (username : String) (digest? : Option String) : Prop :=
  ∀ a ∈ t.accounts, a.username = username → digest? = some a.passwordDigest

theorem HasDigest.isTaken_eq_false (h : t.HasDigest username none) :
    t.isTaken username = false :=
  isTaken_eq_false_iff.2 fun a ha hname => nomatch h a ha hname

theorem hasDigest_of_free (h : t.isTaken username = false) (digest? : Option String) :
    t.HasDigest username digest? :=
  fun a ha hname => absurd hname (isTaken_eq_false_iff.1 h a ha)

theorem HasDigest.of_accounts_eq {t' : Tables} (h : t.HasDigest username digest?)
    (haccounts : t'.accounts = t.accounts) : t'.HasDigest username digest? := by
  rw [HasDigest, haccounts]
  exact h

theorem HasDigest.insertAccount (h : t.HasDigest username digest?) {a : NewAccount}
    (ha : a.username = username → digest? = some a.passwordDigest) :
    (t.insertAccount a).2.HasDigest username digest? := by
  cases htaken : t.isTaken a.username with
  | true =>
    rw [insertAccount_of_taken htaken]
    exact h
  | false =>
    intro b hb
    rw [(insertAccount_of_free htaken).2, List.mem_append, List.mem_singleton] at hb
    rcases hb with hb | rfl
    · exact h b hb
    · exact ha

theorem HasDigest.saveAccount (h : t.HasDigest username digest?) {a : Account}
    (ha : a.username = username → digest? = some a.passwordDigest) (events : List SecurityEvent)
    (now : Instant) : (t.saveAccount a events now).2.HasDigest username digest? := by
  unfold Tables.saveAccount
  split
  · intro b hb
    rw [recordSecurityEvents_accounts] at hb
    rcases mem_replaceFirst hb with rfl | hb
    · exact ha
    · exact h b hb
  · exact h

/-- An account is saved as it is given, or nothing happens. -/
theorem saveAccount_eq_ok_or (t : Tables) (a : Account) (events : List SecurityEvent)
    (now : Instant) : (t.saveAccount a events now).1 = .ok a ∨
      ∃ fault, t.saveAccount a events now = (.error fault, t) := by
  unfold saveAccount
  split
  · exact .inl rfl
  · exact .inr ⟨_, rfl⟩

end Tables

namespace Service

variable (s : Service)

/-- The password of a sign-up under a name, if name and password are valid. -/
def signUp? (username : String) (x : Asked) : Option String :=
  match x with
  | ⟨_, .signUp name password⟩ =>
    if name = username ∧ (checkUsername name).isOk ∧
        (checkPassword s.session.minPassword password).isOk then some password
    else none
  | _ => none

variable {s} {username password : String} {x : Asked}

theorem signUp?_eq_some (h : s.signUp? username x = some password) :
    x = ⟨x.given, .signUp username password⟩ ∧ checkUsername username = .ok () ∧
      checkPassword s.session.minPassword password = .ok () := by
  have hok {checked : Except Invalid Unit} (h : checked.isOk = true) : checked = .ok () := by
    cases checked with
    | ok _ => rfl
    | error e => cases h
  obtain ⟨given, op⟩ := x
  cases op with
  | signUp name password' =>
    simp only [signUp?, Option.ite_none_right_eq_some, Option.some.injEq] at h
    obtain ⟨⟨rfl, hname, hpassword⟩, rfl⟩ := h
    exact ⟨rfl, hok hname, hok hpassword⟩
  | _ => cases h

/-- A reset of the account of this name that has been completed. -/
def isReset (username : String) : Asked × Except Failure Reply → Bool
  | (⟨_, .resetPassword _ _⟩, .ok (.account a)) => a.username = username
  | _ => false

end Service

/-! ## What requests uphold -/

namespace Session

variable {α : Type} (settings : SessionSettings) (hasher : Hasher) (given : Given)
variable {username : String} {digest? : Option String} {Excuses : α → Prop}

/-- A row that is saved with the name and the digest that it was read with. -/
theorem upholds_save {a : Account} (ha : a.username = username → digest? = some a.passwordDigest)
    (events : List SecurityEvent) (now : Instant) {next : Except StoreFault Account → Program α}
    (hnext : ∀ answer, (next answer).Upholds (·.HasDigest username digest?) Excuses) :
    (Program.call (.saveAccount a events now) next).Upholds (·.HasDigest username digest?)
      Excuses :=
  fun _ ht => .inl ⟨ht.saveAccount ha events now, hnext _⟩

/-- An account that is looked up by its name is as the condition says. -/
theorem upholds_findAccountNamed {name : String}
    {next : Except StoreFault (Option Account) → Program α}
    (hnone : (next (.ok none)).Upholds (·.HasDigest username digest?) Excuses)
    (hsome : ∀ a, (a.username = username → digest? = some a.passwordDigest) →
      (next (.ok (some a))).Upholds (·.HasDigest username digest?) Excuses) :
    (Program.call (.findAccountNamed name) next).Upholds (·.HasDigest username digest?)
      Excuses := by
  refine fun t ht => .inl ⟨ht, ?_⟩
  show (next (.ok (t.accountNamed? name))).Upholds _ _
  cases hfound : t.accountNamed? name with
  | none => exact hnone
  | some a => exact hsome a (ht a (Tables.accountNamed?_some hfound).1)

theorem upholds_forgotPassword (name : String) {f : Except Failure Account → α} :
    ((forgotPassword given name).run.andThen fun answer => .done (f answer)).Upholds
      (·.HasDigest username digest?) Excuses := by
  rw [forgotPassword_andThen]
  refine upholds_findAccountNamed trivial fun a ha => ?_
  refine upholds_save (a := a.withReset given.uuid _) ha [] given.now fun answer => ?_
  cases answer with
  | error fault => trivial
  | ok a => exact fun _ => trivial

theorem upholds_updateAccount (name : String) (update : ProfileUpdate)
    {f : Except Failure Account → α} :
    ((updateAccount given name update).run.andThen fun answer => .done (f answer)).Upholds
      (·.HasDigest username digest?) Excuses := by
  rw [updateAccount_andThen]
  refine upholds_findAccountNamed trivial fun a ha => ?_
  dsimp only
  split
  · trivial
  · refine upholds_save ?_ _ given.now fun answer => ?_
    · rw [update.apply_username, (update.apply_credentials a).1]
      exact ha
    · cases answer <;> trivial

/-- A sign-up that is valid adds an account under its own name only. -/
theorem upholds_signUp {name password : String} (hother : name ≠ username ∨
      ¬(checkUsername name).isOk ∨ ¬(checkPassword settings.minPassword password).isOk)
    {f : Except Failure Tokens → α} :
    ((signUp settings hasher given name password).run.andThen
      fun answer => .done (f answer)).Upholds (·.HasDigest username digest?) Excuses := by
  rw [signUp_andThen]
  cases hname : checkUsername name with
  | error e => trivial
  | ok _ =>
    cases hpassword : checkPassword settings.minPassword password with
    | error e => trivial
    | ok _ =>
      have hne : name ≠ username := by
        rw [hname, hpassword] at hother
        rcases hother with h | h | h
        · exact h
        · exact (h rfl).elim
        · exact (h rfl).elim
      refine fun t ht => .inl ⟨ht, ?_⟩
      dsimp only [Call.apply, Call.look]
      cases t.isTaken name with
      | true => trivial
      | false =>
        dsimp only
        cases hasher.digest given.salt password with
        | error e => trivial
        | ok digest =>
          refine fun t ht => .inl ⟨ht.insertAccount fun heq => (hne heq).elim, ?_⟩
          dsimp only [Call.apply, Call.sure]
          cases (t.insertAccount (newAccount settings given name digest)).1 with
          | none => trivial
          | some a => exact fun _ => trivial

/-- A reset that sets the password of the name is completed with it. -/
theorem upholds_resetPassword (password : String) (token : Uuid)
    {f : Except Failure Account → α}
    (hexcuses : ∀ a, a.username = username → digest? ≠ none → Excuses (f (.ok a))) :
    ((resetPassword settings hasher given password token).run.andThen
      fun answer => .done (f answer)).Upholds (·.HasDigest username digest?) Excuses := by
  rw [resetPassword_andThen]
  refine fun t ht => .inl ⟨ht, ?_⟩
  dsimp only [Call.apply, Call.look]
  cases hfound : t.accountResetBy? token with
  | none => trivial
  | some a =>
    have ha := ht a (Tables.accountResetBy?_some hfound).1
    dsimp only
    split
    · trivial
    · cases checkPassword settings.minPassword password with
      | error e => trivial
      | ok _ =>
        cases hasher.digest given.salt password with
        | error e => trivial
        | ok digest =>
          -- Of another name the save is a save as any other, and of this name it is the last call.
          by_cases hname : a.username = username
          · intro t' ht'
            dsimp only [Call.apply]
            rcases t'.saveAccount_eq_ok_or { a.withoutReset with passwordDigest := digest }
              [.passwordReset] given.now with hsaved | ⟨fault, hsaved⟩
            · rw [hsaved]
              have hsome : digest? ≠ none := by
                rw [ha hname]
                exact Option.some_ne_none _
              refine .inr ⟨_, ?_, rfl⟩
              exact hexcuses _ hname hsome
            · rw [hsaved]
              exact .inl ⟨ht', trivial⟩
          · refine upholds_save (a := { a.withoutReset with passwordDigest := digest })
              (fun heq => (hname heq).elim) _ _ fun answer => ?_
            cases answer with
            | error fault => trivial
            | ok b => exact fun _ => trivial

end Session

/-- A request that is no sign-up under the name keeps the name free. If the name has a password, the
request keeps it or completes a reset. -/
theorem Service.upholds_replyTo (s : Service) {username : String} {x : Asked}
    (hx : s.signUp? username x = none) (digest? : Option String) :
    (s.replyTo x).Upholds (·.HasDigest username digest?) fun answer =>
      digest? ≠ none ∧ isReset username (x, answer) := by
  have hspares (hop : ¬x.op.WritesAccounts) :
      (s.replyTo x).Upholds (·.HasDigest username digest?) fun answer =>
        digest? ≠ none ∧ isReset username (x, answer) := by
    have hmakes : (s.replyTo x).Makes x.op.MayCall :=
      Program.makes_andThen (Program.Within.makes (s.within_request x.given x.op)) fun _ => trivial
    refine hmakes.upholds fun c t hc ht => ht.of_accounts_eq ?_
    exact Call.accounts_of_sparesAccounts (hc.sparesAccounts hop) t
  obtain ⟨given, op⟩ := x
  cases op with
  | signUp name password =>
    refine upholds_signUp s.session s.passwords given ?_
    simp only [signUp?, ite_eq_right_iff, reduceCtorEq, imp_false, not_and_or] at hx
    exact hx
  | forgotPassword name => exact upholds_forgotPassword given name
  | resetPassword password token =>
    refine upholds_resetPassword s.session s.passwords given password token ?_
    exact fun a ha hsome => ⟨hsome, decide_eq_true ha⟩
  | updateAccount name update => exact upholds_updateAccount given name update
  | _ => exact hspares id

end Latchkey
