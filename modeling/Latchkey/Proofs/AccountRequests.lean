import Latchkey.Proofs.History
import Latchkey.Proofs.Store.Accounts

/-!
# Requests that write accounts

Signing up, starting and completing a reset and updating a profile each write one account at most.
Made in one piece, such a request puts its draft among the accounts, or has no draft and fails.
-/

namespace Latchkey

/-- What is asked of accounts. -/
inductive AccountAsk where
  | signUp (username password : String)
  | forgotPassword (username : String)
  | resetPassword (password : String) (token : Uuid)
  | updateAccount (username : String) (update : ProfileUpdate)

/-- A request that may write an account, with what it is given from outside. -/
structure AccountRequest where
  given : Given
  ask : AccountAsk

/-- The operation that the request asks for. -/
def AccountRequest.asked (r : AccountRequest) : Asked :=
  match r.ask with
  | .signUp username password => ⟨r.given, .signUp username password⟩
  | .forgotPassword username => ⟨r.given, .forgotPassword username⟩
  | .resetPassword password token => ⟨r.given, .resetPassword password token⟩
  | .updateAccount username update => ⟨r.given, .updateAccount username update⟩

namespace Service

variable (s : Service) (given : Given)

/-! ## Drafts -/

/-- A new account, its number still open. First its name and its password must do, then the name
must be free, and last there must be a digest. -/
def draftSignUp (username password : String) (contents : List Account) :
    Except Failure Account :=
  match checkUsername username, checkPassword s.session.minPassword password with
  | .error e, _ => .error (.invalid e)
  | .ok _, .error e => .error (.invalid e)
  | .ok _, .ok _ =>
    if contents.any (·.username = username) then .error .usernameUnavailable
    else
      match s.passwords.digest given.salt password with
      | .error e => .error e
      | .ok digest => .ok ((Session.newAccount s.session given username digest).row 0)

/-- The account of a name, with a fresh token to reset its password by in place of any before. -/
def draftForgotPassword (username : String) (contents : List Account) : Except Failure Account :=
  match contents.find? (·.username = username) with
  | none => .error (.notFound .account username)
  | some a => .ok (a.withReset given.uuid (given.now.addHours Session.resetHours))

/-- The account that waits for this token, with another password and without the token. An expired
token is refused before the password is looked at. -/
def draftResetPassword (password : String) (token : Uuid) (contents : List Account) :
    Except Failure Account :=
  match contents.find? (·.resetToken = some token) with
  | none => .error .resetTokenNotFound
  | some a =>
    if Session.isResetExpired a given.now then .error .resetTokenExpired
    else
      match checkPassword s.session.minPassword password,
        s.passwords.digest given.salt password with
      | .error e, _ => .error (.invalid e)
      | .ok _, .error e => .error e
      | .ok _, .ok digest => .ok { a.withoutReset with passwordDigest := digest }

/-- The account of a name, with what the update sets. Only an unknown name is refused. -/
def draftUpdateAccount (username : String) (update : ProfileUpdate) (contents : List Account) :
    Except Failure Account :=
  match contents.find? (·.username = username) with
  | none => .error (.notFound .account username)
  | some a => .ok (update.apply a).account

/-- What a request makes of one of the accounts, its number aside, or why it makes nothing. -/
def draft (r : AccountRequest) (contents : List Account) : Except Failure Account :=
  match r.ask with
  | .signUp username password => s.draftSignUp r.given username password contents
  | .forgotPassword username => draftForgotPassword r.given username contents
  | .resetPassword password token => s.draftResetPassword r.given password token contents
  | .updateAccount username update => draftUpdateAccount username update contents

end Service

namespace ProfileUpdate

variable (u : ProfileUpdate) (a : Account)

theorem apply_username : (u.apply a).account.username = a.username := by
  simp only [apply, editEmailSubscription, editBillingAlert, editFullName]
  split <;> split <;> split <;> rfl

theorem editFullName_content : u.editFullName a.content =
    ⟨(u.editFullName a).account.content, (u.editFullName a).events⟩ := by
  simp only [editFullName, Account.content]
  cases u.fullName.change? a.fullName <;> rfl

theorem editBillingAlert_content : u.editBillingAlert a.content =
    ⟨(u.editBillingAlert a).account.content, (u.editBillingAlert a).events⟩ := by
  simp only [editBillingAlert, Account.content]
  cases u.billingAlert.change? a.billingAlert <;> rfl

theorem editEmailSubscription_content : u.editEmailSubscription a.content =
    ⟨(u.editEmailSubscription a).account.content, (u.editEmailSubscription a).events⟩ := by
  simp only [editEmailSubscription, Account.content]
  cases u.emailSubscription.change? a.emailSubscription <;> rfl

theorem apply_content : (u.apply a.content).account = (u.apply a).account.content := by
  simp only [apply, editFullName_content, editBillingAlert_content, editEmailSubscription_content]

variable {u a}

theorem editFullName_of_events_eq_nil (h : (u.editFullName a).events = []) :
    (u.editFullName a).account = a := by
  unfold editFullName at h ⊢
  cases hchange : u.fullName.change? a.fullName with
  | none => rfl
  | some fullName =>
    rw [hchange] at h
    cases h

theorem editBillingAlert_of_events_eq_nil (h : (u.editBillingAlert a).events = []) :
    (u.editBillingAlert a).account = a := by
  unfold editBillingAlert at h ⊢
  cases hchange : u.billingAlert.change? a.billingAlert with
  | none => rfl
  | some billingAlert =>
    rw [hchange] at h
    cases h

theorem editEmailSubscription_of_events_eq_nil (h : (u.editEmailSubscription a).events = []) :
    (u.editEmailSubscription a).account = a := by
  unfold editEmailSubscription at h ⊢
  cases hchange : u.emailSubscription.change? a.emailSubscription with
  | none => rfl
  | some emailSubscription =>
    rw [hchange] at h
    cases h

/-- Where nothing happened, nothing changed. -/
theorem apply_of_events_eq_nil (h : (u.apply a).events = []) : (u.apply a).account = a := by
  simp only [apply, List.append_eq_nil_iff] at h
  obtain ⟨⟨hnamed, halerted⟩, hsubscribed⟩ := h
  simp only [apply]
  rw [editEmailSubscription_of_events_eq_nil hsubscribed,
    editBillingAlert_of_events_eq_nil halerted, editFullName_of_events_eq_nil hnamed]

end ProfileUpdate

/-- The event tells of an edit of the profile. -/
def SecurityEvent.IsEdit : SecurityEvent → Prop
  | .fullName | .billingAlert _ | .emailSubscription _ => True
  | _ => False

/-- What an update puts on record are edits of the profile. -/
theorem ProfileUpdate.isEdit_of_mem_apply {u : ProfileUpdate} {a : Account} {event : SecurityEvent}
    (h : event ∈ (u.apply a).events) : event.IsEdit := by
  simp only [apply, editFullName, editBillingAlert, editEmailSubscription, List.mem_append] at h
  rcases h with (h | h) | h
  all_goals
    split at h
    · cases h
    · rw [List.mem_singleton.1 h]
      trivial

/-! ## Whose draft it is -/

namespace Service

variable {s : Service} {given : Given} {contents : List Account} {a : Account}

theorem username_draftForgotPassword {username : String}
    (h : draftForgotPassword given username contents = .ok a) : a.username = username := by
  unfold draftForgotPassword at h
  cases hfound : contents.find? (·.username = username) with
  | none =>
    rw [hfound] at h
    cases h
  | some b =>
    rw [hfound] at h
    cases h
    have hname : b.username = username := by simpa using List.find?_some hfound
    exact hname

theorem username_draftUpdateAccount {username : String} {update : ProfileUpdate}
    (h : draftUpdateAccount username update contents = .ok a) : a.username = username := by
  unfold draftUpdateAccount at h
  cases hfound : contents.find? (·.username = username) with
  | none =>
    rw [hfound] at h
    cases h
  | some b =>
    rw [hfound] at h
    cases h
    rw [update.apply_username b]
    simpa using List.find?_some hfound

/-- A completed reset changes the account: it was waiting for the reset and is not any more. -/
theorem not_mem_of_draftResetPassword {password : String} {token : Uuid}
    (hnodup : (contents.map (·.username)).Nodup)
    (h : s.draftResetPassword given password token contents = .ok a) : a ∉ contents := by
  unfold draftResetPassword at h
  cases hfound : contents.find? (·.resetToken = some token) with
  | none =>
    rw [hfound] at h
    cases h
  | some b =>
    rw [hfound] at h
    have hb : b ∈ contents := List.mem_of_find?_eq_some hfound
    have htoken : b.resetToken = some token := by simpa using List.find?_some hfound
    intro hmem
    have hdraft : a.username = b.username ∧ a.resetToken = none := by
      dsimp only at h
      split at h
      · cases h
      · split at h
        · cases h
        · cases h
        · cases h
          exact ⟨rfl, rfl⟩
    rw [← List.inj_on_of_nodup_map hnodup hmem hb hdraft.1, hdraft.2] at htoken
    cases htoken

end Service

/-! ## Requests made in one piece -/

/-- An account has been put among the others, in its place if it has one. -/
structure Tables.Puts (t t' : Tables) (a : Account) : Prop where
  contents : t'.contents = put t.contents a.content
  inOrder : t'.AccountsInOrder

namespace Tables

variable {t : Tables}

theorem puts_insertAccount (h : t.AccountsInOrder) {a : NewAccount}
    (hfree : t.isTaken a.username = false) (id : RowId) :
    t.Puts (t.insertAccount a).2 (a.row id) :=
  ⟨contents_insertAccount hfree, h.insertAccount a⟩

theorem puts_saveAccount (h : t.AccountsInOrder) {a : Account} (hrow : t.HasRowOf a)
    (events : List SecurityEvent) (now : Instant) :
    t.Puts (t.saveAccount a events now).2 a :=
  ⟨contents_saveAccount h hrow events now, h.saveAccount hrow events now⟩

theorem puts_self (h : t.AccountsInOrder) {a : Account} (ha : a ∈ t.accounts) : t.Puts t a where
  contents := by
    refine (put_of_mem (List.mem_map.2 ⟨a, ha, rfl⟩) ?_).symm
    rw [← contents, usernames_contents]
    exact h.usernames
  inOrder := h

theorem find?_contents_named (t : Tables) (username : String) :
    t.contents.find? (·.username = username) = (t.accountNamed? username).map Account.content :=
  t.find?_contents fun _ => rfl

theorem find?_contents_resetBy (t : Tables) (token : Uuid) :
    t.contents.find? (·.resetToken = some token) =
      (t.accountResetBy? token).map Account.content :=
  t.find?_contents fun _ => rfl

end Tables

/-- What becomes of a request that follows its draft: it fails for want of one and does nothing, or
it puts the draft. -/
inductive Tables.Follows (t : Tables) {α : Type} (draft : Except Failure Account) :
    Except Failure α × Tables → Prop
  | refused (e : Failure) (hdraft : draft = .error e) : t.Follows draft (.error e, t)
  | put (a : Account) (answer : α) (t' : Tables) (hdraft : draft = .ok a.content)
      (hputs : t.Puts t' a) : t.Follows draft (.ok answer, t')

theorem Tables.Follows.inOrder {t : Tables} {α : Type} {draft : Except Failure Account}
    {result : Except Failure α × Tables} (hresult : t.Follows draft result)
    (h : t.AccountsInOrder) : result.2.AccountsInOrder := by
  cases hresult with
  | refused e hdraft => exact h
  | put a answer t' hdraft hputs => exact hputs.inOrder

namespace Service

variable (s : Service) {t : Tables}

theorem follows_signUp (h : t.AccountsInOrder) (given : Given) (username password : String) :
    t.Follows (s.draftSignUp given username password t.contents)
      ((Session.signUp s.session s.passwords given username password).exec t) := by
  rw [Session.exec_signUp, draftSignUp, ← t.isTaken_eq]
  cases checkUsername username with
  | error e => exact .refused _ rfl
  | ok _ =>
    cases checkPassword s.session.minPassword password with
    | error e => exact .refused _ rfl
    | ok _ =>
      cases htaken : t.isTaken username with
      | true => exact .refused _ rfl
      | false =>
        cases s.passwords.digest given.salt password with
        | error e => exact .refused _ rfl
        | ok digest => exact .put _ _ _ rfl (Tables.puts_insertAccount h htaken 0)

theorem follows_forgotPassword (h : t.AccountsInOrder) (given : Given) (username : String) :
    t.Follows (draftForgotPassword given username t.contents)
      ((Session.forgotPassword given username).exec t) := by
  rw [Session.exec_forgotPassword, draftForgotPassword, t.find?_contents_named]
  cases hfound : t.accountNamed? username with
  | none => exact .refused _ rfl
  | some a =>
    have hrow : t.HasRowOf (a.withReset given.uuid (given.now.addHours Session.resetHours)) :=
      ⟨a, List.mem_of_find?_eq_some hfound, rfl, rfl⟩
    exact .put _ _ _ rfl (Tables.puts_saveAccount h hrow [] given.now)

theorem follows_resetPassword (h : t.AccountsInOrder) (given : Given) (password : String)
    (token : Uuid) :
    t.Follows (s.draftResetPassword given password token t.contents)
      ((Session.resetPassword s.session s.passwords given password token).exec t) := by
  rw [Session.exec_resetPassword, draftResetPassword, t.find?_contents_resetBy]
  cases hfound : t.accountResetBy? token with
  | none => exact .refused _ rfl
  | some a =>
    have hexpiry : Session.isResetExpired a.content given.now =
      Session.isResetExpired a given.now := rfl
    simp only [Option.map_some, hexpiry]
    cases Session.isResetExpired a given.now with
    | true => exact .refused _ rfl
    | false =>
      cases checkPassword s.session.minPassword password with
      | error e => exact .refused _ rfl
      | ok _ =>
        cases s.passwords.digest given.salt password with
        | error e => exact .refused _ rfl
        | ok digest =>
          have hrow : t.HasRowOf { a.withoutReset with passwordDigest := digest } :=
            ⟨a, List.mem_of_find?_eq_some hfound, rfl, rfl⟩
          exact .put _ _ _ rfl (Tables.puts_saveAccount h hrow [.passwordReset] given.now)

theorem follows_updateAccount (h : t.AccountsInOrder) (given : Given) (username : String)
    (update : ProfileUpdate) :
    t.Follows (draftUpdateAccount username update t.contents)
      ((Session.updateAccount given username update).exec t) := by
  rw [Session.exec_updateAccount, draftUpdateAccount, t.find?_contents_named]
  cases hfound : t.accountNamed? username with
  | none => exact .refused _ rfl
  | some a =>
    have hmem : a ∈ t.accounts := List.mem_of_find?_eq_some hfound
    have hdraft : (update.apply a.content).account = (update.apply a).account.content :=
      update.apply_content a
    dsimp only [Option.map_some]
    cases hevents : (update.apply a).events.isEmpty with
    | true =>
      have hsame : (update.apply a).account = a :=
        ProfileUpdate.apply_of_events_eq_nil (List.isEmpty_iff.1 hevents)
      rw [hsame] at hdraft
      exact .put a _ _ (congrArg Except.ok hdraft) (Tables.puts_self h hmem)
    | false =>
      have hrow : t.HasRowOf (update.apply a).account :=
        ⟨a, hmem, (update.apply_id a).symm, (update.apply_username a).symm⟩
      exact .put _ _ _ (congrArg Except.ok hdraft) (Tables.puts_saveAccount h hrow _ given.now)

/-- A request in one piece follows its draft. -/
theorem follows_perform (h : t.AccountsInOrder) (r : AccountRequest) :
    t.Follows (s.draft r t.contents) (s.perform r.asked t) := by
  obtain ⟨given, ask⟩ := r
  cases ask with
  | signUp username password => exact s.follows_signUp h given username password
  | forgotPassword username => exact follows_forgotPassword h given username
  | resetPassword password token => exact s.follows_resetPassword h given password token
  | updateAccount username update => exact follows_updateAccount h given username update

/-- Accounts stay in order whatever is asked. -/
theorem accountsInOrder_perform (h : t.AccountsInOrder) (x : Asked) :
    (s.perform x t).2.AccountsInOrder := by
  have haccount (r : AccountRequest) : (s.perform r.asked t).2.AccountsInOrder :=
    (s.follows_perform h r).inOrder h
  obtain ⟨given, op⟩ := x
  have hother (hop : ¬op.WritesAccounts) : (s.perform ⟨given, op⟩ t).2.AccountsInOrder :=
    h.of_accounts_eq (s.accounts_exec given hop t) (s.lastId_exec given op t)
  cases op with
  | signUp username password => exact haccount ⟨given, .signUp username password⟩
  | forgotPassword username => exact haccount ⟨given, .forgotPassword username⟩
  | resetPassword password token => exact haccount ⟨given, .resetPassword password token⟩
  | updateAccount username update => exact haccount ⟨given, .updateAccount username update⟩
  | _ => exact hother fun h => h

end Service

end Latchkey
