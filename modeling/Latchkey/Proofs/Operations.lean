import Latchkey.Proofs.KeyRequests
import Latchkey.Proofs.Store.Frames

/-!
# What operations do

One equation for each operation that writes accounts. All operations but these and those that
write keys only make calls that spare the rows in question.
-/

namespace Latchkey

open Request

/-! ## Saving a row -/

/-- A row that is there is overwritten and the events are recorded. -/
theorem Tables.saveAccount_of_mem {t : Tables} {a b : Account} (h : b ∈ t.accounts)
    (hid : b.id = a.id) (events : List SecurityEvent) (now : Instant) :
    t.saveAccount a events now =
      (.ok a, ({ t with accounts := replaceFirst (·.id = a.id) a t.accounts }).recordSecurityEvents
        a.id events now) := by
  have hany : t.accounts.any (·.id = a.id) = true :=
    List.any_eq_true.2 ⟨b, h, by simpa using hid⟩
  simp only [saveAccount, hany, if_true]

namespace ProfileUpdate

/-! ## What an update leaves of an account -/

variable (u : ProfileUpdate) (a : Account)

theorem apply_id : (u.apply a).account.id = a.id := by
  simp only [apply, editEmailSubscription, editBillingAlert, editFullName]
  split <;> split <;> split <;> rfl

end ProfileUpdate

namespace Session

variable (settings : SessionSettings) (hasher : Hasher) (given : Given)

/-- The account that a sign-up adds. -/
def newAccount (username digest : String) : NewAccount :=
  { username, passwordDigest := digest, roles := [settings.role], createdAt := given.now }

theorem exec_signUp (username password : String) (t : Tables) :
    (signUp settings hasher given username password).exec t =
      match checkUsername username, checkPassword settings.minPassword password with
      | .error e, _ => (.error (.invalid e), t)
      | .ok _, .error e => (.error (.invalid e), t)
      | .ok _, .ok _ =>
        if t.isTaken username then (.error .usernameUnavailable, t)
        else
          match hasher.digest given.salt password with
          | .error e => (.error e, t)
          | .ok digest =>
            let new := newAccount settings given username digest
            (.ok (tokensFor settings given (new.row t.nextId) none), (t.insertAccount new).2) := by
  simp only [signUp, exec_bind, exec_accept]
  cases checkUsername username with
  | error e => rfl
  | ok _ =>
    cases checkPassword settings.minPassword password with
    | error e => rfl
    | ok _ =>
      simp only [mapError_ok, exec_ofCall, Call.apply, Call.look]
      cases htaken : t.isTaken username with
      | true => simp only [if_true, exec_bind, exec_throw]
      | false =>
        simp only [Bool.false_eq_true, if_false, exec_bind, exec_liftExcept]
        cases hasher.digest given.salt password with
        | error e => rfl
        | ok digest =>
          simp [Call.apply, Call.sure, Tables.insertAccount, htaken, newAccount]

theorem exec_forgotPassword (username : String) (t : Tables) :
    (forgotPassword given username).exec t =
      match t.accountNamed? username with
      | none => (.error (.notFound .account username), t)
      | some a =>
        let a := a.withReset given.uuid (given.now.addHours resetHours)
        (.ok a, (t.saveAccount a [] given.now).2) := by
  simp only [forgotPassword, exec_bind, exec_findAccount]
  cases h : t.accountNamed? username with
  | none => rfl
  | some a =>
    have hmem : a ∈ t.accounts := List.mem_of_find?_eq_some h
    have hsave := Tables.saveAccount_of_mem (a := a.withReset given.uuid
      (given.now.addHours resetHours)) hmem rfl [] given.now
    simp [Call.apply, hsave]

theorem exec_resetPassword (password : String) (token : Uuid) (t : Tables) :
    (resetPassword settings hasher given password token).exec t =
      match t.accountResetBy? token with
      | none => (.error .resetTokenNotFound, t)
      | some a =>
        if isResetExpired a given.now then (.error .resetTokenExpired, t)
        else
          match checkPassword settings.minPassword password, hasher.digest given.salt password with
          | .error e, _ => (.error (.invalid e), t)
          | .ok _, .error e => (.error e, t)
          | .ok _, .ok digest =>
            let a := { a.withoutReset with passwordDigest := digest }
            (.ok a, (t.saveAccount a [.passwordReset] given.now).2) := by
  simp only [resetPassword, exec_bind, exec_ofCall, Call.apply, Call.look, mapError_ok,
    exec_orFail]
  cases h : t.accountResetBy? token with
  | none => rfl
  | some a =>
    have hmem : a ∈ t.accounts := List.mem_of_find?_eq_some h
    simp only [Option.elim]
    cases hexp : isResetExpired a given.now with
    | true => simp only [if_true, exec_bind, exec_throw]
    | false =>
      simp only [Bool.false_eq_true, if_false, exec_bind, exec_pure, exec_accept]
      cases checkPassword settings.minPassword password with
      | error e => rfl
      | ok _ =>
        simp only [mapError_ok, exec_liftExcept]
        cases hasher.digest given.salt password with
        | error e => rfl
        | ok digest =>
          have hsave := Tables.saveAccount_of_mem
            (a := { a.withoutReset with passwordDigest := digest }) hmem rfl [.passwordReset]
            given.now
          simp [Call.apply, hsave]

theorem exec_updateAccount (username : String) (update : ProfileUpdate) (t : Tables) :
    (updateAccount given username update).exec t =
      match t.accountNamed? username with
      | none => (.error (.notFound .account username), t)
      | some a =>
        let change := update.apply a
        if change.events.isEmpty then (.ok change.account, t)
        else (.ok change.account, (t.saveAccount change.account change.events given.now).2) := by
  simp only [updateAccount, exec_bind, exec_findAccount]
  cases h : t.accountNamed? username with
  | none => rfl
  | some a =>
    have hmem : a ∈ t.accounts := List.mem_of_find?_eq_some h
    have hid : a.id = (update.apply a).account.id := (ProfileUpdate.apply_id update a).symm
    have hsave := Tables.saveAccount_of_mem hmem hid (update.apply a).events given.now
    simp only [Option.elim]
    cases hevents : (update.apply a).events.isEmpty with
    | true => simp only [if_true, exec_pure]
    | false => simp [Call.apply, hsave]

end Session


/-! ## Operations that leave rows alone -/

namespace Operation

variable {α : Type}

/-- The operation may add or overwrite an account. -/
def WritesAccounts : Operation α → Prop
  | .signUp _ _ => True
  | .forgotPassword _ => True
  | .resetPassword _ _ => True
  | .updateAccount _ _ => True
  | _ => False

/-- The operation may add or edit a key. -/
def WritesKeys : Operation α → Prop
  | .createKey _ _ => True
  | .updateKey _ _ _ => True
  | .deleteKey _ _ => True
  | _ => False

end Operation

/-- The call leaves accounts and keys alone. -/
def Call.IsQuiet {β : Type} (c : Call β) : Prop :=
  c.SparesAccounts ∧ c.SparesKeys

/-- The check of an origin reads and extends the trail of the account. -/
theorem Origin.makes_verify (account : Account) (f : Fingerprint) (now : Instant) :
    (ExceptT.lift (Origin.verify account f now) : Request Origin.Verdict).Makes Call.IsQuiet := by
  have hcheck : (Origin.check account f now).Makes Call.IsQuiet := by
    refine makes_bind (makes_ofCall ⟨trivial, trivial⟩) ?_
    intro trail
    split
    · exact makes_bind (makes_ofCall ⟨trivial, trivial⟩) fun _ => makes_pure _
    · refine makes_bind (makes_ofCall ⟨trivial, trivial⟩) ?_
      intro entry
      exact makes_bind (makes_send _) fun _ => makes_pure _
  have hverify : (Origin.verify account f now).Makes Call.IsQuiet := by
    refine Program.makes_andThen hcheck ?_
    intro verdict
    cases verdict <;> trivial
  exact Program.makes_andThen hverify fun _ => trivial

namespace Session

variable (settings : SessionSettings) (hasher : Hasher) (given : Given)

theorem makes_findAccount {P : {β : Type} → Call β → Prop} {username : String}
    (h : P (.findAccountNamed username)) : (findAccount username).Makes P :=
  makes_bind (makes_ofCall h) fun _ => makes_orFail _ _

theorem makes_signIn (username password : String) (fingerprint : Option Fingerprint) :
    (signIn settings hasher given username password fingerprint).Makes Call.IsQuiet := by
  refine makes_bind (makes_ofCall ⟨trivial, trivial⟩) ?_
  intro found
  cases found with
  | none =>
    refine makes_bind (makes_liftExcept _) ?_
    intro _
    refine makes_bind (makes_liftExcept _) ?_
    intro _
    exact makes_throw _
  | some account =>
    refine makes_bind (makes_liftExcept _) ?_
    intro fitting
    cases fitting with
    | false => exact makes_throw _
    | true =>
      cases fingerprint with
      | none => exact makes_bind (makes_ofCall ⟨trivial, trivial⟩) fun _ => makes_pure _
      | some f =>
        refine makes_bind (Origin.makes_verify account f given.now) ?_
        intro _
        exact makes_bind (makes_ofCall ⟨trivial, trivial⟩) fun _ => makes_pure _

theorem makes_refresh (token : Uuid) :
    (refresh settings given token).Makes Call.IsQuiet := by
  refine makes_bind (makes_ofCall ⟨trivial, trivial⟩) fun _ => makes_bind (makes_orFail _ _)
    fun _ => ?_
  refine makes_bind (makes_ofCall ⟨trivial, trivial⟩) fun _ => makes_bind (makes_orFail _ _)
    fun _ => ?_
  exact makes_pure _

theorem makes_authenticateBearer (token : String) :
    (authenticateBearer settings given token).Makes Call.IsQuiet := by
  unfold authenticateBearer
  split
  · exact makes_pure _
  · exact makes_throw _

theorem makes_activeDevices (username : String) :
    (activeDevices given username).Makes Call.IsQuiet := by
  refine makes_bind (makes_findAccount ⟨trivial, trivial⟩) ?_
  intro _
  exact makes_bind (makes_ofCall ⟨trivial, trivial⟩) fun _ => makes_pure _

theorem makes_revokeDevice (username : String) (token : Uuid) :
    (revokeDevice username token).Makes Call.IsQuiet := by
  refine makes_bind (makes_findAccount ⟨trivial, trivial⟩) ?_
  intro _
  refine makes_bind (makes_ofCall ⟨trivial, trivial⟩) ?_
  intro removed
  cases removed with
  | true => exact makes_pure _
  | false => exact makes_throw _

end Session

namespace Keyring

theorem makes_authenticate (hasher : Hasher) (raw : String) :
    (authenticate hasher raw).Makes Call.IsQuiet := by
  unfold authenticate
  split
  · exact makes_pure _
  · exact makes_bind (makes_ofCall ⟨trivial, trivial⟩) fun _ => makes_pure _

theorem makes_owned (account : Account) (id : RowId) : (owned account id).Makes Call.IsQuiet :=
  makes_bind (makes_ofCall ⟨trivial, trivial⟩) fun _ => makes_orFail _ _

end Keyring

namespace Service

variable (s : Service) (given : Given) {α : Type} {op : Operation α}

/-- An operation that writes neither accounts nor keys only makes calls that leave both alone. -/
theorem makes_quiet (haccounts : ¬op.WritesAccounts) (hkeys : ¬op.WritesKeys) :
    (s.request given op).Makes Call.IsQuiet := by
  have hfind (username : String) : (Session.findAccount username).Makes Call.IsQuiet :=
    Session.makes_findAccount ⟨trivial, trivial⟩
  cases op with
  | signUp username password => exact (haccounts trivial).elim
  | forgotPassword username => exact (haccounts trivial).elim
  | resetPassword password token => exact (haccounts trivial).elim
  | updateAccount username update => exact (haccounts trivial).elim
  | createKey username request => exact (hkeys trivial).elim
  | updateKey username id update => exact (hkeys trivial).elim
  | deleteKey username id => exact (hkeys trivial).elim
  | signIn username password fingerprint => exact Session.makes_signIn ..
  | refresh token => exact Session.makes_refresh ..
  | authenticateBearer token => exact Session.makes_authenticateBearer ..
  | activeDevices username => exact Session.makes_activeDevices ..
  | revokeDevice username token => exact Session.makes_revokeDevice ..
  | revokeAllDevices username =>
    exact makes_bind (hfind username) fun _ => makes_ofCall ⟨trivial, trivial⟩
  | findAccount username => exact hfind username
  | securityPage username page =>
    exact makes_bind (hfind username) fun _ => makes_ofCall ⟨trivial, trivial⟩
  | chargePage username page =>
    exact makes_bind (hfind username) fun _ => makes_ofCall ⟨trivial, trivial⟩
  | authenticateKey raw => exact Keyring.makes_authenticate ..
  | countKeys username =>
    exact makes_bind (hfind username) fun _ => makes_ofCall ⟨trivial, trivial⟩
  | listKeys username =>
    exact makes_bind (hfind username) fun _ => makes_ofCall ⟨trivial, trivial⟩
  | findKey username id => exact makes_bind (hfind username) fun _ => Keyring.makes_owned ..
  | keyPage username id page =>
    refine makes_bind (hfind username) ?_
    intro _
    refine makes_bind (Keyring.makes_owned ..) ?_
    intro _
    exact makes_ofCall ⟨trivial, trivial⟩

/-- An operation that does not write keys only makes calls that leave them alone. -/
theorem makes_sparesKeys (hkeys : ¬op.WritesKeys) :
    (s.request given op).Makes Call.SparesKeys := by
  have hquiet (haccounts : ¬op.WritesAccounts) : (s.request given op).Makes Call.SparesKeys :=
    (s.makes_quiet given haccounts hkeys).mono fun h => h.2
  cases op with
  | signUp username password =>
    refine makes_bind (makes_accept _) ?_
    intro _
    refine makes_bind (makes_accept _) ?_
    intro _
    refine makes_bind (makes_ofCall trivial) ?_
    intro taken
    cases taken with
    | true => exact makes_throw _
    | false =>
      refine makes_bind (makes_liftExcept _) ?_
      intro _
      refine makes_bind (makes_ofCall trivial) ?_
      intro _
      exact makes_bind (makes_orFail _ _) fun _ => makes_bind (makes_send _) fun _ => makes_pure _
  | forgotPassword username =>
    refine makes_bind (Session.makes_findAccount trivial) ?_
    intro _
    exact makes_bind (makes_ofCall trivial) fun _ => makes_bind (makes_send _) fun _ =>
      makes_pure _
  | resetPassword password token =>
    refine makes_bind (makes_ofCall trivial) ?_
    intro _
    refine makes_bind (makes_orFail _ _) ?_
    intro _
    split
    · exact makes_throw _
    · refine makes_bind (makes_accept _) ?_
      intro _
      refine makes_bind (makes_liftExcept _) ?_
      intro _
      refine makes_bind (makes_ofCall trivial) ?_
      intro _
      exact makes_bind (makes_send _) fun _ => makes_pure _
  | updateAccount username update =>
    refine makes_bind (Session.makes_findAccount trivial) ?_
    intro _
    dsimp only
    split
    · exact makes_pure _
    · exact makes_ofCall trivial
  | _ => exact hquiet fun h => h

/-- An operation that does not write accounts leaves them as they are. -/
theorem accounts_exec (haccounts : ¬op.WritesAccounts) (t : Tables) :
    ((s.request given op).exec t).2.accounts = t.accounts := by
  have hquiet (hkeys : ¬op.WritesKeys) :
      ((s.request given op).exec t).2.accounts = t.accounts :=
    exec_of_makes (I := fun t' => t'.accounts = t.accounts)
      (fun c t' hc h => (Call.accounts_of_sparesAccounts hc.1 t').trans h)
      (s.makes_quiet given haccounts hkeys) rfl
  cases op with
  | createKey username request =>
    rcases Keyring.exec_create s.keyLimit s.keys given username t request with
      ⟨e, h⟩ | ⟨a, digest, -, -, -, -, h⟩
    · exact congrArg (·.2.accounts) h
    · refine (congrArg (·.2.accounts) h).trans ?_
      exact Call.accounts_of_sparesAccounts (c := .insertKey
        (Keyring.newKey given a.id request digest) s.keyLimit) trivial t
  | updateKey username id u =>
    rcases Keyring.exec_update given username id t u with ⟨e, h⟩ | ⟨a, key, -, -, -, h⟩
    · exact congrArg (·.2.accounts) h
    · refine (congrArg (·.2.accounts) h).trans ?_
      exact Call.accounts_of_sparesAccounts (c := .modifyKey a.id id
        (Keyring.editBy u given.now) none given.now) trivial t
  | deleteKey username id =>
    rcases Keyring.exec_delete given username id t with ⟨e, h⟩ | ⟨a, key, -, -, h⟩
    · exact congrArg (·.2.accounts) h
    · refine (congrArg (·.2.accounts) h).trans ?_
      exact Call.accounts_of_sparesAccounts (c := .modifyKey a.id id
        (Keyring.tombstone given.now) (some (.keyDeleted id)) given.now) trivial t
  | _ => exact hquiet fun h => h

/-- An operation that does not write keys leaves them and their trail as they are. -/
theorem keys_exec (hkeys : ¬op.WritesKeys) (t : Tables) :
    ((s.request given op).exec t).2.keys = t.keys ∧
      ((s.request given op).exec t).2.keyTrail = t.keyTrail :=
  exec_of_makes (I := fun t' => t'.keys = t.keys ∧ t'.keyTrail = t.keyTrail)
    (fun _ t' hc h => ⟨(Call.keys_of_sparesKeys hc t').1.trans h.1,
      (Call.keys_of_sparesKeys hc t').2.trans h.2⟩)
    (s.makes_sparesKeys given hkeys) ⟨rfl, rfl⟩

/-- The count of row numbers never falls. -/
theorem lastId_exec (op : Operation α) (t : Tables) :
    t.lastId ≤ ((s.request given op).exec t).2.lastId :=
  exec_of_makes (I := fun t' => t.lastId ≤ t'.lastId)
    (fun c t' _ h => Int.le_trans h (Call.lastId_le c t'))
    (Request.makes_any (s.request given op)) (Int.le_refl _)

end Service

end Latchkey
