import Latchkey.Proofs.Execution

/-!
# Requests on keys

One equation for each operation on keys by the name of an account: the account is looked up, and
what follows is one call about it. What is wanted of a key is checked before anything is looked
up. Those that write have one way to succeed, and do nothing where they fail.
-/

namespace Latchkey

open Request

theorem Tables.accountNamed?_some {t : Tables} {username : String} {a : Account}
    (h : t.accountNamed? username = some a) : a ∈ t.accounts ∧ a.username = username :=
  ⟨List.mem_of_find?_eq_some h, by simpa using List.find?_some h⟩

theorem Tables.accountResetBy?_some {t : Tables} {token : Uuid} {a : Account}
    (h : t.accountResetBy? token = some a) : a ∈ t.accounts ∧ a.resetToken = some token :=
  ⟨List.mem_of_find?_eq_some h, by simpa using List.find?_some h⟩

/-- An edit answers with what it made of the key, if the key is there. -/
theorem Tables.modifyKey_fst (t : Tables) (account id : RowId) (edit : ApiKey → KeyChange)
    (security : Option SecurityEvent) (now : Instant) :
    (t.modifyKey account id edit security now).1 = (t.key? account id).map edit := by
  unfold modifyKey
  cases t.key? account id with
  | none => rfl
  | some key =>
    dsimp only
    split <;> rfl

namespace Session

theorem exec_findAccount (username : String) (t : Tables) :
    (findAccount username).exec t =
      ((t.accountNamed? username).elim (.error (.notFound .account username)) .ok, t) := by
  simp only [findAccount, exec_bind, exec_ofCall, Call.apply, Call.look, mapError_ok,
    exec_orFail]

/-- A request about an account fails if there is none of its name, and else goes on with it. -/
theorem exec_findAccount_bind {α : Type} (username : String) (f : Account → Request α)
    (t : Tables) :
    (findAccount username >>= f).exec t =
      match t.accountNamed? username with
      | none => (.error (.notFound .account username), t)
      | some a => (f a).exec t := by
  rw [exec_bind, exec_findAccount]
  cases t.accountNamed? username <;> rfl

end Session

namespace Keyring

variable (limit : Int) (hasher : Hasher) (given : Given)

/-- The row that a request for a key asks for. -/
def newKey (account : RowId) (request : KeyRequest) (digest : String) : NewApiKey :=
  { account, name := request.name, lead := given.rawKey.leadText, digest
    enabled := request.enabled.getD false, scope := request.scope.getD {}
    policies := request.policies.getD [], createdAt := given.now }

/-- A presented text is the first key of its lead whose digest fits, and nothing is written. -/
theorem exec_authenticate (raw : String) (t : Tables) :
    (authenticate hasher raw).exec t =
      (.ok ((RawKey.lead? raw).bind fun lead => (t.keysLedBy lead).find? (fits hasher raw)),
        t) := by
  unfold authenticate
  cases RawKey.lead? raw with
  | none => rfl
  | some lead => rfl

variable (username : String) (id : RowId) (t : Tables)

/-- A key that may be wanted is added unless its account has as many as the limit allows. -/
theorem exec_create_eq (request : KeyRequest) :
    (create limit hasher given username request).exec t =
      match checkKeyName request.name, checkPolicies (request.policies.getD []) with
      | .error e, _ => (.error (.invalid e), t)
      | .ok _, .error e => (.error (.invalid e), t)
      | .ok _, .ok _ =>
        match t.accountNamed? username with
        | none => (.error (.notFound .account username), t)
        | some a =>
          match hasher.digest given.salt given.rawKey.text with
          | .error e => (.error e, t)
          | .ok digest =>
            if limit ≤ (t.keysOf a.id).length then (.error (.quotaExceeded limit), t)
            else
              (.ok ⟨(newKey given a.id request digest).row t.nextId, given.rawKey.text⟩,
                (t.insertKey (newKey given a.id request digest) limit).2) := by
  simp only [create, exec_bind, exec_accept]
  cases checkKeyName request.name with
  | error e => rfl
  | ok _ =>
    cases checkPolicies (request.policies.getD []) with
    | error e => rfl
    | ok _ =>
      simp only [mapError_ok, Session.exec_findAccount]
      cases t.accountNamed? username with
      | none => rfl
      | some a =>
        simp only [Option.elim, exec_liftExcept]
        cases hasher.digest given.salt given.rawKey.text with
        | error e => rfl
        | ok digest =>
          by_cases hquota : limit ≤ (t.keysOf a.id).length
          · simp [Call.apply, Call.sure, Tables.insertKey, hquota]
          · simp [Call.apply, Call.sure, Tables.insertKey, hquota, newKey]

/-- An update that may be made edits the key if the account has it. -/
theorem exec_update_eq (u : KeyUpdate) :
    (update given username id u).exec t =
      match u.check with
      | .error e => (.error (.invalid e), t)
      | .ok _ =>
        match t.accountNamed? username with
        | none => (.error (.notFound .account username), t)
        | some a =>
          match t.key? a.id id with
          | none => (.error (.keyNotFound id), t)
          | some key =>
            (.ok (editBy u given.now key).key,
              (t.modifyKey a.id id (editBy u given.now) none given.now).2) := by
  simp only [update, exec_bind, exec_accept]
  cases u.check with
  | error e => rfl
  | ok _ =>
    simp only [mapError_ok, Session.exec_findAccount]
    cases t.accountNamed? username with
    | none => rfl
    | some a =>
      simp only [Option.elim, exec_ofCall, Call.apply, Call.sure, mapError_ok, exec_orFail,
        Tables.modifyKey_fst]
      cases hkey : t.key? a.id id with
      | none => simp [Tables.modifyKey, hkey]
      | some key => rfl

/-- A deletion marks the key if the account has it. -/
theorem exec_delete_eq :
    (delete given username id).exec t =
      match t.accountNamed? username with
      | none => (.error (.notFound .account username), t)
      | some a =>
        match t.key? a.id id with
        | none => (.error (.keyNotFound id), t)
        | some _ =>
          (.ok (), (t.modifyKey a.id id (tombstone given.now) (some (.keyDeleted id))
            given.now).2) := by
  rw [delete, Session.exec_findAccount_bind]
  cases t.accountNamed? username with
  | none => rfl
  | some a =>
    simp only [exec_bind, exec_ofCall, Call.apply, Call.sure, mapError_ok, exec_orFail,
      Tables.modifyKey_fst]
    cases hkey : t.key? a.id id with
    | none => simp [Tables.modifyKey, hkey]
    | some key => rfl

theorem exec_count :
    (count username).exec t =
      match t.accountNamed? username with
      | none => (.error (.notFound .account username), t)
      | some a => (.ok (t.keysOf a.id).length, t) :=
  Session.exec_findAccount_bind ..

theorem exec_list :
    (list username).exec t =
      match t.accountNamed? username with
      | none => (.error (.notFound .account username), t)
      | some a => (.ok (t.keysOf a.id), t) :=
  Session.exec_findAccount_bind ..

theorem exec_owned (a : Account) :
    (owned a id).exec t = ((t.key? a.id id).elim (.error (.keyNotFound id)) .ok, t) := by
  simp only [owned, exec_bind, exec_ofCall, Call.apply, Call.look, mapError_ok, exec_orFail]

theorem exec_find :
    (find username id).exec t =
      match t.accountNamed? username with
      | none => (.error (.notFound .account username), t)
      | some a => ((t.key? a.id id).elim (.error (.keyNotFound id)) .ok, t) := by
  rw [find, Session.exec_findAccount_bind]
  cases t.accountNamed? username with
  | none => rfl
  | some a => exact exec_owned id t a

theorem exec_page (window : Page) :
    (page username id window).exec t =
      match t.accountNamed? username with
      | none => (.error (.notFound .account username), t)
      | some a =>
        match t.key? a.id id with
        | none => (.error (.keyNotFound id), t)
        | some key => (.ok (window.newestFirst (t.keyTrailOf key.id)), t) := by
  rw [page, Session.exec_findAccount_bind]
  cases t.accountNamed? username with
  | none => rfl
  | some a =>
    simp only [exec_bind, exec_owned]
    cases t.key? a.id id <;> rfl

/-! ## Requests that succeed -/

/-- A key is refused and nothing happens, or it may be stored and its row is added. -/
theorem exec_create (request : KeyRequest) :
    (∃ e, (create limit hasher given username request).exec t = (.error e, t)) ∨
    ∃ a digest, t.accountNamed? username = some a ∧
      checkPolicies (request.policies.getD []) = .ok () ∧
      hasher.digest given.salt given.rawKey.text = .ok digest ∧
      (t.keysOf a.id).length < limit ∧
      (create limit hasher given username request).exec t =
        (.ok ⟨(newKey given a.id request digest).row t.nextId, given.rawKey.text⟩,
          (t.insertKey (newKey given a.id request digest) limit).2) := by
  rw [exec_create_eq]
  cases checkKeyName request.name with
  | error e => exact .inl ⟨_, rfl⟩
  | ok _ =>
    cases hpolicies : checkPolicies (request.policies.getD []) with
    | error e => exact .inl ⟨_, rfl⟩
    | ok _ =>
      cases t.accountNamed? username with
      | none => exact .inl ⟨_, rfl⟩
      | some a =>
        cases hasher.digest given.salt given.rawKey.text with
        | error e => exact .inl ⟨_, rfl⟩
        | ok digest =>
          by_cases hquota : limit ≤ (t.keysOf a.id).length
          · exact .inl ⟨_, if_pos hquota⟩
          · exact .inr ⟨a, digest, rfl, rfl, rfl, Int.not_le.1 hquota, if_neg hquota⟩

/-- An update is refused and nothing happens, or it may be made and edits a key of the account. -/
theorem exec_update (u : KeyUpdate) :
    (∃ e, (update given username id u).exec t = (.error e, t)) ∨
    ∃ a key, u.check = .ok () ∧ t.accountNamed? username = some a ∧ t.key? a.id id = some key ∧
      (update given username id u).exec t = (.ok (editBy u given.now key).key,
        (t.modifyKey a.id id (editBy u given.now) none given.now).2) := by
  rw [exec_update_eq]
  cases u.check with
  | error e => exact .inl ⟨_, rfl⟩
  | ok _ =>
    cases t.accountNamed? username with
    | none => exact .inl ⟨_, rfl⟩
    | some a =>
      cases hkey : t.key? a.id id with
      | none => exact .inl ⟨.keyNotFound id, by simp only [hkey]⟩
      | some key => exact .inr ⟨a, key, rfl, rfl, hkey, by simp only [hkey]⟩

/-- A deletion is refused and nothing happens, or a key of the account is marked. -/
theorem exec_delete :
    (∃ e, (delete given username id).exec t = (.error e, t)) ∨
    ∃ a key, t.accountNamed? username = some a ∧ t.key? a.id id = some key ∧
      (delete given username id).exec t = (.ok (),
        (t.modifyKey a.id id (tombstone given.now) (some (.keyDeleted id)) given.now).2) := by
  rw [exec_delete_eq]
  cases t.accountNamed? username with
  | none => exact .inl ⟨_, rfl⟩
  | some a =>
    cases hkey : t.key? a.id id with
    | none => exact .inl ⟨.keyNotFound id, by simp only [hkey]⟩
    | some key => exact .inr ⟨a, key, rfl, hkey, by simp only [hkey]⟩

end Keyring

end Latchkey
