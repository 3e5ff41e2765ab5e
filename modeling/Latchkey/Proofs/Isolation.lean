import Latchkey.Proofs.Reach
import Latchkey.Proofs.Store.Holdings

/-!
# Isolation of accounts

An operation that is asked for by the name of an account sees what this account holds and nothing
else: on all tables it comes to what it comes to on the cut that the account holds, and what other
accounts hold stays as it is. A key or a device that the account does not have is refused with one
and the same answer, whether it is missing, deleted or another account's.
-/

namespace Latchkey

open Request

/-! ## From calls to requests -/

namespace Program.Guarantees

variable {α : Type} {s : Service} {username : String} {Q : α → Tables → Prop} {p : Program α}
  {t : Tables}

/-- Calls that concern one account do on its cut what they do on all tables. -/
theorem run_only (h : p.Guarantees (s.Confines username) Q t) (ht : t.InOrder) :
    (p.run Backend.memory (t.only username)).value = (p.run Backend.memory t).value ∧
      (p.run Backend.memory (t.only username)).state =
        (p.run Backend.memory t).state.only username := by
  induction p generalizing t with
  | done a => exact ⟨rfl, rfl⟩
  | call c next ih =>
    obtain ⟨hcall, hnext⟩ := h t (.refl t)
    have hcut := Call.apply_only ht hcall.1 hcall.2
    have hrest := ih _ hnext (Call.inOrder ht hcall.1 hcall.2.isInPlace)
    simp only [Program.run, Backend.memory] at hrest ⊢
    rw [hcut]
    exact hrest
  | notify n next ih => exact ih true (h true) ht

theorem run_other (h : p.Guarantees (s.Confines username) Q t) (ht : t.InOrder) {other : String}
    (hother : other ≠ username) :
    (p.run Backend.memory t).state.only other =
      { t.only other with lastId := (p.run Backend.memory t).state.lastId } := by
  induction p generalizing t with
  | done a => rfl
  | call c next ih =>
    obtain ⟨hcall, hnext⟩ := h t (.refl t)
    have hkept := Call.only_other ht hcall.1 hcall.2 hother
    refine (ih _ hnext (Call.inOrder ht hcall.1 hcall.2.isInPlace)).trans ?_
    rw [hkept]
    rfl
  | notify n next ih => exact ih true (h true) ht

end Program.Guarantees

/-! ## Keys and devices that an account does not have -/

/-- The account of this name has no key of this number, or has deleted it. -/
def Tables.LacksKey (t : Tables) (username : String) (id : RowId) : Prop :=
  ∀ k ∈ t.keys, k.id = id → t.owns username k.account = true → k.isDeleted = true

/-- The account of this name has no device with this token. -/
def Tables.LacksDevice (t : Tables) (username : String) (token : Uuid) : Prop :=
  ∀ d ∈ t.devices, d.token = token → t.owns username d.account = false

/-- The operation is about a key or a device that its account does not have. -/
def Operation.Misses {α : Type} (t : Tables) : Operation α → Prop
  | .updateKey username id _ => t.LacksKey username id
  | .deleteKey username id => t.LacksKey username id
  | .findKey username id => t.LacksKey username id
  | .keyPage username id _ => t.LacksKey username id
  | .revokeDevice username token => t.LacksDevice username token
  | _ => False

namespace Tables

variable {t : Tables} {username : String} {id : RowId} {a : Account}

theorem LacksKey.key?_eq_none (h : t.LacksKey username id)
    (ha : t.accountNamed? username = some a) : t.key? a.id id = none := by
  refine List.find?_eq_none.2 fun k hk hlive => ?_
  simp only [isLive, Bool.and_eq_true, decide_eq_true_eq, Bool.not_eq_true'] at hlive
  have hdeleted := h k hk hlive.1.1 (hlive.1.2 ▸ owns_of_accountNamed? ha)
  rw [hlive.2] at hdeleted
  cases hdeleted

theorem LacksDevice.deleteDevice {token : Uuid} (h : t.LacksDevice username token)
    (ha : t.accountNamed? username = some a) : t.deleteDevice a.id token = (false, t) := by
  have hnone (d : Device) (hd : d ∈ t.devices) :
      (d.account = a.id && d.token = token : Bool) = false := by
    rw [Bool.eq_false_iff]
    intro hgone
    simp only [Bool.and_eq_true, decide_eq_true_eq] at hgone
    have hforeign := h d hd hgone.2
    rw [hgone.1, owns_of_accountNamed? ha] at hforeign
    cases hforeign
  have hany : t.devices.any (fun d => d.account = a.id && d.token = token) = false :=
    List.any_eq_false.2 fun d hd => by simp [hnone d hd]
  have hkept : t.devices.filter (fun d => !(d.account = a.id && d.token = token)) = t.devices :=
    List.filter_eq_self.2 fun d hd => by rw [hnone d hd]; rfl
  simp only [Tables.deleteDevice, hany, hkept]

end Tables

/-- Why a request is refused that is about something that its account does not have. -/
def refusal (username : String) (missing : Failure) (known : Bool) : Failure :=
  if known then missing else .notFound .account username

theorem Request.exec_of_missing {α : Type} {r : Request α} {t : Tables} {username : String}
    {missing : Failure}
    (hnone : t.accountNamed? username = none →
      r.exec t = (.error (.notFound .account username), t))
    (hsome : ∀ a, t.accountNamed? username = some a → r.exec t = (.error missing, t)) :
    r.exec t = (.error (refusal username missing (t.isTaken username)), t) := by
  unfold refusal
  rw [t.isTaken_eq_isSome]
  cases ha : t.accountNamed? username with
  | none => exact hnone ha
  | some a => exact hsome a ha

namespace Session

theorem exec_revokeDevice_of_lacks {t : Tables} {username : String} {token : Uuid}
    (h : t.LacksDevice username token) : (revokeDevice username token).exec t =
      (.error (refusal username (.notFound .device token.toString) (t.isTaken username)), t) := by
  refine exec_of_missing (fun hnone => ?_) fun a ha => ?_
  · rw [revokeDevice, exec_findAccount_bind, hnone]
  · have hdelete : (Call.deleteDevice a.id token).apply t = (.ok false, t) := by
      rw [Call.apply, h.deleteDevice ha]
      rfl
    rw [revokeDevice, exec_findAccount_bind, ha]
    simp only [exec_bind, exec_ofCall, hdelete, mapError_ok, Bool.false_eq_true, if_false,
      exec_throw]

end Session

namespace Keyring

variable (given : Given) {t : Tables} {username : String} {id : RowId}

theorem exec_update_of_lacks (h : t.LacksKey username id) {u : KeyUpdate}
    (hcheck : u.check = .ok ()) : (update given username id u).exec t =
      (.error (refusal username (.keyNotFound id) (t.isTaken username)), t) := by
  refine exec_of_missing (fun hnone => ?_) fun a ha => ?_
  · simp only [exec_update_eq, hcheck, hnone]
  · simp only [exec_update_eq, hcheck, ha, h.key?_eq_none ha]

theorem exec_delete_of_lacks (h : t.LacksKey username id) : (delete given username id).exec t =
    (.error (refusal username (.keyNotFound id) (t.isTaken username)), t) := by
  refine exec_of_missing (fun hnone => ?_) fun a ha => ?_
  · simp only [exec_delete_eq, hnone]
  · simp only [exec_delete_eq, ha, h.key?_eq_none ha]

theorem exec_find_of_lacks (h : t.LacksKey username id) : (find username id).exec t =
    (.error (refusal username (.keyNotFound id) (t.isTaken username)), t) := by
  refine exec_of_missing (fun hnone => ?_) fun a ha => ?_
  · simp only [exec_find, hnone]
  · simp only [exec_find, ha, h.key?_eq_none ha, Option.elim]

theorem exec_page_of_lacks (h : t.LacksKey username id) (window : Page) :
    (page username id window).exec t =
      (.error (refusal username (.keyNotFound id) (t.isTaken username)), t) := by
  refine exec_of_missing (fun hnone => ?_) fun a ha => ?_
  · simp only [exec_page, hnone]
  · simp only [exec_page, ha, h.key?_eq_none ha]

end Keyring

namespace Service

variable (s : Service) (given : Given) {username : String}

/-- What is answered to an operation about something that its account does not have depends on
nothing but whether there is such an account. -/
theorem perform_of_misses {α : Type} {op : Operation α} (hop : op.username? = some username) :
    ∃ refused : Bool → Failure, ∀ t : Tables, op.Misses t →
      s.perform ⟨given, op⟩ t = (.error (refused (t.isTaken username)), t) := by
  cases op with
  | updateKey name id u =>
    cases hop
    cases hcheck : u.check with
    | error e =>
      refine ⟨fun _ => .invalid e, fun t _ => (Keyring.exec_update_eq ..).trans ?_⟩
      rw [hcheck]
    | ok _ =>
      exact ⟨refusal username (.keyNotFound id), fun t h =>
        Keyring.exec_update_of_lacks given h hcheck⟩
  | deleteKey name id =>
    cases hop
    exact ⟨refusal username (.keyNotFound id), fun t h => Keyring.exec_delete_of_lacks given h⟩
  | findKey name id =>
    cases hop
    exact ⟨refusal username (.keyNotFound id), fun t h => Keyring.exec_find_of_lacks h⟩
  | keyPage name id window =>
    cases hop
    exact ⟨refusal username (.keyNotFound id), fun t h => Keyring.exec_page_of_lacks h window⟩
  | revokeDevice name token =>
    cases hop
    exact ⟨refusal username (.notFound .device token.toString), fun t h =>
      Session.exec_revokeDevice_of_lacks h⟩
  | _ => exact ⟨fun _ => .invalidCredentials, fun _ h => h.elim⟩

/-- Accounts are isolated. An operation by the name of an account leaves what every other account
holds as it is. It answers the same on any two tables that come about, be it under other rules, with
one count of row numbers and with the same rows of the account, and these are the same again
afterwards. Where the account does not have the key or the device that the operation is about, the
answer tells no more than whether there is such an account, and nothing changes. -/
theorem isolates_accounts {α : Type} {op : Operation α} (hop : op.username? = some username)
    {t : Tables} (ht : s.Reaches {} t) :
    (∀ other, other ≠ username → (s.perform ⟨given, op⟩ t).2.only other =
      { t.only other with lastId := (s.perform ⟨given, op⟩ t).2.lastId }) ∧
    (∀ (s' : Service) (t' : Tables), s'.Reaches {} t' → t'.only username = t.only username →
      (s.perform ⟨given, op⟩ t').1 = (s.perform ⟨given, op⟩ t).1 ∧
      (s.perform ⟨given, op⟩ t').2.only username = (s.perform ⟨given, op⟩ t).2.only username) ∧
    ∃ refused : Bool → Failure, ∀ t' : Tables, op.Misses t' →
      s.perform ⟨given, op⟩ t' = (.error (refused (t'.isTaken username)), t') := by
  have hcut {s' : Service} {t' : Tables} (ht' : s'.Reaches {} t') :
      s.perform ⟨given, op⟩ (t'.only username) = ((s.perform ⟨given, op⟩ t').1,
        (s.perform ⟨given, op⟩ t').2.only username) := by
    obtain ⟨hvalue, hstate⟩ := Program.Guarantees.run_only (s.confined_request given hop t')
      ht'.inOrder
    exact Prod.ext hvalue hstate
  refine ⟨?_, ?_, s.perform_of_misses given hop⟩
  · intro other hother
    exact Program.Guarantees.run_other (s.confined_request given hop t) ht.inOrder hother
  · intro s' t' ht' hagree
    have hsame := (hcut ht').symm.trans ((congrArg (s.perform ⟨given, op⟩) hagree).trans (hcut ht))
    exact Prod.ext_iff.1 hsame

end Service

/-- Two accounts, the second with a key of a name. -/
def neighbours (name : String) : List Asked :=
  [⟨.sample 1, .signUp "ada@example.com" "correct horse"⟩,
    ⟨.sample 2, .signUp "eve@example.com" "battery staple"⟩,
    ⟨.sample 3, .createKey "eve@example.com" { name }⟩]

/-- A request to delete a neighbour's key leaves it there, and answers the same whatever its name
and whether it was deleted before. -/
theorem isolates_accounts_neighbours :
    (Operation.deleteKey "ada@example.com" 5).username? = some "ada@example.com" ∧
    Service.plain.Reaches {} (Service.plain.after {} (neighbours "ci")) ∧
    (Service.plain.perform ⟨.sample 4, .deleteKey "ada@example.com" 5⟩
      (Service.plain.after {} (neighbours "ci"))).2.only "eve@example.com" =
        (Service.plain.after {} (neighbours "ci")).only "eve@example.com" ∧
    (Service.plain.perform ⟨.sample 4, .deleteKey "ada@example.com" 5⟩
      (Service.plain.after {} (neighbours "cd"))).1 =
      (Service.plain.perform ⟨.sample 4, .deleteKey "ada@example.com" 5⟩
        (Service.plain.after {} (neighbours "ci"))).1 ∧
    (Service.plain.perform ⟨.sample 4, .deleteKey "ada@example.com" 5⟩
      (Service.plain.after {} (neighbours "ci" ++
        [⟨.sample 4, .deleteKey "eve@example.com" 5⟩]))).1 =
      (Service.plain.perform ⟨.sample 4, .deleteKey "ada@example.com" 5⟩
        (Service.plain.after {} (neighbours "ci"))).1 := by
  have hreaches (h : List Asked) : Service.plain.Reaches {} (Service.plain.after {} h) :=
    Service.reaches_after {} h
  have hop : (Operation.deleteKey "ada@example.com" 5).username? = some "ada@example.com" := rfl
  obtain ⟨hothers, hsame, refused, hmisses⟩ := Service.plain.isolates_accounts (.sample 4) hop
    (hreaches (neighbours "ci"))
  have hagree : (Service.plain.after {} (neighbours "cd")).only "ada@example.com" =
      (Service.plain.after {} (neighbours "ci")).only "ada@example.com" := by decide +kernel
  have hforeign : (Service.plain.after {} (neighbours "ci")).LacksKey "ada@example.com" 5 := by
    unfold Tables.LacksKey
    decide +kernel
  have hdeleted : (Service.plain.after {} (neighbours "ci" ++
      [⟨.sample 4, .deleteKey "eve@example.com" 5⟩])).LacksKey "ada@example.com" 5 := by
    unfold Tables.LacksKey
    decide +kernel
  have htaken : (Service.plain.after {} (neighbours "ci" ++
      [⟨.sample 4, .deleteKey "eve@example.com" 5⟩])).isTaken "ada@example.com" =
      (Service.plain.after {} (neighbours "ci")).isTaken "ada@example.com" := by decide +kernel
  refine ⟨hop, hreaches _, ?_, (hsame _ _ (hreaches _) hagree).1, ?_⟩
  · refine (hothers "eve@example.com" (by decide)).trans ?_
    rw [hmisses _ hforeign]
    rfl
  · rw [hmisses _ hdeleted, hmisses _ hforeign, htaken]

end Latchkey
