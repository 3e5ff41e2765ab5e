import Latchkey.Proofs.Guarantees
import Latchkey.Proofs.AccountRequests
import Latchkey.Proofs.History
import Latchkey.Proofs.SignIn

/-!
# The conduct of operations

What the calls of an operation are about, whatever tables it meets. An operation that is asked for
by the name of an account only makes calls about this account. Every operation writes rows of
accounts that are there, adds keys that may be stored and edits keys by updates or by deletions.
-/

namespace Latchkey

open Keyring Request

/-- There is an account of this number and this name. -/
def Tables.HasAccount (t : Tables) (id : RowId) (username : String) : Prop :=
  ∃ a ∈ t.accounts, a.id = id ∧ a.username = username

/-- There is an account of this number. -/
def Tables.HasOwner (t : Tables) (account : RowId) : Prop :=
  ∃ username, t.HasAccount account username

namespace Call

variable {β : Type}

/-- An account is saved with what became of its row on record, and only sign-ins are recorded by
themselves. A key is added within the limit and with a name, a lead and policies that may be stored,
and it is edited by an update that may be made or by its deletion. -/
def IsProper (limit : Int) : Call β → Prop
  | .saveAccount _ events _ => ∀ event ∈ events, event = .passwordReset ∨ event.IsEdit
  | .recordSecurity e => e.IsSighting
  | .insertKey k l =>
    l = limit ∧ checkKeyName k.name = .ok () ∧ checkPolicies k.policies = .ok () ∧
      ∃ raw : RawKey, k.lead = raw.leadText
  | .modifyKey _ id edit security now =>
    (∃ u : KeyUpdate, u.check = .ok () ∧ edit = editBy u now ∧ security = none) ∨
      edit = tombstone now ∧ security = some (.keyDeleted id)
  | _ => True

/-- A row that the call writes is of an account that is there. -/
def IsInPlace (t : Tables) : Call β → Prop
  | .saveAccount a _ _ => t.HasRowOf a
  | .insertDevice d => t.HasOwner d.account
  | .recordSecurity e => t.HasOwner e.account
  | .recordCharge c => t.HasOwner c.account
  | .insertKey k _ => t.HasOwner k.account
  | _ => True

/-- The call is about the account of this name, or about the name, and about no other account. -/
def Concerns (username : String) (t : Tables) : Call β → Prop
  | .findAccountNamed name => name = username
  | .isTaken name => name = username
  | .insertAccount a => a.username = username
  | .saveAccount a _ _ => a.username = username ∧ t.HasAccount a.id username
  | .insertDevice d => t.HasAccount d.account username
  | .listDevices account => t.HasAccount account username
  | .deleteDevice account _ => t.HasAccount account username
  | .deleteDevicesOf account => t.HasAccount account username
  | .recordSecurity e => t.HasAccount e.account username
  | .securityTrail account => t.HasAccount account username
  | .securityPage account _ => t.HasAccount account username
  | .chargePage account _ => t.HasAccount account username
  | .countKeys account => t.HasAccount account username
  | .listKeys account => t.HasAccount account username
  | .findKey account _ => t.HasAccount account username
  | .insertKey k _ => t.HasAccount k.account username
  | .modifyKey account _ _ _ _ => t.HasAccount account username
  | .keyPage key _ => ∃ k ∈ t.keys, k.id = key ∧ t.HasAccount k.account username
  | .findAccount _ => False
  | .findAccountResetBy _ => False
  | .findDevice _ => False
  | .recordCharge _ => False
  | .listKeysLedBy _ => False

theorem Concerns.isInPlace {username : String} {t : Tables} {c : Call β}
    (h : c.Concerns username t) : c.IsInPlace t := by
  cases c with
  | saveAccount a events now =>
    obtain ⟨hname, b, hb, hid, hname'⟩ := h
    exact ⟨b, hb, hid, hname'.trans hname.symm⟩
  | insertDevice d => exact ⟨username, h⟩
  | recordSecurity e => exact ⟨username, h⟩
  | recordCharge c => exact h.elim
  | insertKey k limit => exact ⟨username, h⟩
  | _ => trivial

end Call

namespace Service

variable (s : Service) {β : Type}

/-- The call is proper and in place. -/
def Allows (t : Tables) (c : Call β) : Prop :=
  c.IsProper s.keyLimit ∧ c.IsInPlace t

/-- The call is proper and about the account of this name. -/
def Confines (username : String) (t : Tables) (c : Call β) : Prop :=
  c.IsProper s.keyLimit ∧ c.Concerns username t

end Service

/-- The name of the account that an operation is asked for by. -/
def Operation.username? {α : Type} : Operation α → Option String
  | .signUp username _ => some username
  | .signIn username _ _ => some username
  | .forgotPassword username => some username
  | .activeDevices username => some username
  | .revokeDevice username _ => some username
  | .revokeAllDevices username => some username
  | .findAccount username => some username
  | .updateAccount username _ => some username
  | .securityPage username _ => some username
  | .chargePage username _ => some username
  | .createKey username _ => some username
  | .updateKey username _ _ => some username
  | .deleteKey username _ => some username
  | .countKeys username => some username
  | .listKeys username => some username
  | .findKey username _ => some username
  | .keyPage username _ _ => some username
  | .refresh _ => none
  | .authenticateBearer _ => none
  | .resetPassword _ _ => none
  | .authenticateKey _ => none

/-! ## Requests by the name of an account -/

theorem Tables.HasAccount.grow {t t' : Tables} {id : RowId} {username : String}
    (h : t.HasAccount id username) (hgrows : t.Grows t') : t'.HasAccount id username := by
  obtain ⟨a, ha, rfl, rfl⟩ := h
  exact hgrows.accounts a ⟨a, ha, rfl, rfl⟩

theorem Tables.HasOwner.grow {t t' : Tables} {account : RowId} (h : t.HasOwner account)
    (hgrows : t.Grows t') : t'.HasOwner account := by
  obtain ⟨username, h⟩ := h
  exact ⟨username, h.grow hgrows⟩

section Confined

variable {s : Service} {given : Given} {username : String} {t : Tables} {α : Type}

theorem confined_ofCall {c : Call α} (h : ∀ t', t.Grows t' → s.Confines username t' c) :
    (Request.ofCall c).Guarantees (s.Confines username) (fun _ _ => True) t :=
  guarantees_ofCall fun t' hgrows => ⟨h t' hgrows, fun _ _ => trivial⟩

namespace Session

/-- An account that is found is there under its number and its name from then on. -/
theorem confined_findAccount {Q : Account → Tables → Prop}
    (h : ∀ a t', t'.HasAccount a.id username → a.username = username → Q a t') :
    (findAccount username).Guarantees (s.Confines username) Q t := by
  refine guarantees_bind (guarantees_ofCall fun t' _ => ⟨⟨trivial, rfl⟩, ?_⟩)
  intro found hfound
  refine guarantees_orFail fun a ha => ?_
  obtain rfl : t'.accountNamed? username = found := by simpa [Call.apply, Call.look] using hfound
  obtain ⟨hmem, hname⟩ := Tables.accountNamed?_some ha
  exact h a t' ⟨a, hmem, rfl, hname⟩ hname

theorem confined_signUp (password : String) :
    (signUp s.session s.passwords given username password).Guarantees (s.Confines username)
      (fun _ _ => True) t := by
  refine guarantees_bind (guarantees_accept fun _ _ => ?_)
  refine guarantees_bind (guarantees_accept fun _ _ => ?_)
  refine guarantees_bind (guarantees_ofCall fun t' _ => ⟨⟨trivial, rfl⟩, fun taken _ => ?_⟩)
  cases taken with
  | true => exact guarantees_throw _
  | false =>
    refine guarantees_bind (guarantees_liftExcept fun digest _ => ?_)
    refine guarantees_bind (guarantees_ofCall fun _ _ => ⟨⟨trivial, rfl⟩, fun inserted _ => ?_⟩)
    refine guarantees_bind (guarantees_orFail fun account _ => ?_)
    exact guarantees_bind (guarantees_send _ (guarantees_pure trivial))

theorem confined_registerDevice {account : Account} (fingerprint : Option Fingerprint)
    (h : t.HasAccount account.id username) :
    (registerDevice s.session given account fingerprint).Guarantees (s.Confines username)
      (fun answer _ => ∀ tokens, answer = .ok tokens → True) t := by
  intro t' hgrows
  refine ⟨⟨trivial, h.grow hgrows⟩, ?_⟩
  exact fun _ _ => trivial

/-- The check of an origin is about the account that signs in, whatever it finds. -/
theorem confined_checkOrigin {account : Account} (fingerprint : Option Fingerprint)
    {next : Program (Except Failure Tokens)} {Q : Except Failure Tokens → Tables → Prop}
    (h : t.HasAccount account.id username)
    (hnext : ∀ t', t'.HasAccount account.id username →
      next.Guarantees (s.Confines username) Q t') :
    (checkOrigin given account fingerprint next).Guarantees (s.Confines username) Q t := by
  cases fingerprint with
  | none => exact hnext t h
  | some f =>
    refine Program.guarantees_andThen ?_
    rw [Origin.verify_eq]
    intro t' hgrows
    refine ⟨⟨trivial, h.grow hgrows⟩, ?_⟩
    intro t'' hgrows'
    have hthere := (h.grow hgrows).grow hgrows'
    refine ⟨⟨Origin.isSighting_entry .., hthere⟩, ?_⟩
    -- Recording adds to a trail, so the account is still there.
    have hafter : ((Call.recordSecurity (Origin.entry (t'.securityTrailOf account.id) account f
        given.now)).apply t'').2.HasAccount account.id username := hthere
    show Program.Guarantees _ _ (if Origin.isSeen (t'.securityTrailOf account.id) f then _ else _) _
    split
    · exact hnext _ hafter
    · exact fun _ => hnext _ hafter

theorem confined_signIn (password : String) (fingerprint : Option Fingerprint) :
    (signIn s.session s.passwords given username password fingerprint).Guarantees
      (s.Confines username) (fun _ _ => True) t := by
  rw [Request.Guarantees, run_signIn]
  intro t' _
  refine ⟨⟨trivial, rfl⟩, ?_⟩
  show Program.Guarantees _ _
    (signInTo s.session s.passwords given password fingerprint (t'.accountNamed? username)) _
  cases hfound : t'.accountNamed? username with
  | none =>
    have hrefused : ∃ e, (refuseUnknown s.passwords given password).run = .done (.error e) :=
      run_refuseUnknown
    obtain ⟨e, hrun⟩ := hrefused
    rw [signInTo, hrun]
    exact fun _ _ => trivial
  | some account =>
    obtain ⟨hmem, hname⟩ := Tables.accountNamed?_some hfound
    have hthere : t'.HasAccount account.id username := ⟨account, hmem, rfl, hname⟩
    dsimp only [signInTo]
    split
    · exact fun _ _ => trivial
    · exact fun _ _ => trivial
    · exact confined_checkOrigin fingerprint hthere fun _ h =>
        confined_registerDevice fingerprint h

theorem confined_forgotPassword :
    (forgotPassword given username).Guarantees (s.Confines username) (fun _ _ => True) t := by
  refine guarantees_bind (confined_findAccount fun a t' hthere hname => ?_)
  refine guarantees_bind (guarantees_ofCall fun t'' hgrows =>
    ⟨⟨List.forall_mem_nil _, hname, hthere.grow hgrows⟩, fun _ _ => ?_⟩)
  exact guarantees_bind (guarantees_send _ (guarantees_pure trivial))

theorem confined_updateAccount (update : ProfileUpdate) :
    (updateAccount given username update).Guarantees (s.Confines username)
      (fun _ _ => True) t := by
  refine guarantees_bind (confined_findAccount fun a t' hthere hname => ?_)
  have hid := update.apply_id a
  have hsame := update.apply_username a
  dsimp only
  split
  · exact guarantees_pure trivial
  · exact confined_ofCall fun t'' hgrows =>
      ⟨fun _ hevent => .inr (ProfileUpdate.isEdit_of_mem_apply hevent), hsame.trans hname,
        hid ▸ hthere.grow hgrows⟩

/-- A request that looks its account up and makes one call about it. -/
theorem confined_findAccount_ofCall {c : Account → Call α}
    (h : ∀ a t', t'.HasAccount a.id username → s.Confines username t' (c a)) :
    (do let a ← findAccount username; Request.ofCall (c a)).Guarantees (s.Confines username)
      (fun _ _ => True) t :=
  guarantees_bind (confined_findAccount fun a _ hthere _ =>
    confined_ofCall fun t' hgrows => h a t' (hthere.grow hgrows))

theorem confined_activeDevices :
    (activeDevices given username).Guarantees (s.Confines username) (fun _ _ => True) t := by
  refine guarantees_bind (confined_findAccount fun a t' hthere _ => ?_)
  refine guarantees_bind (guarantees_ofCall fun t'' hgrows =>
    ⟨⟨trivial, hthere.grow hgrows⟩, fun _ _ => ?_⟩)
  exact guarantees_pure trivial

theorem confined_revokeDevice (token : Uuid) :
    (revokeDevice username token).Guarantees (s.Confines username) (fun _ _ => True) t := by
  refine guarantees_bind (confined_findAccount fun a t' hthere _ => ?_)
  refine guarantees_bind (guarantees_ofCall fun t'' hgrows =>
    ⟨⟨trivial, hthere.grow hgrows⟩, fun removed _ => ?_⟩)
  cases removed with
  | true => exact guarantees_pure trivial
  | false => exact guarantees_throw _

end Session

namespace Keyring

theorem confined_create (request : KeyRequest) :
    (create s.keyLimit s.keys given username request).Guarantees (s.Confines username)
      (fun _ _ => True) t := by
  refine guarantees_bind (guarantees_accept fun _ hname => ?_)
  refine guarantees_bind (guarantees_accept fun _ hpolicies => ?_)
  refine guarantees_bind (Session.confined_findAccount fun a t' hthere _ => ?_)
  refine guarantees_bind (guarantees_liftExcept fun digest _ => ?_)
  refine guarantees_bind (guarantees_ofCall fun t'' hgrows =>
    ⟨⟨⟨rfl, hname, hpolicies, given.rawKey, rfl⟩, hthere.grow hgrows⟩, fun inserted _ => ?_⟩)
  refine guarantees_bind (guarantees_orFail fun key _ => ?_)
  exact guarantees_bind (guarantees_send _ (guarantees_pure trivial))

theorem confined_update (id : RowId) (u : KeyUpdate) :
    (update given username id u).Guarantees (s.Confines username) (fun _ _ => True) t := by
  refine guarantees_bind (guarantees_accept fun _ hcheck => ?_)
  refine guarantees_bind (Session.confined_findAccount fun a t' hthere _ => ?_)
  refine guarantees_bind (guarantees_ofCall fun t'' hgrows =>
    ⟨⟨.inl ⟨u, hcheck, rfl, rfl⟩, hthere.grow hgrows⟩, fun modified _ => ?_⟩)
  exact guarantees_bind (guarantees_orFail fun change _ => guarantees_pure trivial)

theorem confined_delete (id : RowId) :
    (delete given username id).Guarantees (s.Confines username) (fun _ _ => True) t := by
  refine guarantees_bind (Session.confined_findAccount fun a t' hthere _ => ?_)
  refine guarantees_bind (guarantees_ofCall fun t'' hgrows =>
    ⟨⟨.inr ⟨rfl, rfl⟩, hthere.grow hgrows⟩, fun modified _ => ?_⟩)
  refine guarantees_bind (guarantees_orFail fun change _ => ?_)
  exact guarantees_bind (guarantees_send _ (guarantees_pure trivial))

/-- A key that is found is one of the account from then on. -/
theorem confined_owned {a : Account} {id : RowId} {Q : ApiKey → Tables → Prop}
    (hthere : t.HasAccount a.id username)
    (h : ∀ key t', t'.HasAccount a.id username → key ∈ t'.keys → key.account = a.id → Q key t') :
    (owned a id).Guarantees (s.Confines username) Q t := by
  refine guarantees_bind (guarantees_ofCall fun t' hgrows =>
    ⟨⟨trivial, hthere.grow hgrows⟩, fun found hfound => ?_⟩)
  refine guarantees_orFail fun key hkey => ?_
  obtain rfl : t'.key? a.id id = found := by simpa [Call.apply, Call.look] using hfound
  have hlive : Tables.isLive a.id id key = true := List.find?_some hkey
  simp only [Tables.isLive, Bool.and_eq_true, decide_eq_true_eq] at hlive
  exact h key t' (hthere.grow hgrows) (List.mem_of_find?_eq_some hkey) hlive.1.2

theorem confined_find (id : RowId) :
    (find username id).Guarantees (s.Confines username) (fun _ _ => True) t :=
  guarantees_bind (Session.confined_findAccount fun _ _ hthere _ =>
    confined_owned hthere fun _ _ _ _ _ => trivial)

theorem confined_page (id : RowId) (window : Page) :
    (page username id window).Guarantees (s.Confines username) (fun _ _ => True) t := by
  refine guarantees_bind (Session.confined_findAccount fun a t' hthere _ => ?_)
  refine guarantees_bind (confined_owned hthere fun key t'' hthere' hkey haccount => ?_)
  refine confined_ofCall fun t''' hgrows => ⟨trivial, ?_⟩
  obtain ⟨l, hl, hid, hsame⟩ := hgrows.keys key hkey
  exact ⟨l, hl, hid, hsame.trans haccount ▸ hthere'.grow hgrows⟩

end Keyring

end Confined

namespace Service

variable (s : Service) (given : Given) {α : Type}

/-- An operation by the name of an account makes calls about this account only. -/
theorem confined_request {op : Operation α} {username : String}
    (hop : op.username? = some username) (t : Tables) :
    (s.request given op).Guarantees (s.Confines username) (fun _ _ => True) t := by
  cases op with
  | signUp name password =>
    cases hop
    exact Session.confined_signUp password
  | signIn name password fingerprint =>
    cases hop
    exact Session.confined_signIn password fingerprint
  | forgotPassword name =>
    cases hop
    exact Session.confined_forgotPassword
  | activeDevices name =>
    cases hop
    exact Session.confined_activeDevices
  | revokeDevice name token =>
    cases hop
    exact Session.confined_revokeDevice token
  | revokeAllDevices name =>
    cases hop
    exact Session.confined_findAccount_ofCall fun _ _ h => ⟨trivial, h⟩
  | findAccount name =>
    cases hop
    exact Session.confined_findAccount fun _ _ _ _ => trivial
  | updateAccount name update =>
    cases hop
    exact Session.confined_updateAccount update
  | securityPage name page =>
    cases hop
    exact Session.confined_findAccount_ofCall fun _ _ h => ⟨trivial, h⟩
  | chargePage name page =>
    cases hop
    exact Session.confined_findAccount_ofCall fun _ _ h => ⟨trivial, h⟩
  | createKey name request =>
    cases hop
    exact Keyring.confined_create request
  | updateKey name id update =>
    cases hop
    exact Keyring.confined_update id update
  | deleteKey name id =>
    cases hop
    exact Keyring.confined_delete id
  | countKeys name =>
    cases hop
    exact Session.confined_findAccount_ofCall fun _ _ h => ⟨trivial, h⟩
  | listKeys name =>
    cases hop
    exact Session.confined_findAccount_ofCall fun _ _ h => ⟨trivial, h⟩
  | findKey name id =>
    cases hop
    exact Keyring.confined_find id
  | keyPage name id page =>
    cases hop
    exact Keyring.confined_page id page
  | refresh token => cases hop
  | authenticateBearer token => cases hop
  | resetPassword password token => cases hop
  | authenticateKey raw => cases hop

/-! ## Other requests -/

/-- A reset is completed on the row of the account that waits for it. -/
theorem allows_resetPassword (password : String) (token : Uuid) (t : Tables) :
    (Session.resetPassword s.session s.passwords given password token).Guarantees s.Allows
      (fun _ _ => True) t := by
  refine guarantees_bind (guarantees_ofCall fun t' _ => ⟨⟨trivial, trivial⟩, ?_⟩)
  intro found hfound
  obtain rfl : t'.accountResetBy? token = found := by simpa [Call.apply, Call.look] using hfound
  refine guarantees_bind (guarantees_orFail fun a ha => ?_)
  have hthere : t'.HasRowOf a := ⟨a, List.mem_of_find?_eq_some ha, rfl, rfl⟩
  split
  · exact guarantees_throw _
  · refine guarantees_bind (guarantees_accept fun _ _ => ?_)
    refine guarantees_bind (guarantees_liftExcept fun digest _ => ?_)
    have hevents : ∀ event ∈ [SecurityEvent.passwordReset], event = .passwordReset ∨ event.IsEdit :=
      fun _ hevent => .inl (List.mem_singleton.1 hevent)
    refine guarantees_bind (guarantees_ofCall fun t'' hgrows =>
      ⟨⟨hevents, hgrows.accounts a hthere⟩, fun saved _ => ?_⟩)
    exact guarantees_bind (guarantees_send _ (guarantees_pure trivial))

theorem allows_refresh (token : Uuid) (t : Tables) :
    (Session.refresh s.session given token).Guarantees s.Allows (fun _ _ => True) t := by
  refine guarantees_bind (guarantees_ofCall fun _ _ => ⟨⟨trivial, trivial⟩, fun _ _ => ?_⟩)
  refine guarantees_bind (guarantees_orFail fun device _ => ?_)
  refine guarantees_bind (guarantees_ofCall fun _ _ => ⟨⟨trivial, trivial⟩, fun _ _ => ?_⟩)
  exact guarantees_bind (guarantees_orFail fun account _ => guarantees_pure trivial)

theorem allows_authenticateBearer (token : String) (t : Tables) :
    (Session.authenticateBearer s.session given token).Guarantees s.Allows
      (fun _ _ => True) t := by
  unfold Session.authenticateBearer
  split
  · exact guarantees_pure trivial
  · exact guarantees_throw _

theorem allows_authenticate (raw : String) (t : Tables) :
    (Keyring.authenticate s.keys raw).Guarantees s.Allows (fun _ _ => True) t := by
  unfold Keyring.authenticate
  split
  · exact guarantees_pure trivial
  · exact guarantees_bind (guarantees_ofCall fun _ _ =>
      ⟨⟨trivial, trivial⟩, fun _ _ => guarantees_pure trivial⟩)

/-- Every operation makes proper calls, and writes rows of accounts that are there. -/
theorem allows_request (op : Operation α) (t : Tables) :
    (s.request given op).Guarantees s.Allows (fun _ _ => True) t := by
  cases hop : op.username? with
  | some username =>
    exact Program.Guarantees.mono (s.confined_request given hop t)
      (fun hcall => ⟨hcall.1, hcall.2.isInPlace⟩) fun _ _ h => h
  | none =>
    cases op with
    | refresh token => exact s.allows_refresh given token t
    | authenticateBearer token => exact s.allows_authenticateBearer given token t
    | resetPassword password token => exact s.allows_resetPassword given password token t
    | authenticateKey raw => exact s.allows_authenticate raw t
    | _ => cases hop

end Service

end Latchkey
