import Mathlib.Data.List.Forall2
import Latchkey.Proofs.Origins
import Latchkey.Proofs.Store.Holdings

/-!
# Announcements

Some changes are announced to the owner of the account. Any store call may fail, and any notice may
get lost. Still a notice is sent right after each change that is to be announced and at no other
time, to the owner's row as it was then; and whether notices arrive makes no difference to what is
answered and what is stored.
-/

namespace Latchkey

/-! ## What is to be announced -/

/-- A change that the owner of an account is told of: whose account it is, what there is to tell,
and the tables right after the change. -/
structure Occasion where
  owner : RowId
  subject : Notice.Subject
  tables : Tables

/-- The notice tells of the change: it has its subject and goes to the row of the owner. -/
structure Notice.Tells (n : Notice) (o : Occasion) : Prop where
  subject : n.subject = o.subject
  owner : n.account.id = o.owner
  current : n.account ∈ o.tables.accounts

namespace Call

variable {β : Type}

/-- Whom a call that was answered gives something to tell, and what: a new account, a save that
records a completed reset or that only starts one, a sign-in on record as unrecognized, a new key,
and a key that is marked as deleted. -/
def news? : Call β → β → Option (RowId × Notice.Subject)
  | .insertAccount _, some a => some (a.id, .accountCreated)
  | .saveAccount a events _, _ =>
    if .passwordReset ∈ events then some (a.id, .passwordReset)
    else if events = [] ∧ a.resetToken.isSome then some (a.id, .forgottenPassword)
    else none
  | .recordSecurity _, e => if e.isFlagged then some (e.account, .unrecognizedDevice e) else none
  | .insertKey _ _, some k => some (k.account, .keyCreated k)
  | .modifyKey _ _ _ _ _, some change =>
    if change.events ≠ [] ∧ change.key.isDeleted then
      some (change.key.account, .keyDeleted change.key)
    else none
  | _, _ => none

/-- The change to be announced that a call is on these tables. -/
def occasion? (c : Call β) (t : Tables) : Option Occasion :=
  match (c.apply t).1 with
  | .ok answer =>
    (c.news? answer).map fun (owner, subject) => ⟨owner, subject, (c.apply t).2⟩
  | .error _ => none

theorem occasion?_of_ok {c : Call β} {t : Tables} {answer : β} (h : (c.apply t).1 = .ok answer) :
    c.occasion? t =
      (c.news? answer).map fun (owner, subject) => ⟨owner, subject, (c.apply t).2⟩ := by
  rw [occasion?, h]

theorem IsLook.occasion? {c : Call β} (h : c.IsLook) (t : Tables) : c.occasion? t = none := by
  unfold Call.occasion?
  cases c <;> first | rfl | exact h.elim

end Call

/-! ## Troubles -/

/-- Which store calls fail, and why, and which notices arrive, both counted from zero. -/
structure Troubles where
  fault? : Nat → Option StoreFault
  arrives : Nat → Bool

/-- The same faults of the store, with all notices arriving. -/
def Troubles.allArrive (τ : Troubles) : Troubles :=
  { τ with arrives := fun _ => true }

/-- Tables amid troubles: how many calls and notices there have been, and what was to be announced
so far. -/
structure Trial where
  tables : Tables
  calls : Nat := 0
  notices : Nat := 0
  occasions : List Occasion := []

namespace Trial

variable {β : Type}

/-- A call that fails. -/
def fail (s : Trial) : Trial :=
  { s with calls := s.calls + 1 }

/-- A call that is answered. -/
def call (s : Trial) (c : Call β) : Trial :=
  { s with
    tables := (c.apply s.tables).2
    calls := s.calls + 1
    occasions := s.occasions ++ (c.occasion? s.tables).toList }

/-- A notice, which may get lost. -/
def notify (s : Trial) : Trial :=
  { s with notices := s.notices + 1 }

/-- The trials differ at most in how many notices there have been. -/
structure Agrees (s s' : Trial) : Prop where
  tables : s.tables = s'.tables
  calls : s.calls = s'.calls
  occasions : s.occasions = s'.occasions

variable {s s' : Trial}

theorem Agrees.fail (h : s.Agrees s') : s.fail.Agrees s'.fail :=
  ⟨h.tables, congrArg (· + 1) h.calls, h.occasions⟩

theorem Agrees.call (h : s.Agrees s') (c : Call β) : (s.call c).Agrees (s'.call c) where
  tables := congrArg (fun t => (c.apply t).2) h.tables
  calls := congrArg (· + 1) h.calls
  occasions := by rw [Trial.call, Trial.call, h.tables, h.occasions]

theorem Agrees.notify (h : s.Agrees s') : s.notify.Agrees s'.notify :=
  ⟨h.tables, h.calls, h.occasions⟩

end Trial

/-- Tables in memory amid troubles. A call that fails does nothing. -/
def Backend.amid (τ : Troubles) : Backend Trial where
  answer c s :=
    match τ.fault? s.calls with
    | some fault => (.error fault, s.fail)
    | none => ((c.apply s.tables).1, s.call c)
  deliver _ s := (τ.arrives s.notices, s.notify)

namespace Program

variable {α β : Type}

/-- Whatever fails, the program sends a notice right after each change that is to be announced, and
no other, and never looks at whether it arrived. A change may be due at the start. -/
def Announces : Program α → Tables → Option Occasion → Prop
  | .done _, _, due => due = none
  | .call c next, t, due =>
    due = none ∧ (∀ fault, (next (.error fault)).Announces t none) ∧
      (next (c.apply t).1).Announces (c.apply t).2 (c.occasion? t)
  | .notify n next, t, due =>
    (∃ o, due = some o ∧ n.Tells o) ∧ next true = next false ∧ (next true).Announces t none

variable {p : Program α} {t : Tables} {due : Option Occasion}

/-- A program that makes no call with news and sends no notice has nothing to announce. -/
theorem announces_of_within (hp : p.Within (fun c => ∀ t, c.occasion? t = none) fun _ => False) :
    p.Announces t none := by
  induction p generalizing t with
  | done a => rfl
  | call c next ih =>
    refine ⟨rfl, fun fault => ih _ (hp.2 _), ?_⟩
    rw [hp.1 t]
    exact ih _ (hp.2 _)
  | notify n next ih => exact hp.1.elim

theorem run_call (τ : Troubles) (c : Call β) (next : Except StoreFault β → Program α) (s : Trial) :
    (Program.call c next).run (.amid τ) s =
      match τ.fault? s.calls with
      | some fault => (next (.error fault)).run (.amid τ) s.fail
      | none => (next (c.apply s.tables).1).run (.amid τ) (s.call c) := by
  simp only [run, Backend.amid]
  cases τ.fault? s.calls <;> rfl

theorem run_notify {next : Bool → Program α} (h : next true = next false) (τ : Troubles)
    (n : Notice) (s : Trial) : (Program.notify n next).run (.amid τ) s =
      { (next true).run (.amid τ) s.notify with
        sent := n :: ((next true).run (.amid τ) s.notify).sent } := by
  have hone : next (τ.arrives s.notices) = next true := by
    cases τ.arrives s.notices with
    | true => rfl
    | false => exact h.symm
  simp only [run, Backend.amid, hone]

/-- Whether notices arrive makes no difference. -/
theorem Announces.agree (hp : p.Announces t due) {τ τ' : Troubles} (hτ : τ.fault? = τ'.fault?)
    {s s' : Trial} (hs : s.Agrees s') (ht : s.tables = t) :
    (p.run (.amid τ) s).value = (p.run (.amid τ') s').value ∧
      (p.run (.amid τ) s).state.Agrees (p.run (.amid τ') s').state := by
  induction p generalizing t due s s' with
  | done a => exact ⟨rfl, hs⟩
  | call c next ih =>
    obtain ⟨-, hfault, hnext⟩ := hp
    subst ht
    rw [run_call, run_call, ← hτ, ← hs.calls, ← hs.tables]
    cases τ.fault? s.calls with
    | some fault => exact ih _ (hfault fault) hs.fail rfl
    | none => exact ih _ hnext (hs.call c) rfl
  | notify n next ih =>
    obtain ⟨-, hdeaf, hnext⟩ := hp
    rw [run_notify hdeaf, run_notify hdeaf]
    exact ih true hnext hs.notify ht

/-- What is sent is what was due and what came up, in order. -/
theorem Announces.told (hp : p.Announces t due) (τ : Troubles) {s : Trial} (ht : s.tables = t) :
    ∃ occasions, (p.run (.amid τ) s).state.occasions = s.occasions ++ occasions ∧
      List.Forall₂ Notice.Tells (p.run (.amid τ) s).sent (due.toList ++ occasions) := by
  induction p generalizing t due s with
  | done a =>
    obtain rfl : due = none := hp
    exact ⟨[], (List.append_nil _).symm, .nil⟩
  | call c next ih =>
    obtain ⟨rfl, hfault, hnext⟩ := hp
    subst ht
    rw [run_call]
    cases τ.fault? s.calls with
    | some fault => exact ih _ (hfault fault) (s := s.fail) rfl
    | none =>
      obtain ⟨occasions, hoccasions, htells⟩ := ih _ hnext (s := s.call c) rfl
      exact ⟨(c.occasion? s.tables).toList ++ occasions,
        hoccasions.trans (List.append_assoc ..), htells⟩
  | notify n next ih =>
    obtain ⟨⟨o, rfl, htells⟩, hdeaf, hnext⟩ := hp
    rw [run_notify hdeaf]
    obtain ⟨occasions, hoccasions, hrest⟩ := ih true hnext (s := s.notify) ht
    exact ⟨occasions, hoccasions, .cons htells hrest⟩

/-- Where no call fails, the program runs as it does on tables in memory. -/
theorem Announces.run_of_no_fault (hp : p.Announces t due) {τ : Troubles}
    (hτ : ∀ n, τ.fault? n = none) {s : Trial} (ht : s.tables = t) :
    (p.run (.amid τ) s).value = (p.run Backend.memory t).value ∧
      (p.run (.amid τ) s).state.tables = (p.run Backend.memory t).state ∧
      (p.run (.amid τ) s).sent = (p.run Backend.memory t).sent := by
  induction p generalizing t due s with
  | done a => exact ⟨rfl, ht, rfl⟩
  | call c next ih =>
    obtain ⟨-, -, hnext⟩ := hp
    subst ht
    rw [run_call, hτ]
    exact ih _ hnext (s := s.call c) rfl
  | notify n next ih =>
    obtain ⟨-, hdeaf, hnext⟩ := hp
    rw [run_notify hdeaf]
    obtain ⟨hvalue, hstate, hsent⟩ := ih true hnext (s := s.notify) ht
    exact ⟨hvalue, hstate, congrArg (n :: ·) hsent⟩

end Program

namespace Request

variable {α β : Type} {t : Tables} {due : Option Occasion}

/-- Whatever fails, the request sends a notice right after each change that is to be announced, and
no other. -/
def Announces (r : Request α) (t : Tables) (due : Option Occasion) : Prop :=
  Program.Announces r.run t due

theorem announces_pure (a : α) : (pure a : Request α).Announces t none := rfl

theorem announces_throw (e : Failure) : (throw e : Request α).Announces t none := rfl

/-- After a call that was answered its news are due. -/
theorem announces_ofCall_bind {c : Call β} {f : β → Request α}
    (hf : ∀ b, (c.apply t).1 = .ok b → (f b).Announces (c.apply t).2
      ((c.news? b).map fun (owner, subject) => ⟨owner, subject, (c.apply t).2⟩)) :
    (Request.ofCall c >>= f).Announces t none := by
  rw [Announces, Program.run_bind]
  refine ⟨rfl, fun fault => rfl, ?_⟩
  cases hanswer : (c.apply t).1 with
  | ok b =>
    rw [Call.occasion?_of_ok hanswer]
    exact hf b hanswer
  | error fault =>
    show c.occasion? t = none
    rw [Call.occasion?, hanswer]

theorem announces_send_bind {n : Notice} {o : Occasion} {f : Unit → Request α}
    (htells : n.Tells o) (hf : (f ()).Announces t none) :
    (Request.send n >>= f).Announces t (some o) := by
  rw [Announces, Program.run_bind]
  exact ⟨⟨o, rfl, htells⟩, rfl, hf⟩

/-- A call without news may come last. -/
theorem announces_ofCall {c : Call α} (hc : ∀ a, (c.apply t).1 = .ok a → c.news? a = none) :
    (Request.ofCall c).Announces t none := by
  refine ⟨rfl, fun _ => rfl, ?_⟩
  show c.occasion? t = none
  unfold Call.occasion?
  cases hanswer : (c.apply t).1 with
  | ok a =>
    dsimp only
    rw [hc a hanswer, Option.map_none]
  | error fault => rfl

theorem announces_send {n : Notice} {o : Occasion} (htells : n.Tells o) :
    (Request.send n).Announces t (some o) :=
  ⟨⟨o, rfl, htells⟩, rfl, rfl⟩

theorem announces_accept_bind {checked : Except Invalid β} {f : β → Request α}
    (hf : ∀ b, (f b).Announces t none) : (Request.accept checked >>= f).Announces t none := by
  rw [Announces, Program.run_bind]
  cases checked with
  | ok b => exact hf b
  | error e => rfl

theorem announces_liftExcept_bind {x : Except Failure β} {f : β → Request α}
    (hf : ∀ b, (f b).Announces t none) : ((liftM x : Request β) >>= f).Announces t none := by
  rw [Announces, Program.run_bind]
  cases x with
  | ok b => exact hf b
  | error e => rfl

theorem announces_orFail_bind {found : Option β} {e : Failure} {f : β → Request α}
    (hnone : found = none → due = none) (hf : ∀ b, found = some b → (f b).Announces t due) :
    (Request.orFail found e >>= f).Announces t due := by
  rw [Announces, Program.run_bind]
  cases found with
  | none => exact hnone rfl
  | some b => exact hf b rfl

theorem announces_findAccount_bind {username : String} {f : Account → Request α}
    (hf : ∀ a, a ∈ t.accounts → (f a).Announces t none) :
    (Session.findAccount username >>= f).Announces t none := by
  rw [Session.findAccount, bind_assoc]
  refine announces_ofCall_bind fun found hfound => announces_orFail_bind (fun _ => rfl) ?_
  rintro a rfl
  exact hf a (List.mem_of_find?_eq_some (Except.ok.inj hfound))

end Request

/-! ## Changes that are to be announced -/

namespace Tables

variable {t : Tables}

theorem mem_of_insertAccount {a : NewAccount} {b : Account}
    (h : (t.insertAccount a).1 = some b) : b ∈ (t.insertAccount a).2.accounts := by
  cases htaken : t.isTaken a.username with
  | true =>
    rw [insertAccount_of_taken htaken] at h
    cases h
  | false =>
    obtain ⟨hrow, haccounts⟩ := insertAccount_of_free htaken
    rw [hrow, Option.some.injEq] at h
    rw [haccounts, h]
    exact List.mem_append_right _ (List.mem_singleton.2 rfl)

theorem mem_of_saveAccount {a b : Account} {events : List SecurityEvent} {now : Instant}
    (h : (t.saveAccount a events now).1 = .ok b) :
    b = a ∧ a ∈ (t.saveAccount a events now).2.accounts := by
  unfold saveAccount at h ⊢
  split
  · next hany =>
    rw [if_pos hany] at h
    rw [recordSecurityEvents_accounts]
    exact ⟨(Except.ok.inj h).symm, mem_replaceFirst_self hany⟩
  · next hany =>
    rw [if_neg hany] at h
    cases h

end Tables

theorem Call.mem_accounts_of_sparesAccounts {β : Type} {c : Call β} (hc : c.SparesAccounts)
    {t : Tables} {a : Account} (ha : a ∈ t.accounts) : a ∈ (c.apply t).2.accounts := by
  rw [accounts_of_sparesAccounts hc]
  exact ha

/-- An update of a key does not delete it. -/
theorem Tables.isDeleted_of_modifyKey_editBy {t : Tables} {account id : RowId} {u : KeyUpdate}
    {now : Instant} {security : Option SecurityEvent} {change : KeyChange}
    (h : (t.modifyKey account id (Keyring.editBy u now) security now).1 = some change) :
    change.key.isDeleted = false := by
  rw [modifyKey_fst, Option.map_eq_some_iff] at h
  obtain ⟨key, hkey, hedit⟩ := h
  obtain ⟨name, scope, policies, enabled, modifiedAt, hrow⟩ := Keyring.editBy_key u now key
  rw [← hedit, hrow]
  exact (key?_some hkey).2.2

theorem Tables.owner_of_insertKey {t : Tables} {new : NewApiKey} {limit : Int} {k : ApiKey}
    (h : (t.insertKey new limit).1 = some k) : k.account = new.account := by
  unfold Tables.insertKey at h
  split at h
  · cases h
  · rw [← Option.some.inj h]
    rfl

/-! ## Operations -/

open Request

namespace Session

variable (settings : SessionSettings) (hasher : Hasher) (given : Given) {t : Tables} {a : Account}

theorem announces_registerDevice (a : Account) (fingerprint : Option Fingerprint) (t : Tables) :
    (registerDevice settings given a fingerprint).Announces t none :=
  ⟨rfl, fun _ => rfl, rfl⟩

/-- The check of an origin tells the owner of what it has flagged. -/
theorem announces_checkOrigin (ha : a ∈ t.accounts) (fingerprint : Option Fingerprint) :
    (checkOrigin given a fingerprint (registerDevice settings given a fingerprint)).Announces t
      none := by
  have hregister := announces_registerDevice settings given a fingerprint
  cases fingerprint with
  | none => exact hregister t
  | some f =>
    have hflagged := t.isFlagged_entry (t.securityTrailOf a.id) a f given.now
    rw [checkOrigin, Origin.verify_eq]
    refine ⟨rfl, fun _ => hregister t, rfl, fun _ => hregister t, ?_⟩
    show Program.Announces (Program.andThen (if Origin.isSeen (t.securityTrailOf a.id) f then _ else
      _) _) _ ((if (t.securityEntry (Origin.entry (t.securityTrailOf a.id) a f
        given.now)).isFlagged then _ else _ : Option _).map _)
    rw [hflagged]
    cases Origin.isSeen (t.securityTrailOf a.id) f with
    | true => exact hregister _
    | false => exact ⟨⟨_, rfl, rfl, rfl, ha⟩, rfl, hregister _⟩

end Session

namespace Service

variable (s : Service) (given : Given) (t : Tables)

theorem announces_signUp (username password : String) :
    (s.request given (.signUp username password)).Announces t none := by
  refine announces_accept_bind fun _ => announces_accept_bind fun _ => ?_
  refine announces_ofCall_bind fun taken _ => ?_
  cases taken with
  | true => exact announces_throw _
  | false =>
    refine announces_liftExcept_bind fun digest => ?_
    refine announces_ofCall_bind fun inserted hinserted => ?_
    refine announces_orFail_bind (fun hnone => hnone ▸ rfl) ?_
    rintro a rfl
    have hmem := Tables.mem_of_insertAccount (Except.ok.inj hinserted)
    exact announces_send_bind ⟨rfl, rfl, hmem⟩ (announces_pure _)

theorem announces_signIn (username password : String) (fingerprint : Option Fingerprint) :
    (s.request given (.signIn username password fingerprint)).Announces t none := by
  show Program.Announces (Session.signIn _ _ _ _ _ _).run t none
  rw [Session.run_signIn]
  refine ⟨rfl, fun _ => rfl, ?_⟩
  show (Session.signInTo _ _ _ _ _ (t.accountNamed? username)).Announces t none
  cases hfound : t.accountNamed? username with
  | none =>
    have hrefuse : ∃ e, (Session.refuseUnknown s.passwords given password).run =
        .done (.error e) := Session.run_refuseUnknown
    obtain ⟨e, hrefused⟩ := hrefuse
    show Program.Announces (Session.refuseUnknown _ _ _).run t none
    rw [hrefused]
    rfl
  | some a =>
    dsimp only [Session.signInTo]
    split
    · rfl
    · rfl
    · exact Session.announces_checkOrigin s.session given (List.mem_of_find?_eq_some hfound) _

theorem announces_forgotPassword (username : String) :
    (s.request given (.forgotPassword username)).Announces t none := by
  refine announces_findAccount_bind fun a ha => ?_
  refine announces_ofCall_bind fun saved hsaved => ?_
  obtain ⟨rfl, hmem⟩ := Tables.mem_of_saveAccount hsaved
  exact announces_send_bind ⟨rfl, rfl, hmem⟩ (announces_pure _)

theorem announces_resetPassword (password : String) (token : Uuid) :
    (s.request given (.resetPassword password token)).Announces t none := by
  refine announces_ofCall_bind fun found hfound => ?_
  refine announces_orFail_bind (fun _ => rfl) ?_
  rintro a rfl
  dsimp only
  split
  · exact announces_throw _
  · refine announces_accept_bind fun _ => announces_liftExcept_bind fun digest => ?_
    refine announces_ofCall_bind fun saved hsaved => ?_
    obtain ⟨rfl, hmem⟩ := Tables.mem_of_saveAccount hsaved
    exact announces_send_bind ⟨rfl, rfl, hmem⟩ (announces_pure _)

theorem announces_updateAccount (username : String) (update : ProfileUpdate) :
    (s.request given (.updateAccount username update)).Announces t none := by
  refine announces_findAccount_bind fun a ha => ?_
  dsimp only
  split
  · exact announces_pure _
  · next hevents =>
    have hreset : .passwordReset ∉ (update.apply a).events := ProfileUpdate.isEdit_of_mem_apply
    have hsome : (update.apply a).events ≠ [] := fun hnil => hevents (hnil ▸ rfl)
    exact announces_ofCall fun saved _ => (if_neg hreset).trans (if_neg fun h => hsome h.1)

theorem announces_createKey (username : String) (request : KeyRequest) :
    (s.request given (.createKey username request)).Announces t none := by
  refine announces_accept_bind fun _ => announces_accept_bind fun _ => ?_
  refine announces_findAccount_bind fun a ha => announces_liftExcept_bind fun digest => ?_
  refine announces_ofCall_bind fun inserted hinserted => ?_
  refine announces_orFail_bind (fun hnone => hnone ▸ rfl) ?_
  rintro k rfl
  have howner := Tables.owner_of_insertKey (Except.ok.inj hinserted)
  refine announces_send_bind ⟨rfl, howner.symm, ?_⟩ (announces_pure _)
  exact Call.mem_accounts_of_sparesAccounts (by trivial) ha

theorem announces_updateKey (username : String) (id : RowId) (u : KeyUpdate) :
    (s.request given (.updateKey username id u)).Announces t none := by
  refine announces_accept_bind fun _ => announces_findAccount_bind fun a ha => ?_
  refine announces_ofCall_bind fun modified hmodified => ?_
  refine announces_orFail_bind (fun hnone => hnone ▸ rfl) ?_
  rintro change rfl
  have hlive := Tables.isDeleted_of_modifyKey_editBy (Except.ok.inj hmodified)
  have hquiet : ¬(change.events ≠ [] ∧ change.key.isDeleted = true) :=
    fun h => Bool.eq_false_iff.1 hlive h.2
  show (pure change.key : Request ApiKey).Announces _ (Option.map _ (if _ then _ else _))
  rw [if_neg hquiet]
  exact announces_pure _

theorem announces_deleteKey (username : String) (id : RowId) :
    (s.request given (.deleteKey username id)).Announces t none := by
  refine announces_findAccount_bind fun a ha => ?_
  refine announces_ofCall_bind fun modified hmodified => ?_
  have hanswer := (t.modifyKey_fst ..).symm.trans (Except.ok.inj hmodified)
  refine announces_orFail_bind (fun hnone => hnone ▸ rfl) ?_
  rintro change rfl
  obtain ⟨key, hkey, rfl⟩ := Option.map_eq_some_iff.1 hanswer
  refine announces_send ⟨rfl, (Tables.key?_account hkey).symm, ?_⟩
  exact Call.mem_accounts_of_sparesAccounts (by trivial) ha

/-- An operation sends a notice right after each change that is to be announced, and no other. -/
theorem announces_request {α : Type} (op : Operation α) :
    (s.request given op).Announces t none := by
  have hreads (hop : op.Reads) : (s.request given op).Announces t none :=
    Program.announces_of_within (Program.Within.mono (s.within_of_reads given hop)
      Call.IsLook.occasion? fun h => h)
  have hsilent (hcalls : ∀ {β : Type} {c : Call β}, op.Writes c → ∀ t, c.occasion? t = none)
      (hsends : ∀ n, ¬op.MaySend n) : (s.request given op).Announces t none := by
    refine Program.announces_of_within (Program.Within.mono (s.within_request given op) ?_ ?_)
    · intro β c hc
      exact hc.elim Call.IsLook.occasion? hcalls
    · intro n hn
      exact hsends n hn
  cases op with
  | signUp username password => exact s.announces_signUp ..
  | signIn username password fingerprint => exact s.announces_signIn ..
  | forgotPassword username => exact s.announces_forgotPassword ..
  | resetPassword password token => exact s.announces_resetPassword ..
  | updateAccount username update => exact s.announces_updateAccount ..
  | createKey username request => exact s.announces_createKey ..
  | updateKey username id u => exact s.announces_updateKey ..
  | deleteKey username id => exact s.announces_deleteKey ..
  | revokeDevice username token =>
    refine hsilent ?_ fun _ h => h
    intro β c hc t
    cases c <;> first | rfl | exact hc.elim
  | revokeAllDevices username =>
    refine hsilent ?_ fun _ h => h
    intro β c hc t
    cases c <;> first | rfl | exact hc.elim
  | _ => exact hreads trivial

end Service

/-! ## Histories -/

/-- What is left of a history amid troubles: the answers of its operations, the tables with what was
to be announced, and the notices that were sent. -/
structure Chronicle where
  log : List Answered
  trial : Trial
  sent : List Notice

namespace Service

variable (s : Service)

/-- A history amid troubles. -/
def runAmid (τ : Troubles) : List Asked → Trial → Chronicle
  | [], trial => ⟨[], trial, []⟩
  | x :: h, trial =>
    let first := Program.run (.amid τ) (s.request x.given x.op).run trial
    let rest := runAmid τ h first.state
    ⟨⟨x.given, x.op, first.value⟩ :: rest.log, rest.trial, first.sent ++ rest.sent⟩

theorem runAmid_agree (τ τ' : Troubles) (hτ : τ.fault? = τ'.fault?) (h : List Asked)
    {trial trial' : Trial} (hagree : trial.Agrees trial') :
    (s.runAmid τ h trial).log = (s.runAmid τ' h trial').log ∧
      (s.runAmid τ h trial).trial.Agrees (s.runAmid τ' h trial').trial := by
  induction h generalizing trial trial' with
  | nil => exact ⟨rfl, hagree⟩
  | cons x h ih =>
    obtain ⟨hvalue, hstate⟩ :=
      (s.announces_request x.given trial.tables x.op).agree hτ hagree rfl
    obtain ⟨hlog, hend⟩ := ih hstate
    refine ⟨?_, hend⟩
    simp only [runAmid]
    rw [hvalue, hlog]

theorem runAmid_told (τ : Troubles) (h : List Asked) (trial : Trial) :
    ∃ occasions, (s.runAmid τ h trial).trial.occasions = trial.occasions ++ occasions ∧
      List.Forall₂ Notice.Tells (s.runAmid τ h trial).sent occasions := by
  induction h generalizing trial with
  | nil => exact ⟨[], (List.append_nil _).symm, .nil⟩
  | cons x h ih =>
    obtain ⟨first, hfirst, htold⟩ :=
      (s.announces_request x.given trial.tables x.op).told τ rfl
    obtain ⟨rest, hrest, htoldRest⟩ :=
      ih (Program.run (.amid τ) (s.request x.given x.op).run trial).state
    refine ⟨first ++ rest, ?_, List.rel_append htold htoldRest⟩
    exact hrest.trans (by rw [hfirst, List.append_assoc])

/-- Where no call fails, a history runs as it does on tables in memory. -/
theorem runAmid_of_no_fault {τ : Troubles} (hτ : ∀ n, τ.fault? n = none) (h : List Asked)
    (trial : Trial) :
    (s.runAmid τ h trial).log = s.transcript trial.tables h ∧
      (s.runAmid τ h trial).trial.tables = s.after trial.tables h ∧
      (s.runAmid τ h trial).sent = s.notices trial.tables h := by
  induction h generalizing trial with
  | nil => exact ⟨rfl, rfl, rfl⟩
  | cons x h ih =>
    obtain ⟨hvalue, htables, hsent⟩ :=
      (s.announces_request x.given trial.tables x.op).run_of_no_fault hτ rfl
    obtain ⟨hlog, hend, hrest⟩ :=
      ih (Program.run (.amid τ) (s.request x.given x.op).run trial).state
    rw [htables] at hlog hend hrest
    refine ⟨?_, hend, ?_⟩
    · simp only [runAmid]
      rw [hvalue, hlog]
      rfl
    · simp only [runAmid]
      rw [hsent, hrest]
      rfl

/-- Whatever fails and whatever gets lost, the notices of a history are one for each change that was
to be announced, in order and to the owner; and what is answered and stored is the same as if all of
them had arrived. -/
theorem announces_changes (τ : Troubles) (t : Tables) (h : List Asked) :
    (s.runAmid τ h { tables := t }).log = (s.runAmid τ.allArrive h { tables := t }).log ∧
      (s.runAmid τ h { tables := t }).trial.tables =
        (s.runAmid τ.allArrive h { tables := t }).trial.tables ∧
      List.Forall₂ Notice.Tells (s.runAmid τ h { tables := t }).sent
        (s.runAmid τ h { tables := t }).trial.occasions := by
  have hsame : Trial.Agrees { tables := t } { tables := t } := ⟨rfl, rfl, rfl⟩
  obtain ⟨hlog, hagree⟩ := s.runAmid_agree τ τ.allArrive rfl h hsame
  obtain ⟨occasions, hoccasions, htold⟩ := s.runAmid_told τ h { tables := t }
  rw [List.nil_append] at hoccasions
  exact ⟨hlog, hagree.tables, hoccasions ▸ htold⟩

end Service

end Latchkey
