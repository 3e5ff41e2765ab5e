import Latchkey.Proofs.Footprint

/-!
# Requests that fail

A request that fails has changed nothing and told nobody. Until the first call that writes it has
only looked; a call that writes either refuses and changes nothing, or nothing that comes after it
fails. This holds of any tables, also of such as never come about, and with any hasher, also with
one that fails.
-/

namespace Latchkey

namespace Request

variable {α β : Type}

/-- If the request fails on these tables, then it leaves them as they are and sends no notice. -/
def AllOrNothing (r : Request α) (t : Tables) : Prop :=
  ∀ e, (r.exec t).1 = .error e → (r.exec t).2 = t ∧ r.sent t = []

/-- The request does not fail, whatever the tables are. -/
def Succeeds (r : Request α) : Prop :=
  ∀ t, ∃ a, (r.exec t).1 = .ok a

variable {r : Request α} {f : α → Request β} {t : Tables}

/-! ## Requests that only look -/

/-- The request makes no call but looks and sends no notice. -/
abbrev OnlyLooks (r : Request α) : Prop :=
  r.Within Call.IsLook fun _ => False

theorem OnlyLooks.unchanged (h : r.OnlyLooks) (t : Tables) :
    (r.exec t).2 = t ∧ r.sent t = [] := by
  constructor
  · refine exec_of_makes (I := (· = t)) ?_ (Program.Within.makes h) rfl
    intro β c t' hlook ht'
    exact (hlook.looks t').trans ht'
  · exact List.eq_nil_iff_forall_not_mem.2 fun n hn => Program.Within.of_mem_sent h hn

theorem OnlyLooks.allOrNothing (h : r.OnlyLooks) (t : Tables) : r.AllOrNothing t :=
  fun _ _ => h.unchanged t

/-! ## Part by part -/

theorem Succeeds.allOrNothing (h : r.Succeeds) (t : Tables) : r.AllOrNothing t := by
  intro e he
  obtain ⟨a, ha⟩ := h t
  rw [ha] at he
  cases he

/-- A part may be followed by one that does not fail, or else must have left all as it was. -/
theorem allOrNothing_bind (hr : r.AllOrNothing t)
    (hf : ∀ a, (r.exec t).1 = .ok a →
      (f a).Succeeds ∨ ((r.exec t).2 = t ∧ r.sent t = []) ∧ (f a).AllOrNothing t) :
    (r >>= f).AllOrNothing t := by
  intro e he
  rw [exec_bind] at he ⊢
  rw [sent_bind]
  rcases hexec : r.exec t with ⟨answer, t'⟩
  rw [hexec] at he
  cases answer with
  | error e' =>
    have hfail := hr e' (congrArg Prod.fst hexec)
    rw [hexec] at hfail
    exact hfail
  | ok a =>
    have hrest := hf a (congrArg Prod.fst hexec)
    rw [hexec] at hrest
    dsimp only at he hrest ⊢
    rcases hrest with hsucceeds | ⟨⟨rfl, hsent⟩, hnext⟩
    · obtain ⟨b, hb⟩ := hsucceeds t'
      rw [hb] at he
      cases he
    · -- Both parts have seen the same tables, so that the second one speaks for the whole.
      obtain ⟨hafter, hnone⟩ := hnext e he
      exact ⟨hafter, by rw [hsent, hnone, List.append_nil]⟩

theorem allOrNothing_looks_bind (hr : r.OnlyLooks) (hf : ∀ a, (f a).AllOrNothing t) :
    (r >>= f).AllOrNothing t :=
  allOrNothing_bind (hr.allOrNothing t) fun a _ => .inr ⟨hr.unchanged t, hf a⟩

/-- A call that fails changes nothing. -/
theorem allOrNothing_ofCall (c : Call α) (t : Tables) : (Request.ofCall c).AllOrNothing t := by
  intro e he
  refine ⟨?_, rfl⟩
  rw [exec_ofCall] at he ⊢
  cases c with
  | saveAccount a events now =>
    simp only [Call.apply, Tables.saveAccount] at he ⊢
    by_cases hthere : t.accounts.any (·.id = a.id) = true
    · rw [if_pos hthere] at he
      cases he
    · rw [if_neg hthere]
  | _ => cases he

/-- A call after which nothing fails. -/
theorem allOrNothing_ofCall_bind {c : Call α} (hf : ∀ a, (f a).Succeeds) :
    (Request.ofCall c >>= f).AllOrNothing t :=
  allOrNothing_bind (allOrNothing_ofCall c t) fun a _ => .inl (hf a)

/-- A call that writes unless it answers with nothing, after which nothing fails. -/
theorem allOrNothing_orFail {c : Call (Option α)} {e : Failure}
    (hnone : (c.apply t).1 = .ok none → (c.apply t).2 = t) (hf : ∀ a, (f a).Succeeds) :
    (do let a ← Request.orFail (← Request.ofCall c) e; f a).AllOrNothing t := by
  refine allOrNothing_bind (allOrNothing_ofCall c t) ?_
  intro found hfound
  cases found with
  | some a => exact .inl (hf a)
  | none =>
    refine .inr ⟨⟨hnone ?_, rfl⟩, fun _ _ => ⟨rfl, rfl⟩⟩
    rw [exec_ofCall] at hfound
    cases hanswer : (c.apply t).1 with
    | error fault =>
      rw [hanswer] at hfound
      cases hfound
    | ok found =>
      rw [hanswer] at hfound
      cases hfound
      rfl

theorem succeeds_send_bind (n : Notice) {g : Unit → Request β} (hg : (g ()).Succeeds) :
    (Request.send n >>= g).Succeeds := hg

theorem succeeds_pure (a : α) : (pure a : Request α).Succeeds :=
  fun _ => ⟨a, rfl⟩

theorem succeeds_send (n : Notice) : (Request.send n).Succeeds :=
  fun _ => ⟨(), rfl⟩

end Request

/-! ## Calls that refuse -/

namespace Tables

variable {t : Tables}

theorem insertAccount_of_none {a : NewAccount} (h : (t.insertAccount a).1 = none) :
    (t.insertAccount a).2 = t := by
  unfold insertAccount at h ⊢
  split
  · rfl
  · next hfree =>
    rw [if_neg hfree] at h
    cases h

theorem insertKey_of_none {k : NewApiKey} {limit : Int} (h : (t.insertKey k limit).1 = none) :
    (t.insertKey k limit).2 = t := by
  unfold insertKey at h ⊢
  split
  · rfl
  · next hroom =>
    rw [if_neg hroom] at h
    cases h

theorem modifyKey_of_fst_eq_none {account id : RowId} {edit : ApiKey → KeyChange}
    {security : Option SecurityEvent} {now : Instant}
    (h : (t.modifyKey account id edit security now).1 = none) :
    (t.modifyKey account id edit security now).2 = t := by
  rw [modifyKey_fst, Option.map_eq_none_iff] at h
  simp only [modifyKey, h]

/-- Where an account does not have the device, none is removed. -/
theorem deleteDevice_of_false {account : RowId} {token : Uuid}
    (h : (t.deleteDevice account token).1 = false) : (t.deleteDevice account token).2 = t := by
  simp only [deleteDevice, List.any_eq_false] at h ⊢
  have hkept : t.devices.filter (fun d => !(d.account = account && d.token = token)) =
      t.devices := by
    refine List.filter_eq_self.2 ?_
    intro d hd
    rw [Bool.not_eq_true', ← Bool.not_eq_true]
    exact h d hd
  rw [hkept]

end Tables

open Request

/-! ## Operations -/

namespace Session

variable {settings : SessionSettings} {hasher : Hasher} {given : Given} {t : Tables}

theorem onlyLooks_findAccount (username : String) : (findAccount username).OnlyLooks :=
  within_findAccount id username

theorem allOrNothing_signUp (username password : String) :
    (signUp settings hasher given username password).AllOrNothing t := by
  refine allOrNothing_looks_bind (within_accept _) ?_
  intro _
  refine allOrNothing_looks_bind (within_accept _) ?_
  intro _
  refine allOrNothing_looks_bind (within_ofCall trivial) ?_
  intro taken
  cases taken with
  | true => exact OnlyLooks.allOrNothing (within_throw _) t
  | false =>
    refine allOrNothing_looks_bind (within_liftExcept _) ?_
    intro digest
    refine allOrNothing_orFail ?_ fun account => succeeds_send_bind _ (succeeds_pure _)
    intro hnone
    exact Tables.insertAccount_of_none (Except.ok.inj hnone)

/-- A sign-in fails only before the origin is checked, and what comes then cannot fail. -/
theorem allOrNothing_signIn (username password : String) (fingerprint : Option Fingerprint) :
    (signIn settings hasher given username password fingerprint).AllOrNothing t := by
  intro e he
  rcases fits_or_run_signIn_refused settings hasher given username password fingerprint t with
    ⟨a, hfound, hverify⟩ | ⟨e', hrun⟩
  · rw [exec_signIn_accepted hfound hverify] at he
    cases he
  · rw [exec, sent, hrun]
    exact ⟨rfl, rfl⟩

theorem allOrNothing_forgotPassword (username : String) :
    (forgotPassword given username).AllOrNothing t := by
  refine allOrNothing_looks_bind (onlyLooks_findAccount username) ?_
  intro account
  exact allOrNothing_ofCall_bind fun _ => succeeds_send_bind _ (succeeds_pure _)

theorem allOrNothing_resetPassword (password : String) (token : Uuid) :
    (resetPassword settings hasher given password token).AllOrNothing t := by
  refine allOrNothing_looks_bind (within_ofCall trivial) ?_
  intro found
  refine allOrNothing_looks_bind (within_orFail _ _) ?_
  intro account
  split
  · exact OnlyLooks.allOrNothing (within_throw _) t
  · refine allOrNothing_looks_bind (within_accept _) ?_
    intro _
    refine allOrNothing_looks_bind (within_liftExcept _) ?_
    intro digest
    exact allOrNothing_ofCall_bind fun _ => succeeds_send_bind _ (succeeds_pure _)

theorem allOrNothing_revokeDevice (username : String) (token : Uuid) :
    (revokeDevice username token).AllOrNothing t := by
  refine allOrNothing_looks_bind (onlyLooks_findAccount username) ?_
  intro account
  refine allOrNothing_bind (allOrNothing_ofCall _ t) ?_
  intro removed hremoved
  cases removed with
  | true => exact .inl (succeeds_pure _)
  | false =>
    have hfalse : (t.deleteDevice account.id token).1 = false := Except.ok.inj hremoved
    exact .inr ⟨⟨Tables.deleteDevice_of_false hfalse, rfl⟩, fun _ _ => ⟨rfl, rfl⟩⟩

theorem allOrNothing_revokeAllDevices (username : String) :
    (revokeAllDevices username).AllOrNothing t :=
  allOrNothing_looks_bind (onlyLooks_findAccount username) fun _ => allOrNothing_ofCall _ t

theorem allOrNothing_updateAccount (username : String) (update : ProfileUpdate) :
    (updateAccount given username update).AllOrNothing t := by
  refine allOrNothing_looks_bind (onlyLooks_findAccount username) ?_
  intro account
  dsimp only
  split
  · exact Succeeds.allOrNothing (succeeds_pure _) t
  · exact allOrNothing_ofCall _ t

end Session

namespace Keyring

variable {limit : Int} {hasher : Hasher} {given : Given} {t : Tables}

theorem allOrNothing_create (username : String) (request : KeyRequest) :
    (create limit hasher given username request).AllOrNothing t := by
  refine allOrNothing_looks_bind (within_accept _) ?_
  intro _
  refine allOrNothing_looks_bind (within_accept _) ?_
  intro _
  refine allOrNothing_looks_bind (Session.onlyLooks_findAccount username) ?_
  intro account
  refine allOrNothing_looks_bind (within_liftExcept _) ?_
  intro digest
  refine allOrNothing_orFail ?_ fun key => succeeds_send_bind _ (succeeds_pure _)
  intro hnone
  exact Tables.insertKey_of_none (Except.ok.inj hnone)

theorem allOrNothing_update (username : String) (id : RowId) (u : KeyUpdate) :
    (update given username id u).AllOrNothing t := by
  refine allOrNothing_looks_bind (within_accept _) ?_
  intro _
  refine allOrNothing_looks_bind (Session.onlyLooks_findAccount username) ?_
  intro account
  refine allOrNothing_orFail ?_ fun change => succeeds_pure _
  intro hnone
  exact Tables.modifyKey_of_fst_eq_none (Except.ok.inj hnone)

theorem allOrNothing_delete (username : String) (id : RowId) :
    (delete given username id).AllOrNothing t := by
  refine allOrNothing_looks_bind (Session.onlyLooks_findAccount username) ?_
  intro account
  refine allOrNothing_orFail ?_ fun change => succeeds_send _
  intro hnone
  exact Tables.modifyKey_of_fst_eq_none (Except.ok.inj hnone)

end Keyring

namespace Service

variable (s : Service)

theorem allOrNothing_request (given : Given) {α : Type} (op : Operation α) (t : Tables) :
    (s.request given op).AllOrNothing t := by
  have hreads (hop : op.Reads) : (s.request given op).AllOrNothing t :=
    OnlyLooks.allOrNothing (s.within_of_reads given hop) t
  cases op with
  | signUp username password => exact Session.allOrNothing_signUp username password
  | signIn username password fingerprint =>
    exact Session.allOrNothing_signIn username password fingerprint
  | forgotPassword username => exact Session.allOrNothing_forgotPassword username
  | resetPassword password token => exact Session.allOrNothing_resetPassword password token
  | revokeDevice username token => exact Session.allOrNothing_revokeDevice username token
  | revokeAllDevices username => exact Session.allOrNothing_revokeAllDevices username
  | updateAccount username update => exact Session.allOrNothing_updateAccount username update
  | createKey username request => exact Keyring.allOrNothing_create username request
  | updateKey username id u => exact Keyring.allOrNothing_update username id u
  | deleteKey username id => exact Keyring.allOrNothing_delete username id
  | _ => exact hreads trivial

/-- An operation that fails leaves all tables and the count of row numbers as they were, and no
notice is sent: on any tables, with any hashers and for any arguments. -/
theorem unchanged_of_perform_error (x : Asked) (t : Tables) {e : Failure}
    (h : (s.perform x t).1 = .error e) : (s.perform x t).2 = t ∧ s.sent x t = [] :=
  s.allOrNothing_request x.given x.op t e h

end Service

/-- A hasher that makes digests and cannot check any. -/
def Hasher.halting : Hasher where
  digest _ secret := .ok secret
  verify _ _ := .error (.internal "no memory")

/-- Two accounts of one number and a device of neither, which never come about. -/
def strayTables : Tables where
  lastId := 1
  accounts := [
    (⟨"ada@example.com", "no digest", ["admin"], ⟨0, 0⟩⟩ : NewAccount).row 1,
    (⟨"bob@example.com", "no digest", ["admin"], ⟨0, 0⟩⟩ : NewAccount).row 1]
  devices := [⟨⟨7⟩, 5, ⟨0, 0⟩, ⟨9, 0⟩, none⟩]

theorem unchanged_of_perform_error_strayTables :
    let s := { Service.plain with passwords := .halting }
    let signIn : Asked := ⟨.sample 1, .signIn "bob@example.com" "pass-word"
      (some ⟨"192.0.2.1", ⟨none, none, none⟩, ⟨"Linux", none, none, "Firefox", none, none⟩⟩)⟩
    let revoke : Asked := ⟨.sample 2, .revokeDevice "ada@example.com" ⟨7⟩⟩
    ((s.perform signIn strayTables).1 = .error (.internal "no memory") ∧
      (s.perform signIn strayTables).2 = strayTables ∧ s.sent signIn strayTables = []) ∧
    (∃ e, (s.perform revoke strayTables).1 = .error e) ∧
      (s.perform revoke strayTables).2 = strayTables ∧ s.sent revoke strayTables = [] := by
  intro s signIn revoke
  have hsignIn : (s.perform signIn strayTables).1 = .error (.internal "no memory") := by rfl
  have hrevoke : (s.perform revoke strayTables).1 =
      .error (.notFound .device (⟨7⟩ : Uuid).toString) := by rfl
  exact ⟨⟨hsignIn, s.unchanged_of_perform_error signIn strayTables hsignIn⟩, ⟨_, hrevoke⟩,
    s.unchanged_of_perform_error revoke strayTables hrevoke⟩

end Latchkey
