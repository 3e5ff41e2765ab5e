import Latchkey.Proofs.AccountRequests
import Latchkey.Proofs.CredentialEvents
import Latchkey.Proofs.KeyAuthentication
import Latchkey.Proofs.SignIn

/-!
# Passwords and reset tokens

The row of an account recalls its credentials: its digest is of the password that was set last, and
it holds the token that was issued last unless that is spent. So a sign-in is accepted with exactly
this password, and a reset with exactly the tokens that are pending, each of them once.
-/

namespace Latchkey

open Session

/-! ## What an operation does to accounts -/

/-- One account is overwritten, under its number and its name. -/
structure Tables.Replaces (t t' : Tables) (a b : Account) : Prop where
  mem : a ∈ t.accounts
  username : b.username = a.username
  accounts : t'.accounts = t.accounts.map fun c => if c.id = a.id then b else c

namespace Tables

variable {t t' : Tables} {a b c : Account}

theorem Replaces.mem_iff (h : t.AccountsInOrder) (hreplaces : t.Replaces t' a b) :
    c ∈ t'.accounts ↔ c = b ∨ c ∈ t.accounts ∧ c.username ≠ a.username := by
  have hid (d : Account) (hd : d ∈ t.accounts) : d.id = a.id ↔ d.username = a.username :=
    h.id_eq_iff ⟨a, hreplaces.mem, rfl, rfl⟩ hd
  rw [hreplaces.accounts, List.mem_map]
  constructor
  · rintro ⟨d, hd, rfl⟩
    split
    · exact .inl rfl
    · next hne => exact .inr ⟨hd, fun hname => hne ((hid d hd).2 hname)⟩
  · rintro (rfl | ⟨hc, hne⟩)
    · exact ⟨a, hreplaces.mem, if_pos rfl⟩
    · exact ⟨c, hc, if_neg fun hcid => hne ((hid c hc).1 hcid)⟩

/-- The other accounts are still there. -/
theorem Replaces.eq_or_mem (h : t.AccountsInOrder) (hreplaces : t.Replaces t' a b)
    (hc : c ∈ t.accounts) : c = a ∨ c ∈ t'.accounts ∧ c.username ≠ a.username := by
  by_cases hname : c.username = a.username
  · exact .inl (List.inj_on_of_nodup_map h.usernames hc hreplaces.mem hname)
  · exact .inr ⟨(hreplaces.mem_iff h).2 (.inr ⟨hc, hname⟩), hname⟩

/-- No name is lost. -/
theorem Replaces.username_ne (h : t.AccountsInOrder) (hreplaces : t.Replaces t' a b)
    {username : String} (hne : ∀ c ∈ t'.accounts, c.username ≠ username) :
    ∀ c ∈ t.accounts, c.username ≠ username := by
  intro c hc
  rcases hreplaces.eq_or_mem h hc with rfl | ⟨hc, -⟩
  · exact hreplaces.username ▸ hne b ((hreplaces.mem_iff h).2 (.inl rfl))
  · exact hne c hc

theorem replaces_saveAccount (h : t.AccountsInOrder) (ha : a ∈ t.accounts) (hid : b.id = a.id)
    (hname : b.username = a.username) (events : List SecurityEvent) (now : Instant) :
    t.Replaces (t.saveAccount b events now).2 a b where
  mem := ha
  username := hname
  accounts := by
    rw [(accounts_saveAccount h ⟨a, ha, hid.symm, hname.symm⟩ events now).2, hid]

/-- The step that an operation takes accounts, and what it tells of their credentials. -/
inductive AccountStep (t t' : Tables) (hasher : Hasher) (given : Given) :
    Option CredentialEvent → Prop where
  | quiet (accounts : t'.accounts = t.accounts) : AccountStep t t' hasher given none
  | edited (a b : Account) (replaces : t.Replaces t' a b)
      (digest : b.passwordDigest = a.passwordDigest) (token : b.resetToken = a.resetToken)
      (expiry : b.resetExpiresAt = a.resetExpiresAt) : AccountStep t t' hasher given none
  | joined (a : Account) (password : String) (free : t.isTaken a.username = false)
      (digest : hasher.digest given.salt password = .ok a.passwordDigest)
      (token : a.resetToken = none) (expiry : a.resetExpiresAt = none)
      (accounts : t'.accounts = t.accounts ++ [a]) :
      AccountStep t t' hasher given (some (.joined a.username password))
  | issued (a : Account)
      (replaces : t.Replaces t' a (a.withReset given.uuid (given.now.addHours resetHours))) :
      AccountStep t t' hasher given (some (.issued a.username given.uuid given.now))
  | reset (a : Account) (password : String) (token : Uuid) (digest : String)
      (waiting : a.resetToken = some token)
      (made : hasher.digest given.salt password = .ok digest)
      (replaces : t.Replaces t' a { a.withoutReset with passwordDigest := digest }) :
      AccountStep t t' hasher given (some (.reset a.username password token))

end Tables

namespace ProfileUpdate

/-- An update of the profile leaves the credentials alone. -/
theorem apply_credentials (u : ProfileUpdate) (a : Account) :
    (u.apply a).account.passwordDigest = a.passwordDigest ∧
      (u.apply a).account.resetToken = a.resetToken ∧
      (u.apply a).account.resetExpiresAt = a.resetExpiresAt := by
  simp only [apply, editEmailSubscription, editBillingAlert, editFullName]
  split <;> split <;> split <;> exact ⟨rfl, rfl, rfl⟩

end ProfileUpdate

namespace Service

variable (s : Service) {t : Tables}

/-- Every operation takes accounts one step, and tells of it. -/
theorem accountStep_perform (h : t.AccountsInOrder) (x : Asked) :
    t.AccountStep (s.perform x t).2 s.passwords x.given (s.answered x t).credential? := by
  obtain ⟨given, op⟩ := x
  have hquiet (hop : ¬op.WritesAccounts) (hnone : (s.answered ⟨given, op⟩ t).credential? = none) :
      t.AccountStep (s.perform ⟨given, op⟩ t).2 s.passwords given
        (s.answered ⟨given, op⟩ t).credential? := by
    rw [hnone]
    exact .quiet (s.accounts_exec given hop t)
  unfold answered at hquiet ⊢
  cases op with
  | signUp username password =>
    have hexec : s.perform ⟨given, .signUp username password⟩ t = _ :=
      exec_signUp s.session s.passwords given username password t
    rw [hexec]
    cases checkUsername username with
    | error e => exact .quiet rfl
    | ok _ =>
      cases checkPassword s.session.minPassword password with
      | error e => exact .quiet rfl
      | ok _ =>
        cases hfree : t.isTaken username with
        | true => exact .quiet rfl
        | false =>
          cases hdigest : s.passwords.digest given.salt password with
          | error e => exact .quiet rfl
          | ok digest =>
            have hinsert := Tables.insertAccount_of_free
              (a := newAccount s.session given username digest) hfree
            exact .joined _ password hfree hdigest rfl rfl hinsert.2
  | forgotPassword username =>
    have hexec : s.perform ⟨given, .forgotPassword username⟩ t = _ :=
      exec_forgotPassword given username t
    rw [hexec]
    cases hfound : t.accountNamed? username with
    | none => exact .quiet rfl
    | some a =>
      obtain ⟨ha, rfl⟩ := Tables.accountNamed?_some hfound
      exact .issued a (Tables.replaces_saveAccount
        (b := a.withReset given.uuid (given.now.addHours resetHours)) h ha rfl rfl [] given.now)
  | resetPassword password token =>
    have hexec : s.perform ⟨given, .resetPassword password token⟩ t = _ :=
      exec_resetPassword s.session s.passwords given password token t
    rw [hexec]
    cases hfound : t.accountResetBy? token with
    | none => exact .quiet rfl
    | some a =>
      obtain ⟨ha, htoken⟩ := Tables.accountResetBy?_some hfound
      dsimp only
      cases isResetExpired a given.now with
      | true => exact .quiet rfl
      | false =>
        cases checkPassword s.session.minPassword password with
        | error e => exact .quiet rfl
        | ok _ =>
          cases hdigest : s.passwords.digest given.salt password with
          | error e => exact .quiet rfl
          | ok digest =>
            exact .reset a password token digest htoken hdigest (Tables.replaces_saveAccount
              (b := { a.withoutReset with passwordDigest := digest }) h ha rfl rfl
              [.passwordReset] given.now)
  | updateAccount username update =>
    have hexec : s.perform ⟨given, .updateAccount username update⟩ t = _ :=
      exec_updateAccount given username update t
    rw [hexec]
    cases hfound : t.accountNamed? username with
    | none => exact .quiet rfl
    | some a =>
      have ha : a ∈ t.accounts := List.mem_of_find?_eq_some hfound
      dsimp only
      cases (update.apply a).events.isEmpty with
      | true => exact .quiet rfl
      | false =>
        obtain ⟨hdigest, htoken, hexpiry⟩ := update.apply_credentials a
        exact .edited a _ (Tables.replaces_saveAccount h ha (update.apply_id a)
          (update.apply_username a) _ given.now) hdigest htoken hexpiry
  | _ => exact hquiet (fun h => h) rfl

end Service

/-! ## What rows recall -/

/-- The rows of accounts recall what was told of their credentials: the digest is of the current
password, and the token is the pending one. -/
structure Tables.Recalls (t : Tables) (hasher : Hasher) (drawn : List Uuid)
    (es : List CredentialEvent) : Prop where
  inOrder : t.AccountsInOrder
  tokens : TokensInOrder drawn es
  unknown : ∀ username, (∀ a ∈ t.accounts, a.username ≠ username) →
    currentPassword? es username = none
  password : ∀ a ∈ t.accounts, ∃ password salt,
    currentPassword? es a.username = some password ∧
      hasher.digest salt password = .ok a.passwordDigest
  pending : ∀ a ∈ t.accounts, ∀ token, a.resetToken = some token → ∃ time,
    IsPending es a.username token time ∧ a.resetExpiresAt = some (time.addHours resetHours)
  held : ∀ username token time, IsPending es username token time → ∃ a ∈ t.accounts,
    a.username = username ∧ a.resetToken = some token ∧
      a.resetExpiresAt = some (time.addHours resetHours)

namespace Tables.Recalls

variable {t t' : Tables} {hasher : Hasher} {given : Given} {drawn : List Uuid}
variable {es : List CredentialEvent} {a b : Account}

theorem empty : ({} : Tables).Recalls hasher [] [] where
  inOrder := accountsInOrder_empty
  tokens := .empty
  unknown := fun _ _ => rfl
  password := fun _ ha => nomatch ha
  pending := fun _ ha => nomatch ha
  held := by
    rintro _ _ _ ⟨before, after, h, -⟩
    simp at h

/-- Where accounts are left alone and nothing is told, all is as it was. -/
theorem of_quiet (h : t.Recalls hasher drawn es) (horder : t'.AccountsInOrder)
    (haccounts : t'.accounts = t.accounts) (uuid : Uuid) :
    t'.Recalls hasher (drawn ++ [uuid]) es where
  inOrder := horder
  tokens := h.tokens.draw uuid
  unknown := haccounts ▸ h.unknown
  password := haccounts ▸ h.password
  pending := haccounts ▸ h.pending
  held := haccounts ▸ h.held

/-- An edit that leaves the credentials alone tells nothing. -/
theorem of_edit (h : t.Recalls hasher drawn es) (horder : t'.AccountsInOrder)
    (hreplaces : t.Replaces t' a b) (hdigest : b.passwordDigest = a.passwordDigest)
    (htoken : b.resetToken = a.resetToken) (hexpiry : b.resetExpiresAt = a.resetExpiresAt)
    (uuid : Uuid) : t'.Recalls hasher (drawn ++ [uuid]) es where
  inOrder := horder
  tokens := h.tokens.draw uuid
  unknown := fun username hne => h.unknown username (hreplaces.username_ne h.inOrder hne)
  password := by
    intro c hc
    rcases (hreplaces.mem_iff h.inOrder).1 hc with rfl | ⟨hc, -⟩
    · rw [hreplaces.username, hdigest]
      exact h.password a hreplaces.mem
    · exact h.password c hc
  pending := by
    intro c hc token hwaiting
    rcases (hreplaces.mem_iff h.inOrder).1 hc with rfl | ⟨hc, -⟩
    · rw [hreplaces.username, hexpiry]
      exact h.pending a hreplaces.mem token (htoken ▸ hwaiting)
    · exact h.pending c hc token hwaiting
  held := by
    intro username token time hpending
    obtain ⟨c, hc, hname, hwaiting, hexpires⟩ := h.held username token time hpending
    rcases hreplaces.eq_or_mem h.inOrder hc with rfl | ⟨hc, -⟩
    · exact ⟨b, (hreplaces.mem_iff h.inOrder).2 (.inl rfl), hreplaces.username.trans hname,
        htoken.trans hwaiting, hexpiry.trans hexpires⟩
    · exact ⟨c, hc, hname, hwaiting, hexpires⟩

/-- A new account has the password that it was signed up with, and no token. -/
theorem of_join (h : t.Recalls hasher drawn es) (horder : t'.AccountsInOrder) {password : String}
    {salt : Vector UInt8 16} (hfree : t.isTaken a.username = false)
    (hdigest : hasher.digest salt password = .ok a.passwordDigest) (htoken : a.resetToken = none)
    (haccounts : t'.accounts = t.accounts ++ [a]) (uuid : Uuid) :
    t'.Recalls hasher (drawn ++ [uuid]) (es ++ [.joined a.username password]) := by
  have hmem (c : Account) : c ∈ t'.accounts ↔ c ∈ t.accounts ∨ c = a := by
    rw [haccounts, List.mem_append, List.mem_singleton]
  have hnew (c : Account) (hc : c ∈ t.accounts) : c.username ≠ a.username :=
    Tables.isTaken_eq_false_iff.1 hfree c hc
  have hother {username : String} (hne : a.username ≠ username) :
      currentPassword? (es ++ [.joined a.username password]) username =
        currentPassword? es username :=
    latestOrFirst?_of_neither rfl (if_neg hne)
  have hpending (username : String) (token : Uuid) (time : Instant) :
      IsPending (es ++ [.joined a.username password]) username token time ↔
        IsPending es username token time := by
    simp [isPending_append]
  refine ⟨horder, (h.tokens.join a.username password).draw uuid, ?_, ?_, ?_, ?_⟩
  · intro username hne
    rw [hother (hne a ((hmem a).2 (.inr rfl)))]
    exact h.unknown username fun c hc => hne c ((hmem c).2 (.inl hc))
  · intro c hc
    rcases (hmem c).1 hc with hc | rfl
    · rw [hother (hnew c hc).symm]
      exact h.password c hc
    · exact ⟨password, salt,
        latestOrFirst?_of_first rfl (if_pos rfl) (h.unknown c.username hnew), hdigest⟩
  · intro c hc token hwaiting
    rcases (hmem c).1 hc with hc | rfl
    · simp only [hpending]
      exact h.pending c hc token hwaiting
    · rw [htoken] at hwaiting
      cases hwaiting
  · intro username token time hp
    obtain ⟨c, hc, hheld⟩ := h.held username token time ((hpending username token time).1 hp)
    exact ⟨c, (hmem c).2 (.inl hc), hheld⟩

/-- A token that is drawn and issued takes the place of the one before. -/
theorem of_issue (h : t.Recalls hasher drawn es) (horder : t'.AccountsInOrder)
    (hfresh : given.uuid ∉ drawn)
    (hreplaces : t.Replaces t' a (a.withReset given.uuid (given.now.addHours resetHours))) :
    t'.Recalls hasher (drawn ++ [given.uuid])
      (es ++ [.issued a.username given.uuid given.now]) := by
  have hpassword (username : String) :
      currentPassword? (es ++ [.issued a.username given.uuid given.now]) username =
        currentPassword? es username :=
    latestOrFirst?_of_neither rfl rfl
  refine ⟨horder, h.tokens.issue hfresh a.username given.now, ?_, ?_, ?_, ?_⟩
  · intro username hne
    rw [hpassword]
    exact h.unknown username (hreplaces.username_ne h.inOrder hne)
  · intro c hc
    rw [hpassword]
    rcases (hreplaces.mem_iff h.inOrder).1 hc with rfl | ⟨hc, -⟩
    · exact h.password a hreplaces.mem
    · exact h.password c hc
  · intro c hc token hwaiting
    rcases (hreplaces.mem_iff h.inOrder).1 hc with rfl | ⟨hc, hne⟩
    · cases hwaiting
      exact ⟨given.now, isPending_append.2 (.inl rfl), rfl⟩
    · obtain ⟨time, hp, hexpires⟩ := h.pending c hc token hwaiting
      refine ⟨time, isPending_append.2 (.inr ⟨hp, ?_, ?_⟩), hexpires⟩
      · intro token' time' heq
        exact hne (CredentialEvent.issued.inj heq).1.symm
      · intro name password heq
        cases heq
  · intro username token time hp
    rcases isPending_append.1 hp with heq | ⟨hp, hissued, -⟩
    · cases heq
      exact ⟨_, (hreplaces.mem_iff h.inOrder).2 (.inl rfl), rfl, rfl, rfl⟩
    · obtain ⟨c, hc, hname, hheld⟩ := h.held username token time hp
      rcases hreplaces.eq_or_mem h.inOrder hc with rfl | ⟨hc, -⟩
      · subst hname
        exact (hissued _ _ rfl).elim
      · exact ⟨c, hc, hname, hheld⟩

/-- A pending token is spent on a new password. -/
theorem of_reset (h : t.Recalls hasher drawn es) (horder : t'.AccountsInOrder)
    {password digest : String} {token : Uuid} {salt : Vector UInt8 16}
    (hwaiting : a.resetToken = some token) (hdigest : hasher.digest salt password = .ok digest)
    (hreplaces : t.Replaces t' a { a.withoutReset with passwordDigest := digest }) (uuid : Uuid) :
    t'.Recalls hasher (drawn ++ [uuid]) (es ++ [.reset a.username password token]) := by
  obtain ⟨issued, hissued, -⟩ := h.pending a hreplaces.mem token hwaiting
  have hother {username : String} (hne : a.username ≠ username) :
      currentPassword? (es ++ [.reset a.username password token]) username =
        currentPassword? es username :=
    latestOrFirst?_of_neither (if_neg hne) rfl
  refine ⟨horder, (h.tokens.spend hissued password).draw uuid, ?_, ?_, ?_, ?_⟩
  · intro username hne
    have hname : a.username ≠ username :=
      hne { a.withoutReset with passwordDigest := digest }
        ((hreplaces.mem_iff h.inOrder).2 (.inl rfl))
    rw [hother hname]
    exact h.unknown username (hreplaces.username_ne h.inOrder hne)
  · intro c hc
    rcases (hreplaces.mem_iff h.inOrder).1 hc with rfl | ⟨hc, hne⟩
    · exact ⟨password, salt, latestOrFirst?_of_tells (if_pos rfl), hdigest⟩
    · rw [hother hne.symm]
      exact h.password c hc
  · intro c hc other hwaits
    rcases (hreplaces.mem_iff h.inOrder).1 hc with rfl | ⟨hc, hne⟩
    · cases hwaits
    · obtain ⟨time, hp, hexpires⟩ := h.pending c hc other hwaits
      refine ⟨time, isPending_append.2 (.inr ⟨hp, ?_, ?_⟩), hexpires⟩
      · intro token' time' heq
        cases heq
      · intro name password' heq
        obtain ⟨-, -, rfl⟩ := CredentialEvent.reset.inj heq
        exact hne (h.tokens.owner hp hissued)
  · intro username other time hp
    rcases isPending_append.1 hp with heq | ⟨hp, -, hunspent⟩
    · cases heq
    · obtain ⟨c, hc, hname, hwaits, hexpires⟩ := h.held username other time hp
      rcases hreplaces.eq_or_mem h.inOrder hc with rfl | ⟨hc, -⟩
      · rw [hwaiting] at hwaits
        cases hwaits
        exact (hunspent _ _ rfl).elim
      · exact ⟨c, hc, hname, hwaits, hexpires⟩

/-- Every step of the accounts is recalled. -/
theorem step (h : t.Recalls hasher drawn es) (horder : t'.AccountsInOrder)
    (hfresh : given.uuid ∉ drawn) {e? : Option CredentialEvent}
    (hstep : t.AccountStep t' hasher given e?) :
    t'.Recalls hasher (drawn ++ [given.uuid]) (es ++ e?.toList) := by
  cases hstep with
  | quiet haccounts =>
    rw [Option.toList_none, List.append_nil]
    exact h.of_quiet horder haccounts given.uuid
  | edited a b hreplaces hdigest htoken hexpiry =>
    rw [Option.toList_none, List.append_nil]
    exact h.of_edit horder hreplaces hdigest htoken hexpiry given.uuid
  | joined a password hfree hdigest htoken hexpiry haccounts =>
    exact h.of_join horder hfree hdigest htoken haccounts given.uuid
  | issued a hreplaces => exact h.of_issue horder hfresh hreplaces
  | reset a password token digest hwaiting hdigest hreplaces =>
    exact h.of_reset horder hwaiting hdigest hreplaces given.uuid

end Tables.Recalls

namespace Service

variable (s : Service)

/-- What the answers of a history tell of credentials. -/
def credentialEvents (h : List Asked) : List CredentialEvent :=
  (s.transcript {} h).filterMap Answered.credential?

/-- After every history in which no identifier was drawn twice, the rows recall what was told. -/
theorem recalls_after {h : List Asked} (hdrawn : (h.map (·.given.uuid)).Nodup) :
    (s.after {} h).Recalls s.passwords (h.map (·.given.uuid)) (s.credentialEvents h) := by
  have hlog : (s.after {} h).Recalls s.passwords ((s.transcript {} h).map (·.given.uuid))
      ((s.transcript {} h).filterMap Answered.credential?) := by
    refine s.transcript_induction_fresh (I := fun t log =>
      t.Recalls s.passwords (log.map (·.given.uuid)) (log.filterMap Answered.credential?))
      .empty ?_ hdrawn
    intro x t log hrecalls hfresh
    rw [List.map_append, filterMap_append_singleton]
    exact hrecalls.step (s.accountsInOrder_perform hrecalls.inOrder x) hfresh
      (s.accountStep_perform hrecalls.inOrder x)
  rw [s.map_given_transcript] at hlog
  exact hlog

end Service

/-! ## What is accepted -/

/-- Every secret has a digest, whatever the salt. -/
def Hasher.Digests (hasher : Hasher) : Prop :=
  ∀ salt secret, ∃ digest, hasher.digest salt secret = .ok digest

namespace Tables.Recalls

variable {t : Tables} {s : Service} {drawn : List Uuid} {es : List CredentialEvent}

/-- A sign-in is accepted with the current password, and with any other it is refused and does
nothing. -/
theorem perform_signIn (h : t.Recalls s.passwords drawn es) (hverifies : s.passwords.Verifies)
    (hdigests : s.passwords.Digests) (given : Given) (username password : String)
    (fingerprint : Option Fingerprint) :
    (currentPassword? es username = some password → ∃ tokens,
      (s.perform ⟨given, .signIn username password fingerprint⟩ t).1 = .ok tokens) ∧
    (currentPassword? es username ≠ some password →
      s.perform ⟨given, .signIn username password fingerprint⟩ t =
        (.error .invalidCredentials, t)) := by
  cases hfound : t.accountNamed? username with
  | none =>
    have hnone : currentPassword? es username = none := by
      refine h.unknown username fun a ha hname => ?_
      simpa [hname] using List.find?_eq_none.1 hfound a ha
    obtain ⟨digest, hdigest⟩ := hdigests given.salt decoyPassword
    have hverify := hverifies _ _ _ hdigest password
    rw [hnone]
    exact ⟨fun h => (nomatch h), fun _ => exec_signIn_unknown hfound hdigest hverify⟩
  | some a =>
    obtain ⟨ha, hname⟩ := Tables.accountNamed?_some hfound
    obtain ⟨current, salt, hcurrent, hdigest⟩ := h.password a ha
    have hverify := hverifies _ _ _ hdigest password
    rw [← hname, hcurrent, hname, ne_eq, Option.some.injEq]
    by_cases hpassword : password = current
    · refine ⟨fun _ => ?_, fun hne => (hne hpassword.symm).elim⟩
      rw [decide_eq_true hpassword] at hverify
      exact ⟨_, congrArg Prod.fst (exec_signIn_accepted hfound hverify)⟩
    · refine ⟨fun heq => (hpassword heq.symm).elim, fun _ => ?_⟩
      rw [decide_eq_false hpassword] at hverify
      exact exec_signIn_wrong hfound hverify

/-- The account that holds a pending token is found by it. -/
theorem accountResetBy?_of_isPending {hasher : Hasher} (h : t.Recalls hasher drawn es)
    {username : String} {token : Uuid} {time : Instant} (hp : IsPending es username token time) :
    ∃ a, t.accountResetBy? token = some a ∧
      a.resetExpiresAt = some (time.addHours resetHours) := by
  obtain ⟨a, ha, hname, hwaiting, hexpires⟩ := h.held username token time hp
  cases hfound : t.accountResetBy? token with
  | none => simpa [hwaiting] using List.find?_eq_none.1 hfound a ha
  | some b =>
    obtain ⟨hb, hwaits⟩ := Tables.accountResetBy?_some hfound
    obtain ⟨_, hpending, -⟩ := h.pending b hb token hwaits
    have hsame : b.username = a.username := (h.tokens.owner hpending hp).trans hname.symm
    rw [List.inj_on_of_nodup_map h.inOrder.usernames hb ha hsame]
    exact ⟨a, rfl, hexpires⟩

/-- A reset is completed with a pending token that has not run out and a password that is long
enough; otherwise it fails, for the first of these reasons, and does nothing. -/
theorem perform_resetPassword (h : t.Recalls s.passwords drawn es)
    (hdigests : s.passwords.Digests) (given : Given) (password : String) (token : Uuid) :
    ((∀ username time, ¬IsPending es username token time) →
      s.perform ⟨given, .resetPassword password token⟩ t = (.error .resetTokenNotFound, t)) ∧
    ∀ username time, IsPending es username token time →
      ((time.addHours 24).isBefore given.now = true →
        s.perform ⟨given, .resetPassword password token⟩ t = (.error .resetTokenExpired, t)) ∧
      ((time.addHours 24).isBefore given.now = false →
        (password.length < s.session.minPassword →
          s.perform ⟨given, .resetPassword password token⟩ t =
            (.error (.invalid (.shortPassword s.session.minPassword)), t)) ∧
        (s.session.minPassword ≤ password.length → ∃ account,
          (s.perform ⟨given, .resetPassword password token⟩ t).1 = .ok account)) := by
  have hexec : s.perform ⟨given, .resetPassword password token⟩ t = _ :=
    exec_resetPassword s.session s.passwords given password token t
  constructor
  · intro hnone
    cases hfound : t.accountResetBy? token with
    | none => rw [hexec, hfound]
    | some a =>
      obtain ⟨ha, hwaiting⟩ := Tables.accountResetBy?_some hfound
      obtain ⟨time, hp, -⟩ := h.pending a ha token hwaiting
      exact (hnone _ _ hp).elim
  · intro username time hp
    obtain ⟨a, hfound, hexpires⟩ := h.accountResetBy?_of_isPending hp
    have hexpired : isResetExpired a given.now = (time.addHours 24).isBefore given.now := by
      rw [isResetExpired, hexpires]
      rfl
    obtain ⟨digest, hdigest⟩ := hdigests given.salt password
    rw [hexec, hfound]
    dsimp only
    rw [hexpired, hdigest, checkPassword]
    refine ⟨fun hlate => by rw [if_pos hlate], fun hintime => ⟨fun hshort => ?_, fun hlong => ?_⟩⟩
    · rw [if_neg (by simp [hintime]), if_pos hshort]
    · rw [if_neg (by simp [hintime]), if_neg (Nat.not_lt.2 hlong)]
      exact ⟨_, rfl⟩

end Tables.Recalls

/-- If a digest is of one secret and no identifier is drawn twice, then after every history a
sign-in is accepted with exactly the current password of its account, and a reset with exactly a
pending token, at most 24 hours after it was issued, and a password that is long enough. What is
refused is refused for the first reason that applies and changes nothing, so that a token stays
pending, and no token is spent twice. -/
theorem Service.accepts_credentials (s : Service) (hverifies : s.passwords.Verifies)
    (hdigests : s.passwords.Digests) (h : List Asked) (hdrawn : (h.map (·.given.uuid)).Nodup) :
    let t := s.after {} h
    let es := s.credentialEvents h
    (∀ given username password fingerprint,
      let attempt := s.perform ⟨given, .signIn username password fingerprint⟩ t
      ((∃ tokens, attempt.1 = .ok tokens) ↔ currentPassword? es username = some password) ∧
      (currentPassword? es username ≠ some password →
        attempt = (.error .invalidCredentials, t))) ∧
    (∀ given password token,
      let attempt := s.perform ⟨given, .resetPassword password token⟩ t
      ((∃ account, attempt.1 = .ok account) ↔ ∃ username time, IsPending es username token time ∧
        (time.addHours 24).isBefore given.now = false ∧
          s.session.minPassword ≤ password.length) ∧
      ((∀ username time, ¬IsPending es username token time) →
        attempt = (.error .resetTokenNotFound, t)) ∧
      (∀ username time, IsPending es username token time →
        (time.addHours 24).isBefore given.now = true →
          attempt = (.error .resetTokenExpired, t)) ∧
      (∀ username time, IsPending es username token time →
        (time.addHours 24).isBefore given.now = false →
          password.length < s.session.minPassword →
            attempt = (.error (.invalid (.shortPassword s.session.minPassword)), t))) ∧
    (spentTokens es).Nodup := by
  intro t es
  have hrecalls : t.Recalls s.passwords (h.map (·.given.uuid)) es := s.recalls_after hdrawn
  refine ⟨fun given username password fingerprint => ?_, fun given password token => ?_,
    hrecalls.tokens.once⟩
  · obtain ⟨haccepted, hrefused⟩ :=
      hrecalls.perform_signIn hverifies hdigests given username password fingerprint
    refine ⟨⟨?_, haccepted⟩, hrefused⟩
    rintro ⟨tokens, htokens⟩
    by_contra hne
    rw [hrefused hne] at htokens
    cases htokens
  · obtain ⟨hunknown, hpending⟩ := hrecalls.perform_resetPassword hdigests given password token
    have hlate (username : String) (time : Instant) (hp : IsPending es username token time) :=
      (hpending username time hp).1
    have hintime (username : String) (time : Instant) (hp : IsPending es username token time) :=
      (hpending username time hp).2
    refine ⟨⟨?_, ?_⟩, hunknown, hlate, fun username time hp htime =>
      (hintime username time hp htime).1⟩
    · rintro ⟨account, haccount⟩
      by_cases hnone : ∀ username time, ¬IsPending es username token time
      · rw [hunknown hnone] at haccount
        cases haccount
      · simp only [not_forall, not_not] at hnone
        obtain ⟨username, time, hp⟩ := hnone
        cases htime : (time.addHours 24).isBefore given.now with
        | true =>
          rw [hlate username time hp htime] at haccount
          cases haccount
        | false =>
          refine ⟨username, time, hp, htime, Nat.le_of_not_lt fun hshort => ?_⟩
          rw [(hintime username time hp htime).1 hshort] at haccount
          cases haccount
    · rintro ⟨username, time, hp, htime, hlong⟩
      exact (hintime username time hp htime).2 hlong

/-- Ada asks for a reset twice; the first token is refused, and the second sets a password. -/
def adaResetsOnce : List Asked :=
  [⟨.sample 1, .signUp "ada@example.com" "old-password"⟩,
    ⟨.sample 2, .forgotPassword "ada@example.com"⟩,
    ⟨.sample 3, .forgotPassword "ada@example.com"⟩,
    ⟨.sample 4, .resetPassword "bad-password" (Given.sample 2).uuid⟩,
    ⟨.sample 5, .resetPassword "new-password" (Given.sample 3).uuid⟩]

theorem accepts_credentials_adaResetsOnce : Service.plain.passwords.Verifies ∧
    Service.plain.passwords.Digests ∧ (adaResetsOnce.map (·.given.uuid)).Nodup ∧
    ∀ given fingerprint, ∃ tokens, (Service.plain.perform
      ⟨given, .signIn "ada@example.com" "new-password" fingerprint⟩
      (Service.plain.after {} adaResetsOnce)).1 = .ok tokens := by
  have hdigests : Service.plain.passwords.Digests := fun _ secret => ⟨secret, rfl⟩
  have hdrawn : (adaResetsOnce.map (·.given.uuid)).Nodup := by decide
  have hcurrent : currentPassword? (Service.plain.credentialEvents adaResetsOnce)
      "ada@example.com" = some "new-password" := by decide +kernel
  obtain ⟨hsignIn, -⟩ := Service.plain.accepts_credentials Hasher.plain_verifies hdigests
    adaResetsOnce hdrawn
  refine ⟨Hasher.plain_verifies, hdigests, hdrawn, fun given fingerprint => ?_⟩
  exact (hsignIn given "ada@example.com" "new-password" fingerprint).1.2 hcurrent

end Latchkey
