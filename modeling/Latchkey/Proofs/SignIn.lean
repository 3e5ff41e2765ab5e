import Latchkey.Proofs.Execution

/-!
# Sign-ins

A sign-in looks its account up and checks the password. If it fits, the origin of the sign-in is
checked, which puts it on record, and the device is registered; these are the only calls that write,
and tables in memory refuse neither.
-/

namespace Latchkey

open Request

/-! ## The calls of a sign-in -/

/-- What a sign-in puts on record of its origin. -/
def Origin.entry (trail : List SecurityEntry) (account : Account) (f : Fingerprint)
    (now : Instant) : NewSecurityEntry :=
  .ofEvent account.id (if isSeen trail f then .signIn else .unrecognizedDevice) now f

/-- The entry tells of a sign-in, from an origin that was on record or from another. -/
def NewSecurityEntry.IsSighting (e : NewSecurityEntry) : Prop :=
  e.action = SecurityEvent.signIn.label ∨ e.action = SecurityEvent.unrecognizedDevice.label

theorem Origin.isSighting_entry (trail : List SecurityEntry) (account : Account) (f : Fingerprint)
    (now : Instant) : (entry trail account f now).IsSighting := by
  unfold entry
  split
  · exact .inl rfl
  · exact .inr rfl

/-- The check of an origin reads the trail and adds to it, and goes on whatever fails. -/
theorem Origin.verify_eq (account : Account) (f : Fingerprint) (now : Instant) :
    verify account f now = .call (.securityTrail account.id) fun
      | .error _ => .done .unverified
      | .ok trail => .call (.recordSecurity (entry trail account f now)) fun
        | .error _ => .done .unverified
        | .ok entry =>
          if isSeen trail f then .done .recognized
          else .notify ⟨account, .unrecognizedDevice entry⟩ fun _ => .done .unrecognized := by
  refine congrArg (Program.call _) (funext ?_)
  intro trail
  rcases trail with fault | trail
  · rfl
  · dsimp only [entry]
    change Program.andThen (ExceptT.run (if isSeen trail f = true then _ else _)) _ = _
    cases isSeen trail f with
    | true =>
      simp only [if_true]
      refine congrArg (Program.call _) (funext ?_)
      intro answer
      cases answer <;> rfl
    | false =>
      simp only [Bool.false_eq_true, if_false]
      refine congrArg (Program.call _) (funext ?_)
      intro answer
      cases answer <;> rfl

namespace Session

variable (settings : SessionSettings) (hasher : Hasher) (given : Given)

/-- The device that a sign-in registers. -/
def newDevice (account : Account) (fingerprint : Option Fingerprint) : Device :=
  { token := given.uuid, account := account.id, createdAt := given.now
    expiresAt := given.now.addDays settings.refreshDays, fingerprint }

/-- The last call of a sign-in and its answer. -/
def registerDevice (account : Account) (fingerprint : Option Fingerprint) :
    Program (Except Failure Tokens) :=
  .call (.insertDevice (newDevice settings given account fingerprint)) fun
    | .error fault => .done (.error (.store fault))
    | .ok device => .done (.ok (tokensFor settings given account (some device.token)))

/-- The check of an origin, if there is one, and what comes after it. -/
def checkOrigin (account : Account) (fingerprint : Option Fingerprint)
    (next : Program (Except Failure Tokens)) : Program (Except Failure Tokens) :=
  match fingerprint with
  | none => next
  | some f => (Origin.verify account f given.now).andThen fun _ => next

/-- How a sign-in goes on once it has looked its account up. -/
def signInTo (password : String) (fingerprint : Option Fingerprint) :
    Option Account → Program (Except Failure Tokens)
  | none => (refuseUnknown hasher given password).run
  | some account =>
    match hasher.verify password account.passwordDigest with
    | .error e => .done (.error e)
    | .ok false => .done (.error .invalidCredentials)
    | .ok true =>
      checkOrigin given account fingerprint (registerDevice settings given account fingerprint)

theorem run_signIn (username password : String) (fingerprint : Option Fingerprint) :
    (signIn settings hasher given username password fingerprint).run =
      .call (.findAccountNamed username) fun
        | .error fault => .done (.error (.store fault))
        | .ok found => signInTo settings hasher given password fingerprint found := by
  have hregister (account : Account) : ExceptT.run (do
      let device ← Request.ofCall (.insertDevice (newDevice settings given account fingerprint))
      return tokensFor settings given account (some device.token)) =
        registerDevice settings given account fingerprint := by
    refine congrArg (Program.call _) (funext ?_)
    intro answer
    cases answer <;> rfl
  rw [signIn, Program.run_bind]
  refine congrArg (Program.call _) (funext ?_)
  intro found
  rcases found with fault | found
  · rfl
  · cases found with
    | none => rfl
    | some account =>
      show ExceptT.run (_ >>= _) = _
      rw [Program.run_bind]
      dsimp only [signInTo]
      cases hasher.verify password account.passwordDigest with
      | error e => rfl
      | ok fitting =>
        cases fitting with
        | false => rfl
        | true =>
          cases fingerprint with
          | none => exact hregister account
          | some f =>
            show ExceptT.run (_ >>= _) = _
            rw [Program.run_bind]
            refine (Program.andThen_assoc _ _ _).trans ?_
            refine congrArg (Program.andThen _) (funext ?_)
            intro verdict
            exact hregister account

variable {settings hasher given} {t : Tables} {username password : String}
variable {fingerprint : Option Fingerprint} {account : Account}

/-! ## Refused -/

theorem run_refuseUnknown :
    ∃ e, (refuseUnknown hasher given password).run = .done (.error e) := by
  rw [refuseUnknown, Program.run_bind]
  cases hasher.digest given.salt decoyPassword with
  | error e => exact ⟨e, rfl⟩
  | ok digest =>
    show ∃ e, ExceptT.run (_ >>= _) = _
    rw [Program.run_bind]
    cases hasher.verify password digest with
    | error e => exact ⟨e, rfl⟩
    | ok fitting => exact ⟨_, rfl⟩

/-- Where no password fits, the look-up was the only call. -/
theorem signInTo_refused (h : ∀ a, t.accountNamed? username = some a →
      hasher.verify password a.passwordDigest ≠ .ok true) :
    ∃ e, signInTo settings hasher given password fingerprint (t.accountNamed? username) =
      .done (.error e) := by
  cases hfound : t.accountNamed? username with
  | none => exact run_refuseUnknown
  | some a =>
    have hnot := h a hfound
    dsimp only [signInTo]
    cases hverify : hasher.verify password a.passwordDigest with
    | error e => exact ⟨e, rfl⟩
    | ok fitting =>
      cases fitting with
      | false => exact ⟨_, rfl⟩
      | true => exact (hnot hverify).elim

/-- A sign-in has a password that fits, or it is refused and has changed nothing and told nobody. -/
theorem fits_or_run_signIn_refused (settings : SessionSettings) (hasher : Hasher) (given : Given)
    (username password : String) (fingerprint : Option Fingerprint) (t : Tables) :
    (∃ a, t.accountNamed? username = some a ∧
      hasher.verify password a.passwordDigest = .ok true) ∨
    ∃ e, Program.run Backend.memory
      (signIn settings hasher given username password fingerprint).run t = ⟨.error e, t, []⟩ := by
  by_cases hfits : ∃ a, t.accountNamed? username = some a ∧
      hasher.verify password a.passwordDigest = .ok true
  · exact .inl hfits
  · have hrefused : ∃ e, signInTo settings hasher given password fingerprint
        (t.accountNamed? username) = .done (.error e) :=
      signInTo_refused fun a hfound hverify => hfits ⟨a, hfound, hverify⟩
    obtain ⟨e, hdone⟩ := hrefused
    refine .inr ⟨e, ?_⟩
    rw [run_signIn]
    simp only [Program.run, Backend.memory, Call.apply, Call.look, hdone]

/-- Under a name that is not there, the password is compared with a decoy and refused. -/
theorem exec_signIn_unknown (hfound : t.accountNamed? username = none) {digest : String}
    {fitting : Bool} (hdigest : hasher.digest given.salt decoyPassword = .ok digest)
    (hverify : hasher.verify password digest = .ok fitting) :
    (signIn settings hasher given username password fingerprint).exec t =
      (.error .invalidCredentials, t) := by
  have hrefuse :
      (refuseUnknown hasher given password).run = .done (.error .invalidCredentials) := by
    rw [refuseUnknown, Program.run_bind, hdigest]
    show ExceptT.run (_ >>= _) = _
    rw [Program.run_bind, hverify]
    rfl
  rw [Request.exec, run_signIn]
  simp only [Program.run, Backend.memory, Call.apply, Call.look, hfound, signInTo, hrefuse]

theorem exec_signIn_wrong (hfound : t.accountNamed? username = some account)
    (hverify : hasher.verify password account.passwordDigest = .ok false) :
    (signIn settings hasher given username password fingerprint).exec t =
      (.error .invalidCredentials, t) := by
  rw [Request.exec, run_signIn]
  simp only [Program.run, Backend.memory, Call.apply, Call.look, hfound, signInTo, hverify]

/-! ## Accepted -/

theorem signInTo_accepted (hfound : t.accountNamed? username = some account)
    (hverify : hasher.verify password account.passwordDigest = .ok true) :
    signInTo settings hasher given password fingerprint (t.accountNamed? username) =
      checkOrigin given account fingerprint
        (registerDevice settings given account fingerprint) := by
  rw [hfound]
  simp only [signInTo, hverify]

/-- The tables once the origin of a sign-in is on record. -/
def withOrigin (given : Given) (account : Account) (fingerprint : Option Fingerprint)
    (t : Tables) : Tables :=
  match fingerprint with
  | none => t
  | some f =>
    (t.recordSecurity (Origin.entry (t.securityTrailOf account.id) account f given.now)).2

/-- The tables once the device of a sign-in is registered as well. -/
def withDevice (settings : SessionSettings) (given : Given) (account : Account)
    (fingerprint : Option Fingerprint) (t : Tables) : Tables :=
  ((withOrigin given account fingerprint t).insertDevice
    (newDevice settings given account fingerprint)).2

/-- The check of an origin leaves its record, whatever it finds. -/
theorem run_checkOrigin (given : Given) (account : Account) (fingerprint : Option Fingerprint)
    (next : Program (Except Failure Tokens)) (t : Tables) :
    ((checkOrigin given account fingerprint next).run Backend.memory t).value =
        (next.run Backend.memory (withOrigin given account fingerprint t)).value ∧
      ((checkOrigin given account fingerprint next).run Backend.memory t).state =
        (next.run Backend.memory (withOrigin given account fingerprint t)).state := by
  cases fingerprint with
  | none => exact ⟨rfl, rfl⟩
  | some f =>
    have hstate : ((Origin.verify account f given.now).run Backend.memory t).state =
        withOrigin given account (some f) t := by
      rw [Origin.verify_eq]
      simp only [Program.run, Backend.memory, Call.apply, Call.look, Call.sure]
      cases Origin.isSeen (t.securityTrailOf account.id) f <;> rfl
    rw [checkOrigin, Program.run_andThen, hstate]
    exact ⟨rfl, rfl⟩

/-- A sign-in with a password that fits is given access, and registers its device. -/
theorem exec_signIn_accepted (hfound : t.accountNamed? username = some account)
    (hverify : hasher.verify password account.passwordDigest = .ok true) :
    (signIn settings hasher given username password fingerprint).exec t =
      (.ok (tokensFor settings given account (some given.uuid)),
        withDevice settings given account fingerprint t) := by
  have hrun := run_checkOrigin given account fingerprint
    (registerDevice settings given account fingerprint) t
  rw [Request.exec, run_signIn]
  simp only [Program.run, Backend.memory, Call.apply, Call.look,
    signInTo_accepted hfound hverify]
  exact Prod.ext hrun.1 hrun.2

end Session

end Latchkey
