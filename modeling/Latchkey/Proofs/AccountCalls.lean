import Latchkey.Proofs.Operations

/-!
# The calls of requests on accounts

A request that writes an account looks first and writes with its last call. Each is written out here
as the tree of its calls, with what is done with its answer left open.
-/

namespace Latchkey.Session

variable {β : Type} (settings : SessionSettings) (hasher : Hasher) (given : Given)

/-- The last call of a sign-up, and the answer. -/
def addAccount (username digest : String) (f : Except Failure Tokens → Program β) : Program β :=
  .call (.insertAccount (newAccount settings given username digest)) fun
    | .error fault => f (.error (.store fault))
    | .ok none => f (.error .usernameUnavailable)
    | .ok (some a) => .notify ⟨a, .accountCreated⟩ fun _ =>
      f (.ok (tokensFor settings given a none))

theorem signUp_andThen (username password : String) (f : Except Failure Tokens → Program β) :
    (signUp settings hasher given username password).run.andThen f =
      match checkUsername username, checkPassword settings.minPassword password with
      | .error e, _ => f (.error (.invalid e))
      | .ok _, .error e => f (.error (.invalid e))
      | .ok _, .ok _ =>
        .call (.isTaken username) fun
          | .error fault => f (.error (.store fault))
          | .ok true => f (.error .usernameUnavailable)
          | .ok false =>
            match hasher.digest given.salt password with
            | .error e => f (.error e)
            | .ok digest => addAccount settings given username digest f := by
  simp only [signUp]
  cases checkUsername username with
  | error e => rfl
  | ok _ =>
    cases checkPassword settings.minPassword password with
    | error e => rfl
    | ok _ =>
      refine congrArg (Program.call _) (funext ?_)
      intro taken
      rcases taken with fault | taken
      · rfl
      · cases taken with
        | true => rfl
        | false =>
          cases hasher.digest given.salt password with
          | error e => rfl
          | ok digest =>
            refine congrArg (Program.call _) (funext ?_)
            intro inserted
            rcases inserted with fault | inserted
            · rfl
            · cases inserted <;> rfl

theorem forgotPassword_andThen (username : String) (f : Except Failure Account → Program β) :
    (forgotPassword given username).run.andThen f =
      .call (.findAccountNamed username) fun
        | .error fault => f (.error (.store fault))
        | .ok none => f (.error (.notFound .account username))
        | .ok (some a) =>
          .call (.saveAccount (a.withReset given.uuid (given.now.addHours resetHours)) []
            given.now) fun
            | .error fault => f (.error (.store fault))
            | .ok a => .notify ⟨a, .forgottenPassword⟩ fun _ => f (.ok a) := by
  refine congrArg (Program.call _) (funext ?_)
  intro found
  rcases found with fault | found
  · rfl
  · cases found with
    | none => rfl
    | some a =>
      refine congrArg (Program.call _) (funext ?_)
      intro saved
      cases saved <;> rfl

theorem resetPassword_andThen (password : String) (token : Uuid)
    (f : Except Failure Account → Program β) :
    (resetPassword settings hasher given password token).run.andThen f =
      .call (.findAccountResetBy token) fun
        | .error fault => f (.error (.store fault))
        | .ok none => f (.error .resetTokenNotFound)
        | .ok (some a) =>
          if isResetExpired a given.now then f (.error .resetTokenExpired)
          else
            match checkPassword settings.minPassword password,
              hasher.digest given.salt password with
            | .error e, _ => f (.error (.invalid e))
            | .ok _, .error e => f (.error e)
            | .ok _, .ok digest =>
              .call (.saveAccount { a.withoutReset with passwordDigest := digest } [.passwordReset]
                given.now) fun
                | .error fault => f (.error (.store fault))
                | .ok a => .notify ⟨a, .passwordReset⟩ fun _ => f (.ok a) := by
  simp only [resetPassword]
  refine congrArg (Program.call _) (funext ?_)
  intro found
  rcases found with fault | found
  · rfl
  · cases found with
    | none => rfl
    | some a =>
      change Program.andThen (ExceptT.run
        (if isResetExpired a given.now = true then _ else _)) _ = ite _ _ _
      split
      · rfl
      · cases checkPassword settings.minPassword password with
        | error e => rfl
        | ok _ =>
          cases hasher.digest given.salt password with
          | error e => rfl
          | ok digest =>
            refine congrArg (Program.call _) (funext ?_)
            intro saved
            cases saved <;> rfl

theorem updateAccount_andThen (username : String) (update : ProfileUpdate)
    (f : Except Failure Account → Program β) :
    (updateAccount given username update).run.andThen f =
      .call (.findAccountNamed username) fun
        | .error fault => f (.error (.store fault))
        | .ok none => f (.error (.notFound .account username))
        | .ok (some a) =>
          if (update.apply a).events.isEmpty then f (.ok (update.apply a).account)
          else
            .call (.saveAccount (update.apply a).account (update.apply a).events given.now) fun
              | .error fault => f (.error (.store fault))
              | .ok a => f (.ok a) := by
  refine congrArg (Program.call _) (funext ?_)
  intro found
  rcases found with fault | found
  · rfl
  · cases found with
    | none => rfl
    | some a =>
      change Program.andThen (ExceptT.run
        (if (update.apply a).events.isEmpty = true then _ else Request.ofCall _)) _ = ite _ _ _
      split
      · rfl
      · refine congrArg (Program.call _) (funext ?_)
        intro saved
        cases saved <;> rfl

end Latchkey.Session
