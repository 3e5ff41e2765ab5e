import Latchkey.Failure
import Latchkey.Json.Basic

/-!
# Problems

How failures are told to clients: a status, a code and a message. Of the store and of internal
trouble nothing but its existence is told, and unknown names are not told from wrong passwords.
-/

namespace Latchkey.Http

/-- Why a request over HTTP is not answered with what it asked for. -/
inductive Problem where
  | failure (f : Failure)
  | unauthorized (reason : String)
  | forbidden (reason : String)
  deriving DecidableEq, Repr

/-- What a client is told of a problem. -/
structure Report where
  status : Nat
  code : String
  message : String
  deriving DecidableEq, Repr

/-- What is told of trouble that is not the client's. -/
def Report.internal : Report :=
  ⟨500, "INTERNAL_ERROR", "An internal error occurred"⟩

/-- What a client is told of a failure. -/
def Report.ofFailure : Failure → Report
  | .invalidCredentials => ⟨401, "INVALID_CREDENTIALS", "Invalid username or password"⟩
  | .invalidAccessToken => ⟨401, "UNAUTHORIZED", "Invalid or expired token"⟩
  | .usernameUnavailable =>
    ⟨409, "USERNAME_UNAVAILABLE", Failure.usernameUnavailable.message⟩
  | .resetTokenNotFound => ⟨400, "TOKEN_NOT_FOUND", Failure.resetTokenNotFound.message⟩
  | .resetTokenExpired => ⟨400, "TOKEN_EXPIRED", Failure.resetTokenExpired.message⟩
  | .keyNotFound id => ⟨404, "NOT_FOUND", "API key with id " ++ intText id ++ " not found"⟩
  | .notFound entity _ => ⟨404, "NOT_FOUND", entity.name ++ " not found"⟩
  | .quotaExceeded limit => ⟨403, "QUOTA_EXCEEDED", (Failure.quotaExceeded limit).message⟩
  | .invalid reason => ⟨400, "VALIDATION_ERROR", reason.message⟩
  | .forbidden reason => ⟨403, "FORBIDDEN", reason⟩
  | .store _ => .internal
  | .internal _ => .internal

namespace Problem

/-- The report of a problem: that of its failure, or 401 and 403 with their reasons. -/
def report : Problem → Report
  | .failure f => .ofFailure f
  | .unauthorized reason => ⟨401, "UNAUTHORIZED", reason⟩
  | .forbidden reason => ⟨403, "FORBIDDEN", reason⟩

/-- The problem in full, for a log. -/
def message : Problem → String
  | .failure f => f.message
  | .unauthorized reason => "Unauthorized: " ++ reason
  | .forbidden reason => "Forbidden: " ++ reason

end Problem

/-- The body of a response that tells of a problem. -/
def Report.body (r : Report) : Json :=
  .object [("error", .text r.message), ("code", .text r.code)]

end Latchkey.Http
