import Latchkey.Program

/-!
# Origins of sign-ins

A sign-in is compared with all that is on record for its account. The first one from a place with
an agent is flagged and the owner is told; later ones are only recorded.
-/

namespace Latchkey.Origin

/-- What was found out about the origin of a sign-in. -/
inductive Verdict where
  | recognized
  | unrecognized
  | unverified
  deriving DecidableEq, Repr

/-- An entry of the trail has the same origin. -/
def isSeen (trail : List SecurityEntry) (f : Fingerprint) : Bool :=
  (trail.filterMap (·.fingerprint)).any (·.sameOrigin f)

/-- Records a sign-in and flags it if its origin is new. -/
def check (account : Account) (f : Fingerprint) (now : Instant) : Request Verdict := do
  let trail ← Request.ofCall (.securityTrail account.id)
  if isSeen trail f then
    let _ ← Request.ofCall (.recordSecurity (.ofEvent account.id .signIn now f))
    return .recognized
  else
    let entry ←
      Request.ofCall (.recordSecurity (.ofEvent account.id .unrecognizedDevice now f))
    Request.send ⟨account, .unrecognizedDevice entry⟩
    return .unrecognized

/-- Checks an origin and never fails: a store that cannot be reached leaves it unverified. -/
def verify (account : Account) (f : Fingerprint) (now : Instant) : Program Verdict := do
  match ← (check account f now).run with
  | .ok verdict => return verdict
  | .error _ => return .unverified

end Latchkey.Origin
