import Latchkey.Account
import Latchkey.ApiKey
import Latchkey.Json.Record

/-!
# JSON forms of the domain

How requests are read from JSON and how what is kept is shown in it. Reading is strict: a value of
another type is refused, and so is `null` where nothing may be missing. What is shown leaves out
digests, reset tokens and account numbers.
-/

namespace Latchkey

open Json

/-! ## Fingerprints and places -/

/-- The names of the fields of a place. -/
def Place.fields : List String := ["country_iso_code", "subdivision_iso_code", "city_name"]

/-- The place that a record tells of. Every field may be `null` or left out. -/
def Place.ofRecord? (r : Record) : Option Place := do
  let country ← r.omissible "country_iso_code" asText?
  let subdivision ← r.omissible "subdivision_iso_code" asText?
  let city ← r.omissible "city_name" asText?
  return { country, subdivision, city }

/-- The place of a value. -/
def Place.ofJson? (v : Json) : Option Place :=
  (Record.of? fields v).bind ofRecord?

/-- All fields of a place, `null` for what is not known. -/
def Place.toJson (p : Place) : Json :=
  .object [("country_iso_code", optionalText p.country),
    ("subdivision_iso_code", optionalText p.subdivision), ("city_name", optionalText p.city)]

/-- The agent of a value that names both families. Versions may be `null`. -/
def Agent.ofJson? (v : Json) : Option Agent := do
  let r ← Record.of? ["os_family", "os_major", "os_minor", "user_agent_family",
    "user_agent_major", "user_agent_minor"] v
  let osFamily ← r.required "os_family" asText?
  let osMajor ← r.optional "os_major" asText?
  let osMinor ← r.optional "os_minor" asText?
  let browserFamily ← r.required "user_agent_family" asText?
  let browserMajor ← r.optional "user_agent_major" asText?
  let browserMinor ← r.optional "user_agent_minor" asText?
  return { osFamily, osMajor, osMinor, browserFamily, browserMajor, browserMinor }

/-- All fields of an agent, `null` for a version that is not known. -/
def Agent.toJson (a : Agent) : Json :=
  .object [("os_family", .text a.osFamily), ("os_major", optionalText a.osMajor),
    ("os_minor", optionalText a.osMinor), ("user_agent_family", .text a.browserFamily),
    ("user_agent_major", optionalText a.browserMajor),
    ("user_agent_minor", optionalText a.browserMinor)]

/-- The fingerprint of a value that has all three parts. -/
def Fingerprint.ofJson? (v : Json) : Option Fingerprint := do
  let r ← Record.of? ["ip", "geo", "device"] v
  let ip ← r.required "ip" asText?
  let place ← r.required "geo" Place.ofJson?
  let agent ← r.required "device" Agent.ofJson?
  return { ip, place, agent }

/-- The three parts of a fingerprint. -/
def Fingerprint.toJson (f : Fingerprint) : Json :=
  .object [("ip", .text f.ip), ("geo", f.place.toJson), ("device", f.agent.toJson)]

/-- A fingerprint or `null`. -/
def optionalFingerprint : Option Fingerprint → Json
  | none => .null
  | some f => f.toJson

/-- An instant or `null`. -/
def optionalInstant : Option Instant → Json
  | none => .null
  | some t => .text t.toString

/-- A list of texts. -/
def textList (texts : List String) : Json :=
  .array (texts.map .text)

/-! ## Windows -/

/-- The window of a value: fifty entries from the start on, where it says nothing else. -/
def Page.ofJson? (v : Json) : Option Page := do
  let r ← Record.of? ["limit", "offset"] v
  let limit ← r.orElse "limit" asWord? 50
  let offset ← r.orElse "offset" asWord? 0
  return { limit, offset }

/-- Both numbers of a window. -/
def Page.toJson (p : Page) : Json :=
  .object [("limit", .int p.limit), ("offset", .int p.offset)]

/-! ## Scopes -/

/-- The names of the flags about text. -/
def TextScope.fields : List String :=
  ["toxicity", "severe_toxicity", "identity_attack", "insult", "profanity", "threat"]

/-- The flags about text of a value. Those left out are off. -/
def TextScope.ofJson? (v : Json) : Option TextScope := do
  let r ← Record.of? fields v
  let toxicity ← r.orElse "toxicity" asBool? false
  let severeToxicity ← r.orElse "severe_toxicity" asBool? false
  let identityAttack ← r.orElse "identity_attack" asBool? false
  let insult ← r.orElse "insult" asBool? false
  let profanity ← r.orElse "profanity" asBool? false
  let threat ← r.orElse "threat" asBool? false
  return { toxicity, severeToxicity, identityAttack, insult, profanity, threat }

/-- All flags about text. -/
def TextScope.toJson (s : TextScope) : Json :=
  .object [("toxicity", .bool s.toxicity), ("severe_toxicity", .bool s.severeToxicity),
    ("identity_attack", .bool s.identityAttack), ("insult", .bool s.insult),
    ("profanity", .bool s.profanity), ("threat", .bool s.threat)]

/-- The names of the flags, those about text under one name. -/
def Scope.fields : List String := ["image", "gif", "text", "video"]

/-- The scope of a value. Flags left out are off. -/
def Scope.ofJson? (v : Json) : Option Scope := do
  let r ← Record.of? fields v
  let image ← r.orElse "image" asBool? false
  let gif ← r.orElse "gif" asBool? false
  let text ← r.orElse "text" TextScope.ofJson? {}
  let video ← r.orElse "video" asBool? false
  return { image, gif, text, video }

/-- All flags, those about text in an object of their own. -/
def Scope.toJson (s : Scope) : Json :=
  .object [("image", .bool s.image), ("gif", .bool s.gif), ("text", s.text.toJson),
    ("video", .bool s.video)]

/-! ## Partial updates -/

/-- A value that an update sets. -/
def Patch.ofJson? {α : Type} (read : Json → Option α) (v : Json) : Option (Patch α) :=
  (read v).map .set

/-- The field of an update: absent, it keeps what is there. -/
def Json.Record.patch {α : Type} (r : Record) (field : String) (read : Json → Option α) :
    Option (Patch α) :=
  r.orElse field (Patch.ofJson? read) .keep

/-- What a value sets of the flags about text. None may be `null`. -/
def TextScopePatch.ofJson? (v : Json) : Option TextScopePatch := do
  let r ← Record.of? TextScope.fields v
  let toxicity ← r.patch "toxicity" asBool?
  let severeToxicity ← r.patch "severe_toxicity" asBool?
  let identityAttack ← r.patch "identity_attack" asBool?
  let insult ← r.patch "insult" asBool?
  let profanity ← r.patch "profanity" asBool?
  let threat ← r.patch "threat" asBool?
  return { toxicity, severeToxicity, identityAttack, insult, profanity, threat }

/-- What a value sets of a scope. Nothing said about text sets none of those flags. -/
def ScopePatch.ofJson? (v : Json) : Option ScopePatch := do
  let r ← Record.of? Scope.fields v
  let image ← r.patch "image" asBool?
  let gif ← r.patch "gif" asBool?
  let text ← r.orElse "text" TextScopePatch.ofJson? {}
  let video ← r.patch "video" asBool?
  return { image, gif, text, video }

/-- What a value sets of a profile. Only the full name may be `null`, which clears it. -/
def ProfileUpdate.ofJson? (v : Json) : Option ProfileUpdate := do
  let r ← Record.of? ["full_name", "email_subscription_enabled", "billing_alert_enabled"] v
  let fullName ← r.patch "full_name" (Record.nullable asText?)
  let emailSubscription ← r.patch "email_subscription_enabled" asBool?
  let billingAlert ← r.patch "billing_alert_enabled" asBool?
  return { fullName, emailSubscription, billingAlert }

/-! ## Keys -/

/-- The policy of a value that has both texts. What they say is not looked at. -/
def Policy.ofJson? (v : Json) : Option Policy := do
  let r ← Record.of? ["name", "range"] v
  let name ← r.required "name" asText?
  let range ← r.required "range" asText?
  return { name, range }

/-- Both texts of a policy. -/
def Policy.toJson (p : Policy) : Json :=
  .object [("name", .text p.name), ("range", .text p.range)]

/-- A list of policies. -/
def Policy.listToJson (ps : List Policy) : Json :=
  .array (ps.map Policy.toJson)

/-- The request of a value that names the key. All else may be `null` or left out. -/
def KeyRequest.ofJson? (v : Json) : Option KeyRequest := do
  let r ← Record.of? ["name", "enabled", "scope", "access_policies"] v
  let name ← r.required "name" asText?
  let enabled ← r.omissible "enabled" asBool?
  let scope ← r.omissible "scope" Scope.ofJson?
  let policies ← r.omissible "access_policies" (asList? Policy.ofJson?)
  return { name, enabled, scope, policies }

/-- What a value sets of a key. Nothing may be `null`. -/
def KeyUpdate.ofJson? (v : Json) : Option KeyUpdate := do
  let r ← Record.of? ["name", "scope", "access_policies", "enabled"] v
  let name ← r.patch "name" asText?
  let scope ← r.patch "scope" ScopePatch.ofJson?
  let policies ← r.patch "access_policies" (asList? Policy.ofJson?)
  let enabled ← r.patch "enabled" asBool?
  return { name, scope, policies, enabled }

/-- What is shown of a key, member by member. -/
def ApiKey.members (k : ApiKey) : List (String × Json) :=
  [("id", .int k.id), ("name", .text k.name), ("prefix", .text k.lead),
    ("enabled", .bool k.enabled), ("scope", k.scope.toJson),
    ("access_policies", Policy.listToJson k.policies), ("created_at", .text k.createdAt.toString),
    ("modified_at", optionalInstant k.modifiedAt)]

/-- What is shown of a key, which is not its digest. -/
def ApiKey.toJson (k : ApiKey) : Json :=
  .object k.members

/-- What is shown of a new key: also its text, this once. -/
def IssuedKey.toJson (k : IssuedKey) : Json :=
  .object (k.key.members ++ [("key", .text k.text)])

/-! ## Accounts -/

/-- What is shown of an account. -/
def Account.toJson (a : Account) : Json :=
  .object [("id", .int a.id), ("username", .text a.username),
    ("full_name", optionalText a.fullName),
    ("email_subscription_enabled", .bool a.emailSubscription),
    ("billing_alert_enabled", .bool a.billingAlert), ("roles", textList a.roles),
    ("created_at", .text a.createdAt.toString)]

/-- What is shown of a device, its token included. -/
def Device.toJson (d : Device) : Json :=
  .object [("token", .text d.token.toString), ("created_at", .text d.createdAt.toString),
    ("expires_at", .text d.expiresAt.toString),
    ("request_metadata", optionalFingerprint d.fingerprint)]

/-- The refresh token is left out if there is none. -/
def Tokens.toJson (t : Tokens) : Json :=
  let refresh := match t.refresh with
    | none => []
    | some token => [("refresh_token", .text token.toString)]
  .object ([("access_token", .text t.access)] ++ refresh ++ [("expires_in", .int t.expiresIn)])

/-- What is shown of whoever a token speaks for. -/
def Principal.toJson (p : Principal) : Json :=
  .object [("username", .text p.username), ("roles", textList p.roles)]

/-! ## Trails -/

/-- What is shown of an entry about an account. -/
def SecurityEntry.toJson (e : SecurityEntry) : Json :=
  .object [("id", .int e.id), ("action", .text e.action),
    ("request_metadata", optionalFingerprint e.fingerprint),
    ("created_at", .text e.createdAt.toString)]

/-- What is shown of an entry about a key. -/
def KeyEntry.toJson (e : KeyEntry) : Json :=
  .object [("id", .int e.id), ("api_key_id", .int e.key), ("action", .text e.action),
    ("created_at", .text e.createdAt.toString)]

/-- What is shown of a charge. -/
def Charge.toJson (c : Charge) : Json :=
  .object [("id", .int c.id), ("action", .text c.action), ("amount", .text c.amount),
    ("created_at", .text c.createdAt.toString)]

end Latchkey
