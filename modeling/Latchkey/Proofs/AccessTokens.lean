import Latchkey.Proofs.Devices
import Latchkey.Proofs.Json.Records
import Latchkey.Proofs.Text.Base64

/-!
# Access tokens are read back

An access token that the service issued is cut where it was put together, and each of its parts is
the value that was written into it. It carries its own signature, so that only the time is left to
decide: it is good from when it was issued until a minute after its expiry.
-/

namespace Latchkey

open Text Json

/-! ## Claims -/

namespace Claims

theorem isPlain_toJson (c : Claims) : c.toJson.isPlain = true := by
  have hroles : arePlain (c.roles.map .text) = true := ReadsBack.text.list.isPlain c.roles
  simp [toJson, Json.isPlain, haveOnlyPlain, hroles, Json.int]

/-- Both times of the claims fit a word of 64 bits. -/
def FitWords (c : Claims) : Prop :=
  fitsWord c.expiresAt = true ∧ fitsWord c.issuedAt = true

/-- Claims are what their own value is read as. -/
theorem ofJson?_toJson {c : Claims} (h : c.FitWords) : ofJson? c.toJson = some c := by
  obtain ⟨hexpires, hissued⟩ := h
  have hroles : asList? asText? (.array (c.roles.map .text)) = some c.roles :=
    ReadsBack.text.list.read_write c.roles
  simp [ofJson?, toJson, Record.of?, Record.distinct, Record.required, Record.get?,
    List.lookup_cons, asText?, hroles, asWord?, Json.int, hexpires, hissued]

end Claims

namespace AccessToken

/-! ## Parts -/

/-- A plain value is what its part stands for. -/
theorem value_part {v : Json} (hv : v.isPlain = true) : value (part v) = .ok v := by
  rw [value, part, Base64.decode?_encode Base64.isLawful_urlSafe]
  dsimp only
  rw [Json.ofBytes?_bytes, Json.ofString?_toString hv]

/-- A token is cut into the parts that it was put together from. -/
theorem parts?_issue (secret : String) (c : Claims) :
    parts? (issue secret c).toList = some (part header, part c.toJson,
      signature secret (part header ++ '.' :: part c.toJson)) := by
  have hglue : (issue secret c).toList = glue '.' [part header, part c.toJson,
      signature secret (part header ++ '.' :: part c.toJson)] := by
    rw [issue, String.toList_ofList]
    simp only [glue, List.append_assoc, List.cons_append]
  have hpoints : ∀ p ∈ [part header, part c.toJson,
      signature secret (part header ++ '.' :: part c.toJson)], '.' ∉ p := by
    intro p hp
    simp only [List.mem_cons, List.not_mem_nil, or_false] at hp
    rcases hp with rfl | rfl | rfl <;>
      exact Base64.not_mem_encode Base64.isLawful_urlSafe (by decide) _
  rw [parts?, hglue, pieces_glue (by simp) hpoints]
  rfl

theorem headerAlgorithm?_header : headerAlgorithm? header = some signingAlgorithm := by
  decide

/-! ## Validity -/

/-- Claims without an audience are good until a minute after they expire. -/
theorem checkValidity_toJson {c : Claims} (h : c.FitWords) (hend : 0 ≤ c.expiresAt) (now : Int) :
    checkValidity now c.toJson =
      if now ≤ c.expiresAt + leeway then .ok () else .error .expired := by
  have hnegative : ¬ c.expiresAt < 0 := by omega
  have hlate : c.expiresAt < now - leeway ↔ ¬ now ≤ c.expiresAt + leeway := by omega
  by_cases hgood : now ≤ c.expiresAt + leeway <;>
    simp [checkValidity, validityFields, Claims.toJson, Record.of?, Record.distinct, Record.get?,
      List.lookup_cons, asWord?, Json.int, h.1, hnegative, hlate, hgood]

/-- The claims of a token that was issued here are its own until a minute after they expire. -/
theorem check_issue (secret : String) {c : Claims} (h : c.FitWords) (hend : 0 ≤ c.expiresAt)
    (now : Int) :
    check secret now (issue secret c) =
      if now ≤ c.expiresAt + leeway then .ok c else .error .expired := by
  have hheader : value (part header) = .ok header := value_part rfl
  have hclaims : value (part c.toJson) = .ok c.toJson := value_part c.isPlain_toJson
  unfold check
  rw [parts?_issue]
  simp only [hheader, hclaims, bind, Except.bind, headerAlgorithm?_header, ne_eq, not_true,
    if_false, Claims.ofJson?_toJson h, checkValidity_toJson h hend]
  by_cases hgood : now ≤ c.expiresAt + leeway
  · rw [if_pos hgood, if_pos hgood]
    rfl
  · rw [if_neg hgood, if_neg hgood]

/-- The claims that a token carries, whoever signed it. -/
def claims? (token : String) : Option Claims := do
  let (_, body, _) ← parts? token.toList
  let v ← (value body).toOption
  Claims.ofJson? v

theorem claims?_issue (secret : String) {c : Claims} (h : c.FitWords) :
    claims? (issue secret c) = some c := by
  have hclaims : value (part c.toJson) = .ok c.toJson := value_part c.isPlain_toJson
  rw [claims?, parts?_issue]
  simp only [bind, Option.bind_some, hclaims, Except.toOption, Claims.ofJson?_toJson h]

end AccessToken

/-! ## Lifetimes -/

namespace TokenSettings

/-- What is issued at this second expires, its minute of grace included, before a word of 64 bits
overflows. -/
structure Lasts (settings : TokenSettings) (now : Int) : Prop where
  minutes : 0 ≤ settings.minutes
  start : 60 ≤ now
  word : now + 60 * settings.minutes + 60 < 0x8000000000000000

variable {settings : TokenSettings} {now : Instant}

theorem Lasts.lifetime (h : settings.Lasts now.seconds) :
    settings.lifetime = 60 * settings.minutes := by
  obtain ⟨hminutes, hstart, hword⟩ := h
  rw [TokenSettings.lifetime, Int.mul_comm]
  exact wrapWord_of_fitsWord (fitsWord_of_nonneg (by omega) (by omega))

theorem Lasts.expiresAt (h : settings.Lasts now.seconds) (username : String)
    (roles : List String) (id : Uuid) :
    (settings.claims username roles now id).expiresAt =
      now.seconds + 60 * settings.minutes := by
  have hlifetime := h.lifetime
  obtain ⟨hminutes, hstart, hword⟩ := h
  rw [claims, hlifetime]
  exact wrapWord_of_fitsWord (fitsWord_of_nonneg (by omega) (by omega))

theorem Lasts.expiresAt_nonneg (h : settings.Lasts now.seconds) (username : String)
    (roles : List String) (id : Uuid) :
    0 ≤ (settings.claims username roles now id).expiresAt := by
  have hexpires := h.expiresAt username roles id
  obtain ⟨hminutes, hstart, hword⟩ := h
  omega

theorem Lasts.fitWords (h : settings.Lasts now.seconds) (username : String)
    (roles : List String) (id : Uuid) : (settings.claims username roles now id).FitWords := by
  have hexpires := h.expiresAt username roles id
  obtain ⟨hminutes, hstart, hword⟩ := h
  have hissued : fitsWord now.seconds = true := fitsWord_of_nonneg (by omega) (by omega)
  refine ⟨?_, hissued⟩
  rw [hexpires]
  exact fitsWord_of_nonneg (by omega) (by omega)

end TokenSettings

/-! ## Access that the service gives -/

/-- A request for access. -/
inductive AccessAsk where
  | signUp (username password : String)
  | signIn (username password : String) (fingerprint : Option Fingerprint)
  | refresh (token : Uuid)

namespace AccessAsk

/-- The operation that is asked for. -/
def operation : AccessAsk → Operation Tokens
  | .signUp username password => .signUp username password
  | .signIn username password fingerprint => .signIn username password fingerprint
  | .refresh token => .refresh token

/-- The account that access is asked for: the one of this name, or the one that the device belongs
to. -/
def account? (t : Tables) : AccessAsk → Option Account
  | .signUp username _ | .signIn username _ _ => t.accountNamed? username
  | .refresh token => (t.device? token).bind fun d => t.account? d.account

end AccessAsk

namespace Session

variable {settings : SessionSettings} {hasher : Hasher} {given : Given} {t t' : Tables}
variable {tokens : Tokens}

/-- A sign-up that is answered has added the account it gives access to. -/
theorem access_signUp {username password : String}
    (h : (signUp settings hasher given username password).exec t = (.ok tokens, t')) :
    ∃ a, t'.accountNamed? username = some a ∧ tokens = tokensFor settings given a none := by
  rw [exec_signUp] at h
  split at h
  · cases h
  · cases h
  · split at h
    · cases h
    · next htaken =>
      split at h
      · cases h
      · next digest hdigest =>
        obtain ⟨hanswer, rfl⟩ := Prod.mk.inj h
        obtain rfl := Except.ok.inj hanswer
        have hfree : t.isTaken (newAccount settings given username digest).username = false :=
          Bool.eq_false_iff.2 htaken
        have hnone : t.accounts.find? (·.username = username) = none :=
          List.find?_eq_none.2 fun a ha => List.any_eq_false.1 hfree a ha
        refine ⟨(newAccount settings given username digest).row t.nextId, ?_, rfl⟩
        rw [Tables.accountNamed?, (Tables.insertAccount_of_free hfree).2, List.find?_append, hnone]
        simp [newAccount, NewAccount.row]

/-- A sign-in that is answered gives access to the account of its name. -/
theorem access_signIn {username password : String} {fingerprint : Option Fingerprint}
    (h : (signIn settings hasher given username password fingerprint).exec t = (.ok tokens, t')) :
    ∃ a, t'.accountNamed? username = some a ∧
      tokens = tokensFor settings given a (some given.uuid) := by
  rcases fits_or_run_signIn_refused settings hasher given username password fingerprint t with
    ⟨a, hfound, hverify⟩ | ⟨e, hrefused⟩
  · rw [exec_signIn_accepted hfound hverify] at h
    obtain ⟨hanswer, rfl⟩ := Prod.mk.inj h
    obtain rfl := Except.ok.inj hanswer
    refine ⟨a, ?_, rfl⟩
    have haccounts : (withDevice settings given a fingerprint t).accounts = t.accounts := by
      cases fingerprint <;> rfl
    rw [Tables.accountNamed?, haccounts]
    exact hfound
  · rw [Request.exec, hrefused] at h
    cases h

/-- A refresh that is answered gives access to the account of its device. -/
theorem access_refresh {token : Uuid}
    (h : (refresh settings given token).exec t = (.ok tokens, t')) :
    ∃ d a, t'.device? token = some d ∧ t'.account? d.account = some a ∧
      tokens = tokensFor settings given a (some d.token) := by
  rw [exec_refresh] at h
  split at h
  · cases h
  · next d hdevice =>
    split at h
    · cases h
    · next a haccount =>
      obtain ⟨hanswer, rfl⟩ := Prod.mk.inj h
      obtain rfl := Except.ok.inj hanswer
      exact ⟨d, a, (Option.filter_eq_some_iff.1 hdevice).1, haccount, rfl⟩

end Session

namespace Service

variable (s : Service) {given : Given} {t t' : Tables} {ask : AccessAsk} {tokens : Tokens}

/-- Access that is answered is for the account it was asked for. -/
theorem account?_of_answered (h : s.perform ⟨given, ask.operation⟩ t = (.ok tokens, t')) :
    ∃ a refresh, ask.account? t' = some a ∧
      tokens = Session.tokensFor s.session given a refresh := by
  cases ask with
  | signUp username password =>
    obtain ⟨a, hfound, htokens⟩ := Session.access_signUp h
    exact ⟨a, none, hfound, htokens⟩
  | signIn username password fingerprint =>
    obtain ⟨a, hfound, htokens⟩ := Session.access_signIn h
    exact ⟨a, some given.uuid, hfound, htokens⟩
  | refresh token =>
    obtain ⟨d, a, hdevice, haccount, htokens⟩ := Session.access_refresh h
    refine ⟨a, some d.token, ?_, htokens⟩
    rw [AccessAsk.account?, hdevice, Option.bind_some, haccount]

/-- A bearer is let in with claims that are good, and refused otherwise. -/
theorem perform_authenticateBearer (later : Given) (token : String) (u : Tables) :
    s.perform ⟨later, .authenticateBearer token⟩ u =
      (match AccessToken.check s.session.tokens.secret later.now.seconds token with
        | .ok claims => .ok ⟨claims.subject, claims.roles⟩
        | .error _ => .error .invalidAccessToken, u) := by
  rw [perform, request, Session.authenticateBearer]
  cases AccessToken.check s.session.tokens.secret later.now.seconds token <;> rfl

/-- Access that the service gives lets the bearer in, under the name and the roles of the account,
until a minute after the token expires and no longer, and what is announced of its lifetime is what
its claims say. -/
theorem bearer_of_answered (hlasts : s.session.tokens.Lasts given.now.seconds)
    (hanswered : s.perform ⟨given, ask.operation⟩ t = (.ok tokens, t')) :
    ∃ a, ask.account? t' = some a ∧
      (∀ (later : Given) (u : Tables), given.now.seconds ≤ later.now.seconds →
        s.perform ⟨later, .authenticateBearer tokens.access⟩ u =
          (if later.now.seconds ≤ given.now.seconds + 60 * s.session.tokens.minutes + 60 then
            .ok ⟨a.username, a.roles⟩
          else .error .invalidAccessToken, u)) ∧
      ∃ claims, AccessToken.claims? tokens.access = some claims ∧
        claims.issuedAt = given.now.seconds ∧
        tokens.expiresIn = claims.expiresAt - claims.issuedAt := by
  obtain ⟨a, refresh, haccount, rfl⟩ := s.account?_of_answered hanswered
  have hfit := hlasts.fitWords a.username a.roles given.tokenId
  have hexpires := hlasts.expiresAt a.username a.roles given.tokenId
  have hend := hlasts.expiresAt_nonneg a.username a.roles given.tokenId
  refine ⟨a, haccount, ?_, _, AccessToken.claims?_issue _ hfit, rfl, ?_⟩
  · intro later u _
    have hcheck := AccessToken.check_issue s.session.tokens.secret hfit hend later.now.seconds
    rw [s.perform_authenticateBearer, Session.tokensFor, TokenSettings.issue, hcheck, hexpires]
    unfold AccessToken.leeway
    by_cases hgood : later.now.seconds ≤ given.now.seconds + 60 * s.session.tokens.minutes + 60
    · rw [if_pos hgood, if_pos hgood]
      rfl
    · rw [if_neg hgood, if_neg hgood]
  · rw [hexpires, Session.tokensFor]
    show s.session.tokens.lifetime = _ - given.now.seconds
    rw [hlasts.lifetime]
    omega

/-- A sign-up at the earliest second, with access for a quarter of an hour. -/
theorem bearer_of_answered_signUp :
    ∃ tokens t',
      Service.plain.perform
        ⟨.sample 60, (AccessAsk.signUp "ada@example.com" "correct horse").operation⟩ {} =
          (.ok tokens, t') ∧
      ∃ a, t'.accountNamed? "ada@example.com" = some a ∧
        (∀ (later : Given) (u : Tables), 60 ≤ later.now.seconds →
          Service.plain.perform ⟨later, .authenticateBearer tokens.access⟩ u =
            (if later.now.seconds ≤ 60 + 60 * 15 + 60 then .ok ⟨a.username, a.roles⟩
            else .error .invalidAccessToken, u)) ∧
        ∃ claims, AccessToken.claims? tokens.access = some claims ∧ claims.issuedAt = 60 ∧
          tokens.expiresIn = claims.expiresAt - claims.issuedAt := by
  have hlasts : Service.plain.session.tokens.Lasts (Given.sample 60).now.seconds :=
    ⟨by decide, by decide, by decide⟩
  obtain ⟨tokens, t', hanswered⟩ : ∃ tokens t', Service.plain.perform
      ⟨.sample 60, (AccessAsk.signUp "ada@example.com" "correct horse").operation⟩ {} =
        (.ok tokens, t') := ⟨_, _, rfl⟩
  exact ⟨tokens, t', hanswered, Service.plain.bearer_of_answered hlasts hanswered⟩

end Service

end Latchkey
