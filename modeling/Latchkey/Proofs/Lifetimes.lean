import Latchkey.Config
import Latchkey.Proofs.AccessTokens
import Latchkey.Proofs.Text.Numbers

/-!
# Lifetimes that are set

The lifetimes of access and of devices are any signed words, in minutes and in days. Seconds are
counted in signed words too, and a timestamp holds the dates of about half a million years. For
which lifetimes this is enough, and what clients are told where it is not.
-/

namespace Latchkey

open Text

/-! ## Settings that are accepted -/

namespace Config

variable {env : Environment} {name : String} {absent i : Int}

theorem fitsWord_of_word (habsent : fitsWord absent = true) (h : word env name absent = .ok i) :
    fitsWord i = true := by
  unfold word at h
  split at h
  · exact Except.ok.inj h ▸ habsent
  · split at h
    · next hread => exact Except.ok.inj h ▸ fitsWord_of_signedWord? hread
    · cases h

theorem word_of_text (h : env name = some (String.ofList (integerText i)))
    (hi : fitsWord i = true) : word env name absent = .ok i := by
  simp only [word, h, String.toList_ofList, signedWord?_integerText hi]

/-- An environment that sets both lifetimes. -/
def lifetimes (minutes days : Int) : Environment := fun name =>
  if name = "JWT_SECRET" then some "secret"
  else if name = "JWT_ACCESS_EXPIRY_MINS" then some (String.ofList (integerText minutes))
  else if name = "REFRESH_TOKEN_EXPIRY_DAYS" then some (String.ofList (integerText days))
  else none

theorem sessionSettings_lifetimes {minutes days : Int} (hminutes : fitsWord minutes = true)
    (hdays : fitsWord days = true) : sessionSettings (lifetimes minutes days) =
      .ok { tokens := ⟨"secret", minutes⟩, refreshDays := days } := by
  have hdays : word (lifetimes minutes days) "REFRESH_TOKEN_EXPIRY_DAYS" 30 = .ok days :=
    word_of_text rfl hdays
  have hminutes : word (lifetimes minutes days) "JWT_ACCESS_EXPIRY_MINS" 60 = .ok minutes :=
    word_of_text rfl hminutes
  have hsecret : lifetimes minutes days "JWT_SECRET" = some "secret" := rfl
  have htokens : tokenSettings (lifetimes minutes days) = .ok ⟨"secret", minutes⟩ := by
    rw [tokenSettings, hsecret, hminutes]
    rfl
  rw [sessionSettings, hdays, htokens]
  rfl

/-- What is read in two steps was read in both. -/
theorem exists_of_bind_eq_ok {α β : Type} {x : Except Fault α} {f : α → Except Fault β} {b : β}
    (h : x >>= f = .ok b) : ∃ a, x = .ok a ∧ f a = .ok b := by
  cases x with
  | error e => cases h
  | ok a => exact ⟨a, rfl, h⟩

theorem fitsWord_of_tokenSettings {tokens : TokenSettings} (h : tokenSettings env = .ok tokens) :
    fitsWord tokens.minutes = true := by
  unfold tokenSettings at h
  split at h
  · cases h
  · split at h
    · cases h
    · obtain ⟨_, -, h⟩ := exists_of_bind_eq_ok h
      obtain ⟨minutes, hminutes, h⟩ := exists_of_bind_eq_ok h
      cases h
      exact fitsWord_of_word (by decide) hminutes

/-- Any words are accepted, and nothing else. -/
theorem accepts_iff (minutes days : Int) :
    (∃ env secret, sessionSettings env =
      .ok { tokens := ⟨secret, minutes⟩, refreshDays := days }) ↔
      fitsWord minutes = true ∧ fitsWord days = true := by
  constructor
  · rintro ⟨env, secret, h⟩
    obtain ⟨found, hdays, h⟩ := exists_of_bind_eq_ok h
    obtain ⟨tokens, htokens, h⟩ := exists_of_bind_eq_ok h
    cases h
    exact ⟨fitsWord_of_tokenSettings htokens, fitsWord_of_word (by decide) hdays⟩
  · rintro ⟨hminutes, hdays⟩
    exact ⟨lifetimes minutes days, "secret", sessionSettings_lifetimes hminutes hdays⟩

end Config

/-! ## Lifetimes that hold -/

namespace Instant

/-- The first day of a timestamp. -/
def firstDay : Int := Time.Date.dayNumber ⟨-262143, 1, 1⟩

/-- The last day of a timestamp. -/
def lastDay : Int := Time.Date.dayNumber ⟨262142, 12, 31⟩

/-- A timestamp can hold the instant. -/
def IsTimestamp (t : Instant) : Prop :=
  firstDay ≤ t.seconds / 86400 ∧ t.seconds / 86400 ≤ lastDay

/-- The instant is in the twenty-first century. -/
def IsOfCentury (t : Instant) : Prop :=
  Time.Date.dayNumber ⟨2001, 1, 1⟩ ≤ t.seconds / 86400 ∧
    t.seconds / 86400 ≤ Time.Date.dayNumber ⟨2100, 12, 31⟩

theorem days_eq : firstDay = -96465292 ∧ lastDay = 95026236 := by decide

theorem isOfCentury_iff {t : Instant} :
    t.IsOfCentury ↔ 978307200 ≤ t.seconds ∧ t.seconds < 4133980800 := by
  have hfirst : Time.Date.dayNumber ⟨2001, 1, 1⟩ = 11323 := by decide
  have hlast : Time.Date.dayNumber ⟨2100, 12, 31⟩ = 47846 := by decide
  rw [IsOfCentury, hfirst, hlast]
  omega

end Instant

namespace SessionSettings

/-- What is given at a time lasts as long as it is meant to: seconds and the expiry of access fit
words, the lifetime of a device is a span in milliseconds, and its expiry a timestamp. -/
structure HoldAt (settings : SessionSettings) (now : Instant) : Prop where
  lifetime : fitsWord (60 * settings.tokens.minutes) = true
  expiry : fitsWord (now.seconds + 60 * settings.tokens.minutes) = true
  span : (86400000 * settings.refreshDays).natAbs < 0x8000000000000000
  device : (now.addDays settings.refreshDays).IsTimestamp

/-- The lifetimes that hold at all times of the century. -/
structure AreModerate (settings : SessionSettings) : Prop where
  leastMinutes : -153722867280912930 ≤ settings.tokens.minutes
  mostMinutes : settings.tokens.minutes ≤ 153722867212013250
  leastDays : -96476615 ≤ settings.refreshDays
  mostDays : settings.refreshDays ≤ 94978390

theorem areModerate_iff (settings : SessionSettings) :
    settings.AreModerate ↔ ∀ now : Instant, now.IsOfCentury → settings.HoldAt now := by
  obtain ⟨hfirst, hlast⟩ := Instant.days_eq
  constructor
  · rintro ⟨hleast, hmost, hleastDays, hmostDays⟩ now hnow
    rw [Instant.isOfCentury_iff] at hnow
    refine ⟨fitsWord_iff.2 (by omega), fitsWord_iff.2 (by omega), by omega, ?_⟩
    simp only [Instant.IsTimestamp, Instant.addDays, Instant.addSeconds, hfirst, hlast]
    omega
  · intro h
    -- The first second of the century bounds from below, the last from above.
    have hstart := h ⟨978307200, 0⟩ (Instant.isOfCentury_iff.2 (by decide))
    have hend := h ⟨4133980799, 0⟩ (Instant.isOfCentury_iff.2 (by decide))
    have hlifetime := fitsWord_iff.1 hstart.lifetime
    have hexpiry := fitsWord_iff.1 hend.expiry
    have hfirstDevice := hstart.device.1
    have hlastDevice := hend.device.2
    dsimp only at hexpiry
    simp only [Instant.addDays, Instant.addSeconds, hfirst, hlast] at hfirstDevice hlastDevice
    exact ⟨by omega, by omega, by omega, by omega⟩

end SessionSettings

/-! ## What is given -/

namespace TokenSettings

variable (settings : TokenSettings) (now : Instant)

theorem lifetime_eq : settings.lifetime = wrapWord (60 * settings.minutes) := by
  rw [lifetime, Int.mul_comm]

theorem expiresAt_claims (username : String) (roles : List String) (id : Uuid) :
    (settings.claims username roles now id).expiresAt =
      wrapWord (now.seconds + 60 * settings.minutes) := by
  rw [claims, lifetime_eq, wrapWord_add_wrapWord]

theorem fitWords_claims (hnow : now.IsOfCentury) (username : String) (roles : List String)
    (id : Uuid) : (settings.claims username roles now id).FitWords := by
  rw [Instant.isOfCentury_iff] at hnow
  have hissued : fitsWord now.seconds = true := fitsWord_of_nonneg (by omega) (by omega)
  refine ⟨?_, hissued⟩
  rw [expiresAt_claims]
  exact fitsWord_wrapWord _

end TokenSettings

namespace Service

variable (s : Service) {given : Given} {t t' : Tables} {tokens : Tokens}

/-- What is told of a lifetime is right if it fits, and so is the expiry in a token. -/
theorem lifetime_of_answered (hnow : given.now.IsOfCentury) {ask : AccessAsk}
    (h : s.perform ⟨given, ask.operation⟩ t = (.ok tokens, t')) :
    (tokens.expiresIn = 60 * s.session.tokens.minutes ↔
      fitsWord (60 * s.session.tokens.minutes) = true) ∧
    ∃ claims, AccessToken.claims? tokens.access = some claims ∧
      claims.issuedAt = given.now.seconds ∧
      (claims.expiresAt = given.now.seconds + 60 * s.session.tokens.minutes ↔
        fitsWord (given.now.seconds + 60 * s.session.tokens.minutes) = true) := by
  obtain ⟨a, refresh, -, rfl⟩ := s.account?_of_answered h
  have hfit := s.session.tokens.fitWords_claims given.now hnow a.username a.roles given.tokenId
  refine ⟨?_, _, AccessToken.claims?_issue _ hfit, rfl, ?_⟩
  · show s.session.tokens.lifetime = _ ↔ _
    rw [TokenSettings.lifetime_eq, wrapWord_eq_self_iff]
  · rw [TokenSettings.expiresAt_claims, wrapWord_eq_self_iff]

/-- A sign-in that is answered registers a device that expires the set number of days later. -/
theorem device_of_answered {username password : String} {fingerprint : Option Fingerprint}
    (h : s.perform ⟨given, .signIn username password fingerprint⟩ t = (.ok tokens, t')) :
    ∃ d ∈ t'.devices, tokens.refresh = some d.token ∧ d.createdAt = given.now ∧
      d.expiresAt = given.now.addDays s.session.refreshDays := by
  rcases Session.fits_or_run_signIn_refused s.session s.passwords given username password
    fingerprint t with ⟨a, hfound, hverify⟩ | ⟨e, hrun⟩
  · have hexec : s.perform ⟨given, .signIn username password fingerprint⟩ t =
        (.ok (Session.tokensFor s.session given a (some given.uuid)),
          Session.withDevice s.session given a fingerprint t) :=
      Session.exec_signIn_accepted hfound hverify
    obtain ⟨hanswer, rfl⟩ := Prod.mk.inj (hexec.symm.trans h)
    obtain rfl := Except.ok.inj hanswer
    exact ⟨Session.newDevice s.session given a fingerprint,
      List.mem_append_right _ List.mem_cons_self, rfl, rfl, rfl⟩
  · have hexec : s.perform ⟨given, .signIn username password fingerprint⟩ t = (.error e, t) :=
      congrArg (fun run => (run.value, run.state)) hrun
    rw [hexec] at h
    cases h

/-- The lifetimes of a service are accepted if and only if they are words, but only moderate ones
hold at all times of the century. Whatever was set, access that is given at a time tells its
lifetime and its expiry as they are meant if and only if these fit words, and a device is to expire
the set number of days after its sign-in, whether or not a timestamp holds that. -/
theorem lifetimes_hold_iff (s : Service) :
    ((∃ env secret, Config.sessionSettings env = .ok {
        tokens := ⟨secret, s.session.tokens.minutes⟩
        refreshDays := s.session.refreshDays }) ↔
      fitsWord s.session.tokens.minutes = true ∧ fitsWord s.session.refreshDays = true) ∧
    ((∀ now : Instant, now.IsOfCentury → s.session.HoldAt now) ↔ s.session.AreModerate) ∧
    ∀ (given : Given) (t t' : Tables) (tokens : Tokens), given.now.IsOfCentury →
      (∀ ask : AccessAsk, s.perform ⟨given, ask.operation⟩ t = (.ok tokens, t') →
        (tokens.expiresIn = 60 * s.session.tokens.minutes ↔
          fitsWord (60 * s.session.tokens.minutes) = true) ∧
        ∃ claims, AccessToken.claims? tokens.access = some claims ∧
          claims.issuedAt = given.now.seconds ∧
          (claims.expiresAt = given.now.seconds + 60 * s.session.tokens.minutes ↔
            fitsWord (given.now.seconds + 60 * s.session.tokens.minutes) = true)) ∧
      ∀ username password fingerprint,
        s.perform ⟨given, .signIn username password fingerprint⟩ t = (.ok tokens, t') →
          ∃ d ∈ t'.devices, tokens.refresh = some d.token ∧ d.createdAt = given.now ∧
            d.expiresAt = given.now.addDays s.session.refreshDays :=
  ⟨Config.accepts_iff _ _, s.session.areModerate_iff.symm,
    fun _ _ _ _ hnow => ⟨fun _ h => s.lifetime_of_answered hnow h,
      fun _ _ _ h => s.device_of_answered h⟩⟩

/-- With the usual lifetimes all is as it is meant to be at the start of 2026. -/
theorem lifetimes_hold_iff_usual :
    Service.plain.session.HoldAt ⟨1767225600, 0⟩ ∧
    ∃ tokens t', Service.plain.perform
        ⟨.sample 1767225600, (AccessAsk.signUp "ada@example.com" "correct horse").operation⟩ {} =
          (.ok tokens, t') ∧
      tokens.expiresIn = 60 * 15 ∧
      ∃ claims, AccessToken.claims? tokens.access = some claims ∧
        claims.expiresAt = 1767225600 + 60 * 15 := by
  obtain ⟨-, hsettings, hgiven⟩ := Service.plain.lifetimes_hold_iff
  have hnow : (⟨1767225600, 0⟩ : Instant).IsOfCentury := Instant.isOfCentury_iff.2 (by decide)
  obtain ⟨tokens, t', hanswered⟩ : ∃ tokens t', Service.plain.perform
      ⟨.sample 1767225600, (AccessAsk.signUp "ada@example.com" "correct horse").operation⟩ {} =
        (.ok tokens, t') := ⟨_, _, rfl⟩
  obtain ⟨hlifetime, claims, hclaims, -, hexpiry⟩ :=
    (hgiven (.sample 1767225600) {} t' tokens hnow).1 _ hanswered
  exact ⟨hsettings.2 ⟨by decide, by decide, by decide, by decide⟩ _ hnow,
    tokens, t', hanswered, hlifetime.2 (by decide), claims, hclaims, hexpiry.2 (by decide)⟩

/-- Rules with a lifetime of access that has more seconds than a word counts. -/
def hugeMinutes : SessionSettings where
  tokens := ⟨"secret", 307445734561825861⟩

/-- Rules with a lifetime of devices that ends after the last timestamp. -/
def hugeDays : SessionSettings where
  tokens := ⟨"secret", 60⟩
  refreshDays := 100000000

/-- Both are accepted and do not hold: a sign-up at the start of 2026 is told that its access, which
is to last for ages, lasts forty-four seconds, and a device is to expire at no time that a timestamp
holds. -/
theorem not_lifetimes_hold :
    Config.sessionSettings (Config.lifetimes 307445734561825861 30) = .ok hugeMinutes ∧
    (⟨1767225600, 0⟩ : Instant).IsOfCentury ∧
    ¬ hugeMinutes.HoldAt ⟨1767225600, 0⟩ ∧
    (∃ tokens t', ({ Service.plain with session := hugeMinutes } : Service).perform
        ⟨.sample 1767225600, .signUp "ada@example.com" "correct horse"⟩ {} = (.ok tokens, t') ∧
      tokens.expiresIn = 44 ∧
      ∃ claims, AccessToken.claims? tokens.access = some claims ∧
        claims.expiresAt = 1767225600 + 44) ∧
    Config.sessionSettings (Config.lifetimes 60 100000000) = .ok hugeDays ∧
    ¬ ((⟨1767225600, 0⟩ : Instant).addDays hugeDays.refreshDays).IsTimestamp := by
  have hnow : (⟨1767225600, 0⟩ : Instant).IsOfCentury := Instant.isOfCentury_iff.2 (by decide)
  have hfit := hugeMinutes.tokens.fitWords_claims ⟨1767225600, 0⟩ hnow "ada@example.com" ["admin"]
    (Given.sample 1767225600).tokenId
  refine ⟨Config.sessionSettings_lifetimes (by decide) (by decide), hnow,
    fun h => absurd h.lifetime (by decide), ⟨_, _, rfl, by decide, _,
      AccessToken.claims?_issue _ hfit, by decide⟩,
    Config.sessionSettings_lifetimes (by decide) (by decide), fun h => absurd h.2 (by decide)⟩

end Service

end Latchkey
