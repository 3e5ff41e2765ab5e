import Latchkey.Proofs.Http.Admission
import Latchkey.Proofs.TwoRuns

/-!
# What responses do not tell

Digests, reset tokens, the words of a store that fails and those of internal trouble are known to
the service and told to nobody. Two runs that differ in them alone come to the same status and the
same body.
-/

namespace Latchkey

/-! ## What is not to be told -/

/-- The account without its digest and its pending reset. -/
def Account.withoutSecrets (a : Account) : Account :=
  { a with passwordDigest := "", resetToken := none, resetExpiresAt := none }

/-- The tables with all accounts without their secrets. -/
def Tables.withoutSecrets (t : Tables) : Tables :=
  { t with accounts := t.accounts.map Account.withoutSecrets }

/-- The key without its digest, its account and the time of its deletion. -/
def ApiKey.withoutSecrets (k : ApiKey) : ApiKey :=
  { k with digest := "", account := 0, deletedAt := none }

/-- The failure without the words of internal trouble. -/
def Failure.withoutDetail : Failure → Failure
  | .internal _ => .internal ""
  | f => f

/-- Two hashers come to the same, but for the words of internal trouble. -/
structure Hasher.SameButDetail (h h' : Hasher) : Prop where
  digest : ∀ salt secret, (h.digest salt secret).mapError Failure.withoutDetail =
    (h'.digest salt secret).mapError Failure.withoutDetail
  verify : ∀ presented digest, (h.verify presented digest).mapError Failure.withoutDetail =
    (h'.verify presented digest).mapError Failure.withoutDetail

/-- Two backends come to the same from related states, but for the words of faults. -/
structure Backend.SameButTexts {σ σ' : Type} (b : Backend σ) (b' : Backend σ')
    (R : σ → σ' → Prop) : Prop where
  answer : ∀ {β : Type} (c : Call β) (s : σ) (s' : σ'), R s s' →
    (b.answer c s).1.toOption = (b'.answer c s').1.toOption ∧ R (b.answer c s).2 (b'.answer c s').2
  deliver : ∀ (n : Notice) (s : σ) (s' : σ'), R s s' →
    (b.deliver n s).1 = (b'.deliver n s').1 ∧ R (b.deliver n s).2 (b'.deliver n s').2

/-! ## What is shown -/

theorem Account.toJson_withoutSecrets (a : Account) : a.withoutSecrets.toJson = a.toJson := rfl

theorem ApiKey.members_withoutSecrets (k : ApiKey) : k.withoutSecrets.members = k.members := rfl

/-- Accounts are found under the same names without their secrets. -/
theorem Tables.accountNamed?_withoutSecrets (t : Tables) (username : String) :
    t.withoutSecrets.accountNamed? username =
      (t.accountNamed? username).map Account.withoutSecrets :=
  List.find?_map ..

/-- Hashers that come to the same find the same keys fitting. -/
theorem Hasher.SameButDetail.fits_eq {h h' : Hasher} (hh : h.SameButDetail h') (raw : String) :
    Keyring.fits h raw = Keyring.fits h' raw := by
  funext key
  have hverify := hh.verify raw key.digest
  unfold Keyring.fits
  cases hleft : h.verify raw key.digest <;> cases hright : h'.verify raw key.digest <;>
    simp_all [Except.mapError]

namespace Pairing

variable {σ σ' : Type}

/-- The backends answer the calls that requests over HTTP make alike: with accounts that are the
same without their secrets, and with the same keys. -/
structure ShowsAlike (D : Pairing σ σ') : Prop where
  account : ∀ username, D.AnswersAlike (.findAccountNamed username) fun found found' =>
    found.map Account.withoutSecrets = found'.map Account.withoutSecrets
  keys : ∀ lead, D.AnswersAlike (.listKeysLedBy lead) Eq

/-- Tables that are the same without the secrets of accounts show alike. -/
theorem showsAlike_memory :
    ShowsAlike ⟨.memory, .memory, fun t t' => t.withoutSecrets = t'.withoutSecrets⟩ where
  account username t t' (h : t.withoutSecrets = t'.withoutSecrets) := by
    refine ⟨.ok ?_, h⟩
    show (t.accountNamed? username).map Account.withoutSecrets =
      (t'.accountNamed? username).map Account.withoutSecrets
    rw [← Tables.accountNamed?_withoutSecrets, h, Tables.accountNamed?_withoutSecrets]
  keys lead t t' (h : t.withoutSecrets = t'.withoutSecrets) := by
    refine ⟨.ok ?_, h⟩
    show t.withoutSecrets.keysLedBy lead = t'.withoutSecrets.keysLedBy lead
    rw [h]

/-- Backends that come to the same but for the words of faults show alike. -/
theorem showsAlike_of_sameButTexts {b : Backend σ} {b' : Backend σ'} {R : σ → σ' → Prop}
    (h : b.SameButTexts b' R) : ShowsAlike ⟨b, b', R⟩ := by
  have hanswer {β : Type} (c : Call β) (P : β → β → Prop) (hP : ∀ a, P a a) :
      AnswersAlike ⟨b, b', R⟩ c P := by
    intro s s' hs
    obtain ⟨hsame, hstate⟩ := h.answer c s s' hs
    refine ⟨?_, hstate⟩
    dsimp only
    generalize (b.answer c s).1 = x at hsame ⊢
    generalize (b'.answer c s').1 = x' at hsame ⊢
    cases x with
    | ok a =>
      cases x' with
      | ok a' =>
        obtain rfl : a = a' := Option.some.inj hsame
        exact .ok (hP a)
      | error e' => cases hsame
    | error e =>
      cases x' with
      | ok a' => cases hsame
      | error e' => exact .error trivial
  exact ⟨fun _ => hanswer _ _ fun _ => rfl, fun _ => hanswer _ _ fun _ => rfl⟩

end Pairing

namespace Http

/-! ## Handlers -/

/-- Two services are the same, but for the words of internal trouble of their hashers. -/
structure App.SameButDetail (app app' : App) : Prop where
  passwords : app.service.passwords.SameButDetail app'.service.passwords
  keys : app.service.keys.SameButDetail app'.service.keys
  rest : app' = { app with service := { app.service with
    passwords := app'.service.passwords, keys := app'.service.keys } }

/-- A client is told the same of two problems. -/
def ReportedAlike (p p' : Problem) : Prop :=
  p.report = p'.report

/-- A client is told the same of two failures. -/
def ToldAlike (f f' : Failure) : Prop :=
  ReportedAlike (.failure f) (.failure f')

open Pairing

variable {σ σ' : Type} {D : Pairing σ σ'} {app app' : App} {given given' : Given}

theorem liftExcept_alike {α : Type} (x : Except Problem α) :
    D.RunsAlike ReportedAlike Eq (liftM x : Handler α) (liftM x : Handler α) :=
  runsAlike_liftExcept (ResultsAlike.refl (E := ReportedAlike) (fun _ => rfl) x)

/-- Operations that run alike are performed alike: their failures are told as they are. -/
theorem perform_alike {α α' : Type} {P : α → α' → Prop} {op : Operation α} {op' : Operation α'}
    (h : D.RunsAlike ToldAlike P (app.service.request given op) (app'.service.request given' op')) :
    D.RunsAlike ReportedAlike P (app.perform given op) (app'.perform given' op') :=
  runsAlike_adapt h fun _ _ h => h

/-- A bearer token is checked without the store. -/
theorem authenticateAccount_alike (happ : app.SameButDetail app') (hnow : given.now = given'.now)
    (m : Message) : D.RunsAlike ReportedAlike Eq (authenticateAccount app given m)
      (authenticateAccount app' given' m) := by
  have hsession : app'.service.session = app.service.session :=
    congrArg (·.service.session) happ.rest
  refine runsAlike_bind (liftExcept_alike (bearerToken m)) ?_
  rintro token _ rfl
  refine perform_alike ?_
  show D.RunsAlike ToldAlike Eq (Session.authenticateBearer app.service.session given token)
    (Session.authenticateBearer app'.service.session given' token)
  rw [hsession, Session.authenticateBearer, Session.authenticateBearer, ← hnow]
  cases AccessToken.check app.service.session.tokens.secret given.now.seconds token with
  | ok claims => exact runsAlike_pure rfl
  | error e => exact runsAlike_throw rfl

theorem responseTo_eq {x x' : Except Problem Json}
    (h : ResultsAlike ReportedAlike Eq x x') :
    responseTo x = responseTo x' := by
  cases h with
  | ok h => rw [h]
  | error h => rw [responseTo, responseTo, h]

section

variable (hD : D.ShowsAlike)

include hD

theorem findAccount_alike (username : String) :
    D.RunsAlike ToldAlike (fun a a' => a.withoutSecrets = a'.withoutSecrets)
      (Session.findAccount username) (Session.findAccount username) := by
  refine runsAlike_bind (runsAlike_ofCall (hD.account username) fun _ _ => rfl) ?_
  intro found found' hfound
  cases found with
  | none =>
    cases found' with
    | none => exact runsAlike_throw rfl
    | some a' => cases hfound
  | some a =>
    cases found' with
    | none => cases hfound
    | some a' => exact runsAlike_pure (Option.some.inj hfound)

theorem authenticate_alike {hasher hasher' : Hasher} (hh : hasher.SameButDetail hasher')
    (raw : String) :
    D.RunsAlike ToldAlike Eq (Keyring.authenticate hasher raw)
      (Keyring.authenticate hasher' raw) := by
  unfold Keyring.authenticate
  cases RawKey.lead? raw with
  | none => exact runsAlike_pure rfl
  | some lead =>
    refine runsAlike_bind (runsAlike_ofCall (hD.keys lead) fun _ _ => rfl) ?_
    rintro ks _ rfl
    exact runsAlike_pure (by rw [hh.fits_eq raw])

theorem currentAccount_alike (happ : app.SameButDetail app') (hnow : given.now = given'.now)
    (m : Message) : D.RunsAlike ReportedAlike Eq
      (currentAccount app given m) (currentAccount app' given' m) := by
  have htable : app'.table = app.table := congrArg (·.table) happ.rest
  refine runsAlike_bind (authenticateAccount_alike happ hnow m) ?_
  rintro principal _ rfl
  refine runsAlike_bind (perform_alike (findAccount_alike hD principal.username)) ?_
  intro a a' ha
  refine runsAlike_pure ?_
  rw [htable, ← a.toJson_withoutSecrets, ha, a'.toJson_withoutSecrets]

theorem authenticateKey_alike (happ : app.SameButDetail app') (m : Message) :
    D.RunsAlike ReportedAlike Eq
      (authenticateKey app given m) (authenticateKey app' given' m) := by
  have hproxies : app'.proxies = app.proxies := congrArg (·.proxies) happ.rest
  refine runsAlike_bind (liftExcept_alike (rawKey m)) ?_
  rintro raw _ rfl
  refine runsAlike_bind (perform_alike (authenticate_alike hD happ.keys raw)) ?_
  rintro found _ rfl
  rw [hproxies]
  cases found with
  | none => exact runsAlike_throw rfl
  | some key =>
    dsimp only
    split
    · exact runsAlike_throw rfl
    · split
      · exact runsAlike_throw rfl
      · exact runsAlike_pure rfl

theorem currentKey_alike (happ : app.SameButDetail app') (m : Message) :
    D.RunsAlike ReportedAlike Eq (currentKey app given m) (currentKey app' given' m) := by
  refine runsAlike_bind (authenticateKey_alike hD happ m) ?_
  rintro key _ rfl
  exact runsAlike_pure rfl

/-- Every route is handled alike. -/
theorem handle_alike (happ : app.SameButDetail app') (hnow : given.now = given'.now)
    (m : Message) (r : Route) : D.RunsAlike ReportedAlike Eq
      (r.handle app given m) (r.handle app' given' m) := by
  have hdatabase : app'.database = app.database := congrArg (·.database) happ.rest
  cases r with
  | health => exact runsAlike_pure (by rw [healthBody, healthBody, hdatabase])
  | account =>
    refine runsAlike_bind (currentAccount_alike hD happ hnow m) ?_
    rintro v _ rfl
    exact runsAlike_pure rfl
  | key =>
    refine runsAlike_bind (currentKey_alike hD happ m) ?_
    rintro v _ rfl
    exact runsAlike_pure rfl

/-- What a client is told is the same in both runs. -/
theorem told_alike (happ : app.SameButDetail app') (hnow : given.now = given'.now) (m : Message)
    {s : σ} {s' : σ'} (hs : D.alike s s') :
    ((respond app given m).run D.left s).value.told =
      ((respond app' given' m).run D.right s').value.told := by
  have houtcome (r : Route) := responseTo_eq (handle_alike hD happ hnow m r s s' hs).1
  simp only [told_respond, houtcome]

end

/-- A request for its own key that is let in is handled by showing the key. -/
theorem handle_key {b : Backend σ} {s : σ} {m : Message} {key : ApiKey}
    (h : (Program.run b (authenticateKey app given m).run s).value = .ok key) :
    (Program.run b (Route.key.handle app given m).run s).value = .ok (dataBody key.toJson) := by
  simp only [Route.handle, currentKey, Program.run_bind, Program.run_andThen, h]
  rfl

theorem sameButDetail_refl (app : App) : app.SameButDetail app where
  passwords := ⟨fun _ _ => rfl, fun _ _ => rfl⟩
  keys := ⟨fun _ _ => rfl, fun _ _ => rfl⟩
  rest := rfl

/-- Responses tell no secrets. Whatever a request asks for at a time, it is told the same where only
the digests and pending resets of accounts differ, and the same where only the words of a failing
store or of internal trouble do. Keys that differ in digest, account and time of deletion alone are
shown as the same, and a request that is let in with one of them is told the same. -/
theorem tells_no_secrets (app : App) (given given' : Given) (hnow : given.now = given'.now)
    (m : Message) :
    (∀ t t' : Tables, t.withoutSecrets = t'.withoutSecrets →
      ((respond app given m).run .memory t).value.told =
        ((respond app given' m).run .memory t').value.told) ∧
    (∀ app', app.SameButDetail app' →
      ∀ {σ σ' : Type} (b : Backend σ) (b' : Backend σ') (R : σ → σ' → Prop), b.SameButTexts b' R →
      ∀ s s', R s s' → ((respond app given m).run b s).value.told =
        ((respond app' given' m).run b' s').value.told) ∧
    ∀ key key' : ApiKey, key.withoutSecrets = key'.withoutSecrets →
      key.toJson = key'.toJson ∧
      (∀ text, (IssuedKey.mk key text).toJson = (IssuedKey.mk key' text).toJson) ∧
      (m.route = Route.key.path →
        ∀ (app' : App) {σ σ' : Type} (b : Backend σ) (b' : Backend σ') (s : σ) (s' : σ'),
          (Program.run b (authenticateKey app given m).run s).value = .ok key →
          (Program.run b' (authenticateKey app' given' m).run s').value = .ok key' →
          ((respond app given m).run b s).value.told =
            ((respond app' given' m).run b' s').value.told) := by
  refine ⟨fun t t' h => ?_, fun app' happ σ σ' b b' R h s s' hs => ?_, fun key key' h => ?_⟩
  · exact told_alike showsAlike_memory (sameButDetail_refl app) hnow m h
  · exact told_alike (showsAlike_of_sameButTexts h) happ hnow m hs
  · have hmembers : key.members = key'.members := by
      rw [← key.members_withoutSecrets, h, key'.members_withoutSecrets]
    refine ⟨congrArg Json.object hmembers, fun text => ?_, ?_⟩
    · exact congrArg (fun members => Json.object (members ++ [("key", .text text)])) hmembers
    · intro hroute app' σ σ' b b' s s' hleft hright
      have hof : Route.ofPath? m.route = some .key := by
        rw [hroute]
        rfl
      have hshown : key.toJson = key'.toJson := congrArg Json.object hmembers
      simp only [told_respond, hof, handle_key hleft, handle_key hright, hshown]

/-- A hasher that always gives up, for one reason. -/
def brokenHasher (detail : String) : Hasher where
  digest _ _ := .error (.internal detail)
  verify _ _ := .error (.internal detail)

/-- A service that cannot check keys. -/
def keylessApp (detail : String) : App :=
  { plainApp with service := { Service.plain with keys := brokenHasher detail } }

/-- Ada asks for her account. -/
def adaRequest : Message where
  method := "GET"
  target := "/api/v1/me"
  headers := [field "Authorization" ("Bearer " ++
    Service.plain.session.tokens.issue "ada@example.com" ["admin"] ⟨1, 0⟩ ⟨1⟩)]
  peer := none

/-- Her office, after she has forgotten her password. -/
def forgetfulTables : Tables :=
  Service.plain.after officeTables [⟨.sample 3, .forgotPassword "ada@example.com"⟩]

/-- Her office, with the key in other hands. -/
def foreignTables : Tables :=
  { officeTables with keys := officeTables.keys.map fun key => { key with account := 7 } }

/-- The key of her office, as the account of a number has it. -/
def officeKeyOf (account : RowId) : ApiKey where
  id := 3
  account := account
  name := "ci"
  lead := "CCCCCCC"
  digest := (Given.sample 2).rawKey.text
  enabled := true
  scope := {}
  policies := [⟨"office", "10.0.0.0/8"⟩]
  createdAt := ⟨2, 0⟩
  modifiedAt := none
  deletedAt := none

theorem tells_no_secrets_adaForgets :
    officeTables ≠ forgetfulTables ∧
    ((respond plainApp (.sample 4) adaRequest).run .memory officeTables).value.told =
      ((respond plainApp (.sample 4) adaRequest).run .memory forgetfulTables).value.told ∧
    ((respond (keylessApp "no memory") (.sample 4) adaRequest).run
        (.broken ⟨"reset"⟩) ()).value.told =
      ((respond (keylessApp "no cores") (.sample 4) adaRequest).run
        (.broken ⟨"timeout"⟩) ()).value.told ∧
    officeKeyOf 1 ≠ officeKeyOf 7 ∧
    ((respond plainApp (.sample 4) officeRequest).run .memory officeTables).value.told =
      ((respond plainApp (.sample 4) officeRequest).run .memory foreignTables).value.told := by
  have hforgot : officeTables.withoutSecrets = forgetfulTables.withoutSecrets := by decide +kernel
  have hkeyless : (keylessApp "no memory").SameButDetail (keylessApp "no cores") :=
    ⟨⟨fun _ _ => rfl, fun _ _ => rfl⟩, ⟨fun _ _ => rfl, fun _ _ => rfl⟩, rfl⟩
  have hbroken : (Backend.broken ⟨"reset"⟩ : Backend Unit).SameButTexts
      (Backend.broken ⟨"timeout"⟩) Eq :=
    ⟨fun _ _ _ h => ⟨rfl, h⟩, fun _ _ _ h => ⟨rfl, h⟩⟩
  have hhere : (Program.run .memory (authenticateKey plainApp (.sample 4) officeRequest).run
      officeTables).value = .ok (officeKeyOf 1) := by decide +kernel
  have hthere : (Program.run .memory (authenticateKey plainApp (.sample 4) officeRequest).run
      foreignTables).value = .ok (officeKeyOf 7) := by decide +kernel
  obtain ⟨hsecrets, -, -⟩ := tells_no_secrets plainApp (.sample 4) (.sample 4) rfl adaRequest
  obtain ⟨-, htexts, -⟩ :=
    tells_no_secrets (keylessApp "no memory") (.sample 4) (.sample 4) rfl adaRequest
  obtain ⟨-, -, hkeys⟩ := tells_no_secrets plainApp (.sample 4) (.sample 4) rfl officeRequest
  obtain ⟨-, -, hechoed⟩ := hkeys (officeKeyOf 1) (officeKeyOf 7) rfl
  refine ⟨by decide +kernel, hsecrets officeTables forgetfulTables hforgot,
    htexts (keylessApp "no cores") hkeyless _ _ Eq hbroken () () rfl, by decide, ?_⟩
  exact hechoed (by decide +kernel) plainApp .memory .memory officeTables foreignTables hhere hthere

end Http

end Latchkey
