import Latchkey.Proofs.Http.Handling
import Latchkey.Proofs.Text.Cutting

/-!
# Admission of keys

A request for its own key is answered by three questions in a row: does the header present a text,
is the text a key, and may the key be used from where the request comes. `respond_currentKey` says
which requests get which answer, and that asking changes nothing.
-/

namespace Latchkey.Http

open Text Keyring

/-! ## What a request presents -/

/-- The `Authorization` header is the name of the scheme for keys and a text that trims to this one,
which is not empty. -/
def Message.Presents (m : Message) (raw : String) : Prop :=
  ∃ value rest, m.text? "authorization" = some value ∧ value = "ApiKey " ++ rest ∧
    trim rest = raw ∧ raw ≠ ""

theorem ofAuthorization?_eq_some {value raw : String} :
    RawKey.ofAuthorization? value = some raw ↔
      ∃ rest, value = "ApiKey " ++ rest ∧ trim rest = raw ∧ raw ≠ "" := by
  have hstart (rest : List Char) : dropStart? "ApiKey ".toList value.toList = some rest ↔
      value = "ApiKey " ++ String.ofList rest := by
    rw [dropStart?_eq_some, ← String.toList_inj, String.toList_append, String.toList_ofList,
      String.toList_ofList]
  have hkey (rest : List Char) : (if (trimChars rest).isEmpty then none
      else some (String.ofList (trimChars rest))) = some raw ↔
        trim (String.ofList rest) = raw ∧ raw ≠ "" := by
    rw [trim, String.toList_ofList]
    split
    · next hempty =>
      rw [List.isEmpty_iff.1 hempty]
      simp
    · next hne =>
      rw [List.isEmpty_iff] at hne
      rw [Option.some.injEq]
      constructor
      · rintro rfl
        simpa using hne
      · exact fun h => h.1
  unfold RawKey.ofAuthorization?
  refine Option.bind_eq_some_iff.trans ?_
  constructor
  · rintro ⟨rest, hrest, h⟩
    exact ⟨String.ofList rest, (hstart rest).1 hrest, (hkey rest).1 h⟩
  · rintro ⟨rest, hrest, h⟩
    refine ⟨rest.toList, (hstart _).2 ?_, (hkey _).2 ?_⟩
    · rw [String.ofList_toList]
      exact hrest
    · rw [String.ofList_toList]
      exact h

/-- The text that a request presents is looked for; a request that presents none is told so. -/
theorem rawKey_cases (m : Message) :
    (∃ raw, rawKey m = .ok raw ∧ ∀ raw', m.Presents raw' ↔ raw' = raw) ∨
      ∃ reason, rawKey m = .error (.unauthorized reason) ∧ ∀ raw, ¬m.Presents raw := by
  have hpresents (value : String) (hvalue : m.text? "authorization" = some value) (raw : String) :
      m.Presents raw ↔ RawKey.ofAuthorization? value = some raw := by
    simp only [Message.Presents, hvalue, Option.some.injEq, exists_and_left, exists_eq_left',
      ofAuthorization?_eq_some]
  cases hvalue : m.text? "authorization" with
  | none =>
    refine .inr ⟨"Missing Authorization header", ?_, ?_⟩
    · rw [rawKey, authorization, hvalue]
      rfl
    · rintro raw ⟨value, rest, hsome, -⟩
      rw [hvalue] at hsome
      cases hsome
  | some value =>
    cases hof : RawKey.ofAuthorization? value with
    | none =>
      refine .inr ⟨"Invalid Authorization format. Expected: ApiKey <key>", ?_, ?_⟩
      · simp only [rawKey, authorization, hvalue, hof, bind, Except.bind]
        rfl
      · intro raw hraw
        rw [hpresents value hvalue, hof] at hraw
        cases hraw
    | some raw =>
      refine .inl ⟨raw, ?_, ?_⟩
      · simp only [rawKey, authorization, hvalue, hof, bind, Except.bind]
        rfl
      · intro raw'
        rw [hpresents value hvalue, hof, Option.some.injEq, eq_comm]

/-- No request presents two texts. -/
theorem Message.Presents.exists_iff {m : Message} {raw : String} (h : m.Presents raw)
    {P : String → Prop} : (∃ raw', m.Presents raw' ∧ P raw') ↔ P raw := by
  refine ⟨?_, fun hraw => ⟨raw, h, hraw⟩⟩
  rintro ⟨raw', h', hraw'⟩
  rcases rawKey_cases m with ⟨text, -, heq⟩ | ⟨reason, -, hnone⟩
  · rwa [(heq raw).1 h, ← (heq raw').1 h']
  · exact (hnone raw h).elim

/-! ## What becomes of it -/

variable (app : App) (given : Given) (t : Tables)

/-- The service takes a text for a key, or for none. -/
def App.Takes (raw : String) (key? : Option ApiKey) : Prop :=
  (app.service.perform ⟨given, .authenticateKey raw⟩ t).1 = .ok key?

/-- The key may be used by who sent the request: it is enabled, and if it has policies they let the
client's address in, which must be known. -/
structure App.Permits (m : Message) (key : ApiKey) : Prop where
  enabled : key.enabled = true
  address : key.policies = [] ∨
    ∃ ip, m.caller.trustedAddress? app.proxies = some ip ∧ key.permits ip = true

/-- The request presents a key that may be used by who sent it. -/
def App.Accepts (m : Message) (key : ApiKey) : Prop :=
  ∃ raw, m.Presents raw ∧ app.Takes given t raw (some key) ∧ app.Permits m key

/-- A text is none of the keys if every key is deleted, is not looked up by this text, or has
another digest. -/
theorem App.takes_none_iff (raw : String) : app.Takes given t raw none ↔
    ∀ key ∈ t.keys, key.isDeleted = true ∨ RawKey.lead? raw ≠ some key.lead ∨
      fits app.service.keys raw key = false := by
  have hexec : (app.service.perform ⟨given, .authenticateKey raw⟩ t).1 = _ :=
    congrArg Prod.fst (exec_authenticate app.service.keys raw t)
  rw [App.Takes, hexec, Except.ok.injEq]
  cases hlead : RawKey.lead? raw with
  | none => simp
  | some lead =>
    simp only [Option.bind_some, List.find?_eq_none, Tables.keysLedBy, List.mem_filter]
    grind

theorem admits_iff {m : Message} {key : ApiKey} :
    admits key (m.caller.trustedAddress? app.proxies) = true ↔
      key.policies = [] ∨
        ∃ ip, m.caller.trustedAddress? app.proxies = some ip ∧ key.permits ip = true := by
  simp [admits, List.isEmpty_iff, Option.any_eq_true]

variable {app given t}

/-- The service takes no text for two things. -/
theorem App.Takes.iff {raw : String} {key? other? : Option ApiKey}
    (h : app.Takes given t raw key?) : app.Takes given t raw other? ↔ other? = key? := by
  refine ⟨fun hother => Except.ok.inj (hother.symm.trans h), ?_⟩
  rintro rfl
  exact h

variable (app given t)

/-- What the handling of a request with a key ends in, and why. -/
inductive App.KeyOutcome (m : Message) : Except Problem ApiKey → Prop where
  | absent (reason : String) (absent : ∀ raw, ¬m.Presents raw) :
      KeyOutcome m (.error (.unauthorized reason))
  | unknown (raw : String) (presents : m.Presents raw) (takes : app.Takes given t raw none) :
      KeyOutcome m (.error (.unauthorized "Invalid API key"))
  | refused (raw : String) (key : ApiKey) (reason : String) (presents : m.Presents raw)
      (takes : app.Takes given t raw (some key)) (refuses : ¬app.Permits m key) :
      KeyOutcome m (.error (.forbidden reason))
  | accepted (raw : String) (key : ApiKey) (presents : m.Presents raw)
      (takes : app.Takes given t raw (some key)) (permits : app.Permits m key) :
      KeyOutcome m (.ok key)

/-- The handling of a request with a key looks, and comes to one of these ends. -/
theorem exec_authenticateKey (m : Message) : ∃ outcome,
    Handler.exec (authenticateKey app given m) t = (outcome, t) ∧
      app.KeyOutcome given t m outcome := by
  rcases rawKey_cases m with ⟨raw, hraw, heq⟩ | ⟨reason, hraw, hnone⟩
  · have hpresents : m.Presents raw := (heq raw).2 rfl
    have hexec := exec_authenticate app.service.keys raw t
    generalize (RawKey.lead? raw).bind (fun lead =>
      (t.keysLedBy lead).find? (fits app.service.keys raw)) = key? at hexec
    have hperform : app.service.perform ⟨given, .authenticateKey raw⟩ t = (.ok key?, t) := hexec
    have htakes : app.Takes given t raw key? := congrArg Prod.fst hperform
    simp only [authenticateKey, Handler.exec_bind, Handler.exec_liftExcept, hraw,
      Handler.exec_perform, hperform, Request.mapError_ok]
    cases key? with
    | none => exact ⟨_, rfl, .unknown raw hpresents htakes⟩
    | some key =>
      dsimp only
      cases henabled : key.enabled with
      | false =>
        refine ⟨.error (.forbidden "API key is disabled"), rfl,
          .refused raw key _ hpresents htakes fun hpermits => ?_⟩
        rw [hpermits.enabled] at henabled
        cases henabled
      | true =>
        cases hadmits : admits key (m.caller.trustedAddress? app.proxies) with
        | false =>
          refine ⟨.error (.forbidden "Request origin is not permitted for this API key"), rfl,
            .refused raw key _ hpresents htakes fun hpermits => ?_⟩
          rw [(admits_iff app).2 hpermits.address] at hadmits
          cases hadmits
        | true =>
          exact ⟨.ok key, rfl,
            .accepted raw key hpresents htakes ⟨henabled, (admits_iff app).1 hadmits⟩⟩
  · refine ⟨.error (.unauthorized reason), ?_, .absent reason hnone⟩
    simp only [authenticateKey, Handler.exec_bind, Handler.exec_liftExcept, hraw]

/-! ## What is answered -/

/-- What a text that is no key is answered with, whatever is wrong with it. -/
def unknownKey : Report :=
  ⟨401, "UNAUTHORIZED", "Invalid API key"⟩

/-- A request for its own key is answered with the key that it presents, if that may be used by who
sent it. It is unauthorized if it presents no text, or one that is no key, and of the latter nothing
is told but that; it is forbidden if the key may not be used. No table is changed in any case. -/
theorem respond_currentKey (m : Message) (hmethod : m.method = "GET")
    (hroute : m.route = "/api/v1/keys/current") :
    let run := (respond app given m).run Backend.memory t
    run.state = t ∧
    (∀ raw, app.Takes given t raw none ↔
      ∀ key ∈ t.keys, key.isDeleted = true ∨ RawKey.lead? raw ≠ some key.lead ∨
        fits app.service.keys raw key = false) ∧
    (∀ body, run.value.status = 200 ∧ run.value.body = some body ↔
      ∃ key, app.Accepts given t m key ∧ body = dataBody key.toJson) ∧
    (run.value.status = 401 ↔
      (∀ raw, ¬m.Presents raw) ∨ ∃ raw, m.Presents raw ∧ app.Takes given t raw none) ∧
    ((∃ raw, m.Presents raw ∧ app.Takes given t raw none) →
      run.value.body = some unknownKey.body) ∧
    (run.value.status = 403 ↔ ∃ raw, m.Presents raw ∧
      ∃ key, app.Takes given t raw (some key) ∧ ¬app.Permits m key) := by
  intro run
  obtain ⟨outcome, hexec, houtcome⟩ := exec_authenticateKey app given t m
  have hhandle : Handler.exec (Route.key.handle app given m) t =
      (outcome.map fun key => dataBody key.toJson, t) := by
    simp only [Route.handle, currentKey, Handler.exec_bind, hexec]
    cases outcome <;> rfl
  have hkey : m.route = Route.key.path := hroute
  obtain ⟨hresponse, hstate⟩ := run_respond_get app given t hmethod hkey
  rw [hhandle] at hresponse hstate
  have hstatus : run.value.status = (responseTo (outcome.map fun key => dataBody key.toJson)).1 :=
    congrArg Prod.fst hresponse
  have hbody : run.value.body = (responseTo (outcome.map fun key => dataBody key.toJson)).2 :=
    congrArg Prod.snd hresponse
  rw [hstatus, hbody]
  refine ⟨hstate, app.takes_none_iff given t, ?_⟩
  -- where a text is presented, each condition is one on that text and on what it is taken for
  cases houtcome with
  | absent reason hnone => simp [responseTo, Except.map, Problem.report, App.Accepts, hnone]
  | unknown raw hpresents htakes =>
    simp [responseTo, Except.map, Problem.report, App.Accepts, hpresents.exists_iff, htakes.iff,
      unknownKey]
  | refused raw key reason hpresents htakes hrefuses =>
    have hany : ¬∀ raw, ¬m.Presents raw := fun h => h raw hpresents
    simp only [App.Accepts, hpresents.exists_iff, htakes.iff, eq_false hany]
    simp [responseTo, Except.map, Problem.report, hrefuses]
  | accepted raw key hpresents htakes hpermits =>
    have hany : ¬∀ raw, ¬m.Presents raw := fun h => h raw hpresents
    simp only [App.Accepts, hpresents.exists_iff, htakes.iff, eq_false hany]
    simp [responseTo, Except.map, hpermits, eq_comm]

/-- A service behind no proxy. -/
def plainApp : App where
  service := .plain
  table := .empty
  proxies := []
  origins := []
  database := none

/-- Ada has an enabled key for the network of her office. -/
def officeTables : Tables :=
  Service.plain.after {}
    [⟨.sample 1, .signUp "ada@example.com" "correct horse"⟩,
      ⟨.sample 2, .createKey "ada@example.com"
        { name := "ci", enabled := some true, policies := some [⟨"office", "10.0.0.0/8"⟩] }⟩]

/-- She uses it from there. -/
def officeRequest : Message where
  method := "GET"
  target := "/api/v1/keys/current"
  headers := [field "Authorization" ("ApiKey  " ++ (Given.sample 2).rawKey.text)]
  peer := some (.v4 ⟨[10, 1, 2, 3], rfl⟩ 443)

theorem respond_currentKey_office :
    officeRequest.method = "GET" ∧ officeRequest.route = "/api/v1/keys/current" ∧
    ∃ key, plainApp.Accepts (.sample 3) officeTables officeRequest key ∧
      ((respond plainApp (.sample 3) officeRequest).run Backend.memory officeTables).value.body =
        some (dataBody key.toJson) := by
  have hroute : officeRequest.route = "/api/v1/keys/current" := by decide +kernel
  obtain ⟨-, -, hok, -⟩ :=
    respond_currentKey plainApp (.sample 3) officeTables officeRequest rfl hroute
  have hstatus : ((respond plainApp (.sample 3) officeRequest).run Backend.memory
      officeTables).value.status = 200 := by decide +kernel
  obtain ⟨body, hbody⟩ : ∃ body, ((respond plainApp (.sample 3) officeRequest).run Backend.memory
      officeTables).value.body = some body := Option.isSome_iff_exists.1 (by decide +kernel)
  obtain ⟨key, haccepts, rfl⟩ := (hok body).1 ⟨hstatus, hbody⟩
  exact ⟨rfl, hroute, key, haccepts, hbody⟩

end Latchkey.Http
