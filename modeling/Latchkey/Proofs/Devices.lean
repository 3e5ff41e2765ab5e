import Mathlib.Data.List.Forall2
import Latchkey.Proofs.DeviceEvents
import Latchkey.Proofs.Reach
import Latchkey.Proofs.Refusals
import Latchkey.Proofs.Store.Holdings

/-!
# Devices

The rows of devices are the devices that are held, in the order of their registration. A token is
therefore good for new access exactly while its device is held and has not expired, an account is
shown exactly the devices whose tokens are good, and it can revoke exactly what it holds.
-/

namespace Latchkey

open Request

/-! ## Requests on devices -/

namespace Session

variable (settings : SessionSettings) (given : Given) (username : String) (token : Uuid)
  (t : Tables)

/-- A device that is known and has not expired gives access to the account it belongs to. -/
theorem exec_refresh :
    (refresh settings given token).exec t =
      match (t.device? token).filter (·.isActive given.now) with
      | none => (.error .invalidCredentials, t)
      | some d =>
        match t.account? d.account with
        | none => (.error .invalidCredentials, t)
        | some a => (.ok (tokensFor settings given a (some d.token)), t) := by
  simp only [refresh, exec_bind, exec_ofCall, Call.apply, Call.look, mapError_ok, exec_orFail]
  cases (t.device? token).filter (·.isActive given.now) with
  | none => rfl
  | some d =>
    simp only [Option.elim]
    cases t.account? d.account <;> rfl

theorem exec_activeDevices :
    (activeDevices given username).exec t =
      match t.accountNamed? username with
      | none => (.error (.notFound .account username), t)
      | some a => (.ok ((t.devicesOf a.id).filter (·.isActive given.now)), t) :=
  exec_findAccount_bind ..

theorem exec_revokeDevice :
    (revokeDevice username token).exec t =
      match t.accountNamed? username with
      | none => (.error (.notFound .account username), t)
      | some a =>
        if (t.deleteDevice a.id token).1 then (.ok (), (t.deleteDevice a.id token).2)
        else (.error (.notFound .device token.toString), (t.deleteDevice a.id token).2) := by
  rw [revokeDevice, exec_findAccount_bind]
  cases t.accountNamed? username with
  | none => rfl
  | some a =>
    simp only [exec_bind, exec_ofCall, Call.apply, Call.sure, mapError_ok]
    cases (t.deleteDevice a.id token).1 <;> rfl

theorem exec_revokeAllDevices :
    (revokeAllDevices username).exec t =
      match t.accountNamed? username with
      | none => (.error (.notFound .account username), t)
      | some a => (.ok (t.deleteDevicesOf a.id).1, (t.deleteDevicesOf a.id).2) :=
  exec_findAccount_bind ..

end Session

/-! ## Calls that leave devices alone -/

namespace Call

variable {β : Type}

/-- The call neither adds nor removes a device. -/
def SparesDevices : Call β → Prop
  | .insertDevice _ => False
  | .deleteDevice _ _ => False
  | .deleteDevicesOf _ => False
  | _ => True

theorem devices_of_sparesDevices {c : Call β} (h : c.SparesDevices) (t : Tables) :
    (c.apply t).2.devices = t.devices := by
  cases c with
  | insertDevice d => exact h.elim
  | deleteDevice account token => exact h.elim
  | deleteDevicesOf account => exact h.elim
  | insertAccount a =>
    simp only [apply, sure, Tables.insertAccount]
    split
    · rfl
    · simp only [Tables.recordSecurityEvents_eq]
  | saveAccount a events now =>
    simp only [apply, Tables.saveAccount]
    split
    · simp only [Tables.recordSecurityEvents_eq]
    · rfl
  | insertKey k limit =>
    simp only [apply, sure, Tables.insertKey]
    split
    · rfl
    · simp only [Tables.recordSecurityEvents_eq, Tables.recordKeyEvents_eq]
  | modifyKey account id edit security now =>
    simp only [apply, sure, Tables.modifyKey]
    split
    · rfl
    · split
      · rfl
      · simp only [Tables.recordSecurityEvents_eq, Tables.recordKeyEvents_eq]
  | _ => rfl

end Call

/-- The operation may add or remove a device. -/
def Operation.WritesDevices {α : Type} : Operation α → Prop
  | .signIn _ _ _ => True
  | .revokeDevice _ _ => True
  | .revokeAllDevices _ => True
  | _ => False

theorem Operation.Writes.sparesDevices {α β : Type} {op : Operation α} {c : Call β}
    (h : op.Writes c) (hop : ¬op.WritesDevices) : c.SparesDevices := by
  cases c <;> first | trivial | cases op <;> first | exact h.elim | exact (hop trivial).elim

/-- An operation that does not write devices leaves them as they are. -/
theorem Service.devices_perform (s : Service) {x : Asked} (hop : ¬x.op.WritesDevices)
    (t : Tables) : (s.perform x t).2.devices = t.devices := by
  refine s.perform_of_mayCall (I := fun t' => t'.devices = t.devices) x ?_ rfl
  intro β c t' hcall ht'
  have hspares : c.SparesDevices := by
    rcases hcall with hlook | hwrites
    · cases c <;> trivial
    · exact hwrites.sparesDevices hop
  exact (Call.devices_of_sparesDevices hspares t').trans ht'

/-! ## Rows of registrations -/

/-- The row that a registration is kept as. -/
def Registration.device (r : Registration) (days : Int) (account : RowId) : Device :=
  { token := r.token, account, createdAt := r.time, expiresAt := r.time.addDays days
    fingerprint := r.fingerprint }

namespace Tables

variable {t t' : Tables} {days : Int} {given : Given}

/-- The row keeps the registration, under the number of its account. -/
def IsRowOf (t : Tables) (days : Int) (d : Device) (r : Registration) : Prop :=
  t.HasAccount d.account r.username ∧ d = r.device days d.account

/-- The step that an operation takes devices, and what it tells of them. -/
inductive DeviceStep (days : Int) (t t' : Tables) (given : Given) : Option DeviceEvent → Prop where
  | quiet (devices : t'.devices = t.devices) : DeviceStep days t t' given none
  | registered (a : Account) (r : Registration) (mem : a ∈ t.accounts)
      (username : r.username = a.username) (token : r.token = given.uuid)
      (devices : t'.devices = t.devices ++ [r.device days a.id]) :
      DeviceStep days t t' given (some (.registered r))
  | revoked (e : DeviceEvent) (gone : Device → Bool) (none : e.registration? = none)
      (fits : ∀ d r, t.IsRowOf days d r → gone d = e.revokes r)
      (devices : t'.devices = t.devices.filter (!gone ·)) :
      DeviceStep days t t' given (some e)

/-- A row is of this account exactly if its registration is under the name of the account. -/
theorem InOrder.account_eq_iff (ht : t.InOrder) {a : Account} (ha : a ∈ t.accounts) {d : Device}
    {r : Registration} (hrow : t.IsRowOf days d r) :
    d.account = a.id ↔ a.username = r.username := by
  obtain ⟨⟨b, hb, hid, hname⟩, -⟩ := hrow
  rw [← hid, ← hname, ht.accounts.id_eq_iff ⟨a, ha, rfl, rfl⟩ hb]
  exact eq_comm

end Tables

namespace Service

variable (s : Service) {t : Tables}

theorem deviceStep_signIn (given : Given) (username password : String)
    (fingerprint : Option Fingerprint) :
    t.DeviceStep s.session.refreshDays
      (s.perform ⟨given, .signIn username password fingerprint⟩ t).2 given
      (s.answered ⟨given, .signIn username password fingerprint⟩ t).device? := by
  rcases Session.fits_or_run_signIn_refused s.session s.passwords given username password
    fingerprint t with ⟨a, hfound, hverify⟩ | ⟨e, hrun⟩
  · have hexec : s.perform ⟨given, .signIn username password fingerprint⟩ t =
        (.ok (Session.tokensFor s.session given a (some given.uuid)),
          Session.withDevice s.session given a fingerprint t) :=
      Session.exec_signIn_accepted hfound hverify
    obtain ⟨ha, rfl⟩ := Tables.accountNamed?_some hfound
    rw [answered, hexec]
    refine .registered a ⟨a.username, given.uuid, given.now, fingerprint⟩ ha rfl rfl ?_
    cases fingerprint <;> rfl
  · have hexec : s.perform ⟨given, .signIn username password fingerprint⟩ t = (.error e, t) :=
      congrArg (fun run => (run.value, run.state)) hrun
    rw [answered, hexec]
    exact .quiet rfl

theorem deviceStep_revokeDevice (ht : t.InOrder) (given : Given) (username : String)
    (token : Uuid) :
    t.DeviceStep s.session.refreshDays (s.perform ⟨given, .revokeDevice username token⟩ t).2 given
      (s.answered ⟨given, .revokeDevice username token⟩ t).device? := by
  have hexec : s.perform ⟨given, .revokeDevice username token⟩ t = _ :=
    Session.exec_revokeDevice username token t
  rw [answered, hexec]
  cases hfound : t.accountNamed? username with
  | none => exact .quiet rfl
  | some a =>
    obtain ⟨ha, rfl⟩ := Tables.accountNamed?_some hfound
    dsimp only
    cases hremoved : (t.deleteDevice a.id token).1 with
    | false =>
      simp only [Bool.false_eq_true, if_false, Tables.deleteDevice_of_false hremoved]
      exact .quiet rfl
    | true =>
      refine .revoked (.revoked a.username token)
        (fun d => d.account = a.id && d.token = token) rfl ?_ rfl
      intro d r hrow
      have htoken : d.token = r.token := congrArg Device.token hrow.2
      simp only [DeviceEvent.revokes, ht.account_eq_iff ha hrow, htoken, eq_comm (a := r.token)]

theorem deviceStep_revokeAllDevices (ht : t.InOrder) (given : Given) (username : String) :
    t.DeviceStep s.session.refreshDays (s.perform ⟨given, .revokeAllDevices username⟩ t).2 given
      (s.answered ⟨given, .revokeAllDevices username⟩ t).device? := by
  have hexec : s.perform ⟨given, .revokeAllDevices username⟩ t = _ :=
    Session.exec_revokeAllDevices username t
  rw [answered, hexec]
  cases hfound : t.accountNamed? username with
  | none => exact .quiet rfl
  | some a =>
    obtain ⟨ha, rfl⟩ := Tables.accountNamed?_some hfound
    refine .revoked (.revokedAll a.username) (fun d => d.account = a.id) rfl ?_ ?_
    · intro d r hrow
      simp only [DeviceEvent.revokes, ht.account_eq_iff ha hrow]
    · simp [Tables.deleteDevicesOf]

/-- Every operation takes devices one step, and tells of it. -/
theorem deviceStep_perform (ht : t.InOrder) (x : Asked) :
    t.DeviceStep s.session.refreshDays (s.perform x t).2 x.given (s.answered x t).device? := by
  obtain ⟨given, op⟩ := x
  have hquiet (hop : ¬op.WritesDevices) (hnone : (s.answered ⟨given, op⟩ t).device? = none) :
      t.DeviceStep s.session.refreshDays (s.perform ⟨given, op⟩ t).2 given
        (s.answered ⟨given, op⟩ t).device? := by
    rw [hnone]
    exact .quiet (s.devices_perform hop t)
  cases op with
  | signIn username password fingerprint =>
    exact s.deviceStep_signIn given username password fingerprint
  | revokeDevice username token => exact s.deviceStep_revokeDevice ht given username token
  | revokeAllDevices username => exact s.deviceStep_revokeAllDevices ht given username
  | _ => exact hquiet (fun h => h) rfl

end Service

/-! ## What rows keep -/

/-- The rows are those of the devices that are held, in the same order, and no token was drawn for
two devices. -/
structure Tables.KeepsDevices (t : Tables) (days : Int) (drawn : List Uuid)
    (es : List DeviceEvent) : Prop where
  inOrder : t.InOrder
  drawn : ∀ r ∈ registrations es, r.token ∈ drawn
  once : ((registrations es).map (·.token)).Nodup
  rows : List.Forall₂ (t.IsRowOf days) t.devices (held es)

section Related

variable {α β γ : Type} {R : α → β → Prop} {xs : List α} {ys : List β}

theorem exists_of_forall₂ (h : List.Forall₂ R xs ys) {y : β} (hy : y ∈ ys) : ∃ x ∈ xs, R x y := by
  induction h with
  | nil => cases hy
  | cons hxy _ ih =>
    rcases List.mem_cons.1 hy with rfl | hy
    · exact ⟨_, List.mem_cons_self, hxy⟩
    · obtain ⟨x, hx, hrel⟩ := ih hy
      exact ⟨x, List.mem_cons_of_mem _ hx, hrel⟩

theorem map_eq_of_forall₂ (h : List.Forall₂ R xs ys) {f : α → γ} {g : β → γ}
    (hR : ∀ x y, R x y → f x = g y) : xs.map f = ys.map g := by
  induction h with
  | nil => rfl
  | cons hxy _ ih => rw [List.map_cons, List.map_cons, hR _ _ hxy, ih]

end Related

namespace Tables.KeepsDevices

variable {t t' : Tables} {days : Int} {drawn : List Uuid} {es : List DeviceEvent} {given : Given}

theorem empty (days : Int) : ({} : Tables).KeepsDevices days [] [] where
  inOrder := inOrder_empty
  drawn := fun _ hr => nomatch hr
  once := List.nodup_nil
  rows := .nil

/-- Every step of the devices is kept. -/
theorem step (h : t.KeepsDevices days drawn es) (horder : t'.InOrder) (hgrows : t.Grows t')
    (hfresh : given.uuid ∉ drawn) {e? : Option DeviceEvent}
    (hstep : t.DeviceStep days t' given e?) :
    t'.KeepsDevices days (drawn ++ [given.uuid]) (es ++ e?.toList) := by
  have hrow (d : Device) (r : Registration) (hrow : t.IsRowOf days d r) : t'.IsRowOf days d r :=
    ⟨hrow.1.grow hgrows, hrow.2⟩
  have hdrawn (r : Registration) (hr : r ∈ registrations es) : r.token ∈ drawn ++ [given.uuid] :=
    List.mem_append_left _ (h.drawn r hr)
  cases hstep with
  | quiet hdevices =>
    rw [Option.toList_none, List.append_nil]
    exact ⟨horder, hdrawn, h.once, hdevices ▸ h.rows.imp hrow⟩
  | registered a r ha hname htoken hdevices =>
    have hregistrations : registrations (es ++ [.registered r]) = registrations es ++ [r] :=
      registrations_append
    have hheld : held (es ++ [.registered r]) = held es ++ [r] := by
      simp [held_append, DeviceEvent.revokes, DeviceEvent.registration?]
    refine ⟨horder, ?_, ?_, ?_⟩
    · rw [Option.toList_some, hregistrations]
      intro r' hr'
      rcases List.mem_append.1 hr' with hr' | hr'
      · exact hdrawn r' hr'
      · rw [List.mem_singleton.1 hr', htoken]
        exact List.mem_append_right _ (List.mem_singleton.2 rfl)
    · rw [Option.toList_some, hregistrations, List.map_append]
      refine h.once.append (List.nodup_singleton _) (List.disjoint_singleton.2 ?_)
      intro hmem
      obtain ⟨r', hr', heq⟩ := List.mem_map.1 hmem
      have hdrawn' : given.uuid = r'.token := htoken.symm.trans heq.symm
      exact hfresh (hdrawn' ▸ h.drawn r' hr')
    · rw [Option.toList_some, hheld, hdevices]
      refine List.rel_append (h.rows.imp hrow) (.cons ⟨?_, rfl⟩ .nil)
      exact Tables.HasAccount.grow ⟨a, ha, rfl, hname.symm⟩ hgrows
  | revoked e gone hnone hfits hdevices =>
    have hregistrations : registrations (es ++ [e]) = registrations es := by
      rw [registrations_append, hnone, Option.toList_none, List.append_nil]
    have hheld : held (es ++ [e]) = (held es).filter (!e.revokes ·) := by
      rw [held_append, hnone, Option.toList_none, List.append_nil]
    rw [Option.toList_some]
    refine ⟨horder, hregistrations ▸ hdrawn, hregistrations ▸ h.once, ?_⟩
    rw [hheld, hdevices]
    refine (List.rel_filter (R := t.IsRowOf days) ?_ h.rows).imp hrow
    intro d r hrow
    show (!gone d) = true ↔ (!e.revokes r) = true
    rw [hfits d r hrow]

/-- A registration that is held has its row. -/
theorem exists_row (h : t.KeepsDevices days drawn es) {r : Registration} (hr : r ∈ held es) :
    ∃ a ∈ t.accounts, a.username = r.username ∧ r.device days a.id ∈ t.devices := by
  obtain ⟨d, hd, ⟨a, ha, hid, hname⟩, hrow⟩ := exists_of_forall₂ h.rows hr
  refine ⟨a, ha, hname, ?_⟩
  rw [hid, ← hrow]
  exact hd

/-- A row is of a registration that is held. -/
theorem exists_registration (h : t.KeepsDevices days drawn es) {d : Device} (hd : d ∈ t.devices) :
    ∃ r ∈ held es, t.IsRowOf days d r :=
  exists_of_forall₂ h.rows.flip hd

theorem nodup_tokens (h : t.KeepsDevices days drawn es) : (t.devices.map (·.token)).Nodup := by
  have hsame : t.devices.map (·.token) = (held es).map (·.token) :=
    map_eq_of_forall₂ h.rows fun d r hrow => congrArg Device.token hrow.2
  rw [hsame]
  exact h.once.sublist ((held_sublist es).map _)

/-- A token that was registered is held exactly if a device with this token is. -/
theorem exists_held_iff (h : t.KeepsDevices days drawn es) {r : Registration}
    (hr : r ∈ registrations es) {p : Registration → Prop} :
    (∃ r' ∈ held es, r'.token = r.token ∧ p r') ↔ r ∈ held es ∧ p r := by
  constructor
  · rintro ⟨r', hr', htoken, hp⟩
    obtain rfl := List.inj_on_of_nodup_map h.once ((held_sublist es).subset hr') hr htoken
    exact ⟨hr', hp⟩
  · rintro ⟨hheld, hp⟩
    exact ⟨r, hheld, rfl, hp⟩

variable {s : Service}

/-! ### Refreshing -/

/-- The token of a device that is held and has not expired gives access to the account it was
registered for. -/
theorem perform_refresh_of_held (h : t.KeepsDevices s.session.refreshDays drawn es) (given : Given)
    {r : Registration} (hr : r ∈ held es)
    (hactive : given.now.isBefore (r.time.addDays s.session.refreshDays) = true) :
    ∃ a ∈ t.accounts, a.username = r.username ∧
      s.perform ⟨given, .refresh r.token⟩ t =
        (.ok (Session.tokensFor s.session given a (some r.token)), t) := by
  obtain ⟨a, ha, hname, hmem⟩ := h.exists_row hr
  have hfound : t.device? r.token = some (r.device s.session.refreshDays a.id) :=
    find?_eq_some_of_nodup h.nodup_tokens hmem
  have howner : t.account? a.id = some a := find?_eq_some_of_nodup h.inOrder.accounts.ids ha
  have hlive : (r.device s.session.refreshDays a.id).isActive given.now = true := hactive
  have hexec : s.perform ⟨given, .refresh r.token⟩ t = _ :=
    Session.exec_refresh s.session given r.token t
  refine ⟨a, ha, hname, ?_⟩
  rw [hexec, hfound, Option.filter_some, if_pos hlive]
  simp only [Registration.device, howner]

/-- Every other token is refused. -/
theorem perform_refresh_of_not (h : t.KeepsDevices s.session.refreshDays drawn es) (given : Given)
    {token : Uuid} (hnot : ∀ r ∈ held es, r.token = token →
      given.now.isBefore (r.time.addDays s.session.refreshDays) = false) :
    s.perform ⟨given, .refresh token⟩ t = (.error .invalidCredentials, t) := by
  have hexec : s.perform ⟨given, .refresh token⟩ t = _ :=
    Session.exec_refresh s.session given token t
  rw [hexec]
  cases hfound : t.device? token with
  | none => rfl
  | some d =>
    have htoken : d.token = token := by simpa using List.find?_some hfound
    obtain ⟨r, hr, hrow⟩ := h.exists_registration (List.mem_of_find?_eq_some hfound)
    have hexpired : d.isActive given.now = false := by
      rw [Device.isActive, hrow.2]
      exact hnot r hr ((congrArg Device.token hrow.2).symm.trans htoken)
    rw [Option.filter_some, if_neg (by simp [hexpired])]

theorem isOk_refresh_iff (h : t.KeepsDevices s.session.refreshDays drawn es) (given : Given)
    (token : Uuid) :
    (s.perform ⟨given, .refresh token⟩ t).1.isOk = true ↔ ∃ r ∈ held es, r.token = token ∧
      given.now.isBefore (r.time.addDays s.session.refreshDays) = true := by
  constructor
  · intro hok
    by_contra hnone
    have hrefused : s.perform ⟨given, .refresh token⟩ t = (.error .invalidCredentials, t) :=
      h.perform_refresh_of_not given fun r hr htoken =>
        eq_false_of_ne_true fun hactive => hnone ⟨r, hr, htoken, hactive⟩
    rw [hrefused] at hok
    cases hok
  · rintro ⟨r, hr, rfl, hactive⟩
    obtain ⟨a, -, -, hperform⟩ := h.perform_refresh_of_held given hr hactive
    rw [hperform]
    rfl

/-! ### Listing and revoking -/

/-- The rows of an account are of the registrations under its name. -/
theorem rows_devicesOf (h : t.KeepsDevices days drawn es) {a : Account} (ha : a ∈ t.accounts) :
    List.Forall₂ (t.IsRowOf days) (t.devicesOf a.id)
      ((held es).filter fun r => a.username = r.username) := by
  refine List.rel_filter (R := t.IsRowOf days) ?_ h.rows
  intro d r hrow
  simp only [decide_eq_true_eq]
  exact h.inOrder.account_eq_iff ha hrow

/-- An account is shown what it holds and what has not expired. -/
theorem perform_activeDevices (h : t.KeepsDevices s.session.refreshDays drawn es) (given : Given)
    {a : Account} (ha : a ∈ t.accounts) :
    ∃ devices, s.perform ⟨given, .activeDevices a.username⟩ t = (.ok devices, t) ∧
      devices.map (fun d => (d.token, d.fingerprint)) =
        (((held es).filter fun r => a.username = r.username).filter fun r =>
          given.now.isBefore (r.time.addDays s.session.refreshDays)).map
            fun r => (r.token, r.fingerprint) := by
  have hexec : s.perform ⟨given, .activeDevices a.username⟩ t = _ :=
    Session.exec_activeDevices given a.username t
  rw [h.inOrder.accountNamed?_of_mem ha] at hexec
  refine ⟨_, hexec, map_eq_of_forall₂ (List.rel_filter ?_ (h.rows_devicesOf ha)) ?_⟩
  · intro d r hrow
    show d.isActive given.now = true ↔ _
    rw [Device.isActive, hrow.2]
    rfl
  · intro d r hrow
    rw [hrow.2]
    rfl

/-- What has not expired of what is held is what was registered and is good for new access. -/
theorem filter_held (h : t.KeepsDevices s.session.refreshDays drawn es) (given : Given)
    (username : String) :
    ((held es).filter fun r => username = r.username).filter (fun r =>
        given.now.isBefore (r.time.addDays s.session.refreshDays)) =
      (registrations es).filter fun r =>
        username = r.username && (s.perform ⟨given, .refresh r.token⟩ t).1.isOk := by
  -- No token is drawn twice, so what is held can be told from the rest of what was registered.
  have hheld := eq_filter_of_sublist (held_sublist es) h.once.of_map
  rw [hheld, List.filter_filter, List.filter_filter]
  refine List.filter_congr ?_
  intro r hr
  have hgood := h.isOk_refresh_iff given r.token
  rw [h.exists_held_iff hr] at hgood
  rw [Bool.eq_iff_iff, Bool.and_eq_true, Bool.and_eq_true, Bool.and_eq_true, hgood,
    decide_eq_true_eq, decide_eq_true_eq]
  constructor
  · rintro ⟨⟨hactive, hname⟩, hmem⟩
    exact ⟨hname, hmem, hactive⟩
  · rintro ⟨hname, hmem, hactive⟩
    exact ⟨⟨hactive, hname⟩, hmem⟩

/-- An account can revoke what it holds, and nothing else. -/
theorem perform_revokeDevice (h : t.KeepsDevices days drawn es) (given : Given)
    (username : String) (token : Uuid) :
    (s.perform ⟨given, .revokeDevice username token⟩ t).1 = .ok () ↔
      ∃ r ∈ held es, r.username = username ∧ r.token = token := by
  have hexec : s.perform ⟨given, .revokeDevice username token⟩ t = _ :=
    Session.exec_revokeDevice username token t
  rw [hexec]
  cases hfound : t.accountNamed? username with
  | none =>
    constructor
    · intro hok
      cases hok
    · rintro ⟨r, hr, rfl, -⟩
      obtain ⟨a, ha, hname, -⟩ := h.exists_row hr
      rw [← hname, h.inOrder.accountNamed?_of_mem ha] at hfound
      cases hfound
  | some a =>
    obtain ⟨ha, hname⟩ := Tables.accountNamed?_some hfound
    have hremoved : (t.deleteDevice a.id token).1 = true ↔
        ∃ r ∈ held es, r.username = username ∧ r.token = token := by
      simp only [Tables.deleteDevice, List.any_eq_true, Bool.and_eq_true, decide_eq_true_eq]
      constructor
      · rintro ⟨d, hd, haccount, rfl⟩
        obtain ⟨r, hr, hrow⟩ := h.exists_registration hd
        exact ⟨r, hr, ((h.inOrder.account_eq_iff ha hrow).1 haccount).symm.trans hname,
          (congrArg Device.token hrow.2).symm⟩
      · rintro ⟨r, hr, hsame, rfl⟩
        obtain ⟨d, hd, hrow⟩ := exists_of_forall₂ h.rows hr
        exact ⟨d, hd, (h.inOrder.account_eq_iff ha hrow).2 (hname.trans hsame.symm),
          congrArg Device.token hrow.2⟩
    rw [← hremoved]
    dsimp only
    by_cases hgone : (t.deleteDevice a.id token).1 = true
    · rw [if_pos hgone]
      exact ⟨fun _ => hgone, fun _ => rfl⟩
    · rw [if_neg hgone]
      refine ⟨?_, fun h => (hgone h).elim⟩
      intro hok
      cases hok

/-- All that an account holds is revoked at once, and counted. -/
theorem perform_revokeAllDevices (h : t.KeepsDevices days drawn es) (given : Given) {a : Account}
    (ha : a ∈ t.accounts) :
    (s.perform ⟨given, .revokeAllDevices a.username⟩ t).1 =
      .ok ((held es).filter fun r => a.username = r.username).length := by
  have hexec : s.perform ⟨given, .revokeAllDevices a.username⟩ t = _ :=
    Session.exec_revokeAllDevices a.username t
  rw [hexec, h.inOrder.accountNamed?_of_mem ha, ← (h.rows_devicesOf ha).length_eq]
  rfl

end Tables.KeepsDevices

namespace Service

variable (s : Service)

/-- What the answers of a history tell of devices. -/
def deviceEvents (h : List Asked) : List DeviceEvent :=
  (s.transcript {} h).filterMap Answered.device?

/-- After every history in which no identifier was drawn twice, the rows are of what is held. -/
theorem keepsDevices_after {h : List Asked} (hdrawn : (h.map (·.given.uuid)).Nodup) :
    (s.after {} h).KeepsDevices s.session.refreshDays (h.map (·.given.uuid))
      (s.deviceEvents h) := by
  have hlog : (s.after {} h).KeepsDevices s.session.refreshDays
      ((s.transcript {} h).map (·.given.uuid)) (s.deviceEvents h) := by
    refine s.transcript_induction_fresh (I := fun t log => t.KeepsDevices s.session.refreshDays
      (log.map (·.given.uuid)) (log.filterMap Answered.device?)) (.empty _) ?_ hdrawn
    intro x t log hkeeps hfresh
    obtain ⟨horder, hgrows⟩ := s.grows_perform hkeeps.inOrder x
    rw [List.map_append, filterMap_append_singleton]
    exact hkeeps.step horder hgrows hfresh (s.deviceStep_perform hkeeps.inOrder x)
  rw [s.map_given_transcript] at hlog
  exact hlog

/-- If no identifier is drawn twice, then after every history a token gives new access exactly if a
sign-in was answered with it, no successful request has revoked it since and it has not expired; new
access is to the account that has signed in, and the token stays what it is. Any other token is
refused, and nothing changes either way. At the same time an account is shown exactly its tokens
that are good, in the order in which it has signed in. It can revoke exactly the tokens that it
holds, expired or not, and is told how many it holds when it revokes them all. -/
theorem devices_after (h : List Asked) (hdrawn : (h.map (·.given.uuid)).Nodup) :
    let t := s.after {} h
    let es := s.deviceEvents h
    (∀ given token,
      let attempt := s.perform ⟨given, .refresh token⟩ t
      (attempt.1.isOk = true ↔ ∃ r ∈ held es, r.token = token ∧
        given.now.isBefore (r.time.addDays s.session.refreshDays) = true) ∧
      (∀ tokens, attempt.1 = .ok tokens → ∃ r ∈ held es, ∃ a ∈ t.accounts,
        r.token = token ∧ a.username = r.username ∧ tokens.refresh = some token ∧
        tokens.access =
          s.session.tokens.issue a.username a.roles given.now given.tokenId) ∧
      (attempt.1.isOk = false → attempt.1 = .error .invalidCredentials) ∧ attempt.2 = t) ∧
    (∀ given given' : Given, given'.now = given.now → ∀ a ∈ t.accounts, ∃ devices,
      s.perform ⟨given, .activeDevices a.username⟩ t = (.ok devices, t) ∧
      devices.map (fun d => (d.token, d.fingerprint)) =
        ((registrations es).filter fun r => a.username = r.username &&
          (s.perform ⟨given', .refresh r.token⟩ t).1.isOk).map
            fun r => (r.token, r.fingerprint)) ∧
    (∀ given username token,
      (s.perform ⟨given, .revokeDevice username token⟩ t).1 = .ok () ↔
        ∃ r ∈ held es, r.username = username ∧ r.token = token) ∧
    ∀ given, ∀ a ∈ t.accounts,
      (s.perform ⟨given, .revokeAllDevices a.username⟩ t).1 =
        .ok ((held es).filter fun r => a.username = r.username).length := by
  intro t es
  have hkeeps : t.KeepsDevices s.session.refreshDays (h.map (·.given.uuid)) es :=
    s.keepsDevices_after hdrawn
  refine ⟨?_, ?_, ?_, ?_⟩
  · intro given token
    dsimp only
    have hgood := hkeeps.isOk_refresh_iff given token
    by_cases hheld : ∃ r ∈ held es, r.token = token ∧
        given.now.isBefore (r.time.addDays s.session.refreshDays) = true
    · refine ⟨hgood, ?_⟩
      obtain ⟨r, hr, rfl, hactive⟩ := hheld
      obtain ⟨a, ha, hname, hperform⟩ := hkeeps.perform_refresh_of_held given hr hactive
      rw [hperform]
      refine ⟨?_, ?_, rfl⟩
      · intro tokens htokens
        obtain rfl := Except.ok.inj htokens
        exact ⟨r, hr, a, ha, rfl, hname, rfl, rfl⟩
      · intro hfalse
        cases hfalse
    · have hrefused : s.perform ⟨given, .refresh token⟩ t = (.error .invalidCredentials, t) :=
        hkeeps.perform_refresh_of_not given fun r hr htoken =>
          eq_false_of_ne_true fun hactive => hheld ⟨r, hr, htoken, hactive⟩
      refine ⟨hgood, ?_⟩
      rw [hrefused]
      refine ⟨?_, fun _ => rfl, rfl⟩
      intro tokens htokens
      cases htokens
  · intro given given' hnow a ha
    obtain ⟨devices, hperform, hdevices⟩ := hkeeps.perform_activeDevices given ha
    refine ⟨devices, hperform, ?_⟩
    rw [← hkeeps.filter_held given' a.username, hnow]
    exact hdevices
  · exact fun given username token => hkeeps.perform_revokeDevice given username token
  · exact fun given a ha => hkeeps.perform_revokeAllDevices given ha

end Service

/-- Ada signs in twice and Bob once. Bob fails to revoke a device of Ada, who revokes the other. -/
def adaKeepsOne : List Asked :=
  [⟨.sample 1, .signUp "ada@example.com" "correct horse"⟩,
    ⟨.sample 2, .signUp "bob@example.com" "battery staple"⟩,
    ⟨.sample 3, .signIn "ada@example.com" "correct horse" none⟩,
    ⟨.sample 4, .signIn "ada@example.com" "correct horse" none⟩,
    ⟨.sample 5, .signIn "bob@example.com" "battery staple" none⟩,
    ⟨.sample 6, .revokeDevice "bob@example.com" (Given.sample 4).uuid⟩,
    ⟨.sample 7, .revokeDevice "ada@example.com" (Given.sample 3).uuid⟩]

theorem devices_after_adaKeepsOne : (adaKeepsOne.map (·.given.uuid)).Nodup ∧
    ∀ given, let t := Service.plain.after {} adaKeepsOne
      (Service.plain.perform ⟨given, .refresh (Given.sample 3).uuid⟩ t).1 =
        .error .invalidCredentials ∧
      ((Service.plain.perform ⟨given, .refresh (Given.sample 4).uuid⟩ t).1.isOk = true ↔
        given.now.isBefore ((Given.sample 4).now.addDays 30) = true) ∧
      (Service.plain.perform ⟨given, .revokeAllDevices "ada@example.com"⟩ t).1 = .ok 1 := by
  have hdrawn : (adaKeepsOne.map (·.given.uuid)).Nodup := by decide
  have hheld : held (Service.plain.deviceEvents adaKeepsOne) =
      [⟨"ada@example.com", (Given.sample 4).uuid, (Given.sample 4).now, none⟩,
        ⟨"bob@example.com", (Given.sample 5).uuid, (Given.sample 5).now, none⟩] := by
    decide +kernel
  have hada : ∃ a ∈ (Service.plain.after {} adaKeepsOne).accounts,
      a.username = "ada@example.com" := by decide +kernel
  obtain ⟨hrefresh, -, -, hall⟩ := Service.plain.devices_after adaKeepsOne hdrawn
  rw [hheld] at hrefresh hall
  refine ⟨hdrawn, fun given => ⟨?_, ?_, ?_⟩⟩
  · obtain ⟨hgood, -, hrefused, -⟩ := hrefresh given (Given.sample 3).uuid
    refine hrefused (eq_false_of_ne_true fun hok => ?_)
    obtain ⟨r, hr, htoken, -⟩ := hgood.1 hok
    revert r
    decide
  · rw [(hrefresh given (Given.sample 4).uuid).1]
    constructor
    · rintro ⟨r, hr, htoken, hactive⟩
      simp only [List.mem_cons, List.not_mem_nil, or_false] at hr
      rcases hr with rfl | rfl
      · exact hactive
      · exact absurd htoken (by decide)
    · exact fun hactive => ⟨_, List.mem_cons_self, rfl, hactive⟩
  · obtain ⟨a, ha, hname⟩ := hada
    have hcount := hall given a ha
    rw [hname] at hcount
    exact hcount

end Latchkey
