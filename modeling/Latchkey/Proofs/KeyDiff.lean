import Latchkey.Proofs.History
import Latchkey.Proofs.KeyPolicies
import Latchkey.Proofs.KeyUpdate
import Latchkey.Proofs.Reconciliation
import Latchkey.Proofs.Scope
import Latchkey.Proofs.Store.Writes

/-!
# Updates of keys as differences

What an update leaves of a key and what it reports, field by field. An update sets what it names and
touches nothing else; it reports what differs, in a fixed order, so that to make it once more
reports nothing, and updates of different fields can be made in either order. A store that makes an
update answers with the row that is found there from then on.
-/

namespace Latchkey

namespace KeyUpdate

/-! ## What an update reports -/

/-- What an update says about flags. -/
def flags (u : KeyUpdate) : ScopePatch :=
  u.scope.value?.getD {}

theorem rescope_eq (u : KeyUpdate) (s : Scope) : u.rescope s = u.flags.apply s := by
  unfold rescope flags
  cases u.scope with
  | keep => rfl
  | set p => exact s.update_eq p

variable (u : KeyUpdate) (k : ApiKey)

theorem editName_events : (u.editName k).events =
    (switched k.name (u.name.apply k.name)).map fun _ => .name := by
  rw [← Patch.getD_change?, ← Patch.toList_change?]
  unfold editName
  cases u.name.change? k.name <;> rfl

theorem editScope_events : (u.editScope k).events = k.scope.told (u.rescope k.scope) := by
  unfold editScope rescope
  cases u.scope with
  | keep => exact k.scope.told_self.symm
  | set p => exact k.scope.map_changes p

theorem editEnabled_events : (u.editEnabled k).events =
    (switched k.enabled (u.enabled.apply k.enabled)).map .enabled := by
  rw [← Patch.getD_change?, ← Patch.toList_change?]
  unfold editEnabled
  cases u.enabled.change? k.enabled <;> rfl

/-- What an update reports are its name, its flags, its policies and whether it enables the key, as
far as they make a difference. -/
theorem apply_events : (u.apply k).events =
    (switched k.name (u.name.apply k.name)).map (fun _ => .name) ++
      k.scope.told (u.rescope k.scope) ++ (u.rebind k.policies).events ++
      (switched k.enabled (u.enabled.apply k.enabled)).map .enabled := by
  show (u.editName k).events ++ (u.editScope (u.editName k).key).events ++
    (u.editPolicies (u.editScope (u.editName k).key).key).events ++
    (u.editEnabled (u.editPolicies (u.editScope (u.editName k).key).key).key).events = _
  rw [editEnabled_events, editPolicies_eq, editScope_events, editName_events, editScope_key,
    editName_key]

/-! ## What an update comes to -/

/-- The update leads from a key to another: what it sets is set, policies in whatever order, and all
else is as before. -/
structure Leads (k k' : ApiKey) : Prop where
  name : k'.name = u.name.apply k.name
  scope : k'.scope = u.flags.apply k.scope
  kept : u.policies = .keep → k'.policies = k.policies
  bound : ∀ ps, u.policies = .set ps → k'.policies.Perm ps
  enabled : k'.enabled = u.enabled.apply k.enabled
  rest : k' = { k with
    name := k'.name, scope := k'.scope, policies := k'.policies, enabled := k'.enabled }

/-- What an update from a key to another is to report: its name, its flags, its policies and
whether it is enabled, in this order and as far as they differ. -/
def report (k k' : ApiKey) : List KeyEvent :=
  (switched k.name k'.name).map (fun _ => .name) ++ k.scope.told k'.scope ++
    (match u.policies with
      | .keep => []
      | .set ps =>
        if ps.Perm k.policies then []
        else ps.map (Policy.arrival k.policies) ++ Policy.departures k.policies ps) ++
    (switched k.enabled k'.enabled).map .enabled

variable {u k}

/-- What an update has led to, it leads to itself. -/
theorem Leads.again {k' : ApiKey} (h : u.Leads k k') : u.Leads k' k' where
  name := by rw [h.name, Patch.apply_apply]
  scope := by rw [h.scope, ScopePatch.apply_apply]
  kept _ := rfl
  bound := h.bound
  enabled := by rw [h.enabled, Patch.apply_apply]
  rest := rfl

/-- An update that leads from a key to itself reports nothing. -/
theorem Leads.events_eq_nil (h : u.Leads k k) : (u.apply k).events = [] := by
  have hpolicies : (u.rebind k.policies).events = [] := by
    unfold rebind
    cases hu : u.policies with
    | keep => rfl
    | set ps => exact congrArg _ (Policy.reconcile_of_perm (h.bound ps hu))
  rw [apply_events, ← h.name, rescope_eq, ← h.scope, ← h.enabled, hpolicies]
  simp only [switched_self, Scope.told_self, List.map_nil, List.append_nil]

theorem nodup_ranges_of_check (hu : u.check = .ok ()) {ps : List Policy}
    (hps : u.policies = .set ps) : (Policy.ranges ps).Nodup :=
  Policy.nodup_ranges_of_checkPolicies (checkPolicies_of_check hu hps)

/-- An update that may be made leads from a key to the key after it. -/
theorem leads_apply (hu : u.check = .ok ()) (hk : (Policy.ranges k.policies).Nodup) :
    u.Leads k (u.apply k).key where
  name := u.name_apply k
  scope := by rw [apply_key, rescope_eq]
  kept h := by simp only [apply_key, rebind, h]
  bound ps h := by
    rw [apply_key]
    simp only [rebind, h]
    exact Policy.perm_reconcile hk (nodup_ranges_of_check hu h)
  enabled := by rw [apply_key]
  rest := by rw [apply_key]

/-- An update that may be made reports what it is to report. -/
theorem events_eq_report (hu : u.check = .ok ()) (hk : (Policy.ranges k.policies).Nodup) :
    (u.apply k).events = u.report k (u.apply k).key := by
  rw [apply_events, apply_key]
  unfold report rebind
  cases hps : u.policies with
  | keep => rfl
  | set ps =>
    dsimp only
    by_cases hperm : ps.Perm k.policies
    · rw [if_pos hperm, Policy.reconcile_of_perm hperm.symm]
    · rw [if_neg hperm, Policy.reconcile_eq hk (nodup_ranges_of_check hu hps)
        fun h => hperm h.symm]

/-! ## Two updates -/

/-- No field is set by both updates. -/
structure Apart (u v : KeyUpdate) : Prop where
  name : u.name = .keep ∨ v.name = .keep
  flags : u.flags.Apart v.flags
  policies : u.policies = .keep ∨ v.policies = .keep
  enabled : u.enabled = .keep ∨ v.enabled = .keep

theorem Apart.symm {v : KeyUpdate} (h : u.Apart v) : v.Apart u where
  name := h.name.symm
  flags := h.flags.symm
  policies := h.policies.symm
  enabled := h.enabled.symm

theorem rebind_of_keep (h : u.policies = .keep) (ps : List Policy) : u.rebind ps = ⟨ps, []⟩ := by
  rw [rebind, h]

/-- Updates of different fields can be made in either order. -/
theorem Apart.key_eq {v : KeyUpdate} (h : u.Apart v) (k : ApiKey) :
    (v.apply (u.apply k).key).key = (u.apply (v.apply k).key).key := by
  have hpolicies : (v.rebind (u.rebind k.policies).policies).policies =
      (u.rebind (v.rebind k.policies).policies).policies := by
    rcases h.policies with hu | hv
    · rw [rebind_of_keep hu, rebind_of_keep hu]
    · rw [rebind_of_keep hv, rebind_of_keep hv]
  simp only [apply_key, rescope_eq, Patch.apply_comm h.name, ScopePatch.apply_comm h.flags,
    Patch.apply_comm h.enabled, hpolicies]

/-- What an update reports is the same after an update of other fields. -/
theorem Apart.events_eq {v : KeyUpdate} (h : u.Apart v) (k : ApiKey) :
    (v.apply (u.apply k).key).events = (v.apply k).events := by
  have hpolicies : (v.rebind (u.rebind k.policies).policies).events =
      (v.rebind k.policies).events := by
    rcases h.policies with hu | hv
    · rw [rebind_of_keep hu]
    · rw [rebind_of_keep hv, rebind_of_keep hv]
  simp only [apply_events, apply_key, rescope_eq, Patch.switched_apply h.name,
    Scope.told_apply h.flags, Patch.switched_apply h.enabled, hpolicies]

end KeyUpdate

/-! ## Updates in a store -/

namespace Tables

/-- Tables after an update of a key, with its row there. Only an update that reports something marks
the row with the time, and there is one entry for each thing that it reports, in order; another
leaves the tables as they are. -/
structure Updated (t t' : Tables) (u : KeyUpdate) (now : Instant) (key row : ApiKey) : Prop where
  row_eq : row = { (u.apply key).key with
    modifiedAt := if (u.apply key).events = [] then key.modifiedAt else some now }
  keyTrail : t'.keyTrail = t.keyTrail ++ keyEntries key.id now t.lastId (u.apply key).events
  quiet : (u.apply key).events = [] → row = key ∧ t' = t

theorem updated_modifyKey {t : Tables} {account id : RowId} {key : ApiKey} (u : KeyUpdate)
    (now : Instant) (hkey : t.key? account id = some key) :
    t.Updated (t.modifyKey account id (Keyring.editBy u now) none now).2 u now key
      (Keyring.editBy u now key).key := by
  have hid : key.id = id := (key?_some hkey).2.1
  have hevents := Keyring.editBy_events u now key
  by_cases hquiet : (u.apply key).events = []
  · have hsame := Keyring.editBy_of_events_eq_nil (hevents.trans hquiet)
    have happly := KeyUpdate.apply_of_events_eq_nil hquiet
    rw [modifyKey_of_events_eq_nil hkey (hevents.trans hquiet), hsame]
    refine ⟨?_, ?_, fun _ => ⟨rfl, rfl⟩⟩
    · rw [if_pos hquiet, happly]
    · rw [hquiet]
      exact (List.append_nil _).symm
  · rw [modifyKey_eq hkey (hevents.symm ▸ hquiet)]
    refine ⟨?_, ?_, fun h => (hquiet h).elim⟩
    · rw [if_neg hquiet, Keyring.editBy]
      simp only [List.isEmpty_iff, hquiet, if_false]
    · rw [hid, hevents]

theorem accounts_modifyKey (t : Tables) (account id : RowId) (edit : ApiKey → KeyChange)
    (security : Option SecurityEvent) (now : Instant) :
    (t.modifyKey account id edit security now).2.accounts = t.accounts :=
  Call.accounts_of_sparesAccounts (c := .modifyKey account id edit security now) trivial t

/-- What an update leaves of a key is what is found under its number. -/
theorem key?_modifyKey {t : Tables} {account id : RowId} {key : ApiKey} (u : KeyUpdate)
    (now : Instant) (hkey : t.key? account id = some key) :
    (t.modifyKey account id (Keyring.editBy u now) none now).2.key? account id =
      some (Keyring.editBy u now key).key := by
  by_cases hquiet : (Keyring.editBy u now key).events = []
  · rw [modifyKey_of_events_eq_nil hkey hquiet, Keyring.editBy_of_events_eq_nil hquiet, hkey]
  · obtain ⟨name, scope, policies, enabled, modifiedAt, hedit⟩ := Keyring.editBy_key u now key
    have hfound : isLive account id key = true := List.find?_some hkey
    have hlive : isLive account id (Keyring.editBy u now key).key = true := by
      rw [hedit]
      exact hfound
    rw [modifyKey_eq hkey hquiet]
    exact find?_replaceFirst hkey hlive

end Tables

namespace Service

variable {s : Service} {given : Given} {username : String} {id : RowId} {u : KeyUpdate} {t : Tables}

/-- A key is found if an account has the name and a live key of the number. -/
theorem perform_findKey (s : Service) (given : Given) (username : String) (id : RowId)
    (t : Tables) : s.perform ⟨given, .findKey username id⟩ t =
      match t.accountNamed? username with
      | none => (.error (.notFound .account username), t)
      | some a => ((t.key? a.id id).elim (.error (.keyNotFound id)) .ok, t) :=
  Keyring.exec_find username id t

/-- An update that may be made fails where the key is not found, and as looking for it does. -/
theorem perform_updateKey_of_missing (hu : u.check = .ok ()) {e : Failure}
    (h : (s.perform ⟨given, .findKey username id⟩ t).1 = .error e) :
    s.perform ⟨given, .updateKey username id u⟩ t = (.error e, t) := by
  refine (Keyring.exec_update_eq given username id t u).trans ?_
  rw [perform_findKey] at h
  rw [hu]
  cases haccount : t.accountNamed? username with
  | none =>
    rw [haccount] at h
    rw [← Except.error.inj h]
  | some a =>
    rw [haccount] at h
    cases hkey : t.key? a.id id with
    | none =>
      simp only [hkey, Option.elim] at h
      simp only [hkey, Except.error.inj h]
    | some key =>
      simp only [hkey, Option.elim] at h
      cases h

/-- An update that may be made answers with the row that it leaves, which is found from then on. -/
theorem perform_updateKey_of_found (hu : u.check = .ok ()) {key : ApiKey}
    (h : (s.perform ⟨given, .findKey username id⟩ t).1 = .ok key) :
    ∃ row t', s.perform ⟨given, .updateKey username id u⟩ t = (.ok row, t') ∧
      t.Updated t' u given.now key row ∧
      ∀ later, s.perform ⟨later, .findKey username id⟩ t' = (.ok row, t') := by
  rw [perform_findKey] at h
  cases haccount : t.accountNamed? username with
  | none =>
    rw [haccount] at h
    cases h
  | some a =>
    rw [haccount] at h
    cases hkey : t.key? a.id id with
    | none =>
      simp only [hkey, Option.elim] at h
      cases h
    | some found =>
      simp only [hkey, Option.elim] at h
      obtain rfl : found = key := Except.ok.inj h
      refine ⟨(Keyring.editBy u given.now found).key,
        (t.modifyKey a.id id (Keyring.editBy u given.now) none given.now).2, ?_,
        Tables.updated_modifyKey u given.now hkey, fun later => ?_⟩
      · refine (Keyring.exec_update_eq given username id t u).trans ?_
        simp only [hu, haccount, hkey]
      · have hnamed : (t.modifyKey a.id id (Keyring.editBy u given.now) none
            given.now).2.accountNamed? username = some a := by
          rw [Tables.accountNamed?, Tables.accounts_modifyKey]
          exact haccount
        rw [perform_findKey, hnamed]
        simp only [Tables.key?_modifyKey u given.now hkey, Option.elim]

end Service

namespace KeyUpdate

/-- Updates of keys are exact. One that passes the check leaves a key whose policies pass theirs as
the update asks, and reports what differs, in a fixed order: nothing only if nothing has changed,
and nothing if it is made once more. Updates that set different fields come to the same key in
either order, and report the same things. In a store an update fails where the key is not found, and
else answers with the row that is found from then on. -/
theorem update_exact {u : KeyUpdate} (hu : u.check = .ok ()) :
    (∀ k, checkPolicies k.policies = .ok () →
      u.Leads k (u.apply k).key ∧ (u.apply k).events = u.report k (u.apply k).key ∧
      ((u.apply k).events = [] ↔ (u.apply k).key = k) ∧
      (u.apply (u.apply k).key).events = []) ∧
    (∀ v, u.Apart v → ∀ k,
      (v.apply (u.apply k).key).key = (u.apply (v.apply k).key).key ∧
      ((u.apply k).events ++ (v.apply (u.apply k).key).events).Perm
        ((v.apply k).events ++ (u.apply (v.apply k).key).events)) ∧
    ∀ (s : Service) (given : Given) (username : String) (id : RowId) (t : Tables),
      (∀ e, (s.perform ⟨given, .findKey username id⟩ t).1 = .error e →
        s.perform ⟨given, .updateKey username id u⟩ t = (.error e, t)) ∧
      ∀ key, (s.perform ⟨given, .findKey username id⟩ t).1 = .ok key →
        ∃ row t', s.perform ⟨given, .updateKey username id u⟩ t = (.ok row, t') ∧
          t.Updated t' u given.now key row ∧
          ∀ later, s.perform ⟨later, .findKey username id⟩ t' = (.ok row, t') := by
  refine ⟨fun k hk => ?_, fun v hv k => ?_, fun s given username id t => ?_⟩
  · have hranges := Policy.nodup_ranges_of_checkPolicies hk
    have hleads : u.Leads k (u.apply k).key := leads_apply hu hranges
    refine ⟨hleads, events_eq_report hu hranges, ⟨apply_of_events_eq_nil, ?_⟩,
      hleads.again.events_eq_nil⟩
    intro hsame
    rw [hsame] at hleads
    exact hleads.events_eq_nil
  · refine ⟨hv.key_eq k, ?_⟩
    rw [hv.events_eq, hv.symm.events_eq]
    exact List.perm_append_comm
  · exact ⟨fun e h => Service.perform_updateKey_of_missing hu h,
      fun key h => Service.perform_updateKey_of_found hu h⟩

/-- A key is renamed, gets two flags and is bound to other networks. -/
def renameAndRebind : KeyUpdate where
  name := .set "deploy"
  scope := .set { image := .set true, text := { insult := .set true } }
  policies := .set Policy.guestsAndHeadOffice

/-- A key is enabled and gets another flag. -/
def enableAndFilm : KeyUpdate where
  scope := .set { video := .set true }
  enabled := .set true

/-- Ada has a key for her laboratory and her office. -/
def labTables : Tables :=
  Service.plain.after {}
    [⟨.sample 1, .signUp "ada@example.com" "correct horse"⟩,
      ⟨.sample 2, .createKey "ada@example.com"
        { name := "ci", policies := some Policy.labAndOffice }⟩]

/-- Its row. -/
def labKey : ApiKey where
  id := 3
  account := 1
  name := "ci"
  lead := "CCCCCCC"
  digest := (Given.sample 2).rawKey.text
  enabled := false
  scope := {}
  policies := Policy.labAndOffice
  createdAt := ⟨2, 0⟩
  modifiedAt := none
  deletedAt := none

theorem update_exact_renameAndRebind :
    (renameAndRebind.apply labKey).events =
      [.name, .scope "image" true, .scope "text.insult" true,
        .policy .created "192.168.0.0/16", .policy .updated "10.0.0.0/8",
        .policy .deleted "172.16.0.0/12"] ∧
    renameAndRebind.Leads labKey (renameAndRebind.apply labKey).key ∧
    (renameAndRebind.apply (renameAndRebind.apply labKey).key).events = [] ∧
    (enableAndFilm.apply (renameAndRebind.apply labKey).key).key =
      (renameAndRebind.apply (enableAndFilm.apply labKey).key).key ∧
    Service.plain.perform ⟨.sample 3, .updateKey "ada@example.com" 4 renameAndRebind⟩ labTables =
      (.error (.keyNotFound 4), labTables) ∧
    ∃ row t', Service.plain.perform ⟨.sample 3, .updateKey "ada@example.com" 3 renameAndRebind⟩
        labTables = (.ok row, t') ∧
      labTables.Updated t' renameAndRebind ⟨3, 0⟩ labKey row ∧
      ∀ later, Service.plain.perform ⟨later, .findKey "ada@example.com" 3⟩ t' = (.ok row, t') := by
  have hcheck : renameAndRebind.check = .ok () := by decide +kernel
  have hpolicies : checkPolicies labKey.policies = .ok () := by decide +kernel
  have hapart : renameAndRebind.Apart enableAndFilm :=
    ⟨.inr rfl, ⟨.inr rfl, .inr rfl, .inr rfl, .inr rfl, .inr rfl, .inr rfl, .inr rfl, .inr rfl,
      .inl rfl⟩, .inr rfl, .inl rfl⟩
  have hmissing : (Service.plain.perform ⟨.sample 3, .findKey "ada@example.com" 4⟩ labTables).1 =
      .error (.keyNotFound 4) := by decide +kernel
  have hfound : (Service.plain.perform ⟨.sample 3, .findKey "ada@example.com" 3⟩ labTables).1 =
      .ok labKey := by decide +kernel
  obtain ⟨halone, htwo, hstore⟩ := update_exact hcheck
  obtain ⟨hleads, hreport, -, hagain⟩ := halone labKey hpolicies
  obtain ⟨-, hanswers⟩ := hstore Service.plain (.sample 3) "ada@example.com" 3 labTables
  obtain ⟨hfails, -⟩ := hstore Service.plain (.sample 3) "ada@example.com" 4 labTables
  refine ⟨hreport.trans ?_, hleads, hagain, (htwo enableAndFilm hapart labKey).1,
    hfails _ hmissing, hanswers labKey hfound⟩
  decide +kernel

end KeyUpdate

end Latchkey
