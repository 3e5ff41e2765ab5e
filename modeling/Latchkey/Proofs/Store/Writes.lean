import Latchkey.Proofs.Store.Accounts

/-!
# What writes leave

Recording events adds entries to one trail and numbers them in order. What is added depends on the
events and on the last number that was given away, and on nothing else of the tables. A write that
is not refused leaves all tables but for one row and the entries that tell of it. No call takes an
entry off a trail again.
-/

namespace Latchkey

/-- The entries that events about an account become after a last number. -/
def securityEntries (account : RowId) (now : Instant) : RowId → List SecurityEvent →
    List SecurityEntry
  | _, [] => []
  | last, event :: events =>
    { id := last + 1, account, action := event.label, fingerprint := none, createdAt := now } ::
      securityEntries account now (last + 1) events

/-- The entries that events about a key become after a last number. -/
def keyEntries (key : RowId) (now : Instant) : RowId → List KeyEvent → List KeyEntry
  | _, [] => []
  | last, event :: events =>
    { id := last + 1, key, action := event.label, createdAt := now } ::
      keyEntries key now (last + 1) events

variable {account key : RowId} {now : Instant} {last : RowId}

theorem account_of_mem_securityEntries {events : List SecurityEvent} {e : SecurityEntry}
    (he : e ∈ securityEntries account now last events) : e.account = account := by
  induction events generalizing last with
  | nil => cases he
  | cons event events ih =>
    rcases List.mem_cons.1 he with rfl | he
    · rfl
    · exact ih he

theorem key_of_mem_keyEntries {events : List KeyEvent} {e : KeyEntry}
    (he : e ∈ keyEntries key now last events) : e.key = key := by
  induction events generalizing last with
  | nil => cases he
  | cons event events ih =>
    rcases List.mem_cons.1 he with rfl | he
    · rfl
    · exact ih he

namespace Tables

theorem recordSecurityEvents_eq (t : Tables) (account : RowId) (events : List SecurityEvent)
    (now : Instant) : t.recordSecurityEvents account events now =
      { t with
        lastId := t.lastId + events.length
        securityTrail := t.securityTrail ++ securityEntries account now t.lastId events } := by
  induction events generalizing t with
  | nil => simp [recordSecurityEvents, securityEntries]
  | cons event events ih =>
    rw [recordSecurityEvents, List.foldl_cons]
    refine (ih _).trans ?_
    have hcount : t.lastId + 1 + events.length = t.lastId + (event :: events).length := by
      simp only [List.length_cons]
      grind
    simp only [recordSecurity, securityEntry, nextId, NewSecurityEntry.ofEvent, securityEntries,
      List.append_assoc, List.singleton_append, hcount]

theorem recordKeyEvents_eq (t : Tables) (key : RowId) (events : List KeyEvent) (now : Instant) :
    t.recordKeyEvents key events now =
      { t with
        lastId := t.lastId + events.length
        keyTrail := t.keyTrail ++ keyEntries key now t.lastId events } := by
  induction events generalizing t with
  | nil => simp [recordKeyEvents, keyEntries]
  | cons event events ih =>
    rw [recordKeyEvents, List.foldl_cons]
    refine (ih _).trans ?_
    have hcount : t.lastId + 1 + events.length = t.lastId + (event :: events).length := by
      simp only [List.length_cons]
      grind
    simp only [nextId, keyEntries, List.append_assoc, List.singleton_append, hcount]

/-! ## One equation for each write -/

theorem insertAccount_eq {t : Tables} {a : NewAccount} (h : t.isTaken a.username = false) :
    t.insertAccount a = (some (a.row t.nextId),
      { t with
        lastId := t.nextId + 1
        accounts := t.accounts ++ [a.row t.nextId]
        securityTrail := t.securityTrail ++
          securityEntries t.nextId a.createdAt t.nextId [.created] }) := by
  simp only [insertAccount, h, Bool.false_eq_true, if_false, recordSecurityEvents_eq]
  rfl

theorem saveAccount_eq {t : Tables} (ht : t.AccountsInOrder) {a : Account} (hrow : t.HasRowOf a)
    (events : List SecurityEvent) (now : Instant) :
    t.saveAccount a events now = (.ok a,
      { t with
        lastId := t.lastId + events.length
        accounts := t.accounts.map fun b => if b.id = a.id then a else b
        securityTrail := t.securityTrail ++ securityEntries a.id now t.lastId events }) := by
  have haccounts := (accounts_saveAccount ht hrow events now).2
  obtain ⟨b, hb, hid, -⟩ := hrow
  rw [saveAccount_of_mem hb hid, recordSecurityEvents_eq] at haccounts ⊢
  rw [← haccounts]

theorem insertKey_eq {t : Tables} {k : NewApiKey} {limit : Int}
    (h : ¬limit ≤ (t.keysOf k.account).length) :
    t.insertKey k limit = (some (k.row t.nextId),
      { t with
        lastId := t.nextId + 1 + 1
        keys := t.keys ++ [k.row t.nextId]
        keyTrail := t.keyTrail ++ keyEntries t.nextId k.createdAt t.nextId [.created]
        securityTrail := t.securityTrail ++
          securityEntries k.account k.createdAt (t.nextId + 1) [.keyCreated t.nextId] }) := by
  simp only [insertKey, if_neg h, recordKeyEvents_eq, recordSecurityEvents_eq]
  rfl

theorem modifyKey_of_key?_eq_none {t : Tables} {account id : RowId}
    (hkey : t.key? account id = none) (edit : ApiKey → KeyChange)
    (security : Option SecurityEvent) (now : Instant) :
    t.modifyKey account id edit security now = (none, t) := by
  simp only [modifyKey, hkey]

theorem modifyKey_eq {t : Tables} {account id : RowId} {key : ApiKey} {edit : ApiKey → KeyChange}
    (hkey : t.key? account id = some key) (hevents : (edit key).events ≠ [])
    (security : Option SecurityEvent) (now : Instant) :
    t.modifyKey account id edit security now = (some (edit key),
      { t with
        lastId := t.lastId + (edit key).events.length + security.toList.length
        keys := replaceFirst (isLive account id) (edit key).key t.keys
        keyTrail := t.keyTrail ++ keyEntries id now t.lastId (edit key).events
        securityTrail := t.securityTrail ++
          securityEntries account now (t.lastId + (edit key).events.length) security.toList }) := by
  have hsome : (edit key).events.isEmpty = false := by simpa using hevents
  simp only [modifyKey, hkey, hsome, Bool.false_eq_true, if_false, recordKeyEvents_eq,
    recordSecurityEvents_eq]

theorem modifyKey_of_events_eq_nil {t : Tables} {account id : RowId} {key : ApiKey}
    {edit : ApiKey → KeyChange} (hkey : t.key? account id = some key)
    (hevents : (edit key).events = []) (security : Option SecurityEvent) (now : Instant) :
    t.modifyKey account id edit security now = (some (edit key), t) := by
  simp only [modifyKey, hkey, hevents, List.isEmpty_nil, if_true]

/-! ## Growth of trails -/

/-- Entries have been added to the trails, and none has been changed or taken away. -/
structure TrailsGrow (t t' : Tables) : Prop where
  securityTrail : t.securityTrail <+: t'.securityTrail
  charges : t.charges <+: t'.charges
  keyTrail : t.keyTrail <+: t'.keyTrail

namespace TrailsGrow

variable {t t' t'' : Tables}

theorem refl (t : Tables) : t.TrailsGrow t :=
  ⟨List.prefix_rfl, List.prefix_rfl, List.prefix_rfl⟩

theorem trans (h : t.TrailsGrow t') (h' : t'.TrailsGrow t'') : t.TrailsGrow t'' :=
  ⟨h.securityTrail.trans h'.securityTrail, h.charges.trans h'.charges,
    h.keyTrail.trans h'.keyTrail⟩

theorem recordSecurityEvents (h : t.TrailsGrow t') (account : RowId) (events : List SecurityEvent)
    (now : Instant) : t.TrailsGrow (t'.recordSecurityEvents account events now) := by
  rw [recordSecurityEvents_eq]
  exact ⟨h.securityTrail.trans (List.prefix_append ..), h.charges, h.keyTrail⟩

theorem recordKeyEvents (h : t.TrailsGrow t') (key : RowId) (events : List KeyEvent)
    (now : Instant) : t.TrailsGrow (t'.recordKeyEvents key events now) := by
  rw [recordKeyEvents_eq]
  exact ⟨h.securityTrail, h.charges, h.keyTrail.trans (List.prefix_append ..)⟩

end TrailsGrow

end Tables

/-- No call takes an entry away or changes one: those that record events, alone or beside a row, add
them at the end, and the others leave the trails alone. -/
theorem Call.trailsGrow {β : Type} (c : Call β) (t : Tables) : t.TrailsGrow (c.apply t).2 := by
  have hkept {t' : Tables} (hsecurity : t'.securityTrail = t.securityTrail)
      (hcharges : t'.charges = t.charges) (hkeys : t'.keyTrail = t.keyTrail) : t.TrailsGrow t' :=
    ⟨hsecurity ▸ List.prefix_rfl, hcharges ▸ List.prefix_rfl, hkeys ▸ List.prefix_rfl⟩
  cases c with
  | insertAccount a =>
    simp only [apply, sure, Tables.insertAccount]
    split
    · exact .refl t
    · exact Tables.TrailsGrow.recordSecurityEvents (hkept (by rfl) (by rfl) (by rfl)) _ _ _
  | saveAccount a events now =>
    simp only [apply, Tables.saveAccount]
    split
    · exact Tables.TrailsGrow.recordSecurityEvents (hkept (by rfl) (by rfl) (by rfl)) _ _ _
    · exact .refl t
  | recordSecurity e => exact ⟨List.prefix_append .., List.prefix_rfl, List.prefix_rfl⟩
  | recordCharge c => exact ⟨List.prefix_rfl, List.prefix_append .., List.prefix_rfl⟩
  | insertKey k limit =>
    simp only [apply, sure, Tables.insertKey]
    split
    · exact .refl t
    · refine Tables.TrailsGrow.recordSecurityEvents ?_ _ _ _
      exact Tables.TrailsGrow.recordKeyEvents (hkept (by rfl) (by rfl) (by rfl)) _ _ _
  | modifyKey account id edit security now =>
    simp only [apply, sure, Tables.modifyKey]
    cases t.key? account id with
    | none => exact .refl t
    | some key =>
      dsimp only
      split
      · exact .refl t
      · refine Tables.TrailsGrow.recordSecurityEvents ?_ _ _ _
        exact Tables.TrailsGrow.recordKeyEvents (hkept (by rfl) (by rfl) (by rfl)) _ _ _
  | _ => exact hkept rfl rfl rfl

end Latchkey
