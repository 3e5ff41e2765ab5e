import Latchkey.Proofs.Labels
import Latchkey.Proofs.Reach
import Latchkey.Proofs.Store.Holdings

/-!
# What is on record for accounts

An entry about an account is written together with what it tells of. So the record of an account
begins with its creation, which is told once, and for every key of the account it tells that the key
was added and, if it is deleted, that it was deleted; it tells of no other key. This holds however
requests take turns.
-/

namespace Latchkey

open Keyring

/-- An account or a key comes into being, or a key ends. -/
def SecurityEvent.IsVital : SecurityEvent → Prop
  | .created | .keyCreated _ | .keyDeleted _ => True
  | _ => False

namespace Tables

variable {t t' : Tables} {account id : RowId} {events : List SecurityEvent} {now : Instant}

/-- The labels on record for an account, oldest first. -/
def securityLabels (t : Tables) (account : RowId) : List String :=
  (t.securityTrailOf account).map (·.action)

/-- Events about an account have been put on record, and nothing else has. -/
def Records (t t' : Tables) (account : RowId) (events : List SecurityEvent) : Prop :=
  ∀ id, t'.securityLabels id =
    t.securityLabels id ++ if account = id then events.map SecurityEvent.label else []

theorem records_nil (h : t'.securityTrail = t.securityTrail) (account : RowId) :
    t.Records t' account [] := by
  intro id
  have hsame : t'.securityLabels id = t.securityLabels id := by
    rw [securityLabels, securityTrailOf, h]
    rfl
  rw [hsame, List.map_nil, ite_self, List.append_nil]

theorem map_action_securityEntries (account : RowId) (now : Instant) (last : RowId)
    (events : List SecurityEvent) : (securityEntries account now last events).map (·.action) =
      events.map SecurityEvent.label := by
  induction events generalizing last with
  | nil => rfl
  | cons event events ih => exact congrArg (event.label :: ·) (ih (last + 1))

theorem records_entries {last : RowId} (h : t'.securityTrail =
    t.securityTrail ++ securityEntries account now last events) :
    t.Records t' account events := by
  intro id
  rw [securityLabels, securityTrailOf, h, List.filter_append, List.map_append]
  refine congrArg (t.securityLabels id ++ ·) ?_
  by_cases hid : account = id
  · have hall : ∀ e ∈ securityEntries account now last events, decide (e.account = id) = true :=
      fun e he => decide_eq_true ((account_of_mem_securityEntries he).trans hid)
    rw [List.filter_eq_self.2 hall, map_action_securityEntries, if_pos hid]
  · have hnone : ∀ e ∈ securityEntries account now last events,
        ¬decide (e.account = id) = true := by
      intro e he
      rw [account_of_mem_securityEntries he, decide_eq_true_eq]
      exact hid
    rw [List.filter_eq_nil_iff.2 hnone, if_neg hid, List.map_nil]

/-- A sign-in that is recorded by itself is nothing vital. -/
theorem records_recordSecurity (t : Tables) {e : NewSecurityEntry} (he : e.IsSighting) :
    ∃ event, (event = .signIn ∨ event = .unrecognizedDevice) ∧
      t.Records (t.recordSecurity e).2 e.account [event] := by
  have hrecords {event : SecurityEvent} (haction : e.action = event.label) :
      t.Records (t.recordSecurity e).2 e.account [event] := by
    intro id
    simp only [securityLabels, securityTrailOf, recordSecurity, securityEntry, haction,
      List.filter_append, List.map_append, List.filter_singleton]
    by_cases hid : e.account = id <;> simp [hid]
  rcases he with he | he
  · exact ⟨.signIn, .inl rfl, hrecords he⟩
  · exact ⟨.unrecognizedDevice, .inr rfl, hrecords he⟩

/-- A key that is added is on record; where the quota is full nothing is. -/
theorem records_insertKey (t : Tables) (k : NewApiKey) (limit : Int) :
    ∃ events, (∀ event ∈ events, ∃ id, event = .keyCreated id) ∧
      t.Records (t.insertKey k limit).2 k.account events := by
  by_cases hquota : limit ≤ (t.keysOf k.account).length
  · refine ⟨[], List.forall_mem_nil _, records_nil ?_ k.account⟩
    rw [insertKey, if_pos hquota]
  · refine ⟨[.keyCreated t.nextId], ?_, ?_⟩
    · exact fun event hevent => ⟨t.nextId, List.mem_singleton.1 hevent⟩
    · rw [insertKey_eq hquota]
      exact records_entries rfl

/-- With an edit of a key the given event is put on record, or nothing is. -/
theorem records_modifyKey (t : Tables) (account id : RowId) (edit : ApiKey → KeyChange)
    (security : Option SecurityEvent) (now : Instant) :
    ∃ events, (∀ event ∈ events, security = some event) ∧
      t.Records (t.modifyKey account id edit security now).2 account events := by
  have hnothing (hsame : (t.modifyKey account id edit security now).2 = t) :
      ∃ events, (∀ event ∈ events, security = some event) ∧
        t.Records (t.modifyKey account id edit security now).2 account events :=
    ⟨[], List.forall_mem_nil _, records_nil (congrArg securityTrail hsame) account⟩
  cases hkey : t.key? account id with
  | none => exact hnothing (by rw [modifyKey_of_key?_eq_none hkey])
  | some key =>
    by_cases hevents : (edit key).events = []
    · exact hnothing (by rw [modifyKey_of_events_eq_nil hkey hevents])
    · refine ⟨security.toList, fun event hevent => Option.mem_toList.1 hevent, ?_⟩
      rw [modifyKey_eq hkey hevents]
      exact records_entries rfl

/-- What is put on record with a write: that an account has joined, that a key was added, that it
was deleted if an edit deletes it, or nothing vital. -/
inductive SecurityWrite (t t' : Tables) : Prop where
  | other (account : RowId) (events : List SecurityEvent)
      (ids : t'.accounts.map (·.id) = t.accounts.map (·.id)) (keys : t'.keys = t.keys)
      (records : t.Records t' account events) (plain : ∀ event ∈ events, ¬event.IsVital)
  | joined (a : Account) (fresh : t.lastId < a.id) (accounts : t'.accounts = t.accounts ++ [a])
      (keys : t'.keys = t.keys) (records : t.Records t' a.id [.created])
  | keyAdded (key : ApiKey) (fresh : t.lastId < key.id) (live : key.isDeleted = false)
      (accounts : t'.accounts = t.accounts) (keys : t'.keys = t.keys ++ [key])
      (records : t.Records t' key.account [.keyCreated key.id])
  | keyEdited (key edited : ApiKey) (mem : key ∈ t.keys) (live : key.isDeleted = false)
      (id : edited.id = key.id) (account : edited.account = key.account)
      (accounts : t'.accounts = t.accounts)
      (keys : t'.keys = t.keys.map fun k => if k.id = key.id then edited else k)
      (records : t.Records t' key.account (if edited.isDeleted then [.keyDeleted key.id] else []))

theorem SecurityWrite.of_eq (haccounts : t'.accounts = t.accounts) (hkeys : t'.keys = t.keys)
    (htrail : t'.securityTrail = t.securityTrail) : t.SecurityWrite t' :=
  .other 0 [] (congrArg _ haccounts) hkeys (records_nil htrail 0) (List.forall_mem_nil _)

end Tables

namespace Call

variable {β : Type} {c : Call β} {t : Tables} {limit : Int}

theorem securityWrite_saveAccount (ht : t.AccountsInOrder) {a : Account} (hrow : t.HasRowOf a)
    {events : List SecurityEvent}
    (hevents : ∀ event ∈ events, event = .passwordReset ∨ event.IsEdit)
    (now : Instant) : t.SecurityWrite (t.saveAccount a events now).2 := by
  rw [Tables.saveAccount_eq ht hrow]
  refine .other a.id events ?_ rfl (Tables.records_entries rfl) ?_
  · rw [List.map_map]
    refine List.map_congr_left fun b _ => ?_
    rw [Function.comp_apply]
    split
    · next hid => exact hid.symm
    · rfl
  · intro event hevent
    rcases hevents event hevent with rfl | hedit
    · exact id
    · cases event <;> first | exact id | exact hedit.elim

theorem securityWrite_modifyKey (ht : t.KeysInOrder) {account id : RowId}
    {edit : ApiKey → KeyChange} {security : Option SecurityEvent} {now : Instant}
    (hproper : (Call.modifyKey account id edit security now).IsProper limit) :
    t.SecurityWrite (t.modifyKey account id edit security now).2 := by
  cases hkey : t.key? account id with
  | none =>
    rw [Tables.modifyKey_of_key?_eq_none hkey]
    exact .of_eq rfl rfl rfl
  | some key =>
    by_cases hevents : (edit key).events = []
    · rw [Tables.modifyKey_of_events_eq_nil hkey hevents]
      exact .of_eq rfl rfl rfl
    · obtain ⟨hmem, hid, hlive⟩ := Tables.key?_some hkey
      have haccount := Tables.key?_account hkey
      have hedits := hproper.editsKey ht hkey
      have hedit := hproper.edit key
      have hsecurity : security.toList =
          if (edit key).key.isDeleted then [.keyDeleted key.id] else [] := by
        rcases hproper with ⟨u, -, rfl, rfl⟩ | ⟨rfl, rfl⟩
        · obtain ⟨name, scope, policies, enabled, modifiedAt, hrow⟩ := editBy_key u now key
          have hstill : (editBy u now key).key.isDeleted = false := by
            rw [hrow]
            exact hlive
          rw [hstill]
          rfl
        · rw [hid]
          rfl
      have hwritten := Tables.modifyKey_eq hkey hevents security now
      refine .keyEdited key (edit key).key hmem hlive hedit.1 hedit.2 ?_ hedits.keys ?_
      · rw [hwritten]
      · rw [hwritten, ← hsecurity, haccount]
        exact Tables.records_entries rfl

/-- What an allowed call puts on record. -/
theorem securityWrite (ht : t.InOrder) (hproper : c.IsProper limit) (hplace : c.IsInPlace t) :
    t.SecurityWrite (c.apply t).2 := by
  cases c with
  | insertAccount a =>
    cases htaken : t.isTaken a.username with
    | true =>
      rw [apply, sure, Tables.insertAccount_of_taken htaken]
      exact .of_eq rfl rfl rfl
    | false =>
      rw [apply, sure, Tables.insertAccount_eq htaken]
      exact .joined (a.row t.nextId) (Int.lt_succ t.lastId) rfl rfl (Tables.records_entries rfl)
  | saveAccount a events now => exact securityWrite_saveAccount ht.accounts hplace hproper now
  | recordSecurity e =>
    obtain ⟨event, hevent, hrecords⟩ := t.records_recordSecurity hproper
    refine .other e.account [event] rfl rfl hrecords ?_
    intro other hother
    rw [List.mem_singleton.1 hother]
    rcases hevent with rfl | rfl <;> exact id
  | insertKey k l =>
    by_cases hquota : l ≤ (t.keysOf k.account).length
    · rw [insertKey_of_limit_le hquota]
      exact .of_eq rfl rfl rfl
    · rw [apply, sure, Tables.insertKey_eq hquota]
      exact .keyAdded (k.row t.nextId) (Int.lt_succ t.lastId) rfl rfl rfl
        (Tables.records_entries rfl)
  | modifyKey account id edit security now => exact securityWrite_modifyKey ht.keys hproper
  | _ => exact .of_eq rfl rfl rfl

end Call

/-! ## The creation of an account -/

namespace Tables

variable {t t' : Tables} {account id : RowId} {events : List SecurityEvent}

/-- The record of an account begins with its creation, which is told once. -/
def BeginsWithCreation (t : Tables) (id : RowId) : Prop :=
  ∃ rest, t.securityLabels id = SecurityEvent.created.label :: rest ∧
    SecurityEvent.created.label ∉ rest

/-- Nothing is on record under a number that was not given away. -/
theorem InOrder.securityLabels_eq_nil (ht : t.InOrder) (h : t.lastId < id) :
    t.securityLabels id = [] := by
  have hnone : t.securityTrailOf id = [] := by
    refine List.filter_eq_nil_iff.2 fun e he heq => ?_
    have hle := ht.owner_le (ht.securityOwners e he)
    rw [of_decide_eq_true heq] at hle
    exact absurd h (Int.not_lt.2 hle)
  rw [securityLabels, hnone, List.map_nil]

theorem Records.beginsWithCreation (hrecords : t.Records t' account events)
    (hevents : .created ∉ events) (h : t.BeginsWithCreation id) : t'.BeginsWithCreation id := by
  obtain ⟨rest, hlabels, hrest⟩ := h
  refine ⟨rest ++ if account = id then events.map SecurityEvent.label else [], ?_, ?_⟩
  · rw [hrecords id, hlabels, List.cons_append]
  · rw [List.mem_append, not_or]
    refine ⟨hrest, ?_⟩
    split
    · exact fun hmem => hevents ((List.mem_map_of_injective SecurityEvent.label_injective).1 hmem)
    · exact List.not_mem_nil

theorem SecurityWrite.beginsWithCreation (ht : t.InOrder) (hwrite : t.SecurityWrite t')
    (h : ∀ id ∈ t.accounts.map (·.id), t.BeginsWithCreation id) :
    ∀ id ∈ t'.accounts.map (·.id), t'.BeginsWithCreation id := by
  cases hwrite with
  | other account events hids hkeys hrecords hplain =>
    rw [hids]
    exact fun id hid => hrecords.beginsWithCreation (fun hmem => hplain _ hmem trivial) (h id hid)
  | joined a hfresh haccounts hkeys hrecords =>
    intro id hid
    rw [haccounts, List.map_append, List.mem_append] at hid
    rcases hid with hid | hid
    · obtain ⟨b, hb, rfl⟩ := List.mem_map.1 hid
      have hne : a.id ≠ b.id := by
        have hle := ht.accounts.ids_le b hb
        grind
      obtain ⟨rest, hlabels, hrest⟩ := h b.id hid
      refine ⟨rest, ?_, hrest⟩
      rw [hrecords, hlabels, if_neg hne, List.append_nil]
    · obtain rfl : id = a.id := List.mem_singleton.1 hid
      refine ⟨[], ?_, List.not_mem_nil⟩
      rw [hrecords, ht.securityLabels_eq_nil hfresh, if_pos rfl]
      rfl
  | keyAdded key hfresh hlive haccounts hkeys hrecords =>
    rw [haccounts]
    exact fun id hid => hrecords.beginsWithCreation (by simp) (h id hid)
  | keyEdited key edited hmem hlive hid haccount haccounts hkeys hrecords =>
    rw [haccounts]
    refine fun id hid => hrecords.beginsWithCreation ?_ (h id hid)
    split <;> simp

end Tables

/-! ## Keys of an account -/

/-- The event is that this key was added or deleted. -/
def SecurityEvent.isOfKey (id : RowId) (event : SecurityEvent) : Bool :=
  event = .keyCreated id || event = .keyDeleted id

/-- The label tells that this key was added or deleted. -/
def tellsOfKey (id : RowId) (label : String) : Bool :=
  label = (SecurityEvent.keyCreated id).label || label = (SecurityEvent.keyDeleted id).label

theorem tellsOfKey_label (id : RowId) (event : SecurityEvent) :
    tellsOfKey id event.label = event.isOfKey id := by
  simp only [tellsOfKey, SecurityEvent.isOfKey, SecurityEvent.label_injective.eq_iff]

/-- What is told of a key: that it was added, and that it was deleted if it is. -/
def ApiKey.life (k : ApiKey) : List String :=
  (SecurityEvent.keyCreated k.id).label ::
    if k.isDeleted then [(SecurityEvent.keyDeleted k.id).label] else []

namespace Tables

variable {t t' : Tables} {account row id : RowId} {events : List SecurityEvent}

/-- The labels on record for an account that tell of one key. -/
def labelsOfKey (t : Tables) (account id : RowId) : List String :=
  (t.securityLabels account).filter (tellsOfKey id)

/-- Records tell of the keys of their accounts and of no others. -/
structure TellsOfKeys (t : Tables) : Prop where
  own : ∀ k ∈ t.keys, t.labelsOfKey k.account k.id = k.life
  others : ∀ account id, (∀ k ∈ t.keys, k.account = account → k.id ≠ id) →
    t.labelsOfKey account id = []

theorem Records.labelsOfKey (h : t.Records t' account events) (row id : RowId) :
    t'.labelsOfKey row id = t.labelsOfKey row id ++
      if account = row then (events.filter (·.isOfKey id)).map SecurityEvent.label else [] := by
  rw [Tables.labelsOfKey, h row, List.filter_append]
  refine congrArg (t.labelsOfKey row id ++ ·) ?_
  split
  · rw [List.filter_map]
    refine congrArg _ (List.filter_congr fun event _ => ?_)
    exact tellsOfKey_label id event
  · rfl

theorem Records.labelsOfKey_eq (h : t.Records t' account events)
    (hevents : account = row → ∀ event ∈ events, event.isOfKey id = false) :
    t'.labelsOfKey row id = t.labelsOfKey row id := by
  rw [h.labelsOfKey]
  split
  · next hrow =>
    have hnone : events.filter (·.isOfKey id) = [] :=
      List.filter_eq_nil_iff.2 fun event hevent => by simp [hevents hrow event hevent]
    rw [hnone, List.map_nil, List.append_nil]
  · rw [List.append_nil]

namespace TellsOfKeys

/-- Keys are as before and the events are of none. -/
theorem of_keys_eq (h : t.TellsOfKeys) (hkeys : t'.keys = t.keys)
    (hrecords : t.Records t' account events)
    (hevents : ∀ event ∈ events, ∀ id, event.isOfKey id = false) : t'.TellsOfKeys := by
  have hlabels (row id : RowId) : t'.labelsOfKey row id = t.labelsOfKey row id :=
    hrecords.labelsOfKey_eq fun _ event hevent => hevents event hevent id
  refine ⟨?_, ?_⟩
  · rw [hkeys]
    exact fun k hk => (hlabels k.account k.id).trans (h.own k hk)
  · rw [hkeys]
    exact fun row id hnone => (hlabels row id).trans (h.others row id hnone)

/-- A key is added with its label. -/
theorem of_added (h : t.TellsOfKeys) {key : ApiKey} (hnew : ∀ k ∈ t.keys, key.id ≠ k.id)
    (hlive : key.isDeleted = false) (hkeys : t'.keys = t.keys ++ [key])
    (hrecords : t.Records t' key.account [.keyCreated key.id]) : t'.TellsOfKeys := by
  have hlabels {row id : RowId} (hne : key.account = row → key.id ≠ id) :
      t'.labelsOfKey row id = t.labelsOfKey row id := by
    refine hrecords.labelsOfKey_eq fun hrow event hevent => ?_
    rw [List.mem_singleton.1 hevent]
    simp [SecurityEvent.isOfKey, hne hrow]
  refine ⟨fun k hk => ?_, fun row id hnone => ?_⟩
  · rw [hkeys] at hk
    rcases List.mem_append.1 hk with hk | hk
    · rw [hlabels fun _ => hnew k hk, h.own k hk]
    · obtain rfl : k = key := List.mem_singleton.1 hk
      rw [hrecords.labelsOfKey, h.others _ _ fun l hl _ => (hnew l hl).symm, if_pos rfl]
      simp [SecurityEvent.isOfKey, ApiKey.life, hlive]
  · rw [hkeys] at hnone
    rw [hlabels fun hrow => hnone key (by simp) hrow]
    exact h.others row id fun k hk => hnone k (List.mem_append_left _ hk)

/-- A key that was live is edited, and if it is deleted this is told. -/
theorem of_edited (h : t.TellsOfKeys) (ht : t.KeysInOrder) {key edited : ApiKey}
    (hmem : key ∈ t.keys) (hlive : key.isDeleted = false) (hid : edited.id = key.id)
    (haccount : edited.account = key.account)
    (hkeys : t'.keys = t.keys.map fun k => if k.id = key.id then edited else k)
    (hrecords : t.Records t' key.account
      (if edited.isDeleted then [.keyDeleted key.id] else [])) : t'.TellsOfKeys := by
  have hlabels {row id : RowId} (hne : key.account = row → key.id ≠ id) :
      t'.labelsOfKey row id = t.labelsOfKey row id := by
    refine hrecords.labelsOfKey_eq fun hrow event hevent => ?_
    split at hevent
    · rw [List.mem_singleton.1 hevent]
      simp [SecurityEvent.isOfKey, hne hrow]
    · cases hevent
  refine ⟨fun k hk => ?_, fun row id hnone => ?_⟩
  · rw [hkeys] at hk
    obtain ⟨l, hl, rfl⟩ := List.mem_map.1 hk
    split
    · rw [hid, haccount, hrecords.labelsOfKey, h.own key hmem, if_pos rfl, ApiKey.life,
        ApiKey.life, hlive, hid]
      cases edited.isDeleted <;> simp [SecurityEvent.isOfKey]
    · next hne =>
      rw [hlabels fun _ => Ne.symm hne, h.own l hl]
  · rw [hkeys] at hnone
    have hold : ∀ k ∈ t.keys, k.account = row → k.id ≠ id := by
      intro k hk hrow
      by_cases hkey : k.id = key.id
      · obtain rfl := ht.eq_of_id_eq hk hmem hkey
        have hedited := hnone edited (List.mem_map.2 ⟨k, hk, if_pos rfl⟩) (haccount.trans hrow)
        exact hid ▸ hedited
      · exact hnone k (List.mem_map.2 ⟨k, hk, if_neg hkey⟩) hrow
    rw [hlabels (hold key hmem), h.others row id hold]

end TellsOfKeys

theorem SecurityWrite.tellsOfKeys (ht : t.InOrder) (hwrite : t.SecurityWrite t')
    (h : t.TellsOfKeys) : t'.TellsOfKeys := by
  cases hwrite with
  | other account events hids hkeys hrecords hplain =>
    refine h.of_keys_eq hkeys hrecords fun event hevent id => ?_
    have hvital := hplain event hevent
    cases event <;> first | rfl | exact (hvital trivial).elim
  | joined a hfresh haccounts hkeys hrecords =>
    refine h.of_keys_eq hkeys hrecords fun event hevent id => ?_
    rw [List.mem_singleton.1 hevent]
    rfl
  | keyAdded key hfresh hlive haccounts hkeys hrecords =>
    refine h.of_added (fun k hk => ?_) hlive hkeys hrecords
    have hle := ht.keys.ids_le k hk
    grind
  | keyEdited key edited hmem hlive hid haccount haccounts hkeys hrecords =>
    exact h.of_edited ht.keys hmem hlive hid haccount hkeys hrecords

end Tables

/-! ## Tables that come about -/

namespace Service

variable {s : Service} {t : Tables}

theorem Reaches.beginsWithCreation (h : s.Reaches {} t) :
    ∀ a ∈ t.accounts, t.BeginsWithCreation a.id := by
  have hids := (h.keeps (I := fun t => ∀ id ∈ t.accounts.map (·.id), t.BeginsWithCreation id)
    (fun _ _ ht hc hkept => (Call.securityWrite ht hc.1 hc.2).beginsWithCreation ht hkept)
    Tables.inOrder_empty fun _ h => nomatch h).2.1
  exact fun a ha => hids a.id (List.mem_map.2 ⟨a, ha, rfl⟩)

theorem Reaches.tellsOfKeys (h : s.Reaches {} t) : t.TellsOfKeys :=
  (h.keeps (I := Tables.TellsOfKeys)
    (fun _ _ ht hc hkept => (Call.securityWrite ht hc.1 hc.2).tellsOfKeys ht hkept)
    Tables.inOrder_empty ⟨fun _ h => (nomatch h), fun _ _ _ => rfl⟩).2.1

end Service

end Latchkey
