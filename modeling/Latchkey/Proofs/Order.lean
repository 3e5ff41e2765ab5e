import Latchkey.Proofs.Conduct
import Latchkey.Proofs.Store.Writes

/-!
# Tables in order

In tables that are in order names and numbers tell accounts apart, numbers tell keys apart, and
every row belongs to an account that is there. Calls that are proper and in place keep tables in
order, and under them tables only grow.
-/

namespace Latchkey

open Keyring

namespace Tables

variable {t t' : Tables}

/-- Accounts and keys are in order, and every row belongs to an account. -/
structure InOrder (t : Tables) : Prop where
  accounts : t.AccountsInOrder
  keys : t.KeysInOrder
  deviceOwners : ∀ d ∈ t.devices, t.HasOwner d.account
  securityOwners : ∀ e ∈ t.securityTrail, t.HasOwner e.account
  chargeOwners : ∀ c ∈ t.charges, t.HasOwner c.account
  keyOwners : ∀ k ∈ t.keys, t.HasOwner k.account

theorem inOrder_empty : ({} : Tables).InOrder where
  accounts := accountsInOrder_empty
  keys := keysInOrder_empty
  deviceOwners := fun _ h => nomatch h
  securityOwners := fun _ h => nomatch h
  chargeOwners := fun _ h => nomatch h
  keyOwners := fun _ h => nomatch h

theorem InOrder.owner_le (ht : t.InOrder) {account : RowId} (h : t.HasOwner account) :
    account ≤ t.lastId := by
  obtain ⟨username, a, ha, rfl, -⟩ := h
  exact ht.accounts.ids_le a ha

/-- Where one key is edited, every key keeps its number and its account. -/
theorem EditsKey.exists_key {key k : ApiKey} {change : KeyChange} (ht : t.KeysInOrder)
    (hedits : t.EditsKey t' key change) (hid : change.key.id = key.id)
    (haccount : change.key.account = key.account) (hk : k ∈ t.keys) :
    ∃ l ∈ t'.keys, l.id = k.id ∧ l.account = k.account := by
  rw [hedits.keys]
  refine ⟨_, List.mem_map.2 ⟨k, hk, rfl⟩, ?_⟩
  split
  · next heq =>
    obtain rfl : k = key := ht.eq_of_id_eq hk hedits.mem heq
    exact ⟨hid, haccount⟩
  · exact ⟨rfl, rfl⟩

/-- A step of the keys takes none away and gives none to another account. -/
theorem KeyStep.exists_key {k : ApiKey} (ht : t.KeysInOrder) (hstep : t.KeyStep t')
    (hk : k ∈ t.keys) : ∃ l ∈ t'.keys, l.id = k.id ∧ l.account = k.account := by
  cases hstep with
  | quiet hle hkeys hlabels => exact ⟨k, hkeys ▸ hk, rfl, rfl⟩
  | added key hranges hadds =>
    exact ⟨k, hadds.keys ▸ List.mem_append_left _ hk, rfl, rfl⟩
  | updated key u now hedits =>
    obtain ⟨name, scope, policies, enabled, modifiedAt, hkey⟩ := editBy_key u now key
    exact hedits.exists_key ht (by rw [hkey]) (by rw [hkey]) hk
  | deleted key now hedits => exact hedits.exists_key ht rfl rfl hk

/-- What is written to the keys at once: nothing, a key within the limit, or an edit of one key. -/
inductive KeyWrite (limit : Int) (t t' : Tables) : Prop where
  | spared (lastId_le : t.lastId ≤ t'.lastId) (keys : t'.keys = t.keys)
      (keyTrail : t'.keyTrail = t.keyTrail)
  | added (k : NewApiKey) (room : ((t.keysOf k.account).length : Int) < limit)
      (policies : checkPolicies k.policies = .ok ()) (adds : t.AddsKey t' (k.row t.nextId))
  | updated (key : ApiKey) (u : KeyUpdate) (now : Instant)
      (edits : t.EditsKey t' key (editBy u now key))
  | deleted (key : ApiKey) (now : Instant) (edits : t.EditsKey t' key (tombstone now key))

theorem keyLabels_of_keyTrail_eq (h : t'.keyTrail = t.keyTrail) (id : RowId) :
    t'.keyLabels id = t.keyLabels id := by
  unfold keyLabels keyTrailOf
  rw [h]

theorem KeyWrite.keyStep {limit : Int} (hwrite : t.KeyWrite limit t') : t.KeyStep t' := by
  cases hwrite with
  | spared hle hkeys htrail => exact .quiet hle hkeys (keyLabels_of_keyTrail_eq htrail)
  | added k hroom hpolicies hadds =>
    exact .added _ (Policy.nodup_ranges_of_checkPolicies hpolicies) hadds
  | updated key u now hedits => exact .updated key u now hedits
  | deleted key now hedits => exact .deleted key now hedits

/-- Every row of one of the tables has the account of a row that was there, or of an account. -/
structure AddsOwned (t t' : Tables) : Prop where
  devices : ∀ d ∈ t'.devices, d ∈ t.devices ∨ t'.HasOwner d.account
  securityTrail : ∀ e ∈ t'.securityTrail, e ∈ t.securityTrail ∨ t'.HasOwner e.account
  charges : ∀ c ∈ t'.charges, c ∈ t.charges ∨ t'.HasOwner c.account
  keys : ∀ k ∈ t'.keys, (∃ l ∈ t.keys, l.account = k.account) ∨ t'.HasOwner k.account

theorem AddsOwned.refl (t : Tables) : t.AddsOwned t where
  devices := fun _ => .inl
  securityTrail := fun _ => .inl
  charges := fun _ => .inl
  keys := fun k hk => .inl ⟨k, hk, rfl⟩

theorem mem_append_securityEntries {trail : List SecurityEntry} {account last : RowId}
    {now : Instant} {events : List SecurityEvent} (howner : t.HasOwner account)
    {e : SecurityEntry} (he : e ∈ trail ++ securityEntries account now last events) :
    e ∈ trail ∨ t.HasOwner e.account := by
  rcases List.mem_append.1 he with he | he
  · exact .inl he
  · exact .inr (account_of_mem_securityEntries he ▸ howner)

end Tables

/-! ## What allowed calls keep -/

namespace Call

variable {β : Type} {c : Call β} {t : Tables} {limit : Int}

theorem insertKey_of_limit_le {k : NewApiKey} (h : limit ≤ (t.keysOf k.account).length) :
    (Call.insertKey k limit).apply t = (.ok none, t) := by
  simp only [apply, sure, Tables.insertKey, if_pos h]

theorem modifyKey_of_none {account id : RowId} {edit : ApiKey → KeyChange}
    {security : Option SecurityEvent} {now : Instant} (h : t.key? account id = none) :
    (Call.modifyKey account id edit security now).apply t = (.ok none, t) := by
  simp only [apply, sure, Tables.modifyKey_of_key?_eq_none h]

/-- A proper edit leaves the number and the account of a key as they are. -/
theorem IsProper.edit {account id : RowId} {edit : ApiKey → KeyChange}
    {security : Option SecurityEvent} {now : Instant}
    (h : (Call.modifyKey account id edit security now).IsProper limit) (key : ApiKey) :
    (edit key).key.id = key.id ∧ (edit key).key.account = key.account := by
  rcases h with ⟨u, -, rfl, -⟩ | ⟨rfl, -⟩
  · obtain ⟨name, scope, policies, enabled, modifiedAt, hkey⟩ := editBy_key u now key
    rw [hkey]
    exact ⟨rfl, rfl⟩
  · exact ⟨rfl, rfl⟩

theorem IsProper.editsKey {account id : RowId} {edit : ApiKey → KeyChange}
    {security : Option SecurityEvent} {now : Instant}
    (h : (Call.modifyKey account id edit security now).IsProper limit) (ht : t.KeysInOrder)
    {key : ApiKey} (hkey : t.key? account id = some key) :
    t.EditsKey ((Call.modifyKey account id edit security now).apply t).2 key (edit key) := by
  refine Tables.editsKey_modifyKey ht hkey edit (fun hnil => ?_) security now
  rcases h with ⟨u, -, rfl, -⟩ | ⟨rfl, -⟩
  · exact editBy_of_events_eq_nil hnil
  · cases hnil

/-- What a proper call writes to the keys. -/
theorem keyWrite (ht : t.KeysInOrder) (hproper : c.IsProper limit) :
    t.KeyWrite limit (c.apply t).2 := by
  have hsame : t.KeyWrite limit t := .spared (Int.le_refl _) rfl rfl
  have hspared (hspares : c.SparesKeys) : t.KeyWrite limit (c.apply t).2 := by
    obtain ⟨hkeys, htrail⟩ := keys_of_sparesKeys hspares t
    exact .spared (c.lastId_le t) hkeys htrail
  cases c with
  | insertKey k l =>
    by_cases hquota : l ≤ (t.keysOf k.account).length
    · rw [insertKey_of_limit_le hquota]
      exact hsame
    · obtain ⟨rfl, -, hpolicies, -⟩ := hproper
      exact .added k (Int.not_le.1 hquota) hpolicies
        (Tables.addsKey_insertKey (Int.not_le.1 hquota))
  | modifyKey account id edit security now =>
    cases hkey : t.key? account id with
    | none =>
      rw [modifyKey_of_none hkey]
      exact hsame
    | some key =>
      have hedits := hproper.editsKey ht hkey
      rcases hproper with ⟨u, -, rfl, -⟩ | ⟨rfl, -⟩
      · exact .updated key u now hedits
      · exact .deleted key now hedits
  | _ => exact hspared trivial

/-- A proper call takes the keys one step. -/
theorem keyStep (ht : t.KeysInOrder) (hproper : c.IsProper limit) : t.KeyStep (c.apply t).2 :=
  (keyWrite ht hproper).keyStep

theorem accountsInOrder (ht : t.AccountsInOrder) (hplace : c.IsInPlace t) :
    (c.apply t).2.AccountsInOrder := by
  have hspared (hspares : c.SparesAccounts) : (c.apply t).2.AccountsInOrder :=
    ht.of_accounts_eq (accounts_of_sparesAccounts hspares t) (c.lastId_le t)
  cases c with
  | insertAccount a => exact ht.insertAccount a
  | saveAccount a events now => exact ht.saveAccount hplace events now
  | _ => exact hspared trivial

theorem hasRowOf (ht : t.AccountsInOrder) (hplace : c.IsInPlace t) {a : Account}
    (ha : t.HasRowOf a) : (c.apply t).2.HasRowOf a := by
  have hspared (hspares : c.SparesAccounts) : (c.apply t).2.HasRowOf a := by
    unfold Tables.HasRowOf
    rw [accounts_of_sparesAccounts hspares]
    exact ha
  cases c with
  | insertAccount b => exact ha.insertAccount b
  | saveAccount b events now => exact ha.saveAccount ht hplace events now
  | _ => exact hspared trivial

/-- Allowed calls let tables only grow. -/
theorem grows (ht : t.InOrder) (hproper : c.IsProper limit) (hplace : c.IsInPlace t) :
    t.Grows (c.apply t).2 where
  accounts := fun _ ha => hasRowOf ht.accounts hplace ha
  keys := fun _ hk => (keyStep ht.keys hproper).exists_key ht.keys hk

/-- The rows that an allowed call adds or edits belong to accounts. -/
theorem addsOwned (ht : t.InOrder) (hproper : c.IsProper limit) (hplace : c.IsInPlace t) :
    t.AddsOwned (c.apply t).2 := by
  have hgrows := grows ht hproper hplace
  cases c with
  | insertAccount a =>
    cases htaken : t.isTaken a.username with
    | true =>
      rw [apply, sure, Tables.insertAccount_of_taken htaken]
      exact .refl t
    | false =>
      rw [apply, sure, Tables.insertAccount_eq htaken]
      refine ⟨fun _ => .inl, fun e he => ?_, fun _ => .inl, fun k hk => .inl ⟨k, hk, rfl⟩⟩
      refine Tables.mem_append_securityEntries ?_ he
      exact ⟨a.username, _, List.mem_append_right _ (List.mem_singleton.2 rfl), rfl, rfl⟩
  | saveAccount a events now =>
    have howner : t.HasOwner a.id := ⟨a.username, hplace⟩
    rw [apply, Tables.saveAccount_eq ht.accounts hplace] at hgrows ⊢
    refine ⟨fun _ => .inl, fun e he => ?_, fun _ => .inl, fun k hk => .inl ⟨k, hk, rfl⟩⟩
    exact Tables.mem_append_securityEntries (howner.grow hgrows) he
  | insertDevice d =>
    refine ⟨fun e he => ?_, fun _ => .inl, fun _ => .inl, fun k hk => .inl ⟨k, hk, rfl⟩⟩
    rcases List.mem_append.1 he with he | he
    · exact .inl he
    · rw [List.mem_singleton.1 he]
      exact .inr (Tables.HasOwner.grow hplace hgrows)
  | deleteDevice account token =>
    exact { Tables.AddsOwned.refl t with devices := fun d hd => .inl (List.mem_of_mem_filter hd) }
  | deleteDevicesOf account =>
    exact { Tables.AddsOwned.refl t with devices := fun d hd => .inl (List.mem_of_mem_filter hd) }
  | recordSecurity e =>
    refine ⟨fun _ => .inl, fun e he => ?_, fun _ => .inl, fun k hk => .inl ⟨k, hk, rfl⟩⟩
    rcases List.mem_append.1 he with he | he
    · exact .inl he
    · rw [List.mem_singleton.1 he]
      exact .inr (Tables.HasOwner.grow hplace hgrows)
  | recordCharge c =>
    refine ⟨fun _ => .inl, fun _ => .inl, fun c hc => ?_, fun k hk => .inl ⟨k, hk, rfl⟩⟩
    rcases List.mem_append.1 hc with hc | hc
    · exact .inl hc
    · rw [List.mem_singleton.1 hc]
      exact .inr (Tables.HasOwner.grow hplace hgrows)
  | insertKey k l =>
    by_cases hquota : l ≤ (t.keysOf k.account).length
    · rw [insertKey_of_limit_le hquota]
      exact .refl t
    · have howner : t.HasOwner k.account := hplace
      rw [apply, sure, Tables.insertKey_eq hquota] at hgrows ⊢
      refine ⟨fun _ => .inl, fun e he => ?_, fun _ => .inl, fun key hkey => ?_⟩
      · exact Tables.mem_append_securityEntries (howner.grow hgrows) he
      · rcases List.mem_append.1 hkey with hkey | hkey
        · exact .inl ⟨key, hkey, rfl⟩
        · rw [List.mem_singleton.1 hkey]
          exact .inr (howner.grow hgrows)
  | modifyKey account id edit security now =>
    cases hkey : t.key? account id with
    | none =>
      rw [modifyKey_of_none hkey]
      exact .refl t
    | some key =>
      by_cases hevents : (edit key).events = []
      · rw [apply, sure, Tables.modifyKey_of_events_eq_nil hkey hevents]
        exact .refl t
      · have hlive : Tables.isLive account id key = true := List.find?_some hkey
        have hmem : key ∈ t.keys := List.mem_of_find?_eq_some hkey
        simp only [Tables.isLive, Bool.and_eq_true, decide_eq_true_eq] at hlive
        have howner : t.HasOwner account := hlive.1.2 ▸ ht.keyOwners key hmem
        have haccount := (IsProper.edit hproper key).2
        rw [apply, sure, Tables.modifyKey_eq hkey hevents] at hgrows ⊢
        refine ⟨fun _ => .inl, fun e he => ?_, fun _ => .inl, fun k hk => ?_⟩
        · exact Tables.mem_append_securityEntries (howner.grow hgrows) he
        · rcases mem_replaceFirst hk with rfl | hk
          · exact .inl ⟨key, hmem, haccount.symm⟩
          · exact .inl ⟨k, hk, rfl⟩
  | _ => exact .refl t

theorem inOrder (ht : t.InOrder) (hproper : c.IsProper limit) (hplace : c.IsInPlace t) :
    (c.apply t).2.InOrder := by
  have hgrows := grows ht hproper hplace
  have hadds := addsOwned ht hproper hplace
  refine ⟨accountsInOrder ht.accounts hplace, (keyStep ht.keys hproper).keysInOrder ht.keys,
    fun d hd => ?_, fun e he => ?_, fun c hc => ?_, fun k hk => ?_⟩
  · exact (hadds.devices d hd).elim (fun h => (ht.deviceOwners d h).grow hgrows) id
  · exact (hadds.securityTrail e he).elim (fun h => (ht.securityOwners e h).grow hgrows) id
  · exact (hadds.charges c hc).elim (fun h => (ht.chargeOwners c h).grow hgrows) id
  · rcases hadds.keys k hk with ⟨l, hl, hsame⟩ | howner
    · exact hsame ▸ (ht.keyOwners l hl).grow hgrows
    · exact howner

end Call

/-- What is proper and in place keeps tables in order and lets them only grow. -/
theorem Service.keeps_inOrder (s : Service) : Program.Keeps s.Allows Tables.InOrder :=
  fun _ _ ht hc => ⟨Call.inOrder ht hc.1 hc.2, Call.grows ht hc.1 hc.2⟩

end Latchkey
