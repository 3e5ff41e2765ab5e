import Latchkey.Proofs.Isolation
import Latchkey.Proofs.KeyReplay

/-!
# Deletion of keys

A key is deleted for good. Its record begins with its creation and is closed by its deletion: once
the row is marked, no request of any account changes row or record, finds the key or counts it.
-/

namespace Latchkey

open Keyring

/-! ## The shape of a record -/

/-- The record of a key tells of its creation, then of changes, and of its deletion if it is
deleted. -/
def Tables.Tells (t : Tables) (row : ApiKey) : Prop :=
  ∃ changes, (∀ label ∈ changes, label ≠ "created" ∧ label ≠ "delete_key") ∧
    t.keyLabels row.id = "created" :: (changes ++ if row.isDeleted then ["delete_key"] else [])

namespace Tables

variable {t t' : Tables} {row key : ApiKey} {limit : Int}

theorem Tells.of_keyLabels_eq (h : t.Tells row)
    (hlabels : t'.keyLabels row.id = t.keyLabels row.id) : t'.Tells row := by
  obtain ⟨changes, hchanges, hlog⟩ := h
  exact ⟨changes, hchanges, hlabels.trans hlog⟩

/-- A key that is edited goes on being told of, if what is reported are changes and, if the edit
deletes the key, its deletion. -/
theorem EditsKey.tells {change : KeyChange} (hedits : t.EditsKey t' key change)
    (hid : change.key.id = key.id) {changes : List String}
    (hchanges : ∀ label ∈ changes, label ≠ "created" ∧ label ≠ "delete_key")
    (hreport : change.events.map KeyEvent.label =
      changes ++ if change.key.isDeleted then ["delete_key"] else [])
    (h : ∀ row ∈ t.keys, t.Tells row) : ∀ row ∈ t'.keys, t'.Tells row := by
  intro row hrow
  rw [hedits.keys] at hrow
  obtain ⟨k, hk, rfl⟩ := List.mem_map.1 hrow
  split
  · obtain ⟨before, hbefore, hlog⟩ := h key hedits.mem
    refine ⟨before ++ changes, fun label hlabel => ?_, ?_⟩
    · exact (List.mem_append.1 hlabel).elim (hbefore label) (hchanges label)
    · rw [hid, hedits.labels, hlog, if_pos rfl, hreport, hedits.live]
      simp
  · next hne =>
    refine (h k hk).of_keyLabels_eq ?_
    rw [hedits.labels, if_neg (Ne.symm hne), List.append_nil]

/-- What a proper call writes keeps the shape of all records. -/
theorem KeyWrite.tells (ht : t.KeysInOrder) (hwrite : t.KeyWrite limit t')
    (h : ∀ row ∈ t.keys, t.Tells row) : ∀ row ∈ t'.keys, t'.Tells row := by
  cases hwrite with
  | spared hle hkeys htrail =>
    intro row hrow
    exact (h row (hkeys ▸ hrow)).of_keyLabels_eq (keyLabels_of_keyTrail_eq htrail row.id)
  | added k hroom hpolicies hadds =>
    intro row hrow
    rw [hadds.keys] at hrow
    rcases List.mem_append.1 hrow with hrow | hrow
    · refine (h row hrow).of_keyLabels_eq ?_
      have hle := ht.ids_le row hrow
      have hlt := hadds.fresh
      rw [hadds.labels, if_neg (by grind), List.append_nil]
    · rw [List.mem_singleton.1 hrow]
      refine ⟨[], List.forall_mem_nil _, ?_⟩
      rw [hadds.labels, ht.fresh _ hadds.fresh, if_pos rfl]
      rfl
  | updated key u now hedits =>
    obtain ⟨name, scope, policies, enabled, modifiedAt, hkey⟩ := editBy_key u now key
    have hchanges : ∀ label ∈ (editBy u now key).events.map KeyEvent.label,
        label ≠ "created" ∧ label ≠ "delete_key" := by
      intro label hlabel
      obtain ⟨e, he, rfl⟩ := List.mem_map.1 hlabel
      rw [editBy_events] at he
      have htells := KeyUpdate.tellsOfChange_of_mem_apply (ht.ranges key hedits.mem) he
      simpa [tellsOfChange] using htells
    have hlive : (editBy u now key).key.isDeleted = false := by
      rw [hkey]
      exact hedits.live
    refine hedits.tells (by rw [hkey]) hchanges ?_ h
    rw [hlive]
    simp
  | deleted key now hedits =>
    exact hedits.tells rfl (List.forall_mem_nil _) rfl h

/-! ## Deleted keys -/

/-- What a proper call writes leaves deleted keys as they are. -/
theorem KeyWrite.of_deleted (ht : t.KeysInOrder) (hwrite : t.KeyWrite limit t')
    (hrow : row ∈ t.keys) (hdeleted : row.isDeleted = true) :
    row ∈ t'.keys ∧ t'.keyLabels row.id = t.keyLabels row.id := by
  have hedited {key : ApiKey} {change : KeyChange} (hedits : t.EditsKey t' key change) :
      row ∈ t'.keys ∧ t'.keyLabels row.id = t.keyLabels row.id := by
    have hne : row.id ≠ key.id := by
      intro hid
      obtain rfl : row = key := ht.eq_of_id_eq hrow hedits.mem hid
      rw [hedits.live] at hdeleted
      cases hdeleted
    rw [hedits.keys, hedits.labels, if_neg hne.symm, List.append_nil]
    exact ⟨List.mem_map.2 ⟨row, hrow, if_neg hne⟩, rfl⟩
  cases hwrite with
  | spared hle hkeys htrail => exact ⟨hkeys ▸ hrow, keyLabels_of_keyTrail_eq htrail row.id⟩
  | added k hroom hpolicies hadds =>
    have hle := ht.ids_le row hrow
    have hlt := hadds.fresh
    rw [hadds.keys, hadds.labels, if_neg (by grind), List.append_nil]
    exact ⟨List.mem_append_left _ hrow, rfl⟩
  | updated key u now hedits => exact hedited hedits
  | deleted key now hedits => exact hedited hedits

/-- On a trail that only grows, a record with the same labels is the same. -/
theorem keyTrailOf_eq_of_prefix {id : RowId} (hgrows : t.keyTrail <+: t'.keyTrail)
    (hlabels : t'.keyLabels id = t.keyLabels id) : t'.keyTrailOf id = t.keyTrailOf id := by
  have hgrown : t.keyTrailOf id <+: t'.keyTrailOf id := hgrows.filter _
  refine (hgrown.eq_of_length ?_).symm
  simpa [keyLabels] using (congrArg List.length hlabels).symm

theorem KeysInOrder.lacksKey_of_deleted (ht : t.KeysInOrder) (hrow : row ∈ t.keys)
    (hdeleted : row.isDeleted = true) (username : String) : t.LacksKey username row.id := by
  intro k hk hid _
  rw [ht.eq_of_id_eq hk hrow hid]
  exact hdeleted

theorem KeysInOrder.id_ne_of_deleted (ht : t.KeysInOrder) (hrow : row ∈ t.keys)
    (hdeleted : row.isDeleted = true) {k : ApiKey} (hk : k ∈ t.keys)
    (hlive : k.isDeleted = false) : k.id ≠ row.id := by
  intro hid
  rw [ht.eq_of_id_eq hk hrow hid, hdeleted] at hlive
  cases hlive

end Tables

namespace Service

variable (s : Service) {t t' : Tables} {row : ApiKey}

/-- A deleted key and its record stay as they are, whatever comes about. -/
theorem Reaches.of_deleted {s : Service} (h : s.Reaches t t') (ht : t.InOrder)
    (hrow : row ∈ t.keys) (hdeleted : row.isDeleted = true) :
    row ∈ t'.keys ∧ t'.keyTrailOf row.id = t.keyTrailOf row.id := by
  refine (h.keeps (I := fun t' => row ∈ t'.keys ∧ t'.keyTrailOf row.id = t.keyTrailOf row.id)
    (fun c t₁ ht₁ hc hkept => ?_) ht ⟨hrow, rfl⟩).2.1
  obtain ⟨hmem, hlabels⟩ := (Call.keyWrite ht₁.keys hc.1).of_deleted ht₁.keys hkept.1 hdeleted
  exact ⟨hmem, (Tables.keyTrailOf_eq_of_prefix (c.trailsGrow t₁).keyTrail hlabels).trans hkept.2⟩

/-- The record of every key has its shape in all tables that come about. -/
theorem Reaches.tells {s : Service} (h : s.Reaches {} t) : ∀ row ∈ t.keys, t.Tells row :=
  (h.keeps (I := fun t => ∀ row ∈ t.keys, t.Tells row)
    (fun _ _ ht hc hkept => (Call.keyWrite ht.keys hc.1).tells ht.keys hkept) Tables.inOrder_empty
    fun _ h => nomatch h).2.1

/-- No request finds a key of this number, counts it or changes anything on its account. -/
structure Buried (t : Tables) (id : RowId) : Prop where
  update : ∀ a ∈ t.accounts, ∀ given u, s.perform ⟨given, .updateKey a.username id u⟩ t =
    match u.check with
    | .error e => (.error (.invalid e), t)
    | .ok _ => (.error (.keyNotFound id), t)
  delete : ∀ a ∈ t.accounts, ∀ given, s.perform ⟨given, .deleteKey a.username id⟩ t =
    (.error (.keyNotFound id), t)
  find : ∀ a ∈ t.accounts, ∀ given, s.perform ⟨given, .findKey a.username id⟩ t =
    (.error (.keyNotFound id), t)
  page : ∀ a ∈ t.accounts, ∀ given window, s.perform ⟨given, .keyPage a.username id window⟩ t =
    (.error (.keyNotFound id), t)
  list : ∀ a ∈ t.accounts, ∀ given, ∃ keys, (∀ k ∈ keys, k.id ≠ id) ∧
    s.perform ⟨given, .listKeys a.username⟩ t = (.ok keys, t) ∧
    s.perform ⟨given, .countKeys a.username⟩ t = (.ok keys.length, t)
  authenticate : ∀ given raw key,
    (s.perform ⟨given, .authenticateKey raw⟩ t).1 = .ok (some key) → key.id ≠ id

theorem buried_of_deleted (ht : t.InOrder) (hrow : row ∈ t.keys) (hdeleted : row.isDeleted = true) :
    s.Buried t row.id := by
  have hlacks := ht.keys.lacksKey_of_deleted hrow hdeleted
  have hrefusal {a : Account} (ha : a ∈ t.accounts) :
      refusal a.username (.keyNotFound row.id) (t.isTaken a.username) = .keyNotFound row.id := by
    rw [t.isTaken_eq_isSome, ht.accountNamed?_of_mem ha]
    rfl
  refine ⟨fun a ha given u => ?_, fun a ha given => ?_, fun a ha given => ?_,
    fun a ha given window => ?_, fun a ha given => ?_, fun given raw key h => ?_⟩
  · cases hcheck : u.check with
    | error e =>
      refine (exec_update_eq given a.username row.id t u).trans ?_
      rw [hcheck]
    | ok _ => exact hrefusal ha ▸ exec_update_of_lacks given (hlacks a.username) hcheck
  · exact hrefusal ha ▸ exec_delete_of_lacks given (hlacks a.username)
  · exact hrefusal ha ▸ exec_find_of_lacks (hlacks a.username)
  · exact hrefusal ha ▸ exec_page_of_lacks (hlacks a.username) window
  · have hnamed := ht.accountNamed?_of_mem ha
    refine ⟨t.keysOf a.id, fun k hk => ?_, ?_, ?_⟩
    · obtain ⟨hmem, hlive⟩ := List.mem_filter.1 hk
      simp only [Bool.and_eq_true, Bool.not_eq_true'] at hlive
      exact ht.keys.id_ne_of_deleted hrow hdeleted hmem hlive.2
    · refine (exec_list a.username t).trans ?_
      rw [hnamed]
    · refine (exec_count a.username t).trans ?_
      rw [hnamed]
  · have hfound : (RawKey.lead? raw).bind (fun lead => (t.keysLedBy lead).find?
        (fits s.keys raw)) = some key :=
      Except.ok.inj ((congrArg Prod.fst (exec_authenticate s.keys raw t)).symm.trans h)
    obtain ⟨lead, -, hfind⟩ := Option.bind_eq_some_iff.1 hfound
    obtain ⟨hmem, hlive⟩ := List.mem_filter.1 (List.mem_of_find?_eq_some hfind)
    simp only [Bool.and_eq_true, Bool.not_eq_true'] at hlive
    exact ht.keys.id_ne_of_deleted hrow hdeleted hmem hlive.2

/-- From these tables on a row and its record stay as they are, and no request finds the key. -/
def IsFinal (t : Tables) (row : ApiKey) : Prop :=
  ∀ t', s.Reaches t t' →
    row ∈ t'.keys ∧ t'.keyTrailOf row.id = t.keyTrailOf row.id ∧ s.Buried t' row.id

theorem isFinal_of_deleted (ht : t.InOrder) (hrow : row ∈ t.keys)
    (hdeleted : row.isDeleted = true) : s.IsFinal t row := by
  intro t' h
  obtain ⟨hmem, htrail⟩ := h.of_deleted ht hrow hdeleted
  exact ⟨hmem, htrail, s.buried_of_deleted (h.inOrder_grows ht).1 hmem hdeleted⟩

/-- Keys are deleted for good. In tables that have come about every key has one row, which is
never taken away, and its record begins with its creation, which is on it once, and tells of its
deletion exactly if the row is marked, once and at its end. From a deletion that succeeds on, and
from any tables on in which the row is marked, row and record stay as they are whatever comes
about, and no request of any account finds the key. An update that may not be made is refused for
that, be the key deleted. -/
theorem deletes_for_good (ht : s.Reaches {} t) :
    (∀ row ∈ t.keys, t.keys.filter (·.id = row.id) = [row] ∧ t.Tells row ∧
      (row.isDeleted = true → s.IsFinal t row)) ∧
    (∀ given username request issued,
      (s.perform ⟨given, .createKey username request⟩ t).1 = .ok issued →
      ∀ t', s.Reaches (s.perform ⟨given, .createKey username request⟩ t).2 t' →
        ∃ row ∈ t'.keys, row.id = issued.key.id) ∧
    ∀ given username id, (s.perform ⟨given, .deleteKey username id⟩ t).1 = .ok () →
      ∃ row ∈ (s.perform ⟨given, .deleteKey username id⟩ t).2.keys,
        row.id = id ∧ row.deletedAt = some given.now ∧
          s.IsFinal (s.perform ⟨given, .deleteKey username id⟩ t).2 row := by
  refine ⟨fun row hrow => ⟨ht.inOrder.keys.filter_id hrow, ht.tells row hrow,
    s.isFinal_of_deleted ht.inOrder hrow⟩, ?_, ?_⟩
  · intro given username request issued hissued t' ht'
    have horder := (ht.performed ⟨given, .createKey username request⟩).inOrder
    rcases s.perform_createKey given username request t with
      ⟨e, h⟩ | ⟨account, digest, t₁, -, -, h, hadds⟩
    · rw [h] at hissued
      cases hissued
    · rw [h] at hissued ht' horder
      cases hissued
      have hmem : (newKey given account request digest).row t.nextId ∈ t₁.keys := by
        rw [hadds.keys]
        exact List.mem_append_right _ (List.mem_singleton.2 rfl)
      obtain ⟨row, hrow, hid, -⟩ := (ht'.inOrder_grows horder).2.keys _ hmem
      exact ⟨row, hrow, hid⟩
  · intro given username id hdeleted
    have horder := (ht.performed ⟨given, .deleteKey username id⟩).inOrder
    rcases s.perform_deleteKey given ht.inOrder.keys username id with
      ⟨e, h⟩ | ⟨key, t₁, hid, h, hedits⟩
    · rw [h] at hdeleted
      cases hdeleted
    · rw [h] at horder ⊢
      have hmem : (tombstone given.now key).key ∈ t₁.keys := by
        rw [hedits.keys]
        exact List.mem_map.2 ⟨key, hedits.mem, if_pos rfl⟩
      exact ⟨_, hmem, hid, rfl, s.isFinal_of_deleted horder hmem rfl⟩

end Service

/-- The key is deleted, another of its name is added, and somebody else wants the deleted one. -/
def deleteAndReplace : List Asked :=
  [⟨.sample 3, .deleteKey "ada@example.com" 3⟩,
    ⟨.sample 4, .createKey "ada@example.com" { name := "ci" }⟩,
    ⟨.sample 5, .signUp "eve@example.com" "battery staple"⟩,
    ⟨.sample 6, .updateKey "eve@example.com" 3 { name := .set "cd" }⟩]

/-- A deleted key stays deleted when another takes its name. -/
theorem deletes_for_good_deleteAndReplace :
    Service.plain.Reaches {} (Service.plain.after {} oneKey) ∧
    (Service.plain.perform ⟨.sample 3, .deleteKey "ada@example.com" 3⟩
      (Service.plain.after {} oneKey)).1 = .ok () ∧
    (Service.plain.after {} (oneKey ++ deleteAndReplace)).keyTrailOf 3 =
      [⟨4, 3, "created", ⟨2, 0⟩⟩, ⟨6, 3, "delete_key", ⟨3, 0⟩⟩] ∧
    Service.plain.Buried (Service.plain.after {} (oneKey ++ deleteAndReplace)) 3 := by
  have hreaches := Service.reaches_after (s := Service.plain) {} oneKey
  have hdeleted : (Service.plain.perform ⟨.sample 3, .deleteKey "ada@example.com" 3⟩
      (Service.plain.after {} oneKey)).1 = .ok () := by decide +kernel
  obtain ⟨-, -, hdeletes⟩ := Service.plain.deletes_for_good hreaches
  obtain ⟨row, -, hid, -, hfinal⟩ := hdeletes _ _ _ hdeleted
  obtain ⟨-, htrail, hburied⟩ := hfinal _ (Service.reaches_after _ deleteAndReplace.tail)
  rw [hid] at htrail hburied
  refine ⟨hreaches, hdeleted, htrail.trans ?_, hburied⟩
  decide +kernel

/-- An update that may not be made is refused for that although the key is deleted. -/
theorem refuses_blankName_of_deleted :
    (Service.plain.perform ⟨.sample 3, .deleteKey "ada@example.com" 3⟩
      (Service.plain.after {} oneKey)).1 = .ok () ∧
    (Service.plain.perform ⟨.sample 4, .updateKey "ada@example.com" 3 { name := .set " " }⟩
      (Service.plain.perform ⟨.sample 3, .deleteKey "ada@example.com" 3⟩
        (Service.plain.after {} oneKey)).2).1 = .error (.invalid .blankKeyName) ∧
    (Service.plain.perform ⟨.sample 4, .updateKey "ada@example.com" 3 { name := .set " " }⟩
      (Service.plain.perform ⟨.sample 3, .deleteKey "ada@example.com" 3⟩
        (Service.plain.after {} oneKey)).2).1 ≠ .error (.keyNotFound 3) := by
  decide +kernel

end Latchkey
