import Latchkey.Proofs.Credentials
import Latchkey.Proofs.KeyPolicies
import Latchkey.Proofs.PolicyCheck
import Latchkey.Proofs.Store.Numbering

/-!
# Well-formed tables

What a database would declare of its tables, and nothing here checks: names and numbers are given
once, rows refer to rows that are there, a reset has a token and an expiry or neither, and every key
may be stored. Calls that are proper and in place keep what is said of keys and of references. What
is said of resets is kept by operations, which write the rows of accounts that they have read.
-/

namespace Latchkey

open Keyring Text

/-! ## Keys that may be stored -/

/-- A key has a name, a lead of seven letters and digits, and policies that pass their check. -/
structure ApiKey.IsStorable (k : ApiKey) : Prop where
  name : isBlankText k.name = false
  lead_length : k.lead.length = 7
  lead : ∀ c ∈ k.lead.toList, c.isAlphanum = true
  policies : checkPolicies k.policies = .ok ()

theorem isBlankText_of_checkKeyName {name : String} (h : checkKeyName name = .ok ()) :
    isBlankText name = false := by
  unfold checkKeyName at h
  split at h
  · cases h
  · next hblank => exact Bool.eq_false_iff.2 hblank

theorem isAlphanum_alphanumeric (i : Fin 62) : (alphanumeric i).isAlphanum = true := by
  decide +revert

theorem RawKey.length_leadText (raw : RawKey) : raw.leadText.length = 7 := by
  simp [leadText]

theorem RawKey.isAlphanum_of_mem_leadText (raw : RawKey) {c : Char}
    (h : c ∈ raw.leadText.toList) : c.isAlphanum = true := by
  rw [leadText, String.toList_ofList] at h
  obtain ⟨i, -, rfl⟩ := List.mem_map.1 h
  exact isAlphanum_alphanumeric i

theorem KeyUpdate.checkKeyName_of_check {u : KeyUpdate} {name : String} (h : u.check = .ok ())
    (hname : u.name = .set name) : checkKeyName name = .ok () := by
  unfold check at h
  rw [hname] at h
  dsimp only at h
  cases hcheck : checkKeyName name with
  | error e =>
    rw [hcheck] at h
    cases h
  | ok _ => rfl

/-- An update that may be made leaves a key that may be stored. -/
theorem ApiKey.IsStorable.update {k : ApiKey} (h : k.IsStorable) {u : KeyUpdate}
    (hcheck : u.check = .ok ()) (now : Instant) : (editBy u now k).key.IsStorable := by
  obtain ⟨_, _, _, _, _, hkey⟩ := editBy_key u now k
  refine ⟨?_, by rw [hkey]; exact h.lead_length, by rw [hkey]; exact h.lead, ?_⟩
  · rw [name_editBy, u.name_apply]
    cases hname : u.name with
    | keep => exact h.name
    | set name => exact isBlankText_of_checkKeyName (KeyUpdate.checkKeyName_of_check hcheck hname)
  · rw [policies_editBy, u.policies_apply, KeyUpdate.editPolicies]
    cases hps : u.policies with
    | keep => exact h.policies
    | set ps =>
      have hdesired := KeyUpdate.checkPolicies_of_check hcheck hps
      refine Policy.checkPolicies_of_perm (Policy.perm_reconcile ?_ ?_) hdesired
      · exact Policy.nodup_ranges_of_checkPolicies h.policies
      · exact Policy.nodup_ranges_of_checkPolicies hdesired

/-- The keys may be stored, and every entry about a key is about one that is there. -/
structure Tables.KeysKept (t : Tables) : Prop where
  storable : ∀ k ∈ t.keys, k.IsStorable
  entryOwners : ∀ e ∈ t.keyTrail, ∃ k ∈ t.keys, k.id = e.key

namespace Call

variable {β : Type} {c : Call β} {t : Tables} {limit : Int}

/-- A proper edit leaves a key that may be stored. -/
theorem IsProper.storable_edit {account id : RowId} {edit : ApiKey → KeyChange}
    {security : Option SecurityEvent} {now : Instant}
    (hproper : (Call.modifyKey account id edit security now).IsProper limit) {k : ApiKey}
    (h : k.IsStorable) : (edit k).key.IsStorable := by
  rcases hproper with ⟨u, hcheck, rfl, -⟩ | ⟨rfl, -⟩
  · exact h.update hcheck _
  · exact ⟨h.name, h.lead_length, h.lead, h.policies⟩

/-- A proper call writes keys that may be stored. -/
theorem storable_keys (ht : t.KeysInOrder) (hproper : c.IsProper limit)
    (hkeys : ∀ k ∈ t.keys, k.IsStorable) : ∀ k ∈ (c.apply t).2.keys, k.IsStorable := by
  have hspared (hspares : c.SparesKeys) : ∀ k ∈ (c.apply t).2.keys, k.IsStorable :=
    (keys_of_sparesKeys hspares t).1 ▸ hkeys
  cases c with
  | insertKey k l =>
    by_cases hquota : l ≤ (t.keysOf k.account).length
    · rw [insertKey_of_limit_le hquota]
      exact hkeys
    · obtain ⟨-, hname, hpolicies, raw, hlead⟩ := hproper
      rw [apply, sure, Tables.insertKey_eq hquota]
      intro key hkey
      rcases List.mem_append.1 hkey with hkey | hkey
      · exact hkeys key hkey
      · rw [List.mem_singleton.1 hkey]
        refine ⟨isBlankText_of_checkKeyName hname, ?_, ?_, hpolicies⟩
        · exact (congrArg String.length hlead).trans raw.length_leadText
        · intro c hc
          exact raw.isAlphanum_of_mem_leadText (hlead ▸ hc)
  | modifyKey account id edit security now =>
    cases hkey : t.key? account id with
    | none =>
      rw [modifyKey_of_none hkey]
      exact hkeys
    | some key =>
      have hedits := hproper.editsKey ht hkey
      rw [hedits.keys]
      intro k hk
      obtain ⟨l, hl, rfl⟩ := List.mem_map.1 hk
      split
      · exact hproper.storable_edit (hkeys key hedits.mem)
      · exact hkeys l hl
  | _ => exact hspared trivial

/-- The entries about keys that a call writes are about keys that are there. -/
theorem owner_of_mem_keyTrail (ht : t.InOrder) (hproper : c.IsProper limit)
    (hplace : c.IsInPlace t) {e : KeyEntry} (he : e ∈ (c.apply t).2.keyTrail) :
    e ∈ t.keyTrail ∨ ∃ k ∈ (c.apply t).2.keys, k.id = e.key := by
  have hgrows := grows ht hproper hplace
  have hspared (hspares : c.SparesKeys) :
      e ∈ t.keyTrail ∨ ∃ k ∈ (c.apply t).2.keys, k.id = e.key :=
    .inl ((keys_of_sparesKeys hspares t).2 ▸ he)
  cases c with
  | insertKey k l =>
    by_cases hquota : l ≤ (t.keysOf k.account).length
    · rw [insertKey_of_limit_le hquota] at he
      exact .inl he
    · rw [apply, sure, Tables.insertKey_eq hquota] at he ⊢
      rcases List.mem_append.1 he with he | he
      · exact .inl he
      · rw [key_of_mem_keyEntries he]
        exact .inr ⟨_, List.mem_append_right _ (List.mem_singleton.2 rfl), rfl⟩
  | modifyKey account id edit security now =>
    cases hkey : t.key? account id with
    | none =>
      rw [modifyKey_of_none hkey] at he
      exact .inl he
    | some key =>
      by_cases hevents : (edit key).events = []
      · rw [apply, sure, Tables.modifyKey_of_events_eq_nil hkey hevents] at he
        exact .inl he
      · obtain ⟨hmem, hid, -⟩ := Tables.key?_some hkey
        -- The key that was found may have changed, but not its number.
        obtain ⟨k, hk, hsame, -⟩ := hgrows.keys key hmem
        rw [apply, sure, Tables.modifyKey_eq hkey hevents] at he hk ⊢
        rcases List.mem_append.1 he with he | he
        · exact .inl he
        · rw [key_of_mem_keyEntries he]
          exact .inr ⟨k, hk, hsame.trans hid⟩
  | _ => exact hspared trivial

theorem keysKept (ht : t.InOrder) (hproper : c.IsProper limit) (hplace : c.IsInPlace t)
    (h : t.KeysKept) : (c.apply t).2.KeysKept where
  storable := storable_keys ht.keys hproper h.storable
  entryOwners := by
    intro e he
    rcases owner_of_mem_keyTrail ht hproper hplace he with he | howner
    · obtain ⟨k, hk, hid⟩ := h.entryOwners e he
      obtain ⟨l, hl, hsame, -⟩ := (grows ht hproper hplace).keys k hk
      exact ⟨l, hl, hsame.trans hid⟩
    · exact howner

end Call

/-- Where the keys are kept, they are kept in all that comes about. -/
theorem Service.Reaches.keysKept {s : Service} {t t' : Tables} (h : s.Reaches t t')
    (ht : t.InOrder) (hkept : t.KeysKept) : t'.KeysKept := by
  obtain ⟨-, hkept, -⟩ := h.keeps (I := Tables.KeysKept)
    (fun c t ht hc hkept => c.keysKept ht hc.1 hc.2 hkept) ht hkept
  exact hkept

/-! ## Resets -/

/-- An account waits for a reset with a token that runs out, or it has neither. -/
def Account.IsPaired (a : Account) : Prop :=
  a.resetToken.isSome = a.resetExpiresAt.isSome

namespace Tables

variable {t t' : Tables} {hasher : Hasher} {given : Given}

/-- Tokens and expiries are set together and cleared together. -/
theorem AccountStep.isPaired (h : t.AccountsInOrder) {e? : Option CredentialEvent}
    (hstep : t.AccountStep t' hasher given e?) (hpaired : ∀ a ∈ t.accounts, a.IsPaired) :
    ∀ a ∈ t'.accounts, a.IsPaired := by
  have hreplaced {a b : Account} (hreplaces : t.Replaces t' a b) (hb : b.IsPaired) :
      ∀ c ∈ t'.accounts, c.IsPaired := by
    intro c hc
    rcases (hreplaces.mem_iff h).1 hc with rfl | ⟨hc, -⟩
    · exact hb
    · exact hpaired c hc
  cases hstep with
  | quiet haccounts => exact haccounts ▸ hpaired
  | edited a b hreplaces _ htoken hexpiry =>
    refine hreplaced hreplaces ?_
    rw [Account.IsPaired, htoken, hexpiry]
    exact hpaired a hreplaces.mem
  | joined a _ _ _ htoken hexpiry haccounts =>
    rw [haccounts]
    intro c hc
    rcases List.mem_append.1 hc with hc | hc
    · exact hpaired c hc
    · rw [List.mem_singleton.1 hc, Account.IsPaired, htoken, hexpiry]
      rfl
  | issued a hreplaces => exact hreplaced hreplaces rfl
  | reset a _ _ _ _ _ hreplaces => exact hreplaced hreplaces rfl

/-- Accounts that wait for a reset with the same token are one. -/
theorem Recalls.eq_of_resetToken_eq {drawn : List Uuid} {es : List CredentialEvent}
    (h : t.Recalls hasher drawn es) {a b : Account} (ha : a ∈ t.accounts) (hb : b ∈ t.accounts)
    {token : Uuid} (hwaits : a.resetToken = some token) (hwaits' : b.resetToken = some token) :
    a = b := by
  obtain ⟨_, hpending, -⟩ := h.pending a ha token hwaits
  obtain ⟨_, hpending', -⟩ := h.pending b hb token hwaits'
  exact List.inj_on_of_nodup_map h.inOrder.usernames ha hb (h.tokens.owner hpending hpending')

end Tables

theorem Service.isPaired_after (s : Service) (h : List Asked) :
    ∀ a ∈ (s.after {} h).accounts, a.IsPaired := by
  obtain ⟨-, hpaired⟩ := s.after_induction (t := {})
    (I := fun t => t.AccountsInOrder ∧ ∀ a ∈ t.accounts, a.IsPaired)
    (fun x _ ht => ⟨s.accountsInOrder_perform ht.1 x,
      (s.accountStep_perform ht.1 x).isPaired ht.1 ht.2⟩)
    ⟨Tables.accountsInOrder_empty, fun _ ha => nomatch ha⟩ h
  exact hpaired

/-! ## Tables as a whole -/

/-- All tables that share the count of row numbers. -/
def Numbered.all : List Numbered :=
  [.accounts, .securityTrail, .charges, .keys, .keyTrail]

/-- What a database would declare of its tables. -/
structure Tables.WellFormed (t : Tables) : Prop where
  usernames : (t.accounts.map (·.username)).Nodup
  ids : (Numbered.all.flatMap t.ids).Nodup
  ids_le : ∀ table, ∀ id ∈ t.ids table, id ≤ t.lastId
  ids_increase : ∀ table, (t.ids table).Pairwise (· < ·)
  keyOwners : ∀ k ∈ t.keys, ∃ a ∈ t.accounts, a.id = k.account
  deviceOwners : ∀ d ∈ t.devices, ∃ a ∈ t.accounts, a.id = d.account
  securityOwners : ∀ e ∈ t.securityTrail, ∃ a ∈ t.accounts, a.id = e.account
  keyEntryOwners : ∀ e ∈ t.keyTrail, ∃ k ∈ t.keys, k.id = e.key
  resets : ∀ a ∈ t.accounts, a.IsPaired
  resetTokens : ∀ a ∈ t.accounts, ∀ b ∈ t.accounts, ∀ token,
    a.resetToken = some token → b.resetToken = some token → a = b
  keys : ∀ k ∈ t.keys, k.IsStorable

theorem Tables.HasOwner.exists_id_eq {t : Tables} {account : RowId} (h : t.HasOwner account) :
    ∃ a ∈ t.accounts, a.id = account := by
  obtain ⟨_, a, ha, hid, -⟩ := h
  exact ⟨a, ha, hid⟩

/-- If no identifier is drawn twice, tables are well-formed after every history, and the numbers
that were given away before are still on the rows that got them. -/
theorem Service.wellFormed_after (s : Service) (h : List Asked)
    (hdrawn : (h.map (·.given.uuid)).Nodup) :
    (s.after {} h).WellFormed ∧ ∀ before after, h = before ++ after → ∀ table,
      (s.after {} before).ids table <+: (s.after {} h).ids table := by
  have hreaches : s.Reaches {} (s.after {} h) := Service.reaches_after {} h
  have horder := hreaches.inOrder
  have hextends := hreaches.extends Tables.inOrder_empty
  have hkept := hreaches.keysKept Tables.inOrder_empty
    ⟨fun _ hk => (nomatch hk), fun _ he => nomatch he⟩
  -- That two tokens differ is known of tokens that are pending, and a row holds no other.
  have hrecalls := s.recalls_after hdrawn
  refine ⟨⟨horder.accounts.usernames, hextends.nodup_ids (by decide), ?_, hextends.pairwise_ids,
    ?_, ?_, ?_, hkept.entryOwners, s.isPaired_after h, ?_, hkept.storable⟩, ?_⟩
  · intro table id hid
    exact (hextends.ids_le hid).2
  · intro k hk
    exact (horder.keyOwners k hk).exists_id_eq
  · intro d hd
    exact (horder.deviceOwners d hd).exists_id_eq
  · intro e he
    exact (horder.securityOwners e he).exists_id_eq
  · intro a ha b hb token hwaits hwaits'
    exact hrecalls.eq_of_resetToken_eq ha hb hwaits hwaits'
  · rintro before after rfl table
    rw [s.after_append]
    have hbefore := (Service.reaches_after (s := s) {} before).inOrder
    exact ((Service.reaches_after _ after).extends hbefore).prefix_ids table

/-- Two accounts wait for a reset, and one of them has a key and a device. -/
def twoWaiting : List Asked :=
  [⟨.sample 1, .signUp "ada@example.com" "correct horse"⟩,
    ⟨.sample 2, .signUp "bob@example.com" "battery staple"⟩,
    ⟨.sample 3, .createKey "ada@example.com"
      { name := "ci", policies := some [⟨"office", "10.0.0.0/8"⟩] }⟩,
    ⟨.sample 4, .signIn "ada@example.com" "correct horse" none⟩,
    ⟨.sample 5, .forgotPassword "ada@example.com"⟩,
    ⟨.sample 6, .forgotPassword "bob@example.com"⟩]

theorem wellFormed_after_twoWaiting : (twoWaiting.map (·.given.uuid)).Nodup ∧
    (Service.plain.after {} twoWaiting).accounts.map (·.resetToken) =
      [some (Given.sample 5).uuid, some (Given.sample 6).uuid] ∧
    (Service.plain.after {} twoWaiting).ids .keys = [5] ∧
    (Service.plain.after {} twoWaiting).WellFormed :=
  ⟨by decide, by decide +kernel, by decide +kernel,
    (Service.plain.wellFormed_after twoWaiting (by decide)).1⟩

end Latchkey
