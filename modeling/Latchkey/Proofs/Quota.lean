import Latchkey.Proofs.Reach
import Latchkey.Proofs.Store.Holdings
import Latchkey.Proofs.Transcript

/-!
# Quotas

How many keys an account has is known from the answers: it is the number of keys that were created
for it less the number of those that were deleted. Only calls that add a key make it larger, and
they are refused from the limit on, so no account ever has more keys than the limit allows.
-/

namespace Latchkey

open Keyring

/-- Where no two members have the same image, one of them comes apart from the others, and an edit
of it leaves these as they are. -/
theorem exists_perm_edited {α β : Type} [DecidableEq β] {xs : List α} {f : α → β} {x : α}
    (hnodup : (xs.map f).Nodup) (hx : x ∈ xs) (y : α) : ∃ rest, xs.Perm (x :: rest) ∧
      (xs.map fun z => if f z = f x then y else z).Perm (y :: rest) := by
  obtain ⟨before, after, rfl⟩ := List.append_of_mem hx
  have hne (z : α) (hz : z ∈ before ++ after) : f z ≠ f x := by
    have hperm : (before ++ x :: after).Perm (x :: (before ++ after)) := List.perm_middle
    have hnodup' := (hperm.map f).nodup_iff.1 hnodup
    rw [List.map_cons, List.nodup_cons] at hnodup'
    exact fun h => hnodup'.1 (h ▸ List.mem_map.2 ⟨z, hz, rfl⟩)
  have hkept (zs : List α) (hzs : ∀ z ∈ zs, z ∈ before ++ after) :
      zs.map (fun z => if f z = f x then y else z) = zs :=
    (List.map_congr_left fun z hz => if_neg (hne z (hzs z hz))).trans (List.map_id' zs)
  refine ⟨before ++ after, List.perm_middle, ?_⟩
  rw [List.map_append, List.map_cons, if_pos rfl, hkept before fun z => List.mem_append_left _,
    hkept after fun z => List.mem_append_right _]
  exact List.perm_middle

namespace Tables

variable {t t' : Tables} {username : String} {account id : RowId}

/-- How many keys the account of a name has that are not deleted. -/
def keyCount (t : Tables) (username : String) : Nat :=
  t.keys.countP fun k => t.owns username k.account && !k.isDeleted

theorem InOrder.keyCount_of_mem (ht : t.InOrder) {a : Account} (ha : a ∈ t.accounts) :
    t.keyCount a.username = (t.keysOf a.id).length := by
  have hthere : t.HasAccount a.id a.username := ⟨a, ha, rfl, rfl⟩
  rw [keyCount, keysOf, ← List.countP_eq_length_filter]
  refine List.countP_congr fun k _ => ?_
  have howns : t.owns a.username k.account = decide (k.account = a.id) := by
    rw [Bool.eq_iff_iff, decide_eq_true_eq]
    exact ⟨ht.eq_of_owns hthere, fun h => h ▸ owns_iff.2 hthere⟩
  rw [howns]

/-- While tables grow, keys of accounts that were there count for the same accounts. -/
theorem InOrder.keyCount_grow (ht' : t'.InOrder) (hgrows : t.Grows t')
    (howners : ∀ k ∈ t'.keys, t.HasOwner k.account) :
    t'.keyCount username = t'.keys.countP fun k => t.owns username k.account && !k.isDeleted := by
  refine List.countP_congr fun k hk => ?_
  rw [ht'.owns_grow hgrows (howners k hk)]

theorem InOrder.keyCount_of_keys_eq (ht : t.InOrder) (ht' : t'.InOrder) (hgrows : t.Grows t')
    (hkeys : t'.keys = t.keys) : t'.keyCount username = t.keyCount username := by
  rw [ht'.keyCount_grow hgrows fun k hk => ht.keyOwners k (hkeys ▸ hk), hkeys]
  rfl

/-- A key that is added is one more key of its account. -/
theorem InOrder.keyCount_addsKey (ht : t.InOrder) (ht' : t'.InOrder) (hgrows : t.Grows t')
    {key : ApiKey} (hadds : t.AddsKey t' key) (howner : t.HasOwner key.account)
    (hlive : key.isDeleted = false) : t'.keyCount username =
      t.keyCount username + if t.owns username key.account then 1 else 0 := by
  have howners (k : ApiKey) (hk : k ∈ t'.keys) : t.HasOwner k.account := by
    rw [hadds.keys] at hk
    rcases List.mem_append.1 hk with hk | hk
    · exact ht.keyOwners k hk
    · rw [List.mem_singleton.1 hk]
      exact howner
  rw [ht'.keyCount_grow hgrows howners, hadds.keys, List.countP_append, List.countP_singleton,
    hlive, Bool.not_false, Bool.and_true]
  rfl

/-- An edit that deletes a key takes one key from its account, and any other edit takes none. -/
theorem InOrder.keyCount_editsKey (ht : t.InOrder) (ht' : t'.InOrder) (hgrows : t.Grows t')
    {key : ApiKey} {change : KeyChange} (hedits : t.EditsKey t' key change)
    (haccount : change.key.account = key.account) (username : String) : t'.keyCount username +
      (if t.owns username key.account && change.key.isDeleted then 1 else 0) =
        t.keyCount username := by
  obtain ⟨rest, hbefore, hafter⟩ := exists_perm_edited ht.keys.ids hedits.mem change.key
  have howners (k : ApiKey) (hk : k ∈ t'.keys) : t.HasOwner k.account := by
    rw [hedits.keys] at hk
    rcases List.mem_cons.1 (hafter.subset hk) with rfl | hk
    · exact haccount ▸ ht.keyOwners key hedits.mem
    · exact ht.keyOwners k (hbefore.symm.subset (List.mem_cons_of_mem _ hk))
  rw [ht'.keyCount_grow hgrows howners, hedits.keys, hafter.countP_eq, keyCount,
    hbefore.countP_eq, List.countP_cons, List.countP_cons, haccount, hedits.live]
  cases t.owns username key.account <;> cases change.key.isDeleted <;> simp

end Tables

/-! ## Keys by the answers -/

/-- A key was created for the account of this name. -/
def Answered.isCreation (username : String) : Answered → Bool
  | ⟨_, .createKey name _, .ok _⟩ => name = username
  | _ => false

/-- A key of the account of this name was deleted. -/
def Answered.isDeletion (username : String) : Answered → Bool
  | ⟨_, .deleteKey name _, .ok _⟩ => name = username
  | _ => false

namespace Service

variable (s : Service) {t : Tables} {username : String}

/-- The keys of an account and the answer that tells of them balance. -/
def Balances (t : Tables) (username : String) (x : Asked) : Prop :=
  (s.perform x t).2.keyCount username +
      (if (s.answered x t).isDeletion username then 1 else 0) =
    t.keyCount username + if (s.answered x t).isCreation username then 1 else 0

variable (given : Given)

theorem balances_createKey (ht : t.InOrder) (name : String) (request : KeyRequest) :
    s.Balances t username ⟨given, .createKey name request⟩ := by
  obtain ⟨ht', hgrows⟩ := s.grows_perform ht ⟨given, .createKey name request⟩
  rcases exec_create s.keyLimit s.keys given name t request with
    ⟨e, h⟩ | ⟨a, digest, ha, -, -, hquota, h⟩
  all_goals
    replace h : s.perform ⟨given, .createKey name request⟩ t = _ := h
    rw [h] at ht' hgrows
    unfold Balances answered
    rw [h]
  · rfl
  · have howner : t.HasOwner a.id := ⟨name, Tables.owns_iff.1 (Tables.owns_of_accountNamed? ha)⟩
    have hadds := Tables.addsKey_insertKey (k := newKey given a.id request digest) hquota
    have hcount : _ = t.keyCount username + if t.owns username a.id then 1 else 0 :=
      ht.keyCount_addsKey ht' hgrows hadds howner rfl
    rw [ht.owns_named ha] at hcount
    simpa [Answered.isCreation, Answered.isDeletion] using hcount

theorem balances_updateKey (ht : t.InOrder) (name : String) (id : RowId) (u : KeyUpdate) :
    s.Balances t username ⟨given, .updateKey name id u⟩ := by
  obtain ⟨ht', hgrows⟩ := s.grows_perform ht ⟨given, .updateKey name id u⟩
  rcases s.perform_updateKey given ht.keys name id u with ⟨e, h⟩ | ⟨key, t', -, h, hedits⟩
  all_goals
    rw [h] at ht' hgrows
    unfold Balances answered
    rw [h]
  · rfl
  · obtain ⟨name, scope, policies, enabled, modifiedAt, hkey⟩ := editBy_key u given.now key
    have hcount := ht.keyCount_editsKey ht' hgrows hedits (by rw [hkey]) username
    have hlive : (editBy u given.now key).key.isDeleted = false := by
      rw [hkey]
      exact hedits.live
    rw [hlive, Bool.and_false] at hcount
    simpa [Answered.isCreation, Answered.isDeletion] using hcount

theorem balances_deleteKey (ht : t.InOrder) (name : String) (id : RowId) :
    s.Balances t username ⟨given, .deleteKey name id⟩ := by
  obtain ⟨ht', hgrows⟩ := s.grows_perform ht ⟨given, .deleteKey name id⟩
  rcases exec_delete given name id t with ⟨e, h⟩ | ⟨a, key, ha, hkey, h⟩
  all_goals
    replace h : s.perform ⟨given, .deleteKey name id⟩ t = _ := h
    rw [h] at ht' hgrows
    unfold Balances answered
    rw [h]
  · rfl
  · have hedits := Tables.editsKey_modifyKey ht.keys hkey (tombstone given.now)
      (fun hnil => by cases hnil) (some (.keyDeleted id)) given.now
    have hcount := ht.keyCount_editsKey ht' hgrows hedits rfl username
    rw [Tables.key?_account hkey, ht.owns_named ha] at hcount
    simpa [Answered.isCreation, Answered.isDeletion, tombstone, ApiKey.isDeleted] using hcount

/-- A creation that succeeds gives the account one key more, a deletion takes one away, and
nothing else makes a difference. -/
theorem balances (ht : t.InOrder) (username : String) (x : Asked) : s.Balances t username x := by
  obtain ⟨ht', hgrows⟩ := s.grows_perform ht x
  obtain ⟨given, op⟩ := x
  have hquiet (hop : ¬op.WritesKeys)
      (hcreation : (s.answered ⟨given, op⟩ t).isCreation username = false)
      (hdeletion : (s.answered ⟨given, op⟩ t).isDeletion username = false) :
      s.Balances t username ⟨given, op⟩ := by
    unfold Balances
    rw [hcreation, hdeletion, ht.keyCount_of_keys_eq ht' hgrows (s.keys_exec given hop t).1]
  cases op with
  | createKey name request => exact s.balances_createKey given ht name request
  | updateKey name id u => exact s.balances_updateKey given ht name id u
  | deleteKey name id => exact s.balances_deleteKey given ht name id
  | _ => exact hquiet (fun h => h) rfl rfl

/-- After every history an account has the keys that were created less those that were deleted. -/
theorem keyCount_after (ht : t.InOrder) (username : String) (h : List Asked) :
    (s.after t h).keyCount username + (s.transcript t h).countP (·.isDeletion username) =
      t.keyCount username + (s.transcript t h).countP (·.isCreation username) := by
  induction h generalizing t with
  | nil => rfl
  | cons x h ih =>
    have hfirst := s.balances ht username x
    have hrest := ih (s.grows_perform ht x).1
    simp only [Balances] at hfirst
    simp only [transcript, List.countP_cons]
    change (s.after (s.perform x t).2 h).keyCount username + _ = _
    omega

end Service

/-! ## The limit -/

namespace Tables

variable {t t' : Tables} {account : RowId}

theorem length_keysOf_addsKey {key : ApiKey} (hadds : t.AddsKey t' key) (account : RowId) :
    (t'.keysOf account).length ≤
      (t.keysOf account).length + if key.account = account then 1 else 0 := by
  rw [keysOf, hadds.keys, List.filter_append, List.length_append, keysOf]
  by_cases haccount : key.account = account
  · simpa [haccount] using List.length_filter_le _ [key]
  · simp [haccount]

theorem length_keysOf_editsKey (ht : t.KeysInOrder) {key : ApiKey} {change : KeyChange}
    (hedits : t.EditsKey t' key change) (haccount : change.key.account = key.account) :
    (t'.keysOf account).length ≤ (t.keysOf account).length := by
  obtain ⟨rest, hbefore, hafter⟩ := exists_perm_edited ht.ids hedits.mem change.key
  rw [keysOf, keysOf, ← List.countP_eq_length_filter, ← List.countP_eq_length_filter, hedits.keys,
    hafter.countP_eq, hbefore.countP_eq, List.countP_cons, List.countP_cons, haccount, hedits.live]
  cases change.key.isDeleted <;> simp

end Tables

/-- No account has more keys than the limit allows. -/
def Tables.WithinLimit (limit : Int) (t : Tables) : Prop :=
  ∀ account, ((t.keysOf account).length : Int) ≤ max limit 0

/-- What a proper call writes keeps the keys of every account within the limit. -/
theorem Tables.KeyWrite.withinLimit {limit : Int} {t t' : Tables} (ht : t.KeysInOrder)
    (hwrite : t.KeyWrite limit t') (h : t.WithinLimit limit) : t'.WithinLimit limit := by
  have hedited {key : ApiKey} {change : KeyChange} (hedits : t.EditsKey t' key change)
      (haccount : change.key.account = key.account) : t'.WithinLimit limit := fun account =>
    Int.le_trans (Int.ofNat_le.2 (length_keysOf_editsKey ht hedits haccount)) (h account)
  cases hwrite with
  | spared hle hkeys htrail =>
    unfold WithinLimit keysOf
    rw [hkeys]
    exact h
  | added k hroom hpolicies hadds =>
    intro account
    have hadded := length_keysOf_addsKey hadds account
    have hbefore := h account
    split at hadded
    · next haccount =>
      obtain rfl : k.account = account := haccount
      omega
    · omega
  | updated key u now hedits =>
    obtain ⟨name, scope, policies, enabled, modifiedAt, hkey⟩ := editBy_key u now key
    exact hedited hedits (by rw [hkey])
  | deleted key now hedits => exact hedited hedits rfl

/-- No account ever has more keys than the limit allows, and none at all under a limit below zero.
-/
theorem Service.Reaches.withinLimit {s : Service} {t : Tables} (h : s.Reaches {} t) :
    t.WithinLimit s.keyLimit :=
  (h.keeps (fun _ _ ht hc => (Call.keyWrite ht.keys hc.1).withinLimit ht.keys)
    Tables.inOrder_empty fun _ => Int.le_max_right _ _).2.1

/-! ## Requests for keys -/

namespace Service

variable (s : Service) {t : Tables} {a : Account}

/-- A key that may be wanted is granted to an account that is there below the limit, and only
there. -/
theorem perform_createKey_of_mem (ht : t.InOrder) (ha : a ∈ t.accounts) (given : Given)
    {request : KeyRequest} (hname : checkKeyName request.name = .ok ())
    (hpolicies : checkPolicies (request.policies.getD []) = .ok ()) :
    s.perform ⟨given, .createKey a.username request⟩ t =
      match s.keys.digest given.salt given.rawKey.text with
      | .error e => (.error e, t)
      | .ok digest =>
        if s.keyLimit ≤ (t.keysOf a.id).length then (.error (.quotaExceeded s.keyLimit), t)
        else
          (.ok ⟨(newKey given a.id request digest).row t.nextId, given.rawKey.text⟩,
            (t.insertKey (newKey given a.id request digest) s.keyLimit).2) := by
  have hcreate := exec_create_eq s.keyLimit s.keys given a.username t request
  rw [hname, hpolicies, ht.accountNamed?_of_mem ha] at hcreate
  exact hcreate

theorem createKey_of_keyCount_lt (ht : t.InOrder) {username : String}
    (hthere : ∃ b ∈ t.accounts, b.username = username)
    (hbelow : (t.keyCount username : Int) < s.keyLimit) {given : Given} {request : KeyRequest}
    (hname : checkKeyName request.name = .ok ())
    (hpolicies : checkPolicies (request.policies.getD []) = .ok ()) {digest : String}
    (hdigest : s.keys.digest given.salt given.rawKey.text = .ok digest) :
    ∃ issued, (s.perform ⟨given, .createKey username request⟩ t).1 = .ok issued := by
  obtain ⟨b, hb, rfl⟩ := hthere
  rw [ht.keyCount_of_mem hb] at hbelow
  rw [s.perform_createKey_of_mem ht hb given hname hpolicies, hdigest]
  exact ⟨_, congrArg Prod.fst (if_neg (Int.not_le.2 hbelow))⟩

/-- After a deletion there is room for a key, until the account has created one. -/
theorem createKey_after_deleteKey (ht : t.InOrder) (hlimit : t.WithinLimit s.keyLimit)
    (ha : a ∈ t.accounts) {given given' : Given} {id : RowId}
    (hdeleted : (s.perform ⟨given, .deleteKey a.username id⟩ t).1 = .ok ()) {h : List Asked}
    (hnone : ∀ x ∈ s.transcript (s.perform ⟨given, .deleteKey a.username id⟩ t).2 h,
      x.isCreation a.username = false)
    {request : KeyRequest} (hname : checkKeyName request.name = .ok ())
    (hpolicies : checkPolicies (request.policies.getD []) = .ok ()) {digest : String}
    (hdigest : s.keys.digest given'.salt given'.rawKey.text = .ok digest) :
    ∃ issued, (s.perform ⟨given', .createKey a.username request⟩
      (s.after (s.perform ⟨given, .deleteKey a.username id⟩ t).2 h)).1 = .ok issued := by
  obtain ⟨ht₁, hgrows₁⟩ := s.grows_perform ht ⟨given, .deleteKey a.username id⟩
  have hreaches : s.Reaches _ (s.after _ h) := reaches_after
    (s.perform ⟨given, .deleteKey a.username id⟩ t).2 h
  obtain ⟨ht₂, hgrows₂⟩ := hreaches.inOrder_grows ht₁
  obtain ⟨b, hb, -, hb'⟩ := hgrows₂.accounts a (hgrows₁.accounts a ⟨a, ha, rfl, rfl⟩)
  refine s.createKey_of_keyCount_lt ht₂ ⟨b, hb, hb'⟩ ?_ hname hpolicies hdigest
  have hfirst := s.balances ht a.username ⟨given, .deleteKey a.username id⟩
  have hrest := s.keyCount_after ht₁ a.username h
  have hcreated : (s.transcript (s.perform ⟨given, .deleteKey a.username id⟩ t).2 h).countP
      (·.isCreation a.username) = 0 := List.countP_eq_zero.2 fun x hx => by simp [hnone x hx]
  have hbound := hlimit a.id
  rw [← ht.keyCount_of_mem ha] at hbound
  simp only [Balances, answered, hdeleted, Answered.isDeletion, Answered.isCreation,
    decide_true, if_true, Bool.false_eq_true, if_false] at hfirst
  omega

/-- Keys are accounted for. After every history, the keys that an account has are never more than
the limit allows; they are as many as were created for it less those that were deleted, which is
the number that is counted and the length of the list. A key that may be wanted is refused exactly
from the limit on, and then nothing changes. After a deletion there is room for one until one is
created, whatever else is asked for. -/
theorem accounts_for_keys (h : List Asked) (ha : a ∈ (s.after {} h).accounts) :
    (((s.after {} h).keysOf a.id).length : Int) ≤ max s.keyLimit 0 ∧
    ((s.after {} h).keysOf a.id).length +
        (s.transcript {} h).countP (·.isDeletion a.username) =
      (s.transcript {} h).countP (·.isCreation a.username) ∧
    (∀ given, s.perform ⟨given, .countKeys a.username⟩ (s.after {} h) =
        (.ok ((s.after {} h).keysOf a.id).length, s.after {} h) ∧
      s.perform ⟨given, .listKeys a.username⟩ (s.after {} h) =
        (.ok ((s.after {} h).keysOf a.id), s.after {} h)) ∧
    (∀ given request, checkKeyName request.name = .ok () →
      checkPolicies (request.policies.getD []) = .ok () →
      s.perform ⟨given, .createKey a.username request⟩ (s.after {} h) =
        match s.keys.digest given.salt given.rawKey.text with
        | .error e => (.error e, s.after {} h)
        | .ok digest =>
          if s.keyLimit ≤ ((s.after {} h).keysOf a.id).length then
            (.error (.quotaExceeded s.keyLimit), s.after {} h)
          else
            (.ok ⟨(newKey given a.id request digest).row (s.after {} h).nextId, given.rawKey.text⟩,
              ((s.after {} h).insertKey (newKey given a.id request digest) s.keyLimit).2)) ∧
    ∀ given id, (s.perform ⟨given, .deleteKey a.username id⟩ (s.after {} h)).1 = .ok () →
      ∀ h', (∀ x ∈ s.transcript (s.perform ⟨given, .deleteKey a.username id⟩ (s.after {} h)).2 h',
        x.isCreation a.username = false) →
      ∀ given' request digest, checkKeyName request.name = .ok () →
        checkPolicies (request.policies.getD []) = .ok () →
        s.keys.digest given'.salt given'.rawKey.text = .ok digest →
        ∃ issued, (s.perform ⟨given', .createKey a.username request⟩
          (s.after (s.perform ⟨given, .deleteKey a.username id⟩ (s.after {} h)).2 h')).1 =
            .ok issued := by
  have hreaches : s.Reaches {} (s.after {} h) := reaches_after {} h
  have ht := hreaches.inOrder
  have hnamed := ht.accountNamed?_of_mem ha
  refine ⟨hreaches.withinLimit a.id, ?_, ?_, ?_, ?_⟩
  · rw [← ht.keyCount_of_mem ha]
    simpa [Tables.keyCount] using s.keyCount_after Tables.inOrder_empty a.username h
  · intro given
    constructor
    · refine (exec_count a.username (s.after {} h)).trans ?_
      rw [hnamed]
    · refine (exec_list a.username (s.after {} h)).trans ?_
      rw [hnamed]
  · intro given request hname hpolicies
    exact s.perform_createKey_of_mem ht ha given hname hpolicies
  · intro given id hdeleted h' hnone given' request digest hname hpolicies hdigest
    exact s.createKey_after_deleteKey ht hreaches.withinLimit ha hdeleted hnone hname hpolicies
      hdigest

end Service

/-- A service that allows every account one key. -/
def Service.sparing : Service :=
  { Service.plain with keyLimit := 1 }

/-- The account of the requests for one key. -/
def oneKeyOwner : Account :=
  NewAccount.row ⟨"ada@example.com", "correct horse", ["admin"], ⟨1, 0⟩⟩ 1

/-- A second key is refused as long as the first is there. -/
theorem accounts_for_keys_oneKey :
    oneKeyOwner ∈ (Service.sparing.after {} oneKey).accounts ∧
    Service.sparing.perform ⟨.sample 3, .createKey "ada@example.com" { name := "cd" }⟩
        (Service.sparing.after {} oneKey) =
      (.error (.quotaExceeded 1), Service.sparing.after {} oneKey) ∧
    ∃ issued, (Service.sparing.perform
      ⟨.sample 4, .createKey "ada@example.com" { name := "cd" }⟩
      (Service.sparing.after {} (oneKey ++ [⟨.sample 3, .deleteKey "ada@example.com" 3⟩]))).1 =
        .ok issued := by
  have hmem : oneKeyOwner ∈ (Service.sparing.after {} oneKey).accounts := by decide +kernel
  obtain ⟨-, -, -, hcreate, hroom⟩ := Service.sparing.accounts_for_keys oneKey hmem
  refine ⟨hmem, ?_, ?_⟩
  · refine (hcreate (.sample 3) { name := "cd" } (by decide) (by decide)).trans ?_
    exact if_pos (by decide +kernel)
  · exact hroom (.sample 3) 3 (by decide +kernel) [] (fun _ h => nomatch h) (.sample 4)
      { name := "cd" } _ (by decide) (by decide) rfl

end Latchkey
