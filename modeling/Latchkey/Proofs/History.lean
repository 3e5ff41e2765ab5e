import Latchkey.Proofs.Operations
import Latchkey.Proofs.Store.Keys

/-!
# Histories

A history is a list of operations, one after the other, each with what it is given from outside.
Every operation takes the keys one step: it leaves them alone, adds one, updates one or deletes one.
What such steps keep holds after every history.
-/

namespace Latchkey

/-- An operation with what it is given from outside. -/
structure Asked where
  {Answer : Type}
  given : Given
  op : Operation Answer

namespace Service

variable (s : Service)

/-- What an operation answers, and the tables after it. -/
def perform (x : Asked) (t : Tables) : Except Failure x.Answer × Tables :=
  (s.request x.given x.op).exec t

/-- The tables after a history. -/
def after (t : Tables) (h : List Asked) : Tables :=
  h.foldl (fun t x => (s.perform x t).2) t

theorem after_append (t : Tables) (h h' : List Asked) :
    s.after t (h ++ h') = s.after (s.after t h) h' :=
  List.foldl_append

/-- What every operation keeps holds after every history. -/
theorem after_induction {I : Tables → Prop}
    (step : ∀ (x : Asked) (t : Tables), I t → I (s.perform x t).2) {t : Tables} (ht : I t)
    (h : List Asked) : I (s.after t h) := by
  induction h generalizing t with
  | nil => exact ht
  | cons x h ih => exact ih (step x t ht)

end Service

/-! ## What an operation does to keys -/

open Keyring

/-- The step that an operation takes keys. -/
inductive Tables.KeyStep (t t' : Tables) : Prop where
  | quiet (lastId_le : t.lastId ≤ t'.lastId) (keys : t'.keys = t.keys)
      (labels : ∀ id, t'.keyLabels id = t.keyLabels id)
  | added (key : ApiKey) (ranges : (Policy.ranges key.policies).Nodup) (adds : t.AddsKey t' key)
  | updated (key : ApiKey) (u : KeyUpdate) (now : Instant)
      (edits : t.EditsKey t' key (editBy u now key))
  | deleted (key : ApiKey) (now : Instant) (edits : t.EditsKey t' key (tombstone now key))

namespace Service

variable (s : Service) (given : Given) {t : Tables}

/-- A request for a key fails and does nothing, or adds the key and shows its text. -/
theorem perform_createKey (username : String) (request : KeyRequest) (t : Tables) :
    (∃ e, s.perform ⟨given, .createKey username request⟩ t = (.error e, t)) ∨
    ∃ account digest t', s.keys.digest given.salt given.rawKey.text = .ok digest ∧
      checkPolicies (request.policies.getD []) = .ok () ∧
      s.perform ⟨given, .createKey username request⟩ t =
        (.ok ⟨(newKey given account request digest).row t.nextId, given.rawKey.text⟩, t') ∧
      t.AddsKey t' ((newKey given account request digest).row t.nextId) := by
  rcases exec_create s.keyLimit s.keys given username t request with
    ⟨e, h⟩ | ⟨a, digest, -, hpolicies, hdigest, hquota, h⟩
  · exact .inl ⟨e, h⟩
  · exact .inr ⟨a.id, digest, _, hdigest, hpolicies, h, Tables.addsKey_insertKey hquota⟩

/-- An update fails and does nothing, or edits the key and answers with it. -/
theorem perform_updateKey (ht : t.KeysInOrder) (username : String) (id : RowId) (u : KeyUpdate) :
    (∃ e, s.perform ⟨given, .updateKey username id u⟩ t = (.error e, t)) ∨
    ∃ key t', key.id = id ∧
      s.perform ⟨given, .updateKey username id u⟩ t = (.ok (editBy u given.now key).key, t') ∧
      t.EditsKey t' key (editBy u given.now key) := by
  rcases exec_update given username id t u with ⟨e, h⟩ | ⟨a, key, -, -, hkey, h⟩
  · exact .inl ⟨e, h⟩
  · refine .inr ⟨key, _, (Tables.key?_some hkey).2.1, h, ?_⟩
    exact Tables.editsKey_modifyKey ht hkey (editBy u given.now) editBy_of_events_eq_nil none
      given.now

/-- A deletion fails and does nothing, or marks the key. -/
theorem perform_deleteKey (ht : t.KeysInOrder) (username : String) (id : RowId) :
    (∃ e, s.perform ⟨given, .deleteKey username id⟩ t = (.error e, t)) ∨
    ∃ key t', key.id = id ∧ s.perform ⟨given, .deleteKey username id⟩ t = (.ok (), t') ∧
      t.EditsKey t' key (tombstone given.now key) := by
  rcases exec_delete given username id t with ⟨e, h⟩ | ⟨a, key, -, hkey, h⟩
  · exact .inl ⟨e, h⟩
  · refine .inr ⟨key, _, (Tables.key?_some hkey).2.1, h, ?_⟩
    exact Tables.editsKey_modifyKey ht hkey (tombstone given.now) (fun h => by cases h) _ given.now

/-- Every operation takes the keys one step. -/
theorem keyStep_perform (ht : t.KeysInOrder) (x : Asked) : t.KeyStep (s.perform x t).2 := by
  obtain ⟨given, op⟩ := x
  have hsame : t.KeyStep t := .quiet (Int.le_refl _) rfl fun _ => rfl
  have hquiet (hop : ¬op.WritesKeys) : t.KeyStep (s.perform ⟨given, op⟩ t).2 := by
    obtain ⟨hkeys, htrail⟩ := s.keys_exec given hop t
    refine .quiet (s.lastId_exec given op t) hkeys ?_
    intro id
    unfold Tables.keyLabels Tables.keyTrailOf
    rw [← htrail]
    rfl
  cases op with
  | createKey username request =>
    rcases s.perform_createKey given username request t with
      ⟨e, h⟩ | ⟨account, digest, t', -, hpolicies, h, hadds⟩
    · rw [h]
      exact hsame
    · rw [h]
      exact .added _ (Policy.nodup_ranges_of_checkPolicies hpolicies) hadds
  | updateKey username id u =>
    rcases s.perform_updateKey given ht username id u with ⟨e, h⟩ | ⟨key, t', -, h, hedits⟩
    · rw [h]
      exact hsame
    · rw [h]
      exact .updated key u given.now hedits
  | deleteKey username id =>
    rcases s.perform_deleteKey given ht username id with ⟨e, h⟩ | ⟨key, t', -, h, hedits⟩
    · rw [h]
      exact hsame
    · rw [h]
      exact .deleted key given.now hedits
  | _ => exact hquiet fun h => h

end Service

theorem Tables.KeyStep.keysInOrder {t t' : Tables} (hstep : t.KeyStep t') (h : t.KeysInOrder) :
    t'.KeysInOrder := by
  cases hstep with
  | quiet hle hkeys hlabels =>
    refine ⟨hkeys ▸ h.ids, ?_, ?_, hkeys ▸ h.ranges⟩
    · intro k hk
      exact Int.le_trans (h.ids_le k (hkeys ▸ hk)) hle
    · intro id hid
      rw [hlabels, h.fresh id (Int.lt_of_le_of_lt hle hid)]
  | added key hranges hadds => exact hadds.keysInOrder h hranges
  | updated key u now hedits =>
    obtain ⟨name, scope, policies, enabled, modifiedAt, hkey⟩ := editBy_key u now key
    refine hedits.keysInOrder h (by rw [hkey]) ?_
    rw [policies_editBy]
    exact u.nodup_ranges_apply key (h.ranges key hedits.mem)
  | deleted key now hedits => exact hedits.keysInOrder h rfl (h.ranges key hedits.mem)

/-- Keys are in order after every history. -/
theorem Service.keysInOrder_after (s : Service) (h : List Asked) :
    (s.after {} h).KeysInOrder := by
  refine s.after_induction (I := Tables.KeysInOrder) ?_ Tables.keysInOrder_empty h
  intro x t ht
  exact (s.keyStep_perform ht x).keysInOrder ht

/-! ## A service to try things on -/

/-- A hasher that keeps secrets as they are. -/
def Hasher.plain : Hasher where
  digest _ secret := .ok secret
  verify presented digest := .ok (decide (presented = digest))

/-- A service that keeps secrets as they are. -/
def Service.plain : Service where
  session := { tokens := ⟨"secret", 15⟩ }
  keyLimit := defaultKeyLimit
  passwords := .plain
  keys := .plain

/-- What is given from outside at a second, other values for every one of the first sixty-two. -/
def Given.sample (n : Nat) : Given where
  now := ⟨n, 0⟩
  uuid := ⟨BitVec.ofNat 128 n⟩
  tokenId := ⟨BitVec.ofNat 128 n⟩
  salt := Vector.replicate 16 0
  rawKey := ⟨Vector.replicate 7 (Fin.ofNat 62 n), Vector.replicate 32 (Fin.ofNat 62 n)⟩

end Latchkey
