import Mathlib.Data.List.Nodup
import Latchkey.Proofs.KeyUpdate
import Latchkey.Proofs.Store.Frames
import Latchkey.Proofs.Store.Replacement

/-!
# Keys in order

In tables that came about by store calls no two keys share a number, and numbers that were not yet
given away are on no row and in no trail. There an edit changes one row and no other, and adds to
the record of one key.
-/

namespace Latchkey

theorem filter_eq_singleton {α β : Type} [DecidableEq β] {xs : List α} {f : α → β} {x : α}
    (hnodup : (xs.map f).Nodup) (hx : x ∈ xs) : xs.filter (f · = f x) = [x] := by
  induction xs with
  | nil => cases hx
  | cons y ys ih =>
    rw [List.map_cons, List.nodup_cons] at hnodup
    rcases List.mem_cons.1 hx with rfl | hx
    · have hrest : ys.filter (f · = f x) = [] := by
        refine List.filter_eq_nil_iff.2 fun y hy heq => hnodup.1 ?_
        exact List.mem_map.2 ⟨y, hy, of_decide_eq_true heq⟩
      rw [List.filter_cons, if_pos (decide_eq_true rfl), hrest]
    · have hne : f y ≠ f x := fun h => hnodup.1 (h ▸ List.mem_map.2 ⟨x, hx, rfl⟩)
      rw [List.filter_cons, if_neg (by simpa using hne), ih hnodup.2 hx]

theorem find?_eq_some_of_nodup {α β : Type} [DecidableEq β] {xs : List α} {f : α → β} {x : α}
    (hnodup : (xs.map f).Nodup) (hx : x ∈ xs) : xs.find? (f · = f x) = some x := by
  rw [← List.head?_filter, filter_eq_singleton hnodup hx]
  rfl

namespace Tables

variable {t : Tables}

/-- Numbers of keys are different, those not yet given away are nowhere, and no key has a range
twice. -/
structure KeysInOrder (t : Tables) : Prop where
  ids : (t.keys.map (·.id)).Nodup
  ids_le : ∀ k ∈ t.keys, k.id ≤ t.lastId
  fresh : ∀ id, t.lastId < id → t.keyLabels id = []
  ranges : ∀ k ∈ t.keys, (Policy.ranges k.policies).Nodup

theorem keysInOrder_empty : ({} : Tables).KeysInOrder where
  ids := List.nodup_nil
  ids_le := fun _ hk => nomatch hk
  fresh := fun _ _ => rfl
  ranges := fun _ hk => nomatch hk

/-- Keys with one number are one. -/
theorem KeysInOrder.eq_of_id_eq (h : t.KeysInOrder) {k l : ApiKey} (hk : k ∈ t.keys)
    (hl : l ∈ t.keys) (hid : k.id = l.id) : k = l :=
  List.inj_on_of_nodup_map h.ids hk hl hid

theorem KeysInOrder.filter_id (h : t.KeysInOrder) {k : ApiKey} (hk : k ∈ t.keys) :
    t.keys.filter (·.id = k.id) = [k] :=
  filter_eq_singleton h.ids hk

theorem key?_some {account id : RowId} {key : ApiKey} (h : t.key? account id = some key) :
    key ∈ t.keys ∧ key.id = id ∧ key.isDeleted = false := by
  have hlive : isLive account id key = true := List.find?_some h
  simp only [isLive, Bool.and_eq_true, decide_eq_true_eq, Bool.not_eq_true'] at hlive
  exact ⟨List.mem_of_find?_eq_some h, hlive.1.1, hlive.2⟩

/-! ## Adding a key -/

/-- The tables with one key more, under a new number and with the record of its creation. -/
structure AddsKey (t t' : Tables) (key : ApiKey) : Prop where
  fresh : t.lastId < key.id
  lastId_le : key.id ≤ t'.lastId
  keys : t'.keys = t.keys ++ [key]
  labels : ∀ id, t'.keyLabels id =
    t.keyLabels id ++ if key.id = id then [KeyEvent.label .created] else []

@[simp] theorem keyLabels_recordSecurityEvents (id row : RowId) (events : List SecurityEvent)
    (now : Instant) : (t.recordSecurityEvents row events now).keyLabels id = t.keyLabels id := by
  simp [keyLabels, keyTrailOf]

theorem addsKey_insertKey {k : NewApiKey} {limit : Int}
    (h : ((t.keysOf k.account).length : Int) < limit) :
    t.AddsKey (t.insertKey k limit).2 (k.row t.nextId) := by
  have hquota : ¬limit ≤ (t.keysOf k.account).length := Int.not_le.2 h
  simp only [insertKey, if_neg hquota]
  constructor
  · show t.lastId < t.lastId + 1
    grind
  · simp only [recordSecurityEvents_lastId, recordKeyEvents_lastId]
    grind
  · simp
  · intro id
    simp only [keyLabels_recordSecurityEvents, keyLabels_recordKeyEvents]
    rfl

theorem AddsKey.keysInOrder {t' : Tables} {key : ApiKey} (hadd : t.AddsKey t' key)
    (h : t.KeysInOrder) (hranges : (Policy.ranges key.policies).Nodup) : t'.KeysInOrder where
  ids := by
    rw [hadd.keys, List.map_append, List.nodup_append]
    refine ⟨h.ids, List.nodup_singleton _, ?_⟩
    intro a ha b hb hab
    obtain ⟨k, hk, rfl⟩ := List.mem_map.1 ha
    rw [List.map_singleton, List.mem_singleton] at hb
    have := h.ids_le k hk
    have := hadd.fresh
    grind
  ids_le := by
    intro k hk
    rw [hadd.keys] at hk
    rcases List.mem_append.1 hk with hk | hk
    · have := h.ids_le k hk
      have := hadd.fresh
      have := hadd.lastId_le
      grind
    · rw [List.mem_singleton.1 hk]
      exact hadd.lastId_le
  fresh := by
    intro id hid
    have hlt := hadd.fresh
    have hle := hadd.lastId_le
    rw [hadd.labels, h.fresh id (by grind), if_neg (by grind)]
    rfl
  ranges := by
    intro k hk
    rw [hadd.keys] at hk
    rcases List.mem_append.1 hk with hk | hk
    · exact h.ranges k hk
    · rw [List.mem_singleton.1 hk]
      exact hranges

/-! ## Editing a key -/

/-- The tables with one key edited and the events of the edit on its record. -/
structure EditsKey (t t' : Tables) (key : ApiKey) (change : KeyChange) : Prop where
  mem : key ∈ t.keys
  live : key.isDeleted = false
  lastId_le : t.lastId ≤ t'.lastId
  keys : t'.keys = t.keys.map fun k => if k.id = key.id then change.key else k
  labels : ∀ id, t'.keyLabels id =
    t.keyLabels id ++ if key.id = id then change.events.map KeyEvent.label else []

/-- An edit that changes a key only if it reports so edits the key. -/
theorem editsKey_modifyKey (h : t.KeysInOrder) {account id : RowId} {key : ApiKey}
    (hkey : t.key? account id = some key) (edit : ApiKey → KeyChange)
    (hquiet : (edit key).events = [] → (edit key).key = key) (security : Option SecurityEvent)
    (now : Instant) : t.EditsKey (t.modifyKey account id edit security now).2 key (edit key) := by
  obtain ⟨hmem, hid, hlive⟩ := key?_some hkey
  refine ⟨hmem, hlive, Call.lastId_le (.modifyKey account id edit security now) t, ?_, ?_⟩
  all_goals simp only [modifyKey, hkey]
  · cases hevents : (edit key).events with
    | nil =>
      simp only [List.isEmpty_nil, if_true, hquiet hevents]
      refine ((List.map_congr_left fun k hk => ?_).trans (List.map_id' t.keys)).symm
      split
      · next heq => exact h.eq_of_id_eq hmem hk heq.symm
      · rfl
    | cons e events =>
      simp only [List.isEmpty_cons, Bool.false_eq_true, if_false, recordSecurityEvents_keys,
        recordKeyEvents_keys]
      refine replaceFirst_eq_map (f := (·.id)) _ h.ids hkey ?_
      intro z hz
      simp only [isLive, Bool.and_eq_true, decide_eq_true_eq] at hz
      exact hz.1.1.trans hid.symm
  · intro i
    cases hevents : (edit key).events with
    | nil => simp
    | cons e events =>
      simp only [List.isEmpty_cons, Bool.false_eq_true, if_false, keyLabels_recordSecurityEvents,
        keyLabels_recordKeyEvents, hid]
      rfl

theorem EditsKey.keysInOrder {t' : Tables} {key : ApiKey} {change : KeyChange}
    (hedit : t.EditsKey t' key change) (h : t.KeysInOrder) (hid : change.key.id = key.id)
    (hranges : (Policy.ranges change.key.policies).Nodup) : t'.KeysInOrder where
  ids := by
    have hsame : t'.keys.map (·.id) = t.keys.map (·.id) := by
      rw [hedit.keys, List.map_map]
      refine List.map_congr_left ?_
      intro k _
      simp only [Function.comp_apply]
      split
      · next hk => rw [hid, hk]
      · rfl
    rw [hsame]
    exact h.ids
  ids_le := by
    intro k hk
    rw [hedit.keys] at hk
    obtain ⟨l, hl, rfl⟩ := List.mem_map.1 hk
    have hle := hedit.lastId_le
    have hl := h.ids_le l hl
    have hkey := h.ids_le key hedit.mem
    split <;> grind
  fresh := by
    intro id hlt
    have hle := hedit.lastId_le
    have hkey := h.ids_le key hedit.mem
    rw [hedit.labels, h.fresh id (by grind), if_neg (by grind)]
    rfl
  ranges := by
    intro k hk
    rw [hedit.keys] at hk
    obtain ⟨l, hl, rfl⟩ := List.mem_map.1 hk
    split
    · exact hranges
    · exact h.ranges l hl

end Tables

end Latchkey
