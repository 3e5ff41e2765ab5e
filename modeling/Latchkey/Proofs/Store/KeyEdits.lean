import Latchkey.Proofs.KeyRequests
import Latchkey.Proofs.KeyUpdate
import Latchkey.Proofs.Store.Replacement
import Latchkey.Proofs.Store.Writes

/-!
# Editing a key in place

What a store promises of an edit, whatever the edit is: a key that is not there is not edited; an
edit that reports nothing leaves the key, and its caller is told of the key that is kept; any other
is written where the key stands, with the record of its events. The tables always keep to this.
The answer does so for every edit that reports what it changes, and for no other.
-/

namespace Latchkey.Tables

variable {t : Tables} {account id : RowId} {edit : ApiKey → KeyChange}
  {security : Option SecurityEvent} {now : Instant}

/-! ## Where a key stands -/

/-- The first key that is the account's under this number and not deleted, between the keys before
and behind it. -/
structure KeyAt (t : Tables) (account id : RowId) (front : List ApiKey) (key : ApiKey)
    (back : List ApiKey) : Prop where
  keys : t.keys = front ++ key :: back
  live : isLive account id key = true
  first : ∀ k ∈ front, isLive account id k = false

theorem key?_eq_some_iff {key : ApiKey} :
    t.key? account id = some key ↔ ∃ front back, t.KeyAt account id front key back := by
  rw [key?, List.find?_eq_some_iff_append]
  constructor
  · rintro ⟨hlive, front, back, hkeys, hfirst⟩
    exact ⟨front, back, hkeys, hlive, fun k hk => by simpa using hfirst k hk⟩
  · rintro ⟨front, back, h⟩
    exact ⟨h.live, front, back, h.keys, fun k hk => by simp [h.first k hk]⟩

theorem KeyAt.key? {front back : List ApiKey} {key : ApiKey}
    (h : t.KeyAt account id front key back) : t.key? account id = some key :=
  key?_eq_some_iff.2 ⟨front, back, h⟩

/-! ## The contract -/

/-- What an edit of a key may answer and leave behind. -/
inductive ModifiesKey (t : Tables) (account id : RowId) (edit : ApiKey → KeyChange)
    (security : Option SecurityEvent) (now : Instant) : Option KeyChange × Tables → Prop where
  | missing (hnone : ∀ k ∈ t.keys, isLive account id k = false) :
      ModifiesKey t account id edit security now (none, t)
  | quiet {front back : List ApiKey} {key : ApiKey} (hat : t.KeyAt account id front key back)
      (hevents : (edit key).events = []) :
      ModifiesKey t account id edit security now (some ⟨key, []⟩, t)
  | written {front back : List ApiKey} {key : ApiKey} (hat : t.KeyAt account id front key back)
      (hevents : (edit key).events ≠ []) :
      ModifiesKey t account id edit security now (some (edit key),
        { t with
          lastId := t.lastId + (edit key).events.length + security.toList.length
          keys := front ++ (edit key).key :: back
          keyTrail := t.keyTrail ++ keyEntries id now t.lastId (edit key).events
          securityTrail := t.securityTrail ++
            securityEntries account now (t.lastId + (edit key).events.length) security.toList })

/-- What the contract answers for a key: an edit that reports nothing has made nothing of it. -/
def keptBy (edit : ApiKey → KeyChange) (key : ApiKey) : KeyChange :=
  if (edit key).events = [] then ⟨key, []⟩ else edit key

theorem keptBy_eq_iff {key : ApiKey} :
    keptBy edit key = edit key ↔ ((edit key).events = [] → (edit key).key = key) := by
  unfold keptBy
  split
  · next hevents =>
    refine ⟨fun h _ => h ▸ rfl, fun h => ?_⟩
    exact (congrArg₂ KeyChange.mk (h hevents) hevents).symm
  · next hevents => exact ⟨fun _ h => absurd h hevents, fun _ => rfl⟩

/-- The contract leaves an edit one answer, and the tables that the edit leaves in fact. -/
theorem modifiesKey_iff {r : Option KeyChange × Tables} :
    t.ModifiesKey account id edit security now r ↔
      r = ((t.key? account id).map (keptBy edit),
        (t.modifyKey account id edit security now).2) := by
  constructor
  · intro h
    -- Each promise fixes its answer; what is left is that its tables are those of the write.
    cases h with
    | missing hnone =>
      have hkey : t.key? account id = none := List.find?_eq_none.2 fun k hk => by simp [hnone k hk]
      rw [modifyKey_of_key?_eq_none hkey, hkey, Option.map_none]
    | quiet hat hevents =>
      rw [modifyKey_of_events_eq_nil hat.key? hevents, hat.key?, Option.map_some, keptBy,
        if_pos hevents]
    | written hat hevents =>
      rw [modifyKey_eq hat.key? hevents, hat.key?, Option.map_some, keptBy, if_neg hevents,
        hat.keys, replaceFirst_append_cons hat.first hat.live]
  · rintro rfl
    cases hkey : t.key? account id with
    | none =>
      have hnone : ∀ k ∈ t.keys, isLive account id k = false := fun k hk =>
        Bool.eq_false_iff.2 (List.find?_eq_none.1 hkey k hk)
      rw [modifyKey_of_key?_eq_none hkey, Option.map_none]
      exact .missing hnone
    | some key =>
      obtain ⟨front, back, hat⟩ := key?_eq_some_iff.1 hkey
      rw [Option.map_some, keptBy]
      split
      · next hevents =>
        rw [modifyKey_of_events_eq_nil hkey hevents]
        exact .quiet hat hevents
      · next hevents =>
        rw [modifyKey_eq hkey hevents, hat.keys, replaceFirst_append_cons hat.first hat.live]
        exact .written hat hevents

/-- The contract is kept unless an edit that reports nothing has changed the key it was given. -/
theorem modifiesKey_modifyKey_iff :
    t.ModifiesKey account id edit security now (t.modifyKey account id edit security now) ↔
      ∀ key, t.key? account id = some key → (edit key).events = [] → (edit key).key = key := by
  rw [modifiesKey_iff, Prod.ext_iff, modifyKey_fst]
  cases t.key? account id with
  | none => simp
  | some key =>
    simp only [Option.map_some, Option.some.injEq, and_true, forall_eq']
    rw [eq_comm, keptBy_eq_iff]

/-- An update of a key never changes what it does not report, so the contract is kept. -/
theorem modifiesKey_editBy (u : KeyUpdate) (stamp : Instant) :
    t.ModifiesKey account id (Keyring.editBy u stamp) security now
      (t.modifyKey account id (Keyring.editBy u stamp) security now) :=
  modifiesKey_modifyKey_iff.2 fun _ _ => Keyring.editBy_of_events_eq_nil

/-- A deletion is always reported, so the contract is kept. -/
theorem modifiesKey_tombstone (stamp : Instant) :
    t.ModifiesKey account id (Keyring.tombstone stamp) security now
      (t.modifyKey account id (Keyring.tombstone stamp) security now) :=
  modifiesKey_modifyKey_iff.2 fun _ _ h => by cases h

variable (t account id edit security now)

/-- The tables that an edit leaves are those of the contract, and its answer is what the edit made
of the key. So the contract is kept as a whole just if an edit that reports nothing for the key that
is there has changed nothing of it. -/
theorem modifyKey_honours :
    (∃ answer, t.ModifiesKey account id edit security now
      (answer, (t.modifyKey account id edit security now).2)) ∧
    (t.modifyKey account id edit security now).1 = (t.key? account id).map edit ∧
    (t.ModifiesKey account id edit security now (t.modifyKey account id edit security now) ↔
      ∀ key, t.key? account id = some key → (edit key).events = [] → (edit key).key = key) :=
  ⟨⟨_, modifiesKey_iff.2 rfl⟩, modifyKey_fst .., modifiesKey_modifyKey_iff⟩

/-! ## A key on a desk -/

/-- A key as it was issued. -/
def deskKey : ApiKey where
  id := 1
  account := 1
  name := "desk"
  lead := "deskkey"
  digest := "digest"
  enabled := true
  scope := {}
  policies := []
  createdAt := ⟨0, 0⟩
  modifiedAt := none
  deletedAt := none

/-- Tables with that key only. -/
def deskTables : Tables where
  lastId := 1
  keys := [deskKey]

/-- Renames a key and reports what it is told to. -/
def retitle (events : List KeyEvent) (key : ApiKey) : KeyChange :=
  ⟨{ key with name := "door" }, events⟩

/-- A key that is renamed and reported to be is written under its new name. -/
theorem modifyKey_honours_retitle :
    deskTables.ModifiesKey 1 1 (retitle [.name]) none ⟨5, 0⟩
      (deskTables.modifyKey 1 1 (retitle [.name]) none ⟨5, 0⟩) := by
  refine (modifyKey_honours deskTables 1 1 (retitle [.name]) none ⟨5, 0⟩).2.2.2 ?_
  intro key _ hevents
  cases hevents

/-- A key that is renamed without a report keeps its name, and its caller is told the other. -/
theorem not_modifiesKey_retitle :
    (deskTables.modifyKey 1 1 (retitle []) none ⟨5, 0⟩).2 = deskTables ∧
    (deskTables.modifyKey 1 1 (retitle []) none ⟨5, 0⟩).1 =
      some ⟨{ deskKey with name := "door" }, []⟩ ∧
    ¬deskTables.ModifiesKey 1 1 (retitle []) none ⟨5, 0⟩
      (deskTables.modifyKey 1 1 (retitle []) none ⟨5, 0⟩) := by
  have hkey : deskTables.key? 1 1 = some deskKey := by decide
  have hquiet : (retitle [] deskKey).events = [] := rfl
  refine ⟨?_, ?_, ?_⟩
  · rw [modifyKey_of_events_eq_nil hkey hquiet]
  · rw [modifyKey_of_events_eq_nil hkey hquiet]
    rfl
  · intro h
    have hsame := modifiesKey_modifyKey_iff.1 h deskKey hkey hquiet
    exact absurd hsame (by decide)

end Latchkey.Tables
