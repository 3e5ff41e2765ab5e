import Latchkey.Proofs.History
import Latchkey.Proofs.KeyLog

/-!
# Replaying the log of a key

The row of a key and its log are two accounts of the same history. From the state that the key was
requested in, the labels after its creation replay to the state of its row, each with an effect, and
the row is marked as modified exactly if a label tells of a change.
-/

namespace Latchkey

open Keyring KeyState

/-- A label tells of a change: it is neither of the creation of a key nor of its deletion. -/
def tellsOfChange (label : String) : Bool :=
  label ≠ "created" && label ≠ "delete_key"

/-- What can be played can be read, and is no second creation. -/
theorem KeyState.ofLabel?_of_playAll {s s' : KeyState} {events : List KeyEvent}
    (h : s.playAll events = some s') {e : KeyEvent} (he : e ∈ events) :
    KeyEvent.ofLabel? e.label = some e ∧ e ≠ .created := by
  induction events generalizing s with
  | nil => cases he
  | cons e' events ih =>
    obtain ⟨s₁, hplay, hrest⟩ := Option.bind_eq_some_iff.1 h
    rcases List.mem_cons.1 he with rfl | he
    · refine ⟨ofLabel?_of_play hplay, ?_⟩
      rintro rfl
      cases hplay
    · exact ih hrest he

/-- What an update reports tells of changes. -/
theorem KeyUpdate.tellsOfChange_of_mem_apply {u : KeyUpdate} {k : ApiKey}
    (h : (Policy.ranges k.policies).Nodup) {e : KeyEvent} (he : e ∈ (u.apply k).events) :
    tellsOfChange e.label = true := by
  obtain ⟨hread, hcreated⟩ := ofLabel?_of_playAll (u.playAll_apply k h) he
  have hdeleted : e ≠ .deleted := fun heq => u.deleted_not_mem_apply k (heq ▸ he)
  have hne (e' : KeyEvent) (hmem : e' ∈ KeyEvent.rangeless) (hne : e ≠ e') :
      e.label ≠ e'.label := by
    intro hlabel
    rw [hlabel, KeyEvent.ofLabel?_of_mem_rangeless hmem] at hread
    exact hne (Option.some.inj hread).symm
  have hfirst := hne .created (List.mem_append_left _ (by simp)) hcreated
  have hlast := hne .deleted (List.mem_append_left _ (by simp)) hdeleted
  simp only [tellsOfChange, Bool.and_eq_true, decide_eq_true_eq]
  exact ⟨hfirst, hlast⟩

/-- The time of an update is no part of the state. -/
theorem KeyState.ofKey_editBy (u : KeyUpdate) (now : Instant) (k : ApiKey) :
    ofKey (editBy u now k).key = ofKey (u.apply k).key := by
  unfold editBy
  dsimp only
  split <;> rfl

/-- The row and the log of a key agree, if the key was requested in the given state. -/
structure Tables.Agree (t : Tables) (start : KeyState) (row : ApiKey) (labels : List String) :
    Prop where
  mem : row ∈ t.keys
  log : t.keyLabels row.id = KeyEvent.created.label :: labels
  state : start.replay labels = some (ofKey row)
  modified : row.modifiedAt.isSome = labels.any tellsOfChange

namespace Tables.Agree

variable {t t' : Tables} {start : KeyState} {row key : ApiKey} {labels : List String}

/-- An edit of another key changes neither row nor log. -/
theorem of_other {change : KeyChange} (h : t.Agree start row labels)
    (hedits : t.EditsKey t' key change) (hne : row.id ≠ key.id) : t'.Agree start row labels where
  mem := by
    rw [hedits.keys]
    exact List.mem_map.2 ⟨row, h.mem, if_neg hne⟩
  log := by
    rw [hedits.labels, h.log, if_neg hne.symm, List.append_nil]
  state := h.state
  modified := h.modified

/-- An edit whose report replays to the edited key keeps row and log in agreement. -/
theorem of_edit {change : KeyChange} (ht : t.KeysInOrder) (h : t.Agree start row labels)
    (hedits : t.EditsKey t' key change) (hid : change.key.id = key.id)
    (hplay : (ofKey key).playAll change.events = some (ofKey change.key))
    (hmodified : change.key.modifiedAt.isSome =
      (key.modifiedAt.isSome || (change.events.map KeyEvent.label).any tellsOfChange)) :
    ∃ row' labels', row'.id = row.id ∧ t'.Agree start row' labels' := by
  by_cases hrow : row.id = key.id
  · have hsame : row = key := ht.eq_of_id_eq h.mem hedits.mem hrow
    subst hsame
    refine ⟨change.key, labels ++ change.events.map KeyEvent.label, hid, ?_, ?_, ?_, ?_⟩
    · rw [hedits.keys]
      exact List.mem_map.2 ⟨row, h.mem, if_pos rfl⟩
    · rw [hid, hedits.labels, h.log, if_pos rfl, List.cons_append]
    · rw [replay_append, h.state, Option.bind_some]
      exact replay_map_label hplay
    · rw [hmodified, h.modified, List.any_append]
  · exact ⟨row, labels, rfl, h.of_other hedits hrow⟩

/-- Every step of the keys keeps the row and the log of a key in agreement. -/
theorem step (ht : t.KeysInOrder) (hstep : t.KeyStep t') (h : t.Agree start row labels) :
    ∃ row' labels', row'.id = row.id ∧ t'.Agree start row' labels' := by
  cases hstep with
  | quiet hle hkeys hlabels =>
    exact ⟨row, labels, rfl, hkeys ▸ h.mem, by rw [hlabels, h.log], h.state, h.modified⟩
  | added key hranges hadds =>
    have hne : key.id ≠ row.id := by
      have := ht.ids_le row h.mem
      have := hadds.fresh
      grind
    refine ⟨row, labels, rfl, ?_, ?_, h.state, h.modified⟩
    · rw [hadds.keys]
      exact List.mem_append_left _ h.mem
    · rw [hadds.labels, h.log, if_neg hne, List.append_nil]
  | updated key u now hedits =>
    have hranges := ht.ranges key hedits.mem
    obtain ⟨name, scope, policies, enabled, modifiedAt, hkey⟩ := editBy_key u now key
    refine h.of_edit ht hedits (by rw [hkey]) ?_ ?_
    · rw [editBy_events, u.playAll_apply key hranges, ofKey_editBy]
    · rw [modifiedAt_editBy, editBy_events]
      cases hevents : (u.apply key).events with
      | nil => rfl
      | cons e events =>
        have he : e ∈ (u.apply key).events := hevents ▸ List.mem_cons_self
        rw [List.map_cons, List.any_cons, KeyUpdate.tellsOfChange_of_mem_apply hranges he]
        rfl
  | deleted key now hedits =>
    have hquiet : tellsOfChange KeyEvent.deleted.label = false := by decide
    refine h.of_edit ht hedits rfl rfl ?_
    rw [tombstone, List.map_singleton, List.any_cons, hquiet]
    simp

end Tables.Agree

namespace Service

variable (s : Service)

/-- Row and log stay in agreement over every history. -/
theorem agree_after {t : Tables} (ht : t.KeysInOrder) {start : KeyState} {row : ApiKey}
    {labels : List String} (h : t.Agree start row labels) (history : List Asked) :
    ∃ row' labels', row'.id = row.id ∧ (s.after t history).Agree start row' labels' := by
  induction history generalizing t row labels with
  | nil => exact ⟨row, labels, rfl, h⟩
  | cons x history ih =>
    have hstep := s.keyStep_perform ht x
    obtain ⟨row₁, labels₁, hid₁, h₁⟩ := h.step ht hstep
    obtain ⟨row₂, labels₂, hid₂, h₂⟩ := ih (hstep.keysInOrder ht) h₁
    exact ⟨row₂, labels₂, hid₂.trans hid₁, h₂⟩

/-- A new key agrees with its log: nothing but its creation is on record. -/
theorem agree_createKey {t : Tables} (ht : t.KeysInOrder) {given : Given} {username : String}
    {request : KeyRequest} {issued : IssuedKey}
    (h : (s.perform ⟨given, .createKey username request⟩ t).1 = .ok issued) :
    (s.perform ⟨given, .createKey username request⟩ t).2.Agree (ofRequest request) issued.key
      [] := by
  rcases s.perform_createKey given username request t with
    ⟨e, herror⟩ | ⟨account, digest, t', -, -, hok, hadds⟩
  · rw [herror] at h
    cases h
  · rw [hok] at h ⊢
    cases h
    refine ⟨?_, ?_, rfl, rfl⟩
    · rw [hadds.keys]
      exact List.mem_append_right _ (List.mem_singleton.2 rfl)
    · rw [hadds.labels, ht.fresh _ hadds.fresh, if_pos rfl]
      rfl

/-- The log of a key replays to the key: after every history in which it was created there is one
row of its number, its log begins with its creation, and what follows leads from what was asked for
to that row, every entry with an effect in its turn. The row is marked as modified exactly if an
entry is neither of the creation nor of the deletion. -/
theorem replay_log (before after : List Asked) (given : Given) (username : String)
    (request : KeyRequest) (issued : IssuedKey)
    (h : (s.perform ⟨given, .createKey username request⟩ (s.after {} before)).1 = .ok issued) :
    ∃ row labels,
      (s.after {} (before ++ ⟨given, .createKey username request⟩ :: after)).keys.filter
        (·.id = issued.key.id) = [row] ∧
      (s.after {} (before ++ ⟨given, .createKey username request⟩ :: after)).keyLabels
        issued.key.id = "created" :: labels ∧
      (KeyState.ofRequest request).replay labels = some (KeyState.ofKey row) ∧
      (row.modifiedAt.isSome ↔
        ∃ label ∈ "created" :: labels, label ≠ "created" ∧ label ≠ "delete_key") := by
  have hbefore := s.keysInOrder_after before
  have hcreated := (s.keyStep_perform hbefore ⟨given, .createKey username request⟩).keysInOrder
    hbefore
  obtain ⟨row, labels, hid, hagree⟩ :=
    s.agree_after hcreated (s.agree_createKey hbefore h) after
  have hrun : s.after {} (before ++ ⟨given, .createKey username request⟩ :: after) =
      s.after (s.perform ⟨given, .createKey username request⟩ (s.after {} before)).2 after :=
    s.after_append {} before _
  have horder := s.keysInOrder_after (before ++ ⟨given, .createKey username request⟩ :: after)
  rw [hrun] at horder ⊢
  refine ⟨row, labels, ?_, ?_, hagree.state, ?_⟩
  · rw [← hid]
    exact horder.filter_id hagree.mem
  · rw [← hid]
    exact hagree.log
  · rw [hagree.modified]
    simp [tellsOfChange]

end Service

/-- The request for a key that may be used from one network. -/
def officeKey : KeyRequest :=
  { name := "ci", policies := some [⟨"office", "10.0.0.0/8"⟩] }

/-- The key is enabled, moved to another network and deleted. -/
def moveAndDelete : List Asked :=
  [⟨.sample 3, .updateKey "ada@example.com" 3
      { enabled := .set true, policies := .set [⟨"lab", "172.16.0.0/12"⟩] }⟩,
    ⟨.sample 4, .deleteKey "ada@example.com" 3⟩]

/-- The answer to the request, on tables that hold one account. -/
def officeKeyIssued : IssuedKey where
  key :=
    { id := 3, account := 1, name := "ci", lead := "CCCCCCC"
      digest := (Given.sample 2).rawKey.text, enabled := false, scope := {}
      policies := [⟨"office", "10.0.0.0/8"⟩], createdAt := ⟨2, 0⟩, modifiedAt := none
      deletedAt := none }
  text := (Given.sample 2).rawKey.text

/-- A key that was moved and deleted replays from its request. -/
theorem replay_log_moveAndDelete :
    (Service.plain.perform ⟨.sample 2, .createKey "ada@example.com" officeKey⟩
      (Service.plain.after {} [⟨.sample 1, .signUp "ada@example.com" "correct horse"⟩])).1 =
      .ok officeKeyIssued ∧
    ∃ row labels,
      (Service.plain.after {} ([⟨.sample 1, .signUp "ada@example.com" "correct horse"⟩] ++
        ⟨.sample 2, .createKey "ada@example.com" officeKey⟩ :: moveAndDelete)).keys.filter
          (·.id = 3) = [row] ∧
      (Service.plain.after {} ([⟨.sample 1, .signUp "ada@example.com" "correct horse"⟩] ++
        ⟨.sample 2, .createKey "ada@example.com" officeKey⟩ :: moveAndDelete)).keyLabels 3 =
          "created" :: labels ∧
      (KeyState.ofRequest officeKey).replay labels = some (KeyState.ofKey row) ∧
      (row.modifiedAt.isSome ↔
        ∃ label ∈ "created" :: labels, label ≠ "created" ∧ label ≠ "delete_key") :=
  ⟨rfl, Service.plain.replay_log _ moveAndDelete (.sample 2) "ada@example.com" officeKey
    officeKeyIssued rfl⟩

end Latchkey
