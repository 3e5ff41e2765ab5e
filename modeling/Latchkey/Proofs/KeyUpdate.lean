import Latchkey.Keyring
import Latchkey.Proofs.Patch
import Latchkey.Proofs.Policy

/-!
# Updates of keys

An update touches the name of a key, its flags, its policies and whether it is enabled. An update
that reports nothing has changed nothing, and none reports a deletion.
-/

namespace Latchkey

namespace KeyUpdate

/-- The scope after the update. -/
def rescope (u : KeyUpdate) (s : Scope) : Scope :=
  match u.scope with
  | .keep => s
  | .set p => s.update p

/-- The policies after the update, with what is reported of them. -/
def rebind (u : KeyUpdate) (ps : List Policy) : Policy.Change :=
  match u.policies with
  | .keep => ⟨ps, []⟩
  | .set desired => Policy.reconcile ps desired

variable (u : KeyUpdate) (k : ApiKey)

/-! ## Edit by edit -/

theorem editName_key : (u.editName k).key = { k with name := u.name.apply k.name } := by
  rw [← Patch.getD_change?]
  unfold editName
  cases u.name.change? k.name <;> rfl

theorem editScope_key : (u.editScope k).key = { k with scope := u.rescope k.scope } := by
  unfold editScope rescope
  cases u.scope <;> rfl

theorem editPolicies_eq : u.editPolicies k =
    ⟨{ k with policies := (u.rebind k.policies).policies }, (u.rebind k.policies).events⟩ := by
  unfold editPolicies rebind
  cases u.policies <;> rfl

theorem editEnabled_key :
    (u.editEnabled k).key = { k with enabled := u.enabled.apply k.enabled } := by
  rw [← Patch.getD_change?]
  unfold editEnabled
  cases u.enabled.change? k.enabled <;> rfl

theorem nodup_ranges_editPolicies (h : (Policy.ranges k.policies).Nodup) :
    (Policy.ranges (u.editPolicies k).key.policies).Nodup := by
  unfold editPolicies
  split
  · exact h
  · exact Policy.nodup_ranges_reconcile h _

variable {u k}

theorem editName_of_events_eq_nil (h : (u.editName k).events = []) : (u.editName k).key = k := by
  unfold editName at h ⊢
  split
  · rfl
  · simp_all

theorem editScope_of_events_eq_nil (h : (u.editScope k).events = []) :
    (u.editScope k).key = k := by
  unfold editScope at h ⊢
  cases hu : u.scope with
  | keep => rfl
  | set p =>
    rw [hu] at h
    have hnone : k.scope.changes p = [] := List.map_eq_nil_iff.1 h
    simp only [Scope.update, hnone]
    rfl

theorem editPolicies_of_events_eq_nil (h : (u.editPolicies k).events = []) :
    (u.editPolicies k).key = k := by
  unfold editPolicies at h ⊢
  cases hu : u.policies with
  | keep => rfl
  | set ps =>
    rw [hu] at h
    simp only [Policy.reconcile_of_events_eq_nil h]

theorem editEnabled_of_events_eq_nil (h : (u.editEnabled k).events = []) :
    (u.editEnabled k).key = k := by
  unfold editEnabled at h ⊢
  split
  · rfl
  · simp_all

/-! ## The update as a whole -/

variable (u k)

/-- An update touches four fields of a key, each by itself. -/
theorem apply_key : (u.apply k).key = { k with
    name := u.name.apply k.name
    scope := u.rescope k.scope
    policies := (u.rebind k.policies).policies
    enabled := u.enabled.apply k.enabled } := by
  show (u.editEnabled (u.editPolicies (u.editScope (u.editName k).key).key).key).key = _
  rw [editEnabled_key, editPolicies_eq, editScope_key, editName_key]

/-- Only the name of an update touches that of the key. -/
theorem name_apply : (u.apply k).key.name = u.name.apply k.name := by
  rw [apply_key]

/-- Only the policies of an update touch those of the key. -/
theorem policies_apply : (u.apply k).key.policies = (u.editPolicies k).key.policies := by
  rw [apply_key, editPolicies_eq]

theorem nodup_ranges_apply (h : (Policy.ranges k.policies).Nodup) :
    (Policy.ranges (u.apply k).key.policies).Nodup :=
  u.policies_apply k ▸ u.nodup_ranges_editPolicies k h

variable {u k}

/-- An update without events changes nothing. -/
theorem apply_of_events_eq_nil (h : (u.apply k).events = []) : (u.apply k).key = k := by
  simp only [apply, List.append_eq_nil_iff] at h
  obtain ⟨⟨⟨hname, hscope⟩, hpolicies⟩, henabled⟩ := h
  simp only [apply]
  rw [editEnabled_of_events_eq_nil henabled, editPolicies_of_events_eq_nil hpolicies,
    editScope_of_events_eq_nil hscope, editName_of_events_eq_nil hname]

variable (u k)

/-- No update reports a deletion. -/
theorem deleted_not_mem_apply : KeyEvent.deleted ∉ (u.apply k).events := by
  have hname (k : ApiKey) : KeyEvent.deleted ∉ (u.editName k).events := by
    unfold editName
    split <;> simp
  have hscope (k : ApiKey) : KeyEvent.deleted ∉ (u.editScope k).events := by
    unfold editScope
    split <;> simp
  have hpolicies (k : ApiKey) : KeyEvent.deleted ∉ (u.editPolicies k).events := by
    unfold editPolicies
    split
    · simp
    · intro hmem
      obtain ⟨action, range, h⟩ := Policy.mem_events_reconcile hmem
      cases h
  have henabled (k : ApiKey) : KeyEvent.deleted ∉ (u.editEnabled k).events := by
    unfold editEnabled
    split <;> simp
  simp only [apply, List.mem_append, not_or]
  exact ⟨⟨⟨hname _, hscope _⟩, hpolicies _⟩, henabled _⟩

end KeyUpdate

namespace Keyring

/-! ## The edit of an update -/

variable (u : KeyUpdate) (now : Instant) (k : ApiKey)

theorem editBy_events : (editBy u now k).events = (u.apply k).events := by
  unfold editBy
  dsimp only
  split <;> rfl

/-- An update touches no more of a key than these fields. -/
theorem editBy_key : ∃ name scope policies enabled modifiedAt,
    (editBy u now k).key = { k with name, scope, policies, enabled, modifiedAt } := by
  unfold editBy
  dsimp only
  split
  · exact ⟨_, _, _, _, k.modifiedAt, u.apply_key k⟩
  · exact ⟨_, _, _, _, some now, by rw [u.apply_key k]⟩

theorem name_editBy : (editBy u now k).key.name = (u.apply k).key.name := by
  unfold editBy
  dsimp only
  split <;> rfl

theorem policies_editBy : (editBy u now k).key.policies = (u.apply k).key.policies := by
  unfold editBy
  dsimp only
  split <;> rfl

/-- A key is marked as modified once an update has reported something. -/
theorem modifiedAt_editBy : (editBy u now k).key.modifiedAt.isSome =
    (k.modifiedAt.isSome || !(editBy u now k).events.isEmpty) := by
  rw [editBy_events]
  unfold editBy
  dsimp only
  cases hevents : (u.apply k).events.isEmpty with
  | true => simp only [if_true, u.apply_key k, Bool.not_true, Bool.or_false]
  | false => simp only [Bool.false_eq_true, if_false, Bool.not_false, Bool.or_true, Option.isSome]

variable {u now k}

theorem editBy_of_events_eq_nil (h : (editBy u now k).events = []) :
    (editBy u now k).key = k := by
  rw [editBy_events] at h
  unfold editBy
  simp only [h, List.isEmpty_nil, if_true]
  exact KeyUpdate.apply_of_events_eq_nil h

end Keyring

end Latchkey
