import Latchkey.Store.Call

/-!
# What store calls leave alone

Recording an event touches a trail and the count of row numbers and nothing else. A call that is
not about accounts leaves them as they are, and one that is not about keys leaves the keys and their
trail. The count never falls.
-/

namespace Latchkey

namespace Tables

/-! ## Recording events -/

variable (t : Tables) (row : RowId) (now : Instant)

@[simp] theorem recordSecurity_lastId (e : NewSecurityEntry) :
    (t.recordSecurity e).2.lastId = t.lastId + 1 := rfl

@[simp] theorem recordSecurityEvents_accounts (events : List SecurityEvent) :
    (t.recordSecurityEvents row events now).accounts = t.accounts := by
  induction events generalizing t with
  | nil => rfl
  | cons event events ih => exact ih (t.recordSecurity _).2

@[simp] theorem recordSecurityEvents_keys (events : List SecurityEvent) :
    (t.recordSecurityEvents row events now).keys = t.keys := by
  induction events generalizing t with
  | nil => rfl
  | cons event events ih => exact ih (t.recordSecurity _).2

@[simp] theorem recordSecurityEvents_keyTrail (events : List SecurityEvent) :
    (t.recordSecurityEvents row events now).keyTrail = t.keyTrail := by
  induction events generalizing t with
  | nil => rfl
  | cons event events ih => exact ih (t.recordSecurity _).2

@[simp] theorem recordSecurityEvents_lastId (events : List SecurityEvent) :
    (t.recordSecurityEvents row events now).lastId = t.lastId + events.length := by
  induction events generalizing t with
  | nil => simp [recordSecurityEvents]
  | cons event events ih =>
    have := ih (t.recordSecurity (.ofEvent row event now none)).2
    simp only [recordSecurity_lastId, List.length_cons] at this ⊢
    rw [recordSecurityEvents, List.foldl_cons]
    rw [recordSecurityEvents] at this
    rw [this]
    grind

@[simp] theorem recordKeyEvents_accounts (events : List KeyEvent) :
    (t.recordKeyEvents row events now).accounts = t.accounts := by
  induction events generalizing t with
  | nil => rfl
  | cons event events ih => rw [recordKeyEvents, List.foldl_cons]; exact ih _

@[simp] theorem recordKeyEvents_keys (events : List KeyEvent) :
    (t.recordKeyEvents row events now).keys = t.keys := by
  induction events generalizing t with
  | nil => rfl
  | cons event events ih => rw [recordKeyEvents, List.foldl_cons]; exact ih _

@[simp] theorem recordKeyEvents_lastId (events : List KeyEvent) :
    (t.recordKeyEvents row events now).lastId = t.lastId + events.length := by
  induction events generalizing t with
  | nil => simp [recordKeyEvents]
  | cons event events ih =>
    rw [recordKeyEvents, List.foldl_cons]
    refine (ih _).trans ?_
    simp only [nextId, List.length_cons]
    grind

/-! ## The trail of a key -/

/-- The labels on record for a key, oldest first. -/
def keyLabels (id : RowId) : List String :=
  (t.keyTrailOf id).map (·.action)

/-- A key is on record with one label more for each event about it. -/
theorem keyLabels_recordKeyEvents (id : RowId) (events : List KeyEvent) :
    (t.recordKeyEvents row events now).keyLabels id =
      t.keyLabels id ++ if row = id then events.map KeyEvent.label else [] := by
  induction events generalizing t with
  | nil => simp [recordKeyEvents]
  | cons event events ih =>
    rw [recordKeyEvents, List.foldl_cons]
    refine (ih _).trans ?_
    by_cases h : row = id <;> simp [keyLabels, keyTrailOf, List.filter_append, h]

end Tables

/-! ## Calls by the tables they touch -/

namespace Call

variable {β : Type}

/-- The call neither adds nor overwrites an account. -/
def SparesAccounts : Call β → Prop
  | .insertAccount _ => False
  | .saveAccount _ _ _ => False
  | _ => True

/-- The call neither adds nor edits a key. -/
def SparesKeys : Call β → Prop
  | .insertKey _ _ => False
  | .modifyKey _ _ _ _ _ => False
  | _ => True

/-- The count of row numbers never falls. -/
theorem lastId_le (c : Call β) (t : Tables) : t.lastId ≤ (c.apply t).2.lastId := by
  cases c with
  | insertAccount a =>
    simp only [apply, sure, Tables.insertAccount]
    split
    · exact Int.le_refl _
    · simp only [Tables.recordSecurityEvents_lastId, Tables.nextId, NewAccount.row]
      grind
  | saveAccount a events now =>
    simp only [apply, Tables.saveAccount]
    split
    · simp only [Tables.recordSecurityEvents_lastId]
      grind
    · exact Int.le_refl _
  | recordSecurity e =>
    simp only [apply, sure, Tables.recordSecurity_lastId]
    grind
  | recordCharge c =>
    simp only [apply, sure, Tables.recordCharge, Tables.nextId]
    grind
  | insertKey k limit =>
    simp only [apply, sure, Tables.insertKey]
    split
    · exact Int.le_refl _
    · simp only [Tables.recordSecurityEvents_lastId, Tables.recordKeyEvents_lastId, Tables.nextId,
        NewApiKey.row]
      grind
  | modifyKey account id edit security now =>
    simp only [apply, sure, Tables.modifyKey]
    cases t.key? account id with
    | none => exact Int.le_refl _
    | some key =>
      dsimp only
      split
      · exact Int.le_refl _
      · simp only [Tables.recordSecurityEvents_lastId, Tables.recordKeyEvents_lastId]
        grind
  | _ => exact Int.le_refl _

theorem accounts_of_sparesAccounts {c : Call β} (h : c.SparesAccounts) (t : Tables) :
    (c.apply t).2.accounts = t.accounts := by
  cases c with
  | insertAccount a => exact h.elim
  | saveAccount a events now => exact h.elim
  | insertKey k limit =>
    simp only [apply, sure, Tables.insertKey]
    split <;> simp
  | modifyKey account id edit security now =>
    simp only [apply, sure, Tables.modifyKey]
    cases t.key? account id with
    | none => simp
    | some key =>
      dsimp only
      split <;> simp
  | _ => rfl

theorem keys_of_sparesKeys {c : Call β} (h : c.SparesKeys) (t : Tables) :
    (c.apply t).2.keys = t.keys ∧ (c.apply t).2.keyTrail = t.keyTrail := by
  cases c with
  | insertKey k limit => exact h.elim
  | modifyKey account id edit security now => exact h.elim
  | insertAccount a =>
    simp only [apply, sure, Tables.insertAccount]
    split <;> simp
  | saveAccount a events now =>
    simp only [apply, Tables.saveAccount]
    split <;> simp
  | _ => exact ⟨rfl, rfl⟩

end Call

end Latchkey
