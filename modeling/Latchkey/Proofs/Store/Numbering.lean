import Latchkey.Proofs.Reach

/-!
# Numbers of rows

All tables but that of devices share one count. A row that is added gets the next number, a row that
is overwritten keeps the number that it has, and none is taken away. So the numbers from one to the
last one are all on rows, each on one, and within a table they increase.
-/

namespace Latchkey

/-! ## Giving numbers away -/

/-- The tables that share the count. -/
inductive Numbered where
  | accounts
  | securityTrail
  | charges
  | keys
  | keyTrail
  deriving DecidableEq

/-- The numbers that rows of one table get where the tables of a list get one row each, in order. -/
def numbers (table : Numbered) : RowId → List Numbered → List RowId
  | _, [] => []
  | last, other :: rest =>
    if other = table then (last + 1) :: numbers table (last + 1) rest
    else numbers table (last + 1) rest

section Numbers

variable {table other : Numbered} {last id : RowId} {given rest : List Numbered}

theorem numbers_append : numbers table last (given ++ rest) =
    numbers table last given ++ numbers table (last + given.length) rest := by
  induction given generalizing last with
  | nil => simp [numbers]
  | cons first given ih =>
    have hcount : last + 1 + given.length = last + (first :: given).length := by
      simp only [List.length_cons]
      grind
    simp only [List.cons_append, numbers, ih, hcount]
    split <;> rfl

theorem bounds_of_mem_numbers (h : id ∈ numbers table last given) :
    last < id ∧ id ≤ last + given.length := by
  induction given generalizing last with
  | nil => cases h
  | cons first given ih =>
    have hrest (hmem : id ∈ numbers table (last + 1) given) :
        last < id ∧ id ≤ last + (first :: given).length := by
      have hbounds := ih hmem
      simp only [List.length_cons]
      grind
    unfold numbers at h
    split at h
    · rcases List.mem_cons.1 h with rfl | h
      · simp only [List.length_cons]
        grind
      · exact hrest h
    · exact hrest h

/-- Later rows of a table have greater numbers. -/
theorem pairwise_numbers (table : Numbered) (last : RowId) (given : List Numbered) :
    (numbers table last given).Pairwise (· < ·) := by
  induction given generalizing last with
  | nil => exact .nil
  | cons first given ih =>
    unfold numbers
    split
    · refine List.pairwise_cons.2 ⟨?_, ih (last + 1)⟩
      intro id hid
      exact (bounds_of_mem_numbers hid).1
    · exact ih (last + 1)

/-- No number is given to two tables. -/
theorem eq_of_mem_numbers (h : id ∈ numbers table last given) (h' : id ∈ numbers other last given) :
    table = other := by
  induction given generalizing last with
  | nil => cases h
  | cons first given ih =>
    unfold numbers at h h'
    by_cases hthis : first = table
    · by_cases hthat : first = other
      · exact hthis.symm.trans hthat
      · rw [if_pos hthis] at h
        rw [if_neg hthat] at h'
        have hlater := bounds_of_mem_numbers h'
        rcases List.mem_cons.1 h with rfl | h
        · grind
        · exact ih h h'
    · rw [if_neg hthis] at h
      by_cases hthat : first = other
      · rw [if_pos hthat] at h'
        have hlater := bounds_of_mem_numbers h
        rcases List.mem_cons.1 h' with rfl | h'
        · grind
        · exact ih h h'
      · rw [if_neg hthat] at h'
        exact ih h h'

end Numbers

namespace Tables

/-- The numbers on the rows of a table, in order. -/
def ids (t : Tables) : Numbered → List RowId
  | .accounts => t.accounts.map (·.id)
  | .securityTrail => t.securityTrail.map (·.id)
  | .charges => t.charges.map (·.id)
  | .keys => t.keys.map (·.id)
  | .keyTrail => t.keyTrail.map (·.id)

/-- The tables of a list have got one row each, in order, and no other row has come or gone. -/
structure Assigns (t t' : Tables) (given : List Numbered) : Prop where
  lastId : t'.lastId = t.lastId + given.length
  ids : ∀ table, t'.ids table = t.ids table ++ numbers table t.lastId given

/-- Some tables have got rows. -/
def Extends (t t' : Tables) : Prop :=
  ∃ given, t.Assigns t' given

namespace Extends

variable {t t' t'' : Tables}

theorem refl (t : Tables) : t.Extends t := by
  refine ⟨[], by simp, ?_⟩
  intro table
  rw [numbers, List.append_nil]

theorem trans (h : t.Extends t') (h' : t'.Extends t'') : t.Extends t'' := by
  obtain ⟨given, hgiven⟩ := h
  obtain ⟨rest, hrest⟩ := h'
  refine ⟨given ++ rest, ?_, ?_⟩
  · rw [hrest.lastId, hgiven.lastId, List.length_append]
    grind
  · intro table
    rw [hrest.ids, hgiven.ids, hgiven.lastId, numbers_append, List.append_assoc]

/-- Numbers stay where they are. -/
theorem prefix_ids (h : t.Extends t') (table : Numbered) : t.ids table <+: t'.ids table := by
  obtain ⟨given, hgiven⟩ := h
  rw [hgiven.ids table]
  exact List.prefix_append ..

/-- Where no row has come or gone, no number has been given away. -/
theorem of_ids_eq (hlast : t'.lastId = t.lastId) (hids : t'.ids = t.ids) : t.Extends t' := by
  refine ⟨[], by simp [hlast], ?_⟩
  intro table
  rw [hids, numbers, List.append_nil]

/-- One row has come. -/
theorem of_row (table : Numbered) (hlast : t'.lastId = t.nextId)
    (hthis : t'.ids table = t.ids table ++ [t.nextId])
    (hother : ∀ other, table ≠ other → t'.ids other = t.ids other) : t.Extends t' := by
  refine ⟨[table], hlast, ?_⟩
  intro other
  by_cases h : table = other
  · subst h
    rw [hthis, numbers, if_pos rfl]
    rfl
  · rw [hother other h, numbers, if_neg h]
    exact (List.append_nil _).symm

end Extends

/-! ## Writes -/

variable (t : Tables)

theorem extends_recordSecurity (e : NewSecurityEntry) : t.Extends (t.recordSecurity e).2 := by
  refine .of_row .securityTrail rfl (List.map_append ..) ?_
  intro other hother
  cases other <;> first | rfl | exact (hother rfl).elim

theorem extends_recordSecurityEvents (account : RowId) (events : List SecurityEvent)
    (now : Instant) : t.Extends (t.recordSecurityEvents account events now) := by
  induction events generalizing t with
  | nil => exact .refl t
  | cons event events ih => exact (t.extends_recordSecurity _).trans (ih _)

theorem extends_recordKeyEvents (key : RowId) (events : List KeyEvent) (now : Instant) :
    t.Extends (t.recordKeyEvents key events now) := by
  induction events generalizing t with
  | nil => exact .refl t
  | cons event events ih =>
    have hrow : t.Extends { t with
        lastId := t.nextId
        keyTrail := t.keyTrail ++
          [{ id := t.nextId, key := key, action := event.label, createdAt := now }] } := by
      refine .of_row .keyTrail rfl (List.map_append ..) ?_
      intro other hother
      cases other <;> first | rfl | exact (hother rfl).elim
    rw [recordKeyEvents, List.foldl_cons]
    exact hrow.trans (ih _)

theorem extends_recordCharge (c : NewCharge) : t.Extends (t.recordCharge c).2 := by
  refine .of_row .charges rfl (List.map_append ..) ?_
  intro other hother
  cases other <;> first | rfl | exact (hother rfl).elim

theorem extends_insertAccount (a : NewAccount) : t.Extends (t.insertAccount a).2 := by
  unfold insertAccount
  split
  · exact .refl t
  · have hrow : t.Extends
        { t with lastId := t.nextId, accounts := t.accounts ++ [a.row t.nextId] } := by
      refine .of_row .accounts rfl (List.map_append ..) ?_
      intro other hother
      cases other <;> first | rfl | exact (hother rfl).elim
    exact hrow.trans (extends_recordSecurityEvents _ _ _ _)

theorem extends_insertKey (k : NewApiKey) (limit : Int) : t.Extends (t.insertKey k limit).2 := by
  unfold insertKey
  split
  · exact .refl t
  · have hrow : t.Extends { t with lastId := t.nextId, keys := t.keys ++ [k.row t.nextId] } := by
      refine .of_row .keys rfl (List.map_append ..) ?_
      intro other hother
      cases other <;> first | rfl | exact (hother rfl).elim
    exact hrow.trans
      ((extends_recordKeyEvents _ _ _ _).trans (extends_recordSecurityEvents _ _ _ _))

theorem extends_saveAccount (a : Account) (events : List SecurityEvent) (now : Instant) :
    t.Extends (t.saveAccount a events now).2 := by
  unfold saveAccount
  split
  · have hrow : t.Extends { t with accounts := replaceFirst (·.id = a.id) a t.accounts } := by
      refine .of_ids_eq rfl (funext ?_)
      intro table
      cases table with
      | accounts => exact map_replaceFirst fun x hx => of_decide_eq_true hx
      | _ => rfl
    exact hrow.trans (extends_recordSecurityEvents _ _ _ _)
  · exact .refl t

theorem extends_modifyKey {account id : RowId} {edit : ApiKey → KeyChange}
    (hedit : ∀ key, (edit key).key.id = key.id) (security : Option SecurityEvent) (now : Instant) :
    t.Extends (t.modifyKey account id edit security now).2 := by
  unfold modifyKey
  cases hkey : t.key? account id with
  | none => exact .refl t
  | some key =>
    dsimp only
    split
    · exact .refl t
    · have hrow : t.Extends
          { t with keys := replaceFirst (isLive account id) (edit key).key t.keys } := by
        refine .of_ids_eq rfl (funext ?_)
        intro table
        cases table with
        | keys =>
          -- Rows are found by their number, and the edit leaves the number alone.
          refine map_replaceFirst fun x hx => ?_
          simp only [isLive, Bool.and_eq_true, decide_eq_true_eq] at hx
          rw [hedit key, (key?_some hkey).2.1]
          exact hx.1.1
        | _ => rfl
      exact hrow.trans
        ((extends_recordKeyEvents _ _ _ _).trans (extends_recordSecurityEvents _ _ _ _))

end Tables

namespace Call

variable {β : Type}

/-- A proper call gives the next numbers to the rows that it adds. -/
theorem extends_apply {limit : Int} {c : Call β} (hproper : c.IsProper limit) (t : Tables) :
    t.Extends (c.apply t).2 := by
  have hdevices (devices : List Device) : t.Extends { t with devices } :=
    .of_ids_eq rfl (funext fun table => by cases table <;> rfl)
  cases c with
  | insertAccount a => exact t.extends_insertAccount a
  | saveAccount a events now => exact t.extends_saveAccount a events now
  | insertDevice d => exact hdevices _
  | deleteDevice account token => exact hdevices _
  | deleteDevicesOf account => exact hdevices _
  | recordSecurity e => exact t.extends_recordSecurity e
  | recordCharge c => exact t.extends_recordCharge c
  | insertKey k limit => exact t.extends_insertKey k limit
  | modifyKey account id edit security now =>
    exact t.extends_modifyKey (fun key => (hproper.edit key).1) security now
  | _ => exact .refl t

end Call

/-! ## What comes about -/

/-- What comes about from tables gives the next numbers to its new rows. -/
theorem Service.Reaches.extends {s : Service} {t t' : Tables} (h : s.Reaches t t')
    (ht : t.InOrder) : t.Extends t' := by
  obtain ⟨-, hextends, -⟩ := h.keeps (I := t.Extends)
    (fun c t' _ hc hextends => hextends.trans (c.extends_apply hc.1 t')) ht (.refl t)
  exact hextends

namespace Tables.Extends

variable {t : Tables}

/-- The numbers on the rows of tables that have come about from none. -/
theorem ids_eq (h : ({} : Tables).Extends t) : ∃ given : List Numbered,
    t.lastId = given.length ∧ ∀ table, t.ids table = numbers table 0 given := by
  obtain ⟨given, hgiven⟩ := h
  refine ⟨given, hgiven.lastId.trans (Int.zero_add _), ?_⟩
  intro table
  rw [hgiven.ids table]
  cases table <;> rfl

theorem ids_le (h : ({} : Tables).Extends t) {table : Numbered} {id : RowId}
    (hid : id ∈ t.ids table) : 0 < id ∧ id ≤ t.lastId := by
  obtain ⟨given, hlast, hids⟩ := h.ids_eq
  rw [hids] at hid
  have hbounds := bounds_of_mem_numbers hid
  grind

theorem pairwise_ids (h : ({} : Tables).Extends t) (table : Numbered) :
    (t.ids table).Pairwise (· < ·) := by
  obtain ⟨given, -, hids⟩ := h.ids_eq
  rw [hids]
  exact pairwise_numbers table 0 given

theorem table_eq (h : ({} : Tables).Extends t) {table other : Numbered} {id : RowId}
    (hid : id ∈ t.ids table) (hid' : id ∈ t.ids other) : table = other := by
  obtain ⟨given, -, hids⟩ := h.ids_eq
  rw [hids] at hid hid'
  exact eq_of_mem_numbers hid hid'

/-- No number is on two rows of any tables. -/
theorem nodup_ids (h : ({} : Tables).Extends t) {tables : List Numbered} (htables : tables.Nodup) :
    (tables.flatMap t.ids).Nodup := by
  refine List.nodup_flatMap.2 ⟨?_, ?_⟩
  · intro table _
    exact (h.pairwise_ids table).imp Int.ne_of_lt
  · refine htables.imp ?_
    intro table other hne id hid hid'
    exact hne (h.table_eq hid hid')

end Tables.Extends

end Latchkey
