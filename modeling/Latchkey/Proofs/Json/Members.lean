import Latchkey.Proofs.Json.Records

/-!
# Members by name

Records are read from objects by the names of their fields. Where none of these names stands twice,
neither the order of the members nor members of other names make a difference.
-/

namespace Latchkey.Json

/-- The value that a path of names leads to. -/
def at? : List String → Json → Option Json
  | [], v => some v
  | name :: path, v => (v.member? name).bind (at? path)

/-- An object in which none of these names stands twice. -/
def NamesOnce (names : List String) (v : Json) : Prop :=
  ∃ members, v = .object members ∧ ∀ name ∈ names, (members.map (·.1)).count name ≤ 1

/-- Other members of the same object: in another order, and with more of them under other names. -/
def Rearranges (names : List String) (members members' : List (String × Json)) : Prop :=
  ∃ others, (∀ m ∈ others, m.1 ∉ names) ∧ members'.Perm (members ++ others)

variable {names : List String} {members members' : List (String × Json)} {name : String}
  {v w : Json}

theorem at?_singleton : v.at? [name] = v.member? name := by
  cases h : v.member? name with
  | none => rw [at?, h, Option.bind_none]
  | some w => rw [at?, h, Option.bind_some, at?]

/-- What stands once is found wherever it stands. -/
theorem lookup_eq_some_iff_mem (h : (members.map (·.1)).count name ≤ 1) :
    members.lookup name = some v ↔ (name, v) ∈ members := by
  rw [List.lookup_eq_some_iff]
  constructor
  · rintro ⟨before, after, rfl, -⟩
    exact List.mem_append_right _ List.mem_cons_self
  · intro hmem
    obtain ⟨before, after, rfl⟩ := List.append_of_mem hmem
    refine ⟨before, after, rfl, fun m hm => ?_⟩
    -- The name is counted at this member, so no member before it has the name.
    rw [List.map_append, List.count_append, List.map_cons, List.count_cons_self] at h
    have hbefore : name ∉ before.map (·.1) := List.count_eq_zero.1 (by omega)
    rw [bne_iff_ne]
    exact fun heq => hbefore (heq ▸ List.mem_map_of_mem hm)

/-! ## Order and other members -/

theorem Rearranges.count_eq (h : Rearranges names members members') (hname : name ∈ names) :
    (members'.map (·.1)).count name = (members.map (·.1)).count name := by
  obtain ⟨others, hothers, hperm⟩ := h
  have hnone : (others.map (·.1)).count name = 0 := by
    refine List.count_eq_zero.2 fun hmem => ?_
    obtain ⟨m, hm, rfl⟩ := List.mem_map.1 hmem
    exact hothers m hm hname
  rw [(hperm.map (·.1)).count_eq, List.map_append, List.count_append, hnone, Nat.add_zero]

theorem NamesOnce.rearranged (h : NamesOnce names (.object members))
    (hmembers : Rearranges names members members') : NamesOnce names (.object members') := by
  obtain ⟨_, heq, hcount⟩ := h
  cases heq
  exact ⟨members', rfl, fun name hname => hmembers.count_eq hname ▸ hcount name hname⟩

theorem NamesOnce.member?_rearranged (h : NamesOnce names (.object members))
    (hmembers : Rearranges names members members') (hname : name ∈ names) :
    (Json.object members').member? name = (Json.object members).member? name := by
  obtain ⟨_, heq, hcount⟩ := h
  cases heq
  have hcount' := hmembers.count_eq hname ▸ hcount name hname
  obtain ⟨others, hothers, hperm⟩ := hmembers
  refine Option.ext fun v => ?_
  have hmem : (name, v) ∈ members' ↔ (name, v) ∈ members := by
    rw [hperm.mem_iff, List.mem_append]
    exact or_iff_left fun hmem => hothers _ hmem hname
  exact (lookup_eq_some_iff_mem hcount').trans
    (hmem.trans (lookup_eq_some_iff_mem (hcount name hname)).symm)

/-! ## Reading a record -/

namespace Record

variable {fields : List String} {field : String} {r : Record}

theorem get?_of_member? (hr : of? fields v = some r) (h : v.member? field = some w) :
    r.get? field = some w := by
  cases v with
  | object members =>
    rw [of?] at hr
    split at hr
    · cases hr
      exact h
    · cases hr
  | _ => cases h

end Record

/-- A record is read by name from an object that has no field of it twice. -/
theorem NamesOnce.of? {fields : List String} (h : v.NamesOnce fields) :
    ∃ r, Record.of? fields v = some r ∧ ∀ field, r.get? field = v.member? field := by
  obtain ⟨members, rfl, hcount⟩ := h
  exact ⟨⟨true, members⟩, Record.of?_of_count_le hcount, fun _ => rfl⟩

/-! ## Writing a record -/

/-- The object of the fields that have values. -/
def ofFields (fields : List (String × Option Json)) : Json :=
  .object (fields.filterMap fun (name, v) => v.map (name, ·))

variable {fields : List (String × Option Json)}

theorem sublist_names_ofFields (fields : List (String × Option Json)) :
    ((fields.filterMap fun (name, v) => v.map (name, ·)).map (·.1)).Sublist
      (fields.map (·.1)) := by
  induction fields with
  | nil => exact .slnil
  | cons field fields ih =>
    obtain ⟨name, v⟩ := field
    cases v with
    | none => exact ih.cons name
    | some v => exact ih.cons_cons name

theorem namesOnce_ofFields (h : (fields.map (·.1)).Nodup) : (ofFields fields).NamesOnce names :=
  ⟨_, rfl, fun name _ =>
    List.nodup_iff_count_le_one.1 ((sublist_names_ofFields fields).nodup h) name⟩

theorem member?_ofFields (h : (fields.map (·.1)).Nodup) {v : Option Json}
    (hmem : (name, v) ∈ fields) : (ofFields fields).member? name = v := by
  have hcount := List.nodup_iff_count_le_one.1 ((sublist_names_ofFields fields).nodup h) name
  refine Option.ext fun w => (lookup_eq_some_iff_mem hcount).trans ?_
  rw [List.mem_filterMap]
  constructor
  · rintro ⟨field, hfield, heq⟩
    obtain ⟨u, hu, hpair⟩ := Option.map_eq_some_iff.1 heq
    obtain ⟨hname, rfl⟩ := Prod.mk.inj hpair
    have hsame : field = (name, v) := List.inj_on_of_nodup_map h hfield hmem hname
    rw [hsame] at hu
    exact hu
  · rintro rfl
    exact ⟨_, hmem, rfl⟩

theorem isPlain_ofFields (h : ∀ field ∈ fields, ∀ w, field.2 = some w → w.isPlain = true) :
    (ofFields fields).isPlain = true := by
  rw [ofFields, isPlain]
  induction fields with
  | nil => rfl
  | cons field fields ih =>
    obtain ⟨hfield, hfields⟩ := List.forall_mem_cons.1 h
    obtain ⟨name, v⟩ := field
    cases v with
    | none => exact ih hfields
    | some v =>
      show (v.isPlain && haveOnlyPlain _) = true
      rw [hfield v rfl]
      exact ih hfields

end Latchkey.Json
