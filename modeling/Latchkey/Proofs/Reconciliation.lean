import Latchkey.Proofs.Policy

/-!
# Replacing a list of policies

What `Policy.reconcile` makes of two lists, in closed form. Old policies whose range is wanted stay
where they are and take their new names; wanted policies of new ranges follow in the order in which
they are wanted. The ranges of the result are the wanted ones whatever the lists are; where no range
is given twice the whole result and all that is reported of it are determined.
-/

namespace Latchkey.Policy

/-! ## Ranges -/

theorem mem_ranges_adopt {c : Change} {p : Policy} {r : String} :
    r ∈ ranges (c.adopt p).policies ↔ r ∈ ranges c.policies ∨ r = p.range := by
  unfold Change.adopt
  split
  · next hp =>
    have hmem : p.range ∈ ranges c.policies := mem_ranges.2 hp
    rw [ranges_rename]
    grind
  · simp [ranges]

theorem mem_ranges_foldl_adopt {c : Change} {desired : List Policy} {r : String} :
    r ∈ ranges (desired.foldl Change.adopt c).policies ↔
      r ∈ ranges c.policies ∨ r ∈ ranges desired := by
  induction desired generalizing c with
  | nil => simp [ranges]
  | cons p ps ih =>
    rw [List.foldl_cons, ih, mem_ranges_adopt, ranges, ranges, ranges, List.map_cons,
      List.mem_cons, or_assoc]

/-- The ranges of the new list are the wanted ones. -/
theorem mem_ranges_reconcile {current desired : List Policy} {r : String} :
    r ∈ ranges (reconcile current desired).policies ↔ r ∈ ranges desired := by
  unfold reconcile
  split
  · next hperm => exact ((List.isPerm_iff.1 hperm).map _).mem_iff
  · have hpruned (c : Change) : r ∈ ranges (c.prune desired).policies ↔
        r ∈ ranges c.policies ∧ r ∈ ranges desired := by
      simp only [Change.prune, ranges, List.mem_map, List.mem_filter, List.any_eq_true,
        decide_eq_true_eq]
      grind
    rw [hpruned, mem_ranges_foldl_adopt]
    exact ⟨And.right, fun h => ⟨.inr h, h⟩⟩

/-! ## The closed form -/

/-- A policy with the name that a list gives to its range, if it does. -/
def renamedBy (ps : List Policy) (q : Policy) : Policy :=
  match ps.find? (·.range = q.range) with
  | none => q
  | some p => { q with name := p.name }

/-- The old policies whose range is wanted, in their order and with their new names. -/
def kept (current desired : List Policy) : List Policy :=
  (current.filter (·.range ∈ ranges desired)).map (renamedBy desired)

/-- The wanted policies of new ranges, in the order in which they are wanted. -/
def joining (current desired : List Policy) : List Policy :=
  desired.filter (·.range ∉ ranges current)

/-- What is reported of a wanted policy. -/
def arrival (current : List Policy) (p : Policy) : KeyEvent :=
  .policy (if p.range ∈ ranges current then .updated else .created) p.range

/-- What is reported of the old policies that are not wanted, in their order. -/
def departures (current desired : List Policy) : List KeyEvent :=
  (current.filter (·.range ∉ ranges desired)).map fun q => .policy .deleted q.range

theorem range_renamedBy (ps : List Policy) (q : Policy) : (renamedBy ps q).range = q.range := by
  unfold renamedBy
  split <;> rfl

theorem renamedBy_of_not_mem {ps : List Policy} {q : Policy} (h : q.range ∉ ranges ps) :
    renamedBy ps q = q := by
  have hnone : ps.find? (·.range = q.range) = none := by
    refine List.find?_eq_none.2 fun p hp heq => h ?_
    exact List.mem_map.2 ⟨p, hp, of_decide_eq_true heq⟩
  rw [renamedBy, hnone]

theorem renamedBy_cons (p : Policy) (ps : List Policy) (q : Policy) :
    renamedBy (p :: ps) q = if p.range = q.range then { q with name := p.name }
      else renamedBy ps q := by
  unfold renamedBy
  by_cases h : p.range = q.range <;> simp [h]

theorem map_renamedBy_of_not_mem {p : Policy} {qs : List Policy} (h : p.range ∉ ranges qs) :
    qs.map (renamedBy [p]) = qs := by
  refine (List.map_congr_left fun q hq => renamedBy_of_not_mem fun hmem => h ?_).trans
    (List.map_id' qs)
  have hrange : q.range = p.range := by simpa [ranges] using hmem
  exact List.mem_map.2 ⟨q, hq, hrange⟩

/-- Where no range occurs twice, there is one policy to rename. -/
theorem rename_eq_map {p : Policy} {ps : List Policy} (h : (ranges ps).Nodup) :
    rename p ps = ps.map (renamedBy [p]) := by
  induction ps with
  | nil => rfl
  | cons q qs ih =>
    obtain ⟨hq, hqs⟩ := List.nodup_cons.1 h
    unfold rename
    rw [List.map_cons, renamedBy_cons]
    split
    · next heq =>
      rw [if_pos heq.symm, map_renamedBy_of_not_mem (heq ▸ hq)]
    · next hne =>
      rw [if_neg (Ne.symm hne), ih hqs]
      rfl

/-- To rename by one policy and then by others, of other ranges, is to rename by all. -/
theorem renamedBy_renamedBy {p : Policy} {ps : List Policy} (hp : p.range ∉ ranges ps)
    (q : Policy) : renamedBy ps (renamedBy [p] q) = renamedBy (p :: ps) q := by
  rw [renamedBy_cons, renamedBy_cons]
  split
  · next heq => exact renamedBy_of_not_mem (heq ▸ hp)
  · rfl

theorem policies_adopt {c : Change} (hc : (ranges c.policies).Nodup) (p : Policy) :
    (c.adopt p).policies = c.policies.map (renamedBy [p]) ++ joining c.policies [p] := by
  unfold Change.adopt
  split
  · next hmem =>
    have hjoining : joining c.policies [p] = [] := by simp [joining, mem_ranges.2 hmem]
    rw [rename_eq_map hc, hjoining, List.append_nil]
  · next hnot =>
    have hnot : p.range ∉ ranges c.policies := mt mem_ranges.1 hnot
    have hjoining : joining c.policies [p] = [p] := by simp [joining, hnot]
    rw [hjoining, map_renamedBy_of_not_mem hnot]

/-- Taking policies in, each with a range of its own, renames those that are there and adds the
others at the end. -/
theorem policies_foldl_adopt {c : Change} {desired : List Policy} (hc : (ranges c.policies).Nodup)
    (hdesired : (ranges desired).Nodup) :
    (desired.foldl Change.adopt c).policies =
      c.policies.map (renamedBy desired) ++ joining c.policies desired := by
  induction desired generalizing c with
  | nil =>
    have hsame : c.policies.map (renamedBy []) = c.policies := List.map_id' c.policies
    rw [hsame, joining, List.filter_nil, List.append_nil, List.foldl_nil]
  | cons p ps ih =>
    obtain ⟨hp, hps⟩ := List.nodup_cons.1 hdesired
    have hnames : (c.policies.map (renamedBy [p])).map (renamedBy ps) =
        c.policies.map (renamedBy (p :: ps)) := by
      rw [List.map_map]
      exact List.map_congr_left fun q _ => renamedBy_renamedBy hp q
    have hfirst : (joining c.policies [p]).map (renamedBy ps) = joining c.policies [p] := by
      refine (List.map_congr_left fun q hq => renamedBy_of_not_mem ?_).trans (List.map_id' _)
      rwa [List.mem_singleton.1 (List.mem_of_mem_filter hq)]
    have hlater : joining (c.adopt p).policies ps = joining c.policies ps := by
      refine List.filter_congr fun q hq => ?_
      have hne : q.range ≠ p.range := fun heq => hp (List.mem_map.2 ⟨q, hq, heq⟩)
      simp only [mem_ranges_adopt, hne, or_false]
    have hjoining : joining c.policies (p :: ps) =
        joining c.policies [p] ++ joining c.policies ps := List.filter_append [p] ps
    rw [List.foldl_cons, ih (nodup_ranges_adopt hc p) hps, hlater, policies_adopt hc, hjoining,
      List.map_append, hnames, hfirst, List.append_assoc]

/-- Each policy that is taken in is reported by whether its range was there before. -/
theorem events_foldl_adopt {c : Change} {desired : List Policy}
    (hdesired : (ranges desired).Nodup) :
    (desired.foldl Change.adopt c).events = c.events ++ desired.map (arrival c.policies) := by
  induction desired generalizing c with
  | nil => simp
  | cons p ps ih =>
    obtain ⟨hp, hps⟩ := List.nodup_cons.1 hdesired
    have hadopt : (c.adopt p).events = c.events ++ [arrival c.policies p] := by
      unfold Change.adopt arrival
      simp only [mem_ranges]
      split <;> rfl
    have hothers : ps.map (arrival (c.adopt p).policies) = ps.map (arrival c.policies) := by
      refine List.map_congr_left fun q hq => ?_
      have hne : q.range ≠ p.range := fun heq => hp (List.mem_map.2 ⟨q, hq, heq⟩)
      simp only [arrival, mem_ranges_adopt, hne, or_false]
    rw [List.foldl_cons, ih hps, hadopt, hothers, List.append_assoc, List.map_cons,
      List.singleton_append]

/-- Where no range is given twice and something is to change, old policies that are wanted come
first, in their order, and then the others, in the order in which they are wanted. -/
theorem reconcile_eq {current desired : List Policy} (hcurrent : (ranges current).Nodup)
    (hdesired : (ranges desired).Nodup) (hperm : ¬current.Perm desired) :
    reconcile current desired = ⟨kept current desired ++ joining current desired,
      desired.map (arrival current) ++ departures current desired⟩ := by
  have hwanted (q : Policy) : desired.any (·.range = q.range) = decide (q.range ∈ ranges desired) :=
    Bool.eq_iff_iff.2 (mem_ranges.symm.trans decide_eq_true_iff.symm)
  have hjoining : ∀ q ∈ joining current desired, q.range ∈ ranges desired := fun q hq =>
    List.mem_map.2 ⟨q, List.mem_of_mem_filter hq, rfl⟩
  rw [reconcile, if_neg (mt List.isPerm_iff.1 hperm), Change.prune,
    policies_foldl_adopt (c := ⟨current, []⟩) hcurrent hdesired,
    events_foldl_adopt (c := ⟨current, []⟩) hdesired]
  simp only [hwanted, List.filter_append, List.filter_map, Function.comp_def, range_renamedBy,
    List.map_append, List.map_map, List.nil_append, Change.mk.injEq]
  refine ⟨?_, ?_⟩
  · rw [kept, List.filter_eq_self.2 fun q hq => decide_eq_true (hjoining q hq)]
  · have hnone : (joining current desired).filter (fun q => !decide (q.range ∈ ranges desired)) =
        [] := List.filter_eq_nil_iff.2 fun q hq => by simp [hjoining q hq]
    rw [hnone, departures, List.map_nil, List.append_nil]
    simp only [decide_not]

/-- A list is left alone by one that holds the same policies. -/
theorem reconcile_of_perm {current desired : List Policy} (h : current.Perm desired) :
    reconcile current desired = ⟨current, []⟩ :=
  if_pos (List.isPerm_iff.2 h)

/-- Replacing a list is exact: its ranges are the wanted ones from then on, whatever the lists are.
Where no list has a range twice, a list with the same policies changes and reports nothing; any
other leaves the old policies that are wanted, under their new names, and behind them those of new
ranges, and reports each wanted policy as updated or created and then each unwanted one as deleted.
To want the same once more, in whatever order, changes and reports nothing. -/
theorem reconcile_exact (current desired : List Policy) :
    (∀ r, r ∈ ranges (reconcile current desired).policies ↔ r ∈ ranges desired) ∧
    ((ranges current).Nodup → (ranges desired).Nodup →
      (desired.Perm current → reconcile current desired = ⟨current, []⟩) ∧
      (¬desired.Perm current →
        reconcile current desired = ⟨kept current desired ++ joining current desired,
          desired.map (arrival current) ++ departures current desired⟩) ∧
      (reconcile current desired).policies.Perm desired ∧
      ∀ again : List Policy, again.Perm desired →
        reconcile (reconcile current desired).policies again =
          ⟨(reconcile current desired).policies, []⟩) := by
  refine ⟨fun r => mem_ranges_reconcile, fun hcurrent hdesired => ?_⟩
  have hwanted : (reconcile current desired).policies.Perm desired :=
    perm_reconcile hcurrent hdesired
  refine ⟨?_, ?_, hwanted, ?_⟩
  · intro hperm
    exact reconcile_of_perm hperm.symm
  · intro hperm
    exact reconcile_eq hcurrent hdesired fun h => hperm h.symm
  · intro again hagain
    exact reconcile_of_perm (hwanted.trans hagain.symm)

/-- A key is bound to a laboratory and an office. -/
def labAndOffice : List Policy :=
  [⟨"lab", "172.16.0.0/12"⟩, ⟨"office", "10.0.0.0/8"⟩]

/-- The office gets another name, and a guest network takes the place of the laboratory. -/
def guestsAndHeadOffice : List Policy :=
  [⟨"guests", "192.168.0.0/16"⟩, ⟨"head office", "10.0.0.0/8"⟩]

theorem reconcile_exact_labAndOffice :
    (ranges labAndOffice).Nodup ∧ (ranges guestsAndHeadOffice).Nodup ∧
    ¬guestsAndHeadOffice.Perm labAndOffice ∧
    reconcile labAndOffice guestsAndHeadOffice =
      ⟨[⟨"head office", "10.0.0.0/8"⟩, ⟨"guests", "192.168.0.0/16"⟩],
        [.policy .created "192.168.0.0/16", .policy .updated "10.0.0.0/8",
          .policy .deleted "172.16.0.0/12"]⟩ ∧
    reconcile (reconcile labAndOffice guestsAndHeadOffice).policies guestsAndHeadOffice =
      ⟨(reconcile labAndOffice guestsAndHeadOffice).policies, []⟩ := by
  have hcurrent : (ranges labAndOffice).Nodup := by decide
  have hdesired : (ranges guestsAndHeadOffice).Nodup := by decide
  have hperm : ¬guestsAndHeadOffice.Perm labAndOffice := by decide
  obtain ⟨-, hexact⟩ := reconcile_exact labAndOffice guestsAndHeadOffice
  obtain ⟨-, hchange, -, hagain⟩ := hexact hcurrent hdesired
  refine ⟨hcurrent, hdesired, hperm, ?_, hagain guestsAndHeadOffice (.refl _)⟩
  rw [hchange hperm]
  decide

end Latchkey.Policy
