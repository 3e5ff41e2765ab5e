import Mathlib.Data.List.Nodup
import Latchkey.ApiKey

/-!
# Ranges of policies

The range of a policy tells it from the other policies of its key. A list that passes the check has
no range twice, and `Policy.reconcile` keeps it so: taking a policy in gives its name to the one
with its range or adds a new range, and pruning only leaves policies out.
-/

namespace Latchkey.Policy

open Text

/-- The ranges of policies, in order. -/
def ranges (ps : List Policy) : List String :=
  ps.map (·.range)

/-! ## Lists that pass the check -/

/-- A list passes if every policy has a name and a network that was not seen before, and no network
occurs twice. -/
theorem checkAfter_eq_ok_iff {seen : List Net.Network} {ps : List Policy} :
    checkAfter seen ps = .ok () ↔ (ps.map network?).Nodup ∧
      ∀ p ∈ ps, isBlankText p.name = false ∧ ∃ n, p.network? = some n ∧ n ∉ seen := by
  induction ps generalizing seen with
  | nil => exact ⟨fun _ => ⟨List.nodup_nil, fun p hp => nomatch hp⟩, fun _ => rfl⟩
  | cons p ps ih =>
    unfold checkAfter
    rw [List.map_cons, List.nodup_cons, List.forall_mem_cons]
    cases hname : isBlankText p.name with
    | true => simp
    | false =>
      cases hn : p.network? with
      | none => simp
      | some n =>
        have hfresh : some n ∉ ps.map network? ↔ ∀ q ∈ ps, q.network? ≠ some n := by simp
        rw [hfresh]
        by_cases hseen : n ∈ seen
        · simp [hseen]
        · simp only [Bool.false_eq_true, if_false, hseen, ih, List.mem_append, List.mem_singleton]
          grind

/-- No network occurs twice in a list that passes, and none that was seen before. -/
theorem networks_of_checkAfter {seen : List Net.Network} {ps : List Policy}
    (h : checkAfter seen ps = .ok ()) :
    (ps.map network?).Nodup ∧ ∀ p ∈ ps, ∃ n, p.network? = some n ∧ n ∉ seen := by
  obtain ⟨hnodup, hpolicies⟩ := checkAfter_eq_ok_iff.1 h
  exact ⟨hnodup, fun p hp => (hpolicies p hp).2⟩

/-- A list may be stored if it passes. -/
theorem checkPolicies_eq_ok_iff {ps : List Policy} :
    checkPolicies ps = .ok () ↔ check ps = .ok () := by
  unfold checkPolicies
  cases check ps with
  | error e => simp [Except.mapError]
  | ok _ => simp [Except.mapError]

/-- A list that may be stored has no range twice: one range denotes one network. -/
theorem nodup_ranges_of_checkPolicies {ps : List Policy} (h : checkPolicies ps = .ok ()) :
    (ranges ps).Nodup := by
  have hnetworks := (networks_of_checkAfter (checkPolicies_eq_ok_iff.1 h)).1
  have hmap : ps.map network? = (ranges ps).map Net.Network.ofString? := by
    simp [ranges, network?, Function.comp_def]
  rw [hmap] at hnetworks
  exact List.Nodup.of_map _ hnetworks

/-! ## Taking policies in and leaving policies out -/

theorem ranges_rename (p : Policy) (ps : List Policy) : ranges (rename p ps) = ranges ps := by
  induction ps with
  | nil => rfl
  | cons q qs ih =>
    unfold rename
    split
    · rfl
    · exact congrArg (q.range :: ·) ih

theorem mem_ranges {ps : List Policy} {r : String} :
    r ∈ ranges ps ↔ ps.any (·.range = r) = true := by
  simp [ranges]

theorem nodup_ranges_adopt {c : Change} (h : (ranges c.policies).Nodup) (p : Policy) :
    (ranges (c.adopt p).policies).Nodup := by
  unfold Change.adopt
  cases hp : c.policies.any (·.range = p.range) with
  | true => simpa only [if_true, ranges_rename] using h
  | false =>
    have hnot : p.range ∉ ranges c.policies := by simp [mem_ranges, hp]
    have happend : ranges (c.policies ++ [p]) = ranges c.policies ++ [p.range] := by simp [ranges]
    simp only [Bool.false_eq_true, if_false, happend]
    exact List.nodup_append.2 ⟨h, List.nodup_singleton _, by
      intro a ha b hb hab
      rw [List.mem_singleton.1 hb] at hab
      exact hnot (hab ▸ ha)⟩

theorem nodup_ranges_foldl_adopt {c : Change} (h : (ranges c.policies).Nodup)
    (desired : List Policy) : (ranges (desired.foldl Change.adopt c).policies).Nodup := by
  induction desired generalizing c with
  | nil => exact h
  | cons p ps ih => exact ih (nodup_ranges_adopt h p)

/-- Replacing a list keeps its ranges different, whatever is wanted. -/
theorem nodup_ranges_reconcile {current : List Policy} (h : (ranges current).Nodup)
    (desired : List Policy) : (ranges (reconcile current desired).policies).Nodup := by
  unfold reconcile
  split
  · exact h
  · have hfold := nodup_ranges_foldl_adopt (c := ⟨current, []⟩) h desired
    exact hfold.sublist (List.Sublist.map _ List.filter_sublist)

/-! ## What replacing a list leaves -/

/-- A list that passes the check denotes a network with each of its policies. -/
theorem network?_of_checkPolicies {ps : List Policy} (h : checkPolicies ps = .ok ()) {p : Policy}
    (hp : p ∈ ps) : ∃ n, p.network? = some n := by
  obtain ⟨n, hn, -⟩ := (networks_of_checkAfter (checkPolicies_eq_ok_iff.1 h)).2 p hp
  exact ⟨n, hn⟩

theorem mem_rename {p q : Policy} {ps : List Policy} (h : (ranges ps).Nodup)
    (hp : p.range ∈ ranges ps) : q ∈ rename p ps ↔ q = p ∨ q ∈ ps ∧ q.range ≠ p.range := by
  induction ps with
  | nil => cases hp
  | cons r rs ih =>
    obtain ⟨hr, hrs⟩ := List.nodup_cons.1 h
    unfold rename
    split
    · next heq =>
      have hsame : ({ r with name := p.name } : Policy) = p := by rw [heq]
      have hrest : q ∈ rs → q.range ≠ p.range := fun hq hqp =>
        hr (List.mem_map.2 ⟨q, hq, hqp.trans heq.symm⟩)
      rw [hsame]
      grind
    · next hne =>
      have hmem : p.range ∈ ranges rs := by
        rcases List.mem_cons.1 hp with hp | hp
        · exact (hne hp.symm).elim
        · exact hp
      rw [List.mem_cons, ih hrs hmem]
      grind

/-- Taking a policy in puts it in the place of the one with its range. -/
theorem mem_adopt {c : Change} {p q : Policy} (h : (ranges c.policies).Nodup) :
    q ∈ (c.adopt p).policies ↔ q = p ∨ q ∈ c.policies ∧ q.range ≠ p.range := by
  unfold Change.adopt
  by_cases hp : p.range ∈ ranges c.policies
  · rw [if_pos (mem_ranges.1 hp)]
    exact mem_rename h hp
  · have hfresh : q ∈ c.policies → q.range ≠ p.range := fun hq hqp =>
      hp (List.mem_map.2 ⟨q, hq, hqp⟩)
    rw [if_neg (mt mem_ranges.2 hp)]
    simp only [List.mem_append, List.mem_singleton]
    grind

theorem mem_foldl_adopt {c : Change} {desired : List Policy} {q : Policy}
    (hc : (ranges c.policies).Nodup) (hdesired : (ranges desired).Nodup) :
    q ∈ (desired.foldl Change.adopt c).policies ↔
      q ∈ desired ∨ q ∈ c.policies ∧ q.range ∉ ranges desired := by
  induction desired generalizing c with
  | nil => simp [ranges]
  | cons p ps ih =>
    obtain ⟨hp, hps⟩ := List.nodup_cons.1 hdesired
    rw [List.foldl_cons, ih (nodup_ranges_adopt hc p) hps, mem_adopt hc]
    have hfresh : q = p → q.range ∉ ranges ps := fun hq => hq ▸ hp
    simp only [ranges, List.map_cons, List.mem_cons] at *
    grind

/-- Replacing a list by another leaves the policies of the other, and nothing else. -/
theorem perm_reconcile {current desired : List Policy} (hcurrent : (ranges current).Nodup)
    (hdesired : (ranges desired).Nodup) :
    (reconcile current desired).policies.Perm desired := by
  have hnodup := (nodup_ranges_reconcile hcurrent desired).of_map
  refine (List.perm_ext_iff_of_nodup hnodup hdesired.of_map).2 ?_
  intro q
  unfold reconcile
  split
  · next hperm => exact (List.isPerm_iff.1 hperm).mem_iff
  · have hwanted : desired.any (·.range = q.range) = true ↔ q.range ∈ ranges desired :=
      mem_ranges.symm
    simp only [Change.prune, List.mem_filter, hwanted,
      mem_foldl_adopt (c := ⟨current, []⟩) hcurrent hdesired]
    have hmem : q ∈ desired → q.range ∈ ranges desired := fun hq => List.mem_map.2 ⟨q, hq, rfl⟩
    grind

/-- Lists with the same policies let the same addresses in. -/
theorem permits_iff {ps desired : List Policy} (h : ps.Perm desired) (ip : Net.Address) :
    permits ps ip = true ↔
      desired = [] ∨ ∃ p ∈ desired, ∃ n, p.network? = some n ∧ n.contains ip = true := by
  simp only [permits, Bool.or_eq_true, h.isEmpty_eq, List.isEmpty_iff, List.any_eq_true,
    List.mem_filterMap, h.mem_iff]
  grind

/-! ## Nothing to report -/

/-- Taking a policy in is reported by one action on its range. -/
theorem events_adopt (c : Change) (p : Policy) :
    ∃ action, (c.adopt p).events = c.events ++ [.policy action p.range] := by
  unfold Change.adopt
  split
  · exact ⟨.updated, rfl⟩
  · exact ⟨.created, rfl⟩

theorem length_events_foldl_adopt (c : Change) (desired : List Policy) :
    (desired.foldl Change.adopt c).events.length = c.events.length + desired.length := by
  induction desired generalizing c with
  | nil => rfl
  | cons p ps ih =>
    obtain ⟨action, h⟩ := events_adopt c p
    simp only [List.foldl_cons, ih, h, List.length_append, List.length_cons, List.length_nil]
    omega

/-- Where nothing is reported the list is the old one. -/
theorem reconcile_of_events_eq_nil {current desired : List Policy}
    (h : (reconcile current desired).events = []) :
    (reconcile current desired).policies = current := by
  unfold reconcile at h ⊢
  split
  · rfl
  · next hperm =>
    simp only [hperm, Bool.false_eq_true, if_false, Change.prune, List.append_eq_nil_iff,
      List.map_eq_nil_iff] at h
    have hlength := length_events_foldl_adopt ⟨current, []⟩ desired
    rw [h.1] at hlength
    have hdesired : desired = [] := List.eq_nil_of_length_eq_zero (by simpa using hlength.symm)
    subst hdesired
    have hcurrent : current = [] := by simpa using h.2
    subst hcurrent
    exact absurd rfl hperm

theorem mem_events_foldl_adopt {c : Change} {desired : List Policy} {e : KeyEvent}
    (h : e ∈ (desired.foldl Change.adopt c).events) :
    e ∈ c.events ∨ ∃ action range, e = .policy action range := by
  induction desired generalizing c with
  | nil => exact .inl h
  | cons p ps ih =>
    obtain ⟨action, hadopt⟩ := events_adopt c p
    rcases ih h with h | h
    · rw [hadopt] at h
      rcases List.mem_append.1 h with h | h
      · exact .inl h
      · exact .inr ⟨action, p.range, List.mem_singleton.1 h⟩
    · exact .inr h

/-- What is reported are actions on policies. -/
theorem mem_events_reconcile {current desired : List Policy} {e : KeyEvent}
    (h : e ∈ (reconcile current desired).events) : ∃ action range, e = .policy action range := by
  unfold reconcile at h
  split at h
  · cases h
  · rcases List.mem_append.1 h with h | h
    · rcases mem_events_foldl_adopt h with h | h
      · cases h
      · exact h
    · obtain ⟨q, -, rfl⟩ := List.mem_map.1 h
      exact ⟨.deleted, q.range, rfl⟩

end Latchkey.Policy
