import Latchkey.Proofs.Net.NetworkText
import Latchkey.Proofs.Policy

/-!
# Checking policies

Which lists of policies may be stored, and what is said of the others. A list is acceptable if each
policy has a name and denotes a network, and no two denote the same one, however it is written; any
other is refused for the first policy that breaks one of these rules against itself or those before
it. Whether a list is acceptable depends neither on its order nor on more policies than are in it.
-/

namespace Latchkey.Policy

open Text Net

variable {p : Policy} {ps : List Policy} {seen : List Network} {f : Fault}

/-! ## The rules -/

/-- Not all of the name is blank. -/
def IsNamed (p : Policy) : Prop :=
  ∃ c ∈ p.name.toList, isBlank c = false

/-- The range is a way to write the network. -/
def Denotes (p : Policy) (n : Network) : Prop :=
  Network.Denotes p.range.toList n

/-- All policies have names and denote networks, and no two the same. -/
structure Acceptable (ps : List Policy) : Prop where
  named : ∀ p ∈ ps, p.IsNamed
  ranged : ∀ p ∈ ps, ∃ n, p.Denotes n
  apart : ps.Pairwise fun p q => ∀ n, p.Denotes n → ¬q.Denotes n

/-- The first rule that a policy breaks against itself or those before it: a name, a network, and a
network of its own. -/
inductive Breaks (before : List Policy) (p : Policy) : Fault → Prop where
  | blankName (hname : ¬p.IsNamed) : Breaks before p .blankName
  | badRange (hname : p.IsNamed) (hrange : ∀ n, ¬p.Denotes n) :
      Breaks before p (.badRange p.range)
  | duplicateRange {q : Policy} {n : Network} (hname : p.IsNamed) (hrange : p.Denotes n)
      (hq : q ∈ before) (hsame : q.Denotes n) : Breaks before p (.duplicateRange p.range)

theorem isBlankText_eq_false_iff : isBlankText p.name = false ↔ p.IsNamed := by
  simp [isBlankText, IsNamed]

theorem network?_eq_some_iff {n : Network} : p.network? = some n ↔ p.Denotes n :=
  Network.ofChars?_eq_some_iff

theorem network?_eq_none_iff : p.network? = none ↔ ∀ n, ¬p.Denotes n := by
  simp only [← network?_eq_some_iff, Option.eq_none_iff_forall_ne_some, ne_eq]

/-! ## Acceptable lists -/

theorem check_eq_ok_iff : check ps = .ok () ↔ Acceptable ps := by
  rw [check, checkAfter_eq_ok_iff]
  constructor
  · rintro ⟨hnodup, hpolicies⟩
    refine ⟨fun p hp => isBlankText_eq_false_iff.1 (hpolicies p hp).1, fun p hp => ?_, ?_⟩
    · obtain ⟨n, hn, -⟩ := (hpolicies p hp).2
      exact ⟨n, network?_eq_some_iff.1 hn⟩
    · refine (List.pairwise_map.1 hnodup).imp fun hne n hp hq => hne ?_
      rw [network?_eq_some_iff.2 hp, network?_eq_some_iff.2 hq]
  · intro h
    refine ⟨List.pairwise_map.2 (h.apart.imp_of_mem fun {p q} hp _ hapart heq => ?_),
      fun p hp => ⟨isBlankText_eq_false_iff.2 (h.named p hp), ?_⟩⟩
    · obtain ⟨n, hn⟩ := h.ranged p hp
      exact hapart n hn (network?_eq_some_iff.1 (heq ▸ network?_eq_some_iff.2 hn))
    · obtain ⟨n, hn⟩ := h.ranged p hp
      exact ⟨n, network?_eq_some_iff.2 hn, List.not_mem_nil⟩

theorem Acceptable.perm {qs : List Policy} (h : Acceptable ps) (hperm : ps.Perm qs) :
    Acceptable qs where
  named p hp := h.named p (hperm.mem_iff.2 hp)
  ranged p hp := h.ranged p (hperm.mem_iff.2 hp)
  apart := (hperm.pairwise_iff fun hapart n hp hq => hapart n hq hp).1 h.apart

theorem Acceptable.sublist {qs : List Policy} (h : Acceptable ps) (hsub : qs.Sublist ps) :
    Acceptable qs where
  named p hp := h.named p (hsub.mem hp)
  ranged p hp := h.ranged p (hsub.mem hp)
  apart := h.apart.sublist hsub

/-- Whether a list may be stored does not depend on its order. -/
theorem checkPolicies_of_perm {qs : List Policy} (hperm : ps.Perm qs)
    (h : checkPolicies qs = .ok ()) : checkPolicies ps = .ok () := by
  rw [checkPolicies_eq_ok_iff, check_eq_ok_iff] at h ⊢
  exact h.perm hperm.symm

/-! ## Refused lists -/

/-- A list is checked one policy at a time. -/
theorem checkAfter_cons (seen : List Network) (p : Policy) (ps : List Policy) :
    checkAfter seen (p :: ps) =
      (checkAfter seen [p]).bind fun _ => checkAfter (seen ++ p.network?.toList) ps := by
  simp only [checkAfter]
  cases isBlankText p.name with
  | true => rfl
  | false =>
    cases p.network? with
    | none => rfl
    | some n => by_cases h : n ∈ seen <;> simp [h, Except.bind]

theorem checkAfter_append (seen : List Network) (before ps : List Policy) :
    checkAfter seen (before ++ ps) = (checkAfter seen before).bind fun _ =>
      checkAfter (seen ++ before.filterMap network?) ps := by
  induction before generalizing seen with
  | nil => simp [checkAfter, Except.bind]
  | cons p before ih =>
    rw [List.cons_append, checkAfter_cons, checkAfter_cons seen p before]
    cases checkAfter seen [p] with
    | error f => rfl
    | ok _ =>
      have hseen : (p :: before).filterMap network? =
          p.network?.toList ++ before.filterMap network? := by
        cases hn : p.network? <;> simp [hn]
      simp only [Except.bind, ih, hseen, List.append_assoc]

/-- A list is refused for the first of its policies that is refused behind those before it. -/
theorem checkAfter_eq_error_iff : checkAfter seen ps = .error f ↔
    ∃ before p after, ps = before ++ p :: after ∧ checkAfter seen before = .ok () ∧
      checkAfter (seen ++ before.filterMap network?) [p] = .error f := by
  constructor
  · intro h
    -- For all networks seen at once: a first policy that passes joins them for the rest.
    induction ps generalizing seen with
    | nil => cases h
    | cons p ps ih =>
      rw [checkAfter_cons] at h
      cases hp : checkAfter seen [p] with
      | error g =>
        rw [hp] at h
        cases h
        exact ⟨[], p, ps, rfl, rfl, by simpa using hp⟩
      | ok _ =>
        rw [hp] at h
        obtain ⟨before, q, after, rfl, hbefore, hq⟩ := ih h
        refine ⟨p :: before, q, after, rfl, ?_, ?_⟩
        · rw [checkAfter_cons, hp]
          exact hbefore
        · rw [← hq]
          cases hn : p.network? <;> simp [hn]
  · rintro ⟨before, p, after, rfl, hbefore, hp⟩
    rw [checkAfter_append, hbefore, Except.bind, checkAfter_cons, hp]
    rfl

/-- A policy is refused behind others for the first rule that it breaks. -/
theorem checkAfter_singleton_eq_error_iff {before : List Policy} :
    checkAfter (before.filterMap network?) [p] = .error f ↔ p.Breaks before f := by
  have hseen (n : Network) : n ∈ before.filterMap network? ↔ ∃ q ∈ before, q.Denotes n := by
    simp only [List.mem_filterMap, network?_eq_some_iff]
  simp only [checkAfter]
  constructor
  · intro h
    split at h
    · next hblank =>
      cases h
      exact .blankName fun hname => by
        rw [isBlankText_eq_false_iff.2 hname] at hblank
        cases hblank
    · next hname =>
      have hnamed := isBlankText_eq_false_iff.1 (eq_false_of_ne_true hname)
      split at h
      · next hnone =>
        cases h
        exact .badRange hnamed (network?_eq_none_iff.1 hnone)
      · next n hn =>
        split at h
        · next hmem =>
          cases h
          obtain ⟨q, hq, hsame⟩ := (hseen n).1 hmem
          exact .duplicateRange hnamed (network?_eq_some_iff.1 hn) hq hsame
        · cases h
  · intro h
    cases h with
    | blankName hname =>
      rw [if_pos (eq_true_of_ne_false (mt isBlankText_eq_false_iff.1 hname))]
    | badRange hname hrange =>
      rw [isBlankText_eq_false_iff.2 hname, network?_eq_none_iff.2 hrange]
      rfl
    | duplicateRange hname hrange hq hsame =>
      rw [isBlankText_eq_false_iff.2 hname, network?_eq_some_iff.2 hrange]
      simp only [Bool.false_eq_true, if_false, if_pos ((hseen _).2 ⟨_, hq, hsame⟩)]

/-- The check of policies is exact. A list passes if it is acceptable; any other is refused for the
first policy that breaks a rule against itself or those before it. Whether a list passes does not
depend on its order, every part of one that passes does too, and no range is given twice in it. -/
theorem check_exact (ps : List Policy) :
    (check ps = .ok () ↔ Acceptable ps) ∧
    (∀ f, check ps = .error f ↔ ∃ before p after,
      ps = before ++ p :: after ∧ Acceptable before ∧ p.Breaks before f) ∧
    (∀ qs, ps.Perm qs → (check qs = .ok () ↔ check ps = .ok ())) ∧
    (check ps = .ok () →
      (∀ qs, qs.Sublist ps → check qs = .ok ()) ∧ (ranges ps).Nodup) := by
  refine ⟨check_eq_ok_iff, fun f => ?_, fun qs hperm => ?_, fun h => ⟨fun qs hsub => ?_, ?_⟩⟩
  · rw [check, checkAfter_eq_error_iff]
    simp only [List.nil_append, checkAfter_singleton_eq_error_iff]
    refine exists_congr fun before => exists_congr fun p => exists_congr fun after => ?_
    rw [← check_eq_ok_iff, check]
  · rw [check_eq_ok_iff, check_eq_ok_iff]
    exact ⟨fun h => h.perm hperm.symm, fun h => h.perm hperm⟩
  · exact check_eq_ok_iff.2 ((check_eq_ok_iff.1 h).sublist hsub)
  · exact nodup_ranges_of_checkPolicies (checkPolicies_eq_ok_iff.2 h)

/-- A desk within an office. -/
def deskAndOffice : List Policy :=
  [⟨"desk", "10.0.0.1"⟩, ⟨"office", "10.0.0.0/8"⟩]

/-- Both may be stored, in either order and one without the other; a third policy may not be of
the same network as one of them, in whatever way it is written. -/
theorem check_exact_deskAndOffice :
    check deskAndOffice = .ok () ∧ Acceptable deskAndOffice ∧
    check deskAndOffice.reverse = .ok () ∧ check [⟨"office", "10.0.0.0/8"⟩] = .ok () ∧
    (ranges deskAndOffice).Nodup ∧
    ∀ range ∈ ["10.0.0.1/32", "10.0.0.1/+032", "10.0.0.0/255.0.0.0"],
      check (deskAndOffice ++ [⟨"again", range⟩]) = .error (.duplicateRange range) ∧
      ∃ before p after, deskAndOffice ++ [⟨"again", range⟩] = before ++ p :: after ∧
        Acceptable before ∧ p.Breaks before (.duplicateRange range) := by
  have hok : check deskAndOffice = .ok () := by decide +kernel
  obtain ⟨hiff, -, hperm, hparts⟩ := check_exact deskAndOffice
  refine ⟨hok, hiff.1 hok, (hperm _ (List.reverse_perm _).symm).2 hok,
    (hparts hok).1 _ (by decide), (hparts hok).2, fun range hrange => ?_⟩
  have hrefused : check (deskAndOffice ++ [⟨"again", range⟩]) = .error (.duplicateRange range) := by
    revert range
    decide +kernel
  exact ⟨hrefused, ((check_exact (deskAndOffice ++ [⟨"again", range⟩])).2.1 _).1 hrefused⟩

end Latchkey.Policy
