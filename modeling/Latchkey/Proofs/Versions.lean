import Mathlib.Logic.Relation
import Latchkey.Agent
import Latchkey.Proofs.Text.Cutting

/-!
# Versions

The numbers of a version are the maximal runs of digits in it. How they are set apart, and whatever
comes after the second one, makes no difference to the two that an agent is told by.
-/

namespace Latchkey.Agent

open Text

variable {version version' a b : List Char} {runs : List (List Char)}

/-- A text of digits and separators. -/
def IsVersion (version : List Char) : Prop :=
  ∀ c ∈ version, isVersionChar c = true

instance (version : List Char) : Decidable (IsVersion version) :=
  List.decidableBAll _ version

/-- Digits of two texts are not joined when one text is put behind the other. -/
def Apart (a b : List Char) : Prop :=
  (∀ c ∈ a.getLast?, isDigit c = false) ∨ ∀ c ∈ b.head?, isDigit c = false

instance (a b : List Char) : Decidable (Apart a b) :=
  @instDecidableOr _ _ (Option.decidableForallMem _) (Option.decidableForallMem _)

theorem Apart.takeWhile (h : Apart a b) (p : Char → Bool) : Apart a (b.takeWhile p) := by
  refine h.imp_right fun hb c hc => hb c ?_
  rw [List.head?_takeWhile] at hc
  exact (Option.mem_filter_iff.1 hc).1

/-! ## Numbers of a version -/

theorem normalSeparator_of_isDigit {c : Char} (h : isDigit c = true) :
    normalSeparator c = c ∧ c ≠ '.' := by
  constructor
  · refine if_neg ?_
    rintro rfl
    cases h
  · rintro rfl
    cases h

theorem normalSeparator_of_not_isDigit {c : Char} (h : isVersionChar c = true)
    (hdigit : isDigit c = false) : normalSeparator c = '.' := by
  simp only [isVersionChar, hdigit, Bool.false_or, Bool.or_eq_true, beq_iff_eq] at h
  rcases h with rfl | rfl <;> rfl

/-- A version is cut at each of its separators. -/
theorem versionParts_append_cons {c : Char} (h : isVersionChar c = true)
    (hdigit : isDigit c = false) (a b : List Char) :
    versionParts (a ++ c :: b) = versionParts a ++ versionParts b := by
  rw [versionParts, List.map_append, List.map_cons, normalSeparator_of_not_isDigit h hdigit,
    pieces_append, List.filter_append]
  rfl

theorem versionParts_append (ha : IsVersion a) (hb : IsVersion b) (h : Apart a b) :
    versionParts (a ++ b) = versionParts a ++ versionParts b := by
  rcases h with h | h
  · rcases a.eq_nil_or_concat' with rfl | ⟨a, c, rfl⟩
    · rfl
    · have hc := ha c (by simp)
      have hdigit := h c (by simp)
      rw [List.append_assoc, List.singleton_append, versionParts_append_cons hc hdigit,
        versionParts_append_cons hc hdigit]
      simp [versionParts, pieces]
  · cases b with
    | nil => simp [versionParts, pieces]
    | cons c b =>
      have hc := hb c List.mem_cons_self
      have hdigit := h c rfl
      have hskip := versionParts_append_cons hc hdigit [] b
      rw [List.nil_append] at hskip
      rw [versionParts_append_cons hc hdigit, hskip]
      rfl

theorem versionParts_of_digits (hne : version ≠ []) (h : ∀ c ∈ version, isDigit c = true) :
    versionParts version = [version] := by
  have hmap : version.map normalSeparator = version := by
    rw [List.map_congr_left (g := id) fun c hc => (normalSeparator_of_isDigit (h c hc)).1,
      List.map_id]
  have hdot : '.' ∉ version := fun hc => (normalSeparator_of_isDigit (h '.' hc)).2 rfl
  rw [versionParts, hmap, pieces_of_not_mem hdot]
  simp [hne]

/-! ## Runs of digits -/

/-- The maximal runs of digits in a text, in order. -/
inductive Runs : List Char → List (List Char) → Prop
  | nil : Runs [] []
  | skip {c : Char} {rest : List Char} {runs : List (List Char)} (hc : isDigit c = false)
      (h : Runs rest runs) : Runs (c :: rest) runs
  | run {run rest : List Char} {runs : List (List Char)} (hne : run ≠ [])
      (hdigits : ∀ c ∈ run, isDigit c = true) (hend : ∀ c ∈ rest.head?, isDigit c = false)
      (h : Runs rest runs) : Runs (run ++ rest) (run :: runs)

namespace Runs

/-- Every text has its runs: one more digit begins a run or belongs to the first one. -/
theorem exists_runs (cs : List Char) : ∃ runs, Runs cs runs := by
  induction cs with
  | nil => exact ⟨[], .nil⟩
  | cons c cs ih =>
    obtain ⟨runs, h⟩ := ih
    cases hc : isDigit c with
    | false => exact ⟨runs, .skip hc h⟩
    | true =>
      have hone : ∀ d ∈ [c], isDigit d = true := by simpa using hc
      cases h with
      | nil => exact ⟨_, .run (List.cons_ne_nil c []) hone (by simp) .nil⟩
      | skip hd h =>
        exact ⟨_, .run (List.cons_ne_nil c []) hone (by simpa using hd) (.skip hd h)⟩
      | run hne hdigits hend h =>
        exact ⟨_, .run (List.cons_ne_nil c _) (List.forall_mem_cons.2 ⟨hc, hdigits⟩) hend h⟩

/-- Runs consist of digits and are not empty. -/
theorem digits (h : Runs version runs) {run : List Char} (hrun : run ∈ runs) :
    run ≠ [] ∧ ∀ c ∈ run, isDigit c = true := by
  induction h with
  | nil => cases hrun
  | skip _ _ ih => exact ih hrun
  | run hne hdigits _ _ ih =>
    rcases List.mem_cons.1 hrun with rfl | hrun
    · exact ⟨hne, hdigits⟩
    · exact ih hrun

theorem versionParts_eq (h : Runs version runs) (hversion : IsVersion version) :
    versionParts version = runs := by
  induction h with
  | nil => rfl
  | @skip c rest runs hc _ ih =>
    obtain ⟨hversion, hrest⟩ := List.forall_mem_cons.1 hversion
    have hskip := versionParts_append_cons hversion hc [] rest
    rw [List.nil_append] at hskip
    rw [hskip, ih hrest]
    rfl
  | @run run rest runs hne hdigits hend _ ih =>
    obtain ⟨hrun, hrest⟩ := List.forall_mem_append.1 hversion
    rw [versionParts_append hrun hrest (.inr hend), versionParts_of_digits hne hdigits, ih hrest,
      List.singleton_append]

end Runs

/-- The numbers of a version are its runs of digits. -/
theorem runs_iff (h : IsVersion version) : Runs version runs ↔ versionParts version = runs := by
  refine ⟨fun hruns => hruns.versionParts_eq h, ?_⟩
  rintro rfl
  obtain ⟨runs, hruns⟩ := Runs.exists_runs version
  rwa [hruns.versionParts_eq h]

/-! ## Edits -/

/-- Edits that leave the first two numbers of a version alone. What is put in the place of later
numbers need not belong to a version. -/
inductive Edit : List Char → List Char → Prop
  | separator (a b : List Char) : Edit (a ++ '_' :: b) (a ++ '.' :: b)
  | emptyNumber {a b : List Char} {c : Char} (hc : c ∈ ['.', '_']) (h : Apart a b) :
      Edit (a ++ b) (a ++ c :: b)
  | later {a b b' : List Char} (ha : IsVersion a) (htwo : 2 ≤ (versionParts a).length)
      (h : Apart a b) (h' : Apart a b') : Edit (a ++ b) (a ++ b')

/-- The numbers of the version that a text begins with. -/
def leadingParts (cs : List Char) : List (List Char) :=
  versionParts (cs.takeWhile isVersionChar)

theorem isVersion_takeWhile (cs : List Char) : IsVersion (cs.takeWhile isVersionChar) :=
  fun _ hc => List.mem_takeWhile_imp hc

/-- What is put behind a text belongs to the version it begins with only if all of the text does. -/
theorem isVersion_or_takeWhile_append (a : List Char) : IsVersion a ∨
    ∀ b, (a ++ b).takeWhile isVersionChar = a.takeWhile isVersionChar := by
  by_cases h : IsVersion a
  · exact .inl h
  · refine .inr fun b => ?_
    rw [List.takeWhile_append, if_neg fun hlength => h ?_]
    exact List.takeWhile_eq_self_iff.1 ((List.takeWhile_prefix _).eq_of_length hlength)

theorem IsVersion.takeWhile_append (ha : IsVersion a) (b : List Char) :
    (a ++ b).takeWhile isVersionChar = a ++ b.takeWhile isVersionChar :=
  List.takeWhile_append_of_pos ha

/-- What begins otherwise than a version adds nothing to one. -/
theorem takeWhile_append_of_head (h : ∀ c ∈ b.head?, isVersionChar c = false) (a : List Char) :
    (a ++ b).takeWhile isVersionChar = a.takeWhile isVersionChar := by
  rcases isVersion_or_takeWhile_append a with ha | ha
  · have hb : b.takeWhile isVersionChar = [] := by
      cases b with
      | nil => rfl
      | cons c b => exact List.takeWhile_cons_of_neg (Bool.eq_false_iff.1 (h c rfl))
    rw [ha.takeWhile_append, hb, List.append_nil, List.takeWhile_eq_self_iff.2 ha]
  · exact ha b

theorem IsVersion.leadingParts_append (ha : IsVersion a) (h : Apart a b) :
    leadingParts (a ++ b) = versionParts a ++ leadingParts b := by
  rw [leadingParts, ha.takeWhile_append, versionParts_append ha (isVersion_takeWhile b)
    (h.takeWhile _), leadingParts]

theorem IsVersion.leadingParts_append_cons {c : Char} (ha : IsVersion a) (hc : c ∈ ['.', '_']) :
    leadingParts (a ++ c :: b) = versionParts a ++ leadingParts b := by
  have hversion : isVersionChar c = true ∧ isDigit c = false := by
    rcases List.mem_pair.1 hc with rfl | rfl <;> decide
  rw [leadingParts, ha.takeWhile_append, List.takeWhile_cons_of_pos hversion.1,
    versionParts_append_cons hversion.1 hversion.2, leadingParts]

namespace Edit

theorem take_leadingParts (h : Edit version version') :
    (leadingParts version').take 2 = (leadingParts version).take 2 := by
  cases h with
  | separator a b =>
    rcases isVersion_or_takeWhile_append a with ha | ha
    · rw [ha.leadingParts_append_cons (by simp), ha.leadingParts_append_cons (by simp)]
    · rw [leadingParts, ha, leadingParts, ha]
  | @emptyNumber a b c hc h =>
    rcases isVersion_or_takeWhile_append a with ha | ha
    · rw [ha.leadingParts_append_cons hc, ha.leadingParts_append h]
    · rw [leadingParts, ha, leadingParts, ha]
  | @later a b b' ha htwo h h' =>
    rw [ha.leadingParts_append h', ha.leadingParts_append h, List.take_append_of_le_length htwo,
      List.take_append_of_le_length htwo]

end Edit

/-- However a version is edited, its first two numbers stay. -/
theorem take_leadingParts_of_edits (h : Relation.ReflTransGen Edit version version') :
    (leadingParts version').take 2 = (leadingParts version).take 2 := by
  induction h with
  | refl => rfl
  | tail _ hedit ih => exact hedit.take_leadingParts.trans ih

end Latchkey.Agent
