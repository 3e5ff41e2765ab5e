import Mathlib.Data.List.Induction
import Latchkey.Geo

/-!
# Where addresses lie

The entry that decides where an address lies is the longest of those that hold it, and the last of
the longest. Two networks of one length that share an address hold the same addresses. So in a table
without two networks for the same addresses no two entries that hold an address are equally long,
and its order says nothing.
-/

namespace Latchkey

open Net

/-! ## Networks that share an address -/

namespace Net

variable {n m : Network} {ip : Address}

/-- Both networks hold the same addresses. They may still be written differently. -/
def Network.Alike (n m : Network) : Prop :=
  ∀ ip, n.contains ip = m.contains ip

theorem Address.sameFamily_eq {a b : Address} (h : a.sameFamily b = true) (c : Address) :
    a.sameFamily c = b.sameFamily c := by
  cases a <;> cases b <;> cases c <;> first | rfl | cases h

theorem Network.contains_eq_true_iff : n.contains ip = true ↔
    n.base.sameFamily ip = true ∧ n.base.bits.take n.length = ip.bits.take n.length := by
  rw [contains, Bool.and_eq_true, beq_iff_eq]

theorem Network.contains_of_other_family (h : n.base.sameFamily ip = false) :
    n.contains ip = false := by
  rw [contains, h, Bool.false_and]

/-- The bits that count are those of any address in the network. -/
theorem Network.contains_eq (h : n.contains ip = true) (other : Address) :
    n.contains other =
      (ip.sameFamily other && ip.bits.take n.length == other.bits.take n.length) := by
  obtain ⟨hfamily, hbits⟩ := contains_eq_true_iff.1 h
  rw [contains, Address.sameFamily_eq hfamily, hbits]

theorem Network.alike_of_length_eq (hn : n.contains ip = true) (hm : m.contains ip = true)
    (hlength : n.length = m.length) : n.Alike m := by
  intro other
  rw [contains_eq hn, contains_eq hm, hlength]

end Net

namespace GeoTable

variable {t t' : GeoTable} {ip : Address} {e f : Network × Place}

/-! ## The entry that decides -/

/-- The entry that says where an address lies, if any holds it. -/
def deciding? (t : GeoTable) (ip : Address) : Option (Network × Place) :=
  (t.entries.filter fun e => e.1.contains ip).foldl longer none

theorem locate_eq (t : GeoTable) (ip : Address) : t.locate ip = (t.deciding? ip).map (·.2) := rfl

/-- Entries of the other family are never found. -/
theorem deciding?_of_family (h : t'.entries.filter (fun e => e.1.base.sameFamily ip) =
    t.entries.filter fun e => e.1.base.sameFamily ip) : t'.deciding? ip = t.deciding? ip := by
  have hfilter (es : List (Network × Place)) : es.filter (fun e => e.1.contains ip) =
      (es.filter fun e => e.1.base.sameFamily ip).filter fun e => e.1.contains ip := by
    rw [List.filter_filter]
    refine List.filter_congr fun e _ => ?_
    cases hfamily : e.1.base.sameFamily ip with
    | false => rw [Network.contains_of_other_family hfamily]; rfl
    | true => rw [Bool.and_true]
  rw [deciding?, deciding?, hfilter, h, ← hfilter]

theorem deciding?_snoc (es : List (Network × Place)) (e : Network × Place) (ip : Address) :
    deciding? ⟨es ++ [e]⟩ ip =
      if e.1.contains ip then longer (deciding? ⟨es⟩ ip) e else deciding? ⟨es⟩ ip := by
  unfold deciding?
  rw [List.filter_append, List.foldl_append, List.filter_cons, List.filter_nil]
  split <;> rfl

/-- An entry holds an address, no entry that holds it is longer, and none behind is as long. -/
structure Decides (t : GeoTable) (ip : Address) (e : Network × Place) : Prop where
  holds : e.1.contains ip = true
  longest : ∃ before after, t.entries = before ++ e :: after ∧
    (∀ f ∈ before, f.1.contains ip = true → f.1.length ≤ e.1.length) ∧
    ∀ f ∈ after, f.1.contains ip = true → f.1.length < e.1.length

theorem Decides.mem (h : t.Decides ip e) : e ∈ t.entries := by
  obtain ⟨before, after, hsplit, -⟩ := h.longest
  rw [hsplit]
  exact List.mem_append_right _ List.mem_cons_self

theorem Decides.length_le (h : t.Decides ip e) (hf : f ∈ t.entries)
    (hholds : f.1.contains ip = true) : f.1.length ≤ e.1.length := by
  obtain ⟨before, after, hsplit, hbefore, hafter⟩ := h.longest
  rw [hsplit] at hf
  rcases List.mem_append.1 hf with hf | hf
  · exact hbefore f hf hholds
  · rcases List.mem_cons.1 hf with rfl | hf
    · exact Nat.le_refl _
    · exact Nat.le_of_lt (hafter f hf hholds)

/-- A new entry at the end decides if it holds the address and none that does is longer. -/
theorem decides_snoc (es : List (Network × Place)) (hholds : e.1.contains ip = true)
    (hlongest : ∀ f ∈ es, f.1.contains ip = true → f.1.length ≤ e.1.length) :
    Decides ⟨es ++ [e]⟩ ip e :=
  ⟨hholds, es, [], rfl, hlongest, by simp⟩

/-- An entry still decides with another one at the end that is shorter or misses the address. -/
theorem Decides.snoc {es : List (Network × Place)} (h : Decides ⟨es⟩ ip e)
    (hlast : f.1.contains ip = true → f.1.length < e.1.length) :
    Decides ⟨es ++ [f]⟩ ip e := by
  obtain ⟨before, after, rfl, hbefore, hafter⟩ := h.longest
  refine ⟨h.holds, before, after ++ [f], by simp, hbefore, fun g hg => ?_⟩
  rcases List.mem_append.1 hg with hg | hg
  · exact hafter g hg
  · rwa [List.mem_singleton.1 hg]

/-- Either no entry holds the address, or the one that is found decides. -/
theorem deciding?_spec (t : GeoTable) (ip : Address) :
    match t.deciding? ip with
    | none => ∀ e ∈ t.entries, e.1.contains ip = false
    | some e => t.Decides ip e := by
  obtain ⟨es⟩ := t
  induction es using List.reverseRecOn with
  | nil => exact fun _ he => nomatch he
  | append_singleton es e ih =>
    rw [deciding?_snoc]
    cases hfound : deciding? ⟨es⟩ ip with
    | none =>
      rw [hfound] at ih
      by_cases hholds : e.1.contains ip = true
      · rw [if_pos hholds]
        exact decides_snoc es hholds fun f hf hf' => absurd hf' (Bool.eq_false_iff.1 (ih f hf))
      · rw [if_neg hholds]
        intro f hf
        rcases List.mem_append.1 hf with hf | hf
        · exact ih f hf
        · rw [List.mem_singleton.1 hf]
          exact Bool.eq_false_iff.2 hholds
    | some found =>
      rw [hfound] at ih
      by_cases hholds : e.1.contains ip = true
      · rw [if_pos hholds, longer]
        by_cases hshorter : e.1.length < found.1.length
        · rw [if_pos hshorter]
          exact ih.snoc fun _ => hshorter
        · rw [if_neg hshorter]
          exact decides_snoc es hholds fun f hf hf' =>
            Nat.le_trans (ih.length_le hf hf') (Nat.le_of_not_lt hshorter)
      · rw [if_neg hholds]
        exact ih.snoc fun h => absurd h hholds

theorem deciding?_eq_none_iff :
    t.deciding? ip = none ↔ ∀ e ∈ t.entries, e.1.contains ip = false := by
  have hspec := t.deciding?_spec ip
  constructor
  · intro hnone
    rwa [hnone] at hspec
  · intro hmissed
    cases hfound : t.deciding? ip with
    | none => rfl
    | some e =>
      rw [hfound] at hspec
      exact absurd hspec.holds (Bool.eq_false_iff.1 (hmissed e hspec.mem))

/-- Of two entries that decide, the one that does not come later is the other. -/
theorem Decides.eq_of_le {before between after rest : List (Network × Place)}
    (he : e.1.contains ip = true) (hf : f.1.contains ip = true)
    (hbefore : ∀ g ∈ before ++ between, g.1.contains ip = true → g.1.length ≤ f.1.length)
    (hafter : ∀ g ∈ after, g.1.contains ip = true → g.1.length < e.1.length)
    (hsplit : e :: after = between ++ f :: rest) : e = f := by
  cases between with
  | nil => exact (List.cons.inj hsplit).1
  | cons g between =>
    obtain ⟨rfl, rfl⟩ := List.cons.inj hsplit
    have hle := hbefore e (List.mem_append_right _ List.mem_cons_self) he
    have hlt := hafter f (List.mem_append_right _ List.mem_cons_self) hf
    exact absurd hlt (Nat.not_lt.2 hle)

/-- Only one entry can decide. -/
theorem Decides.eq (he : t.Decides ip e) (hf : t.Decides ip f) : e = f := by
  obtain ⟨before, after, hsplit, hbefore, hafter⟩ := he.longest
  obtain ⟨before', after', hsplit', hbefore', hafter'⟩ := hf.longest
  rcases List.append_eq_append_iff.1 (hsplit.symm.trans hsplit') with
    ⟨between, rfl, htail⟩ | ⟨between, rfl, htail⟩
  · exact eq_of_le he.holds hf.holds hbefore' hafter htail
  · exact (eq_of_le hf.holds he.holds hbefore hafter' htail).symm

theorem deciding?_eq_some_iff : t.deciding? ip = some e ↔ t.Decides ip e := by
  have hspec := t.deciding?_spec ip
  constructor
  · intro hsome
    rwa [hsome] at hspec
  · intro he
    cases hfound : t.deciding? ip with
    | none => exact absurd he.holds (Bool.eq_false_iff.1 (deciding?_eq_none_iff.1 hfound e he.mem))
    | some f =>
      rw [hfound] at hspec
      rw [hspec.eq he]

/-! ## Tables in which each network stands once -/

/-- No two entries of the table hold the same addresses. -/
def IsDistinct (t : GeoTable) : Prop :=
  t.entries.Pairwise fun e f => ¬e.1.Alike f.1

theorem IsDistinct.perm (h : t.IsDistinct) (hperm : t'.entries.Perm t.entries) : t'.IsDistinct :=
  hperm.symm.pairwise h fun halike halike' => halike fun ip => (halike' ip).symm

/-- Where each network stands once, the entry that decides is the longest that holds the address,
wherever it stands. -/
theorem IsDistinct.decides_iff (h : t.IsDistinct) : t.Decides ip e ↔
    e ∈ t.entries ∧ e.1.contains ip = true ∧
      ∀ f ∈ t.entries, f.1.contains ip = true → f.1.length ≤ e.1.length := by
  constructor
  · intro he
    exact ⟨he.mem, he.holds, fun f => he.length_le⟩
  · rintro ⟨hmem, hholds, hlongest⟩
    obtain ⟨before, after, hsplit⟩ := List.append_of_mem hmem
    unfold IsDistinct at h
    rw [hsplit] at h hlongest
    have hbehind := (List.pairwise_cons.1 (List.pairwise_append.1 h).2.1).1
    refine ⟨hholds, before, after, hsplit, fun f hf => hlongest f (List.mem_append_left _ hf), ?_⟩
    intro f hf hf'
    refine Nat.lt_of_le_of_ne (hlongest f (List.mem_append_right _ (List.mem_cons_of_mem _ hf)) hf')
      fun heq => ?_
    exact hbehind f hf (Network.alike_of_length_eq hholds hf' heq.symm)

theorem IsDistinct.deciding?_perm (h : t.IsDistinct) (hperm : t'.entries.Perm t.entries)
    (ip : Address) : t'.deciding? ip = t.deciding? ip := by
  refine Option.ext fun e => ?_
  rw [deciding?_eq_some_iff, deciding?_eq_some_iff, (h.perm hperm).decides_iff, h.decides_iff]
  simp only [hperm.mem_iff]

/-- No other entry that holds the same address is as long as this one. -/
theorem IsDistinct.length_ne {before after : List (Network × Place)}
    (h : IsDistinct ⟨before ++ e :: after⟩) (hf : f ∈ before ++ after)
    (he : e.1.contains ip = true) (hf' : f.1.contains ip = true) : f.1.length ≠ e.1.length := by
  have hfirst : IsDistinct ⟨e :: (before ++ after)⟩ := h.perm List.perm_middle.symm
  intro hlength
  exact (List.pairwise_cons.1 hfirst).1 f hf (Network.alike_of_length_eq he hf' hlength.symm)

/-- A new entry decides if it holds the address and the entry that decided so far, if there was one,
is shorter. -/
theorem IsDistinct.decides_insert_iff {before after : List (Network × Place)}
    (h : IsDistinct ⟨before ++ e :: after⟩) : Decides ⟨before ++ e :: after⟩ ip e ↔
      e.1.contains ip = true ∧ ∀ f, Decides ⟨before ++ after⟩ ip f → f.1.length < e.1.length := by
  rw [h.decides_iff]
  constructor
  · rintro ⟨-, he, hlongest⟩
    refine ⟨he, fun f hf => Nat.lt_of_le_of_ne (hlongest f ?_ hf.holds) ?_⟩
    · exact List.perm_middle.symm.subset (List.mem_cons_of_mem e hf.mem)
    · exact h.length_ne hf.mem he hf.holds
  · rintro ⟨he, hshorter⟩
    refine ⟨List.mem_append_right _ List.mem_cons_self, he, fun g hg hg' => ?_⟩
    rcases List.mem_cons.1 (List.perm_middle.subset hg) with rfl | hg
    · exact Nat.le_refl _
    · cases hfound : deciding? ⟨before ++ after⟩ ip with
      | none => exact absurd hg' (Bool.eq_false_iff.1 (deciding?_eq_none_iff.1 hfound g hg))
      | some f =>
        have hf := deciding?_eq_some_iff.1 hfound
        exact Nat.le_of_lt (Nat.lt_of_le_of_lt (hf.length_le hg hg') (hshorter f hf))

/-- Where a new entry does not decide, the one that decides is the same as before. -/
theorem IsDistinct.deciding?_insert {before after : List (Network × Place)}
    (h : IsDistinct ⟨before ++ e :: after⟩) (he : ¬Decides ⟨before ++ e :: after⟩ ip e) :
    deciding? ⟨before ++ e :: after⟩ ip = deciding? ⟨before ++ after⟩ ip := by
  have hfront : IsDistinct ⟨e :: (before ++ after)⟩ := h.perm List.perm_middle.symm
  have hrest : IsDistinct ⟨before ++ after⟩ := List.Pairwise.of_cons hfront
  refine Option.ext fun f => ?_
  rw [deciding?_eq_some_iff, deciding?_eq_some_iff]
  constructor
  · intro hf
    have hmem : f ∈ before ++ after := by
      rcases List.mem_cons.1 (List.perm_middle.subset hf.mem) with rfl | hmem
      · exact absurd hf he
      · exact hmem
    refine hrest.decides_iff.2 ⟨hmem, hf.holds, fun g hg => hf.length_le ?_⟩
    exact List.perm_middle.symm.subset (List.mem_cons_of_mem e hg)
  · intro hf
    refine h.decides_iff.2 ⟨?_, hf.holds, fun g hg hg' => ?_⟩
    · exact List.perm_middle.symm.subset (List.mem_cons_of_mem e hf.mem)
    · rcases List.mem_cons.1 (List.perm_middle.subset hg) with rfl | hg
      · refine Nat.le_of_not_lt fun hlonger => he (h.decides_insert_iff.2 ⟨hg', fun f' hf' => ?_⟩)
        rwa [hf'.eq hf]
      · exact hf.length_le hg hg'

/-! ## Longest matches -/

/-- The entry that decides is the longest that holds the address, and the last of the longest;
entries of the other family do not count. If no two networks of a table hold the same addresses, the
order of the table says nothing, and with one entry less, wherever it stands, every address lies
where it did, but for those that the entry holds and no longer one did. -/
theorem locates_longest (t : GeoTable) (ip : Address) :
    (t.locate ip = none ↔ ∀ e ∈ t.entries, e.1.contains ip = false) ∧
    (∀ place, t.locate ip = some place ↔ ∃ network, t.Decides ip (network, place)) ∧
    (∀ t' : GeoTable, t'.entries.filter (fun e => e.1.base.sameFamily ip) =
      t.entries.filter (fun e => e.1.base.sameFamily ip) → t'.locate ip = t.locate ip) ∧
    (t.IsDistinct →
      (∀ t' : GeoTable, t'.entries.Perm t.entries → t'.locate ip = t.locate ip) ∧
      ∀ before e after, t.entries = before ++ e :: after →
        ((e.1.contains ip = true ∧
            ∀ f, Decides ⟨before ++ after⟩ ip f → f.1.length < e.1.length) →
          t.locate ip = some e.2) ∧
        (t.locate ip ≠ locate ⟨before ++ after⟩ ip →
          e.1.contains ip = true ∧
            ∀ f, Decides ⟨before ++ after⟩ ip f → f.1.length < e.1.length)) := by
  refine ⟨?_, fun place => ?_, fun t' hfamily => ?_, fun hdistinct => ⟨fun t' hperm => ?_, ?_⟩⟩
  · rw [locate_eq, Option.map_eq_none_iff, deciding?_eq_none_iff]
  · simp only [locate_eq, Option.map_eq_some_iff, deciding?_eq_some_iff]
    constructor
    · rintro ⟨⟨network, _⟩, hdecides, rfl⟩
      exact ⟨network, hdecides⟩
    · rintro ⟨network, hdecides⟩
      exact ⟨_, hdecides, rfl⟩
  · rw [locate_eq, locate_eq, deciding?_of_family hfamily]
  · rw [locate_eq, locate_eq, hdistinct.deciding?_perm hperm]
  · obtain ⟨es⟩ := t
    rintro before e after rfl
    rw [← hdistinct.decides_insert_iff]
    constructor
    · intro hdecides
      rw [locate_eq, deciding?_eq_some_iff.2 hdecides, Option.map_some]
    · intro hchanged
      by_contra hkept
      exact hchanged (by rw [locate_eq, locate_eq, hdistinct.deciding?_insert hkept])

/-- A network, a longer one in it, and one of the other family that holds a mapped address; all
with bits beyond their lengths. -/
def nestedTable : GeoTable where
  entries :=
    [(⟨.v4 ⟨[81, 2, 69, 7], rfl⟩, 24⟩, ⟨some "GB", some "ENG", some "London"⟩),
      (⟨.v6 ⟨[0, 0, 0, 0, 0, 0xFFFF, 0x5102, 0x45A0], rfl⟩, 0⟩, ⟨some "NL", none, none⟩),
      (⟨.v4 ⟨[81, 2, 3, 4], rfl⟩, 16⟩, ⟨some "GB", none, none⟩)]

/-- An address in both networks of its family. -/
def innerAddress : Address := .v4 ⟨[81, 2, 69, 160], rfl⟩

/-- An address in the shorter network of its family alone. -/
def outerAddress : Address := .v4 ⟨[81, 2, 1, 1], rfl⟩

theorem isDistinct_nestedTable : nestedTable.IsDistinct := by
  have hdiffer {n m : Network} (ip : Address) (h : n.contains ip ≠ m.contains ip) : ¬n.Alike m :=
    fun halike => h (halike ip)
  refine .cons ?_ (.cons ?_ (.cons (fun _ he => nomatch he) .nil))
  · simp only [List.forall_mem_cons]
    exact ⟨hdiffer innerAddress (by decide), hdiffer outerAddress (by decide),
      fun _ he => nomatch he⟩
  · simp only [List.forall_mem_cons]
    exact ⟨hdiffer innerAddress (by decide), fun _ he => nomatch he⟩

/-- In any order the longer network counts, and an address that it misses lies where it would lie
without it. -/
theorem locates_longest_nested :
    locate ⟨nestedTable.entries.reverse⟩ innerAddress =
      some ⟨some "GB", some "ENG", some "London"⟩ ∧
    locate ⟨nestedTable.entries.tail⟩ outerAddress = some ⟨some "GB", none, none⟩ := by
  obtain ⟨-, -, -, hinner⟩ := locates_longest nestedTable innerAddress
  obtain ⟨-, -, -, houter⟩ := locates_longest nestedTable outerAddress
  constructor
  · have hsame := (hinner isDistinct_nestedTable).1 ⟨_⟩ (List.reverse_perm _)
    exact hsame.trans (by decide)
  · have hchanged := ((houter isDistinct_nestedTable).2 [] _ _ rfl).2
    have hsame : nestedTable.locate outerAddress =
        locate ⟨nestedTable.entries.tail⟩ outerAddress := by
      by_contra hmoved
      exact absurd (hchanged hmoved).1 (by decide)
    exact hsame.symm.trans (by decide)

end GeoTable

end Latchkey
