import Mathlib.Data.List.Basic
import Latchkey.Audit
import Latchkey.Proofs.Patch
import Latchkey.Scope

/-!
# Updates of scopes

An update asks for a state of each flag that it sets, and the scope that is left is the one it asks
for. What is told of the change are the flags that differ, each once and in the order of reports.
-/

namespace Latchkey

/-! ## Names of flags -/

/-- The flag with this name in reports. -/
def Scope.Flag.ofPath? (path : String) : Option Flag :=
  all.find? (·.path = path)

theorem Scope.Flag.ofPath?_path (f : Flag) : ofPath? f.path = some f := by
  cases f <;> decide

theorem Scope.Flag.path_injective {f g : Flag} (h : f.path = g.path) : f = g := by
  have hread : ofPath? f.path = some g := h ▸ ofPath?_path g
  exact Option.some.inj ((ofPath?_path f).symm.trans hread)

/-! ## What an update asks for -/

namespace ScopePatch

/-- The scope that an update asks for. -/
def apply (p : ScopePatch) (s : Scope) : Scope where
  image := p.image.apply s.image
  gif := p.gif.apply s.gif
  text :=
    { toxicity := p.text.toxicity.apply s.text.toxicity
      severeToxicity := p.text.severeToxicity.apply s.text.severeToxicity
      identityAttack := p.text.identityAttack.apply s.text.identityAttack
      insult := p.text.insult.apply s.text.insult
      profanity := p.text.profanity.apply s.text.profanity
      threat := p.text.threat.apply s.text.threat }
  video := p.video.apply s.video

/-- No flag is set by both updates. -/
structure Apart (p q : ScopePatch) : Prop where
  image : p.image = .keep ∨ q.image = .keep
  gif : p.gif = .keep ∨ q.gif = .keep
  toxicity : p.text.toxicity = .keep ∨ q.text.toxicity = .keep
  severeToxicity : p.text.severeToxicity = .keep ∨ q.text.severeToxicity = .keep
  identityAttack : p.text.identityAttack = .keep ∨ q.text.identityAttack = .keep
  insult : p.text.insult = .keep ∨ q.text.insult = .keep
  profanity : p.text.profanity = .keep ∨ q.text.profanity = .keep
  threat : p.text.threat = .keep ∨ q.text.threat = .keep
  video : p.video = .keep ∨ q.video = .keep

theorem get_apply (p : ScopePatch) (s : Scope) (f : Scope.Flag) :
    (p.apply s).get f = (p.get f).apply (s.get f) := by
  cases f <;> rfl

theorem Apart.get {p q : ScopePatch} (h : p.Apart q) (f : Scope.Flag) :
    p.get f = .keep ∨ q.get f = .keep := by
  cases f with
  | image => exact h.image
  | gif => exact h.gif
  | toxicity => exact h.toxicity
  | severeToxicity => exact h.severeToxicity
  | identityAttack => exact h.identityAttack
  | insult => exact h.insult
  | profanity => exact h.profanity
  | threat => exact h.threat
  | video => exact h.video

theorem Apart.symm {p q : ScopePatch} (h : p.Apart q) : q.Apart p where
  image := h.image.symm
  gif := h.gif.symm
  toxicity := h.toxicity.symm
  severeToxicity := h.severeToxicity.symm
  identityAttack := h.identityAttack.symm
  insult := h.insult.symm
  profanity := h.profanity.symm
  threat := h.threat.symm
  video := h.video.symm

theorem apply_apply (p : ScopePatch) (s : Scope) : p.apply (p.apply s) = p.apply s := by
  refine Scope.ext_get fun f => ?_
  rw [get_apply, get_apply, Patch.apply_apply]

/-- Updates of different flags can be made in either order. -/
theorem apply_comm {p q : ScopePatch} (h : p.Apart q) (s : Scope) :
    q.apply (p.apply s) = p.apply (q.apply s) := by
  refine Scope.ext_get fun f => ?_
  simp only [get_apply]
  exact Patch.apply_comm (h.get f) (s.get f)

end ScopePatch

/-! ## What an update changes -/

namespace Scope

/-- The changes to a scope, flag by flag. -/
theorem mem_changes {s : Scope} {p : ScopePatch} {f : Flag} {b : Bool} :
    (f, b) ∈ s.changes p ↔ b = (p.get f).apply (s.get f) ∧ b ≠ s.get f := by
  rw [← Patch.change?_eq_some_iff, changes, List.mem_filterMap]
  constructor
  · rintro ⟨g, -, hg⟩
    obtain ⟨d, hd, heq⟩ := Option.map_eq_some_iff.1 hg
    obtain ⟨rfl, rfl⟩ := Prod.mk.inj heq
    exact hd
  · intro h
    exact ⟨f, f.mem_all, by rw [h]; rfl⟩

theorem nodup_flags_changes (s : Scope) (p : ScopePatch) : ((s.changes p).map (·.1)).Nodup := by
  have hsub : ((s.changes p).map (·.1)).Sublist Flag.all := by
    unfold changes
    induction Flag.all with
    | nil => exact .slnil
    | cons f flags ih =>
      rw [List.filterMap_cons]
      cases (p.get f).change? (s.get f) with
      | none => exact ih.cons f
      | some b => exact ih.cons_cons f
  exact hsub.nodup (by decide)

/-- Where all changes of a flag come to one state, and the flag is in it or is changed, that is its
state after them. -/
theorem get_setAll {s : Scope} {changes : List (Flag × Bool)} {f : Flag} {b : Bool}
    (hall : ∀ c ∈ changes, c.1 = f → c.2 = b) (hsome : s.get f = b ∨ (f, b) ∈ changes) :
    (s.setAll changes).get f = b := by
  induction changes generalizing s with
  | nil => exact hsome.resolve_right List.not_mem_nil
  | cons c changes ih =>
    obtain ⟨g, d⟩ := c
    refine ih (s := s.set g d) (fun c hc => hall c (List.mem_cons_of_mem _ hc)) ?_
    rw [get_set]
    by_cases hg : f = g
    · exact .inl ((if_pos hg).trans (hall (g, d) List.mem_cons_self hg.symm))
    · rw [if_neg hg]
      refine hsome.imp_right fun hmem => ?_
      rcases List.mem_cons.1 hmem with heq | hmem
      · exact (hg (congrArg Prod.fst heq)).elim
      · exact hmem

/-- An update of a scope leaves what it asks for. -/
theorem update_eq (s : Scope) (p : ScopePatch) : s.update p = p.apply s := by
  refine ext_get fun f => ?_
  rw [ScopePatch.get_apply]
  refine get_setAll ?_ ?_
  · rintro ⟨g, d⟩ hc rfl
    exact (mem_changes.1 hc).1
  · by_cases h : s.get f = (p.get f).apply (s.get f)
    · exact .inl h
    · exact .inr (mem_changes.2 ⟨rfl, Ne.symm h⟩)

end Scope

/-! ## What is told of a change -/

/-- The flags of a scope under the names that reports give them, in the order of reports. -/
def Scope.states (s : Scope) : List (String × Bool) :=
  [("image", s.image), ("gif", s.gif), ("text.toxicity", s.text.toxicity),
    ("text.severe_toxicity", s.text.severeToxicity),
    ("text.identity_attack", s.text.identityAttack), ("text.insult", s.text.insult),
    ("text.profanity", s.text.profanity), ("text.threat", s.text.threat), ("video", s.video)]

/-- What is told of a scope that becomes another: the flags whose state is new. -/
def Scope.told (s s' : Scope) : List KeyEvent :=
  (s'.states.filter (· ∉ s.states)).map fun (path, b) => .scope path b

namespace Scope

/-- What is told of a scope is told flag by flag. -/
theorem told_eq (s s' : Scope) : s.told s' =
    Flag.all.flatMap fun f => (switched (s.get f) (s'.get f)).map (.scope f.path) := by
  have hstates (s : Scope) : s.states = Flag.all.map fun f => (f.path, s.get f) := rfl
  have hmem (f : Flag) : (f.path, s'.get f) ∈ s.states ↔ s.get f = s'.get f := by
    rw [hstates, List.mem_map]
    constructor
    · rintro ⟨g, -, hg⟩
      obtain ⟨hpath, hget⟩ := Prod.mk.inj hg
      rw [← hget, Flag.path_injective hpath]
    · intro h
      exact ⟨f, f.mem_all, by rw [h]⟩
  rw [told, hstates s']
  induction Flag.all with
  | nil => rfl
  | cons f fs ih =>
    rw [List.map_cons, List.filter_cons, List.flatMap_cons, ← ih]
    by_cases h : s.get f = s'.get f <;> simp [switched, hmem, h]

theorem told_self (s : Scope) : s.told s = [] := by
  simp [told_eq, switched_self]

/-- What an update of flags does is told alike before and after an update of others. -/
theorem told_apply {p q : ScopePatch} (h : p.Apart q) (s : Scope) :
    (p.apply s).told (q.apply (p.apply s)) = s.told (q.apply s) := by
  simp only [told_eq, ScopePatch.get_apply, Patch.switched_apply (h.get _)]

theorem map_changes (s : Scope) (p : ScopePatch) :
    (s.changes p).map (fun (f, b) => KeyEvent.scope f.path b) = s.told (s.update p) := by
  rw [told_eq, changes, List.map_filterMap, List.filterMap_eq_flatMap_toList]
  refine congrArg (Flag.all.flatMap ·) (funext fun f => ?_)
  rw [update_eq, ScopePatch.get_apply, ← Patch.getD_change?, ← Patch.toList_change?]
  cases (p.get f).change? (s.get f) <;> rfl

end Scope

end Latchkey
