import Mathlib.Data.Finset.Basic
import Latchkey.Proofs.KeyUpdate
import Latchkey.Proofs.Scope
import Latchkey.Proofs.Text.Cutting

/-!
# Logs of keys

The labels on record for a key can be read back as events, and events can be played: each says what
became of the key's switch, its flags or its ranges. `KeyState.play` only plays what has an effect,
so that a log that replays at all has told of no change that was none. What an update reports
replays to the key after it.
-/

namespace Latchkey

open Text

/-! ## Reading labels -/

namespace KeyEvent

/-- The events that are not about a range. -/
def rangeless : List KeyEvent :=
  [.created, .name, .deleted, .enabled true, .enabled false] ++
    Scope.Flag.all.flatMap fun f => [.scope f.path true, .scope f.path false]

/-- What a label begins with if it is about a range. -/
def policyStart (action : PolicyAction) : List Char :=
  ("access_policy." ++ action.label ++ ".").toList

/-- The event that a label tells of. -/
def ofLabel? (label : String) : Option KeyEvent :=
  match rangeless.find? (·.label = label) with
  | some e => some e
  | none => [PolicyAction.created, .updated, .deleted].findSome? fun action =>
      (dropStart? (policyStart action) label.toList).map fun range =>
        .policy action (String.ofList range)

theorem ofLabel?_of_mem_rangeless {e : KeyEvent} (h : e ∈ rangeless) :
    ofLabel? e.label = some e := by
  have hall : ∀ e ∈ rangeless, rangeless.find? (·.label = e.label) = some e := by decide +kernel
  simp only [ofLabel?, hall e h]

/-- No action on a range begins as another. -/
theorem dropStart?_policyStart (action other : PolicyAction) (cs : List Char) :
    dropStart? (policyStart other) (policyStart action ++ cs) =
      if other = action then some cs else none := by
  by_cases h : other = action
  · rw [h, dropStart?_eq_some.2 rfl, if_pos rfl]
  · rw [if_neg h]
    cases action <;> cases other <;> first | rfl | exact absurd rfl h

theorem ofLabel?_policy (action : PolicyAction) (range : String) :
    ofLabel? (label (.policy action range)) = some (.policy action range) := by
  have hlabel : (label (.policy action range)).toList = policyStart action ++ range.toList :=
    String.toList_append
  have hnone : rangeless.find? (·.label = label (.policy action range)) = none := by
    have hall : ∀ e ∈ rangeless, ¬"access_policy.".toList.isPrefixOf e.label.toList := by
      decide +kernel
    refine List.find?_eq_none.2 fun e he heq => hall e he ?_
    rw [of_decide_eq_true heq, hlabel]
    cases action <;> rfl
  simp only [ofLabel?, hnone, hlabel, List.findSome?, dropStart?_policyStart]
  cases action <;> simp

end KeyEvent

/-! ## Playing events -/

/-- What the log of a key tells of: whether it is enabled, its flags and its ranges. -/
structure KeyState where
  enabled : Bool
  scope : Scope
  ranges : Finset String
  deriving DecidableEq

namespace KeyState

/-- The state that a key is in. -/
def ofKey (k : ApiKey) : KeyState :=
  ⟨k.enabled, k.scope, (Policy.ranges k.policies).toFinset⟩

/-- The state that a request for a key asks for. -/
def ofRequest (r : KeyRequest) : KeyState :=
  ⟨r.enabled.getD false, r.scope.getD {}, (Policy.ranges (r.policies.getD [])).toFinset⟩

/-- The state after an event, if the event has an effect on it. A key is created only once. Its
name and its deletion are no part of its state. -/
def play (s : KeyState) : KeyEvent → Option KeyState
  | .created => none
  | .name => some s
  | .deleted => some s
  | .enabled b => if s.enabled = b then none else some { s with enabled := b }
  | .scope path b => (Scope.Flag.ofPath? path).bind fun f =>
    if s.scope.get f = b then none else some { s with scope := s.scope.set f b }
  | .policy .created r => if r ∈ s.ranges then none else some { s with ranges := insert r s.ranges }
  | .policy .updated r => if r ∈ s.ranges then some s else none
  | .policy .deleted r => if r ∈ s.ranges then some { s with ranges := s.ranges.erase r } else none

/-- The state after events, if each had an effect in its turn. -/
def playAll (s : KeyState) (events : List KeyEvent) : Option KeyState :=
  events.foldlM play s

/-- The state after what labels tell of, if each can be read and had an effect in its turn. -/
def replay (s : KeyState) (labels : List String) : Option KeyState :=
  labels.foldlM (fun s label => (KeyEvent.ofLabel? label).bind s.play) s

theorem playAll_append (s : KeyState) (events more : List KeyEvent) :
    s.playAll (events ++ more) = (s.playAll events).bind (playAll · more) :=
  List.foldlM_append ..

theorem replay_append (s : KeyState) (labels more : List String) :
    s.replay (labels ++ more) = (s.replay labels).bind (replay · more) :=
  List.foldlM_append ..

/-- The label of an event that can be played can be read. -/
theorem ofLabel?_of_play {s s' : KeyState} {e : KeyEvent} (h : s.play e = some s') :
    KeyEvent.ofLabel? e.label = some e := by
  cases e with
  | created => cases h
  | policy action range => exact KeyEvent.ofLabel?_policy action range
  | name => exact KeyEvent.ofLabel?_of_mem_rangeless (List.mem_append_left _ (by simp))
  | deleted => exact KeyEvent.ofLabel?_of_mem_rangeless (List.mem_append_left _ (by simp))
  | enabled b =>
    exact KeyEvent.ofLabel?_of_mem_rangeless (List.mem_append_left _ (by cases b <;> simp))
  | scope path b =>
    obtain ⟨f, hf, -⟩ := Option.bind_eq_some_iff.1 h
    unfold Scope.Flag.ofPath? at hf
    have hpath : f.path = path := by simpa using List.find?_some hf
    subst hpath
    have hmem : KeyEvent.scope f.path b ∈ KeyEvent.rangeless :=
      List.mem_append_right _ (List.mem_flatMap.2 ⟨f, f.mem_all, by cases b <;> simp⟩)
    exact KeyEvent.ofLabel?_of_mem_rangeless hmem

/-- Events that can be played can be replayed from their labels. -/
theorem replay_map_label {s s' : KeyState} {events : List KeyEvent}
    (h : s.playAll events = some s') : s.replay (events.map KeyEvent.label) = some s' := by
  induction events generalizing s with
  | nil => exact h
  | cons e events ih =>
    obtain ⟨s₁, hplay, hrest⟩ := Option.bind_eq_some_iff.1 h
    have hread : (KeyEvent.ofLabel? e.label).bind s.play = some s₁ := by
      rw [ofLabel?_of_play hplay]
      exact hplay
    exact Option.bind_eq_some_iff.2 ⟨s₁, hread, ih hrest⟩

/-! ## Flags -/

/-- Flags that all change can be played one after the other. -/
theorem playAll_scope (s : KeyState) {changes : List (Scope.Flag × Bool)}
    (hflags : (changes.map (·.1)).Nodup) (hchange : ∀ c ∈ changes, s.scope.get c.1 ≠ c.2) :
    s.playAll (changes.map fun (f, b) => .scope f.path b) =
      some { s with scope := s.scope.setAll changes } := by
  induction changes generalizing s with
  | nil => rfl
  | cons c changes ih =>
    obtain ⟨f, b⟩ := c
    have hfirst : s.scope.get f ≠ b := hchange (f, b) List.mem_cons_self
    rw [List.map_cons, List.nodup_cons] at hflags
    have hrest : ∀ c ∈ changes, (s.scope.set f b).get c.1 ≠ c.2 := by
      intro c hc
      have hne : c.1 ≠ f := fun h => hflags.1 (List.mem_map.2 ⟨c, hc, h⟩)
      rw [Scope.get_set, if_neg hne]
      exact hchange c (List.mem_cons_of_mem _ hc)
    have hplay : s.play (.scope f.path b) = some { s with scope := s.scope.set f b } := by
      simp only [play, Scope.Flag.ofPath?_path, Option.bind_some, if_neg hfirst]
    have hrun := ih { s with scope := s.scope.set f b } hflags.2 hrest
    exact Option.bind_eq_some_iff.2 ⟨_, hplay, hrun⟩

/-! ## Ranges -/

/-- What a change of policies reports so far can be played from a state, and leads to its ranges. -/
def Plays (s : KeyState) (c : Policy.Change) : Prop :=
  s.playAll c.events = some { s with ranges := (Policy.ranges c.policies).toFinset }

theorem Plays.adopt {s : KeyState} {c : Policy.Change} (h : s.Plays c) (p : Policy) :
    s.Plays (c.adopt p) := by
  unfold Plays at h ⊢
  unfold Policy.Change.adopt
  cases hp : c.policies.any (·.range = p.range) with
  | true =>
    have hmem : p.range ∈ (Policy.ranges c.policies).toFinset :=
      List.mem_toFinset.2 (Policy.mem_ranges.2 hp)
    simp only [if_true, playAll_append, h, Option.bind_some, Policy.ranges_rename]
    simp only [playAll, List.foldlM_cons, List.foldlM_nil, play, if_pos hmem]
    rfl
  | false =>
    have hnot : p.range ∉ (Policy.ranges c.policies).toFinset := by
      simp [Policy.mem_ranges, hp]
    have hranges : (Policy.ranges (c.policies ++ [p])).toFinset =
        insert p.range (Policy.ranges c.policies).toFinset := by
      ext r
      rw [List.mem_toFinset, Finset.mem_insert, List.mem_toFinset, or_comm]
      simp only [Policy.ranges, List.map_append, List.mem_append, List.map_singleton,
        List.mem_singleton]
    simp only [Bool.false_eq_true, if_false, playAll_append, h, Option.bind_some, hranges]
    simp only [playAll, List.foldlM_cons, List.foldlM_nil, play, if_neg hnot]
    rfl

theorem Plays.foldl_adopt {s : KeyState} {c : Policy.Change} (h : s.Plays c)
    (desired : List Policy) : s.Plays (desired.foldl Policy.Change.adopt c) := by
  induction desired generalizing c with
  | nil => exact h
  | cons p ps ih => exact ih (h.adopt p)

/-- Ranges that are there, each once, can be taken away one after the other. -/
theorem playAll_deleted (s : KeyState) {ranges : List String} (hnodup : ranges.Nodup)
    (hmem : ∀ r ∈ ranges, r ∈ s.ranges) :
    s.playAll (ranges.map (.policy .deleted)) =
      some { s with ranges := s.ranges \ ranges.toFinset } := by
  induction ranges generalizing s with
  | nil => simp [playAll]
  | cons r ranges ih =>
    rw [List.nodup_cons] at hnodup
    have hplay : s.play (.policy .deleted r) = some { s with ranges := s.ranges.erase r } := by
      simp only [play, if_pos (hmem r List.mem_cons_self)]
    have hrest : ∀ q ∈ ranges, q ∈ s.ranges.erase r := by
      intro q hq
      have hne : q ≠ r := fun h => hnodup.1 (h ▸ hq)
      exact Finset.mem_erase.2 ⟨hne, hmem q (List.mem_cons_of_mem _ hq)⟩
    have hleft : s.ranges.erase r \ ranges.toFinset = s.ranges \ (r :: ranges).toFinset := by
      ext q
      simp only [Finset.mem_sdiff, Finset.mem_erase, List.mem_toFinset, List.mem_cons]
      tauto
    rw [← hleft]
    have hrun := ih { s with ranges := s.ranges.erase r } hnodup.2 hrest
    exact Option.bind_eq_some_iff.2 ⟨_, hplay, hrun⟩

theorem Plays.prune {s : KeyState} {c : Policy.Change} (h : s.Plays c)
    (hnodup : (Policy.ranges c.policies).Nodup) (desired : List Policy) :
    s.Plays (c.prune desired) := by
  have hgone (ps : List Policy) (wanted : Policy → Bool) :
      (ps.filter (!wanted ·)).map (fun q => KeyEvent.policy .deleted q.range) =
        (Policy.ranges (ps.filter (!wanted ·))).map (.policy .deleted) := by
    simp [Policy.ranges]
  unfold Plays at h ⊢
  simp only [Policy.Change.prune, playAll_append, h, Option.bind_some, hgone]
  rw [playAll_deleted]
  · congr 2
    ext r
    simp only [Finset.mem_sdiff, List.mem_toFinset, Policy.ranges, List.mem_map, List.mem_filter]
    grind
  · exact hnodup.sublist (List.Sublist.map _ List.filter_sublist)
  · intro r hr
    obtain ⟨q, hq, rfl⟩ := List.mem_map.1 hr
    exact List.mem_toFinset.2 (List.mem_map.2 ⟨q, List.mem_of_mem_filter hq, rfl⟩)

/-- What replacing a list of policies reports leads from the old ranges to the new. -/
theorem plays_reconcile {s : KeyState} {current : List Policy} (desired : List Policy)
    (hnodup : (Policy.ranges current).Nodup) (hs : s.ranges = (Policy.ranges current).toFinset) :
    s.Plays (Policy.reconcile current desired) := by
  have hstart : s.Plays ⟨current, []⟩ := by
    unfold Plays
    rw [← hs]
    rfl
  unfold Policy.reconcile
  split
  · exact hstart
  · exact (hstart.foldl_adopt desired).prune
      (Policy.nodup_ranges_foldl_adopt (c := ⟨current, []⟩) hnodup desired) desired

end KeyState

/-! ## Updates -/

namespace KeyUpdate

variable (u : KeyUpdate) (k : ApiKey)

open KeyState

theorem playAll_editName :
    (ofKey k).playAll (u.editName k).events = some (ofKey (u.editName k).key) := by
  unfold editName
  split <;> rfl

theorem playAll_editEnabled :
    (ofKey k).playAll (u.editEnabled k).events = some (ofKey (u.editEnabled k).key) := by
  unfold editEnabled
  cases h : u.enabled.change? k.enabled with
  | none => rfl
  | some enabled =>
    have hne : k.enabled ≠ enabled := (Patch.change?_eq_some_iff.1 h).2.symm
    simp only [playAll, List.foldlM_cons, List.foldlM_nil, play, ofKey, if_neg hne]
    rfl

theorem playAll_editScope :
    (ofKey k).playAll (u.editScope k).events = some (ofKey (u.editScope k).key) := by
  unfold editScope
  cases u.scope with
  | keep => rfl
  | set p =>
    exact playAll_scope (ofKey k) (k.scope.nodup_flags_changes p) fun ⟨_, _⟩ hc =>
      (Scope.mem_changes.1 hc).2.symm

theorem playAll_editPolicies (h : (Policy.ranges k.policies).Nodup) :
    (ofKey k).playAll (u.editPolicies k).events = some (ofKey (u.editPolicies k).key) := by
  unfold editPolicies
  cases u.policies with
  | keep => rfl
  | set ps => exact plays_reconcile ps h rfl

/-- What an update reports can be played on the key, and leads to the key after it. -/
theorem playAll_apply (h : (Policy.ranges k.policies).Nodup) :
    (ofKey k).playAll (u.apply k).events = some (ofKey (u.apply k).key) := by
  have hpolicies : (u.editScope (u.editName k).key).key.policies = k.policies := by
    rw [editScope_key, editName_key]
  simp only [apply, playAll_append, playAll_editName, Option.bind_some, playAll_editScope]
  rw [playAll_editPolicies _ _ (hpolicies ▸ h), Option.bind_some, playAll_editEnabled]

end KeyUpdate

end Latchkey
