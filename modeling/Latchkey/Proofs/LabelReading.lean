import Latchkey.Proofs.KeyLog
import Latchkey.Proofs.Labels
import Latchkey.Proofs.Text.Cutting

/-!
# Reading labels

Labels are unambiguous, so whoever reads a trail can tell from them what has happened. Labels about
keys of an account are read back where their numbers are words; those about a key where the path is
one of a flag. The range of a policy may be any text.
-/

namespace Latchkey

open Text

namespace SecurityEvent

/-- The events that no key is named in. -/
def keyless : List SecurityEvent :=
  [.created, .signIn, .unrecognizedDevice, .passwordReset, .fullName, .billingAlert true,
    .billingAlert false, .emailSubscription true, .emailSubscription false]

/-- The event that a label tells of. -/
def ofLabel? (label : String) : Option SecurityEvent :=
  match keyless.find? (·.label = label) with
  | some e => some e
  | none =>
    match dropStart? "create_key.".toList label.toList with
    | some id => (signedWord? id).map .keyCreated
    | none => do
      let id ← dropStart? "delete_key.".toList label.toList
      (signedWord? id).map .keyDeleted

/-- The numbers of keys in an event are words. -/
def HoldsWord (e : SecurityEvent) : Prop :=
  ∀ key, e = .keyCreated key ∨ e = .keyDeleted key → fitsWord key = true

theorem find?_keyless (e : SecurityEvent) :
    keyless.find? (·.label = e.label) = if e ∈ keyless then some e else none := by
  split
  · next hmem =>
    have hall : ∀ e ∈ keyless, keyless.find? (·.label = e.label) = some e := by decide +kernel
    exact hall e hmem
  · next hmem =>
    refine List.find?_eq_none.2 fun other hother heq => hmem ?_
    rwa [← label_injective (of_decide_eq_true heq)]

theorem dropStart?_intText (start : String) (key : RowId) :
    dropStart? start.toList (start ++ intText key).toList = some (integerText key) := by
  rw [dropStart?_eq_some, String.toList_append, intText, String.toList_ofList]

theorem ofLabel?_label {e : SecurityEvent} (h : e.HoldsWord) : ofLabel? e.label = some e := by
  have hfind := e.find?_keyless
  cases e with
  | keyCreated key =>
    have hrest : dropStart? "create_key.".toList (label (.keyCreated key)).toList =
        some (integerText key) := dropStart?_intText _ key
    rw [if_neg (by simp [keyless])] at hfind
    simp only [ofLabel?, hfind, hrest, signedWord?_integerText (h key (.inl rfl)), Option.map_some]
  | keyDeleted key =>
    have hrest : dropStart? "delete_key.".toList (label (.keyDeleted key)).toList =
        some (integerText key) := dropStart?_intText _ key
    have hother : dropStart? "create_key.".toList (label (.keyDeleted key)).toList = none := by
      show dropStart? "create_key.".toList ("delete_key." ++ intText key).toList = none
      rw [String.toList_append]
      rfl
    rw [if_neg (by simp [keyless])] at hfind
    simp only [ofLabel?, hfind, hother, hrest, Option.bind_eq_bind, Option.bind_some,
      signedWord?_integerText (h key (.inr rfl)), Option.map_some]
  | billingAlert b =>
    rw [if_pos (by cases b <;> decide)] at hfind
    simp only [ofLabel?, hfind]
  | emailSubscription b =>
    rw [if_pos (by cases b <;> decide)] at hfind
    simp only [ofLabel?, hfind]
  | _ =>
    rw [if_pos (by decide)] at hfind
    simp only [ofLabel?, hfind]

end SecurityEvent

namespace KeyEvent

/-- A path in an event is that of a flag. -/
def NamesFlag (e : KeyEvent) : Prop :=
  ∀ path b, e = .scope path b → ∃ flag : Scope.Flag, flag.path = path

theorem ofLabel?_label {e : KeyEvent} (h : e.NamesFlag) : ofLabel? e.label = some e := by
  cases e with
  | policy action range => exact ofLabel?_policy action range
  | scope path b =>
    obtain ⟨flag, rfl⟩ := h path b rfl
    refine ofLabel?_of_mem_rangeless (List.mem_append_right _ (List.mem_flatMap.2 ?_))
    exact ⟨flag, flag.mem_all, by cases b <;> simp⟩
  | enabled b => exact ofLabel?_of_mem_rangeless (by cases b <;> simp [rangeless])
  | _ => exact ofLabel?_of_mem_rangeless (by simp [rangeless])

end KeyEvent

/-- No two events about an account have one label, and no two events about a key have, whatever
their numbers, paths and ranges. An event about an account is read back from its label if its
numbers are words, and one about a key if its path is that of a flag. -/
theorem labels_tell_events :
    (Function.Injective SecurityEvent.label ∧
      ∀ e : SecurityEvent, e.HoldsWord → SecurityEvent.ofLabel? e.label = some e) ∧
    Function.Injective KeyEvent.label ∧
      ∀ e : KeyEvent, e.NamesFlag → KeyEvent.ofLabel? e.label = some e :=
  ⟨⟨SecurityEvent.label_injective, fun _ => SecurityEvent.ofLabel?_label⟩,
    KeyEvent.label_injective, fun _ => KeyEvent.ofLabel?_label⟩

/-- A range that looks like a label itself, and the least of all words. -/
theorem labels_tell_events_lookalike :
    KeyEvent.ofLabel? "access_policy.deleted.access_policy.created.enabled.true" =
      some (.policy .deleted "access_policy.created.enabled.true") ∧
    SecurityEvent.ofLabel? "delete_key.-9223372036854775808" =
      some (.keyDeleted (-9223372036854775808)) := by
  obtain ⟨⟨-, hread⟩, -, hread'⟩ := labels_tell_events
  constructor
  · exact hread' (.policy .deleted "access_policy.created.enabled.true") fun _ _ h => nomatch h
  · refine hread (.keyDeleted (-9223372036854775808)) fun key hkey => ?_
    rcases hkey with hkey | hkey
    · cases hkey
    · cases hkey
      decide

end Latchkey
