import Mathlib.Data.List.Nodup
import Latchkey.Json.Record
import Latchkey.Proofs.Json.RoundTrip

/-!
# Records are read back

A form of JSON is good for keeping things in if whatever is written in it is read as what it was.
Texts, truth values and lists of such forms are. Of a record that is written with each of its fields
once, every field is found under its name.
-/

namespace Latchkey.Json

/-- What is written is a plain value, and is read as what was written. -/
structure ReadsBack {α : Type} (write : α → Json) (read : Json → Option α) : Prop where
  isPlain : ∀ a, (write a).isPlain = true
  read_write : ∀ a, read (write a) = some a

theorem ReadsBack.text : ReadsBack .text asText? :=
  ⟨fun _ => rfl, fun _ => rfl⟩

theorem ReadsBack.bool : ReadsBack .bool asBool? :=
  ⟨fun _ => rfl, fun _ => rfl⟩

theorem ReadsBack.optionalText : ReadsBack optionalText (Record.nullable asText?) where
  isPlain s := by cases s <;> rfl
  read_write s := by cases s <;> rfl

variable {α : Type} {write : α → Json} {read : Json → Option α}

/-- Lists are read back item by item. -/
theorem ReadsBack.list (h : ReadsBack write read) :
    ReadsBack (fun xs => .array (xs.map write)) (asList? read) where
  isPlain xs := by
    induction xs with
    | nil => rfl
    | cons x xs ih =>
      show ((write x).isPlain && arePlain (xs.map write)) = true
      rw [h.isPlain x]
      exact ih
  read_write xs := by
    rw [asList?]
    induction xs with
    | nil => rfl
    | cons x xs ih =>
      rw [List.map_cons, List.mapM_cons, h.read_write x, ih]
      rfl

/-- What is written as a text is read back from it. -/
theorem ReadsBack.ofString? (h : ReadsBack write read) (a : α) :
    (ofString? (write a).toString).bind read = some a := by
  rw [ofString?_toString (h.isPlain a), Option.bind_some, h.read_write]

namespace Record

variable {fields : List String} {members : List (String × Json)}

/-- An object that has no field of a record twice supplies them by name. -/
theorem of?_of_count_le (h : ∀ field ∈ fields, (members.map (·.1)).count field ≤ 1) :
    of? fields (.object members) = some ⟨true, members⟩ := by
  have hdistinct : distinct fields members = true := by
    refine List.all_eq_true.2 fun field hfield => decide_eq_true ?_
    have hcount := h field hfield
    rwa [List.count, List.countP_map, List.countP_eq_length_filter] at hcount
  rw [of?, if_pos hdistinct]

/-- An object that has each field of a record once supplies them by name. -/
theorem of?_object (hnames : members.map (·.1) = fields) (hnodup : fields.Nodup) :
    of? fields (.object members) = some ⟨true, members⟩ :=
  of?_of_count_le fun field _ => hnames ▸ List.nodup_iff_count_le_one.1 hnodup field

end Record

end Latchkey.Json
