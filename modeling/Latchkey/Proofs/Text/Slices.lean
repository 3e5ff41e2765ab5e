import Latchkey.Proofs.Text.Occurrences
import Latchkey.Text.Bytes

/-!
# Slices

A text is cut at an offset among its bytes, which has to be one between two characters. The bytes of
a text stand among those of another one only where the text itself stands, so that both ends of
such a place are offsets to cut at.
-/

namespace Latchkey.Text

variable {s t : String} {u v : List UInt8}

theorem bytes_append (s t : String) : bytes (s ++ t) = bytes s ++ bytes t := by
  simp [bytes, String.toByteArray_append]

theorem length_bytes (s : String) : (bytes s).length = s.utf8ByteSize := by
  simp [bytes]

theorem bytes_injective : Function.Injective bytes := by
  intro s t h
  have heq := ofBytes?_bytes s
  rw [h, ofBytes?_bytes] at heq
  exact (Option.some.inj heq).symm

theorem bytes_eq_nil_iff : bytes s = [] ↔ s = "" := by
  rw [← bytes_injective.eq_iff (a := s)]
  exact Iff.rfl

/-! ## Cutting at offsets -/

/-- The text from an offset on. There is none if the offset is inside of a character. -/
def sliceFrom? (s : String) (i : Nat) : Option String :=
  (s.pos? ⟨i⟩).map fun p => (s.sliceFrom p).copy

/-- The text up to an offset. There is none if the offset is inside of a character. -/
def sliceTo? (s : String) (i : Nat) : Option String :=
  (s.pos? ⟨i⟩).map fun p => (s.sliceTo p).copy

theorem exists_pos?_append (s t : String) :
    ∃ p, (s ++ t).pos? ⟨s.utf8ByteSize⟩ = some p ∧ p.Splits s t := by
  have hvalid : (⟨s.utf8ByteSize⟩ : String.Pos.Raw).IsValid (s ++ t) :=
    String.Pos.Raw.isValid_iff_exists_append.2 ⟨s, t, rfl, rfl⟩
  refine ⟨(s ++ t).pos ⟨s.utf8ByteSize⟩ hvalid, ?_, rfl, rfl⟩
  simp [String.pos?, String.Slice.pos?, hvalid, String.pos]

theorem sliceFrom?_append (s t : String) : sliceFrom? (s ++ t) s.utf8ByteSize = some t := by
  obtain ⟨p, hp, hsplits⟩ := exists_pos?_append s t
  rw [sliceFrom?, hp, Option.map_some, p.splits.eq_right hsplits]

theorem sliceTo?_append (s t : String) : sliceTo? (s ++ t) s.utf8ByteSize = some s := by
  obtain ⟨p, hp, hsplits⟩ := exists_pos?_append s t
  rw [sliceTo?, hp, Option.map_some, p.splits.eq_left hsplits]

/-! ## Texts among bytes -/

/-- An offset that is between two characters cuts the bytes where it cuts the text. -/
theorem exists_append_of_isValid (h : bytes s = u ++ v)
    (hvalid : (⟨u.length⟩ : String.Pos.Raw).IsValid s) :
    ∃ s₁ s₂, s = s₁ ++ s₂ ∧ bytes s₁ = u ∧ bytes s₂ = v := by
  obtain ⟨s₁, s₂, rfl, hlength⟩ := String.Pos.Raw.isValid_iff_exists_append.1 hvalid
  rw [bytes_append] at h
  have hu : (bytes s₁).length = u.length := by
    rw [length_bytes]
    exact (congrArg String.Pos.Raw.byteIdx hlength).symm
  obtain ⟨rfl, rfl⟩ := List.append_inj h hu
  exact ⟨s₁, s₂, rfl, rfl, rfl⟩

/-- Both ends of a place where the bytes of a text stand are between two characters. -/
theorem isValid_of_bytes (h : bytes s = u ++ bytes t ++ v) (ht : t ≠ "") :
    (⟨u.length⟩ : String.Pos.Raw).IsValid s ∧
      (⟨u.length + t.utf8ByteSize⟩ : String.Pos.Raw).IsValid s := by
  have hlengths := congrArg List.length h
  simp only [List.length_append, length_bytes] at hlengths
  have hextract : s.toByteArray.extract u.length (u.length + t.utf8ByteSize) = t.toByteArray := by
    refine ByteArray.ext (Array.ext' ?_)
    have hdrop : (bytes s).drop u.length = bytes t ++ v := by
      rw [h, List.append_assoc, List.drop_left]
    rw [ByteArray.data_extract, Array.toList_extract]
    show ((bytes s).drop u.length).take (u.length + t.utf8ByteSize - u.length) = bytes t
    rw [hdrop, Nat.add_sub_cancel_left, ← length_bytes, List.take_left]
  have hends := String.Pos.Raw.isValidUTF8_extract_iff (s := s) ⟨u.length⟩
    ⟨u.length + t.utf8ByteSize⟩ (Nat.le_add_right ..)
    (show u.length + t.utf8ByteSize ≤ s.utf8ByteSize by omega)
  rcases hends.1 (hextract ▸ t.isValidUTF8) with heq | hvalid
  · have hsize : t.utf8ByteSize = 0 := by
      have := congrArg String.Pos.Raw.byteIdx heq
      simp only at this
      omega
    exact (ht (String.utf8ByteSize_eq_zero_iff.1 hsize)).elim
  · exact hvalid

/-- The bytes of a text stand only where the text does. -/
theorem exists_append_of_bytes (h : bytes s = u ++ bytes t ++ v) (ht : t ≠ "") :
    ∃ s₁ s₂, s = s₁ ++ t ++ s₂ ∧ bytes s₁ = u ∧ bytes s₂ = v := by
  obtain ⟨hstart, hend⟩ := isValid_of_bytes h ht
  rw [List.append_assoc] at h
  obtain ⟨s₁, rest, rfl, hs₁, hrest⟩ := exists_append_of_isValid h hstart
  have hrest' : bytes (s₁ ++ rest) = (bytes s₁ ++ bytes t) ++ v := by
    rw [bytes_append, hrest, List.append_assoc]
  rw [← length_bytes, ← hs₁, ← List.length_append] at hend
  obtain ⟨front, s₂, heq, hfront, hs₂⟩ := exists_append_of_isValid hrest' hend
  rw [← bytes_append] at hfront
  rw [bytes_injective hfront] at heq
  exact ⟨s₁, s₂, heq, hs₁, hs₂⟩

/-! ## First places -/

theorem length_bytes_lt {x : List Char} (h : x <+: s.toList)
    (hlt : x.length < s.toList.length) : (bytes (String.ofList x)).length < (bytes s).length := by
  obtain ⟨y, hy⟩ := h
  have hs : s = String.ofList x ++ String.ofList y := by
    rw [← String.ofList_append, hy, String.ofList_toList]
  have hne : String.ofList y ≠ "" := by
    intro hempty
    rw [hs, hempty, String.append_empty, String.toList_ofList] at hlt
    exact Nat.lt_irrefl _ hlt
  rw [hs, bytes_append, List.length_append]
  exact Nat.lt_add_of_pos_right (List.length_pos_iff.2 (mt bytes_eq_nil_iff.1 hne))

/-- Searching the bytes finds the first place of a text. -/
theorem exists_firstAt_of_bytes (h : FirstAt (bytes t) (bytes s) u v) :
    ∃ s₁ s₂, s = s₁ ++ t ++ s₂ ∧ bytes s₁ = u ∧
      FirstAt t.toList s.toList s₁.toList s₂.toList := by
  by_cases ht : t = ""
  · subst ht
    obtain ⟨rfl, -⟩ := h.unique (.start [] (bytes s))
    exact ⟨"", s, by simp, rfl, .start [] s.toList⟩
  obtain ⟨s₁, s₂, heq, rfl, -⟩ := exists_append_of_bytes h.split ht
  refine ⟨s₁, s₂, heq, rfl, by rw [heq, String.toList_append, String.toList_append], ?_⟩
  intro x y hxy
  by_contra hlt
  have hplace : x <+: s.toList := ⟨t.toList ++ y, by rw [hxy, List.append_assoc]⟩
  have hs₁ : s₁.toList <+: s.toList := ⟨t.toList ++ s₂.toList, by rw [heq]; simp⟩
  have hx := List.prefix_of_prefix_length_le hplace hs₁ (Nat.le_of_not_le hlt)
  have hs : s = String.ofList x ++ t ++ String.ofList y := by
    rw [← String.ofList_toList (s := s), hxy, String.ofList_append, String.ofList_append,
      String.ofList_toList]
  have hle := h.first (bytes (String.ofList x)) (bytes (String.ofList y)) (by
    rw [← bytes_append, ← bytes_append, ← hs])
  exact Nat.not_lt.2 hle (length_bytes_lt hx (Nat.lt_of_not_le hlt))

theorem bytes_isInfix_iff : bytes t <:+: bytes s ↔ t.toList <:+: s.toList := by
  constructor
  · intro h
    obtain ⟨u, v, hfirst⟩ := exists_firstAt h
    obtain ⟨s₁, s₂, -, -, hfirst'⟩ := exists_firstAt_of_bytes hfirst
    exact hfirst'.isInfix
  · rintro ⟨x, y, hxy⟩
    refine ⟨bytes (String.ofList x), bytes (String.ofList y), ?_⟩
    rw [← bytes_append, ← bytes_append, ← String.ofList_toList (s := t), ← String.ofList_append,
      ← String.ofList_append, hxy, String.ofList_toList]

end Latchkey.Text
