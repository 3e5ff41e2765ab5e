import Mathlib.Data.List.Induction
import Latchkey.Proofs.History

/-!
# Transcripts

The transcript of a history is what somebody sees who knows every operation and every answer and has
no view of the tables. What a service promises about a key or a password is said of its transcript:
what was answered last, and what was never answered.
-/

namespace Latchkey

/-- An operation, what it was given from outside and what it has answered. -/
structure Answered where
  {Answer : Type}
  given : Given
  op : Operation Answer
  answer : Except Failure Answer

section Latest

variable {α : Type*} {β : Type} (tells? first? : α → Option β)

/-- What the latest entry of a kind tells. -/
def latest? (log : List α) : Option β :=
  (log.filterMap tells?).getLast?

/-- What the latest entry of a kind tells, or else the latest one of another. -/
def latestOrFirst? (log : List α) : Option β :=
  (latest? tells? log).or (latest? first? log)

variable {log : List α} {x : α}

theorem filterMap_append_singleton :
    (log ++ [x]).filterMap tells? = log.filterMap tells? ++ (tells? x).toList := by
  rw [List.filterMap_append]
  cases hx : tells? x <;> simp [hx]

/-- Where a list with one more entry is split at an entry, this is the new entry or an old one. -/
theorem split_append_singleton {before after : List α} {y : α}
    (h : log ++ [x] = before ++ y :: after) :
    (before = log ∧ y = x ∧ after = []) ∨
      ∃ rest, after = rest ++ [x] ∧ log = before ++ y :: rest := by
  rcases after.eq_nil_or_concat with rfl | ⟨rest, last, rfl⟩
  · obtain ⟨rfl, hlast⟩ := List.append_inj' h rfl
    exact .inl ⟨rfl, (List.cons.inj hlast).1.symm, rfl⟩
  · rw [List.concat_eq_append, ← List.cons_append, ← List.append_assoc] at h
    obtain ⟨hlog, hlast⟩ := List.append_inj' h rfl
    obtain rfl := (List.cons.inj hlast).1
    exact .inr ⟨rest, List.concat_eq_append, hlog⟩

/-- A new entry is the latest of its kind; an entry of another kind makes no difference. -/
theorem latest?_append : latest? tells? (log ++ [x]) = (tells? x).or (latest? tells? log) := by
  rw [latest?, filterMap_append_singleton, List.getLast?_append, latest?]
  cases tells? x <;> rfl

variable {tells? first?} {b : β}

theorem latestOrFirst?_of_tells (h : tells? x = some b) :
    latestOrFirst? tells? first? (log ++ [x]) = some b := by
  rw [latestOrFirst?, latest?_append, h]
  rfl

theorem latestOrFirst?_of_first (hnone : tells? x = none) (h : first? x = some b)
    (hlog : latestOrFirst? tells? first? log = none) :
    latestOrFirst? tells? first? (log ++ [x]) = some b := by
  rw [latestOrFirst?, latest?_append, latest?_append, hnone, h, (Option.or_eq_none_iff.1 hlog).1]
  rfl

theorem latestOrFirst?_of_neither (hnone : tells? x = none) (hfirst : first? x = none) :
    latestOrFirst? tells? first? (log ++ [x]) = latestOrFirst? tells? first? log := by
  rw [latestOrFirst?, latest?_append, latest?_append, hnone, hfirst]
  rfl

end Latest

namespace Service

variable (s : Service)

/-- An operation with the answer that tables give to it. -/
def answered (x : Asked) (t : Tables) : Answered :=
  ⟨x.given, x.op, (s.perform x t).1⟩

/-- The operations of a history with their answers. -/
def transcript (t : Tables) : List Asked → List Answered
  | [] => []
  | x :: h => s.answered x t :: transcript (s.perform x t).2 h

theorem transcript_append (t : Tables) (h h' : List Asked) :
    s.transcript t (h ++ h') = s.transcript t h ++ s.transcript (s.after t h) h' := by
  induction h generalizing t with
  | nil => rfl
  | cons x h ih => exact congrArg (s.answered x t :: ·) (ih (s.perform x t).2)

/-- What a transcript was given is what the history was given. -/
theorem map_given_transcript {β : Type} (f : Given → β) (t : Tables) (h : List Asked) :
    (s.transcript t h).map (f ·.given) = h.map (f ·.given) := by
  induction h generalizing t with
  | nil => rfl
  | cons x h ih => exact congrArg (f x.given :: ·) (ih (s.perform x t).2)

/-- What every operation keeps of tables and transcript holds after every history. -/
theorem transcript_induction {I : Tables → List Answered → Prop} {t : Tables} (ht : I t [])
    (step : ∀ (x : Asked) (t : Tables) (log : List Answered), I t log →
      I (s.perform x t).2 (log ++ [s.answered x t])) (h : List Asked) :
    I (s.after t h) (s.transcript t h) := by
  induction h using List.reverseRecOn with
  | nil => exact ht
  | append_singleton h x ih =>
    rw [s.after_append, s.transcript_append]
    exact step x _ _ ih

/-- What every operation keeps that is given a fresh identifier holds after every history in which
no identifier was drawn twice. -/
theorem transcript_induction_fresh {I : Tables → List Answered → Prop} {t : Tables} (ht : I t [])
    (step : ∀ (x : Asked) (t : Tables) (log : List Answered), I t log →
      x.given.uuid ∉ log.map (·.given.uuid) → I (s.perform x t).2 (log ++ [s.answered x t]))
    {h : List Asked} (hdrawn : (h.map (·.given.uuid)).Nodup) :
    I (s.after t h) (s.transcript t h) := by
  induction h using List.reverseRecOn with
  | nil => exact ht
  | append_singleton h x ih =>
    rw [List.map_append, List.nodup_append] at hdrawn
    obtain ⟨hbefore, -, hfresh⟩ := hdrawn
    rw [s.after_append, s.transcript_append]
    refine step x _ _ (ih hbefore) ?_
    rw [s.map_given_transcript]
    intro hmem
    exact hfresh _ hmem x.given.uuid (List.mem_singleton.2 rfl) rfl

end Service

end Latchkey
