import Latchkey.Json.Reader

/-!
# Writing JSON

A value is written without blanks, its members in their order. `run_tokens` says that the reading
machine takes the tokens of a value as that value.
-/

namespace Latchkey.Json

mutual

/-- The tokens of a value. -/
def tokens : Json → List Token
  | .null => [.null]
  | .bool b => [.bool b]
  | .number n => [.number n]
  | .text s => [.text s]
  | .broken passed => [.broken passed]
  | .array items => .openArray :: itemTokens items ++ [.closeArray]
  | .object members => .openObject :: memberTokens members ++ [.closeObject]

/-- The tokens of items with commas between them. -/
def itemTokens : List Json → List Token
  | [] => []
  | [v] => v.tokens
  | v :: w :: vs => v.tokens ++ .comma :: itemTokens (w :: vs)

/-- The tokens of members with commas between them. -/
def memberTokens : List (String × Json) → List Token
  | [] => []
  | [(s, v)] => .text s :: .colon :: v.tokens
  | (s, v) :: m :: ms => .text s :: .colon :: v.tokens ++ .comma :: memberTokens (m :: ms)

end

/-- The characters of a value. -/
def toChars (v : Json) : List Char :=
  v.tokens.flatMap Token.chars

/-- The text of a value. -/
def toString (v : Json) : String :=
  String.ofList v.toChars

mutual

theorem run_tokens (v : Json) (b : Bool) (stack : List Frame) :
    (Reader.value b stack).run v.tokens = some (.next v stack) := by
  cases v with
  | null => cases b <;> cases stack <;> simp [tokens, Reader.run, Reader.step, Reader.scalar?]
  | bool c => cases b <;> cases stack <;> simp [tokens, Reader.run, Reader.step, Reader.scalar?]
  | number n => cases b <;> cases stack <;> simp [tokens, Reader.run, Reader.step, Reader.scalar?]
  | text s => cases b <;> cases stack <;> simp [tokens, Reader.run, Reader.step, Reader.scalar?]
  | broken p => cases b <;> cases stack <;> simp [tokens, Reader.run, Reader.step, Reader.scalar?]
  | array items =>
    simp only [tokens, List.cons_append, Reader.run, Reader.step, Option.bind_some]
    rw [Reader.run_append]
    cases items with
    | nil => simp [itemTokens, Reader.run, Reader.step]
    | cons w ws =>
      rw [run_itemTokens (w :: ws) [] true stack (by simp)]
      simp [Reader.run, Reader.step, List.dropLast_concat_getLast]
  | object members =>
    simp only [tokens, List.cons_append, Reader.run, Reader.step, Option.bind_some]
    rw [Reader.run_append]
    cases members with
    | nil => simp [memberTokens, Reader.run, Reader.step, Members.close]
    | cons m ms =>
      rw [run_memberTokens (m :: ms) [] true stack (by simp)]
      simp only [Option.bind_some, Reader.run, Reader.step, Members.add, Members.close,
        Option.map_some, List.append_nil, List.reverse_cons, List.reverse_reverse]
      exact congrArg (fun l => some (Reader.next (.object l) stack))
        (List.dropLast_concat_getLast (by simp))

theorem run_itemTokens (vs : List Json) (done : List Json) (b : Bool) (stack : List Frame)
    (h : vs ≠ []) :
    (Reader.value b (.array done :: stack)).run (itemTokens vs) =
      some (.next (vs.getLast h) (.array (vs.dropLast.reverse ++ done) :: stack)) := by
  match vs with
  | [] => exact absurd rfl h
  | [v] => simp [itemTokens, run_tokens v b]
  | v :: w :: vs =>
    rw [itemTokens, Reader.run_append, run_tokens v b]
    simp only [Option.bind_some, Reader.run, Reader.step]
    rw [run_itemTokens (w :: vs) (v :: done) false stack (by simp)]
    simp

theorem run_memberTokens (ms : List (String × Json)) (done : List (String × Json)) (b : Bool)
    (stack : List Frame) (h : ms ≠ []) :
    (Reader.name b (some done) stack).run (memberTokens ms) =
      some (.next (ms.getLast h).2
        (.object (some (ms.dropLast.reverse ++ done)) (ms.getLast h).1 :: stack)) := by
  match ms with
  | [] => exact absurd rfl h
  | [(s, v)] => cases b <;> simp [memberTokens, Reader.run, Reader.step, run_tokens v]
  | (s, v) :: m :: ms =>
    have rest := run_memberTokens (m :: ms) ((s, v) :: done) false stack (by simp)
    cases b <;>
      · simp only [memberTokens, List.cons_append, Reader.run, Reader.step, Option.bind_some]
        rw [Reader.run_append, run_tokens v]
        simp only [Option.bind_some, Reader.run, Reader.step, Members.add, Option.map_some, rest]
        simp

end

/-- A value is read back from its own tokens. -/
theorem ofTokens?_tokens (v : Json) : ofTokens? v.tokens = some v := by
  simp [ofTokens?, run_tokens v false []]

end Latchkey.Json
