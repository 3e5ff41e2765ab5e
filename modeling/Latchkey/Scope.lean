import Latchkey.Patch

/-!
# Scopes

The kinds of content a key may classify: nine flags, six of them about text. `Scope.Flag` names
them, in the order in which changes are reported.
-/

namespace Latchkey

/-- The aspects of text that a key may classify. -/
structure TextScope where
  toxicity : Bool := false
  severeToxicity : Bool := false
  identityAttack : Bool := false
  insult : Bool := false
  profanity : Bool := false
  threat : Bool := false
  deriving DecidableEq, Repr

/-- The kinds of content that a key may classify. A new scope allows nothing. -/
structure Scope where
  image : Bool := false
  gif : Bool := false
  text : TextScope := {}
  video : Bool := false
  deriving DecidableEq, Repr

/-- An update of the flags about text. -/
structure TextScopePatch where
  toxicity : Patch Bool := .keep
  severeToxicity : Patch Bool := .keep
  identityAttack : Patch Bool := .keep
  insult : Patch Bool := .keep
  profanity : Patch Bool := .keep
  threat : Patch Bool := .keep
  deriving DecidableEq, Repr

/-- An update of a scope, flag by flag. -/
structure ScopePatch where
  image : Patch Bool := .keep
  gif : Patch Bool := .keep
  text : TextScopePatch := {}
  video : Patch Bool := .keep
  deriving DecidableEq, Repr

namespace Scope

/-- The flags of a scope. -/
inductive Flag where
  | image
  | gif
  | toxicity
  | severeToxicity
  | identityAttack
  | insult
  | profanity
  | threat
  | video
  deriving DecidableEq, Repr

/-- All flags, in the order in which their changes are reported. -/
def Flag.all : List Flag :=
  [.image, .gif, .toxicity, .severeToxicity, .identityAttack, .insult, .profanity, .threat, .video]

/-- The name of a flag in reports. -/
def Flag.path : Flag → String
  | .image => "image"
  | .gif => "gif"
  | .toxicity => "text.toxicity"
  | .severeToxicity => "text.severe_toxicity"
  | .identityAttack => "text.identity_attack"
  | .insult => "text.insult"
  | .profanity => "text.profanity"
  | .threat => "text.threat"
  | .video => "video"

/-- The state of a flag. -/
def get (s : Scope) : Flag → Bool
  | .image => s.image
  | .gif => s.gif
  | .toxicity => s.text.toxicity
  | .severeToxicity => s.text.severeToxicity
  | .identityAttack => s.text.identityAttack
  | .insult => s.text.insult
  | .profanity => s.text.profanity
  | .threat => s.text.threat
  | .video => s.video

/-- The scope with one flag in another state. -/
def set (s : Scope) (f : Flag) (b : Bool) : Scope :=
  match f with
  | .image => { s with image := b }
  | .gif => { s with gif := b }
  | .toxicity => { s with text := { s.text with toxicity := b } }
  | .severeToxicity => { s with text := { s.text with severeToxicity := b } }
  | .identityAttack => { s with text := { s.text with identityAttack := b } }
  | .insult => { s with text := { s.text with insult := b } }
  | .profanity => { s with text := { s.text with profanity := b } }
  | .threat => { s with text := { s.text with threat := b } }
  | .video => { s with video := b }

end Scope

/-- What the update says about a flag. -/
def ScopePatch.get (p : ScopePatch) : Scope.Flag → Patch Bool
  | .image => p.image
  | .gif => p.gif
  | .toxicity => p.text.toxicity
  | .severeToxicity => p.text.severeToxicity
  | .identityAttack => p.text.identityAttack
  | .insult => p.text.insult
  | .profanity => p.text.profanity
  | .threat => p.text.threat
  | .video => p.video

namespace Scope

/-- The flags that the update changes, with their new states, in the order of reports. -/
def changes (s : Scope) (p : ScopePatch) : List (Flag × Bool) :=
  Flag.all.filterMap fun f => ((p.get f).change? (s.get f)).map (f, ·)

/-- The scope with the given flags in new states. -/
def setAll (s : Scope) (changes : List (Flag × Bool)) : Scope :=
  changes.foldl (fun s (f, b) => s.set f b) s

/-- The scope after the update. -/
def update (s : Scope) (p : ScopePatch) : Scope :=
  s.setAll (s.changes p)

theorem Flag.mem_all (f : Flag) : f ∈ Flag.all := by
  cases f <;> decide

@[simp] theorem get_set (s : Scope) (f g : Flag) (b : Bool) :
    (s.set f b).get g = if g = f then b else s.get g := by
  cases f <;> cases g <;> rfl

/-- Scopes with the same flags are the same. -/
theorem ext_get {s t : Scope} (h : ∀ f, s.get f = t.get f) : s = t := by
  obtain ⟨i, g, ⟨a, b, c, d, e, f⟩, v⟩ := s
  obtain ⟨i', g', ⟨a', b', c', d', e', f'⟩, v'⟩ := t
  have h₁ := h .image
  have h₂ := h .gif
  have h₃ := h .toxicity
  have h₄ := h .severeToxicity
  have h₅ := h .identityAttack
  have h₆ := h .insult
  have h₇ := h .profanity
  have h₈ := h .threat
  have h₉ := h .video
  simp only [get] at h₁ h₂ h₃ h₄ h₅ h₆ h₇ h₈ h₉
  simp [h₁, h₂, h₃, h₄, h₅, h₆, h₇, h₈, h₉]

end Scope

end Latchkey
