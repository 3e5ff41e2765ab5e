import Latchkey.Audit
import Latchkey.Proofs.Text.Numbers

/-!
# Labels

The label of what happened to an account tells it apart from everything else that may happen, and so
does the label of what changed on a key. The first letters tell which kind of event it is: seven of
them for accounts, two for keys. What follows is told apart from others of its kind: numbers and
truth values by their texts, a path and a truth value by where the path ends, and the range of a
policy, which may be any text, by standing last behind a word of seven letters.
-/

namespace Latchkey

open Text

theorem Text.digits_injective : Function.Injective digits := by
  intro m n h
  have hread := congrArg ofDigits? h
  rw [ofDigits?_digits, ofDigits?_digits] at hread
  exact Option.some.inj hread

theorem Text.digits_ne_minus (m : Nat) (cs : List Char) : digits m ≠ '-' :: cs := by
  intro h
  have hdigit : isDigit '-' = true := isDigit_of_mem_digits (h ▸ List.mem_cons_self)
  exact absurd hdigit (by decide)

theorem Text.integerText_injective : Function.Injective integerText := by
  intro i j h
  cases i with
  | ofNat m =>
    cases j with
    | ofNat n => exact congrArg Int.ofNat (digits_injective h)
    | negSucc n => exact absurd h (digits_ne_minus m _)
  | negSucc m =>
    cases j with
    | ofNat n => exact absurd h.symm (digits_ne_minus n _)
    | negSucc n =>
      have hsucc := digits_injective (List.cons.inj h).2
      exact congrArg Int.negSucc (Nat.succ.inj hsucc)

theorem intText_injective : Function.Injective intText := by
  intro i j h
  exact integerText_injective (String.ofList_injective h)

theorem boolText_injective : Function.Injective boolText := by
  intro b c h
  cases b <;> cases c <;> first | rfl | exact absurd h (by decide)

namespace SecurityEvent

/-- The letters that the label of an event begins with, seven at most. -/
def lead : SecurityEvent → String
  | .created => "created"
  | .signIn => "signin"
  | .unrecognizedDevice => "unrecog"
  | .keyCreated _ => "create_"
  | .keyDeleted _ => "delete_"
  | .passwordReset => "reset"
  | .fullName => "fullnam"
  | .billingAlert _ => "billing"
  | .emailSubscription _ => "email_s"

theorem take_label (event : SecurityEvent) : event.label.toList.take 7 = event.lead.toList := by
  have htake {start lead : String} (rest : String) (hlength : 7 ≤ start.toList.length)
      (h : start.toList.take 7 = lead.toList) : (start ++ rest).toList.take 7 = lead.toList := by
    rw [String.toList_append, List.take_append_of_le_length hlength, h]
  have hcreate : "create_key.".toList.take 7 = "create_".toList := by decide
  have hdelete : "delete_key.".toList.take 7 = "delete_".toList := by decide
  have hbilling : "billing_alert_enabled.".toList.take 7 = "billing".toList := by decide
  have hemail : "email_subscription_enabled.".toList.take 7 = "email_s".toList := by decide
  cases event with
  | keyCreated key => exact htake _ (by decide) hcreate
  | keyDeleted key => exact htake _ (by decide) hdelete
  | billingAlert b => exact htake _ (by decide) hbilling
  | emailSubscription b => exact htake _ (by decide) hemail
  | _ => decide

theorem lead_eq_of_label_eq {event other : SecurityEvent} (h : event.label = other.label) :
    event.lead = other.lead := by
  refine String.toList_injective ?_
  rw [← take_label, ← take_label, h]

theorem label_injective : Function.Injective label := by
  intro event other h
  have hlead := lead_eq_of_label_eq h
  cases event <;> cases other
  case keyCreated.keyCreated key key' =>
    exact congrArg keyCreated (intText_injective (String.append_right_inj _ |>.1 h))
  case keyDeleted.keyDeleted key key' =>
    exact congrArg keyDeleted (intText_injective (String.append_right_inj _ |>.1 h))
  case billingAlert.billingAlert b b' =>
    exact congrArg billingAlert (boolText_injective (String.append_right_inj _ |>.1 h))
  case emailSubscription.emailSubscription b b' =>
    exact congrArg emailSubscription (boolText_injective (String.append_right_inj _ |>.1 h))
  all_goals
    dsimp only [lead] at hlead
    first | rfl | exact absurd hlead (by decide)

end SecurityEvent

theorem PolicyAction.length_label (action : PolicyAction) : action.label.toList.length = 7 := by
  cases action <;> rfl

theorem PolicyAction.label_injective : Function.Injective PolicyAction.label := by
  intro action other h
  cases action <;> cases other <;> first | rfl | exact absurd h (by decide)

/-- A truth value at the end of a text is told by the last letter but one. -/
theorem reverse_take_append_boolText (text : String) (b : Bool) :
    (text ++ boolText b).toList.reverse.take 2 = ['e', if b then 'u' else 's'] := by
  cases b <;> simp [boolText]

theorem append_boolText_inj {text other : String} {b c : Bool}
    (h : text ++ boolText b = other ++ boolText c) : text = other ∧ b = c := by
  have hlast := congrArg (fun s => s.toList.reverse.take 2) h
  simp only [reverse_take_append_boolText] at hlast
  have hvalue : b = c := by
    cases b <;> cases c <;> first | rfl | exact absurd hlast (by decide)
  rw [hvalue] at h
  exact ⟨String.append_left_inj _ |>.1 h, hvalue⟩

namespace KeyEvent

/-- The two letters that the label of an event begins with. -/
def lead : KeyEvent → List Char
  | .created => ['c', 'r']
  | .name => ['n', 'a']
  | .scope _ _ => ['s', 'c']
  | .policy _ _ => ['a', 'c']
  | .enabled _ => ['e', 'n']
  | .deleted => ['d', 'e']

theorem take_label (event : KeyEvent) : event.label.toList.take 2 = event.lead := by
  cases event with
  | scope path b => simp [label, lead]
  | policy action range => simp [label, lead]
  | enabled b => simp [label, lead]
  | _ => rfl

theorem scope_inj_of_label {path other : String} {b c : Bool}
    (h : label (.scope path b) = label (.scope other c)) : path = other ∧ b = c := by
  obtain ⟨hpath, hvalue⟩ := append_boolText_inj h
  exact ⟨String.append_right_inj _ |>.1 (String.append_left_inj _ |>.1 hpath), hvalue⟩

/-- All actions on policies have equally long names, so what follows them is the range. -/
theorem policy_inj_of_label {action other : PolicyAction} {range range' : String}
    (h : label (.policy action range) = label (.policy other range')) :
    action = other ∧ range = range' := by
  have hlists := congrArg String.toList h
  simp only [label, String.toList_append, List.append_assoc, List.append_cancel_left_eq] at hlists
  obtain ⟨haction, hrange⟩ :=
    List.append_inj hlists (action.length_label.trans other.length_label.symm)
  exact ⟨PolicyAction.label_injective (String.toList_injective haction),
    String.toList_injective (List.append_cancel_left hrange)⟩

theorem label_injective : Function.Injective label := by
  intro event other h
  have hlead : event.lead = other.lead := by rw [← take_label, ← take_label, h]
  cases event <;> cases other
  case scope.scope path b path' b' =>
    obtain ⟨rfl, rfl⟩ := scope_inj_of_label h
    rfl
  case policy.policy action range action' range' =>
    obtain ⟨rfl, rfl⟩ := policy_inj_of_label h
    rfl
  case enabled.enabled b b' =>
    exact congrArg enabled (boolText_injective (String.append_right_inj _ |>.1 h))
  all_goals
    dsimp only [lead] at hlead
    first | rfl | exact absurd hlead (by decide)

end KeyEvent

end Latchkey
