import Latchkey.Proofs.Order

/-!
# Tables that come about

Requests of any kind that share tables take turns, and each comes to a reply. Tables come about
from others by requests in one piece, by requests that share them, and by charges from outside.
What calls that are proper and in place keep in tables that are in order holds of all tables that
come about.
-/

namespace Latchkey

/-! ## Replies -/

/-- What an operation may answer. -/
inductive Reply where
  | tokens (answer : Tokens)
  | principal (answer : Principal)
  | account (answer : Account)
  | devices (answer : List Device)
  | done
  | number (answer : Nat)
  | securityEntries (answer : List SecurityEntry)
  | charges (answer : List Charge)
  | issued (answer : IssuedKey)
  | key (answer : ApiKey)
  | found (answer : Option ApiKey)
  | keys (answer : List ApiKey)
  | keyEntries (answer : List KeyEntry)
  deriving DecidableEq

namespace Operation

variable {α : Type}

/-- The answer to an operation, as one of all answers. -/
def reply : Operation α → α → Reply
  | .signUp _ _, answer => .tokens answer
  | .signIn _ _ _, answer => .tokens answer
  | .refresh _, answer => .tokens answer
  | .authenticateBearer _, answer => .principal answer
  | .forgotPassword _, answer => .account answer
  | .resetPassword _ _, answer => .account answer
  | .activeDevices _, answer => .devices answer
  | .revokeDevice _ _, _ => .done
  | .revokeAllDevices _, answer => .number answer
  | .findAccount _, answer => .account answer
  | .updateAccount _ _, answer => .account answer
  | .securityPage _ _, answer => .securityEntries answer
  | .chargePage _ _, answer => .charges answer
  | .createKey _ _, answer => .issued answer
  | .updateKey _ _ _, answer => .key answer
  | .deleteKey _ _, _ => .done
  | .authenticateKey _, answer => .found answer
  | .countKeys _, answer => .number answer
  | .listKeys _, answer => .keys answer
  | .findKey _ _, answer => .key answer
  | .keyPage _ _ _, answer => .keyEntries answer

end Operation

namespace Service

variable (s : Service)

/-- What a request comes to is its reply. -/
def replyTo (x : Asked) : Program (Except Failure Reply) :=
  (s.request x.given x.op).run.andThen fun answer => .done (answer.map x.op.reply)

/-- Requests that share tables, after turns as a schedule has them. -/
def share (t : Tables) (requests : List Asked) (schedule : List Nat) :
    Pool Asked (Except Failure Reply) :=
  (Pool.start s.replyTo t requests).run schedule

theorem run_replyTo (x : Asked) (t : Tables) :
    ((s.replyTo x).run Backend.memory t).value = (s.perform x t).1.map x.op.reply ∧
      ((s.replyTo x).run Backend.memory t).state = (s.perform x t).2 := by
  rw [replyTo, Program.run_andThen]
  exact ⟨rfl, rfl⟩

theorem allows_replyTo (x : Asked) (t : Tables) :
    (s.replyTo x).Guarantees s.Allows (fun _ _ => True) t :=
  Program.guarantees_andThen
    (Program.Guarantees.mono (s.allows_request x.given x.op t) (fun h => h) fun _ _ _ => trivial)

/-! ## Coming about -/

/-- Tables that come about from others. -/
inductive Reaches (s : Service) (t : Tables) : Tables → Prop
  | here : s.Reaches t t
  | performed {t' : Tables} (h : s.Reaches t t') (x : Asked) : s.Reaches t (s.perform x t').2
  | shared {t' : Tables} (h : s.Reaches t t') (requests : List Asked) (schedule : List Nat) :
      s.Reaches t (s.share t' requests schedule).tables
  | charged {t' : Tables} (h : s.Reaches t t') (c : NewCharge) (howner : t'.HasOwner c.account) :
      s.Reaches t (t'.recordCharge c).2

variable {s} {t t' : Tables}

theorem reaches_after (t : Tables) (h : List Asked) : s.Reaches t (s.after t h) :=
  s.after_induction (I := s.Reaches t) (fun x _ ht => ht.performed x) .here h

/-- What allowed calls keep in tables that are in order holds of what comes about. -/
theorem Reaches.keeps {I : Tables → Prop}
    (keeps : ∀ {β : Type} (c : Call β) (t : Tables), t.InOrder → s.Allows t c → I t →
      I (c.apply t).2) (h : s.Reaches t t') (ht : t.InOrder) (hI : I t) :
    t'.InOrder ∧ I t' ∧ t.Grows t' := by
  have hkeeps : Program.Keeps s.Allows fun t => t.InOrder ∧ I t := by
    intro β c t ht hc
    obtain ⟨horder, hgrows⟩ := s.keeps_inOrder c t ht.1 hc
    exact ⟨⟨horder, keeps c t ht.1 hc ht.2⟩, hgrows⟩
  induction h with
  | here => exact ⟨ht, hI, .refl t⟩
  | performed _ x ih =>
    obtain ⟨horder, hinv, hgrows⟩ := ih
    obtain ⟨hafter, hrest, -⟩ :=
      Program.Guarantees.run hkeeps (s.allows_request x.given x.op _) ⟨horder, hinv⟩
    exact ⟨hafter.1, hafter.2, hgrows.trans hrest⟩
  | shared _ requests schedule ih =>
    obtain ⟨horder, hinv, hgrows⟩ := ih
    obtain ⟨hafter, hrest⟩ :=
      Pool.holds_run hkeeps (fun (x : Asked) _ => s.allows_replyTo x) ⟨horder, hinv⟩
        schedule
    exact ⟨hafter.1, hafter.2, hgrows.trans hrest⟩
  | charged _ c howner ih =>
    obtain ⟨horder, hinv, hgrows⟩ := ih
    obtain ⟨hafter, hrest⟩ := hkeeps (.recordCharge c) _ ⟨horder, hinv⟩ ⟨trivial, howner⟩
    exact ⟨hafter.1, hafter.2, hgrows.trans hrest⟩

/-- From tables that are in order come tables that are, and they have only grown. -/
theorem Reaches.inOrder_grows (h : s.Reaches t t') (ht : t.InOrder) : t'.InOrder ∧ t.Grows t' := by
  obtain ⟨horder, -, hgrows⟩ := h.keeps (I := fun _ => True) (fun _ _ _ _ _ => trivial) ht trivial
  exact ⟨horder, hgrows⟩

theorem Reaches.inOrder (h : s.Reaches {} t) : t.InOrder :=
  (h.inOrder_grows Tables.inOrder_empty).1

theorem grows_perform (s : Service) (ht : t.InOrder) (x : Asked) :
    (s.perform x t).2.InOrder ∧ t.Grows (s.perform x t).2 :=
  (Reaches.here.performed x).inOrder_grows ht

end Service

/-- An account asks for a key, which is disabled. -/
def oneKey : List Asked :=
  [⟨.sample 1, .signUp "ada@example.com" "correct horse"⟩,
    ⟨.sample 2, .createKey "ada@example.com" { name := "ci" }⟩]

end Latchkey
