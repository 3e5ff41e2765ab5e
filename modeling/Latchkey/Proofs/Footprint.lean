import Latchkey.Proofs.Interruption

/-!
# Footprints

What an operation may do to a store and whom it may tell, whatever it is answered. It may look at
anything; the calls by which it writes and the notices that it sends are listed here once for all
operations. That an operation leaves a table alone, or sends no notice of a kind, is read off this
list.
-/

namespace Latchkey

/-! ## Programs within bounds -/

namespace Program

variable {α β : Type}

/-- Every call and every notice of a program, whatever it is answered, is of a kind. -/
def Within (C : {β : Type} → Call β → Prop) (N : Notice → Prop) : Program α → Prop
  | .done _ => True
  | .call c next => C c ∧ ∀ answer, (next answer).Within C N
  | .notify n next => N n ∧ ∀ delivered, (next delivered).Within C N

variable {C D : {β : Type} → Call β → Prop} {N M : Notice → Prop}

theorem within_andThen {p : Program α} {f : α → Program β} (hp : p.Within C N)
    (hf : ∀ a, (f a).Within C N) : (p.andThen f).Within C N := by
  induction p with
  | done a => exact hf a
  | call c next ih => exact ⟨hp.1, fun answer => ih answer (hp.2 answer)⟩
  | notify n next ih => exact ⟨hp.1, fun delivered => ih delivered (hp.2 delivered)⟩

theorem Within.mono {p : Program α} (hp : p.Within C N)
    (hcall : ∀ {β : Type} {c : Call β}, C c → D c) (hnotice : ∀ {n : Notice}, N n → M n) :
    p.Within D M := by
  induction p with
  | done a => trivial
  | call c next ih => exact ⟨hcall hp.1, fun answer => ih answer (hp.2 answer)⟩
  | notify n next ih => exact ⟨hnotice hp.1, fun delivered => ih delivered (hp.2 delivered)⟩

theorem Within.makes {p : Program α} (hp : p.Within C N) : p.Makes C := by
  induction p with
  | done a => trivial
  | call c next ih => exact ⟨hp.1, fun answer => ih answer (hp.2 answer)⟩
  | notify n next ih => exact fun delivered => ih delivered (hp.2 delivered)

/-- A run sends notices of the kind only, whatever answers it. -/
theorem Within.of_mem_sent {σ : Type} {b : Backend σ} {p : Program α} (hp : p.Within C N) {s : σ}
    {n : Notice} (hn : n ∈ (p.run b s).sent) : N n := by
  induction p generalizing s with
  | done a => cases hn
  | call c next ih => exact ih _ (hp.2 _) hn
  | notify m next ih =>
    rcases List.mem_cons.1 hn with rfl | hn
    · exact hp.1
    · exact ih _ (hp.2 _) hn

end Program

namespace Request

variable {α β : Type}

/-- The notices that a request sends on tables in memory, in order. -/
def sent (r : Request α) (t : Tables) : List Notice :=
  (Program.run Backend.memory r.run t).sent

theorem sent_bind (r : Request α) (f : α → Request β) (t : Tables) :
    (r >>= f).sent t =
      match r.exec t with
      | (.ok a, t') => r.sent t ++ (f a).sent t'
      | (.error _, _) => r.sent t := by
  simp only [sent, exec, Program.run_bind, Program.run_andThen]
  cases (Program.run Backend.memory r.run t).value with
  | ok a => rfl
  | error e => simp only [Program.run, List.append_nil]

/-- Every call and every notice of a request is of a kind. -/
def Within (C : {β : Type} → Call β → Prop) (N : Notice → Prop) (r : Request α) : Prop :=
  Program.Within C N r.run

variable {C : {β : Type} → Call β → Prop} {N : Notice → Prop}

theorem within_bind {r : Request α} {f : α → Request β} (hr : r.Within C N)
    (hf : ∀ a, (f a).Within C N) : (r >>= f).Within C N := by
  rw [Within, Program.run_bind]
  refine Program.within_andThen hr ?_
  intro x
  cases x with
  | ok a => exact hf a
  | error e => trivial

theorem within_pure (a : α) : (pure a : Request α).Within C N := trivial

theorem within_throw (e : Failure) : (throw e : Request α).Within C N := trivial

theorem within_ofCall {c : Call α} (h : C c) : (Request.ofCall c).Within C N :=
  ⟨h, fun _ => trivial⟩

theorem within_send {n : Notice} (h : N n) : (Request.send n).Within C N :=
  ⟨h, fun _ => trivial⟩

theorem within_accept (checked : Except Invalid α) : (Request.accept checked).Within C N := trivial

theorem within_liftExcept (x : Except Failure α) : (liftM x : Request α).Within C N := trivial

theorem within_orFail (found : Option α) (e : Failure) : (Request.orFail found e).Within C N := by
  cases found <;> trivial

end Request

/-! ## What operations may do -/

namespace Call

variable {β : Type}

/-- The call looks something up and writes nothing. -/
def IsLook : Call β → Prop
  | .insertAccount _ => False
  | .saveAccount _ _ _ => False
  | .insertDevice _ => False
  | .deleteDevice _ _ => False
  | .deleteDevicesOf _ => False
  | .recordSecurity _ => False
  | .recordCharge _ => False
  | .insertKey _ _ => False
  | .modifyKey _ _ _ _ _ => False
  | _ => True

theorem IsLook.looks {c : Call β} (h : c.IsLook) : c.Looks := by
  intro t
  cases c <;> first | rfl | exact h.elim

end Call

namespace Operation

variable {α β : Type}

/-- The calls by which an operation may write. -/
def Writes (op : Operation α) (c : Call β) : Prop :=
  match op, c with
  | .signUp _ _, .insertAccount _ => True
  | .signIn _ _ _, .recordSecurity e => e.IsSighting
  | .signIn _ _ _, .insertDevice _ => True
  | .forgotPassword _, .saveAccount _ events _ => events = []
  | .resetPassword _ _, .saveAccount _ events _ => events = [.passwordReset]
  | .revokeDevice _ _, .deleteDevice _ _ => True
  | .revokeAllDevices _, .deleteDevicesOf _ => True
  | .updateAccount _ update, .saveAccount _ events _ => ∃ a, events = (update.apply a).events
  | .createKey _ _, .insertKey _ _ => True
  | .updateKey _ _ _, .modifyKey _ _ _ security _ => security = none
  | .deleteKey _ id, .modifyKey _ _ _ security _ => security = some (.keyDeleted id)
  | _, _ => False

/-- The call looks something up, or the operation may write by it. -/
def MayCall (op : Operation α) (c : Call β) : Prop :=
  c.IsLook ∨ op.Writes c

theorem MayCall.sparesAccounts {op : Operation α} (hop : ¬op.WritesAccounts) {c : Call β}
    (h : op.MayCall c) : c.SparesAccounts := by
  rcases h with hlook | hwrites
  · cases c <;> trivial
  · cases op <;> first | exact (hop trivial).elim | (cases c <;> trivial)

/-- The notices that an operation may send. -/
def MaySend (op : Operation α) (n : Notice) : Prop :=
  match op, n.subject with
  | .signUp _ _, .accountCreated => True
  | .signIn _ _ _, .unrecognizedDevice _ => True
  | .forgotPassword _, .forgottenPassword => True
  | .resetPassword _ _, .passwordReset => True
  | .createKey _ _, .keyCreated _ => True
  | .deleteKey _ _, .keyDeleted _ => True
  | _, _ => False

/-- The operation neither writes nor tells anybody. -/
def Reads : Operation α → Prop
  | .refresh _ => True
  | .authenticateBearer _ => True
  | .activeDevices _ => True
  | .findAccount _ => True
  | .securityPage _ _ => True
  | .chargePage _ _ => True
  | .authenticateKey _ => True
  | .countKeys _ => True
  | .listKeys _ => True
  | .findKey _ _ => True
  | .keyPage _ _ _ => True
  | _ => False

end Operation

open Request

section Bounds

variable {C : {β : Type} → Call β → Prop} {N : Notice → Prop}

namespace Origin

/-- The check of an origin looks at the trail, records the origin and may tell the owner. -/
theorem within_verify (hlook : ∀ {β : Type} {c : Call β}, c.IsLook → C c)
    (hrecord : ∀ {e}, e.IsSighting → C (.recordSecurity e)) (account : Account)
    (f : Fingerprint) (now : Instant) (hsend : ∀ entry, N ⟨account, .unrecognizedDevice entry⟩) :
    (verify account f now).Within C N := by
  rw [verify_eq]
  refine ⟨hlook trivial, ?_⟩
  intro trail
  rcases trail with fault | trail
  · trivial
  · refine ⟨hrecord (isSighting_entry ..), ?_⟩
    intro entry
    rcases entry with fault | entry
    · trivial
    · dsimp only
      split
      · trivial
      · exact ⟨hsend entry, fun _ => trivial⟩

end Origin

namespace Session

theorem within_findAccount (hlook : ∀ {β : Type} {c : Call β}, c.IsLook → C c)
    (username : String) : (findAccount username).Within C N :=
  within_bind (within_ofCall (hlook trivial)) fun _ => within_orFail _ _

end Session

end Bounds

namespace Service

variable (s : Service) (given : Given)

theorem within_signUp (username password : String) :
    (s.request given (.signUp username password)).Within
      (Operation.signUp username password).MayCall
      (Operation.signUp username password).MaySend := by
  refine within_bind (within_accept _) ?_
  intro _
  refine within_bind (within_accept _) ?_
  intro _
  refine within_bind (within_ofCall (.inl trivial)) ?_
  intro taken
  cases taken with
  | true => exact within_throw _
  | false =>
    refine within_bind (within_liftExcept _) ?_
    intro digest
    refine within_bind (within_ofCall (.inr trivial)) ?_
    intro inserted
    refine within_bind (within_orFail _ _) ?_
    intro account
    exact within_bind (within_send trivial) fun _ => within_pure _

theorem within_signIn (username password : String) (fingerprint : Option Fingerprint) :
    (s.request given (.signIn username password fingerprint)).Within
      (Operation.signIn username password fingerprint).MayCall
      (Operation.signIn username password fingerprint).MaySend := by
  refine within_bind (within_ofCall (.inl trivial)) ?_
  intro found
  cases found with
  | none =>
    refine within_bind (within_liftExcept _) ?_
    intro digest
    refine within_bind (within_liftExcept _) ?_
    intro fitting
    exact within_throw _
  | some account =>
    refine within_bind (within_liftExcept _) ?_
    intro fitting
    cases fitting with
    | false => exact within_throw _
    | true =>
      cases fingerprint with
      | none => exact within_bind (within_ofCall (.inr trivial)) fun _ => within_pure _
      | some f =>
        refine within_bind (Program.within_andThen ?_ fun _ => trivial) ?_
        · exact Origin.within_verify .inl .inr account f given.now
            fun _ => trivial
        · intro verdict
          exact within_bind (within_ofCall (.inr trivial)) fun _ => within_pure _

theorem within_resetPassword (password : String) (token : Uuid) :
    (s.request given (.resetPassword password token)).Within
      (Operation.resetPassword password token).MayCall
      (Operation.resetPassword password token).MaySend := by
  refine within_bind (within_ofCall (.inl trivial)) ?_
  intro found
  refine within_bind (within_orFail _ _) ?_
  intro account
  split
  · exact within_throw _
  · refine within_bind (within_accept _) ?_
    intro _
    refine within_bind (within_liftExcept _) ?_
    intro digest
    refine within_bind (within_ofCall (.inr rfl)) ?_
    intro account
    exact within_bind (within_send trivial) fun _ => within_pure _

theorem within_createKey (username : String) (request : KeyRequest) :
    (s.request given (.createKey username request)).Within
      (Operation.createKey username request).MayCall
      (Operation.createKey username request).MaySend := by
  refine within_bind (within_accept _) ?_
  intro _
  refine within_bind (within_accept _) ?_
  intro _
  refine within_bind (Session.within_findAccount .inl username) ?_
  intro account
  refine within_bind (within_liftExcept _) ?_
  intro digest
  refine within_bind (within_ofCall (.inr trivial)) ?_
  intro inserted
  refine within_bind (within_orFail _ _) ?_
  intro key
  exact within_bind (within_send trivial) fun _ => within_pure _

/-- An operation makes the calls and sends the notices that are listed for it, and no others. -/
theorem within_request {α : Type} (op : Operation α) :
    (s.request given op).Within op.MayCall op.MaySend := by
  have hfind {op : Operation α} (username : String) :
      (Session.findAccount username).Within op.MayCall op.MaySend :=
    Session.within_findAccount .inl username
  cases op with
  | signUp username password => exact s.within_signUp given username password
  | signIn username password fingerprint =>
    exact s.within_signIn given username password fingerprint
  | refresh token =>
    refine within_bind (within_ofCall (.inl trivial)) ?_
    intro found
    refine within_bind (within_orFail _ _) ?_
    intro device
    refine within_bind (within_ofCall (.inl trivial)) ?_
    intro found
    exact within_bind (within_orFail _ _) fun _ => within_pure _
  | authenticateBearer token =>
    show (Session.authenticateBearer _ _ _).Within _ _
    unfold Session.authenticateBearer
    split
    · exact within_pure _
    · exact within_throw _
  | forgotPassword username =>
    refine within_bind (hfind username) ?_
    intro account
    refine within_bind (within_ofCall (.inr rfl)) ?_
    intro account
    exact within_bind (within_send trivial) fun _ => within_pure _
  | resetPassword password token => exact s.within_resetPassword given password token
  | activeDevices username =>
    refine within_bind (hfind username) ?_
    intro account
    exact within_bind (within_ofCall (.inl trivial)) fun _ => within_pure _
  | revokeDevice username token =>
    refine within_bind (hfind username) ?_
    intro account
    refine within_bind (within_ofCall (.inr trivial)) ?_
    intro removed
    cases removed with
    | true => exact within_pure _
    | false => exact within_throw _
  | revokeAllDevices username =>
    exact within_bind (hfind username) fun _ => within_ofCall (.inr trivial)
  | findAccount username => exact hfind username
  | updateAccount username update =>
    refine within_bind (hfind username) ?_
    intro account
    dsimp only
    split
    · exact within_pure _
    · exact within_ofCall (.inr ⟨account, rfl⟩)
  | securityPage username page =>
    exact within_bind (hfind username) fun _ => within_ofCall (.inl trivial)
  | chargePage username page =>
    exact within_bind (hfind username) fun _ => within_ofCall (.inl trivial)
  | createKey username request => exact s.within_createKey given username request
  | updateKey username id update =>
    refine within_bind (within_accept _) ?_
    intro _
    refine within_bind (hfind username) ?_
    intro account
    refine within_bind (within_ofCall (.inr rfl)) ?_
    intro modified
    exact within_bind (within_orFail _ _) fun _ => within_pure _
  | deleteKey username id =>
    refine within_bind (hfind username) ?_
    intro account
    refine within_bind (within_ofCall (.inr rfl)) ?_
    intro modified
    refine within_bind (within_orFail _ _) ?_
    intro change
    exact within_send trivial
  | authenticateKey raw =>
    show (Keyring.authenticate _ _).Within _ _
    unfold Keyring.authenticate
    split
    · exact within_pure _
    · exact within_bind (within_ofCall (.inl trivial)) fun _ => within_pure _
  | countKeys username =>
    exact within_bind (hfind username) fun _ => within_ofCall (.inl trivial)
  | listKeys username =>
    exact within_bind (hfind username) fun _ => within_ofCall (.inl trivial)
  | findKey username id =>
    refine within_bind (hfind username) ?_
    intro account
    exact within_bind (within_ofCall (.inl trivial)) fun _ => within_orFail _ _
  | keyPage username id page =>
    refine within_bind (hfind username) ?_
    intro account
    refine within_bind (within_bind (within_ofCall (.inl trivial)) fun _ => within_orFail _ _) ?_
    intro key
    exact within_ofCall (.inl trivial)

/-- An operation that only reads makes no call but looks, and tells nobody. -/
theorem within_of_reads {α : Type} {op : Operation α} (hop : op.Reads) :
    (s.request given op).Within Call.IsLook fun _ => False := by
  refine Program.Within.mono (s.within_request given op) ?_ ?_
  · intro β c hc
    refine hc.resolve_right ?_
    intro hwrites
    cases op <;> first | exact hop.elim | exact hwrites.elim
  · intro n hn
    cases op <;> first | exact hop.elim | exact hn.elim

/-! ## Runs -/

/-- The notices that an operation sends. -/
def sent (x : Asked) (t : Tables) : List Notice :=
  (s.request x.given x.op).sent t

/-- The notices of a history, in order. -/
def notices (t : Tables) : List Asked → List Notice
  | [] => []
  | x :: h => s.sent x t ++ notices (s.perform x t).2 h

theorem notices_append (t : Tables) (h h' : List Asked) :
    s.notices t (h ++ h') = s.notices t h ++ s.notices (s.after t h) h' := by
  induction h generalizing t with
  | nil => rfl
  | cons x h ih =>
    have hrest := congrArg (s.sent x t ++ ·) (ih (s.perform x t).2)
    exact hrest.trans (List.append_assoc ..).symm

theorem maySend_of_mem_sent {x : Asked} {t : Tables} {n : Notice} (hn : n ∈ s.sent x t) :
    x.op.MaySend n :=
  Program.Within.of_mem_sent (s.within_request x.given x.op) hn

/-- What all calls of an operation keep, the operation keeps. -/
theorem perform_of_mayCall {I : Tables → Prop} (x : Asked)
    (keeps : ∀ {β : Type} (c : Call β) (t : Tables), x.op.MayCall c → I t → I (c.apply t).2)
    {t : Tables} (ht : I t) : I (s.perform x t).2 :=
  exec_of_makes keeps (Program.Within.makes (s.within_request x.given x.op)) ht

end Service

end Latchkey
