import Latchkey.Proofs.Interleaving
import Latchkey.Proofs.Store.Accounts

/-!
# Guarantees

A request that shares tables with others finds them changed when it makes its next call. It relies
on little: accounts and keys are never taken away, an account keeps its number and its name, and a
key keeps its number and its account. In return it guarantees something of every call that it
makes, on whatever tables it meets. A guarantee is established part by part, from the last part to
the first, and it carries an invariant of the calls over to runs in one piece and to pools.
-/

namespace Latchkey

/-! ## What requests rely on -/

/-- Every account is still there under its number and its name, every key under its number and for
its account. -/
structure Tables.Grows (t t' : Tables) : Prop where
  accounts : ∀ a, t.HasRowOf a → t'.HasRowOf a
  keys : ∀ k ∈ t.keys, ∃ l ∈ t'.keys, l.id = k.id ∧ l.account = k.account

namespace Tables.Grows

variable {t t' t'' : Tables}

theorem refl (t : Tables) : t.Grows t where
  accounts := fun _ ha => ha
  keys := fun k hk => ⟨k, hk, rfl, rfl⟩

theorem trans (h : t.Grows t') (h' : t'.Grows t'') : t.Grows t'' where
  accounts := fun a ha => h'.accounts a (h.accounts a ha)
  keys := by
    intro k hk
    obtain ⟨l, hl, hid, haccount⟩ := h.keys k hk
    obtain ⟨m, hm, hid', haccount'⟩ := h'.keys l hl
    exact ⟨m, hm, hid'.trans hid, haccount'.trans haccount⟩

/-- A name stays taken. -/
theorem isTaken (h : t.Grows t') {username : String} (htaken : t.isTaken username = true) :
    t'.isTaken username = true := by
  obtain ⟨a, ha, hname⟩ := List.any_eq_true.1 htaken
  obtain ⟨b, hb, -, hsame⟩ := h.accounts a ⟨a, ha, rfl, rfl⟩
  exact List.any_eq_true.2 ⟨b, hb, decide_eq_true (hsame.trans (of_decide_eq_true hname))⟩

end Tables.Grows

namespace Program

variable {α β : Type} (G : {β : Type} → Tables → Call β → Prop)

/-- Every call is guaranteed on the tables that it meets, and what the program comes to satisfies a
condition. -/
def Guarantees (Q : α → Tables → Prop) : Program α → Tables → Prop
  | .done a, t => Q a t
  | .call c next, t =>
    ∀ t', t.Grows t' → G t' c ∧ (next (c.apply t').1).Guarantees Q (c.apply t').2
  | .notify _ next, t => ∀ delivered, (next delivered).Guarantees Q t

variable {G} {Q Q' : α → Tables → Prop} {t t' : Tables}

theorem guarantees_andThen {R : β → Tables → Prop} {p : Program α} {f : α → Program β}
    (h : p.Guarantees G (fun a t' => (f a).Guarantees G R t') t) :
    (p.andThen f).Guarantees G R t := by
  induction p generalizing t with
  | done a => exact h
  | call c next ih =>
    intro t' hgrows
    obtain ⟨hcall, hnext⟩ := h t' hgrows
    exact ⟨hcall, ih _ hnext⟩
  | notify n next ih => exact fun delivered => ih delivered (h delivered)

theorem Guarantees.mono {H : {β : Type} → Tables → Call β → Prop} {p : Program α}
    (h : p.Guarantees G Q t) (hcalls : ∀ {β : Type} {c : Call β} {t : Tables}, G t c → H t c)
    (hpost : ∀ a t, Q a t → Q' a t) : p.Guarantees H Q' t := by
  induction p generalizing t with
  | done a => exact hpost a t h
  | call c next ih =>
    intro t' hgrows
    obtain ⟨hcall, hnext⟩ := h t' hgrows
    exact ⟨hcalls hcall, ih _ hnext⟩
  | notify n next ih => exact fun delivered => ih delivered (h delivered)

/-- What others do meanwhile takes no guarantee away. -/
theorem Guarantees.grow {p : Program α} (h : p.Guarantees G (fun _ _ => True) t)
    (hgrows : t.Grows t') : p.Guarantees G (fun _ _ => True) t' := by
  induction p generalizing t with
  | done a => trivial
  | call c next ih => exact fun t'' hgrows' => h t'' (hgrows.trans hgrows')
  | notify n next ih => exact fun delivered => ih delivered (h delivered) hgrows

theorem Guarantees.settle {p : Program α} (h : p.Guarantees G Q t) :
    p.settle.Guarantees G Q t := by
  induction p with
  | done a => exact h
  | call c next ih => exact h
  | notify n next ih => exact ih true (h true)

/-! ## From calls to runs -/

/-- An invariant that guaranteed calls keep, and under which they let tables only grow. -/
def Keeps (G : {β : Type} → Tables → Call β → Prop) (I : Tables → Prop) : Prop :=
  ∀ {β : Type} (c : Call β) (t : Tables), I t → G t c → I (c.apply t).2 ∧ t.Grows (c.apply t).2

variable {I : Tables → Prop} (hkeeps : Keeps G I)
include hkeeps

theorem Guarantees.run {p : Program α} (h : p.Guarantees G Q t) (ht : I t) :
    I (p.run Backend.memory t).state ∧ t.Grows (p.run Backend.memory t).state ∧
      Q (p.run Backend.memory t).value (p.run Backend.memory t).state := by
  induction p generalizing t with
  | done a => exact ⟨ht, .refl t, h⟩
  | call c next ih =>
    obtain ⟨hcall, hnext⟩ := h t (.refl t)
    obtain ⟨hinv, hgrows⟩ := hkeeps c t ht hcall
    obtain ⟨hstate, hrest, hvalue⟩ := ih _ hnext hinv
    exact ⟨hstate, hgrows.trans hrest, hvalue⟩
  | notify n next ih => exact ih true (h true) ht

theorem Guarantees.step {p : Program α} (h : p.Guarantees G Q t) (ht : I t) :
    I (p.step t).2 ∧ t.Grows (p.step t).2 ∧ (p.step t).1.Guarantees G Q (p.step t).2 := by
  cases p with
  | done a => exact ⟨ht, .refl t, h⟩
  | call c next =>
    obtain ⟨hcall, hnext⟩ := h t (.refl t)
    obtain ⟨hinv, hgrows⟩ := hkeeps c t ht hcall
    exact ⟨hinv, hgrows, hnext.settle⟩
  | notify n next => exact ⟨ht, .refl t, (h true).settle⟩

end Program

namespace Pool

variable {κ : Type*} {α : Type} {G : {β : Type} → Tables → Call β → Prop} {I : Tables → Prop}

/-- The tables satisfy an invariant and no program has broken its guarantee. -/
structure Holds (G : {β : Type} → Tables → Call β → Prop) (I : Tables → Prop) (p : Pool κ α) :
    Prop where
  tables : I p.tables
  threads : ∀ k q, some (k, q) ∈ p.threads → q.Guarantees G (fun _ _ => True) p.tables

theorem Holds.turn (hkeeps : Program.Keeps G I) {p p' : Pool κ α} (h : p.Holds G I) {i : Nat}
    (hturn : p.Turn i p') : p'.Holds G I ∧ p.tables.Grows p'.tables := by
  cases hturn with
  | idle hthread => exact ⟨h, .refl _⟩
  | ended k q a t hthread hstep =>
    have hguarantees := (h.threads k q (mem_threads hthread)).step hkeeps h.tables
    rw [hstep] at hguarantees
    obtain ⟨htables, hgrows, -⟩ := hguarantees
    refine ⟨⟨htables, ?_⟩, hgrows⟩
    intro k' q' hmem
    rcases List.mem_or_eq_of_mem_set hmem with hmem | heq
    · exact (h.threads k' q' hmem).grow hgrows
    · cases heq
  | pending k q q' t hthread hstep hleft =>
    have hguarantees := (h.threads k q (mem_threads hthread)).step hkeeps h.tables
    rw [hstep] at hguarantees
    obtain ⟨htables, hgrows, hrest⟩ := hguarantees
    refine ⟨⟨htables, ?_⟩, hgrows⟩
    intro k' q'' hmem
    rcases List.mem_or_eq_of_mem_set hmem with hmem | heq
    · exact (h.threads k' q'' hmem).grow hgrows
    · cases heq
      exact hrest

theorem Holds.run (hkeeps : Program.Keeps G I) {p : Pool κ α} (h : p.Holds G I)
    (schedule : List Nat) :
    (p.run schedule).Holds G I ∧ p.tables.Grows (p.run schedule).tables := by
  induction schedule generalizing p with
  | nil => exact ⟨h, .refl _⟩
  | cons i schedule ih =>
    obtain ⟨hstep, hgrows⟩ := h.turn hkeeps (p.turn_step i)
    obtain ⟨hrun, hrest⟩ := ih hstep
    exact ⟨hrun, hgrows.trans hrest⟩

/-- A pool of programs with a guarantee keeps what their calls keep. -/
theorem holds_run (hkeeps : Program.Keeps G I) {program : κ → Program α} {labels : List κ}
    (hprograms : ∀ k ∈ labels, ∀ t, (program k).Guarantees G (fun _ _ => True) t) {t : Tables}
    (ht : I t) (schedule : List Nat) :
    I ((start program t labels).run schedule).tables ∧
      t.Grows ((start program t labels).run schedule).tables := by
  have hstart : (start program t labels).Holds G I := by
    refine ⟨ht, ?_⟩
    intro k q hmem
    obtain ⟨hk, rfl⟩ := mem_threads_start program hmem
    exact hprograms k hk t
  obtain ⟨hrun, hgrows⟩ := hstart.run hkeeps schedule
  exact ⟨hrun.tables, hgrows⟩

end Pool

/-! ## Part by part -/

namespace Request

variable {α β : Type} (G : {β : Type} → Tables → Call β → Prop)

/-- Every call is guaranteed on the tables that it meets, and what the request answers, if it does
not fail, satisfies a condition. -/
def Guarantees (Q : α → Tables → Prop) (r : Request α) (t : Tables) : Prop :=
  Program.Guarantees G (fun answer t' => ∀ a, answer = .ok a → Q a t') r.run t

variable {G} {Q : α → Tables → Prop} {R : β → Tables → Prop} {t : Tables}

theorem guarantees_bind {r : Request α} {f : α → Request β}
    (h : r.Guarantees G (fun a t' => (f a).Guarantees G R t') t) :
    (r >>= f).Guarantees G R t := by
  rw [Guarantees, Program.run_bind]
  refine Program.guarantees_andThen (Program.Guarantees.mono h (fun hcall => hcall) ?_)
  intro answer t' hpost
  cases answer with
  | ok a => exact hpost a rfl
  | error e => exact fun _ heq => nomatch heq

theorem guarantees_pure {a : α} (h : Q a t) : (pure a : Request α).Guarantees G Q t := by
  rintro _ ⟨⟩
  exact h

theorem guarantees_throw (e : Failure) : (throw e : Request α).Guarantees G Q t :=
  fun _ heq => nomatch heq

theorem guarantees_ofCall {c : Call α}
    (h : ∀ t', t.Grows t' → G t' c ∧ ∀ a, (c.apply t').1 = .ok a → Q a (c.apply t').2) :
    (Request.ofCall c).Guarantees G Q t := by
  intro t' hgrows
  obtain ⟨hcall, hpost⟩ := h t' hgrows
  refine ⟨hcall, ?_⟩
  intro a heq
  refine hpost a ?_
  cases hanswer : (c.apply t').1 with
  | ok b =>
    rw [hanswer] at heq
    cases heq
    rfl
  | error fault =>
    rw [hanswer] at heq
    cases heq

theorem guarantees_send {Q : Unit → Tables → Prop} (n : Notice) (h : Q () t) :
    (Request.send n).Guarantees G Q t :=
  fun _ _ _ => h

theorem guarantees_accept {checked : Except Invalid α} (h : ∀ a, checked = .ok a → Q a t) :
    (Request.accept checked).Guarantees G Q t := by
  intro a heq
  cases checked with
  | ok b =>
    cases heq
    exact h a rfl
  | error e => cases heq

theorem guarantees_liftExcept {x : Except Failure α} (h : ∀ a, x = .ok a → Q a t) :
    (liftM x : Request α).Guarantees G Q t :=
  h

theorem guarantees_orFail {found : Option α} {e : Failure} (h : ∀ a, found = some a → Q a t) :
    (Request.orFail found e).Guarantees G Q t := by
  cases found with
  | some a => exact guarantees_pure (h a rfl)
  | none => exact guarantees_throw e

end Request

end Latchkey
