import Mathlib.Data.List.Perm.Basic
import Latchkey.Proofs.Execution

/-!
# Programs interleaved

Several programs share tables in memory and take turns, one store call a turn. The log has what came
of each program that is over, in the order of their last turns.
-/

namespace Latchkey

namespace Program

variable {α : Type}

/-- The program from its next call on. Notices are delivered. -/
def settle : Program α → Program α
  | .done a => .done a
  | .call c next => .call c next
  | .notify _ next => (next true).settle

/-- One call and the notices that follow it. -/
def step : Program α → Tables → Program α × Tables
  | .call c next, t => ((next (c.apply t).1).settle, (c.apply t).2)
  | p, t => (p.settle, t)

theorem run_settle (p : Program α) (t : Tables) :
    (p.settle.run Backend.memory t).value = (p.run Backend.memory t).value ∧
      (p.settle.run Backend.memory t).state = (p.run Backend.memory t).state := by
  induction p with
  | done a => exact ⟨rfl, rfl⟩
  | call c next ih => exact ⟨rfl, rfl⟩
  | notify n next ih => exact ih true

/-- A program that is run after one turn comes to what it comes to in one piece. -/
theorem run_step (p : Program α) (t : Tables) :
    ((p.step t).1.run Backend.memory (p.step t).2).value = (p.run Backend.memory t).value ∧
      ((p.step t).1.run Backend.memory (p.step t).2).state = (p.run Backend.memory t).state := by
  cases p with
  | done a => exact ⟨rfl, rfl⟩
  | call c next => exact run_settle (next (c.apply t).1) (c.apply t).2
  | notify n next => exact run_settle (next true) t

/-- A program whose first turn is its last is over after one call. -/
theorem run_of_step_eq_done {p : Program α} {t t' : Tables} {a : α}
    (h : p.step t = (.done a, t')) :
    (p.run Backend.memory t).value = a ∧ (p.run Backend.memory t).state = t' := by
  obtain ⟨hvalue, hstate⟩ := p.run_step t
  rw [h] at hvalue hstate
  exact ⟨hvalue.symm, hstate.symm⟩

end Program

/-- Programs that share tables, each under a label, and the log of those that are over. -/
structure Pool (κ : Type*) (α : Type) where
  tables : Tables
  threads : List (Option (κ × Program α))
  log : List (κ × α) := []

namespace Pool

variable {κ : Type*} {α : Type} (program : κ → Program α)

/-- All programs before their first turns. -/
def start (t : Tables) (labels : List κ) : Pool κ α where
  tables := t
  threads := labels.map fun k => some (k, program k)

/-- The program at a place, with its label, while it is not over. -/
def thread? (p : Pool κ α) (i : Nat) : Option (κ × Program α) :=
  p.threads[i]?.join

/-- The turn of one program. -/
def step (p : Pool κ α) (i : Nat) : Pool κ α :=
  match p.thread? i with
  | none => p
  | some (k, q) =>
    match q.step p.tables with
    | (.done a, t) => { tables := t, threads := p.threads.set i none, log := p.log ++ [(k, a)] }
    | (q, t) => { p with tables := t, threads := p.threads.set i (some (k, q)) }

/-- Turns as a schedule has them. -/
def run (p : Pool κ α) (schedule : List Nat) : Pool κ α :=
  schedule.foldl step p

/-- No program is left. -/
def isOver (p : Pool κ α) : Bool :=
  p.threads.all Option.isNone

/-- The labels of the programs that are left. -/
def waiting (p : Pool κ α) : List κ :=
  p.threads.filterMap fun thread => thread.map (·.1)

variable {p : Pool κ α} {i : Nat} {k : κ} {q q' : Program α} {t : Tables} {a : α}

theorem mem_threads_start {labels : List κ}
    (h : some (k, q) ∈ (start program t labels).threads) : k ∈ labels ∧ q = program k := by
  obtain ⟨k', hk', heq⟩ := List.mem_map.1 h
  cases heq
  exact ⟨hk', rfl⟩

/-! ## One turn -/

theorem mem_threads (h : p.thread? i = some (k, q)) : some (k, q) ∈ p.threads :=
  List.mem_of_getElem? (Option.join_eq_some_iff.1 h)

theorem step_of_idle (h : p.thread? i = none) : p.step i = p := by
  simp only [step, h]

theorem step_of_done (h : p.thread? i = some (k, q))
    (hstep : q.step p.tables = (.done a, t)) :
    p.step i = { tables := t, threads := p.threads.set i none, log := p.log ++ [(k, a)] } := by
  simp only [step, h, hstep]

theorem step_of_pending (h : p.thread? i = some (k, q))
    (hstep : q.step p.tables = (q', t)) (hpending : ∀ a, q' ≠ .done a) :
    p.step i = { p with tables := t, threads := p.threads.set i (some (k, q')) } := by
  simp only [step, h, hstep]

/-- What a turn does: nothing where no program is left, or else the program is over and in the log,
or it goes on. -/
inductive Turn (p : Pool κ α) (i : Nat) : Pool κ α → Prop
  | idle (thread : p.thread? i = none) : p.Turn i p
  | ended (k : κ) (q : Program α) (a : α) (t : Tables) (thread : p.thread? i = some (k, q))
      (step : q.step p.tables = (.done a, t)) :
      p.Turn i { tables := t, threads := p.threads.set i none, log := p.log ++ [(k, a)] }
  | pending (k : κ) (q q' : Program α) (t : Tables) (thread : p.thread? i = some (k, q))
      (step : q.step p.tables = (q', t)) (left : ∀ a, q' ≠ .done a) :
      p.Turn i { p with tables := t, threads := p.threads.set i (some (k, q')) }

theorem turn_step (p : Pool κ α) (i : Nat) : p.Turn i (p.step i) := by
  cases hthread : p.thread? i with
  | none =>
    rw [step_of_idle hthread]
    exact .idle hthread
  | some thread =>
    obtain ⟨k, q⟩ := thread
    have hstep : q.step p.tables = ((q.step p.tables).1, (q.step p.tables).2) := rfl
    by_cases hdone : ∃ a, (q.step p.tables).1 = .done a
    · obtain ⟨a, ha⟩ := hdone
      rw [ha] at hstep
      rw [step_of_done hthread hstep]
      exact .ended k q a _ hthread hstep
    · have hleft : ∀ a, (q.step p.tables).1 ≠ .done a := fun a ha => hdone ⟨a, ha⟩
      rw [step_of_pending hthread hstep hleft]
      exact .pending k q _ _ hthread hstep hleft

theorem Turn.eq_step {p' : Pool κ α} (h : p.Turn i p') : p' = p.step i := by
  cases h with
  | idle hthread => exact (step_of_idle hthread).symm
  | ended k q a t hthread hstep => exact (step_of_done hthread hstep).symm
  | pending k q q' t hthread hstep hleft => exact (step_of_pending hthread hstep hleft).symm

/-- Every program after a turn was there before, or it has had the turn and goes on. -/
theorem Turn.mem_threads {p' : Pool κ α} (h : p.Turn i p') (hmem : some (k, q) ∈ p'.threads) :
    some (k, q) ∈ p.threads ∨
      ∃ q₀, p.thread? i = some (k, q₀) ∧ (q₀.step p.tables).1 = q ∧ ∀ a, q ≠ .done a := by
  cases h with
  | idle hthread => exact .inl hmem
  | ended k' q' a t hthread hstep =>
    rcases List.mem_or_eq_of_mem_set hmem with hmem | heq
    · exact .inl hmem
    · cases heq
  | pending k' q' q'' t hthread hstep hleft =>
    rcases List.mem_or_eq_of_mem_set hmem with hmem | heq
    · exact .inl hmem
    · cases heq
      exact .inr ⟨q', hthread, by rw [hstep], hleft⟩

theorem Turn.mem_log {p' : Pool κ α} (h : p.Turn i p') {e : κ × α} (he : e ∈ p.log) :
    e ∈ p'.log := by
  cases h with
  | idle hthread => exact he
  | ended k q a t hthread hstep => exact List.mem_append_left _ he
  | pending k q q' t hthread hstep hleft => exact he

theorem run_append (schedule schedule' : List Nat) :
    p.run (schedule ++ schedule') = (p.run schedule).run schedule' :=
  List.foldl_append

/-! ## Every program is waiting or in the log -/

theorem waiting_set (h : p.thread? i = some (k, q)) (thread : Option (κ × Program α)) :
    ∃ others, p.waiting.Perm (k :: others) ∧
      ((p.threads.set i thread).filterMap fun thread => thread.map (·.1)).Perm
        ((thread.map (·.1)).toList ++ others) := by
  obtain ⟨hlt, hget⟩ := List.getElem?_eq_some_iff.1 (Option.join_eq_some_iff.1 h)
  refine ⟨(p.threads.eraseIdx i).filterMap fun thread => thread.map (·.1), ?_, ?_⟩
  · have hperm := (List.getElem_cons_eraseIdx_perm hlt).symm.filterMap
      fun thread : Option (κ × Program α) => thread.map (·.1)
    rw [hget] at hperm
    exact hperm
  · have hperm := (List.set_perm_cons_eraseIdx hlt thread).filterMap
      fun thread : Option (κ × Program α) => thread.map (·.1)
    refine hperm.trans ?_
    cases thread <;> exact List.Perm.refl _

theorem Turn.perm {p' : Pool κ α} (h : p.Turn i p') :
    (p'.log.map (·.1) ++ p'.waiting).Perm (p.log.map (·.1) ++ p.waiting) := by
  cases h with
  | idle hthread => exact List.Perm.refl _
  | ended k q a t hthread hstep =>
    obtain ⟨others, hbefore, hafter⟩ := waiting_set hthread none
    rw [List.map_append, List.append_assoc]
    exact List.Perm.append_left _ ((hafter.cons k).trans hbefore.symm)
  | pending k q q' t hthread hstep hleft =>
    obtain ⟨others, hbefore, hafter⟩ := waiting_set hthread (some (k, q'))
    exact List.Perm.append_left _ (hafter.trans hbefore.symm)

theorem perm_run (p : Pool κ α) (schedule : List Nat) :
    ((p.run schedule).log.map (·.1) ++ (p.run schedule).waiting).Perm
      (p.log.map (·.1) ++ p.waiting) := by
  induction schedule generalizing p with
  | nil => exact List.Perm.refl _
  | cons i schedule ih => exact (ih (p.step i)).trans (p.turn_step i).perm

/-- When all programs are over, the log has each of them once. -/
theorem perm_log (t : Tables) (labels : List κ) (schedule : List Nat)
    (hover : ((start program t labels).run schedule).isOver = true) :
    (((start program t labels).run schedule).log.map (·.1)).Perm labels := by
  have hperm := (start program t labels).perm_run schedule
  have hwaiting : ((start program t labels).run schedule).waiting = [] := by
    refine List.filterMap_eq_nil_iff.2 ?_
    intro thread hthread
    rw [Option.isNone_iff_eq_none.1 (List.all_eq_true.1 hover thread hthread)]
    rfl
  have hlabels : (start program t labels).waiting = labels := by
    simp [waiting, start, List.filterMap_map]
  rw [hwaiting, hlabels, List.append_nil] at hperm
  exact hperm

end Pool

/-! ## One after the other -/

variable {κ : Type*} {α : Type} (program : κ → Program α)

/-- Programs in one piece each, one after the other: what comes of them and the tables after it. -/
def serial (t : Tables) : List κ → List (κ × α) × Tables
  | [] => ([], t)
  | k :: ks =>
    let first := (program k).run Backend.memory t
    let rest := serial first.state ks
    ((k, first.value) :: rest.1, rest.2)

theorem serial_append (t : Tables) (ks ks' : List κ) :
    serial program t (ks ++ ks') =
      ((serial program t ks).1 ++ (serial program (serial program t ks).2 ks').1,
        (serial program (serial program t ks).2 ks').2) := by
  induction ks generalizing t with
  | nil => rfl
  | cons k ks ih => simp only [List.cons_append, serial, ih]

/-- What every program in one piece keeps, programs one after the other keep. -/
theorem serial_induction {I : Tables → Prop}
    (keeps : ∀ k t, I t → I ((program k).run Backend.memory t).state) {t : Tables} (ht : I t)
    (ks : List κ) : I (serial program t ks).2 := by
  induction ks generalizing t with
  | nil => exact ht
  | cons k ks ih => exact ih (keeps k t ht)

end Latchkey
