import Latchkey.Proofs.Interleaving

/-!
# Programs that take effect at once

A program may look before it acts. If its first turn leaves the tables alone, and a second turn is
its last and does what the whole program would do at that moment, then it takes effect at once,
with its last turn. Programs that do so come to what they come to one after the other, in the
order of their last turns, as long as none of them takes away what another has seen.
-/

namespace Latchkey

namespace Program

variable {α β : Type}

/-- The program makes no call. -/
abbrev IsSilent (p : Program α) : Prop :=
  p.Makes fun _ => False

/-- The program makes one call at most. -/
def CallsOnce : Program α → Prop
  | .done _ => True
  | .call _ next => ∀ answer, (next answer).IsSilent
  | .notify _ next => ∀ delivered, (next delivered).CallsOnce

theorem IsSilent.settle {p : Program α} (h : p.IsSilent) : ∃ a, p.settle = .done a := by
  induction p with
  | done a => exact ⟨a, rfl⟩
  | call c next ih => exact h.1.elim
  | notify n next ih => exact ih true (h true)

theorem IsSilent.callsOnce {p : Program α} (h : p.IsSilent) : p.CallsOnce := by
  induction p with
  | done a => trivial
  | call c next ih => exact h.1.elim
  | notify n next ih => exact fun delivered => ih delivered (h delivered)

theorem CallsOnce.andThen {p : Program α} {f : α → Program β} (h : p.CallsOnce)
    (hf : ∀ a, (f a).IsSilent) : (p.andThen f).CallsOnce := by
  induction p with
  | done a => exact (hf a).callsOnce
  | call c next ih => exact fun answer => makes_andThen (h answer) hf
  | notify n next ih => exact fun delivered => ih delivered (h delivered)

/-- A program that calls once is over after a turn and has done what it does in one piece. -/
theorem CallsOnce.step_settle {p : Program α} (h : p.CallsOnce) (t : Tables) :
    p.settle.step t =
      (.done (p.run Backend.memory t).value, (p.run Backend.memory t).state) := by
  induction p with
  | done a => rfl
  | call c next ih =>
    obtain ⟨a, ha⟩ := (h (c.apply t).1).settle
    obtain ⟨hvalue, hstate⟩ := (next (c.apply t).1).run_settle (c.apply t).2
    rw [ha] at hvalue hstate
    show ((next (c.apply t).1).settle, (c.apply t).2) =
      (.done ((next (c.apply t).1).run Backend.memory (c.apply t).2).value,
        ((next (c.apply t).1).run Backend.memory (c.apply t).2).state)
    rw [ha, ← hvalue, ← hstate]
    rfl
  | notify n next ih => exact ih true (h true)

/-- The first turn leaves the tables alone. It is the last, or else the second turn is and does
what the program does in one piece, unless the tables have meanwhile lost what it has seen. In one
piece the program takes nothing away. -/
structure Atomic (Keeps : Tables → Tables → Prop) (p : Program α) : Prop where
  keeps : ∀ t, Keeps t (p.run Backend.memory t).state
  opens : ∀ t, ∃ q, p.step t = (q, t) ∧ ((∃ a, q = .done a) ∨ ∀ t', Keeps t t' →
    q.step t' = (.done (p.run Backend.memory t').value, (p.run Backend.memory t').state))

end Program

theorem length_serial {κ : Type*} {α : Type} (program : κ → Program α) (t : Tables) (ks : List κ) :
    (serial program t ks).1.length = ks.length := by
  induction ks generalizing t with
  | nil => rfl
  | cons k ks ih => simp only [serial, List.length_cons, ih]

namespace Pool

variable {κ : Type*} {α : Type} {program : κ → Program α} {Keeps : Tables → Tables → Prop}

/-- What came of the programs that are over came of them one after the other. Every other program is
at its beginning, or its next turn is its last. -/
structure InSeries (program : κ → Program α) (Keeps : Tables → Tables → Prop) (t₀ : Tables)
    (p : Pool κ α) : Prop where
  series : serial program t₀ (p.log.map (·.1)) = (p.log, p.tables)
  threads : ∀ k q, some (k, q) ∈ p.threads → (program k).Atomic Keeps ∧
    (q = program k ∨ ∀ t, Keeps p.tables t → q.step t =
      (.done ((program k).run Backend.memory t).value, ((program k).run Backend.memory t).state))

variable (refl : ∀ t, Keeps t t) {t₀ : Tables} {p p' : Pool κ α} {i : Nat}

include refl in
/-- A program that ends has come to what it comes to in one piece. -/
theorem InSeries.run_of_ended (h : p.InSeries program Keeps t₀) {k : κ} {q : Program α} {a : α}
    {t : Tables} (hthread : p.thread? i = some (k, q)) (hstep : q.step p.tables = (.done a, t)) :
    ((program k).run Backend.memory p.tables).value = a ∧
      ((program k).run Backend.memory p.tables).state = t := by
  rcases (h.threads k q (mem_threads hthread)).2 with rfl | hlast
  · exact Program.run_of_step_eq_done hstep
  · obtain ⟨hdone, hstate⟩ := Prod.mk.inj ((hlast p.tables (refl p.tables)).symm.trans hstep)
    exact ⟨Program.done.inj hdone, hstate⟩

include refl in
theorem InSeries.turn (trans : ∀ {t t' t''}, Keeps t t' → Keeps t' t'' → Keeps t t'')
    (h : p.InSeries program Keeps t₀) (hturn : p.Turn i p') : p'.InSeries program Keeps t₀ := by
  cases hturn with
  | idle hthread => exact h
  | ended k q a t hthread hstep =>
    obtain ⟨rfl, rfl⟩ := h.run_of_ended refl hthread hstep
    refine ⟨?_, ?_⟩
    · rw [List.map_append, serial_append, h.series]
      rfl
    · intro k' q' hmem
      rcases List.mem_or_eq_of_mem_set hmem with hmem | heq
      · obtain ⟨hatomic, hturns⟩ := h.threads k' q' hmem
        refine ⟨hatomic, hturns.imp_right fun hlast t ht => hlast t ?_⟩
        exact trans ((h.threads k q (mem_threads hthread)).1.keeps p.tables) ht
      · cases heq
  | pending k q q' t hthread hstep hleft =>
    obtain ⟨hatomic, hturns⟩ := h.threads k q (mem_threads hthread)
    rcases hturns with rfl | hlast
    · obtain ⟨q'', hopens, hnext⟩ := hatomic.opens p.tables
      obtain ⟨rfl, rfl⟩ := Prod.mk.inj (hopens.symm.trans hstep)
      refine ⟨h.series, ?_⟩
      intro k' q hmem
      rcases List.mem_or_eq_of_mem_set hmem with hmem | heq
      · exact h.threads k' q hmem
      · cases heq
        exact ⟨hatomic, .inr (hnext.resolve_left fun ⟨a, ha⟩ => hleft a ha)⟩
    · rw [hlast p.tables (refl p.tables)] at hstep
      exact absurd (Prod.mk.inj hstep).1.symm (hleft _)

/-- Programs that take effect at once come to what they come to one after the other, in the order of
their last turns. -/
theorem serial_of_atomic (refl : ∀ t, Keeps t t)
    (trans : ∀ {t t' t''}, Keeps t t' → Keeps t' t'' → Keeps t t'') {labels : List κ}
    (hatomic : ∀ k ∈ labels, (program k).Atomic Keeps) (t : Tables) (schedule : List Nat) :
    serial program t (((start program t labels).run schedule).log.map (·.1)) =
      (((start program t labels).run schedule).log,
        ((start program t labels).run schedule).tables) := by
  have hstart : (start program t labels).InSeries program Keeps t := by
    refine ⟨rfl, ?_⟩
    intro k q hmem
    obtain ⟨hk, hbegins⟩ := mem_threads_start program hmem
    exact ⟨hatomic k hk, .inl hbegins⟩
  suffices hrun : ∀ p : Pool κ α, p.InSeries program Keeps t →
      (p.run schedule).InSeries program Keeps t from (hrun _ hstart).series
  induction schedule with
  | nil => exact fun _ h => h
  | cons i schedule ih => exact fun p h => ih (p.step i) (h.turn refl trans (p.turn_step i))

end Pool

end Latchkey
