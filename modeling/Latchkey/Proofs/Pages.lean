import Latchkey.Proofs.Store.Numbering

/-!
# Pages of trails

A trail is read page by page, newest entry first. Pages of one size that follow each other tile the
trail. Trails only grow, and a page that is moved on by as many entries as have come since shows
what it showed before.
-/

namespace Latchkey

/-! ## Windows on rows -/

namespace Page

variable {α : Type}

/-- Rows cut into pieces of one size, put together again. -/
theorem flatMap_drop_take (rows : List α) (size count : Nat) :
    ((List.range count).flatMap fun i => (rows.drop (i * size)).take size) =
      rows.take (count * size) := by
  induction count with
  | zero => simp
  | succ count ih =>
    rw [List.range_succ, List.flatMap_append, ih, List.flatMap_singleton, Nat.succ_mul,
      List.take_add]

/-- What a page with a natural offset shows. -/
theorem newestFirst_eq (size : Int) (offset : Nat) (rows : List α) :
    newestFirst ⟨size, offset⟩ rows = (rows.reverse.drop offset).take size.toNat := rfl

theorem newestFirst_max (size offset : Int) (rows : List α) :
    newestFirst ⟨max size 0, max offset 0⟩ rows = newestFirst ⟨size, offset⟩ rows := by
  have htoNat (i : Int) : (max i 0).toNat = i.toNat := by omega
  rw [newestFirst, newestFirst, htoNat, htoNat]

/-- Pages from the first on show the newest rows. -/
theorem flatMap_newestFirst {size : Int} (hsize : 1 ≤ size) (count : Nat) (rows : List α) :
    ((List.range count).flatMap fun i : Nat => newestFirst ⟨size, i * size⟩ rows) =
      rows.reverse.take (count * size.toNat) := by
  rw [← flatMap_drop_take]
  refine congrArg (List.range count).flatMap (funext fun i => ?_)
  rw [← newestFirst_eq, Int.natCast_mul, Int.toNat_of_nonneg (by omega)]

/-- A page of at least one row is empty exactly if it begins behind the oldest row. -/
theorem newestFirst_eq_nil_iff {size offset : Int} (hsize : 1 ≤ size) (hoffset : 0 ≤ offset)
    (rows : List α) : newestFirst ⟨size, offset⟩ rows = [] ↔ rows.length ≤ offset := by
  have hsome : size.toNat ≠ 0 := by omega
  simp only [newestFirst, List.take_eq_nil_iff, hsome, false_or, List.drop_eq_nil_iff,
    List.length_reverse]
  omega

/-- With rows added, the page that begins as many rows later shows what it showed. -/
theorem newestFirst_append {offset : Int} (hoffset : 0 ≤ offset) (size : Int)
    (rows added : List α) :
    newestFirst ⟨size, offset + added.length⟩ (rows ++ added) =
      newestFirst ⟨size, offset⟩ rows := by
  have hskip : (offset + added.length).toNat = added.reverse.length + offset.toNat := by
    rw [List.length_reverse]
    omega
  simp only [newestFirst, List.reverse_append, hskip, ← List.drop_drop, List.drop_left]

theorem newestFirst_sublist (page : Page) (rows : List α) :
    (page.newestFirst rows).Sublist rows.reverse :=
  (List.take_sublist _ _).trans (List.drop_sublist _ _)

end Page

/-! ## Trails -/

/-- A trail that is read in pages, by the type of its entries: what is on record about an account,
what it was charged, or what is on record about a key. -/
inductive Trail : Type → Type where
  | security (account : RowId) : Trail SecurityEntry
  | charges (account : RowId) : Trail Charge
  | keyLog (id : RowId) : Trail KeyEntry

namespace Trail

variable {ε : Type}

/-- The entries of a trail, oldest first. -/
def entries : Trail ε → Tables → List ε
  | .security account, t => t.securityTrailOf account
  | .charges account, t => t.chargesOf account
  | .keyLog id, t => t.keyTrailOf id

/-- The call that reads one page. -/
def read : Trail ε → Page → Call (List ε)
  | .security account, page => .securityPage account page
  | .charges account, page => .chargePage account page
  | .keyLog id, page => .keyPage id page

/-- The number on an entry. -/
def number : Trail ε → ε → RowId
  | .security _, e => e.id
  | .charges _, c => c.id
  | .keyLog _, e => e.id

/-- The table that the entries of a trail are in. -/
def table : Trail ε → Numbered
  | .security _ => .securityTrail
  | .charges _ => .charges
  | .keyLog _ => .keyTrail

/-- What a page of a trail shows. -/
def shown (trail : Trail ε) (t : Tables) (page : Page) : List ε :=
  page.newestFirst (trail.entries t)

/-- Reading a page never fails and leaves the tables as they are. -/
theorem apply_read (trail : Trail ε) (page : Page) (t : Tables) :
    (trail.read page).apply t = (.ok (trail.shown t page), t) := by
  cases trail <;> rfl

theorem numbers_sublist (trail : Trail ε) (t : Tables) :
    ((trail.entries t).map trail.number).Sublist (t.ids trail.table) := by
  cases trail <;> exact List.filter_sublist.map _

end Trail

/-! ## Growth -/

/-- Where trails grow, so does every single one. -/
theorem Tables.TrailsGrow.entries {ε : Type} {t t' : Tables} (h : t.TrailsGrow t')
    (trail : Trail ε) : trail.entries t <+: trail.entries t' := by
  cases trail with
  | security account => exact h.securityTrail.filter _
  | charges account => exact h.charges.filter _
  | keyLog id => exact h.keyTrail.filter _

theorem Program.trailsGrow_step {α : Type} (p : Program α) (t : Tables) :
    t.TrailsGrow (p.step t).2 := by
  cases p with
  | done a => exact .refl t
  | call c next => exact c.trailsGrow t
  | notify n next => exact .refl t

theorem Pool.Turn.trailsGrow {κ : Type*} {α : Type} {p p' : Pool κ α} {i : Nat}
    (h : p.Turn i p') : p.tables.TrailsGrow p'.tables := by
  cases h with
  | idle hthread => exact .refl p.tables
  | ended k q a t hthread hstep =>
    have hgrows := q.trailsGrow_step p.tables
    rwa [hstep] at hgrows
  | pending k q q' t hthread hstep hleft =>
    have hgrows := q.trailsGrow_step p.tables
    rwa [hstep] at hgrows

/-- Requests that share tables let trails only grow, turn by turn. -/
theorem Pool.trailsGrow_run {κ : Type*} {α : Type} (p : Pool κ α) (schedule : List Nat) :
    p.tables.TrailsGrow (p.run schedule).tables := by
  induction schedule generalizing p with
  | nil => exact .refl p.tables
  | cons i schedule ih => exact (p.turn_step i).trailsGrow.trans (ih (p.step i))

/-- Trails only grow in all that comes about, from any tables. -/
theorem Service.Reaches.trailsGrow {s : Service} {t t' : Tables} (h : s.Reaches t t') :
    t.TrailsGrow t' := by
  induction h with
  | here => exact .refl t
  | performed _ x ih =>
    exact Request.exec_of_makes (I := t.TrailsGrow)
      (fun c t' _ hgrows => hgrows.trans (c.trailsGrow t')) (s.request x.given x.op).makes_any ih
  | shared _ requests schedule ih =>
    exact ih.trans (Pool.trailsGrow_run (Pool.start s.replyTo _ requests) schedule)
  | charged _ c _ ih => exact ih.trans ((Call.recordCharge c).trailsGrow _)

/-! ## Pages -/

namespace Trail

variable {ε : Type} (trail : Trail ε) {t t' : Tables}

/-- Where `n` entries of a trail have come since, and any number of others, a page that is moved on
by `n` shows what it showed. -/
theorem shown_of_trailsGrow (h : t.TrailsGrow t') {n : Nat}
    (hn : (trail.entries t').length = (trail.entries t).length + n) {offset : Int}
    (hoffset : 0 ≤ offset) (size : Int) :
    trail.shown t' ⟨size, offset + n⟩ = trail.shown t ⟨size, offset⟩ := by
  obtain ⟨added, hadded⟩ := h.entries trail
  obtain rfl : added.length = n := by
    rw [← hadded, List.length_append] at hn
    omega
  rw [shown, ← hadded, Page.newestFirst_append hoffset]
  rfl

/-- On tables that have come about from none, later entries have greater numbers, so that the
numbers on a page fall. -/
theorem pairwise_numbers_shown {s : Service} (h : s.Reaches {} t) (page : Page) :
    ((trail.shown t page).map trail.number).Pairwise (· > ·) := by
  have hentries : ((trail.entries t).map trail.number).Pairwise (· < ·) :=
    ((h.extends Tables.inOrder_empty).pairwise_ids trail.table).sublist (trail.numbers_sublist t)
  have hsublist := (page.newestFirst_sublist (trail.entries t)).map trail.number
  rw [List.map_reverse] at hsublist
  exact (List.pairwise_reverse.2 hentries).sublist hsublist

/-- Reading a page of a trail never fails, whatever numbers ask for it. Pages of one size from the
first to the last are the trail, newest entry first, and those behind the last are empty. Trails
only grow, be it by a call or by what has come about since, and then each page is found further back
by as many entries as are new. Where tables have come about from none, the numbers on a page
fall. -/
theorem pages_tile (t : Tables) :
    (∀ page, (trail.read page).apply t = (.ok (trail.shown t page), t)) ∧
    (∀ size offset, trail.shown t ⟨size, offset⟩ = trail.shown t ⟨max size 0, max offset 0⟩) ∧
    (∀ size : Int, 1 ≤ size →
      (∀ i : Nat, trail.shown t ⟨size, i * size⟩ = [] ↔ (trail.entries t).length ≤ i * size) ∧
      ∀ count : Nat, (trail.entries t).length ≤ count * size →
        ((List.range count).flatMap fun i : Nat => trail.shown t ⟨size, i * size⟩) =
          (trail.entries t).reverse) ∧
    (∀ t', t.TrailsGrow t' → ∀ n : Nat,
      (trail.entries t').length = (trail.entries t).length + n → ∀ size offset : Int, 0 ≤ offset →
        trail.shown t' ⟨size, offset + n⟩ = trail.shown t ⟨size, offset⟩) ∧
    (∀ {β : Type} (c : Call β), t.TrailsGrow (c.apply t).2) ∧
    (∀ s : Service, (∀ t', s.Reaches t t' → t.TrailsGrow t') ∧
      (s.Reaches {} t → ∀ page, ((trail.shown t page).map trail.number).Pairwise (· > ·))) := by
  refine ⟨fun page => trail.apply_read page t, fun size offset => ?_,
    fun size hsize => ⟨?_, ?_⟩, ?_, fun c => c.trailsGrow t,
    fun s => ⟨fun t' h => h.trailsGrow, fun h => ?_⟩⟩
  · exact (Page.newestFirst_max size offset _).symm
  · intro i
    exact Page.newestFirst_eq_nil_iff hsize (Int.mul_nonneg (Int.natCast_nonneg i) (by omega)) _
  · intro count hcount
    refine (Page.flatMap_newestFirst hsize count _).trans (List.take_of_length_le ?_)
    rw [List.length_reverse]
    have hsize' : ((size.toNat : Nat) : Int) = size := Int.toNat_of_nonneg (by omega)
    rw [← hsize'] at hcount
    exact_mod_cast hcount
  · intro t' hgrows n hn size offset hoffset
    exact trail.shown_of_trailsGrow hgrows hn hoffset size
  · exact trail.pairwise_numbers_shown h

/-- An account with a key asks for another. -/
def anotherKey : List Asked :=
  [⟨.sample 3, .createKey "ada@example.com" { name := "cd" }⟩]

/-- Two pages of one entry are the trail. With another key, the first of them is found one entry
further back. -/
theorem pages_tile_anotherKey :
    (((List.range 2).flatMap fun i : Nat =>
        (security 1).shown (Service.plain.after {} oneKey) ⟨1, i * 1⟩).map (·.action) =
      ["create_key.3", "created"]) ∧
    (security 1).shown (Service.plain.after (Service.plain.after {} oneKey) anotherKey) ⟨1, 0 + 1⟩ =
      (security 1).shown (Service.plain.after {} oneKey) ⟨1, 0⟩ := by
  obtain ⟨-, -, htile, hgrown, -, hreached⟩ :=
    (security 1).pages_tile (Service.plain.after {} oneKey)
  constructor
  · rw [(htile 1 (by decide)).2 2 (by decide +kernel)]
    decide +kernel
  · exact hgrown _ ((hreached Service.plain).1 _ (Service.reaches_after _ anotherKey)) 1
      (by decide +kernel) 1 0 (by decide)

end Trail

end Latchkey
