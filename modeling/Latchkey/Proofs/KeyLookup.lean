import Latchkey.Proofs.KeyRequests
import Latchkey.Proofs.Text.Cutting

/-!
# Resolving keys among other rows

A text is the first row that is not deleted, has the lead of the text and a digest that the text
fits. All other rows stand by: whether they are deleted, have another lead, or a digest that the
text does not fit or that cannot be checked at all, the answer is the same with them and without.
-/

namespace Latchkey

open Text

/-! ## The lead of a text -/

/-- The core of what stands before the first dot, if anything does. -/
structure RawKey.Leads (raw lead : String) : Prop where
  core : ∃ front, '.' ∉ front ∧ (raw.toList = front ∨ ∃ rest, raw.toList = front ++ '.' :: rest) ∧
    IsCore front lead.toList
  visible : lead ≠ ""

theorem RawKey.lead?_eq_some_iff {raw lead : String} :
    lead? raw = some lead ↔ Leads raw lead := by
  unfold lead?
  dsimp only
  constructor
  · intro h
    split at h
    · cases h
    · next hempty =>
      obtain rfl := Option.some.inj h
      obtain ⟨hdot, hraw⟩ := before_eq_iff.1 (rfl : before '.' raw.toList = _)
      refine ⟨⟨_, hdot, hraw, ?_⟩, fun h => hempty ?_⟩
      · rw [String.toList_ofList]
        exact isCore_trimChars _
      · rw [← String.toList_ofList (l := trimChars _), h]
        rfl
  · rintro ⟨⟨front, hdot, hraw, hcore⟩, hvisible⟩
    have hlead : trimChars (before '.' raw.toList) = lead.toList := by
      rw [before_eq_iff.2 ⟨hdot, hraw⟩, trimChars_eq_iff.2 hcore]
    have hempty : lead.toList.isEmpty = false := by
      simpa using hvisible
    rw [hlead, hempty, if_neg Bool.false_ne_true, String.ofList_toList]

/-- A text has no lead if there are only blanks before its first dot. -/
theorem RawKey.lead?_eq_none {raw : String} (h : ∀ c ∈ before '.' raw.toList, isBlank c = true) :
    lead? raw = none := by
  have hcore : trimChars (before '.' raw.toList) = [] := trimChars_eq_nil_iff.2 h
  simp only [lead?, hcore, List.isEmpty_nil, if_true]

/-! ## Rows put in or left out -/

/-- Two lists that are the same but for members of a kind, which may stand anywhere in either. -/
inductive DiffersIn {α : Type} (p : α → Prop) : List α → List α → Prop where
  | nil : DiffersIn p [] []
  | keep {xs ys : List α} (x : α) (h : DiffersIn p xs ys) : DiffersIn p (x :: xs) (x :: ys)
  | more {xs ys : List α} {y : α} (hy : p y) (h : DiffersIn p xs ys) : DiffersIn p xs (y :: ys)
  | fewer {xs ys : List α} {x : α} (hx : p x) (h : DiffersIn p xs ys) : DiffersIn p (x :: xs) ys

/-- What is looked for among the others is found first in both lists, or in neither. -/
theorem DiffersIn.find?_eq {α : Type} {p : α → Prop} {q : α → Bool} {xs ys : List α}
    (h : DiffersIn p xs ys) (hq : ∀ x, p x → q x = false) : xs.find? q = ys.find? q := by
  induction h with
  | nil => rfl
  | keep x _ ih => rw [List.find?_cons, List.find?_cons, ih]
  | more hy _ ih => rw [ih, List.find?_cons, hq _ hy]
  | fewer hx _ ih => rw [List.find?_cons, hq _ hx, ih]

namespace Keyring

variable {hasher : Hasher} {raw : String} {key : ApiKey} {keys : List ApiKey}

/-! ## The rows that a text is and the others -/

/-- The row is not deleted, and it has the lead of the text and a digest that the text fits. -/
structure IsKeyOf (hasher : Hasher) (raw : String) (key : ApiKey) : Prop where
  live : key.isDeleted = false
  led : RawKey.Leads raw key.lead
  fits : hasher.verify raw key.digest = .ok true

/-- What makes a row stand by when a text is looked up. -/
inductive StandsBy (hasher : Hasher) (raw : String) (key : ApiKey) : Prop where
  | deleted (h : key.isDeleted = true)
  | otherLead (h : ¬RawKey.Leads raw key.lead)
  | mismatch (h : hasher.verify raw key.digest = .ok false)
  | unchecked (e : Failure) (h : hasher.verify raw key.digest = .error e)

theorem standsBy_iff : StandsBy hasher raw key ↔ ¬IsKeyOf hasher raw key := by
  constructor
  · rintro hby ⟨hlive, hled, hfits⟩
    cases hby with
    | deleted h => rw [hlive] at h; cases h
    | otherLead h => exact h hled
    | mismatch h => rw [hfits] at h; cases h
    | unchecked e h => rw [hfits] at h; cases h
  · intro hkey
    by_cases hlive : key.isDeleted = true
    · exact .deleted hlive
    by_cases hled : RawKey.Leads raw key.lead
    · cases hverify : hasher.verify raw key.digest with
      | error e => exact .unchecked e hverify
      | ok fitting =>
        cases fitting with
        | false => exact .mismatch hverify
        | true => exact absurd ⟨Bool.eq_false_iff.2 hlive, hled, hverify⟩ hkey
    · exact .otherLead hled

/-- What a text is among the rows of a table: the first that it can be, or none. -/
inductive Resolves (hasher : Hasher) (raw : String) (keys : List ApiKey) :
    Option ApiKey → Prop where
  | none (h : ∀ k ∈ keys, StandsBy hasher raw k) : Resolves hasher raw keys none
  | some {front back : List ApiKey} {key : ApiKey} (hkeys : keys = front ++ key :: back)
      (hkey : IsKeyOf hasher raw key) (hfront : ∀ k ∈ front, StandsBy hasher raw k) :
      Resolves hasher raw keys (some key)

/-- The checks that a row goes through, in one. -/
def isKeyOf (hasher : Hasher) (raw : String) (key : ApiKey) : Bool :=
  RawKey.lead? raw = some key.lead && !key.isDeleted && fits hasher raw key

theorem fits_eq_true_iff :
    fits hasher raw key = true ↔ hasher.verify raw key.digest = .ok true := by
  unfold fits
  cases hasher.verify raw key.digest <;> simp

theorem isKeyOf_eq_true_iff : isKeyOf hasher raw key = true ↔ IsKeyOf hasher raw key := by
  rw [isKeyOf, Bool.and_eq_true, Bool.and_eq_true, decide_eq_true_iff, RawKey.lead?_eq_some_iff,
    fits_eq_true_iff, Bool.not_eq_true']
  exact ⟨fun ⟨⟨hled, hlive⟩, hfits⟩ => ⟨hlive, hled, hfits⟩,
    fun ⟨hlive, hled, hfits⟩ => ⟨⟨hled, hlive⟩, hfits⟩⟩

theorem isKeyOf_eq_false_iff : isKeyOf hasher raw key = false ↔ StandsBy hasher raw key := by
  rw [standsBy_iff, ← isKeyOf_eq_true_iff, Bool.not_eq_true]

/-- A text without a lead is no key. -/
theorem find?_isKeyOf_of_lead?_eq_none (h : RawKey.lead? raw = none) :
    keys.find? (isKeyOf hasher raw) = none :=
  List.find?_eq_none.2 fun k _ => by simp [isKeyOf, h]

/-- The first row that passes all checks is what the text is. -/
theorem resolves_find? : Resolves hasher raw keys (keys.find? (isKeyOf hasher raw)) := by
  cases hfound : keys.find? (isKeyOf hasher raw) with
  | none =>
    refine .none fun k hk => isKeyOf_eq_false_iff.1 ?_
    exact Bool.eq_false_iff.2 (List.find?_eq_none.1 hfound k hk)
  | some key =>
    obtain ⟨hkey, front, back, hkeys, hfront⟩ := List.find?_eq_some_iff_append.1 hfound
    refine .some hkeys (isKeyOf_eq_true_iff.1 hkey) fun k hk => isKeyOf_eq_false_iff.1 ?_
    simpa using hfront k hk

/-- The look-up by lead and the check of digests find what one check of all rows finds. -/
theorem exec_authenticate_eq (t : Tables) : (authenticate hasher raw).exec t =
    (.ok (t.keys.find? (isKeyOf hasher raw)), t) := by
  rw [exec_authenticate]
  cases hlead : RawKey.lead? raw with
  | none => rw [Option.bind_none, find?_isKeyOf_of_lead?_eq_none hlead]
  | some lead =>
    -- Rows are taken by their lead first and by their digest then; both are parts of one check.
    have hchecks (k : ApiKey) : isKeyOf hasher raw k =
        decide ((k.lead = lead && !k.isDeleted) = true ∧ fits hasher raw k = true) := by
      simp [isKeyOf, hlead, eq_comm (a := lead)]
    rw [Option.bind_some, Tables.keysLedBy, List.find?_filter, funext hchecks]

variable (hasher raw) (t : Tables)

/-- Looking a text up never fails and writes nothing. The answer is the first row that the text is,
and none if no row is or only blanks stand before the dot of the text. Rows that stand by, wherever
they are put in or left out, do not change the answer. -/
theorem authenticate_exact : ∃ found, (authenticate hasher raw).exec t = (.ok found, t) ∧
    Resolves hasher raw t.keys found ∧
    ((∀ c ∈ before '.' raw.toList, isBlank c = true) → found = none) ∧
    ∀ t' : Tables, DiffersIn (StandsBy hasher raw) t.keys t'.keys →
      (authenticate hasher raw).exec t' = (.ok found, t') := by
  refine ⟨t.keys.find? (isKeyOf hasher raw), exec_authenticate_eq t, resolves_find?, ?_, ?_⟩
  · exact fun hblank => find?_isKeyOf_of_lead?_eq_none (RawKey.lead?_eq_none hblank)
  · intro t' hdiffers
    rw [exec_authenticate_eq, hdiffers.find?_eq fun k hk => isKeyOf_eq_false_iff.2 hk]

/-! ## A key among broken rows -/

/-- A hasher whose digests begin with a mark; what has none cannot be checked. -/
def markedHasher : Hasher where
  digest _ secret := .ok ("#" ++ secret)
  verify presented digest :=
    if digest.toList.head? = some '#' then .ok (decide (digest = "#" ++ presented))
    else .error (.internal "Malformed secret digest")

/-- A row with the lead of the text `gateway.open`. -/
def gateKey (id : RowId) (digest : String) (deletedAt : Option Instant) : ApiKey where
  id := id
  account := 1
  name := "gate"
  lead := "gateway"
  digest := digest
  enabled := true
  scope := {}
  policies := []
  createdAt := ⟨0, 0⟩
  modifiedAt := none
  deletedAt := deletedAt

/-- A key behind a row that cannot be checked and one that is deleted. -/
def crowdedGate : Tables where
  keys := [gateKey 1 "gateway.open" none, gateKey 2 "#gateway.open" (some ⟨5, 0⟩),
    gateKey 3 "#gateway.open" none]

/-- The same key without these rows and behind one for another text. -/
def clearedGate : Tables where
  keys := [gateKey 4 "#gateway.shut" none, gateKey 3 "#gateway.open" none]

/-- The key is found among the one rows and among the others. -/
theorem authenticate_exact_gate :
    (authenticate markedHasher "gateway.open").exec crowdedGate =
      (.ok (some (gateKey 3 "#gateway.open" none)), crowdedGate) ∧
    (authenticate markedHasher "gateway.open").exec clearedGate =
      (.ok (some (gateKey 3 "#gateway.open" none)), clearedGate) := by
  obtain ⟨found, hfound, -, -, hsame⟩ := authenticate_exact markedHasher "gateway.open" crowdedGate
  have hunchecked : StandsBy markedHasher "gateway.open" (gateKey 1 "gateway.open" none) :=
    .unchecked (.internal "Malformed secret digest") (by decide +kernel)
  have hdeleted : StandsBy markedHasher "gateway.open"
      (gateKey 2 "#gateway.open" (some ⟨5, 0⟩)) := .deleted rfl
  have hother : StandsBy markedHasher "gateway.open" (gateKey 4 "#gateway.shut" none) :=
    .mismatch (by decide +kernel)
  have hcleared := hsame clearedGate
    (.fewer hunchecked (.fewer hdeleted (.more hother (.keep _ .nil))))
  have hkey : ((authenticate markedHasher "gateway.open").exec crowdedGate).1 =
      .ok (some (gateKey 3 "#gateway.open" none)) := by
    decide +kernel
  rw [hfound] at hkey
  obtain rfl := Except.ok.inj hkey
  exact ⟨hfound, hcleared⟩

end Keyring

end Latchkey
