import Mathlib.Data.List.Nodup
import Latchkey.Proofs.Operations
import Latchkey.Proofs.Store.Keys

/-!
# Accounts in order

In tables that came about by requests no two accounts share a number or a name. What an account
holds, its number aside, is its content; names tell contents apart, and a write puts one content in
the place of its name.
-/

namespace Latchkey

/-- The account without its number. -/
def Account.content (a : Account) : Account :=
  { a with id := 0 }

@[simp] theorem Account.username_content (a : Account) : a.content.username = a.username := rfl

/-- The contents with one more, in the place of its name if the name is there. -/
def put (contents : List Account) (a : Account) : List Account :=
  if contents.any (·.username = a.username) then
    contents.map fun b => if b.username = a.username then a else b
  else contents ++ [a]

/-- Two contents of one name that put the same are the same; of two names, the first was there. -/
theorem eq_or_mem_of_put_eq {contents : List Account} {a b : Account}
    (h : put contents a = put contents b) (hb : ∃ c ∈ contents, c.username = b.username) :
    a = b ∨ a.username ≠ b.username ∧ a ∈ contents := by
  have hmem : a ∈ put contents a := by
    unfold put
    split
    · next hany =>
      obtain ⟨c, hc, hname⟩ := List.any_eq_true.1 hany
      exact List.mem_map.2 ⟨c, hc, if_pos (of_decide_eq_true hname)⟩
    · exact List.mem_append_right _ (List.mem_singleton.2 rfl)
  obtain ⟨c, hc, hname⟩ := hb
  have hany : contents.any (·.username = b.username) = true :=
    List.any_eq_true.2 ⟨c, hc, decide_eq_true hname⟩
  rw [h, put, hany, if_pos rfl] at hmem
  obtain ⟨d, hd, hda⟩ := List.mem_map.1 hmem
  split at hda
  · exact .inl hda.symm
  · next hne =>
    subst hda
    exact .inr ⟨hne, hd⟩

/-- A content that is there is put in its own place. -/
theorem put_of_mem {contents : List Account} {a : Account} (hmem : a ∈ contents)
    (hnodup : (contents.map (·.username)).Nodup) : put contents a = contents := by
  have hany : contents.any (·.username = a.username) = true :=
    List.any_eq_true.2 ⟨a, hmem, decide_eq_true rfl⟩
  rw [put, hany, if_pos rfl]
  refine (List.map_congr_left fun b hb => ?_).trans (List.map_id' contents)
  split
  · next hname => exact (List.inj_on_of_nodup_map hnodup hb hmem hname).symm
  · rfl

namespace Tables

variable {t : Tables}

/-- What the accounts hold. -/
def contents (t : Tables) : List Account :=
  t.accounts.map Account.content

/-- Names and numbers of accounts are different, and numbers not yet given away are on none. -/
structure AccountsInOrder (t : Tables) : Prop where
  usernames : (t.accounts.map (·.username)).Nodup
  ids : (t.accounts.map (·.id)).Nodup
  ids_le : ∀ a ∈ t.accounts, a.id ≤ t.lastId

theorem accountsInOrder_empty : ({} : Tables).AccountsInOrder where
  usernames := List.nodup_nil
  ids := List.nodup_nil
  ids_le := fun _ ha => nomatch ha

theorem usernames_contents (t : Tables) :
    t.contents.map (·.username) = t.accounts.map (·.username) := by
  simp [contents, Function.comp_def]

theorem AccountsInOrder.of_accounts_eq {t' : Tables} (h : t.AccountsInOrder)
    (haccounts : t'.accounts = t.accounts) (hle : t.lastId ≤ t'.lastId) : t'.AccountsInOrder where
  usernames := haccounts ▸ h.usernames
  ids := haccounts ▸ h.ids
  ids_le := fun a ha => Int.le_trans (h.ids_le a (haccounts ▸ ha)) hle

/-! ## Looking accounts up by their contents -/

theorem find?_contents (t : Tables) {p : Account → Bool} (hp : ∀ a, p a.content = p a) :
    t.contents.find? p = (t.accounts.find? p).map Account.content := by
  rw [contents, List.find?_map]
  congr 2
  funext a
  exact hp a

theorem isTaken_eq (t : Tables) (username : String) :
    t.isTaken username = t.contents.any (·.username = username) := by
  rw [isTaken, contents, List.any_map]
  rfl

theorem isTaken_eq_false_iff {username : String} :
    t.isTaken username = false ↔ ∀ a ∈ t.accounts, a.username ≠ username := by
  simp [isTaken]

/-! ## Adding an account -/

theorem insertAccount_of_taken {a : NewAccount} (h : t.isTaken a.username = true) :
    t.insertAccount a = (none, t) := by
  rw [insertAccount, if_pos h]

theorem insertAccount_of_free {a : NewAccount} (h : t.isTaken a.username = false) :
    (t.insertAccount a).1 = some (a.row t.nextId) ∧
      (t.insertAccount a).2.accounts = t.accounts ++ [a.row t.nextId] := by
  simp [insertAccount, h]

theorem contents_insertAccount {a : NewAccount} (h : t.isTaken a.username = false) :
    (t.insertAccount a).2.contents = put t.contents (a.row 0) := by
  have hany : t.contents.any (·.username = (a.row 0).username) = false := by
    rw [← t.isTaken_eq]
    exact h
  rw [contents, (insertAccount_of_free h).2, put, hany, List.map_append]
  rfl

theorem AccountsInOrder.insertAccount (h : t.AccountsInOrder) (a : NewAccount) :
    (t.insertAccount a).2.AccountsInOrder := by
  have hle := Call.lastId_le (.insertAccount a) t
  cases htaken : t.isTaken a.username with
  | true =>
    rw [insertAccount_of_taken htaken]
    exact h
  | false =>
    have haccounts := (insertAccount_of_free htaken).2
    have hlast : t.nextId ≤ (t.insertAccount a).2.lastId := by
      simp only [Tables.insertAccount, htaken, Bool.false_eq_true, if_false,
        recordSecurityEvents_lastId, NewAccount.row]
      grind
    refine ⟨?_, ?_, ?_⟩
    · rw [haccounts, List.map_append, List.nodup_append]
      refine ⟨h.usernames, List.nodup_singleton _, ?_⟩
      intro x hx y hy hxy
      obtain ⟨b, hb, rfl⟩ := List.mem_map.1 hx
      rw [List.map_singleton, List.mem_singleton] at hy
      rw [hy] at hxy
      exact isTaken_eq_false_iff.1 htaken b hb hxy
    · rw [haccounts, List.map_append, List.nodup_append]
      refine ⟨h.ids, List.nodup_singleton _, ?_⟩
      intro x hx y hy hxy
      obtain ⟨b, hb, rfl⟩ := List.mem_map.1 hx
      rw [List.map_singleton, List.mem_singleton] at hy
      have hle := h.ids_le b hb
      rw [hxy, hy] at hle
      have hlt : t.lastId < t.nextId := by
        unfold nextId
        grind
      exact absurd hle (Int.not_le.2 hlt)
    · intro b hb
      rw [haccounts] at hb
      rcases List.mem_append.1 hb with hb | hb
      · exact Int.le_trans (h.ids_le b hb) hle
      · rw [List.mem_singleton.1 hb]
        exact hlast

/-! ## Saving an account -/

/-- There is a row with the number and the name of the account. -/
def HasRowOf (t : Tables) (a : Account) : Prop :=
  ∃ b ∈ t.accounts, b.id = a.id ∧ b.username = a.username

theorem accounts_saveAccount (h : t.AccountsInOrder) {a : Account} (hrow : t.HasRowOf a)
    (events : List SecurityEvent) (now : Instant) :
    (t.saveAccount a events now).1 = .ok a ∧ (t.saveAccount a events now).2.accounts =
      t.accounts.map fun b => if b.id = a.id then a else b := by
  obtain ⟨b, hb, hid, -⟩ := hrow
  have hfind : ∃ c, t.accounts.find? (·.id = a.id) = some c :=
    Option.isSome_iff_exists.1 (List.find?_isSome.2 ⟨b, hb, decide_eq_true hid⟩)
  obtain ⟨c, hc⟩ := hfind
  have hcid : c.id = a.id := by simpa using List.find?_some hc
  rw [saveAccount_of_mem hb hid]
  refine ⟨rfl, ?_⟩
  rw [recordSecurityEvents_accounts, ← hcid]
  refine replaceFirst_eq_map (f := (·.id)) a h.ids (hcid ▸ hc) ?_
  intro d hd
  simpa using hd

/-- Numbers and names of rows belong together. -/
theorem AccountsInOrder.id_eq_iff (h : t.AccountsInOrder) {a b : Account} (hrow : t.HasRowOf a)
    (hb : b ∈ t.accounts) : b.id = a.id ↔ b.username = a.username := by
  obtain ⟨c, hc, hid, hname⟩ := hrow
  constructor
  · intro heq
    rw [List.inj_on_of_nodup_map h.ids hb hc (heq.trans hid.symm), hname]
  · intro heq
    rw [List.inj_on_of_nodup_map h.usernames hb hc (heq.trans hname.symm), hid]

theorem contents_saveAccount (h : t.AccountsInOrder) {a : Account} (hrow : t.HasRowOf a)
    (events : List SecurityEvent) (now : Instant) :
    (t.saveAccount a events now).2.contents = put t.contents a.content := by
  have hany : t.contents.any (·.username = a.content.username) = true := by
    obtain ⟨b, hb, -, hname⟩ := hrow
    exact List.any_eq_true.2 ⟨b.content, List.mem_map.2 ⟨b, hb, rfl⟩, decide_eq_true hname⟩
  rw [put, hany, if_pos rfl, contents, contents, (accounts_saveAccount h hrow events now).2,
    List.map_map, List.map_map]
  refine List.map_congr_left ?_
  intro b hb
  have hiff := h.id_eq_iff hrow hb
  simp only [Function.comp_apply]
  by_cases hname : b.username = a.username
  · rw [if_pos (hiff.2 hname), if_pos (show b.content.username = a.content.username from hname)]
  · rw [if_neg fun hid => hname (hiff.1 hid),
      if_neg (show b.content.username ≠ a.content.username from hname)]

theorem AccountsInOrder.saveAccount (h : t.AccountsInOrder) {a : Account} (hrow : t.HasRowOf a)
    (events : List SecurityEvent) (now : Instant) :
    (t.saveAccount a events now).2.AccountsInOrder := by
  have haccounts := (accounts_saveAccount h hrow events now).2
  have hsame {β : Type} (f : Account → β) (hf : ∀ b ∈ t.accounts, b.id = a.id → f a = f b) :
      (t.saveAccount a events now).2.accounts.map f = t.accounts.map f := by
    rw [haccounts, List.map_map]
    refine List.map_congr_left ?_
    intro b hb
    simp only [Function.comp_apply]
    split
    · next hid => exact hf b hb hid
    · rfl
  refine ⟨?_, ?_, ?_⟩
  · rw [hsame _ fun b hb hid => ((h.id_eq_iff hrow hb).1 hid).symm]
    exact h.usernames
  · rw [hsame _ fun b _ hid => hid.symm]
    exact h.ids
  · intro b hb
    have hmem : b.id ∈ (t.saveAccount a events now).2.accounts.map (·.id) :=
      List.mem_map.2 ⟨b, hb, rfl⟩
    rw [hsame _ fun b _ hid => hid.symm] at hmem
    obtain ⟨c, hc, hid⟩ := List.mem_map.1 hmem
    have hle := Int.le_trans (h.ids_le c hc) (Call.lastId_le (.saveAccount a events now) t)
    rw [hid] at hle
    exact hle

/-- No write takes a row away. -/
theorem HasRowOf.saveAccount (h : t.AccountsInOrder) {a b : Account} (hb : t.HasRowOf b)
    (ha : t.HasRowOf a) (events : List SecurityEvent) (now : Instant) :
    (t.saveAccount a events now).2.HasRowOf b := by
  obtain ⟨c, hc, hid, hname⟩ := hb
  unfold HasRowOf
  rw [(accounts_saveAccount h ha events now).2]
  refine ⟨_, List.mem_map.2 ⟨c, hc, rfl⟩, ?_⟩
  by_cases hca : c.id = a.id
  · rw [if_pos hca]
    exact ⟨hca.symm.trans hid, ((h.id_eq_iff ha hc).1 hca).symm.trans hname⟩
  · rw [if_neg hca]
    exact ⟨hid, hname⟩

theorem HasRowOf.insertAccount {b : Account} (hb : t.HasRowOf b) (a : NewAccount) :
    (t.insertAccount a).2.HasRowOf b := by
  cases htaken : t.isTaken a.username with
  | true =>
    rw [insertAccount_of_taken htaken]
    exact hb
  | false =>
    obtain ⟨c, hc, hrow⟩ := hb
    unfold HasRowOf
    rw [(insertAccount_of_free htaken).2]
    exact ⟨c, List.mem_append_left _ hc, hrow⟩

end Tables

end Latchkey
