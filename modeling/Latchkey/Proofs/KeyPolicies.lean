import Latchkey.Proofs.Transcript

/-!
# Enforced policies

The policies of a key are those that were supplied last: by the latest successful update that set
policies, or else by the request that the key was created by. Checking compares networks, replacing
compares ranges and enforcing drops ranges that denote nothing; a list that passes the check denotes
a network with every policy and has no range twice, so that all three agree.
-/

namespace Latchkey

open Keyring

/-! ## What was supplied -/

namespace Answered

/-- The policies that an operation has set on a key. -/
def setPolicies? (key : RowId) : Answered → Option (List Policy)
  | ⟨_, .updateKey _ id u, .ok _⟩ => if id = key then u.policies.value? else none
  | _ => none

/-- The policies that an operation has created a key with. -/
def firstPolicies? (key : RowId) : Answered → Option (List Policy)
  | ⟨_, .createKey _ request, .ok issued⟩ =>
    if issued.key.id = key then some (request.policies.getD []) else none
  | _ => none

end Answered

/-- The policies supplied to a key last: those set last, or else those that it was created with. -/
def suppliedPolicies? (log : List Answered) (key : RowId) : Option (List Policy) :=
  latestOrFirst? (Answered.setPolicies? key) (Answered.firstPolicies? key) log

section Supplied

variable {log : List Answered} {x : Answered} {id : RowId} {ps : List Policy}

theorem suppliedPolicies?_of_set (h : x.setPolicies? id = some ps) :
    suppliedPolicies? (log ++ [x]) id = some ps :=
  latestOrFirst?_of_tells h

theorem suppliedPolicies?_of_first (hset : x.setPolicies? id = none)
    (h : x.firstPolicies? id = some ps) (hlog : suppliedPolicies? log id = none) :
    suppliedPolicies? (log ++ [x]) id = some ps :=
  latestOrFirst?_of_first hset h hlog

theorem suppliedPolicies?_of_neither (hset : x.setPolicies? id = none)
    (hfirst : x.firstPolicies? id = none) :
    suppliedPolicies? (log ++ [x]) id = suppliedPolicies? log id :=
  latestOrFirst?_of_neither hset hfirst

end Supplied

/-! ## What is kept -/

/-- Every key has the policies that were supplied to it last, and to a number that is not given away
yet none were. -/
structure Tables.Supplied (t : Tables) (log : List Answered) : Prop where
  inOrder : t.KeysInOrder
  bound : ∀ key ∈ t.keys, ∃ ps, suppliedPolicies? log key.id = some ps ∧
    checkPolicies ps = .ok () ∧ key.policies.Perm ps
  fresh : ∀ id, t.lastId < id → suppliedPolicies? log id = none

namespace Tables.Supplied

variable {t t' : Tables} {log : List Answered} {x : Answered} {key : ApiKey}

theorem empty : ({} : Tables).Supplied [] where
  inOrder := keysInOrder_empty
  bound := fun _ hk => nomatch hk
  fresh := fun _ _ => rfl

/-- Where no policies are supplied and no key is touched, nothing changes. -/
theorem of_quiet (h : t.Supplied log) (hkeys : t'.keys = t.keys) (hle : t.lastId ≤ t'.lastId)
    (horder : t'.KeysInOrder) (hx : ∀ id, x.setPolicies? id = none ∧
      x.firstPolicies? id = none) : t'.Supplied (log ++ [x]) where
  inOrder := horder
  bound := by
    intro k hk
    rw [suppliedPolicies?_of_neither (hx k.id).1 (hx k.id).2]
    exact h.bound k (hkeys ▸ hk)
  fresh := by
    intro id hid
    rw [suppliedPolicies?_of_neither (hx id).1 (hx id).2]
    exact h.fresh id (Int.lt_of_le_of_lt hle hid)

/-- A new key has the policies that it was requested with. -/
theorem of_add (h : t.Supplied log) (hadds : t.AddsKey t' key)
    (hcheck : checkPolicies key.policies = .ok ())
    (hset : ∀ id, x.setPolicies? id = none)
    (hfirst : ∀ id, x.firstPolicies? id =
      if key.id = id then some key.policies else none) : t'.Supplied (log ++ [x]) where
  inOrder := hadds.keysInOrder h.inOrder (Policy.nodup_ranges_of_checkPolicies hcheck)
  bound := by
    have hother (id : RowId) (hne : key.id ≠ id) :
        suppliedPolicies? (log ++ [x]) id = suppliedPolicies? log id :=
      suppliedPolicies?_of_neither (hset id) ((hfirst id).trans (if_neg hne))
    intro k hk
    rw [hadds.keys] at hk
    rcases List.mem_append.1 hk with hk | hk
    · have hne : key.id ≠ k.id := by
        have := h.inOrder.ids_le k hk
        have := hadds.fresh
        grind
      rw [hother k.id hne]
      exact h.bound k hk
    · rw [List.mem_singleton.1 hk]
      refine ⟨key.policies, ?_, hcheck, .refl _⟩
      exact suppliedPolicies?_of_first (hset key.id) ((hfirst key.id).trans (if_pos rfl))
        (h.fresh key.id hadds.fresh)
  fresh := by
    intro id hid
    have hle := hadds.lastId_le
    have hlt := hadds.fresh
    have hne : key.id ≠ id := by grind
    rw [suppliedPolicies?_of_neither (hset id) ((hfirst id).trans (if_neg hne))]
    exact h.fresh id (by grind)

/-- An edited key has the policies that were supplied with the edit, or those from before. -/
theorem of_edit (h : t.Supplied log) {change : KeyChange} (hedits : t.EditsKey t' key change)
    (hid : change.key.id = key.id)
    (hset : ∀ id, key.id ≠ id → x.setPolicies? id = none)
    (hfirst : ∀ id, x.firstPolicies? id = none)
    (hkey : ∃ ps, suppliedPolicies? (log ++ [x]) key.id = some ps ∧
      checkPolicies ps = .ok () ∧ change.key.policies.Perm ps) : t'.Supplied (log ++ [x]) where
  inOrder := by
    obtain ⟨ps, -, hcheck, hperm⟩ := hkey
    refine hedits.keysInOrder h.inOrder hid ?_
    exact (hperm.map Policy.range).nodup_iff.2 (Policy.nodup_ranges_of_checkPolicies hcheck)
  bound := by
    intro k hk
    rw [hedits.keys] at hk
    obtain ⟨l, hl, rfl⟩ := List.mem_map.1 hk
    split
    · rw [hid]
      exact hkey
    · next hne =>
      rw [suppliedPolicies?_of_neither (hset l.id (Ne.symm hne)) (hfirst l.id)]
      exact h.bound l hl
  fresh := by
    intro id hlt
    have hne : key.id ≠ id := by
      have := h.inOrder.ids_le key hedits.mem
      have := hedits.lastId_le
      grind
    rw [suppliedPolicies?_of_neither (hset id hne) (hfirst id)]
    exact h.fresh id (Int.lt_of_le_of_lt hedits.lastId_le hlt)

end Tables.Supplied

theorem KeyUpdate.checkPolicies_of_check {u : KeyUpdate} {ps : List Policy}
    (h : u.check = .ok ()) (hps : u.policies = .set ps) : checkPolicies ps = .ok () := by
  unfold check at h
  rw [hps] at h
  cases hname : u.name with
  | keep =>
    rw [hname] at h
    exact h
  | set name =>
    rw [hname] at h
    dsimp only at h
    cases hcheck : checkKeyName name with
    | error e =>
      rw [hcheck] at h
      cases h
    | ok _ =>
      rw [hcheck] at h
      exact h

namespace Service

variable (s : Service) {t : Tables} {log : List Answered}

/-- An update that succeeds has passed its check. -/
theorem check_of_updateKey {given : Given} {username : String} {id : RowId} {u : KeyUpdate}
    {key : ApiKey} (h : (s.perform ⟨given, .updateKey username id u⟩ t).1 = .ok key) :
    u.check = .ok () := by
  rcases exec_update given username id t u with ⟨e, herror⟩ | ⟨account, row, hcheck, -, -⟩
  · rw [show (s.perform ⟨given, .updateKey username id u⟩ t).1 = .error e from
      congrArg Prod.fst herror] at h
    cases h
  · exact hcheck

/-- Every operation leaves every key with the policies supplied last. -/
theorem supplied_perform (x : Asked) (h : t.Supplied log) :
    (s.perform x t).2.Supplied (log ++ [s.answered x t]) := by
  obtain ⟨given, op⟩ := x
  have horder := (s.keyStep_perform h.inOrder ⟨given, op⟩).keysInOrder h.inOrder
  have hquiet (hop : ¬op.WritesKeys) (hnone : ∀ answer id,
      Answered.setPolicies? id ⟨given, op, answer⟩ = none ∧
        Answered.firstPolicies? id ⟨given, op, answer⟩ = none) :
      (s.perform ⟨given, op⟩ t).2.Supplied (log ++ [s.answered ⟨given, op⟩ t]) :=
    h.of_quiet (s.keys_exec given hop t).1 (s.lastId_exec given op t) horder fun id => hnone _ id
  unfold answered at hquiet ⊢
  cases op with
  | createKey username request =>
    rcases s.perform_createKey given username request t with
      ⟨e, herror⟩ | ⟨account, digest, t', -, hcheck, hok, hadds⟩
    · rw [herror]
      exact h.of_quiet rfl (Int.le_refl _) h.inOrder fun _ => ⟨rfl, rfl⟩
    · rw [hok]
      exact h.of_add hadds hcheck (fun _ => rfl) fun _ => rfl
  | updateKey username id u =>
    rcases s.perform_updateKey given h.inOrder username id u with
      ⟨e, herror⟩ | ⟨key, t', hid, hok, hedits⟩
    · rw [herror]
      exact h.of_quiet rfl (Int.le_refl _) h.inOrder fun _ => ⟨rfl, rfl⟩
    · have hcheck := s.check_of_updateKey (congrArg Prod.fst hok)
      obtain ⟨name, scope, policies, enabled, modifiedAt, hkey⟩ := editBy_key u given.now key
      rw [hok]
      subst hid
      refine h.of_edit hedits (by rw [hkey]) (fun id hne => if_neg hne) (fun _ => rfl) ?_
      rw [policies_editBy, KeyUpdate.policies_apply, KeyUpdate.editPolicies]
      cases hu : u.policies with
      | keep =>
        obtain ⟨ps, hps, hrest⟩ := h.bound key hedits.mem
        refine ⟨ps, ?_, hrest⟩
        rw [suppliedPolicies?_of_neither _ rfl, hps]
        simp [Answered.setPolicies?, hu, Patch.value?]
      | set ps =>
        have hps := KeyUpdate.checkPolicies_of_check hcheck hu
        refine ⟨ps, suppliedPolicies?_of_set ?_, hps, ?_⟩
        · simp [Answered.setPolicies?, hu, Patch.value?]
        · exact Policy.perm_reconcile (h.inOrder.ranges key hedits.mem)
            (Policy.nodup_ranges_of_checkPolicies hps)
  | deleteKey username id =>
    rcases s.perform_deleteKey given h.inOrder username id with
      ⟨e, herror⟩ | ⟨key, t', -, hok, hedits⟩
    · rw [herror]
      exact h.of_quiet rfl (Int.le_refl _) h.inOrder fun _ => ⟨rfl, rfl⟩
    · rw [hok]
      refine h.of_edit hedits rfl (fun _ _ => rfl) (fun _ => rfl) ?_
      rw [suppliedPolicies?_of_neither rfl rfl]
      exact h.bound key hedits.mem
  | _ => exact hquiet (fun h => h) fun _ _ => ⟨rfl, rfl⟩

/-- The policies that a key enforces are exactly those supplied last: its row holds them in some
order, each with a range that denotes a network, and it lets an address in if there are none or one
of their networks holds it. -/
theorem policies_supplied (h : List Asked) (key : ApiKey) (hkey : key ∈ (s.after {} h).keys) :
    ∃ ps, suppliedPolicies? (s.transcript {} h) key.id = some ps ∧
      key.policies.Perm ps ∧
      (∀ p ∈ key.policies, ∃ n, p.network? = some n) ∧
      ∀ ip, key.permits ip = true ↔
        ps = [] ∨ ∃ p ∈ ps, ∃ n, p.network? = some n ∧ n.contains ip = true := by
  have hsupplied : (s.after {} h).Supplied (s.transcript {} h) :=
    s.transcript_induction .empty (fun x _ _ ht => s.supplied_perform x ht) h
  obtain ⟨ps, hps, hcheck, hperm⟩ := hsupplied.bound key hkey
  refine ⟨ps, hps, hperm, ?_, Policy.permits_iff hperm⟩
  intro p hp
  exact Policy.network?_of_checkPolicies hcheck (hperm.mem_iff.1 hp)

end Service

/-- A key is created for one network, bound to another as well and then enabled. -/
def twiceBound : List Asked :=
  [⟨.sample 1, .signUp "ada@example.com" "correct horse"⟩,
    ⟨.sample 2, .createKey "ada@example.com"
      { name := "ci", policies := some [⟨"office", "10.0.0.0/8"⟩] }⟩,
    ⟨.sample 3, .updateKey "ada@example.com" 3
      { policies := .set [⟨"lab", "172.16.0.0/12"⟩, ⟨"head office", "10.0.0.0/8"⟩] }⟩,
    ⟨.sample 4, .updateKey "ada@example.com" 3 { enabled := .set true }⟩]

/-- Its row: the old network comes first and has its new name. -/
def twiceBoundKey : ApiKey where
  id := 3
  account := 1
  name := "ci"
  lead := "CCCCCCC"
  digest := (Given.sample 2).rawKey.text
  enabled := true
  scope := {}
  policies := [⟨"head office", "10.0.0.0/8"⟩, ⟨"lab", "172.16.0.0/12"⟩]
  createdAt := ⟨2, 0⟩
  modifiedAt := some ⟨4, 0⟩
  deletedAt := none

theorem policies_supplied_twiceBound :
    twiceBoundKey ∈ (Service.plain.after {} twiceBound).keys ∧
    ∃ ps, suppliedPolicies? (Service.plain.transcript {} twiceBound) 3 = some ps ∧
      twiceBoundKey.policies.Perm ps ∧
      (∀ p ∈ twiceBoundKey.policies, ∃ n, p.network? = some n) ∧
      ∀ ip, twiceBoundKey.permits ip = true ↔
        ps = [] ∨ ∃ p ∈ ps, ∃ n, p.network? = some n ∧ n.contains ip = true :=
  ⟨by decide +kernel,
    Service.plain.policies_supplied twiceBound twiceBoundKey (by decide +kernel)⟩

end Latchkey
