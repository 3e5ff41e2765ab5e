import Latchkey.Proofs.Order

/-!
# What an account holds

The rows of one account, cut out of the tables in their order. A call that concerns the account does
the same to the cut as to the tables, and leaves what any other account holds as it is.
-/

namespace Latchkey

/-! ## Lists -/

section Lists

variable {α : Type} {p q : α → Bool} {xs ys : List α} {x y : α}

theorem filter_filter_of_imp (h : ∀ x, q x = true → p x = true) :
    (xs.filter p).filter q = xs.filter q := by
  rw [List.filter_filter]
  refine List.filter_congr fun x _ => ?_
  cases hq : q x with
  | true => simp [h x hq]
  | false => rfl

theorem find?_filter_of_imp (h : ∀ x, q x = true → p x = true) :
    (xs.filter p).find? q = xs.find? q := by
  rw [← List.head?_filter, filter_filter_of_imp h, List.head?_filter]

theorem any_filter_of_imp (h : ∀ x, q x = true → p x = true) : (xs.filter p).any q = xs.any q := by
  rw [List.any_filter]
  congr 1
  funext x
  cases hq : q x with
  | true => simp [h x hq]
  | false => simp

theorem filter_append_of_all (h : ∀ y ∈ ys, p y = true) :
    (xs ++ ys).filter p = xs.filter p ++ ys := by
  rw [List.filter_append, List.filter_eq_self.2 h]

theorem filter_append_of_none (h : ∀ y ∈ ys, p y = false) :
    (xs ++ ys).filter p = xs.filter p := by
  have hnone : ys.filter p = [] := List.filter_eq_nil_iff.2 fun y hy => by simp [h y hy]
  rw [List.filter_append, hnone, List.append_nil]

end Lists

namespace Tables

/-! ## The cut -/

/-- The number is that of the account of this name. -/
def owns (t : Tables) (username : String) (account : RowId) : Bool :=
  t.accounts.any fun a => a.id = account && a.username = username

/-- The number is that of a key of the account of this name. -/
def ownsKey (t : Tables) (username : String) (key : RowId) : Bool :=
  t.keys.any fun k => k.id = key && t.owns username k.account

/-- The tables without the rows of other accounts. -/
def only (t : Tables) (username : String) : Tables where
  lastId := t.lastId
  accounts := t.accounts.filter (·.username = username)
  devices := t.devices.filter (t.owns username ·.account)
  securityTrail := t.securityTrail.filter (t.owns username ·.account)
  charges := t.charges.filter (t.owns username ·.account)
  keys := t.keys.filter (t.owns username ·.account)
  keyTrail := t.keyTrail.filter (t.ownsKey username ·.key)

variable {t t' : Tables} {username other : String} {account id : RowId}

theorem owns_iff : t.owns username account = true ↔ t.HasAccount account username := by
  simp [owns, HasAccount]

theorem owns_of_accountNamed? {a : Account} (ha : t.accountNamed? username = some a) :
    t.owns username a.id = true := by
  obtain ⟨hmem, hname⟩ := accountNamed?_some ha
  exact owns_iff.2 ⟨a, hmem, rfl, hname⟩

theorem isTaken_eq_isSome (t : Tables) (username : String) :
    t.isTaken username = (t.accountNamed? username).isSome := by
  rw [isTaken, accountNamed?, Bool.eq_iff_iff, List.find?_isSome, List.any_eq_true]

theorem InOrder.accountNamed?_of_mem (ht : t.InOrder) {a : Account} (ha : a ∈ t.accounts) :
    t.accountNamed? a.username = some a :=
  find?_eq_some_of_nodup ht.accounts.usernames ha

theorem owns_of_accounts_eq (h : t'.accounts = t.accounts) : t'.owns = t.owns := by
  unfold owns
  rw [h]

/-- Accounts keep their names while tables grow, and no other takes them. -/
theorem InOrder.owns_grow (ht' : t'.InOrder) (hgrows : t.Grows t') (howner : t.HasOwner account) :
    t'.owns username account = t.owns username account := by
  rw [Bool.eq_iff_iff, owns_iff, owns_iff]
  constructor
  · rintro ⟨a, ha, hid, rfl⟩
    obtain ⟨name, hthere⟩ := howner
    obtain ⟨b, hb, hid', rfl⟩ := hthere.grow hgrows
    rw [List.inj_on_of_nodup_map ht'.accounts.ids ha hb (hid.trans hid'.symm)]
    exact hthere
  · exact fun h => h.grow hgrows

/-- No account has two names. -/
theorem InOrder.owns_other (ht : t.InOrder) (howner : t.HasAccount account username)
    (hother : other ≠ username) : t.owns other account = false := by
  rw [Bool.eq_false_iff]
  intro h
  obtain ⟨a, ha, hid, rfl⟩ := owns_iff.1 h
  obtain ⟨b, hb, hid', rfl⟩ := howner
  rw [List.inj_on_of_nodup_map ht.accounts.ids ha hb (hid.trans hid'.symm)] at hother
  exact hother rfl

theorem InOrder.owns_named (ht : t.InOrder) {a : Account} (ha : t.accountNamed? other = some a) :
    t.owns username a.id = decide (other = username) := by
  have hthere : t.HasAccount a.id other := owns_iff.1 (owns_of_accountNamed? ha)
  by_cases hname : other = username
  · subst hname
    simp [owns_of_accountNamed? ha]
  · simp [ht.owns_other hthere (Ne.symm hname), hname]

/-- No two accounts have one name. -/
theorem InOrder.eq_of_owns (ht : t.InOrder) (howner : t.HasAccount account username)
    (h : t.owns username id = true) : id = account := by
  obtain ⟨a, ha, rfl, hname⟩ := owns_iff.1 h
  obtain ⟨b, hb, rfl, hname'⟩ := howner
  rw [List.inj_on_of_nodup_map ht.accounts.usernames ha hb (hname.trans hname'.symm)]

theorem InOrder.nextId_ne (ht : t.InOrder) (howner : t.HasOwner account) :
    t.nextId ≠ account := by
  have hle := ht.owner_le howner
  unfold nextId
  grind

theorem InOrder.owns_fresh (ht : t.InOrder) (username : String) :
    t.owns username t.nextId = false := by
  rw [Bool.eq_false_iff]
  intro h
  exact ht.nextId_ne ⟨username, owns_iff.1 h⟩ rfl

/-- Keys with one number belong to one account. -/
theorem InOrder.ownsKey_of_mem (ht : t.InOrder) {key : ApiKey} (hkey : key ∈ t.keys)
    (username : String) : t.ownsKey username key.id = t.owns username key.account := by
  rw [Bool.eq_iff_iff, ownsKey, List.any_eq_true]
  constructor
  · rintro ⟨k, hk, h⟩
    simp only [Bool.and_eq_true, decide_eq_true_eq] at h
    rw [← ht.keys.eq_of_id_eq hk hkey h.1]
    exact h.2
  · intro h
    exact ⟨key, hkey, by simp [h]⟩

/-! ## Owners after writes -/

theorem owns_insertAccount {a : NewAccount} (h : t.isTaken a.username = false) :
    (t.insertAccount a).2.owns username account =
      (t.owns username account || (t.nextId = account && a.username = username)) := by
  rw [owns, insertAccount_eq h, List.any_append, List.any_cons, List.any_nil, Bool.or_false]
  rfl

theorem owns_saveAccount (ht : t.AccountsInOrder) {a : Account} (hrow : t.HasRowOf a)
    (events : List SecurityEvent) (now : Instant) :
    (t.saveAccount a events now).2.owns = t.owns := by
  funext username account
  rw [owns, saveAccount_eq ht hrow, List.any_map, owns, Bool.eq_iff_iff, List.any_eq_true,
    List.any_eq_true]
  refine exists_congr fun b => and_congr_right fun hb => ?_
  have hiff := ht.id_eq_iff hrow hb
  simp only [Function.comp_apply]
  split
  · next hid => rw [hid, hiff.1 hid]
  · exact Iff.rfl

/-- A row that is saved keeps its name. -/
theorem filter_saved (ht : t.AccountsInOrder) {a : Account} (hrow : t.HasRowOf a) :
    (t.accounts.map fun b => if b.id = a.id then a else b).filter (·.username = username) =
      (t.accounts.filter (·.username = username)).map fun b => if b.id = a.id then a else b := by
  rw [List.filter_map]
  congr 1
  refine List.filter_congr fun b hb => ?_
  simp only [Function.comp_apply]
  split
  · next hid => rw [(ht.id_eq_iff hrow hb).1 hid]
  · rfl

/-- The trail tells nothing yet of a key that is yet to come. -/
theorem InOrder.key_ne_nextId (ht : t.InOrder) {e : KeyEntry} (he : e ∈ t.keyTrail) :
    t.nextId ≠ e.key := by
  intro heq
  have hfresh := ht.keys.fresh t.nextId (by unfold nextId; grind)
  have hmem : e ∈ t.keyTrailOf t.nextId := List.mem_filter.2 ⟨he, by simp [heq]⟩
  rw [List.map_eq_nil_iff.1 hfresh] at hmem
  cases hmem

theorem InOrder.ownsKey_fresh (ht : t.InOrder) (username : String) :
    t.ownsKey username t.nextId = false := by
  rw [Bool.eq_false_iff]
  intro h
  obtain ⟨k, hk, hkey⟩ := List.any_eq_true.1 h
  simp only [Bool.and_eq_true, decide_eq_true_eq] at hkey
  have hle := ht.keys.ids_le k hk
  rw [hkey.1] at hle
  unfold nextId at hle
  grind

end Tables

/-! ## Owners of keys after writes -/

namespace Tables

variable {t : Tables} {username : String} {account id : RowId}

theorem key?_account {key : ApiKey} (h : t.key? account id = some key) : key.account = account := by
  have hlive : isLive account id key = true := List.find?_some h
  simp only [isLive, Bool.and_eq_true, decide_eq_true_eq] at hlive
  exact hlive.1.2

theorem owns_insertKey (k : NewApiKey) (limit : Int) : (t.insertKey k limit).2.owns = t.owns :=
  owns_of_accounts_eq (Call.accounts_of_sparesAccounts (c := .insertKey k limit) trivial t)

theorem ownsKey_insertKey {k : NewApiKey} {limit : Int}
    (h : ¬limit ≤ (t.keysOf k.account).length) :
    (t.insertKey k limit).2.ownsKey username id =
      (t.ownsKey username id || (t.nextId = id && t.owns username k.account)) := by
  rw [ownsKey, owns_insertKey, insertKey_eq h, List.any_append, List.any_cons, List.any_nil,
    Bool.or_false]
  rfl

theorem owns_modifyKey (account id : RowId) (edit : ApiKey → KeyChange)
    (security : Option SecurityEvent) (now : Instant) :
    (t.modifyKey account id edit security now).2.owns = t.owns :=
  owns_of_accounts_eq (Call.accounts_of_sparesAccounts
    (c := .modifyKey account id edit security now) trivial t)

theorem ownsKey_modifyKey {edit : ApiKey → KeyChange} {key : ApiKey}
    (hkey : t.key? account id = some key) (hevents : (edit key).events ≠ [])
    (hedit : (edit key).key.id = key.id ∧ (edit key).key.account = key.account)
    (security : Option SecurityEvent) (now : Instant) :
    (t.modifyKey account id edit security now).2.ownsKey = t.ownsKey := by
  funext username key'
  rw [ownsKey, owns_modifyKey, modifyKey_eq hkey hevents]
  refine any_replaceFirst fun k hk => ?_
  simp only [isLive, Bool.and_eq_true, decide_eq_true_eq] at hk
  rw [hedit.1, hedit.2, (key?_some hkey).2.1, key?_account hkey, hk.1.1, hk.1.2]

end Tables

/-! ## What others hold -/

namespace Tables

variable {t t' : Tables} {username other : String} {account id : RowId}

theorem filter_append_securityEntries_of_neg {trail : List SecurityEntry} {now : Instant}
    {last : RowId} {events : List SecurityEvent} (h : t.owns other account = false) :
    (trail ++ securityEntries account now last events).filter (t.owns other ·.account) =
      trail.filter (t.owns other ·.account) := by
  refine filter_append_of_none fun e he => ?_
  rw [account_of_mem_securityEntries he]
  exact h

theorem filter_append_keyEntries_of_neg {trail : List KeyEntry} {key : RowId} {now : Instant}
    {last : RowId} {events : List KeyEvent} (h : t.ownsKey other key = false) :
    (trail ++ keyEntries key now last events).filter (t.ownsKey other ·.key) =
      trail.filter (t.ownsKey other ·.key) := by
  refine filter_append_of_none fun e he => ?_
  rw [key_of_mem_keyEntries he]
  exact h

/-- What the account holds is the same in both tables. -/
def HoldsSame (t t' : Tables) (other : String) : Prop :=
  t'.only other = { t.only other with lastId := t'.lastId }

theorem HoldsSame.of_eq (h : t' = t) : t.HoldsSame t' other := by
  rw [h]
  rfl

theorem holdsSame_insertAccount (ht : t.InOrder) {a : NewAccount} (hname : a.username ≠ other) :
    t.HoldsSame (t.insertAccount a).2 other := by
  cases htaken : t.isTaken a.username with
  | true => exact .of_eq (congrArg Prod.snd (insertAccount_of_taken htaken))
  | false =>
    have howns : (t.insertAccount a).2.owns other = t.owns other := by
      funext account
      simp [owns_insertAccount htaken, hname]
    have hrow : (t.accounts ++ [a.row t.nextId]).filter (·.username = other) =
        t.accounts.filter (·.username = other) :=
      filter_append_of_none (by simpa [NewAccount.row] using hname)
    simp only [HoldsSame, only, ownsKey, howns]
    simp only [insertAccount_eq htaken, hrow,
      filter_append_securityEntries_of_neg (ht.owns_fresh other)]

theorem holdsSame_saveAccount (ht : t.InOrder) {a : Account} (hrow : t.HasRowOf a)
    (hname : a.username ≠ other) (howns : t.owns other a.id = false) (events : List SecurityEvent)
    (now : Instant) : t.HoldsSame (t.saveAccount a events now).2 other := by
  have hafter := owns_saveAccount ht.accounts hrow events now
  have haccounts : (t.accounts.map fun b => if b.id = a.id then a else b).filter
      (·.username = other) = t.accounts.filter (·.username = other) := by
    rw [filter_saved ht.accounts hrow]
    refine (List.map_congr_left fun b hb => if_neg fun hid => hname ?_).trans (List.map_id' _)
    obtain ⟨hb, hother⟩ := List.mem_filter.1 hb
    have hsaved := (ht.accounts.id_eq_iff hrow hb).1 hid
    exact hsaved.symm.trans (of_decide_eq_true hother)
  simp only [HoldsSame, only, ownsKey, hafter]
  simp only [saveAccount_eq ht.accounts hrow, haccounts,
    filter_append_securityEntries_of_neg howns]

theorem holdsSame_insertKey (ht : t.InOrder) {k : NewApiKey}
    (howns : t.owns other k.account = false) (limit : Int) :
    t.HoldsSame (t.insertKey k limit).2 other := by
  by_cases hquota : limit ≤ (t.keysOf k.account).length
  · exact .of_eq (by simp only [insertKey, if_pos hquota])
  · have hownsKey : (t.insertKey k limit).2.ownsKey other = t.ownsKey other := by
      funext id
      simp [ownsKey_insertKey hquota, howns]
    have hkeys : (t.keys ++ [k.row t.nextId]).filter (t.owns other ·.account) =
        t.keys.filter (t.owns other ·.account) :=
      filter_append_of_none (by simpa [NewApiKey.row] using howns)
    simp only [HoldsSame, only, owns_insertKey, hownsKey]
    simp only [insertKey_eq hquota, hkeys, filter_append_securityEntries_of_neg howns,
      filter_append_keyEntries_of_neg (ht.ownsKey_fresh other)]

theorem holdsSame_modifyKey (ht : t.InOrder) (howns : t.owns other account = false)
    {edit : ApiKey → KeyChange}
    (hedit : ∀ key, (edit key).key.id = key.id ∧ (edit key).key.account = key.account)
    (security : Option SecurityEvent) (now : Instant) :
    t.HoldsSame (t.modifyKey account id edit security now).2 other := by
  cases hkey : t.key? account id with
  | none => exact .of_eq (congrArg Prod.snd (modifyKey_of_key?_eq_none hkey _ _ _))
  | some key =>
    by_cases hevents : (edit key).events = []
    · exact .of_eq (congrArg Prod.snd (modifyKey_of_events_eq_nil hkey hevents _ _))
    · obtain ⟨hmem, hid, -⟩ := key?_some hkey
      have haccount := key?_account hkey
      have hownsKey : t.ownsKey other id = false := by
        rw [← hid, ht.ownsKey_of_mem hmem, haccount]
        exact howns
      have hkeys : (replaceFirst (isLive account id) (edit key).key t.keys).filter
          (t.owns other ·.account) = t.keys.filter (t.owns other ·.account) := by
        refine filter_replaceFirst_of_neg (fun k hk => ?_) ?_
        · simp only [isLive, Bool.and_eq_true, decide_eq_true_eq] at hk
          rw [hk.1.2]
          exact howns
        · rw [(hedit key).2, haccount]
          exact howns
      simp only [HoldsSame, only, owns_modifyKey, ownsKey_modifyKey hkey hevents (hedit key)]
      simp only [modifyKey_eq hkey hevents, hkeys, filter_append_securityEntries_of_neg howns,
        filter_append_keyEntries_of_neg hownsKey]

end Tables

namespace Call

variable {β : Type} {c : Call β} {t : Tables} {limit : Int} {username other : String}

/-- A call that concerns one account leaves what any other holds as it is. -/
theorem only_other (ht : t.InOrder) (hproper : c.IsProper limit)
    (hconcerns : c.Concerns username t) (hother : other ≠ username) :
    (c.apply t).2.only other = { t.only other with lastId := (c.apply t).2.lastId } := by
  have hforeign {account : RowId} (h : t.HasAccount account username) :
      t.owns other account = false := ht.owns_other h hother
  have hkept {account id : RowId} (h : t.HasAccount account username)
      (hid : t.owns other id = true) : id ≠ account := by
    rintro rfl
    rw [hforeign h] at hid
    cases hid
  cases c with
  | insertAccount a =>
    obtain rfl : a.username = username := hconcerns
    exact Tables.holdsSame_insertAccount ht hother.symm
  | saveAccount a events now =>
    obtain ⟨rfl, hthere⟩ := hconcerns
    exact Tables.holdsSame_saveAccount ht hthere hother.symm (hforeign hthere) events now
  | insertDevice d =>
    have hdevices : (t.devices ++ [d]).filter (t.owns other ·.account) =
        t.devices.filter (t.owns other ·.account) :=
      filter_append_of_none (by simpa using hforeign hconcerns)
    exact congrArg (fun devices => { t.only other with devices }) hdevices
  | deleteDevice account token =>
    refine congrArg (fun devices => { t.only other with devices }) (filter_filter_of_imp ?_)
    intro d hd
    simp [hkept hconcerns hd]
  | deleteDevicesOf account =>
    refine congrArg (fun devices => { t.only other with devices }) (filter_filter_of_imp ?_)
    intro d hd
    simp [hkept hconcerns hd]
  | recordSecurity e =>
    have htrail : (t.securityTrail ++ [t.securityEntry e]).filter (t.owns other ·.account) =
        t.securityTrail.filter (t.owns other ·.account) :=
      filter_append_of_none (List.forall_mem_singleton.2 (hforeign hconcerns))
    exact congrArg (fun securityTrail =>
      { t.only other with lastId := t.nextId, securityTrail }) htrail
  | insertKey k l => exact Tables.holdsSame_insertKey ht (hforeign hconcerns) l
  | modifyKey account id edit security now =>
    exact Tables.holdsSame_modifyKey ht (hforeign hconcerns) (IsProper.edit hproper) security now
  | recordCharge c => exact hconcerns.elim
  | _ => exact Tables.HoldsSame.of_eq rfl

end Call

/-! ## What the account holds -/

namespace Tables

variable {t : Tables} {username : String} {account id : RowId}

theorem filter_append_securityEntries_of_pos {trail : List SecurityEntry} {now : Instant}
    {last : RowId} {events : List SecurityEvent} {owned : RowId → Bool} (h : owned account = true) :
    (trail ++ securityEntries account now last events).filter (owned ·.account) =
      trail.filter (owned ·.account) ++ securityEntries account now last events := by
  refine filter_append_of_all fun e he => ?_
  rw [account_of_mem_securityEntries he]
  exact h

theorem filter_append_keyEntries_of_pos {trail : List KeyEntry} {key : RowId} {now : Instant}
    {last : RowId} {events : List KeyEvent} {owned : RowId → Bool} (h : owned key = true) :
    (trail ++ keyEntries key now last events).filter (owned ·.key) =
      trail.filter (owned ·.key) ++ keyEntries key now last events := by
  refine filter_append_of_all fun e he => ?_
  rw [key_of_mem_keyEntries he]
  exact h

theorem nextId_only (t : Tables) (username : String) : (t.only username).nextId = t.nextId := rfl

theorem isTaken_only (t : Tables) (username : String) :
    (t.only username).isTaken username = t.isTaken username := by
  simp [isTaken, only, List.any_filter]

theorem accountNamed?_only (t : Tables) (username : String) :
    (t.only username).accountNamed? username = t.accountNamed? username :=
  find?_filter_of_imp fun _ h => h

theorem keysOf_only (h : t.HasAccount account username) :
    (t.only username).keysOf account = t.keysOf account := by
  refine filter_filter_of_imp fun k hk => ?_
  simp only [Bool.and_eq_true, decide_eq_true_eq] at hk
  rw [hk.1]
  exact owns_iff.2 h

theorem key?_only (h : t.HasAccount account username) (id : RowId) :
    (t.only username).key? account id = t.key? account id := by
  refine find?_filter_of_imp fun k hk => ?_
  simp only [isLive, Bool.and_eq_true, decide_eq_true_eq] at hk
  rw [hk.1.2]
  exact owns_iff.2 h

theorem devicesOf_only (h : t.HasAccount account username) :
    (t.only username).devicesOf account = t.devicesOf account := by
  refine filter_filter_of_imp fun d hd => ?_
  rw [of_decide_eq_true hd]
  exact owns_iff.2 h

theorem securityTrailOf_only (h : t.HasAccount account username) :
    (t.only username).securityTrailOf account = t.securityTrailOf account := by
  refine filter_filter_of_imp fun e he => ?_
  rw [of_decide_eq_true he]
  exact owns_iff.2 h

theorem chargesOf_only (h : t.HasAccount account username) :
    (t.only username).chargesOf account = t.chargesOf account := by
  refine filter_filter_of_imp fun c hc => ?_
  rw [of_decide_eq_true hc]
  exact owns_iff.2 h

theorem InOrder.keyTrailOf_only (ht : t.InOrder) {k : ApiKey} (hk : k ∈ t.keys)
    (h : t.HasAccount k.account username) :
    (t.only username).keyTrailOf k.id = t.keyTrailOf k.id := by
  refine filter_filter_of_imp fun e he => ?_
  rw [of_decide_eq_true he, ht.ownsKey_of_mem hk]
  exact owns_iff.2 h

theorem hasRowOf_only {a : Account} (h : t.HasRowOf a) : (t.only a.username).HasRowOf a := by
  obtain ⟨b, hb, hid, hname⟩ := h
  exact ⟨b, List.mem_filter.2 ⟨hb, decide_eq_true hname⟩, hid, hname⟩

theorem accountsInOrder_only (ht : t.AccountsInOrder) : (t.only username).AccountsInOrder where
  usernames := ht.usernames.sublist (List.filter_sublist.map _)
  ids := ht.ids.sublist (List.filter_sublist.map _)
  ids_le := fun a ha => ht.ids_le a (List.mem_of_mem_filter ha)

/-! ### Writes -/

theorem insertAccount_only (ht : t.InOrder) (a : NewAccount) :
    (t.only a.username).insertAccount a =
      ((t.insertAccount a).1, (t.insertAccount a).2.only a.username) := by
  have htakenOnly := t.isTaken_only a.username
  cases htaken : t.isTaken a.username with
  | true =>
    rw [htaken] at htakenOnly
    rw [insertAccount_of_taken htaken, insertAccount_of_taken htakenOnly]
  | false =>
    rw [htaken] at htakenOnly
    have hnew : (t.insertAccount a).2.owns a.username t.nextId = true := by
      simp [owns_insertAccount htaken]
    have howns (account : RowId) (howner : t.HasOwner account) :
        (t.insertAccount a).2.owns a.username account = t.owns a.username account := by
      simp [owns_insertAccount htaken, ht.nextId_ne howner]
    have hownsKey : (t.insertAccount a).2.ownsKey a.username = t.ownsKey a.username := by
      funext key
      rw [ownsKey, congrArg (·.2.keys) (insertAccount_eq htaken), ownsKey]
      rw [Bool.eq_iff_iff, List.any_eq_true, List.any_eq_true]
      refine exists_congr fun k => and_congr_right fun hk => ?_
      rw [howns _ (ht.keyOwners k hk)]
    have hdevices := List.filter_congr fun d hd => howns _ (ht.deviceOwners d hd)
    have hcharges := List.filter_congr fun c hc => howns _ (ht.chargeOwners c hc)
    have hkeys := List.filter_congr fun k hk => howns _ (ht.keyOwners k hk)
    have htrail : (t.securityTrail ++ securityEntries t.nextId a.createdAt t.nextId
        [.created]).filter ((t.insertAccount a).2.owns a.username ·.account) =
        t.securityTrail.filter (t.owns a.username ·.account) ++
          securityEntries t.nextId a.createdAt t.nextId [.created] := by
      rw [filter_append_securityEntries_of_pos hnew,
        List.filter_congr fun e he => howns _ (ht.securityOwners e he)]
    have hrow : (t.accounts ++ [a.row t.nextId]).filter (·.username = a.username) =
        t.accounts.filter (·.username = a.username) ++ [a.row t.nextId] :=
      filter_append_of_all (by simp [NewAccount.row])
    rw [insertAccount_eq htakenOnly]
    refine Prod.ext ?_ ?_
    · simp only [insertAccount_eq htaken]
      rfl
    · simp only [nextId_only]
      simp only [only, hownsKey]
      generalize hafter : (t.insertAccount a).2.owns = owns at *
      simp only [insertAccount_eq htaken, hrow, hdevices, hcharges, hkeys, htrail]

theorem saveAccount_only (ht : t.InOrder) {a : Account} (hrow : t.HasRowOf a)
    (events : List SecurityEvent) (now : Instant) :
    (t.only a.username).saveAccount a events now =
      ((t.saveAccount a events now).1, (t.saveAccount a events now).2.only a.username) := by
  have howns : t.owns a.username a.id = true := owns_iff.2 hrow
  have hsaved := saveAccount_eq (accountsInOrder_only ht.accounts) (hasRowOf_only hrow) events now
  refine (hsaved.trans (Prod.ext ?_ ?_))
  · simp only [saveAccount_eq ht.accounts hrow]
  · simp only [only, ownsKey, owns_saveAccount ht.accounts hrow]
    simp only [saveAccount_eq ht.accounts hrow, filter_saved ht.accounts hrow,
      filter_append_securityEntries_of_pos howns]

theorem insertKey_only (ht : t.InOrder) {k : NewApiKey} (hthere : t.HasAccount k.account username)
    (limit : Int) : (t.only username).insertKey k limit =
      ((t.insertKey k limit).1, (t.insertKey k limit).2.only username) := by
  have howns : t.owns username k.account = true := owns_iff.2 hthere
  have hkeysOf := keysOf_only hthere
  by_cases hquota : limit ≤ (t.keysOf k.account).length
  · have hquotaOnly : limit ≤ ((t.only username).keysOf k.account).length := hkeysOf ▸ hquota
    simp only [insertKey, if_pos hquota, if_pos hquotaOnly]
  · have hadded := insertKey_eq (t := t.only username) (hkeysOf ▸ hquota)
    have hnew : (t.insertKey k limit).2.ownsKey username t.nextId = true := by
      simp [ownsKey_insertKey hquota, howns]
    have hkeys : (t.keys ++ [k.row t.nextId]).filter (t.owns username ·.account) =
        t.keys.filter (t.owns username ·.account) ++ [k.row t.nextId] :=
      filter_append_of_all (List.forall_mem_singleton.2 howns)
    have htrail : (t.insertKey k limit).2.keyTrail.filter
        ((t.insertKey k limit).2.ownsKey username ·.key) =
        t.keyTrail.filter (t.ownsKey username ·.key) ++
          keyEntries t.nextId k.createdAt t.nextId [.created] := by
      rw [congrArg (·.2.keyTrail) (insertKey_eq hquota), filter_append_keyEntries_of_pos hnew]
      congr 1
      refine List.filter_congr fun e he => ?_
      simp [ownsKey_insertKey hquota, ht.key_ne_nextId he]
    rw [hadded]
    refine Prod.ext ?_ ?_
    · simp only [insertKey_eq hquota]
      rfl
    · simp only [nextId_only]
      simp only [only, htrail, owns_insertKey]
      simp only [insertKey_eq hquota, hkeys, filter_append_securityEntries_of_pos howns]

theorem modifyKey_only (ht : t.InOrder) (hthere : t.HasAccount account username)
    {edit : ApiKey → KeyChange}
    (hedit : ∀ key, (edit key).key.id = key.id ∧ (edit key).key.account = key.account)
    (security : Option SecurityEvent) (now : Instant) :
    (t.only username).modifyKey account id edit security now =
      ((t.modifyKey account id edit security now).1,
        (t.modifyKey account id edit security now).2.only username) := by
  have howns : t.owns username account = true := owns_iff.2 hthere
  have hkeyOnly := key?_only hthere id
  cases hkey : t.key? account id with
  | none =>
    rw [modifyKey_of_key?_eq_none hkey, modifyKey_of_key?_eq_none (hkeyOnly.trans hkey)]
  | some key =>
    by_cases hevents : (edit key).events = []
    · simp only [modifyKey_of_events_eq_nil hkey hevents,
        modifyKey_of_events_eq_nil (hkeyOnly.trans hkey) hevents]
    · obtain ⟨hmem, hid, -⟩ := key?_some hkey
      have haccount := key?_account hkey
      have hownsKey : t.ownsKey username id = true := by
        rw [← hid, ht.ownsKey_of_mem hmem, haccount]
        exact howns
      have hkeys : (replaceFirst (isLive account id) (edit key).key t.keys).filter
          (t.owns username ·.account) = replaceFirst (isLive account id) (edit key).key
            (t.keys.filter (t.owns username ·.account)) := by
        refine filter_replaceFirst_of_pos (fun k hk => ?_) ?_
        · simp only [isLive, Bool.and_eq_true, decide_eq_true_eq] at hk
          rw [hk.1.2]
          exact howns
        · rw [(hedit key).2, haccount]
          exact howns
      rw [modifyKey_eq (hkeyOnly.trans hkey) hevents]
      refine Prod.ext ?_ ?_
      · simp only [modifyKey_eq hkey hevents]
      · simp only [only, owns_modifyKey, ownsKey_modifyKey hkey hevents (hedit key)]
        simp only [modifyKey_eq hkey hevents, hkeys, filter_append_securityEntries_of_pos howns,
          filter_append_keyEntries_of_pos hownsKey]

end Tables

namespace Call

variable {β : Type} {c : Call β} {t : Tables} {limit : Int} {username : String}

/-- A call that concerns one account does the same to what the account holds as to all tables. -/
theorem apply_only (ht : t.InOrder) (hproper : c.IsProper limit)
    (hconcerns : c.Concerns username t) :
    c.apply (t.only username) = ((c.apply t).1, (c.apply t).2.only username) := by
  have hown {account : RowId} (h : t.HasAccount account username) :
      t.owns username account = true := Tables.owns_iff.2 h
  cases c with
  | findAccountNamed name =>
    obtain rfl : name = username := hconcerns
    simp only [apply, look, Tables.accountNamed?_only]
  | isTaken name =>
    obtain rfl : name = username := hconcerns
    simp only [apply, look, Tables.isTaken_only]
  | listDevices account => simp only [apply, look, Tables.devicesOf_only hconcerns]
  | securityTrail account => simp only [apply, look, Tables.securityTrailOf_only hconcerns]
  | securityPage account page => simp only [apply, look, Tables.securityTrailOf_only hconcerns]
  | chargePage account page => simp only [apply, look, Tables.chargesOf_only hconcerns]
  | countKeys account => simp only [apply, look, Tables.keysOf_only hconcerns]
  | listKeys account => simp only [apply, look, Tables.keysOf_only hconcerns]
  | findKey account id => simp only [apply, look, Tables.key?_only hconcerns id]
  | keyPage key page =>
    obtain ⟨k, hk, rfl, haccount⟩ := hconcerns
    simp only [apply, look, ht.keyTrailOf_only hk haccount]
  | insertAccount a =>
    obtain rfl : a.username = username := hconcerns
    simp only [apply, sure, Tables.insertAccount_only ht a]
  | saveAccount a events now =>
    obtain ⟨rfl, hthere⟩ := hconcerns
    exact Tables.saveAccount_only ht hthere events now
  | insertDevice d =>
    have hdevices : (t.devices ++ [d]).filter (t.owns username ·.account) =
        t.devices.filter (t.owns username ·.account) ++ [d] :=
      filter_append_of_all (List.forall_mem_singleton.2 (hown hconcerns))
    exact congrArg (fun devices => (_, { t.only username with devices })) hdevices.symm
  | deleteDevice account token =>
    refine Prod.ext ?_ ?_
    · refine congrArg Except.ok (any_filter_of_imp fun d hd => ?_)
      simp only [Bool.and_eq_true, decide_eq_true_eq] at hd
      rw [hd.1]
      exact hown hconcerns
    · exact congrArg (fun devices => { t.only username with devices }) (List.filter_comm ..)
  | deleteDevicesOf account =>
    refine Prod.ext ?_ ?_
    · simp only [apply, sure, Tables.deleteDevicesOf, Tables.devicesOf_only hconcerns]
    · exact congrArg (fun devices => { t.only username with devices }) (List.filter_comm ..)
  | recordSecurity e =>
    have htrail : (t.securityTrail ++ [t.securityEntry e]).filter (t.owns username ·.account) =
        t.securityTrail.filter (t.owns username ·.account) ++ [t.securityEntry e] :=
      filter_append_of_all (List.forall_mem_singleton.2 (hown hconcerns))
    exact congrArg (fun securityTrail =>
      (_, { t.only username with lastId := t.nextId, securityTrail })) htrail.symm
  | insertKey k l => simp only [apply, sure, Tables.insertKey_only ht hconcerns l]
  | modifyKey account id edit security now =>
    simp only [apply, sure, Tables.modifyKey_only ht hconcerns (IsProper.edit hproper)]
  | _ => exact hconcerns.elim

end Call

end Latchkey
