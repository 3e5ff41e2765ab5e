import Mathlib.Data.List.Chain
import Mathlib.Data.List.Count
import Latchkey.Proofs.Footprint
import Latchkey.Proofs.Patch
import Latchkey.Proofs.SecurityTrail
import Latchkey.Proofs.Transcript

/-!
# Replaying the record of an account

What is on record for an account can be read back. Each label about a setting flips it, and the
latest is how it stands; the full name has changed as often as is told, and so often the password
was reset. An operation writes what it has changed and nothing else, so an update that changes
nothing is not on record at all.
-/

namespace Latchkey

open Session

/-! ## Settings on record -/

namespace SecurityEvent

/-- The value that an event gives to a setting, if it is about the setting. -/
def value? (setting : Bool → SecurityEvent) (event : SecurityEvent) : Option Bool :=
  [true, false].find? fun b => event = setting b

end SecurityEvent

/-- The value of a setting that a label tells of, if it tells of the setting. -/
def told? (setting : Bool → SecurityEvent) (label : String) : Option Bool :=
  [true, false].find? fun b => label = (setting b).label

theorem told?_label (setting : Bool → SecurityEvent) (event : SecurityEvent) :
    told? setting event.label = event.value? setting := by
  simp only [told?, SecurityEvent.value?, SecurityEvent.label_injective.eq_iff]

/-- The labels tell how a setting stands that was off at first: each one about it flips it, and the
latest one is its value. -/
structure Settles (setting : Bool → SecurityEvent) (labels : List String) (value : Bool) :
    Prop where
  flips : (false :: labels.filterMap (told? setting)).IsChain (· ≠ ·)
  latest : (labels.filterMap (told? setting)).getLast?.getD false = value

theorem Settles.append {setting : Bool → SecurityEvent} {labels : List String} {before after : Bool}
    (h : Settles setting labels before) {events : List SecurityEvent}
    (hevents : events.filterMap (·.value? setting) = switched before after) :
    Settles setting (labels ++ events.map SecurityEvent.label) after := by
  have htold : (labels ++ events.map SecurityEvent.label).filterMap (told? setting) =
      labels.filterMap (told? setting) ++ switched before after := by
    rw [List.filterMap_append, List.filterMap_map, ← hevents]
    refine congrArg (_ ++ ·) (List.filterMap_congr fun event _ => ?_)
    exact told?_label setting event
  by_cases hsame : before = after
  · rw [hsame, switched_self, List.append_nil] at htold
    exact ⟨htold.symm ▸ h.flips, htold.symm ▸ hsame ▸ h.latest⟩
  · rw [switched, if_neg hsame] at htold
    refine ⟨?_, ?_⟩
    · rw [htold, ← List.cons_append, List.isChain_append]
      refine ⟨h.flips, List.isChain_singleton after, ?_⟩
      intro last hlast next hnext
      rw [List.getLast?_cons, h.latest] at hlast
      cases hlast
      cases hnext
      exact hsame
    · rw [htold, List.getLast?_concat]
      rfl

/-! ## What an update tells -/

/-- Events tell what has become of an account: how each setting stands if it was switched, and that
the full name is another if it is. -/
structure Account.Becomes (a b : Account) (events : List SecurityEvent) : Prop where
  billingAlert : events.filterMap (·.value? .billingAlert) = switched a.billingAlert b.billingAlert
  emailSubscription : events.filterMap (·.value? .emailSubscription) =
    switched a.emailSubscription b.emailSubscription
  fullName : events.count .fullName = (switched a.fullName b.fullName).length

namespace ProfileUpdate

variable (u : ProfileUpdate) (a : Account)

theorem apply_events : (u.apply a).events =
    (u.fullName.change? a.fullName).toList.map (fun _ => .fullName) ++
      (u.billingAlert.change? a.billingAlert).toList.map .billingAlert ++
      (u.emailSubscription.change? a.emailSubscription).toList.map .emailSubscription := by
  simp only [apply, editEmailSubscription, editBillingAlert, editFullName]
  cases u.fullName.change? a.fullName <;> cases u.billingAlert.change? a.billingAlert <;>
    cases u.emailSubscription.change? a.emailSubscription <;> rfl

theorem apply_account : (u.apply a).account =
    { a with
      fullName := (u.fullName.change? a.fullName).getD a.fullName
      billingAlert := (u.billingAlert.change? a.billingAlert).getD a.billingAlert
      emailSubscription :=
        (u.emailSubscription.change? a.emailSubscription).getD a.emailSubscription } := by
  simp only [apply, editEmailSubscription, editBillingAlert, editFullName]
  cases u.fullName.change? a.fullName <;> cases u.billingAlert.change? a.billingAlert <;>
    cases u.emailSubscription.change? a.emailSubscription <;> rfl

/-- Events are reported for what has been switched, and for nothing else. -/
theorem becomes_apply : a.Becomes (u.apply a).account (u.apply a).events := by
  have hname := u.fullName.toList_change? a.fullName
  have halerts := u.billingAlert.toList_change? a.billingAlert
  have hmail := u.emailSubscription.toList_change? a.emailSubscription
  rw [apply_account, apply_events]
  refine ⟨halerts ▸ ?_, hmail ▸ ?_, hname ▸ ?_⟩
  all_goals
    rcases u.fullName.change? a.fullName with _ | name <;>
      rcases u.billingAlert.change? a.billingAlert with _ | _ | _ <;>
      rcases u.emailSubscription.change? a.emailSubscription with _ | _ | _ <;> rfl

end ProfileUpdate

/-! ## What an operation tells -/

namespace Tables

/-- The setting is on for the account of this number. -/
def isOn (t : Tables) (id : RowId) (setting : Account → Bool) : Bool :=
  (t.account? id).any setting

/-- The full name that is kept for an account, if there is the account. -/
def fullName? (t : Tables) (id : RowId) : Option (Option String) :=
  (t.account? id).map (·.fullName)

/-- What an operation has put on record for an account tells what the operation has changed. It may
be an update, and it may have reset the password of an account. -/
structure Explains (t t' : Tables) (isUpdate : Bool) (reset? : Option RowId) (id : RowId)
    (events : List SecurityEvent) : Prop where
  labels : t'.securityLabels id = t.securityLabels id ++ events.map SecurityEvent.label
  billingAlert : events.filterMap (·.value? .billingAlert) =
    switched (t.isOn id (·.billingAlert)) (t'.isOn id (·.billingAlert))
  emailSubscription : events.filterMap (·.value? .emailSubscription) =
    switched (t.isOn id (·.emailSubscription)) (t'.isOn id (·.emailSubscription))
  fullName : events.count .fullName =
    if isUpdate && t'.fullName? id ≠ t.fullName? id then 1 else 0
  resets : events.count .passwordReset = if reset? = some id then 1 else 0

variable {t t' : Tables} {a b : Account} {id : RowId} {events : List SecurityEvent}

/-- Where accounts are as before, nothing may be on record of changes to their rows. -/
theorem explains_of_quiet (hlabels : t'.securityLabels id =
      t.securityLabels id ++ events.map SecurityEvent.label) (haccounts : t'.accounts = t.accounts)
    (hevents : ∀ event ∈ events, event ≠ .passwordReset ∧ ¬event.IsEdit) (isUpdate : Bool) :
    t.Explains t' isUpdate none id events := by
  have hsame : t'.account? id = t.account? id := by rw [account?, account?, haccounts]
  have hnone (setting : Bool → SecurityEvent) (hsetting : ∀ b, (setting b).IsEdit) :
      events.filterMap (·.value? setting) = [] := by
    refine List.filterMap_eq_nil_iff.2 fun event hevent => ?_
    refine List.find?_eq_none.2 fun b _ heq => (hevents event hevent).2 ?_
    rw [of_decide_eq_true heq]
    exact hsetting b
  refine ⟨hlabels, ?_, ?_, ?_, ?_⟩
  · rw [isOn, isOn, hsame, switched_self]
    exact hnone _ fun _ => trivial
  · rw [isOn, isOn, hsame, switched_self]
    exact hnone _ fun _ => trivial
  · have hcount : events.count .fullName = 0 :=
      List.count_eq_zero.2 fun hmem => (hevents .fullName hmem).2 trivial
    simp [hcount, fullName?, hsame]
  · have hcount : events.count .passwordReset = 0 :=
      List.count_eq_zero.2 fun hmem => (hevents .passwordReset hmem).1 rfl
    simp [hcount]

theorem explains_self (t : Tables) (isUpdate : Bool) (id : RowId) :
    t.Explains t isUpdate none id [] :=
  explains_of_quiet (List.append_nil _).symm rfl (List.forall_mem_nil _) isUpdate

theorem account?_append_of_ne (haccounts : t'.accounts = t.accounts ++ [a]) (hne : a.id ≠ id) :
    t'.account? id = t.account? id := by
  rw [account?, haccounts, List.find?_append, account?]
  simp [hne]

/-- An account that joins is on record with its creation. Its settings are off. -/
theorem explains_of_joined (ht : t.AccountsInOrder) (hfresh : t.lastId < a.id)
    (haccounts : t'.accounts = t.accounts ++ [a]) (hrecords : t.Records t' a.id [.created])
    (hbilling : a.billingAlert = false) (hemail : a.emailSubscription = false) (id : RowId) :
    ∃ events, t.Explains t' false none id events := by
  by_cases hid : a.id = id
  · subst hid
    have hnew : t.account? a.id = none := by
      refine List.find?_eq_none.2 fun b hb heq => ?_
      have hle := ht.ids_le b hb
      rw [of_decide_eq_true heq] at hle
      exact absurd hfresh (Int.not_lt.2 hle)
    have hfound : t'.account? a.id = some a := by
      rw [account?] at hnew ⊢
      rw [haccounts, List.find?_append, hnew]
      simp
    refine ⟨[.created], ?_, ?_, ?_, rfl, rfl⟩
    · rw [hrecords, if_pos rfl]
    · rw [isOn, isOn, hnew, hfound, Option.any_none, Option.any_some, hbilling]
      rfl
    · rw [isOn, isOn, hnew, hfound, Option.any_none, Option.any_some, hemail]
      rfl
  · have hsame := account?_append_of_ne haccounts hid
    refine ⟨[], ?_, ?_, ?_, rfl, rfl⟩
    · rw [hrecords, if_neg hid, List.map_nil]
    · rw [isOn, isOn, hsame, switched_self]
      rfl
    · rw [isOn, isOn, hsame, switched_self]
      rfl

theorem account?_saveAccount (ht : t.AccountsInOrder) (ha : a ∈ t.accounts) (hid : b.id = a.id)
    (hname : b.username = a.username) (events : List SecurityEvent) (now : Instant) (id : RowId) :
    (t.saveAccount b events now).2.account? id = if a.id = id then some b else t.account? id := by
  have hrow : t.HasRowOf b := ⟨a, ha, hid.symm, hname.symm⟩
  have hkeeps (c : Account) : (if c.id = b.id then b else c).id = c.id := by
    split
    · next heq => exact heq.symm
    · rfl
  have hmap : (t.saveAccount b events now).2.account? id =
      (t.account? id).map fun c => if c.id = b.id then b else c := by
    rw [saveAccount_eq ht hrow, account?, List.find?_map, account?]
    simp only [Function.comp_def, hkeeps]
  rw [hmap]
  cases hfound : t.account? id with
  | none =>
    have hne : a.id ≠ id := by
      intro heq
      exact List.find?_eq_none.1 hfound a ha (decide_eq_true heq)
    rw [if_neg hne, Option.map_none]
  | some c =>
    have hcid : c.id = id := by simpa using List.find?_some hfound
    rw [Option.map_some, hid, hcid]
    by_cases heq : a.id = id
    · rw [if_pos heq.symm, if_pos heq]
    · rw [if_neg (Ne.symm heq), if_neg heq]

/-- A row that is saved is on record with what became of it. -/
theorem explains_of_saved (ht : t.AccountsInOrder) (ha : a ∈ t.accounts)
    (hbecomes : a.Becomes b events) (hid : b.id = a.id) (hname : b.username = a.username)
    {isUpdate : Bool} (hupdate : isUpdate = true ∨ b.fullName = a.fullName) {reset? : Option RowId}
    (hreset : ∀ id, (if a.id = id then events.count .passwordReset else 0) =
      if reset? = some id then 1 else 0) (now : Instant) (id : RowId) :
    ∃ events', t.Explains (t.saveAccount b events now).2 isUpdate reset? id events' := by
  have hrecords : t.Records (t.saveAccount b events now).2 a.id events := by
    rw [saveAccount_eq ht ⟨a, ha, hid.symm, hname.symm⟩, ← hid]
    exact records_entries rfl
  have hafter := account?_saveAccount ht ha hid hname events now id
  have hresets := hreset id
  by_cases heq : a.id = id
  · subst heq
    have hbefore : t.account? a.id = some a := find?_eq_some_of_nodup ht.ids ha
    rw [if_pos rfl] at hafter hresets
    refine ⟨events, ?_, ?_, ?_, ?_, hresets⟩
    · rw [hrecords, if_pos rfl]
    · rw [isOn, isOn, hbefore, hafter]
      exact hbecomes.billingAlert
    · rw [isOn, isOn, hbefore, hafter]
      exact hbecomes.emailSubscription
    · rw [hbecomes.fullName, fullName?, fullName?, hbefore, hafter]
      by_cases hfull : a.fullName = b.fullName
      · simp [hfull, switched_self]
      · obtain rfl := hupdate.resolve_right (Ne.symm hfull)
        simp [switched, hfull, Ne.symm hfull]
  · rw [if_neg heq] at hafter hresets
    refine ⟨[], ?_, ?_, ?_, ?_, hresets⟩
    · rw [hrecords, if_neg heq, List.map_nil]
    · rw [isOn, isOn, hafter, switched_self]
      rfl
    · rw [isOn, isOn, hafter, switched_self]
      rfl
    · rw [fullName?, fullName?, hafter]
      simp

end Tables

/-! ## Operations -/

/-- The operation updates the profile of an account. -/
def Operation.isUpdate {α : Type} : Operation α → Bool
  | .updateAccount _ _ => true
  | _ => false

/-- The account whose password was reset. -/
def Answered.reset? : Answered → Option RowId
  | ⟨_, .resetPassword _ _, .ok account⟩ => some account.id
  | _ => none

/-- An operation that spares accounts puts nothing on record that would be of their rows. -/
theorem Operation.records_of_mayCall {α β : Type} {op : Operation α} (hop : ¬op.WritesAccounts)
    {c : Call β} (hc : op.MayCall c) (t : Tables) :
    ∃ account events, t.Records (c.apply t).2 account events ∧
      ∀ event ∈ events, event ≠ .passwordReset ∧ ¬event.IsEdit := by
  have hnothing (htrail : (c.apply t).2.securityTrail = t.securityTrail) :
      ∃ account events, t.Records (c.apply t).2 account events ∧
        ∀ event ∈ events, event ≠ .passwordReset ∧ ¬event.IsEdit :=
    ⟨0, [], Tables.records_nil htrail 0, List.forall_mem_nil _⟩
  have hspares := hc.sparesAccounts hop
  rcases hc with hlook | hwrites
  · exact hnothing (congrArg _ (hlook.looks t))
  · cases c with
    | recordSecurity e =>
      have hsighting : e.IsSighting := by cases op <;> first | exact hwrites.elim | exact hwrites
      obtain ⟨event, hevent, hrecords⟩ := t.records_recordSecurity hsighting
      refine ⟨e.account, [event], hrecords, fun other hother => ?_⟩
      rw [List.mem_singleton.1 hother]
      rcases hevent with rfl | rfl <;> exact ⟨by decide, fun h => h⟩
    | insertKey k limit =>
      obtain ⟨events, hevents, hrecords⟩ := t.records_insertKey k limit
      refine ⟨k.account, events, hrecords, fun event hevent => ?_⟩
      obtain ⟨id, rfl⟩ := hevents event hevent
      exact ⟨by simp, fun h => h⟩
    | modifyKey account id edit security now =>
      obtain ⟨events, hevents, hrecords⟩ := t.records_modifyKey account id edit security now
      refine ⟨account, events, hrecords, fun event hevent => ?_⟩
      have hsecurity := hevents event hevent
      cases op <;> first | exact hwrites.elim | skip
      · obtain rfl : security = none := hwrites
        cases hsecurity
      · obtain rfl : security = some (.keyDeleted _) := hwrites
        cases hsecurity
        exact ⟨by simp, fun h => h⟩
    | insertAccount a => exact hspares.elim
    | saveAccount a events now => exact hspares.elim
    | _ => exact hnothing rfl

namespace Service

variable (s : Service) {t : Tables}

/-- What an operation that spares accounts puts on record. -/
theorem explains_of_not_writesAccounts (x : Asked) (hop : ¬x.op.WritesAccounts) (t : Tables)
    (isUpdate : Bool) (id : RowId) :
    ∃ events, t.Explains (s.perform x t).2 isUpdate none id events := by
  have hlabels : ∃ events : List SecurityEvent, (s.perform x t).2.securityLabels id =
      t.securityLabels id ++ events.map SecurityEvent.label ∧
        ∀ event ∈ events, event ≠ .passwordReset ∧ ¬event.IsEdit := by
    refine s.perform_of_mayCall (I := fun t' => ∃ events : List SecurityEvent,
      t'.securityLabels id = t.securityLabels id ++ events.map SecurityEvent.label ∧
        ∀ event ∈ events, event ≠ .passwordReset ∧ ¬event.IsEdit) x (fun c t' hc ht' => ?_)
      ⟨[], (List.append_nil _).symm, List.forall_mem_nil _⟩
    obtain ⟨events, hbefore, hevents⟩ := ht'
    obtain ⟨account, more, hrecords, hmore⟩ := Operation.records_of_mayCall hop hc t'
    refine ⟨events ++ if account = id then more else [], ?_, fun event hevent => ?_⟩
    · rw [hrecords, hbefore, List.append_assoc, List.map_append]
      split <;> rfl
    · rcases List.mem_append.1 hevent with hevent | hevent
      · exact hevents event hevent
      · split at hevent
        · exact hmore event hevent
        · cases hevent
  obtain ⟨events, hlabels, hevents⟩ := hlabels
  exact ⟨events, Tables.explains_of_quiet hlabels (s.accounts_exec x.given hop t) hevents isUpdate⟩

theorem explains_signUp (ht : t.AccountsInOrder) (given : Given) (username password : String)
    (id : RowId) : ∃ events,
      t.Explains (s.perform ⟨given, .signUp username password⟩ t).2 false none id events := by
  have hself : ∃ events, t.Explains t false none id events := ⟨[], t.explains_self false id⟩
  have hexec : s.perform ⟨given, .signUp username password⟩ t = _ :=
    exec_signUp s.session s.passwords given username password t
  rw [hexec]
  cases checkUsername username with
  | error e => exact hself
  | ok _ =>
    cases checkPassword s.session.minPassword password with
    | error e => exact hself
    | ok _ =>
      cases hfree : t.isTaken username with
      | true => exact hself
      | false =>
        cases s.passwords.digest given.salt password with
        | error e => exact hself
        | ok digest =>
          have hinsert := Tables.insertAccount_eq
            (a := newAccount s.session given username digest) hfree
          dsimp only
          rw [hinsert]
          exact Tables.explains_of_joined
            (a := (newAccount s.session given username digest).row t.nextId) ht
            (Int.lt_succ t.lastId) rfl (Tables.records_entries rfl) rfl rfl id

theorem explains_forgotPassword (ht : t.AccountsInOrder) (given : Given) (username : String)
    (id : RowId) : ∃ events,
      t.Explains (s.perform ⟨given, .forgotPassword username⟩ t).2 false none id events := by
  have hexec : s.perform ⟨given, .forgotPassword username⟩ t = _ :=
    exec_forgotPassword given username t
  rw [hexec]
  cases hfound : t.accountNamed? username with
  | none => exact ⟨[], t.explains_self false id⟩
  | some a =>
    have ha : a ∈ t.accounts := List.mem_of_find?_eq_some hfound
    have hbecomes : a.Becomes (a.withReset given.uuid (given.now.addHours resetHours)) [] :=
      ⟨(switched_self _).symm, (switched_self _).symm, by simp [switched, Account.withReset]⟩
    exact Tables.explains_of_saved ht ha hbecomes rfl rfl (.inr rfl) (by simp) given.now id

theorem explains_resetPassword (ht : t.AccountsInOrder) (given : Given) (password : String)
    (token : Uuid) (id : RowId) : ∃ events,
      t.Explains (s.perform ⟨given, .resetPassword password token⟩ t).2 false
        (s.answered ⟨given, .resetPassword password token⟩ t).reset? id events := by
  have hself : ∃ events, t.Explains t false none id events := ⟨[], t.explains_self false id⟩
  have hexec : s.perform ⟨given, .resetPassword password token⟩ t = _ :=
    exec_resetPassword s.session s.passwords given password token t
  unfold answered
  rw [hexec]
  cases hfound : t.accountResetBy? token with
  | none => exact hself
  | some a =>
    have ha : a ∈ t.accounts := List.mem_of_find?_eq_some hfound
    dsimp only
    cases isResetExpired a given.now with
    | true => exact hself
    | false =>
      cases checkPassword s.session.minPassword password with
      | error e => exact hself
      | ok _ =>
        cases s.passwords.digest given.salt password with
        | error e => exact hself
        | ok digest =>
          have hbecomes : a.Becomes { a.withoutReset with passwordDigest := digest }
              [.passwordReset] :=
            ⟨(switched_self _).symm, (switched_self _).symm, by
              simp [switched, Account.withoutReset]⟩
          exact Tables.explains_of_saved ht ha hbecomes rfl rfl (.inr rfl)
            (by simp [Answered.reset?, Account.withoutReset]) given.now id

theorem explains_updateAccount (ht : t.AccountsInOrder) (given : Given) (username : String)
    (update : ProfileUpdate) (id : RowId) : ∃ events,
      t.Explains (s.perform ⟨given, .updateAccount username update⟩ t).2 true none id events := by
  have hself : ∃ events, t.Explains t true none id events := ⟨[], t.explains_self true id⟩
  have hexec : s.perform ⟨given, .updateAccount username update⟩ t = _ :=
    exec_updateAccount given username update t
  rw [hexec]
  cases hfound : t.accountNamed? username with
  | none => exact hself
  | some a =>
    have ha : a ∈ t.accounts := List.mem_of_find?_eq_some hfound
    dsimp only
    cases (update.apply a).events.isEmpty with
    | true => exact hself
    | false =>
      have hcount : (update.apply a).events.count .passwordReset = 0 :=
        List.count_eq_zero.2 fun hmem => ProfileUpdate.isEdit_of_mem_apply hmem
      exact Tables.explains_of_saved ht ha (update.becomes_apply a) (update.apply_id a)
        (update.apply_username a) (.inl rfl) (by simp [hcount]) given.now id

/-- What an operation puts on record for an account tells what it has changed. -/
theorem explains_perform (ht : t.AccountsInOrder) (x : Asked) (id : RowId) :
    ∃ events, t.Explains (s.perform x t).2 x.op.isUpdate (s.answered x t).reset? id events := by
  obtain ⟨given, op⟩ := x
  have hspared (hop : ¬op.WritesAccounts) (isUpdate : Bool) :
      ∃ events, t.Explains (s.perform ⟨given, op⟩ t).2 isUpdate none id events :=
    s.explains_of_not_writesAccounts ⟨given, op⟩ hop t isUpdate id
  cases op with
  | signUp username password => exact s.explains_signUp ht given username password id
  | forgotPassword username => exact s.explains_forgotPassword ht given username id
  | resetPassword password token => exact s.explains_resetPassword ht given password token id
  | updateAccount username update => exact s.explains_updateAccount ht given username update id
  | _ => exact hspared (fun h => h) false

end Service

/-! ## Histories -/

namespace Service

variable (s : Service)

/-- The operations of a history, each with the tables that it meets. -/
def meetings (t : Tables) : List Asked → List (Asked × Tables)
  | [] => []
  | x :: h => (x, t) :: meetings (s.perform x t).2 h

theorem meetings_append (t : Tables) (h h' : List Asked) :
    s.meetings t (h ++ h') = s.meetings t h ++ s.meetings (s.after t h) h' := by
  induction h generalizing t with
  | nil => rfl
  | cons x h ih => exact congrArg ((x, t) :: ·) (ih (s.perform x t).2)

/-- The operation is an update, and the full name that is kept for the account is another after
it. -/
def renames (id : RowId) (m : Asked × Tables) : Bool :=
  m.1.op.isUpdate && (s.perform m.1 m.2).2.fullName? id ≠ m.2.fullName? id

/-- What is on record for an account tells how its settings stand, how often its full name has
changed and how often its password was reset. -/
structure Recounts (h : List Asked) (id : RowId) : Prop where
  billingAlert : Settles .billingAlert ((s.after {} h).securityLabels id)
    ((s.after {} h).isOn id (·.billingAlert))
  emailSubscription : Settles .emailSubscription ((s.after {} h).securityLabels id)
    ((s.after {} h).isOn id (·.emailSubscription))
  fullName : ((s.after {} h).securityLabels id).count SecurityEvent.fullName.label =
    (s.meetings {} h).countP (s.renames id)
  resets : ((s.after {} h).securityLabels id).count SecurityEvent.passwordReset.label =
    ((s.transcript {} h).filterMap Answered.reset?).count id

theorem recounts (h : List Asked) (id : RowId) : s.Recounts h id := by
  induction h using List.reverseRecOn with
  | nil =>
    exact ⟨⟨List.isChain_singleton false, rfl⟩, ⟨List.isChain_singleton false, rfl⟩, rfl, rfl⟩
  | append_singleton h x ih =>
    have ht := (s.reaches_after {} h).inOrder
    obtain ⟨events, hexplains⟩ := s.explains_perform ht.accounts x id
    have hafter : s.after {} (h ++ [x]) = (s.perform x (s.after {} h)).2 := s.after_append {} h [x]
    have hcount (event : SecurityEvent) : (events.map SecurityEvent.label).count event.label =
        events.count event :=
      List.count_map_of_injective events _ SecurityEvent.label_injective event
    refine ⟨?_, ?_, ?_, ?_⟩
    · rw [hafter, hexplains.labels]
      exact ih.billingAlert.append hexplains.billingAlert
    · rw [hafter, hexplains.labels]
      exact ih.emailSubscription.append hexplains.emailSubscription
    · rw [hafter, hexplains.labels, List.count_append, ih.fullName, hcount, hexplains.fullName,
        s.meetings_append, List.countP_append]
      exact congrArg (_ + ·) List.countP_singleton.symm
    · have htranscript : s.transcript {} (h ++ [x]) =
          s.transcript {} h ++ [s.answered x (s.after {} h)] := s.transcript_append {} h [x]
      rw [hafter, hexplains.labels, List.count_append, ih.resets, hcount, hexplains.resets,
        htranscript, filterMap_append_singleton, List.count_append]
      cases (s.answered x (s.after {} h)).reset? with
      | none => rfl
      | some other => simp [List.count_singleton]

/-! ## Updates that change nothing -/

end Service

/-- An update restates a field if it leaves it alone or sets the value that is there. -/
def Patch.Restates {α : Type} (p : Patch α) (current : α) : Prop :=
  ∀ v, p = .set v → v = current

namespace Patch

variable {α : Type} [DecidableEq α] {p : Patch α} {current : α}

theorem Restates.change? (h : p.Restates current) : p.change? current = none := by
  cases p with
  | keep => rfl
  | set v => exact Option.filter_eq_none_iff.2 fun w hw => by simp [← h v rfl, Option.some.inj hw]

theorem restates_getD_change? (p : Patch α) (current : α) :
    p.Restates ((p.change? current).getD current) := by
  rintro v rfl
  by_cases hsame : v = current <;> simp [Patch.change?, Patch.value?, Option.filter, hsame]

end Patch

/-- All that the update supplies is as the account has it. -/
structure ProfileUpdate.Restates (u : ProfileUpdate) (a : Account) : Prop where
  fullName : u.fullName.Restates a.fullName
  emailSubscription : u.emailSubscription.Restates a.emailSubscription
  billingAlert : u.billingAlert.Restates a.billingAlert

namespace ProfileUpdate

variable {u : ProfileUpdate} {a : Account}

theorem Restates.apply (h : u.Restates a) : u.apply a = ⟨a, []⟩ := by
  have hevents : (u.apply a).events = [] := by
    rw [apply_events, h.fullName.change?, h.billingAlert.change?, h.emailSubscription.change?]
    rfl
  have haccount := apply_of_events_eq_nil hevents
  cases hchange : u.apply a with
  | mk account events =>
    rw [hchange] at haccount hevents
    exact congrArg₂ _ haccount hevents

theorem restates_apply (u : ProfileUpdate) (a : Account) : u.Restates (u.apply a).account := by
  rw [apply_account]
  exact ⟨u.fullName.restates_getD_change? _, u.emailSubscription.restates_getD_change? _,
    u.billingAlert.restates_getD_change? _⟩

end ProfileUpdate

namespace Service

variable (s : Service) {t : Tables} {a : Account}

theorem perform_updateAccount_of_restates (ht : t.AccountsInOrder) (ha : a ∈ t.accounts)
    {u : ProfileUpdate} (hu : u.Restates a) (given : Given) :
    s.perform ⟨given, .updateAccount a.username u⟩ t = (.ok a, t) := by
  have hfound : t.accountNamed? a.username = some a := find?_eq_some_of_nodup ht.usernames ha
  have hexec : s.perform ⟨given, .updateAccount a.username u⟩ t = _ :=
    exec_updateAccount given a.username u t
  rw [hexec, hfound]
  simp only [hu.apply, List.isEmpty_nil, if_true]

/-- Made once more at once, an update has the same answer and changes nothing. -/
theorem perform_updateAccount_again (ht : t.AccountsInOrder) (username : String)
    (u : ProfileUpdate) (given given' : Given) :
    s.perform ⟨given', .updateAccount username u⟩
        (s.perform ⟨given, .updateAccount username u⟩ t).2 =
      s.perform ⟨given, .updateAccount username u⟩ t := by
  have hexec (given : Given) (t : Tables) : s.perform ⟨given, .updateAccount username u⟩ t = _ :=
    exec_updateAccount given username u t
  cases hfound : t.accountNamed? username with
  | none =>
    have hrefused (given : Given) : s.perform ⟨given, .updateAccount username u⟩ t =
        (.error (.notFound .account username), t) := by rw [hexec, hfound]
    rw [hrefused given, hrefused given']
  | some a =>
    obtain ⟨ha, rfl⟩ := Tables.accountNamed?_some hfound
    have hrestates := u.restates_apply a
    rw [hexec given, hfound]
    dsimp only
    cases hevents : (u.apply a).events.isEmpty with
    | true =>
      have hsame := ProfileUpdate.apply_of_events_eq_nil (List.isEmpty_iff.1 hevents)
      rw [hsame] at hrestates ⊢
      exact s.perform_updateAccount_of_restates ht ha hrestates given'
    | false =>
      have hrow : t.HasRowOf (u.apply a).account :=
        ⟨a, ha, (u.apply_id a).symm, (u.apply_username a).symm⟩
      have hmem : (u.apply a).account ∈
          (t.saveAccount (u.apply a).account (u.apply a).events given.now).2.accounts := by
        rw [Tables.saveAccount_eq ht hrow]
        exact List.mem_map.2 ⟨a, ha, if_pos (u.apply_id a).symm⟩
      have hagain := s.perform_updateAccount_of_restates
        (ht.saveAccount hrow (u.apply a).events given.now) hmem hrestates given'
      rw [u.apply_username a] at hagain
      exact hagain

end Service

/-! ## The record of an account -/

/-- The key that was added. -/
def Answered.added? : Answered → Option ApiKey
  | ⟨_, .createKey _ _, .ok issued⟩ => some issued.key
  | _ => none

namespace Service

variable (s : Service)

theorem mem_keys_of_added {x : Asked} {t : Tables} {k : ApiKey}
    (hk : (s.answered x t).added? = some k) : k ∈ (s.perform x t).2.keys := by
  obtain ⟨given, op⟩ := x
  unfold answered at hk
  cases op with
  | createKey username request =>
    rcases s.perform_createKey given username request t with
      ⟨e, h⟩ | ⟨account, digest, t', -, -, h, hadds⟩
    · rw [h] at hk
      cases hk
    · rw [h] at hk ⊢
      rw [← Option.some.inj hk, hadds.keys]
      exact List.mem_append_right _ (List.mem_singleton.2 rfl)
  | _ => cases hk

/-- Every key that was ever added still has its row, deleted or not. -/
theorem exists_row_of_added (h : List Asked) :
    ∀ k ∈ (s.transcript {} h).filterMap Answered.added?,
      ∃ row ∈ (s.after {} h).keys, row.id = k.id ∧ row.account = k.account := by
  refine (s.transcript_induction (I := fun t log => t.InOrder ∧
    ∀ k ∈ log.filterMap Answered.added?, ∃ row ∈ t.keys, row.id = k.id ∧ row.account = k.account)
    ⟨Tables.inOrder_empty, fun _ hk => nomatch hk⟩ ?_ h).2
  rintro x t log ⟨ht, hlog⟩
  obtain ⟨horder, hgrows⟩ := s.grows_perform ht x
  refine ⟨horder, fun k hk => ?_⟩
  rw [filterMap_append_singleton] at hk
  rcases List.mem_append.1 hk with hk | hk
  · obtain ⟨row, hrow, hid, howner⟩ := hlog k hk
    obtain ⟨row', hrow', hid', howner'⟩ := hgrows.keys row hrow
    exact ⟨row', hrow', hid'.trans hid, howner'.trans howner⟩
  · exact ⟨k, s.mem_keys_of_added (Option.mem_toList.1 hk), rfl, rfl⟩

/-- What is on record for an account replays to its row and to its keys. -/
structure Replays (h : List Asked) (a : Account) : Prop where
  created : (s.after {} h).BeginsWithCreation a.id
  billingAlert : Settles .billingAlert ((s.after {} h).securityLabels a.id) a.billingAlert
  emailSubscription :
    Settles .emailSubscription ((s.after {} h).securityLabels a.id) a.emailSubscription
  fullName : ((s.after {} h).securityLabels a.id).count SecurityEvent.fullName.label =
    (s.meetings {} h).countP (s.renames a.id)
  resets : ((s.after {} h).securityLabels a.id).count SecurityEvent.passwordReset.label =
    ((s.transcript {} h).filterMap Answered.reset?).count a.id
  added : ∀ k ∈ (s.transcript {} h).filterMap Answered.added?, k.account = a.id →
    ∃ row ∈ (s.after {} h).keys, row.id = k.id ∧ row.account = a.id
  keys : ∀ k ∈ (s.after {} h).keys, k.account = a.id →
    (s.after {} h).labelsOfKey a.id k.id = k.life
  others : ∀ id, (∀ k ∈ (s.after {} h).keys, k.account = a.id → k.id ≠ id) →
    (s.after {} h).labelsOfKey a.id id = []

/-- After every history the record of every account replays to its row and to its keys. An update
that supplies what is there writes nothing, and so does any update that is made again at once. -/
theorem replays_trail (h : List Asked) :
    (∀ a ∈ (s.after {} h).accounts, s.Replays h a ∧
      ∀ given u, u.Restates a →
        s.perform ⟨given, .updateAccount a.username u⟩ (s.after {} h) =
          (.ok a, s.after {} h)) ∧
    ∀ username u given given',
      s.perform ⟨given', .updateAccount username u⟩
          (s.perform ⟨given, .updateAccount username u⟩ (s.after {} h)).2 =
        s.perform ⟨given, .updateAccount username u⟩ (s.after {} h) := by
  have hreaches : s.Reaches {} (s.after {} h) := reaches_after {} h
  have ht := hreaches.inOrder
  refine ⟨fun a ha => ⟨?_, ?_⟩, ?_⟩
  · have hrecounts := s.recounts h a.id
    have hkeys := hreaches.tellsOfKeys
    have hrow : (s.after {} h).account? a.id = some a := find?_eq_some_of_nodup ht.accounts.ids ha
    have hon (setting : Account → Bool) : (s.after {} h).isOn a.id setting = setting a := by
      rw [Tables.isOn, hrow, Option.any_some]
    refine ⟨hreaches.beginsWithCreation a ha, ?_, ?_, hrecounts.fullName, hrecounts.resets, ?_, ?_,
      hkeys.others a.id⟩
    · exact hon (·.billingAlert) ▸ hrecounts.billingAlert
    · exact hon (·.emailSubscription) ▸ hrecounts.emailSubscription
    · intro k hk howner
      obtain ⟨row, hrow, hid, haccount⟩ := s.exists_row_of_added h k hk
      exact ⟨row, hrow, hid, haccount.trans howner⟩
    · exact fun k hk howner => howner ▸ hkeys.own k hk
  · exact fun given u hu => s.perform_updateAccount_of_restates ht.accounts ha hu given
  · exact fun username u given given' =>
      s.perform_updateAccount_again ht.accounts username u given given'

end Service

/-- Ada names herself, switches both settings and takes the name and one switch back, has a key
deleted and another added, and resets her password. -/
def adaChangesHerMind : List Asked :=
  [⟨.sample 1, .signUp "ada@example.com" "correct horse"⟩,
    ⟨.sample 2, .updateAccount "ada@example.com"
      { fullName := .set (some "Ada"), billingAlert := .set true }⟩,
    ⟨.sample 3, .updateAccount "ada@example.com"
      { fullName := .set none, billingAlert := .set false, emailSubscription := .set true }⟩,
    ⟨.sample 4, .createKey "ada@example.com" { name := "ci" }⟩,
    ⟨.sample 5, .deleteKey "ada@example.com" 8⟩,
    ⟨.sample 6, .createKey "ada@example.com" { name := "ci" }⟩,
    ⟨.sample 7, .forgotPassword "ada@example.com"⟩,
    ⟨.sample 8, .resetPassword "battery staple" (Given.sample 7).uuid⟩]

/-- The account that is left after it. -/
def adaAfterwards : Account :=
  { id := 1, username := "ada@example.com", passwordDigest := "battery staple", fullName := none
    emailSubscription := true, billingAlert := false, roles := ["admin"], resetToken := none
    resetExpiresAt := none, createdAt := ⟨1, 0⟩ }

theorem replays_trail_adaChangesHerMind :
    adaAfterwards ∈ (Service.plain.after {} adaChangesHerMind).accounts ∧
    (Service.plain.after {} adaChangesHerMind).securityLabels 1 =
      ["created", "fullname", "billing_alert_enabled.true", "fullname",
        "billing_alert_enabled.false", "email_subscription_enabled.true", "create_key.8",
        "delete_key.8", "create_key.13", "reset"] ∧
    Service.plain.Replays adaChangesHerMind adaAfterwards ∧
    Service.plain.perform ⟨.sample 9, .updateAccount "ada@example.com"
        { emailSubscription := .set true }⟩ (Service.plain.after {} adaChangesHerMind) =
      (.ok adaAfterwards, Service.plain.after {} adaChangesHerMind) := by
  have hmem : adaAfterwards ∈ (Service.plain.after {} adaChangesHerMind).accounts := by
    decide +kernel
  obtain ⟨hreplays, hidle⟩ := (Service.plain.replays_trail adaChangesHerMind).1 _ hmem
  refine ⟨hmem, by decide +kernel, hreplays, hidle _ { emailSubscription := .set true } ?_⟩
  exact ⟨fun _ h => (nomatch h), fun _ h => (Patch.set.inj h).symm, fun _ h => (nomatch h)⟩

end Latchkey
