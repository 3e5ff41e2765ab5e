import Latchkey.Proofs.Atomicity
import Latchkey.Proofs.Quota

/-!
# Requests on keys that race

A request on keys looks its account up and then makes one call, and what it has seen of the
account is its number, which it keeps. So the request takes effect at once, with this call:
whatever their turns, requests on keys and sign-ups come to what they come to one after the other,
in the order of their last calls. No update of a key is lost, and what failed is not on record.
-/

namespace Latchkey

open Request

/-! ## What a request has seen -/

/-- Accounts that are found by their names are found under the same numbers. -/
def Tables.KeepsNames (t t' : Tables) : Prop :=
  ∀ username a, t.accountNamed? username = some a →
    ∃ b, t'.accountNamed? username = some b ∧ b.id = a.id

namespace Tables.KeepsNames

variable {t t' t'' : Tables}

theorem refl (t : Tables) : t.KeepsNames t :=
  fun _ a ha => ⟨a, ha, rfl⟩

theorem trans (h : t.KeepsNames t') (h' : t'.KeepsNames t'') : t.KeepsNames t'' := by
  intro username a ha
  obtain ⟨b, hb, hid⟩ := h username a ha
  obtain ⟨c, hc, hid'⟩ := h' username b hb
  exact ⟨c, hc, hid'.trans hid⟩

theorem of_accounts_eq (h : t'.accounts = t.accounts) : t.KeepsNames t' := by
  intro username a ha
  rw [Tables.accountNamed?, ← h] at ha
  exact ⟨a, ha, rfl⟩

theorem insertAccount (t : Tables) (a : NewAccount) : t.KeepsNames (t.insertAccount a).2 := by
  cases htaken : t.isTaken a.username with
  | true =>
    rw [Tables.insertAccount_of_taken htaken]
    exact refl t
  | false =>
    intro username b hb
    refine ⟨b, ?_, rfl⟩
    rw [Tables.accountNamed?, Tables.insertAccount_eq htaken, List.find?_append]
    exact Option.or_eq_some_iff.2 (.inl hb)

end Tables.KeepsNames

namespace Program

theorem atomic_done {α : Type} (a : α) : (done a).Atomic Tables.KeepsNames where
  keeps := .refl
  opens := fun _ => ⟨.done a, rfl, .inl ⟨a, rfl⟩⟩

end Program

/-! ## One call after another -/

namespace Request

variable {α β γ : Type}

/-- The request makes one call at most. -/
abbrev CallsOnce (r : Request α) : Prop :=
  Program.CallsOnce r.run

theorem callsOnce_ofCall_bind {c : Call α} {f : α → Request β}
    (h : ∀ a, (f a).Makes fun _ => False) : (Request.ofCall c >>= f).CallsOnce := by
  rw [CallsOnce, Program.run_bind]
  intro answer
  cases answer with
  | ok a => exact h a
  | error fault => trivial

theorem callsOnce_liftExcept_bind {x : Except Failure α} {f : α → Request β}
    (h : ∀ a, (f a).CallsOnce) : (liftM x >>= f : Request β).CallsOnce := by
  rw [CallsOnce, Program.run_bind]
  cases x with
  | ok a => exact h a
  | error e => trivial

theorem callsOnce_orFail_bind {found : Option α} {e : Failure} {f : α → Request β}
    (h : ∀ a, (f a).CallsOnce) : (Request.orFail found e >>= f).CallsOnce := by
  cases found with
  | some a => exact h a
  | none => trivial

theorem callsOnce_ofCall (c : Call α) : (Request.ofCall c).CallsOnce :=
  fun _ => trivial

/-- A request that looks and then makes one call at most takes effect at once, if it does with
this call what it would do had it looked just before. -/
theorem atomic_ofCall_bind {c : Call α} {f : α → Request β} {reply : Except Failure β → γ}
    {look : Tables → α} (hlook : ∀ t, c.apply t = (.ok (look t), t))
    (hkeeps : ∀ t : Tables, t.KeepsNames ((Request.ofCall c >>= f).exec t).2)
    (honce : ∀ a, (f a).CallsOnce)
    (hsame : ∀ t t' : Tables, t.KeepsNames t' → ((f (look t)).Makes fun _ => False) ∨
      (Request.ofCall c >>= f).exec t' = (f (look t)).exec t') :
    ((Request.ofCall c >>= f).run.andThen fun answer => .done (reply answer)).Atomic
      Tables.KeepsNames where
  keeps := by
    intro t
    rw [Program.run_andThen]
    exact hkeeps t
  opens := by
    intro t
    have hrest : ((f (look t)).run.andThen fun answer => .done (reply answer)).CallsOnce :=
      (honce (look t)).andThen fun _ => trivial
    refine ⟨((f (look t)).run.andThen fun answer => .done (reply answer)).settle, ?_, ?_⟩
    · rw [Program.run_bind]
      simp only [Request.ofCall, ExceptT.run_mk, Program.andThen, Program.step, hlook, mapError_ok]
    · by_cases hsilent : (f (look t)).Makes fun _ => False
      · have hsilentRest : ((f (look t)).run.andThen fun answer =>
            .done (reply answer)).IsSilent := Program.makes_andThen hsilent fun _ => trivial
        exact .inl hsilentRest.settle
      · refine .inr fun t' ht' => (hrest.step_settle t').trans ?_
        have hexec := (hsame t t' ht').resolve_left hsilent
        rw [Program.run_andThen, Program.run_andThen]
        show (Program.done (reply ((f (look t)).exec t').1), ((f (look t)).exec t').2) =
          (.done (reply ((Request.ofCall c >>= f).exec t').1),
            ((Request.ofCall c >>= f).exec t').2)
        rw [hexec]

end Request

namespace Session

variable {α β : Type} {f : Account → Request α} {reply : Except Failure α → β} {username : String}

theorem findAccount_bind : findAccount username >>= f =
    Request.ofCall (.findAccountNamed username) >>= fun found =>
      Request.orFail found (.notFound .account username) >>= f :=
  bind_assoc ..

/-- A request takes effect at once that makes one call about the number of its account. -/
theorem atomic_findAccount_bind
    (hkeeps : ∀ t : Tables, t.KeepsNames ((findAccount username >>= f).exec t).2)
    (honce : ∀ a, (f a).CallsOnce)
    (hsame : ∀ a b, b.id = a.id → ∀ t, (f b).exec t = (f a).exec t) :
    ((findAccount username >>= f).run.andThen fun answer => .done (reply answer)).Atomic
      Tables.KeepsNames := by
  rw [findAccount_bind] at hkeeps ⊢
  refine atomic_ofCall_bind (fun _ => rfl) hkeeps (fun _ => callsOnce_orFail_bind honce) ?_
  intro t t' ht'
  cases hfound : t.accountNamed? username with
  | none => exact .inl trivial
  | some a =>
    obtain ⟨b, hb, hid⟩ := ht' username a hfound
    refine .inr ?_
    rw [← findAccount_bind, exec_findAccount_bind, hb]
    exact hsame a b hid t'

end Session

namespace Service

variable (s : Service) (given : Given)

/-- The request takes effect at once. -/
abbrev TakesEffectAtOnce (x : Asked) : Prop :=
  (s.replyTo x).Atomic Tables.KeepsNames

theorem keepsNames_exec {α : Type} (op : Operation α) (hop : ¬op.WritesAccounts) (t : Tables) :
    t.KeepsNames ((s.request given op).exec t).2 :=
  .of_accounts_eq (s.accounts_exec given hop t)

theorem atomic_countKeys (username : String) :
    s.TakesEffectAtOnce ⟨given, .countKeys username⟩ :=
  Session.atomic_findAccount_bind (s.keepsNames_exec given (.countKeys username) fun h => h)
    (fun _ => callsOnce_ofCall _) fun a b hid t => by rw [hid]

theorem atomic_listKeys (username : String) :
    s.TakesEffectAtOnce ⟨given, .listKeys username⟩ :=
  Session.atomic_findAccount_bind (s.keepsNames_exec given (.listKeys username) fun h => h)
    (fun _ => callsOnce_ofCall _) fun a b hid t => by rw [hid]

theorem atomic_findKey (username : String) (id : RowId) :
    s.TakesEffectAtOnce ⟨given, .findKey username id⟩ :=
  Session.atomic_findAccount_bind (s.keepsNames_exec given (.findKey username id) fun h => h)
    (fun _ => callsOnce_ofCall_bind fun _ => makes_orFail _ _)
    fun a b hid t => by rw [Keyring.exec_owned, Keyring.exec_owned, hid]

theorem atomic_updateKey (username : String) (id : RowId) (u : KeyUpdate) :
    s.TakesEffectAtOnce ⟨given, .updateKey username id u⟩ := by
  have hkeeps := s.keepsNames_exec given (.updateKey username id u) fun h => h
  simp only [TakesEffectAtOnce, replyTo, request, Keyring.update] at hkeeps ⊢
  cases hcheck : u.check with
  | error e => exact Program.atomic_done _
  | ok _ =>
    rw [hcheck] at hkeeps
    refine Session.atomic_findAccount_bind hkeeps (fun _ => callsOnce_ofCall_bind fun _ => ?_)
      fun a b hid t => by rw [hid]
    exact makes_bind (makes_orFail _ _) fun _ => makes_pure _

theorem atomic_deleteKey (username : String) (id : RowId) :
    s.TakesEffectAtOnce ⟨given, .deleteKey username id⟩ := by
  refine Session.atomic_findAccount_bind
    (s.keepsNames_exec given (.deleteKey username id) fun h => h)
    (fun _ => callsOnce_ofCall_bind fun _ => ?_) fun a b hid t => ?_
  · exact makes_bind (makes_orFail _ _) fun _ => makes_send _
  · simp only [exec_bind, exec_ofCall, exec_orFail, exec_send, hid]

theorem atomic_createKey (username : String) (request : KeyRequest) :
    s.TakesEffectAtOnce ⟨given, .createKey username request⟩ := by
  have hkeeps := s.keepsNames_exec given (.createKey username request) fun h => h
  simp only [TakesEffectAtOnce, replyTo, Service.request, Keyring.create] at hkeeps ⊢
  cases hname : checkKeyName request.name with
  | error e => exact Program.atomic_done _
  | ok _ =>
    cases hpolicies : checkPolicies (request.policies.getD []) with
    | error e => exact Program.atomic_done _
    | ok _ =>
      rw [hname, hpolicies] at hkeeps
      refine Session.atomic_findAccount_bind hkeeps
        (fun _ => callsOnce_liftExcept_bind fun _ => callsOnce_ofCall_bind fun _ => ?_)
        fun a b hid t => ?_
      · exact makes_bind (makes_orFail _ _) fun _ => makes_bind (makes_send _) fun _ => makes_pure _
      · simp only [exec_bind, exec_liftExcept, exec_ofCall, exec_orFail, exec_send, hid]

/-- A presented key is looked up in one call, which is the first and the last. -/
theorem atomic_authenticateKey (raw : String) :
    s.TakesEffectAtOnce ⟨given, .authenticateKey raw⟩ := by
  have hkeeps := s.keepsNames_exec given (.authenticateKey raw) fun h => h
  simp only [TakesEffectAtOnce, replyTo, request, Keyring.authenticate] at hkeeps ⊢
  cases hlead : RawKey.lead? raw with
  | none => exact Program.atomic_done _
  | some lead =>
    rw [hlead] at hkeeps
    exact atomic_ofCall_bind (fun _ => rfl) hkeeps (fun _ => trivial)
      fun _ _ _ => .inl (makes_pure _)

theorem keepsNames_signUp (username password : String) (t : Tables) :
    t.KeepsNames ((s.request given (.signUp username password)).exec t).2 := by
  simp only [request, Session.exec_signUp]
  split
  · exact .refl t
  · exact .refl t
  · split
    · exact .refl t
    · split
      · exact .refl t
      · exact .insertAccount t _

/-- A sign-up looks whether the name is taken, and looks again when it adds the account. -/
theorem atomic_signUp (username password : String) :
    s.TakesEffectAtOnce ⟨given, .signUp username password⟩ := by
  have hkeeps := s.keepsNames_signUp given username password
  simp only [TakesEffectAtOnce, replyTo, request, Session.signUp] at hkeeps ⊢
  cases husername : checkUsername username with
  | error e => exact Program.atomic_done _
  | ok _ =>
    cases hpassword : checkPassword s.session.minPassword password with
    | error e => exact Program.atomic_done _
    | ok _ =>
      rw [husername, hpassword] at hkeeps
      refine atomic_ofCall_bind (fun _ => rfl) hkeeps (fun taken => ?_) fun t t' _ => ?_
      · cases taken with
        | true => trivial
        | false =>
          refine callsOnce_liftExcept_bind fun digest => callsOnce_ofCall_bind fun inserted => ?_
          exact makes_bind (makes_orFail _ _) fun _ =>
            makes_bind (makes_send _) fun _ => makes_pure _
      · cases htaken : t.isTaken username with
        | true => exact .inl trivial
        | false =>
          cases hdigest : s.passwords.digest given.salt password with
          | error e => exact .inl trivial
          | ok digest =>
            refine .inr ?_
            simp only [exec_bind, exec_ofCall, Call.apply, Call.look, mapError_ok,
              Bool.false_eq_true, if_false, exec_liftExcept]
            cases htaken' : t'.isTaken username with
            | true => simp [Call.sure, Tables.insertAccount, htaken']
            | false =>
              simp only [Bool.false_eq_true, if_false, exec_bind, exec_liftExcept, exec_ofCall,
                Call.apply]

end Service

/-- The operation is a sign-up, or one on keys that makes one call about its account at most. -/
def Operation.IsAtomic {α : Type} : Operation α → Prop
  | .signUp _ _ => True
  | .createKey _ _ => True
  | .updateKey _ _ _ => True
  | .deleteKey _ _ => True
  | .authenticateKey _ => True
  | .countKeys _ => True
  | .listKeys _ => True
  | .findKey _ _ => True
  | _ => False

theorem Service.takesEffectAtOnce (s : Service) {x : Asked} (hop : x.op.IsAtomic) :
    s.TakesEffectAtOnce x := by
  obtain ⟨given, op⟩ := x
  cases op with
  | signUp username password => exact s.atomic_signUp given username password
  | createKey username request => exact s.atomic_createKey given username request
  | updateKey username id u => exact s.atomic_updateKey given username id u
  | deleteKey username id => exact s.atomic_deleteKey given username id
  | authenticateKey raw => exact s.atomic_authenticateKey given raw
  | countKeys username => exact s.atomic_countKeys given username
  | listKeys username => exact s.atomic_listKeys given username
  | findKey username id => exact s.atomic_findKey given username id
  | _ => exact hop.elim

/-! ## Edits in a row -/

open Keyring

/-- The edit of a key that a request has made, if it has succeeded. -/
def editOf? (id : RowId) : Asked × Except Failure Reply → Option (ApiKey → KeyChange)
  | (⟨given, .updateKey _ key u⟩, .ok _) => if key = id then some (editBy u given.now) else none
  | (⟨given, .deleteKey _ key⟩, .ok _) => if key = id then some (tombstone given.now) else none
  | _ => none

/-- A key after one edit and another, and all that they report. -/
def playEdits : List (ApiKey → KeyChange) → ApiKey → KeyChange
  | [], key => ⟨key, []⟩
  | edit :: edits, key =>
    let rest := playEdits edits (edit key).key
    ⟨rest.key, (edit key).events ++ rest.events⟩

/-- In place of a key there is another row of its number, and its record goes on with events. -/
structure Tables.Continues (t t' : Tables) (key : ApiKey) (change : KeyChange) : Prop where
  mem : change.key ∈ t'.keys
  id : change.key.id = key.id
  labels : t'.keyLabels key.id = t.keyLabels key.id ++ change.events.map KeyEvent.label

namespace Tables

variable {t t' : Tables} {key k : ApiKey} {change : KeyChange}

theorem EditsKey.continues (hedits : t.EditsKey t' key change) (hid : change.key.id = key.id) :
    t.Continues t' key change where
  mem := by
    rw [hedits.keys]
    exact List.mem_map.2 ⟨key, hedits.mem, if_pos rfl⟩
  id := hid
  labels := by rw [hedits.labels, if_pos rfl]

theorem EditsKey.continues_other (hedits : t.EditsKey t' key change) (hk : k ∈ t.keys)
    (hne : k.id ≠ key.id) : t.Continues t' k ⟨k, []⟩ where
  mem := by
    rw [hedits.keys]
    exact List.mem_map.2 ⟨k, hk, if_neg hne⟩
  id := rfl
  labels := by rw [hedits.labels, if_neg hne.symm, List.map_nil]

theorem Continues.trans {t'' : Tables} {change' : KeyChange} (h : t.Continues t' key change)
    (h' : t'.Continues t'' change.key change') :
    t.Continues t'' key ⟨change'.key, change.events ++ change'.events⟩ where
  mem := h'.mem
  id := h'.id.trans h.id
  labels := by
    have hlabels := h'.labels
    rw [h.id, h.labels] at hlabels
    rw [hlabels, List.map_append, List.append_assoc]

theorem AddsKey.continues (ht : t.KeysInOrder) (hadds : t.AddsKey t' key) (hk : k ∈ t.keys) :
    t.Continues t' k ⟨k, []⟩ where
  mem := by
    rw [hadds.keys]
    exact List.mem_append_left _ hk
  id := rfl
  labels := by
    have hle := ht.ids_le k hk
    have hlt := hadds.fresh
    rw [hadds.labels, if_neg (by grind), List.map_nil]

end Tables

namespace Service

variable (s : Service) {t : Tables} {k : ApiKey}

/-- A request continues every key by the edit that it has made, if any. -/
theorem continues_perform (ht : t.KeysInOrder) (hk : k ∈ t.keys) (x : Asked) :
    t.Continues (s.perform x t).2 k
      ((editOf? k.id (x, (s.perform x t).1.map x.op.reply)).elim ⟨k, []⟩ fun edit => edit k) := by
  obtain ⟨given, op⟩ := x
  have hsame : t.Continues t k ⟨k, []⟩ := ⟨hk, rfl, by rw [List.map_nil, List.append_nil]⟩
  have hedited {id : RowId} {key : ApiKey} {t' : Tables} {edit : ApiKey → KeyChange}
      (hedits : t.EditsKey t' key (edit key)) (hkey : key.id = id)
      (hid : (edit key).key.id = key.id) :
      t.Continues t' k
        ((if id = k.id then some edit else none).elim ⟨k, []⟩ fun edit => edit k) := by
    by_cases heq : id = k.id
    · obtain rfl : key = k := ht.eq_of_id_eq hedits.mem hk (hkey.trans heq)
      rw [if_pos heq]
      exact hedits.continues hid
    · rw [if_neg heq]
      exact hedits.continues_other hk fun h => heq (hkey.symm.trans h.symm)
  have hquiet (hop : ¬op.WritesKeys) : t.Continues (s.perform ⟨given, op⟩ t).2 k ⟨k, []⟩ := by
    obtain ⟨hkeys, htrail⟩ := s.keys_exec given hop t
    refine ⟨hkeys ▸ hk, rfl, ?_⟩
    rw [List.map_nil, List.append_nil]
    unfold Tables.keyLabels Tables.keyTrailOf
    rw [← htrail]
    rfl
  cases op with
  | createKey username request =>
    rcases s.perform_createKey given username request t with
      ⟨e, h⟩ | ⟨account, digest, t', -, -, h, hadds⟩
    · rw [h]
      exact hsame
    · rw [h]
      exact hadds.continues ht hk
  | updateKey username id u =>
    rcases s.perform_updateKey given ht username id u with ⟨e, h⟩ | ⟨key, t', hkey, h, hedits⟩
    · rw [h]
      exact hsame
    · rw [h]
      obtain ⟨name, scope, policies, enabled, modifiedAt, hedit⟩ := editBy_key u given.now key
      exact hedited hedits hkey (by rw [hedit])
  | deleteKey username id =>
    rcases s.perform_deleteKey given ht username id with ⟨e, h⟩ | ⟨key, t', hkey, h, hedits⟩
    · rw [h]
      exact hsame
    · rw [h]
      exact hedited hedits hkey rfl
  | _ => exact hquiet fun h => h

/-- Requests one after the other continue every key by all edits that they have made. -/
theorem continues_serial (ht : t.InOrder) (hk : k ∈ t.keys) (requests : List Asked) :
    t.Continues (serial s.replyTo t requests).2 k
      (playEdits ((serial s.replyTo t requests).1.filterMap (editOf? k.id)) k) := by
  induction requests generalizing t k with
  | nil =>
    refine ⟨hk, rfl, ?_⟩
    rw [serial, List.filterMap_nil, playEdits, List.map_nil, List.append_nil]
  | cons x requests ih =>
    obtain ⟨hvalue, hstate⟩ := s.run_replyTo x t
    have hfirst := s.continues_perform ht.keys hk x
    simp only [serial, hvalue, hstate]
    rw [List.filterMap_cons]
    have ht₁ := (s.grows_perform ht x).1
    cases hedit : editOf? k.id (x, (s.perform x t).1.map x.op.reply) with
    | none =>
      rw [hedit, Option.elim_none] at hfirst
      exact hfirst.trans (ih ht₁ hfirst.mem)
    | some edit =>
      rw [hedit, Option.elim_some] at hfirst
      have hrest := ih ht₁ hfirst.mem
      rw [hfirst.id] at hrest
      exact hfirst.trans hrest

/-- What came of requests splits where they do. -/
theorem serial_split {requests : List Asked} {before after : List (Asked × Except Failure Reply)}
    {t' : Tables} (h : serial s.replyTo t requests = (before ++ after, t'))
    (hrequests : requests = (before ++ after).map (·.1)) :
    serial s.replyTo (serial s.replyTo t (before.map (·.1))).2 (after.map (·.1)) = (after, t') := by
  rw [hrequests, List.map_append, serial_append] at h
  obtain ⟨hlog, htables⟩ := Prod.ext_iff.1 h
  have hparts := List.append_inj hlog (by rw [length_serial, List.length_map])
  exact Prod.ext hparts.2 htables

/-- Requests on keys and sign-ups are serialized. Whatever turns they take on tables that have
come about, what came of those that are over, and the tables, is what comes of them one after the
other in the order of their last turns; in the end these are all of them. No account has more keys
than the limit allows at any moment. From any moment on, a key that is there becomes what the
updates and deletions of it that have succeeded since make of it in this order, and they and
nothing else are put on record. -/
theorem serializes_keyRequests (ht : s.Reaches {} t) {requests : List Asked}
    (hrequests : ∀ x ∈ requests, x.op.IsAtomic) (schedule : List Nat) :
    serial s.replyTo t ((s.share t requests schedule).log.map (·.1)) =
      ((s.share t requests schedule).log, (s.share t requests schedule).tables) ∧
    ((s.share t requests schedule).isOver = true →
      ((s.share t requests schedule).log.map (·.1)).Perm requests) ∧
    (∀ account, (((s.share t requests schedule).tables.keysOf account).length : Int) ≤
      max s.keyLimit 0) ∧
    ∀ before after, (s.share t requests schedule).log = before ++ after →
      ∀ k ∈ (serial s.replyTo t (before.map (·.1))).2.keys,
        (s.share t requests schedule).tables.keys.filter (·.id = k.id) =
          [(playEdits (after.filterMap (editOf? k.id)) k).key] ∧
        (s.share t requests schedule).tables.keyLabels k.id =
          (serial s.replyTo t (before.map (·.1))).2.keyLabels k.id ++
            (playEdits (after.filterMap (editOf? k.id)) k).events.map KeyEvent.label := by
  have hserial : serial s.replyTo t ((s.share t requests schedule).log.map (·.1)) =
      ((s.share t requests schedule).log, (s.share t requests schedule).tables) :=
    Pool.serial_of_atomic .refl .trans (fun x hx => s.takesEffectAtOnce (hrequests x hx)) t schedule
  have hafter := ht.shared requests schedule
  refine ⟨hserial, Pool.perm_log s.replyTo t requests schedule, hafter.withinLimit, ?_⟩
  intro before after hlog k hk
  have hfirst : (serial s.replyTo t (before.map (·.1))).2.InOrder :=
    serial_induction s.replyTo (fun x t ht => (s.run_replyTo x t).2 ▸ (s.grows_perform ht x).1)
      ht.inOrder _
  have hrest := s.serial_split (hlog ▸ hserial) rfl
  have hcontinues := s.continues_serial hfirst hk (after.map (·.1))
  rw [hrest] at hcontinues
  refine ⟨?_, hcontinues.labels⟩
  have hrow := hafter.inOrder.keys.filter_id hcontinues.mem
  rw [hcontinues.id] at hrow
  exact hrow

end Service

/-- The key is renamed, enabled and deleted while somebody signs up. -/
def raceForKey : List Asked :=
  [⟨.sample 3, .updateKey "ada@example.com" 3 { name := .set "cd" }⟩,
    ⟨.sample 4, .updateKey "ada@example.com" 3 { enabled := .set true }⟩,
    ⟨.sample 5, .deleteKey "ada@example.com" 3⟩,
    ⟨.sample 6, .signUp "eve@example.com" "battery staple"⟩]

/-- Everybody looks first. The key is enabled and deleted, and then it is too late to rename it. -/
theorem serializes_keyRequests_raceForKey :
    Service.plain.Reaches {} (Service.plain.after {} oneKey) ∧
    (∀ x ∈ raceForKey, x.op.IsAtomic) ∧
    ((Service.plain.share (Service.plain.after {} oneKey) raceForKey
      [0, 1, 2, 3, 1, 2, 0, 3]).log.map (·.1)).Perm raceForKey ∧
    serial Service.plain.replyTo (Service.plain.after {} oneKey)
      ((Service.plain.share (Service.plain.after {} oneKey) raceForKey
        [0, 1, 2, 3, 1, 2, 0, 3]).log.map (·.1)) =
      ((Service.plain.share (Service.plain.after {} oneKey) raceForKey
          [0, 1, 2, 3, 1, 2, 0, 3]).log,
        (Service.plain.share (Service.plain.after {} oneKey) raceForKey
          [0, 1, 2, 3, 1, 2, 0, 3]).tables) ∧
    (Service.plain.share (Service.plain.after {} oneKey) raceForKey
      [0, 1, 2, 3, 1, 2, 0, 3]).tables.keyLabels 3 =
        ["created", "enabled.true", "delete_key"] := by
  have hreaches := Service.reaches_after (s := Service.plain) {} oneKey
  have hatomic : ∀ x ∈ raceForKey, x.op.IsAtomic := by
    simp [raceForKey, Operation.IsAtomic]
  obtain ⟨hserial, hperm, -, -⟩ := Service.plain.serializes_keyRequests hreaches hatomic
    [0, 1, 2, 3, 1, 2, 0, 3]
  exact ⟨hreaches, hatomic, hperm (by decide +kernel), hserial, by decide +kernel⟩

end Latchkey
