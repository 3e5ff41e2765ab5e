import Latchkey.Proofs.Labels
import Latchkey.Proofs.Reach
import Latchkey.Proofs.Refusals
import Latchkey.Proofs.Transcript

/-!
# Origins on record

Every successful sign-in with a fingerprint is put on record, and nothing else is put on record with
one. The first record of a place with an agent is flagged and the owner is told of it; no later one
is. Which records are flagged is known from the places and agents of these sign-ins alone.
-/

namespace Latchkey

open Request

/-! ## Origins of fingerprints -/

/-- What tells origins apart: the place and the agent. -/
def Fingerprint.origin (f : Fingerprint) : Place × Agent :=
  (f.place, f.agent)

theorem Fingerprint.sameOrigin_iff (f g : Fingerprint) :
    f.sameOrigin g = true ↔ f.origin = g.origin := by
  simp [sameOrigin, origin]

namespace SecurityEntry

/-- The entry tells of a sign-in from an origin that was not on record before. -/
def isFlagged (e : SecurityEntry) : Bool :=
  e.action = SecurityEvent.unrecognizedDevice.label

/-- The entry has the fingerprint of a request from this origin. -/
def isFrom (origin : Place × Agent) (e : SecurityEntry) : Bool :=
  e.fingerprint.any (·.origin = origin)

theorem isFrom_iff {origin : Place × Agent} {e : SecurityEntry} :
    e.isFrom origin = true ↔ ∃ f, e.fingerprint = some f ∧ f.origin = origin := by
  simp [isFrom, Option.any_eq_true]

/-- The entry is not about the origin of a sign-in. -/
structure IsPlain (e : SecurityEntry) : Prop where
  fingerprint : e.fingerprint = none
  unflagged : e.isFlagged = false

end SecurityEntry

/-- The check of an origin flags what it has not seen. -/
theorem Tables.isFlagged_entry (t : Tables) (trail : List SecurityEntry) (a : Account)
    (f : Fingerprint) (now : Instant) :
    (t.securityEntry (Origin.entry trail a f now)).isFlagged = !Origin.isSeen trail f := by
  rw [SecurityEntry.isFlagged, securityEntry, Origin.entry, NewSecurityEntry.ofEvent]
  cases Origin.isSeen trail f with
  | true =>
    have hne : SecurityEvent.signIn ≠ .unrecognizedDevice := by decide
    exact decide_eq_false (SecurityEvent.label_injective.ne hne)
  | false => exact decide_eq_true rfl

/-! ## Trails -/

namespace Origin

/-- What sign-ins from these origins are put on record as, one after the other. -/
def recorded (seen : List (Place × Agent)) : List (Place × Agent) → List SecurityEvent
  | [] => []
  | o :: os => (if o ∈ seen then .signIn else .unrecognizedDevice) :: recorded (seen ++ [o]) os

theorem recorded_append (seen os : List (Place × Agent)) (o : Place × Agent) :
    recorded seen (os ++ [o]) =
      recorded seen os ++ [if o ∈ seen ++ os then .signIn else .unrecognizedDevice] := by
  induction os generalizing seen with
  | nil => simp [recorded]
  | cons p os ih =>
    rw [List.cons_append, recorded, recorded, ih, List.append_assoc, List.singleton_append]
    rfl

/-- The origins that are on a trail, in order. -/
def origins (trail : List SecurityEntry) : List (Place × Agent) :=
  (trail.filterMap (·.fingerprint)).map (·.origin)

theorem mem_origins {trail : List SecurityEntry} {origin : Place × Agent} :
    origin ∈ origins trail ↔ ∃ e ∈ trail, e.isFrom origin = true := by
  simp only [origins, List.mem_map, List.mem_filterMap, SecurityEntry.isFrom_iff]
  constructor
  · rintro ⟨f, ⟨e, he, hf⟩, horigin⟩
    exact ⟨e, he, f, hf, horigin⟩
  · rintro ⟨e, he, f, hf, horigin⟩
    exact ⟨f, ⟨e, he, hf⟩, horigin⟩

theorem isSeen_iff {trail : List SecurityEntry} {f : Fingerprint} :
    isSeen trail f = true ↔ f.origin ∈ origins trail := by
  simp only [isSeen, origins, List.any_eq_true, List.mem_map, Fingerprint.sameOrigin_iff]

/-- A trail as it is left by sign-ins with fingerprints, each flagged unless its origin is on the
trail already, and by other events. -/
inductive Flagged : List SecurityEntry → Prop
  | empty : Flagged []
  | plain {trail : List SecurityEntry} {e : SecurityEntry} (h : Flagged trail) (plain : e.IsPlain) :
      Flagged (trail ++ [e])
  | signedIn {trail : List SecurityEntry} {e : SecurityEntry} {f : Fingerprint} (h : Flagged trail)
      (fingerprint : e.fingerprint = some f)
      (action : e.action =
        (if isSeen trail f then SecurityEvent.signIn else .unrecognizedDevice).label) :
      Flagged (trail ++ [e])

namespace Flagged

variable {trail : List SecurityEntry}

theorem append (h : Flagged trail) {entries : List SecurityEntry}
    (hplain : ∀ e ∈ entries, e.IsPlain) : Flagged (trail ++ entries) := by
  induction entries generalizing trail with
  | nil => rwa [List.append_nil]
  | cons e entries ih =>
    obtain ⟨he, hrest⟩ := List.forall_mem_cons.1 hplain
    rw [← List.singleton_append, ← List.append_assoc]
    exact ih (h.plain he) hrest

/-- The records of sign-ins depend on their origins alone. -/
theorem actions (h : Flagged trail) :
    (trail.filter (·.fingerprint.isSome)).map (·.action) =
      (recorded [] (origins trail)).map (·.label) := by
  induction h with
  | empty => rfl
  | plain _ hplain ih => simp [origins, hplain.fingerprint] at ih ⊢; exact ih
  | @signedIn trail e f _ hfingerprint haction ih =>
    have horigins : origins (trail ++ [e]) = origins trail ++ [f.origin] := by
      simp [origins, hfingerprint]
    have hlast : [e].filter (·.fingerprint.isSome) = [e] := by simp [hfingerprint]
    rw [horigins, recorded_append, List.map_append, ← ih, List.filter_append, List.map_append,
      hlast, List.map_singleton, List.map_singleton, haction, List.nil_append]
    simp only [isSeen_iff]

/-- An entry with a fingerprint is flagged unless an earlier one has the same origin. -/
theorem action_eq (h : Flagged trail) {before after : List SecurityEntry} {e : SecurityEntry}
    {f : Fingerprint} (htrail : trail = before ++ e :: after) (hf : e.fingerprint = some f) :
    e.action = (if isSeen before f then SecurityEvent.signIn else .unrecognizedDevice).label := by
  induction h generalizing after with
  | empty => simp at htrail
  | plain _ hplain ih =>
    rcases split_append_singleton htrail with ⟨-, rfl, -⟩ | ⟨rest, -, hrest⟩
    · rw [hplain.fingerprint] at hf
      cases hf
    · exact ih hrest
  | signedIn _ hfingerprint haction ih =>
    rcases split_append_singleton htrail with ⟨rfl, rfl, -⟩ | ⟨rest, -, hrest⟩
    · rw [hfingerprint] at hf
      cases hf
      exact haction
    · exact ih hrest

/-- What is flagged has a fingerprint. -/
theorem fingerprint_of_isFlagged (h : Flagged trail) {e : SecurityEntry} (he : e ∈ trail)
    (hflagged : e.isFlagged = true) : e.fingerprint.isSome = true := by
  induction h with
  | empty => cases he
  | plain _ hplain ih =>
    rcases List.mem_append.1 he with he | he
    · exact ih he
    · rw [List.mem_singleton.1 he, hplain.unflagged] at hflagged
      cases hflagged
  | signedIn _ hfingerprint _ ih =>
    rcases List.mem_append.1 he with he | he
    · exact ih he
    · rw [List.mem_singleton.1 he, hfingerprint]
      rfl

/-- Of the entries from one origin the first one is flagged, and no other. -/
theorem actions_of_origin (h : Flagged trail) (origin : Place × Agent) :
    (trail.filter (·.isFrom origin)).map (·.action) = [] ∨
    ∃ n, (trail.filter (·.isFrom origin)).map (·.action) =
      SecurityEvent.unrecognizedDevice.label :: List.replicate n SecurityEvent.signIn.label := by
  have hseen (trail : List SecurityEntry) : (trail.filter (·.isFrom origin)).map (·.action) = [] ↔
      origin ∉ origins trail := by
    rw [List.map_eq_nil_iff, List.filter_eq_nil_iff, mem_origins]
    simp only [not_exists, not_and]
  induction h with
  | empty => exact .inl rfl
  | @plain trail e _ hplain ih =>
    have hother : [e].filter (·.isFrom origin) = [] := by
      simp [SecurityEntry.isFrom, hplain.fingerprint]
    rw [List.filter_append, hother, List.append_nil]
    exact ih
  | @signedIn trail e f _ hfingerprint haction ih =>
    by_cases horigin : f.origin = origin
    · have hthis : [e].filter (·.isFrom origin) = [e] := by
        simp [SecurityEntry.isFrom, hfingerprint, horigin]
      rw [List.filter_append, hthis, List.map_append, List.map_singleton, haction]
      right
      by_cases hold : isSeen trail f = true
      · rcases ih with hnone | ⟨n, hn⟩
        · rw [isSeen_iff, horigin] at hold
          exact absurd hold ((hseen trail).1 hnone)
        · refine ⟨n + 1, ?_⟩
          rw [hn, if_pos hold, List.replicate_succ', List.cons_append]
      · rw [isSeen_iff, horigin] at hold
        refine ⟨0, ?_⟩
        rw [(hseen trail).2 hold, if_neg (by rwa [isSeen_iff, horigin])]
        rfl
    · have hother : [e].filter (·.isFrom origin) = [] := by
        simp [SecurityEntry.isFrom, hfingerprint, horigin]
      rw [List.filter_append, hother, List.append_nil]
      exact ih

end Flagged

end Origin

/-! ## Calls that record no origin -/

theorem isPlain_of_mem_securityEntries {account last : RowId} {now : Instant}
    {events : List SecurityEvent} (hevents : SecurityEvent.unrecognizedDevice ∉ events)
    {e : SecurityEntry} (he : e ∈ securityEntries account now last events) : e.IsPlain := by
  induction events generalizing last with
  | nil => cases he
  | cons event events ih =>
    rw [List.mem_cons, not_or] at hevents
    rcases List.mem_cons.1 he with rfl | he
    · exact ⟨rfl, decide_eq_false (SecurityEvent.label_injective.ne (Ne.symm hevents.1))⟩
    · exact ih hevents.2 he

/-- The trail with more entries, none of them about the origin of a sign-in. -/
def Tables.AddsPlain (t t' : Tables) : Prop :=
  ∃ entries, t'.securityTrail = t.securityTrail ++ entries ∧ ∀ e ∈ entries, e.IsPlain

namespace Tables.AddsPlain

variable {t t' t'' : Tables}

theorem of_eq (h : t'.securityTrail = t.securityTrail) : t.AddsPlain t' :=
  ⟨[], by rw [h, List.append_nil], fun _ he => nomatch he⟩

theorem trans (h : t.AddsPlain t') (h' : t'.AddsPlain t'') : t.AddsPlain t'' := by
  obtain ⟨entries, htrail, hplain⟩ := h
  obtain ⟨entries', htrail', hplain'⟩ := h'
  refine ⟨entries ++ entries', by rw [htrail', htrail, List.append_assoc], ?_⟩
  intro e he
  exact (List.mem_append.1 he).elim (hplain e) (hplain' e)

theorem recordSecurityEvents (h : t'.securityTrail = t.securityTrail) (account : RowId)
    {events : List SecurityEvent} (hevents : SecurityEvent.unrecognizedDevice ∉ events)
    (now : Instant) : t.AddsPlain (t'.recordSecurityEvents account events now) := by
  rw [Tables.recordSecurityEvents_eq]
  exact ⟨_, by rw [h], fun e he => isPlain_of_mem_securityEntries hevents he⟩

end Tables.AddsPlain

namespace Call

variable {β : Type}

/-- The call does not record the origin of a sign-in. -/
def SparesOrigins : Call β → Prop
  | .saveAccount _ events _ => .unrecognizedDevice ∉ events
  | .modifyKey _ _ _ security _ => security ≠ some .unrecognizedDevice
  | .recordSecurity _ => False
  | _ => True

theorem addsPlain_of_sparesOrigins {c : Call β} (h : c.SparesOrigins) (t : Tables) :
    t.AddsPlain (c.apply t).2 := by
  cases c with
  | insertAccount a =>
    simp only [apply, sure, Tables.insertAccount]
    split
    · exact .of_eq rfl
    · exact .recordSecurityEvents rfl _ (by simp) _
  | saveAccount a events now =>
    simp only [apply, Tables.saveAccount]
    split
    · exact .recordSecurityEvents rfl _ h _
    · exact .of_eq rfl
  | recordSecurity e => exact h.elim
  | insertKey k limit =>
    simp only [apply, sure, Tables.insertKey]
    split
    · exact .of_eq rfl
    · refine .recordSecurityEvents ?_ _ (by simp) _
      rw [Tables.recordKeyEvents_eq]
  | modifyKey account id edit security now =>
    simp only [apply, sure, Tables.modifyKey]
    split
    · exact .of_eq rfl
    · split
      · exact .of_eq rfl
      · refine .recordSecurityEvents ?_ _ ?_ _
        · rw [Tables.recordKeyEvents_eq]
        · rw [Option.mem_toList]
          exact h
  | _ => exact .of_eq rfl

end Call

namespace Operation

variable {α β : Type}

/-- The operation may record the origin of a sign-in. -/
def RecordsOrigins : Operation α → Prop
  | .signIn _ _ _ => True
  | _ => False

theorem Writes.sparesOrigins {op : Operation α} {c : Call β} (h : op.Writes c)
    (hop : ¬op.RecordsOrigins) : c.SparesOrigins := by
  cases c with
  | saveAccount a events now =>
    cases op with
    | forgotPassword username =>
      obtain rfl : events = [] := h
      exact List.not_mem_nil
    | resetPassword password token =>
      obtain rfl : events = [.passwordReset] := h
      show SecurityEvent.unrecognizedDevice ∉ [.passwordReset]
      simp
    | updateAccount username update =>
      obtain ⟨a, rfl⟩ := h
      exact ProfileUpdate.isEdit_of_mem_apply
    | _ => exact h.elim
  | modifyKey account id edit security now =>
    cases op with
    | updateKey username id update =>
      obtain rfl : security = none := h
      exact fun heq => nomatch heq
    | deleteKey username id =>
      obtain rfl : security = some (.keyDeleted _) := h
      exact fun heq => nomatch heq
    | _ => exact h.elim
  | recordSecurity e => cases op <;> first | exact h.elim | exact (hop trivial).elim
  | _ => trivial

end Operation

/-- The entry that a notice of an unrecognized device is about, and the account it is sent to. -/
def Notice.unrecognized? (n : Notice) : Option (RowId × SecurityEntry) :=
  match n.subject with
  | .unrecognizedDevice entry => some (n.account.id, entry)
  | _ => none

namespace Service

variable (s : Service) {t : Tables}

/-- An operation that is not a sign-in records no origin and tells of none. -/
theorem addsPlain_perform {x : Asked} (hop : ¬x.op.RecordsOrigins) (t : Tables) :
    t.AddsPlain (s.perform x t).2 ∧ (s.sent x t).filterMap Notice.unrecognized? = [] := by
  constructor
  · refine s.perform_of_mayCall (I := t.AddsPlain) x ?_ (.of_eq rfl)
    intro β c t' hcall ht'
    refine ht'.trans (Call.addsPlain_of_sparesOrigins ?_ t')
    rcases hcall with hlook | hwrites
    · cases c <;> trivial
    · exact hwrites.sparesOrigins hop
  · refine List.filterMap_eq_nil_iff.2 ?_
    intro n hn
    have hmay := s.maySend_of_mem_sent hn
    obtain ⟨given, op⟩ := x
    obtain ⟨account, subject⟩ := n
    cases subject with
    | unrecognizedDevice entry =>
      cases op <;> first | exact hmay.elim | exact (hop trivial).elim
    | _ => rfl

end Service

/-! ## What an operation does to trails -/

/-- The fingerprint that an account has signed in with. -/
def Answered.origin? : Answered → String → Option Fingerprint
  | ⟨_, .signIn name _ (some f), .ok _⟩, username => if name = username then some f else none
  | _, _ => none

namespace Session

variable (settings : SessionSettings) {hasher : Hasher} (given : Given) {t : Tables}
variable {username password : String} {account : Account}

/-- A sign-in with a password that fits sends a notice if its origin is new. -/
theorem sent_signIn_accepted (fingerprint : Option Fingerprint)
    (hfound : t.accountNamed? username = some account)
    (hverify : hasher.verify password account.passwordDigest = .ok true) :
    (signIn settings hasher given username password fingerprint).sent t =
      match fingerprint with
      | none => []
      | some f =>
        let trail := t.securityTrailOf account.id
        if Origin.isSeen trail f then []
        else [⟨account, .unrecognizedDevice
          (t.securityEntry (Origin.entry trail account f given.now))⟩] := by
  rw [sent, run_signIn]
  simp only [Program.run, Backend.memory, Call.apply, Call.look,
    signInTo_accepted hfound hverify]
  cases fingerprint with
  | none => rfl
  | some f =>
    rw [checkOrigin, Program.run_andThen, Origin.verify_eq]
    simp only [Program.run, Call.sure, registerDevice, List.append_nil]
    cases Origin.isSeen (t.securityTrailOf account.id) f <;> rfl

end Session

/-- The step that an operation takes trails, what its answer tells of origins and what it tells the
owners of accounts. -/
inductive Tables.TrailStep (t t' : Tables) :
    (String → Option Fingerprint) → List (RowId × SecurityEntry) → Prop
  | plain (adds : t.AddsPlain t') : TrailStep t t' (fun _ => none) []
  | signedIn (a : Account) (f : Fingerprint) (now : Instant) (mem : a ∈ t.accounts)
      (accounts : t'.accounts = t.accounts)
      (trail : t'.securityTrail = t.securityTrail ++
        [t.securityEntry (Origin.entry (t.securityTrailOf a.id) a f now)]) :
      TrailStep t t' (fun username => if a.username = username then some f else none)
        (if Origin.isSeen (t.securityTrailOf a.id) f then []
          else [(a.id, t.securityEntry (Origin.entry (t.securityTrailOf a.id) a f now))])

namespace Service

variable (s : Service) {t : Tables}

theorem trailStep_signIn (given : Given) (username password : String)
    (fingerprint : Option Fingerprint) :
    let x : Asked := ⟨given, .signIn username password fingerprint⟩
    t.TrailStep (s.perform x t).2 (s.answered x t).origin?
      ((s.sent x t).filterMap Notice.unrecognized?) := by
  intro x
  rcases Session.fits_or_run_signIn_refused s.session s.passwords given username password
    fingerprint t with ⟨a, hfound, hverify⟩ | ⟨e, hrun⟩
  · have hexec : s.perform x t = (.ok (Session.tokensFor s.session given a (some given.uuid)),
        Session.withDevice s.session given a fingerprint t) :=
      Session.exec_signIn_accepted hfound hverify
    have hsent : s.sent x t = _ :=
      Session.sent_signIn_accepted s.session given fingerprint hfound hverify
    obtain ⟨ha, rfl⟩ := Tables.accountNamed?_some hfound
    rw [answered, hexec, hsent]
    cases fingerprint with
    | none => exact .plain (.of_eq rfl)
    | some f =>
      have htold : (if Origin.isSeen (t.securityTrailOf a.id) f then [] else
          [(⟨a, .unrecognizedDevice (t.securityEntry
            (Origin.entry (t.securityTrailOf a.id) a f given.now))⟩ : Notice)]).filterMap
              Notice.unrecognized? =
          if Origin.isSeen (t.securityTrailOf a.id) f then []
          else [(a.id, t.securityEntry
            (Origin.entry (t.securityTrailOf a.id) a f given.now))] := by
        split <;> rfl
      rw [htold]
      exact .signedIn a f given.now ha rfl rfl
  · have hexec : s.perform x t = (.error e, t) :=
      congrArg (fun run => (run.value, run.state)) hrun
    have hsent : s.sent x t = [] := congrArg (·.sent) hrun
    rw [answered, hexec, hsent]
    have htold : Answered.origin? ⟨given, .signIn username password fingerprint, .error e⟩ =
        fun _ => none := by
      funext name
      cases fingerprint <;> rfl
    rw [htold]
    exact .plain (.of_eq rfl)

/-- Every operation takes trails one step. -/
theorem trailStep_perform (x : Asked) (t : Tables) :
    t.TrailStep (s.perform x t).2 (s.answered x t).origin?
      ((s.sent x t).filterMap Notice.unrecognized?) := by
  have hplain (hop : ¬x.op.RecordsOrigins)
      (hnone : (s.answered x t).origin? = fun _ => none) :
      t.TrailStep (s.perform x t).2 (s.answered x t).origin?
        ((s.sent x t).filterMap Notice.unrecognized?) := by
    obtain ⟨hadds, hsilent⟩ := s.addsPlain_perform hop t
    rw [hnone, hsilent]
    exact .plain hadds
  obtain ⟨given, op⟩ := x
  cases op with
  | signIn username password fingerprint =>
    exact s.trailStep_signIn given username password fingerprint
  | _ => exact hplain (fun h => h) rfl

end Service

/-! ## What trails remember -/

/-- Trails are flagged as sign-ins leave them. The fingerprints on the trail of an account are those
that it has signed in with, and its owner was told of every entry that is flagged. -/
structure Tables.Remembers (t : Tables) (log : List Answered)
    (told : List (RowId × SecurityEntry)) : Prop where
  inOrder : t.InOrder
  trails : ∀ id, Origin.Flagged (t.securityTrailOf id)
  fingerprints : ∀ a ∈ t.accounts, (t.securityTrailOf a.id).filterMap (·.fingerprint) =
    log.filterMap (·.origin? a.username)
  unknown : ∀ username, (∀ a ∈ t.accounts, a.username ≠ username) →
    log.filterMap (·.origin? username) = []
  notices : told = (t.securityTrail.filter (·.isFlagged)).map fun e => (e.account, e)

namespace Tables

variable {t t' : Tables} {log : List Answered} {x : Answered}
variable {told new : List (RowId × SecurityEntry)}

/-- An account is one from before, or its name and its number are new. -/
theorem InOrder.hasRowOf_or_new (ht : t.InOrder) (ht' : t'.InOrder) (hgrows : t.Grows t')
    {a : Account} (ha : a ∈ t'.accounts) : t.HasRowOf a ∨
      (∀ b ∈ t.accounts, b.username ≠ a.username) ∧ t.securityTrailOf a.id = [] := by
  by_cases hold : t.HasRowOf a
  · exact .inl hold
  · refine .inr ⟨?_, ?_⟩
    · intro b hb hname
      obtain ⟨c, hc, hid, hname'⟩ := hgrows.accounts b ⟨b, hb, rfl, rfl⟩
      obtain rfl := List.inj_on_of_nodup_map ht'.accounts.usernames hc ha (hname'.trans hname)
      exact hold ⟨b, hb, hid.symm, hname⟩
    · refine List.filter_eq_nil_iff.2 ?_
      intro e he haccount
      obtain ⟨username, b, hb, hid, -⟩ := ht.securityOwners e he
      obtain ⟨c, hc, hid', hname⟩ := hgrows.accounts b ⟨b, hb, rfl, rfl⟩
      have hsame : c.id = a.id := hid'.trans (hid.trans (of_decide_eq_true haccount))
      obtain rfl := List.inj_on_of_nodup_map ht'.accounts.ids hc ha hsame
      exact hold ⟨b, hb, hid'.symm, hname.symm⟩

theorem remembers_empty : ({} : Tables).Remembers [] [] where
  inOrder := inOrder_empty
  trails := fun _ => .empty
  fingerprints := fun _ ha => nomatch ha
  unknown := fun _ _ => rfl
  notices := rfl

theorem Remembers.of_plain (h : t.Remembers log told) (horder : t'.InOrder) (hgrows : t.Grows t')
    (hadds : t.AddsPlain t') (hx : ∀ username, x.origin? username = none) :
    t'.Remembers (log ++ [x]) (told ++ []) := by
  obtain ⟨entries, htrail, hplain⟩ := hadds
  have htrailOf (id : RowId) : t'.securityTrailOf id =
      t.securityTrailOf id ++ entries.filter (·.account = id) := by
    rw [securityTrailOf, htrail, List.filter_append]
    rfl
  have hplain' (id : RowId) : ∀ e ∈ entries.filter (·.account = id), e.IsPlain :=
    fun e he => hplain e (List.mem_of_mem_filter he)
  have hlog (username : String) : (log ++ [x]).filterMap (·.origin? username) =
      log.filterMap (·.origin? username) := by
    rw [filterMap_append_singleton, hx, Option.toList_none, List.append_nil]
  refine ⟨horder, ?_, ?_, ?_, ?_⟩
  · intro id
    rw [htrailOf]
    exact (h.trails id).append (hplain' id)
  · intro a ha
    have hnone : (entries.filter (·.account = a.id)).filterMap (·.fingerprint) = [] :=
      List.filterMap_eq_nil_iff.2 fun e he => (hplain' a.id e he).fingerprint
    rw [htrailOf, List.filterMap_append, hnone, List.append_nil, hlog]
    -- The operation may be the sign-up of this account; then neither side knows of it yet.
    rcases h.inOrder.hasRowOf_or_new horder hgrows ha with ⟨b, hb, hid, hname⟩ | ⟨hnew, hempty⟩
    · rw [← hid, ← hname]
      exact h.fingerprints b hb
    · rw [hempty, h.unknown a.username hnew]
      rfl
  · intro username hne
    rw [hlog]
    refine h.unknown username ?_
    intro a ha hname
    obtain ⟨b, hb, -, hname'⟩ := hgrows.accounts a ⟨a, ha, rfl, rfl⟩
    exact hne b hb (hname'.trans hname)
  · have hnone : entries.filter (·.isFlagged) = [] :=
      List.filter_eq_nil_iff.2 fun e he => by rw [(hplain e he).unflagged]; exact Bool.false_ne_true
    rw [List.append_nil, htrail, List.filter_append, hnone, List.append_nil]
    exact h.notices

/-- A sign-in adds its record to the trail of its account and to no other. -/
theorem Remembers.of_signIn (h : t.Remembers log told) (horder : t'.InOrder) {a : Account}
    {f : Fingerprint} {now : Instant} (ha : a ∈ t.accounts) (haccounts : t'.accounts = t.accounts)
    (htrail : t'.securityTrail = t.securityTrail ++
      [t.securityEntry (Origin.entry (t.securityTrailOf a.id) a f now)])
    (hx : ∀ username, x.origin? username = if a.username = username then some f else none) :
    t'.Remembers (log ++ [x])
      (told ++ if Origin.isSeen (t.securityTrailOf a.id) f then []
        else [(a.id, t.securityEntry (Origin.entry (t.securityTrailOf a.id) a f now))]) := by
  have hthis : t'.securityTrailOf a.id = t.securityTrailOf a.id ++
      [t.securityEntry (Origin.entry (t.securityTrailOf a.id) a f now)] := by
    rw [securityTrailOf, htrail, List.filter_append]
    simp [securityTrailOf, securityEntry, Origin.entry, NewSecurityEntry.ofEvent]
  have hother {id : RowId} (hid : a.id ≠ id) : t'.securityTrailOf id = t.securityTrailOf id := by
    rw [securityTrailOf, htrail, List.filter_append]
    simp [securityTrailOf, securityEntry, Origin.entry, NewSecurityEntry.ofEvent, hid]
  refine ⟨horder, ?_, ?_, ?_, ?_⟩
  · intro id
    by_cases hid : a.id = id
    · subst hid
      rw [hthis]
      exact (h.trails a.id).signedIn rfl rfl
    · rw [hother hid]
      exact h.trails id
  · intro b hb
    rw [haccounts] at hb
    rw [filterMap_append_singleton, hx, ← h.fingerprints b hb]
    by_cases hname : a.username = b.username
    · obtain rfl := List.inj_on_of_nodup_map h.inOrder.accounts.usernames ha hb hname
      rw [hthis, List.filterMap_append, if_pos rfl]
      rfl
    · have hid : a.id ≠ b.id := fun hid =>
        hname ((h.inOrder.accounts.id_eq_iff ⟨b, hb, rfl, rfl⟩ ha).1 hid)
      rw [hother hid, if_neg hname, Option.toList_none, List.append_nil]
  · intro username hne
    rw [haccounts] at hne
    rw [filterMap_append_singleton, hx, if_neg (hne a ha), h.unknown username hne]
    rfl
  · have hflagged := t.isFlagged_entry (t.securityTrailOf a.id) a f now
    rw [htrail, List.filter_append, List.map_append, ← h.notices, List.filter_cons, hflagged]
    cases Origin.isSeen (t.securityTrailOf a.id) f <;> rfl

theorem Remembers.step (h : t.Remembers log told) (horder : t'.InOrder) (hgrows : t.Grows t')
    (hstep : t.TrailStep t' x.origin? new) : t'.Remembers (log ++ [x]) (told ++ new) := by
  generalize hx : x.origin? = origin? at hstep
  cases hstep with
  | plain hadds => exact h.of_plain horder hgrows hadds (congrFun hx)
  | signedIn a f now ha haccounts htrail =>
    exact h.of_signIn horder ha haccounts htrail (congrFun hx)

end Tables

namespace Service

variable (s : Service)

/-- Trails remember after every history. -/
theorem remembers_after (h : List Asked) : (s.after {} h).Remembers (s.transcript {} h)
    ((s.notices {} h).filterMap Notice.unrecognized?) := by
  induction h using List.reverseRecOn with
  | nil => exact Tables.remembers_empty
  | append_singleton h x ih =>
    obtain ⟨horder, hgrows⟩ := s.grows_perform ih.inOrder x
    have hnotices : s.notices {} (h ++ [x]) = s.notices {} h ++ s.sent x (s.after {} h) := by
      rw [s.notices_append]
      exact congrArg _ (List.append_nil _)
    rw [s.after_append, s.transcript_append, hnotices, List.filterMap_append]
    exact ih.step horder hgrows (s.trailStep_perform x _)

/-- After every history a notice of an unrecognized device was sent for every entry that is flagged,
to its account and in order, and no other. The entries about an account that have a fingerprint are,
in order, of the sign-ins with a fingerprint in which it has succeeded. Such an entry is flagged if
no earlier one about the account has the same place and agent, so that of the entries from one
origin it is the first one, and it is recorded as a plain sign-in otherwise; nothing else is
flagged. What these entries are recorded as is known from the places and agents of these sign-ins
alone. -/
theorem origins_flagged_once (h : List Asked) :
    (s.notices {} h).filterMap Notice.unrecognized? =
      ((s.after {} h).securityTrail.filter (·.action = "unrecognized_device")).map
        (fun e => (e.account, e)) ∧
    ∀ a ∈ (s.after {} h).accounts,
      let trail := (s.after {} h).securityTrailOf a.id
      let fingerprints := (s.transcript {} h).filterMap (·.origin? a.username)
      trail.filterMap (·.fingerprint) = fingerprints ∧
      (∀ before e after f, trail = before ++ e :: after → e.fingerprint = some f →
        ((∃ e' ∈ before, e'.isFrom f.origin = true) → e.action = "signin") ∧
        ((∀ e' ∈ before, e'.isFrom f.origin = false) → e.action = "unrecognized_device")) ∧
      (∀ origin, (trail.filter (·.isFrom origin)).map (·.action) = [] ∨
        ∃ n, (trail.filter (·.isFrom origin)).map (·.action) =
          "unrecognized_device" :: List.replicate n "signin") ∧
      (∀ e ∈ trail, e.action = "unrecognized_device" → e.fingerprint.isSome = true) ∧
      (trail.filter (·.fingerprint.isSome)).map (·.action) =
        (Origin.recorded [] (fingerprints.map (·.origin))).map (·.label) := by
  have hremembers := s.remembers_after h
  refine ⟨hremembers.notices, ?_⟩
  intro a ha trail fingerprints
  have hflagged := hremembers.trails a.id
  have hfingerprints : trail.filterMap (·.fingerprint) = fingerprints :=
    hremembers.fingerprints a ha
  refine ⟨hfingerprints, ?_, hflagged.actions_of_origin, ?_, ?_⟩
  · intro before e after f htrail hf
    rw [hflagged.action_eq htrail hf]
    constructor
    · intro hseen
      rw [if_pos (Origin.isSeen_iff.2 (Origin.mem_origins.2 hseen))]
      rfl
    · intro hnew
      rw [if_neg]
      · rfl
      · rw [Origin.isSeen_iff, Origin.mem_origins]
        rintro ⟨e', he', hfrom⟩
        rw [hnew e' he'] at hfrom
        cases hfrom
  · intro e he haction
    exact hflagged.fingerprint_of_isFlagged he (decide_eq_true haction)
  · have hactions := hflagged.actions
    rw [Origin.origins, hremembers.fingerprints a ha] at hactions
    exact hactions

end Service

/-- Ada signs in from two origins, the first one under two addresses, and once without one. Bob
signs in from the first one as well. -/
def adaFromTwoOrigins : List Asked :=
  let office : Place := ⟨some "AT", none, some "Vienna"⟩
  let linux : Agent := ⟨"Linux", none, none, "Firefox", none, none⟩
  let phone : Agent := ⟨"Android", none, none, "Chrome", none, none⟩
  [⟨.sample 1, .signUp "ada@example.com" "correct horse"⟩,
    ⟨.sample 2, .signUp "bob@example.com" "battery staple"⟩,
    ⟨.sample 3, .signIn "ada@example.com" "wrong horse" (some ⟨"192.0.2.1", office, phone⟩)⟩,
    ⟨.sample 4, .signIn "ada@example.com" "correct horse" (some ⟨"192.0.2.1", office, linux⟩)⟩,
    ⟨.sample 5, .signIn "bob@example.com" "battery staple" (some ⟨"192.0.2.1", office, linux⟩)⟩,
    ⟨.sample 6, .signIn "ada@example.com" "correct horse" none⟩,
    ⟨.sample 7, .signIn "ada@example.com" "correct horse" (some ⟨"192.0.2.2", office, linux⟩)⟩,
    ⟨.sample 8, .signIn "ada@example.com" "correct horse" (some ⟨"192.0.2.1", office, phone⟩)⟩]

/-- The row of Ada. -/
def adaSignedIn : Account :=
  (⟨"ada@example.com", "correct horse", ["admin"], ⟨1, 0⟩⟩ : NewAccount).row 1

theorem origins_flagged_once_adaFromTwoOrigins :
    adaSignedIn ∈ (Service.plain.after {} adaFromTwoOrigins).accounts ∧
    (((Service.plain.after {} adaFromTwoOrigins).securityTrailOf 1).filter
      (·.fingerprint.isSome)).map (·.action) =
        ["unrecognized_device", "signin", "unrecognized_device"] := by
  have hthere : adaSignedIn ∈ (Service.plain.after {} adaFromTwoOrigins).accounts := by
    decide +kernel
  obtain ⟨-, -, -, -, hrecorded⟩ :=
    (Service.plain.origins_flagged_once adaFromTwoOrigins).2 adaSignedIn hthere
  refine ⟨hthere, hrecorded.trans ?_⟩
  decide +kernel

end Latchkey
