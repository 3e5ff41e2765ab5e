import Latchkey.Proofs.History
import Latchkey.Proofs.Text.Cutting

/-!
# Authenticating keys

The ledger is kept by whoever notes all answers: a key that is shown is added, a key that is updated
is noted as answered, a key that is deleted is struck out. After every history the ledger holds
exactly the rows that are not deleted, and a presented text is the key that it was shown for, or
none.
-/

namespace Latchkey

open Keyring Text

/-! ## The lead of a text -/

theorem alphanumeric_plain (i : Fin 62) :
    alphanumeric i ≠ '.' ∧ isBlank (alphanumeric i) = false := by
  decide +revert

/-- A drawn key is looked up by its lead. -/
theorem RawKey.lead?_text (k : RawKey) : RawKey.lead? k.text = some k.leadText := by
  have htext : k.text.toList =
      k.lead.toList.map alphanumeric ++ '.' :: k.payload.toList.map alphanumeric := by
    simp [text, leadText, payloadText]
  have hdot : '.' ∉ k.lead.toList.map alphanumeric := by
    intro hmem
    obtain ⟨i, -, hi⟩ := List.mem_map.1 hmem
    exact (alphanumeric_plain i).1 hi
  have hblank : ∀ c ∈ k.lead.toList.map alphanumeric, isBlank c = false := by
    intro c hc
    obtain ⟨i, -, rfl⟩ := List.mem_map.1 hc
    exact (alphanumeric_plain i).2
  have hempty : (k.lead.toList.map alphanumeric).isEmpty = false := by
    rw [List.isEmpty_eq_false_iff, ← List.length_pos_iff, List.length_map, Vector.length_toList]
    decide
  unfold lead?
  rw [htext, before_append_cons hdot, trimChars_eq_self hblank]
  simp only [hempty, Bool.false_eq_true, if_false]
  rfl

/-! ## The ledger -/

/-- Keys with their texts, each as last answered. -/
abbrev Ledger := List IssuedKey

namespace Operation

variable {α : Type}

/-- The ledger with what an operation has answered noted down. -/
def note (op : Operation α) (answer : Except Failure α) (ledger : Ledger) : Ledger :=
  match op, answer with
  | .createKey _ _, .ok issued => ledger ++ [issued]
  | .updateKey _ id _, .ok key => ledger.map fun e => if e.key.id = id then ⟨key, e.text⟩ else e
  | .deleteKey _ id, .ok _ => ledger.filter (·.key.id ≠ id)
  | _, _ => ledger

/-- The text of the key that an operation has answered with, if it has created one. -/
def shownText? (op : Operation α) (answer : Except Failure α) : Option String :=
  match op, answer with
  | .createKey _ _, .ok issued => some issued.text
  | _, _ => none

end Operation

namespace Service

variable (s : Service)

/-- The ledger after a history, if one was kept before it. -/
def ledgerAfter (t : Tables) (ledger : Ledger) : List Asked → Ledger
  | [] => ledger
  | x :: h => ledgerAfter (s.perform x t).2 (x.op.note (s.perform x t).1 ledger) h

/-- The texts of the keys that a history has created, in order. -/
def shownTexts (t : Tables) : List Asked → List String
  | [] => []
  | x :: h => (x.op.shownText? (s.perform x t).1).toList ++ shownTexts (s.perform x t).2 h

end Service

/-- A digest is of the secret it was made of and of no other. -/
def Hasher.Verifies (hasher : Hasher) : Prop :=
  ∀ salt secret digest, hasher.digest salt secret = .ok digest →
    ∀ presented, hasher.verify presented digest = .ok (decide (presented = secret))

theorem Hasher.plain_verifies : Hasher.plain.Verifies := by
  intro salt secret digest h presented
  cases h
  rfl

/-- The ledger holds the rows that are not deleted, in their order, each with the text that its
lead and its digest were made of. -/
structure Tables.Matches (t : Tables) (hasher : Hasher) (ledger : Ledger) : Prop where
  rows : ledger.map (·.key) = t.keys.filter (!·.isDeleted)
  leads : ∀ e ∈ ledger, RawKey.lead? e.text = some e.key.lead
  digests : ∀ e ∈ ledger, ∃ salt, hasher.digest salt e.text = .ok e.key.digest

namespace Tables.Matches

variable {t t' : Tables} {hasher : Hasher} {ledger : Ledger} {key : ApiKey}

/-- An edited row is noted where its number stands. -/
theorem of_update (ht : t.KeysInOrder) (h : t.Matches hasher ledger) {change : KeyChange}
    (hedits : t.EditsKey t' key change) (hlive : change.key.isDeleted = false)
    (hlead : change.key.lead = key.lead) (hdigest : change.key.digest = key.digest) :
    t'.Matches hasher
      (ledger.map fun e => if e.key.id = key.id then ⟨change.key, e.text⟩ else e) := by
  have hrow : ∀ e ∈ ledger, e.key.id = key.id → e.key = key := by
    intro e he hid
    have hmem : e.key ∈ t.keys.filter (!·.isDeleted) := h.rows ▸ List.mem_map.2 ⟨e, he, rfl⟩
    exact ht.eq_of_id_eq (List.mem_of_mem_filter hmem) hedits.mem hid
  refine ⟨?_, ?_, ?_⟩
  · have hkeep : ∀ k ∈ t.keys,
        (!(if k.id = key.id then change.key else k).isDeleted) = !k.isDeleted := by
      intro k hk
      split
      · next hid => rw [ht.eq_of_id_eq hk hedits.mem hid, hlive, hedits.live]
      · rfl
    have hrows : (ledger.map fun e => if e.key.id = key.id then (⟨change.key, e.text⟩ : IssuedKey)
        else e).map (·.key) =
          (ledger.map (·.key)).map fun k => if k.id = key.id then change.key else k := by
      rw [List.map_map, List.map_map]
      refine List.map_congr_left ?_
      intro e _
      simp only [Function.comp_apply]
      split <;> rfl
    rw [hrows, h.rows, hedits.keys, List.filter_map]
    exact congrArg _ (List.filter_congr hkeep).symm
  · intro e' he'
    obtain ⟨e, he, rfl⟩ := List.mem_map.1 he'
    split
    · next hid => rw [hlead, h.leads e he, hrow e he hid]
    · exact h.leads e he
  · intro e' he'
    obtain ⟨e, he, rfl⟩ := List.mem_map.1 he'
    split
    · next hid =>
      obtain ⟨salt, hsalt⟩ := h.digests e he
      exact ⟨salt, by rw [hdigest, hsalt, hrow e he hid]⟩
    · exact h.digests e he

/-- A row that is marked as deleted is struck out. -/
theorem of_delete (h : t.Matches hasher ledger) {change : KeyChange}
    (hedits : t.EditsKey t' key change) (hdeleted : change.key.isDeleted = true) :
    t'.Matches hasher (ledger.filter (·.key.id ≠ key.id)) := by
  refine ⟨?_, ?_, ?_⟩
  · have hkeep : ∀ k ∈ t.keys, (!(if k.id = key.id then change.key else k).isDeleted) =
        (decide (k.id ≠ key.id) && !k.isDeleted) := by
      intro k _
      by_cases hid : k.id = key.id
      · simp [hid, hdeleted]
      · simp [hid]
    have hsame : ∀ k ∈ t.keys.filter fun k => decide (k.id ≠ key.id) && !k.isDeleted,
        (if k.id = key.id then change.key else k) = k := by
      intro k hk
      have hne := (List.mem_filter.1 hk).2
      simp only [Bool.and_eq_true, decide_eq_true_eq] at hne
      exact if_neg hne.1
    calc
      (ledger.filter (·.key.id ≠ key.id)).map (·.key) =
          (ledger.map (·.key)).filter (·.id ≠ key.id) := by
        rw [List.filter_map]
        rfl
      _ = t.keys.filter fun k => decide (k.id ≠ key.id) && !k.isDeleted := by
        rw [h.rows, List.filter_filter]
      _ = (t.keys.filter fun k => decide (k.id ≠ key.id) && !k.isDeleted).map
          fun k => if k.id = key.id then change.key else k :=
        ((List.map_congr_left hsame).trans (List.map_id' _)).symm
      _ = (t.keys.map fun k => if k.id = key.id then change.key else k).filter
          (!·.isDeleted) := by
        rw [List.filter_map]
        exact congrArg _ (List.filter_congr hkeep).symm
      _ = t'.keys.filter (!·.isDeleted) := by rw [hedits.keys]
  · intro e he
    exact h.leads e (List.mem_of_mem_filter he)
  · intro e he
    exact h.digests e (List.mem_of_mem_filter he)

/-- A new row is noted with its text. -/
theorem of_create (h : t.Matches hasher ledger) {issued : IssuedKey}
    (hadds : t.AddsKey t' issued.key) (hlive : issued.key.isDeleted = false)
    (hlead : RawKey.lead? issued.text = some issued.key.lead) {salt : Vector UInt8 16}
    (hdigest : hasher.digest salt issued.text = .ok issued.key.digest) :
    t'.Matches hasher (ledger ++ [issued]) := by
  refine ⟨?_, ?_, ?_⟩
  · rw [List.map_append, h.rows, hadds.keys, List.filter_append]
    simp [hlive]
  · intro e he
    rcases List.mem_append.1 he with he | he
    · exact h.leads e he
    · rw [List.mem_singleton.1 he]
      exact hlead
  · intro e he
    rcases List.mem_append.1 he with he | he
    · exact h.digests e he
    · rw [List.mem_singleton.1 he]
      exact ⟨salt, hdigest⟩

/-- What every operation answers is noted rightly. -/
theorem perform (s : Service) (ht : t.KeysInOrder) (h : t.Matches s.keys ledger) (x : Asked) :
    (s.perform x t).2.Matches s.keys (x.op.note (s.perform x t).1 ledger) := by
  obtain ⟨given, op⟩ := x
  have hquiet (hop : ¬op.WritesKeys) (hnote : ∀ answer, op.note answer ledger = ledger) :
      (s.perform ⟨given, op⟩ t).2.Matches s.keys
        (op.note (s.perform ⟨given, op⟩ t).1 ledger) := by
    rw [hnote]
    refine ⟨h.rows.trans ?_, h.leads, h.digests⟩
    rw [← (s.keys_exec given hop t).1]
    rfl
  cases op with
  | createKey username request =>
    rcases s.perform_createKey given username request t with
      ⟨e, herror⟩ | ⟨account, digest, t', hdigest, -, hok, hadds⟩
    · rw [herror]
      exact h
    · rw [hok]
      exact h.of_create hadds rfl given.rawKey.lead?_text hdigest
  | updateKey username id u =>
    rcases s.perform_updateKey given ht username id u with
      ⟨e, herror⟩ | ⟨key, t', hid, hok, hedits⟩
    · rw [herror]
      exact h
    · obtain ⟨name, scope, policies, enabled, modifiedAt, hkey⟩ := editBy_key u given.now key
      rw [hok, ← hid]
      refine h.of_update ht hedits ?_ (by rw [hkey]) (by rw [hkey])
      rw [hkey]
      exact hedits.live
  | deleteKey username id =>
    rcases s.perform_deleteKey given ht username id with
      ⟨e, herror⟩ | ⟨key, t', hid, hok, hedits⟩
    · rw [herror]
      exact h
    · rw [hok, ← hid]
      exact h.of_delete hedits rfl
  | _ => exact hquiet (fun h => h) fun answer => by cases answer <;> rfl

end Tables.Matches

/-! ## Presented texts -/

/-- No operation notes a text that it has not shown. -/
theorem Operation.texts_note {α : Type} (op : Operation α) (answer : Except Failure α)
    (ledger : Ledger) : ((op.note answer ledger).map (·.text)).Sublist
      (ledger.map (·.text) ++ (op.shownText? answer).toList) := by
  have hsame : (ledger.map (·.text)).Sublist (ledger.map (·.text) ++ []) := by simp
  cases op with
  | createKey username request =>
    cases answer with
    | error e => exact hsame
    | ok issued => simp [note, shownText?]
  | updateKey username id u =>
    cases answer with
    | error e => exact hsame
    | ok key =>
      have htexts : (ledger.map fun e => if e.key.id = id then (⟨key, e.text⟩ : IssuedKey)
          else e).map (·.text) = ledger.map (·.text) := by
        rw [List.map_map]
        refine List.map_congr_left ?_
        intro e _
        simp only [Function.comp_apply]
        split <;> rfl
      simp only [note, shownText?, htexts, Option.toList_none, List.append_nil]
      exact List.Sublist.refl _
  | deleteKey username id =>
    cases answer with
    | error e => exact hsame
    | ok _ =>
      simp only [note, shownText?, Option.toList_none, List.append_nil]
      exact List.Sublist.map _ List.filter_sublist
  | _ => cases answer <;> exact hsame

namespace Service

variable (s : Service)

/-- Every text in the ledger was there before or has been shown. -/
theorem texts_ledgerAfter (t : Tables) (ledger : Ledger) (h : List Asked) :
    ((s.ledgerAfter t ledger h).map (·.text)).Sublist
      (ledger.map (·.text) ++ s.shownTexts t h) := by
  induction h generalizing t ledger with
  | nil => simp [ledgerAfter, shownTexts]
  | cons x h ih =>
    refine (ih _ _).trans ?_
    rw [shownTexts, ← List.append_assoc]
    exact (x.op.texts_note _ ledger).append (List.Sublist.refl _)

/-- The ledger that is kept over a history matches the tables after it. -/
theorem matches_ledgerAfter {t : Tables} {ledger : Ledger} (ht : t.KeysInOrder)
    (hm : t.Matches s.keys ledger) (h : List Asked) :
    (s.after t h).Matches s.keys (s.ledgerAfter t ledger h) := by
  induction h generalizing t ledger with
  | nil => exact hm
  | cons x h ih => exact ih ((s.keyStep_perform ht x).keysInOrder ht) (hm.perform s ht x)

end Service

/-- A text is found under its lead exactly where the ledger has it. -/
theorem Tables.Matches.find_iff {t : Tables} {hasher : Hasher} {ledger : Ledger}
    (h : t.Matches hasher ledger) (hverifies : hasher.Verifies)
    (htexts : (ledger.map (·.text)).Nodup) (raw : String) (key : ApiKey) :
    (RawKey.lead? raw).bind (fun lead => (t.keysLedBy lead).find? (fits hasher raw)) = some key ↔
      ⟨key, raw⟩ ∈ ledger := by
  have hlive (k : ApiKey) : k ∈ t.keys.filter (!·.isDeleted) ↔ ∃ e ∈ ledger, e.key = k := by
    rw [← h.rows, List.mem_map]
  have hfits (e : IssuedKey) (he : e ∈ ledger) : fits hasher raw e.key = decide (raw = e.text) := by
    obtain ⟨salt, hsalt⟩ := h.digests e he
    rw [fits, hverifies salt e.text e.key.digest hsalt raw]
  have hsound {k : ApiKey} {lead : String}
      (hfound : (t.keysLedBy lead).find? (fits hasher raw) = some k) : ⟨k, raw⟩ ∈ ledger := by
    have hmem := List.mem_filter.1 (List.mem_of_find?_eq_some hfound)
    have hnot : k.isDeleted = false := by simpa using (Bool.and_eq_true_iff.1 hmem.2).2
    obtain ⟨e, he, rfl⟩ := (hlive k).1 (List.mem_filter.2 ⟨hmem.1, by rw [hnot]; rfl⟩)
    have hraw := List.find?_some hfound
    rw [hfits e he] at hraw
    rw [of_decide_eq_true hraw]
    exact he
  constructor
  · intro hbind
    obtain ⟨lead, -, hfound⟩ := Option.bind_eq_some_iff.1 hbind
    exact hsound hfound
  · intro he
    rw [h.leads ⟨key, raw⟩ he, Option.bind_some]
    have hmem := List.mem_filter.1 ((hlive key).2 ⟨⟨key, raw⟩, he, rfl⟩)
    have hled : key ∈ t.keysLedBy key.lead :=
      List.mem_filter.2 ⟨hmem.1, by rw [hmem.2, decide_eq_true rfl]; rfl⟩
    have hfit : fits hasher raw key = true := by
      rw [hfits ⟨key, raw⟩ he]
      exact decide_eq_true rfl
    obtain ⟨k, hk⟩ := Option.isSome_iff_exists.1 (List.find?_isSome.2 ⟨key, hled, hfit⟩)
    have hsame : (⟨k, raw⟩ : IssuedKey) = ⟨key, raw⟩ :=
      List.inj_on_of_nodup_map htexts (hsound hk) he rfl
    cases hsame
    exact hk

/-- Keys authenticate exactly. If a digest is of one secret and no text was shown twice, then after
every history a presented text is a key exactly if the ledger has that key with that very text, and
any other text is none; nothing changes by asking. The keys of the ledger are the rows that are not
deleted. -/
theorem Service.authenticateKey_iff_mem_ledger (s : Service) (hverifies : s.keys.Verifies)
    (h : List Asked) (hshown : (s.shownTexts {} h).Nodup) (given : Given) (raw : String) :
    (∀ key, (s.perform ⟨given, .authenticateKey raw⟩ (s.after {} h)).1 = .ok (some key) ↔
      ⟨key, raw⟩ ∈ s.ledgerAfter {} [] h) ∧
    ((∀ key, ⟨key, raw⟩ ∉ s.ledgerAfter {} [] h) →
      (s.perform ⟨given, .authenticateKey raw⟩ (s.after {} h)).1 = .ok none) ∧
    (s.perform ⟨given, .authenticateKey raw⟩ (s.after {} h)).2 = s.after {} h ∧
    (s.ledgerAfter {} [] h).map (·.key) = (s.after {} h).keys.filter (!·.isDeleted) := by
  have hmatches : (s.after {} h).Matches s.keys (s.ledgerAfter {} [] h) := by
    refine s.matches_ledgerAfter Tables.keysInOrder_empty ⟨rfl, ?_, ?_⟩ h
    all_goals exact fun e he => nomatch he
  have htexts : ((s.ledgerAfter {} [] h).map (·.text)).Nodup :=
    hshown.sublist (s.texts_ledgerAfter {} [] h)
  have hexec := exec_authenticate s.keys raw (s.after {} h)
  have hanswer : s.perform ⟨given, .authenticateKey raw⟩ (s.after {} h) = _ := hexec
  rw [hanswer]
  have hiff (key : ApiKey) := hmatches.find_iff hverifies htexts raw key
  refine ⟨?_, ?_, rfl, hmatches.rows⟩
  · intro key
    rw [← hiff key, Except.ok.injEq]
  · intro hnone
    rw [Except.ok.injEq, Option.eq_none_iff_forall_ne_some]
    intro key hkey
    exact hnone key ((hiff key).1 hkey)

/-- Two keys are created; the first is enabled and the second deleted. -/
def twoKeys : List Asked :=
  [⟨.sample 1, .signUp "ada@example.com" "correct horse"⟩,
    ⟨.sample 2, .createKey "ada@example.com" { name := "ci" }⟩,
    ⟨.sample 3, .createKey "ada@example.com" { name := "cd" }⟩,
    ⟨.sample 4, .updateKey "ada@example.com" 3 { enabled := .set true }⟩,
    ⟨.sample 5, .deleteKey "ada@example.com" 6⟩]

/-- The text of the first of two keys is presented. -/
theorem authenticateKey_twoKeys :
    Service.plain.keys.Verifies ∧ (Service.plain.shownTexts {} twoKeys).Nodup ∧
    (Service.plain.ledgerAfter {} [] twoKeys).map (·.text) = ["CCCCCCC" ++ "." ++
      "CCCCCCCCCCCCCCCCCCCCCCCCCCCCCCCC"] ∧
    ∀ key, (Service.plain.perform ⟨.sample 6, .authenticateKey (Given.sample 2).rawKey.text⟩
        (Service.plain.after {} twoKeys)).1 = .ok (some key) ↔
      ⟨key, (Given.sample 2).rawKey.text⟩ ∈ Service.plain.ledgerAfter {} [] twoKeys :=
  ⟨Hasher.plain_verifies, by decide +kernel, by decide +kernel,
    (Service.plain.authenticateKey_iff_mem_ledger Hasher.plain_verifies twoKeys
      (by decide +kernel) (.sample 6) (Given.sample 2).rawKey.text).1⟩

end Latchkey
