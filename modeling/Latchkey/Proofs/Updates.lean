import Latchkey.Json.Forms
import Latchkey.Proofs.Credentials
import Latchkey.Proofs.Json.Members
import Latchkey.Proofs.KeyDiff
import Latchkey.Proofs.Reach
import Latchkey.Proofs.SecurityReplay
import Latchkey.Proofs.Store.Columns

/-!
# Updates as they are written

An update is written as an object of the fields that it sets. Such an object is read as the update,
in whatever order its members are and whatever other members stand among them, there and in the
objects inside it. A field that is left out is kept, one that is `null` is cleared if it may be
empty, and no other field may be `null`. So what an update touches can be told from its members.
-/

namespace Latchkey

open Json

/-! ## Fields of an update -/

namespace Patch

variable {α : Type}

/-- How one field of an update is written: not at all if it is kept, and else as what it is set
to. -/
inductive WrittenAs (spells : α → Json → Prop) : Patch α → Option Json → Prop
  | keep : WrittenAs spells .keep none
  | set {a : α} {v : Json} (h : spells a v) : WrittenAs spells (.set a) (some v)

/-- The value of a field in the object of an update. -/
def toJson? (write : α → Json) (p : Patch α) : Option Json :=
  p.value?.map write

/-- What became of a field: it is as before if nothing was written of it, or as was written. -/
def Takes (spells : α → Json → Prop) (written : Option Json) (before after : α) : Prop :=
  match written with
  | none => after = before
  | some v => spells after v

variable {spells : α → Json → Prop} {write : α → Json} {read : Json → Option α} {p : Patch α}
  {written : Option Json}

theorem writtenAs_toJson? (h : ∀ a, spells a (write a)) (p : Patch α) :
    p.WrittenAs spells (p.toJson? write) := by
  cases p with
  | keep => exact .keep
  | set a => exact .set (h a)

theorem writtenAs_ofFields {fields : List (String × Option Json)} {field : String}
    (hnodup : (fields.map (·.1)).Nodup) (hmem : (field, p.toJson? write) ∈ fields)
    (h : ∀ a, spells a (write a)) : p.WrittenAs spells ((ofFields fields).member? field) := by
  rw [member?_ofFields hnodup hmem]
  exact writtenAs_toJson? h p

theorem isPlain_toJson? (h : ∀ a, (write a).isPlain = true) (p : Patch α) :
    ∀ w, p.toJson? write = some w → w.isPlain = true := by
  cases p with
  | keep => exact fun _ hw => nomatch hw
  | set a => exact fun _ hw => Option.some.inj hw ▸ h a

theorem isPlain_toJson?_bool (p : Patch Bool) :
    ∀ w, p.toJson? .bool = some w → w.isPlain = true :=
  p.isPlain_toJson? fun _ => rfl

/-- A field takes what was written of it. -/
theorem WrittenAs.takes (h : p.WrittenAs spells written) (before : α) :
    Takes spells written before (p.apply before) := by
  cases h with
  | keep => rfl
  | set h => exact h

variable {r : Record} {field : String} {w : Json}

theorem WrittenAs.patch_eq (h : p.WrittenAs spells written) (hget : r.get? field = written)
    (hread : ∀ a v, spells a v → read v = some a) : r.patch field read = some p := by
  rw [Record.patch, Record.orElse, hget]
  cases h with
  | keep => rfl
  | set h => exact congrArg (Option.map Patch.set) (hread _ _ h)

theorem patch_eq_none (hget : r.get? field = some w) (hread : read w = none) :
    r.patch field read = none := by
  simp only [Record.patch, Record.orElse, hget, ofJson?, hread, Option.map_none]

end Patch

/-! ## Records -/

/-- Records of a kind are read as they are written: there is a way to write each; the order of
members and other members make no difference; what is written is read; and no path that is never
`null` may lead to `null`. -/
structure Json.ReadsAsWritten {α : Type} (fields : List String) (writtenAs : α → Json → Prop)
    (write : α → Json) (read : Json → Option α) (neverNull : List (List String)) : Prop where
  writes : ∀ a, writtenAs a (write a) ∧ (write a).isPlain = true
  rearranged : ∀ a members members', writtenAs a (.object members) →
    Rearranges fields members members' → writtenAs a (.object members')
  reads : ∀ a v, writtenAs a v → read v = some a
  refuses : ∀ path ∈ neverNull, ∀ v : Json, v.at? path = some .null → read v = none

/-- A truth value is written as such. -/
def Json.IsBool (b : Bool) (v : Json) : Prop :=
  v = .bool b

/-- A text is written as such. -/
def Json.IsText (s : String) (v : Json) : Prop :=
  v = .text s

/-- A text that is not there is written as `null`. -/
def Json.IsTextOrNull (s : Option String) (v : Json) : Prop :=
  v = optionalText s

theorem Json.asBool?_of_isBool (b : Bool) (v : Json) (h : IsBool b v) : asBool? v = some b := by
  rw [h, asBool?]

theorem Json.asText?_of_isText (s : String) (v : Json) (h : IsText s v) : asText? v = some s := by
  rw [h, asText?]

theorem Json.nullable_of_isTextOrNull (s : Option String) (v : Json) (h : IsTextOrNull s v) :
    Record.nullable asText? v = some s :=
  h ▸ ReadsBack.optionalText.read_write s

variable {v w : Json}

/-! ## Profiles -/

namespace ProfileUpdate

/-- The names of the fields. -/
def fields : List String := ["full_name", "email_subscription_enabled", "billing_alert_enabled"]

/-- The object says of each field what the update does, and may say anything else. -/
structure WrittenAs (u : ProfileUpdate) (v : Json) : Prop where
  names : v.NamesOnce fields
  fullName : u.fullName.WrittenAs IsTextOrNull (v.member? "full_name")
  emailSubscription : u.emailSubscription.WrittenAs IsBool (v.member? "email_subscription_enabled")
  billingAlert : u.billingAlert.WrittenAs IsBool (v.member? "billing_alert_enabled")

/-- The object of an update, with a member for each field that it sets. -/
def toJson (u : ProfileUpdate) : Json :=
  ofFields [("full_name", u.fullName.toJson? optionalText),
    ("email_subscription_enabled", u.emailSubscription.toJson? .bool),
    ("billing_alert_enabled", u.billingAlert.toJson? .bool)]

/-- A full name may be cleared. -/
def neverNull : List (List String) := [["email_subscription_enabled"], ["billing_alert_enabled"]]

theorem nodup_fields : fields.Nodup := by decide

theorem writtenAs_toJson (u : ProfileUpdate) : u.WrittenAs u.toJson where
  names := namesOnce_ofFields nodup_fields
  fullName := Patch.writtenAs_ofFields nodup_fields (by simp) fun _ => rfl
  emailSubscription := Patch.writtenAs_ofFields nodup_fields (by simp) fun _ => rfl
  billingAlert := Patch.writtenAs_ofFields nodup_fields (by simp) fun _ => rfl

theorem isPlain_toJson (u : ProfileUpdate) : u.toJson.isPlain = true := by
  refine isPlain_ofFields ?_
  simp only [List.forall_mem_cons]
  exact ⟨u.fullName.isPlain_toJson? ReadsBack.optionalText.isPlain,
    u.emailSubscription.isPlain_toJson?_bool, u.billingAlert.isPlain_toJson?_bool, by simp⟩

theorem WrittenAs.rearranged {u : ProfileUpdate} {members members' : List (String × Json)}
    (h : u.WrittenAs (.object members)) (hmembers : Rearranges fields members members') :
    u.WrittenAs (.object members') := by
  have hsame (field : String) (hfield : field ∈ fields) :=
    h.names.member?_rearranged hmembers hfield
  exact {
    names := h.names.rearranged hmembers
    fullName := hsame "full_name" (by decide) ▸ h.fullName
    emailSubscription := hsame "email_subscription_enabled" (by decide) ▸ h.emailSubscription
    billingAlert := hsame "billing_alert_enabled" (by decide) ▸ h.billingAlert }

theorem ofJson?_of_writtenAs {u : ProfileUpdate} (h : u.WrittenAs v) : ofJson? v = some u := by
  obtain ⟨r, hr, hget⟩ := h.names.of?
  rw [fields] at hr
  simp only [ofJson?, hr, Option.bind_eq_bind, Option.bind_some,
    h.fullName.patch_eq (hget _) nullable_of_isTextOrNull,
    h.emailSubscription.patch_eq (hget _) asBool?_of_isBool,
    h.billingAlert.patch_eq (hget _) asBool?_of_isBool]
  rfl

theorem ofJson?_eq_none {field : String} (hv : v.member? field = some w)
    (hfield : field = "email_subscription_enabled" ∨ field = "billing_alert_enabled")
    (hw : asBool? w = none) : ofJson? v = none := by
  rw [ofJson?]
  cases hr : Record.of? ["full_name", "email_subscription_enabled", "billing_alert_enabled"] v with
  | none => rfl
  | some r =>
    have hnone := Patch.patch_eq_none (Record.get?_of_member? hr hv) hw
    rcases hfield with rfl | rfl <;> simp [hnone]

/-- Profiles are read as they are written. -/
theorem readsAsWritten : ReadsAsWritten fields WrittenAs toJson ofJson? neverNull where
  writes u := ⟨writtenAs_toJson u, isPlain_toJson u⟩
  rearranged _ _ _ h hmembers := h.rearranged hmembers
  reads _ _ h := ofJson?_of_writtenAs h
  refuses path hpath v h := by
    simp only [neverNull, List.mem_cons, List.not_mem_nil, or_false] at hpath
    rcases hpath with rfl | rfl
    · exact ofJson?_eq_none (at?_singleton ▸ h) (.inl rfl) rfl
    · exact ofJson?_eq_none (at?_singleton ▸ h) (.inr rfl) rfl

end ProfileUpdate

/-! ## Policies -/

namespace Policy

/-- The names of the fields. -/
def fields : List String := ["name", "range"]

/-- The object has both texts of the policy, and may say anything else. -/
structure WrittenAs (p : Policy) (v : Json) : Prop where
  names : v.NamesOnce fields
  name : v.member? "name" = some (.text p.name)
  range : v.member? "range" = some (.text p.range)

/-- An array of policies in their order. -/
def ListWrittenAs (ps : List Policy) (v : Json) : Prop :=
  ∃ items, v = .array items ∧ List.Forall₂ WrittenAs ps items

/-- Both texts must be there. -/
def neverNull : List (List String) := [["name"], ["range"]]

theorem writtenAs_toJson (p : Policy) : p.WrittenAs p.toJson where
  names := ⟨_, rfl, fun _ _ => List.nodup_iff_count_le_one.1 (show fields.Nodup by decide) _⟩
  name := rfl
  range := rfl

theorem listWrittenAs_listToJson (ps : List Policy) : ListWrittenAs ps (listToJson ps) := by
  refine ⟨ps.map toJson, rfl, ?_⟩
  induction ps with
  | nil => exact .nil
  | cons p ps ih => exact .cons p.writtenAs_toJson ih

theorem WrittenAs.rearranged {p : Policy} {members members' : List (String × Json)}
    (h : p.WrittenAs (.object members)) (hmembers : Rearranges fields members members') :
    p.WrittenAs (.object members') := by
  have hsame (field : String) (hfield : field ∈ fields) :=
    h.names.member?_rearranged hmembers hfield
  exact ⟨h.names.rearranged hmembers, (hsame _ (by decide)).trans h.name,
    (hsame _ (by decide)).trans h.range⟩

theorem ofJson?_of_writtenAs {p : Policy} (h : p.WrittenAs v) : ofJson? v = some p := by
  obtain ⟨r, hr, hget⟩ := h.names.of?
  rw [fields] at hr
  simp only [ofJson?, hr, Option.bind_eq_bind, Option.bind_some, Record.required, hget, h.name,
    h.range, asText?]
  rfl

theorem asList?_of_listWrittenAs (ps : List Policy) (v : Json) (h : ListWrittenAs ps v) :
    asList? ofJson? v = some ps := by
  obtain ⟨items, rfl, hitems⟩ := h
  rw [asList?]
  induction hitems with
  | nil => rfl
  | cons hp _ ih =>
    rw [List.mapM_cons, ofJson?_of_writtenAs hp, ih]
    rfl

theorem ofJson?_eq_none {field : String} (hv : v.member? field = some w)
    (hfield : field = "name" ∨ field = "range") (hw : asText? w = none) : ofJson? v = none := by
  rw [ofJson?]
  cases hr : Record.of? ["name", "range"] v with
  | none => rfl
  | some r =>
    have hget := Record.get?_of_member? hr hv
    have hnone : r.required field asText? = none := by
      rw [Record.required, hget, Option.bind_some, hw]
    rcases hfield with rfl | rfl <;> simp [hnone]

/-- Policies are read as they are written. -/
theorem readsAsWritten : ReadsAsWritten fields WrittenAs toJson ofJson? neverNull where
  writes p := ⟨p.writtenAs_toJson, rfl⟩
  rearranged _ _ _ h hmembers := h.rearranged hmembers
  reads _ _ h := ofJson?_of_writtenAs h
  refuses path hpath v h := by
    simp only [neverNull, List.mem_cons, List.not_mem_nil, or_false] at hpath
    rcases hpath with rfl | rfl
    · exact ofJson?_eq_none (at?_singleton ▸ h) (.inl rfl) rfl
    · exact ofJson?_eq_none (at?_singleton ▸ h) (.inr rfl) rfl

end Policy

/-! ## Flags about text -/

namespace TextScopePatch

/-- The object says of each flag what the update does, and may say anything else. -/
structure WrittenAs (p : TextScopePatch) (v : Json) : Prop where
  names : v.NamesOnce TextScope.fields
  toxicity : p.toxicity.WrittenAs IsBool (v.member? "toxicity")
  severeToxicity : p.severeToxicity.WrittenAs IsBool (v.member? "severe_toxicity")
  identityAttack : p.identityAttack.WrittenAs IsBool (v.member? "identity_attack")
  insult : p.insult.WrittenAs IsBool (v.member? "insult")
  profanity : p.profanity.WrittenAs IsBool (v.member? "profanity")
  threat : p.threat.WrittenAs IsBool (v.member? "threat")

/-- The object of an update, with a member for each flag that it sets. -/
def toJson (p : TextScopePatch) : Json :=
  ofFields [("toxicity", p.toxicity.toJson? .bool),
    ("severe_toxicity", p.severeToxicity.toJson? .bool),
    ("identity_attack", p.identityAttack.toJson? .bool), ("insult", p.insult.toJson? .bool),
    ("profanity", p.profanity.toJson? .bool), ("threat", p.threat.toJson? .bool)]

/-- No flag may be `null`. -/
def neverNull : List (List String) := TextScope.fields.map ([·])

theorem nodup_fields : TextScope.fields.Nodup := by decide

theorem writtenAs_toJson (p : TextScopePatch) : p.WrittenAs p.toJson where
  names := namesOnce_ofFields nodup_fields
  toxicity := Patch.writtenAs_ofFields nodup_fields (by simp) fun _ => rfl
  severeToxicity := Patch.writtenAs_ofFields nodup_fields (by simp) fun _ => rfl
  identityAttack := Patch.writtenAs_ofFields nodup_fields (by simp) fun _ => rfl
  insult := Patch.writtenAs_ofFields nodup_fields (by simp) fun _ => rfl
  profanity := Patch.writtenAs_ofFields nodup_fields (by simp) fun _ => rfl
  threat := Patch.writtenAs_ofFields nodup_fields (by simp) fun _ => rfl

theorem isPlain_toJson (p : TextScopePatch) : p.toJson.isPlain = true := by
  refine isPlain_ofFields ?_
  simp only [List.forall_mem_cons]
  exact ⟨p.toxicity.isPlain_toJson?_bool, p.severeToxicity.isPlain_toJson?_bool,
    p.identityAttack.isPlain_toJson?_bool, p.insult.isPlain_toJson?_bool,
    p.profanity.isPlain_toJson?_bool, p.threat.isPlain_toJson?_bool, by simp⟩

theorem WrittenAs.rearranged {p : TextScopePatch} {members members' : List (String × Json)}
    (h : p.WrittenAs (.object members)) (hmembers : Rearranges TextScope.fields members members') :
    p.WrittenAs (.object members') := by
  have hsame (field : String) (hfield : field ∈ TextScope.fields) :=
    h.names.member?_rearranged hmembers hfield
  exact {
    names := h.names.rearranged hmembers
    toxicity := hsame "toxicity" (by decide) ▸ h.toxicity
    severeToxicity := hsame "severe_toxicity" (by decide) ▸ h.severeToxicity
    identityAttack := hsame "identity_attack" (by decide) ▸ h.identityAttack
    insult := hsame "insult" (by decide) ▸ h.insult
    profanity := hsame "profanity" (by decide) ▸ h.profanity
    threat := hsame "threat" (by decide) ▸ h.threat }

theorem ofJson?_of_writtenAs {p : TextScopePatch} (h : p.WrittenAs v) : ofJson? v = some p := by
  obtain ⟨r, hr, hget⟩ := h.names.of?
  have hbool {q : Patch Bool} {field : String} (hq : q.WrittenAs IsBool (v.member? field)) :
      r.patch field asBool? = some q :=
    hq.patch_eq (hget field) asBool?_of_isBool
  simp only [ofJson?, hr, Option.bind_eq_bind, Option.bind_some, hbool h.toxicity,
    hbool h.severeToxicity, hbool h.identityAttack, hbool h.insult, hbool h.profanity,
    hbool h.threat]
  rfl

theorem ofJson?_eq_none {field : String} (hv : v.member? field = some w)
    (hfield : field ∈ TextScope.fields) (hw : asBool? w = none) : ofJson? v = none := by
  rw [ofJson?]
  cases hr : Record.of? TextScope.fields v with
  | none => rfl
  | some r =>
    have hnone := Patch.patch_eq_none (Record.get?_of_member? hr hv) hw
    simp only [TextScope.fields, List.mem_cons, List.not_mem_nil, or_false] at hfield
    rcases hfield with rfl | rfl | rfl | rfl | rfl | rfl <;> simp [hnone]

/-- Updates of flags about text are read as they are written. -/
theorem readsAsWritten : ReadsAsWritten TextScope.fields WrittenAs toJson ofJson? neverNull where
  writes p := ⟨writtenAs_toJson p, isPlain_toJson p⟩
  rearranged _ _ _ h hmembers := h.rearranged hmembers
  reads _ _ h := ofJson?_of_writtenAs h
  refuses path hpath v h := by
    obtain ⟨field, hfield, rfl⟩ := List.mem_map.1 hpath
    exact ofJson?_eq_none (at?_singleton ▸ h) hfield rfl

end TextScopePatch

/-! ## Scopes -/

namespace ScopePatch

/-- The object says of each flag what the update does, and may say anything else. The flags about
text are in an object of their own, which may be left out if they are all kept. -/
structure WrittenAs (p : ScopePatch) (v : Json) : Prop where
  names : v.NamesOnce Scope.fields
  image : p.image.WrittenAs IsBool (v.member? "image")
  gif : p.gif.WrittenAs IsBool (v.member? "gif")
  text : v.member? "text" = none ∧ p.text = {} ∨
    ∃ w, v.member? "text" = some w ∧ p.text.WrittenAs w
  video : p.video.WrittenAs IsBool (v.member? "video")

/-- The object of an update, with a member for each flag that it sets and one for those about text,
if it sets any of them. -/
def toJson (p : ScopePatch) : Json :=
  ofFields [("image", p.image.toJson? .bool), ("gif", p.gif.toJson? .bool),
    ("text", if p.text = {} then none else some p.text.toJson), ("video", p.video.toJson? .bool)]

/-- No flag may be `null`, nor may the object of those about text. -/
def neverNull : List (List String) :=
  Scope.fields.map ([·]) ++ TextScopePatch.neverNull.map ("text" :: ·)

theorem nodup_fields : Scope.fields.Nodup := by decide

theorem writtenAs_toJson (p : ScopePatch) : p.WrittenAs p.toJson where
  names := namesOnce_ofFields nodup_fields
  image := Patch.writtenAs_ofFields nodup_fields (by simp) fun _ => rfl
  gif := Patch.writtenAs_ofFields nodup_fields (by simp) fun _ => rfl
  text := by
    have htext : p.toJson.member? "text" = if p.text = {} then none else some p.text.toJson := by
      refine member?_ofFields ?_ ?_
      · exact nodup_fields
      · simp
    rw [htext]
    by_cases h : p.text = {}
    · exact .inl ⟨if_pos h, h⟩
    · exact .inr ⟨_, if_neg h, p.text.writtenAs_toJson⟩
  video := Patch.writtenAs_ofFields nodup_fields (by simp) fun _ => rfl

theorem isPlain_toJson (p : ScopePatch) : p.toJson.isPlain = true := by
  refine isPlain_ofFields ?_
  simp only [List.forall_mem_cons]
  refine ⟨p.image.isPlain_toJson?_bool, p.gif.isPlain_toJson?_bool, fun w hw => ?_,
    p.video.isPlain_toJson?_bool, by simp⟩
  split at hw
  · cases hw
  · exact Option.some.inj hw ▸ p.text.isPlain_toJson

theorem WrittenAs.rearranged {p : ScopePatch} {members members' : List (String × Json)}
    (h : p.WrittenAs (.object members)) (hmembers : Rearranges Scope.fields members members') :
    p.WrittenAs (.object members') := by
  have hsame (field : String) (hfield : field ∈ Scope.fields) :=
    h.names.member?_rearranged hmembers hfield
  exact {
    names := h.names.rearranged hmembers
    image := hsame "image" (by decide) ▸ h.image
    gif := hsame "gif" (by decide) ▸ h.gif
    text := hsame "text" (by decide) ▸ h.text
    video := hsame "video" (by decide) ▸ h.video }

theorem ofJson?_of_writtenAs (p : ScopePatch) (v : Json) (h : p.WrittenAs v) :
    ofJson? v = some p := by
  obtain ⟨r, hr, hget⟩ := h.names.of?
  have hbool {q : Patch Bool} {field : String} (hq : q.WrittenAs IsBool (v.member? field)) :
      r.patch field asBool? = some q :=
    hq.patch_eq (hget field) asBool?_of_isBool
  have htext : r.orElse "text" TextScopePatch.ofJson? {} = some p.text := by
    rw [Record.orElse, hget]
    rcases h.text with ⟨hnone, htext⟩ | ⟨w, hw, htext⟩
    · rw [hnone, htext]
    · rw [hw]
      exact TextScopePatch.ofJson?_of_writtenAs htext
  simp only [ofJson?, hr, Option.bind_eq_bind, Option.bind_some, hbool h.image, hbool h.gif, htext,
    hbool h.video]
  rfl

theorem ofJson?_eq_none {field : String} (hv : v.member? field = some w)
    (hw : field ∈ ["image", "gif", "video"] ∧ asBool? w = none ∨
      field = "text" ∧ TextScopePatch.ofJson? w = none) : ofJson? v = none := by
  rw [ofJson?]
  cases hr : Record.of? Scope.fields v with
  | none => rfl
  | some r =>
    have hget := Record.get?_of_member? hr hv
    rcases hw with ⟨hfield, hw⟩ | ⟨rfl, hw⟩
    · have hnone := Patch.patch_eq_none hget hw
      simp only [List.mem_cons, List.not_mem_nil, or_false] at hfield
      rcases hfield with rfl | rfl | rfl <;> simp [hnone]
    · have hnone : r.orElse "text" TextScopePatch.ofJson? {} = none := by
        rw [Record.orElse, hget]
        exact hw
      simp [hnone]

theorem ofJson?_of_null {path : List String} (hpath : path ∈ neverNull)
    (h : v.at? path = some .null) : ofJson? v = none := by
  rcases List.mem_append.1 hpath with hpath | hpath
  · obtain ⟨field, hfield, rfl⟩ := List.mem_map.1 hpath
    refine ofJson?_eq_none (at?_singleton ▸ h) ?_
    simp only [Scope.fields, List.mem_cons, List.not_mem_nil, or_false] at hfield
    rcases hfield with rfl | rfl | rfl | rfl <;> simp [asBool?, TextScopePatch.ofJson?, Record.of?]
  · obtain ⟨inner, hinner, rfl⟩ := List.mem_map.1 hpath
    obtain ⟨w, hw, hnull⟩ := Option.bind_eq_some_iff.1 h
    have hrefused := TextScopePatch.readsAsWritten.refuses inner hinner w hnull
    exact ofJson?_eq_none hw (.inr ⟨rfl, hrefused⟩)

/-- Updates of scopes are read as they are written. -/
theorem readsAsWritten : ReadsAsWritten Scope.fields WrittenAs toJson ofJson? neverNull where
  writes p := ⟨writtenAs_toJson p, isPlain_toJson p⟩
  rearranged _ _ _ h hmembers := h.rearranged hmembers
  reads := ofJson?_of_writtenAs
  refuses _ hpath _ h := ofJson?_of_null hpath h

end ScopePatch

/-! ## Keys -/

namespace KeyUpdate

/-- The names of the fields. -/
def fields : List String := ["name", "scope", "access_policies", "enabled"]

/-- The object says of each field what the update does, and may say anything else. -/
structure WrittenAs (u : KeyUpdate) (v : Json) : Prop where
  names : v.NamesOnce fields
  name : u.name.WrittenAs IsText (v.member? "name")
  scope : u.scope.WrittenAs ScopePatch.WrittenAs (v.member? "scope")
  policies : u.policies.WrittenAs Policy.ListWrittenAs (v.member? "access_policies")
  enabled : u.enabled.WrittenAs IsBool (v.member? "enabled")

/-- The object of an update, with a member for each field that it sets. -/
def toJson (u : KeyUpdate) : Json :=
  ofFields [("name", u.name.toJson? .text), ("scope", u.scope.toJson? ScopePatch.toJson),
    ("access_policies", u.policies.toJson? Policy.listToJson),
    ("enabled", u.enabled.toJson? .bool)]

/-- No field may be `null`, and nothing inside the scope. -/
def neverNull : List (List String) :=
  fields.map ([·]) ++ ScopePatch.neverNull.map ("scope" :: ·)

theorem nodup_fields : fields.Nodup := by decide

theorem writtenAs_toJson (u : KeyUpdate) : u.WrittenAs u.toJson where
  names := namesOnce_ofFields nodup_fields
  name := Patch.writtenAs_ofFields nodup_fields (by simp) fun _ => rfl
  scope := Patch.writtenAs_ofFields nodup_fields (by simp) ScopePatch.writtenAs_toJson
  policies := Patch.writtenAs_ofFields nodup_fields (by simp) Policy.listWrittenAs_listToJson
  enabled := Patch.writtenAs_ofFields nodup_fields (by simp) fun _ => rfl

theorem isPlain_toJson (u : KeyUpdate) : u.toJson.isPlain = true := by
  refine isPlain_ofFields ?_
  simp only [List.forall_mem_cons]
  exact ⟨u.name.isPlain_toJson? fun _ => rfl, u.scope.isPlain_toJson? ScopePatch.isPlain_toJson,
    u.policies.isPlain_toJson? Policy.list_readsBack.isPlain, u.enabled.isPlain_toJson?_bool,
    by simp⟩

theorem WrittenAs.rearranged {u : KeyUpdate} {members members' : List (String × Json)}
    (h : u.WrittenAs (.object members)) (hmembers : Rearranges fields members members') :
    u.WrittenAs (.object members') := by
  have hsame (field : String) (hfield : field ∈ fields) :=
    h.names.member?_rearranged hmembers hfield
  exact {
    names := h.names.rearranged hmembers
    name := hsame "name" (by decide) ▸ h.name
    scope := hsame "scope" (by decide) ▸ h.scope
    policies := hsame "access_policies" (by decide) ▸ h.policies
    enabled := hsame "enabled" (by decide) ▸ h.enabled }

theorem ofJson?_of_writtenAs {u : KeyUpdate} (h : u.WrittenAs v) : ofJson? v = some u := by
  obtain ⟨r, hr, hget⟩ := h.names.of?
  rw [fields] at hr
  simp only [ofJson?, hr, Option.bind_eq_bind, Option.bind_some,
    h.name.patch_eq (hget _) asText?_of_isText,
    h.scope.patch_eq (hget _) ScopePatch.ofJson?_of_writtenAs,
    h.policies.patch_eq (hget _) Policy.asList?_of_listWrittenAs,
    h.enabled.patch_eq (hget _) asBool?_of_isBool]
  rfl

theorem ofJson?_eq_none {field : String} (hv : v.member? field = some w)
    (hw : field = "name" ∧ asText? w = none ∨ field = "scope" ∧ ScopePatch.ofJson? w = none ∨
      field = "access_policies" ∧ asList? Policy.ofJson? w = none ∨
      field = "enabled" ∧ asBool? w = none) : ofJson? v = none := by
  rw [ofJson?]
  cases hr : Record.of? ["name", "scope", "access_policies", "enabled"] v with
  | none => rfl
  | some r =>
    have hget := Record.get?_of_member? hr hv
    rcases hw with ⟨rfl, hw⟩ | ⟨rfl, hw⟩ | ⟨rfl, hw⟩ | ⟨rfl, hw⟩ <;>
      simp [Patch.patch_eq_none hget hw]

theorem ofJson?_of_null {path : List String} (hpath : path ∈ neverNull)
    (h : v.at? path = some .null) : ofJson? v = none := by
  rcases List.mem_append.1 hpath with hpath | hpath
  · obtain ⟨field, hfield, rfl⟩ := List.mem_map.1 hpath
    refine ofJson?_eq_none (at?_singleton ▸ h) ?_
    simp only [fields, List.mem_cons, List.not_mem_nil, or_false] at hfield
    rcases hfield with rfl | rfl | rfl | rfl <;>
      simp [asText?, asBool?, asList?, ScopePatch.ofJson?, Record.of?]
  · obtain ⟨inner, hinner, rfl⟩ := List.mem_map.1 hpath
    obtain ⟨w, hw, hnull⟩ := Option.bind_eq_some_iff.1 h
    exact ofJson?_eq_none hw (.inr (.inl ⟨rfl, ScopePatch.ofJson?_of_null hinner hnull⟩))

/-- Updates of keys are read as they are written. -/
theorem readsAsWritten : ReadsAsWritten fields WrittenAs toJson ofJson? neverNull where
  writes u := ⟨writtenAs_toJson u, isPlain_toJson u⟩
  rearranged _ _ _ h hmembers := h.rearranged hmembers
  reads _ _ h := ofJson?_of_writtenAs h
  refuses _ hpath _ h := ofJson?_of_null hpath h

end KeyUpdate

/-! ## What an update touches -/

/-- The names that lead to a flag in the object of a scope. -/
def Scope.Flag.steps : Flag → List String
  | .image => ["image"]
  | .gif => ["gif"]
  | .toxicity => ["text", "toxicity"]
  | .severeToxicity => ["text", "severe_toxicity"]
  | .identityAttack => ["text", "identity_attack"]
  | .insult => ["text", "insult"]
  | .profanity => ["text", "profanity"]
  | .threat => ["text", "threat"]
  | .video => ["video"]

/-- A flag about text is kept where nothing is written of text. -/
theorem ScopePatch.WrittenAs.textFlag {p : ScopePatch} (h : p.WrittenAs v) {name : String}
    {flag : TextScopePatch → Patch Bool} (hempty : flag {} = .keep)
    (hflag : ∀ {t : TextScopePatch} {w : Json}, t.WrittenAs w →
      (flag t).WrittenAs IsBool (w.member? name)) :
    (flag p.text).WrittenAs IsBool (v.at? ["text", name]) := by
  rw [at?]
  rcases h.text with ⟨hnone, htext⟩ | ⟨w, hw, htext⟩
  · rw [hnone, htext, hempty]
    exact .keep
  · rw [hw, Option.bind_some, at?_singleton]
    exact hflag htext

theorem ScopePatch.WrittenAs.get {p : ScopePatch} (h : p.WrittenAs v) (f : Scope.Flag) :
    (p.get f).WrittenAs IsBool (v.at? f.steps) := by
  cases f with
  | image => exact at?_singleton ▸ h.image
  | gif => exact at?_singleton ▸ h.gif
  | toxicity => exact h.textFlag rfl (·.toxicity)
  | severeToxicity => exact h.textFlag rfl (·.severeToxicity)
  | identityAttack => exact h.textFlag rfl (·.identityAttack)
  | insult => exact h.textFlag rfl (·.insult)
  | profanity => exact h.textFlag rfl (·.profanity)
  | threat => exact h.textFlag rfl (·.threat)
  | video => exact at?_singleton ▸ h.video

/-- A flag is kept where nothing is written of the scope. -/
theorem KeyUpdate.WrittenAs.flag {u : KeyUpdate} (h : u.WrittenAs v) (f : Scope.Flag) :
    (u.flags.get f).WrittenAs IsBool (v.at? ("scope" :: f.steps)) := by
  have hscope := h.scope
  rw [KeyUpdate.flags, at?]
  generalize u.scope = p at hscope ⊢
  generalize v.member? "scope" = written at hscope ⊢
  cases hscope with
  | keep =>
    -- No path leads into a scope that is not there.
    have hkeep : ({} : ScopePatch).get f = .keep := by cases f <;> rfl
    show (({} : ScopePatch).get f).WrittenAs IsBool none
    rw [hkeep]
    exact .keep
  | set h => exact h.get f

/-- A key after an update of which this was written: what is written is there, policies as they
come from the written ones and those before, and all else is as it was. -/
structure KeyUpdate.Touches (v : Json) (k k' : ApiKey) : Prop where
  name : Patch.Takes IsText (v.member? "name") k.name k'.name
  scope : ∀ f : Scope.Flag,
    Patch.Takes IsBool (v.at? ("scope" :: f.steps)) (k.scope.get f) (k'.scope.get f)
  policies : Patch.Takes
    (fun ps w => ∃ desired, Policy.ListWrittenAs desired w ∧
      ps = (Policy.reconcile k.policies desired).policies)
    (v.member? "access_policies") k.policies k'.policies
  enabled : Patch.Takes IsBool (v.member? "enabled") k.enabled k'.enabled
  rest : k' = { k with
    name := k'.name, scope := k'.scope, policies := k'.policies, enabled := k'.enabled }

theorem KeyUpdate.WrittenAs.touches {u : KeyUpdate} (h : u.WrittenAs v) (k : ApiKey) :
    Touches v k (u.apply k).key := by
  rw [apply_key, rescope_eq]
  refine ⟨h.name.takes k.name, fun f => ?_, ?_, h.enabled.takes k.enabled, rfl⟩
  · rw [ScopePatch.get_apply]
    exact (h.flag f).takes _
  · have hpolicies := h.policies
    unfold rebind
    generalize u.policies = p at hpolicies ⊢
    generalize v.member? "access_policies" = written at hpolicies ⊢
    cases hpolicies with
    | keep => rfl
    | set hlist => exact ⟨_, hlist, rfl⟩

/-- An account after an update of which this was written: what is written is there, and all else is
as it was. -/
structure ProfileUpdate.Touches (v : Json) (a b : Account) : Prop where
  fullName : Patch.Takes IsTextOrNull (v.member? "full_name") a.fullName b.fullName
  emailSubscription : Patch.Takes IsBool (v.member? "email_subscription_enabled")
    a.emailSubscription b.emailSubscription
  billingAlert : Patch.Takes IsBool (v.member? "billing_alert_enabled")
    a.billingAlert b.billingAlert
  rest : b = { a with
    fullName := b.fullName, emailSubscription := b.emailSubscription
    billingAlert := b.billingAlert }

theorem ProfileUpdate.WrittenAs.touches {u : ProfileUpdate} (h : u.WrittenAs v) (a : Account) :
    Touches v a (u.apply a).account := by
  simp only [apply_account, Patch.getD_change?]
  exact ⟨h.fullName.takes _, h.emailSubscription.takes _, h.billingAlert.takes _, rfl⟩

namespace Service

variable {s : Service} {t : Tables} {a : Account} {username : String}

/-- An update of a profile overwrites the row of the account, and that of no other. -/
theorem perform_updateAccount (ht : t.AccountsInOrder) (hfound : t.accountNamed? username = some a)
    (given : Given) (u : ProfileUpdate) :
    ∃ t', s.perform ⟨given, .updateAccount username u⟩ t = (.ok (u.apply a).account, t') ∧
      t'.accounts = t.accounts.map fun c => if c.id = a.id then (u.apply a).account else c := by
  have hexec : s.perform ⟨given, .updateAccount username u⟩ t = _ :=
    Session.exec_updateAccount given username u t
  rw [hfound] at hexec
  have ha : a ∈ t.accounts := List.mem_of_find?_eq_some hfound
  dsimp only at hexec
  cases hevents : (u.apply a).events.isEmpty with
  | true =>
    rw [hevents, if_pos rfl] at hexec
    refine ⟨t, hexec, ?_⟩
    rw [ProfileUpdate.apply_of_events_eq_nil (List.isEmpty_iff.1 hevents)]
    have hsame (c : Account) (hc : c ∈ t.accounts) : (if c.id = a.id then a else c) = c := by
      split
      · next hid => exact List.inj_on_of_nodup_map ht.ids ha hc hid.symm
      · rfl
    exact ((List.map_congr_left hsame).trans (List.map_id' t.accounts)).symm
  | false =>
    rw [hevents, if_neg Bool.false_ne_true] at hexec
    exact ⟨_, hexec, (Tables.replaces_saveAccount ht ha (u.apply_id a) (u.apply_username a) _
      given.now).accounts⟩

end Service

/-! ## Updates as they are written -/

/-- Partial updates never confuse what is left out, what is `null` and what has a value. Updates of
profiles and of keys, with all that is inside them, are read as they are written, as values and from
texts; so what they touch is what was written. -/
theorem updates_as_written :
    ReadsAsWritten ProfileUpdate.fields ProfileUpdate.WrittenAs ProfileUpdate.toJson
      ProfileUpdate.ofJson? ProfileUpdate.neverNull ∧
    ReadsAsWritten KeyUpdate.fields KeyUpdate.WrittenAs KeyUpdate.toJson
      KeyUpdate.ofJson? KeyUpdate.neverNull ∧
    ReadsAsWritten Scope.fields ScopePatch.WrittenAs ScopePatch.toJson
      ScopePatch.ofJson? ScopePatch.neverNull ∧
    ReadsAsWritten TextScope.fields TextScopePatch.WrittenAs TextScopePatch.toJson
      TextScopePatch.ofJson? TextScopePatch.neverNull ∧
    ReadsAsWritten Policy.fields Policy.WrittenAs Policy.toJson
      Policy.ofJson? Policy.neverNull ∧
    (∀ (u : ProfileUpdate) (v : Json), u.WrittenAs v →
      (v.isPlain = true → (Json.ofString? v.toString).bind ProfileUpdate.ofJson? = some u) ∧
      ∀ (s : Service) (t : Tables), s.Reaches {} t →
        ∀ (given : Given) (username : String) (a : Account), t.accountNamed? username = some a →
          ∃ b t', s.perform ⟨given, .updateAccount username u⟩ t = (.ok b, t') ∧
            ProfileUpdate.Touches v a b ∧
            t'.accounts = t.accounts.map fun c => if c.id = a.id then b else c) ∧
    ∀ (u : KeyUpdate) (v : Json), u.WrittenAs v →
      (v.isPlain = true → (Json.ofString? v.toString).bind KeyUpdate.ofJson? = some u) ∧
      ∀ k, KeyUpdate.Touches v k (u.apply k).key := by
  refine ⟨ProfileUpdate.readsAsWritten, KeyUpdate.readsAsWritten, ScopePatch.readsAsWritten,
    TextScopePatch.readsAsWritten, Policy.readsAsWritten, fun u v h => ⟨fun hv => ?_, ?_⟩,
    fun u v h => ⟨fun hv => ?_, h.touches⟩⟩
  · rw [ofString?_toString hv, Option.bind_some, ProfileUpdate.ofJson?_of_writtenAs h]
  · intro s t hreach given username a hfound
    obtain ⟨t', hperform, haccounts⟩ :=
      Service.perform_updateAccount hreach.inOrder.accounts hfound given u
    exact ⟨_, t', hperform, h.touches a, haccounts⟩
  · rw [ofString?_toString hv, Option.bind_some, KeyUpdate.ofJson?_of_writtenAs h]

/-- A key is to be enabled and to classify threats in no order that anyone agreed on. -/
def threatsJson : Json :=
  .object [("comment", .null), ("enabled", .bool true), ("comment", .text "again"),
    ("scope", .object [("audio", .bool true),
      ("text", .object [("language", .text "en"), ("threat", .bool true)]), ("gif", .bool false)])]

/-- The update that this is. -/
def classifyThreats : KeyUpdate where
  scope := .set { gif := .set false, text := { threat := .set true } }
  enabled := .set true

/-- A name is to be cleared. -/
def namelessJson : Json :=
  .object [("nickname", .text "Ada"), ("full_name", .null)]

theorem updates_as_written_threats :
    (Json.ofString? threatsJson.toString).bind KeyUpdate.ofJson? = some classifyThreats ∧
    KeyUpdate.Touches threatsJson KeyUpdate.labKey (classifyThreats.apply KeyUpdate.labKey).key ∧
    KeyUpdate.ofJson? (.object [("scope", .object [("text", .object [("threat", .null)])])]) =
      none ∧
    ∃ a b t', KeyUpdate.labTables.accountNamed? "ada@example.com" = some a ∧
      Service.plain.perform ⟨.sample 3, .updateAccount "ada@example.com" { fullName := .set none }⟩
        KeyUpdate.labTables = (.ok b, t') ∧
      ProfileUpdate.Touches namelessJson a b := by
  obtain ⟨-, hkeys, -, -, -, hprofile, hkey⟩ := updates_as_written
  have htext : ({ threat := .set true } : TextScopePatch).WrittenAs
      (.object [("language", .text "en"), ("threat", .bool true)]) :=
    ⟨⟨_, rfl, by decide⟩, .keep, .keep, .keep, .keep, .keep, .set rfl⟩
  have hwritten : classifyThreats.WrittenAs threatsJson :=
    ⟨⟨_, rfl, by decide⟩, .keep,
      .set ⟨⟨_, rfl, by decide⟩, .keep, .set rfl, .inr ⟨_, rfl, htext⟩, .keep⟩, .keep, .set rfl⟩
  have hnameless : ({ fullName := .set none } : ProfileUpdate).WrittenAs namelessJson :=
    ⟨⟨_, rfl, by decide⟩, .set rfl, .keep, .keep⟩
  obtain ⟨hread, htouches⟩ := hkey classifyThreats threatsJson hwritten
  have hreach : Service.plain.Reaches {} KeyUpdate.labTables := Service.reaches_after {} _
  obtain ⟨a, ha⟩ : ∃ a, KeyUpdate.labTables.accountNamed? "ada@example.com" = some a :=
    Option.isSome_iff_exists.1 (by decide +kernel)
  obtain ⟨b, t', hperform, hb, -⟩ := (hprofile _ _ hnameless).2 Service.plain KeyUpdate.labTables
    hreach (.sample 3) "ada@example.com" a ha
  exact ⟨hread rfl, htouches KeyUpdate.labKey,
    hkeys.refuses ["scope", "text", "threat"] (by decide) _ rfl, a, b, t', ha, hperform, hb⟩

end Latchkey
