import Mathlib.Data.List.Basic
import Latchkey.Digest
import Latchkey.Proofs.Text.Base64
import Latchkey.Proofs.Text.Cutting
import Latchkey.Proofs.Text.Numbers

/-!
# Digests outlive costs

A digest that states all of its fields is read back from its text. What a hasher makes is such a
digest, and says all that a check needs, so that a secret is recognised by hashers of every cost.
-/

namespace Latchkey

open Text

namespace Digest

/-! ## Fields -/

/-- The characters that fields are told apart by. -/
def marks : List Char := ['$', ',', '=']

theorem not_mem_of_all {p : Char → Bool} (hp : marks.all (!p ·) = true) {cs : List Char}
    (h : ∀ c ∈ cs, p c = true) {m : Char} (hm : m ∈ marks) : m ∉ cs := by
  intro hmem
  have hnot := List.all_eq_true.1 hp m hm
  rw [h m hmem] at hnot
  cases hnot

theorem not_mem_of_isName {cs : List Char} (h : isName cs = true) {m : Char} (hm : m ∈ marks) :
    m ∉ cs := by
  simp only [isName, Bool.and_eq_true, List.all_eq_true] at h
  exact not_mem_of_all (by decide) h.2 hm

theorem not_mem_of_isValue {cs : List Char} (h : isValue cs = true) {m : Char} (hm : m ∈ marks) :
    m ∉ cs := by
  simp only [isValue, Bool.and_eq_true, List.all_eq_true] at h
  exact not_mem_of_all (by decide) h.2 hm

theorem not_mem_encode {m : Char} (hm : m ∈ marks) (bs : List UInt8) :
    m ∉ Base64.encode Base64.standard bs := by
  have hnone : marks.all (fun m => (Base64.standard.value? m).isNone) = true := by decide
  have hm := Option.isNone_iff_eq_none.1 (List.all_eq_true.1 hnone m hm)
  exact Base64.not_mem_encode Base64.isLawful_standard hm bs

theorem number?_digits {n : Nat} (h : n < 0x100000000) : number? (digits n) = some n := by
  rw [number?, ofPlainDigits?_digits]
  exact if_pos h

/-- A parameter as it is written. -/
def paramText (p : List Char × List Char) : List Char :=
  p.1 ++ '=' :: p.2

/-- The parameter has a name and a value that may be written. -/
def IsWritable (p : List Char × List Char) : Prop :=
  isName p.1 = true ∧ isValue p.2 = true

/-- The field of all parameters, which is left out if there are none. -/
def paramsField (ps : List (List Char × List Char)) : List (List Char) :=
  if ps.isEmpty then [] else [glue ',' (ps.map paramText)]

variable {ps : List (List Char × List Char)} {m : Char}

theorem param?_paramText {p : List Char × List Char} (h : IsWritable p) :
    param? (paramText p) = some p := by
  have hname : '=' ∉ p.1 := not_mem_of_isName h.1 (by decide)
  have hvalue : '=' ∉ p.2 := not_mem_of_isValue h.2 (by decide)
  rw [param?, paramText, pieces_append, pieces_of_not_mem hname, pieces_of_not_mem hvalue]
  simp only [List.singleton_append, h.1, h.2, Bool.and_true, if_true]

theorem mapM_param?_paramText (h : ∀ p ∈ ps, IsWritable p) :
    (ps.map paramText).mapM param? = some ps := by
  induction ps with
  | nil => rfl
  | cons p ps ih =>
    rw [List.map_cons, List.mapM_cons, param?_paramText (h p List.mem_cons_self),
      ih fun q hq => h q (List.mem_cons_of_mem _ hq)]
    rfl

/-- Only the equals sign of a parameter is a mark. -/
theorem not_mem_paramText {p : List Char × List Char} (h : IsWritable p) (hm : m ∈ marks)
    (hne : m ≠ '=') : m ∉ paramText p := by
  simp only [paramText, List.mem_append, List.mem_cons, not_or]
  exact ⟨not_mem_of_isName h.1 hm, hne, not_mem_of_isValue h.2 hm⟩

/-! ## Reading fields -/

variable {rest : List (List Char)}

theorem version?_cons {n : Nat} (h : n < 0x100000000) :
    version? (('v' :: '=' :: digits n) :: rest) = some (some n, rest) := by
  have hcomma : ',' ∉ 'v' :: '=' :: digits n := by
    simp only [List.mem_cons, not_or]
    exact ⟨by decide, by decide, not_mem_digits (by decide) n⟩
  have hstart : dropStart? ['v', '='] ('v' :: '=' :: digits n) = some (digits n) :=
    dropStart?_eq_some.2 rfl
  simp only [version?, hstart, if_neg hcomma, number?_digits h, Option.map_some]

/-- Parameters are read in front of a field that is none of theirs. -/
theorem params?_append (h : ∀ p ∈ ps, IsWritable p)
    (hlength : (glue ',' (ps.map paramText)).length ≤ 127) {field : List Char}
    (hfield : '=' ∉ field) :
    params? (paramsField ps ++ field :: rest) = some (ps, field :: rest) := by
  cases ps with
  | nil =>
    show params? (field :: rest) = _
    simp only [params?, if_pos hfield]
  | cons p ps =>
    -- The field is told from others by the equals sign of its first parameter.
    have hequals : '=' ∈ glue ',' ((p :: ps).map paramText) := by
      have hp : '=' ∈ paramText p := List.mem_append_right _ List.mem_cons_self
      cases ps with
      | nil => exact hp
      | cons q qs => exact List.mem_append_left _ hp
    have hcut : pieces ',' (glue ',' ((p :: ps).map paramText)) = (p :: ps).map paramText := by
      refine pieces_glue (by simp) fun text htext => ?_
      obtain ⟨q, hq, rfl⟩ := List.mem_map.1 htext
      exact not_mem_paramText (h q hq) (by decide) (by decide)
    show params? (glue ',' ((p :: ps).map paramText) :: field :: rest) = _
    simp only [params?, if_neg (not_not.2 hequals), if_neg (Nat.not_lt.2 hlength), hcut,
      mapM_param?_paramText h, Option.map_some]

theorem salt?_cons {salt : List Char} (hlength : 4 ≤ salt.length) (h : isValue salt = true) :
    salt? (salt :: rest) = some (some salt, rest) := by
  simp only [salt?, decide_eq_true hlength, h, Bool.and_true, if_true]

theorem output?_cons {bs : List UInt8} (hleast : 10 ≤ bs.length) (hmost : bs.length ≤ 64) :
    output? (Base64.encode Base64.standard bs :: rest) = some (some bs, rest) := by
  simp [output?, Base64.decode?_encode Base64.isLawful_standard, hleast, hmost]

/-! ## The text of a digest -/

/-- The digest states all of its fields, and each within the limits of the format. -/
structure IsComplete (d : Digest) : Prop where
  algorithm : isName d.algorithm = true
  version : ∃ n, d.version = some n ∧ n < 0x100000000
  params : ∀ p ∈ d.params, IsWritable p
  length : (glue ',' (d.params.map paramText)).length ≤ 127
  salt : ∃ cs, d.salt = some cs ∧ 4 ≤ cs.length ∧ isValue cs = true
  output : ∃ bs, d.output = some bs ∧ 10 ≤ bs.length ∧ bs.length ≤ 64

variable {d : Digest} {n : Nat} {salt : List Char} {bs : List UInt8}

theorem fields_eq (hversion : d.version = some n) (hsalt : d.salt = some salt)
    (houtput : d.output = some bs) :
    d.fields = d.algorithm :: ('v' :: '=' :: digits n) ::
      (paramsField d.params ++ salt :: [Base64.encode Base64.standard bs]) := by
  simp only [fields, hversion, hsalt, houtput, Option.toList_some, List.map_singleton,
    List.cons_append, List.nil_append, List.append_assoc]
  rfl

theorem dollar_not_mem_paramsField (h : ∀ p ∈ ps, IsWritable p) {field : List Char}
    (hfield : field ∈ paramsField ps) : '$' ∉ field := by
  unfold paramsField at hfield
  split at hfield
  · cases hfield
  · rw [List.mem_singleton.1 hfield]
    intro hmem
    rcases mem_glue hmem with hcomma | ⟨text, htext, hmem⟩
    · cases hcomma
    · obtain ⟨p, hp, rfl⟩ := List.mem_map.1 htext
      exact not_mem_paramText (h p hp) (by decide) (by decide) hmem

/-- No field holds a dollar sign, so that a text is cut into the fields it was written with. -/
theorem pieces_toChars (h : d.IsComplete) : pieces '$' d.toChars = [] :: d.fields := by
  obtain ⟨n, hversion, -⟩ := h.version
  obtain ⟨salt, hsalt, -, hvalue⟩ := h.salt
  obtain ⟨bs, houtput, -⟩ := h.output
  have hdollar : ∀ field ∈ [] :: d.fields, '$' ∉ field := by
    rw [fields_eq hversion hsalt houtput]
    simp only [List.mem_cons, List.mem_append, List.not_mem_nil, or_false]
    rintro field (rfl | rfl | rfl | hfield | rfl | rfl)
    · exact List.not_mem_nil
    · exact not_mem_of_isName h.algorithm (by decide)
    · simp only [List.mem_cons, not_or]
      exact ⟨by decide, by decide, not_mem_digits (by decide) n⟩
    · exact dollar_not_mem_paramsField h.params hfield
    · exact not_mem_of_isValue hvalue (by decide)
    · exact not_mem_encode (by decide) bs
  rw [toChars]
  rw [fields_eq hversion hsalt houtput] at hdollar ⊢
  rw [flatMap_cons_eq_glue, pieces_glue (by simp) hdollar]

/-- A complete digest is read back from its text. -/
theorem ofString?_toString (h : d.IsComplete) : ofString? d.toString = some d := by
  obtain ⟨n, hversion, hn⟩ := h.version
  obtain ⟨salt, hsalt, hlength, hvalue⟩ := h.salt
  obtain ⟨bs, houtput, hleast, hmost⟩ := h.output
  have hequals : '=' ∉ salt := not_mem_of_isValue hvalue (by decide)
  rw [ofString?, toString, String.toList_ofList, ofChars?, pieces_toChars h,
    fields_eq hversion hsalt houtput]
  simp only [h.algorithm, if_true, version?_cons hn, Option.bind_eq_bind, Option.bind_some,
    params?_append h.params h.length hequals, salt?_cons hlength hvalue, output?_cons hleast hmost,
    List.isEmpty_nil, ← hversion, ← hsalt, ← houtput]

end Digest

/-! ## The length of an output -/

namespace Crypto

theorem Blake2b.length_bytesOf (width n : Nat) : (bytesOf width n).length = width := by
  induction width generalizing n with
  | zero => rfl
  | succ width ih => rw [bytesOf, List.length_cons, ih]

theorem Blake2b.length_hash {size : Nat} (h : size ≤ 64) (message : List UInt8) :
    (hash size message).length = size := by
  have hwords (ws : List UInt64) :
      (ws.flatMap fun w => bytesOf 8 w.toNat).length = 8 * ws.length := by
    induction ws with
    | nil => rfl
    | cons w ws ih =>
      rw [List.flatMap_cons, List.length_append, length_bytesOf, ih, List.length_cons]
      omega
  rw [hash, List.length_take, hwords, Vector.length_toList]
  omega

theorem Argon2.length_hash {p : Argon2.Params} (h : p.outputLength ≤ 64) (v : Argon2.Variant)
    (w : Argon2.Version) (x : Argon2.Input) : (Argon2.hash v w p x).length = p.outputLength := by
  simp only [Argon2.hash, longHash, if_pos h]
  exact Blake2b.length_hash h _

end Crypto

/-! ## Digests that are made here -/

namespace Argon2

open Crypto.Argon2

variable {c : Cost} (salt : Vector UInt8 16) (secret : String)

/-- The output of a secret under a cost. -/
def output (c : Cost) (salt : Vector UInt8 16) (secret : String) : List UInt8 :=
  hash .id .v19 (c.params outputLength) ⟨bytes secret, salt.toList, []⟩

/-- The limits on costs leave numbers of thirty-two bits. -/
theorem lt_of_isValid (h : (c.params outputLength).isValid = true) :
    c.memory < 0x100000000 ∧ c.passes < 0x100000000 ∧ c.lanes < 0x100000000 := by
  simp only [Params.isValid, Bool.and_eq_true, decide_eq_true_eq] at h
  simp only [Cost.params] at h
  omega

theorem isValue_digits {n : Nat} (h : n < 0x100000000) : Digest.isValue (digits n) = true := by
  have hlength := length_digits_le h
  simp only [Digest.isValue, Bool.and_eq_true, decide_eq_true_eq, List.all_eq_true]
  refine ⟨by omega, fun d hd => ?_⟩
  simp [isDigit_of_mem_digits hd]

/-- The characters of Base64 may stand in values. -/
theorem isValue_encode {bs : List UInt8} (h : bs.length ≤ 48) :
    Digest.isValue (Base64.encode Base64.standard bs) = true := by
  have hlength := Base64.length_encode Base64.standard bs
  simp only [Digest.isValue, Bool.and_eq_true, decide_eq_true_eq, List.all_eq_true]
  refine ⟨by omega, fun d hd => ?_⟩
  have hvalue := Base64.isSome_value?_of_mem_encode Base64.isLawful_standard hd
  unfold Base64.Alphabet.value? at hvalue
  split at hvalue
  · next hupper => simp [Digest.isUpperAlpha, hupper]
  · split at hvalue
    · next hlower => simp [Digest.isLowerAlpha, hlower]
    · split at hvalue
      · next hdigit => simp [isDigit, hdigit]
      · split at hvalue
        · next hplus => simp [hplus, Base64.standard]
        · split at hvalue
          · next hslash => simp [hslash, Base64.standard]
          · cases hvalue

theorem length_output (c : Cost) : (output c salt secret).length = 32 :=
  length_hash (show 32 ≤ 64 by decide) ..

/-- What is made here states all of its fields. -/
theorem isComplete_digestOf (h : (c.params outputLength).isValid = true) :
    (digestOf c salt secret).IsComplete := by
  obtain ⟨hmemory, hpasses, hlanes⟩ := lt_of_isValid h
  have hnames : ∀ name ∈ [(variantName .id).toList, "m".toList, "t".toList, "p".toList],
      Digest.isName name = true := by decide
  have hsalt : salt.toList.length = 16 := Vector.length_toList
  have houtput := length_output salt secret c
  refine ⟨hnames _ (by simp [digestOf]), ⟨19, rfl, by decide⟩, ?_, ?_, ⟨_, rfl, ?_, ?_⟩,
    ⟨_, rfl, ?_⟩⟩
  · simp only [digestOf, List.mem_cons, List.not_mem_nil, or_false]
    rintro p (rfl | rfl | rfl)
    · exact ⟨hnames _ (by simp), isValue_digits hmemory⟩
    · exact ⟨hnames _ (by simp), isValue_digits hpasses⟩
    · exact ⟨hnames _ (by simp), isValue_digits hlanes⟩
  · have hm := length_digits_le hmemory
    have ht := length_digits_le hpasses
    have hp := length_digits_le hlanes
    simp only [digestOf, Digest.paramText, List.map_cons, List.map_nil, glue, List.length_append,
      List.length_cons, String.length_toList]
    have hone : "m".length = 1 ∧ "t".length = 1 ∧ "p".length = 1 := by decide
    omega
  · rw [Base64.length_encode, hsalt]
    decide
  · exact isValue_encode (by omega)
  · show 10 ≤ (output c salt secret).length ∧ (output c salt secret).length ≤ 64
    omega

/-! ## Checking -/

/-- What a digest says of a secret: the function with its version, the cost and nothing else of what
may be set, the salt, and the output that all of these come to. -/
structure Records (d : Digest) (c : Cost) (salt : Vector UInt8 16) (secret : String) : Prop where
  variant : variant? d.algorithm = some .id
  version : version? d.version = some .v19
  setting : setting? d.params = some ⟨c, []⟩
  saltBytes : d.salt.bind (Base64.decode? Base64.standard) = some salt.toList
  result : d.output = some (output c salt secret)

theorem variant?_variantName (v : Variant) : variant? (variantName v).toList = some v := by
  cases v <;> decide

theorem version?_code (w : Version) : version? (some w.code) = some w := by
  cases w <;> decide

/-- A cost that is written as three parameters is the whole setting they say. -/
theorem setting?_cost (hmemory : c.memory < 0x100000000) (hpasses : c.passes < 0x100000000)
    (hlanes : c.lanes < 0x100000000) :
    setting? [("m".toList, digits c.memory), ("t".toList, digits c.passes),
      ("p".toList, digits c.lanes)] = some ⟨c, []⟩ := by
  have hm (s : Setting) : s.admit? ("m".toList, digits c.memory) =
      some { s with cost := { s.cost with memory := c.memory } } := by
    simp only [Setting.admit?, if_true, Digest.number?_digits hmemory, Option.map_some]
  have ht (s : Setting) : s.admit? ("t".toList, digits c.passes) =
      some { s with cost := { s.cost with passes := c.passes } } := by
    have htm : "t".toList ≠ "m".toList := by decide
    simp only [Setting.admit?, if_neg htm, if_true, Digest.number?_digits hpasses, Option.map_some]
  have hp (s : Setting) : s.admit? ("p".toList, digits c.lanes) =
      some { s with cost := { s.cost with lanes := c.lanes } } := by
    have hpm : "p".toList ≠ "m".toList := by decide
    have hpt : "p".toList ≠ "t".toList := by decide
    simp only [Setting.admit?, if_neg hpm, if_neg hpt, if_true, Digest.number?_digits hlanes,
      Option.map_some]
  simp only [setting?, List.foldlM_cons, List.foldlM_nil, hm, ht, hp, Option.bind_eq_bind,
    Option.bind_some]
  rfl

theorem records_digestOf (h : (c.params outputLength).isValid = true) :
    Records (digestOf c salt secret) c salt secret where
  variant := by rw [digestOf]; exact variant?_variantName .id
  version := by rw [digestOf]; exact version?_code .v19
  setting := by
    obtain ⟨hmemory, hpasses, hlanes⟩ := lt_of_isValid h
    rw [digestOf]
    exact setting?_cost hmemory hpasses hlanes
  saltBytes := by
    rw [digestOf]
    exact Base64.decode?_encode Base64.isLawful_standard salt.toList
  result := by rw [digestOf, output]

/-- Any secret is hashed under the fields of the digest that it is checked against. -/
theorem verify_of_records {text : String} {d : Digest} (htext : Digest.ofString? text = some d)
    (hrecords : Records d c salt secret) (h : (c.params outputLength).isValid = true)
    (other : String) :
    verify other text = .ok (output c salt secret == output c salt other) := by
  obtain ⟨cs, hcs, hsalt⟩ := Option.bind_eq_some_iff.1 hrecords.saltBytes
  have hlength : (output c salt secret).length = outputLength := length_output salt secret c
  have hleast : minSalt ≤ salt.toList.length := by
    rw [Vector.length_toList]
    decide
  have hfound : recompute? d cs outputLength other = some (output c salt other) := by
    simp only [recompute?, hrecords.setting, hrecords.variant, hrecords.version, hsalt,
      Option.bind_eq_bind, Option.bind_some, h, decide_eq_true hleast, Bool.and_true, if_true,
      output]
  simp only [verify, htext, hcs, hrecords.result, hlength, hfound]

/-- A secret is recognised by its digest whatever the cost of new digests has become. The text of a
digest is read back as what was made, it says how, and every secret is judged by what it says; and
no text at all is judged in another way by a hasher of another cost. -/
theorem digests_outlive_costs :
    (∀ made : Cost, (made.params outputLength).isValid = true →
      ∀ (salt : Vector UInt8 16) (secret : String),
        ∃ text, (hasher made).digest salt secret = .ok text ∧
          Digest.ofString? text = some (digestOf made salt secret) ∧
          Records (digestOf made salt secret) made salt secret ∧
          (∀ now : Cost, (hasher now).verify secret text = .ok true) ∧
          ∀ (now : Cost) (other : String), (hasher now).verify other text =
            .ok (output made salt secret == output made salt other)) ∧
    ∀ (c c' : Cost) (secret text : String),
      (hasher c).verify secret text = (hasher c').verify secret text := by
  refine ⟨fun made hmade salt secret => ?_, fun _ _ _ _ => rfl⟩
  obtain ⟨text, hdigest, htext⟩ : ∃ text, (hasher made).digest salt secret = .ok text ∧
      Digest.ofString? text = some (digestOf made salt secret) :=
    ⟨_, rfl, Digest.ofString?_toString (isComplete_digestOf salt secret hmade)⟩
  have hrecords := records_digestOf salt secret hmade
  have hverify := verify_of_records salt secret htext hrecords hmade
  refine ⟨text, hdigest, htext, hrecords, fun _ => ?_, fun _ => hverify⟩
  rw [← beq_self_eq_true (output made salt secret)]
  exact hverify secret

/-- A digest of the least cost is good under the usual one, and under one beyond all limits. -/
theorem digests_outlive_costs_least : ((⟨8, 1, 1⟩ : Cost).params outputLength).isValid = true ∧
    ∃ text, (hasher ⟨8, 1, 1⟩).digest (Vector.replicate 16 7) "correct horse" = .ok text ∧
      (hasher .default).verify "correct horse" text = .ok true ∧
      (hasher ⟨0, 0, 0⟩).verify "correct horse" text = .ok true := by
  have hvalid : ((⟨8, 1, 1⟩ : Cost).params outputLength).isValid = true := by decide
  obtain ⟨text, htext, -, -, hverify, -⟩ :=
    digests_outlive_costs.1 ⟨8, 1, 1⟩ hvalid (Vector.replicate 16 7) "correct horse"
  exact ⟨hvalid, text, htext, hverify .default, hverify ⟨0, 0, 0⟩⟩

end Argon2

end Latchkey
