import Latchkey.Proofs.Forwarding

/-!
# Fingerprints are stable

The address that a fingerprint shows is one spelling of the address that was looked up, whichever
spelling the request had. A request that gives this spelling, as its peer or as the first hop of a
forwarding header, has the same fingerprint again.
-/

namespace Latchkey

open Text Net

namespace Net.Address

/-! ## Texts of addresses -/

/-- An address is read from its own text, be it expected as one or as one end of a connection. -/
theorem ofHop?_toChars (a : Address) : ofHop? a.toChars = some a := by
  rw [ofHop?, ofChars?_toChars]

theorem toChars_ne_nil (a : Address) : a.toChars ≠ [] := by
  intro hnil
  cases a with
  | v4 ip =>
    have hdot : '.' ∈ ip.toChars := ip.dot_mem_toChars
    rw [show ip.toChars = [] from hnil] at hdot
    cases hdot
  | v6 ip =>
    have hcolon : ':' ∈ ip.toChars := ip.colon_mem_toChars
    rw [show ip.toChars = [] from hnil] at hcolon
    cases hcolon

theorem comma_not_mem_toChars (a : Address) : ',' ∉ a.toChars := by
  intro hcomma
  cases isAddressChar_of_mem_toChars hcomma

/-- Trimming leaves the text of an address alone, for there is no blank in it. -/
theorem trimChars_toChars (a : Address) : trimChars a.toChars = a.toChars := by
  refine trimChars_eq_self fun c hc => isBlank_of_visible ?_
  have hrange := toNat_of_isAddressChar (isAddressChar_of_mem_toChars hc)
  exact ⟨Nat.le_trans (by decide) hrange.1, Nat.le_trans hrange.2 (by decide)⟩

end Net.Address

namespace Caller

variable {c : Caller} {table : GeoTable} {f : Fingerprint}

/-! ## Where the address comes from -/

/-- The first of the hops that a header was put together from, if its text is that of an address. -/
theorem firstHop?_glue (ip : Address) (further : List (List Char)) :
    firstHop? (String.ofList (glue ',' (ip.toChars :: further))) = some ip.toChars := by
  have hbefore : before ',' (glue ',' (ip.toChars :: further)) = ip.toChars := by
    rw [before_eq_iff]
    refine ⟨ip.comma_not_mem_toChars, ?_⟩
    cases further with
    | nil => exact .inl rfl
    | cons hop hops => exact .inr ⟨glue ',' (hop :: hops), rfl⟩
  have hne : ip.toChars.isEmpty = false := List.isEmpty_eq_false_iff.2 ip.toChars_ne_nil
  rw [firstHop?, String.toList_ofList, hbefore, ip.trimChars_toChars]
  simp only [hne, Bool.false_eq_true, if_false]

/-- A fingerprint shows an address that was read off the request and is known to the table. -/
theorem fingerprint?_eq_some_iff : c.fingerprint? table = some f ↔
    ∃ ip, c.clientText?.bind Address.ofHop? = some ip ∧ table.locate ip = some f.place ∧
      f.ip = ip.toString ∧ f.agent = Agent.ofUserAgent (c.userAgent.getD "") := by
  unfold fingerprint?
  simp only [Option.bind_eq_bind, Option.bind_eq_some_iff, Option.pure_def, Option.some.injEq]
  constructor
  · rintro ⟨text, htext, ip, hip, place, hplace, rfl⟩
    exact ⟨ip, ⟨text, htext, hip⟩, hplace, rfl, rfl⟩
  · rintro ⟨ip, ⟨text, htext, hip⟩, hplace, hshown, hagent⟩
    refine ⟨text, htext, ip, hip, f.place, hplace, ?_⟩
    rw [← hshown, ← hagent]

/-- Two requests with one address and one user agent have one fingerprint. -/
theorem fingerprint?_of_sameAddress {c' : Caller} (h : c.fingerprint? table = some f)
    (haddress : c'.clientText?.bind Address.ofHop? = c.clientText?.bind Address.ofHop?)
    (hagent : c'.userAgent = c.userAgent) : c'.fingerprint? table = some f := by
  rw [fingerprint?_eq_some_iff] at h ⊢
  rwa [haddress, hagent]

/-! ## Fingerprints taken again -/

/-- The address that a fingerprint shows is read back as the one that was looked up, and holds
neither commas nor blanks at its ends. A request from that very text has the same fingerprint, and
so has one that is forwarded for it, whoever its peer is and whatever hops come behind. -/
theorem fingerprint?_again (h : c.fingerprint? table = some f) :
    (∃ ip, c.clientText?.bind Address.ofHop? = some ip ∧ table.locate ip = some f.place ∧
      Address.ofString? f.ip = some ip) ∧
    ',' ∉ f.ip.toList ∧ trimChars f.ip.toList = f.ip.toList ∧
    { c with peer := some f.ip, forwardedFor := none }.fingerprint? table = some f ∧
    ∀ (peer : Option String) (further : List (List Char)),
      { c with
        peer
        forwardedFor := some (String.ofList (glue ',' (f.ip.toList :: further)))
          }.fingerprint? table = some f := by
  obtain ⟨ip, hip, hplace, hshown, -⟩ := fingerprint?_eq_some_iff.1 h
  have htext : f.ip.toList = ip.toChars := by rw [hshown, Address.toString, String.toList_ofList]
  have hread : ∀ c' : Caller, c'.clientText? = some ip.toChars →
      c'.clientText?.bind Address.ofHop? = c.clientText?.bind Address.ofHop? := by
    intro c' hc'
    rw [hc', Option.bind_some, ip.ofHop?_toChars, hip]
  refine ⟨⟨ip, hip, hplace, ?_⟩, ?_, ?_, ?_, fun peer further => ?_⟩
  · rw [Address.ofString?, htext, ip.ofChars?_toChars]
  · rw [htext]
    exact ip.comma_not_mem_toChars
  · rw [htext, ip.trimChars_toChars]
  · refine fingerprint?_of_sameAddress h (hread _ ?_) rfl
    show some (trimChars f.ip.toList) = some ip.toChars
    rw [htext, ip.trimChars_toChars]
  · refine fingerprint?_of_sameAddress h (hread _ ?_) rfl
    rw [htext, clientText?, Option.bind_some, firstHop?_glue]

/-- A network of the sixth version that maps one of the fourth. -/
def mappedTable : GeoTable where
  entries := [(⟨.v6 ⟨[0, 0, 0, 0, 0, 0xFFFF, 0x0A00, 0], rfl⟩, 104⟩,
    ⟨some "DE", none, some "Berlin"⟩)]

/-- A caller who writes a mapped address with all its zeros, in brackets, with a scope and a
port. -/
def mappedCaller : Caller where
  peer := some "203.0.113.9:443"
  forwardedFor := some " [0:0:0:0:0:FFFF:0A01:0203%2]:8080 , 10.0.0.1"
  userAgent := some "curl/8.5.0"

/-- The mapped address is shown in dotted form, and is found again by it behind other hops. -/
theorem fingerprint?_again_mapped : ∃ f, mappedCaller.fingerprint? mappedTable = some f ∧
    f.ip = "::ffff:10.1.2.3" ∧ trimChars f.ip.toList = f.ip.toList ∧
    { mappedCaller with
      peer := none
      forwardedFor := some (String.ofList (glue ',' (f.ip.toList :: [" ".toList, "::1".toList])))
        }.fingerprint? mappedTable = some f := by
  have hfound : ∃ f, mappedCaller.fingerprint? mappedTable = some f ∧ f.ip = "::ffff:10.1.2.3" :=
    ⟨⟨"::ffff:10.1.2.3", ⟨some "DE", none, some "Berlin"⟩,
      ⟨"Other", none, none, "curl", some "8", some "5"⟩⟩, by decide +kernel, rfl⟩
  obtain ⟨f, hf, hshown⟩ := hfound
  obtain ⟨-, -, htrim, -, hforwarded⟩ := fingerprint?_again hf
  exact ⟨f, hf, hshown, htrim, hforwarded none _⟩

end Caller

end Latchkey
