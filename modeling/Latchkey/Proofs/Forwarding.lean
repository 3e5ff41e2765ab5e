import Latchkey.Fingerprint
import Latchkey.Proofs.Net.AddressText

/-!
# Forwarding

The walk over the hops of a forwarding header ends at its deciding hop: the right-most one that is
not the address of a trusted proxy. What stands to the left of it makes no difference.
-/

namespace Latchkey

open Text Net

namespace Caller

/-! ## The walk -/

/-- The hop is the address of a trusted proxy. -/
def isProxyHop (trusted : Address → Bool) (hop : List Char) : Bool :=
  (Address.ofHop? hop).any trusted

/-- The right-most hop of a header that is not the address of a trusted proxy. -/
def decidingHop? (trusted : Address → Bool) (header : String) : Option (List Char) :=
  (hops header).reverse.find? (!isProxyHop trusted ·)

theorem walk_eq (trusted : Address → Bool) (peer : Address) (rest : List (List Char)) :
    walk trusted peer rest =
      match rest.find? (!isProxyHop trusted ·) with
      | none => some peer
      | some hop => Address.ofHop? hop := by
  induction rest with
  | nil => rfl
  | cons hop rest ih =>
    rw [walk, List.find?_cons]
    cases hip : Address.ofHop? hop with
    | none => simp [isProxyHop, hip]
    | some ip =>
      cases htrusted : trusted ip with
      | true => simp [isProxyHop, hip, htrusted, ih]
      | false => simp [isProxyHop, hip, htrusted]

/-- The networks hold the address. -/
def isTrusted (proxies : List Network) (ip : Address) : Bool :=
  proxies.any (·.contains ip)

/-- The address of the peer, if its text is that of one. -/
def peerAddress? (c : Caller) : Option Address :=
  c.peer.bind fun text => Address.ofHop? (trimChars text.toList)

/-- Behind a trusted proxy the header decides: by its deciding hop, or for the proxy if there is
none. Any other peer is the client itself. -/
theorem trustedAddress?_eq (c : Caller) (proxies : List Network) :
    c.trustedAddress? proxies = c.peerAddress?.bind fun peer =>
      if isTrusted proxies peer then
        match c.forwardedFor with
        | none => some peer
        | some header =>
          match decidingHop? (isTrusted proxies) header with
          | none => some peer
          | some hop => Address.ofHop? hop
      else some peer := by
  unfold trustedAddress? peerAddress?
  cases c.peer with
  | none => rfl
  | some text =>
    simp only [Option.bind_eq_bind, Option.bind_some]
    refine congrArg _ (funext fun peer => ?_)
    cases c.forwardedFor with
    | none => rfl
    | some header =>
      simp only [decidingHop?, ← walk_eq]
      rfl

theorem trustedAddress?_of_trusted {c : Caller} {proxies : List Network} {s : Socket}
    (hpeer : c.peer = some s.toString) (htrusted : isTrusted proxies s.address = true) :
    c.trustedAddress? proxies =
      match c.forwardedFor with
      | none => some s.address
      | some header =>
        match decidingHop? (isTrusted proxies) header with
        | none => some s.address
        | some hop => Address.ofHop? hop := by
  have htrim : trimChars s.toString.toList = s.toChars := by
    rw [Socket.toString, String.toList_ofList]
    exact trimChars_eq_self fun c hc => isBlank_of_visible (Socket.visible_of_mem_toChars hc)
  have hread : c.peerAddress? = some s.address := by
    rw [peerAddress?, hpeer, Option.bind_some, htrim]
    exact s.ofHop?_toChars
  rw [trustedAddress?_eq, hread, Option.bind_some, if_pos htrusted]

/-! ## Hops -/

/-- A text without commas, behind blanks, is one hop. -/
theorem hops_single {bs cs : List Char} (hbs : ∀ b ∈ bs, b = ' ') (hne : cs ≠ [])
    (hcs : ∀ c ∈ cs, isBlank c = false ∧ c ≠ ',') :
    hops (String.ofList (bs ++ cs)) = [cs] := by
  have hcomma : ',' ∉ bs ++ cs := by
    intro h
    rcases List.mem_append.1 h with h | h
    · cases hbs _ h
    · exact (hcs _ h).2 rfl
  have htrim : trimChars (bs ++ cs) = cs := by
    rw [trimChars_append fun b hb => by rw [hbs b hb]; rfl]
    exact trimChars_eq_self fun c hc => (hcs c hc).1
  have hempty : cs.isEmpty = false := List.isEmpty_eq_false_iff.2 hne
  simp only [hops, String.toList_ofList, pieces_of_not_mem hcomma, List.map_singleton, htrim]
  simp [hempty]

/-- The hops of a header that goes on behind a comma are those before it and those behind it. -/
theorem hops_append (a b : List Char) :
    hops (String.ofList (a ++ ',' :: b)) = hops (String.ofList a) ++ hops (String.ofList b) := by
  simp only [hops, String.toList_ofList, pieces_append, List.map_append, List.filter_append]

end Caller

end Latchkey
