import Latchkey.Http.Auth
import Latchkey.Proofs.Forwarding

/-!
# Relayed requests

A trusted proxy relays a request with the address of its client added to the forwarding lines that
the client sent. Only the first of these lines is ever looked at, and only if all of it can be read:
`trustedAddress?_relayed` says for which lines the client is recognized or not at all, and for which
ones another address is taken for its.
-/

namespace Latchkey.Http

open Text Net Caller

/-! ## Lines of a header -/

/-- The values of all headers of a name, in order. -/
def Message.lines (m : Message) (name : String) : List FieldValue :=
  (m.headers.filter fun h => h.1.toLower = name).map (·.2)

/-- Of headers with one name the first counts. -/
theorem Message.header?_eq_head? (m : Message) (name : String) :
    m.header? name = (m.lines name).head? := by
  rw [lines, List.head?_map, List.head?_filter]
  rfl

namespace Message

/-- The characters of a readable value. -/
def chars (value : FieldValue) : List Char :=
  value.map fun b => Char.ofNat b.toNat

theorem readable?_eq (value : FieldValue) :
    readable? value = if value.all isReadable then some (String.ofList (chars value)) else none :=
  rfl

/-- A value in two parts can be read if both parts can. -/
theorem readable?_append (a b : FieldValue) : readable? (a ++ b) =
    if a.all isReadable && b.all isReadable then some (String.ofList (chars a ++ chars b))
    else none := by
  simp only [readable?_eq, List.all_append, chars, List.map_append]

theorem readable?_eq_some {value : FieldValue} {text : String} (h : readable? value = some text) :
    value.all isReadable = true ∧ chars value = text.toList := by
  rw [readable?_eq] at h
  split at h
  · next hall => exact ⟨hall, by rw [← Option.some.inj h, String.toList_ofList]⟩
  · cases h

end Message

/-! ## Relaying -/

/-- How a proxy adds a hop to the lines that it was sent: to the last line, behind a comma and
blanks, or as a line of its own. -/
inductive Relay where
  | lastHop (blanks : Nat)
  | ownLine
  deriving DecidableEq

/-- A comma and blanks. -/
def separator (blanks : Nat) : FieldValue :=
  0x2C :: List.replicate blanks 0x20

/-- The lines that a proxy relays. -/
def Relay.lines (r : Relay) (hop : FieldValue) (sent : List FieldValue) : List FieldValue :=
  match r, sent.getLast? with
  | .lastHop blanks, some last => sent.dropLast ++ [last ++ (separator blanks ++ hop)]
  | _, _ => sent ++ [hop]

/-- The request comes from a trusted proxy, which has added the address of a client that is no
trusted proxy to the forwarding lines that it was sent. -/
structure Relayed (proxies : List Network) (ip : Address) (r : Relay) (sent : List FieldValue)
    (m : Message) : Prop where
  peer : ∃ s, m.peer = some s ∧ isTrusted proxies s.address = true
  client : isTrusted proxies ip = false
  lines : ∃ hop text, Message.readable? hop = some text ∧ Address.ofString? text = some ip ∧
    m.lines "x-forwarded-for" = r.lines hop sent

/-- The text of an address of a client is one hop, also behind blanks, and decides. -/
theorem hops_client {text : String} {client : Address} (h : Address.ofString? text = some client)
    (blanks : Nat) :
    hops (String.ofList (List.replicate blanks ' ' ++ text.toList)) = [text.toList] := by
  have hne : text.toList ≠ [] := by
    intro hnil
    rw [Address.ofString?, hnil] at h
    cases h
  refine hops_single (fun b hb => List.eq_of_mem_replicate hb) hne ?_
  intro c hc
  have hrange := toNat_of_isAddressChar (Address.isAddressChar_of_ofChars? h hc)
  refine ⟨isBlank_of_visible ⟨by omega, by omega⟩, ?_⟩
  rintro rfl
  exact absurd hrange.1 (by decide)

/-- A hop that a proxy has added decides, if the client is no proxy. -/
theorem decidingHop?_client {trusted : Address → Bool} {text : String} {client : Address}
    (h : Address.ofString? text = some client) (hclient : trusted client = false) {header : String}
    {before : List (List Char)} (hhops : hops header = before ++ [text.toList]) :
    decidingHop? trusted header = some text.toList := by
  have hread : Address.ofHop? text.toList = some client := by
    rw [Address.ofHop?, show Address.ofChars? text.toList = some client from h]
  have hnot : isProxyHop trusted text.toList = false := by
    rw [isProxyHop, hread]
    exact hclient
  rw [decidingHop?, hhops, List.reverse_append]
  simp [hnot]

/-- A hop that is added to a readable line is the last one of a readable line. -/
theorem readable?_added {hop first : FieldValue} {text header : String} {ip : Address}
    (hhop : Message.readable? hop = some text) (htext : Address.ofString? text = some ip)
    (hfirst : Message.readable? first = some header) (blanks : Nat) :
    ∃ longer, Message.readable? (first ++ (separator blanks ++ hop)) = some longer ∧
      hops longer = hops header ++ [text.toList] := by
  obtain ⟨hall, hchars⟩ := Message.readable?_eq_some hhop
  obtain ⟨hallFirst, hcharsFirst⟩ := Message.readable?_eq_some hfirst
  have hseparator : (separator blanks).all Message.isReadable = true := by
    simp [separator, Message.isReadable]
  have hadded : Message.chars (separator blanks ++ hop) =
      ',' :: (List.replicate blanks ' ' ++ text.toList) := by
    rw [← hchars]
    simp [Message.chars, separator]
  refine ⟨String.ofList (Message.chars first ++ Message.chars (separator blanks ++ hop)), ?_, ?_⟩
  · rw [Message.readable?_append, List.all_append, hseparator, hall, hallFirst]
    rfl
  · rw [hadded, hops_append, hops_client htext, hcharsFirst, String.ofList_toList]

/-! ## What the first line decides -/

/-- The address that a forwarding line decides behind a proxy: the proxy's own if the line cannot be
read or holds nothing but proxies, otherwise that of its deciding hop. -/
def lineAddress? (proxies : List Network) (proxy : Address) (line : FieldValue) : Option Address :=
  match Message.readable? line with
  | none => some proxy
  | some header =>
    match decidingHop? (isTrusted proxies) header with
    | none => some proxy
    | some hop => Address.ofHop? hop

/-- A request from a trusted proxy is decided by its first forwarding line. -/
theorem trustedAddress?_eq_lineAddress? {proxies : List Network} {m : Message} {s : Socket}
    (hpeer : m.peer = some s) (htrusted : isTrusted proxies s.address = true) :
    m.caller.trustedAddress? proxies =
      match (m.lines "x-forwarded-for").head? with
      | none => some s.address
      | some first => lineAddress? proxies s.address first := by
  have hcaller : m.caller.peer = some s.toString := by
    simp [Message.caller, hpeer]
  rw [trustedAddress?_of_trusted hcaller htrusted]
  simp only [Message.caller, Message.text?, Message.header?_eq_head?]
  cases (m.lines "x-forwarded-for").head? with
  | none => rfl
  | some first => rfl

variable {proxies : List Network} {proxy ip : Address}

theorem ne_client (hproxy : isTrusted proxies proxy = true)
    (hclient : isTrusted proxies ip = false) : proxy ≠ ip := by
  rintro rfl
  rw [hproxy] at hclient
  cases hclient

/-- A line that ends in the hop of a client that is no proxy decides for the client. -/
theorem lineAddress?_client {line : FieldValue} {text header : String}
    {before : List (List Char)} (htext : Address.ofString? text = some ip)
    (hclient : isTrusted proxies ip = false) (hline : Message.readable? line = some header)
    (hhops : hops header = before ++ [text.toList]) :
    lineAddress? proxies proxy line = some ip := by
  simp only [lineAddress?, hline, decidingHop?_client htext hclient hhops]
  rw [Address.ofHop?, show Address.ofChars? text.toList = some ip from htext]

/-- A line that the client has sent alone decides for a client that is no proxy, or for no one,
exactly if it can be read and has such a deciding hop. -/
theorem lineAddress?_iff (hproxy : isTrusted proxies proxy = true)
    (hclient : isTrusted proxies ip = false) (line : FieldValue) :
    lineAddress? proxies proxy line = some ip ∨ lineAddress? proxies proxy line = none ↔
      ∃ header hop, Message.readable? line = some header ∧
        decidingHop? (isTrusted proxies) header = some hop ∧
        (Address.ofHop? hop = some ip ∨ Address.ofHop? hop = none) := by
  have hne := ne_client hproxy hclient
  unfold lineAddress?
  cases hline : Message.readable? line with
  | none => simp [hne]
  | some header =>
    cases hhop : decidingHop? (isTrusted proxies) header with
    | none => simp [hhop, hne]
    | some hop => simp [hhop]

/-- A line to which the proxy has added the hop of a client decides for the client, or for no one,
exactly if it could be read before. -/
theorem lineAddress?_added (hproxy : isTrusted proxies proxy = true)
    (hclient : isTrusted proxies ip = false) {hop : FieldValue} {text : String}
    (hhop : Message.readable? hop = some text) (htext : Address.ofString? text = some ip)
    (line : FieldValue) (blanks : Nat) :
    lineAddress? proxies proxy (line ++ (separator blanks ++ hop)) = some ip ∨
        lineAddress? proxies proxy (line ++ (separator blanks ++ hop)) = none ↔
      ∃ header, Message.readable? line = some header := by
  cases hread : Message.readable? line with
  | none =>
    have hall : line.all Message.isReadable = false := by
      rw [Message.readable?_eq] at hread
      split at hread
      · cases hread
      · next hnot => exact eq_false_of_ne_true hnot
    have hnone : Message.readable? (line ++ (separator blanks ++ hop)) = none := by
      rw [Message.readable?_append, hall]
      rfl
    simp [lineAddress?, hnone, ne_client hproxy hclient]
  | some header =>
    obtain ⟨longer, hlonger, hhops⟩ := readable?_added hhop htext hread blanks
    rw [lineAddress?_client htext hclient hlonger hhops]
    exact ⟨fun _ => ⟨header, rfl⟩, fun _ => .inl rfl⟩

/-- A line of the proxy's own decides for the client. -/
theorem lineAddress?_hop (hclient : isTrusted proxies ip = false) {hop : FieldValue}
    {text : String} (hhop : Message.readable? hop = some text)
    (htext : Address.ofString? text = some ip) : lineAddress? proxies proxy hop = some ip := by
  have hsingle := hops_client htext 0
  rw [List.replicate_zero, List.nil_append, String.ofList_toList] at hsingle
  have halone : hops text = [] ++ [text.toList] := hsingle
  exact lineAddress?_client htext hclient hhop halone

/-- The lines that a client has sent do not hide it: there are none; or the only one can be read
and the proxy adds its hop to it; or the first one can be read, and its deciding hop is the client
itself or no address at all. -/
def Relay.Shows (r : Relay) (proxies : List Network) (ip : Address) : List FieldValue → Prop
  | [] => True
  | first :: rest => ∃ header, Message.readable? first = some header ∧
      ((r ≠ .ownLine ∧ rest = []) ∨
        ∃ hop, decidingHop? (isTrusted proxies) header = some hop ∧
          (Address.ofHop? hop = some ip ∨ Address.ofHop? hop = none))

/-- Unless a proxy adds its hop to the only line, the first line stays as the client has sent it. -/
theorem Relay.head?_lines {r : Relay} {hop first : FieldValue} {rest : List FieldValue}
    (h : ¬(r ≠ .ownLine ∧ rest = [])) : (r.lines hop (first :: rest)).head? = some first := by
  cases r with
  | ownLine => rfl
  | lastHop blanks =>
    cases rest with
    | nil => exact absurd ⟨fun heq => (nomatch heq), rfl⟩ h
    | cons second rest =>
      simp [Relay.lines, List.getLast?_cons]

/-- A relayed request is taken for its client's, or for no one's, exactly if the lines that the
client has sent do not hide it. For all other lines an address that the client has written, or the
proxy's own, is taken for the client's. -/
theorem trustedAddress?_relayed {r : Relay} {sent : List FieldValue} {m : Message}
    (h : Relayed proxies ip r sent m) :
    m.caller.trustedAddress? proxies = some ip ∨ m.caller.trustedAddress? proxies = none ↔
      r.Shows proxies ip sent := by
  obtain ⟨s, hpeer, htrusted⟩ := h.peer
  obtain ⟨hop, text, hhop, htext, hlines⟩ := h.lines
  rw [trustedAddress?_eq_lineAddress? hpeer htrusted, hlines]
  cases sent with
  | nil =>
    have hhead : (r.lines hop []).head? = some hop := by
      cases r <;> rfl
    simp [hhead, lineAddress?_hop h.client hhop htext, Relay.Shows]
  | cons first rest =>
    by_cases hadded : r ≠ .ownLine ∧ rest = []
    · obtain ⟨hstyle, rfl⟩ := hadded
      cases r with
      | ownLine => exact absurd rfl hstyle
      | lastHop blanks =>
        have hhead : (Relay.lines (.lastHop blanks) hop [first]).head? =
            some (first ++ (separator blanks ++ hop)) := rfl
        simp only [hhead, lineAddress?_added htrusted h.client hhop htext]
        constructor
        · rintro ⟨header, hread⟩
          exact ⟨header, hread, .inl ⟨hstyle, rfl⟩⟩
        · rintro ⟨header, hread, -⟩
          exact ⟨header, hread⟩
    · rw [Relay.head?_lines hadded]
      simp only [lineAddress?_iff htrusted h.client, Relay.Shows, hadded, false_or]
      constructor
      · rintro ⟨header, d, hread, hd, hip⟩
        exact ⟨header, hread, d, hd, hip⟩
      · rintro ⟨header, hread, d, hd, hip⟩
        exact ⟨header, d, hread, hd, hip⟩

/-! ## A forged line -/

/-- The network of a proxy. -/
def proxyNetworks : List Network :=
  [⟨.v4 ⟨[172, 31, 0, 0], rfl⟩, 16⟩]

/-- The address of a client that is no proxy. -/
def outsideClient : Address :=
  .v4 ⟨[198, 51, 100, 7], rfl⟩

/-- A request behind the proxy with these forwarding lines. -/
def proxiedRequest (lines : List String) : Message where
  method := "GET"
  target := "/api/v1/keys/current"
  headers := lines.map (field "X-Forwarded-For")
  peer := some (.v4 ⟨[172, 31, 0, 5], rfl⟩ 443)

/-- The only line that was sent shows the client if the proxy adds its hop to it. -/
theorem trustedAddress?_relayed_lastHop :
    Relayed proxyNetworks outsideClient (.lastHop 1) [bytes "10.1.2.3"]
      (proxiedRequest ["10.1.2.3, 198.51.100.7"]) ∧
    ((proxiedRequest ["10.1.2.3, 198.51.100.7"]).caller.trustedAddress? proxyNetworks =
        some outsideClient ∨
      (proxiedRequest ["10.1.2.3, 198.51.100.7"]).caller.trustedAddress? proxyNetworks = none ↔
      Relay.Shows (.lastHop 1) proxyNetworks outsideClient [bytes "10.1.2.3"]) := by
  have h : Relayed proxyNetworks outsideClient (.lastHop 1) [bytes "10.1.2.3"]
      (proxiedRequest ["10.1.2.3, 198.51.100.7"]) :=
    ⟨⟨_, rfl, by decide⟩, by decide, bytes "198.51.100.7", "198.51.100.7", by decide, by decide,
      by decide +kernel⟩
  exact ⟨h, trustedAddress?_relayed h⟩

/-- The client's address stands in a line of its own, and what the client has written is taken for
it. -/
theorem trustedAddress?_forged :
    Relayed proxyNetworks outsideClient .ownLine [bytes "10.1.2.3"]
      (proxiedRequest ["10.1.2.3", "198.51.100.7"]) ∧
    (proxiedRequest ["10.1.2.3", "198.51.100.7"]).caller.trustedAddress? proxyNetworks =
      some (.v4 ⟨[10, 1, 2, 3], rfl⟩) ∧
    ¬((proxiedRequest ["10.1.2.3", "198.51.100.7"]).caller.trustedAddress? proxyNetworks =
        some outsideClient ∨
      (proxiedRequest ["10.1.2.3", "198.51.100.7"]).caller.trustedAddress? proxyNetworks = none) :=
  ⟨⟨⟨_, rfl, by decide⟩, by decide, bytes "198.51.100.7", "198.51.100.7", by decide, by decide,
    by decide +kernel⟩, by decide +kernel, by decide +kernel⟩

end Latchkey.Http
