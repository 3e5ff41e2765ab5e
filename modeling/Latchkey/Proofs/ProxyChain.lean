import Latchkey.Proofs.Forwarding

/-!
# Chains of proxies

The address that access is decided by, told without walking: by the peer, by the right-most hop of
the forwarding header that is not a trusted proxy, and by nothing that stands to the left of it.
This holds for every caller and every list of trusted networks.
-/

namespace Latchkey

open Text Net

namespace Caller

variable {trusted : Address → Bool} {header : String} {hop : List Char}

/-! ## The deciding hop -/

/-- The deciding hop has only trusted proxies to its right and is none itself. -/
theorem decidingHop?_eq_some_iff : decidingHop? trusted header = some hop ↔
    ∃ left right, hops header = left ++ hop :: right ∧ isProxyHop trusted hop = false ∧
      ∀ h ∈ right, isProxyHop trusted h = true := by
  -- The hops are searched from the right, so those that were passed stand to the right of the one
  -- found.
  rw [decidingHop?, List.find?_eq_some_iff_append]
  simp only [Bool.not_eq_true', Bool.not_not]
  constructor
  · rintro ⟨hhop, right, left, hrev, hright⟩
    refine ⟨left.reverse, right.reverse, ?_, hhop, fun h hh => hright h (List.mem_reverse.1 hh)⟩
    have hhops := congrArg List.reverse hrev
    simpa using hhops
  · rintro ⟨left, right, hhops, hhop, hright⟩
    refine ⟨hhop, right.reverse, left.reverse, ?_, fun h hh => hright h (List.mem_reverse.1 hh)⟩
    rw [hhops]
    simp

theorem decidingHop?_eq_none_iff :
    decidingHop? trusted header = none ↔ ∀ h ∈ hops header, isProxyHop trusted h = true := by
  simp [decidingHop?]

/-- A deciding hop is that of every header which ends in its own. -/
theorem decidingHop?_append (a : String) {b : String}
    (h : ∃ hop ∈ hops b, isProxyHop trusted hop = false) :
    decidingHop? trusted (a ++ "," ++ b) = decidingHop? trusted b := by
  have hhops : hops (a ++ "," ++ b) = hops a ++ hops b := by
    have htext : a ++ "," ++ b = String.ofList (a.toList ++ ',' :: b.toList) := by
      rw [← String.toList_inj]
      simp
    rw [htext, hops_append, String.ofList_toList, String.ofList_toList]
  obtain ⟨hop, hmem, hhop⟩ := h
  have hsome : ((hops b).reverse.find? (!isProxyHop trusted ·)).isSome = true :=
    List.find?_isSome.2 ⟨hop, List.mem_reverse.2 hmem, by simp [hhop]⟩
  obtain ⟨found, hfound⟩ := Option.isSome_iff_exists.1 hsome
  rw [decidingHop?, decidingHop?, hhops, List.reverse_append, List.find?_append, hfound]
  rfl

/-- A deciding hop that can be read is not trusted. -/
theorem not_trusted_of_decidingHop? {ip : Address} (hhop : decidingHop? trusted header = some hop)
    (hread : Address.ofHop? hop = some ip) : trusted ip = false := by
  obtain ⟨-, -, -, hnot, -⟩ := decidingHop?_eq_some_iff.1 hhop
  rwa [isProxyHop, hread] at hnot

/-! ## What a chain decides -/

/-- The address of a caller, by rules. A caller whose peer cannot be read has none. A peer that is
not trusted is the caller itself, and so is a trusted one that forwards for nobody or for trusted
proxies only. Otherwise the right-most hop that is no trusted proxy counts, and if it cannot be
read there is no address. -/
inductive Decides (c : Caller) (proxies : List Network) : Option Address → Prop where
  | noPeer (hpeer : c.peerAddress? = none) : Decides c proxies none
  | direct {peer : Address} (hpeer : c.peerAddress? = some peer)
      (hdirect : isTrusted proxies peer = false) : Decides c proxies (some peer)
  | noHeader {peer : Address} (hpeer : c.peerAddress? = some peer)
      (htrusted : isTrusted proxies peer = true) (hheader : c.forwardedFor = none) :
      Decides c proxies (some peer)
  | proxiesOnly {peer : Address} {header : String} (hpeer : c.peerAddress? = some peer)
      (htrusted : isTrusted proxies peer = true) (hheader : c.forwardedFor = some header)
      (hproxies : ∀ hop ∈ hops header, isProxyHop (isTrusted proxies) hop = true) :
      Decides c proxies (some peer)
  | client {peer : Address} {header : String} {left right : List (List Char)} {hop : List Char}
      (hpeer : c.peerAddress? = some peer) (htrusted : isTrusted proxies peer = true)
      (hheader : c.forwardedFor = some header) (hhops : hops header = left ++ hop :: right)
      (hclient : isProxyHop (isTrusted proxies) hop = false)
      (hproxies : ∀ h ∈ right, isProxyHop (isTrusted proxies) h = true) :
      Decides c proxies (Address.ofHop? hop)

variable {c : Caller} {proxies : List Network}

/-- The rules decide what the walk finds, and nothing else. -/
theorem Decides.eq {result : Option Address} (h : c.Decides proxies result) :
    c.trustedAddress? proxies = result := by
  rw [trustedAddress?_eq]
  cases h with
  | noPeer hpeer => rw [hpeer]; rfl
  | direct hpeer hdirect => simp [hpeer, hdirect]
  | noHeader hpeer _ hheader => simp [hpeer, hheader]
  | proxiesOnly hpeer _ hheader hproxies =>
    simp [hpeer, hheader, decidingHop?_eq_none_iff.2 hproxies]
  | client hpeer htrusted hheader hhops hclient hproxies =>
    have hdeciding := decidingHop?_eq_some_iff.2 ⟨_, _, hhops, hclient, hproxies⟩
    simp [hpeer, htrusted, hheader, hdeciding]

theorem decides_trustedAddress? (c : Caller) (proxies : List Network) :
    c.Decides proxies (c.trustedAddress? proxies) := by
  rw [trustedAddress?_eq]
  cases hpeer : c.peerAddress? with
  | none => exact .noPeer hpeer
  | some peer =>
    rw [Option.bind_some]
    split
    · next htrusted =>
      cases hheader : c.forwardedFor with
      | none => exact .noHeader hpeer htrusted hheader
      | some header =>
        cases hdeciding : decidingHop? (isTrusted proxies) header with
        | none =>
          simp only [hdeciding]
          exact .proxiesOnly hpeer htrusted hheader (decidingHop?_eq_none_iff.1 hdeciding)
        | some hop =>
          obtain ⟨left, right, hhops, hclient, hproxies⟩ := decidingHop?_eq_some_iff.1 hdeciding
          simp only [hdeciding]
          exact .client hpeer htrusted hheader hhops hclient hproxies
    · next hdirect => exact .direct hpeer (eq_false_of_ne_true hdirect)

/-- The caller with another forwarding header. -/
def forwarding (c : Caller) (header : String) : Caller :=
  { c with forwardedFor := some header }

/-- What stands to the left of a hop that is no trusted proxy does not count. -/
theorem trustedAddress?_forwarding_append (c : Caller) (a : String) {b : String}
    (h : ∃ hop ∈ hops b, isProxyHop (isTrusted proxies) hop = false) :
    (c.forwarding (a ++ "," ++ b)).trustedAddress? proxies =
      (c.forwarding b).trustedAddress? proxies := by
  simp only [trustedAddress?_eq, forwarding, peerAddress?, decidingHop?_append a h]

/-- No trusted address but the peer's own is ever taken for the caller's. -/
theorem Decides.eq_peer {ip : Address} (h : c.Decides proxies (some ip))
    (hip : isTrusted proxies ip = true) : c.peerAddress? = some ip := by
  generalize hresult : some ip = result at h
  cases h with
  | noPeer => cases hresult
  | direct hpeer => exact hpeer
  | noHeader hpeer => exact hpeer
  | proxiesOnly hpeer => exact hpeer
  | client hpeer htrusted hheader hhops hclient hproxies =>
    have hnot := not_trusted_of_decidingHop?
      (decidingHop?_eq_some_iff.2 ⟨_, _, hhops, hclient, hproxies⟩) hresult.symm
    rw [hip] at hnot
    cases hnot

/-- The address that access is decided by follows the chain of proxies. It is what the rules decide;
whatever a header says to the left of a hop that is no trusted proxy makes no difference; and a
trusted address is only ever that of the peer. -/
theorem follows_proxyChain (c : Caller) (proxies : List Network) :
    (∀ result, c.trustedAddress? proxies = result ↔ c.Decides proxies result) ∧
    (∀ a a' b : String, (∃ hop ∈ hops b, isProxyHop (isTrusted proxies) hop = false) →
      (c.forwarding (a ++ "," ++ b)).trustedAddress? proxies =
        (c.forwarding (a' ++ "," ++ b)).trustedAddress? proxies) ∧
    ∀ ip, c.trustedAddress? proxies = some ip → isTrusted proxies ip = true →
      c.peerAddress? = some ip := by
  have hdecides := c.decides_trustedAddress? proxies
  refine ⟨fun result => ⟨fun h => h ▸ hdecides, Decides.eq⟩, fun a a' b hb => ?_,
    fun ip hfound hip => ?_⟩
  · rw [trustedAddress?_forwarding_append c a hb, trustedAddress?_forwarding_append c a' hb]
  · rw [hfound] at hdecides
    exact hdecides.eq_peer hip

/-- Two networks of proxies, one of each version. -/
def chainNetworks : List Network :=
  [⟨.v4 ⟨[10, 0, 0, 0], rfl⟩, 8⟩, ⟨.v6 ⟨[0xFD00, 0, 0, 0, 0, 0, 0, 0], rfl⟩, 8⟩]

/-- A caller behind a proxy of the sixth version. -/
def chainedCaller : Caller where
  peer := some " [fd00::1%2]:443"
  forwardedFor := some "198.51.100.7:80 , , [fd00::2]:9,10.1.2.3"
  userAgent := none

/-- Behind two more proxies and an empty hop a client decides, with a port and behind anything. -/
theorem follows_proxyChain_chainedCaller :
    chainedCaller.trustedAddress? chainNetworks = some (.v4 ⟨[198, 51, 100, 7], rfl⟩) ∧
    chainedCaller.Decides chainNetworks (some (.v4 ⟨[198, 51, 100, 7], rfl⟩)) ∧
    (∃ hop ∈ hops "198.51.100.7:80 , , [fd00::2]:9,10.1.2.3",
      isProxyHop (isTrusted chainNetworks) hop = false) ∧
    (chainedCaller.forwarding
        ("10.9.9.9" ++ "," ++ "198.51.100.7:80 , , [fd00::2]:9,10.1.2.3")).trustedAddress?
          chainNetworks =
      (chainedCaller.forwarding
        ("nobody" ++ "," ++ "198.51.100.7:80 , , [fd00::2]:9,10.1.2.3")).trustedAddress?
          chainNetworks := by
  obtain ⟨hiff, hblind, -⟩ := follows_proxyChain chainedCaller chainNetworks
  have hfound : chainedCaller.trustedAddress? chainNetworks =
      some (.v4 ⟨[198, 51, 100, 7], rfl⟩) := by decide +kernel
  have hclient : ∃ hop ∈ hops "198.51.100.7:80 , , [fd00::2]:9,10.1.2.3",
      isProxyHop (isTrusted chainNetworks) hop = false :=
    ⟨"198.51.100.7:80".toList, by decide +kernel, by decide +kernel⟩
  exact ⟨hfound, (hiff _).1 hfound, hclient, hblind _ _ _ hclient⟩

end Caller

end Latchkey
