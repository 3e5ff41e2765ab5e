import Latchkey.Net.Socket
import Latchkey.Proofs.Text.Cutting
import Latchkey.Proofs.Text.Numbers

/-!
# Texts of addresses

The text of an address is read back as the address, and the text of one end of a connection as its
address. No text of an address holds a comma or a blank.
-/

namespace Latchkey.Net

open Text

theorem exists_of_mapM_eq_some {α β : Type} {f : α → Option β} {xs : List α} {ys : List β}
    (h : xs.mapM f = some ys) {x : α} (hx : x ∈ xs) : ∃ y, f x = some y := by
  induction xs generalizing ys with
  | nil => cases hx
  | cons z zs ih =>
    rw [List.mapM_cons] at h
    obtain ⟨y, hy, hrest⟩ := Option.bind_eq_some_iff.1 h
    obtain ⟨ys', hys, -⟩ := Option.bind_eq_some_iff.1 hrest
    rcases List.mem_cons.1 hx with rfl | hx
    · exact ⟨y, hy⟩
    · exact ih hys hx

/-! ## The fourth version -/

namespace Ipv4

theorem octet?_digits (o : UInt8) : octet? (digits o.toNat) = some o := by
  have hlength : (digits o.toNat).length ≤ 3 :=
    (Nat.length_toDigits_le_iff (by decide) (by decide)).2
      (Nat.lt_of_lt_of_le o.toNat_lt (by decide))
  unfold octet?
  rw [if_neg (Nat.not_lt.2 hlength), ofPlainDigits?_digits]
  simp [o.toNat_lt]

/-- The octets of an address in digits. -/
def words (ip : Ipv4) : List (List Char) :=
  ip.octets.map fun o => digits o.toNat

theorem isDigit_of_mem_words {ip : Ipv4} {w : List Char} (h : w ∈ ip.words) :
    ∀ c ∈ w, isDigit c = true := by
  obtain ⟨o, -, rfl⟩ := List.mem_map.1 h
  exact fun c hc => isDigit_of_mem_digits hc

theorem words_ne_nil (ip : Ipv4) : ip.words ≠ [] := by
  intro h
  have hlength := congrArg List.length h
  rw [words, List.length_map, ip.size_eq] at hlength
  cases hlength

theorem pieces_toChars (ip : Ipv4) : pieces '.' ip.toChars = ip.words := by
  refine pieces_glue ip.words_ne_nil ?_
  intro w hw hdot
  have := isDigit_of_mem_words hw '.' hdot
  cases this

theorem mapM_octet?_words (ip : Ipv4) : ip.words.mapM octet? = some ip.octets := by
  unfold words
  induction ip.octets with
  | nil => rfl
  | cons o os ih => simp [octet?_digits, ih]

/-- The text of an address is read back. -/
theorem ofChars?_toChars (ip : Ipv4) : ofChars? ip.toChars = some ip := by
  simp [ofChars?, pieces_toChars, mapM_octet?_words, ofOctets?, ip.size_eq]

theorem mem_toChars {ip : Ipv4} {c : Char} (h : c ∈ ip.toChars) : isDigit c = true ∨ c = '.' := by
  rcases mem_glue h with h | ⟨w, hw, hc⟩
  · exact .inr h
  · exact .inl (isDigit_of_mem_words hw c hc)

/-- Every text of an address of the fourth version has dots. -/
theorem dot_mem_of_ofChars? {cs : List Char} {ip : Ipv4} (h : ofChars? cs = some ip) :
    '.' ∈ cs := by
  by_cases hdot : '.' ∈ cs
  · exact hdot
  · obtain ⟨octets, hoctets, hfour⟩ := Option.bind_eq_some_iff.1 h
    rw [pieces_of_not_mem hdot] at hoctets
    obtain ⟨o, -, hone⟩ := Option.bind_eq_some_iff.1 hoctets
    obtain rfl : [o] = octets := Option.some.inj hone
    cases hfour

theorem dot_mem_toChars (ip : Ipv4) : '.' ∈ ip.toChars :=
  dot_mem_of_ofChars? ip.ofChars?_toChars

theorem colon_not_mem_toChars (ip : Ipv4) : ':' ∉ ip.toChars := by
  intro h
  rcases mem_toChars h with h | h
  · cases h
  · cases h

/-- Every octet that can be read is made of digits. -/
theorem isDigit_of_octet? {cs : List Char} {o : UInt8} (h : octet? cs = some o) :
    ∀ c ∈ cs, isDigit c = true := by
  unfold octet? at h
  split at h
  · cases h
  · obtain ⟨n, hn, -⟩ := Option.bind_eq_some_iff.1 h
    exact isDigit_of_ofPlainDigits? hn

/-- Every text of an address of the fourth version is made of digits and dots. -/
theorem mem_of_ofChars? {cs : List Char} {ip : Ipv4} (h : ofChars? cs = some ip) {c : Char}
    (hc : c ∈ cs) : isDigit c = true ∨ c = '.' := by
  by_cases hdot : c = '.'
  · exact .inr hdot
  · obtain ⟨p, hp, hcp⟩ := mem_pieces_of_mem hc hdot
    obtain ⟨octets, hoctets, -⟩ := Option.bind_eq_some_iff.1 h
    obtain ⟨o, ho⟩ := exists_of_mapM_eq_some hoctets hp
    exact .inl (isDigit_of_octet? ho c hcp)

end Ipv4

/-! ## The sixth version -/

/-- A character of an address: a hexadecimal digit, a colon or a dot. -/
def isAddressChar (c : Char) : Bool :=
  (hexValue? c).isSome || c == ':' || c == '.'

theorem isAddressChar_of_isDigit {c : Char} (h : isDigit c = true) : isAddressChar c = true := by
  unfold isDigit at h
  simp [isAddressChar, hexValue?, h]

/-- The characters of addresses lie between the dot and the small letter f. -/
theorem toNat_of_isAddressChar {c : Char} (h : isAddressChar c = true) :
    0x2E ≤ c.toNat ∧ c.toNat ≤ 0x66 := by
  simp only [isAddressChar, Bool.or_eq_true, beq_iff_eq] at h
  rcases h with (h | rfl) | rfl
  · exact ⟨Nat.le_trans (by decide) (toNat_of_hexValue? h).1, (toNat_of_hexValue? h).2⟩
  · decide
  · decide

namespace Ipv6

/-! ### Groups and runs of groups -/

theorem group?_hexDigits (g : UInt16) : group? (hexDigits g.toNat) = some g := by
  have hlength := length_hexDigits_le g.toNat_lt
  simp [group?, Nat.not_lt.2 hlength, ofHex?_hexDigits]

theorem mapM_group?_hexDigits (gs : List UInt16) :
    (gs.map fun g => hexDigits g.toNat).mapM group? = some gs := by
  induction gs with
  | nil => rfl
  | cons g gs ih => simp [group?_hexDigits, ih]

theorem runText_cons (g : UInt16) (gs : List UInt16) :
    ∃ c cs, runText (g :: gs) = c :: cs ∧ c ≠ ':' := by
  obtain ⟨c, cs, hcons⟩ := List.exists_cons_of_ne_nil (hexDigits_ne_nil g.toNat)
  have hc : c ≠ ':' := by
    rintro rfl
    exact not_mem_hexDigits rfl g.toNat (hcons ▸ List.mem_cons_self)
  cases gs with
  | nil => exact ⟨c, cs, hcons, hc⟩
  | cons g' gs =>
    refine ⟨c, cs ++ ':' :: runText (g' :: gs), ?_, hc⟩
    show hexDigits g.toNat ++ ':' :: runText (g' :: gs) = _
    rw [hcons]
    rfl

/-- The text of a run is read back, whether or not a dotted end is allowed. -/
theorem run?_runText (dotted : Bool) (gs : List UInt16) : run? dotted (runText gs) = some gs := by
  cases gs with
  | nil => rfl
  | cons g gs =>
    obtain ⟨c, cs, hcons, -⟩ := runText_cons g gs
    have hpieces : pieces ':' (runText (g :: gs)) = (g :: gs).map fun g => hexDigits g.toNat := by
      refine pieces_glue (by simp) ?_
      intro w hw
      obtain ⟨g', -, rfl⟩ := List.mem_map.1 hw
      exact not_mem_hexDigits rfl g'.toNat
    have hne : (runText (g :: gs)).isEmpty = false := by
      rw [hcons]
      rfl
    unfold run?
    simp only [hne, hpieces, mapM_group?_hexDigits, Bool.false_eq_true, if_false]

/-! ### The gap -/

theorem splitGap?_cons {c : Char} {cs : List Char} (h : ∀ rest, c :: cs ≠ ':' :: ':' :: rest) :
    splitGap? (c :: cs) = (splitGap? cs).map fun (head, tail) => (c :: head, tail) := by
  rw [splitGap?]
  intro rest hc hcs
  exact h rest (by rw [hc, hcs])

/-- A word without colons is passed over. -/
theorem splitGap?_append {w cs : List Char} (hw : ':' ∉ w) :
    splitGap? (w ++ cs) = (splitGap? cs).map fun (head, tail) => (w ++ head, tail) := by
  induction w with
  | nil => simp
  | cons c w ih =>
    have hc : c ≠ ':' := fun h => hw (h ▸ List.mem_cons_self)
    have hskip : ∀ rest, c :: (w ++ cs) ≠ ':' :: ':' :: rest := by
      intro rest h
      exact hc (List.cons.inj h).1
    rw [List.cons_append, splitGap?_cons hskip, ih fun h => hw (List.mem_cons_of_mem _ h)]
    cases splitGap? cs <;> rfl

theorem splitGap?_of_not_mem {w : List Char} (hw : ':' ∉ w) : splitGap? w = none := by
  rw [← List.append_nil w, splitGap?_append hw]
  rfl

/-- A run of groups has no gap. -/
theorem splitGap?_runText (gs : List UInt16) : splitGap? (runText gs) = none := by
  induction gs with
  | nil => rfl
  | cons g gs ih =>
    have hg : ':' ∉ hexDigits g.toNat := not_mem_hexDigits rfl _
    cases gs with
    | nil => exact splitGap?_of_not_mem hg
    | cons g' gs =>
      obtain ⟨c, cs, hcons, hc⟩ := runText_cons g' gs
      have hskip : ∀ rest, ':' :: runText (g' :: gs) ≠ ':' :: ':' :: rest := by
        intro rest h
        rw [hcons] at h
        exact hc (List.cons.inj (List.cons.inj h).2).1
      show splitGap? (hexDigits g.toNat ++ ':' :: runText (g' :: gs)) = none
      rw [splitGap?_append hg, splitGap?_cons hskip, ih]
      rfl

/-- The gap behind a run of groups is found. -/
theorem splitGap?_runText_append (gs : List UInt16) (rest : List Char) :
    splitGap? (runText gs ++ ':' :: ':' :: rest) = some (runText gs, rest) := by
  induction gs with
  | nil => rfl
  | cons g gs ih =>
    have hg : ':' ∉ hexDigits g.toNat := not_mem_hexDigits rfl _
    cases gs with
    | nil =>
      show splitGap? (hexDigits g.toNat ++ ':' :: ':' :: rest) = some (hexDigits g.toNat, rest)
      rw [splitGap?_append hg]
      simp [splitGap?]
    | cons g' gs =>
      obtain ⟨c, cs, hcons, hc⟩ := runText_cons g' gs
      have hskip : ∀ more, ':' :: (runText (g' :: gs) ++ ':' :: ':' :: rest) ≠
          ':' :: ':' :: more := by
        intro more h
        rw [hcons] at h
        exact hc (List.cons.inj (List.cons.inj h).2).1
      have htext : runText (g :: g' :: gs) = hexDigits g.toNat ++ ':' :: runText (g' :: gs) := rfl
      rw [htext, List.append_assoc, List.cons_append, splitGap?_append hg, splitGap?_cons hskip, ih]
      rfl

/-- A run of zeros is zeros. -/
theorem eq_replicate_append {gs : List UInt16} {n : Nat} (h : n ≤ zeroRun gs) :
    gs = List.replicate n 0 ++ gs.drop n := by
  induction n generalizing gs with
  | zero => rfl
  | succ n ih =>
    cases gs with
    | nil => cases h
    | cons g gs =>
      by_cases hg : g = 0
      · have hrest : n ≤ zeroRun gs := by
          simp only [zeroRun, List.takeWhile_cons, hg, decide_true, if_true, List.length_cons] at h
          exact Nat.le_of_succ_le_succ h
        rw [List.replicate_succ, List.cons_append, List.drop_succ_cons, ← ih hrest, hg]
      · simp [zeroRun, hg] at h

/-- Where the longest gap is said to be there are zeros. -/
theorem longestGap_le (gs : List UInt16) :
    (longestGap gs).2 ≤ zeroRun (gs.drop (longestGap gs).1) := by
  have hfold (is : List Nat) (best : Nat × Nat) (hbest : best.2 ≤ zeroRun (gs.drop best.1)) :
      (is.foldl (fun best i => if best.2 < zeroRun (gs.drop i) then (i, zeroRun (gs.drop i))
        else best) best).2 ≤ zeroRun (gs.drop (is.foldl (fun best i =>
          if best.2 < zeroRun (gs.drop i) then (i, zeroRun (gs.drop i)) else best) best).1) := by
    induction is generalizing best with
    | nil => exact hbest
    | cons i is ih =>
      rw [List.foldl_cons]
      refine ih _ ?_
      split
      · exact Nat.le_refl _
      · exact hbest
  exact hfold _ (0, 0) (Nat.zero_le _)

theorem groups_eq_gap (gs : List UInt16) :
    gs = gs.take (longestGap gs).1 ++ List.replicate (longestGap gs).2 0 ++
      gs.drop ((longestGap gs).1 + (longestGap gs).2) := by
  have hzeros := eq_replicate_append (longestGap_le gs)
  rw [List.append_assoc, ← List.drop_drop, ← hzeros, List.take_append_drop]

theorem ofGroups?_groups (ip : Ipv6) : ofGroups? ip.groups = some ip := by
  rw [ofGroups?, dif_pos ip.size_eq]

/-! ### The text of an address -/

theorem groups_mapped {ip : Ipv6} {inner : Ipv4} (h : ip.mapped? = some inner) :
    ip.groups = [0, 0, 0, 0, 0, 0xFFFF] ++ inner.groups := by
  unfold mapped? at h
  split at h
  · next g k hgroups =>
    have hinner : (⟨[UInt8.ofNat (g.toNat / 256), UInt8.ofNat (g.toNat % 256),
        UInt8.ofNat (k.toNat / 256), UInt8.ofNat (k.toNat % 256)], rfl⟩ : Ipv4) = inner :=
      Option.some.inj h
    rw [hgroups, ← hinner]
    have hword (w : UInt16) : UInt16.ofNat (256 * (UInt8.ofNat (w.toNat / 256)).toNat +
        (UInt8.ofNat (w.toNat % 256)).toNat) = w := by
      have hw := w.toNat_lt
      have hhigh : w.toNat / 256 < 256 := by omega
      have hlow : w.toNat % 256 < 256 := Nat.mod_lt _ (by decide)
      rw [UInt8.toNat_ofNat_of_lt' hhigh, UInt8.toNat_ofNat_of_lt' hlow, Nat.div_add_mod,
        UInt16.ofNat_toNat]
    simp only [Ipv4.groups, hword, List.cons_append, List.nil_append]
  · cases h

theorem group?_of_dot {cs : List Char} (h : '.' ∈ cs) : group? cs = none := by
  have hmap : ofHex? cs = none := by
    unfold ofHex?
    split
    · rfl
    · cases hm : cs.mapM hexValue? with
      | none => rfl
      | some ds =>
        obtain ⟨d, hd⟩ := exists_of_mapM_eq_some hm h
        cases hd
  simp [group?, hmap]

/-- A last group that holds a dot is read as an address of the fourth version. -/
theorem run?_dotted (ip : Ipv4) : run? true (['f', 'f', 'f', 'f', ':'] ++ ip.toChars) =
    some (0xFFFF :: ip.groups) := by
  have hpieces : pieces ':' (['f', 'f', 'f', 'f', ':'] ++ ip.toChars) =
      [['f', 'f', 'f', 'f'], ip.toChars] := by
    have hcut := pieces_append ':' ['f', 'f', 'f', 'f'] ip.toChars
    rw [pieces_of_not_mem ip.colon_not_mem_toChars] at hcut
    exact hcut
  have hmapM : [['f', 'f', 'f', 'f'], ip.toChars].mapM group? = none := by
    simp [group?_of_dot ip.dot_mem_toChars]
  have hfirst : group? ['f', 'f', 'f', 'f'] = some 0xFFFF := by decide
  unfold run?
  simp only [hpieces, hmapM]
  simp [hfirst, Ipv4.ofChars?_toChars]

/-- The text of an address is read back, with a gap, with a dotted end or with neither. -/
theorem ofChars?_toChars (ip : Ipv6) : ofChars? ip.toChars = some ip := by
  unfold toChars
  cases hmapped : ip.mapped? with
  | some inner =>
    have hsplit : splitGap? ([':', ':', 'f', 'f', 'f', 'f', ':'] ++ inner.toChars) =
        some ([], ['f', 'f', 'f', 'f', ':'] ++ inner.toChars) := rfl
    have hgroups := groups_mapped hmapped
    have hlength : inner.groups.length = 2 := by
      have := congrArg List.length hgroups
      rw [ip.size_eq, List.length_append] at this
      exact (Nat.add_left_cancel this).symm
    have hsame : ofGroups? ([] ++ List.replicate 5 0 ++ 0xFFFF :: inner.groups) = some ip := by
      rw [← ofGroups?_groups ip, hgroups]
      rfl
    unfold ofChars?
    rw [hsplit]
    simp only [run?_dotted]
    simpa [run?, hlength] using hsame
  | none =>
    dsimp only
    split
    · next hgap =>
      have hgroups := groups_eq_gap ip.groups
      have hlength := congrArg List.length hgroups
      rw [ip.size_eq, List.length_append, List.length_append, List.length_replicate] at hlength
      have htext : runText (ip.groups.take (longestGap ip.groups).1) ++ [':', ':'] ++
          runText (ip.groups.drop ((longestGap ip.groups).1 + (longestGap ip.groups).2)) =
            runText (ip.groups.take (longestGap ip.groups).1) ++ ':' :: ':' ::
              runText (ip.groups.drop ((longestGap ip.groups).1 + (longestGap ip.groups).2)) := by
        simp
      have hmissing : 8 - ((ip.groups.take (longestGap ip.groups).1).length +
          (ip.groups.drop ((longestGap ip.groups).1 + (longestGap ip.groups).2)).length) =
            (longestGap ip.groups).2 := by
        omega
      have hfew : ¬(ip.groups.take (longestGap ip.groups).1).length +
          (ip.groups.drop ((longestGap ip.groups).1 + (longestGap ip.groups).2)).length > 7 := by
        omega
      unfold ofChars?
      rw [htext, splitGap?_runText_append]
      simp only [run?_runText, Option.bind_eq_bind, Option.bind_some, if_neg hfew, hmissing]
      rw [← hgroups]
      exact ofGroups?_groups ip
    · unfold ofChars?
      rw [splitGap?_runText]
      simp [run?_runText, ofGroups?_groups]

/-! ### Characters -/

theorem isAddressChar_of_group? {cs : List Char} {g : UInt16} (h : group? cs = some g) {c : Char}
    (hc : c ∈ cs) : isAddressChar c = true := by
  unfold group? at h
  split at h
  · cases h
  · obtain ⟨n, hn, -⟩ := Option.map_eq_some_iff.1 h
    unfold ofHex? at hn
    split at hn
    · cases hn
    · obtain ⟨ds, hds, -⟩ := Option.map_eq_some_iff.1 hn
      obtain ⟨d, hd⟩ := exists_of_mapM_eq_some hds hc
      simp [isAddressChar, hd]

theorem isAddressChar_of_run? {dotted : Bool} {cs : List Char} {gs : List UInt16}
    (h : run? dotted cs = some gs) {c : Char} (hc : c ∈ cs) : isAddressChar c = true := by
  by_cases hcolon : c = ':'
  · subst hcolon
    rfl
  · obtain ⟨p, hp, hcp⟩ := mem_pieces_of_mem hc hcolon
    unfold run? at h
    split at h
    · next hempty =>
      rw [List.isEmpty_iff.1 hempty] at hc
      cases hc
    · dsimp only at h
      split at h
      · next gs' hgs =>
        obtain ⟨g, hg⟩ := exists_of_mapM_eq_some hgs hp
        exact isAddressChar_of_group? hg hcp
      · cases h
      · obtain ⟨front, hfront, h⟩ := Option.bind_eq_some_iff.1 h
        obtain ⟨last, hlast, -⟩ := Option.bind_eq_some_iff.1 h
        rw [← List.dropLast_concat_getLast (pieces_ne_nil ':' cs)] at hp
        rcases List.mem_append.1 hp with hp | hp
        · obtain ⟨g, hg⟩ := exists_of_mapM_eq_some hfront hp
          exact isAddressChar_of_group? hg hcp
        · rw [List.getLastD_eq_getLast?, List.getLast?_eq_some_getLast (pieces_ne_nil ':' cs)]
            at hlast
          rw [List.mem_singleton.1 hp] at hcp
          rcases Ipv4.mem_of_ofChars? hlast hcp with h | rfl
          · exact isAddressChar_of_isDigit h
          · rfl

theorem append_of_splitGap? {cs head tail : List Char} (h : splitGap? cs = some (head, tail)) :
    cs = head ++ ':' :: ':' :: tail := by
  induction cs generalizing head tail with
  | nil => cases h
  | cons c cs ih =>
    by_cases hgap : ∃ rest, c :: cs = ':' :: ':' :: rest
    · obtain ⟨rest, hrest⟩ := hgap
      rw [hrest] at h ⊢
      cases h
      rfl
    · rw [splitGap?_cons fun rest hrest => hgap ⟨rest, hrest⟩] at h
      obtain ⟨⟨head', tail'⟩, hsplit, heq⟩ := Option.map_eq_some_iff.1 h
      cases heq
      rw [ih hsplit]
      rfl

/-- Every text of an address of the sixth version is made of these characters. -/
theorem isAddressChar_of_ofChars? {cs : List Char} {ip : Ipv6} (h : ofChars? cs = some ip)
    {c : Char} (hc : c ∈ cs) : isAddressChar c = true := by
  unfold ofChars? at h
  cases hsplit : splitGap? cs with
  | none =>
    rw [hsplit] at h
    obtain ⟨gs, hgs, -⟩ := Option.bind_eq_some_iff.1 h
    exact isAddressChar_of_run? hgs hc
  | some parts =>
    obtain ⟨head, tail⟩ := parts
    rw [hsplit] at h
    obtain ⟨front, hfront, h⟩ := Option.bind_eq_some_iff.1 h
    obtain ⟨back, hback, -⟩ := Option.bind_eq_some_iff.1 h
    rw [append_of_splitGap? hsplit] at hc
    rcases List.mem_append.1 hc with hc | hc
    · exact isAddressChar_of_run? hfront hc
    · rcases List.mem_cons.1 hc with rfl | hc
      · rfl
      · rcases List.mem_cons.1 hc with rfl | hc
        · rfl
        · exact isAddressChar_of_run? hback hc

/-- Every text of an address of the sixth version has a colon. -/
theorem colon_mem_toChars (ip : Ipv6) : ':' ∈ ip.toChars := by
  unfold toChars
  cases ip.mapped? with
  | some inner => exact List.mem_append_left _ List.mem_cons_self
  | none =>
    dsimp only
    split
    · exact List.mem_append_left _ (List.mem_append_right _ List.mem_cons_self)
    · obtain ⟨groups, hsize⟩ := ip
      match groups, hsize with
      | g :: g' :: gs, _ =>
        show ':' ∈ hexDigits g.toNat ++ ':' :: runText (g' :: gs)
        exact List.mem_append_right _ List.mem_cons_self

end Ipv6

/-! ## Either version -/

namespace Address

theorem ofChars?_toChars (a : Address) : ofChars? a.toChars = some a := by
  cases a with
  | v4 ip => simp [ofChars?, toChars, Ipv4.ofChars?_toChars]
  | v6 ip =>
    have hv4 : Ipv4.ofChars? ip.toChars = none := by
      cases h : Ipv4.ofChars? ip.toChars with
      | none => rfl
      | some ip' =>
        rcases Ipv4.mem_of_ofChars? h ip.colon_mem_toChars with h | h
        · cases h
        · cases h
    simp [ofChars?, toChars, hv4, Ipv6.ofChars?_toChars]

theorem isAddressChar_of_ofChars? {cs : List Char} {a : Address} (h : ofChars? cs = some a)
    {c : Char} (hc : c ∈ cs) : isAddressChar c = true := by
  unfold ofChars? at h
  split at h
  · next ip hip =>
    rcases Ipv4.mem_of_ofChars? hip hc with h | rfl
    · exact isAddressChar_of_isDigit h
    · rfl
  · obtain ⟨ip, hip, -⟩ := Option.map_eq_some_iff.1 h
    exact Ipv6.isAddressChar_of_ofChars? hip hc

theorem isAddressChar_of_mem_toChars {a : Address} {c : Char} (h : c ∈ a.toChars) :
    isAddressChar c = true :=
  isAddressChar_of_ofChars? a.ofChars?_toChars h

end Address

/-! ## Ends of connections -/

namespace Socket

theorem port?_digits (p : UInt16) : port? (digits p.toNat) = some p := by
  simp [port?, ofDigits?_digits, p.toNat_lt]

theorem scope?_digits (n : UInt32) : scope? (digits n.toNat) = some n := by
  simp [scope?, ofDigits?_digits, n.toNat_lt]

/-- An end of the fourth version is read back, and its text is no address. -/
theorem ofHop?_v4 (ip : Ipv4) (port : UInt16) :
    Address.ofHop? (toChars (.v4 ip port)) = some (.v4 ip) := by
  have htext : toChars (.v4 ip port) = ip.toChars ++ ':' :: digits port.toNat := rfl
  have hpieces : pieces ':' (ip.toChars ++ ':' :: digits port.toNat) =
      [ip.toChars, digits port.toNat] := by
    rw [pieces_append, pieces_of_not_mem ip.colon_not_mem_toChars,
      pieces_of_not_mem (not_mem_digits (by decide) _)]
    rfl
  have hv4 : Ipv4.ofChars? (ip.toChars ++ ':' :: digits port.toNat) = none := by
    cases h : Ipv4.ofChars? (ip.toChars ++ ':' :: digits port.toNat) with
    | none => rfl
    | some ip' =>
      rcases Ipv4.mem_of_ofChars? h (List.mem_append_right _ List.mem_cons_self) with h | h
      · cases h
      · cases h
  have hv6 : Ipv6.ofChars? (ip.toChars ++ ':' :: digits port.toNat) = none := by
    have hport := not_mem_digits (c := ':') (by decide) port.toNat
    have hskip : ∀ rest, ':' :: digits port.toNat ≠ ':' :: ':' :: rest := by
      intro rest h
      rw [(List.cons.inj h).2] at hport
      exact hport List.mem_cons_self
    have hgap : Ipv6.splitGap? (ip.toChars ++ ':' :: digits port.toNat) = none := by
      rw [Ipv6.splitGap?_append ip.colon_not_mem_toChars, Ipv6.splitGap?_cons hskip,
        Ipv6.splitGap?_of_not_mem hport]
      rfl
    have hgroup := Ipv6.group?_of_dot ip.dot_mem_toChars
    have hne : (ip.toChars ++ ':' :: digits port.toNat).isEmpty = false := by simp
    simp [Ipv6.ofChars?, hgap, Ipv6.run?, hne, hpieces, hgroup]
  have haddress : Address.ofChars? (ip.toChars ++ ':' :: digits port.toNat) = none := by
    simp [Address.ofChars?, hv4, hv6]
  have hplain : plain? (ip.toChars ++ ':' :: digits port.toNat) = some (.v4 ip port) := by
    simp [plain?, hpieces, Ipv4.ofChars?_toChars, port?_digits]
  rw [htext, Address.ofHop?, haddress]
  simp [ofChars?, hplain, address]

theorem plain?_of_bracket (cs : List Char) : plain? ('[' :: cs) = none := by
  unfold plain?
  split
  · next ip port hpieces =>
    cases hip : Ipv4.ofChars? ip with
    | none => rfl
    | some a =>
      cases hport : port? port with
      | none => rfl
      | some n =>
        exfalso
        have hbracket : '[' ∈ '[' :: cs := List.mem_cons_self
        obtain ⟨p, hp, hmem⟩ := mem_pieces_of_mem hbracket (show '[' ≠ ':' by decide)
        rw [hpieces] at hp
        rcases List.mem_cons.1 hp with rfl | hp
        · rcases Ipv4.mem_of_ofChars? hip hmem with h | h
          · cases h
          · cases h
        · rw [List.mem_singleton.1 hp] at hmem
          obtain ⟨m, hm, -⟩ := Option.bind_eq_some_iff.1 hport
          have := isDigit_of_ofDigits? hm '[' hmem
          cases this
  · rfl

/-- An end of the sixth version is read back, with or without a scope. -/
theorem ofHop?_v6 (ip : Ipv6) (scope : UInt32) (port : UInt16) :
    Address.ofHop? (toChars (.v6 ip scope port)) = some (.v6 ip) := by
  have hip (c : Char) (h : isAddressChar c = false) : c ∉ ip.toChars := by
    intro hc
    have := Address.isAddressChar_of_mem_toChars (a := .v6 ip) hc
    rw [h] at this
    cases this
  obtain ⟨zone, hzone⟩ : ∃ zone, zone = if scope = 0 then [] else '%' :: digits scope.toNat :=
    ⟨_, rfl⟩
  have htext : toChars (.v6 ip scope port) =
      '[' :: ((ip.toChars ++ zone) ++ ']' :: ':' :: digits port.toNat) := by
    simp [toChars, hzone]
  have hinner : ']' ∉ ip.toChars ++ zone := by
    intro h
    rcases List.mem_append.1 h with h | h
    · exact hip ']' (by decide) h
    · rw [hzone] at h
      split at h
      · cases h
      · rcases List.mem_cons.1 h with h | h
        · cases h
        · exact not_mem_digits (by decide) _ h
  have hport : ']' ∉ ':' :: digits port.toNat := by
    intro h
    rcases List.mem_cons.1 h with h | h
    · cases h
    · exact not_mem_digits (by decide) _ h
  have hpieces : pieces ']' ((ip.toChars ++ zone) ++ ']' :: ':' :: digits port.toNat) =
      [ip.toChars ++ zone, ':' :: digits port.toNat] := by
    rw [pieces_append, pieces_of_not_mem hinner, pieces_of_not_mem hport]
    rfl
  have hbracketed : bracketed? ('[' :: ((ip.toChars ++ zone) ++ ']' :: ':' :: digits port.toNat)) =
      some (.v6 ip scope port) := by
    simp only [bracketed?, hpieces]
    by_cases hscope : scope = 0
    · have hcut : pieces '%' (ip.toChars ++ zone) = [ip.toChars] := by
        rw [hzone, if_pos hscope, List.append_nil]
        exact pieces_of_not_mem (hip '%' (by decide))
      rw [hcut]
      simp [Ipv6.ofChars?_toChars, port?_digits, hscope]
    · have hcut : pieces '%' (ip.toChars ++ zone) = [ip.toChars, digits scope.toNat] := by
        rw [hzone, if_neg hscope, pieces_append, pieces_of_not_mem (hip '%' (by decide)),
          pieces_of_not_mem (not_mem_digits (by decide) _)]
        rfl
      rw [hcut]
      simp [Ipv6.ofChars?_toChars, port?_digits, scope?_digits]
  have haddress : Address.ofChars? ('[' :: ((ip.toChars ++ zone) ++ ']' :: ':' ::
      digits port.toNat)) = none := by
    cases h : Address.ofChars? ('[' :: ((ip.toChars ++ zone) ++ ']' :: ':' ::
        digits port.toNat)) with
    | none => rfl
    | some a =>
      have := Address.isAddressChar_of_ofChars? h (List.mem_cons_self : '[' ∈ _)
      cases this
  rw [htext, Address.ofHop?, haddress]
  simp only [ofChars?, plain?_of_bracket, hbracketed]
  rfl

/-- The text of one end of a connection is read as its address. -/
theorem ofHop?_toChars (s : Socket) : Address.ofHop? s.toChars = some s.address := by
  cases s with
  | v4 ip port => exact ofHop?_v4 ip port
  | v6 ip scope port => exact ofHop?_v6 ip scope port

/-- The characters of an end of a connection are visible. -/
theorem visible_of_mem_toChars {s : Socket} {c : Char} (h : c ∈ s.toChars) :
    0x21 ≤ c.toNat ∧ c.toNat ≤ 0x7E := by
  have haddress {c : Char} (h : isAddressChar c = true) : 0x21 ≤ c.toNat ∧ c.toNat ≤ 0x7E :=
    ⟨Nat.le_trans (by decide) (toNat_of_isAddressChar h).1,
      Nat.le_trans (toNat_of_isAddressChar h).2 (by decide)⟩
  have hdigits {n : Nat} {c : Char} (h : c ∈ digits n) : 0x21 ≤ c.toNat ∧ c.toNat ≤ 0x7E :=
    haddress (isAddressChar_of_isDigit (isDigit_of_mem_digits h))
  cases s with
  | v4 ip port =>
    rcases List.mem_append.1 h with h | h
    · exact haddress (Address.isAddressChar_of_mem_toChars (a := .v4 ip) h)
    · rcases List.mem_cons.1 h with rfl | h
      · decide
      · exact hdigits h
  | v6 ip scope port =>
    simp only [toChars] at h
    rcases List.mem_append.1 h with h | h
    · rcases List.mem_append.1 h with h | h
      · rcases List.mem_append.1 h with h | h
        · rcases List.mem_cons.1 h with rfl | h
          · decide
          · exact haddress (Address.isAddressChar_of_mem_toChars (a := .v6 ip) h)
        · split at h
          · cases h
          · rcases List.mem_cons.1 h with rfl | h
            · decide
            · exact hdigits h
      · rcases List.mem_cons.1 h with rfl | h
        · decide
        · rw [List.mem_singleton.1 h]
          decide
    · exact hdigits h

end Socket

end Latchkey.Net
