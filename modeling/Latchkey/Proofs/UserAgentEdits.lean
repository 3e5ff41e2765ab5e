import Latchkey.Origin
import Latchkey.Proofs.Fingerprints
import Latchkey.Proofs.UserAgents

/-!
# Edited user agents

A version that is read may be edited in its separators, by empty numbers and behind its second
number. As long as this puts in none of the tokens that are looked for, all of them stay where they
are, so the agent stays the same and a device on record is seen again.
-/

namespace Latchkey

open Text

namespace Agent

variable {text front version back middle : List Char} {token : String} {s : Sighting}

/-! ## Tokens and middles -/

/-- What stands between two texts puts in none of the tokens that are looked for: each place of one
is in the text before or in the text behind. -/
def AddsNoToken (front middle back : List Char) : Prop :=
  ∀ token ∈ recognizedTokens, Avoids token.toList front middle back

theorem addsNoToken_of_disjoint (hne : middle ≠ [])
    (h : ∀ token ∈ recognizedTokens, ∀ c ∈ middle, c ∉ token.toList) (front back : List Char) :
    AddsNoToken front middle back := by
  have hempty : ∀ token ∈ recognizedTokens, token.toList ≠ [] := by decide +kernel
  exact fun token htoken => avoids_of_disjoint hne (hempty token htoken) (h token htoken)

/-- Digits and separators put in no token. -/
theorem addsNoToken_of_isVersion (hne : middle ≠ []) (h : IsVersion middle)
    (front back : List Char) : AddsNoToken front middle back := by
  have hchars : ∀ token ∈ recognizedTokens,
      (token.toList.all fun c => !isVersionChar c) = true := by decide +kernel
  refine addsNoToken_of_disjoint hne (fun token htoken c hc hmem => ?_) front back
  have hchar := List.all_eq_true.1 (hchars token htoken) c hmem
  rw [h c hc] at hchar
  cases hchar

/-- The tokens that go on behind the one of a phone's system. -/
def desktopMarks : List String :=
  ["Mac OS X", "Mac OS X "]

/-- No token goes on behind another one that a version is read behind, but for that of a desktop,
which goes on behind the one of a phone. -/
theorem not_isSuffix_take : ∀ mark ∈ browserMarks ++ systemVersionMarks,
    ∀ token ∈ recognizedTokens, (mark = "OS " → token ∉ desktopMarks) →
    ∀ k < token.toList.length, 0 < k →
      ¬token.toList.take k <:+ mark.toList ∧ ¬mark.toList <:+ token.toList.take k := by
  decide +kernel

theorem avoids_version {mark : String} (hmark : mark ∈ browserMarks ++ systemVersionMarks)
    (htoken : token ∈ recognizedTokens)
    (hdesktop : mark = "OS " → token ∉ desktopMarks) (hversion : IsVersion version)
    (front back : List Char) : Avoids token.toList (front ++ mark.toList) version back := by
  by_cases hnil : version = []
  · subst hnil
    refine avoids_nil fun k hpos hlt hsuffix => ?_
    obtain ⟨htake, hmarkSuffix⟩ := not_isSuffix_take mark hmark token htoken hdesktop k hlt hpos
    rcases List.suffix_or_suffix_of_suffix hsuffix (List.suffix_append front mark.toList) with
      h | h
    · exact htake h
    · exact hmarkSuffix h
  · exact addsNoToken_of_isVersion hnil hversion _ _ token htoken

/-- The version behind a token is none of the middle if another token, which ends otherwise, stands
right before it. -/
theorem versionAfter_of_avoids {mark : String} {c d : Char} (hmark : mark.toList.getLast? = some c)
    (hc : isVersionChar c = false) (htoken : token.toList.getLast? = some d) (hne : c ≠ d)
    (h : Avoids token.toList (front ++ mark.toList) middle back) :
    versionAfter (front ++ mark.toList ++ middle ++ back) token =
      (((after? token.toList (front ++ mark.toList)).or (after? token.toList back)).getD
        []).takeWhile isVersionChar := by
  rw [versionAfter, h.after?_eq]
  cases hafter : after? token.toList (front ++ mark.toList) with
  | none => rfl
  | some rest =>
    obtain ⟨u, hfirst⟩ := after?_eq_some_iff.1 hafter
    -- what stands behind the place ends as the mark does, and so ends a version before the middle
    have hlast := congrArg List.getLast? hfirst.split
    rw [List.getLast?_append, hmark, List.getLast?_append, List.getLast?_append, htoken] at hlast
    show (rest ++ (middle ++ back)).takeWhile isVersionChar = rest.takeWhile isVersionChar
    rcases isVersion_or_takeWhile_append rest with hrest | hrest
    · cases hend : rest.getLast? with
      | none =>
        rw [hend] at hlast
        exact (hne (Option.some.inj hlast)).elim
      | some e =>
        rw [hend] at hlast
        obtain rfl : c = e := Option.some.inj hlast
        rw [hrest c (List.mem_of_getLast? hend)] at hc
        cases hc
    · exact hrest _

theorem VersionText.parts_eq {mark : String} (h : VersionText text mark front version back)
    (htoken : s.versionToken = some mark) (middle : List Char) :
    s.parts (front ++ mark.toList ++ middle ++ back) = leadingParts middle := by
  have hfront : FirstAt mark.toList (front ++ mark.toList) front [] := by
    refine ⟨(List.append_nil _).symm, fun u v heq => h.first.first u (v ++ (version ++ back)) ?_⟩
    rw [h.first.split, heq, List.append_assoc (u ++ mark.toList)]
  have hfirst := hfront.append (middle ++ back)
  rw [← List.append_assoc, List.nil_append] at hfirst
  simp only [Sighting.parts, htoken, versionAfter, hfirst.after?_eq, Option.getD_some,
    takeWhile_append_of_head h.longest, leadingParts]

theorem parts_of_avoids {mark : String} {edited : List Char} {c d : Char}
    (hmark : mark.toList.getLast? = some c) (hc : isVersionChar c = false) (hne : c ≠ d)
    (htoken : ∀ token, s.versionToken = some token → token.toList.getLast? = some d ∧
      Avoids token.toList (front ++ mark.toList) version back ∧
        Avoids token.toList (front ++ mark.toList) edited back) :
    s.parts (front ++ mark.toList ++ edited ++ back) =
      s.parts (front ++ mark.toList ++ version ++ back) := by
  cases hs : s.versionToken with
  | none => simp only [Sighting.parts, hs]
  | some token =>
    obtain ⟨hlast, havoids, hedited⟩ := htoken token hs
    simp only [Sighting.parts, hs, versionAfter_of_avoids hmark hc hlast hne havoids,
      versionAfter_of_avoids hmark hc hlast hne hedited]

/-! ## Edited headers -/

/-- A text in which a version that is read was edited, without putting in a token. -/
inductive Edited (text : List Char) : List Char → Prop
  | version {mark : String} {front version back edited : List Char}
      (hread : (browser text).versionToken = some mark ∨ (os text).versionToken = some mark)
      (hversion : VersionText text mark front version back)
      (hedits : Relation.ReflTransGen Edit version edited)
      (hadds : AddsNoToken (front ++ mark.toList) edited back) :
      Edited text (front ++ mark.toList ++ edited ++ back)

/-- The tokens of browsers and those before versions of systems end otherwise. -/
theorem getLast?_marks :
    (∀ mark ∈ browserMarks, mark.toList.getLast? = some '/' ∧ mark ∈ recognizedTokens ∧
      mark ∉ "OS " :: desktopMarks) ∧
    ∀ mark ∈ systemVersionMarks, mark.toList.getLast? = some ' ' ∧ mark ∈ recognizedTokens := by
  decide +kernel

namespace Edited

variable {text' : List Char}

/-- The middles of both texts are avoided by all tokens, but for that of a desktop beside a
phone. -/
theorem exists_avoids (h : Edited text text') : ∃ mark front version back edited,
    text' = front ++ mark.toList ++ edited ++ back ∧
    VersionText text mark front version back ∧
    ((browser text).versionToken = some mark ∨ (os text).versionToken = some mark) ∧
    (leadingParts edited).take 2 = (leadingParts version).take 2 ∧
    ∀ token ∈ recognizedTokens, (mark = "OS " → token ∉ desktopMarks) →
      Avoids token.toList (front ++ mark.toList) version back ∧
        Avoids token.toList (front ++ mark.toList) edited back := by
  obtain ⟨hread, hversion, hedits, hadds⟩ := h
  refine ⟨_, _, _, _, _, rfl, hversion, hread, take_leadingParts_of_edits hedits, ?_⟩
  intro token htoken hdesktop
  refine ⟨avoids_version ?_ htoken hdesktop hversion.version _ _, hadds token htoken⟩
  exact List.mem_append.2 (hread.imp mem_browserMarks mem_systemVersionMarks)

theorem mentions_eq (h : Edited text text') (htoken : token ∈ recognizedTokens)
    (hdesktop : (os text).versionToken = some "OS " → token ∉ desktopMarks) :
    mentions text' token = mentions text token := by
  obtain ⟨mark, front, version, back, edited, rfl, hversion, hread, -, havoids⟩ := h.exists_avoids
  obtain ⟨hold, hnew⟩ := havoids token htoken fun hmark => by
    subst hmark
    refine hdesktop (hread.resolve_left fun hbrowser => ?_)
    exact ((getLast?_marks.1 "OS " (mem_browserMarks hbrowser)).2.2 (by decide)).elim
  rw [Bool.eq_iff_iff, mentions_iff, mentions_iff, hnew.isInfix_iff, hversion.split,
    hold.isInfix_iff]

theorem browser_eq (h : Edited text text') : browser text' = browser text := by
  refine browser_congr fun token htoken => ?_
  obtain ⟨-, hrecognized, hdesktop⟩ := getLast?_marks.1 token htoken
  exact h.mentions_eq hrecognized fun _ hmem => hdesktop (List.mem_cons_of_mem _ hmem)

theorem os_eq (h : Edited text text') : os text' = os text := by
  have hphone : ∀ token ∈ phoneMarks,
      token ∈ recognizedTokens ∧ token ∉ desktopMarks := by decide +kernel
  have hsystem : ∀ token ∈ systemMarks, token ∈ recognizedTokens := by decide +kernel
  refine os_congr (fun token htoken => ?_) fun hos token htoken => ?_
  · exact h.mentions_eq (hphone token htoken).1 fun _ => (hphone token htoken).2
  · exact h.mentions_eq (hsystem token htoken) fun hphoneToken => (hos hphoneToken).elim

theorem take_parts_eq (h : Edited text text') :
    ((browser text).parts text').take 2 = ((browser text).parts text).take 2 ∧
      ((os text).parts text').take 2 = ((os text).parts text).take 2 := by
  obtain ⟨mark, front, version, back, edited, rfl, hversion, hread, htake, havoids⟩ :=
    h.exists_avoids
  obtain ⟨hbrowserMarks, hsystemMarks⟩ := getLast?_marks
  have hsame : ∀ s : Sighting, s.versionToken = some mark →
      (s.parts (front ++ mark.toList ++ edited ++ back)).take 2 = (s.parts text).take 2 := by
    intro s hs
    rw [hversion.parts_eq hs, htake, hversion.split, hversion.parts_eq hs]
  rcases hread with hbrowser | hos
  · refine ⟨hsame _ hbrowser, ?_⟩
    obtain ⟨hlast, -, hnot⟩ := hbrowserMarks mark (mem_browserMarks hbrowser)
    rw [parts_of_avoids hlast (by decide) (d := ' ') (by decide), ← hversion.split]
    intro token htoken
    obtain ⟨hlast', hrecognized⟩ := hsystemMarks token (mem_systemVersionMarks htoken)
    refine ⟨hlast', havoids token hrecognized fun hmark => ?_⟩
    exact (hnot (hmark ▸ List.mem_cons_self)).elim
  · refine ⟨?_, hsame _ hos⟩
    obtain ⟨hlast, -⟩ := hsystemMarks mark (mem_systemVersionMarks hos)
    rw [parts_of_avoids hlast (by decide) (d := '/') (by decide), ← hversion.split]
    intro token htoken
    obtain ⟨hlast', hrecognized, hnot⟩ := hbrowserMarks token (mem_browserMarks htoken)
    exact ⟨hlast', havoids token hrecognized fun _ hmem => hnot (List.mem_cons_of_mem _ hmem)⟩

end Edited

/-- An edited version tells the same agent. -/
theorem ofUserAgent_of_edited {header header' : String}
    (h : Edited header.toList header'.toList) : ofUserAgent header' = ofUserAgent header := by
  obtain ⟨hbrowser, hos⟩ := h.take_parts_eq
  have hpart : ∀ {ps qs : List (List Char)} {i : Nat}, ps.take 2 = qs.take 2 → i < 2 →
      ps[i]? = qs[i]? := by
    intro ps qs i heq hi
    rw [← List.getElem?_take_of_lt hi, heq, List.getElem?_take_of_lt hi]
  simp only [ofUserAgent, h.browser_eq, h.os_eq, hpart hbrowser Nat.zero_lt_two,
    hpart hbrowser Nat.one_lt_two, hpart hos Nat.zero_lt_two, hpart hos Nat.one_lt_two]

/-- Two requests from one place whose user agents tell the same have one origin. -/
theorem isSeen_of_agents {table : GeoTable} {c c' : Caller} {f f' : Fingerprint}
    (hagent : ofUserAgent (c'.userAgent.getD "") = ofUserAgent (c.userAgent.getD ""))
    (h : c.fingerprint? table = some f) (h' : c'.fingerprint? table = some f')
    (hplace : f'.place = f.place) {trail : List SecurityEntry}
    (hseen : ∃ e ∈ trail, e.fingerprint = some f) : Origin.isSeen trail f' = true := by
  obtain ⟨_, -, -, -, hf⟩ := Caller.fingerprint?_eq_some_iff.1 h
  obtain ⟨_, -, -, -, hf'⟩ := Caller.fingerprint?_eq_some_iff.1 h'
  obtain ⟨e, he, hentry⟩ := hseen
  refine List.any_eq_true.2 ⟨f, List.mem_filterMap.2 ⟨e, he, hentry⟩, ?_⟩
  simp [Fingerprint.sameOrigin, hplace, hf, hf', hagent]

/-- Whatever the header, the tokens that stand among its bytes are those that are mentioned, and a
version is cut out of them without a cut inside of a character. The agent is well-formed, and its
numbers are the first two runs of digits behind the first place of a token. They stay when the
version is edited in its separators, by empty numbers or behind its second number without putting in
a token, so that a device on record is seen again. -/
theorem ofUserAgent_reads (header : String) :
    (∀ token, (offset? (bytes token) (bytes header)).isSome = mentions header.toList token ∧
      slicedVersion? header token = some (String.ofList (versionAfter header.toList token))) ∧
    (ofUserAgent header).IsWellFormed ∧
    Reads header.toList (browser header.toList) (ofUserAgent header).browserMajor
      (ofUserAgent header).browserMinor ∧
    Reads header.toList (os header.toList) (ofUserAgent header).osMajor
      (ofUserAgent header).osMinor ∧
    ∀ header' : String, Edited header.toList header'.toList →
      ofUserAgent header' = ofUserAgent header ∧
      ∀ (table : GeoTable) (c c' : Caller) (f f' : Fingerprint) (trail : List SecurityEntry),
        c.userAgent.getD "" = header → c'.userAgent.getD "" = header' →
        c.fingerprint? table = some f → c'.fingerprint? table = some f' → f'.place = f.place →
        (∃ e ∈ trail, e.fingerprint = some f) → Origin.isSeen trail f' = true := by
  refine ⟨fun token => ⟨isSome_offset?_eq header token, slicedVersion?_eq header token⟩,
    isWellFormed_ofUserAgent header, reads_parts _ _, reads_parts _ _, fun header' h => ?_⟩
  have hagent := ofUserAgent_of_edited h
  refine ⟨hagent, fun table c c' f f' trail hc hc' hf hf' hplace hseen => ?_⟩
  exact isSeen_of_agents (by rw [hc, hc', hagent]) hf hf' hplace hseen

/-- A tablet, and the same one after its version was edited in all three ways. -/
def tabletHeaders : String × String :=
  ("(iPad; CPU OS 17_1_2 like Mac OS X) Version/17.1 Safari/604.1",
    "(iPad; CPU OS 17..1_β3 like Mac OS X) Version/17.1 Safari/604.1")

theorem ofUserAgent_reads_tablet : ofUserAgent tabletHeaders.2 = ofUserAgent tabletHeaders.1 ∧
    ofUserAgent tabletHeaders.1 =
      ⟨"iOS", some "17", some "1", "Safari", some "17", some "1"⟩ := by
  have hedits : Relation.ReflTransGen Edit "17_1_2".toList "17..1_β3".toList := by
    have hseparator := Edit.separator "17".toList "1_2".toList
    have hempty : Edit ("17.".toList ++ "1_2".toList) ("17.".toList ++ '.' :: "1_2".toList) :=
      .emptyNumber (by decide) (by decide)
    have hlater : Edit ("17..1_".toList ++ "2".toList) ("17..1_".toList ++ "β3".toList) :=
      .later (by decide) (by decide) (by decide) (by decide)
    exact ((Relation.ReflTransGen.single hseparator).tail hempty).tail hlater
  have hread : (os tabletHeaders.1.toList).versionToken = some "OS " := by decide +kernel
  have hversion : VersionText tabletHeaders.1.toList "OS " "(iPad; CPU ".toList
      "17_1_2".toList " like Mac OS X) Version/17.1 Safari/604.1".toList := by decide +kernel
  have hnew : ∀ token ∈ recognizedTokens,
      ("17..1_β3".toList.all fun c => !token.toList.contains c) = true := by decide +kernel
  have hedited := Edited.version (.inr hread) hversion hedits
    (addsNoToken_of_disjoint (by decide) (fun token htoken c hc => by
      simpa using List.all_eq_true.1 (hnew token htoken) c hc) _ _)
  have hsplit : tabletHeaders.2.toList = "(iPad; CPU ".toList ++ "OS ".toList ++
      "17..1_β3".toList ++ " like Mac OS X) Version/17.1 Safari/604.1".toList := by
    decide +kernel
  rw [← hsplit] at hedited
  obtain ⟨-, -, -, -, hstays⟩ := ofUserAgent_reads tabletHeaders.1
  exact ⟨(hstays tabletHeaders.2 hedited).1, by decide +kernel⟩

/-- A token that is put in behind the second number is read in place of the one that was there. -/
example : (ofUserAgent "Windows NT 10.0.1 Chrome/120").browserMajor = some "120" ∧
    (ofUserAgent "Windows NT 10.0.Chrome/99 Chrome/120").browserMajor = some "99" := by
  decide +kernel

end Agent

end Latchkey
