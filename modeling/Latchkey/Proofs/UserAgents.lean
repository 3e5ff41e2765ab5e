import Latchkey.Proofs.Text.Slices
import Latchkey.Proofs.Versions

/-!
# User agents

Every text is a user agent. What an agent shows of its versions is read behind the first place of
one token for the browser and of one for the system: the first two runs of digits. The tokens and
the ends of versions are found among the bytes of a text as they are among its characters.
-/

namespace Latchkey

open Text

namespace Agent

variable {text front version back : List Char} {token : String} {s : Sighting}

/-! ## Tokens -/

/-- The tokens that browsers are told by and that their versions follow. -/
def browserMarks : List String :=
  browserTokens.map (·.1) ++ ["Safari/", "Version/", "curl/"]

/-- The tokens of phones with one system. -/
def phoneMarks : List String :=
  ["iPhone", "iPad", "iPod"]

/-- The tokens that other systems are told by. -/
def systemMarks : List String :=
  ["Android", "Windows", "Mac OS X", "CrOS", "Linux"]

/-- The tokens that versions of systems follow. -/
def systemVersionMarks : List String :=
  ["OS ", "Android ", "Windows NT ", "Mac OS X "]

/-- All that is looked for in a text. -/
def recognizedTokens : List String :=
  browserMarks ++ phoneMarks ++ systemMarks ++ systemVersionMarks

theorem mentions_iff : mentions text token = true ↔ token.toList <:+: text :=
  occurs_iff

theorem browser_congr {text' : List Char}
    (h : ∀ token ∈ browserMarks, mentions text' token = mentions text token) :
    browser text' = browser text := by
  simp only [browser, browserTokens, List.find?_cons, List.find?_nil, h "Edg/" (by decide),
    h "OPR/" (by decide), h "Firefox/" (by decide), h "Chrome/" (by decide),
    h "Safari/" (by decide), h "curl/" (by decide)]

theorem mem_browserMarks (h : (browser text).versionToken = some token) :
    token ∈ browserMarks := by
  rw [browser] at h
  split at h
  · next entry _ hfind =>
    obtain rfl := Option.some.inj h
    exact List.mem_append_left _ (List.mem_map_of_mem (List.mem_of_find?_eq_some hfind))
  · split at h
    · obtain rfl := Option.some.inj h
      decide
    · split at h
      · obtain rfl := Option.some.inj h
        decide
      · cases h

/-- The system of a phone is told by the phone alone. -/
theorem os_cases (text : List Char) :
    (os text = ⟨"iOS", some "OS "⟩ ∧ ∃ token ∈ phoneMarks, mentions text token = true) ∨
      (∀ token ∈ phoneMarks, mentions text token = false) ∧
        (os text).versionToken ∈ [some "Android ", some "Windows NT ", some "Mac OS X ", none] := by
  by_cases h : ∃ token ∈ phoneMarks, mentions text token = true
  · left
    refine ⟨if_pos ?_, h⟩
    simpa [phoneMarks, or_assoc] using h
  · right
    have hnone : ∀ token ∈ phoneMarks, mentions text token = false := by simpa using h
    refine ⟨hnone, ?_⟩
    rw [os, hnone "iPhone" (by decide), hnone "iPad" (by decide), hnone "iPod" (by decide),
      if_neg (by decide)]
    split_ifs <;> simp

theorem mem_systemVersionMarks (h : (os text).versionToken = some token) :
    token ∈ systemVersionMarks := by
  rcases os_cases text with ⟨hos, -⟩ | ⟨-, hos⟩
  · rw [hos] at h
    obtain rfl := Option.some.inj h
    decide
  · rw [h] at hos
    simp only [List.mem_cons, Option.some.injEq, reduceCtorEq, List.not_mem_nil, or_false] at hos
    rcases hos with rfl | rfl | rfl <;> decide

theorem os_congr {text' : List Char}
    (hphone : ∀ token ∈ phoneMarks, mentions text' token = mentions text token)
    (hsystem : (os text).versionToken ≠ some "OS " →
      ∀ token ∈ systemMarks, mentions text' token = mentions text token) :
    os text' = os text := by
  -- beside a phone the tokens of other systems are not looked at, and one of them may be cut
  rcases os_cases text with ⟨hos, token, htoken, hmentions⟩ | ⟨hnone, hos⟩
  · rcases os_cases text' with ⟨hos', -⟩ | ⟨hnone', -⟩
    · rw [hos, hos']
    · rw [← hphone token htoken, hnone' token htoken] at hmentions
      cases hmentions
  · have hsame := hsystem fun hphoneToken => by simp [hphoneToken] at hos
    rw [os, os, hphone "iPhone" (by decide), hphone "iPad" (by decide), hphone "iPod" (by decide),
      hsame "Android" (by decide), hsame "Windows" (by decide), hsame "Mac OS X" (by decide),
      hsame "CrOS" (by decide), hsame "Linux" (by decide)]

/-! ## Texts of versions -/

/-- What a text holds behind the first place of a token, up to where the version ends. -/
structure VersionText (text : List Char) (token : String) (front version back : List Char) :
    Prop where
  first : FirstAt token.toList text front (version ++ back)
  version : IsVersion version
  longest : ∀ c ∈ back.head?, isVersionChar c = false

instance (text : List Char) (token : String) (front version back : List Char) :
    Decidable (VersionText text token front version back) :=
  have : Decidable (∀ c ∈ back.head?, isVersionChar c = false) := Option.decidableForallMem _
  decidable_of_iff (FirstAt token.toList text front (version ++ back) ∧ IsVersion version ∧
    ∀ c ∈ back.head?, isVersionChar c = false)
    ⟨fun ⟨hfirst, hversion, hlongest⟩ => ⟨hfirst, hversion, hlongest⟩,
      fun ⟨hfirst, hversion, hlongest⟩ => ⟨hfirst, hversion, hlongest⟩⟩

namespace VersionText

theorem split (h : VersionText text token front version back) :
    text = front ++ token.toList ++ version ++ back := by
  rw [h.first.split, List.append_assoc _ version]

theorem versionAfter_eq (h : VersionText text token front version back) :
    versionAfter text token = version := by
  rw [versionAfter, h.first.after?_eq, Option.getD_some, takeWhile_append_of_head h.longest,
    List.takeWhile_eq_self_iff.2 h.version]

/-- Behind each token that is mentioned there is a version, maybe an empty one. -/
theorem exists_of_mentions (h : mentions text token = true) :
    ∃ front version back, VersionText text token front version back := by
  obtain ⟨front, rest, hfirst⟩ := exists_firstAt (mentions_iff.1 h)
  refine ⟨front, rest.takeWhile isVersionChar, rest.dropWhile isVersionChar, ?_,
    isVersion_takeWhile rest, ?_⟩
  · rwa [List.takeWhile_append_dropWhile]
  · intro c hc
    have hstop := List.head?_dropWhile_not isVersionChar rest
    rwa [hc] at hstop

end VersionText

theorem versionAfter_of_not_mentions (h : mentions text token = false) :
    versionAfter text token = [] := by
  rw [mentions, occurs, Option.isSome_eq_false_iff, Option.isNone_iff_eq_none] at h
  rw [versionAfter, h]
  rfl

/-! ## Readings -/

/-- The two numbers that are read for a sighting. -/
inductive Reads (text : List Char) (s : Sighting) : Option String → Option String → Prop
  | unversioned (h : s.versionToken = none) : Reads text s none none
  | unmentioned {token : String} (h : s.versionToken = some token)
      (hmentions : mentions text token = false) : Reads text s none none
  | behind {token : String} {front version back : List Char} {runs : List (List Char)}
      (h : s.versionToken = some token) (hversion : VersionText text token front version back)
      (hruns : Runs version runs) :
      Reads text s (runs[0]?.map String.ofList) (runs[1]?.map String.ofList)

theorem reads_parts (s : Sighting) (text : List Char) :
    Reads text s ((s.parts text)[0]?.map String.ofList) ((s.parts text)[1]?.map String.ofList) := by
  cases htoken : s.versionToken with
  | none =>
    simp only [Sighting.parts, htoken]
    exact .unversioned htoken
  | some token =>
    simp only [Sighting.parts, htoken]
    cases hmentions : mentions text token with
    | false =>
      rw [versionAfter_of_not_mentions hmentions]
      exact .unmentioned htoken hmentions
    | true =>
      obtain ⟨front, version, back, hversion⟩ := VersionText.exists_of_mentions hmentions
      rw [hversion.versionAfter_eq]
      exact .behind htoken hversion ((runs_iff hversion.version).2 rfl)

/-- A number as it is shown, if there is one. -/
def IsNumber (part : Option String) : Prop :=
  ∀ number ∈ part, number ≠ "" ∧ ∀ c ∈ number.toList, isDigit c = true

namespace Reads

variable {major minor : Option String}

theorem isNumber (h : Reads text s major minor) : IsNumber major ∧ IsNumber minor := by
  cases h with
  | unversioned h => exact ⟨nofun, nofun⟩
  | unmentioned h hmentions => exact ⟨nofun, nofun⟩
  | @behind token front version back runs h hversion hruns =>
    have hpart : ∀ i : Nat, IsNumber (runs[i]?.map String.ofList) := by
      intro i number hnumber
      obtain ⟨run, hrun, rfl⟩ := Option.map_eq_some_iff.1 hnumber
      obtain ⟨hne, hdigits⟩ := hruns.digits (List.mem_of_getElem? hrun)
      rw [String.toList_ofList]
      refine ⟨fun hempty => hne ?_, hdigits⟩
      rw [← String.toList_ofList (l := run), hempty]
      rfl
    exact ⟨hpart 0, hpart 1⟩

theorem isSome_major (h : Reads text s major minor) (hminor : minor.isSome = true) :
    major.isSome = true := by
  cases h with
  | unversioned h => cases hminor
  | unmentioned h hmentions => cases hminor
  | @behind token front version back runs h hversion hruns =>
    cases runs with
    | nil => cases hminor
    | cons run runs => rfl

theorem eq_none (h : Reads text s major minor) (htoken : s.versionToken = none) :
    major = none ∧ minor = none := by
  cases h with
  | unversioned h => exact ⟨rfl, rfl⟩
  | unmentioned h hmentions => exact ⟨rfl, rfl⟩
  | behind h hversion hruns =>
    rw [h] at htoken
    cases htoken

end Reads

/-- What holds of the versions of every agent. -/
structure IsWellFormed (a : Agent) : Prop where
  osNumbers : IsNumber a.osMajor ∧ IsNumber a.osMinor
  browserNumbers : IsNumber a.browserMajor ∧ IsNumber a.browserMinor
  osMinor : a.osMinor.isSome = true → a.osMajor.isSome = true
  browserMinor : a.browserMinor.isSome = true → a.browserMajor.isSome = true
  os : a.osFamily ∈ ["Other", "Linux", "Chrome OS"] → a.osMajor = none ∧ a.osMinor = none
  browser : a.browserFamily ∈ ["Other", "Linux", "Chrome OS"] →
    a.browserMajor = none ∧ a.browserMinor = none

theorem versionToken_os (h : (os text).family ∈ ["Other", "Linux", "Chrome OS"]) :
    (os text).versionToken = none := by
  revert h
  unfold os
  split_ifs <;> simp [otherFamily]

theorem versionToken_browser (h : (browser text).family ∈ ["Other", "Linux", "Chrome OS"]) :
    (browser text).versionToken = none := by
  revert h
  unfold browser
  split
  · next token family hfind =>
    have hall : ∀ entry ∈ browserTokens, entry.2 ∉ ["Other", "Linux", "Chrome OS"] := by decide
    exact fun h => (hall _ (List.mem_of_find?_eq_some hfind) h).elim
  · split_ifs <;> simp [otherFamily]

theorem isWellFormed_ofUserAgent (header : String) : (ofUserAgent header).IsWellFormed := by
  have hos := reads_parts (os header.toList) header.toList
  have hbrowser := reads_parts (browser header.toList) header.toList
  exact {
    osNumbers := hos.isNumber
    browserNumbers := hbrowser.isNumber
    osMinor := hos.isSome_major
    browserMinor := hbrowser.isSome_major
    os := fun h => hos.eq_none (versionToken_os h)
    browser := fun h => hbrowser.eq_none (versionToken_browser h) }

/-! ## Offsets -/

/-- The version behind a token as it is cut out by offsets among the bytes of a header. There is
no answer if one of the two cuts is inside of a character. -/
def slicedVersion? (header token : String) : Option String :=
  match offset? (bytes token) (bytes header) with
  | none => some ""
  | some i => do
    let rest ← sliceFrom? header (i + token.utf8ByteSize)
    sliceTo? rest (String.ofList (rest.toList.takeWhile isVersionChar)).utf8ByteSize

theorem isSome_offset?_eq (header token : String) :
    (offset? (bytes token) (bytes header)).isSome = mentions header.toList token := by
  rw [Bool.eq_iff_iff, mentions_iff, ← bytes_isInfix_iff, Option.isSome_iff_ne_none, ne_eq,
    offset?_eq_none_iff, not_not]

/-- No cut is inside of a character, and what is cut out is what is read. -/
theorem slicedVersion?_eq (header token : String) :
    slicedVersion? header token = some (String.ofList (versionAfter header.toList token)) := by
  rw [slicedVersion?]
  cases hoffset : offset? (bytes token) (bytes header) with
  | none =>
    have hmentions := isSome_offset?_eq header token
    rw [hoffset] at hmentions
    rw [versionAfter_of_not_mentions hmentions.symm]
  | some i =>
    obtain ⟨u, v, hfirst, rfl⟩ := exists_firstAt_of_offset? hoffset
    obtain ⟨front, rest, hheader, rfl, hfirst'⟩ := exists_firstAt_of_bytes hfirst
    have hrest : sliceFrom? header ((bytes front).length + token.utf8ByteSize) = some rest := by
      rw [hheader, length_bytes, ← String.utf8ByteSize_append, sliceFrom?_append]
    have hversion : versionAfter header.toList token = rest.toList.takeWhile isVersionChar := by
      rw [versionAfter, hfirst'.after?_eq, Option.getD_some]
    have hcut := sliceTo?_append (String.ofList (rest.toList.takeWhile isVersionChar))
      (String.ofList (rest.toList.dropWhile isVersionChar))
    rw [← String.ofList_append, List.takeWhile_append_dropWhile, String.ofList_toList] at hcut
    simp only [hrest, Option.bind_eq_bind, Option.bind_some, hversion, hcut]

end Agent

end Latchkey
