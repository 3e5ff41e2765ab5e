import Latchkey.Text.Decimal
import Latchkey.Text.Pieces

/-!
# User agents

What a `User-Agent` header says about the browser and the operating system behind a request:
a family for each, and up to two version numbers. The families are told by fixed tokens, tried
in an order in which the more telling token comes first; anything else is `Other`.
-/

namespace Latchkey

open Text

/-- Browser and operating system of a request, as far as they are known. -/
structure Agent where
  osFamily : String
  osMajor : Option String
  osMinor : Option String
  browserFamily : String
  browserMajor : Option String
  browserMinor : Option String
  deriving DecidableEq

namespace Agent

/-- The family of whatever is not recognised. -/
def otherFamily : String := "Other"

/-- A family and the token that its version follows, if it has one. -/
structure Sighting where
  family : String
  versionToken : Option String

/-- The token occurs in the text. -/
def mentions (text : List Char) (token : String) : Bool :=
  occurs token.toList text

/-- Tokens of browsers that put their own version behind them. Derived browsers come before those
they also claim to be. -/
def browserTokens : List (String × String) :=
  [("Edg/", "Edge"), ("OPR/", "Opera"), ("Firefox/", "Firefox"), ("Chrome/", "Chrome")]

/-- The browser in a text. -/
def browser (text : List Char) : Sighting :=
  match browserTokens.find? fun (token, _) => mentions text token with
  | some (token, family) => ⟨family, some token⟩
  | none =>
    if mentions text "Safari/" then ⟨"Safari", some "Version/"⟩
    else if mentions text "curl/" then ⟨"curl", some "curl/"⟩
    else ⟨otherFamily, none⟩

/-- The operating system in a text. Phones come before the desktop system they resemble, and
Android before Linux. -/
def os (text : List Char) : Sighting :=
  if mentions text "iPhone" || mentions text "iPad" || mentions text "iPod" then
    ⟨"iOS", some "OS "⟩
  else if mentions text "Android" then ⟨"Android", some "Android "⟩
  else if mentions text "Windows" then ⟨"Windows", some "Windows NT "⟩
  else if mentions text "Mac OS X" then ⟨"Mac OS X", some "Mac OS X "⟩
  else if mentions text "CrOS" then ⟨"Chrome OS", none⟩
  else if mentions text "Linux" then ⟨"Linux", none⟩
  else ⟨otherFamily, none⟩

/-- A character of a version: a digit or a separator. -/
def isVersionChar (c : Char) : Bool :=
  isDigit c || c == '.' || c == '_'

/-- Both separators count as a dot. -/
def normalSeparator (c : Char) : Char :=
  if c = '_' then '.' else c

/-- The numbers of a version in order, without the empty ones between adjacent separators. -/
def versionParts (version : List Char) : List (List Char) :=
  (pieces '.' (version.map normalSeparator)).filter (!·.isEmpty)

/-- The longest version that follows the first occurrence of the token; empty if there is none. -/
def versionAfter (text : List Char) (token : String) : List Char :=
  ((after? token.toList text).getD []).takeWhile isVersionChar

/-- The numbers of the version behind a sighting. -/
def Sighting.parts (s : Sighting) (text : List Char) : List (List Char) :=
  match s.versionToken with
  | none => []
  | some token => versionParts (versionAfter text token)

/-- What the header says. The empty text is what a missing header counts as. -/
def ofUserAgent (header : String) : Agent :=
  let text := header.toList
  let osParts := (os text).parts text
  let browserParts := (browser text).parts text
  { osFamily := (os text).family
    osMajor := osParts[0]?.map String.ofList
    osMinor := osParts[1]?.map String.ofList
    browserFamily := (browser text).family
    browserMajor := browserParts[0]?.map String.ofList
    browserMinor := browserParts[1]?.map String.ofList }

end Agent

end Latchkey
