/-!
# White space

The characters with Unicode's `White_Space` property, trimming by them, and the texts that hold
nothing else.
-/

namespace Latchkey.Text

/-- The characters with the property `White_Space`: twenty-five in all. The zero-width space, the
byte order mark and the information separators are not among them. -/
def isBlank (c : Char) : Bool :=
  let n := c.toNat
  (0x09 ≤ n && n ≤ 0x0D) || n == 0x20 || n == 0x85 || n == 0xA0 || n == 0x1680 ||
    (0x2000 ≤ n && n ≤ 0x200A) || n == 0x2028 || n == 0x2029 || n == 0x202F || n == 0x205F ||
    n == 0x3000

/-- A list of characters without the blanks at its two ends. -/
def trimChars (cs : List Char) : List Char :=
  ((cs.dropWhile isBlank).reverse.dropWhile isBlank).reverse

/-- A text without the blanks at its two ends. -/
def trim (s : String) : String :=
  String.ofList (trimChars s.toList)

/-- Every character of the text is blank; the empty text is blank too. -/
def isBlankText (s : String) : Bool :=
  s.toList.all isBlank

end Latchkey.Text
