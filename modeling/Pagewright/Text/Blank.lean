namespace Pagewright
namespace Text

/-!
# Blank characters

A blank is a character with the Unicode property `White_Space`.  The table is
closed: control characters above U+000D, zero-width characters and the byte
order mark are not blanks, although some of them are invisible on a screen.

Trimming is stated on character lists, where its laws are laws of `dropWhile`,
and lifted to strings at the end.
-/

/-- The twenty-five characters with the property `White_Space`. -/
def isBlank (c : Char) : Bool :=
  let code := c.toNat
  (0x0009 ≤ code && code ≤ 0x000D) || code == 0x0020 || code == 0x0085 ||
    code == 0x00A0 || code == 0x1680 || (0x2000 ≤ code && code ≤ 0x200A) ||
    code == 0x2028 || code == 0x2029 || code == 0x202F || code == 0x205F ||
    code == 0x3000

/-- The text without the characters at its end that satisfy `p`. -/
def dropEndWhile (p : Char → Bool) (cs : List Char) : List Char :=
  (cs.reverse.dropWhile p).reverse

/-- The text without the blanks at its end. -/
def trimEndChars (cs : List Char) : List Char :=
  dropEndWhile isBlank cs

/-- The text without the blanks at either end. -/
def trimChars (cs : List Char) : List Char :=
  trimEndChars (cs.dropWhile isBlank)

/-- `trimEndChars` on strings. -/
def trimEnd (text : String) : String :=
  String.ofList (trimEndChars text.toList)

/-- `trimChars` on strings. -/
def trim (text : String) : String :=
  String.ofList (trimChars text.toList)

end Text
end Pagewright
