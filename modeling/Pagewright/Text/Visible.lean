import Pagewright.Text.Extending
import Pagewright.Text.Graphic

namespace Pagewright
namespace Text

/-!
# Visible quotation

In messages a text is quoted such that a reader sees every character.  What is
not graphic, and what would join the character in front of it, is written by
number.
-/

/-- Is a character seen when it stands on its own? -/
def isVisible (c : Char) : Bool :=
  isGraphic c && !isExtending c

/-- One character inside a visible quotation. -/
def visibleChar (c : Char) : List Char :=
  if c = '"' then ['\\', '"']
  else if c = '\\' then ['\\', '\\']
  else if c = '\n' then ['\\', 'n']
  else if c = '\r' then ['\\', 'r']
  else if c = '\t' then ['\\', 't']
  else if c = '\x00' then ['\\', '0']
  else if isVisible c then [c]
  else ['\\', 'u', '\x7b'] ++ Nat.toDigits 16 c.toNat ++ ['\x7d']

/-- A text in double quotes with every character visible. -/
def visiblyQuoted (text : String) : String :=
  "\"" ++ String.ofList (text.toList.flatMap visibleChar) ++ "\""

end Text
end Pagewright
