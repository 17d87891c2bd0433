import Pagewright.Text.Blank
import Pagewright.Text.Bytes

namespace Pagewright

/-!
# Words

A line is read as a sequence of words.  A bare word is a maximal run of
characters that are not blank.  A quoted word is the text between two quotes;
it may be empty, may hold blanks, and ends the bare word in front of it even
where no blank stands between the two.  There are no escapes inside quotes.

A quote that no later quote closes is an ordinary character.  This is the only
place where the reading looks ahead, and it is decided once, at the opening
quote.
-/

/-- A word of a line: its text, without quotes, and whether it was quoted. -/
structure Word where
  text : String
  quoted : Bool
deriving Repr, DecidableEq

namespace Word

/-- The text of a bare word. -/
def bare? (word : Word) : Option String :=
  if word.quoted then none else some word.text

end Word

/-- A word together with the byte offset of its first character in the line.
The first character of a quoted word is its opening quote. -/
structure Token where
  word : Word
  start : Nat
deriving Repr, DecidableEq

namespace Token

/-- What the reading is inside of, with the characters met so far in
reverse. -/
inductive Mode where
  | gap
  | bare (start : Nat) (reversed : List Char)
  | quoted (start : Nat) (reversed : List Char)
deriving Repr, DecidableEq

namespace Mode

/-- Finish a bare word, if one is being read, in front of the tokens already
found, which stand in reverse. -/
def flush : Mode → List Token → List Token
  | .bare start reversed, found =>
      ⟨⟨String.ofList reversed.reverse, false⟩, start⟩ :: found
  | _, found => found

/-- Continue a bare word with one more character, or begin one. -/
def extend (offset : Nat) (c : Char) : Mode → Mode
  | .bare start reversed => .bare start (c :: reversed)
  | _ => .bare offset [c]

end Mode

/-- Read the rest of a line that starts at `offset`. -/
def scan : List Char → (offset : Nat) → Mode → List Token → List Token
  | [], _, mode, found => (mode.flush found).reverse
  | c :: cs, offset, .quoted start reversed, found =>
      if c = '"' then
        scan cs (offset + c.utf8Size) .gap
          (⟨⟨String.ofList reversed.reverse, true⟩, start⟩ :: found)
      else
        scan cs (offset + c.utf8Size) (.quoted start (c :: reversed)) found
  | c :: cs, offset, mode, found =>
      if c = '"' && cs.contains '"' then
        scan cs (offset + c.utf8Size) (.quoted offset []) (mode.flush found)
      else if Text.isBlank c then
        scan cs (offset + c.utf8Size) .gap (mode.flush found)
      else
        scan cs (offset + c.utf8Size) (mode.extend offset c) found

/-- The words of a line with their positions. -/
def ofLine (line : List Char) : List Token :=
  scan line 0 .gap []

end Token

end Pagewright
