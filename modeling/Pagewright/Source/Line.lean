import Pagewright.Text.Bytes

namespace Pagewright

/-!
# Source lines

A source is cut at line feeds.  A carriage return in front of a line feed, or
at the very end, belongs to the ending of its line and not to the text.  Each
line remembers the byte span of its text, so that a remark about a line can be
placed in the source.
-/

/-- A line of a source: its number, counted from one, its text without the
ending, and the byte span of that text. -/
structure SourceLine where
  number : Nat
  text : String
  span : Text.Span
deriving Repr, DecidableEq

namespace SourceLine

/-- The text of a line without one carriage return at its end. -/
def withoutReturn (raw : List Char) : List Char :=
  if raw.getLast? = some '\r' then raw.dropLast else raw

/-- The line with the given number whose raw text starts at `offset`. -/
def ofRaw (number offset : Nat) (raw : List Char) : SourceLine :=
  let text := withoutReturn raw
  { number := number
    text := String.ofList text
    span := ⟨offset, offset + Text.byteLength text⟩ }

/-- Number raw lines from `number` on; the line feed behind each takes one
byte.  Finished lines are kept in reverse. -/
def numberFrom (number offset : Nat) (finished : List SourceLine) :
    List (List Char) → List SourceLine
  | [] => finished.reverse
  | raw :: rest =>
      numberFrom (number + 1) (offset + Text.byteLength raw + 1)
        (ofRaw number offset raw :: finished) rest

/-- The lines of a source. -/
def ofSource (source : String) : List SourceLine :=
  numberFrom 1 0 [] (source.toList.splitOn '\n')

end SourceLine

end Pagewright
