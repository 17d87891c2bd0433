namespace Pagewright
namespace Toml

/-!
# Readers

A reader takes something from the front of a text, or refuses.  Refusing
consumes nothing, so that an alternative starts where the refused reader did.
Repetition is bounded by the length of the text: every round of the readers
repeated here takes at least one character.
-/

abbrev Reader (α : Type) : Type := StateT (List Char) Option α

namespace Reader

/-- Take one character that satisfies `p`. -/
def charWhere (p : Char → Bool) : Reader Char
  | c :: rest => if p c then some (c, rest) else none
  | [] => none

/-- Take exactly this text. -/
def exactly (text : String) : Reader Unit := fun input =>
  (text.toList.isPrefixOf? input).map fun rest => ((), rest)

/-- Take the characters at the front that satisfy `p`, perhaps none. -/
def takeWhile (p : Char → Bool) : Reader (List Char) := fun input =>
  some (input.takeWhile p, input.dropWhile p)

/-- Take at least one character that satisfies `p`. -/
def takeWhile1 (p : Char → Bool) : Reader (List Char) := do
  let first ← charWhere p
  let rest ← takeWhile p
  pure (first :: rest)

/-- Accept the end of the text only. -/
def atEnd : Reader Unit
  | [] => some ((), [])
  | _ => none

/-- `many` with a bound on the number of rounds. -/
def manyUpTo {α : Type} (reader : Reader α) : Nat → Reader (List α)
  | 0 => pure []
  | bound + 1 =>
      (do
        let first ← reader
        let rest ← manyUpTo reader bound
        pure (first :: rest)) <|> pure []

/-- Take as many items as there are. -/
def many {α : Type} (reader : Reader α) : Reader (List α) := fun input =>
  manyUpTo reader input.length input

/-- `separated` with a bound on the number of items. -/
def separatedUpTo {α : Type} (reader : Reader α) (separator : Reader Unit) :
    Nat → Reader (List α)
  | 0 => failure
  | bound + 1 => do
      let first ← reader
      (do
        separator
        let rest ← separatedUpTo reader separator bound
        pure (first :: rest)) <|> pure [first]

/-- Take one or more items with a separator between each two.  A separator
behind the last item is not taken. -/
def separated {α : Type} (reader : Reader α) (separator : Reader Unit) :
    Reader (List α) := fun input =>
  separatedUpTo reader separator (input.length + 1) input

end Reader

end Toml
end Pagewright
