import Pagewright.Text.Indented
import Pagewright.Text.Literal

namespace Pagewright
namespace Json

/-!
# Flat JSON objects

Results are written as a JSON object whose members are flags, numbers, texts
and lists of texts.  Members stand on lines of their own, in the order given,
and each level of nesting is two spaces wide.
-/

inductive Value where
  | flag (value : Bool)
  | number (value : Nat)
  | text (value : String)
  | texts (values : List String)
deriving Repr, DecidableEq

/-- Items between brackets, one on a line; nothing stands between the brackets
when there are no items. -/
def bracketed (opening closing : String) (depth : Nat) (items : List String) : String :=
  if items.isEmpty then
    opening ++ closing
  else
    opening ++ "\n" ++
      String.intercalate ",\n" (items.map (Text.indentation (depth + 1) ++ ·)) ++ "\n" ++
      Text.indentation depth ++ closing

namespace Value

/-- The text of a member's value. -/
def render : Value → String
  | .flag true => "true"
  | .flag false => "false"
  | .number value => toString value
  | .text value => Text.doubleQuoted value
  | .texts values => bracketed "[" "]" 1 (values.map Text.doubleQuoted)

end Value

/-- The text of an object. -/
def renderObject (members : List (String × Value)) : String :=
  bracketed "\x7b" "\x7d" 0 (members.map fun (name, value) =>
    Text.doubleQuoted name ++ ": " ++ value.render)

end Json
end Pagewright
