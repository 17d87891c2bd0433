import Pagewright.Command
import Pagewright.Markup.EndTag
import Pagewright.Text.Literal

namespace Pagewright
namespace Script

/-!
# Values and conditions

Arguments become expressions.  A quoted argument is a string; a bare one is
code, apart from a few words for constants.  In conditions the words for
operators are replaced as well, but only where they stand alone between blanks
and parentheses: a longer name that contains such a word is left as it is.
-/

/-- Words for constants. -/
def constants : List (String × String) :=
  [("صحيح", "true"), ("خطأ", "false"), ("فارغ", "null"), ("غير_محدد", "undefined")]

/-- Words for operators. -/
def operators : List (String × String) :=
  [("يساوي", "=="), ("لا_يساوي", "!="), ("أكبر_من", ">"), ("أصغر_من", "<"),
    ("أكبر_أو_يساوي", ">="), ("أصغر_أو_يساوي", "<="), ("و", "&&"), ("أو", "||"),
    ("ليس", "!")]

/-- A text as a string literal that can stand inside a script element. -/
def stringLiteral (text : String) : String :=
  Markup.guardEndTags "" (Text.doubleQuoted text)

/-- An argument as an expression. -/
def value (word : Word) : String :=
  if word.quoted then stringLiteral word.text
  else (constants.lookup word.text).getD word.text

/-- The characters that delimit the words of a condition. -/
def isSeparator (c : Char) : Bool :=
  Text.isBlank c || c = '(' || c = ')'

/-- The operator that a word names, or the word itself. -/
def operatorNamed (word : List Char) : List Char :=
  match operators.lookup (String.ofList word) with
  | some operator => operator.toList
  | none => word

/-- Read one character in front of a condition whose first word is still
open. -/
def substituteStep (c : Char) (rest : List Char × List Char) : List Char × List Char :=
  if isSeparator c then
    ([], c :: (operatorNamed rest.1 ++ rest.2))
  else
    (c :: rest.1, rest.2)

/-- Replace the words for operators in a condition. -/
def substituteOperators (condition : String) : String :=
  let (first, rest) := condition.toList.foldr substituteStep ([], [])
  String.ofList (operatorNamed first ++ rest)

/-- The arguments from `start` on as a condition.  A single quoted argument is
a condition as a whole; otherwise quoted arguments are strings. -/
def condition (command : Command) (start : Nat) : String :=
  match command.words.drop start with
  | [⟨text, true⟩] => substituteOperators text
  | words =>
      String.intercalate " " (words.map fun word =>
        if word.quoted then stringLiteral word.text
        else substituteOperators (value word))

/-- An argument as an expression; a missing one is empty. -/
def valueAt (command : Command) (index : Nat) : String :=
  (command.words[index]?.map value).getD ""

/-- The arguments from `start` on as a list of expressions. -/
def valuesFrom (command : Command) (start : Nat) : String :=
  String.intercalate ", " ((command.words.drop start).map value)

/-- The arguments from `start` on as code: a single quoted argument without its
quotes, anything else exactly as written. -/
def codeFrom (command : Command) (start : Nat) : String :=
  match command.words.drop start with
  | [⟨text, true⟩] => text
  | _ => command.rest start

/-- Code as a statement: it ends with a semicolon or a brace. -/
def statement (code : String) : String :=
  let trimmed := Text.trimEnd code
  match trimmed.toList.getLast? with
  | some ';' | some '\x7d' => trimmed
  | _ => trimmed ++ ";"

end Script
end Pagewright
