import Pagewright.Toml.Assembly
import Pagewright.Toml.Lexeme

namespace Pagewright
namespace Toml

open Reader

/-!
# TOML documents

The grammar of values, statements and documents.  Values nest; the depth of the
nesting is limited, and the limit is what makes the grammar of values a
recursion on it.
-/

/-- Items between brackets; a comma may stand behind the last one. -/
def list (item : Reader Datum) : Reader Datum := do
  exactly "["
  filler
  let items ← optional (separated (do
    let datum ← item
    filler
    pure datum) (do exactly ","; filler))
  if items.isSome then
    let _ ← optional (exactly ",")
  filler
  exactly "]"
  pure (.list (items.getD []))

/-- A key, an equals sign and a value. -/
def pair (item : Reader Datum) : Reader (List String × Datum) := do
  let path ← key
  exactly "="
  spaces
  let datum ← item
  pure (path, datum)

/-- Pairs between braces, all on one line. -/
def braces (item : Reader Datum) : Reader Datum := do
  exactly "\x7b"
  spaces
  let pairs ← optional (separated (do
    let given ← pair item
    spaces
    pure given) (exactly ","))
  exactly "\x7d"
  match ofPairs? (pairs.getD []) with
  | some members => pure (.table members)
  | none => failure

/-- A value in which lists and tables nest at most `depth` deep. -/
def value : (depth : Nat) → Reader Datum
  | 0 => scalar
  | depth + 1 => scalar <|> list (value depth) <|> braces (value depth)

/-- A statement without the rest of its line. -/
def statement : Reader Statement :=
  (do
    exactly "[["
    let path ← key
    exactly "]]"
    pure (.itemHeader path)) <|>
  (do
    exactly "["
    let path ← key
    exactly "]"
    pure (.header path)) <|>
  (do
    let (path, datum) ← pair (value nestingLimit)
    pure (.member path datum))

/-- A line: perhaps a statement, perhaps a comment. -/
def line : Reader (Option Statement) := do
  spaces
  let given ← optional statement
  spaces
  let _ ← optional comment
  pure given

/-- A whole document.  A byte order mark may stand in front of it. -/
def document : Reader (List Statement) := do
  let _ ← optional (exactly "\ufeff")
  let lines ← separated line newline
  atEnd
  pure (lines.filterMap id)

/-- The members of a document. -/
def read? (text : String) : Option (List (String × Datum)) := do
  let (statements, _) ← document text.toList
  ofStatements? statements

end Toml
end Pagewright
