import Pagewright.Text.Blank
import Pagewright.Text.Search

namespace Pagewright
namespace Suite

/-!
# Test files

A test file is a header and a source.  The header stands between two lines of
three hyphens.  Only the beginnings of those lines are looked at: whatever
stands behind the hyphens of the first belongs to the header, and whatever
stands behind those of the second to the source.  Cutting a file knows nothing
of what headers mean.
-/

/-- Why a file cannot be cut. -/
inductive CutError where
  | missingOpening
  | missingClosing
deriving Repr, DecidableEq

def CutError.message : CutError → String
  | .missingOpening => "missing opening --- frontmatter delimiter"
  | .missingClosing => "missing closing --- frontmatter delimiter"

/-- The text without one line ending at its beginning. -/
def withoutLineEnding : List Char → List Char
  | '\n' :: rest => rest
  | '\r' :: '\n' :: rest => rest
  | text => text

/-- The text of a test file behind the byte order marks at its beginning. -/
def withoutMarks (content : List Char) : List Char :=
  content.dropWhile (· = '\ufeff')

/-- Cut a test file into its header and its source. -/
def cut (content : String) : Except CutError (String × String) :=
  match "---".toList.isPrefixOf? (withoutMarks content.toList) with
  | none => .error .missingOpening
  | some opened =>
      match Text.splitAtFirst? "\n---".toList (withoutLineEnding opened) with
      | none => .error .missingClosing
      | some (header, closed) =>
          .ok (String.ofList (Text.dropEndWhile (· = '\r') header),
            String.ofList (withoutLineEnding (closed.drop 4)))

end Suite
end Pagewright
