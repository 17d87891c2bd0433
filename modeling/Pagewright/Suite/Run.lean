import Pagewright.Suite.Category
import Pagewright.Suite.Expectation

namespace Pagewright
namespace Suite

/-!
# Running a suite

Each test is read, interpreted and checked on its own.  The account of a run is
a list of lines; colours are marks around some words of it and change nothing
else.
-/

/-- Why a test failed. -/
inductive Failure where
  | unreadable (error : FileTree.AccessError)
  | uncut (error : CutError)
  | malformedHeader
  | mismatch (found : Mismatch)
deriving Repr, DecidableEq

/-- The message for a test that fails.  As for settings, what the reader of TOML says
about a header is not told: one text stands in for all of it. -/
def Failure.message : Failure → String
  | .unreadable error => "cannot read file: " ++ error.message
  | .uncut error => "frontmatter error: " ++ error.message
  | .malformedHeader => "frontmatter error: TOML parse error: not a valid header"
  | .mismatch found => found.message

/-- The result of one test. -/
structure Result where
  path : String
  description : Option String
  failure : Option Failure
deriving Repr, DecidableEq

namespace Result

def passed (result : Result) : Bool :=
  result.failure.isNone

/-- What a test is called: its description, or else the name of its file. -/
def label (result : Result) : String :=
  result.description.getD
    (((FileTree.lastName? result.path).bind testName?).getD "?")

end Result

/-- Run the test in a text. -/
def runText (path : String) (content : String) : Result :=
  match cut content with
  | .error error => ⟨path, none, some (.uncut error)⟩
  | .ok (header, source) =>
      match Expectations.ofHeader? header with
      | none => ⟨path, none, some .malformedHeader⟩
      | some expectations =>
          let report := Report.ofSource expectations.settings source
          ⟨path, expectations.description,
            (expectations.check report).map .mismatch⟩

/-- Run the test at a path. -/
def runFile (tree : FileTree) (path : String) : Result :=
  match tree.readText path with
  | .error error => ⟨path, none, some (.unreadable error)⟩
  | .ok content => runText path content

/-! ## Accounts -/

/-- The marks around a coloured or bold word. -/
inductive Style where
  | plain
  | coloured
deriving Repr, DecidableEq

namespace Style

def mark (style : Style) (code text : String) : String :=
  match style with
  | .plain => text
  | .coloured => "\x1b[" ++ code ++ "m" ++ text ++ "\x1b[0m"

def green (style : Style) (text : String) : String := style.mark "32" text

def red (style : Style) (text : String) : String := style.mark "31" text

def bold (style : Style) (text : String) : String := style.mark "1" text

end Style

/-- What a run says and whether it counts as success. -/
structure Account where
  lines : List String
  success : Bool
deriving Repr, DecidableEq

/-- The line for one test. -/
def resultLine (style : Style) (result : Result) : String :=
  let verdict := if result.passed then style.green "PASS" else style.red "FAIL"
  "  " ++ verdict ++ "  " ++ result.label

/-- The lines for one failed test. -/
def failureLines (result : Result) : List String :=
  match result.failure with
  | none => []
  | some failure =>
      ["", "  --- " ++ result.path ++ " ---"] ++
        (textLines failure.message).map ("  " ++ ·)

/-- The lines behind the results: the reasons of failures, and the totals. -/
def summaryLines (style : Style) (results : List Result) : List String :=
  let passed := results.countP Result.passed
  let failures := results.filter fun result => !result.passed
  if failures.isEmpty then
    ["", "test result: " ++ style.green "ok" ++ ". " ++ toString passed ++
      " passed, 0 failed"]
  else
    ["", "failures:"] ++ failures.flatMap failureLines ++
      ["", "test result: " ++ style.red "FAILED" ++ ". " ++ toString passed ++
        " passed, " ++ toString failures.length ++ " failed (of " ++
        toString results.length ++ ")"]

/-- The account of a single test file. -/
def accountOfFile (style : Style) (tree : FileTree) (path : String) : Account :=
  let result := runFile tree path
  { lines := resultLine style result :: summaryLines style [result]
    success := result.passed }

/-- The results of the tests of a category of the suite at a path. -/
def runCategory (tree : FileTree) (path : String) (category : Category) : List Result :=
  category.tests.map fun place => runFile tree (FileTree.join path place)

/-- The account of some categories. -/
def accountOfCategories (style : Style) (tree : FileTree) (path : String)
    (categories : List Category) : Account :=
  let runs := categories.map fun category => (category, runCategory tree path category)
  let results := runs.flatMap Prod.snd
  { lines := (runs.flatMap fun (category, results) =>
        ["", style.bold category.label] ++ results.map (resultLine style)) ++
      summaryLines style results
    success := results.all Result.passed }

/-- The categories of the suite at a path. -/
def categoriesAt (tree : FileTree) (path : String) : List Category :=
  match tree.find path with
  | .ok suite => Category.ofTree suite
  | .error _ => []

def noTestsLine (path : String) : String :=
  "no " ++ testEnding ++ " files found in " ++ path

/-- The warning for a request that selects nothing. -/
def unmatchedLine (categories : List Category) (requested : String) : String :=
  "warning: category '" ++ requested ++ "' not found (available: " ++
    String.intercalate ", " (categories.map Category.label) ++ ")"

/-- Run the test at a path, or the requested tests of the suite there. -/
def run (style : Style) (tree : FileTree) (path : String) (requests : List String) :
    Account :=
  if tree.isFile path then
    accountOfFile style tree path
  else
    let categories := categoriesAt tree path
    if categories.isEmpty then
      ⟨[noTestsLine path], false⟩
    else
      let warnings := (Category.unmatched categories requests).map
        (unmatchedLine categories)
      let selected := Category.select categories requests
      if selected.isEmpty then
        ⟨warnings ++ ["no matching categories found"], false⟩
      else
        let account := accountOfCategories style tree path selected
        { account with lines := warnings ++ account.lines }

/-- List the categories of the suite at a path. -/
def listCategories (tree : FileTree) (path : String) : List String :=
  if tree.isFile path then
    ["(single file, no categories)"]
  else
    let categories := categoriesAt tree path
    if categories.isEmpty then
      [noTestsLine path]
    else
      "available categories:" :: categories.map fun category =>
        "  " ++ category.label ++ " (" ++ toString category.tests.length ++ " tests)"

end Suite
end Pagewright
