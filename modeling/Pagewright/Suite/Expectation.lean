import Pagewright.Report
import Pagewright.Settings.Reading
import Pagewright.Suite.TestFile
import Pagewright.Text.Search

namespace Pagewright
namespace Suite

/-!
# Expectations

The header of a test file says what its source should lead to.  Everything in
it is optional.  The first expectation that a report does not meet is the
reason for the failure of the test; the order in which they are checked is
part of the meaning.
-/

structure ExpectedWarning where
  /-- A text in the warning as shown. -/
  contains : String
  /-- The line of the warning. -/
  line : Option Nat
deriving Repr, DecidableEq

structure Expectations where
  description : Option String := none
  success : Bool := true
  /-- Texts that the document holds. -/
  contains : List String := []
  /-- Texts that the document does not hold. -/
  notContains : List String := []
  /-- A text in the message of the failure. -/
  error : Option String := none
  errorLine : Option Nat := none
  /-- All warnings, in their order. -/
  warnings : Option (List ExpectedWarning) := none
  settings : Settings := {}
deriving Repr, DecidableEq

/-! ## Reading expectations -/

def readText? : Datum → Option String
  | .text value => some value
  | _ => none

def readFlag? : Datum → Option Bool
  | .boolean value => some value
  | _ => none

def readNumber? (datum : Datum) : Option Nat :=
  (Settings.readSize datum).toOption

def readList? {α : Type} (read? : Datum → Option α) : Datum → Option (List α)
  | .list items => items.mapM read?
  | _ => none

namespace ExpectedWarning

/-- Read the members of a table. -/
def ofMembers? (members : List (String × Datum)) : Option ExpectedWarning := do
  let known := members.all fun member => member.1 = "contains" || member.1 = "line"
  if !known then failure
  let contains ← (members.lookup "contains").bind readText?
  match members.lookup "line" with
  | none => pure ⟨contains, none⟩
  | some datum => pure ⟨contains, some (← readNumber? datum)⟩

/-- Read a datum: a table, or a list with the text and perhaps the line. -/
def ofDatum? : Datum → Option ExpectedWarning
  | .table members => ofMembers? members
  | .list items => ofMembers? (["contains", "line"].zip items)
  | _ => none

end ExpectedWarning

namespace Expectations

/-- Take one member of a header. -/
def set? (expectations : Expectations) (name : String) (datum : Datum) :
    Option Expectations :=
  match name with
  | "description" => do return { expectations with description := ← readText? datum }
  | "expect_success" => do return { expectations with success := ← readFlag? datum }
  | "expect_contains" => do
      return { expectations with contains := ← readList? readText? datum }
  | "expect_not_contains" => do
      return { expectations with notContains := ← readList? readText? datum }
  | "expect_error" => do return { expectations with error := ← readText? datum }
  | "expect_error_line" => do
      return { expectations with errorLine := ← readNumber? datum }
  | "expect_warnings" => do
      return { expectations with
        warnings := ← readList? ExpectedWarning.ofDatum? datum }
  | "config" => do
      return { expectations with settings := ← (Settings.ofDatum datum).toOption }
  | _ => none

/-- Read a header. -/
def ofHeader? (header : String) : Option Expectations := do
  (← Toml.read? header).foldlM
    (fun expectations (name, datum) => expectations.set? name datum) {}

end Expectations

/-! ## Checking a report -/

/-- An expectation that a report does not meet. -/
inductive Mismatch where
  | failed (line : Option Nat) (error : String)
  | succeeded
  | noError (expected : String)
  | wrongError (expected found : String)
  | wrongErrorLine (expected : Nat) (found : Option Nat)
  | textMissing (expected document : String)
  | textPresent (unexpected : String)
  | wrongWarningCount (expected : Nat) (found : List String)
  | wrongWarning (index : Nat) (expected found : String)
  | wrongWarningLine (index expected found : Nat)
deriving Repr, DecidableEq

/-- The lines of a text; a line ending at the end of the text begins no further
line. -/
def textLines (text : String) : List String :=
  let pieces := text.toList.splitOn '\n'
  let ended := pieces.dropLast.map fun piece =>
    if piece.getLast? = some '\r' then piece.dropLast else piece
  (ended ++ (pieces.getLast?.filter (!·.isEmpty)).toList).map String.ofList

namespace Mismatch

def message : Mismatch → String
  | .failed line error =>
      "expected success, got error on line " ++ toString (line.getD 0) ++ ": " ++ error
  | .succeeded => "expected failure, but interpretation succeeded"
  | .noError expected =>
      "expected error containing \"" ++ expected ++ "\", but there was none"
  | .wrongError expected found =>
      "expected error containing \"" ++ expected ++ "\", got: " ++ found
  | .wrongErrorLine expected found =>
      "expected error on line " ++ toString expected ++ ", got " ++
        (match found with
          | some line => "Some(" ++ toString line ++ ")"
          | none => "None")
  | .textMissing expected document =>
      "output does not contain \"" ++ expected ++ "\"\n  output:\n" ++
        Text.joinLines ((textLines document).map ("    " ++ ·))
  | .textPresent unexpected => "output unexpectedly contains \"" ++ unexpected ++ "\""
  | .wrongWarningCount expected found =>
      "expected " ++ toString expected ++ " warning(s), got " ++ toString found.length ++
        "\n  actual warnings:\n" ++
        (if found.isEmpty then "    (none)"
          else Text.joinLines (found.map ("  - " ++ ·)))
  | .wrongWarning index expected found =>
      "warning[" ++ toString index ++ "]: expected message containing \"" ++ expected ++
        "\", got: " ++ found
  | .wrongWarningLine index expected found =>
      "warning[" ++ toString index ++ "]: expected on line " ++ toString expected ++
        ", but it is on line " ++ toString found

end Mismatch

namespace Expectations

def checkSuccess (expectations : Expectations) (report : Report) : Option Mismatch :=
  match report.failure?, expectations.success with
  | some error, true => some (.failed report.failureLine? error)
  | none, false => some .succeeded
  | _, _ => none

def checkError (expectations : Expectations) (report : Report) : Option Mismatch :=
  expectations.error.bind fun expected =>
    match report.failure? with
    | none => some (.noError expected)
    | some found =>
        if Text.occursIn expected found then none else some (.wrongError expected found)

def checkErrorLine (expectations : Expectations) (report : Report) : Option Mismatch :=
  expectations.errorLine.bind fun expected =>
    if report.failureLine? = some expected then none
    else some (.wrongErrorLine expected report.failureLine?)

def checkDocument (expectations : Expectations) (report : Report) : Option Mismatch :=
  let document := report.document?.getD ""
  let missing := expectations.contains.find? fun text => !Text.occursIn text document
  let present := expectations.notContains.find? fun text => Text.occursIn text document
  (missing.map fun text => .textMissing text document).or (present.map .textPresent)

/-- Compare one warning, the one with the given index. -/
def checkWarning (expected : ExpectedWarning) (found : Target × Diagnostic)
    (index : Nat) : Option Mismatch :=
  let shown := Report.renderEntry found
  if !Text.occursIn expected.contains shown then
    some (.wrongWarning index expected.contains shown)
  else
    expected.line.bind fun line =>
      if found.2.line = line then none
      else some (.wrongWarningLine index line found.2.line)

def checkWarnings (expectations : Expectations) (report : Report) : Option Mismatch :=
  expectations.warnings.bind fun expected =>
    let found := report.warningDiagnostics
    if found.length = expected.length then
      (expected.zip found).zipIdx.findSome? fun ((expected, found), index) =>
        checkWarning expected found index
    else
      some (.wrongWarningCount expected.length report.warnings)

/-- The first expectation that a report does not meet. -/
def check (expectations : Expectations) (report : Report) : Option Mismatch :=
  (expectations.checkSuccess report).or
    ((expectations.checkError report).or
      ((expectations.checkErrorLine report).or
        ((expectations.checkDocument report).or (expectations.checkWarnings report))))

end Expectations

end Suite
end Pagewright
