import Pagewright.Text.Indented

namespace Pagewright
namespace Stylesheet

/-!
# Sheets

A sheet under construction is a list of lines, at most one open rule and a
number of open media queries around it.  Opening and closing of rules follows
from what is asked for: selecting closes the rule in front of it, a
declaration without a rule opens one for the whole body, and both ends of a
media query close the rule inside.
-/

/-- A line of a stylesheet. -/
inductive Entry where
  | opening (header : String)
  | declaration (property value : String)
  | closing
deriving Repr, DecidableEq

def Entry.render : Entry → String
  | .opening header => header ++ " \x7b"
  | .declaration property value => property ++ ": " ++ value ++ ";"
  | .closing => "\x7d"

structure Sheet where
  lines : Array (Text.Indented Entry) := #[]
  /-- The selector of the open rule. -/
  selector : Option String := none
  /-- The number of open media queries. -/
  queries : Nat := 0
  declarations : Nat := 0
deriving Repr, DecidableEq

namespace Sheet

/-- Add a line inside the open media queries. -/
def write (sheet : Sheet) (entry : Entry) : Sheet :=
  { sheet with lines := sheet.lines.push ⟨sheet.queries, entry⟩ }

/-- Close the open rule, if there is one. -/
def closeRule (sheet : Sheet) : Sheet :=
  match sheet.selector with
  | some _ => { sheet with selector := none }.write .closing
  | none => sheet

/-- Open a rule. -/
def select (sheet : Sheet) (selector : String) : Sheet :=
  { sheet.closeRule.write (.opening selector) with selector := some selector }

/-- The sheet with a rule open. -/
def withRule (sheet : Sheet) : Sheet :=
  match sheet.selector with
  | some _ => sheet
  | none => sheet.select "body"

/-- Add a declaration to the open rule. -/
def declare (sheet : Sheet) (property value : String) : Sheet :=
  let ready := sheet.withRule
  { ready with
    lines := ready.lines.push ⟨ready.queries + 1, .declaration property value⟩
    declarations := ready.declarations + 1 }

def startMedia (sheet : Sheet) (query : String) : Sheet :=
  let closed := sheet.closeRule
  { closed.write (.opening ("@media " ++ query)) with queries := closed.queries + 1 }

/-- Close the innermost media query, if there is one. -/
def endMedia? (sheet : Sheet) : Option Sheet :=
  match sheet.queries with
  | 0 => none
  | outer + 1 => some ({ sheet.closeRule with queries := outer }.write .closing)

/-- The lines written so far, followed by the ends of `queries` media
queries. -/
def closingLines (lines : Array (Text.Indented Entry)) :
    (queries : Nat) → Array (Text.Indented Entry)
  | 0 => lines
  | outer + 1 => closingLines (lines.push ⟨outer, .closing⟩) outer

/-- Close everything that is open. -/
def closeAll (sheet : Sheet) : Sheet :=
  let closed := sheet.closeRule
  { closed with lines := closingLines closed.lines closed.queries, queries := 0 }

/-- What stands for a stylesheet without declarations. -/
def emptyText : String := "/* لا توجد قواعد CSS */"

def render (sheet : Sheet) : String :=
  if sheet.declarations = 0 then
    emptyText
  else
    Text.Indented.renderAll Entry.render sheet.lines

end Sheet

end Stylesheet
end Pagewright
