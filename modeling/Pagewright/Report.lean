import Pagewright.Document
import Pagewright.Generator
import Pagewright.Page.Generator
import Pagewright.Script.Generator
import Pagewright.Stylesheet.Generator

namespace Pagewright

/-!
# Reports

Interpreting a source runs one generator for each target that has sections and
puts the outputs together.  The generators know nothing of each other.  A fault
in the page makes the source fail; a fault in a stylesheet or a script is only
a warning, because the document is still a page without it.

A source over the size limit is refused before it is read.
-/

/-- What came of a source. -/
inductive Report where
  | rejected (fault : Fault)
  /-- The outcomes, in the order page, stylesheet, script, and the document. -/
  | composed (outcomes : List Outcome) (document : String)
deriving Repr, DecidableEq

namespace Report

/-- Run a generator over the sections for its target, if there are any. -/
def outcome? {σ : Type} (generator : Generator σ) (sections : List Section) :
    Option Outcome :=
  match sections.filter fun part => part.target == generator.target with
  | [] => none
  | matching => some (generator.run matching)

/-- Interpret the sections of a source. -/
def ofSections (settings : Settings) (sections : List Section) : Report :=
  let page := outcome? (Page.generator settings) sections
  let stylesheet := outcome? Stylesheet.generator sections
  let script := outcome? Script.generator sections
  .composed (page.toList ++ stylesheet.toList ++ script.toList)
    (Document.compose settings (page.map Outcome.output)
      (stylesheet.map Outcome.output) (script.map Outcome.output))

/-- Interpret a source. -/
def ofSource (settings : Settings) (source : String) : Report :=
  let size := source.utf8ByteSize
  if settings.refuses size then
    .rejected (.sourceTooLarge size settings.maxSourceBytes)
  else
    ofSections settings (Section.ofSource source)

/-- The outcomes of the generators that ran. -/
def outcomes : Report → List Outcome
  | .rejected _ => []
  | .composed outcomes _ => outcomes

/-- The outcome for a target. -/
def outcomeFor? (report : Report) (target : Target) : Option Outcome :=
  report.outcomes.find? fun outcome => outcome.target == target

/-- The output for a target. -/
def output? (report : Report) (target : Target) : Option String :=
  (report.outcomeFor? target).map Outcome.output

def document? : Report → Option String
  | .rejected _ => none
  | .composed _ document => some document

/-- The first fault in the page. -/
def pageError? (report : Report) : Option Diagnostic :=
  (report.outcomeFor? .page).bind fun outcome => outcome.errors.head?

/-- Why the source failed. -/
def failure? : Report → Option String
  | .rejected fault => some fault.message
  | report => report.pageError?.map Diagnostic.message

/-- The line on which the source failed. -/
def failureLine? (report : Report) : Option Nat :=
  report.pageError?.map Diagnostic.line

def success (report : Report) : Bool :=
  report.failure?.isNone

/-- The diagnostics of one outcome.  Only faults in a page stay errors. -/
def diagnosticsOf (outcome : Outcome) : List (Target × Diagnostic) :=
  let errors :=
    if outcome.target = .page then outcome.errors
    else outcome.errors.map Diagnostic.toWarning
  (errors ++ outcome.warnings).map fun diagnostic => (outcome.target, diagnostic)

/-- All diagnostics, by line; those of one line keep the order of the
outcomes. -/
def diagnostics (report : Report) : List (Target × Diagnostic) :=
  (report.outcomes.flatMap diagnosticsOf).mergeSort fun a b => a.2.line ≤ b.2.line

/-- The diagnostics that are warnings. -/
def warningDiagnostics (report : Report) : List (Target × Diagnostic) :=
  report.diagnostics.filter fun entry => entry.2.isWarning

/-- A diagnostic with its target, in one line. -/
def renderEntry (entry : Target × Diagnostic) : String :=
  "[" ++ entry.1.label ++ "] " ++ entry.2.render

/-- The warnings, in one line each. -/
def warnings (report : Report) : List String :=
  report.warningDiagnostics.map renderEntry

end Report

end Pagewright
