import Pagewright.Json
import Pagewright.Report

namespace Pagewright

/-!
# Summaries

A summary is the part of a report that is handed on as data.  Members without
a value are left out, and so is an empty list of warnings.
-/

structure Summary where
  success : Bool
  html : Option String
  css : Option String
  javascript : Option String
  combinedOutput : Option String
  error : Option String
  lineNumber : Option Nat
  warnings : List String
deriving Repr, DecidableEq

namespace Summary

/-- A member that is left out when it has no value. -/
def optional {α : Type} (name : String) (wrap : α → Json.Value) (value : Option α) :
    List (String × Json.Value) :=
  (value.map fun given => (name, wrap given)).toList

/-- The members of the object that stands for a summary. -/
def members (summary : Summary) : List (String × Json.Value) :=
  [("success", .flag summary.success)] ++
    optional "html" .text summary.html ++
    optional "css" .text summary.css ++
    optional "javascript" .text summary.javascript ++
    optional "combinedOutput" .text summary.combinedOutput ++
    optional "error" .text summary.error ++
    optional "lineNumber" .number summary.lineNumber ++
    optional "warnings" .texts
      (if summary.warnings.isEmpty then none else some summary.warnings)

def toJson (summary : Summary) : String :=
  Json.renderObject summary.members

end Summary

/-- The summary of a report. -/
def Report.summary (report : Report) : Summary where
  success := report.success
  html := report.output? .page
  css := report.output? .stylesheet
  javascript := report.output? .script
  combinedOutput := report.document?
  error := report.failure?
  lineNumber := report.failureLine?
  warnings := report.warnings

end Pagewright
