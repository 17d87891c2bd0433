import Pagewright.Source.Line

namespace Pagewright

/-!
# Diagnostics

A diagnostic is a message about one line.  What can go wrong while commands
run is a closed type of causes; its wording stands in one place.
-/

/-- Why a command, or a whole source, was refused. -/
inductive Fault where
  | unmatchedClose (construct : String)
  | contentAfterClose (command : String)
  | sourceTooLarge (size limit : Nat)
  | internal (reason : String)
deriving Repr, DecidableEq

namespace Fault

def message : Fault → String
  | .unmatchedClose construct => "cannot close " ++ construct ++ ": nothing is open"
  | .contentAfterClose command =>
      "cannot run '" ++ command ++ "': the page is already closed"
  | .sourceTooLarge size limit =>
      "source is " ++ toString size ++ " bytes, which exceeds the " ++
        toString limit ++ "-byte limit"
  | .internal reason => "internal emitter failure: " ++ reason

/-- Faults in the structure of the source, as opposed to its size or to a
failure inside a generator. -/
def isStructural : Fault → Bool
  | .unmatchedClose _ | .contentAfterClose _ => true
  | .sourceTooLarge _ _ | .internal _ => false

end Fault

inductive Severity where
  | error
  | warning
deriving Repr, DecidableEq

/-- A message about the line with the given number and span. -/
structure Diagnostic where
  line : Nat
  span : Text.Span
  severity : Severity
  message : String
deriving Repr, DecidableEq

namespace Diagnostic

/-- A diagnostic about a source line. -/
def onLine (line : SourceLine) (severity : Severity) (message : String) : Diagnostic :=
  ⟨line.number, line.span, severity, message⟩

def isWarning (diagnostic : Diagnostic) : Bool :=
  diagnostic.severity == .warning

/-- The same message as a warning. -/
def toWarning (diagnostic : Diagnostic) : Diagnostic :=
  { diagnostic with severity := .warning }

def render (diagnostic : Diagnostic) : String :=
  "line " ++ toString diagnostic.line ++ ": " ++ diagnostic.message

end Diagnostic

end Pagewright
