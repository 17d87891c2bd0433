import Pagewright.Command
import Pagewright.Diagnostic
import Pagewright.Source.Section

namespace Pagewright

/-!
# Generators

A generator is a state machine that reads commands and finally writes a text.
Running one over the lines of some sections follows rules that hold for every
generator: a key that it does not know costs a warning, a fault ends the
reading, a crash counts as a fault, and the text is asked for exactly once in
any case.

A step always returns a state, also when it fails.  That a failed step leaves
the state alone is therefore a property of a generator and not of the
interface.
-/

/-- A generator gave up without a verdict, perhaps saying why. -/
structure Crash where
  reason : Option String
deriving Repr, DecidableEq

namespace Crash

def fault (crash : Crash) : Fault :=
  .internal (crash.reason.getD "emitter panicked")

end Crash

/-- How a generator took a command. -/
inductive Verdict where
  | handled
  | unknown
  | failed (fault : Fault)
  | crashed (crash : Crash)
deriving Repr, DecidableEq

/-- The effect of one command. -/
structure Step (σ : Type) where
  state : σ
  warnings : List String := []
  verdict : Verdict := .handled
deriving Repr, DecidableEq

/-- The effect of asking for the text. -/
structure Finish (σ : Type) where
  state : σ
  warnings : List String := []
  output : Except Crash String

structure Generator (σ : Type) where
  target : Target
  initial : σ
  execute : σ → Command → Step σ
  finish : σ → Finish σ

/-- What a generator made of its sections. -/
structure Outcome where
  target : Target
  output : String
  errors : List Diagnostic
  warnings : List Diagnostic
deriving Repr, DecidableEq

namespace Outcome

def success (outcome : Outcome) : Bool :=
  outcome.errors.isEmpty

end Outcome

namespace Generator

/-- How far the reading of a list of lines has come. -/
structure Progress (σ : Type) where
  state : σ
  warnings : Array Diagnostic := #[]
  error : Option Diagnostic := none
  /-- The last line read, whether or not it held a command. -/
  last : Option SourceLine := none
deriving Repr, DecidableEq

namespace Progress

variable {σ : Type}

/-- Record warnings about a line. -/
def warn (progress : Progress σ) (line : SourceLine) (messages : List String) :
    Progress σ :=
  { progress with
    warnings := progress.warnings ++
      (messages.map (Diagnostic.onLine line .warning)).toArray }

/-- Record the fault that ends the reading. -/
def fail (progress : Progress σ) (line : SourceLine) (fault : Fault) : Progress σ :=
  { progress with error := some (Diagnostic.onLine line .error fault.message) }

/-- Record that a line was read. -/
def visit (progress : Progress σ) (line : SourceLine) : Progress σ :=
  { progress with last := some line }

/-- A diagnostic about the last line read. -/
def onLast (progress : Progress σ) (severity : Severity) (message : String) :
    Diagnostic :=
  match progress.last with
  | some line => Diagnostic.onLine line severity message
  | none => ⟨0, ⟨0, 0⟩, severity, message⟩

end Progress

variable {σ : Type}

/-- The warning for a key that names no command of the target. -/
def unknownMessage (target : Target) (key : String) : String :=
  if key.isEmpty then
    "expected a command before the quoted text"
  else
    "unknown " ++ target.label ++ " command: " ++ key

/-- Read lines up to the first one that fails. -/
def read (generator : Generator σ) (progress : Progress σ) :
    List SourceLine → Progress σ
  | [] => progress
  | line :: rest =>
      let visited := progress.visit line
      match Command.ofLine? line.text with
      | none => read generator visited rest
      | some command =>
          let step := generator.execute visited.state command
          let stepped := { visited with state := step.state }.warn line step.warnings
          match step.verdict with
          | .handled => read generator stepped rest
          | .unknown =>
              read generator
                (stepped.warn line [unknownMessage generator.target command.key]) rest
          | .failed fault => stepped.fail line fault
          | .crashed crash => stepped.fail line crash.fault

/-- Ask for the text after reading.  A crash here is reported with the number
of the last line, but with an empty span. -/
def close (generator : Generator σ) (progress : Progress σ) : Outcome :=
  let closing := generator.finish progress.state
  let warnings := progress.warnings.toList ++
    closing.warnings.map (progress.onLast .warning)
  match closing.output with
  | .ok text =>
      { target := generator.target
        output := text
        errors := progress.error.toList
        warnings := warnings }
  | .error crash =>
      { target := generator.target
        output := ""
        errors := progress.error.toList ++
          [{ progress.onLast .error crash.fault.message with span := ⟨0, 0⟩ }]
        warnings := warnings }

/-- Run a generator over the lines of some sections. -/
def run (generator : Generator σ) (sections : List Section) : Outcome :=
  generator.close
    (generator.read { state := generator.initial } (sections.flatMap Section.lines))

end Generator

end Pagewright
