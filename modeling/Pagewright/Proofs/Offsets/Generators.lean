import Pagewright.Proofs.Generator
import Pagewright.Proofs.Offsets.Words
import Pagewright.Script.Generator
import Pagewright.Stylesheet.Generator

namespace Pagewright
namespace Offsets

/-!
# Generators that count

A program that keeps its nesting depth in a machine word cannot go below zero:
lowering a counter is partial, and so is slicing a line behind an argument.
The generators of stylesheets and scripts are given here in this form.  A test
for zero stands in front of most places that lower a counter, but not of all of
them, and the slices have no test at all.

An operation that fails inside a generator is a crash, and an operation that
fails while a line is read leaves no result.  On the commands that lines hold,
neither happens: a run by offsets is a run (`run?_eq`).
-/

open Generator (Progress)

/-- One less than a counter.  Nothing is less than zero. -/
def lower? : Nat → Option Nat
  | 0 => none
  | outer + 1 => some outer

/-- Write the ends of all open blocks, lowering the counter in front of each. -/
def closeLoop? {α : Type} (stop : α) (lines : Array (Text.Indented α)) (depth : Nat) :
    Option (Array (Text.Indented α)) :=
  if depth = 0 then
    some lines
  else
    match _lowered : lower? depth with
    | none => none
    | some outer => closeLoop? stop (lines.push ⟨outer, stop⟩) outer
termination_by depth
decreasing_by
  cases depth with
  | zero => cases _lowered
  | succ depth =>
      cases _lowered
      exact Nat.lt_succ_self _

theorem closeLoop?_succ {α : Type} (stop : α) (lines : Array (Text.Indented α)) (outer : Nat) :
    closeLoop? stop lines (outer + 1) = closeLoop? stop (lines.push ⟨outer, stop⟩) outer := by
  rw [closeLoop?, if_neg (Nat.succ_ne_zero outer)]
  rfl

variable {σ : Type}

/-- The effect of a command, which is a crash where it cannot be computed. -/
def orCrash (state : σ) (step : Option (Step σ)) : Step σ :=
  step.getD { state := state, verdict := .crashed ⟨none⟩ }

/-! ## Scripts -/

/-- The action of a command.  The rests of the line behind its arguments are all
sliced, whether or not the instruction asks for them. -/
def action? (command : Command) (instruction : Script.Instruction) : Option Script.Action := do
  let _ ← (List.range command.arguments.length).mapM (rest? command)
  return .ofCommand command instruction

/-- Add the code of an action. -/
def applied? (program : Script.Program) : Script.Action → Option (Step Script.Program)
  | .line code => some { state := program.write code }
  | .openBlock code => some { state := program.openBlock code }
  | .reopenBlock code =>
      if program.depth = 0 then
        some { state := program, verdict := .failed (.unmatchedClose "if") }
      else
        (lower? program.depth).map fun outer =>
          { state := { program with depth := outer }.openBlock code }
  | .closeBlock construct =>
      if program.depth = 0 then
        some { state := program, verdict := .failed (.unmatchedClose construct) }
      else
        (lower? program.depth).map fun outer =>
          { state := { program with depth := outer }.write "\x7d" }
  | .callback head body tail =>
      let inner := (program.openBlock head).write (Script.statement body)
      (lower? inner.depth).map fun outer => { state := { inner with depth := outer }.write tail }

def scriptGenerator : Generator Script.Program where
  target := .script
  initial := {}
  execute := fun program command =>
    match Script.Instruction.ofKey? command.key with
    | none => { state := program, verdict := .unknown }
    | some instruction =>
        orCrash program ((action? command instruction).bind (applied? program))
  finish := fun program =>
    match closeLoop? "\x7d" program.lines program.depth with
    | none => { Script.finish program with output := .error ⟨none⟩ }
    | some lines =>
        { Script.finish program with state := ⟨lines, 0⟩, output := .ok (Script.Program.render ⟨lines, 0⟩) }

theorem applied?_eq (program : Script.Program) (action : Script.Action) :
    applied? program action = some (program.apply action) := by
  rcases program with ⟨lines, depth⟩
  cases action with
  | line => rfl
  | openBlock => rfl
  | callback => rfl
  | reopenBlock code =>
      cases depth with
      | zero => rfl
      | succ outer => rfl
  | closeBlock construct =>
      cases depth with
      | zero => rfl
      | succ outer => rfl

/-- Every rest that an instruction may ask for exists. -/
theorem action?_eq {text : String} {command : Command} (read : Command.ofLine? text = some command)
    (instruction : Script.Instruction) :
    action? command instruction = some (.ofCommand command instruction) := by
  have sliced : (List.range command.arguments.length).mapM (rest? command) =
      some ((List.range command.arguments.length).map command.rest) := by
    have each : rest? command = fun index => pure (command.rest index) := funext (rest?_eq read)
    rw [each, List.mapM_pure]
    rfl
  rw [action?, sliced]
  rfl

theorem closeLoop?_script (lines : Array (Text.Indented String)) (depth : Nat) :
    closeLoop? "\x7d" lines depth = some (Script.Program.closingLines lines depth) := by
  induction depth generalizing lines with
  | zero => rw [closeLoop?, if_pos rfl, Script.Program.closingLines]
  | succ outer ih => rw [closeLoop?_succ, ih, Script.Program.closingLines]

/-! ## Stylesheets -/

/-- Close the innermost media query. -/
def endMedia? (sheet : Stylesheet.Sheet) : Option (Step Stylesheet.Sheet) :=
  if sheet.queries = 0 then
    some { state := sheet, verdict := .failed (.unmatchedClose "media query") }
  else
    let closed := sheet.closeRule
    (lower? closed.queries).map fun outer =>
      { state := { closed with queries := outer }.write .closing }

def sheetGenerator : Generator Stylesheet.Sheet where
  target := .stylesheet
  initial := {}
  execute := fun sheet command =>
    match Stylesheet.Instruction.ofKey? command.key with
    | some .endMedia =>
        if Stylesheet.holdsEndTag command then Stylesheet.execute sheet command
        else orCrash sheet (endMedia? sheet)
    | _ => Stylesheet.execute sheet command
  finish := fun sheet =>
    let closed := sheet.closeRule
    match closeLoop? .closing closed.lines closed.queries with
    | none => { Stylesheet.finish sheet with output := .error ⟨none⟩ }
    | some lines =>
        let last := { closed with lines := lines, queries := 0 }
        { Stylesheet.finish sheet with state := last, output := .ok last.render }

theorem closeRule_queries (sheet : Stylesheet.Sheet) : sheet.closeRule.queries = sheet.queries := by
  unfold Stylesheet.Sheet.closeRule
  split
  · rfl
  · rfl

theorem endMedia?_eq (sheet : Stylesheet.Sheet) (command : Command) :
    endMedia? sheet = some (Stylesheet.apply sheet command .endMedia) := by
  rw [endMedia?, Stylesheet.apply, Stylesheet.Sheet.endMedia?]
  dsimp only
  rw [closeRule_queries]
  cases sheet.queries with
  | zero => rfl
  | succ outer => rfl

theorem closeLoop?_sheet (lines : Array (Text.Indented Stylesheet.Entry)) (queries : Nat) :
    closeLoop? .closing lines queries = some (Stylesheet.Sheet.closingLines lines queries) := by
  induction queries generalizing lines with
  | zero => rw [closeLoop?, if_pos rfl, Stylesheet.Sheet.closingLines]
  | succ outer ih => rw [closeLoop?_succ, ih, Stylesheet.Sheet.closingLines]

/-! ## Runs -/

/-- The progress behind a line that holds the given command. -/
def respond (generator : Generator σ) (progress : Progress σ) (line : SourceLine) :
    Option Command → Progress σ
  | none => progress.visit line
  | some command =>
      let visited := progress.visit line
      let step := generator.execute visited.state command
      let stepped := { visited with state := step.state }.warn line step.warnings
      match step.verdict with
      | .handled => stepped
      | .unknown => stepped.warn line [Generator.unknownMessage generator.target command.key]
      | .failed fault => stepped.fail line fault
      | .crashed crash => stepped.fail line crash.fault

/-- Read lines up to the first one that fails. -/
def read? (generator : Generator σ) (progress : Progress σ) :
    List SourceLine → Option (Progress σ)
  | [] => some progress
  | line :: rest =>
      (command? line.text).bind fun command =>
        let next := respond generator progress line command
        if next.error.isSome then some next else read? generator next rest

/-- Run a generator over the lines of some sections. -/
def run? (generator : Generator σ) (sections : List Section) : Option Outcome :=
  (read? generator { state := generator.initial } (sections.flatMap Section.lines)).map
    generator.close

/-- A generator does the same as another one on all commands that lines hold. -/
structure Agrees (guarded plain : Generator σ) : Prop where
  target : guarded.target = plain.target
  initial : guarded.initial = plain.initial
  execute : ∀ state text command, Command.ofLine? text = some command →
    guarded.execute state command = plain.execute state command
  finish : ∀ state, guarded.finish state = plain.finish state

theorem agrees_self (generator : Generator σ) : Agrees generator generator :=
  ⟨rfl, rfl, fun _ _ _ _ => rfl, fun _ => rfl⟩

theorem agrees_script : Agrees scriptGenerator Script.generator where
  target := rfl
  initial := rfl
  execute := by
    intro program text command read
    dsimp only [scriptGenerator, Script.generator, Script.execute]
    cases Script.Instruction.ofKey? command.key with
    | none => rfl
    | some instruction =>
        dsimp only
        rw [action?_eq read, Option.bind_some, applied?_eq]
        rfl
  finish := by
    intro program
    dsimp only [scriptGenerator, Script.generator]
    rw [closeLoop?_script]
    rfl

theorem agrees_sheet : Agrees sheetGenerator Stylesheet.generator where
  target := rfl
  initial := rfl
  execute := by
    intro sheet text command read
    dsimp only [sheetGenerator, Stylesheet.generator]
    split
    case h_1 found =>
        split
        case isTrue => rfl
        case isFalse harmless =>
            rw [endMedia?_eq sheet command, Stylesheet.execute, found]
            dsimp only
            rw [if_neg harmless]
            rfl
    case h_2 => rfl
  finish := by
    intro sheet
    dsimp only [sheetGenerator, Stylesheet.generator]
    rw [closeLoop?_sheet]
    rfl

/-- On the command of a line, two generators that agree make the same
progress. -/
theorem respond_eq {guarded plain : Generator σ} (agrees : Agrees guarded plain)
    (progress : Progress σ) (line : SourceLine) :
    respond guarded progress line (Command.ofLine? line.text) = plain.advance progress line := by
  unfold Generator.advance
  cases found : Command.ofLine? line.text with
  | none => rfl
  | some command =>
      have same : respond guarded progress line (some command) =
          respond plain progress line (some command) := by
        unfold respond
        dsimp only
        rw [agrees.execute _ line.text command found, agrees.target]
      exact same

/-- Reading by offsets comes as far as reading does. -/
theorem read?_eq {guarded plain : Generator σ} (agrees : Agrees guarded plain)
    {progress : Progress σ} (running : progress.error = none) (lines : List SourceLine) :
    read? guarded progress lines = some (plain.read progress lines) := by
  induction lines generalizing progress with
  | nil => rfl
  | cons line rest ih =>
      rw [read?, command?_eq, Option.bind_some, Generator.read_cons plain running]
      dsimp only
      rw [respond_eq agrees]
      cases ended : (plain.advance progress line).error with
      | none => exact ih ended
      | some error => rfl

theorem run?_eq {guarded plain : Generator σ} (agrees : Agrees guarded plain)
    (sections : List Section) : run? guarded sections = some (plain.run sections) := by
  have closing : guarded.close = plain.close := by
    funext progress
    unfold Generator.close
    rw [agrees.finish, agrees.target]
  rw [run?, read?_eq agrees rfl, Option.map_some, closing, agrees.initial]
  rfl

end Offsets
end Pagewright
