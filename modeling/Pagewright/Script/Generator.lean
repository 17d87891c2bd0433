import Pagewright.Generator
import Pagewright.Script.Action

namespace Pagewright
namespace Script

/-!
# Scripts

The generator of scripts.  A program knows how many blocks are open, but not of
which kind: any end closes the innermost block.  Blocks left open are closed
at the end, with a warning.
-/

/-- A program under construction. -/
structure Program where
  lines : Array (Text.Indented String) := #[]
  /-- The number of open blocks. -/
  depth : Nat := 0
deriving Repr, DecidableEq

namespace Program

/-- Add a line inside the open blocks. -/
def write (program : Program) (code : String) : Program :=
  { program with lines := program.lines.push ⟨program.depth, code⟩ }

/-- Add a line and put the lines behind it inside a block. -/
def openBlock (program : Program) (code : String) : Program :=
  { program.write code with depth := program.depth + 1 }

/-- The program outside its innermost block, if there is one. -/
def leaveBlock? (program : Program) : Option Program :=
  match program.depth with
  | 0 => none
  | outer + 1 => some { program with depth := outer }

/-- Add a block of one statement. -/
def writeCallback (program : Program) (head body tail : String) : Program :=
  { (program.openBlock head).write (statement body) with depth := program.depth }.write tail

/-- The lines written so far, followed by the ends of `depth` blocks. -/
def closingLines (lines : Array (Text.Indented String)) :
    (depth : Nat) → Array (Text.Indented String)
  | 0 => lines
  | outer + 1 => closingLines (lines.push ⟨outer, "\x7d"⟩) outer

/-- Close all blocks. -/
def closeAll (program : Program) : Program :=
  { lines := closingLines program.lines program.depth, depth := 0 }

/-- What stands for a program without lines. -/
def emptyText : String := "// لا يوجد كود JavaScript"

def render (program : Program) : String :=
  if program.lines.isEmpty then
    emptyText
  else
    Text.Indented.renderAll id program.lines

/-- Add the code of an action. -/
def apply (program : Program) : Action → Step Program
  | .line code => { state := program.write code }
  | .openBlock code => { state := program.openBlock code }
  | .reopenBlock code =>
      match program.leaveBlock? with
      | some outer => { state := outer.openBlock code }
      | none => { state := program, verdict := .failed (.unmatchedClose "if") }
  | .closeBlock construct =>
      match program.leaveBlock? with
      | some outer => { state := outer.write "\x7d" }
      | none => { state := program, verdict := .failed (.unmatchedClose construct) }
  | .callback head body tail => { state := program.writeCallback head body tail }

end Program

/-- Run one command. -/
def execute (program : Program) (command : Command) : Step Program :=
  match Instruction.ofKey? command.key with
  | none => { state := program, verdict := .unknown }
  | some instruction => program.apply (Action.ofCommand command instruction)

/-- The finished program.  Its lines stay, so that it can be continued. -/
def finish (program : Program) : Finish Program :=
  let closed := program.closeAll
  { state := closed
    warnings :=
      if program.depth = 0 then
        []
      else
        [toString program.depth ++ " block(s) left open at end of input; closing"]
    output := .ok closed.render }

def generator : Generator Program where
  target := .script
  initial := {}
  execute := execute
  finish := finish

end Script
end Pagewright
