import Pagewright.Script.Expression
import Pagewright.Script.Vocabulary

namespace Pagewright
namespace Script

/-!
# Actions

What a command writes, and what it does to the nesting, are separate
questions.  An action answers the first: it holds the code of a command and
says whether that code opens a block, closes one, or both.  Where the code ends
up is decided later, by the program it is added to.
-/

inductive Action where
  /-- One line inside the open blocks. -/
  | line (code : String)
  /-- A line with the lines behind it inside. -/
  | openBlock (code : String)
  /-- A line that closes the innermost block and opens another. -/
  | reopenBlock (code : String)
  /-- The end of the innermost block. -/
  | closeBlock (construct : String)
  /-- A block of one statement. -/
  | callback (head : String) (body : String) (tail : String)
deriving Repr, DecidableEq

namespace Action

/-- An expression on its own line, bound to a variable if there is a name for
one. -/
def bind (name : Option String) (expression : String) : Action :=
  match name with
  | some name => .line ("let " ++ name ++ " = " ++ expression ++ ";")
  | none => .line (expression ++ ";")

/-- The element whose identifier is the argument at `index`. -/
def element (command : Command) (index : Nat) : String :=
  "document.getElementById(" ++ Text.singleQuoted (command.argumentD index "") ++ ")"

/-- The start of a further branch. -/
def elseIf (command : Command) (start : Nat) : Action :=
  .reopenBlock ("\x7d else if (" ++ condition command start ++ ") \x7b")

/-- A timer that runs the first argument as code. -/
def timer (function : String) (command : Command) : Action :=
  .callback (function ++ "(function() \x7b") (command.argumentD 0 "")
    ("\x7d, " ++ command.argumentD 1 "1000" ++ ");")

/-- The action of a command. -/
def ofCommand (command : Command) : Instruction → Action
  | .declare =>
      if 1 < command.arguments.length then
        .line ("let " ++ command.argumentD 0 "" ++ " = " ++ valueAt command 1 ++ ";")
      else
        .line ("let " ++ command.argumentD 0 "" ++ ";")
  | .assign => .line (command.argumentD 0 "" ++ " = " ++ valueAt command 1 ++ ";")
  | .function =>
      .openBlock ("function " ++ command.argumentD 0 "" ++ "(" ++
        String.intercalate ", " ((command.words.drop 1).map Word.text) ++ ") \x7b")
  | .call => .line (command.argumentD 0 "" ++ "(" ++ valuesFrom command 1 ++ ");")
  | .returnValue =>
      if command.arguments.isEmpty then
        .line "return;"
      else
        .line ("return " ++ valueAt command 0 ++ ";")
  | .print => .line ("console.log(" ++ valuesFrom command 0 ++ ");")
  | .alert => .line ("alert(" ++ valueAt command 0 ++ ");")
  | .ask => bind (command.nonemptyArgument? 1) ("prompt(" ++ valueAt command 0 ++ ")")
  | .whenTrue => .openBlock ("if (" ++ condition command 0 ++ ") \x7b")
  | .otherwiseIf => elseIf command 0
  | .otherwise =>
      if command.argument? 0 = some "إذا" then
        elseIf command 1
      else
        .reopenBlock "\x7d else \x7b"
  | .forRange =>
      let counter := command.argumentD 0 "i"
      .openBlock ("for (let " ++ counter ++ " = " ++ valueAt command 1 ++ "; " ++
        counter ++ " <= " ++ valueAt command 2 ++ "; " ++ counter ++ "++) \x7b")
  | .whileTrue => .openBlock ("while (" ++ condition command 0 ++ ") \x7b")
  | .forEach =>
      .openBlock ("for (let " ++ command.argumentD 0 "" ++ " of " ++
        command.argumentD 1 "" ++ ") \x7b")
  | .endBlock construct => .closeBlock construct
  | .leaveLoop => .line "break;"
  | .nextRound => .line "continue;"
  | .onEvent event =>
      .callback (element command 0 ++ "." ++ event ++ " = function() \x7b")
        (codeFrom command 1) "\x7d;"
  | .onLoad => .callback "window.onload = function() \x7b" (codeFrom command 0) "\x7d;"
  | .elementById => bind (command.nonemptyArgument? 1) (element command 0)
  | .elementsMatching =>
      bind (command.nonemptyArgument? 1)
        ("document.querySelectorAll(" ++ Text.singleQuoted (command.argumentD 0 "") ++ ")")
  | .setContent =>
      .line (element command 0 ++ ".innerHTML = " ++ valueAt command 1 ++ ";")
  | .setValue => .line (element command 0 ++ ".value = " ++ valueAt command 1 ++ ";")
  | .setStyle =>
      .line (element command 0 ++ ".style." ++ command.argumentD 1 "" ++ " = " ++
        valueAt command 2 ++ ";")
  | .addClass =>
      .line (element command 0 ++ ".classList.add(" ++
        Text.singleQuoted (command.argumentD 1 "") ++ ");")
  | .removeClass =>
      .line (element command 0 ++ ".classList.remove(" ++
        Text.singleQuoted (command.argumentD 1 "") ++ ");")
  | .arithmetic operator =>
      .line ("let " ++ command.argumentD 0 "" ++ " = " ++ valueAt command 1 ++ " " ++
        operator ++ " " ++ valueAt command 2 ++ ";")
  | .array =>
      .line ("let " ++ command.argumentD 0 "" ++ " = [" ++ valuesFrom command 1 ++ "];")
  | .push => .line (command.argumentD 0 "" ++ ".push(" ++ valueAt command 1 ++ ");")
  | .pop => .line (command.argumentD 0 "" ++ ".pop();")
  | .length => bind (command.nonemptyArgument? 1) (command.argumentD 0 "" ++ ".length")
  | .object => .line ("let " ++ command.argumentD 0 "" ++ " = \x7b\x7d;")
  | .property =>
      .line (command.argumentD 0 "" ++ "." ++ command.argumentD 1 "" ++ " = " ++
        valueAt command 2 ++ ";")
  | .stringify =>
      bind (command.nonemptyArgument? 1)
        ("JSON.stringify(" ++ command.argumentD 0 "" ++ ")")
  | .parse =>
      bind (command.nonemptyArgument? 1) ("JSON.parse(" ++ valueAt command 0 ++ ")")
  | .now => bind (command.nonemptyArgument? 0) "new Date()"
  | .timeout => timer "setTimeout" command
  | .interval => timer "setInterval" command
  | .comment => .line ("// " ++ command.rest 0)
  | .raw => .line (codeFrom command 0)

end Action

end Script
end Pagewright
