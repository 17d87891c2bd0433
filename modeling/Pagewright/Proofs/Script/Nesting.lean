import Pagewright.Proofs.Commands
import Pagewright.Proofs.Script.Codes
import Pagewright.Script.Generator

namespace Pagewright
namespace Script

/-!
# Nesting in programs

A program counts its open blocks and never looks at its lines.  That the count
is right is a fact about brackets: behind any line, the brackets that are waited
for are that many braces and nothing else.  Inside a callback there may be a
parenthesis as well, but a callback is written in one piece.

From this the indentation of a line can be told from the lines in front of it,
and so can the commands that fail.  The two are stated in terms of the codes
alone, which are the codes of the commands in their order, without those of
commands that fail.
-/

/-! ## Codes of commands in order -/

/-- The codes that an action writes. -/
def Action.codes : Action → List String
  | .line code => [code]
  | .openBlock code => [code]
  | .reopenBlock code => [code]
  | .closeBlock _ => ["\x7d"]
  | .callback head body tail => [head, statement body, tail]

/-- The number of open blocks behind an action.  Without an open block nothing
can be closed. -/
def Action.after? : Action → (opened : Nat) → Option Nat
  | .line _, opened => some opened
  | .openBlock _, opened => some (opened + 1)
  | .reopenBlock _, 0 => none
  | .reopenBlock _, outer + 1 => some (outer + 1)
  | .closeBlock _, 0 => none
  | .closeBlock _, outer + 1 => some outer
  | .callback _ _ _, opened => some opened

/-- The action of a known command. -/
def actionOf? (command : Command) : Option Action :=
  (Instruction.ofKey? command.key).map (Action.ofCommand command)

/-- The codes that commands write where some blocks are open. -/
def codesOf (opened : Nat) : List Command → List String
  | [] => []
  | command :: rest =>
      match actionOf? command with
      | none => codesOf opened rest
      | some action =>
          match action.after? opened with
          | none => codesOf opened rest
          | some after => action.codes ++ codesOf after rest

/-- An instruction that goes on from an open block. -/
def Instruction.NeedsBlock : Instruction → Prop
  | .otherwiseIf => True
  | .otherwise => True
  | .endBlock _ => True
  | _ => False

/-- The codes on the lines of a program. -/
def codes (program : Program) : List String :=
  program.lines.toList.map Text.Indented.content

/-- An action that can be carried out adds its codes, and one that cannot fails
and adds nothing. -/
theorem apply_spec (program : Program) (action : Action) :
    match action.after? program.depth with
    | none => (program.apply action).state = program ∧
        ∃ fault, (program.apply action).verdict = .failed fault
    | some after => (program.apply action).verdict = .handled ∧
        (program.apply action).state.depth = after ∧
        codes (program.apply action).state = codes program ++ action.codes := by
  rcases program with ⟨lines, depth⟩
  cases action with
  | line code => simp [Action.after?, Program.apply, Program.write, codes, Action.codes]
  | openBlock code =>
      simp [Action.after?, Program.apply, Program.openBlock, Program.write, codes, Action.codes]
  | reopenBlock code =>
      cases depth with
      | zero => simp [Action.after?, Program.apply, Program.leaveBlock?]
      | succ outer =>
          simp [Action.after?, Program.apply, Program.leaveBlock?, Program.openBlock,
            Program.write, codes, Action.codes]
  | closeBlock construct =>
      cases depth with
      | zero => simp [Action.after?, Program.apply, Program.leaveBlock?]
      | succ outer =>
          simp [Action.after?, Program.apply, Program.leaveBlock?, Program.write, codes,
            Action.codes]
  | callback head body tail =>
      simp [Action.after?, Program.apply, Program.writeCallback, Program.openBlock,
        Program.write, codes, Action.codes]

theorem execute_eq (program : Program) (command : Command) :
    execute program command =
      match actionOf? command with
      | none => { state := program, verdict := .unknown }
      | some action => program.apply action := by
  rw [execute, actionOf?]
  cases Instruction.ofKey? command.key with
  | none => rfl
  | some instruction => rfl

theorem codes_perform (program : Program) (commands : List Command) :
    codes (generator.perform program commands).2 =
      codes program ++ codesOf program.depth commands := by
  induction commands generalizing program with
  | nil => rw [Generator.perform, codesOf, List.append_nil]
  | cons command rest ih =>
      have executed : generator.execute program command = execute program command := rfl
      rw [Generator.perform, codesOf]
      dsimp only
      rw [executed, execute_eq, ih]
      cases actionOf? command with
      | none => rfl
      | some action =>
          have applied := apply_spec program action
          dsimp only
          cases after : action.after? program.depth with
          | none =>
              rw [after] at applied
              rw [applied.1]
          | some opened =>
              rw [after] at applied
              rw [applied.2.1, applied.2.2, List.append_assoc]

/-! ## Braces and indentation -/

/-- The number of braces that codes leave open. -/
def leftOpen (codes : List String) : Int :=
  let text := codes.flatMap String.toList
  (text.count '\x7b' : Int) - text.count '\x7d'

/-- How far a line stands outside the blocks in front of it. -/
def outdent (code : String) : Nat :=
  if code.toList.head? = some '\x7d' then 1 else 0

/-- Each line is indented by the braces that are left open in front of it, less
one if it begins with the end of a block. -/
def LaidOut (lines : List (Text.Indented String)) : Prop :=
  ∀ front line back, lines = front ++ line :: back →
    (line.depth : Int) = leftOpen (front.map Text.Indented.content) - outdent line.content

/-- A code that needs no open block does not begin with the end of one. -/
theorem outdent_of_leads {code : String} {after : List Char} (leads : Leads [] code after) :
    outdent code = 0 := by
  unfold outdent
  split
  case isFalse => rfl
  case isTrue begins =>
      rcases List.head?_eq_some_iff.mp begins with ⟨rest, whole⟩
      rw [Leads, whole, nest_cons] at leads
      cases leads

/-- A code leads on in the same way where more brackets are waited for. -/
theorem Leads.below {before after : List Char} {code : String} (leads : Leads before code after)
    (below : List Char) : Leads (before ++ below) code (after ++ below) :=
  nest_below leads below

/-- The lines are laid out, and lead to the brackets that are waited for. -/
structure Nested (lines : Array (Text.Indented String)) (waiting : List Char) : Prop where
  leads : nest [] ((lines.toList.map Text.Indented.content).flatMap String.toList) = some waiting
  laidOut : LaidOut lines.toList

namespace Nested

variable {lines : Array (Text.Indented String)} {waiting : List Char}

theorem empty : Nested #[] [] := by
  refine ⟨rfl, ?_⟩
  intro front line back whole
  cases front <;> cases whole

theorem leftOpen_eq (nested : Nested lines waiting) :
    leftOpen (lines.toList.map Text.Indented.content) = waiting.count '\x7d' := by
  have counts := count_of_nest nested.leads
  rw [List.count_nil] at counts
  rw [leftOpen]
  omega

/-- One more line leads on from the lines in front of it. -/
theorem push (nested : Nested lines waiting) {code : String} {after : List Char} {depth : Nat}
    (leads : Leads waiting code after) (placed : depth + outdent code = waiting.count '\x7d') :
    Nested (lines.push ⟨depth, code⟩) after := by
  constructor
  · rw [Array.toList_push, List.map_append, List.flatMap_append, nest_append, nested.leads,
      Option.bind_some, List.map_singleton, List.flatMap_singleton]
    exact leads
  · rw [Array.toList_push]
    intro front line back whole
    rcases List.eq_nil_or_concat back with rfl | ⟨between, last, rfl⟩
    · rcases List.append_inj' whole rfl with ⟨rfl, same⟩
      cases same
      rw [nested.leftOpen_eq, ← placed]
      dsimp only
      omega
    · have shorter : lines.toList ++ [⟨depth, code⟩] = (front ++ line :: between) ++ [last] := by
        simpa using whole
      exact nested.laidOut front line between (List.append_inj' shorter rfl).1

/-- A line inside the open blocks. -/
theorem pushInside (nested : Nested lines waiting) {code : String} {after : List Char}
    {depth : Nat} (leads : Leads [] code after) (inside : depth = waiting.count '\x7d') :
    Nested (lines.push ⟨depth, code⟩) (after ++ waiting) := by
  apply nested.push (leads.below waiting)
  rw [outdent_of_leads leads, inside, Nat.add_zero]

/-- A line that begins with the end of a block. -/
theorem pushEnd {before below : List Char} (nested : Nested lines (before ++ below))
    {code : String} {after : List Char} {depth : Nat} (leads : Leads before code after)
    (begins : code.toList.head? = some '\x7d')
    (inside : depth + 1 = (before ++ below).count '\x7d') :
    Nested (lines.push ⟨depth, code⟩) (after ++ below) := by
  apply nested.push (leads.below below)
  rw [outdent, if_pos begins, inside]

end Nested

/-! ## Programs -/

/-- Behind its lines, a program waits for one brace for each open block. -/
def Steady (program : Program) : Prop :=
  Nested program.lines (List.replicate program.depth '\x7d')

namespace Steady

variable {program : Program}

theorem count_waiting (depth : Nat) : depth = (List.replicate depth '\x7d').count '\x7d' :=
  List.count_replicate_self.symm

theorem write (steady : Steady program) {code : String} (leads : Leads [] code []) :
    Steady (program.write code) :=
  Nested.pushInside steady leads (count_waiting _)

theorem openBlock (steady : Steady program) {code : String} (leads : Leads [] code ['\x7d']) :
    Steady (program.openBlock code) :=
  Nested.pushInside steady leads (count_waiting _)

theorem writeCallback (steady : Steady program) {head body tail : String}
    (regular : (Action.callback head body tail).Regular) :
    Steady (program.writeCallback head body tail) := by
  rcases regular with ⟨outside, other, opens, inside, closes, begins⟩
  -- Inside the callback one more brace is waited for, in front of the parenthesis if any.
  have deeper : program.depth + 1 =
      ('\x7d' :: outside ++ List.replicate program.depth '\x7d').count '\x7d' := by
    rw [List.count_append, List.count_cons_self, List.count_eq_zero.mpr other, ← count_waiting]
    omega
  have opened := Nested.pushInside steady opens (count_waiting _)
  have filled : Nested _ ('\x7d' :: outside ++ List.replicate program.depth '\x7d') :=
    opened.pushInside inside deeper
  exact filled.pushEnd closes begins deeper

theorem apply (steady : Steady program) {action : Action} (regular : action.Regular) :
    Steady (program.apply action).state := by
  rcases program with ⟨lines, depth⟩
  cases action with
  | line code => exact steady.write regular
  | openBlock code => exact steady.openBlock regular
  | reopenBlock code =>
      cases depth with
      | zero => exact steady
      | succ outer =>
          have nested : Nested lines (['\x7d'] ++ List.replicate outer '\x7d') := steady
          exact nested.pushEnd regular.1 regular.2 (count_waiting (outer + 1))
  | closeBlock construct =>
      cases depth with
      | zero => exact steady
      | succ outer =>
          have nested : Nested lines (['\x7d'] ++ List.replicate outer '\x7d') := steady
          have leads : Leads ['\x7d'] "\x7d" [] := rfl
          exact nested.pushEnd leads (by decide) (count_waiting (outer + 1))
  | callback head body tail => exact steady.writeCallback regular

theorem execute (steady : Steady program) {text : String} {command : Command}
    (read : Command.ofLine? text = some command) (avoids : command.Avoids brackets) :
    Steady (execute program command).state := by
  rw [execute_eq, actionOf?]
  cases known : Instruction.ofKey? command.key with
  | none => exact steady
  | some instruction =>
      have harmless := harmless_of_ofLine? read known avoids
      exact steady.apply (regular_ofCommand harmless (avoids_of_ofKey? known))

theorem perform (steady : Steady program) {commands : List Command}
    (given : ∀ command ∈ commands,
      (∃ text, Command.ofLine? text = some command) ∧ command.Avoids brackets) :
    Steady (generator.perform program commands).2 := by
  induction commands generalizing program with
  | nil => exact steady
  | cons command rest ih =>
      rcases given command List.mem_cons_self with ⟨⟨text, read⟩, avoids⟩
      apply ih (steady.execute read avoids)
      intro other member
      exact given other (List.mem_cons_of_mem command member)

theorem closingLines {lines : Array (Text.Indented String)} {depth : Nat}
    (nested : Nested lines (List.replicate depth '\x7d')) :
    Nested (Program.closingLines lines depth) [] := by
  induction depth generalizing lines with
  | zero => exact nested
  | succ outer ih =>
      have longer : Nested lines (['\x7d'] ++ List.replicate outer '\x7d') := nested
      have leads : Leads ['\x7d'] "\x7d" [] := rfl
      exact ih (longer.pushEnd leads (by decide) (count_waiting (outer + 1)))

theorem leftOpen_eq (steady : Steady program) : leftOpen (codes program) = program.depth := by
  rw [codes, Nested.leftOpen_eq steady, ← count_waiting]

end Steady

theorem codes_closeAll (program : Program) :
    codes program.closeAll = codes program ++ List.replicate program.depth "\x7d" := by
  rcases program with ⟨lines, depth⟩
  rw [Program.closeAll, codes, codes]
  dsimp only
  induction depth generalizing lines with
  | zero => rw [Program.closingLines, List.replicate_zero, List.append_nil]
  | succ outer ih =>
      rw [Program.closingLines, ih, Array.toList_push, List.map_append, List.append_assoc]
      rfl

/-! ## The text -/

theorem avoids_indentation (depth : Nat) : Text.Avoids brackets (Text.indentation depth) := by
  intro c member bracket
  apply Text.notMem_indentation _ depth member
  rintro rfl
  exact absurd bracket (by decide)

/-- The layout has no brackets. -/
theorem nest_joinLines (waiting : List Char) (lines : List (Text.Indented String)) :
    nest waiting (Text.joinLines (lines.map (Text.Indented.render id))).toList =
      nest waiting ((lines.map Text.Indented.content).flatMap String.toList) := by
  induction lines generalizing waiting with
  | nil => rfl
  | cons line rest ih =>
      have margin : nest waiting (Text.indentation line.depth).toList = some waiting :=
        leads_of_avoids (avoids_indentation line.depth) waiting
      have first : nest waiting (line.render id).toList = nest waiting line.content.toList := by
        rw [Text.Indented.render, String.toList_append, nest_append, margin, Option.bind_some]
        rfl
      cases rest with
      | nil =>
          rw [List.map_singleton, List.map_singleton, List.flatMap_singleton, ← first,
            Text.joinLines, String.intercalate_singleton]
      | cons second others =>
          have written : Text.joinLines ((line :: second :: others).map (Text.Indented.render id)) =
              line.render id ++ "\n" ++
                Text.joinLines ((second :: others).map (Text.Indented.render id)) :=
            String.intercalate_cons_cons
          have coded : ((line :: second :: others).map Text.Indented.content).flatMap String.toList =
              line.content.toList ++
                ((second :: others).map Text.Indented.content).flatMap String.toList :=
            List.flatMap_cons
          have feed : ∀ after, nest after "\n".toList = some after := fun _ => rfl
          rw [written, coded, String.toList_append, String.toList_append, nest_append, nest_append,
            nest_append, first, Option.bind_assoc]
          simp only [feed, Option.bind_some, ih]

/-- The text of lines, or what stands for it where there are none. -/
def textOf (lines : List (Text.Indented String)) : String :=
  if lines = [] then Program.emptyText
  else Text.joinLines (lines.map fun line => Text.indentation line.depth ++ line.content)

theorem render_eq (program : Program) : program.render = textOf program.lines.toList := by
  unfold Program.render textOf
  simp only [Array.isEmpty_iff, Array.toList_eq_nil_iff]
  rfl

theorem balanced_render {program : Program} (nested : Nested program.lines []) :
    Balanced program.render := by
  unfold Program.render
  split
  · decide
  · rw [Balanced, Text.Indented.renderAll, nest_joinLines]
    exact nested.leads

/-! ## Failures -/

/-- An action that goes on from an open block. -/
def Action.NeedsBlock : Action → Prop
  | .reopenBlock _ => True
  | .closeBlock _ => True
  | _ => False

theorem after?_eq_none (action : Action) (opened : Nat) :
    action.after? opened = none ↔ action.NeedsBlock ∧ opened = 0 := by
  cases action <;> cases opened <;> simp [Action.after?, Action.NeedsBlock]

theorem not_needsBlock_bind (name : Option String) (expression : String) :
    ¬(Action.bind name expression).NeedsBlock := by
  cases name <;> exact id

theorem needsBlock_ofCommand (command : Command) (instruction : Instruction) :
    (Action.ofCommand command instruction).NeedsBlock ↔ instruction.NeedsBlock := by
  have bound (name : Option String) (expression : String) :
      (Action.bind name expression).NeedsBlock ↔ False :=
    iff_false_intro (not_needsBlock_bind name expression)
  cases instruction with
  | declare =>
      rw [Action.ofCommand]
      split <;> exact Iff.rfl
  | returnValue =>
      rw [Action.ofCommand]
      split <;> exact Iff.rfl
  | otherwise =>
      rw [Action.ofCommand]
      split <;> exact Iff.rfl
  | ask => exact bound _ _
  | elementById => exact bound _ _
  | elementsMatching => exact bound _ _
  | length => exact bound _ _
  | stringify => exact bound _ _
  | parse => exact bound _ _
  | now => exact bound _ _
  | _ => exact Iff.rfl

/-- A command fails if it needs an open block and there is none, and in no
other way. -/
theorem failed_iff (program : Program) (command : Command) :
    ((∃ fault, (execute program command).verdict = .failed fault) ↔
      (∃ instruction, Instruction.ofKey? command.key = some instruction ∧
        instruction.NeedsBlock) ∧ program.depth = 0) ∧
      ∀ crash, (execute program command).verdict ≠ .crashed crash := by
  rw [execute_eq, actionOf?]
  cases known : Instruction.ofKey? command.key with
  | none => simp
  | some instruction =>
      have applied := apply_spec program (Action.ofCommand command instruction)
      have none := after?_eq_none (Action.ofCommand command instruction) program.depth
      rw [needsBlock_ofCommand] at none
      rw [Option.map_some]
      cases after : (Action.ofCommand command instruction).after? program.depth with
      | none =>
          rw [after] at applied none
          rcases applied.2 with ⟨fault, failed⟩
          rcases none.mp rfl with ⟨needs, closed⟩
          constructor
          · exact ⟨fun _ => ⟨⟨instruction, rfl, needs⟩, closed⟩, fun _ => ⟨fault, failed⟩⟩
          · intro crash crashed
            cases failed.symm.trans crashed
      | some opened =>
          rw [after] at applied none
          constructor
          · constructor
            · rintro ⟨fault, failed⟩
              cases applied.1.symm.trans failed
            · rintro ⟨⟨other, same, needs⟩, closed⟩
              cases same
              cases none.mpr ⟨needs, closed⟩
          · intro crash crashed
            cases applied.1.symm.trans crashed

/-! ## Whole scripts -/

/-- The program behind some commands. -/
def programOf (commands : List Command) : Program :=
  (generator.perform generator.initial commands).2

/-- What the script of some commands looks like, and how it goes on. -/
structure WellNested (commands : List Command) : Prop where
  /-- A command fails exactly if it needs an open block and no brace is left
  open. -/
  fails : ∀ command,
    ((∃ fault, (execute (programOf commands) command).verdict = .failed fault) ↔
      (∃ instruction, Instruction.ofKey? command.key = some instruction ∧
        instruction.NeedsBlock) ∧ leftOpen (codesOf 0 commands) = 0) ∧
      ∀ crash, (execute (programOf commands) command).verdict ≠ .crashed crash
  /-- The text has the codes of the commands and the ends of open blocks on its
  lines, each at its place, and its brackets are balanced. -/
  text : ∃ (opened : Nat) (lines : List (Text.Indented String)),
    leftOpen (codesOf 0 commands) = opened ∧
      lines.map Text.Indented.content = codesOf 0 commands ++ List.replicate opened "\x7d" ∧
      LaidOut lines ∧ Balanced (textOf lines) ∧
      (finish (programOf commands)).output = .ok (textOf lines) ∧
      (finish (programOf commands)).warnings =
        if opened = 0 then []
        else [toString opened ++ " block(s) left open at end of input; closing"]

theorem wellNested_of_lines {commands : List Command}
    (given : ∀ command ∈ commands,
      (∃ text, Command.ofLine? text = some command) ∧ command.Avoids brackets) :
    WellNested commands := by
  have initial : Steady {} := Nested.empty
  have steady : Steady (programOf commands) := initial.perform given
  have closed : Nested (programOf commands).closeAll.lines [] := Steady.closingLines steady
  have written : codes (programOf commands) = codesOf 0 commands := codes_perform {} commands
  have opened := steady.leftOpen_eq
  rw [written] at opened
  constructor
  · intro command
    have failed := failed_iff (programOf commands) command
    rwa [← Int.natCast_eq_zero, ← opened] at failed
  · refine ⟨(programOf commands).depth, (programOf commands).closeAll.lines.toList, opened, ?_,
      closed.laidOut, ?_, ?_, rfl⟩
    · rw [← written]
      exact codes_closeAll (programOf commands)
    · rw [← render_eq]
      exact balanced_render closed
    · rw [← render_eq]
      rfl

/-- The brackets of a script are balanced when no argument holds a bracket,
whether the lines are all taken or the run ends at one that fails. -/
theorem script_wellNested (lines : List String)
    (avoids : ∀ line ∈ lines, ∀ command, Command.ofLine? line = some command →
      command.Avoids brackets) :
    WellNested (lines.filterMap Command.ofLine?) ∧
      ∀ sections : List Section, (sections.flatMap Section.lines).map SourceLine.text = lines →
        ∃ taken, taken <+: lines.filterMap Command.ofLine? ∧ WellNested taken ∧
          (finish (programOf taken)).output = .ok (generator.run sections).output ∧
          ((generator.run sections).errors = [] → taken = lines.filterMap Command.ofLine?) := by
  have given : ∀ command ∈ lines.filterMap Command.ofLine?,
      (∃ text, Command.ofLine? text = some command) ∧ command.Avoids brackets := by
    intro command member
    rcases List.mem_filterMap.mp member with ⟨line, listed, read⟩
    exact ⟨⟨line, read⟩, avoids line listed command read⟩
  refine ⟨wellNested_of_lines given, ?_⟩
  intro sections texts
  have commands : Generator.commandsOf (sections.flatMap Section.lines) =
      lines.filterMap Command.ofLine? := by
    rw [← texts, List.filterMap_map]
    rfl
  have said := generator.account_run sections
  rw [commands] at said
  rcases generator.exists_perform generator.initial (lines.filterMap Command.ofLine?) with
    ⟨taken, front, same, whole⟩
  refine ⟨taken, front, wellNested_of_lines fun command member =>
    given command (front.subset member), ?_, ?_⟩
  · have output := congrArg Account.output said
    rw [programOf, ← same]
    exact congrArg Except.ok output.symm
  · intro succeeded
    apply whole
    have errors : (generator.run sections).errors.map Diagnostic.message =
        ((generator.obey generator.initial (lines.filterMap Command.ofLine?)).fault.map
          Fault.message).toList := congrArg Account.errors said
    rw [succeeded, List.map_nil, eq_comm, Option.toList_eq_nil_iff, Option.map_eq_none_iff] at errors
    exact errors

/-- A loop that is continued by a branch and closed by the end of a function, a
branch without a block, and a loop that is left open. -/
def tangled : List String :=
  ["while x", "setTimeout f 5", "else_if y", "object a", "أنهِ_دالة", "else", "array b 1", "while z"]

theorem script_wellNested_tangled :
    (∀ line ∈ tangled, ∀ command, Command.ofLine? line = some command →
        command.Avoids brackets) ∧
      codesOf 0 (tangled.filterMap Command.ofLine?) =
        ["while (x) \x7b", "setTimeout(function() \x7b", "f;", "\x7d, 5);",
          "\x7d else if (y) \x7b", "let a = \x7b\x7d;", "\x7d", "let b = [1];", "while (z) \x7b"] ∧
      WellNested (tangled.filterMap Command.ofLine?) ∧
      let sections : List Section := [⟨.script, tangled.map fun text => ⟨0, text, ⟨0, 0⟩⟩⟩]
      (generator.run sections).errors ≠ [] ∧
        ∃ taken, taken <+: tangled.filterMap Command.ofLine? ∧ WellNested taken ∧
          (finish (programOf taken)).output = .ok (generator.run sections).output := by
  have avoids : ∀ line ∈ tangled, ∀ command ∈ Command.ofLine? line, command.Avoids brackets := by
    decide +kernel
  rcases script_wellNested tangled avoids with ⟨whole, aborted⟩
  rcases aborted [⟨.script, tangled.map fun text => ⟨0, text, ⟨0, 0⟩⟩⟩] rfl with
    ⟨taken, front, nested, output, -⟩
  exact ⟨avoids, by decide +kernel, whole, by decide +kernel, taken, front, nested, output⟩

end Script
end Pagewright
