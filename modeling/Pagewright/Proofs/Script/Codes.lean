import Pagewright.Proofs.Script.Brackets
import Pagewright.Proofs.Text.Literal

namespace Pagewright
namespace Script

/-!
# The codes of commands

Expressions are made from arguments by quoting, by replacing words, and by
joining.  None of this brings in a bracket.  The brackets of a code are then
those of its fixed parts, and they are the same for every command with the same
instruction.
-/

/-! ## Expressions -/

theorem hexDigit_notMem {value : Nat} (small : value < 16) : Text.hexDigit value ∉ brackets :=
  (by decide : ∀ value : Fin 16, Text.hexDigit value ∉ brackets) ⟨value, small⟩

theorem notMem_doubleQuotedChar {given : Char} (plain : given ∉ brackets) :
    ∀ c ∈ Text.doubleQuotedChar given, c ∉ brackets := by
  unfold Text.doubleQuotedChar
  -- The short escapes come first.
  iterate 7
    split
    · simp [brackets]
  split
  case isTrue control =>
      have high := hexDigit_notMem (by omega : given.toNat / 16 < 16)
      have low := hexDigit_notMem (by omega : given.toNat % 16 < 16)
      simp only [List.forall_mem_cons]
      exact ⟨by decide, by decide, by decide, by decide, high, low, by simp⟩
  case isFalse => simpa only [List.forall_mem_singleton] using plain

theorem avoids_quoted {text : String} {quoteChar : Char → List Char}
    (plain : ∀ given ∉ brackets, ∀ c ∈ quoteChar given, c ∉ brackets)
    (avoids : Text.Avoids brackets text) :
    Text.Avoids brackets (String.ofList (text.toList.flatMap quoteChar)) := by
  apply Text.Avoids.ofList
  intro c member
  rcases List.mem_flatMap.mp member with ⟨given, listed, written⟩
  exact plain given (avoids given listed) c written

theorem avoids_singleQuoted {text : String} (avoids : Text.Avoids brackets text) :
    Text.Avoids brackets (Text.singleQuoted text) := by
  intro c member listed
  have unquoted : c ≠ '\'' := by
    rintro rfl
    exact absurd listed (by decide)
  have ordinary : c ≠ '\\' := by
    rintro rfl
    exact absurd listed (by decide)
  exact avoids c ((Text.mem_singleQuoted unquoted ordinary text).mp member) listed

theorem mem_guardEndTags {c : Char} {text : List Char}
    (member : c ∈ text.foldr (Markup.guardChar []) []) : c = '\\' ∨ c ∈ text := by
  induction text with
  | nil => cases member
  | cons d rest ih =>
      rw [List.foldr_cons, Markup.guardChar] at member
      split at member
      case isTrue ended =>
          rw [Bool.and_eq_true, decide_eq_true_eq] at ended
          rcases List.mem_cons.mp member with same | member
          · exact .inr (List.mem_cons.mpr (.inl (same.trans ended.1.symm)))
          · rcases List.mem_cons.mp member with same | later
            · exact .inl same
            · exact (ih later).imp_right (List.mem_cons_of_mem d)
      case isFalse =>
          rcases List.mem_cons.mp member with same | later
          · exact .inr (List.mem_cons.mpr (.inl same))
          · exact (ih later).imp_right (List.mem_cons_of_mem d)

theorem avoids_stringLiteral {text : String} (avoids : Text.Avoids brackets text) :
    Text.Avoids brackets (stringLiteral text) := by
  have inside := avoids_quoted (fun _ => notMem_doubleQuotedChar) avoids
  have literal : Text.Avoids brackets (Text.doubleQuoted text) :=
    (Text.Avoids.append (by decide) inside).append (by decide)
  apply Text.Avoids.ofList
  intro c member
  rcases mem_guardEndTags member with rfl | member
  · decide
  · exact literal c member

theorem avoids_value {word : Word} (avoids : Text.Avoids brackets word.text) :
    Text.Avoids brackets (value word) := by
  unfold value
  split
  · exact avoids_stringLiteral avoids
  · exact .replaced (by decide) avoids

theorem notMem_operatorNamed {word : List Char} (plain : ∀ c ∈ word, c ∉ brackets) :
    ∀ c ∈ operatorNamed word, c ∉ brackets := by
  have entries : ∀ entry ∈ operators, Text.Avoids brackets entry.2 := by decide
  unfold operatorNamed
  split
  case h_1 operator found => exact entries (_, operator) (mem_of_lookup found)
  case h_2 => exact plain

theorem avoids_substituteOperators {text : String} (avoids : Text.Avoids brackets text) :
    Text.Avoids brackets (substituteOperators text) := by
  -- Both the open word and the part behind it stay free of brackets.
  have parts (cs : List Char) (plain : ∀ c ∈ cs, c ∉ brackets) :
      (∀ c ∈ (cs.foldr substituteStep ([], [])).1, c ∉ brackets) ∧
        ∀ c ∈ (cs.foldr substituteStep ([], [])).2, c ∉ brackets := by
    induction cs with
    | nil => simp
    | cons c cs ih =>
        rw [List.forall_mem_cons] at plain
        rcases ih plain.2 with ⟨first, rest⟩
        rw [List.foldr_cons, substituteStep]
        split
        · simp only [List.forall_mem_cons, List.forall_mem_append]
          exact ⟨by simp, plain.1, notMem_operatorNamed first, rest⟩
        · exact ⟨List.forall_mem_cons.mpr ⟨plain.1, first⟩, rest⟩
  rcases parts text.toList avoids with ⟨first, rest⟩
  apply Text.Avoids.ofList
  rw [List.forall_mem_append]
  exact ⟨notMem_operatorNamed first, rest⟩

theorem avoids_statement {code : String} (avoids : Text.Avoids brackets code) :
    Text.Avoids brackets (statement code) := by
  have trimmed : Text.Avoids brackets (Text.trimEnd code) := by
    apply Text.Avoids.ofList
    intro c member
    apply avoids c
    rw [Text.trimEndChars, Text.dropEndWhile, List.mem_reverse] at member
    exact List.mem_reverse.mp ((List.dropWhile_sublist _).subset member)
  unfold statement
  dsimp only
  split
  · exact trimmed
  · exact trimmed
  · exact trimmed.append (by decide)

/-! ## Arguments in code -/

/-- A command that brings no bracket into code. -/
structure Harmless (command : Command) : Prop where
  arguments : command.Avoids brackets
  line : Text.Avoids brackets command.line

/-- A known command brings a bracket into code only by an argument. -/
theorem harmless_of_ofLine? {text : String} {command : Command} {instruction : Instruction}
    (read : Command.ofLine? text = some command)
    (known : Instruction.ofKey? command.key = some instruction)
    (avoids : command.Avoids brackets) : Harmless command := by
  have keys : ∀ entry ∈ vocabulary, Text.Avoids brackets entry.1 := by decide +kernel
  have ordinary : ∀ c ∈ brackets, Text.isBlank c = false ∧ c ≠ '"' := by
    simp [brackets, Text.isBlank]
  refine ⟨avoids, Command.Avoids.line read ordinary ?_ avoids⟩
  exact keys (command.key, instruction) (mem_of_lookup known)

namespace Harmless

variable {command : Command}

theorem bracketsOf_argumentD (harmless : Harmless command) {default : String}
    (otherwise : Text.Avoids brackets default) (index : Nat) :
    bracketsOf (command.argumentD index default) = [] :=
  bracketsOf_of_avoids (harmless.arguments.argumentD otherwise index)

theorem bracketsOf_singleQuoted (harmless : Harmless command) (index : Nat) :
    bracketsOf (Text.singleQuoted (command.argumentD index "")) = [] :=
  bracketsOf_of_avoids (avoids_singleQuoted (harmless.arguments.argumentD (by decide) index))

theorem bracketsOf_element (harmless : Harmless command) (index : Nat) :
    bracketsOf (Action.element command index) = ['(', ')'] := by
  have quoted := harmless.bracketsOf_singleQuoted index
  unfold Action.element
  rw [bracketsOf_append, bracketsOf_append, quoted]
  rfl

theorem bracketsOf_valueAt (harmless : Harmless command) (index : Nat) :
    bracketsOf (valueAt command index) = [] := by
  apply bracketsOf_of_avoids
  unfold valueAt
  cases found : command.words[index]? with
  | none => exact (by decide : Text.Avoids brackets "")
  | some word => exact avoids_value (harmless.arguments word (List.mem_of_getElem? found))

theorem avoids_joined (harmless : Harmless command) {separator : String}
    (between : Text.Avoids brackets separator) (start : Nat) {write : Word → String}
    (written : ∀ word, Text.Avoids brackets word.text → Text.Avoids brackets (write word)) :
    Text.Avoids brackets (String.intercalate separator ((command.words.drop start).map write)) := by
  apply Text.Avoids.intercalate between
  intro text member
  rcases List.mem_map.mp member with ⟨word, listed, rfl⟩
  exact written word (harmless.arguments word (List.mem_of_mem_drop listed))

theorem bracketsOf_valuesFrom (harmless : Harmless command) (start : Nat) :
    bracketsOf (valuesFrom command start) = [] :=
  bracketsOf_of_avoids (harmless.avoids_joined (by decide) start fun _ => avoids_value)

theorem bracketsOf_parameters (harmless : Harmless command) (start : Nat) :
    bracketsOf (String.intercalate ", " ((command.words.drop start).map Word.text)) = [] :=
  bracketsOf_of_avoids (harmless.avoids_joined (by decide) start fun _ avoids => avoids)

/-- An argument that is the only one from its place on. -/
theorem avoids_single (harmless : Harmless command) {start : Nat} {word : Word}
    (single : command.words.drop start = [word]) : Text.Avoids brackets word.text := by
  apply harmless.arguments word
  have member : word ∈ command.words.drop start := by
    rw [single]
    exact List.mem_cons_self
  exact List.mem_of_mem_drop member

theorem bracketsOf_condition (harmless : Harmless command) (start : Nat) :
    bracketsOf (condition command start) = [] := by
  apply bracketsOf_of_avoids
  unfold condition
  split
  case h_1 text single =>
      exact avoids_substituteOperators (harmless.avoids_single single)
  case h_2 =>
      apply harmless.avoids_joined (by decide)
      intro word avoids
      split
      · exact avoids_stringLiteral avoids
      · exact avoids_substituteOperators (avoids_value avoids)

theorem avoids_codeFrom (harmless : Harmless command) (start : Nat) :
    Text.Avoids brackets (codeFrom command start) := by
  unfold codeFrom
  split
  case h_1 text single =>
      exact harmless.avoids_single single
  case h_2 => exact Command.avoids_rest harmless.line start

end Harmless

/-! ## Where codes lead -/

/-- The code leads from brackets that are waited for to others. -/
def Leads (before : List Char) (code : String) (after : List Char) : Prop :=
  nest before code.toList = some after

theorem leads_iff {before after : List Char} {code : String} :
    Leads before code after ↔ nest before (bracketsOf code) = some after := by
  rw [Leads, bracketsOf, nest_filter]

theorem leads_of_avoids {code : String} (avoids : Text.Avoids brackets code)
    (waiting : List Char) : Leads waiting code waiting := by
  rw [leads_iff, bracketsOf_of_avoids avoids]
  rfl

/-- The code of an action leads where the action says.  A line that leads on
from a block begins with the end of the block. -/
def Action.Regular : Action → Prop
  | .line code => Leads [] code []
  | .openBlock code => Leads [] code ['\x7d']
  | .reopenBlock code => Leads ['\x7d'] code ['\x7d'] ∧ code.toList.head? = some '\x7d'
  | .closeBlock _ => True
  | .callback head body tail =>
      ∃ outside, '\x7d' ∉ outside ∧ Leads [] head ('\x7d' :: outside) ∧
        Leads [] (statement body) [] ∧ Leads ('\x7d' :: outside) tail [] ∧
        tail.toList.head? = some '\x7d'

namespace Action

variable {command : Command}

theorem regular_bind (harmless : Harmless command) (index : Nat) {expression : String}
    (leads : Leads [] expression []) :
    (bind (command.nonemptyArgument? index) expression).Regular := by
  rw [leads_iff] at leads
  unfold bind
  split
  case h_1 name given =>
      have named := bracketsOf_of_avoids (harmless.arguments.nonemptyArgument? given)
      rw [Regular, leads_iff]
      simp only [bracketsOf_append, named, List.append_nil, nest_append]
      simp only [show nest [] (bracketsOf "let ") = some [] from rfl,
        show nest [] (bracketsOf " = ") = some [] from rfl, Option.bind_some, leads]
      rfl
  case h_2 =>
      rw [Regular, leads_iff, bracketsOf_append, nest_append, leads]
      rfl

theorem regular_elseIf (harmless : Harmless command) (start : Nat) :
    (elseIf command start).Regular := by
  rw [elseIf, Regular, leads_iff]
  constructor
  · simp only [bracketsOf_append, harmless.bracketsOf_condition]
    rfl
  · simp

theorem regular_timer (harmless : Harmless command) {function : String}
    (named : Text.Avoids brackets function) : (timer function command).Regular := by
  have delay := harmless.bracketsOf_argumentD (by decide : Text.Avoids brackets "1000") 1
  have body := avoids_statement (harmless.arguments.argumentD (by decide : Text.Avoids brackets "") 0)
  refine ⟨[')'], by decide, ?_, leads_of_avoids body [], ?_, by simp⟩
  · rw [leads_iff, bracketsOf_append, bracketsOf_of_avoids named]
    rfl
  · simp only [leads_iff, bracketsOf_append, delay]
    rfl

/-- A callback that is assigned to a handler. -/
theorem regular_handler (harmless : Harmless command) (start : Nat) {head : String}
    (leads : Leads [] head ['\x7d']) :
    (callback head (codeFrom command start) "\x7d;").Regular := by
  have body := avoids_statement (harmless.avoids_codeFrom start)
  exact ⟨[], by decide, leads, leads_of_avoids body [], rfl, by decide⟩

end Action

/-- The texts that an instruction brings into code. -/
def Instruction.texts : Instruction → List String
  | .onEvent event => [event]
  | .arithmetic operator => [operator]
  | _ => []

theorem avoids_of_ofKey? {key : String} {instruction : Instruction}
    (found : Instruction.ofKey? key = some instruction) :
    ∀ text ∈ instruction.texts, Text.Avoids brackets text := by
  have all : ∀ entry ∈ vocabulary, ∀ text ∈ entry.2.texts, Text.Avoids brackets text := by
    decide
  exact all (key, instruction) (mem_of_lookup found)

theorem regular_ofCommand {command : Command} (harmless : Harmless command)
    {instruction : Instruction} (own : ∀ text ∈ instruction.texts, Text.Avoids brackets text) :
    (Action.ofCommand command instruction).Regular := by
  have named := harmless.bracketsOf_argumentD (by decide : Text.Avoids brackets "")
  have counter := harmless.bracketsOf_argumentD (by decide : Text.Avoids brackets "i")
  have quoted := harmless.bracketsOf_singleQuoted
  have element := harmless.bracketsOf_element
  have value := harmless.bracketsOf_valueAt
  have values := harmless.bracketsOf_valuesFrom
  have test := harmless.bracketsOf_condition
  cases instruction with
  | declare =>
      rw [Action.ofCommand]
      split
      · simp only [Action.Regular, leads_iff, bracketsOf_append, named, value]
        rfl
      · simp only [Action.Regular, leads_iff, bracketsOf_append, named]
        rfl
  | returnValue =>
      rw [Action.ofCommand]
      split
      · rfl
      · simp only [Action.Regular, leads_iff, bracketsOf_append, value]
        rfl
  | otherwiseIf => exact Action.regular_elseIf harmless 0
  | otherwise =>
      rw [Action.ofCommand]
      split
      · exact Action.regular_elseIf harmless 1
      · exact ⟨rfl, by decide⟩
  | endBlock => exact True.intro
  | onEvent event =>
      have event := bracketsOf_of_avoids (own event (by simp [Instruction.texts]))
      apply Action.regular_handler harmless
      simp only [leads_iff, bracketsOf_append, element, event]
      rfl
  | onLoad => exact Action.regular_handler harmless 0 rfl
  | ask =>
      apply Action.regular_bind harmless
      simp only [leads_iff, bracketsOf_append, value]
      rfl
  | elementById =>
      apply Action.regular_bind harmless
      rw [leads_iff, element]
      rfl
  | elementsMatching =>
      apply Action.regular_bind harmless
      simp only [leads_iff, bracketsOf_append, quoted]
      rfl
  | length =>
      apply Action.regular_bind harmless
      simp only [leads_iff, bracketsOf_append, named]
      rfl
  | stringify =>
      apply Action.regular_bind harmless
      simp only [leads_iff, bracketsOf_append, named]
      rfl
  | parse =>
      apply Action.regular_bind harmless
      simp only [leads_iff, bracketsOf_append, value]
      rfl
  | now => exact Action.regular_bind harmless 0 rfl
  | timeout => exact Action.regular_timer harmless (by decide)
  | interval => exact Action.regular_timer harmless (by decide)
  | comment =>
      have rest := bracketsOf_of_avoids (Command.avoids_rest harmless.line 0)
      simp only [Action.ofCommand, Action.Regular, leads_iff, bracketsOf_append, rest]
      rfl
  | raw => exact leads_of_avoids (harmless.avoids_codeFrom 0) []
  | arithmetic operator =>
      have operator := bracketsOf_of_avoids (own operator (by simp [Instruction.texts]))
      simp only [Action.ofCommand, Action.Regular, leads_iff, bracketsOf_append, named, value,
        operator]
      rfl
  | _ =>
      simp only [Action.ofCommand, Action.Regular, leads_iff, bracketsOf_append, named, counter,
        quoted, element, value, values, test, harmless.bracketsOf_parameters]
      rfl

end Script
end Pagewright
