import Pagewright.Proofs.Script.Literals
import Pagewright.Proofs.Script.Nesting
import Pagewright.Proofs.Source
import Pagewright.Proofs.Words.Rest

namespace Pagewright

/-!
# Confined texts

Two formats of a script end with the line they stand in.  A single-quoted
literal may not go on behind a line feed or a carriage return, and a comment
ends with its line, for which a script has four ends.  Only the line feed ends a
line of the source, so the other three may stand in the text of a command.

The escapes of a single-quoted literal are for its quotes and for backslashes,
and a comment is copied as it is.  What a command writes therefore stays inside
its literal unless an argument holds a carriage return, which takes a quoted
argument, and inside its comment unless the comment holds one of the three.
These are the exact conditions: behind them, the script goes on with a text that
was meant as data.
-/

namespace Script

/-! ## Single-quoted literals -/

namespace Literal

theorem means_singleQuotedChar {c : Char} (inLine : c ≠ '\n') (inReturn : c ≠ '\r') :
    Means '\'' (Text.singleQuotedChar c) c := by
  unfold Text.singleQuotedChar
  split
  case isTrue backslash =>
      subst backslash
      exact means_escaped (by decide) (by decide)
  case isFalse ordinary =>
    split
    case isTrue quote =>
        subst quote
        exact means_escaped (by decide) (by decide)
    case isFalse unquoted => exact means_plain unquoted ordinary inLine inReturn

/-- A literal is not read beyond the end of its line. -/
theorem unitsFrom_broken {text : List Char} (broken : ∃ c ∈ text, c = '\n' ∨ c = '\r')
    (rest : List Char) :
    unitsFrom '\'' .inside (text.flatMap Text.singleQuotedChar ++ rest) = none := by
  induction text with
  | nil =>
      rcases broken with ⟨c, member, -⟩
      cases member
  | cons c cs ih =>
      rw [List.flatMap_cons, List.append_assoc]
      by_cases here : c = '\n' ∨ c = '\r'
      case pos => rcases here with rfl | rfl <;> rfl
      case neg =>
          rw [not_or] at here
          have later : ∃ d ∈ cs, d = '\n' ∨ d = '\r' := by
            simpa only [List.exists_mem_cons_iff, here, or_self, false_or] using broken
          rw [means_singleQuotedChar here.1 here.2, ih later, Option.map_none]

/-- A single-quoted literal stands for its text exactly if the text is inside one
line. -/
theorem text?_singleQuoted {text : String} :
    text? (Text.singleQuoted text) = some text ↔ '\n' ∉ text.toList ∧ '\r' ∉ text.toList := by
  constructor
  · intro decoded
    by_contra apart
    have broken : ∃ c ∈ text.toList, c = '\n' ∨ c = '\r' := by
      by_contra absent
      push Not at absent
      exact apart ⟨fun member => (absent _ member).1 rfl, fun member => (absent _ member).2 rfl⟩
    rw [text?, Text.toList_singleQuoted] at decoded
    dsimp only at decoded
    rw [if_pos (by decide), unitsFrom_broken broken] at decoded
    cases decoded
  · rintro ⟨inLine, inReturn⟩
    apply text?_spelled (by decide) _ (Text.toList_singleQuoted text)
    apply Text.Spells.flatMap
    intro c member
    apply means_singleQuotedChar
    · rintro rfl
      exact inLine member
    · rintro rfl
      exact inReturn member

/-- The literal stands for the text, and on one line. -/
structure Confines (literal text : String) : Prop where
  decoded : text? literal = some text
  inLine : '\n' ∉ literal.toList
  inReturn : '\r' ∉ literal.toList

theorem confines_singleQuoted {text : String} (inLine : '\n' ∉ text.toList) :
    Confines (Text.singleQuoted text) text ↔ '\r' ∉ text.toList := by
  constructor
  · intro confines
    exact (text?_singleQuoted.mp confines.decoded).2
  · intro inReturn
    constructor
    case decoded => exact text?_singleQuoted.mpr ⟨inLine, inReturn⟩
    case inLine => rwa [Text.mem_singleQuoted (by decide) (by decide)]
    case inReturn => rwa [Text.mem_singleQuoted (by decide) (by decide)]

end Literal

/-- The arguments that an instruction puts in single-quoted literals. -/
def Instruction.literals : Instruction → List Nat
  | .onEvent _ => [0]
  | .elementById => [0]
  | .elementsMatching => [0]
  | .setContent => [0]
  | .setValue => [0]
  | .setStyle => [0]
  | .addClass => [0, 1]
  | .removeClass => [0, 1]
  | _ => []

/-- The literal of an argument. -/
def literalAt (command : Command) (index : Nat) : String :=
  Text.singleQuoted (command.argumentD index "")

theorem infix_framed (front back text : String) :
    text.toList <:+: (front ++ text ++ back).toList := by
  rw [String.toList_append, String.toList_append]
  exact List.infix_append _ _ _

theorem infix_leading (text back : String) : text.toList <:+: (text ++ back).toList := by
  rw [String.toList_append]
  exact (List.prefix_append _ _).isInfix

theorem infix_bind {part : List Char} {expression : String} (inside : part <:+: expression.toList)
    (name : Option String) :
    ∃ code ∈ (Action.bind name expression).codes, part <:+: code.toList := by
  cases name with
  | none => exact ⟨_, List.mem_singleton_self _, inside.trans (infix_leading _ _)⟩
  | some name => exact ⟨_, List.mem_singleton_self _, inside.trans (infix_framed _ _ _)⟩

/-- Those literals stand in the code of the instruction. -/
theorem infix_of_mem_literals {instruction : Instruction} {index : Nat}
    (listed : index ∈ instruction.literals) (command : Command) :
    ∃ code ∈ (Action.ofCommand command instruction).codes,
      (literalAt command index).toList <:+: code.toList := by
  have element : (literalAt command 0).toList <:+: (Action.element command 0).toList :=
    infix_framed _ _ _
  have leading : ∀ first second third : String, (literalAt command 0).toList <:+:
      (Action.element command 0 ++ first ++ second ++ third).toList := by
    intro first second third
    rw [String.append_assoc, String.append_assoc]
    exact element.trans (infix_leading _ _)
  cases instruction with
  | onEvent event =>
      rw [List.mem_singleton.mp listed]
      exact ⟨_, List.mem_cons_self, leading _ _ _⟩
  | elementById =>
      rw [List.mem_singleton.mp listed]
      exact infix_bind element _
  | elementsMatching =>
      rw [List.mem_singleton.mp listed]
      exact infix_bind (infix_framed _ _ _) _
  | setContent =>
      rw [List.mem_singleton.mp listed]
      exact ⟨_, List.mem_cons_self, leading _ _ _⟩
  | setValue =>
      rw [List.mem_singleton.mp listed]
      exact ⟨_, List.mem_cons_self, leading _ _ _⟩
  | setStyle =>
      rw [List.mem_singleton.mp listed]
      refine ⟨_, List.mem_cons_self, ?_⟩
      rw [String.append_assoc, String.append_assoc]
      exact leading _ _ _
  | addClass =>
      rcases List.mem_pair.mp listed with rfl | rfl
      · exact ⟨_, List.mem_cons_self, leading _ _ _⟩
      · exact ⟨_, List.mem_cons_self, infix_framed _ _ _⟩
  | removeClass =>
      rcases List.mem_pair.mp listed with rfl | rfl
      · exact ⟨_, List.mem_cons_self, leading _ _ _⟩
      · exact ⟨_, List.mem_cons_self, infix_framed _ _ _⟩
  | _ => cases listed

/-! ## Comments -/

/-- What a script goes on with behind the comment that it begins with. -/
def behindComment : List Char → List Char
  | '/' :: '/' :: comment => comment.dropWhile fun c => !Literal.isLineEnd c
  | script => script

theorem behindComment_eq_nil {comment : String} :
    behindComment ("// " ++ comment).toList = [] ↔
      ∀ c ∈ comment.toList, Literal.isLineEnd c = false := by
  have marked : ("// " ++ comment).toList = '/' :: '/' :: ' ' :: comment.toList := by
    rw [String.toList_append]
    rfl
  have blank : Literal.isLineEnd ' ' = false := by decide
  rw [marked, behindComment, List.dropWhile_eq_nil_iff]
  simp [blank]

end Script

/-! ## The texts of a line -/

namespace Command

variable {text : String} {command : Command}

/-- The arguments of a line and its rests have no other characters than the
line. -/
theorem avoids_of_ofLine? (read : ofLine? text = some command) {forbidden : List Char}
    (line : Text.Avoids forbidden text) :
    command.Avoids forbidden ∧ ∀ index, Text.Avoids forbidden (command.rest index) := by
  rcases exists_spelled read with ⟨trimmed, key, spelled⟩
  have within : Text.Avoids forbidden command.line := by
    intro c member
    rw [trimmed] at member
    apply line c
    have inside := List.mem_reverse.mp ((List.dropWhile_sublist _).subset (List.mem_reverse.mp member))
    exact (List.dropWhile_sublist _).subset inside
  refine ⟨?_, avoids_rest within⟩
  intro word member c holds
  rcases List.mem_map.mp member with ⟨token, listed, rfl⟩
  rcases spelled.reads.stands_of_mem (List.mem_append_right key listed) with
    ⟨front, back, parts, -, -⟩
  apply within c
  rw [parts]
  apply List.mem_append_right front
  apply List.mem_append_left back
  exact Word.mem_spelling_of_mem_text holds

/-- A blank stands only in quoted arguments. -/
theorem quoted_of_isBlank (read : ofLine? text = some command) {word : Word}
    (member : word ∈ command.words) {c : Char} (holds : c ∈ word.text.toList)
    (blank : Text.isBlank c = true) : word.quoted = true := by
  rcases exists_spelled read with ⟨-, key, spelled⟩
  rcases List.mem_map.mp member with ⟨token, listed, rfl⟩
  rcases spelled.reads.stands_of_mem (List.mem_append_right key listed) with ⟨_, _, -, -, stands⟩
  by_contra bare
  have visible := (stands.isBare (Bool.eq_false_iff.mpr bare)).visible c holds
  cases visible.symm.trans blank

end Command

/-! ## What stays inside -/

namespace Script

/-- The ends of lines in a script that do not end a line of a source. -/
def foreignLineEnds : List Char := ['\r', '\u2028', '\u2029']

theorem isLineEnd_iff {c : Char} :
    Literal.isLineEnd c = true ↔ c = '\n' ∨ c ∈ foreignLineEnds := by
  simp [Literal.isLineEnd, foreignLineEnds, or_assoc]

/-- A comment without line feeds is a comment as a whole exactly if it holds none
of the other ends of lines. -/
theorem behindComment_eq_nil_iff {comment : String} (inLine : '\n' ∉ comment.toList) :
    behindComment ("// " ++ comment).toList = [] ↔ Text.Avoids foreignLineEnds comment := by
  rw [behindComment_eq_nil]
  constructor
  · intro inside c member foreign
    cases (inside c member).symm.trans (isLineEnd_iff.mpr (.inr foreign))
  · intro avoids c member
    apply Bool.eq_false_iff.mpr
    intro ends
    rcases isLineEnd_iff.mp ends with rfl | foreign
    · exact inLine member
    · exact avoids c member foreign

/-- What a line of a source has written in single-quoted literals and in comments
of a script.  A literal stands for its argument, on one line, exactly if there is
no carriage return in the argument, and bare arguments have none.  A comment is
one as a whole exactly if it holds none of the ends of lines that only a script
has.  A line without these characters has its texts confined. -/
theorem confined_iff_without_lineEnds {source : String} {line : SourceLine}
    (member : line ∈ SourceLine.ofSource source) {command : Command}
    (read : Command.ofLine? line.text = some command) {instruction : Instruction}
    (found : Instruction.ofKey? command.key = some instruction) :
    (∀ index ∈ instruction.literals, ∃ code ∈ (Action.ofCommand command instruction).codes,
      (literalAt command index).toList <:+: code.toList) ∧
    (∀ index, '\n' ∉ (literalAt command index).toList ∧
      (Literal.Confines (literalAt command index) (command.argumentD index "") ↔
        '\r' ∉ (command.argumentD index "").toList)) ∧
    (∀ word ∈ command.words, word.quoted = false → '\r' ∉ word.text.toList) ∧
    (instruction = .comment → ∃ code, Action.ofCommand command instruction = .line code ∧
      '\n' ∉ code.toList ∧
      (behindComment code.toList = [] ↔ Text.Avoids foreignLineEnds (command.rest 0))) ∧
    (Text.Avoids foreignLineEnds line.text →
      (∀ index, Literal.Confines (literalAt command index) (command.argumentD index "")) ∧
      (instruction = .comment → ∃ code, Action.ofCommand command instruction = .line code ∧
        behindComment code.toList = [])) := by
  have feedFree : Text.Avoids ['\n'] line.text := by
    intro c holds feed
    rw [List.mem_singleton.mp feed] at holds
    exact SourceLine.notMem_text member holds
  rcases Command.avoids_of_ofLine? read feedFree with ⟨arguments, rests⟩
  have inLine : ∀ index, '\n' ∉ (command.argumentD index "").toList := fun index holds =>
    arguments.argumentD (by decide) index _ holds (List.mem_singleton_self _)
  have comment : '\n' ∉ (command.rest 0).toList := fun holds =>
    rests 0 _ holds (List.mem_singleton_self _)
  have literal := fun index => Literal.confines_singleQuoted (inLine index)
  refine ⟨fun _ listed => infix_of_mem_literals listed command, ?_, ?_, ?_, ?_⟩
  · intro index
    refine ⟨?_, literal index⟩
    rw [literalAt, Text.mem_singleQuoted (by decide) (by decide)]
    exact inLine index
  · intro word listed bare holds
    cases bare.symm.trans (Command.quoted_of_isBlank read listed holds (by decide))
  · rintro rfl
    refine ⟨_, rfl, ?_, behindComment_eq_nil_iff comment⟩
    rw [String.toList_append, List.mem_append, not_or]
    exact ⟨by decide, comment⟩
  · intro avoids
    rcases Command.avoids_of_ofLine? read avoids with ⟨foreignFree, foreignFreeRests⟩
    constructor
    · intro index
      apply (literal index).mpr
      intro holds
      exact foreignFree.argumentD (by decide) index _ holds (by decide)
    · rintro rfl
      exact ⟨_, rfl, (behindComment_eq_nil_iff comment).mpr (foreignFreeRests 0)⟩

/-- An argument with a carriage return, and a comment that goes on behind the end
of its line. -/
def brokenLines : String := "اختر_عنصر \"a\rb\"\nتعليق x\u2028y()"

/-- Neither text stays where it is written. -/
theorem confined_iff_without_lineEnds_brokenLines :
    (∃ line ∈ SourceLine.ofSource brokenLines, ∃ command,
      Command.ofLine? line.text = some command ∧
      Instruction.ofKey? command.key = some .elementById ∧ 0 ∈ Instruction.elementById.literals ∧
      literalAt command 0 = "'a\rb'" ∧
      ¬Literal.Confines (literalAt command 0) (command.argumentD 0 "")) ∧
    ∃ line ∈ SourceLine.ofSource brokenLines, ∃ command,
      Command.ofLine? line.text = some command ∧
      Instruction.ofKey? command.key = some .comment ∧
      ∃ code, Action.ofCommand command .comment = .line code ∧ code = "// x\u2028y()" ∧
        behindComment code.toList ≠ [] := by
  constructor
  · have member : ⟨1, "اختر_عنصر \"a\rb\"", ⟨0, 23⟩⟩ ∈ SourceLine.ofSource brokenLines := by
      decide +kernel
    have read : Command.ofLine? "اختر_عنصر \"a\rb\"" =
        some ⟨"اختر_عنصر", [⟨⟨"a\rb", true⟩, 18⟩], "اختر_عنصر \"a\rb\""⟩ := by decide +kernel
    have found : Instruction.ofKey? "اختر_عنصر" = some .elementById := by decide +kernel
    rcases confined_iff_without_lineEnds member read found with ⟨-, literals, -, -, -⟩
    refine ⟨_, member, _, read, found, by decide, by decide +kernel, ?_⟩
    rw [(literals 0).2]
    decide +kernel
  · have member : ⟨2, "تعليق x\u2028y()", ⟨24, 42⟩⟩ ∈ SourceLine.ofSource brokenLines := by
      decide +kernel
    have read : Command.ofLine? "تعليق x\u2028y()" =
        some ⟨"تعليق", [⟨⟨"x", false⟩, 11⟩, ⟨⟨"y()", false⟩, 15⟩], "تعليق x\u2028y()"⟩ := by
      decide +kernel
    have found : Instruction.ofKey? "تعليق" = some .comment := by decide +kernel
    rcases confined_iff_without_lineEnds member read found with ⟨-, -, -, comments, -⟩
    rcases comments rfl with ⟨code, written, -, whole⟩
    have copied : code = "// x\u2028y()" := by
      cases written
      decide +kernel
    refine ⟨_, member, _, read, found, code, written, copied, ?_⟩
    rw [Ne, whole]
    decide +kernel

end Script
end Pagewright
