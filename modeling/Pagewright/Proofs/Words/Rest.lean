import Pagewright.Proofs.Words.Keys
import Pagewright.Script.Generator

namespace Pagewright

/-!
# The line from an argument on

An argument knows where it starts, and the rest of the line from there on is kept
as it was written.  It begins with the argument, and read on its own it has the
arguments from there on and nothing else.  The reason is that a word depends on
what stands behind it and never on what stands in front of it.

Two instructions of a script copy the rest of their line.  Their keys are single
words, so between the key and what is copied there are blanks only.
-/

open Text (isBlank byteLength byteLength_append)

namespace Text

/-- A trimmed text does not end with blanks. -/
theorem Trimmed.eq_nil {front back : List Char} (trimmed : Trimmed (front ++ back))
    (blanks : ∀ c ∈ back, isBlank c = true) : back = [] := by
  by_contra nonempty
  have last := List.getLast?_eq_some_getLast nonempty
  have visible := trimmed.last (back.getLast nonempty) (by
    rw [List.getLast?_append_of_ne_nil _ nonempty]
    exact last)
  cases visible.symm.trans (blanks _ (List.getLast_mem nonempty))

end Text

namespace Command

/-- Behind the last argument nothing is left. -/
theorem rest_of_le {command : Command} {index : Nat} (behind : command.words.length ≤ index) :
    command.rest index = "" := by
  have none : command.arguments[index]? = none := by
    rw [List.getElem?_eq_none_iff]
    simpa [words] using behind
  rw [rest, none]

namespace Spelled

variable {command : Command} {key : List Token}

/-- The rest begins where its argument starts. -/
theorem rest_eq {front back : List Char} {index : Nat} {token : Token}
    (found : command.arguments[index]? = some token) (parts : command.line.toList = front ++ back)
    (start : token.start = byteLength front) : (command.rest index).toList = back := by
  have here : Text.suffixAt? command.line.toList token.start = some back :=
    Text.suffixAt?_eq_some_iff.mpr ⟨front, parts, start.symm⟩
  rw [rest, found]
  simp only [here, Option.getD_some, String.toList_ofList]

/-- The rest of a line from an argument on is that argument with the later ones
behind it. -/
theorem exists_rest (spelled : command.Spelled key) {index : Nat} {token : Token}
    (found : command.arguments[index]? = some token) :
    ∃ front back, command.line.toList = front ++ (command.rest index).toList ∧
      (command.rest index).toList = token.word.spelling ++ back ∧ token.word.Stands back ∧
      Token.Reads (token.start + byteLength token.word.spelling) back
        (command.arguments.drop (index + 1)) := by
  have divided : key ++ command.arguments =
      (key ++ command.arguments.take index) ++ token :: command.arguments.drop (index + 1) := by
    rcases List.getElem?_eq_some_iff.mp found with ⟨inside, rfl⟩
    rw [List.append_assoc, ← List.drop_eq_getElem_cons inside, List.take_append_drop]
  have reads := spelled.reads
  rw [divided] at reads
  rcases reads.cut with ⟨front, back, parts, start, stands, later⟩
  have same := rest_eq found parts (by omega)
  exact ⟨front, back, by rw [same, parts], same, stands, later⟩

/-- Read on its own, the rest has the arguments from there on. -/
theorem map_word_rest (spelled : command.Spelled key) {index : Nat} {token : Token}
    (found : command.arguments[index]? = some token) :
    (Token.ofLine (command.rest index).toList).map Token.word = command.words.drop index := by
  rcases spelled.exists_rest found with ⟨_, back, -, same, stands, later⟩
  rcases List.getElem?_eq_some_iff.mp found with ⟨inside, here⟩
  rw [same, (Token.Reads.word stands later).map_word, words, ← List.map_drop,
    List.drop_eq_getElem_cons inside, here, List.map_cons]

/-- From the last argument on there is that argument only. -/
theorem rest_of_last (spelled : command.Spelled key) {index : Nat} {word : Word}
    (last : command.words.drop index = [word]) : (command.rest index).toList = word.spelling := by
  rw [words, ← List.map_drop] at last
  rcases List.map_eq_singleton_iff.mp last with ⟨token, alone, rfl⟩
  have found : command.arguments[index]? = some token := by
    rw [← Nat.add_zero index, ← List.getElem?_drop, alone]
    rfl
  rcases spelled.exists_rest found with ⟨front, back, parts, same, -, later⟩
  rw [← List.tail_drop, alone, List.tail_cons] at later
  have trimmed := spelled.trimmed
  rw [parts, same, ← List.append_assoc] at trimmed
  rw [same, trimmed.eq_nil later.blank_of_nil, List.append_nil]

/-- Behind a key of one word there are blanks, and then the arguments as they
were written. -/
theorem line_of_single (spelled : command.Spelled key) (nonempty : command.key.toList ≠ [])
    (visible : ∀ c ∈ command.key.toList, isBlank c = false) :
    ∃ gap, (∀ c ∈ gap, isBlank c = true) ∧
      command.line.toList = command.key.toList ++ (gap ++ (command.rest 0).toList) := by
  have single : key.map Token.word = [⟨command.key, false⟩] := by
    have alone := @Word.bareWords_run _ [] nonempty visible (by simp)
    rw [List.append_nil, String.ofList_toList] at alone
    rw [← spelled.bareWords_key, alone, Word.bareWords_nil]
  rcases List.map_eq_singleton_iff.mp single with ⟨first, rfl, named⟩
  rcases spelled.first with ⟨token, others, back, tokens, parts, -, later⟩
  rw [List.singleton_append] at tokens
  rcases List.cons.inj tokens with ⟨rfl, rfl⟩
  rw [named, Word.spelling_bare] at parts later
  cases arguments : command.arguments with
  | nil =>
      -- The line ends behind the key, so whatever is left of it is blank.
      rw [arguments] at later
      have empty := @rest_of_le command 0 (by simp [words, arguments])
      exact ⟨back, later.blank_of_nil, by simp [parts, empty]⟩
  | cons next others =>
      rw [arguments] at later
      rcases later.first with ⟨gap, behind, divided, blanks, start, -, -⟩
      have found : command.arguments[0]? = some next := by rw [arguments]; rfl
      rw [divided, ← List.append_assoc] at parts
      rw [← byteLength_append] at start
      refine ⟨gap, blanks, ?_⟩
      rw [rest_eq found parts start, parts, List.append_assoc]

end Spelled

end Command

/-! ## Copied lines -/

namespace Script

/-- What is copied from the line of a command.  A comment keeps its line, and so
does code, but for a single quoted argument, whose quotes are taken away. -/
inductive Copies (command : Command) : Instruction → String → Prop
  | comment : Copies command .comment ("// " ++ command.rest 0)
  | unquoted {code : String} (lone : command.words = [⟨code, true⟩])
      (written : (command.rest 0).toList = '"' :: (code.toList ++ ['"'])) :
      Copies command .raw code
  | verbatim (other : ∀ code, command.words ≠ [⟨code, true⟩]) :
      Copies command .raw (command.rest 0)

theorem visible_key {key : String} {instruction : Instruction}
    (found : Instruction.ofKey? key = some instruction)
    (copying : instruction = .comment ∨ instruction = .raw) :
    key.toList ≠ [] ∧ ∀ c ∈ key.toList, isBlank c = false := by
  have all : ∀ entry ∈ vocabulary, entry.2 = .comment ∨ entry.2 = .raw →
      entry.1.toList ≠ [] ∧ entry.1.toList.all (fun c => !isBlank c) = true := by
    decide +kernel
  simpa using all (key, instruction) (mem_of_lookup found) copying

theorem exists_copies {command : Command} {key : List Token} (spelled : command.Spelled key)
    {instruction : Instruction} (copying : instruction = .comment ∨ instruction = .raw) :
    ∃ code, Copies command instruction code ∧ Action.ofCommand command instruction = .line code := by
  rcases copying with rfl | rfl
  · exact ⟨_, .comment, rfl⟩
  · refine ⟨codeFrom command 0, ?_, rfl⟩
    unfold codeFrom
    split
    case h_1 code lone => exact .unquoted lone (spelled.rest_of_last lone)
    case h_2 other => exact .verbatim other

end Script

namespace Command

/-- From an argument on, a line reads as that argument and the later ones, and it
is the line as it was written.  Comments and code in a script are copied from
there, as one more line at the depth that the script has: between their key and what
is copied there are only blanks. -/
theorem rest_rereads {text : String} {command : Command} (read : ofLine? text = some command) :
    (∀ index word, command.words[index]? = some word →
      ∃ front back, Text.trimChars text.toList = front ++ (command.rest index).toList ∧
        (command.rest index).toList = word.spelling ++ back ∧
        (Token.ofLine (command.rest index).toList).map Token.word = command.words.drop index) ∧
      (∀ index, command.words.length ≤ index → command.rest index = "") ∧
      ∀ instruction, Script.Instruction.ofKey? command.key = some instruction →
        instruction = .comment ∨ instruction = .raw →
          ∃ gap code, (∀ c ∈ gap, isBlank c = true) ∧
            Text.trimChars text.toList = command.key.toList ++ (gap ++ (command.rest 0).toList) ∧
            Script.Copies command instruction code ∧
            ∀ lines depth, Script.execute ⟨lines, depth⟩ command =
              { state := ⟨lines.push ⟨depth, code⟩, depth⟩ } := by
  rcases exists_spelled read with ⟨line, key, spelled⟩
  rw [← line]
  refine ⟨?_, fun _ => rest_of_le, ?_⟩
  · intro index word present
    rw [words, List.getElem?_map, Option.map_eq_some_iff] at present
    rcases present with ⟨token, found, rfl⟩
    rcases spelled.exists_rest found with ⟨front, back, parts, same, -, -⟩
    exact ⟨front, back, parts, same, spelled.map_word_rest found⟩
  · intro instruction found copying
    rcases Script.visible_key found copying with ⟨nonempty, visible⟩
    rcases spelled.line_of_single nonempty visible with ⟨gap, blanks, parts⟩
    rcases Script.exists_copies spelled copying with ⟨code, copies, action⟩
    refine ⟨gap, code, blanks, parts, copies, fun lines depth => ?_⟩
    rw [Script.execute, found]
    simp only [action, Script.Program.apply, Script.Program.write]

/-- Code with a quoted word inside. -/
def callLine : String := " كود_خام  f(\"a  b\",  1) "

/-- Code that is a quoted word. -/
def quotedLine : String := "raw_code\t\"x  y\" "

theorem rest_rereads_callLine :
    (∃ command, ofLine? callLine = some command ∧
      command.words = [⟨"f(", false⟩, ⟨"a  b", true⟩, ⟨",", false⟩, ⟨"1)", false⟩] ∧
      command.rest 1 = "\"a  b\",  1)" ∧
      (Token.ofLine (command.rest 1).toList).map Token.word = command.words.drop 1 ∧
      command.rest 4 = "" ∧
      ∃ gap code, (∀ c ∈ gap, isBlank c = true) ∧
        Text.trimChars callLine.toList = command.key.toList ++ (gap ++ (command.rest 0).toList) ∧
        Script.Copies command .raw code ∧
        ∀ lines depth, Script.execute ⟨lines, depth⟩ command =
          { state := ⟨lines.push ⟨depth, code⟩, depth⟩ }) ∧
      ∃ command, ofLine? quotedLine = some command ∧ command.rest 0 = "\"x  y\"" ∧
        ∀ lines depth, Script.execute ⟨lines, depth⟩ command =
          { state := ⟨lines.push ⟨depth, "x  y"⟩, depth⟩ } := by
  constructor
  · have read : ofLine? callLine = some ⟨"كود_خام",
        [⟨⟨"f(", false⟩, 15⟩, ⟨⟨"a  b", true⟩, 17⟩, ⟨⟨",", false⟩, 23⟩, ⟨⟨"1)", false⟩, 26⟩],
        "كود_خام  f(\"a  b\",  1)"⟩ := by decide +kernel
    rcases rest_rereads read with ⟨suffixes, beyond, copied⟩
    rcases suffixes 1 ⟨"a  b", true⟩ rfl with ⟨_, _, -, -, reread⟩
    refine ⟨_, read, rfl, by decide +kernel, reread, beyond 4 (by decide), ?_⟩
    exact copied .raw (by decide +kernel) (.inr rfl)
  · have read : ofLine? quotedLine =
        some ⟨"raw_code", [⟨⟨"x  y", true⟩, 9⟩], "raw_code\t\"x  y\""⟩ := by decide +kernel
    rcases rest_rereads read with ⟨-, -, copied⟩
    rcases copied .raw (by decide +kernel) (.inr rfl) with ⟨_, code, -, -, copies, executed⟩
    refine ⟨_, read, by decide +kernel, ?_⟩
    cases copies with
    | unquoted lone =>
        cases lone
        exact executed
    | verbatim other => exact absurd rfl (other "x  y")

end Command
end Pagewright
