import Pagewright.Command
import Pagewright.Proofs.Words.Reading

namespace Pagewright

/-!
# Texts without certain characters

A format gives a few characters a meaning of their own.  A text that has none
of them can be put anywhere in that format without disturbing it.  Both formats
of code are built this way, each with characters of its own, and what is put in
comes from the arguments of commands: alone, joined by spaces, replaced by a
default, or as the rest of the line that they stand in.
-/

/-- What a table has for a word stands in the table. -/
theorem mem_of_lookup {α : Type} {table : List (String × α)} {word : String} {value : α}
    (found : table.lookup word = some value) : (word, value) ∈ table := by
  rcases List.lookup_eq_some_iff.mp found with ⟨front, back, whole, -⟩
  rw [whole]
  exact List.mem_append_right front List.mem_cons_self

namespace Text

/-- None of the given characters stands in the text. -/
def Avoids (forbidden : List Char) (text : String) : Prop :=
  ∀ c ∈ text.toList, c ∉ forbidden

instance (forbidden : List Char) (text : String) : Decidable (Avoids forbidden text) :=
  List.decidableBAll (· ∉ forbidden) text.toList

namespace Avoids

variable {forbidden : List Char}

theorem ofList {text : List Char} (each : ∀ c ∈ text, c ∉ forbidden) :
    Avoids forbidden (String.ofList text) := by
  intro c member
  rw [String.toList_ofList] at member
  exact each c member

theorem append {front back : String} (before : Avoids forbidden front)
    (behind : Avoids forbidden back) : Avoids forbidden (front ++ back) := by
  intro c member
  rw [String.toList_append] at member
  rcases List.mem_append.mp member with early | late
  · exact before c early
  · exact behind c late

theorem intercalate {separator : String} {parts : List String}
    (between : Avoids forbidden separator) (each : ∀ part ∈ parts, Avoids forbidden part) :
    Avoids forbidden (String.intercalate separator parts) := by
  induction parts with
  | nil =>
      intro c member
      rw [String.toList_intercalate] at member
      cases member
  | cons part others ih =>
      have first := each part List.mem_cons_self
      have later := ih fun other member => each other (List.mem_cons_of_mem part member)
      cases others with
      | nil =>
          intro c member
          rw [String.toList_intercalate, List.map_singleton, List.intercalate_singleton] at member
          exact first c member
      | cons other rest =>
          intro c member
          rw [String.toList_intercalate, List.map_cons, List.map_cons, List.intercalate_cons_cons,
            List.mem_append, List.mem_append] at member
          rw [Avoids, String.toList_intercalate, List.map_cons] at later
          rcases member with (here | here) | here
          · exact first c here
          · exact between c here
          · exact later c here

/-- A word, replaced by what a table has for it. -/
theorem replaced {table : List (String × String)} {word : String}
    (entries : ∀ entry ∈ table, Avoids forbidden entry.2) (itself : Avoids forbidden word) :
    Avoids forbidden ((table.lookup word).getD word) := by
  cases found : table.lookup word with
  | none => exact itself
  | some value => exact entries (word, value) (mem_of_lookup found)

end Avoids

theorem mem_intercalate {c : Char} {part : String} (holds : c ∈ part.toList) (separator : String)
    {parts : List String} (member : part ∈ parts) :
    c ∈ (String.intercalate separator parts).toList := by
  induction parts with
  | nil => cases member
  | cons first others ih =>
      rw [String.toList_intercalate] at ih ⊢
      cases others with
      | nil =>
          rw [List.mem_singleton.mp member] at holds
          rwa [List.map_singleton, List.intercalate_singleton]
      | cons second rest =>
          rw [List.map_cons, List.map_cons, List.intercalate_cons_cons, List.mem_append]
          rcases List.mem_cons.mp member with rfl | later
          · exact .inl (List.mem_append_left _ holds)
          · exact .inr (ih later)

theorem mem_of_suffixAt? {text rest : List Char} {offset : Nat}
    (found : suffixAt? text offset = some rest) {c : Char} (member : c ∈ rest) : c ∈ text := by
  fun_induction suffixAt? text offset with
  | case1 text =>
      cases found
      exact member
  | case2 => cases found
  | case3 d cs offset fits ih => exact List.mem_cons_of_mem d (ih found)
  | case4 => cases found

end Text

namespace Command

/-- None of the given characters stands in an argument. -/
def Avoids (forbidden : List Char) (command : Command) : Prop :=
  ∀ word ∈ command.words, Text.Avoids forbidden word.text

instance (forbidden : List Char) (command : Command) : Decidable (command.Avoids forbidden) :=
  List.decidableBAll (fun word : Word => Text.Avoids forbidden word.text) command.words

namespace Avoids

variable {forbidden : List Char} {command : Command}

theorem joined (avoids : command.Avoids forbidden) (space : ' ' ∉ forbidden) (start : Nat) :
    Text.Avoids forbidden (command.joined start) := by
  apply Text.Avoids.intercalate
  · intro c member
    rw [List.mem_singleton.mp member]
    exact space
  · intro text member
    rcases List.mem_map.mp member with ⟨word, listed, rfl⟩
    exact avoids word (List.mem_of_mem_drop listed)

theorem nonemptyArgument? (avoids : command.Avoids forbidden) {index : Nat} {text : String}
    (given : command.nonemptyArgument? index = some text) : Text.Avoids forbidden text := by
  rw [Command.nonemptyArgument?, Option.filter_eq_some_iff] at given
  rcases Option.map_eq_some_iff.mp given.1 with ⟨word, found, rfl⟩
  exact avoids word (List.mem_of_getElem? found)

theorem argumentD (avoids : command.Avoids forbidden) {default : String}
    (otherwise : Text.Avoids forbidden default) (index : Nat) :
    Text.Avoids forbidden (command.argumentD index default) := by
  unfold Command.argumentD
  cases given : command.nonemptyArgument? index with
  | none => exact otherwise
  | some text => exact avoids.nonemptyArgument? given

/-- What is neither in the key nor in an argument of a line is not in the line,
apart from blanks and quotes. -/
theorem line {text : String} (read : ofLine? text = some command)
    (ordinary : ∀ c ∈ forbidden, Text.isBlank c = false ∧ c ≠ '"')
    (key : Text.Avoids forbidden command.key) (avoids : command.Avoids forbidden) :
    Text.Avoids forbidden command.line := by
  unfold ofLine? at read
  dsimp only at read
  split at read
  case isFalse => cases read
  case isTrue =>
      intro c member listed
      cases read
      rw [ofTokens, String.toList_ofList] at member
      rcases ordinary c listed with ⟨visible, unquoted⟩
      rcases (Token.reads_ofLine _).within visible unquoted member with ⟨token, found, holds⟩
      generalize Token.ofLine (Text.trimChars text.toList) = tokens at found key avoids
      rw [← List.take_append_drop (keyLength (tokens.map Token.word)) tokens] at found
      rcases List.mem_append.mp found with early | late
      · apply key c _ listed
        apply Text.mem_intercalate holds
        rw [← List.map_take, List.map_map]
        exact List.mem_map_of_mem early
      · exact avoids token.word (List.mem_map_of_mem late) c holds listed

end Avoids

theorem avoids_rest {forbidden : List Char} {command : Command}
    (line : Text.Avoids forbidden command.line) (index : Nat) :
    Text.Avoids forbidden (command.rest index) := by
  unfold rest
  split
  case h_1 =>
      intro c member
      cases member
  case h_2 token found =>
      intro c member
      rw [String.toList_ofList] at member
      cases cut : Text.suffixAt? command.line.toList token.start with
      | none =>
          rw [cut] at member
          cases member
      | some back =>
          rw [cut] at member
          exact line c (Text.mem_of_suffixAt? cut member)

end Command

end Pagewright
