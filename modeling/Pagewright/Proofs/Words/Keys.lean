import Mathlib.Data.List.Basic
import Pagewright.Genre
import Pagewright.Proofs.Avoiding
import Pagewright.Proofs.Words.Segments

namespace Pagewright

/-!
# The words of a key

A key is kept as one text, in which its words are joined by single spaces.  The
words can be found in it again, since none of them holds a blank.  How many words
belong to the key is decided by the words that follow as well, so a key with its
arguments might take one of them in, or lose a word to them.  For the keys in the
tables of commands this cannot happen (`keyLength_append`).

Before a line is read it is trimmed, and comments are sorted out.  Both look at
the ends of the line only, and so at its first and last word.
-/

open Text (isBlank byteLength)

/-! ## Trimmed texts -/

namespace Text

/-- Neither the first nor the last character is blank. -/
structure Trimmed (text : List Char) : Prop where
  head : ∀ c ∈ text.head?, isBlank c = false
  last : ∀ c ∈ text.getLast?, isBlank c = false

theorem visible_head?_dropWhile (text : List Char) :
    ∀ c ∈ (text.dropWhile isBlank).head?, isBlank c = false := by
  intro c first
  have visible := List.head?_dropWhile_not isBlank text
  rwa [Option.mem_def.mp first] at visible

theorem trimmed_trimChars (text : List Char) : Trimmed (trimChars text) := by
  unfold trimChars trimEndChars dropEndWhile
  constructor
  · intro c first
    rcases List.reverse_prefix.mpr
      (List.dropWhile_suffix (l := (text.dropWhile isBlank).reverse) isBlank) with ⟨back, whole⟩
    rw [List.reverse_reverse] at whole
    apply visible_head?_dropWhile text c
    rw [← whole, List.head?_append, Option.mem_def.mp first]
    rfl
  · intro c last
    rw [List.getLast?_reverse] at last
    exact visible_head?_dropWhile _ c last

theorem dropWhile_append {front back : List Char} (blanks : ∀ c ∈ front, isBlank c = true)
    (visible : ∀ c ∈ back.head?, isBlank c = false) : (front ++ back).dropWhile isBlank = back := by
  rw [List.dropWhile_append_of_pos blanks]
  cases back with
  | nil => rfl
  | cons c back => exact List.dropWhile_cons_of_neg (by simp [visible c rfl])

theorem Trimmed.append {front back : List Char} (first : Trimmed front) (filled : front ≠ [])
    (last : Trimmed back) (nonempty : back ≠ []) (between : List Char) :
    Trimmed (front ++ (between ++ back)) := by
  constructor
  · rw [List.head?_append]
    cases front with
    | nil => exact absurd rfl filled
    | cons c front => exact first.head
  · rw [← List.append_assoc, List.getLast?_append_of_ne_nil _ nonempty]
    exact last.last

/-- Blanks around a trimmed text are all that trimming takes away. -/
theorem trimChars_of_trimmed {lead text trail : List Char} (leading : ∀ c ∈ lead, isBlank c = true)
    (nonempty : text ≠ []) (trimmed : Trimmed text) (trailing : ∀ c ∈ trail, isBlank c = true) :
    trimChars (lead ++ (text ++ trail)) = text := by
  have first : ∀ c ∈ (text ++ trail).head?, isBlank c = false := by
    cases text with
    | nil => exact absurd rfl nonempty
    | cons c text => exact trimmed.head
  have last : ∀ c ∈ text.reverse.head?, isBlank c = false := by
    rw [List.head?_reverse]
    exact trimmed.last
  have backwards : ∀ c ∈ trail.reverse, isBlank c = true := by simpa using trailing
  unfold trimChars trimEndChars dropEndWhile
  rw [dropWhile_append leading first, List.reverse_append, dropWhile_append backwards last,
    List.reverse_reverse]

end Text

/-- A trimmed line has words, unless it is empty. -/
theorem Token.Reads.ne_nil {offset : Nat} {rest : List Char} {tokens : List Token}
    (reads : Reads offset rest tokens) (trimmed : Text.Trimmed rest) (nonempty : rest ≠ []) :
    tokens ≠ [] := by
  rintro rfl
  rcases List.exists_cons_of_ne_nil nonempty with ⟨c, cs, rfl⟩
  cases (trimmed.head c rfl).symm.trans (reads.blank_of_nil c List.mem_cons_self)

/-! ## Keys as texts -/

namespace Word

/-- A word that can be read without quotes. -/
structure IsBare (word : Word) : Prop where
  unquoted : word.quoted = false
  nonempty : word.text.toList ≠ []
  visible : ∀ c ∈ word.text.toList, isBlank c = false

theorem Stands.isBare {word : Word} {rest : List Char} (stands : word.Stands rest)
    (unquoted : word.quoted = false) : word.IsBare := by
  cases stands with
  | quoted => cases unquoted
  | bare nonempty visible => exact ⟨rfl, nonempty, visible⟩

/-- A word begins and ends with a visible character. -/
theorem Stands.trimmed {word : Word} {rest : List Char} (stands : word.Stands rest) :
    Text.Trimmed word.spelling := by
  cases stands with
  | quoted =>
      have quote : isBlank '"' = false := by decide
      refine ⟨by simpa using quote, ?_⟩
      rw [spelling_quoted, ← List.cons_append, List.getLast?_concat]
      simpa using quote
  | bare _ visible =>
      exact ⟨fun c first => visible c (List.mem_of_mem_head? first),
        fun c last => visible c (List.mem_of_mem_getLast? last)⟩

theorem IsBare.eq {word : Word} (bare : word.IsBare) :
    (⟨String.ofList word.text.toList, false⟩ : Word) = word := by
  rw [String.ofList_toList, ← bare.unquoted]

/-- Bare words that are joined by spaces can be found again. -/
theorem bareWords_intercalate {words : List Word} (bare : ∀ word ∈ words, word.IsBare) :
    bareWords (String.intercalate " " (words.map Word.text)).toList = words := by
  rw [String.toList_intercalate]
  induction words with
  | nil => rfl
  | cons word others ih =>
      rcases List.forall_mem_cons.mp bare with ⟨first, later⟩
      have found := ih later
      cases others with
      | nil =>
          have alone := @bareWords_run _ [] first.nonempty first.visible (by simp)
          rw [first.eq] at alone
          simpa using alone
      | cons next others =>
          have blank : isBlank ' ' = true := by decide
          rw [List.map_cons] at found
          rw [List.map_cons, List.map_cons, List.map_cons, List.map_cons,
            List.intercalate_cons_cons, List.append_assoc,
            bareWords_run first.nonempty first.visible (by simp [blank]), first.eq]
          exact congrArg (word :: ·) ((bareWords_blank blank _).trans found)

end Word

namespace Command

/-! ## How long a key is -/

theorem bare_of_lt_keyLength {words : List Word} {index : Nat} (inside : index < keyLength words) :
    (words[index]?.bind Word.bare?).isSome = true := by
  unfold keyLength at inside
  dsimp only at inside
  split at inside
  case h_1 => omega
  case h_2 first present =>
      have start : (words[0]?.bind Word.bare?).isSome = true := by rw [present]; rfl
      split at inside
      case isTrue pair =>
          rw [Bool.and_eq_true, Option.any_eq_true] at pair
          rcases pair.2 with ⟨noun, second, -⟩
          rcases (by omega : index = 0 ∨ index = 1) with rfl | rfl
          · exact start
          · exact Option.isSome_of_eq_some second
      case isFalse =>
          split at inside
          case isTrue triple =>
              rw [Bool.and_eq_true, Bool.and_eq_true] at triple
              rcases (by omega : index = 0 ∨ index = 1 ∨ index = 2) with rfl | rfl | rfl
              · exact start
              · exact triple.1.2
              · exact triple.2
          case isFalse =>
              split at inside
              case isTrue block =>
                  rw [Bool.and_eq_true] at block
                  rcases (by omega : index = 0 ∨ index = 1) with rfl | rfl
                  · exact start
                  · exact block.2
              case isFalse =>
                  cases (by omega : index = 0)
                  exact start

/-- The key takes no more words than there are. -/
theorem keyLength_le (words : List Word) : keyLength words ≤ words.length := by
  by_contra longer
  have bare := @bare_of_lt_keyLength words words.length (by omega)
  rw [List.getElem?_eq_none (Nat.le_refl _)] at bare
  cases bare

/-- The words of a key are not quoted. -/
theorem unquoted_of_mem_key {words : List Word} {word : Word}
    (member : word ∈ words.take (keyLength words)) : word.quoted = false := by
  rcases List.mem_take_iff_getElem.mp member with ⟨index, inside, rfl⟩
  have bare := @bare_of_lt_keyLength words index (by omega)
  rw [List.getElem?_eq_getElem (by omega), Option.bind_some, Word.bare?] at bare
  cases quoted : words[index].quoted with
  | false => rfl
  | true => simp [quoted] at bare

/-- Is this the text of a word in the table? -/
def names (table : List String) (run : List Char) : Bool :=
  (table.map String.toList).contains run

theorem names_iff {table : List String} {run : List Char} :
    names table run = true ↔ String.ofList run ∈ table := by
  rw [names, List.contains_iff_mem, List.mem_map]
  constructor
  · rintro ⟨word, member, rfl⟩
    rwa [String.ofList_toList]
  · intro member
    exact ⟨_, member, String.toList_ofList⟩

/-- Are these the words of a key, whatever words follow?  A word alone is one
unless it wants more: a verb wants a noun, and the others any word. -/
def isCompleteKey : List (List Char) → Bool
  | [word] => !names (verbs ++ changeWords ++ blockWords) word
  | [first, second] =>
      names verbs first && names nouns second ||
        names blockWords first && !names (verbs ++ changeWords) first
  | [first, _, _] => names changeWords first && !names verbs first
  | _ => false

/-- A complete key takes in no argument, and leaves no word to the arguments. -/
theorem keyLength_append {runs : List (List Char)} (complete : isCompleteKey runs = true)
    (arguments : List Word) :
    keyLength (runs.map (fun run => ⟨String.ofList run, false⟩) ++ arguments) = runs.length := by
  unfold isCompleteKey at complete
  split at complete
  case h_1 word =>
      rw [Bool.not_eq_true', ← Bool.not_eq_true, names_iff] at complete
      simp only [List.mem_append, not_or] at complete
      simp [keyLength, Word.bare?, complete]
  case h_2 first second =>
      rw [Bool.or_eq_true, Bool.and_eq_true, Bool.and_eq_true, Bool.not_eq_true',
        ← Bool.not_eq_true, names_iff, names_iff, names_iff, names_iff] at complete
      simp only [List.mem_append, not_or] at complete
      rcases complete with pair | block
      · simp [keyLength, Word.bare?, pair]
      · simp [keyLength, Word.bare?, block]
  case h_3 first second third =>
      rw [Bool.and_eq_true, Bool.not_eq_true', ← Bool.not_eq_true, names_iff, names_iff] at complete
      simp [keyLength, Word.bare?, complete]
  case h_4 => cases complete

/-! ## Comments -/

/-- The first word decides whether a line holds a comment. -/
theorem isCommandLine_append {front rest : List Char} (nonempty : front ≠ [])
    (other : ∀ c ∈ rest.head?, c ≠ '/') : isCommandLine (front ++ rest) = isCommandLine front := by
  fun_cases isCommandLine front with
  | case1 => exact absurd rfl nonempty
  | case2 => rfl
  | case3 => rfl
  | case4 _ _ hash slashes =>
      rcases List.exists_cons_of_ne_nil nonempty with ⟨c, cs, rfl⟩
      apply isCommandLine.eq_4
      · simp
      · intro tail same
        exact hash cs (by rw [(List.cons.inj same).1])
      · intro tail same
        rcases List.cons.inj same with ⟨rfl, behind⟩
        cases cs with
        | nil => exact other '/' (by simpa using congrArg List.head? behind) rfl
        | cons d cs => exact slashes cs (by rw [(List.cons.inj behind).1])

/-! ## The words of a command -/

/-- A command has this key on its line, and its arguments behind it. -/
structure Spelled (command : Command) (key : List Token) : Prop where
  reads : Token.Reads 0 command.line.toList (key ++ command.arguments)
  bare : ∀ token ∈ key, token.word.IsBare
  length : keyLength (key.map Token.word ++ command.words) = key.length
  joined : command.key = String.intercalate " " ((key.map Token.word).map Word.text)
  trimmed : Text.Trimmed command.line.toList
  holdsCommand : isCommandLine command.line.toList = true

/-- The line of every command is spelled so. -/
theorem exists_spelled {text : String} {command : Command} (read : ofLine? text = some command) :
    command.line.toList = Text.trimChars text.toList ∧ ∃ key, command.Spelled key := by
  unfold ofLine? at read
  dsimp only at read
  split at read
  case isFalse => cases read
  case isTrue holds =>
      cases read
      generalize line : Text.trimChars text.toList = trimmed at holds
      have reads := Token.reads_ofLine trimmed
      have tidy : Text.Trimmed trimmed := line ▸ Text.trimmed_trimChars text.toList
      have whole : (ofTokens trimmed (Token.ofLine trimmed)).line.toList = trimmed :=
        String.toList_ofList
      refine ⟨whole,
        (Token.ofLine trimmed).take (keyLength ((Token.ofLine trimmed).map Token.word)), ?_⟩
      constructor
      case reads => rwa [whole, ofTokens, List.take_append_drop]
      case bare =>
          intro token member
          rcases reads.stands_of_mem (List.mem_of_mem_take member) with ⟨_, _, _, _, stands⟩
          apply stands.isBare
          apply unquoted_of_mem_key
          rw [← List.map_take]
          exact List.mem_map_of_mem member
      case length =>
          have within := keyLength_le ((Token.ofLine trimmed).map Token.word)
          rw [List.length_map] at within
          rw [words, ofTokens, ← List.map_append, List.take_append_drop, List.length_take]
          omega
      case joined => simp only [ofTokens, List.map_take]
      case trimmed => rwa [whole]
      case holdsCommand => rwa [whole]

namespace Spelled

variable {command : Command} {key : List Token}

/-- The words of the key can be found in its text. -/
theorem bareWords_key (spelled : command.Spelled key) :
    Word.bareWords command.key.toList = key.map Token.word := by
  rw [spelled.joined]
  apply Word.bareWords_intercalate
  simpa using spelled.bare

/-- A line begins with its first word, and there is one. -/
theorem first (spelled : command.Spelled key) :
    ∃ token others back, key ++ command.arguments = token :: others ∧
      command.line.toList = token.word.spelling ++ back ∧ token.word.Stands back ∧
      Token.Reads (byteLength token.word.spelling) back others := by
  have visible := spelled.trimmed.head
  have filled := spelled.holdsCommand
  have reads := spelled.reads
  have nonempty : command.line.toList ≠ [] := by
    intro empty
    rw [empty] at filled
    cases filled
  cases tokens : key ++ command.arguments with
  | nil => exact absurd tokens (reads.ne_nil spelled.trimmed nonempty)
  | cons token others =>
      rw [tokens] at reads
      rcases reads.first with ⟨gap, back, parts, blanks, start, stands, later⟩
      -- The gap is empty, because a trimmed line does not begin with a blank.
      cases gap with
      | nil =>
          rw [start] at later
          simp only [Text.byteLength_nil, Nat.zero_add] at later
          exact ⟨token, others, back, rfl, parts, stands, later⟩
      | cons c gap =>
          rw [parts] at visible
          cases (visible c rfl).symm.trans (blanks c List.mem_cons_self)

end Spelled

/-! ## Keys in tables -/

/-- What the keys in the tables of commands have in common. -/
def isTableKey (key : List Char) : Bool :=
  isCompleteKey (Text.visibleRuns key) && [' '].intercalate (Text.visibleRuns key) == key &&
    !key.contains '"' && (Text.visibleRuns key).head?.all isCommandLine

theorem isTableKey_of_knows {target : Target} {key : String} (known : target.knows key = true) :
    isTableKey key.toList = true := by
  have listed : ∀ {α : Type} {table : List (String × α)}, (table.lookup key).isSome = true →
      table.all (fun entry => isTableKey entry.1.toList) = true → isTableKey key.toList = true := by
    intro α table found all
    rcases Option.isSome_iff_exists.mp found with ⟨value, entry⟩
    exact List.all_eq_true.mp all (key, value) (mem_of_lookup entry)
  cases target with
  | page => exact listed known (by decide +kernel)
  | stylesheet => exact listed known (by decide +kernel)
  | script => exact listed known (by decide +kernel)

end Command
end Pagewright
