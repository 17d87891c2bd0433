import Pagewright.Command
import Pagewright.Proofs.Text.Slice
import Pagewright.Proofs.Words.Keys

namespace Pagewright
namespace Offsets

open Text

/-!
# Words and commands by offsets

A pass over a line by byte offsets, as a program does it that cannot look at
the rest of a text without slicing it.  At a quote it slices the line behind
the quote, searches there for the closing quote, and slices again from the one
to the other; the characters in between are then passed over by comparing
offsets.  The words and the places where they start are split where the key
ends, and the rest of a line is sliced at a place found earlier.

Each of these operations may fail, and none does: the pass finds the words of
the line (`tokens?_eq`), a line is read as the command that it holds
(`command?_eq`), and the rest behind every argument exists (`rest?_eq`).
-/

/-- The characters of a text with their byte offsets, the first of which is
given. -/
def charIndices : (offset : Nat) → List Char → List (Nat × Char)
  | _, [] => []
  | offset, c :: cs => (offset, c) :: charIndices (offset + c.utf8Size) cs

/-- How far a pass has come.  Characters in front of `resume` are passed
over. -/
structure Pass where
  /-- The tokens found, in reverse. -/
  found : List Token := []
  /-- The bare word that is being read, in reverse. -/
  word : List Char := []
  /-- Where that word starts. -/
  start : Nat := 0
  resume : Nat := 0
deriving Repr, DecidableEq

namespace Pass

/-- Finish the bare word, if there is one. -/
def flush (pass : Pass) : Pass :=
  if pass.word.isEmpty then
    pass
  else
    { pass with
      found := ⟨⟨String.ofList pass.word.reverse, false⟩, pass.start⟩ :: pass.found
      word := [] }

/-- The length of the text up to the quote that closes the one at `offset`, if
the character there is a quote and another one follows. -/
def closing? (line : List Char) (offset : Nat) (c : Char) : Option (Option Nat) :=
  if c = '"' then (suffixAt? line (offset + 1)).map (offsetOf? ['"']) else some none

/-- Take the character at an offset. -/
def step? (line : List Char) (pass : Pass) (entry : Nat × Char) : Option Pass :=
  if entry.1 < pass.resume then
    some pass
  else
    match closing? line entry.1 entry.2 with
    | none => none
    | some (some length) =>
        (slice? line (entry.1 + 1) (entry.1 + 1 + length)).map fun inside =>
          { pass.flush with
            found := ⟨⟨String.ofList inside, true⟩, entry.1⟩ :: pass.flush.found
            resume := entry.1 + length + 2 }
    | some none =>
        if isBlank entry.2 then
          some pass.flush
        else
          some { pass with
            word := entry.2 :: pass.word
            start := if pass.word.isEmpty then entry.1 else pass.start }

end Pass

/-- The words of a line with their positions. -/
def tokens? (line : List Char) : Option (List Token) :=
  ((charIndices 0 line).foldlM (Pass.step? line) {}).map fun pass => pass.flush.found.reverse

/-! ## A pass follows the reading by characters -/

/-- A pass that has come to `offset`, with `rest` still in front of it, stands
where the reading by characters stands in some mode.  Inside quotes the pass is
ahead: it has found the word already. -/
inductive Follows (rest : List Char) (offset : Nat) : Token.Mode → List Token → Pass → Prop
  | gap {found : List Token} {start resume : Nat} (reached : resume ≤ offset) :
      Follows rest offset .gap found ⟨found, [], start, resume⟩
  | bare {found : List Token} {start resume : Nat} {reversed : List Char} (nonempty : reversed ≠ [])
      (reached : resume ≤ offset) :
      Follows rest offset (.bare start reversed) found ⟨found, reversed, start, resume⟩
  | quoted {found : List Token} {start earlier : Nat} {reversed inside back : List Char}
      (absent : '"' ∉ inside) (ahead : rest = inside ++ '"' :: back) :
      Follows rest offset (.quoted start reversed) found
        ⟨⟨⟨String.ofList (reversed.reverse ++ inside), true⟩, start⟩ :: found, [], earlier,
          offset + byteLength inside + 1⟩

/-- The pass takes one character as the reading by characters does. -/
def SameStep (line : List Char) (c : Char) (cs : List Char) (offset : Nat) (mode : Token.Mode)
    (found : List Token) (pass : Pass) : Prop :=
  ∃ next nextMode nextFound, pass.step? line (offset, c) = some next ∧
    Follows cs (offset + c.utf8Size) nextMode nextFound next ∧
    Token.scan (c :: cs) offset mode found = Token.scan cs (offset + c.utf8Size) nextMode nextFound

section Step

variable {line front cs : List Char} {c : Char} {found : List Token}

theorem sameStep_quoted {start earlier : Nat} {reversed inside back : List Char}
    (absent : '"' ∉ inside) (ahead : c :: cs = inside ++ '"' :: back) (offset : Nat) :
    SameStep line c cs offset (.quoted start reversed) found
      ⟨⟨⟨String.ofList (reversed.reverse ++ inside), true⟩, start⟩ :: found, [], earlier,
        offset + byteLength inside + 1⟩ := by
  have passed : ∀ {tokens : List Token}, Pass.step? line
      ⟨tokens, [], earlier, offset + byteLength inside + 1⟩ (offset, c) =
        some ⟨tokens, [], earlier, offset + byteLength inside + 1⟩ := by
    intro tokens
    rw [Pass.step?, if_pos (by dsimp only; omega)]
  cases inside with
  | nil =>
      rcases List.cons.inj ahead with ⟨rfl, rfl⟩
      refine ⟨_, .gap, ⟨⟨String.ofList reversed.reverse, true⟩, start⟩ :: found, passed, ?_, ?_⟩
      · rw [List.append_nil]
        exact .gap (Nat.le_refl _)
      · rw [Token.scan, if_pos rfl]
  | cons d inside =>
      rcases List.cons.inj ahead with ⟨rfl, rfl⟩
      have different : c ≠ '"' := fun same => absent (same ▸ List.mem_cons_self)
      refine ⟨_, .quoted start (c :: reversed), found, passed, ?_, ?_⟩
      · have follows := @Follows.quoted (inside ++ '"' :: back) (offset + c.utf8Size) found start earlier
          (c :: reversed) inside back (List.not_mem_of_not_mem_cons absent) rfl
        rw [List.reverse_cons, List.append_assoc, List.singleton_append] at follows
        rwa [byteLength_cons, ← Nat.add_assoc]
      · rw [Token.scan, if_neg different]

/-- Outside of quotes, a pass has found what the reading has found, and is in
the same word. -/
structure Outside (mode : Token.Mode) (found : List Token) (pass : Pass) (offset : Nat) : Prop where
  unquoted : ∀ start reversed, mode ≠ .quoted start reversed
  flush : pass.flush = { pass with found := mode.flush found, word := [] }
  extend : ∀ added rest later, offset ≤ later →
    Follows rest later (mode.extend offset added) found
      { pass with
        word := added :: pass.word
        start := if pass.word.isEmpty then offset else pass.start }
  reached : pass.resume ≤ offset

theorem outside_gap {start resume offset : Nat} (reached : resume ≤ offset) :
    Outside .gap found ⟨found, [], start, resume⟩ offset where
  unquoted := fun _ _ => Token.Mode.noConfusion
  flush := rfl
  extend := fun _ _ _ later => .bare (List.cons_ne_nil _ _) (Nat.le_trans reached later)
  reached := reached

theorem outside_bare {start resume offset : Nat} {reversed : List Char} (nonempty : reversed ≠ [])
    (reached : resume ≤ offset) :
    Outside (.bare start reversed) found ⟨found, reversed, start, resume⟩ offset where
  unquoted := fun _ _ => Token.Mode.noConfusion
  flush := by
    rw [Pass.flush, if_neg (by simpa using nonempty)]
    rfl
  extend := fun added _ _ later => by
    rw [if_neg (by simpa using nonempty)]
    exact .bare (List.cons_ne_nil _ _) (Nat.le_trans reached later)
  reached := reached

theorem closing?_quote (whole : line = front ++ '"' :: cs) :
    Pass.closing? line (byteLength front) '"' = some (offsetOf? ['"'] cs) := by
  have behind : suffixAt? line (byteLength front + 1) = some cs := by
    refine suffixAt?_eq_some_iff.mpr ⟨front ++ ['"'], ?_, ?_⟩
    · rw [List.append_assoc, List.singleton_append, whole]
    · rw [byteLength_append]
      rfl
  rw [Pass.closing?, if_pos rfl, behind, Option.map_some]

variable {mode : Token.Mode} {pass : Pass}

/-- A quote that is closed begins a quoted word. -/
theorem sameStep_opened (outside : Outside mode found pass (byteLength front))
    (whole : line = front ++ '"' :: cs) (closed : '"' ∈ cs) :
    SameStep line '"' cs (byteLength front) mode found pass := by
  rcases List.eq_append_cons_of_mem closed with ⟨inside, back, ahead, absent⟩
  have current : ¬byteLength front < pass.resume := Nat.not_lt.mpr outside.reached
  have closing : Pass.closing? line (byteLength front) '"' = some (some (byteLength inside)) := by
    rw [closing?_quote whole, ahead, offsetOf?_char absent]
  have sliced : slice? line (byteLength front + 1) (byteLength front + 1 + byteLength inside) =
      some inside := by
    refine slice?_eq_some_iff.mpr ⟨front ++ ['"'], '"' :: back, ?_, ?_, ?_⟩
    · rw [whole, ahead, List.append_assoc, List.singleton_append]
    · rw [byteLength_append]
      rfl
    · rw [byteLength_append]
      rfl
  refine ⟨⟨⟨⟨String.ofList inside, true⟩, byteLength front⟩ :: mode.flush found, [], pass.start,
    byteLength front + byteLength inside + 2⟩, .quoted (byteLength front) [], mode.flush found,
    ?_, ?_, ?_⟩
  · rw [Pass.step?, if_neg current, closing]
    dsimp only
    rw [sliced, outside.flush, Option.map_some]
  · have follows := @Follows.quoted cs (byteLength front + 1) (mode.flush found) (byteLength front)
      pass.start [] inside back absent ahead
    have resume : byteLength front + 1 + byteLength inside + 1 =
        byteLength front + byteLength inside + 2 := by omega
    rwa [resume] at follows
  · rw [Token.scan.eq_3 _ _ _ _ _ outside.unquoted, if_pos (by simpa using closed)]

/-- Any other character continues a bare word or ends it. -/
theorem sameStep_plain (outside : Outside mode found pass (byteLength front))
    (unopened : (c = '"' && cs.contains '"') = false)
    (closing : Pass.closing? line (byteLength front) c = some none) :
    SameStep line c cs (byteLength front) mode found pass := by
  have current : ¬byteLength front < pass.resume := Nat.not_lt.mpr outside.reached
  have further : byteLength front ≤ byteLength front + c.utf8Size := Nat.le_add_right _ _
  have scanned := Token.scan.eq_3 (byteLength front) mode found c cs outside.unquoted
  rw [unopened, if_neg Bool.false_ne_true] at scanned
  by_cases blank : isBlank c = true
  · refine ⟨{ pass with found := mode.flush found, word := [] }, .gap, mode.flush found, ?_, ?_, ?_⟩
    · rw [Pass.step?, if_neg current, closing]
      dsimp only
      rw [if_pos blank, outside.flush]
    · exact .gap (Nat.le_trans outside.reached further)
    · rw [scanned, if_pos blank]
  · refine ⟨_, mode.extend (byteLength front) c, found, ?_, outside.extend c cs _ further, ?_⟩
    · rw [Pass.step?, if_neg current, closing]
      dsimp only
      rw [if_neg blank]
    · rw [scanned, if_neg blank]

theorem sameStep_outside (outside : Outside mode found pass (byteLength front))
    (whole : line = front ++ c :: cs) : SameStep line c cs (byteLength front) mode found pass := by
  by_cases quote : c = '"'
  · subst quote
    by_cases closed : '"' ∈ cs
    · exact sameStep_opened outside whole closed
    · refine sameStep_plain outside (by simpa using closed) ?_
      rw [closing?_quote whole, offsetOf?_of_notMem closed]
  · exact sameStep_plain outside (by simp [quote]) (if_neg quote)

theorem sameStep (follows : Follows (c :: cs) (byteLength front) mode found pass)
    (whole : line = front ++ c :: cs) : SameStep line c cs (byteLength front) mode found pass := by
  cases follows with
  | gap reached => exact sameStep_outside (outside_gap reached) whole
  | bare nonempty reached => exact sameStep_outside (outside_bare nonempty reached) whole
  | quoted absent ahead => exact sameStep_quoted absent ahead _

end Step

/-- A pass to the end of the line finds what the reading finds. -/
theorem tokens_of_follows {line front rest : List Char} {mode : Token.Mode} {found : List Token}
    {pass : Pass} (whole : line = front ++ rest)
    (follows : Follows rest (byteLength front) mode found pass) :
    ((charIndices (byteLength front) rest).foldlM (Pass.step? line) pass).map
        (fun last => last.flush.found.reverse) =
      some (Token.scan rest (byteLength front) mode found) := by
  induction rest generalizing front mode found pass with
  | nil =>
      cases follows with
      | gap => rfl
      | bare nonempty reached =>
          exact congrArg (fun last : Pass => some last.found.reverse)
            (outside_bare nonempty reached).flush
      | quoted absent ahead => exact absurd ahead (by simp)
  | cons c cs ih =>
      rcases sameStep follows whole with ⟨next, nextMode, nextFound, stepped, onward, scanned⟩
      have length : byteLength (front ++ [c]) = byteLength front + c.utf8Size := by
        rw [byteLength_append]
        rfl
      rw [← length] at onward scanned
      have remaining := ih (by rw [whole, List.append_assoc, List.singleton_append]) onward
      rw [scanned, ← remaining, charIndices, List.foldlM_cons, stepped, length]
      rfl

/-- The pass finds the words of the line; no slice on the way fails. -/
theorem tokens?_eq (line : List Char) : tokens? line = some (Token.ofLine line) :=
  @tokens_of_follows line [] line .gap [] {} rfl (.gap (Nat.le_refl _))

/-! ## Commands -/

/-- The entries in front of an index and those from it on.  The index has to lie
in the list or at its end. -/
def splitOff? {α : Type} (entries : List α) (index : Nat) : Option (List α × List α) :=
  if index ≤ entries.length then some (entries.splitAt index) else none

/-- The command on a line, if it holds one.  Words and starts are split off where
the key ends. -/
def command? (text : String) : Option (Option Command) :=
  let line := trimChars text.toList
  if Command.isCommandLine line then
    (tokens? line).bind fun tokens =>
      if tokens.isEmpty then
        some none
      else
        (splitOff? tokens (Command.keyLength (tokens.map Token.word))).map fun parts =>
          some
            { key := String.intercalate " " (parts.1.map fun token => token.word.text)
              arguments := parts.2
              line := String.ofList line }
  else
    some none

/-- A line is read as the command that it holds. -/
theorem command?_eq (text : String) : command? text = some (Command.ofLine? text) := by
  unfold command? Command.ofLine?
  dsimp only
  split
  case isFalse => rfl
  case isTrue holds =>
      have nonempty : trimChars text.toList ≠ [] := by
        intro empty
        rw [empty] at holds
        cases holds
      have words : Token.ofLine (trimChars text.toList) ≠ [] :=
        (Token.reads_ofLine _).ne_nil (trimmed_trimChars text.toList) nonempty
      have fits := Command.keyLength_le ((Token.ofLine (trimChars text.toList)).map Token.word)
      rw [List.length_map] at fits
      rw [tokens?_eq, Option.bind_some, if_neg (by rwa [List.isEmpty_iff]), splitOff?, if_pos fits,
        List.splitAt_eq, Option.map_some, Command.ofTokens, ← List.map_take, List.map_map]
      rfl

/-- The line from argument `index` on, sliced where the argument starts. -/
def rest? (command : Command) (index : Nat) : Option String :=
  match command.arguments[index]? with
  | none => some ""
  | some token => (suffixAt? command.line.toList token.start).map String.ofList

/-- The rest behind every argument of a command exists. -/
theorem rest?_eq {text : String} {command : Command} (read : Command.ofLine? text = some command)
    (index : Nat) : rest? command index = some (command.rest index) := by
  unfold rest? Command.rest
  cases argument : command.arguments[index]? with
  | none => rfl
  | some token =>
      rcases Command.exists_spelled read with ⟨-, key, spelled⟩
      have member : token ∈ key ++ command.arguments :=
        List.mem_append_right key (List.mem_of_getElem? argument)
      rcases spelled.reads.stands_of_mem member with ⟨front, back, parts, start, -⟩
      have sliced := suffixAt?_eq_some_iff.mpr ⟨front, parts, (start.trans (Nat.zero_add _)).symm⟩
      dsimp only
      rw [sliced]
      rfl

end Offsets
end Pagewright
