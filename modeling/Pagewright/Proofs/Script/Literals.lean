import Pagewright.Proofs.Json.Writing
import Pagewright.Proofs.Markup.EndTag
import Pagewright.Script.Expression

namespace Pagewright
namespace Script

/-!
# String literals in scripts

A script is read by others, so what a literal means is fixed here by a reader
of its own.  It takes either quote and knows every escape: letters, two
hexadecimal digits behind `x`, four behind `u` or any number in braces, a zero
that no digit follows, and the end of a line, which stands for nothing.  A
string is a sequence of units of sixteen bits.  A character may take two of
them, and only when a literal has ended are units put together.

A quoted argument is escaped once as a string, and then once more as a text
inside a script element.  The second pass knows nothing of the first and looks
at finished literals.  It puts a backslash in front of slashes that stand behind
a bracket.  Such a slash is never part of an escape, because no escape holds a
bracket, so it is a piece of the literal, and it stays one.
-/

namespace Literal

open Json.Mode (isHigh isLow)

/-! ## Units -/

/-- The units that encode a code point. -/
def unitsOf (code : Nat) : List Nat :=
  if code < 0x10000 then [code]
  else [0xD800 + (code - 0x10000) / 0x400, 0xDC00 + (code - 0x10000) % 0x400]

/-- The characters that some units encode, behind the first half of a pair if
there is one.  Half of a pair that stands alone encodes nothing. -/
def charsFrom : (high : Option Nat) → List Nat → Option (List Char)
  | none, [] => some []
  | some _, [] => none
  | none, unit :: rest =>
      if isLow unit then none
      else if isHigh unit then charsFrom (some unit) rest
      else (charsFrom none rest).map (Char.ofNat unit :: ·)
  | some high, unit :: rest =>
      if isLow unit then
        (charsFrom none rest).map
          (Char.ofNat (0x10000 + (high - 0xD800) * 0x400 + (unit - 0xDC00)) :: ·)
      else none

/-- A character is found again from its units. -/
theorem charsFrom_unitsOf (c : Char) (rest : List Nat) :
    charsFrom none (unitsOf c.toNat ++ rest) = (charsFrom none rest).map (c :: ·) := by
  have valid : c.toNat < 0xD800 ∨ 0xDFFF < c.toNat ∧ c.toNat < 0x110000 := c.valid
  unfold unitsOf
  split
  case isTrue single =>
      have whole : isLow c.toNat = false ∧ isHigh c.toNat = false := by
        simp only [isHigh, isLow, Bool.and_eq_false_iff, decide_eq_false_iff_not]
        omega
      rw [List.singleton_append, charsFrom, whole.1, whole.2, Char.ofNat_toNat]
      rfl
  case isFalse pair =>
      have first : isLow (0xD800 + (c.toNat - 0x10000) / 0x400) = false ∧
          isHigh (0xD800 + (c.toNat - 0x10000) / 0x400) = true := by
        simp only [isHigh, isLow, Bool.and_eq_false_iff, Bool.and_eq_true, decide_eq_false_iff_not,
          decide_eq_true_eq]
        omega
      have second : isLow (0xDC00 + (c.toNat - 0x10000) % 0x400) = true := by
        simp only [isLow, Bool.and_eq_true, decide_eq_true_eq]
        omega
      have code : 0x10000 + (0xD800 + (c.toNat - 0x10000) / 0x400 - 0xD800) * 0x400 +
          (0xDC00 + (c.toNat - 0x10000) % 0x400 - 0xDC00) = c.toNat := by omega
      rw [List.cons_append, List.singleton_append, charsFrom, first.1, first.2, if_neg Bool.false_ne_true,
        if_pos rfl, charsFrom, if_pos second, code, Char.ofNat_toNat]

theorem charsFrom_flatMap (text : List Char) :
    charsFrom none (text.flatMap fun c => unitsOf c.toNat) = some text := by
  induction text with
  | nil => rfl
  | cons c cs ih => rw [List.flatMap_cons, charsFrom_unitsOf, ih, Option.map_some]

/-! ## The reader -/

/-- What the reading of a literal is inside of. -/
inductive Mode where
  | inside
  /-- Behind a backslash. -/
  | escape
  /-- Behind an escaped zero. -/
  | zero
  /-- Behind an escaped carriage return. -/
  | lineEnd
  /-- Inside a unit given by number, with more than `left` digits to come. -/
  | code (left value : Nat)
  /-- Behind an escaped `u`. -/
  | unicode
  /-- Inside a code point in braces. -/
  | braces (value : Option Nat)
  /-- Behind the closing quote. -/
  | done
deriving Repr, DecidableEq

/-- The ends of lines in a script. -/
def isLineEnd (c : Char) : Bool :=
  c = '\n' || c = '\r' || c = '\u2028' || c = '\u2029'

namespace Mode

/-- A character outside of escapes.  Of the ends of lines only two may stand in
a literal as they are. -/
def plain? (quote c : Char) : Option (List Nat × Mode) :=
  if c = quote then some ([], .done)
  else if c = '\\' then some ([], .escape)
  else if c = '\n' || c = '\r' then none
  else some (unitsOf c.toNat, .inside)

/-- The character behind a backslash.  One without a meaning of its own stands
for itself, but for digits. -/
def escaped? : Char → Option (List Nat × Mode)
  | 'b' => some ([0x08], .inside)
  | 't' => some ([0x09], .inside)
  | 'n' => some ([0x0A], .inside)
  | 'v' => some ([0x0B], .inside)
  | 'f' => some ([0x0C], .inside)
  | 'r' => some ([0x0D], .inside)
  | '0' => some ([0x00], .zero)
  | 'x' => some ([], .code 1 0)
  | 'u' => some ([], .unicode)
  | '\r' => some ([], .lineEnd)
  | c =>
      if c.isDigit then none
      else if isLineEnd c then some ([], .inside)
      else some (unitsOf c.toNat, .inside)

/-- The units that a character completes, and what stands behind it. -/
def step? (quote : Char) : Mode → Char → Option (List Nat × Mode)
  | .inside, c => plain? quote c
  | .escape, c => escaped? c
  | .zero, c => if c.isDigit then none else plain? quote c
  | .lineEnd, c => if c = '\n' then some ([], .inside) else plain? quote c
  | .code left value, c =>
      (Text.hexValue? c).map fun digit =>
        match left with
        | 0 => ([16 * value + digit], .inside)
        | left + 1 => ([], .code left (16 * value + digit))
  | .unicode, c =>
      if c = '\x7b' then some ([], .braces none)
      else (Text.hexValue? c).map fun digit => ([], .code 2 digit)
  | .braces value, c =>
      if c = '\x7d' then value.map fun code => (unitsOf code, .inside)
      else
        (Text.hexValue? c).bind fun digit =>
          if 16 * value.getD 0 + digit < 0x110000 then
            some ([], .braces (some (16 * value.getD 0 + digit)))
          else none
  | .done, _ => none

end Mode

/-- The units of the rest of a literal, up to its closing quote, behind which
nothing may stand. -/
def unitsFrom (quote : Char) : Mode → List Char → Option (List Nat)
  | mode, [] => if mode = .done then some [] else none
  | mode, c :: cs =>
      match mode.step? quote c with
      | none => none
      | some (units, next) => (unitsFrom quote next cs).map (units ++ ·)

def quotes : List Char := ['"', '\'']

/-- The text that a literal stands for.  There is none if it is no literal, or
if its string is no text. -/
def text? (literal : String) : Option String :=
  match literal.toList with
  | [] => none
  | quote :: rest =>
      if quote ∈ quotes then
        ((unitsFrom quote .inside rest).bind (charsFrom none)).map String.ofList
      else
        none

/-! ## Reading piece by piece -/

theorem unitsFrom_cons {quote c : Char} {mode next : Mode} {units : List Nat}
    (step : mode.step? quote c = some (units, next)) (cs : List Char) :
    unitsFrom quote mode (c :: cs) = (unitsFrom quote next cs).map (units ++ ·) := by
  rw [unitsFrom, step]

/-- A character that completes nothing. -/
theorem unitsFrom_silent {quote c : Char} {mode next : Mode}
    (step : mode.step? quote c = some ([], next)) (cs : List Char) :
    unitsFrom quote mode (c :: cs) = unitsFrom quote next cs := by
  rw [unitsFrom_cons step]
  simp only [List.nil_append, Option.map_id']

/-- A piece of a literal stands for a character, whatever follows. -/
def Means (quote : Char) (piece : List Char) (c : Char) : Prop :=
  ∀ rest, unitsFrom quote .inside (piece ++ rest) =
    (unitsFrom quote .inside rest).map (unitsOf c.toNat ++ ·)

section

variable {quote : Char}

theorem means_plain {c : Char} (unquoted : c ≠ quote) (ordinary : c ≠ '\\') (inLine : c ≠ '\n')
    (inReturn : c ≠ '\r') : Means quote [c] c := by
  intro rest
  apply unitsFrom_cons
  simp only [Mode.step?, Mode.plain?, unquoted, ordinary, inLine, inReturn, decide_false,
    Bool.or_self, Bool.false_eq_true, if_false]

theorem step?_backslash (listed : quote ∈ quotes) :
    Mode.step? quote .inside '\\' = some ([], .escape) := by
  simp only [quotes, List.mem_cons, List.not_mem_nil, or_false] at listed
  rcases listed with rfl | rfl
  · rfl
  · rfl

theorem means_escaped (listed : quote ∈ quotes) {letter c : Char}
    (meant : Mode.escaped? letter = some (unitsOf c.toNat, .inside)) :
    Means quote ['\\', letter] c := by
  intro rest
  rw [List.cons_append, unitsFrom_silent (step?_backslash listed)]
  exact @unitsFrom_cons quote letter .escape .inside _ meant rest

/-- Pieces are read as the units of their characters. -/
theorem unitsFrom_spelled {body text : List Char} (spells : Text.Spells (Means quote) body text)
    (rest : List Char) :
    unitsFrom quote .inside (body ++ rest) =
      (unitsFrom quote .inside rest).map ((text.flatMap fun c => unitsOf c.toNat) ++ ·) := by
  induction spells with
  | nil => simp only [List.nil_append, List.flatMap_nil, Option.map_id']
  | cons first _ ih =>
      rw [List.append_assoc, first, ih, Option.map_map, List.flatMap_cons]
      congr 1
      funext later
      simp only [Function.comp_apply, List.append_assoc]

/-- Pieces between quotes are the text of their characters. -/
theorem text?_spelled (listed : quote ∈ quotes) {body : List Char} {text literal : String}
    (spells : Text.Spells (Means quote) body text.toList)
    (written : literal.toList = quote :: (body ++ [quote])) : text? literal = some text := by
  have closing : Mode.step? quote .inside quote = some ([], .done) := by
    rw [Mode.step?, Mode.plain?, if_pos rfl]
  have ended : unitsFrom quote .inside [quote] = some [] := unitsFrom_silent closing []
  rw [text?, written]
  dsimp only
  rw [if_pos listed, unitsFrom_spelled spells, ended, Option.map_some, List.append_nil,
    Option.bind_some, charsFrom_flatMap, Option.map_some, String.ofList_toList]

end

/-- The pieces of a double-quoted literal are read as what they stand for. -/
theorem means_written {piece : List Char} {c : Char} (written : Text.Written piece c) :
    Means '"' piece c := by
  cases written with
  | plain unquoted ordinary visible =>
      apply means_plain unquoted ordinary
      · rintro rfl
        exact absurd visible (by decide)
      · rintro rfl
        exact absurd visible (by decide)
  | @short letter c listed =>
      have letters : ∀ entry ∈ Text.shortEscapes,
          Mode.escaped? entry.1 = some (unitsOf entry.2.toNat, .inside) := by decide
      exact means_escaped (by decide) (letters (letter, c) listed)
  | code control =>
      intro rest
      have high : Mode.step? '"' (.code 1 0) (Text.hexDigit (c.toNat / 16)) =
          some ([], .code 0 (c.toNat / 16)) := by
        rw [Mode.step?, Text.hexValue?_hexDigit (by omega), Option.map_some]
        simp only [Nat.mul_zero, Nat.zero_add]
      have low : Mode.step? '"' (.code 0 (c.toNat / 16)) (Text.hexDigit (c.toNat % 16)) =
          some (unitsOf c.toNat, .inside) := by
        have value : 16 * (c.toNat / 16) + c.toNat % 16 = c.toNat := by omega
        have single : unitsOf c.toNat = [c.toNat] := if_pos (by omega)
        rw [Mode.step?, Text.hexValue?_hexDigit (Nat.mod_lt _ (by decide)), Option.map_some, single]
        simp only [value]
      have digits : ∀ more, unitsFrom '"' .inside ('\\' :: 'u' :: '0' :: '0' :: more) =
          unitsFrom '"' (.code 1 0) more := by
        intro more
        rw [unitsFrom_silent rfl, unitsFrom_silent rfl, unitsFrom_silent rfl, unitsFrom_silent rfl]
        rfl
      simp only [List.cons_append, List.nil_append]
      rw [digits, unitsFrom_silent high, unitsFrom_cons low]

end Literal

/-! ## Literals inside a script element -/

theorem foldr_guardChar {piece : List Char} (bracketFree : '<' ∉ piece) (name rest : List Char) :
    piece.foldr (Markup.guardChar name) rest = piece ++ rest := by
  induction piece with
  | nil => rfl
  | cons c cs ih =>
      rw [List.mem_cons, not_or] at bracketFree
      rw [List.foldr_cons, ih bracketFree.2, Markup.guardChar_of_apart, List.cons_append]
      exact fun bracket => absurd bracket.symm bracketFree.1

/-- Breaking up end tags leaves a literal in pieces for the same text. -/
theorem exists_guarded (text : List Char) {back : List Char} (apart : back.head? ≠ some '/') :
    ∃ body, (text.flatMap Text.doubleQuotedChar).foldr (Markup.guardChar []) back = body ++ back ∧
      Text.Spells Text.Written body text := by
  induction text with
  | nil => exact ⟨[], rfl, .nil⟩
  | cons c cs ih =>
      rcases ih with ⟨body, same, spells⟩
      have first := Text.written_doubleQuotedChar c
      rw [List.flatMap_cons, List.foldr_append, same]
      by_cases bracket : c = '<'
      case neg =>
          refine ⟨_, ?_, .cons first spells⟩
          rw [foldr_guardChar (first.bracketFree bracket), List.append_assoc]
      case pos =>
        subst bracket
        have single : Text.doubleQuotedChar '<' = ['<'] := rfl
        rw [single] at first ⊢
        rw [List.foldr_cons, List.foldr_nil]
        by_cases slash : (body ++ back).head? = some '/'
        case neg =>
            refine ⟨_, ?_, .cons first spells⟩
            rw [Markup.guardChar_of_apart (fun _ => slash), List.append_assoc, List.singleton_append]
        case pos =>
          cases spells with
          | nil => exact absurd slash apart
          | cons next others =>
              -- Only a slash that stands for itself comes first in its piece.
              cases next with
              | plain =>
                  cases slash
                  exact ⟨_, rfl, .cons first (.cons (.short (by decide)) others)⟩
              | short => cases slash
              | code => cases slash

/-- Between its quotes, a string literal falls into pieces for its text. -/
theorem exists_spelled (text : String) :
    ∃ body, (stringLiteral text).toList = '"' :: (body ++ ['"']) ∧
      Text.Spells Text.Written body text.toList := by
  rcases @exists_guarded text.toList ['"'] (by decide) with ⟨body, guarded, spells⟩
  refine ⟨body, ?_, spells⟩
  rw [stringLiteral, Markup.guardEndTags, String.toList_ofList, Text.doubleQuoted,
    String.toList_append, String.toList_append, String.toList_ofList, List.append_assoc]
  have closing : "\"".toList.foldr (Markup.guardChar []) [] = ['"'] := rfl
  rw [List.foldr_append, List.foldr_append, closing, String.toList_ofList, guarded]
  exact foldr_guardChar (by decide) [] _

/-- A quoted argument becomes a string literal that stands for exactly its text,
read as JSON or as a literal of a script.  Nothing in it can end the script
element or the line, and only its two delimiters are quotes without a backslash
in front. -/
theorem stringLiteral_faithful (text : String) :
    value ⟨text, true⟩ = stringLiteral text ∧
      Json.read? (stringLiteral text) = some (.text text) ∧
      Literal.text? (stringLiteral text) = some text ∧
      ¬"</".toList <:+: (stringLiteral text).toList ∧
      (∀ c ∈ (stringLiteral text).toList, 0x20 ≤ c.toNat) ∧
      ∃ body, stringLiteral text = "\"" ++ body ++ "\"" ∧ Text.Escaped '"' body.toList := by
  rcases exists_spelled text with ⟨body, written, spells⟩
  have lexed : Json.Lexes .gap (stringLiteral text).toList [.datum (.text text)] .gap := by
    rw [written]
    exact Json.lexes_between_quotes spells
  have free := Markup.endTagFree_guardEndTags "" (Text.doubleQuoted text)
  refine ⟨rfl, Json.read?_eq lexed (Json.assembles_datum _), ?_, free.notInfix, ?_, ?_⟩
  · exact Literal.text?_spelled (by decide) (spells.imp fun _ _ => Literal.means_written) written
  · rw [written]
    simp only [List.forall_mem_cons, List.forall_mem_append]
    exact ⟨by decide, spells.forall_mem fun _ _ => Text.Written.visible, by decide,
      List.forall_mem_nil _⟩
  · refine ⟨String.ofList body, String.toList_injective ?_, ?_⟩
    · simp only [written, String.toList_append, String.toList_ofList, List.append_assoc]
      rfl
    · rw [String.toList_ofList]
      exact spells.escaped

end Script
end Pagewright
