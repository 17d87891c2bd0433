import Pagewright.Proofs.Text.Literal

namespace Pagewright
namespace Stylesheet

/-!
# Strings in stylesheets

A single-quoted string of a stylesheet ends at the first quote that no backslash
takes along, and whatever stands behind that quote is no longer part of it.  So
a string is read as two things, its value and what follows.  A line cannot end
inside a string unless a backslash stands in front of the line end, and then the
two stand for nothing.

Two rules for backslashes are kept side by side.  By the first, a backslash
stands for the character behind it.  By the second, which is that of a browser,
up to six hexadecimal digits behind it are the number of a character, and a
blank behind the digits belongs to them.  Texts that are escaped for one reader
should not depend on the choice.

Reading never makes a text longer, and every backslash makes it shorter.  This
is how a text that was put between quotes as it is gives itself away: it is read
as itself only if nothing in it was taken for an escape or for the end.
-/

namespace Quoted

/-- What a backslash takes along. -/
inductive Escapes where
  /-- The one character behind it. -/
  | single
  /-- The hexadecimal digits behind it, and one character where there are
  none. -/
  | numbered
deriving Repr, DecidableEq

/-- The number of digits that a backslash may take along. -/
def Escapes.digits : Escapes → Nat
  | .single => 0
  | .numbered => 6

/-- What the reading of a string is inside of. -/
inductive Mode where
  | inside
  /-- Behind a backslash. -/
  | escape
  /-- Behind digits of a number, with at most `left` digits to come. -/
  | number (left code : Nat)
  /-- Behind a carriage return that was taken along; a line feed behind it is
  the same line end. -/
  | lineEnd
deriving Repr, DecidableEq

/-- The ends of lines in a stylesheet. -/
def lineEnds : List Char := ['\n', '\r', '\x0c']

/-- The character with a number.  Numbers without a character, and zero, stand
for the replacement character. -/
def charAt (code : Nat) : Char :=
  if code ≠ 0 ∧ code.isValidChar then Char.ofNat code else '�'

/-- The value of one more digit, if there may be one. -/
def digit? (left : Nat) (c : Char) : Option Nat :=
  if left = 0 then none else Text.hexValue? c

namespace Mode

/-- A character outside of escapes: what it adds to the value, and what stands
behind it, which is nothing if it ends the string. -/
def plain? (c : Char) : Option (List Char × Option Mode) :=
  if c = '\'' then some ([], none)
  else if c = '\\' then some ([], some .escape)
  else if c ∈ lineEnds then none
  else some ([c], some .inside)

/-- The character behind a backslash. -/
def escaped (escapes : Escapes) (c : Char) : List Char × Mode :=
  if c = '\r' then ([], .lineEnd)
  else if c ∈ lineEnds then ([], .inside)
  else
    match digit? escapes.digits c with
    | some digit => ([], .number (escapes.digits - 1) digit)
    | none => ([c], .inside)

/-- The character behind a number that has no further digit. -/
def closeNumber? (code : Nat) (c : Char) : Option (List Char × Option Mode) :=
  if c = '\r' then some ([charAt code], some .lineEnd)
  else if c = ' ' ∨ c = '\t' ∨ c ∈ lineEnds then some ([charAt code], some .inside)
  else (plain? c).map fun step => (charAt code :: step.1, step.2)

def step? (escapes : Escapes) : Mode → Char → Option (List Char × Option Mode)
  | .inside, c => plain? c
  | .escape, c => some ((escaped escapes c).1, some (escaped escapes c).2)
  | .number left code, c =>
      match digit? left c with
      | some digit => some ([], some (.number (left - 1) (16 * code + digit)))
      | none => closeNumber? code c
  | .lineEnd, c => if c = '\n' then some ([], some .inside) else plain? c

end Mode

/-- The value of the rest of a string, and what follows its closing quote. -/
def readFrom (escapes : Escapes) : Mode → List Char → Option (List Char × List Char)
  | _, [] => none
  | mode, c :: cs =>
      match mode.step? escapes c with
      | none => none
      | some (added, none) => some (added, cs)
      | some (added, some next) =>
          (readFrom escapes next cs).map fun read => (added ++ read.1, read.2)

/-- The value of the single-quoted string that a text begins with, and what
follows it. -/
def read? (escapes : Escapes) : List Char → Option (List Char × List Char)
  | '\'' :: cs => readFrom escapes .inside cs
  | _ => none

/-! ## Reading piece by piece -/

variable {escapes : Escapes}

theorem readFrom_cons {mode next : Mode} {c : Char} {added : List Char}
    (step : mode.step? escapes c = some (added, some next)) (cs : List Char) :
    readFrom escapes mode (c :: cs) =
      (readFrom escapes next cs).map fun read => (added ++ read.1, read.2) := by
  rw [readFrom, step]

/-- What was read in front of the rest of a string, and from it. -/
theorem exists_of_readFrom {mode next : Mode} {c : Char} {added cs value rest : List Char}
    (step : mode.step? escapes c = some (added, some next))
    (read : readFrom escapes mode (c :: cs) = some (value, rest)) :
    ∃ later, value = added ++ later ∧ readFrom escapes next cs = some (later, rest) := by
  rw [readFrom_cons step] at read
  rcases Option.map_eq_some_iff.mp read with ⟨⟨later, behind⟩, found, same⟩
  cases same
  exact ⟨later, rfl, found⟩

theorem readFrom_quote (rest : List Char) :
    readFrom escapes .inside ('\'' :: rest) = some ([], rest) :=
  rfl

/-- A piece of a string stands for a character, whatever follows. -/
def Means (escapes : Escapes) (piece : List Char) (c : Char) : Prop :=
  ∀ rest, readFrom escapes .inside (piece ++ rest) =
    (readFrom escapes .inside rest).map fun read => (c :: read.1, read.2)

theorem plain?_of_plain {c : Char} (unquoted : c ≠ '\'') (ordinary : c ≠ '\\')
    (inLine : c ∉ lineEnds) : Mode.plain? c = some ([c], some .inside) := by
  rw [Mode.plain?, if_neg unquoted, if_neg ordinary, if_neg inLine]

theorem means_plain {c : Char} (unquoted : c ≠ '\'') (ordinary : c ≠ '\\')
    (inLine : c ∉ lineEnds) : Means escapes [c] c := by
  intro rest
  exact @readFrom_cons escapes .inside _ c _ (plain?_of_plain unquoted ordinary inLine) rest

/-- A character that is no digit stands for itself behind a backslash, by either
rule. -/
theorem means_escaped {c : Char} (inLine : c ∉ lineEnds) (noDigit : Text.hexValue? c = none) :
    Means escapes ['\\', c] c := by
  intro rest
  have taken : Mode.escaped escapes c = ([c], .inside) := by
    have noReturn : c ≠ '\r' := by
      rintro rfl
      exact inLine (by decide)
    rw [Mode.escaped, if_neg noReturn, if_neg inLine, digit?, noDigit, ite_self]
  have second : Mode.escape.step? escapes c = some ([c], some .inside) := by
    rw [Mode.step?, taken]
  have first := @readFrom_cons escapes .inside .escape '\\' [] rfl (c :: rest)
  rw [List.cons_append, List.singleton_append, first, readFrom_cons second, Option.map_map]
  rfl

/-- Pieces between quotes are read as their characters. -/
theorem readFrom_spelled {body text : List Char} (spells : Text.Spells (Means escapes) body text)
    (rest : List Char) :
    readFrom escapes .inside (body ++ '\'' :: rest) = some (text, rest) := by
  induction spells with
  | nil => exact readFrom_quote rest
  | cons first _ ih => rw [List.append_assoc, first, ih, Option.map_some]

theorem means_singleQuotedChar {c : Char} (inLine : c ∉ lineEnds) :
    Means escapes (Text.singleQuotedChar c) c := by
  unfold Text.singleQuotedChar
  split
  case isTrue backslash =>
      subst backslash
      exact means_escaped inLine (by decide)
  case isFalse ordinary =>
    split
    case isTrue quote =>
        subst quote
        exact means_escaped inLine (by decide)
    case isFalse unquoted => exact means_plain unquoted ordinary inLine

/-- A text whose quotes and backslashes are escaped is read as itself, and
nothing behind it is. -/
theorem read?_singleQuoted {text : String} (inLine : ∀ c ∈ text.toList, c ∉ lineEnds)
    (rest : List Char) :
    read? escapes ((Text.singleQuoted text).toList ++ rest) = some (text.toList, rest) := by
  have spells : Text.Spells (Means escapes) (text.toList.flatMap Text.singleQuotedChar) text.toList :=
    .flatMap fun c member => means_singleQuotedChar (inLine c member)
  rw [Text.toList_singleQuoted, List.cons_append, List.append_assoc, List.singleton_append]
  exact readFrom_spelled spells rest

/-! ## Lengths -/

/-- How many characters a mode may add to the value for characters read before:
that of a number is added only behind its digits. -/
def Mode.due : Mode → Nat
  | .number _ _ => 1
  | .inside | .escape | .lineEnd => 0

/-- A step adds no more than is due and, unless it ends the string, one character
for the one that it reads. -/
def Bounded (due : Nat) : List Char × Option Mode → Prop
  | (added, none) => added.length ≤ due
  | (added, some next) => added.length + next.due ≤ due + 1

theorem bounded_plain? {c : Char} {step : List Char × Option Mode}
    (taken : Mode.plain? c = some step) : Bounded 0 step := by
  unfold Mode.plain? at taken
  split at taken
  case isTrue =>
      cases taken
      exact Nat.le_refl 0
  case isFalse =>
    split at taken
    case isTrue =>
        cases taken
        exact Nat.zero_le 1
    case isFalse =>
      split at taken
      case isTrue => cases taken
      case isFalse =>
          cases taken
          exact Nat.le_refl 1

theorem bounded_escaped (escapes : Escapes) (c : Char) :
    Bounded 0 ((Mode.escaped escapes c).1, some (Mode.escaped escapes c).2) := by
  unfold Mode.escaped
  split
  case isTrue => exact Nat.zero_le 1
  case isFalse =>
    split
    case isTrue => exact Nat.zero_le 1
    case isFalse =>
      split
      case h_1 => exact Nat.le_refl 1
      case h_2 => exact Nat.le_refl 1

theorem bounded_closeNumber? {code : Nat} {c : Char} {step : List Char × Option Mode}
    (taken : Mode.closeNumber? code c = some step) : Bounded 1 step := by
  unfold Mode.closeNumber? at taken
  split at taken
  case isTrue =>
      cases taken
      exact Nat.le_succ 1
  case isFalse =>
    split at taken
    case isTrue =>
        cases taken
        exact Nat.le_succ 1
    case isFalse =>
        rcases Option.map_eq_some_iff.mp taken with ⟨⟨added, next⟩, plain, rfl⟩
        have bound := bounded_plain? plain
        cases next with
        | none => exact Nat.succ_le_succ bound
        | some next =>
            simp only [Bounded, List.length_cons] at bound ⊢
            omega

theorem bounded_step? {mode : Mode} {c : Char} {step : List Char × Option Mode}
    (taken : mode.step? escapes c = some step) : Bounded mode.due step := by
  cases mode with
  | inside => exact bounded_plain? taken
  | escape =>
      cases taken
      exact bounded_escaped escapes c
  | number left code =>
      rw [Mode.step?] at taken
      split at taken
      case h_1 =>
          cases taken
          exact Nat.le_succ 1
      case h_2 => exact bounded_closeNumber? taken
  | lineEnd =>
      rw [Mode.step?] at taken
      split at taken
      case isTrue =>
          cases taken
          exact Nat.zero_le 1
      case isFalse => exact bounded_plain? taken

/-- A string, its closing quote included, is at least as long as its value, save
for a character that is due. -/
theorem length_le_of_readFrom {mode : Mode} {text value rest : List Char}
    (read : readFrom escapes mode text = some (value, rest)) :
    value.length + 1 + rest.length ≤ text.length + mode.due := by
  induction text generalizing mode value with
  | nil => cases read
  | cons c cs ih =>
      rcases taken : mode.step? escapes c with _ | ⟨added, _ | next⟩
      · rw [readFrom, taken] at read
        cases read
      · rw [readFrom, taken] at read
        cases read
        have bound : value.length ≤ mode.due := bounded_step? taken
        rw [List.length_cons]
        omega
      · rcases exists_of_readFrom taken read with ⟨later, rfl, found⟩
        have bound : added.length + next.due ≤ mode.due + 1 := bounded_step? taken
        have shorter := ih found
        rw [List.length_append, List.length_cons]
        omega

/-- Where the value has the length of the text it was read from, nothing in it was
escaped or ended the string. -/
theorem plain_of_readFrom {text value rest : List Char}
    (read : readFrom escapes .inside text = some (value, rest))
    (sameLength : text.length = value.length + 1 + rest.length) :
    ∀ c ∈ value, c ≠ '\'' ∧ c ≠ '\\' := by
  induction text generalizing value with
  | nil => cases read
  | cons c cs ih =>
      by_cases quote : c = '\''
      case pos =>
          subst quote
          cases read
          exact List.forall_mem_nil _
      case neg =>
        by_cases backslash : c = '\\'
        case pos =>
            -- The reading goes on behind the backslash, too short by one character.
            subst backslash
            rcases @exists_of_readFrom escapes .inside .escape _ [] _ _ _ rfl read with
              ⟨later, rfl, found⟩
            have shorter := length_le_of_readFrom found
            rw [List.length_cons] at sameLength
            rw [Mode.due] at shorter
            omega
        case neg =>
          by_cases lineEnd : c ∈ lineEnds
          case pos =>
              have broken : Mode.inside.step? escapes c = none := by
                rw [Mode.step?, Mode.plain?, if_neg quote, if_neg backslash, if_pos lineEnd]
              rw [readFrom, broken] at read
              cases read
          case neg =>
              have step : Mode.inside.step? escapes c = some ([c], some .inside) :=
                plain?_of_plain quote backslash lineEnd
              rcases exists_of_readFrom step read with ⟨later, rfl, found⟩
              rw [List.singleton_append] at sameLength ⊢
              rw [List.length_cons, List.length_cons] at sameLength
              exact List.forall_mem_cons.mpr ⟨⟨quote, backslash⟩, ih found (by omega)⟩

/-- A text on one line that is put between quotes as it is, is read as itself
exactly if it holds neither quotes nor backslashes. -/
theorem read?_verbatim_iff {text : List Char} (inLine : ∀ c ∈ text, c ∉ lineEnds)
    (rest : List Char) :
    read? escapes ('\'' :: (text ++ '\'' :: rest)) = some (text, rest) ↔
      ∀ c ∈ text, c ≠ '\'' ∧ c ≠ '\\' := by
  constructor
  · intro read
    apply plain_of_readFrom read
    rw [List.length_append, List.length_cons]
    omega
  · intro plain
    have spells : Text.Spells (Means escapes) (text.flatMap fun c => [c]) text :=
      .flatMap fun c member =>
        means_plain (plain c member).1 (plain c member).2 (inLine c member)
    rw [List.flatMap_singleton'] at spells
    exact readFrom_spelled spells rest

example : read? .numbered "'\\26 B', x".toList = some ("&B".toList, ", x".toList) := by decide

example : read? .single "'\\26 B', x".toList = some ("26 B".toList, ", x".toList) := by decide

end Quoted

end Stylesheet
end Pagewright
