import Pagewright.Datum
import Pagewright.Text.Literal

namespace Pagewright
namespace Json

/-!
# Reading JSON

A reader for every JSON text, whatever wrote it.  It knows nothing of the few
shapes in which results are written: lists and tables nest without bound,
numbers may have a fraction and a power, blanks may stand between any two
lexemes, and strings may use every escape, pairs of halves included.

Reading has two layers, and each is a machine that takes one step for each
thing it meets.  The first turns characters into lexemes.  The second puts
lexemes together, with a stack of the lists and tables that are still open.
What a piece of text contributes is stated by `Lexes`, for every text that may
stand behind it.
-/

/-! ## Lexemes -/

/-- The marks that give a text its structure. -/
inductive Mark where
  | openList
  | closeList
  | openTable
  | closeTable
  | colon
  | comma
deriving Repr, DecidableEq

def Mark.ofChar? : Char → Option Mark
  | '[' => some .openList
  | ']' => some .closeList
  | '\x7b' => some .openTable
  | '\x7d' => some .closeTable
  | ':' => some .colon
  | ',' => some .comma
  | _ => none

/-- A mark, or a datum that has no parts. -/
inductive Lexeme where
  | mark (mark : Mark)
  | datum (datum : Datum)

/-- The blanks of JSON. -/
def isSpace (c : Char) : Bool :=
  c = ' ' || c = '\t' || c = '\n' || c = '\r'

/-! ## Words -/

/-- The number that some digits stand for. -/
def digits? (word : List Char) : Option Nat :=
  if !word.isEmpty && word.all Char.isDigit then some (Nat.ofDigitChars 10 word 0) else none

/-- `digits?` without a superfluous zero in front. -/
def whole? : List Char → Option Nat
  | '0' :: _ :: _ => none
  | word => digits? word

/-- The power behind the letter that announces it. -/
def power? : List Char → Option Int
  | '-' :: word => (digits? word).map fun size => -(size : Int)
  | '+' :: word => (digits? word).map Int.ofNat
  | word => (digits? word).map Int.ofNat

/-- A number without its sign.  It is an integer unless it has a point or a
power. -/
def unsigned? (negative : Bool) (word : List Char) : Option Datum := do
  let mantissa := word.takeWhile fun c => c != 'e' && c != 'E'
  let announced := word.dropWhile fun c => c != 'e' && c != 'E'
  let pointed := mantissa.dropWhile (· != '.')
  let whole ← whole? (mantissa.takeWhile (· != '.'))
  if pointed.isEmpty && announced.isEmpty then
    return .integer (if negative then -(whole : Int) else whole)
  let places ← if pointed.isEmpty then some 0 else digits? (pointed.drop 1)
  let power ← if announced.isEmpty then some 0 else power? (announced.drop 1)
  let count := pointed.length - 1
  return .real (.finite negative ⟨whole * Nat.pow 10 count + places, power - count⟩)

/-- A word that stands outside of strings. -/
def word? (word : List Char) : Option Datum :=
  if word = "null".toList then some .null
  else if word = "true".toList then some (.boolean true)
  else if word = "false".toList then some (.boolean false)
  else
    match word with
    | '-' :: rest => unsigned? true rest
    | rest => unsigned? false rest

/-! ## Characters to lexemes -/

/-- What the reading is inside of, with the characters met so far in
reverse. -/
inductive Mode where
  | gap
  | word (reversed : List Char)
  | text (reversed : List Char)
  /-- Behind the first half of a pair. -/
  | half (reversed : List Char) (high : Nat)
  /-- Behind a backslash, and perhaps behind the first half of a pair. -/
  | escape (reversed : List Char) (high : Option Nat)
  /-- Inside a character given by number, with more than `left` digits to
  come. -/
  | code (reversed : List Char) (high : Option Nat) (left value : Nat)
deriving Repr, DecidableEq

namespace Mode

/-- A character between lexemes. -/
def begin (c : Char) : List Lexeme × Mode :=
  if isSpace c then ([], .gap)
  else if c = '"' then ([], .text [])
  else
    match Mark.ofChar? c with
    | some mark => ([.mark mark], .gap)
    | none => ([], .word [c])

/-- Does a character end a word? -/
def isDelimiter (c : Char) : Bool :=
  isSpace c || c = '"' || (Mark.ofChar? c).isSome

/-- The character that a letter behind a backslash stands for. -/
def escaped? : Char → Option Char
  | '"' => some '"'
  | '\\' => some '\\'
  | '/' => some '/'
  | 'b' => some '\x08'
  | 'f' => some '\x0c'
  | 'n' => some '\n'
  | 'r' => some '\r'
  | 't' => some '\t'
  | _ => none

def isHigh (value : Nat) : Bool := 0xD800 ≤ value && value ≤ 0xDBFF

def isLow (value : Nat) : Bool := 0xDC00 ≤ value && value ≤ 0xDFFF

/-- A number is a character, the first half of a pair, or the second half
directly behind a first one. -/
def number? (reversed : List Char) : (high : Option Nat) → (value : Nat) → Option Mode
  | none, value =>
      if isHigh value then some (.half reversed value)
      else if isLow value then none
      else some (.text (Char.ofNat value :: reversed))
  | some high, value =>
      if isLow value then
        some (.text (Char.ofNat (0x10000 + (high - 0xD800) * 0x400 + (value - 0xDC00)) :: reversed))
      else none

/-- The lexemes that a character completes, and what stands behind it. -/
def step? : Mode → Char → Option (List Lexeme × Mode)
  | .gap, c => some (begin c)
  | .word reversed, c =>
      if isDelimiter c then
        (word? reversed.reverse).map fun datum => (.datum datum :: (begin c).1, (begin c).2)
      else some ([], .word (c :: reversed))
  | .text reversed, c =>
      if c = '"' then some ([.datum (.text (String.ofList reversed.reverse))], .gap)
      else if c = '\\' then some ([], .escape reversed none)
      else if c.toNat < 0x20 then none
      else some ([], .text (c :: reversed))
  | .half reversed high, c => if c = '\\' then some ([], .escape reversed (some high)) else none
  | .escape reversed high, c =>
      if c = 'u' then some ([], .code reversed high 3 0)
      else if high.isSome then none
      else (escaped? c).map fun meant => ([], .text (meant :: reversed))
  | .code reversed high left value, c =>
      (Text.hexValue? c).bind fun digit =>
        match left with
        | 0 => (number? reversed high (16 * value + digit)).map fun next => ([], next)
        | left + 1 => some ([], .code reversed high left (16 * value + digit))

/-- The lexemes that the end of the text completes. -/
def finish? : Mode → Option (List Lexeme)
  | .gap => some []
  | .word reversed => (word? reversed.reverse).map fun datum => [.datum datum]
  | _ => none

end Mode

/-- The lexemes of the rest of a text. -/
def lexFrom : Mode → List Char → Option (List Lexeme)
  | mode, [] => mode.finish?
  | mode, c :: cs =>
      match mode.step? c with
      | none => none
      | some (found, next) => (lexFrom next cs).map (found ++ ·)

/-! ## Lexemes to data -/

/-- A list or table that is still open, with its parts so far in reverse. -/
inductive Frame where
  | list (items : List Datum)
  /-- The value of `name` is being read. -/
  | table (members : List (String × Datum)) (name : String)

/-- What the reading has come to. -/
inductive Spot where
  /-- A datum has to follow. -/
  | value
  /-- Behind the opening of a list. -/
  | listStart
  /-- Behind the opening of a table. -/
  | tableStart
  /-- Behind a comma in a table. -/
  | name (members : List (String × Datum))
  /-- Behind a name in a table. -/
  | named (members : List (String × Datum)) (name : String)
  /-- Behind a datum. -/
  | done (datum : Datum)

/-- The first lexeme of a datum. -/
def enter (frames : List Frame) : Lexeme → Option (Spot × List Frame)
  | .datum datum => some (.done datum, frames)
  | .mark .openList => some (.listStart, frames)
  | .mark .openTable => some (.tableStart, frames)
  | _ => none

/-- Take one lexeme. -/
def take? : Spot × List Frame → Lexeme → Option (Spot × List Frame)
  | (.value, frames), lexeme => enter frames lexeme
  | (.listStart, frames), .mark .closeList => some (.done (.list []), frames)
  | (.listStart, frames), lexeme => enter (.list [] :: frames) lexeme
  | (.tableStart, frames), .mark .closeTable => some (.done (.table []), frames)
  | (.tableStart, frames), .datum (.text name) => some (.named [] name, frames)
  | (.name members, frames), .datum (.text name) => some (.named members name, frames)
  | (.named members name, frames), .mark .colon => some (.value, .table members name :: frames)
  | (.done datum, .list items :: frames), .mark .comma =>
      some (.value, .list (datum :: items) :: frames)
  | (.done datum, .list items :: frames), .mark .closeList =>
      some (.done (.list (datum :: items).reverse), frames)
  | (.done datum, .table members name :: frames), .mark .comma =>
      some (.name ((name, datum) :: members), frames)
  | (.done datum, .table members name :: frames), .mark .closeTable =>
      some (.done (.table ((name, datum) :: members).reverse), frames)
  | _, _ => none

/-- Take lexemes one after the other. -/
def takeAll? : Spot × List Frame → List Lexeme → Option (Spot × List Frame)
  | state, [] => some state
  | state, lexeme :: rest => (take? state lexeme).bind fun next => takeAll? next rest

/-- The datum that some lexemes make up. -/
def assemble? (lexemes : List Lexeme) : Option Datum :=
  match takeAll? (.value, []) lexemes with
  | some (.done datum, []) => some datum
  | _ => none

/-- The datum of a JSON text.  There is none if the text is no JSON. -/
def read? (text : String) : Option Datum :=
  (lexFrom .gap text.toList).bind assemble?

/-! ## Reading piece by piece -/

/-- Reading `text` from `before` gives `found` and leads to `after`, whatever
stands behind the text. -/
def Lexes (before : Mode) (text : List Char) (found : List Lexeme) (after : Mode) : Prop :=
  ∀ rest, lexFrom before (text ++ rest) = (lexFrom after rest).map (found ++ ·)

namespace Lexes

variable {before between after : Mode} {front back : List Char} {found more : List Lexeme}

theorem nil (mode : Mode) : Lexes mode [] [] mode := by
  intro rest
  simp only [List.nil_append, Option.map_id']

theorem cons {c : Char} (step : before.step? c = some (found, between))
    (others : Lexes between back more after) : Lexes before (c :: back) (found ++ more) after := by
  intro rest
  rw [List.cons_append, lexFrom, step]
  dsimp only
  rw [others, Option.map_map]
  congr 1
  funext later
  simp only [Function.comp_apply, List.append_assoc]

/-- A character on its own. -/
theorem single {c : Char} (step : before.step? c = some (found, after)) :
    Lexes before [c] found after := by
  have alone := cons step (nil after)
  rwa [List.append_nil] at alone

/-- A character that completes nothing. -/
theorem cons_silent {c : Char} (step : before.step? c = some ([], between))
    (others : Lexes between back more after) : Lexes before (c :: back) more after :=
  cons step others

theorem append (first : Lexes before front found between) (second : Lexes between back more after) :
    Lexes before (front ++ back) (found ++ more) after := by
  intro rest
  rw [List.append_assoc, first, second, Option.map_map]
  congr 1
  funext later
  simp only [Function.comp_apply, List.append_assoc]

/-- A piece that completes nothing. -/
theorem append_silent (first : Lexes before front [] between)
    (second : Lexes between back more after) : Lexes before (front ++ back) more after :=
  first.append second

/-- A text that is read to its end has exactly the lexemes of its pieces. -/
theorem lexFrom_eq (whole : Lexes before front found .gap) : lexFrom before front = some found := by
  have ended := whole []
  simpa only [List.append_nil, lexFrom, Mode.finish?, Option.map_some] using ended

end Lexes

theorem takeAll?_append (state : Spot × List Frame) (front back : List Lexeme) :
    takeAll? state (front ++ back) = (takeAll? state front).bind fun next => takeAll? next back := by
  induction front generalizing state with
  | nil => rfl
  | cons lexeme front ih =>
      rw [List.cons_append, takeAll?, takeAll?]
      cases take? state lexeme with
      | none => rfl
      | some next => exact ih next

/-- Some lexemes make up a datum, whatever is open around it. -/
def Assembles (lexemes : List Lexeme) (datum : Datum) : Prop :=
  ∀ frames, takeAll? (.value, frames) lexemes = some (.done datum, frames)

theorem Assembles.takeAll? {lexemes : List Lexeme} {datum : Datum} (whole : Assembles lexemes datum)
    (frames : List Frame) (rest : List Lexeme) :
    Json.takeAll? (.value, frames) (lexemes ++ rest) = Json.takeAll? (.done datum, frames) rest := by
  rw [takeAll?_append, whole frames, Option.bind_some]

theorem assembles_datum (datum : Datum) : Assembles [.datum datum] datum :=
  fun _ => rfl

/-- A text whose lexemes make up a datum is read as that datum. -/
theorem read?_eq {text : String} {lexemes : List Lexeme} {datum : Datum}
    (lexed : Lexes .gap text.toList lexemes .gap) (whole : Assembles lexemes datum) :
    read? text = some datum := by
  rw [read?, lexed.lexFrom_eq, Option.bind_some, assemble?, whole []]

end Json
end Pagewright
