import Pagewright.Datum
import Pagewright.Text.Literal
import Pagewright.Toml.Reader

namespace Pagewright
namespace Toml

open Reader
open Text (hexValue?)

/-!
# Lexemes

The parts of a TOML document that have no parts themselves: blanks, comments,
strings, numbers, dates and keys.
-/

def isSpace (c : Char) : Bool :=
  c = ' ' || c = '\t'

/-- Characters that may stand in comments and strings.  Control characters may
not, except for the tab. -/
def isPlain (c : Char) : Bool :=
  c = '\t' || (0x20 ≤ c.toNat && c.toNat ≤ 0x7E) || 0x80 ≤ c.toNat

def spaces : Reader Unit := do
  let _ ← Reader.takeWhile isSpace

/-- A line ending of either kind. -/
def newline : Reader Unit :=
  exactly "\n" <|> exactly "\r\n"

def comment : Reader Unit := do
  exactly "#"
  let _ ← Reader.takeWhile isPlain

/-- Spaces, comments and line endings. -/
def filler : Reader Unit := do
  let _ ← many ((do let _ ← takeWhile1 isSpace) <|> comment <|> newline)

/-! ## Strings -/

/-- Exactly `count` hexadecimal digits. -/
def hexDigits : (count : Nat) → (value : Nat) → Reader Nat
  | 0, value => pure value
  | count + 1, value => do
      let c ← charWhere fun c => (hexValue? c).isSome
      hexDigits count (16 * value + (hexValue? c).getD 0)

/-- A character given by number. -/
def numbered (count : Nat) : Reader Char := do
  let value ← hexDigits count 0
  if value.isValidChar then pure (Char.ofNat value) else failure

/-- A character behind a backslash. -/
def escaped : Reader Char := do
  let c ← charWhere fun _ => true
  match c with
  | 'b' => pure '\x08'
  | 't' => pure '\t'
  | 'n' => pure '\n'
  | 'f' => pure '\x0c'
  | 'r' => pure '\r'
  | '"' => pure '"'
  | '\\' => pure '\\'
  | 'u' => numbered 4
  | 'U' => numbered 8
  | _ => failure

/-- A character of a basic string. -/
def basicChar : Reader Char :=
  charWhere (fun c => isPlain c && c != '"' && c != '\\') <|>
    (do exactly "\\"; escaped)

def basicString : Reader (List Char) := do
  exactly "\""
  let content ← many basicChar
  exactly "\""
  pure content

def literalString : Reader (List Char) := do
  exactly "'"
  let content ← Reader.takeWhile fun c => isPlain c && c != '\''
  exactly "'"
  pure content

/-- A line ending with a backslash in front of it, and the blanks behind. -/
def lineContinuation : Reader Unit := do
  exactly "\\"
  spaces
  newline
  let _ ← many ((do let _ ← charWhere isSpace) <|> newline)

/-- Succeed without taking anything if `delimiter` does not come next. -/
def notNext (delimiter : String) : Reader Unit := fun input =>
  if delimiter.toList.isPrefixOf input then none else some ((), input)

/-- A piece of a multi-line string: line endings are line feeds inside it, and
single quotes or pairs of them stand for themselves. -/
def multilinePiece (quote : String) (piece : Reader (List Char)) : Reader (List Char) :=
  (do newline; pure ['\n']) <|> piece <|>
    (do
      notNext (quote ++ quote ++ quote)
      exactly quote
      pure quote.toList)

/-- A multi-line string: a line ending at its beginning does not count, and up
to two quotes may stand directly in front of its end. -/
def multiline (quote : String) (piece : Reader (List Char)) : Reader (List Char) := do
  let delimiter := quote ++ quote ++ quote
  exactly delimiter
  let _ ← optional newline
  let pieces ← many (multilinePiece quote piece)
  let last ←
    (do exactly (quote ++ quote ++ delimiter); pure (quote ++ quote)) <|>
      (do exactly (quote ++ delimiter); pure quote) <|>
      (do exactly delimiter; pure "")
  pure (pieces.flatten ++ last.toList)

def multilineBasicString : Reader (List Char) :=
  multiline "\"" ((do lineContinuation; pure []) <|> (do let c ← basicChar; pure [c]))

def multilineLiteralString : Reader (List Char) :=
  multiline "'" (do
    let c ← charWhere fun c => isPlain c && c != '\''
    pure [c])

def string : Reader String :=
  String.ofList <$>
    (multilineBasicString <|> basicString <|> multilineLiteralString <|> literalString)

/-! ## Numbers -/

/-- Digits, with single underscores between them. -/
def digitsWith (p : Char → Bool) : Reader (List Char) := do
  let groups ← separated (takeWhile1 p) (exactly "_")
  pure groups.flatten

def natOf (base : Nat) (digits : List Char) : Nat :=
  digits.foldl (fun value c => base * value + (hexValue? c).getD 0) 0

/-- Digits without a leading zero. -/
def wholeDigits : Reader (List Char) := do
  let digits ← digitsWith Char.isDigit
  match digits with
  | '0' :: _ :: _ => failure
  | _ => pure digits

/-- Is there a minus sign?  A plus sign is taken too. -/
def sign : Reader Bool :=
  (do exactly "-"; pure true) <|> (do exactly "+"; pure false) <|> pure false

/-- An integer that fits in 64 bits with a sign. -/
def wordOf (value : Int) : Reader Datum :=
  if -Int.pow 2 63 ≤ value ∧ value < Int.pow 2 63 then pure (.integer value)
  else failure

/-- An integer in another base, which takes no sign. -/
def basedInteger (marker : String) (base : Nat) : Reader Datum := do
  exactly marker
  let digits ← digitsWith fun c => (hexValue? c).any (· < base)
  wordOf (natOf base digits)

def integer : Reader Datum :=
  basedInteger "0x" 16 <|> basedInteger "0o" 8 <|> basedInteger "0b" 2 <|>
    (do
      let negative ← sign
      let digits ← wholeDigits
      let value : Int := natOf 10 digits
      wordOf (if negative then -value else value))

def fraction : Reader (List Char) := do
  exactly "."
  digitsWith Char.isDigit

def exponent : Reader Int := do
  exactly "e" <|> exactly "E"
  let negative ← sign
  let digits ← digitsWith Char.isDigit
  let value : Int := natOf 10 digits
  pure (if negative then -value else value)

/-- A number with a fraction, an exponent, or both.  One that is too large for
a double is refused when it is positive. -/
def finiteReal : Reader Fractional := do
  let negative ← sign
  let whole ← wholeDigits
  let decimal ←
    (do
      let places ← fraction
      let power ← optional exponent
      pure (⟨natOf 10 (whole ++ places), power.getD 0 - places.length⟩ : Decimal)) <|>
    (do
      let power ← exponent
      pure (⟨natOf 10 whole, power⟩ : Decimal))
  match Binary.ofDecimal? decimal, negative with
  | some _, _ => pure (.finite negative decimal)
  | none, true => pure (.infinite true)
  | none, false => failure

def specialReal : Reader Fractional := do
  let negative ← sign
  (do exactly "inf"; pure (.infinite negative)) <|> (do exactly "nan"; pure .undefined)

def boolean : Reader Bool :=
  (do exactly "true"; pure true) <|> (do exactly "false"; pure false)

/-! ## Dates and times -/

/-- A number of exactly `count` digits within bounds. -/
def numeral (count least greatest : Nat) : Reader Nat := do
  let digits ← count.repeat
    (fun more => do
      let c ← charWhere Char.isDigit
      let rest ← more
      pure (c :: rest)) (pure ([] : List Char))
  let value := natOf 10 digits
  if least ≤ value ∧ value ≤ greatest then pure value else failure

def isLeapYear (year : Nat) : Bool :=
  year % 4 = 0 && (year % 100 != 0 || year % 400 = 0)

def daysIn (year month : Nat) : Nat :=
  if month = 2 then (if isLeapYear year then 29 else 28)
  else if month = 4 || month = 6 || month = 9 || month = 11 then 30
  else 31

def date : Reader Unit := do
  let year ← numeral 4 0 9999
  exactly "-"
  let month ← numeral 2 1 12
  exactly "-"
  let _ ← numeral 2 1 (daysIn year month)

def time : Reader Unit := do
  let _ ← numeral 2 0 23
  exactly ":"
  let _ ← numeral 2 0 59
  exactly ":"
  let _ ← numeral 2 0 60
  let _ ← optional (do exactly "."; takeWhile1 Char.isDigit)

def offset : Reader Unit :=
  exactly "Z" <|> exactly "z" <|>
    (do
      exactly "+" <|> exactly "-"
      let _ ← numeral 2 0 23
      exactly ":"
      let _ ← numeral 2 0 59)

/-- A date, a time, or both; an offset only behind both. -/
def moment : Reader Unit :=
  (do
    date
    let _ ← optional (do
      exactly "T" <|> exactly "t" <|> exactly " "
      time
      let _ ← optional offset)) <|> time

/-! ## Keys -/

/-- How deep tables may nest along a key, and lists and tables in a value. -/
def nestingLimit : Nat := 79

def isKeyChar (c : Char) : Bool :=
  c.isAlphanum || c = '-' || c = '_'

def simpleKey : Reader String :=
  String.ofList <$> (basicString <|> literalString <|> takeWhile1 isKeyChar)

/-- One or more keys with points between them. -/
def key : Reader (List String) := do
  let path ← separated (do
    spaces
    let part ← simpleKey
    spaces
    pure part) (exactly ".")
  if path.length ≤ nestingLimit then pure path else failure

/-- A datum without parts. -/
def scalar : Reader Datum :=
  (Datum.text <$> string) <|> (Datum.boolean <$> boolean) <|>
    (do moment; pure .moment) <|> (Datum.real <$> finiteReal) <|> integer <|>
    (Datum.real <$> specialReal)

end Toml
end Pagewright
