import Pagewright.Word
import Pagewright.Text.Indented

namespace Pagewright

/-!
# Commands

The leading words of a line form the key of a command; the rest are its
arguments.  How many words the key takes depends on the words themselves, not
on any table of commands: reading a line and knowing what it means are
separate questions.  In particular a key may name no command at all, and a
line that begins with a quoted word has the empty key.
-/

/-- A command as written on one line. -/
structure Command where
  key : String
  arguments : List Token
  /-- The line, trimmed; argument positions count from its beginning. -/
  line : String
deriving Repr, DecidableEq

namespace Command

/-- Verbs that form a key of two words with a noun behind them. -/
def verbs : List String := ["أضف", "افتح", "أغلق", "أنشئ"]

/-- Nouns that complete a verb. -/
def nouns : List String :=
  ["صفحة", "عنوان", "عنوان_فرعي", "فقرة", "رابط", "صورة", "عنصر", "زر", "نص",
    "خط_فاصل", "مسافة", "مدخل_نص", "مدخل_كلمة_سر", "مربع_اختيار", "صف", "خانة",
    "قائمة", "قائمة_مرقمة", "قسم", "جدول"]

/-- Words that form a key of three words. -/
def changeWords : List String := ["غيّر"]

/-- Words that open or close a block and form a key of two words with any bare
word behind them. -/
def blockWords : List String := ["ابدأ", "أنهِ"]

/-- The number of leading words that form the key. -/
def keyLength (words : List Word) : Nat :=
  let bare (index : Nat) : Option String := words[index]?.bind Word.bare?
  match bare 0 with
  | none => 0
  | some first =>
      if verbs.contains first && (bare 1).any nouns.contains then 2
      else if changeWords.contains first && (bare 1).isSome && (bare 2).isSome then 3
      else if blockWords.contains first && (bare 1).isSome then 2
      else 1

/-- A trimmed line that holds a command: it is not empty and no comment. -/
def isCommandLine : List Char → Bool
  | [] => false
  | '#' :: _ => false
  | '/' :: '/' :: _ => false
  | _ => true

/-- The command of a trimmed line, with its tokens already found. -/
def ofTokens (line : List Char) (tokens : List Token) : Command :=
  let words := tokens.map Token.word
  let length := keyLength words
  { key := String.intercalate " " ((words.take length).map Word.text)
    arguments := tokens.drop length
    line := String.ofList line }

/-- Read a line.  Blank lines and comments hold no command. -/
def ofLine? (text : String) : Option Command :=
  let line := Text.trimChars text.toList
  if isCommandLine line then some (ofTokens line (Token.ofLine line)) else none

/-- The argument words without their positions. -/
def words (command : Command) : List Word :=
  command.arguments.map Token.word

/-- The text of an argument. -/
def argument? (command : Command) (index : Nat) : Option String :=
  command.words[index]?.map Word.text

/-- The text of an argument, where an empty text counts as missing. -/
def nonemptyArgument? (command : Command) (index : Nat) : Option String :=
  (command.argument? index).filter fun text => !text.isEmpty

/-- The text of an argument; a missing or empty one takes the default. -/
def argumentD (command : Command) (index : Nat) (default : String) : String :=
  (command.nonemptyArgument? index).getD default

/-- The texts of the arguments from `start` on, joined by single spaces. -/
def joined (command : Command) (start : Nat) : String :=
  String.intercalate " " ((command.words.drop start).map Word.text)

/-- `joined`, with a default for an empty result. -/
def joinedD (command : Command) (start : Nat) (default : String) : String :=
  let text := command.joined start
  if text.isEmpty then default else text

/-- The line from argument `index` on, exactly as written.  It is empty when
there is no such argument. -/
def rest (command : Command) (index : Nat) : String :=
  match command.arguments[index]? with
  | none => ""
  | some token =>
      String.ofList ((Text.suffixAt? command.line.toList token.start).getD [])

end Command

end Pagewright
