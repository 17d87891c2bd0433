namespace Pagewright
namespace Text

/-!
# String literals

Two literal formats are written.  The double-quoted one is the string of JSON:
quotes, backslashes and control characters are escaped, all else stands for
itself.  The single-quoted one escapes quotes and backslashes only; it is for
texts that hold no line ending.
-/

def hexDigit (value : Nat) : Char :=
  if value < 10 then Char.ofNat (48 + value) else Char.ofNat (87 + value)

/-- The value of a hexadecimal digit in either case. -/
def hexValue? (c : Char) : Option Nat :=
  if '0' ≤ c && c ≤ '9' then some (c.toNat - 48)
  else if 'a' ≤ c && c ≤ 'f' then some (c.toNat - 87)
  else if 'A' ≤ c && c ≤ 'F' then some (c.toNat - 55)
  else none

/-- One character inside a double-quoted literal. -/
def doubleQuotedChar (c : Char) : List Char :=
  if c = '"' then ['\\', '"']
  else if c = '\\' then ['\\', '\\']
  else if c = '\x08' then ['\\', 'b']
  else if c = '\x0c' then ['\\', 'f']
  else if c = '\n' then ['\\', 'n']
  else if c = '\r' then ['\\', 'r']
  else if c = '\t' then ['\\', 't']
  else if c.toNat < 0x20 then
    ['\\', 'u', '0', '0', hexDigit (c.toNat / 16), hexDigit (c.toNat % 16)]
  else [c]

/-- A text as a double-quoted literal. -/
def doubleQuoted (text : String) : String :=
  "\"" ++ String.ofList (text.toList.flatMap doubleQuotedChar) ++ "\""

/-- One character inside a single-quoted literal. -/
def singleQuotedChar (c : Char) : List Char :=
  if c = '\\' then ['\\', '\\']
  else if c = '\'' then ['\\', '\'']
  else [c]

/-- A text as a single-quoted literal. -/
def singleQuoted (text : String) : String :=
  "'" ++ String.ofList (text.toList.flatMap singleQuotedChar) ++ "'"

end Text
end Pagewright
