import Pagewright.Number.Shortest
import Pagewright.Text.Visible

namespace Pagewright

/-!
# Data of configuration documents

A configuration document is a table of named data.  The type covers what the
supported formats can express; what a particular document may hold is decided
where it is read.
-/

/-- A number with a fractional part, as written. -/
inductive Fractional where
  | finite (negative : Bool) (decimal : Decimal)
  | infinite (negative : Bool)
  | undefined
deriving Repr, DecidableEq

namespace Fractional

/-- The sign of a number in a text. -/
def sign (negative : Bool) : String :=
  if negative then "-" else ""

/-- The text of the double nearest to a number, which may be infinite. -/
def render : Fractional → String
  | .finite negative decimal =>
      match Binary.ofDecimal? decimal with
      | some binary =>
          if binary.mantissa = 0 then sign negative ++ "0.0"
          else sign negative ++ binary.shortest.positional
      | none => sign negative ++ "inf"
  | .infinite negative => sign negative ++ "inf"
  | .undefined => "NaN"

end Fractional

inductive Datum where
  | null
  | boolean (value : Bool)
  | integer (value : Int)
  | real (value : Fractional)
  | text (value : String)
  | moment
  | list (items : List Datum)
  | table (members : List (String × Datum))
deriving Repr, Inhabited

namespace Datum

/-- What a datum is called in a message. -/
def describe : Datum → String
  | .null => "null"
  | .boolean value => "boolean `" ++ toString value ++ "`"
  | .integer value => "integer `" ++ toString value ++ "`"
  | .real value => "floating point `" ++ value.render ++ "`"
  | .text value => "string " ++ Text.visiblyQuoted value
  | .list _ => "sequence"
  | .moment | .table _ => "map"

/-- Is a datum a list or a table with nothing in it? -/
def isEmpty : Datum → Bool
  | .list [] | .table [] => true
  | _ => false

end Datum

end Pagewright
