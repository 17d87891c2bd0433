import Pagewright.Datum
import Pagewright.Settings
import Pagewright.Toml.Document

namespace Pagewright
namespace Settings

/-!
# Reading settings

Settings are read from the members of a table.  Members that are not named keep
their defaults, and a member that is no setting is refused: a misspelt setting
should not pass silently.
-/

/-- Why the members of a table are no settings. -/
inductive ReadError where
  | unknownMember (name : String)
  | unknownMode (name : String)
  | wrongKind (found : Datum) (expected : String)
  | outOfRange (value : Int)
  /-- What is given for the stylesheet mode names no mode at all. -/
  | noMode (found : Datum)
deriving Repr

/-- The names of the settings. -/
def names : List String :=
  ["stylesheet", "stylesheet_href", "default_title", "document_title",
    "max_source_bytes"]

def quoted (name : String) : String :=
  "`" ++ name ++ "`"

def ReadError.message : ReadError → String
  | .unknownMember name =>
      "unknown field " ++ quoted name ++ ", expected one of " ++
        String.intercalate ", " (names.map quoted)
  | .unknownMode name =>
      "unknown variant " ++ quoted name ++ ", expected `inline` or `external`"
  | .wrongKind found expected =>
      "invalid type: " ++ found.describe ++ ", expected " ++ expected
  | .outOfRange value =>
      "invalid value: integer `" ++ toString value ++ "`, expected usize"
  | .noMode found =>
      "invalid type: " ++ found.describe ++ ", expected string or map"

def modeNamed (name : String) : Except ReadError StylesheetMode :=
  match StylesheetMode.ofName? name with
  | some mode => .ok mode
  | none => .error (.unknownMode name)

/-- A mode is given by its name, or by a table whose only member has that name
and is empty: a mode has nothing to be set in it. -/
def readMode : Datum → Except ReadError StylesheetMode
  | .text name => modeNamed name
  | .table [(name, content)] => do
      let mode ← modeNamed name
      if content.isEmpty then pure mode else .error (.noMode content)
  | found => .error (.noMode found)

def readText : Datum → Except ReadError String
  | .text value => .ok value
  | found => .error (.wrongKind found "a string")

/-- A size is a whole number that fits in 64 bits. -/
def readSize : Datum → Except ReadError Nat
  | .integer value =>
      if 0 ≤ value && value < Int.pow 2 64 then .ok value.toNat
      else .error (.outOfRange value)
  | found => .error (.wrongKind found "usize")

/-- Take one member. -/
def set (settings : Settings) (name : String) (datum : Datum) :
    Except ReadError Settings :=
  match name with
  | "stylesheet" => do return { settings with stylesheet := ← readMode datum }
  | "stylesheet_href" => do return { settings with stylesheetHref := ← readText datum }
  | "default_title" => do return { settings with defaultTitle := ← readText datum }
  | "document_title" => do return { settings with documentTitle := ← readText datum }
  | "max_source_bytes" => do return { settings with maxSourceBytes := ← readSize datum }
  | _ => .error (.unknownMember name)

/-- Read the members of a table in their order. -/
def ofMembers (members : List (String × Datum)) : Except ReadError Settings :=
  members.foldlM (fun settings (name, datum) => settings.set name datum) {}

/-- Read a datum: a table, or a list of values in the order of the settings. -/
def ofDatum : Datum → Except ReadError Settings
  | .table members => ofMembers members
  | .list items => ofMembers (names.zip items)
  | found => .error (.wrongKind found "a table of settings")

/-- Why a text is no settings document. -/
inductive DocumentError where
  | malformed
  | members (error : ReadError)
deriving Repr

/-- Read a settings document. -/
def ofDocument (text : String) : Except DocumentError Settings :=
  match Toml.read? text with
  | none => .error .malformed
  | some members => (ofMembers members).mapError .members

end Settings
end Pagewright
