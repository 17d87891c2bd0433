namespace Pagewright
namespace CommandLine

/-!
# Arguments

A command line is a list of arguments.  Options may stand before and behind
the path that a command works on; two hyphens alone end the options.  An option
that takes a value finds it in the same argument or in the next one, and a
value in the next argument may not look like an option.

Reading goes from left to right and stops at the first argument that decides
the outcome, so that a request for help wins over what stands behind it and
loses to a mistake in front of it.
-/

/-- What the program writes when it runs a source. -/
inductive Format where
  | document
  | html
  | json
deriving Repr, DecidableEq

structure RunOptions where
  file : String
  format : Format
  output : Option String
  settings : Option String
deriving Repr, DecidableEq

structure TestOptions where
  path : String
  requests : List String
  listOnly : Bool
deriving Repr, DecidableEq

inductive Task where
  | run (options : RunOptions)
  | test (options : TestOptions)
  | detect (file : String)
deriving Repr, DecidableEq

/-- Why a command line is not carried out as a task. -/
inductive Stop where
  | help
  | version
  | misuse
deriving Repr, DecidableEq

/-! ## Options of a command -/

/-- An option with a value. -/
structure ValueOption where
  name : String
  /-- The letter of the short form. -/
  letter : Option Char
  /-- May it be given more than once? -/
  repeatable : Bool
  /-- May its value be empty? -/
  mayBeEmpty : Bool
deriving Repr, DecidableEq

/-- The options of a command. -/
structure Shape where
  flags : List String
  options : List ValueOption
deriving Repr, DecidableEq

/-- What was given so far, in reverse. -/
structure Given where
  paths : List String := []
  flags : List String := []
  values : List (String × String) := []
deriving Repr, DecidableEq

namespace Given

/-- A command works on one path, which is not empty. -/
def addPath (given : Given) (path : String) : Except Stop Given :=
  if given.paths.isEmpty && !path.isEmpty then .ok { given with paths := [path] }
  else .error .misuse

/-- A flag is given at most once. -/
def addFlag (given : Given) (name : String) : Except Stop Given :=
  if given.flags.contains name then .error .misuse
  else .ok { given with flags := name :: given.flags }

def addValue (given : Given) (option : ValueOption) (value : String) : Except Stop Given :=
  if (given.values.lookup option.name).isSome && !option.repeatable then .error .misuse
  else if value.isEmpty && !option.mayBeEmpty then .error .misuse
  else .ok { given with values := (option.name, value) :: given.values }

/-- The value of an option. -/
def value? (given : Given) (name : String) : Option String :=
  given.values.lookup name

/-- All values of an option, in the order given. -/
def valuesOf (given : Given) (name : String) : List String :=
  (given.values.reverse.filter fun entry => entry.1 = name).map Prod.snd

end Given

/-- Does an argument look like an option?  A hyphen alone does not. -/
def looksLikeOption (argument : String) : Bool :=
  argument.toList.head? = some '-' && argument != "-"

/-- A long option without its hyphens, and the value behind an equals sign. -/
def splitLong (text : List Char) : String × Option String :=
  match text.dropWhile (· != '=') with
  | [] => (String.ofList text, none)
  | _ :: value => (String.ofList (text.takeWhile (· != '=')), some (String.ofList value))

/-- The value in the same argument as the letter of an option. -/
def attachedValue? : List Char → Option String
  | [] => none
  | '=' :: value => some (String.ofList value)
  | value => some (String.ofList value)

/-- Read the arguments of a command. -/
def readArguments (shape : Shape) (given : Given) : List String → Except Stop Given
  | [] => .ok given
  | "--" :: paths => paths.foldlM Given.addPath given
  | argument :: rest =>
      let takeValue (option : ValueOption) (attached : Option String) :=
        match attached, rest with
        | some value, rest => do
            readArguments shape (← given.addValue option value) rest
        | none, value :: rest => do
            if looksLikeOption value then throw .misuse
            readArguments shape (← given.addValue option value) rest
        | none, [] => throw .misuse
      match argument.toList with
      | '-' :: '-' :: text =>
          let (name, attached) := splitLong text
          if attached.isNone && name = "help" then
            .error .help
          else if attached.isNone && shape.flags.contains name then do
            readArguments shape (← given.addFlag name) rest
          else
            match shape.options.find? fun option => option.name = name with
            | some option => takeValue option attached
            | none => .error .misuse
      | '-' :: letter :: text =>
          if letter = 'h' then
            .error .help
          else
            match shape.options.find? fun option => option.letter = some letter with
            | some option => takeValue option (attachedValue? text)
            | none => .error .misuse
      | _ => do readArguments shape (← given.addPath argument) rest

/-- The path that a command works on. -/
def requiredPath (given : Given) : Except Stop String :=
  match given.paths with
  | [path] => .ok path
  | _ => .error .misuse

/-! ## Commands -/

/-- The flag that every command knows. -/
def plainFlag : String := "no-color"

def runShape : Shape where
  flags := [plainFlag, "json", "html-only"]
  options :=
    [{ name := "output", letter := some 'o', repeatable := false, mayBeEmpty := false },
      { name := "config", letter := none, repeatable := false, mayBeEmpty := false }]

def testShape : Shape where
  flags := [plainFlag, "list-categories"]
  options :=
    [{ name := "category", letter := some 'c', repeatable := true, mayBeEmpty := true }]

def detectShape : Shape where
  flags := [plainFlag]
  options := []

def runTask (given : Given) : Except Stop Task := do
  let file ← requiredPath given
  let format ← match given.flags.contains "json", given.flags.contains "html-only" with
    | true, true => throw .misuse
    | true, false => pure Format.json
    | false, true => pure Format.html
    | false, false => pure Format.document
  return .run ⟨file, format, given.value? "output", given.value? "config"⟩

def testTask (given : Given) : Except Stop Task := do
  let path ← requiredPath given
  return .test ⟨path, given.valuesOf "category", given.flags.contains "list-categories"⟩

def detectTask (given : Given) : Except Stop Task := do
  return .detect (← requiredPath given)

/-- The names of the commands. -/
def commandNames : List String := ["run", "test", "detect", "help"]

/-- Read the arguments behind the name of a command. -/
def readCommand (name : String) (arguments : List String) : Except Stop (Task × Bool) := do
  match name with
  | "run" => finish runShape runTask
  | "test" => finish testShape testTask
  | "detect" => finish detectShape detectTask
  | "help" =>
      if arguments.length ≤ 1 && arguments.all commandNames.contains then throw .help
      else throw .misuse
  | _ => throw .misuse
where
  /-- Read the arguments by their shape and make a task of them. -/
  finish (shape : Shape) (task : Given → Except Stop Task) : Except Stop (Task × Bool) := do
    let given ← readArguments shape {} arguments
    return (← task given, given.flags.contains plainFlag)

/-- Read a command line that names its command. -/
def readNamed (plain : Bool) : List String → Except Stop (Task × Bool)
  | [] => .error .misuse
  | argument :: rest =>
      match argument.toList with
      | '-' :: '-' :: text =>
          if text = plainFlag.toList && !plain then readNamed true rest
          else if text = "help".toList then .error .help
          else if text = "version".toList then .error .version
          else .error .misuse
      | '-' :: 'h' :: _ => .error .help
      | '-' :: 'V' :: _ => .error .version
      | _ => (readCommand argument rest).map fun (task, given) => (task, plain || given)

/-- A command line whose first argument that is no option names no command runs
that argument as a file. -/
def withCommand (arguments : List String) : List String :=
  let isOption (argument : String) : Bool := argument.toList.head? = some '-'
  match arguments.dropWhile isOption with
  | [] => arguments
  | first :: _ =>
      if commandNames.contains first then arguments
      else arguments.takeWhile isOption ++ "run" :: arguments.dropWhile isOption

/-- Read a command line. -/
def read (arguments : List String) : Except Stop (Task × Bool) :=
  readNamed false (withCommand arguments)

end CommandLine
end Pagewright
