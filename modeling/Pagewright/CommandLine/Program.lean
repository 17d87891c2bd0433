import Pagewright.CommandLine.Arguments
import Pagewright.FileTree
import Pagewright.Genre
import Pagewright.Settings.Reading
import Pagewright.Suite.Run
import Pagewright.Summary

namespace Pagewright
namespace CommandLine

/-!
# The program

The whole program is a function of its arguments and of the files it can see.
Its result is what it prints, the files afterwards, and an exit code.  Reading
the arguments and the files from the world, and giving the result back, is left
to a thin layer outside.
-/

/-- What the program does. -/
structure Effect where
  code : Nat := 0
  output : String := ""
  errors : String := ""
  /-- The file that is written, with its new contents. -/
  written : Option (String × String) := none
deriving Repr, DecidableEq

/-- Every line ends with a line feed. -/
def linesText (lines : List String) : String :=
  String.join (lines.map (· ++ "\n"))

def versionText : String := "wahy 0.1.0\n"

def usageText : String :=
  linesText
    ["Usage: wahy [--no-color] <COMMAND>",
      "",
      "  run <FILE> [--json | --html-only] [-o <PATH>] [--config <PATH>]",
      "  test <PATH> [-c <CATEGORY>]... [--list-categories]",
      "  detect <FILE>",
      "",
      "Without a command, the first path is run."]

/-- End with one message and the exit code for failure. -/
def failWith (message : String) : Effect :=
  { code := 1, errors := linesText ["error: " ++ message] }

/-- The source at a path, or the effect of not finding it. -/
def readSource (tree : FileTree) (file : String) : Except Effect String :=
  match tree.readText file with
  | .ok source => .ok source
  | .error error => .error (failWith ("cannot read '" ++ file ++ "': " ++ error.message))

/-! ## Settings of a source -/

/-- The name of the settings file that is looked for beside a source. -/
def settingsName : String := "wahy.toml"

/-- The path of the settings for a source: the one given, or else the one
beside it if there is such a file. -/
def settingsPath? (tree : FileTree) (given : Option String) (file : String) : Option String :=
  match given with
  | some path => some path
  | none =>
      let beside := FileTree.sibling file settingsName
      if tree.isFile beside then some beside else none

/-- The message for a settings document that cannot be used.  What stands behind
`TOML parse error` is written by the reader of TOML, with an excerpt of the document;
a reason in one line stands in for that text. -/
def settingsMessage (path : String) (error : Settings.DocumentError) : String :=
  let reason := match error with
    | .malformed => "malformed document"
    | .members error => error.message
  "invalid config '" ++ path ++ "': TOML parse error: " ++ reason

/-- The settings for a source. -/
def readSettings (tree : FileTree) (given : Option String) (file : String) :
    Except Effect Settings :=
  match settingsPath? tree given file with
  | none => .ok {}
  | some path =>
      match tree.readText path with
      | .error error =>
          .error (failWith ("cannot read config '" ++ path ++ "': " ++ error.message))
      | .ok text =>
          (Settings.ofDocument text).mapError fun error =>
            failWith (settingsMessage path error)

/-- The paths that a task looks at.  Nothing else in the tree matters to it,
apart from the directories on the way to them. -/
def Task.paths : Task → List String
  | .run options =>
      [options.file, options.settings.getD (FileTree.sibling options.file settingsName)] ++
        options.output.toList
  | .test options => [options.path]
  | .detect file => [file]

/-! ## Commands -/

/-- A diagnostic: the message, the place, and the section.  The lines of the source
that are drawn around the place are left out. -/
def diagnosticLines (file : String) (entry : Target × Diagnostic) : List String :=
  let severity := match entry.2.severity with
    | .error => "error: "
    | .warning => "warning: "
  [severity ++ entry.2.message,
    "  ┌─ " ++ file ++ ":" ++ toString entry.2.line ++ ":1",
    "  = in the " ++ entry.1.label ++ " section",
    ""]

/-- What a report says about its source. -/
def reportLines (file : String) : Report → List String
  | .rejected fault => ["error: " ++ fault.message]
  | report => report.diagnostics.flatMap (diagnosticLines file)

/-- The part of a report that is asked for. -/
def rendered (format : Format) (report : Report) : String :=
  match format with
  | .document => report.document?.getD ""
  | .html => (report.output? .page).getD ""
  | .json => report.summary.toJson

/-- Run a source with settings. -/
def runSource (tree : FileTree) (options : RunOptions) (settings : Settings)
    (source : String) : Effect :=
  let report := Report.ofSource settings source
  let errors := linesText (reportLines options.file report)
  let text := rendered options.format report ++ "\n"
  let code := if report.success then 0 else 1
  match options.output with
  | none => { code := code, output := text, errors := errors }
  | some path =>
      match tree.writeText path text with
      | .ok _ => { code := code, errors := errors, written := some (path, text) }
      | .error error =>
          { code := 1
            errors := errors ++
              linesText ["error: cannot write '" ++ path ++ "': " ++ error.message] }

def run (tree : FileTree) (options : RunOptions) : Except Effect Effect := do
  let source ← readSource tree options.file
  let settings ← readSettings tree options.settings options.file
  return runSource tree options settings source

def test (tree : FileTree) (options : TestOptions) (plain : Bool) : Effect :=
  if options.listOnly then
    { errors := linesText (Suite.listCategories tree options.path) }
  else
    let style := if plain then Suite.Style.plain else Suite.Style.coloured
    let account := Suite.run style tree options.path options.requests
    { code := if account.success then 0 else 1, errors := linesText account.lines }

def detect (tree : FileTree) (file : String) : Except Effect Effect := do
  let source ← readSource tree file
  return { output := linesText [(Genre.ofSource source).name] }

/-- Carry out a task. -/
def perform (tree : FileTree) (plain : Bool) : Task → Except Effect Effect
  | .run options => run tree options
  | .test options => .ok (test tree options plain)
  | .detect file => detect tree file

/-- The effect of a command line on some files. -/
def effect (tree : FileTree) (arguments : List String) : Effect :=
  match read arguments with
  | .error .help => { output := usageText }
  | .error .version => { output := versionText }
  | .error .misuse => { code := 2, errors := usageText }
  | .ok (task, plain) =>
      match perform tree plain task with
      | .ok effect => effect
      | .error effect => effect

/-- The files after an effect. -/
def Effect.apply (effect : Effect) (tree : FileTree) : FileTree :=
  match effect.written with
  | none => tree
  | some (path, contents) => (tree.writeText path contents).toOption.getD tree

end CommandLine
end Pagewright
