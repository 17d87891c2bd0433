import Pagewright.Generator
import Pagewright.Stylesheet.Sheet
import Pagewright.Stylesheet.Vocabulary
import Pagewright.Text.Search

namespace Pagewright
namespace Stylesheet

/-!
# Stylesheets

The generator of stylesheets.  Values are passed through as they are, except
that no argument may hold the beginning of an end tag: such a line is left out
with a warning, whatever its command.
-/

/-- Does some argument hold the beginning of an end tag? -/
def holdsEndTag (command : Command) : Bool :=
  command.words.any fun word => Text.occursIn "</" word.text

/-- Run one command whose arguments may stand in a style element. -/
def apply (sheet : Sheet) (command : Command) : Instruction → Step Sheet
  | .select => { state := sheet.select (command.joinedD 0 "body") }
  | .selectAll =>
      let selector := command.joinedD 0 "*"
      { state := sheet.select (if selector = "*" then "*" else "* " ++ selector) }
  | .rule =>
      match command.nonemptyArgument? 0 with
      | some property => { state := sheet.declare property (command.joined 1) }
      | none => { state := sheet, warnings := ["rule needs a property name"] }
  | .property name default values =>
      { state := sheet.declare name (valueNamed values (command.joinedD 0 default)) }
  | .fixed name value => { state := sheet.declare name value }
  | .fontFamily =>
      { state := sheet.declare "font-family"
          ("'" ++ command.joinedD 0 "Arial" ++ "', sans-serif") }
  | .backgroundImage =>
      let image := command.joinedD 0 "none"
      { state := sheet.declare "background-image"
          (if image = "none" then "none" else "url(" ++ image ++ ")") }
  | .startMedia => { state := sheet.startMedia (command.joinedD 0 "screen") }
  | .endMedia =>
      match sheet.endMedia? with
      | some closed => { state := closed }
      | none => { state := sheet, verdict := .failed (.unmatchedClose "media query") }

/-- Run one command. -/
def execute (sheet : Sheet) (command : Command) : Step Sheet :=
  match Instruction.ofKey? command.key with
  | none => { state := sheet, verdict := .unknown }
  | some instruction =>
      if holdsEndTag command then
        { state := sheet
          warnings := ["'</' would end the style block; line skipped"] }
      else
        apply sheet command instruction

/-- The finished stylesheet.  Its lines stay, so that it can be continued. -/
def finish (sheet : Sheet) : Finish Sheet :=
  let closed := sheet.closeAll
  { state := closed
    warnings :=
      if sheet.queries = 0 then
        []
      else
        [toString sheet.queries ++
          " media query block(s) left open at end of input; closing"]
    output := .ok closed.render }

def generator : Generator Sheet where
  target := .stylesheet
  initial := {}
  execute := execute
  finish := finish

end Stylesheet
end Pagewright
