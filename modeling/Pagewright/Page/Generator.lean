import Pagewright.Generator
import Pagewright.Page.Canvas
import Pagewright.Page.Head
import Pagewright.Page.Vocabulary
import Pagewright.Text.Literal
import Pagewright.Text.Search

namespace Pagewright

open Markup (Fragment)

/-!
# Pages

The generator of pages.  Content that cannot stand where it is asked for is
left out with a warning; an end command with nothing to end, and content behind
the end of the page, are faults.

End commands close whatever block is innermost.  Only the end of a table looks
at what it closes: open rows go first.
-/

/-- A page under construction.  Check boxes are counted because each gets an
identifier of its own. -/
structure Page where
  canvas : Page.Canvas := {}
  checkboxes : Nat := 0
deriving Repr, DecidableEq

namespace Page

/-- Leave the page as it is, with a warning. -/
def warn (page : Page) (message : String) : Step Page :=
  { state := page, warnings := [message] }

/-- Write one line inside the open blocks. -/
def writeLine (page : Page) (line : List Fragment) : Step Page :=
  { state := { page with canvas := page.canvas.write line } }

/-- Start a block. -/
def startBlock (page : Page) (block : Block) (attributes : List Markup.Attribute) :
    Step Page :=
  { state := { page with
      canvas := page.canvas.openBlock block [.start block.element attributes] } }

/-- Write everything in front of the body. -/
def begin (settings : Settings) (page : Page) (title : String) : Page :=
  { page with canvas := (page.canvas.placeAll (opening settings title)).markOpened }

/-- Close all blocks and write everything behind the body. -/
def conclude (page : Page) : Page :=
  { page with canvas := page.canvas.closePage ending }

def openPage (settings : Settings) (page : Page) (title : String) : Step Page :=
  match page.canvas.stage with
  | .unopened => { state := page.begin settings title }
  | .opened | .closed => page.warn "page is already open"

def closePage (page : Page) : Step Page :=
  match page.canvas.stage with
  | .unopened => page.warn "no page is open to close"
  | .opened => { state := page.conclude }
  | .closed => page.warn "page is already closed"

/-- End the innermost block; `construct` is what the command meant to end. -/
def endBlock (page : Page) (construct : String) : Step Page :=
  match page.canvas.closeBlock? with
  | some canvas => { state := { page with canvas := canvas } }
  | none => { state := page, verdict := .failed (.unmatchedClose construct) }

/-- The canvas after ending a row, if the innermost block is one. -/
def withoutRow (canvas : Canvas) : Canvas :=
  if canvas.top? = some .row then canvas.closeBlock?.getD canvas else canvas

/-- The canvas inside a row, if the innermost block is a table. -/
def withRow (canvas : Canvas) : Canvas :=
  if canvas.top? = some .table then
    canvas.openBlock .row [.start Block.row.element []]
  else
    canvas

/-- End a table, and first the rows in it. -/
def endTable (page : Page) : Step Page :=
  { page with canvas := page.canvas.closeRows }.endBlock "table"

/-- Content at the place of an item: it needs a list around it. -/
def listItem (page : Page) (text : String) : Step Page :=
  if page.canvas.top?.any Block.isList then
    page.writeLine (Fragment.element "li" [] text)
  else
    page.warn "list item outside of a list; start a list first"

/-- A new row ends the row in front of it. -/
def tableRow (page : Page) : Step Page :=
  let canvas := withoutRow page.canvas
  if canvas.top? = some .table then
    { state := { page with canvas := withRow canvas } }
  else
    { page with canvas := canvas }.warn "table row outside of a table; start a table first"

/-- A cell directly in a table begins a row. -/
def tableCell (page : Page) (text : String) : Step Page :=
  let canvas := withRow page.canvas
  if canvas.top? = some .row then
    { page with canvas := canvas }.writeLine (Fragment.element "td" [] text)
  else
    page.warn "table cell outside of a table; start a table first"

/-- Override a declaration of the body.  An opening bracket could end the style
element, so no declaration may hold one. -/
def styleOverride (page : Page) (declaration : String) : Step Page :=
  if declaration.toList.contains '<' then
    page.warn "style value may not contain '<'; override skipped"
  else
    page.writeLine (Fragment.style ("body \x7b " ++ declaration ++ " \x7d"))

/-- An attribute that is left out when there is no value. -/
def optional (name : String) (value : Option String) : List Markup.Attribute :=
  (value.map (Markup.Attribute.mk name)).toList

def input (page : Page) (kind : String) (command : Command) : Step Page :=
  page.writeLine [.start "input"
    ([⟨"type", kind⟩, ⟨"name", command.argumentD 0 ""⟩, ⟨"class", "wahy-input"⟩] ++
      optional "placeholder" (command.nonemptyArgument? 1))]

/-- A check box, followed by its label on a line of its own if it has one. -/
def checkbox (page : Page) (name : String) (label : Option String) : Step Page :=
  let number := page.checkboxes + 1
  let identifier := "wahy-checkbox-" ++ toString number
  let box := page.canvas.write
    [.start "input" [⟨"type", "checkbox"⟩, ⟨"id", identifier⟩, ⟨"name", name⟩]]
  let labelled := match label with
    | some text => box.write (Fragment.element "label" [⟨"for", identifier⟩] text)
    | none => box
  { state := { canvas := labelled, checkboxes := number } }

/-- Add content to an open page. -/
def add (page : Page) (command : Command) : Content → Step Page
  | .heading level =>
      page.writeLine
        (Fragment.element ("h" ++ toString level) [] (command.argumentD 0 ""))
  | .paragraph => page.writeLine (Fragment.element "p" [] (command.argumentD 0 ""))
  | .link =>
      let address := command.argumentD 1 "#"
      page.writeLine (Fragment.element "a" [⟨"href", address⟩, ⟨"target", "_blank"⟩]
        (command.argumentD 0 address))
  | .image =>
      page.writeLine [.start "img"
        [⟨"src", command.argumentD 0 ""⟩, ⟨"alt", command.argumentD 1 "صورة"⟩]]
  | .button =>
      page.writeLine (Fragment.element "button"
        ([⟨"class", "wahy-button"⟩] ++ optional "onclick" (command.nonemptyArgument? 1))
        (command.argumentD 0 "زر"))
  | .text => page.writeLine (Fragment.element "span" [] (command.argumentD 0 ""))
  | .backgroundColor =>
      page.styleOverride ("background-color: " ++ command.argumentD 0 "white" ++ ";")
  | .textColor => page.styleOverride ("color: " ++ command.argumentD 0 "black" ++ ";")
  | .font =>
      page.styleOverride ("font-family: " ++
        Text.singleQuoted (command.argumentD 0 "Arial") ++ ", sans-serif;")
  | .startBulletList => page.startBlock .bulletList []
  | .startNumberedList => page.startBlock .numberedList []
  | .listItem => page.listItem (command.argumentD 0 "")
  | .startSection =>
      let names := match command.nonemptyArgument? 0 with
        | some name => "wahy-section " ++ name
        | none => "wahy-section"
      page.startBlock .section [⟨"class", names⟩]
  | .horizontalRule => page.writeLine [.start "hr" []]
  | .space => page.writeLine [.start "br" []]
  | .textInput => page.input "text" command
  | .passwordInput => page.input "password" command
  | .checkbox => page.checkbox (command.argumentD 0 "") (command.nonemptyArgument? 1)
  | .startTable => page.startBlock .table []
  | .tableRow => page.tableRow
  | .tableCell => page.tableCell (command.argumentD 0 "")

/-- Run one command. -/
def execute (settings : Settings) (page : Page) (command : Command) : Step Page :=
  match Instruction.ofKey? command.key with
  | none => { state := page, verdict := .unknown }
  | some .openPage =>
      page.openPage settings (command.argumentD 0 settings.defaultTitle)
  | some .closePage => page.closePage
  | some .endList => page.endBlock "list"
  | some .endSection => page.endBlock "section"
  | some .endTable => page.endTable
  | some (.content content) =>
      match page.canvas.stage with
      | .unopened => (page.begin settings settings.defaultTitle).add command content
      | .opened => page.add command content
      | .closed =>
          { state := page, verdict := .failed (.contentAfterClose command.key) }

/-- The finished page.  The canvas is fresh afterwards, but check boxes go on
being counted. -/
def finish (page : Page) : Finish Page :=
  let last := match page.canvas.stage with
    | .opened => page.conclude
    | .unopened | .closed => page
  { state := { page with canvas := {} }, output := .ok last.canvas.render }

def generator (settings : Settings) : Generator Page where
  target := .page
  initial := {}
  execute := execute settings
  finish := finish

end Page

end Pagewright
