import Pagewright.Markup.Fragment
import Pagewright.Text.Indented

namespace Pagewright
namespace Page

/-!
# The canvas of a page

A page is written line by line on a canvas, which knows the blocks that are
still open.  Lines are indented by the number of open blocks, and a block is
always closed by the tag that matches it, whatever command asked for the
closing.  The canvas does not know commands: it has no opinion on which lines
make sense where.
-/

/-- A block that takes several lines. -/
inductive Block where
  | bulletList
  | numberedList
  | section
  | table
  | row
deriving Repr, DecidableEq

namespace Block

/-- The element that a block is written as. -/
def element : Block → String
  | .bulletList => "ul"
  | .numberedList => "ol"
  | .section => "div"
  | .table => "table"
  | .row => "tr"

def isList : Block → Bool
  | .bulletList | .numberedList => true
  | .section | .table | .row => false

end Block

/-- A page is opened once and closed once. -/
inductive Stage where
  | unopened
  | opened
  | closed
deriving Repr, DecidableEq

structure Canvas where
  lines : Array (Text.Indented (List Markup.Fragment)) := #[]
  stage : Stage := .unopened
  /-- The open blocks, innermost first. -/
  blocks : List Block := []
deriving Repr, DecidableEq

namespace Canvas

open Markup (Fragment)

/-- Add a line at a given depth. -/
def place (canvas : Canvas) (depth : Nat) (line : List Fragment) : Canvas :=
  { canvas with lines := canvas.lines.push ⟨depth, line⟩ }

/-- Add a line inside the open blocks. -/
def write (canvas : Canvas) (line : List Fragment) : Canvas :=
  canvas.place canvas.blocks.length line

/-- Add several lines, each with its depth. -/
def placeAll (canvas : Canvas) (lines : List (Nat × List Fragment)) : Canvas :=
  lines.foldl (fun canvas (depth, line) => canvas.place depth line) canvas

def markOpened (canvas : Canvas) : Canvas :=
  { canvas with stage := .opened }

/-- The innermost open block. -/
def top? (canvas : Canvas) : Option Block :=
  canvas.blocks.head?

/-- Write an opening line and put the lines behind it inside a block. -/
def openBlock (canvas : Canvas) (block : Block) (opening : List Fragment) : Canvas :=
  { canvas.write opening with blocks := block :: canvas.blocks }

/-- Close the innermost block, if there is one. -/
def closeBlock? (canvas : Canvas) : Option Canvas :=
  match canvas.blocks with
  | [] => none
  | block :: outer =>
      some ({ canvas with blocks := outer }.write [.stop block.element])

/-- The lines written so far, followed by the closing lines of the rows that
are innermost in `blocks`, and the blocks that stay open. -/
def closingRows (lines : Array (Text.Indented (List Fragment))) :
    List Block → Array (Text.Indented (List Fragment)) × List Block
  | .row :: outer =>
      closingRows (lines.push ⟨outer.length, [.stop Block.row.element]⟩) outer
  | blocks => (lines, blocks)

/-- Close rows until the innermost block is none. -/
def closeRows (canvas : Canvas) : Canvas :=
  let (lines, blocks) := closingRows canvas.lines canvas.blocks
  { canvas with lines := lines, blocks := blocks }

/-- The lines written so far, followed by the closing lines of `blocks`. -/
def closingLines (lines : Array (Text.Indented (List Fragment))) :
    List Block → Array (Text.Indented (List Fragment))
  | [] => lines
  | block :: outer =>
      closingLines (lines.push ⟨outer.length, [.stop block.element]⟩) outer

/-- Close all blocks, innermost first. -/
def closeBlocks (canvas : Canvas) : Canvas :=
  { canvas with lines := closingLines canvas.lines canvas.blocks, blocks := [] }

/-- Close all blocks and then the page, with the given last lines. -/
def closePage (canvas : Canvas) (ending : List (List Fragment)) : Canvas :=
  { canvas.closeBlocks.placeAll (ending.map fun line => (0, line)) with stage := .closed }

/-- The text of the page. -/
def render (canvas : Canvas) : String :=
  Text.Indented.renderAll Fragment.renderLine canvas.lines

end Canvas

end Page
end Pagewright
