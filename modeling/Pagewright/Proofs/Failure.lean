import Pagewright.Proofs.Page.Body
import Pagewright.Script.Generator
import Pagewright.Stylesheet.Generator

namespace Pagewright

/-!
# Failed commands

What was written in front of a failed command still becomes an output, so such
a command must leave no trace.  In a stylesheet and in a script the only
failures are ends of blocks that are not open, and these are noticed before
anything is written.

A page is different, because the end of a table closes rows first and may fail
afterwards.  It changes nothing all the same: a row is open only directly
inside a table, so if nothing is left to end behind the rows, there were no
rows.  This needs the blocks of a page to be reachable.  On an arbitrary canvas
with a row outside of a table, the end of a table does leave a trace.
-/

open Generator (CleanStep Clean)

/-! ## Pages -/

namespace Page

variable {settings : Settings}

theorem cleanStep_styleOverride (before page : Page) (declaration : String) :
    CleanStep before (page.styleOverride declaration) := by
  unfold styleOverride
  split
  · exact .handled _ _
  · exact .handled _ _

theorem cleanStep_listItem (before page : Page) (text : String) :
    CleanStep before (page.listItem text) := by
  unfold listItem
  split
  · exact .handled _ _
  · exact .handled _ _

theorem cleanStep_tableRow (before page : Page) : CleanStep before page.tableRow := by
  unfold tableRow
  dsimp only
  split
  · exact .handled _ _
  · exact .handled _ _

theorem cleanStep_tableCell (before page : Page) (text : String) :
    CleanStep before (page.tableCell text) := by
  unfold tableCell
  dsimp only
  split
  · exact .handled _ _
  · exact .handled _ _

/-- Content is always taken on an open page. -/
theorem cleanStep_add (before page : Page) (command : Command) (content : Content) :
    CleanStep before (page.add command content) := by
  cases content with
  | backgroundColor => exact cleanStep_styleOverride before page _
  | textColor => exact cleanStep_styleOverride before page _
  | font => exact cleanStep_styleOverride before page _
  | listItem => exact cleanStep_listItem before page _
  | tableRow => exact cleanStep_tableRow before page
  | tableCell => exact cleanStep_tableCell before page _
  | _ => exact .handled _ _

theorem cleanStep_openPage (page : Page) (title : String) :
    CleanStep page (page.openPage settings title) := by
  unfold openPage
  split
  · exact .handled _ _
  all_goals exact .handled _ _

theorem cleanStep_closePage (page : Page) : CleanStep page page.closePage := by
  unfold closePage
  split
  · exact .handled _ _
  · exact .handled _ _
  · exact .handled _ _

theorem cleanStep_endBlock (page : Page) (construct : String) :
    CleanStep page (page.endBlock construct) := by
  unfold endBlock
  split
  · exact .handled _ _
  · exact .failed _

/-- Where every row stands in a table, closing rows ends in a table and not
outside of all blocks. -/
theorem blocks_of_closingRows (lines : Array Line) {blocks : List Block}
    (inTables : RowsInTables blocks) (nothing : (Canvas.closingRows lines blocks).2 = []) :
    blocks = [] := by
  fun_induction Canvas.closingRows lines blocks with
  | case1 lines outer ih =>
      have inTable := inTables.1 rfl
      rw [ih inTables.2 nothing] at inTable
      cases inTable
  | case2 lines blocks _ => exact nothing

theorem cleanStep_endTable {page : Page} (inTables : RowsInTables page.canvas.blocks) :
    CleanStep page page.endTable := by
  cases blocks : page.canvas.closeRows.blocks with
  | nil =>
      have empty := blocks_of_closingRows page.canvas.lines inTables blocks
      rw [endTable, closeRows_of_empty empty]
      exact cleanStep_endBlock page "table"
  | cons block outer =>
      rw [endTable, endBlock, Canvas.closeBlock?]
      dsimp only
      rw [blocks]
      exact .handled _ _

-- A row that stands outside of a table, which no command can bring about.
example : ({ canvas := { blocks := [.row] } } : Page).endTable.state ≠
    { canvas := { blocks := [.row] } } := by decide

theorem cleanStep_execute {page : Page} (laid : Laid settings page.canvas) (command : Command) :
    CleanStep page (page.execute settings command) := by
  unfold execute
  split
  case h_1 => exact .unknown _ _
  case h_2 => exact cleanStep_openPage page _
  case h_3 => exact cleanStep_closePage page
  case h_4 => exact cleanStep_endBlock page _
  case h_5 => exact cleanStep_endBlock page _
  case h_6 => exact cleanStep_endTable laid.rowsInTables
  case h_7 content _ =>
      split
      · exact cleanStep_add page _ command content
      · exact cleanStep_add page _ command content
      · exact .failed _

theorem clean_generator (settings : Settings) : Clean (generator settings) Generator.noMove where
  execute := fun _ reachable command => cleanStep_execute (laid_of_reachable reachable) command
  finish := fun _ => ⟨_, rfl⟩

end Page

/-! ## Stylesheets -/

namespace Stylesheet

/-- The calls on a sheet besides commands. -/
inductive Edit : Sheet → Sheet → Prop
  | select (sheet : Sheet) (selector : String) : Edit sheet (sheet.select selector)
  | declare (sheet : Sheet) (property value : String) : Edit sheet (sheet.declare property value)

theorem cleanStep_apply (sheet : Sheet) (command : Command) (instruction : Instruction) :
    CleanStep sheet (apply sheet command instruction) := by
  cases instruction with
  | rule =>
      rw [apply]
      split
      · exact .handled _ _
      · exact .handled _ _
  | endMedia =>
      rw [apply]
      split
      · exact .handled _ _
      · exact .failed _
  | _ => exact .handled _ _

theorem clean_generator : Clean generator Edit where
  execute := by
    intro sheet _ command
    show CleanStep sheet (execute sheet command)
    unfold execute
    split
    · exact .unknown _ _
    · split
      · exact .handled _ _
      · exact cleanStep_apply sheet command _
  finish := fun _ => ⟨_, rfl⟩

end Stylesheet

/-! ## Scripts -/

namespace Script

theorem cleanStep_apply (program : Program) (action : Action) :
    CleanStep program (program.apply action) := by
  cases action with
  | line => exact .handled _ _
  | openBlock => exact .handled _ _
  | reopenBlock =>
      rw [Program.apply]
      split
      · exact .handled _ _
      · exact .failed _
  | closeBlock =>
      rw [Program.apply]
      split
      · exact .handled _ _
      · exact .failed _
  | callback => exact .handled _ _

theorem clean_generator : Clean generator Generator.noMove where
  execute := by
    intro program _ command
    show CleanStep program (execute program command)
    unfold execute
    split
    · exact .unknown _ _
    · exact cleanStep_apply program _
  finish := fun _ => ⟨_, rfl⟩

end Script

/-- In every state that calls can lead to, a failed command leaves no trace in
a page, a stylesheet or a script, and so a run that fails has the output of the
lines in front of the failure. -/
theorem failure_leaves_no_trace (settings : Settings) :
    ((Page.generator settings).FailsCleanly Generator.noMove ∧
        (Page.generator settings).AbortsCleanly) ∧
      (Stylesheet.generator.FailsCleanly Stylesheet.Edit ∧ Stylesheet.generator.AbortsCleanly) ∧
      (Script.generator.FailsCleanly Generator.noMove ∧ Script.generator.AbortsCleanly) := by
  have page := Page.clean_generator settings
  have stylesheet := Stylesheet.clean_generator
  have script := Script.clean_generator
  exact ⟨⟨page.failsCleanly, page.abortsCleanly⟩, ⟨stylesheet.failsCleanly, stylesheet.abortsCleanly⟩,
    ⟨script.failsCleanly, script.abortsCleanly⟩⟩

/-- A table that is ended twice. -/
def endedTwice : List Section := Section.ofSource "ابدأ جدول\nخانة x\nأنهِ جدول\nأنهِ جدول\nفقرة y"

theorem failure_leaves_no_trace_endedTwice :
    ((Page.generator {}).run endedTwice).errors ≠ [] ∧
      ∃ before line after command fault,
        endedTwice.flatMap Section.lines = before ++ line :: after ∧
        Command.ofLine? line.text = some command ∧
        ((Page.generator {}).execute ((Page.generator {}).readAll before).state command).verdict =
          .failed fault ∧
        ((Page.generator {}).run endedTwice).errors =
          [Diagnostic.onLine line .error fault.message] ∧
        ∀ shorter, shorter.flatMap Section.lines = before →
          ((Page.generator {}).run shorter).errors = [] ∧
            ((Page.generator {}).run shorter).output = ((Page.generator {}).run endedTwice).output := by
  have failed : ((Page.generator {}).run endedTwice).errors ≠ [] := by decide +kernel
  exact ⟨failed, (failure_leaves_no_trace {}).1.2 endedTwice failed⟩

end Pagewright
