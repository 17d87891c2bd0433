import Pagewright.Page.Generator
import Pagewright.Proofs.Generator
import Pagewright.Proofs.Markup.Written

namespace Pagewright
namespace Page

open Markup (Fragment Attribute IsPlain)

/-!
# What commands write

Many commands write to a page, but they write few kinds of lines: a line that
closes what it opens, the start of a block, and the end of the innermost block.
`Body` lists these kinds together with the blocks that are open behind each
line, and `Laid` puts a body between the fixed frame of a page.  Every command
keeps a page laid out in this way, failed ones included, and so does asking for
its text.  What is claimed about pages elsewhere is proved about bodies, and
never goes through the commands again.

A body records where rows, cells and items may stand, because end commands
close blocks by position alone and would not keep them apart.
-/

/-- A line of a page. -/
abbrev Line := Text.Indented (List Fragment)

/-! ## Bodies -/

/-- The elements that are written on one line with a text inside. -/
def inlineElements : List String :=
  ["h1", "h2", "p", "a", "button", "span", "label", "li", "td"]

/-- The elements without an end that may stand in a body. -/
def emptyElements : List String := ["img", "input", "hr", "br"]

/-- A line that closes what it opens, with the innermost open block around
it. -/
inductive Inline (around : Option Block) : List Fragment → Prop
  | element {name : String} {attributes : List Attribute} {content : String}
      (listed : name ∈ inlineElements) (plain : ∀ given ∈ attributes, IsPlain given.name)
      (item : name = "li" → around.any Block.isList = true)
      (cell : name = "td" → around = some .row) :
      Inline around (Fragment.element name attributes content)
  | void {name : String} {attributes : List Attribute} (listed : name ∈ emptyElements)
      (plain : ∀ given ∈ attributes, IsPlain given.name) :
      Inline around [.start name attributes]
  | style {rules : String} (bracketFree : '<' ∉ rules.toList) :
      Inline around (Fragment.style rules)

/-- The lines between the frame of a page, and the blocks open behind them,
innermost first. -/
inductive Body : List Line → List Block → Prop
  | empty : Body [] []
  | line {lines : List Line} {blocks : List Block} {content : List Fragment}
      (earlier : Body lines blocks) (inline : Inline blocks.head? content) :
      Body (lines ++ [⟨blocks.length, content⟩]) blocks
  | start {lines : List Line} {blocks : List Block} {block : Block} {attributes : List Attribute}
      (earlier : Body lines blocks) (plain : ∀ given ∈ attributes, IsPlain given.name)
      (inTable : block = .row → blocks.head? = some .table) :
      Body (lines ++ [⟨blocks.length, [.start block.element attributes]⟩]) (block :: blocks)
  | stop {lines : List Line} {blocks : List Block} {block : Block}
      (earlier : Body lines (block :: blocks)) :
      Body (lines ++ [⟨blocks.length, [.stop block.element]⟩]) blocks

/-- Every row stands directly in a table. -/
def RowsInTables : List Block → Prop
  | [] => True
  | block :: outer => (block = .row → outer.head? = some .table) ∧ RowsInTables outer

theorem Body.rowsInTables {lines : List Line} {blocks : List Block} (body : Body lines blocks) :
    RowsInTables blocks := by
  induction body with
  | empty => exact True.intro
  | line _ _ ih => exact ih
  | start _ _ inTable ih => exact ⟨inTable, ih⟩
  | stop _ ih => exact ih.2

/-! ## Canvases -/

/-- Lines with their depths, as they stand on a canvas. -/
def placed (lines : List (Nat × List Fragment)) : List Line :=
  lines.map fun line => ⟨line.1, line.2⟩

/-- The lines behind the body. -/
def endingLines : List Line :=
  placed (ending.map fun line => (0, line))

private theorem notMem_ofList {c : Char} {characters : List Char}
    (absent : characters.all (· != c) = true) : c ∉ (String.ofList characters).toList := by
  rw [String.toList_ofList]
  intro member
  exact bne_iff_ne.mp (List.all_eq_true.mp absent c member) rfl

set_option maxRecDepth 1000 in
/-- No rule of the base stylesheet holds an opening bracket. -/
theorem bracketFree_baseRules : ∀ rule ∈ baseRules, '<' ∉ rule.toList := by
  -- A literal is a list of characters as it stands; taking it apart again would be slow.
  simp only [baseRules, List.forall_mem_cons]
  refine ⟨?_, ?_, ?_, ?_, ?_, ?_, ?_, ?_, List.forall_mem_nil _⟩ <;> exact notMem_ofList (by decide)

/-- A canvas on which a body is being written. -/
structure Opened (settings : Settings) (canvas : Canvas) : Prop where
  stage : canvas.stage = .opened
  lines : ∃ title body, canvas.lines.toList = placed (opening settings title) ++ body ∧
    Body body canvas.blocks

/-- A canvas as commands can leave it. -/
inductive Laid (settings : Settings) : Canvas → Prop
  | unopened : Laid settings {}
  | opened {canvas : Canvas} (opened : Opened settings canvas) : Laid settings canvas
  | closed {canvas : Canvas} {title : String} {body : List Line} (stage : canvas.stage = .closed)
      (blocks : canvas.blocks = [])
      (lines : canvas.lines.toList = placed (opening settings title) ++ (body ++ endingLines))
      (complete : Body body []) : Laid settings canvas

theorem toList_placeAll (canvas : Canvas) (lines : List (Nat × List Fragment)) :
    (canvas.placeAll lines).lines.toList = canvas.lines.toList ++ placed lines ∧
      (canvas.placeAll lines).blocks = canvas.blocks ∧
      (canvas.placeAll lines).stage = canvas.stage := by
  induction lines generalizing canvas with
  | nil => exact ⟨(List.append_nil _).symm, rfl, rfl⟩
  | cons line others ih =>
      have rest := ih (canvas.place line.1 line.2)
      refine ⟨?_, rest.2⟩
      rw [Canvas.placeAll, List.foldl_cons]
      refine rest.1.trans ?_
      rw [Canvas.place, Array.toList_push, List.append_assoc]
      rfl

/-- Attributes whose names are written out. -/
theorem plain_of_names {attributes : List Attribute} (names : List String)
    (same : attributes.map Attribute.name = names) (plain : ∀ name ∈ names, IsPlain name) :
    ∀ given ∈ attributes, IsPlain given.name := by
  subst same
  exact List.forall_mem_map.mp plain

/-- Attributes with one more that may be left out. -/
theorem plain_optional {attributes : List Attribute} {name : String}
    (plain : ∀ given ∈ attributes, IsPlain given.name) (plainName : IsPlain name)
    (value : Option String) :
    ∀ given ∈ attributes ++ optional name value, IsPlain given.name := by
  intro given member
  rcases List.mem_append.mp member with listed | further
  · exact plain given listed
  · cases value with
    | none => cases further
    | some text =>
        rw [optional, Option.map_some, Option.toList_some, List.mem_singleton] at further
        rw [further]
        exact plainName

namespace Opened

variable {settings : Settings} {canvas : Canvas}

/-- An empty canvas with the opening of a page on it. -/
theorem ofOpening (settings : Settings) (title : String) :
    Opened settings (({} : Canvas).placeAll (opening settings title)).markOpened := by
  have placement := toList_placeAll {} (opening settings title)
  refine ⟨rfl, title, [], ?_, ?_⟩
  · rw [List.append_nil]
    exact placement.1
  · rw [Canvas.markOpened, placement.2.1]
    exact .empty

theorem write (opened : Opened settings canvas) {content : List Fragment}
    (inline : Inline canvas.top? content) : Opened settings (canvas.write content) := by
  rcases opened with ⟨stage, title, body, lines, isBody⟩
  refine ⟨stage, title, body ++ [⟨canvas.blocks.length, content⟩], ?_, isBody.line inline⟩
  rw [Canvas.write, Canvas.place, Array.toList_push, lines, List.append_assoc]

theorem openBlock (opened : Opened settings canvas) {block : Block} {attributes : List Attribute}
    (plain : ∀ given ∈ attributes, IsPlain given.name)
    (inTable : block = .row → canvas.top? = some .table) :
    Opened settings (canvas.openBlock block [.start block.element attributes]) := by
  rcases opened with ⟨stage, title, body, lines, isBody⟩
  refine ⟨stage, title, body ++ [⟨canvas.blocks.length, [.start block.element attributes]⟩], ?_,
    isBody.start plain inTable⟩
  rw [Canvas.openBlock, Canvas.write, Canvas.place, Array.toList_push, lines, List.append_assoc]

theorem closeBlock {closed : Canvas} (opened : Opened settings canvas)
    (closes : canvas.closeBlock? = some closed) : Opened settings closed := by
  rcases opened with ⟨stage, title, body, lines, isBody⟩
  unfold Canvas.closeBlock? at closes
  split at closes
  case h_1 => cases closes
  case h_2 block outer blocks =>
      rw [blocks] at isBody
      cases closes
      refine ⟨stage, title, body ++ [⟨outer.length, [.stop block.element]⟩], ?_, isBody.stop⟩
      rw [Canvas.write, Canvas.place, Array.toList_push, lines, List.append_assoc]

theorem rowsInTables (opened : Opened settings canvas) : RowsInTables canvas.blocks := by
  rcases opened with ⟨-, title, body, -, isBody⟩
  exact isBody.rowsInTables

private theorem closingLines_spec {lines : Array Line} {blocks : List Block}
    {before body : List Line} (whole : lines.toList = before ++ body) (isBody : Body body blocks) :
    ∃ complete, (Canvas.closingLines lines blocks).toList = before ++ complete ∧ Body complete [] := by
  induction blocks generalizing lines body with
  | nil => exact ⟨body, whole, isBody⟩
  | cons block outer ih =>
      refine ih ?_ isBody.stop
      rw [Array.toList_push, whole, List.append_assoc]

private theorem closingRows_spec {lines : Array Line} {blocks : List Block}
    {before body : List Line} (whole : lines.toList = before ++ body) (isBody : Body body blocks) :
    ∃ later, (Canvas.closingRows lines blocks).1.toList = before ++ later ∧
      Body later (Canvas.closingRows lines blocks).2 := by
  fun_induction Canvas.closingRows lines blocks generalizing body with
  | case1 lines outer ih =>
      refine ih ?_ isBody.stop
      rw [Array.toList_push, whole, List.append_assoc]
  | case2 lines blocks _ => exact ⟨body, whole, isBody⟩

/-- Closing a page completes its body. -/
theorem closePage (opened : Opened settings canvas) : Laid settings (canvas.closePage ending) := by
  rcases opened with ⟨-, title, body, lines, isBody⟩
  rcases closingLines_spec lines isBody with ⟨complete, closed, isComplete⟩
  have placement := toList_placeAll canvas.closeBlocks (ending.map fun line => (0, line))
  have whole : (canvas.closePage ending).lines.toList =
      placed (opening settings title) ++ (complete ++ endingLines) := by
    rw [← List.append_assoc, ← closed]
    exact placement.1
  exact .closed rfl placement.2.1 whole isComplete

theorem closeRows (opened : Opened settings canvas) : Opened settings canvas.closeRows := by
  rcases opened with ⟨stage, title, body, lines, isBody⟩
  rcases closingRows_spec lines isBody with ⟨later, closed, isLater⟩
  exact ⟨stage, title, later, closed, isLater⟩

theorem withoutRow (opened : Opened settings canvas) : Opened settings (Page.withoutRow canvas) := by
  unfold Page.withoutRow
  split
  · cases closes : canvas.closeBlock? with
    | none => exact opened
    | some closed => exact opened.closeBlock closes
  · exact opened

theorem withRow (opened : Opened settings canvas) : Opened settings (Page.withRow canvas) := by
  unfold Page.withRow
  split
  case isTrue inTable => exact opened.openBlock nofun fun _ => inTable
  case isFalse => exact opened

end Opened

/-! ## Commands -/

/-- Headings have two levels. -/
theorem level_of_ofKey? {key : String} {level : Nat}
    (found : Instruction.ofKey? key = some (.content (.heading level))) : level = 1 ∨ level = 2 := by
  have levels : vocabulary.all (fun entry => match entry.2 with
      | .content (.heading level) => level == 1 || level == 2
      | _ => true) = true := by decide
  rcases List.lookup_eq_some_iff.mp found with ⟨front, back, whole, -⟩
  have member : (key, Instruction.content (.heading level)) ∈ vocabulary := by
    rw [whole]
    exact List.mem_append_right front List.mem_cons_self
  simpa only [Bool.or_eq_true, beq_iff_eq] using List.all_eq_true.mp levels _ member

namespace Opened

variable {settings : Settings} {page : Page}

/-- A line with a text inside that may stand anywhere. -/
theorem writeElement (opened : Opened settings page.canvas) {name : String}
    {attributes : List Attribute} (content : String) (listed : name ∈ inlineElements)
    (anywhere : name ≠ "li" ∧ name ≠ "td") (plain : ∀ given ∈ attributes, IsPlain given.name) :
    Opened settings (page.writeLine (Fragment.element name attributes content)).state.canvas :=
  opened.write (.element listed plain (fun item => absurd item anywhere.1)
    fun cell => absurd cell anywhere.2)

theorem styleOverride (opened : Opened settings page.canvas) (declaration : String) :
    Opened settings (page.styleOverride declaration).state.canvas := by
  unfold Page.styleOverride
  split
  case isTrue => exact opened
  case isFalse harmless =>
      refine opened.write (.style ?_)
      have bracketFree : '<' ∉ declaration.toList :=
        fun member => harmless (List.contains_iff_mem.mpr member)
      simp [bracketFree]

theorem listItem (opened : Opened settings page.canvas) (text : String) :
    Opened settings (page.listItem text).state.canvas := by
  unfold Page.listItem
  split
  case isTrue inList =>
      exact opened.write (.element (by decide) nofun (fun _ => inList)
        fun cell => absurd cell (by decide))
  case isFalse => exact opened

theorem tableRow (opened : Opened settings page.canvas) :
    Opened settings page.tableRow.state.canvas := by
  unfold Page.tableRow
  dsimp only
  split
  · exact opened.withoutRow.withRow
  · exact opened.withoutRow

theorem tableCell (opened : Opened settings page.canvas) (text : String) :
    Opened settings (page.tableCell text).state.canvas := by
  unfold Page.tableCell
  dsimp only
  split
  case isTrue inRow =>
      exact opened.withRow.write (.element (by decide) nofun
        (fun item => absurd item (by decide)) fun _ => inRow)
  case isFalse => exact opened

theorem input (opened : Opened settings page.canvas) (kind : String) (command : Command) :
    Opened settings (page.input kind command).state.canvas :=
  opened.write (.void (by decide)
    (plain_optional (plain_of_names ["type", "name", "class"] rfl (by decide)) (by decide) _))

theorem checkbox (opened : Opened settings page.canvas) (name : String) (label : Option String) :
    Opened settings (page.checkbox name label).state.canvas := by
  have box : Opened settings (page.canvas.write [.start "input" [⟨"type", "checkbox"⟩,
      ⟨"id", "wahy-checkbox-" ++ toString (page.checkboxes + 1)⟩, ⟨"name", name⟩]]) :=
    opened.write (.void (by decide) (plain_of_names ["type", "id", "name"] rfl (by decide)))
  cases label with
  | none => exact box
  | some text =>
      exact box.write (.element (by decide) (plain_of_names ["for"] rfl (by decide))
        (fun item => absurd item (by decide)) fun cell => absurd cell (by decide))

/-- Content keeps a body a body. -/
theorem add (opened : Opened settings page.canvas) (command : Command) {key : String}
    {content : Content} (found : Instruction.ofKey? key = some (.content content)) :
    Opened settings (page.add command content).state.canvas := by
  cases content <;> dsimp only [Page.add]
  case heading level =>
      rcases level_of_ofKey? found with first | second
      · subst first
        exact opened.writeElement _ (by decide) (by decide) nofun
      · subst second
        exact opened.writeElement _ (by decide) (by decide) nofun
  case paragraph => exact opened.writeElement _ (by decide) (by decide) nofun
  case link =>
      exact opened.writeElement _ (by decide) (by decide)
        (plain_of_names ["href", "target"] rfl (by decide))
  case image =>
      exact opened.write (.void (by decide) (plain_of_names ["src", "alt"] rfl (by decide)))
  case button =>
      exact opened.writeElement _ (by decide) (by decide)
        (plain_optional (plain_of_names ["class"] rfl (by decide)) (by decide) _)
  case text => exact opened.writeElement _ (by decide) (by decide) nofun
  case backgroundColor => exact opened.styleOverride _
  case textColor => exact opened.styleOverride _
  case font => exact opened.styleOverride _
  case startBulletList => exact opened.openBlock nofun nofun
  case startNumberedList => exact opened.openBlock nofun nofun
  case listItem => exact opened.listItem _
  case startSection => exact opened.openBlock (plain_of_names ["class"] rfl (by decide)) nofun
  case horizontalRule => exact opened.write (.void (by decide) nofun)
  case space => exact opened.write (.void (by decide) nofun)
  case textInput => exact opened.input _ command
  case passwordInput => exact opened.input _ command
  case checkbox => exact opened.checkbox _ _
  case startTable => exact opened.openBlock nofun nofun
  case tableRow => exact opened.tableRow
  case tableCell => exact opened.tableCell _

end Opened

/-! ## Calls -/

theorem closeRows_of_empty {canvas : Canvas} (empty : canvas.blocks = []) :
    canvas.closeRows = canvas := by
  cases canvas
  cases empty
  rfl

namespace Laid

variable {settings : Settings} {canvas : Canvas}

theorem eq_empty (laid : Laid settings canvas) (stage : canvas.stage = .unopened) : canvas = {} := by
  cases laid with
  | unopened => rfl
  | opened opened => rw [opened.stage] at stage; cases stage
  | closed closed => rw [closed] at stage; cases stage

theorem isOpened (laid : Laid settings canvas) (stage : canvas.stage = .opened) :
    Opened settings canvas := by
  cases laid with
  | unopened => cases stage
  | opened opened => exact opened
  | closed closed => rw [closed] at stage; cases stage

theorem blocks_of_closed (laid : Laid settings canvas) (stage : canvas.stage = .closed) :
    canvas.blocks = [] := by
  cases laid with
  | unopened => rfl
  | opened opened => rw [opened.stage] at stage; cases stage
  | closed _ empty => exact empty

/-- Blocks are open on an open page only. -/
theorem isOpened_of_blocks (laid : Laid settings canvas) {block : Block} {outer : List Block}
    (blocks : canvas.blocks = block :: outer) : Opened settings canvas := by
  cases laid with
  | unopened => cases blocks
  | opened opened => exact opened
  | closed _ empty => rw [empty] at blocks; cases blocks

theorem rowsInTables (laid : Laid settings canvas) : RowsInTables canvas.blocks := by
  cases laid with
  | unopened => exact True.intro
  | opened opened => exact opened.rowsInTables
  | closed _ empty =>
      rw [empty]
      exact True.intro

theorem closeRows (laid : Laid settings canvas) : Laid settings canvas.closeRows := by
  cases blocks : canvas.blocks with
  | nil =>
      rw [closeRows_of_empty blocks]
      exact laid
  | cons block outer => exact .opened (laid.isOpened_of_blocks blocks).closeRows

variable {page : Page}

/-- A page that is begun is open, with an empty body. -/
theorem begin (laid : Laid settings page.canvas) (stage : page.canvas.stage = .unopened)
    (title : String) : Opened settings (page.begin settings title).canvas := by
  rw [Page.begin, laid.eq_empty stage]
  exact Opened.ofOpening settings title

theorem openPage (laid : Laid settings page.canvas) (title : String) :
    Laid settings (page.openPage settings title).state.canvas := by
  unfold Page.openPage
  split
  case h_1 stage => exact .opened (laid.begin stage title)
  all_goals exact laid

theorem closePage (laid : Laid settings page.canvas) : Laid settings page.closePage.state.canvas := by
  unfold Page.closePage
  split
  case h_2 stage => exact (laid.isOpened stage).closePage
  all_goals exact laid

theorem endBlock (laid : Laid settings page.canvas) (construct : String) :
    Laid settings (page.endBlock construct).state.canvas := by
  unfold Page.endBlock
  split
  case h_1 closed closes =>
      cases blocks : page.canvas.blocks with
      | nil =>
          rw [Canvas.closeBlock?, blocks] at closes
          cases closes
      | cons block outer => exact .opened ((laid.isOpened_of_blocks blocks).closeBlock closes)
  case h_2 => exact laid

/-- Every command keeps a page laid out, also one that fails. -/
theorem execute (laid : Laid settings page.canvas) (command : Command) :
    Laid settings (page.execute settings command).state.canvas := by
  unfold Page.execute
  split
  case h_1 => exact laid
  case h_2 => exact laid.openPage _
  case h_3 => exact laid.closePage
  case h_4 => exact laid.endBlock _
  case h_5 => exact laid.endBlock _
  case h_6 => exact laid.closeRows.endBlock _
  case h_7 content found =>
      split
      case h_1 stage => exact .opened ((laid.begin stage _).add command found)
      case h_2 stage => exact .opened ((laid.isOpened stage).add command found)
      case h_3 => exact laid

end Laid

/-- Every page that calls can lead to is laid out. -/
theorem laid_of_reachable {settings : Settings} {page : Page}
    (reachable : (generator settings).Reachable Generator.noMove page) :
    Laid settings page.canvas := by
  induction reachable with
  | initial => exact .unopened
  | execute _ command ih => exact ih.execute command
  | finish => exact .unopened
  | move _ moved => exact moved.elim

/-! ## Finished pages -/

/-- The text of a page with the given title and body. -/
def text (settings : Settings) (title : String) (body : List Line) : String :=
  Text.Indented.renderAll Fragment.renderLine
    (placed (opening settings title) ++ (body ++ endingLines)).toArray

/-- A closed page holds a complete body. -/
theorem Laid.render_closed {settings : Settings} {canvas : Canvas} (laid : Laid settings canvas)
    (stage : canvas.stage = .closed) :
    ∃ title body, Body body [] ∧
      canvas.lines.toList = placed (opening settings title) ++ (body ++ endingLines) ∧
      canvas.render = text settings title body := by
  cases laid with
  | unopened => cases stage
  | opened opened => rw [opened.stage] at stage; cases stage
  | @closed _ title body _ _ lines complete =>
      refine ⟨title, body, complete, lines, ?_⟩
      rw [text, ← lines, Canvas.render, Array.toArray_toList]

/-- The text of a page is empty, or a complete body in its frame. -/
theorem output_finish {settings : Settings} {page : Page} (laid : Laid settings page.canvas) :
    page.finish.output = .ok "" ∨
      ∃ title body, Body body [] ∧ page.finish.output = .ok (text settings title body) := by
  unfold Page.finish
  dsimp only
  split
  case h_1 stage =>
      rcases (laid.isOpened stage).closePage.render_closed rfl with
        ⟨title, body, complete, _, written⟩
      exact Or.inr ⟨title, body, complete, congrArg Except.ok written⟩
  case h_2 stage =>
      rw [laid.eq_empty stage]
      exact Or.inl rfl
  case h_3 stage =>
      rcases laid.render_closed stage with ⟨title, body, complete, _, written⟩
      exact Or.inr ⟨title, body, complete, congrArg Except.ok written⟩

end Page
end Pagewright
