import Pagewright.Proofs.Document
import Pagewright.Proofs.Text.Literal

namespace Pagewright
namespace Page

open Markup (Fragment Attribute Tag)
open Generator (SameStep)

/-!
# Text does not change the skeleton of a page

Two pages are compared whose commands differ in their texts only.  Each page is
seen as its stage, its open blocks and its outline, which is the sequence of
its tags without attribute values.  No command looks at anything else of a
page, so two pages that agree in this view stay in agreement, and they answer
every command in the same way.

What a command looks at in its arguments is little: whether an argument is
there and not empty, and for the overrides of the style of the body whether it
holds an opening bracket.  `Similar` requires no more than that.
-/

/-! ## Outlines -/

/-- The tags on some lines. -/
def tagsOf (lines : List Line) : List Tag :=
  lines.flatMap fun line => Fragment.tags line.content

/-- The tags of a line without the values of their attributes. -/
def outline (content : List Fragment) : List Tag :=
  (Fragment.tags content).map Tag.skeleton

/-- The tags on some lines without the values of their attributes. -/
def outlineOf (lines : List Line) : List Tag :=
  (tagsOf lines).map Tag.skeleton

theorem tagsOf_append (front back : List Line) :
    tagsOf (front ++ back) = tagsOf front ++ tagsOf back :=
  List.flatMap_append

theorem outlineOf_append (front back : List Line) :
    outlineOf (front ++ back) = outlineOf front ++ outlineOf back := by
  rw [outlineOf, tagsOf_append, List.map_append]
  rfl

theorem outlineOf_push (lines : Array Line) (depth : Nat) (content : List Fragment) :
    outlineOf (lines.push ⟨depth, content⟩).toList = outlineOf lines.toList ++ outline content := by
  rw [Array.toList_push, outlineOf_append]
  exact congrArg (outlineOf lines.toList ++ List.map Tag.skeleton ·) (List.append_nil _)

/-- The outline of a start tag depends on the names of its attributes only. -/
theorem outline_start (name : String) {left right : List Attribute}
    (names : left.map Attribute.name = right.map Attribute.name) :
    outline [.start name left] = outline [.start name right] := by
  have erased : ∀ attributes : List Attribute, outline [.start name attributes] =
      [.opening name ((attributes.map Attribute.name).map fun given => (given, ""))] := by
    intro attributes
    rw [outline, List.map_map]
    exact congrArg (fun given => [Tag.opening name given]) (List.map_map ..)
  rw [erased, erased, names]

theorem outline_element (name leftText rightText : String) {left right : List Attribute}
    (names : left.map Attribute.name = right.map Attribute.name) :
    outline (Fragment.element name left leftText) = outline (Fragment.element name right rightText) :=
  congrArg (· ++ [Tag.closing name]) (outline_start name names)

/-! ## Canvases -/

/-- Canvases that differ in texts and attribute values only. -/
structure SameOutline (left right : Canvas) : Prop where
  stage : left.stage = right.stage
  blocks : left.blocks = right.blocks
  outline : outlineOf left.lines.toList = outlineOf right.lines.toList

namespace SameOutline

variable {left right : Canvas}

theorem top (same : SameOutline left right) : left.top? = right.top? :=
  congrArg List.head? same.blocks

theorem write (same : SameOutline left right) {leftLine rightLine : List Fragment}
    (lines : Page.outline leftLine = Page.outline rightLine) :
    SameOutline (left.write leftLine) (right.write rightLine) := by
  refine ⟨same.stage, same.blocks, ?_⟩
  rw [Canvas.write, Canvas.place, outlineOf_push, Canvas.write, Canvas.place, outlineOf_push,
    same.outline, lines]

theorem placeAll (same : SameOutline left right) {leftLines rightLines : List (Nat × List Fragment)}
    (lines : outlineOf (placed leftLines) = outlineOf (placed rightLines)) :
    SameOutline (left.placeAll leftLines) (right.placeAll rightLines) := by
  rcases toList_placeAll left leftLines with ⟨leftWritten, leftBlocks, leftStage⟩
  rcases toList_placeAll right rightLines with ⟨rightWritten, rightBlocks, rightStage⟩
  refine ⟨?_, ?_, ?_⟩
  · rw [leftStage, rightStage, same.stage]
  · rw [leftBlocks, rightBlocks, same.blocks]
  · rw [leftWritten, rightWritten, outlineOf_append, outlineOf_append, same.outline, lines]

theorem openBlock (same : SameOutline left right) (block : Block) {leftLine rightLine : List Fragment}
    (lines : Page.outline leftLine = Page.outline rightLine) :
    SameOutline (left.openBlock block leftLine) (right.openBlock block rightLine) :=
  ⟨same.stage, congrArg (block :: ·) same.blocks, (same.write lines).outline⟩

theorem closeBlock (same : SameOutline left right) :
    Option.Rel SameOutline left.closeBlock? right.closeBlock? := by
  unfold Canvas.closeBlock?
  rw [← same.blocks]
  cases left.blocks with
  | nil => exact .none
  | cons block outer =>
      have inner : SameOutline { left with blocks := outer } { right with blocks := outer } :=
        ⟨same.stage, rfl, same.outline⟩
      exact .some (inner.write rfl)

private theorem closingRows (blocks : List Block) {left right : Array Line}
    (same : outlineOf left.toList = outlineOf right.toList) :
    (Canvas.closingRows left blocks).2 = (Canvas.closingRows right blocks).2 ∧
      outlineOf (Canvas.closingRows left blocks).1.toList =
        outlineOf (Canvas.closingRows right blocks).1.toList := by
  induction blocks generalizing left right with
  | nil => exact ⟨rfl, same⟩
  | cons block outer ih =>
      cases block with
      | row =>
          apply ih
          rw [outlineOf_push, outlineOf_push, same]
      | _ => exact ⟨rfl, same⟩

private theorem closingLines (blocks : List Block) {left right : Array Line}
    (same : outlineOf left.toList = outlineOf right.toList) :
    outlineOf (Canvas.closingLines left blocks).toList =
      outlineOf (Canvas.closingLines right blocks).toList := by
  induction blocks generalizing left right with
  | nil => exact same
  | cons block outer ih =>
      apply ih
      rw [outlineOf_push, outlineOf_push, same]

theorem closeRows (same : SameOutline left right) : SameOutline left.closeRows right.closeRows := by
  rcases closingRows left.blocks same.outline with ⟨blocks, lines⟩
  unfold Canvas.closeRows
  rw [← same.blocks]
  exact ⟨same.stage, blocks, lines⟩

theorem closePage (same : SameOutline left right) (ending : List (List Fragment)) :
    SameOutline (left.closePage ending) (right.closePage ending) := by
  have closed : SameOutline left.closeBlocks right.closeBlocks := by
    refine ⟨same.stage, rfl, ?_⟩
    rw [Canvas.closeBlocks, Canvas.closeBlocks, ← same.blocks]
    exact closingLines left.blocks same.outline
  have placed := closed.placeAll
    (rfl : outlineOf (Page.placed (ending.map fun line => (0, line))) = _)
  exact ⟨rfl, placed.blocks, placed.outline⟩

theorem withoutRow (same : SameOutline left right) :
    SameOutline (Page.withoutRow left) (Page.withoutRow right) := by
  have closed := same.closeBlock
  unfold Page.withoutRow
  rw [← same.top]
  split
  · generalize left.closeBlock? = leftClosed, right.closeBlock? = rightClosed at closed ⊢
    cases closed with
    | none => exact same
    | some closed => exact closed
  · exact same

theorem withRow (same : SameOutline left right) :
    SameOutline (Page.withRow left) (Page.withRow right) := by
  unfold Page.withRow
  rw [← same.top]
  split
  · exact same.openBlock .row rfl
  · exact same

end SameOutline

/-! ## Commands -/

/-- Does a command override the style of the body? -/
def Instruction.isOverride : Instruction → Bool
  | .content .backgroundColor | .content .textColor | .content .font => true
  | _ => false

/-- Does the first argument hold an opening bracket? -/
def holdsBracket (command : Command) : Bool :=
  (command.argument? 0).any fun text => text.toList.contains '<'

/-- Commands that differ in the texts of their arguments only, and not in which
of them are empty.  Overrides of the style of the body agree in whether their
first argument holds an opening bracket. -/
structure Similar (left right : Command) : Prop where
  key : left.key = right.key
  words : List.Forall₂ (fun leftWord rightWord : Word => leftWord.text = "" ↔ rightWord.text = "")
    left.words right.words
  brackets : (Instruction.ofKey? left.key).any Instruction.isOverride = true →
    holdsBracket left = holdsBracket right

namespace Similar

variable {left right : Command}

/-- Similar commands have the same arguments that are not empty. -/
theorem isSome_nonemptyArgument? (similar : Similar left right) (index : Nat) :
    (left.nonemptyArgument? index).isSome = (right.nonemptyArgument? index).isSome := by
  unfold Command.nonemptyArgument? Command.argument?
  rw [Option.isSome_filter, Option.isSome_filter]
  have words := similar.words
  generalize left.words = leftWords, right.words = rightWords at words ⊢
  induction words generalizing index with
  | nil => rfl
  | @cons leftWord rightWord leftRest rightRest same _ ih =>
      cases index with
      | zero =>
          have empty : leftWord.text.isEmpty = rightWord.text.isEmpty := by
            rw [Bool.eq_iff_iff, String.isEmpty_iff, String.isEmpty_iff]
            exact same
          exact congrArg Bool.not empty
      | succ earlier => exact ih earlier

theorem optional_names (similar : Similar left right) (name : String) (index : Nat) :
    (optional name (left.nonemptyArgument? index)).map Attribute.name =
      (optional name (right.nonemptyArgument? index)).map Attribute.name := by
  have isSome := similar.isSome_nonemptyArgument? index
  generalize left.nonemptyArgument? index = leftValue, right.nonemptyArgument? index = rightValue
    at isSome ⊢
  cases leftValue with
  | none =>
      cases rightValue with
      | none => rfl
      | some => cases isSome
  | some =>
      cases rightValue with
      | none => cases isSome
      | some => rfl

end Similar

/-- A default without brackets adds none. -/
theorem contains_argumentD (command : Command) {default : String}
    (bracketFree : default.toList.contains '<' = false) :
    (command.argumentD 0 default).toList.contains '<' = holdsBracket command := by
  unfold Command.argumentD Command.nonemptyArgument? holdsBracket
  cases command.argument? 0 with
  | none => exact bracketFree
  | some text =>
      by_cases empty : text.isEmpty = true
      · have blank := String.isEmpty_iff.mp empty
        subst blank
        exact bracketFree
      · simp [Option.filter, empty]

/-- A declaration holds a bracket only if its value does. -/
theorem contains_framed {front back : String} (frontFree : '<' ∉ front.toList)
    (backFree : '<' ∉ back.toList) (text : String) :
    (front ++ text ++ back).toList.contains '<' = text.toList.contains '<' := by
  rw [Bool.eq_iff_iff, List.contains_iff_mem, List.contains_iff_mem]
  simp [frontFree, backFree]

/-- Quoting adds no bracket and loses none. -/
theorem contains_singleQuoted (text : String) :
    (Text.singleQuoted text).toList.contains '<' = text.toList.contains '<' := by
  rw [Bool.eq_iff_iff, List.contains_iff_mem, List.contains_iff_mem]
  exact Text.mem_singleQuoted (by decide) (by decide) text

/-- Pages that differ in texts and attribute values only. -/
def Alike (left right : Page) : Prop :=
  SameOutline left.canvas right.canvas

namespace Alike

variable {left right : Page}

theorem warn (same : Alike left right) (message : String) :
    SameStep Alike (left.warn message) (right.warn message) :=
  ⟨same, rfl, rfl⟩

theorem writeLine (same : Alike left right) {leftLine rightLine : List Fragment}
    (lines : outline leftLine = outline rightLine) :
    SameStep Alike (left.writeLine leftLine) (right.writeLine rightLine) :=
  ⟨SameOutline.write same lines, rfl, rfl⟩

theorem startBlock (same : Alike left right) (block : Block) {leftGiven rightGiven : List Attribute}
    (names : leftGiven.map Attribute.name = rightGiven.map Attribute.name) :
    SameStep Alike (left.startBlock block leftGiven) (right.startBlock block rightGiven) :=
  ⟨SameOutline.openBlock same block (outline_start block.element names), rfl, rfl⟩

theorem styleOverride (same : Alike left right) {leftDeclaration rightDeclaration : String}
    (brackets : leftDeclaration.toList.contains '<' = rightDeclaration.toList.contains '<') :
    SameStep Alike (left.styleOverride leftDeclaration) (right.styleOverride rightDeclaration) := by
  unfold Page.styleOverride
  rw [← brackets]
  split
  · exact same.warn _
  · exact same.writeLine rfl

theorem listItem (same : Alike left right) (leftText rightText : String) :
    SameStep Alike (left.listItem leftText) (right.listItem rightText) := by
  unfold Page.listItem
  rw [← SameOutline.top same]
  split
  · exact same.writeLine rfl
  · exact same.warn _

theorem tableRow (same : Alike left right) : SameStep Alike left.tableRow right.tableRow := by
  have without := SameOutline.withoutRow same
  unfold Page.tableRow
  dsimp only
  rw [← without.top]
  split
  · exact ⟨without.withRow, rfl, rfl⟩
  · exact ⟨without, rfl, rfl⟩

theorem tableCell (same : Alike left right) (leftText rightText : String) :
    SameStep Alike (left.tableCell leftText) (right.tableCell rightText) := by
  have inRow := SameOutline.withRow same
  unfold Page.tableCell
  dsimp only
  rw [← inRow.top]
  split
  · exact ⟨inRow.write rfl, rfl, rfl⟩
  · exact same.warn _

theorem checkbox (same : Alike left right) (leftName rightName : String)
    {leftLabel rightLabel : Option String} (labels : leftLabel.isSome = rightLabel.isSome) :
    SameStep Alike (left.checkbox leftName leftLabel) (right.checkbox rightName rightLabel) := by
  have box : SameOutline (left.canvas.write [.start "input" [⟨"type", "checkbox"⟩,
        ⟨"id", "wahy-checkbox-" ++ toString (left.checkboxes + 1)⟩, ⟨"name", leftName⟩]])
      (right.canvas.write [.start "input" [⟨"type", "checkbox"⟩,
        ⟨"id", "wahy-checkbox-" ++ toString (right.checkboxes + 1)⟩, ⟨"name", rightName⟩]]) := by
    apply SameOutline.write same
    apply outline_start
    simp only [List.map_cons, List.map_nil]
  cases leftLabel with
  | none =>
      cases rightLabel with
      | none => exact ⟨box, rfl, rfl⟩
      | some => cases labels
  | some leftText =>
      cases rightLabel with
      | none => cases labels
      | some rightText =>
          refine ⟨box.write (outline_element "label" leftText rightText ?_), rfl, rfl⟩
          simp only [List.map_cons, List.map_nil]

/-- Content with other texts adds the same tags. -/
theorem add (same : Alike left right) {leftCommand rightCommand : Command}
    (similar : Similar leftCommand rightCommand) {content : Content}
    (found : Instruction.ofKey? leftCommand.key = some (.content content)) :
    SameStep Alike (left.add leftCommand content) (right.add rightCommand content) := by
  have brackets := similar.brackets
  rw [found] at brackets
  cases content with
  | heading => exact same.writeLine rfl
  | paragraph => exact same.writeLine rfl
  | link => exact same.writeLine rfl
  | image => exact same.writeLine rfl
  | button =>
      apply same.writeLine
      apply outline_element
      exact congrArg ("class" :: ·) (similar.optional_names "onclick" 1)
  | text => exact same.writeLine rfl
  | backgroundColor =>
      apply same.styleOverride
      rw [contains_framed (by decide) (by decide), contains_framed (by decide) (by decide),
        contains_argumentD leftCommand (by decide), contains_argumentD rightCommand (by decide)]
      exact brackets rfl
  | textColor =>
      apply same.styleOverride
      rw [contains_framed (by decide) (by decide), contains_framed (by decide) (by decide),
        contains_argumentD leftCommand (by decide), contains_argumentD rightCommand (by decide)]
      exact brackets rfl
  | font =>
      apply same.styleOverride
      rw [contains_framed (by decide) (by decide), contains_framed (by decide) (by decide),
        contains_singleQuoted, contains_singleQuoted,
        contains_argumentD leftCommand (by decide), contains_argumentD rightCommand (by decide)]
      exact brackets rfl
  | startBulletList => exact same.startBlock _ rfl
  | startNumberedList => exact same.startBlock _ rfl
  | listItem => exact same.listItem _ _
  | startSection => exact same.startBlock _ rfl
  | horizontalRule => exact same.writeLine rfl
  | space => exact same.writeLine rfl
  | textInput =>
      apply same.writeLine
      apply outline_start
      exact congrArg (["type", "name", "class"] ++ ·) (similar.optional_names "placeholder" 1)
  | passwordInput =>
      apply same.writeLine
      apply outline_start
      exact congrArg (["type", "name", "class"] ++ ·) (similar.optional_names "placeholder" 1)
  | checkbox => exact same.checkbox _ _ (similar.isSome_nonemptyArgument? 1)
  | startTable => exact same.startBlock _ rfl
  | tableRow => exact same.tableRow
  | tableCell => exact same.tableCell _ _

/-! ## Calls -/

/-- The frame of a page has the same tags for every title, as long as the base
stylesheet is attached in the same way. -/
theorem outlineOf_opening {leftSettings rightSettings : Settings}
    (mode : leftSettings.stylesheet = rightSettings.stylesheet) (leftTitle rightTitle : String) :
    outlineOf (placed (opening leftSettings leftTitle)) =
      outlineOf (placed (opening rightSettings rightTitle)) := by
  have base : outlineOf (placed (baseStylesheet leftSettings)) =
      outlineOf (placed (baseStylesheet rightSettings)) := by
    unfold baseStylesheet
    rw [← mode]
    cases leftSettings.stylesheet with
    | inline => rfl
    | external => rfl
  have preamble : outlineOf (placed (preamble leftTitle)) =
      outlineOf (placed (preamble rightTitle)) := rfl
  rw [opening, opening, Document.placed_append, Document.placed_append, Document.placed_append,
    Document.placed_append, outlineOf_append, outlineOf_append, outlineOf_append, outlineOf_append,
    preamble, base]

variable {leftSettings rightSettings : Settings}

theorem begin (same : Alike left right) (mode : leftSettings.stylesheet = rightSettings.stylesheet)
    (leftTitle rightTitle : String) :
    Alike (left.begin leftSettings leftTitle) (right.begin rightSettings rightTitle) := by
  have placed := SameOutline.placeAll same (outlineOf_opening mode leftTitle rightTitle)
  exact ⟨rfl, placed.blocks, placed.outline⟩

theorem openPage (same : Alike left right) (mode : leftSettings.stylesheet = rightSettings.stylesheet)
    (leftTitle rightTitle : String) :
    SameStep Alike (left.openPage leftSettings leftTitle)
      (right.openPage rightSettings rightTitle) := by
  unfold Page.openPage
  rw [← SameOutline.stage same]
  cases left.canvas.stage with
  | unopened => exact ⟨same.begin mode leftTitle rightTitle, rfl, rfl⟩
  | opened => exact same.warn _
  | closed => exact same.warn _

theorem conclude (same : Alike left right) : Alike left.conclude right.conclude :=
  SameOutline.closePage same ending

theorem closePage (same : Alike left right) : SameStep Alike left.closePage right.closePage := by
  unfold Page.closePage
  rw [← SameOutline.stage same]
  cases left.canvas.stage with
  | unopened => exact same.warn _
  | opened => exact ⟨same.conclude, rfl, rfl⟩
  | closed => exact same.warn _

theorem endBlock (same : Alike left right) (construct : String) :
    SameStep Alike (left.endBlock construct) (right.endBlock construct) := by
  have closed := SameOutline.closeBlock same
  unfold Page.endBlock
  generalize left.canvas.closeBlock? = leftClosed, right.canvas.closeBlock? = rightClosed at closed ⊢
  cases closed with
  | none => exact ⟨same, rfl, rfl⟩
  | some closed => exact ⟨closed, rfl, rfl⟩

theorem endTable (same : Alike left right) : SameStep Alike left.endTable right.endTable := by
  have rowless : Alike { left with canvas := left.canvas.closeRows }
      { right with canvas := right.canvas.closeRows } := SameOutline.closeRows same
  exact rowless.endBlock "table"

/-- Similar commands are answered in the same way. -/
theorem execute (same : Alike left right) (mode : leftSettings.stylesheet = rightSettings.stylesheet)
    {leftCommand rightCommand : Command} (similar : Similar leftCommand rightCommand) :
    SameStep Alike (left.execute leftSettings leftCommand)
      (right.execute rightSettings rightCommand) := by
  unfold Page.execute
  rw [← similar.key, ← SameOutline.stage same]
  cases found : Instruction.ofKey? leftCommand.key with
  | none => exact ⟨same, rfl, rfl⟩
  | some instruction =>
      cases instruction with
      | openPage => exact same.openPage mode _ _
      | closePage => exact same.closePage
      | endList => exact same.endBlock _
      | endSection => exact same.endBlock _
      | endTable => exact same.endTable
      | content content =>
          cases left.canvas.stage with
          | unopened => exact (same.begin mode _ _).add similar found
          | opened => exact same.add similar found
          | closed => exact ⟨same, rfl, rfl⟩

end Alike

/-! ## Finished pages -/

theorem tags_laidOut (lines : List Line) : Fragment.tags (laidOut lines) = tagsOf lines := by
  induction lines with
  | nil => rfl
  | cons line others ih =>
      rw [← List.singleton_append, laidOut_append, Fragment.tags_append, tags_line, ih]
      rfl

/-- The tags of a document are those on the lines of its page. -/
theorem tagsOf_page (settings : Settings) (title : String) (body : List Line) :
    tagsOf (placed (opening settings title) ++ (body ++ endingLines)) =
      Fragment.tags (Document.headOf title (baseStylesheet settings)) ++
        .closing "head" :: Fragment.tags (Document.bodyOf body) ++
          [.closing "body", .closing "html"] := by
  have preamble : tagsOf (placed (preamble title)) = Document.titleTags := rfl
  have headEnd : tagsOf (placed headEnd) = [.closing "head", .opening "body" []] := rfl
  have ending : tagsOf endingLines = [.closing "body", .closing "html"] := rfl
  have bodyTags : Fragment.tags (Document.bodyOf body) = .opening "body" [] :: tagsOf body := by
    rw [Document.bodyOf, Fragment.tags_cons, Fragment.tags_cons, Fragment.tags_append, tags_laidOut]
    exact congrArg (Tag.opening "body" [] :: ·) (List.append_nil _)
  rw [opening, Document.placed_append, Document.placed_append, tagsOf_append, tagsOf_append,
    tagsOf_append, tagsOf_append, preamble, headEnd, ending, Document.tags_headOf, tags_laidOut,
    bodyTags]
  simp only [List.append_assoc, List.cons_append, List.nil_append]

/-- A page to which nothing is being added is read as the tags on its lines. -/
theorem Laid.scan_render {settings : Settings} {canvas : Canvas} (laid : Laid settings canvas)
    (done : canvas.stage ≠ .opened) :
    Markup.scan canvas.render = some (tagsOf canvas.lines.toList) := by
  cases stage : canvas.stage with
  | unopened =>
      rw [laid.eq_empty stage]
      rfl
  | opened => exact absurd stage done
  | closed =>
      rcases laid.render_closed stage with ⟨title, body, complete, lines, written⟩
      have framed := Document.framed_page settings title complete
      rw [written, Document.text_eq_assembled, framed.scan_assembled, lines, tagsOf_page,
        Document.blockTags, Document.blockTags, List.append_nil, List.append_nil]

/-- Texts that can be read, with the same tags up to the values of
attributes. -/
def SameSkeleton (left right : String) : Prop :=
  ∃ leftTags rightTags, Markup.scan left = some leftTags ∧ Markup.scan right = some rightTags ∧
    leftTags.map Tag.skeleton = rightTags.map Tag.skeleton

/-- Pages in two runs that stay in step. -/
structure Twins (leftSettings rightSettings : Settings) (left right : Page) : Prop where
  leftLaid : Laid leftSettings left.canvas
  rightLaid : Laid rightSettings right.canvas
  alike : Alike left right

namespace Twins

variable {leftSettings rightSettings : Settings} {left right : Page}

theorem render (twins : Twins leftSettings rightSettings left right)
    (done : left.canvas.stage ≠ .opened) : SameSkeleton left.canvas.render right.canvas.render := by
  have alsoDone : right.canvas.stage ≠ .opened := by
    rw [← SameOutline.stage twins.alike]
    exact done
  exact ⟨_, _, twins.leftLaid.scan_render done, twins.rightLaid.scan_render alsoDone,
    SameOutline.outline twins.alike⟩

theorem finish (twins : Twins leftSettings rightSettings left right) :
    Generator.SameFinish SameSkeleton left.finish right.finish := by
  refine ⟨rfl, _, _, rfl, rfl, ?_⟩
  rw [← SameOutline.stage twins.alike]
  cases stage : left.canvas.stage with
  | unopened => exact twins.render (by rw [stage]; nofun)
  | opened =>
      have alsoOpened : right.canvas.stage = .opened := by
        rw [← SameOutline.stage twins.alike]
        exact stage
      have concluded : Twins leftSettings rightSettings left.conclude right.conclude :=
        ⟨(twins.leftLaid.isOpened stage).closePage, (twins.rightLaid.isOpened alsoOpened).closePage,
          twins.alike.conclude⟩
      exact concluded.render nofun
  | closed => exact twins.render (by rw [stage]; nofun)

end Twins

/-- Generators of pages that attach the base stylesheet in the same way stay in
step on similar commands. -/
theorem inStep_generator {leftSettings rightSettings : Settings}
    (mode : leftSettings.stylesheet = rightSettings.stylesheet) :
    Generator.InStep (generator leftSettings) (generator rightSettings)
      (Twins leftSettings rightSettings) Similar SameSkeleton where
  target := rfl
  initial := ⟨.unopened, .unopened, ⟨rfl, rfl, rfl⟩⟩
  key := Similar.key
  execute := by
    intro left right twins leftCommand rightCommand similar
    have step := twins.alike.execute mode similar
    exact ⟨⟨twins.leftLaid.execute leftCommand, twins.rightLaid.execute rightCommand, step.state⟩,
      step.warnings, step.verdict⟩
  finish := Twins.finish

/-- Texts cannot change the structure of a page.  Commands that differ in texts
only get the same answers one by one, and lead to pages with the same tags;
runs over lines with such commands report the same about every line. -/
theorem skeleton_of_similar (leftSettings rightSettings : Settings)
    (mode : leftSettings.stylesheet = rightSettings.stylesheet) :
    (∀ leftCommands rightCommands, List.Forall₂ Similar leftCommands rightCommands →
      let left := (generator leftSettings).perform {} leftCommands
      let right := (generator rightSettings).perform {} rightCommands
      left.1 = right.1 ∧ Generator.SameFinish SameSkeleton left.2.finish right.2.finish) ∧
    (∀ leftSections rightSections, List.Forall₂ (Generator.SimilarLines Similar)
        (leftSections.flatMap Section.lines) (rightSections.flatMap Section.lines) →
      let left := (generator leftSettings).run leftSections
      let right := (generator rightSettings).run rightSections
      left.errors.map Generator.said = right.errors.map Generator.said ∧
        left.warnings.map Generator.said = right.warnings.map Generator.said ∧
        SameSkeleton left.output right.output) := by
  have inStep := inStep_generator mode
  constructor
  · intro leftCommands rightCommands commands
    rcases inStep.perform inStep.initial commands with ⟨answers, twins⟩
    exact ⟨answers, twins.finish⟩
  · intro leftSections rightSections lines
    exact inStep.run lines

/-- Commands for a title, a link and an override, and an end without a start. -/
def titledLink (title label address color : String) : List Command :=
  [⟨"افتح صفحة", [⟨⟨title, true⟩, 0⟩], ""⟩,
    ⟨"رابط", [⟨⟨label, true⟩, 0⟩, ⟨⟨address, true⟩, 0⟩], ""⟩,
    ⟨"غيّر لون_النص إلى", [⟨⟨color, true⟩, 0⟩], ""⟩,
    ⟨"أنهِ جدول", [], ""⟩]

def plainLink : List Command := titledLink "title" "label" "address" "red"

/-- The same commands with texts that look like markup. -/
def hostileLink : List Command :=
  titledLink "</title><script>" "</a></body>" "\" onclick=\"f()" "red; display: none"

theorem skeleton_of_similar_link :
    List.Forall₂ Similar plainLink hostileLink ∧
      ((generator {}).perform {} plainLink).1 =
        ((generator { defaultTitle := "<b>" }).perform {} hostileLink).1 ∧
      Generator.SameFinish SameSkeleton ((generator {}).perform {} plainLink).2.finish
        ((generator { defaultTitle := "<b>" }).perform {} hostileLink).2.finish := by
  have similar : List.Forall₂ Similar plainLink hostileLink := by
    refine .cons ?_ (.cons ?_ (.cons ?_ (.cons ?_ .nil)))
    · exact ⟨rfl, .cons (by decide) .nil, fun override => absurd override (by decide)⟩
    · exact ⟨rfl, .cons (by decide) (.cons (by decide) .nil),
        fun override => absurd override (by decide)⟩
    · exact ⟨rfl, .cons (by decide) .nil, fun _ => by decide⟩
    · exact ⟨rfl, .nil, fun override => absurd override (by decide)⟩
  exact ⟨similar, (skeleton_of_similar {} { defaultTitle := "<b>" } rfl).1 _ _ similar⟩

end Page
end Pagewright
