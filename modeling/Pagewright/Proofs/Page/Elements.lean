import Pagewright.Proofs.Calls
import Pagewright.Proofs.Markup.Decoding
import Pagewright.Proofs.Page.Body

namespace Pagewright
namespace Page

open Markup (Fragment Attribute IsPlain Element)

/-!
# Reading elements back

Each command that writes to a page writes whole lines, and a line holds at most
one element.  What a command writes is stated as the elements that a reader finds
on these lines, with attribute values and texts decoded: the arguments of the
command in their places, or what stands in for arguments that are missing or
empty.  Since a reader decodes once, this says that each of them was escaped once.

The statement is made for one command on any page.  It carries over to whole runs
because commands only add lines, and what is added at the end of a page holds no
elements.
-/

/-! ## What a command is to write -/

/-- An argument that is neither missing nor empty. -/
def given? (command : Command) (index : Nat) : Option String :=
  match command.words[index]? with
  | some word => if word.text = "" then none else some word.text
  | none => none

/-- An argument, or what stands in for it. -/
def given (command : Command) (index : Nat) (default : String) : String :=
  (given? command index).getD default

/-- The elements in front of the body. -/
def frame (settings : Settings) (title : String) : List Element :=
  [⟨"html", [("dir", "rtl"), ("lang", "ar")], none⟩,
    ⟨"head", [], none⟩,
    ⟨"meta", [("charset", "UTF-8")], none⟩,
    ⟨"meta", [("name", "viewport"), ("content", "width=device-width, initial-scale=1.0")], none⟩,
    ⟨"title", [], some title⟩] ++
  (match settings.stylesheet with
    | .inline => []
    | .external => [⟨"link", [("rel", "stylesheet"), ("href", settings.stylesheetHref)], none⟩]) ++
  [⟨"body", [], none⟩]

/-- The element of a field to fill in. -/
def field (kind : String) (command : Command) : Element where
  name := "input"
  attributes := [("type", kind), ("name", given command 0 ""), ("class", "wahy-input")] ++
    ((given? command 1).map fun hint => ("placeholder", hint)).toList
  text := none

/-- The elements that content is written as inside the given blocks, where the
given number of check boxes stand in front of it. -/
def Content.elements (blocks : List Block) (boxes : Nat) (command : Command) :
    Content → List Element
  | .heading level => [⟨"h" ++ toString level, [], some (given command 0 "")⟩]
  | .paragraph => [⟨"p", [], some (given command 0 "")⟩]
  | .link =>
      [⟨"a", [("href", given command 1 "#"), ("target", "_blank")],
        some (given command 0 (given command 1 "#"))⟩]
  | .image => [⟨"img", [("src", given command 0 ""), ("alt", given command 1 "صورة")], none⟩]
  | .button =>
      [⟨"button", [("class", "wahy-button")] ++
          ((given? command 1).map fun action => ("onclick", action)).toList,
        some (given command 0 "زر")⟩]
  | .text => [⟨"span", [], some (given command 0 "")⟩]
  | .backgroundColor | .textColor | .font => []
  | .startBulletList => [⟨"ul", [], none⟩]
  | .startNumberedList => [⟨"ol", [], none⟩]
  | .listItem =>
      if blocks.head?.any Block.isList then [⟨"li", [], some (given command 0 "")⟩] else []
  | .startSection =>
      [⟨"div", [("class", match given? command 0 with
        | some name => "wahy-section " ++ name
        | none => "wahy-section")], none⟩]
  | .horizontalRule => [⟨"hr", [], none⟩]
  | .space => [⟨"br", [], none⟩]
  | .textInput => [field "text" command]
  | .passwordInput => [field "password" command]
  | .checkbox =>
      [⟨"input", [("type", "checkbox"), ("id", "wahy-checkbox-" ++ toString (boxes + 1)),
          ("name", given command 0 "")], none⟩] ++
        ((given? command 1).map fun label =>
          ⟨"label", [("for", "wahy-checkbox-" ++ toString (boxes + 1))], some label⟩).toList
  | .startTable => [⟨"table", [], none⟩]
  | .tableRow =>
      -- A row in front is ended first, so the table may stand one block further out.
      if (if blocks.head? = some .row then blocks.tail else blocks).head? = some .table then
        [⟨"tr", [], none⟩]
      else
        []
  | .tableCell =>
      (if blocks.head? = some .table then [⟨"tr", [], none⟩] else []) ++
        if blocks.head? = some .table ∨ blocks.head? = some .row then
          [⟨"td", [], some (given command 0 "")⟩]
        else
          []

/-- The elements that a command writes to a page. -/
def announced (settings : Settings) (page : Page) (command : Command) : List Element :=
  match Instruction.ofKey? command.key, page.canvas.stage with
  | some .openPage, .unopened => frame settings (given command 0 settings.defaultTitle)
  | some (.content content), .unopened =>
      frame settings settings.defaultTitle ++
        content.elements page.canvas.blocks page.checkboxes command
  | some (.content content), .opened =>
      content.elements page.canvas.blocks page.checkboxes command
  | _, _ => []

theorem nonemptyArgument?_eq (command : Command) (index : Nat) :
    command.nonemptyArgument? index = given? command index := by
  unfold Command.nonemptyArgument? Command.argument? given?
  cases command.words[index]? with
  | none => rfl
  | some word =>
      by_cases empty : word.text = ""
      · simp [empty]
      · simp [Option.filter, empty]

theorem argumentD_eq (command : Command) (index : Nat) (default : String) :
    command.argumentD index default = given command index default := by
  rw [Command.argumentD, nonemptyArgument?_eq, given]

/-! ## Lines and their elements -/

/-- The element on a line, read from its text. -/
def element? (line : Line) : Option Element :=
  Element.ofText? (Text.Indented.render Fragment.renderLine line)

/-- Lines were added, and these are the elements on them. -/
def Adds (before : List Line) (elements : List Element) (after : List Line) : Prop :=
  ∃ added, after = before ++ added ∧ added.filterMap element? = elements

namespace Adds

variable {before between after : List Line} {elements more : List Element}

theorem nothing (lines : List Line) : Adds lines [] lines :=
  ⟨[], (List.append_nil lines).symm, rfl⟩

theorem trans (first : Adds before elements between) (second : Adds between more after) :
    Adds before (elements ++ more) after := by
  rcases first with ⟨added, rfl, rfl⟩
  rcases second with ⟨later, rfl, rfl⟩
  exact ⟨added ++ later, List.append_assoc .., List.filterMap_append⟩

/-- A line with an element is added. -/
theorem line {added : Line} {element : Element} (read : element? added = some element)
    (before : List Line) : Adds before [element] (before ++ [added]) :=
  ⟨[added], rfl, by rw [List.filterMap_cons, read, List.filterMap_nil]⟩

/-- A line without one is added. -/
theorem mute {added : Line} (read : element? added = none) (before : List Line) :
    Adds before [] (before ++ [added]) :=
  ⟨[added], rfl, by rw [List.filterMap_cons, read, List.filterMap_nil]⟩

end Adds

section lines

variable {name : String} {attributes : List Attribute}

theorem element?_start (plain : IsPlain name) (notRaw : name ∉ Markup.rawElements)
    (plainNames : ∀ given ∈ attributes, IsPlain given.name) (depth : Nat) :
    element? ⟨depth, [.start name attributes]⟩ = some ⟨name, Element.pairs attributes, none⟩ :=
  Element.ofText?_start plain notRaw plainNames depth

theorem element?_element (plain : IsPlain name) (notRaw : name ∉ Markup.rawElements)
    (plainNames : ∀ given ∈ attributes, IsPlain given.name) (depth : Nat) (content : String) :
    element? ⟨depth, Fragment.element name attributes content⟩ =
      some ⟨name, Element.pairs attributes, some content⟩ :=
  Element.ofText?_element plain notRaw plainNames depth content

theorem element?_stop (plain : IsPlain name) (depth : Nat) :
    element? ⟨depth, [.stop name]⟩ = none :=
  Element.ofText?_stop plain depth

theorem element?_raw (raw : name ∈ Markup.rawElements)
    (plainNames : ∀ given ∈ attributes, IsPlain given.name) (depth : Nat)
    (others : List Fragment) :
    element? ⟨depth, .start name attributes :: others⟩ = none :=
  Element.ofText?_raw raw plainNames depth others

end lines

/-- The base stylesheet is one element if it is linked, and none that is read if
its rules are written out. -/
theorem filterMap_baseStylesheet (settings : Settings) :
    (placed (baseStylesheet settings)).filterMap element? =
      match settings.stylesheet with
      | .inline => []
      | .external =>
          [⟨"link", [("rel", "stylesheet"), ("href", settings.stylesheetHref)], none⟩] := by
  unfold baseStylesheet
  cases settings.stylesheet with
  | inline =>
      have rules : ∀ rule ∈ baseRules, element? ⟨2, [.verbatim rule]⟩ = none :=
        fun rule listed => Element.ofText?_verbatim (bracketFree_baseRules rule listed) 2
      apply List.filterMap_eq_nil_iff.mpr
      simp only [placed, List.map_append, List.map_map, List.forall_mem_append, List.map_cons,
        List.map_nil, List.forall_mem_singleton, List.forall_mem_map, Function.comp_apply]
      refine ⟨⟨?_, rules⟩, element?_stop (by decide) 1⟩
      exact element?_raw (by decide) (plain_of_names ["id"] rfl (by decide)) 1 []
  | external =>
      have linked := @element?_start "link"
        [⟨"rel", "stylesheet"⟩, ⟨"href", settings.stylesheetHref⟩] (by decide) (by decide)
        (plain_of_names ["rel", "href"] rfl (by decide)) 1
      simp only [placed, List.map_cons, List.map_nil, List.filterMap_cons, List.filterMap_nil, linked]
      rfl

/-- The lines in front of the body hold the elements of the frame. -/
theorem filterMap_opening (settings : Settings) (title : String) :
    (placed (opening settings title)).filterMap element? = frame settings title := by
  have sound : Fragment.IsSound .doctype := trivial
  have doctype : element? ⟨0, [.doctype]⟩ = none := Element.ofText?_tag sound rfl 0 []
  have front : (placed (preamble title)).filterMap element? =
      [⟨"html", [("dir", "rtl"), ("lang", "ar")], none⟩, ⟨"head", [], none⟩,
        ⟨"meta", [("charset", "UTF-8")], none⟩,
        ⟨"meta", [("name", "viewport"), ("content", "width=device-width, initial-scale=1.0")], none⟩,
        ⟨"title", [], some title⟩] := by
    simp (disch := decide) only [placed, preamble, List.map_cons, List.map_nil, List.filterMap_cons,
      List.filterMap_nil, doctype, element?_start, element?_element]
    rfl
  have back : (placed headEnd).filterMap element? = [⟨"body", [], none⟩] := by
    simp (disch := decide) only [placed, headEnd, List.map_cons, List.map_nil, List.filterMap_cons,
      List.filterMap_nil, element?_start, element?_stop]
    rfl
  have parts : placed (opening settings title) =
      placed (preamble title) ++ placed (baseStylesheet settings) ++ placed headEnd := by
    simp only [placed, opening, List.map_append]
  rw [parts, List.filterMap_append, List.filterMap_append, front, filterMap_baseStylesheet, back]
  rfl

/-! ## Canvases -/

/-- The lines on a canvas. -/
abbrev Canvas.written (canvas : Canvas) : List Line :=
  canvas.lines.toList

/-- The texts of the lines on a canvas, which make up the text of the page. -/
def Canvas.texts (canvas : Canvas) : List String :=
  canvas.written.map (Text.Indented.render Fragment.renderLine)

theorem Canvas.written_place (canvas : Canvas) (depth : Nat) (content : List Fragment) :
    (canvas.place depth content).written = canvas.written ++ [⟨depth, content⟩] :=
  Array.toList_push

theorem Canvas.written_write (canvas : Canvas) (content : List Fragment) :
    (canvas.write content).written = canvas.written ++ [⟨canvas.blocks.length, content⟩] :=
  canvas.written_place _ content

/-- A line with a text inside is written. -/
theorem adds_element {name : String} {attributes : List Attribute}
    (listed : name ∈ inlineElements) (plain : ∀ given ∈ attributes, IsPlain given.name)
    (canvas : Canvas) (content : String) :
    Adds canvas.written [⟨name, Element.pairs attributes, some content⟩]
      (canvas.write (Fragment.element name attributes content)).written := by
  have facts : ∀ name ∈ inlineElements, IsPlain name ∧ name ∉ Markup.rawElements := by decide
  rw [Canvas.written_write]
  exact .line (element?_element (facts name listed).1 (facts name listed).2 plain _ content) _

/-- An element without an end is written. -/
theorem adds_void {name : String} {attributes : List Attribute}
    (listed : name ∈ emptyElements) (plain : ∀ given ∈ attributes, IsPlain given.name)
    (canvas : Canvas) :
    Adds canvas.written [⟨name, Element.pairs attributes, none⟩]
      (canvas.write [.start name attributes]).written := by
  have facts : ∀ name ∈ emptyElements, IsPlain name ∧ name ∉ Markup.rawElements := by decide
  rw [Canvas.written_write]
  exact .line (element?_start (facts name listed).1 (facts name listed).2 plain _) _

theorem plain_block (block : Block) :
    IsPlain block.element ∧ block.element ∉ Markup.rawElements := by
  cases block <;> decide

theorem adds_openBlock {attributes : List Attribute}
    (plain : ∀ given ∈ attributes, IsPlain given.name) (canvas : Canvas) (block : Block) :
    Adds canvas.written [⟨block.element, Element.pairs attributes, none⟩]
      (canvas.openBlock block [.start block.element attributes]).written := by
  have written := canvas.written_write [.start block.element attributes]
  rw [Canvas.openBlock]
  exact written ▸ .line (element?_start (plain_block block).1 (plain_block block).2 plain _) _

/-- The end of a block is no element. -/
theorem adds_stop (block : Block) (depth : Nat) (lines : Array Line) :
    Adds lines.toList [] (lines.push ⟨depth, [.stop block.element]⟩).toList := by
  rw [Array.toList_push]
  exact .mute (element?_stop (plain_block block).1 depth) _

theorem adds_closeBlock {canvas closed : Canvas} (closes : canvas.closeBlock? = some closed) :
    Adds canvas.written [] closed.written := by
  unfold Canvas.closeBlock? at closes
  split at closes
  case h_1 => cases closes
  case h_2 block outer _ =>
      cases closes
      exact adds_stop block outer.length canvas.lines

theorem adds_closingRows (lines : Array Line) (blocks : List Block) :
    Adds lines.toList [] (Canvas.closingRows lines blocks).1.toList := by
  fun_induction Canvas.closingRows lines blocks with
  | case1 lines outer ih => exact (adds_stop .row outer.length lines).trans ih
  | case2 lines => exact .nothing lines.toList

theorem adds_closingLines (lines : Array Line) (blocks : List Block) :
    Adds lines.toList [] (Canvas.closingLines lines blocks).toList := by
  induction blocks generalizing lines with
  | nil => exact .nothing lines.toList
  | cons block outer ih => exact (adds_stop block outer.length lines).trans (ih _)

theorem adds_placeAll (canvas : Canvas) (lines : List (Nat × List Fragment)) :
    Adds canvas.written ((placed lines).filterMap element?) (canvas.placeAll lines).written :=
  ⟨placed lines, (toList_placeAll canvas lines).1, rfl⟩

theorem adds_closePage (canvas : Canvas) :
    Adds canvas.written [] (canvas.closePage ending).written := by
  have ended : (placed (ending.map fun line => (0, line))).filterMap element? = [] := by
    simp (disch := decide) only [placed, ending, List.map_cons, List.map_nil, List.filterMap_cons,
      List.filterMap_nil, element?_stop]
  have placing := adds_placeAll canvas.closeBlocks (ending.map fun line => (0, line))
  rw [ended] at placing
  exact (adds_closingLines canvas.lines canvas.blocks).trans placing

theorem adds_withoutRow (canvas : Canvas) :
    Adds canvas.written [] (withoutRow canvas).written ∧
      (withoutRow canvas).blocks =
        if canvas.blocks.head? = some .row then canvas.blocks.tail else canvas.blocks := by
  unfold withoutRow Canvas.top?
  split
  case isTrue inRow =>
      rcases List.head?_eq_some_iff.mp inRow with ⟨outer, blocks⟩
      cases closes : canvas.closeBlock? with
      | none =>
          rw [Canvas.closeBlock?, blocks] at closes
          cases closes
      | some closed =>
          refine ⟨adds_closeBlock closes, ?_⟩
          rw [Canvas.closeBlock?, blocks] at closes
          cases closes
          rw [blocks]
          rfl
  case isFalse => exact ⟨.nothing _, rfl⟩

theorem adds_withRow (canvas : Canvas) :
    Adds canvas.written (if canvas.blocks.head? = some .table then [⟨"tr", [], none⟩] else [])
        (withRow canvas).written ∧
      ((withRow canvas).top? = some .row ↔
        canvas.blocks.head? = some .table ∨ canvas.blocks.head? = some .row) := by
  unfold withRow Canvas.top?
  split
  case isTrue inTable =>
      refine ⟨adds_openBlock (List.forall_mem_nil _) canvas .row, ?_⟩
      exact ⟨fun _ => .inl inTable, fun _ => rfl⟩
  case isFalse outside =>
      exact ⟨.nothing _, ⟨.inr, fun either => either.resolve_left outside⟩⟩

/-! ## Commands -/

section commands

variable (page : Page) (command : Command)

theorem adds_begin (settings : Settings) (title : String) :
    Adds page.canvas.written (frame settings title) (page.begin settings title).canvas.written := by
  rw [← filterMap_opening]
  exact adds_placeAll page.canvas (opening settings title)

theorem adds_tableRow :
    Adds page.canvas.written (Content.elements page.canvas.blocks page.checkboxes command .tableRow)
      page.tableRow.state.canvas.written := by
  rcases adds_withoutRow page.canvas with ⟨ended, blocks⟩
  rcases adds_withRow (withoutRow page.canvas) with ⟨begun, -⟩
  rw [Content.elements, ← blocks]
  unfold tableRow Canvas.top?
  dsimp only
  split
  case isTrue inTable =>
      rw [if_pos inTable] at begun
      exact ended.trans begun
  case isFalse => exact ended

theorem adds_tableCell :
    Adds page.canvas.written (Content.elements page.canvas.blocks page.checkboxes command .tableCell)
      (page.tableCell (command.argumentD 0 "")).state.canvas.written := by
  rcases adds_withRow page.canvas with ⟨begun, inRow⟩
  rw [Content.elements, argumentD_eq, tableCell]
  by_cases top : (withRow page.canvas).top? = some .row
  · rw [if_pos (inRow.mp top), if_pos top]
    exact begun.trans (adds_element (by decide) (List.forall_mem_nil _) _ _)
  · have neither := not_or.mp fun either => top (inRow.mpr either)
    rw [if_neg neither.1, if_neg fun either => either.elim neither.1 neither.2, if_neg top]
    exact .nothing _

theorem adds_listItem :
    Adds page.canvas.written (Content.elements page.canvas.blocks page.checkboxes command .listItem)
      (page.listItem (command.argumentD 0 "")).state.canvas.written := by
  rw [Content.elements, argumentD_eq, listItem, Canvas.top?]
  by_cases inList : page.canvas.blocks.head?.any Block.isList = true
  · rw [if_pos inList, if_pos inList]
    exact adds_element (by decide) (List.forall_mem_nil _) _ _
  · rw [if_neg inList, if_neg inList]
    exact .nothing _

/-- An override of the style of the body is no element that is read. -/
theorem adds_styleOverride (declaration : String) :
    Adds page.canvas.written [] (page.styleOverride declaration).state.canvas.written := by
  unfold styleOverride
  split
  case isTrue => exact .nothing _
  case isFalse =>
      rw [writeLine, Canvas.written_write]
      exact .mute (element?_raw (by decide) (List.forall_mem_nil _) _ _) _

theorem pairs_optional (attributes : List Attribute) (name : String) (index : Nat) :
    Element.pairs (attributes ++ optional name (command.nonemptyArgument? index)) =
      Element.pairs attributes ++ ((given? command index).map fun value => (name, value)).toList := by
  rw [nonemptyArgument?_eq, Element.pairs, List.map_append, optional]
  cases given? command index <;> rfl

theorem adds_input (kind : String) :
    Adds page.canvas.written [field kind command] (page.input kind command).state.canvas.written := by
  rw [Page.input, argumentD_eq]
  have plain : ∀ one ∈ ([⟨"type", kind⟩, ⟨"name", given command 0 ""⟩, ⟨"class", "wahy-input"⟩] :
      List Attribute), IsPlain one.name := plain_of_names ["type", "name", "class"] rfl (by decide)
  have added := adds_void (by decide : "input" ∈ emptyElements)
    (plain_optional plain (by decide : IsPlain "placeholder") (command.nonemptyArgument? 1)) page.canvas
  rw [pairs_optional] at added
  exact added

theorem adds_button :
    Adds page.canvas.written (Content.elements page.canvas.blocks page.checkboxes command .button)
      (page.add command .button).state.canvas.written := by
  rw [Page.add, argumentD_eq]
  have plain : ∀ one ∈ ([⟨"class", "wahy-button"⟩] : List Attribute), IsPlain one.name :=
    plain_of_names ["class"] rfl (by decide)
  have added := adds_element (by decide : "button" ∈ inlineElements)
    (plain_optional plain (by decide : IsPlain "onclick") (command.nonemptyArgument? 1)) page.canvas
    (given command 0 "زر")
  rw [pairs_optional] at added
  exact added

theorem adds_checkbox :
    Adds page.canvas.written (Content.elements page.canvas.blocks page.checkboxes command .checkbox)
      (page.checkbox (command.argumentD 0 "") (command.nonemptyArgument? 1)).state.canvas.written := by
  rw [Content.elements, argumentD_eq, nonemptyArgument?_eq]
  have plain : ∀ one ∈ ([⟨"type", "checkbox"⟩,
      ⟨"id", "wahy-checkbox-" ++ toString (page.checkboxes + 1)⟩, ⟨"name", given command 0 ""⟩] :
        List Attribute), IsPlain one.name :=
    plain_of_names ["type", "id", "name"] rfl (by decide)
  have box := adds_void (by decide : "input" ∈ emptyElements) plain page.canvas
  cases given? command 1 with
  | none => exact box
  | some label =>
      exact box.trans (adds_element (by decide) (plain_of_names ["for"] rfl (by decide)) _ label)

/-- Content is written with the arguments it was given. -/
theorem adds_add {key : String} {content : Content}
    (found : Instruction.ofKey? key = some (.content content)) :
    Adds page.canvas.written (content.elements page.canvas.blocks page.checkboxes command)
      (page.add command content).state.canvas.written := by
  cases content <;> dsimp only [Page.add]
  case heading level =>
      rw [argumentD_eq]
      rcases level_of_ofKey? found with first | second
      · subst first
        exact adds_element (by decide) (List.forall_mem_nil _) _ _
      · subst second
        exact adds_element (by decide) (List.forall_mem_nil _) _ _
  case paragraph =>
      rw [argumentD_eq]
      exact adds_element (by decide) (List.forall_mem_nil _) _ _
  case link =>
      rw [argumentD_eq, argumentD_eq]
      exact adds_element (by decide) (plain_of_names ["href", "target"] rfl (by decide)) _ _
  case image =>
      rw [argumentD_eq, argumentD_eq]
      exact adds_void (by decide) (plain_of_names ["src", "alt"] rfl (by decide)) _
  case button => exact adds_button page command
  case text =>
      rw [argumentD_eq]
      exact adds_element (by decide) (List.forall_mem_nil _) _ _
  case backgroundColor => exact adds_styleOverride page _
  case textColor => exact adds_styleOverride page _
  case font => exact adds_styleOverride page _
  case startBulletList => exact adds_openBlock (List.forall_mem_nil _) _ _
  case startNumberedList => exact adds_openBlock (List.forall_mem_nil _) _ _
  case listItem => exact adds_listItem page command
  case startSection =>
      rw [nonemptyArgument?_eq]
      exact adds_openBlock (plain_of_names ["class"] rfl (by decide)) _ _
  case horizontalRule => exact adds_void (by decide) (List.forall_mem_nil _) _
  case space => exact adds_void (by decide) (List.forall_mem_nil _) _
  case textInput => exact adds_input page command "text"
  case passwordInput => exact adds_input page command "password"
  case checkbox => exact adds_checkbox page command
  case startTable => exact adds_openBlock (List.forall_mem_nil _) _ _
  case tableRow => exact adds_tableRow page command
  case tableCell => exact adds_tableCell page command

end commands

theorem adds_endBlock (page : Page) (construct : String) :
    Adds page.canvas.written [] (page.endBlock construct).state.canvas.written := by
  unfold endBlock
  cases closes : page.canvas.closeBlock? with
  | none => exact .nothing _
  | some closed => exact adds_closeBlock closes

/-- Every command adds lines, and a reader finds on them what the command was to
write. -/
theorem adds_execute (settings : Settings) (page : Page) (command : Command) :
    Adds page.canvas.written (announced settings page command)
      (page.execute settings command).state.canvas.written := by
  unfold announced Page.execute
  cases found : Instruction.ofKey? command.key with
  | none => exact .nothing _
  | some instruction =>
      cases instruction with
      | openPage =>
          dsimp only
          rw [openPage, argumentD_eq]
          cases page.canvas.stage with
          | unopened => exact adds_begin page settings _
          | opened => exact .nothing _
          | closed => exact .nothing _
      | closePage =>
          dsimp only
          rw [closePage]
          cases page.canvas.stage with
          | unopened => exact .nothing _
          | opened => exact adds_closePage page.canvas
          | closed => exact .nothing _
      | endList => exact adds_endBlock page "list"
      | endSection => exact adds_endBlock page "section"
      | endTable =>
          exact (adds_closingRows page.canvas.lines page.canvas.blocks).trans
            (adds_endBlock { page with canvas := page.canvas.closeRows } "table")
      | content content =>
          dsimp only
          cases page.canvas.stage with
          | unopened =>
              have begun := adds_begin page settings settings.defaultTitle
              have blocks : (page.begin settings settings.defaultTitle).canvas.blocks =
                  page.canvas.blocks :=
                (toList_placeAll page.canvas (opening settings settings.defaultTitle)).2.1
              have added := adds_add (page.begin settings settings.defaultTitle) command found
              rw [blocks] at added
              exact begun.trans added
          | opened => exact adds_add page command found
          | closed => exact .nothing _

/-! ## Runs -/

/-- The calls of a run add what each of them was to write. -/
theorem adds_calls (settings : Settings) (page : Page) (lines : List SourceLine) :
    Adds page.canvas.written
      (((generator settings).callsFrom page lines).flatMap fun call =>
        announced settings call.state call.command)
      ((generator settings).stateAfter page
        ((generator settings).callsFrom page lines)).canvas.written := by
  induction lines generalizing page with
  | nil => exact .nothing _
  | cons line rest ih =>
      cases found : Command.ofLine? line.text with
      | none =>
          rw [Generator.callsFrom_cons_none found]
          exact ih page
      | some command =>
          have first := adds_execute settings page command
          rw [Generator.callsFrom_cons_some found, Generator.stateAfter_cons, List.flatMap_cons]
          split
          · rw [List.flatMap_nil, List.append_nil]
            exact first
          · exact first.trans (ih _)

/-- The text of a page has no elements beyond those written before. -/
theorem exists_adds_finish (page : Page) :
    ∃ lines, Adds page.canvas.written [] lines ∧
      page.finish.output =
        .ok (Text.joinLines (lines.map (Text.Indented.render Fragment.renderLine))) := by
  unfold finish
  dsimp only
  cases page.canvas.stage with
  | unopened => exact ⟨_, .nothing _, rfl⟩
  | opened => exact ⟨_, adds_closePage page.canvas, rfl⟩
  | closed => exact ⟨_, .nothing _, rfl⟩

/-- Added lines have added texts, from which the elements are read. -/
theorem Adds.exists_texts {before after : List Line} {elements : List Element}
    (adds : Adds before elements after) :
    ∃ added, after.map (Text.Indented.render Fragment.renderLine) =
        before.map (Text.Indented.render Fragment.renderLine) ++ added ∧
      added.filterMap Element.ofText? = elements := by
  rcases adds with ⟨added, rfl, rfl⟩
  exact ⟨_, List.map_append, List.filterMap_map⟩

/-- Texts are escaped once.  An escaped text holds neither brackets nor quotes,
each of its ampersands begins a reference, and decoding it in one pass gives the
text back, so that no two texts are escaped alike.  What any command writes to any
page is read, with attribute values and texts decoded once, as the elements that
hold its arguments, or the defaults of those that are missing or empty.  All
elements of a finished page come from the commands of its run in this way. -/
theorem arguments_read_back (text : String) (settings : Settings) (page : Page)
    (command : Command) (sections : List Section) :
    (∀ c ∈ (Markup.escape text).toList, c ≠ '<' ∧ c ≠ '>' ∧ c ≠ '"' ∧ c ≠ '\'') ∧
      (∀ back, '&' :: back <:+ (Markup.escape text).toList →
        ∃ entry ∈ Markup.references, entry.1.toList <+: '&' :: back) ∧
      Markup.decode (Markup.escape text) = text ∧
      (∀ other, Markup.escape other = Markup.escape text → other = text) ∧
      (∃ added, (page.execute settings command).state.canvas.texts = page.canvas.texts ++ added ∧
        added.filterMap Element.ofText? = announced settings page command) ∧
      ∃ lines, ((generator settings).run sections).output = Text.joinLines lines ∧
        lines.filterMap Element.ofText? =
          ((generator settings).calls sections).flatMap fun call =>
            announced settings call.state call.command := by
  refine ⟨fun _ => Markup.mem_escape, fun _ => Markup.exists_reference_of_suffix,
    Markup.decode_escape text, fun _ same => Markup.escape_injective same,
    (adds_execute settings page command).exists_texts, ?_⟩
  have during := adds_calls settings {} (sections.flatMap Section.lines)
  rcases exists_adds_finish ((generator settings).stateAfter {}
    ((generator settings).calls sections)) with ⟨lines, ended, finished⟩
  rcases (during.trans ended).exists_texts with ⟨added, texts, elements⟩
  refine ⟨added, ?_, elements.trans (List.append_nil _)⟩
  have output : ((generator settings).run sections).output =
      ((generator settings).closing sections).text := by
    rw [Generator.run_eq_account]
  have closing : ((generator settings).closing sections).output =
      .ok (Text.joinLines (lines.map (Text.Indented.render Fragment.renderLine))) := finished
  rw [output, Finish.text, closing, texts]
  rfl

/-- A link whose text and address hold markup and references. -/
def linkLine : String := "رابط \"<b>&amp;</b>\" \"?a='1'&lt=2\""

def linkCommand : Command :=
  ⟨"رابط", [⟨⟨"<b>&amp;</b>", true⟩, 9⟩, ⟨⟨"?a='1'&lt=2", true⟩, 24⟩], linkLine⟩

/-- A check box with a label. -/
def boxLine : String := "أضف مربع_اختيار \"a&b\" \"x > y\""

/-- A link is read back with its text and its address, from what it writes to an
opened page and from a whole one.  A check box with a label is read back as two
elements with its number. -/
theorem arguments_read_back_labelled :
    Command.ofLine? linkLine = some linkCommand ∧
      (∃ added, (execute {} ⟨{ stage := .opened }, 0⟩ linkCommand).state.canvas.texts = [] ++ added ∧
        added.filterMap Element.ofText? =
          [⟨"a", [("href", "?a='1'&lt=2"), ("target", "_blank")], some "<b>&amp;</b>"⟩]) ∧
      ∃ lines, ((generator {}).run (Section.ofSource (linkLine ++ "\n" ++ boxLine))).output =
          Text.joinLines lines ∧
        lines.filterMap Element.ofText? = frame {} "صفحة وحي" ++
          [⟨"a", [("href", "?a='1'&lt=2"), ("target", "_blank")], some "<b>&amp;</b>"⟩,
            ⟨"input", [("type", "checkbox"), ("id", "wahy-checkbox-1"), ("name", "a&b")], none⟩,
            ⟨"label", [("for", "wahy-checkbox-1")], some "x > y"⟩] := by
  rcases arguments_read_back "" {} ⟨{ stage := .opened }, 0⟩ linkCommand
    (Section.ofSource (linkLine ++ "\n" ++ boxLine)) with
      ⟨-, -, -, -, ⟨added, texts, fromLink⟩, lines, output, fromRun⟩
  refine ⟨?_, ⟨added, texts, fromLink.trans ?_⟩, lines, output, fromRun.trans ?_⟩
  · decide +kernel
  · decide +kernel
  · decide +kernel

end Page
end Pagewright
