import Pagewright.Proofs.Page.Skeleton

namespace Pagewright

/-!
# The life of a page

A page is opened once, closed once, and not changed afterwards.  Until it is
closed, rows stand directly in tables, although lists, sections, tables and
rows share one stack and are closed by position whatever their kind.

What this means for a finished page is read off its text: the parent of an
element is the innermost element that is open in front of its tag.  Parents are
computed from the tags alone, without the blocks of the canvas, and the body of
a page is followed line by line to see that both agree.
-/

/-! ## Parents -/

namespace Markup

/-- Each element with its parent, where `stack` are the elements open in front
of all tags, innermost first. -/
def parents : List String → List Tag → List (String × Option String)
  | _, [] => []
  | stack, .doctype :: tags => parents stack tags
  | stack, .opening name _ :: tags =>
      (name, stack.head?) :: parents (if name ∈ voidElements then stack else name :: stack) tags
  | stack, .closing _ :: tags => parents stack.tail tags

/-- The elements that need a certain parent. -/
def dependentElements : List String := ["tr", "td", "li"]

/-- A row stands in a table, a cell in a row, and an item in a list. -/
def InPlace (name : String) (parent : Option String) : Prop :=
  (name = "tr" → parent = some "table") ∧ (name = "td" → parent = some "tr") ∧
    (name = "li" → parent = some "ul" ∨ parent = some "ol")

def WellPlaced (stack : List String) (tags : List Tag) : Prop :=
  ∀ found ∈ parents stack tags, InPlace found.1 found.2

theorem inPlace_of_notMem {name : String} (other : name ∉ dependentElements)
    (parent : Option String) : InPlace name parent := by
  simp only [dependentElements, List.mem_cons, List.not_mem_nil, or_false, not_or] at other
  exact ⟨fun row => absurd row other.1, fun cell => absurd cell other.2.1,
    fun item => absurd item other.2.2⟩

/-- Parents are found piece by piece, with the elements that a piece leaves
open in front of the next one. -/
theorem parents_append {stack inner : List String} {front : List Tag}
    (within : nest stack front = some inner) (back : List Tag) :
    parents stack (front ++ back) = parents stack front ++ parents inner back := by
  induction front generalizing stack with
  | nil =>
      cases within
      rfl
  | cons tag front ih =>
      cases tag with
      | doctype => exact ih within
      | opening name attributes =>
          rw [nest] at within
          rw [List.cons_append, parents, parents, List.cons_append]
          congr 1
          split at within
          case isTrue void =>
              rw [if_pos void]
              exact ih within
          case isFalse ended =>
              rw [if_neg ended]
              exact ih within
      | closing name =>
          cases stack with
          | nil => cases within
          | cons innermost outer =>
              rw [nest] at within
              split at within
              case isTrue => exact ih within
              case isFalse => cases within

theorem WellPlaced.append {stack inner : List String} {front back : List Tag}
    (first : WellPlaced stack front) (within : nest stack front = some inner)
    (second : WellPlaced inner back) : WellPlaced stack (front ++ back) := by
  intro found member
  rw [parents_append within] at member
  rcases List.mem_append.mp member with before | behind
  · exact first found before
  · exact second found behind

/-- None of the tags starts an element that needs a certain parent. -/
def Independent (tags : List Tag) : Prop :=
  ∀ tag ∈ tags, ∀ name ∈ dependentElements, tag.opens name = false

theorem independent_cons {tag : Tag} {tags : List Tag} :
    Independent (tag :: tags) ↔
      (∀ name ∈ dependentElements, tag.opens name = false) ∧ Independent tags :=
  List.forall_mem_cons

theorem independent_append {front back : List Tag} :
    Independent (front ++ back) ↔ Independent front ∧ Independent back :=
  List.forall_mem_append

theorem independent_opening {name : String} (other : name ∉ dependentElements)
    (attributes : List (String × String)) :
    ∀ dependent ∈ dependentElements, (Tag.opening name attributes).opens dependent = false :=
  fun _ isDependent => beq_eq_false_iff_ne.mpr fun same => other (same ▸ isDependent)

theorem independent_element {name : String} (other : name ∉ dependentElements)
    (attributes : List (String × String)) :
    Independent [.opening name attributes, .closing name] :=
  independent_cons.mpr ⟨independent_opening other attributes,
    independent_cons.mpr ⟨fun _ _ => rfl, nofun⟩⟩

/-- Independent tags may stand anywhere. -/
theorem Independent.wellPlaced {tags : List Tag} (independent : Independent tags)
    (stack : List String) : WellPlaced stack tags := by
  induction tags generalizing stack with
  | nil => exact nofun
  | cons tag others ih =>
      rcases independent_cons.mp independent with ⟨here, behind⟩
      have later := ih behind
      cases tag with
      | doctype => exact later stack
      | closing name => exact later stack.tail
      | opening name attributes =>
          have other : name ∉ dependentElements := fun dependent =>
            absurd rfl (beq_eq_false_iff_ne.mp (here name dependent))
          intro found member
          rw [parents] at member
          rcases List.mem_cons.mp member with here | behind
          · rw [here]
            exact inPlace_of_notMem other _
          · exact later _ found behind

/-- A text that can be read, whose tags are nested and whose elements have the
parents they need. -/
def Arranged (text : String) : Prop :=
  ∃ tags, scan text = some tags ∧ nest [] tags = some [] ∧ WellPlaced [] tags

end Markup

namespace Page

open Markup (Fragment Tag Arranged WellPlaced InPlace Independent dependentElements
  independent_append independent_cons independent_opening independent_element)

/-! ## Stages -/

/-- One command keeps the stage of a page or moves it to the next one. -/
inductive Stage.Follows : Stage → Stage → Prop
  | stays (stage : Stage) : Follows stage stage
  | opens : Follows .unopened .opened
  | closes : Follows .opened .closed

/-- The stages of a page in front of each command and behind the last one. -/
def stages (settings : Settings) (page : Page) : List Command → List Stage
  | [] => [page.canvas.stage]
  | command :: rest =>
      page.canvas.stage :: stages settings (page.execute settings command).state rest

variable {settings : Settings} {page : Page}

/-- Content leaves an open page open. -/
private theorem follows_of_opened {before : Stage} {canvas : Canvas}
    (same : before = .opened) (opened : Opened settings canvas) : before.Follows canvas.stage := by
  rw [same, opened.stage]
  exact .stays _

theorem follows_endBlock (laid : Laid settings page.canvas) (construct : String) :
    page.canvas.stage.Follows (page.endBlock construct).state.canvas.stage := by
  unfold endBlock
  split
  case h_1 closed closes =>
      cases blocks : page.canvas.blocks with
      | nil =>
          rw [Canvas.closeBlock?, blocks] at closes
          cases closes
      | cons block outer =>
          have opened := laid.isOpened_of_blocks blocks
          exact follows_of_opened opened.stage (opened.closeBlock closes)
  case h_2 => exact .stays _

theorem follows_execute (laid : Laid settings page.canvas) (command : Command) :
    page.canvas.stage.Follows (page.execute settings command).state.canvas.stage := by
  unfold execute
  split
  case h_1 => exact .stays _
  case h_2 =>
      unfold openPage
      split
      case h_1 stage =>
          rw [stage]
          exact .opens
      all_goals exact .stays _
  case h_3 =>
      unfold closePage
      split
      case h_2 stage =>
          rw [stage]
          exact .closes
      all_goals exact .stays _
  case h_4 => exact follows_endBlock laid _
  case h_5 => exact follows_endBlock laid _
  case h_6 => exact @follows_endBlock settings { page with canvas := page.canvas.closeRows } laid.closeRows _
  case h_7 content found =>
      split
      case h_1 stage =>
          rw [stage, ((laid.begin stage _).add command found).stage]
          exact .opens
      case h_2 stage => exact follows_of_opened stage ((laid.isOpened stage).add command found)
      case h_3 => exact .stays _

/-- Along any sequence of commands the stages follow one another. -/
theorem isChain_stages (laid : Laid settings page.canvas) (commands : List Command) :
    (stages settings page commands).IsChain Stage.Follows := by
  induction commands generalizing page with
  | nil => exact .singleton _
  | cons command rest ih =>
      have step := follows_execute laid command
      have later := ih (laid.execute command)
      rw [stages]
      cases rest with
      | nil => exact .cons_cons step later
      | cons second others => exact .cons_cons step later

/-- No command changes a closed page. -/
theorem execute_of_closed (laid : Laid settings page.canvas) (closed : page.canvas.stage = .closed)
    (command : Command) : (page.execute settings command).state = page := by
  have blocks := laid.blocks_of_closed closed
  have nothing : ∀ construct, (page.endBlock construct).state = page := by
    intro construct
    rw [endBlock, Canvas.closeBlock?, blocks]
  unfold execute
  split
  case h_1 => rfl
  case h_2 => rw [openPage, closed]; rfl
  case h_3 => rw [closePage, closed]; rfl
  case h_4 => exact nothing _
  case h_5 => exact nothing _
  case h_6 =>
      rw [endTable, closeRows_of_empty blocks]
      exact nothing _
  case h_7 => rw [closed]

/-- No sequence of commands changes a closed page. -/
theorem perform_of_closed (laid : Laid settings page.canvas) (closed : page.canvas.stage = .closed)
    (commands : List Command) : ((generator settings).perform page commands).2 = page := by
  induction commands with
  | nil => rfl
  | cons command rest ih =>
      have unchanged : ((generator settings).execute page command).state = page :=
        execute_of_closed laid closed command
      rw [Generator.perform, unchanged]
      exact ih

/-! ## Elements in their places -/

/-- The innermost block around a line is the parent of what stands on it. -/
theorem Inline.wellPlaced {around : Option Block} {content : List Fragment}
    (inline : Inline around content) {stack : List String}
    (inside : ∀ block, around = some block → stack.head? = some block.element) :
    WellPlaced stack (Fragment.tags content) := by
  intro found member
  cases inline with
  | @element name _ _ listed _ item cell =>
      rw [List.mem_singleton.mp member]
      have notRow := (by decide : ∀ name ∈ inlineElements, name ≠ "tr") name listed
      refine ⟨fun row => absurd row notRow, fun isCell => inside .row (cell isCell), fun isItem => ?_⟩
      rcases (Option.any_eq_true _ _).mp (item isItem) with ⟨block, here, isList⟩
      have parent := inside block here
      cases block with
      | bulletList => exact Or.inl parent
      | numberedList => exact Or.inr parent
      | _ => cases isList
  | void listed _ =>
      rw [List.mem_singleton.mp member]
      exact Markup.inPlace_of_notMem
        ((by decide : ∀ name ∈ emptyElements, name ∉ dependentElements) _ listed) _
  | style _ =>
      rw [List.mem_singleton.mp member]
      exact Markup.inPlace_of_notMem (by decide : "style" ∉ dependentElements) _

/-- Of the blocks, only a row needs a certain parent. -/
theorem inPlace_block {block : Block} {parent : Option String}
    (inTable : block = .row → parent = some "table") : InPlace block.element parent := by
  cases block with
  | row =>
      exact ⟨fun _ => inTable rfl, fun cell => absurd cell (by decide),
        fun item => absurd item (by decide)⟩
  | _ => exact Markup.inPlace_of_notMem (by decide) parent

/-- A body puts its elements in their places, whatever it stands in. -/
theorem Body.wellPlaced {lines : List Line} {blocks : List Block} (body : Body lines blocks)
    (stack : List String) : WellPlaced stack (Fragment.tags (laidOut lines)) := by
  have inside : ∀ (blocks : List Block) (block : Block), blocks.head? = some block →
      (blocks.map Block.element ++ stack).head? = some block.element := by
    intro blocks block innermost
    rw [List.head?_append, List.head?_map, innermost]
    rfl
  induction body with
  | empty => exact nofun
  | @line _ blocks _ earlier inline ih =>
      rw [laidOut_append, Fragment.tags_append, tags_line]
      exact ih.append (earlier.nested stack) (inline.wellPlaced (inside blocks))
  | @start _ blocks block _ earlier _ inTable ih =>
      rw [laidOut_append, Fragment.tags_append, tags_line]
      refine ih.append (earlier.nested stack) ?_
      intro found member
      rw [List.mem_singleton.mp member]
      exact inPlace_block fun isRow => inside blocks .table (inTable isRow)
  | stop earlier ih =>
      rw [laidOut_append, Fragment.tags_append, tags_line]
      exact ih.append (earlier.nested stack) nofun

/-! ## Finished documents -/

theorem independent_blockTags {name : String} (other : name ∉ dependentElements)
    (text : Option String) : Independent (Document.blockTags name text) := by
  cases text with
  | none => exact nofun
  | some _ => exact independent_element other []

theorem independent_baseStylesheet (settings : Settings) :
    Independent (Fragment.tags (laidOut (placed (baseStylesheet settings)))) := by
  unfold baseStylesheet
  cases settings.stylesheet with
  | inline => exact independent_element (by decide : "style" ∉ dependentElements) _
  | external =>
      exact independent_cons.mpr
        ⟨independent_opening (by decide : "link" ∉ dependentElements) _, nofun⟩

/-- The head of a page is independent up to the end of its title. -/
theorem independent_headOf (title : String) {further : List (Nat × List Fragment)}
    (independent : Independent (Fragment.tags (laidOut (placed further)))) :
    Independent (Fragment.tags (Document.headOf title further)) := by
  have titleIndependent : Independent Document.titleTags := by
    unfold Independent
    decide +kernel
  rw [Document.tags_headOf]
  exact independent_append.mpr ⟨titleIndependent, independent⟩

/-- A head without rows, cells and items and a body with its elements in place
make an arranged document, whatever blocks are put into it. -/
theorem arranged_assembled {head body : List Fragment} (framed : Document.Framed head body)
    (independent : Independent (Fragment.tags head))
    (bodyPlaced : ∀ stack, WellPlaced stack (Fragment.tags body)) (css code : Option String) :
    Arranged (Document.assembled head body css code) := by
  have nested := (framed.isDocument css code).nested
  refine ⟨_, framed.scan_assembled css code, nested, ?_⟩
  have front : Independent
      (Fragment.tags head ++ Document.blockTags "style" css ++ [.closing "head"]) :=
    independent_append.mpr ⟨independent_append.mpr
      ⟨independent, independent_blockTags (by decide) css⟩, by unfold Independent; decide⟩
  have back : Independent
      (Document.blockTags "script" code ++ [.closing "body", .closing "html"]) :=
    independent_append.mpr ⟨independent_blockTags (by decide) code, by unfold Independent; decide⟩
  have parts : Fragment.tags head ++ Document.blockTags "style" css ++
      .closing "head" :: Fragment.tags body ++ Document.blockTags "script" code ++
        [.closing "body", .closing "html"] =
      (Fragment.tags head ++ Document.blockTags "style" css ++ [.closing "head"]) ++
        (Fragment.tags body ++
          (Document.blockTags "script" code ++ [.closing "body", .closing "html"])) := by
    simp only [List.append_assoc, List.cons_append, List.nil_append]
  -- The whole is nested, so each part leaves some elements open for the next one.
  rw [parts, Markup.nest_append] at nested
  rw [parts]
  rcases Option.bind_eq_some_iff.mp nested with ⟨inHtml, headNested, rest⟩
  rw [Markup.nest_append] at rest
  rcases Option.bind_eq_some_iff.mp rest with ⟨inBody, bodyNested, -⟩
  exact (front.wellPlaced []).append headNested
    ((bodyPlaced inHtml).append bodyNested (back.wellPlaced inBody))

theorem wellPlaced_bodyOf {lines : List Line}
    (inner : ∀ stack, WellPlaced stack (Fragment.tags (laidOut lines))) (stack : List String) :
    WellPlaced stack (Fragment.tags (Document.bodyOf lines)) := by
  have tags : Fragment.tags (Document.bodyOf lines) =
      [.opening "body" []] ++ Fragment.tags (laidOut lines) := by
    rw [Document.bodyOf, Fragment.tags_cons, Fragment.tags_cons, Fragment.tags_append]
    exact congrArg (Tag.opening "body" [] :: ·) (List.append_nil _)
  have start : Independent [.opening "body" []] := by
    unfold Independent
    decide
  rw [tags]
  exact (start.wellPlaced stack).append rfl (inner _)

/-- A page with a complete body is arranged, with any blocks put into it. -/
theorem arranged_page (settings : Settings) (title : String) {lines : List Line}
    (body : Body lines []) (css code : Option String) :
    Arranged (Document.assembled (Document.headOf title (baseStylesheet settings))
      (Document.bodyOf lines) css code) :=
  arranged_assembled (Document.framed_page settings title body)
    (independent_headOf title (independent_baseStylesheet settings))
    (wellPlaced_bodyOf body.wellPlaced) css code

theorem arranged_fallback (settings : Settings) (css code : Option String) :
    Arranged (Document.fallback settings css code) := by
  have greeting : Independent (Fragment.tags (laidOut Document.greeting)) :=
    independent_element (by decide : "h1" ∉ dependentElements) []
  rw [Document.fallback_eq_assembled]
  exact arranged_assembled (Document.framed_fallback settings) (independent_headOf _ nofun)
    (wellPlaced_bodyOf greeting.wellPlaced) css code

theorem arranged_finish (laid : Laid settings page.canvas) :
    ∃ text, page.finish.output = .ok text ∧ Arranged text := by
  rcases output_finish laid with empty | ⟨title, lines, body, written⟩
  · exact ⟨"", empty, [], rfl, rfl, nofun⟩
  · refine ⟨_, written, ?_⟩
    rw [Document.text_eq_assembled]
    exact arranged_page settings title body none none

theorem arranged_document {source : String}
    (accepted : settings.refuses source.utf8ByteSize = false) :
    ∃ document, (Report.ofSource settings source).document? = some document ∧ Arranged document := by
  rw [Report.document?_ofSource accepted]
  refine ⟨_, rfl, ?_⟩
  rcases Document.output?_page accepted with missing | empty | ⟨title, lines, body, written⟩
  · rw [missing, Document.compose, Option.bind_none, Option.getD_none]
    exact arranged_fallback settings _ _
  · rw [empty, Document.compose_empty]
    exact arranged_fallback settings _ _
  · rw [written, Document.compose_assembled (Document.framed_page settings title body)]
    exact arranged_page settings title body _ _

/-- In every state that calls can lead to, a page that is not open has nothing
half done, a closed page stays as it is, the stages follow one another until
the text is asked for, and rows stand in tables.  In the text of every page, and
in every document made from one, rows stand in tables, cells in rows and items
in lists. -/
theorem page_lifecycle (settings : Settings) :
    (∀ page, (generator settings).Reachable Generator.noMove page →
      (page.canvas.stage = .unopened → page.canvas.lines = #[] ∧ page.canvas.blocks = []) ∧
      (page.canvas.stage = .closed → page.canvas.blocks = [] ∧
        ∀ commands, ((generator settings).perform page commands).2.canvas.lines =
          page.canvas.lines) ∧
      (∀ commands, (stages settings page commands).IsChain Stage.Follows) ∧
      page.finish.state.canvas.stage = .unopened ∧
      RowsInTables page.canvas.blocks ∧
      ∃ text, page.finish.output = .ok text ∧ Arranged text) ∧
    ∀ source, settings.refuses source.utf8ByteSize = false →
      ∃ document, (Report.ofSource settings source).document? = some document ∧
        Arranged document := by
  refine ⟨fun page reachable => ?_, fun source accepted => arranged_document accepted⟩
  have laid := laid_of_reachable reachable
  refine ⟨fun unopened => ?_, fun closed => ⟨laid.blocks_of_closed closed, fun commands => ?_⟩,
    isChain_stages laid, rfl, laid.rowsInTables, arranged_finish laid⟩
  · rw [laid.eq_empty unopened]
    exact ⟨rfl, rfl⟩
  · rw [perform_of_closed laid closed commands]

/-- A page that is closed while a list is open inside a row of a table. -/
def closedTable : Page :=
  ((generator {}).perform {} [⟨"ابدأ جدول", [], ""⟩, ⟨"خانة", [⟨⟨"x", true⟩, 0⟩], ""⟩,
    ⟨"ابدأ قائمة", [], ""⟩, ⟨"عنصر", [⟨⟨"y", true⟩, 0⟩], ""⟩, ⟨"أغلق صفحة", [], ""⟩]).2

theorem page_lifecycle_closedTable :
    (generator {}).Reachable Generator.noMove closedTable ∧
      closedTable.canvas.stage = .closed ∧ closedTable.canvas.blocks = [] ∧
      (∀ commands, ((generator {}).perform closedTable commands).2.canvas.lines =
        closedTable.canvas.lines) ∧
      (∃ text, closedTable.finish.output = .ok text ∧ Arranged text) ∧
      Settings.refuses {} Document.imitation.utf8ByteSize = false ∧
      ∃ document, (Report.ofSource {} Document.imitation).document? = some document ∧
        Arranged document := by
  have reachable : (generator {}).Reachable Generator.noMove closedTable :=
    Generator.reachable_perform .initial _
  have closed : closedTable.canvas.stage = .closed := by decide +kernel
  have accepted : Settings.refuses {} Document.imitation.utf8ByteSize = false := by decide +kernel
  rcases (page_lifecycle {}).1 closedTable reachable with ⟨-, whenClosed, -, -, -, finished⟩
  rcases whenClosed closed with ⟨blocks, kept⟩
  exact ⟨reachable, closed, blocks, kept, finished, accepted, (page_lifecycle {}).2 _ accepted⟩

end Page
end Pagewright
