import Pagewright.Proofs.Page.Body

namespace Pagewright

/-!
# Bracketed programs

Starts and ends of blocks are brackets.  A list or a section may be ended by any
end command, because an end closes the innermost block whatever its kind.  A
table needs its own end: a cell or a row in it opens a block that no bracket
stands for, and only the end of a table closes that block as well.

A bracketed program therefore does not keep the open blocks as they are.  It
keeps them up to rows that are innermost (`rowless`), and this is what the
induction over programs carries.  A block between two brackets keeps even the
rows around it, because its start puts another block on top of them.

Programs may also stop early.  Which ends are then missing is said on commands
alone (`Lacks`), without the canvas, and the text does not depend on who closes
the blocks: missing ends or the end of the page.
-/

/-- The commands behind this one are still read. -/
def Verdict.Continues (verdict : Verdict) : Prop :=
  verdict = .handled ∨ verdict = .unknown

namespace Generator

variable {σ : Type}

theorem perform_append (generator : Generator σ) (state : σ) (front back : List Command) :
    generator.perform state (front ++ back) =
      ((generator.perform state front).1 ++
          (generator.perform (generator.perform state front).2 back).1,
        (generator.perform (generator.perform state front).2 back).2) := by
  induction front generalizing state with
  | nil => rfl
  | cons command front ih =>
      rw [List.cons_append, perform, ih]
      rfl

end Generator

namespace Page

/-! ## Brackets -/

/-- The block that a content starts, if it starts one. -/
def Content.block? : Content → Option Block
  | .startBulletList => some .bulletList
  | .startNumberedList => some .numberedList
  | .startSection => some .section
  | .startTable => some .table
  | _ => none

/-- A command that is no bracket: an unknown one, one that opens the page, or
content that starts no block. -/
inductive NoBracket : Option Instruction → Prop
  | unknown : NoBracket none
  | openPage : NoBracket (some .openPage)
  | content {content : Content} (single : content.block? = none) :
      NoBracket (some (.content content))

/-- The command starts a block of the given kind. -/
def Starts (command : Command) (block : Block) : Prop :=
  ∃ content : Content, Instruction.ofKey? command.key = some (.content content) ∧
    content.block? = some block

/-- The end commands for a block. -/
inductive IsEnd : Block → Instruction → Prop
  | list {block : Block} (other : block ≠ .table) : IsEnd block .endList
  | section {block : Block} (other : block ≠ .table) : IsEnd block .endSection
  | table (block : Block) : IsEnd block .endTable

/-- The command may end a block of the given kind. -/
def Ends (command : Command) (block : Block) : Prop :=
  ∃ instruction, Instruction.ofKey? command.key = some instruction ∧ IsEnd block instruction

/-- Programs in which every start has its end. -/
inductive Bracketed : List Command → Prop
  | nil : Bracketed []
  | plain {command : Command} {rest : List Command}
      (plain : NoBracket (Instruction.ofKey? command.key)) (later : Bracketed rest) :
      Bracketed (command :: rest)
  | block {start stop : Command} {block : Block} {inner rest : List Command}
      (starts : Starts start block) (inside : Bracketed inner) (ends : Ends stop block)
      (later : Bracketed rest) : Bracketed (start :: (inner ++ stop :: rest))

/-- The end commands that a program lacks, innermost first. -/
inductive Lacks : List Command → List Command → Prop
  | nothing {front : List Command} (bracketed : Bracketed front) : Lacks front []
  | stop {before inner ends : List Command} {start stop : Command} {block : Block}
      (bracketed : Bracketed before) (starts : Starts start block) (inside : Lacks inner ends)
      (closes : Ends stop block) : Lacks (before ++ start :: inner) (ends ++ [stop])

theorem Bracketed.append {front back : List Command} (first : Bracketed front)
    (second : Bracketed back) : Bracketed (front ++ back) := by
  induction first with
  | nil => exact second
  | plain plain _ ih => exact .plain plain ih
  | @block start stop block inner rest starts inside ends _ _ ih =>
      rw [List.cons_append, List.append_assoc, List.cons_append]
      exact .block starts inside ends ih

/-- With the ends that it lacks, a program is bracketed. -/
theorem Lacks.bracketed_append {front ends : List Command} (lacks : Lacks front ends) :
    Bracketed (front ++ ends) := by
  induction lacks with
  | nothing bracketed =>
      rw [List.append_nil]
      exact bracketed
  | @stop before inner ends start stop block bracketed starts _ closes ih =>
      have parts : before ++ start :: inner ++ (ends ++ [stop]) =
          before ++ start :: (inner ++ ends ++ stop :: []) := by
        simp only [List.append_assoc, List.cons_append]
      rw [parts]
      exact bracketed.append (.block starts ih closes .nil)

theorem Lacks.ends {front ends : List Command} (lacks : Lacks front ends) :
    ∀ stop ∈ ends, ∃ block, Ends stop block := by
  induction lacks with
  | nothing => exact fun _ member => absurd member List.not_mem_nil
  | stop _ _ _ closes ih =>
      intro other member
      rcases List.mem_append.mp member with inner | last
      · exact ih other inner
      · rw [List.mem_singleton.mp last]
        exact ⟨_, closes⟩

/-- A bracketed program in front lacks nothing. -/
theorem Lacks.prepend {before front ends : List Command} (bracketed : Bracketed before)
    (lacks : Lacks front ends) : Lacks (before ++ front) ends := by
  cases lacks with
  | nothing rest => exact .nothing (bracketed.append rest)
  | stop between starts inside closes =>
      rw [← List.append_assoc]
      exact .stop (bracketed.append between) starts inside closes

/-- Every front part of a bracketed program lacks some ends: those that the
program has for it further on. -/
theorem Bracketed.exists_lacks {program front : List Command} (bracketed : Bracketed program)
    (begins : front <+: program) : ∃ ends, Lacks front ends := by
  induction bracketed generalizing front with
  | nil =>
      rw [List.prefix_nil.mp begins]
      exact ⟨[], .nothing .nil⟩
  | @plain command rest plain _ ih =>
      rcases List.prefix_cons_iff.mp begins with rfl | ⟨later, rfl, inRest⟩
      · exact ⟨[], .nothing .nil⟩
      · rcases ih inRest with ⟨ends, lacks⟩
        exact ⟨ends, lacks.prepend (.plain plain .nil)⟩
  | @block start stop block inner rest starts inside ends _ innerIh restIh =>
      rcases List.prefix_cons_iff.mp begins with rfl | ⟨later, rfl, behind⟩
      · exact ⟨[], .nothing .nil⟩
      -- The front part reaches behind the start: into the block, or past its end.
      rcases List.prefix_or_prefix_of_prefix behind (List.prefix_append inner (stop :: rest)) with
        inInner | ⟨further, rfl⟩
      · rcases innerIh inInner with ⟨missing, lacks⟩
        exact ⟨missing ++ [stop], .stop .nil starts lacks ends⟩
      · rcases List.prefix_cons_iff.mp ((List.prefix_append_right_inj inner).mp behind) with
          rfl | ⟨last, rfl, inRest⟩
        · rw [List.append_nil]
          exact ⟨[] ++ [stop], .stop .nil starts (.nothing inside) ends⟩
        · rcases restIh inRest with ⟨missing, lacks⟩
          have whole := lacks.prepend (.block starts inside ends .nil)
          rw [List.cons_append, List.append_assoc] at whole
          exact ⟨missing, whole⟩

/-! ## Rows that are innermost -/

/-- The open blocks without the rows that are innermost. -/
def rowless (blocks : List Block) : List Block :=
  blocks.dropWhile fun block => decide (block = .row)

theorem rowless_cons {block : Block} (other : block ≠ .row) (outer : List Block) :
    rowless (block :: outer) = block :: outer :=
  List.dropWhile_cons_of_neg (by simpa using other)

theorem rowless_row (outer : List Block) : rowless (.row :: outer) = rowless outer :=
  List.dropWhile_cons_of_pos rfl

/-- At most one row is innermost, and it stands in a table. -/
theorem rowless_cases {blocks : List Block} (inTables : RowsInTables blocks) :
    rowless blocks = blocks ∨
      ∃ outer, blocks = .row :: .table :: outer ∧ rowless blocks = .table :: outer := by
  cases blocks with
  | nil => exact .inl rfl
  | cons block outer =>
      by_cases row : block = .row
      · rcases List.head?_eq_some_iff.mp (inTables.1 row) with ⟨further, rfl⟩
        subst row
        exact .inr ⟨further, rfl, (rowless_row _).trans (rowless_cons (by decide) further)⟩
      · exact .inl (rowless_cons row outer)

theorem blocks_closeRows (canvas : Canvas) : canvas.closeRows.blocks = rowless canvas.blocks := by
  have closed : ∀ (lines : Array Line) (blocks : List Block),
      (Canvas.closingRows lines blocks).2 = rowless blocks := by
    intro lines blocks
    fun_induction Canvas.closingRows lines blocks with
    | case1 lines outer ih => rw [ih, rowless_row]
    | case2 lines blocks other =>
        cases blocks with
        | nil => rfl
        | cons block outer => exact (rowless_cons (fun row => other outer (row ▸ rfl)) outer).symm
  exact closed canvas.lines canvas.blocks

theorem rowless_withoutRow (canvas : Canvas) :
    rowless (withoutRow canvas).blocks = rowless canvas.blocks := by
  unfold withoutRow
  split
  case isTrue inRow =>
      rcases List.head?_eq_some_iff.mp inRow with ⟨outer, blocks⟩
      rw [Canvas.closeBlock?, blocks]
      exact (rowless_row outer).symm
  case isFalse => rfl

theorem rowless_withRow (canvas : Canvas) :
    rowless (withRow canvas).blocks = rowless canvas.blocks := by
  unfold withRow
  split
  case isTrue => exact rowless_row canvas.blocks
  case isFalse => rfl

/-! ## One command -/

variable {settings : Settings} {page : Page}

/-- Content that starts no block is taken, and opens or closes rows at most. -/
theorem add_single {content : Content} (single : content.block? = none) (page : Page)
    (command : Command) :
    (page.add command content).verdict = .handled ∧
      rowless (page.add command content).state.canvas.blocks = rowless page.canvas.blocks := by
  have override : ∀ declaration, (page.styleOverride declaration).verdict = .handled ∧
      rowless (page.styleOverride declaration).state.canvas.blocks = rowless page.canvas.blocks := by
    intro declaration
    unfold styleOverride
    split
    · exact ⟨rfl, rfl⟩
    · exact ⟨rfl, rfl⟩
  cases content <;> dsimp only [add]
  case startBulletList => cases single
  case startNumberedList => cases single
  case startSection => cases single
  case startTable => cases single
  case backgroundColor => exact override _
  case textColor => exact override _
  case font => exact override _
  case listItem =>
      unfold listItem
      split
      · exact ⟨rfl, rfl⟩
      · exact ⟨rfl, rfl⟩
  case checkbox =>
      unfold checkbox
      cases command.nonemptyArgument? 1 with
      | none => exact ⟨rfl, rfl⟩
      | some label => exact ⟨rfl, rfl⟩
  case tableRow =>
      unfold tableRow
      dsimp only
      split
      · exact ⟨rfl, (rowless_withRow _).trans (rowless_withoutRow _)⟩
      · exact ⟨rfl, rowless_withoutRow _⟩
  case tableCell =>
      unfold tableCell
      dsimp only
      split
      · exact ⟨rfl, rowless_withRow _⟩
      · exact ⟨rfl, rfl⟩
  all_goals exact ⟨rfl, rfl⟩

/-- Content that starts a block puts it on top of the others. -/
theorem add_start {content : Content} {block : Block} (starts : content.block? = some block)
    (page : Page) (command : Command) :
    (page.add command content).verdict = .handled ∧
      (page.add command content).state.canvas.blocks = block :: page.canvas.blocks := by
  cases content <;> cases starts <;> exact ⟨rfl, rfl⟩

/-- Content is added to an open page with the same blocks, which is begun where
there is none. -/
theorem execute_content (laid : Laid settings page.canvas) (running : page.canvas.stage ≠ .closed)
    {command : Command} {content : Content}
    (found : Instruction.ofKey? command.key = some (.content content)) :
    ∃ entered : Page, Opened settings entered.canvas ∧ entered.canvas.blocks = page.canvas.blocks ∧
      page.execute settings command = entered.add command content := by
  unfold execute
  rw [found]
  dsimp only
  cases stage : page.canvas.stage with
  | unopened => exact ⟨_, laid.begin stage _, (toList_placeAll _ _).2.1, rfl⟩
  | opened => exact ⟨page, laid.isOpened stage, rfl, rfl⟩
  | closed => exact absurd stage running

/-- A page after some commands: none of them ended the reading, the page is not
closed, and up to rows the same blocks are open. -/
structure Kept (settings : Settings) (before : Page) (verdicts : List Verdict) (after : Page) :
    Prop where
  laid : Laid settings after.canvas
  continues : ∀ verdict ∈ verdicts, verdict.Continues
  running : after.canvas.stage ≠ .closed
  blocks : rowless after.canvas.blocks = rowless before.canvas.blocks

theorem kept_plain (laid : Laid settings page.canvas) (running : page.canvas.stage ≠ .closed)
    {command : Command} (plain : NoBracket (Instruction.ofKey? command.key)) :
    Kept settings page [(page.execute settings command).verdict]
      (page.execute settings command).state := by
  have stays := laid.execute command
  generalize found : Instruction.ofKey? command.key = instruction at plain
  cases plain with
  | unknown =>
      rw [execute, found] at stays ⊢
      exact ⟨stays, List.forall_mem_singleton.mpr (.inr rfl), running, rfl⟩
  | openPage =>
      rw [execute, found] at stays ⊢
      dsimp only [openPage] at stays ⊢
      cases stage : page.canvas.stage with
      | unopened =>
          rw [stage] at stays
          have opened := laid.begin stage (command.argumentD 0 settings.defaultTitle)
          refine ⟨stays, List.forall_mem_singleton.mpr (.inl rfl), ?_, ?_⟩
          · rw [opened.stage]
            decide
          · exact congrArg rowless (toList_placeAll _ _).2.1
      | opened =>
          rw [stage] at stays
          exact ⟨stays, List.forall_mem_singleton.mpr (.inl rfl), running, rfl⟩
      | closed => exact absurd stage running
  | @content content single =>
      rcases execute_content laid running found with ⟨entered, opened, same, executed⟩
      rcases add_single single entered command with ⟨handled, blocks⟩
      rw [executed] at stays ⊢
      refine ⟨stays, List.forall_mem_singleton.mpr (.inl handled), ?_, ?_⟩
      · rw [(opened.add command found).stage]
        decide
      · rw [blocks, same]

theorem execute_start (laid : Laid settings page.canvas) (running : page.canvas.stage ≠ .closed)
    {start : Command} {block : Block} (starts : Starts start block) :
    (page.execute settings start).verdict = .handled ∧
      (page.execute settings start).state.canvas.stage = .opened ∧
      (page.execute settings start).state.canvas.blocks = block :: page.canvas.blocks := by
  rcases starts with ⟨content, found, opens⟩
  rcases execute_content laid running found with ⟨entered, opened, same, executed⟩
  rcases add_start opens entered start with ⟨handled, blocks⟩
  rw [executed]
  exact ⟨handled, (opened.add start found).stage, by rw [blocks, same]⟩

theorem endBlock_cons {block : Block} {outer : List Block}
    (blocks : page.canvas.blocks = block :: outer) (construct : String) :
    (page.endBlock construct).verdict = .handled ∧
      (page.endBlock construct).state.canvas.stage = page.canvas.stage ∧
      (page.endBlock construct).state.canvas.blocks = outer := by
  rw [endBlock, Canvas.closeBlock?, blocks]
  exact ⟨rfl, rfl, rfl⟩

/-- The end of a block closes it, and the row that may be open in it. -/
theorem execute_stop (inTables : RowsInTables page.canvas.blocks) {stop : Command} {block : Block}
    {outer : List Block} (ends : Ends stop block)
    (blocks : rowless page.canvas.blocks = block :: outer) :
    (page.execute settings stop).verdict = .handled ∧
      (page.execute settings stop).state.canvas.stage = page.canvas.stage ∧
      (page.execute settings stop).state.canvas.blocks = outer := by
  rcases ends with ⟨instruction, found, isEnd⟩
  -- Only above a table could a row be innermost.
  have innermost : block ≠ .table → page.canvas.blocks = block :: outer := by
    intro other
    rcases rowless_cases inTables with same | ⟨further, -, table⟩
    · rw [← same, blocks]
    · exact absurd (List.cons.inj (blocks.symm.trans table)).1 other
  unfold execute
  rw [found]
  cases isEnd with
  | list other => exact endBlock_cons (innermost other) "list"
  | «section» other => exact endBlock_cons (innermost other) "section"
  | table =>
      exact @endBlock_cons { page with canvas := page.canvas.closeRows } block outer
        ((blocks_closeRows page.canvas).trans blocks) "table"

/-! ## Whole programs -/

theorem Starts.ne_row {start : Command} {block : Block} (starts : Starts start block) :
    block ≠ .row := by
  rcases starts with ⟨content, -, opens⟩
  cases content <;> cases opens <;> decide

/-- A bracketed program runs to its end on any page that is not closed. -/
theorem Bracketed.kept {program : List Command} (bracketed : Bracketed program)
    (laid : Laid settings page.canvas) (running : page.canvas.stage ≠ .closed) :
    Kept settings page (((generator settings).perform page program).1.map Prod.snd)
      ((generator settings).perform page program).2 := by
  induction bracketed generalizing page with
  | nil => exact ⟨laid, fun _ member => absurd member List.not_mem_nil, running, rfl⟩
  | @plain command rest plain _ ih =>
      have first := kept_plain laid running plain
      have later := ih first.laid first.running
      refine ⟨later.laid, ?_, later.running, later.blocks.trans first.blocks⟩
      exact List.forall_mem_cons.mpr
        ⟨first.continues _ List.mem_cons_self, later.continues⟩
  | @block start stop block inner rest starts _ ends _ innerIh restIh =>
      rcases execute_start laid running starts with ⟨started, opened, onTop⟩
      have inside := innerIh (laid.execute start) (by rw [opened]; decide)
      have around := inside.blocks
      rw [onTop, rowless_cons starts.ne_row] at around
      -- The end brings back exactly the blocks in front of the start, rows included.
      rcases execute_stop inside.laid.rowsInTables ends around with ⟨stopped, stage, blocks⟩
      have behind := restIh (inside.laid.execute stop) (stage ▸ inside.running)
      rw [Generator.perform, Generator.perform_append, Generator.perform]
      refine ⟨behind.laid, ?_, behind.running, ?_⟩
      · rw [List.map_cons, List.map_append, List.map_cons]
        refine List.forall_mem_cons.mpr ⟨.inl started, List.forall_mem_append.mpr
          ⟨inside.continues, List.forall_mem_cons.mpr ⟨.inl stopped, behind.continues⟩⟩⟩
      · exact behind.blocks.trans (congrArg rowless blocks)

/-! ## Missing ends -/

theorem closingLines_closingRows (lines : Array Line) (blocks : List Block) :
    Canvas.closingLines (Canvas.closingRows lines blocks).1 (Canvas.closingRows lines blocks).2 =
      Canvas.closingLines lines blocks := by
  fun_induction Canvas.closingRows lines blocks with
  | case1 lines outer ih => exact ih
  | case2 lines blocks other => rfl

/-- Closing rows first makes no difference to a page that is then concluded. -/
theorem closeBlocks_closeRows (canvas : Canvas) :
    canvas.closeRows.closeBlocks = canvas.closeBlocks := by
  unfold Canvas.closeBlocks
  rw [← closingLines_closingRows canvas.lines canvas.blocks]
  rfl

/-- Neither does closing the innermost block. -/
theorem closeBlocks_closeBlock {canvas closed : Canvas} (closes : canvas.closeBlock? = some closed) :
    closed.closeBlocks = canvas.closeBlocks := by
  unfold Canvas.closeBlock? at closes
  split at closes
  case h_1 => cases closes
  case h_2 block outer blocks =>
      cases closes
      rw [Canvas.closeBlocks, Canvas.closeBlocks, blocks]
      rfl

/-- What is written at the end of an open page depends on the page with its
blocks closed. -/
theorem output_of_closeBlocks {left right : Page} (leftOpened : left.canvas.stage = .opened)
    (rightOpened : right.canvas.stage = .opened)
    (same : left.canvas.closeBlocks = right.canvas.closeBlocks) :
    left.finish.output = right.finish.output := by
  rw [finish, finish, leftOpened, rightOpened]
  dsimp only [conclude, Canvas.closePage]
  rw [same]

theorem output_closeRows (laid : Laid settings page.canvas) :
    { page with canvas := page.canvas.closeRows }.finish.output = page.finish.output := by
  cases blocks : page.canvas.blocks with
  | nil => rw [closeRows_of_empty blocks]
  | cons block outer =>
      have opened := laid.isOpened_of_blocks blocks
      exact output_of_closeBlocks opened.closeRows.stage opened.stage (closeBlocks_closeRows _)

theorem output_endBlock (laid : Laid settings page.canvas) {construct : String}
    (continues : (page.endBlock construct).verdict.Continues) :
    (page.endBlock construct).state.finish.output = page.finish.output := by
  unfold endBlock at continues ⊢
  split at continues
  case h_1 closed closes =>
      cases blocks : page.canvas.blocks with
      | nil =>
          rw [Canvas.closeBlock?, blocks] at closes
          cases closes
      | cons block outer =>
          have opened := laid.isOpened_of_blocks blocks
          exact output_of_closeBlocks (opened.closeBlock closes).stage opened.stage
            (closeBlocks_closeBlock closes)
  case h_2 =>
      rcases continues with handled | unknown
      · cases handled
      · cases unknown

/-- An end command that finds a block to end changes nothing in the text. -/
theorem output_stop (laid : Laid settings page.canvas) {stop : Command} {block : Block}
    (ends : Ends stop block) (continues : (page.execute settings stop).verdict.Continues) :
    (page.execute settings stop).state.finish.output = page.finish.output := by
  rcases ends with ⟨instruction, found, isEnd⟩
  unfold execute at continues ⊢
  rw [found] at continues ⊢
  cases isEnd with
  | list => exact output_endBlock laid continues
  | «section» => exact output_endBlock laid continues
  | table => exact (output_endBlock laid.closeRows continues).trans (output_closeRows laid)

theorem output_stops (laid : Laid settings page.canvas) {ends : List Command}
    (areEnds : ∀ stop ∈ ends, ∃ block, Ends stop block)
    (continues : ∀ verdict ∈ ((generator settings).perform page ends).1.map Prod.snd,
      verdict.Continues) :
    ((generator settings).perform page ends).2.finish.output = page.finish.output := by
  induction ends generalizing page with
  | nil => rfl
  | cons stop others ih =>
      rcases List.forall_mem_cons.mp areEnds with ⟨⟨block, isEnd⟩, others⟩
      rcases List.forall_mem_cons.mp continues with ⟨first, later⟩
      exact (ih (laid.execute stop) others later).trans (output_stop laid isEnd first)

/-- On a fresh page every bracketed program runs without a failure and leaves no
block open.  A program that stops early has the same text as one that goes on
with the ends it lacks, whichever of the possible ends these are. -/
theorem bracketed_program_closes (settings : Settings) {program : List Command}
    (bracketed : Bracketed program) :
    (∀ answer ∈ ((generator settings).perform (generator settings).initial program).1,
      answer.2 = .handled ∨ answer.2 = .unknown) ∧
    ((generator settings).perform (generator settings).initial program).2.canvas.blocks = [] ∧
    ∀ front, front <+: program → (∃ ends, Lacks front ends) ∧ ∀ ends, Lacks front ends →
      ∃ text,
        ((generator settings).perform (generator settings).initial front).2.finish.output =
          .ok text ∧
        ((generator settings).perform (generator settings).initial (front ++ ends)).2.finish.output =
          .ok text := by
  have fresh : Laid settings (generator settings).initial.canvas := .unopened
  have running : (generator settings).initial.canvas.stage ≠ .closed :=
    (by decide : Stage.unopened ≠ .closed)
  have kept := bracketed.kept fresh running
  refine ⟨List.forall_mem_map.mp kept.continues, ?_, fun front begins =>
    ⟨bracketed.exists_lacks begins, fun ends lacks => ?_⟩⟩
  · rcases rowless_cases kept.laid.rowsInTables with same | ⟨outer, -, table⟩
    · rw [← same, kept.blocks]
      rfl
    · rw [kept.blocks] at table
      cases table
  · have whole := (lacks.bracketed_append.kept fresh running).continues
    rw [Generator.perform_append, List.map_append] at whole
    have laid : Laid settings
        ((generator settings).perform (generator settings).initial front).2.canvas :=
      laid_of_reachable (Generator.reachable_perform .initial front)
    refine ⟨_, rfl, ?_⟩
    rw [Generator.perform_append]
    exact output_stops laid lacks.ends (List.forall_mem_append.mp whole).2

/-- A section around a table around a list.  The section is closed by the end of
a list, and the list by the end of a table. -/
def interleaved : List Command :=
  [⟨"ابدأ قسم", [], ""⟩, ⟨"ابدأ جدول", [], ""⟩, ⟨"خانة", [⟨⟨"x", true⟩, 0⟩], ""⟩,
    ⟨"ابدأ قائمة", [], ""⟩, ⟨"عنصر", [⟨⟨"y", true⟩, 0⟩], ""⟩, ⟨"أنهِ جدول", [], ""⟩,
    ⟨"صف", [], ""⟩, ⟨"أنهِ جدول", [], ""⟩, ⟨"أنهِ قائمة", [], ""⟩]

/-- Ends for the first five commands of `interleaved`. -/
def missingEnds : List Command :=
  [⟨"أغلق قسم", [], ""⟩, ⟨"أنهِ جدول", [], ""⟩, ⟨"أنهِ جدول", [], ""⟩]

theorem bracketed_program_closes_interleaved :
    Bracketed interleaved ∧ interleaved.take 5 <+: interleaved ∧
      Lacks (interleaved.take 5) missingEnds ∧
      ((generator {}).perform (generator {}).initial interleaved).2.canvas.blocks = [] ∧
      ∃ text,
        ((generator {}).perform (generator {}).initial (interleaved.take 5)).2.finish.output =
          .ok text ∧
        ((generator {}).perform (generator {}).initial
          (interleaved.take 5 ++ missingEnds)).2.finish.output = .ok text := by
  have inSection : Starts ⟨"ابدأ قسم", [], ""⟩ .section := ⟨.startSection, by decide +kernel, rfl⟩
  have inTable : Starts ⟨"ابدأ جدول", [], ""⟩ .table := ⟨.startTable, by decide +kernel, rfl⟩
  have inList : Starts ⟨"ابدأ قائمة", [], ""⟩ .bulletList :=
    ⟨.startBulletList, by decide +kernel, rfl⟩
  have tableEnd : ∀ block, Ends ⟨"أنهِ جدول", [], ""⟩ block :=
    fun block => ⟨.endTable, by decide +kernel, .table block⟩
  have listEnd : Ends ⟨"أنهِ قائمة", [], ""⟩ .section :=
    ⟨.endList, by decide +kernel, .list (by decide)⟩
  have sectionEnd : Ends ⟨"أغلق قسم", [], ""⟩ .bulletList :=
    ⟨.endSection, by decide +kernel, .section (by decide)⟩
  have cell : ∀ {rest}, Bracketed rest → Bracketed (⟨"خانة", [⟨⟨"x", true⟩, 0⟩], ""⟩ :: rest) :=
    .plain (.content rfl : NoBracket (some (.content .tableCell)))
  have item : Bracketed [⟨"عنصر", [⟨⟨"y", true⟩, 0⟩], ""⟩] :=
    .plain (.content rfl : NoBracket (some (.content .listItem))) .nil
  have row : Bracketed [⟨"صف", [], ""⟩] :=
    .plain (.content rfl : NoBracket (some (.content .tableRow))) .nil
  have whole : Bracketed interleaved :=
    @Bracketed.block _ _ _ (interleaved.tail.take 7) [] inSection
      (@Bracketed.block _ _ _ ((interleaved.drop 2).take 5) [] inTable
        (cell (@Bracketed.block _ _ _ [_] [_] inList item (tableEnd _) row)) (tableEnd _) .nil)
      listEnd .nil
  have lacks : Lacks (interleaved.take 5) missingEnds :=
    @Lacks.stop [] _ (missingEnds.take 2) _ _ _ .nil inSection
      (@Lacks.stop [] _ (missingEnds.take 1) _ _ _ .nil inTable
        (@Lacks.stop [_] _ [] _ _ _ (cell .nil) inList (.nothing item) sectionEnd) (tableEnd _))
      (tableEnd _)
  have begins : interleaved.take 5 <+: interleaved := List.take_prefix 5 interleaved
  rcases bracketed_program_closes {} whole with ⟨-, closed, completed⟩
  exact ⟨whole, begins, lacks, closed, (completed _ begins).2 _ lacks⟩

end Page
end Pagewright
