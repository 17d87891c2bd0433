import Pagewright.Proofs.Commands
import Pagewright.Proofs.Stylesheet.Reading
import Pagewright.Proofs.Text.Search
import Pagewright.Stylesheet.Generator

namespace Pagewright
namespace Stylesheet

/-!
# The meaning of a stylesheet

Commands for a stylesheet mean a list of declarations, each inside some media
queries and a rule.  The meaning is computed without lines, indentation or
braces, from the open media queries and the selector in force.  A sheet, on the
other hand, is nothing but lines and two numbers, and knows neither its queries
nor, at the end, where a line belongs.

Both are driven by the same operations, and a sheet is compared with a scope
after each of them: the lines written so far can be read, they declare what has
been declared so far, and the blocks that they leave open are those of the
scope.  At the end everything that is open is closed, and the text can be read
as a whole.
-/

/-! ## Operations -/

/-- What a command asks for. -/
inductive Operation where
  | select (selector : String)
  | declare (property value : String)
  | startMedia (query : String)
  | endMedia
deriving Repr, DecidableEq

/-- Some argument holds the beginning of an end tag. -/
def Refused (command : Command) : Prop :=
  ∃ word ∈ command.words, "</".toList <:+: word.text.toList

theorem holdsEndTag_iff (command : Command) : holdsEndTag command = true ↔ Refused command := by
  simp only [holdsEndTag, Refused, List.any_eq_true, Text.occursIn_iff]

instance (command : Command) : Decidable (Refused command) :=
  decidable_of_iff (holdsEndTag command = true) (holdsEndTag_iff command)

namespace Operation

/-- What a command asks for by an instruction.  Only a rule without a property
asks for nothing. -/
def ofInstruction? (command : Command) : Instruction → Option Operation
  | .select => some (.select (command.joinedD 0 "body"))
  | .selectAll =>
      let selector := command.joinedD 0 "*"
      some (.select (if selector = "*" then "*" else "* " ++ selector))
  | .rule =>
      (command.nonemptyArgument? 0).map fun property => .declare property (command.joined 1)
  | .property name default values =>
      some (.declare name (valueNamed values (command.joinedD 0 default)))
  | .fixed name value => some (.declare name value)
  | .fontFamily =>
      some (.declare "font-family" ("'" ++ command.joinedD 0 "Arial" ++ "', sans-serif"))
  | .backgroundImage =>
      let image := command.joinedD 0 "none"
      some (.declare "background-image"
        (if image = "none" then "none" else "url(" ++ image ++ ")"))
  | .startMedia => some (.startMedia (command.joinedD 0 "screen"))
  | .endMedia => some .endMedia

/-- What a command asks for.  A refused line asks for nothing, and neither does
an unknown command. -/
def ofCommand? (command : Command) : Option Operation :=
  if Refused command then
    none
  else
    (Instruction.ofKey? command.key).bind (ofInstruction? command)

/-- The texts that an operation brings into a stylesheet. -/
def texts : Operation → List String
  | .select selector => [selector]
  | .declare property value => [property, value]
  | .startMedia query => [query]
  | .endMedia => []

end Operation

/-! ## Scopes -/

/-- The headers of media queries. -/
def mediaHeaders (queries : List String) : List String :=
  queries.map ("@media " ++ ·)

theorem length_mediaHeaders (queries : List String) :
    (mediaHeaders queries).length = queries.length :=
  List.length_map _

/-- Where the next declaration will stand. -/
structure Scope where
  /-- The open media queries, innermost first. -/
  queries : List String := []
  selector : Option String := none
deriving Repr, DecidableEq

namespace Scope

/-- The headers of the open blocks, innermost first. -/
def headers (scope : Scope) : List String :=
  scope.selector.toList ++ mediaHeaders scope.queries

/-- The scope with a selector in force. -/
def withSelector (scope : Scope) : Scope :=
  { scope with selector := some (scope.selector.getD "body") }

/-- Carry out an operation: the scope behind it and what it declares.  There is
no media query to end where none is open. -/
def step? (scope : Scope) : Operation → Option (Scope × List Declared)
  | .select selector => some ({ scope with selector := some selector }, [])
  | .declare property value =>
      some (scope.withSelector,
        [⟨scope.withSelector.headers.reverse, property ++ ": " ++ value⟩])
  | .startMedia query => some ({ queries := query :: scope.queries }, [])
  | .endMedia =>
      match scope.queries with
      | [] => none
      | _ :: outer => some ({ queries := outer }, [])

/-- What operations declare, up to the first one that cannot be carried
out. -/
def declared (scope : Scope) : List Operation → List Declared
  | [] => []
  | operation :: rest =>
      match scope.step? operation with
      | none => []
      | some (next, added) => added ++ next.declared rest

end Scope

/-- What commands declare. -/
def meaning (commands : List Command) : List Declared :=
  Scope.declared {} (commands.filterMap Operation.ofCommand?)

/-! ## Commands as operations -/

namespace Sheet

/-- Carry out an operation on a sheet. -/
def carryOut? (sheet : Sheet) : Operation → Option Sheet
  | .select selector => some (sheet.select selector)
  | .declare property value => some (sheet.declare property value)
  | .startMedia query => some (sheet.startMedia query)
  | .endMedia => sheet.endMedia?

/-- Carry out operations up to the first one that cannot be. -/
def follow (sheet : Sheet) : List Operation → Sheet
  | [] => sheet
  | operation :: rest =>
      match sheet.carryOut? operation with
      | none => sheet
      | some next => next.follow rest

end Sheet

/-- An instruction does what its operation does. -/
theorem apply_eq (sheet : Sheet) (command : Command) (instruction : Instruction) :
    apply sheet command instruction =
      match Operation.ofInstruction? command instruction with
      | none => { state := sheet, warnings := ["rule needs a property name"] }
      | some operation =>
          match sheet.carryOut? operation with
          | some next => { state := next }
          | none => { state := sheet, verdict := .failed (.unmatchedClose "media query") } := by
  cases instruction with
  | rule =>
      rw [apply, Operation.ofInstruction?]
      cases command.nonemptyArgument? 0 with
      | none => rfl
      | some property => rfl
  | _ => rfl

/-- A command that asks for nothing leaves the sheet alone. -/
theorem execute_of_none {command : Command} (nothing : Operation.ofCommand? command = none)
    (sheet : Sheet) :
    (execute sheet command).state = sheet ∧
      ((execute sheet command).verdict = .handled ∨ (execute sheet command).verdict = .unknown) := by
  unfold execute
  unfold Operation.ofCommand? at nothing
  cases known : Instruction.ofKey? command.key with
  | none => exact ⟨rfl, .inr rfl⟩
  | some instruction =>
      by_cases refused : Refused command
      · simp only [(holdsEndTag_iff command).mpr refused, if_true, true_or, and_self]
      · rw [if_neg refused, known, Option.bind_some] at nothing
        have passed : ¬holdsEndTag command = true := mt (holdsEndTag_iff command).mp refused
        simp only [if_neg passed, apply_eq, nothing, true_or, and_self]

/-- A command does what its operation does. -/
theorem execute_of_some {command : Command} {operation : Operation}
    (asked : Operation.ofCommand? command = some operation) (sheet : Sheet) :
    execute sheet command =
      match sheet.carryOut? operation with
      | some next => { state := next }
      | none => { state := sheet, verdict := .failed (.unmatchedClose "media query") } := by
  unfold Operation.ofCommand? at asked
  split at asked
  case isTrue => cases asked
  case isFalse accepted =>
      rcases Option.bind_eq_some_iff.mp asked with ⟨instruction, known, found⟩
      have passed : ¬holdsEndTag command = true := mt (holdsEndTag_iff command).mp accepted
      simp only [execute, known, if_neg passed, apply_eq, found]

/-- A sheet is what the operations of its commands make it. -/
theorem state_obey (sheet : Sheet) (commands : List Command) :
    (generator.obey sheet commands).state =
      sheet.follow (commands.filterMap Operation.ofCommand?) := by
  induction commands generalizing sheet with
  | nil => rfl
  | cons command rest ih =>
      have executed : generator.execute sheet command = execute sheet command := rfl
      rw [Generator.obey, executed]
      cases asked : Operation.ofCommand? command with
      | none =>
          rcases execute_of_none asked sheet with ⟨same, handled | unknown⟩
          · simp only [handled, same, Generator.Course.behind, List.filterMap_cons_none asked, ih]
          · simp only [unknown, same, Generator.Course.behind, List.filterMap_cons_none asked, ih]
      | some operation =>
          rw [List.filterMap_cons_some asked, Sheet.follow, execute_of_some asked]
          cases sheet.carryOut? operation with
          | none => rfl
          | some next => exact ih next

/-! ## Texts of operations -/

/-- The texts that an instruction brings into a stylesheet. -/
def Instruction.texts : Instruction → List String
  | .property name default values => name :: default :: values.map Prod.snd
  | .fixed name value => [name, value]
  | _ => []

/-- The texts that do not come from arguments. -/
def fixedTexts : List String :=
  ["body", "*", "font-family", "Arial", "background-image", "none", "screen"] ++
    vocabulary.flatMap fun entry => entry.2.texts

/-- What is put in front of the text of arguments and behind it. -/
def frames : List (String × String) :=
  [("* ", ""), ("'", "', sans-serif"), ("url(", ")")]

/-- Where the texts come from that a command brings into a stylesheet. -/
inductive Supplied (command : Command) : String → Prop
  | fixed {text : String} (listed : text ∈ fixedTexts) : Supplied command text
  | argument {index : Nat} {text : String} (given : command.nonemptyArgument? index = some text) :
      Supplied command text
  | joined (start : Nat) : Supplied command (command.joined start)
  | framed {front text back : String} (frame : (front, back) ∈ frames)
      (inner : Supplied command text) : Supplied command (front ++ text ++ back)

theorem mem_fixedTexts {key : String} {instruction : Instruction}
    (found : Instruction.ofKey? key = some instruction) {text : String}
    (own : text ∈ instruction.texts) : text ∈ fixedTexts := by
  apply List.mem_append_right
  exact List.mem_flatMap.mpr ⟨(key, instruction), mem_of_lookup found, own⟩

namespace Supplied

variable {command : Command}

theorem joinedD {default : String} (listed : default ∈ fixedTexts) (start : Nat) :
    Supplied command (command.joinedD start default) := by
  unfold Command.joinedD
  dsimp only
  split
  · exact .fixed listed
  · exact .joined start

theorem valueNamed {values : List (String × String)} {word : String}
    (listed : ∀ text ∈ values.map Prod.snd, text ∈ fixedTexts) (supplied : Supplied command word) :
    Supplied command (valueNamed values word) := by
  unfold Stylesheet.valueNamed
  cases found : values.lookup word with
  | none => exact supplied
  | some value => exact .fixed (listed value (List.mem_map_of_mem (mem_of_lookup found)))

/-- Every text of an operation is fixed, or comes from the arguments. -/
theorem ofInstruction? {instruction : Instruction} {operation : Operation}
    (known : ∀ text ∈ instruction.texts, text ∈ fixedTexts)
    (asked : Operation.ofInstruction? command instruction = some operation) :
    ∀ text ∈ operation.texts, Supplied command text := by
  cases instruction with
  | select =>
      cases asked
      simpa only [Operation.texts, List.forall_mem_singleton] using joinedD (by decide) 0
  | selectAll =>
      cases asked
      simp only [Operation.texts, List.forall_mem_singleton]
      split
      · exact .fixed (by decide)
      · have supplied : Supplied command ("* " ++ command.joinedD 0 "*" ++ "") :=
          .framed (by decide) (joinedD (by decide) 0)
        rwa [String.append_empty] at supplied
  | rule =>
      rcases Option.map_eq_some_iff.mp asked with ⟨property, given, rfl⟩
      simp only [Operation.texts, List.forall_mem_cons]
      exact ⟨.argument given, .joined 1, List.forall_mem_nil _⟩
  | property name default values =>
      cases asked
      simp only [Instruction.texts, List.forall_mem_cons] at known
      simp only [Operation.texts, List.forall_mem_cons]
      exact ⟨.fixed known.1, valueNamed known.2.2 (joinedD known.2.1 0), List.forall_mem_nil _⟩
  | fixed name value =>
      cases asked
      exact fun text member => .fixed (known text member)
  | fontFamily =>
      cases asked
      simp only [Operation.texts, List.forall_mem_cons]
      refine ⟨.fixed (by decide), ?_, List.forall_mem_nil _⟩
      exact .framed (by decide) (joinedD (by decide) 0)
  | backgroundImage =>
      cases asked
      simp only [Operation.texts, List.forall_mem_cons]
      refine ⟨.fixed (by decide), ?_, List.forall_mem_nil _⟩
      split
      · exact .fixed (by decide)
      · exact .framed (by decide) (joinedD (by decide) 0)
  | startMedia =>
      cases asked
      simpa only [Operation.texts, List.forall_mem_singleton] using joinedD (by decide) 0
  | endMedia =>
      cases asked
      exact List.forall_mem_nil _

/-- Only a line that is not refused brings texts into a stylesheet. -/
theorem ofCommand? {operation : Operation} (asked : Operation.ofCommand? command = some operation) :
    ¬Refused command ∧ ∀ text ∈ operation.texts, Supplied command text := by
  unfold Operation.ofCommand? at asked
  split at asked
  case isTrue => cases asked
  case isFalse accepted =>
      rcases Option.bind_eq_some_iff.mp asked with ⟨instruction, known, found⟩
      exact ⟨accepted, ofInstruction? (fun _ => mem_fixedTexts known) found⟩

theorem avoids {text : String} (supplied : Supplied command text)
    (arguments : command.Avoids delimiters) : Text.Avoids delimiters text := by
  induction supplied with
  | @fixed text listed =>
      have all : ∀ text ∈ fixedTexts, Text.Avoids delimiters text := by decide +kernel
      exact all text listed
  | argument given => exact arguments.nonemptyArgument? given
  | joined start => exact arguments.joined (by decide) start
  | @framed front text back frame _ ih =>
      have all : ∀ entry ∈ frames, Text.Avoids delimiters entry.1 ∧
        Text.Avoids delimiters entry.2 := by decide
      rcases all (front, back) frame with ⟨first, last⟩
      exact (first.append ih).append last

end Supplied

theorem avoids_ofCommand? {command : Command} {operation : Operation}
    (avoids : command.Avoids delimiters)
    (asked : Operation.ofCommand? command = some operation) :
    ∀ text ∈ operation.texts, Text.Avoids delimiters text := by
  intro text member
  exact ((Supplied.ofCommand? asked).2 text member).avoids avoids

/-! ## Sheets and scopes -/

namespace Reads

variable {lines : Array (Text.Indented Entry)} {declared : List Declared}

/-- One more line leads on from where the lines so far have led. -/
theorem push {before after : List String} {added : List Declared}
    (reads : Reads [] (lines.toList.map written) declared before) {line : Text.Indented Entry}
    (step : Reads before [written line] added after) :
    Reads [] ((lines.push line).toList.map written) (declared ++ added) after := by
  rw [Array.toList_push, List.map_append, List.map_singleton]
  exact reads.append step

theorem pushOpening {headers : List String} {header : String} {depth : Nat}
    (reads : Reads [] (lines.toList.map written) declared headers)
    (inside : depth = headers.length) (avoids : Text.Avoids delimiters header) :
    Reads [] ((lines.push ⟨depth, .opening header⟩).toList.map written) declared
      (header :: headers) := by
  rw [inside, ← List.append_nil declared]
  exact reads.push (opening avoids headers)

theorem pushClosing {header : String} {outer : List String} {depth : Nat}
    (reads : Reads [] (lines.toList.map written) declared (header :: outer))
    (inside : depth = outer.length) :
    Reads [] ((lines.push ⟨depth, .closing⟩).toList.map written) declared outer := by
  rw [inside, ← List.append_nil declared]
  exact reads.push (closing header outer)

end Reads

/-- The lines of a sheet show what has been declared, and leave open the blocks
of the scope. -/
structure Shows (sheet : Sheet) (scope : Scope) (declared : List Declared) : Prop where
  queries : sheet.queries = scope.queries.length
  selector : sheet.selector = scope.selector
  declarations : sheet.declarations = declared.length
  reads : Reads [] (sheet.lines.toList.map written) declared scope.headers

namespace Shows

variable {sheet : Sheet} {scope : Scope} {declared : List Declared}

theorem initial : Shows {} {} [] :=
  ⟨rfl, rfl, rfl, Reads.nil []⟩

/-- Lines are written at the depth of the open media queries. -/
theorem depth (shows : Shows sheet scope declared) :
    sheet.queries = (mediaHeaders scope.queries).length := by
  rw [shows.queries, length_mediaHeaders]

theorem closeRule (shows : Shows sheet scope declared) :
    Shows sheet.closeRule { scope with selector := none } declared := by
  rcases scope with ⟨queries, selector⟩
  cases selector with
  | none =>
      have closed : sheet.closeRule = sheet := by
        rw [Sheet.closeRule, shows.selector]
      rw [closed]
      exact shows
  | some selector =>
      have closed : sheet.closeRule = { sheet with selector := none }.write .closing := by
        rw [Sheet.closeRule, shows.selector]
      rw [closed]
      exact ⟨shows.queries, rfl, shows.declarations, shows.reads.pushClosing shows.depth⟩

theorem select (shows : Shows sheet scope declared) {selector : String}
    (avoids : Text.Avoids delimiters selector) :
    Shows (sheet.select selector) { scope with selector := some selector } declared := by
  have closed := shows.closeRule
  exact ⟨closed.queries, rfl, closed.declarations, closed.reads.pushOpening closed.depth avoids⟩

theorem withRule (shows : Shows sheet scope declared) :
    Shows sheet.withRule scope.withSelector declared := by
  unfold Sheet.withRule Scope.withSelector
  rw [shows.selector]
  cases inForce : scope.selector with
  | none => exact shows.select (by decide)
  | some selector =>
      have same : { scope with selector := some selector } = scope := by
        rw [← inForce]
      rw [Option.getD_some, same]
      exact shows

theorem declare (shows : Shows sheet scope declared) {property value : String}
    (name : Text.Avoids delimiters property) (given : Text.Avoids delimiters value) :
    Shows (sheet.declare property value) scope.withSelector
      (declared ++ [⟨scope.withSelector.headers.reverse, property ++ ": " ++ value⟩]) := by
  have ready := shows.withRule
  have depth : sheet.withRule.queries + 1 = scope.withSelector.headers.length := by
    simp only [ready.queries, Scope.withSelector, Scope.headers, Option.toList_some,
      List.length_append, List.length_singleton, length_mediaHeaders, Nat.add_comm]
  refine ⟨ready.queries, ready.selector, ?_, ?_⟩
  · rw [List.length_append, ← ready.declarations]
    rfl
  · apply ready.reads.push
    rw [depth]
    exact Reads.declaration name given (List.cons_ne_nil _ _)

theorem startMedia (shows : Shows sheet scope declared) {query : String}
    (avoids : Text.Avoids delimiters query) :
    Shows (sheet.startMedia query) { queries := query :: scope.queries } declared := by
  have closed := shows.closeRule
  refine ⟨congrArg (· + 1) closed.queries, closed.selector, closed.declarations, ?_⟩
  exact closed.reads.pushOpening closed.depth (Text.Avoids.append (by decide) avoids)

/-- What an operation does to a scope, it does to a sheet. -/
theorem step (shows : Shows sheet scope declared) {operation : Operation}
    (avoids : ∀ text ∈ operation.texts, Text.Avoids delimiters text) :
    match scope.step? operation with
    | none => sheet.carryOut? operation = none
    | some (after, added) =>
        ∃ next, sheet.carryOut? operation = some next ∧ Shows next after (declared ++ added) := by
  cases operation with
  | select selector =>
      refine ⟨_, rfl, ?_⟩
      rw [List.append_nil]
      exact shows.select (avoids selector (by simp [Operation.texts]))
  | declare property value =>
      refine ⟨_, rfl, shows.declare ?_ ?_⟩
      · exact avoids property (by simp [Operation.texts])
      · exact avoids value (by simp [Operation.texts])
  | startMedia query =>
      refine ⟨_, rfl, ?_⟩
      rw [List.append_nil]
      exact shows.startMedia (avoids query (by simp [Operation.texts]))
  | endMedia =>
      rcases scope with ⟨queries, selector⟩
      cases queries with
      | nil =>
          have none : sheet.queries = 0 := shows.queries
          simp only [Scope.step?, Sheet.carryOut?, Sheet.endMedia?, none]
      | cons query outer =>
          have nested : sheet.queries = outer.length + 1 := shows.queries
          have closed := shows.closeRule
          simp only [Scope.step?, Sheet.carryOut?, Sheet.endMedia?, nested, List.append_nil]
          refine ⟨_, rfl, rfl, closed.selector, closed.declarations, ?_⟩
          exact closed.reads.pushClosing (length_mediaHeaders outer).symm

/-- Along operations, a sheet shows what they declare. -/
theorem follow (shows : Shows sheet scope declared) {operations : List Operation}
    (avoids : ∀ operation ∈ operations, ∀ text ∈ operation.texts, Text.Avoids delimiters text) :
    ∃ after, Shows (sheet.follow operations) after (declared ++ scope.declared operations) := by
  induction operations generalizing sheet scope declared with
  | nil =>
      refine ⟨scope, ?_⟩
      rw [Scope.declared, List.append_nil]
      exact shows
  | cons operation rest ih =>
      have stepped := shows.step (avoids operation List.mem_cons_self)
      rw [Sheet.follow, Scope.declared]
      cases next : scope.step? operation with
      | none =>
          rw [next] at stepped
          refine ⟨scope, ?_⟩
          rw [stepped, List.append_nil]
          exact shows
      | some result =>
          rw [next] at stepped
          rcases stepped with ⟨sheet', carried, later⟩
          rw [carried, ← List.append_assoc]
          exact ih later fun other member => avoids other (List.mem_cons_of_mem operation member)

theorem closingLines {lines : Array (Text.Indented Entry)} {queries : List String}
    (reads : Reads [] (lines.toList.map written) declared (mediaHeaders queries)) :
    Reads [] ((Sheet.closingLines lines queries.length).toList.map written) declared [] := by
  induction queries generalizing lines with
  | nil => exact reads
  | cons query outer ih =>
      rw [List.length_cons, Sheet.closingLines]
      exact ih (reads.pushClosing (length_mediaHeaders outer).symm)

/-- At the end every block is closed. -/
theorem closeAll (shows : Shows sheet scope declared) :
    Shows sheet.closeAll {} declared := by
  have closed := shows.closeRule
  refine ⟨rfl, closed.selector, closed.declarations, ?_⟩
  rw [Sheet.closeAll, closed.queries]
  exact closingLines closed.reads

/-- The text of a sheet without open blocks is read as what it shows, unless it
shows nothing. -/
theorem reading_render (shows : Shows sheet {} declared) (nonempty : declared ≠ []) :
    reading sheet.render = some declared := by
  have some : sheet.declarations ≠ 0 := by
    rw [shows.declarations]
    exact fun none => nonempty (List.length_eq_zero_iff.mp none)
  have read := shows.reads.readLines_eq
  rw [Sheet.render, if_neg some, Text.Indented.renderAll]
  apply reading_joinLines
  · intro empty
    rw [List.map_eq_nil_iff.mp empty] at read
    cases read
    exact nonempty rfl
  · rw [List.map_map]
    exact read

end Shows

theorem reading_emptyText : reading Sheet.emptyText = none := by decide

/-- A stylesheet means what its commands say.  When no argument holds a
delimiter, the text stands for no declarations exactly if nothing is declared,
and otherwise it can be read, and says what is declared in which blocks. -/
theorem stylesheet_means_commands (commands : List Command)
    (avoids : ∀ command ∈ commands, command.Avoids delimiters) :
    ∃ text, (finish (generator.obey generator.initial commands).state).output = .ok text ∧
      (∀ sections : List Section,
        Generator.commandsOf (sections.flatMap Section.lines) = commands →
          (generator.run sections).output = text) ∧
      (text = Sheet.emptyText ↔ meaning commands = []) ∧
      (meaning commands ≠ [] → reading text = some (meaning commands)) := by
  have plain : ∀ operation ∈ commands.filterMap Operation.ofCommand?,
      ∀ text ∈ operation.texts, Text.Avoids delimiters text := by
    intro operation member
    rcases List.mem_filterMap.mp member with ⟨command, listed, asked⟩
    exact avoids_ofCommand? (avoids command listed) asked
  rcases Shows.initial.follow plain with ⟨scope, shows⟩
  rw [List.nil_append, ← state_obey] at shows
  have closed : Shows (generator.obey generator.initial commands).state.closeAll {}
      (meaning commands) := shows.closeAll
  refine ⟨_, rfl, ?_, ?_, closed.reading_render⟩
  · intro sections same
    have said := congrArg Account.output (generator.account_run sections)
    rw [same] at said
    exact said
  · constructor
    · intro empty
      by_contra declares
      have read := closed.reading_render declares
      rw [empty, reading_emptyText] at read
      cases read
    · intro nothing
      rw [Sheet.render, closed.declarations, nothing, List.length_nil, if_pos rfl]

/-- Nested media queries with a rule inside, rules without a selector on either
side of it, two lines that are left out, and a line behind the fault. -/
def narrowPrint : List Command :=
  [⟨"media_query", [⟨⟨"print", false⟩, 0⟩], ""⟩, ⟨"width", [⟨⟨"1", false⟩, 0⟩], ""⟩,
    ⟨"media_query", [], ""⟩, ⟨"حدد", [⟨⟨"p", false⟩, 0⟩], ""⟩, ⟨"width", [⟨⟨"2", false⟩, 0⟩], ""⟩,
    ⟨"rule", [], ""⟩, ⟨"width", [⟨⟨"</", false⟩, 0⟩], ""⟩, ⟨"end_media", [], ""⟩,
    ⟨"width", [⟨⟨"3", false⟩, 0⟩], ""⟩, ⟨"end_media", [], ""⟩, ⟨"end_media", [], ""⟩,
    ⟨"width", [⟨⟨"4", false⟩, 0⟩], ""⟩]

theorem stylesheet_means_commands_narrowPrint :
    (∀ command ∈ narrowPrint, command.Avoids delimiters) ∧
      ∃ text, (finish (generator.obey generator.initial narrowPrint).state).output = .ok text ∧
        text ≠ Sheet.emptyText ∧
        reading text = some
          [⟨["@media print", "body"], "width: 1"⟩,
            ⟨["@media print", "@media screen", "p"], "width: 2"⟩,
            ⟨["@media print", "body"], "width: 3"⟩] := by
  have avoids : ∀ command ∈ narrowPrint, command.Avoids delimiters := by decide
  have means : meaning narrowPrint =
      [⟨["@media print", "body"], "width: 1"⟩,
        ⟨["@media print", "@media screen", "p"], "width: 2"⟩,
        ⟨["@media print", "body"], "width: 3"⟩] := by decide +kernel
  rcases stylesheet_means_commands narrowPrint avoids with ⟨text, finished, -, empty, read⟩
  have declares : meaning narrowPrint ≠ [] := by
    rw [means]
    exact List.cons_ne_nil _ _
  refine ⟨avoids, text, finished, mt empty.mp declares, ?_⟩
  rw [read declares, means]

end Stylesheet
end Pagewright
