import Pagewright.Proofs.Page.Elements
import Pagewright.Proofs.Stylesheet.Meaning
import Pagewright.Proofs.Stylesheet.Strings

namespace Pagewright

/-!
# Two commands for a font

A font can be set from a page and from a stylesheet.  Either command makes a
declaration of the font's name: a string, and behind it the generic font for
readers that do not have the one named.

On a page the name is escaped, so the string stands for the name whatever the
name holds, and what follows the declaration is read as it was written.  In a
stylesheet the name is put between quotes as it is.  That is right for names
without quotes and backslashes, and for no others: a quote ends the string
inside the name, a backslash is lost or takes the closing quote along.  Names of
the first kind are also exactly those for which the two commands agree.
-/

/-! ## Commands with one argument -/

namespace Command

variable {command : Command} {name : String}

theorem argumentD_of_single (given : command.words.map Word.text = [name]) (filled : name ≠ "")
    (default : String) : command.argumentD 0 default = name := by
  have found : command.argument? 0 = some name := by
    rw [argument?, ← List.getElem?_map, given]
    rfl
  have kept : (!name.isEmpty) = true := by simpa using filled
  rw [argumentD, nonemptyArgument?, found, Option.filter_some, if_pos kept, Option.getD_some]

theorem joinedD_of_single (given : command.words.map Word.text = [name]) (filled : name ≠ "")
    (default : String) : command.joinedD 0 default = name := by
  have joint : command.joined 0 = name := by
    rw [joined, List.drop_zero, given, String.intercalate_singleton]
  have kept : ¬name.isEmpty = true := by simpa using filled
  rw [joinedD, joint]
  exact if_neg kept

end Command

/-! ## On a page -/

namespace Page

open Markup (Fragment)

/-- The page that content is added to: one that was not opened is begun. -/
def begun (settings : Settings) (page : Page) : Page :=
  match page.canvas.stage with
  | .unopened => page.begin settings settings.defaultTitle
  | .opened | .closed => page

theorem blocks_begun (settings : Settings) (page : Page) :
    (page.begun settings).canvas.blocks = page.canvas.blocks := by
  unfold begun
  split
  · exact (toList_placeAll page.canvas (opening settings settings.defaultTitle)).2.1
  · rfl
  · rfl

theorem execute_eq_add_begun {command : Command} {content : Content}
    (known : Instruction.ofKey? command.key = some (.content content)) {page : Page}
    (unclosed : page.canvas.stage ≠ .closed) (settings : Settings) :
    page.execute settings command = (page.begun settings).add command content := by
  unfold execute begun
  rw [known]
  cases stage : page.canvas.stage with
  | unopened => rfl
  | opened => rfl
  | closed => exact absurd stage unclosed

theorem Canvas.texts_write (canvas : Canvas) (content : List Fragment) :
    (canvas.write content).texts =
      canvas.texts ++ [Text.indentation canvas.blocks.length ++ Fragment.renderLine content] := by
  rw [Canvas.texts, Canvas.written_write, List.map_append]
  rfl

/-- A command does nothing but override one declaration of the body, in a style
element on a line of its own. -/
structure Overrides (settings : Settings) (page : Page) (command : Command)
    (declaration : String) : Prop where
  handled : (page.execute settings command).verdict = .handled
  silent : (page.execute settings command).warnings = []
  written : (page.execute settings command).state.canvas.texts =
    (page.begun settings).canvas.texts ++
      [Text.indentation page.canvas.blocks.length ++
        ("<style>body \x7b " ++ declaration ++ " \x7d</style>")]

theorem overrides_of_execute {settings : Settings} {page : Page} {command : Command}
    {declaration : String} (bracketFree : '<' ∉ declaration.toList)
    (asked : page.execute settings command = (page.begun settings).styleOverride declaration) :
    page.Overrides settings command declaration := by
  have accepted : ¬declaration.toList.contains '<' = true := by simpa using bracketFree
  have line : Fragment.renderLine (Fragment.style ("body \x7b " ++ declaration ++ " \x7d")) =
      "<style>body \x7b " ++ declaration ++ " \x7d</style>" := by
    apply String.toList_injective
    simp [Fragment.renderLine, Fragment.style, Fragment.render]
  rw [styleOverride, if_neg accepted, writeLine] at asked
  constructor
  case handled => rw [asked]
  case silent => rw [asked]
  case written => rw [asked, Canvas.texts_write, line, blocks_begun]

/-- The name is escaped. -/
theorem overrides_font {page : Page} {command : Command} {name : String}
    (known : Instruction.ofKey? command.key = some (.content .font))
    (unclosed : page.canvas.stage ≠ .closed) (given : command.words.map Word.text = [name])
    (filled : name ≠ "") (bracketFree : '<' ∉ name.toList) (settings : Settings) :
    page.Overrides settings command
      ("font-family: " ++ (Text.singleQuoted name ++ ", sans-serif") ++ ";") := by
  apply overrides_of_execute
  case bracketFree =>
      simp [Text.mem_singleQuoted (by decide : '<' ≠ '\'') (by decide), bracketFree]
  case asked =>
      rw [execute_eq_add_begun known unclosed, add, Command.argumentD_of_single given filled]
      congr 1
      apply String.toList_injective
      simp

end Page

/-! ## In a stylesheet -/

namespace Stylesheet

/-- The texts of the lines of a sheet. -/
def Sheet.texts (sheet : Sheet) : List String :=
  sheet.lines.toList.map (Text.Indented.render Entry.render)

/-- A command does nothing but add one declaration to the rule that is open, or
to one for the body. -/
structure Declares (sheet : Sheet) (command : Command) (declaration : String) : Prop where
  handled : (execute sheet command).verdict = .handled
  silent : (execute sheet command).warnings = []
  written : (execute sheet command).state.texts =
    sheet.withRule.texts ++ [Text.indentation (sheet.withRule.queries + 1) ++ declaration]

theorem declares_of_ofCommand? {command : Command} {property value : String}
    (asked : Operation.ofCommand? command = some (.declare property value)) (sheet : Sheet) :
    Declares sheet command (property ++ ": " ++ value ++ ";") := by
  have executed : execute sheet command = { state := sheet.declare property value } :=
    execute_of_some asked sheet
  constructor
  case handled => rw [executed]
  case silent => rw [executed]
  case written =>
      rw [executed, Sheet.texts, Sheet.declare, Array.toList_push, List.map_append]
      rfl

/-- The name stands between the quotes as it is. -/
theorem declares_font {command : Command} {name : String}
    (known : Instruction.ofKey? command.key = some .fontFamily)
    (given : command.words.map Word.text = [name]) (filled : name ≠ "")
    (bracketFree : '<' ∉ name.toList) (sheet : Sheet) :
    Declares sheet command ("font-family: " ++ ("'" ++ name ++ "', sans-serif") ++ ";") := by
  have accepted : ¬Refused command := by
    rintro ⟨word, member, holds⟩
    have listed : word.text ∈ command.words.map Word.text := List.mem_map_of_mem member
    rw [given, List.mem_singleton] at listed
    rw [listed] at holds
    exact bracketFree (holds.subset List.mem_cons_self)
  have asked : Operation.ofCommand? command =
      some (.declare "font-family" ("'" ++ name ++ "', sans-serif")) := by
    rw [Operation.ofCommand?, if_neg accepted, known, Option.bind_some, Operation.ofInstruction?,
      Command.joinedD_of_single given filled]
  exact declares_of_ofCommand? asked sheet

end Stylesheet

/-! ## The two strings -/

namespace Text

/-- The characters that have a meaning between single quotes. -/
def quoteMarks : List Char := ['\'', '\\']

theorem avoids_quoteMarks_iff {text : String} :
    Avoids quoteMarks text ↔ ∀ c ∈ text.toList, c ≠ '\'' ∧ c ≠ '\\' := by
  simp only [Avoids, quoteMarks, List.mem_cons, List.not_mem_nil, or_false, not_or]

theorem singleQuoted_of_avoids {text : String} (avoids : Avoids quoteMarks text) :
    singleQuoted text = "'" ++ text ++ "'" := by
  have plain : ∀ c ∈ text.toList, singleQuotedChar c = [c] := by
    intro c member
    rcases avoids_quoteMarks_iff.mp avoids c member with ⟨unquoted, ordinary⟩
    rw [singleQuotedChar, if_neg ordinary, if_neg unquoted]
  rw [singleQuoted, List.flatMap_congr plain, List.flatMap_singleton', String.ofList_toList]

end Text

/-! ## The two declarations -/

open Stylesheet.Quoted (Escapes read? lineEnds)

/-- By a rule for backslashes, a value is read as a string that stands for the
name of a font, with the generic font behind it and then what follows. -/
def NamesFont (escapes : Escapes) (value name : String) (behind : List Char) : Prop :=
  read? escapes (value.toList ++ behind) = some (name.toList, ", sans-serif".toList ++ behind)

section

variable {name : String} (inLine : Text.Avoids lineEnds name) (escapes : Escapes)
  (behind : List Char)

include inLine

theorem namesFont_escaped :
    NamesFont escapes (Text.singleQuoted name ++ ", sans-serif") name behind := by
  rw [NamesFont, String.toList_append, List.append_assoc]
  exact Stylesheet.Quoted.read?_singleQuoted inLine _

theorem namesFont_verbatim_iff :
    NamesFont escapes ("'" ++ name ++ "', sans-serif") name behind ↔
      Text.Avoids Text.quoteMarks name := by
  have parts : ("'" ++ name ++ "', sans-serif").toList ++ behind =
      '\'' :: (name.toList ++ '\'' :: (", sans-serif".toList ++ behind)) := by
    simp
  rw [NamesFont, parts, Text.avoids_quoteMarks_iff]
  exact Stylesheet.Quoted.read?_verbatim_iff inLine _

end

/-- The values are the same exactly if there is nothing to escape. -/
theorem escaped_eq_verbatim_iff {name : String} (inLine : Text.Avoids lineEnds name) :
    Text.singleQuoted name ++ ", sans-serif" = "'" ++ name ++ "', sans-serif" ↔
      Text.Avoids Text.quoteMarks name := by
  constructor
  · intro same
    have read := namesFont_escaped inLine .single []
    rw [same] at read
    exact (namesFont_verbatim_iff inLine .single []).mp read
  · intro avoids
    rw [Text.singleQuoted_of_avoids avoids]
    apply String.toList_injective
    simp

/-- A font is set from a page and from a stylesheet by the same name, a text on one
line without brackets.  On every page that is not closed, and in every sheet,
either command does nothing but declare a font.  The value on the page is read as
a string that stands for the name, by either rule for backslashes and whatever
follows.  The value in the sheet is the same exactly if the name holds neither
quotes nor backslashes, and it is read in this way exactly then. -/
theorem font_commands_agree_iff {page : Page} {override family : Command} {name : String}
    (settings : Settings) (sheet : Stylesheet.Sheet) (unclosed : page.canvas.stage ≠ .closed)
    (onPage : override.key = "غيّر الخط إلى") (inSheet : family.key ∈ ["الخط", "نوع_الخط"])
    (overrideName : override.words.map Word.text = [name])
    (familyName : family.words.map Word.text = [name]) (filled : name ≠ "")
    (bracketFree : '<' ∉ name.toList) (inLine : Text.Avoids lineEnds name) :
    ∃ overriding declared : String,
      page.Overrides settings override ("font-family: " ++ overriding ++ ";") ∧
      Stylesheet.Declares sheet family ("font-family: " ++ declared ++ ";") ∧
      (∀ escapes behind, NamesFont escapes overriding name behind) ∧
      (overriding = declared ↔ Text.Avoids Text.quoteMarks name) ∧
      ∀ escapes behind,
        NamesFont escapes declared name behind ↔ Text.Avoids Text.quoteMarks name := by
  have sets : Page.Instruction.ofKey? override.key = some (.content .font) := by
    rw [onPage]
    decide +kernel
  have declares : Stylesheet.Instruction.ofKey? family.key = some .fontFamily := by
    simp only [List.mem_cons, List.not_mem_nil, or_false] at inSheet
    rcases inSheet with key | key
    · rw [key]
      decide +kernel
    · rw [key]
      decide +kernel
  exact ⟨_, _, Page.overrides_font sets unclosed overrideName filled bracketFree settings,
    Stylesheet.declares_font declares familyName filled bracketFree sheet,
    namesFont_escaped inLine, escaped_eq_verbatim_iff inLine, namesFont_verbatim_iff inLine⟩

/-- A name with an apostrophe, given on a page. -/
def apostropheOnPage : Command :=
  ⟨"غيّر الخط إلى", [⟨⟨"O'Font", true⟩, 25⟩], "غيّر الخط إلى \"O'Font\""⟩

/-- The same name, given in a stylesheet. -/
def apostropheInSheet : Command :=
  ⟨"الخط", [⟨⟨"O'Font", true⟩, 9⟩], "الخط \"O'Font\""⟩

/-- It is escaped on the page only. -/
theorem font_commands_agree_iff_apostrophe :
    Command.ofLine? "غيّر الخط إلى \"O'Font\"" = some apostropheOnPage ∧
      Command.ofLine? "الخط \"O'Font\"" = some apostropheInSheet ∧
      (Stylesheet.execute {} apostropheInSheet).state.texts =
        ["body \x7b", "  font-family: 'O'Font', sans-serif;"] ∧
      ∃ overriding declared : String,
        Page.Overrides {} {} apostropheOnPage ("font-family: " ++ overriding ++ ";") ∧
        Stylesheet.Declares {} apostropheInSheet ("font-family: " ++ declared ++ ";") ∧
        (∀ escapes behind, NamesFont escapes overriding "O'Font" behind) ∧
        overriding ≠ declared ∧
        ∀ escapes behind, ¬NamesFont escapes declared "O'Font" behind := by
  have holds : ¬Text.Avoids Text.quoteMarks "O'Font" := by decide
  refine ⟨by decide +kernel, by decide +kernel, by decide +kernel, ?_⟩
  rcases @font_commands_agree_iff {} apostropheOnPage apostropheInSheet "O'Font" {} {} (by decide)
    rfl List.mem_cons_self rfl rfl (by decide) (by decide) (by decide) with
    ⟨overriding, declared, first, second, read, same, alike⟩
  refine ⟨overriding, declared, first, second, read, mt same.mp holds, ?_⟩
  intro escapes behind
  exact mt (alike escapes behind).mp holds

end Pagewright
