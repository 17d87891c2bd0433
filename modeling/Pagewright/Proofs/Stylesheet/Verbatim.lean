import Mathlib.Data.List.Chain
import Pagewright.Proofs.Document
import Pagewright.Proofs.Generator
import Pagewright.Proofs.Stylesheet.Meaning

namespace Pagewright

/-!
# Stylesheets inside documents

A line of commands is refused if one of its arguments holds the beginning of an
end tag, and nothing else is ever checked.  Arguments are then joined, replaced,
put between fixed texts and written below each other, and each of these could
put a bracket in front of a slash.  It does not, because wherever two texts meet
one of them is fixed, and fixed texts neither end with a bracket nor begin with a
slash.

Such a text is called solid.  What comes from a command is free of end tags, then
what is on a line, and then the text of a sheet, along all calls.  So there is
nothing in a stylesheet that has to be broken up, and its element in a document
holds the stylesheet as it is.
-/

/-! ## Seams -/

namespace Text

/-- No bracket of the text stands in front of a slash. -/
def NoEndTag (text : String) : Prop :=
  ¬"</".toList <:+: text.toList

instance (text : String) : Decidable (NoEndTag text) :=
  decidable_of_iff (occursIn "</" text = false) (by rw [Bool.eq_false_iff, Ne, occursIn_iff, NoEndTag])

theorem noEndTag_iff_isChain {text : String} :
    NoEndTag text ↔ text.toList.IsChain fun c next => ¬(c = '<' ∧ next = '/') := by
  rw [List.isChain_iff_forall_rel_of_append_cons_cons]
  constructor
  · rintro free c next front back parts ⟨rfl, rfl⟩
    exact free ⟨front, back, by rw [parts]; simp⟩
  · rintro apart ⟨front, back, parts⟩
    exact @apart '<' '/' front back (by rw [← parts]; simp) ⟨rfl, rfl⟩

theorem noEndTag_of_notMem {text : String} (bracketFree : '<' ∉ text.toList) : NoEndTag text := by
  intro holds
  apply bracketFree
  exact holds.subset List.mem_cons_self

/-- A text that may meet any other text on either side. -/
structure Solid (text : String) : Prop where
  inner : NoEndTag text
  first : text.toList.head? ≠ some '/'
  last : text.toList.getLast? ≠ some '<'

instance (text : String) : Decidable (Solid text) :=
  decidable_of_iff
    (NoEndTag text ∧ text.toList.head? ≠ some '/' ∧ text.toList.getLast? ≠ some '<')
    ⟨fun ⟨inner, first, last⟩ => ⟨inner, first, last⟩,
      fun solid => ⟨solid.inner, solid.first, solid.last⟩⟩

namespace NoEndTag

variable {front middle back : String}

/-- Two texts may be put together if they do not meet in an end tag. -/
theorem append (first : NoEndTag front) (second : NoEndTag back)
    (apart : front.toList.getLast? ≠ some '<' ∨ back.toList.head? ≠ some '/') :
    NoEndTag (front ++ back) := by
  rw [noEndTag_iff_isChain] at first second ⊢
  rw [String.toList_append, List.isChain_append]
  refine ⟨first, second, ?_⟩
  rintro c last next begins ⟨rfl, rfl⟩
  rcases apart with apart | apart
  · exact apart last
  · exact apart begins

theorem behindSolid (solid : Solid front) (free : NoEndTag back) : NoEndTag (front ++ back) :=
  solid.inner.append free (.inl solid.last)

theorem beforeSolid (free : NoEndTag front) (solid : Solid back) : NoEndTag (front ++ back) :=
  free.append solid.inner (.inr solid.first)

/-- A solid text keeps two others apart, unless it is empty. -/
theorem between (first : NoEndTag front) (second : NoEndTag back) (solid : Solid middle)
    (filled : middle.toList ≠ []) : NoEndTag (front ++ middle ++ back) := by
  rw [String.append_assoc]
  apply first.append (second.behindSolid solid)
  rw [String.toList_append, List.head?_append_of_ne_nil _ filled]
  exact .inr solid.first

theorem intercalate {separator : String} (solid : Solid separator) (filled : separator.toList ≠ [])
    {texts : List String} (each : ∀ text ∈ texts, NoEndTag text) :
    NoEndTag (String.intercalate separator texts) := by
  induction texts with
  | nil =>
      rw [String.intercalate_nil]
      exact noEndTag_of_notMem List.not_mem_nil
  | cons text others ih =>
      rw [List.forall_mem_cons] at each
      cases others with
      | nil =>
          rw [String.intercalate_singleton]
          exact each.1
      | cons next rest =>
          rw [String.intercalate_cons_cons]
          exact each.1.between (ih each.2) solid filled

/-- Lines keep their contents apart, at any depth. -/
theorem renderAll {α : Type} {write : α → String} {lines : Array (Indented α)}
    (each : ∀ line ∈ lines, NoEndTag (write line.content)) :
    NoEndTag (Indented.renderAll write lines) := by
  apply intercalate (by decide) (by decide)
  intro text member
  rcases List.mem_map.mp member with ⟨line, listed, rfl⟩
  have bracketFree := @notMem_indentation '<' (by decide) line.depth
  apply (noEndTag_of_notMem bracketFree).append (each line (Array.mem_toList_iff.mp listed))
  exact .inl fun last => bracketFree (List.mem_of_getLast? last)

end NoEndTag

end Text

/-! ## Texts of commands -/

namespace Stylesheet

open Text (NoEndTag Solid Indented)

/-- What an accepted line brings into a stylesheet has no end tag. -/
theorem Supplied.noEndTag {command : Command} {text : String} (supplied : Supplied command text)
    (accepted : ¬Refused command) : NoEndTag text := by
  have argument : ∀ word ∈ command.words, NoEndTag word.text :=
    fun word member holds => accepted ⟨word, member, holds⟩
  induction supplied with
  | @fixed text listed =>
      have all : ∀ text ∈ fixedTexts, NoEndTag text := by decide +kernel
      exact all text listed
  | argument given =>
      rw [Command.nonemptyArgument?, Option.filter_eq_some_iff] at given
      rcases Option.map_eq_some_iff.mp given.1 with ⟨word, found, rfl⟩
      exact argument word (List.mem_of_getElem? found)
  | joined start =>
      apply NoEndTag.intercalate (by decide) (by decide)
      intro text member
      rcases List.mem_map.mp member with ⟨word, listed, rfl⟩
      exact argument word (List.mem_of_mem_drop listed)
  | @framed front text back frame _ ih =>
      have all : ∀ entry ∈ frames, Solid entry.1 ∧ Solid entry.2 := by decide
      rcases all (front, back) frame with ⟨first, last⟩
      exact (ih.behindSolid first).beforeSolid last

/-! ## Sheets -/

/-- No line holds an end tag. -/
def Tagless (lines : Array (Indented Entry)) : Prop :=
  ∀ line ∈ lines, NoEndTag line.content.render

namespace Tagless

variable {lines : Array (Indented Entry)} {sheet : Sheet}

theorem push (tagless : Tagless lines) {entry : Entry} (free : NoEndTag entry.render)
    (depth : Nat) : Tagless (lines.push ⟨depth, entry⟩) := by
  intro line member
  rcases Array.mem_push.mp member with earlier | rfl
  · exact tagless line earlier
  · exact free

theorem pushOpening (tagless : Tagless lines) {header : String} (free : NoEndTag header)
    (depth : Nat) : Tagless (lines.push ⟨depth, .opening header⟩) := by
  apply tagless.push
  exact free.beforeSolid (by decide)

theorem pushDeclaration (tagless : Tagless lines) {property value : String}
    (name : NoEndTag property) (given : NoEndTag value) (depth : Nat) :
    Tagless (lines.push ⟨depth, .declaration property value⟩) := by
  apply tagless.push
  exact (name.between given (by decide) (by decide)).beforeSolid (by decide)

theorem pushClosing (tagless : Tagless lines) (depth : Nat) :
    Tagless (lines.push ⟨depth, .closing⟩) := by
  apply tagless.push
  exact (by decide : Solid "\x7d").inner

theorem closeRule (tagless : Tagless sheet.lines) : Tagless sheet.closeRule.lines := by
  unfold Sheet.closeRule
  split
  · exact tagless.pushClosing _
  · exact tagless

theorem select (tagless : Tagless sheet.lines) {selector : String} (free : NoEndTag selector) :
    Tagless (sheet.select selector).lines :=
  tagless.closeRule.pushOpening free _

theorem withRule (tagless : Tagless sheet.lines) : Tagless sheet.withRule.lines := by
  unfold Sheet.withRule
  split
  · exact tagless
  · exact tagless.select (by decide : Solid "body").inner

/-- Whatever is asked for, with texts that have no end tag, adds no end tag. -/
theorem carryOut? (tagless : Tagless sheet.lines) {operation : Operation} {next : Sheet}
    (free : ∀ text ∈ operation.texts, NoEndTag text)
    (carried : sheet.carryOut? operation = some next) : Tagless next.lines := by
  cases operation with
  | select selector =>
      cases carried
      exact tagless.select (free selector (by simp [Operation.texts]))
  | declare property value =>
      cases carried
      apply tagless.withRule.pushDeclaration
      · exact free property (by simp [Operation.texts])
      · exact free value (by simp [Operation.texts])
  | startMedia query =>
      cases carried
      apply tagless.closeRule.pushOpening
      exact (free query (by simp [Operation.texts])).behindSolid (by decide)
  | endMedia =>
      rw [Sheet.carryOut?, Sheet.endMedia?] at carried
      split at carried
      · cases carried
      · cases carried
        exact tagless.closeRule.pushClosing _

/-- One command adds no end tag. -/
theorem execute (tagless : Tagless sheet.lines) (command : Command) :
    Tagless (execute sheet command).state.lines := by
  cases asked : Operation.ofCommand? command with
  | none =>
      rw [(execute_of_none asked sheet).1]
      exact tagless
  | some operation =>
      rcases Supplied.ofCommand? asked with ⟨accepted, supplied⟩
      rw [execute_of_some asked]
      cases carried : sheet.carryOut? operation with
      | none => exact tagless
      | some next =>
          exact tagless.carryOut? (fun text member => (supplied text member).noEndTag accepted) carried

theorem closingLines (tagless : Tagless lines) (queries : Nat) :
    Tagless (Sheet.closingLines lines queries) := by
  induction queries generalizing lines with
  | zero => exact tagless
  | succ outer ih => exact ih (tagless.pushClosing outer)

theorem closeAll (tagless : Tagless sheet.lines) : Tagless sheet.closeAll.lines :=
  tagless.closeRule.closingLines _

/-- No sequence of calls leads to an end tag. -/
theorem ofReachable (reachable : generator.Reachable Generator.noMove sheet) :
    Tagless sheet.lines := by
  induction reachable with
  | initial =>
      intro line member
      exact absurd member (Array.not_mem_empty line)
  | execute _ command ih => exact ih.execute command
  | finish _ ih => exact ih.closeAll
  | move _ moved => cases moved

theorem render (tagless : Tagless sheet.lines) : NoEndTag sheet.render := by
  unfold Sheet.render
  split
  · exact Text.noEndTag_of_notMem (by decide)
  · exact Text.NoEndTag.renderAll tagless

end Tagless

end Stylesheet

/-! ## Style elements -/

namespace Document

open Markup (Fragment Scans)

/-- The document has an element without attributes, from whose start tag to whose
end tag nothing but this text stands. -/
def Encloses (document name inner : String) : Prop :=
  ∃ front back tags,
    document = front ++ ("<" ++ name ++ ">") ++ inner ++ ("</" ++ name ++ ">") ++ back ∧
      Scans .content (front ++ ("<" ++ name ++ ">")).toList (tags ++ [.opening name []])
        (.raw name) ∧
      Scans (.raw name) inner.toList [] (.raw name) ∧
      Scans (.raw name) ("</" ++ name ++ ">").toList [.closing name] .content

/-- A stylesheet that has no end tag stands in its document as it is. -/
theorem encloses_style {head body : List Fragment} (framed : Framed head body) {css : String}
    (free : Text.NoEndTag css) (code : Option String) :
    Encloses (assembled head body (some css) code) "style" ("\n" ++ css ++ "\n  ") := by
  have kept : Markup.guardEndTags "style" css = css := Markup.guardEndTags_of_free free "style"
  have raw : "style" ∈ Markup.rawElements := by decide
  have start : Fragment.Readable .content [.verbatim "  ", .start "style" []] (.raw "style") :=
    .cons (show '<' ∉ _ by decide) (.cons ⟨by decide, List.forall_mem_nil _⟩ (.nil _))
  have endTagFree : Markup.EndTagFree "style" css.toList :=
    kept ▸ Markup.endTagFree_guardEndTags "style" css
  refine ⟨Fragment.renderLine head ++ "  ", "\n" ++ Fragment.renderLine (.stop "head" :: body) ++
    block "script" code ++ Fragment.renderLine closing, Fragment.tags head, ?_, ?_, ?_, ?_⟩
  · apply String.toList_injective
    simp [assembled, block, element, inside, kept]
  · have opened := (framed.headReadable.append start).scans
    have written : Fragment.renderLine [.verbatim "  ", .start "style" []] =
        "  " ++ ("<" ++ "style" ++ ">") := by decide
    rw [Fragment.renderLine_append, Fragment.tags_append, written, ← String.append_assoc] at opened
    exact opened
  · have lineFeed := @Scans.rawPlain "style" "\n".toList (by decide)
    have stylesheet := Scans.raw (by decide : '\n'.toLower ∉ _) endTagFree
    have indentation := @Scans.rawPlain "style" "  ".toList (by decide)
    have skipped := (lineFeed.append stylesheet).append indentation
    have written : ("\n" ++ css ++ "\n  ").toList =
        "\n".toList ++ (css.toList ++ ['\n']) ++ "  ".toList := by simp
    rw [written]
    exact skipped
  · exact Scans.rawStop raw

end Document

namespace Stylesheet

open Text (NoEndTag)

theorem noEndTag_finish {sheet : Sheet} (reachable : generator.Reachable Generator.noMove sheet) :
    ∃ text, (generator.finish sheet).output = .ok text ∧ NoEndTag text :=
  ⟨_, rfl, (Tagless.ofReachable reachable).closeAll.render⟩

theorem noEndTag_run (sections : List Section) : NoEndTag (generator.run sections).output := by
  have reachable := Generator.reachable_readAll generator (sections.flatMap Section.lines)
  rcases noEndTag_finish reachable with ⟨text, finished, free⟩
  rw [Generator.run_eq rfl finished]
  exact free

/-- Whatever commands a stylesheet is made of, and whenever its text is asked for,
no end tag begins in it.  Nothing in it has to be broken up, and where a source
has a stylesheet, the style element of its document holds it as it is. -/
theorem stylesheet_verbatim :
    (∀ sheet, generator.Reachable Generator.noMove sheet →
      ∃ text, (generator.finish sheet).output = .ok text ∧ NoEndTag text ∧
        Markup.guardEndTags "style" text = text) ∧
    (∀ sections, NoEndTag (generator.run sections).output) ∧
    ∀ settings source css, (Report.ofSource settings source).output? .stylesheet = some css →
      NoEndTag css ∧ Markup.guardEndTags "style" css = css ∧
        ∃ document, (Report.ofSource settings source).document? = some document ∧
          Document.Encloses document "style" ("\n" ++ css ++ "\n  ") := by
  refine ⟨?_, noEndTag_run, ?_⟩
  · intro sheet reachable
    rcases noEndTag_finish reachable with ⟨text, finished, free⟩
    exact ⟨text, finished, free, Markup.guardEndTags_of_free free "style"⟩
  · intro settings source css written
    have accepted := Report.accepted_of_output? written
    have free : NoEndTag css := by
      rw [Report.ofSource_of_accepted accepted, (Report.output?_ofSections settings _).2.1] at written
      rcases Option.map_eq_some_iff.mp written with ⟨outcome, ran, rfl⟩
      rcases Report.eq_run_of_outcome? ran with ⟨matching, rfl⟩
      exact noEndTag_run matching
    rcases Document.exists_framed_outputs accepted with ⟨head, body, framed, composed⟩
    rw [written] at composed
    exact ⟨free, Markup.guardEndTags_of_free free "style", _, composed,
      Document.encloses_style framed free _⟩

/-- Brackets and slashes that meet wherever texts are put together, and a line that
is refused. -/
def seams : String :=
  Text.joinLines ["ابدأ_CSS", "اختر a< /b", "قاعدة /c< /d< \"/\"", "الخط /e<", "محاذاة_النص </f",
    "صورة_الخلفية /g<", "استعلام_الوسائط /h<", "قاعدة < /"]

/-- What becomes of it. -/
def seamsSheet : String :=
  Text.joinLines ["a< /b \x7b", "  /c<: /d< /;", "  font-family: '/e<', sans-serif;",
    "  background-image: url(/g<);", "\x7d", "@media /h< \x7b", "  body \x7b", "    <: /;", "  \x7d",
    "\x7d"]

theorem stylesheet_verbatim_seams :
    (Report.ofSource {} seams).output? .stylesheet = some seamsSheet ∧ NoEndTag seamsSheet ∧
      ∃ document, (Report.ofSource {} seams).document? = some document ∧
        Document.Encloses document "style" ("\n" ++ seamsSheet ++ "\n  ") := by
  have written : (Report.ofSource {} seams).output? .stylesheet = some seamsSheet := by
    decide +kernel
  rcases stylesheet_verbatim.2.2 {} seams seamsSheet written with
    ⟨free, -, document, composed, encloses⟩
  exact ⟨written, free, document, composed, encloses⟩

end Stylesheet
end Pagewright
