import Pagewright.Proofs.Page.Frame
import Pagewright.Proofs.Report

namespace Pagewright
namespace Document

open Markup (Fragment Tag Scans EndTagFree)
open Page (Balanced Body laidOut)

/-!
# Documents as text

A page with its stylesheet and its script inside and the document that stands
in for a missing page have one shape: a head, its end tag, a body, its end tag,
and the end of the page, with a block in front of either end tag.  Everything
about documents is proved of that shape.

Two things have to be argued from the whole text.  The search for the places of
the blocks finds the first end of a head and the first end of a body, so no
title, address or other text of a page may look like one.  And the blocks hold
arbitrary text, so nothing in them may look like the end of their element.
-/

/-! ## Blocks -/

/-- An element on lines of its own, with a line feed behind it. -/
def element (name inner : String) : String :=
  "  <" ++ name ++ ">" ++ inner ++ "  </" ++ name ++ ">\n"

/-- The text inside a block: what it was made from, with its end tags broken
up. -/
def inside (name text : String) : String :=
  "\n" ++ Markup.guardEndTags name text ++ "\n"

/-- A block, or nothing where there is no text for one. -/
def block (name : String) : Option String → String
  | some text => element name (inside name text)
  | none => ""

theorem inserted_styleBlock (css : Option String) :
    inserted (css.map styleBlock) = block "style" css := by
  cases css with
  | none => rfl
  | some text =>
      apply String.toList_injective
      simp [inserted, styleBlock, block, element, inside]

theorem inserted_scriptBlock (code : Option String) :
    inserted (code.map scriptBlock) = block "script" code := by
  cases code with
  | none => rfl
  | some text =>
      apply String.toList_injective
      simp [inserted, scriptBlock, block, element, inside]

/-- The text inside a block cannot end its element. -/
theorem endTagFree_inside {name : String} (raw : name ∈ Markup.rawElements) (text : String) :
    EndTagFree name (inside name text).toList := by
  have absent := (by decide : ∀ name ∈ Markup.rawElements,
    '\n'.toLower ∉ '<' :: '/' :: name.toList) _ raw
  have free := (Markup.endTagFree_guardEndTags name text).between absent
  simpa [inside] using free

/-- The tags of a block, if there is one. -/
def blockTags (name : String) (text : Option String) : List Tag :=
  match text with
  | some _ => [.opening name [], .closing name]
  | none => []

theorem scans_block {name : String} (raw : name ∈ Markup.rawElements) (text : Option String) :
    Scans .content (block name text).toList (blockTags name text) .content := by
  cases text with
  | none => exact Scans.nil .content
  | some text =>
      have facts := (by decide : ∀ name ∈ Markup.rawElements, Markup.IsPlain name ∧
        '\n'.toLower ∉ '<' :: '/' :: name.toList) _ raw
      have next : Fragment.next (.start name []) = .raw name := by
        rw [Fragment.next, Fragment.tag?, Option.map_some, Option.getD_some, Markup.Mode.after,
          if_pos raw]
      have front : Fragment.Readable .content [.verbatim "  ", .start name [], .verbatim "\n"]
          (.raw name) := by
        refine .cons (show '<' ∉ _ by decide) (.cons ⟨facts.1, List.forall_mem_nil _⟩ ?_)
        rw [next]
        exact .skip (show '<' ∉ _ by decide) rfl (.nil _)
      have back : Fragment.Readable (.raw name) [.verbatim "  ", .stop name, .verbatim "\n"]
          .content := by
        refine .skip (show '<' ∉ _ by decide) rfl (.leave raw ?_)
        exact .cons (show '<' ∉ _ by decide) (.nil .content)
      have middle := Scans.raw facts.2 (Markup.endTagFree_guardEndTags name text)
      have whole := (front.scans.append middle).append back.scans
      have written : block name (some text) =
          Fragment.renderLine [.verbatim "  ", .start name [], .verbatim "\n"] ++
            (Markup.guardEndTags name text ++ "\n") ++
            Fragment.renderLine [.verbatim "  ", .stop name, .verbatim "\n"] := by
        apply String.toList_injective
        simp [block, element, inside, Fragment.renderLine, Fragment.render]
      rw [written, String.toList_append, String.toList_append, String.toList_append]
      exact whole

/-! ## The shape of a document -/

/-- The end of a page. -/
def closing : List Fragment := [.stop "body", .verbatim "\n", .stop "html"]

/-- A document with the given fragments in front of the end of its head and
between the ends of head and body. -/
def assembled (head body : List Fragment) (css code : Option String) : String :=
  Fragment.renderLine head ++ block "style" css ++ Fragment.renderLine (.stop "head" :: body) ++
    block "script" code ++ Fragment.renderLine closing

/-- A head and a body that can be put together to a document. -/
structure Framed (head body : List Fragment) : Prop where
  doctype : ∃ rest, head = .doctype :: rest
  headReadable : Fragment.Readable .content head .content
  bodyReadable : Fragment.Readable .content body .content
  headTags : ∃ attributes tags, Balanced tags ∧ Fragment.tags head =
    .doctype :: .opening "html" attributes :: .opening "head" [] :: tags
  bodyTags : ∃ tags, Balanced tags ∧ Fragment.tags body = .opening "body" [] :: tags

namespace Framed

variable {head body : List Fragment}

/-- The tags of a document are those of its parts. -/
theorem scan_assembled (framed : Framed head body) (css code : Option String) :
    Markup.scan (assembled head body css code) =
      some (Fragment.tags head ++ blockTags "style" css ++ .closing "head" :: Fragment.tags body ++
        blockTags "script" code ++ [.closing "body", .closing "html"]) := by
  have headEnd : Fragment.Readable .content (.stop "head" :: body) .content :=
    .cons (show Markup.IsPlain _ by decide) framed.bodyReadable
  have pageEnd : Fragment.Readable .content closing .content :=
    Fragment.Readable.ofSound (by decide)
  have style := scans_block (by decide : "style" ∈ Markup.rawElements) css
  have script := scans_block (by decide : "script" ∈ Markup.rawElements) code
  have whole := (((framed.headReadable.scans.append style).append headEnd.scans).append
    script).append pageEnd.scans
  simp only [assembled, Markup.scan, String.toList_append]
  exact whole.scanFrom_eq

/-- What is balanced opens no element of the frame. -/
private theorem countP_balanced {tags : List Tag} (balanced : Balanced tags) {name : String}
    (framed : name ∈ Page.frameElements) : tags.countP (Tag.opens name) = 0 := by
  rw [List.countP_eq_zero]
  intro tag member
  rw [(balanced.inner tag member name framed).2]
  exact Bool.false_ne_true

private theorem balanced_block {name : String} (raw : name ∈ Markup.rawElements)
    (text : Option String) : Balanced (blockTags name text) := by
  have facts := (by decide : ∀ name ∈ Markup.rawElements,
    name ∉ Markup.voidElements ∧ name ∉ Page.frameElements) _ raw
  cases text with
  | none => exact ⟨fun _ => rfl, nofun⟩
  | some text => exact Page.balanced_element [] facts.1 facts.2

/-- The tags of a document form one page. -/
theorem isDocument (framed : Framed head body) (css code : Option String) :
    Markup.IsDocument (Fragment.tags head ++ blockTags "style" css ++
      .closing "head" :: Fragment.tags body ++ blockTags "script" code ++
        [.closing "body", .closing "html"]) := by
  rcases framed.headTags with ⟨attributes, headInner, headBalanced, headTags⟩
  rcases framed.bodyTags with ⟨bodyInner, bodyBalanced, bodyTags⟩
  have style := balanced_block (by decide : "style" ∈ Markup.rawElements) css
  have script := balanced_block (by decide : "script" ∈ Markup.rawElements) code
  rw [headTags, bodyTags]
  have one : ∀ name ∈ Page.frameElements,
      (.doctype :: .opening "html" attributes :: .opening "head" [] :: headInner ++
        blockTags "style" css ++ .closing "head" :: .opening "body" [] :: bodyInner ++
          blockTags "script" code ++ [.closing "body", .closing "html"] : List Tag).countP
            (Tag.opens name) = 1 := by
    intro name member
    simp only [List.countP_append, List.countP_cons, List.countP_nil,
      countP_balanced headBalanced member, countP_balanced bodyBalanced member,
      countP_balanced style member, countP_balanced script member]
    simp only [Page.frameElements, List.mem_cons, List.not_mem_nil, or_false] at member
    rcases member with rfl | rfl | rfl
    · rfl
    · rfl
    · rfl
  refine ⟨?_, one "html" (by decide), one "head" (by decide), one "body" (by decide), ?_⟩
  · simp [Markup.nest, Markup.nest_append, headBalanced.nested, bodyBalanced.nested, style.nested,
      script.nested, Markup.voidElements]
  · refine ⟨.doctype :: .opening "html" attributes :: .opening "head" [] :: headInner ++
      blockTags "style" css, [], bodyInner ++ blockTags "script" code ++
        [.closing "body", .closing "html"], ?_⟩
    simp only [List.nil_append, List.cons_append, List.append_assoc]

/-! ## Placing the blocks -/

private theorem notMem_of_tags {fragments : List Fragment} {name : String}
    (absent : .closing name ∉ Fragment.tags fragments) : .stop name ∉ fragments :=
  fun member => absent (List.mem_filterMap.mpr ⟨.stop name, member, rfl⟩)

/-- The ends of head and body stand in a page once each. -/
theorem occurrences_assembled (framed : Framed head body) :
    Text.occurrences "</head>".toList (assembled head body none none).toList = 1 ∧
      Text.occurrences "</body>".toList (assembled head body none none).toList = 1 := by
  rcases framed.headTags with ⟨attributes, headInner, headBalanced, headTags⟩
  rcases framed.bodyTags with ⟨bodyInner, bodyBalanced, bodyTags⟩
  have headFree : ∀ name ∈ Page.frameElements, head.count (.stop name) = 0 := by
    intro name member
    refine List.count_eq_zero.mpr (notMem_of_tags fun found => ?_)
    rw [headTags] at found
    simp only [List.mem_cons, reduceCtorEq, false_or] at found
    exact (headBalanced.inner _ found name member).1 rfl
  have bodyFree : ∀ name ∈ Page.frameElements, body.count (.stop name) = 0 := by
    intro name member
    refine List.count_eq_zero.mpr (notMem_of_tags fun found => ?_)
    rw [bodyTags] at found
    simp only [List.mem_cons, reduceCtorEq, false_or] at found
    exact (bodyBalanced.inner _ found name member).1 rfl
  have written : assembled head body none none =
      Fragment.renderLine (head ++ (.stop "head" :: body ++ closing)) := by
    rw [Fragment.renderLine_append, Fragment.renderLine_append, assembled, block, block,
      String.append_empty, String.append_empty, String.append_assoc]
  have sound : ∀ fragment ∈ head ++ (.stop "head" :: body ++ closing), fragment.IsSound := by
    intro fragment member
    simp only [List.mem_append, List.mem_cons] at member
    rcases member with inHead | (headEnd | inBody) | inClosing
    · exact framed.headReadable.isSound fragment inHead
    · rw [headEnd]
      decide
    · exact framed.bodyReadable.isSound fragment inBody
    · revert fragment
      decide
  -- What looks like an end tag in the text was written as one, and only the frame has these.
  have count : ∀ name ∈ Page.frameElements, Markup.IsPlain name →
      Text.occurrences (Fragment.render (.stop name)).toList (assembled head body none none).toList =
        [Fragment.stop "head"].count (.stop name) + closing.count (.stop name) := by
    intro name member plain
    rw [written, Fragment.occurrences_stop plain sound, List.count_append, List.count_append,
      headFree name member, ← List.singleton_append, List.count_append, bodyFree name member]
    omega
  exact ⟨count "head" (by decide) (by decide), count "body" (by decide) (by decide)⟩

end Framed

/-- A page in which the ends of head and body stand once each, in this order,
takes the blocks directly in front of them. -/
theorem merge?_of_once {page front middle back : String}
    (parts : page = front ++ "</head>" ++ middle ++ "</body>" ++ back)
    (headOnce : Text.occurrences "</head>".toList page.toList = 1)
    (bodyOnce : Text.occurrences "</body>".toList page.toList = 1) (css code : Option String) :
    merge? page css code =
      some (front ++ block "style" css ++ "</head>" ++ middle ++ block "script" code ++
        "</body>" ++ back) := by
  have headParts : page.toList = front.toList ++
      ("</head>".toList ++ (middle ++ "</body>" ++ back).toList) := by
    rw [parts]
    simp only [String.toList_append, List.append_assoc]
  have bodyParts : page.toList = (front ++ "</head>" ++ middle).toList ++
      ("</body>".toList ++ back.toList) := by
    rw [parts]
    simp only [String.toList_append, List.append_assoc]
  have headCut := Text.splitAtFirst?_of_once (headParts ▸ headOnce)
  have bodyCut := Text.splitAtFirst?_of_once (bodyParts ▸ bodyOnce)
  rw [← headParts] at headCut
  rw [← bodyParts] at bodyCut
  have ordered : front.toList.length ≤ (front ++ "</head>" ++ middle).toList.length := by
    simp only [String.toList_append, List.length_append]
    omega
  have between : (front ++ "</head>" ++ middle).toList.drop front.toList.length =
      ("</head>" ++ middle).toList := by
    rw [String.append_assoc, String.toList_append, List.drop_left]
  rw [merge?, cut?, headCut, bodyCut]
  dsimp only
  rw [if_pos ordered, between, Option.map_some, inserted_styleBlock, inserted_scriptBlock]
  simp only [← String.toList_append, String.ofList_toList, String.append_assoc]

/-! ## Pages, and what stands in for them -/

/-- What stands in front of the end of a head, with further lines behind the
title. -/
def headOf (title : String) (further : List (Nat × List Fragment)) : List Fragment :=
  .doctype :: (laidOut (Page.placed ((Page.preamble title).tail ++ further)) ++ [.verbatim "\n"])

/-- What stands between the ends of head and body. -/
def bodyOf (lines : List Page.Line) : List Fragment :=
  .verbatim "\n" :: .start "body" [] :: (laidOut lines ++ [.verbatim "\n"])

theorem placed_append (front back : List (Nat × List Fragment)) :
    Page.placed (front ++ back) = Page.placed front ++ Page.placed back :=
  List.map_append

theorem readable_preamble (title : String) :
    Fragment.Readable .content (laidOut (Page.placed (Page.preamble title).tail)) .content := by
  refine Page.readable_lines ?_
  simp only [Page.preamble, Page.placed, List.tail_cons, List.map_cons, List.map_nil,
    List.forall_mem_cons]
  refine ⟨?_, ?_, ?_, ?_, ?_, nofun⟩
  · exact Page.readable_start (by decide) (Page.plain_of_names ["dir", "lang"] rfl (by decide))
      (by decide)
  · exact Page.readable_start (by decide) nofun (by decide)
  · exact Page.readable_start (by decide) (Page.plain_of_names ["charset"] rfl (by decide))
      (by decide)
  · exact Page.readable_start (by decide) (Page.plain_of_names ["name", "content"] rfl (by decide))
      (by decide)
  · exact Page.readable_element (by decide) nofun (by decide)

/-- The tags of a head up to the end of its title. -/
def titleTags : List Tag := Fragment.tags (headOf "" [])

/-- A title does not change the tags of a head. -/
theorem tags_headOf (title : String) (further : List (Nat × List Fragment)) :
    Fragment.tags (headOf title further) =
      titleTags ++ Fragment.tags (laidOut (Page.placed further)) := by
  rw [headOf, Fragment.tags_cons, placed_append, Page.laidOut_append, Fragment.tags_append,
    Fragment.tags_append]
  exact congrArg (titleTags ++ ·) (List.append_nil _)

/-- Behind the start of the head, everything up to the title is balanced. -/
theorem titleTags_eq : ∃ attributes inner, Balanced inner ∧
    titleTags = .doctype :: .opening "html" attributes :: .opening "head" [] :: inner := by
  have charset := Page.balanced_void [Markup.Attribute.read ⟨"charset", "UTF-8"⟩]
    (by decide : "meta" ∈ Markup.voidElements) (by decide)
  have viewport := Page.balanced_void [Markup.Attribute.read ⟨"name", "viewport"⟩,
    Markup.Attribute.read ⟨"content", "width=device-width, initial-scale=1.0"⟩]
    (by decide : "meta" ∈ Markup.voidElements) (by decide)
  have title := Page.balanced_element [] (by decide : "title" ∉ Markup.voidElements) (by decide)
  exact ⟨_, _, (charset.append viewport).append title, rfl⟩

/-- Lines that can be read and are balanced make a document. -/
theorem framed_of_lines (title : String) {further : List (Nat × List Fragment)}
    {lines : List Page.Line}
    (headReadable : Fragment.Readable .content (laidOut (Page.placed further)) .content)
    (headBalanced : Balanced (Fragment.tags (laidOut (Page.placed further))))
    (bodyReadable : Fragment.Readable .content (laidOut lines) .content)
    (bodyBalanced : Balanced (Fragment.tags (laidOut lines))) :
    Framed (headOf title further) (bodyOf lines) := by
  have lineFeed : Fragment.Readable .content [.verbatim "\n"] .content :=
    .cons (show '<' ∉ _ by decide) (.nil .content)
  refine ⟨⟨_, rfl⟩, ?_, ?_, ?_, ?_⟩
  · rw [headOf, placed_append, Page.laidOut_append]
    exact .cons True.intro (((readable_preamble title).append headReadable).append lineFeed)
  · refine .cons (show '<' ∉ _ by decide) (.cons ⟨by decide, nofun⟩ ?_)
    exact bodyReadable.append lineFeed
  · rcases titleTags_eq with ⟨attributes, inner, balanced, tags⟩
    exact ⟨attributes, inner ++ Fragment.tags (laidOut (Page.placed further)),
      balanced.append headBalanced, by rw [tags_headOf, tags]; rfl⟩
  · refine ⟨_, bodyBalanced, ?_⟩
    rw [bodyOf, Fragment.tags_cons, Fragment.tags_cons, Fragment.tags_append]
    exact congrArg (Tag.opening "body" [] :: ·) (List.append_nil _)

/-- The text of a page has the shape of a document. -/
theorem text_eq_assembled (settings : Settings) (title : String) (lines : List Page.Line) :
    Page.text settings title lines =
      assembled (headOf title (Page.baseStylesheet settings)) (bodyOf lines) none none := by
  have first : Page.placed (Page.opening settings title) ++ (lines ++ Page.endingLines) =
      ⟨0, [.doctype]⟩ :: (Page.placed ((Page.preamble title).tail ++ Page.baseStylesheet settings) ++
        (Page.placed Page.headEnd ++ (lines ++ Page.endingLines))) := by
    simp only [Page.opening, placed_append, List.append_assoc]
    rfl
  have doctype : Text.Indented.render Fragment.renderLine ⟨0, [.doctype]⟩ = "<!DOCTYPE html>" := by
    decide
  have headEnd : Fragment.renderLine (laidOut (Page.placed Page.headEnd)) = "\n</head>\n<body>" := by
    decide
  have ending : Fragment.renderLine (laidOut Page.endingLines) = "\n</body>\n</html>" := by
    decide
  rw [Page.text, first, Page.renderAll_cons]
  simp only [Page.laidOut_append, Fragment.renderLine_append]
  rw [doctype, headEnd, ending]
  apply String.toList_injective
  simp [assembled, headOf, bodyOf, block, closing, Fragment.renderLine, Fragment.render]

private theorem readable_rules {rules : List String}
    (bracketFree : ∀ rule ∈ rules, '<' ∉ rule.toList) :
    Fragment.Readable (.raw "style")
      (laidOut (Page.placed (rules.map fun rule => (2, [.verbatim rule])))) (.raw "style") := by
  induction rules with
  | nil => exact .nil _
  | cons rule others ih =>
      refine .skip (show '<' ∉ _ by decide) rfl (.skip (Text.notMem_indentation (by decide) 2) rfl ?_)
      refine .skip (bracketFree rule List.mem_cons_self) rfl ?_
      exact ih fun other member => bracketFree other (List.mem_cons_of_mem rule member)

/-- The base stylesheet can be read, whichever way it is attached. -/
theorem readable_baseStylesheet (settings : Settings) :
    Fragment.Readable .content (laidOut (Page.placed (Page.baseStylesheet settings))) .content := by
  unfold Page.baseStylesheet
  cases settings.stylesheet with
  | inline =>
      have start : Fragment.Readable .content
          (laidOut [⟨1, [.start "style" [⟨"id", "wahy-base"⟩]]⟩]) (.raw "style") := by
        refine .cons (show '<' ∉ _ by decide) (.cons (show '<' ∉ _ by decide) (.cons ?_ (.nil _)))
        exact ⟨by decide, Page.plain_of_names ["id"] rfl (by decide)⟩
      have stop : Fragment.Readable (.raw "style") (laidOut [⟨1, [.stop "style"]⟩]) .content := by
        refine .skip (show '<' ∉ _ by decide) rfl (.skip (show '<' ∉ _ by decide) rfl ?_)
        exact .leave (by decide) (.nil .content)
      dsimp only
      rw [placed_append, placed_append, Page.laidOut_append, Page.laidOut_append]
      exact (start.append (readable_rules Page.bracketFree_baseRules)).append stop
  | external =>
      refine Page.readable_line (Page.readable_start (by decide) ?_ (by decide))
      exact Page.plain_of_names ["rel", "href"] rfl (by decide)

theorem balanced_baseStylesheet (settings : Settings) :
    Balanced (Fragment.tags (laidOut (Page.placed (Page.baseStylesheet settings)))) := by
  unfold Page.baseStylesheet
  cases settings.stylesheet with
  | inline => exact Page.balanced_element _ (by decide) (by decide)
  | external => exact Page.balanced_void _ (by decide) (by decide)

/-- A complete body in its frame is a document. -/
theorem framed_page (settings : Settings) (title : String) {lines : List Page.Line}
    (body : Body lines []) :
    Framed (headOf title (Page.baseStylesheet settings)) (bodyOf lines) :=
  framed_of_lines title (readable_baseStylesheet settings) (balanced_baseStylesheet settings)
    body.readable body.balanced

/-- The lines of the document for a source without a page. -/
def greeting : List Page.Line := [⟨1, Fragment.element "h1" [] heading⟩]

theorem framed_fallback (settings : Settings) :
    Framed (headOf settings.documentTitle []) (bodyOf greeting) :=
  framed_of_lines _ (.nil .content) ⟨fun _ => rfl, nofun⟩
    (Page.readable_line (Page.readable_element (by decide) nofun (by decide)))
    (Page.balanced_element _ (by decide) (by decide))

theorem fallback_eq_assembled (settings : Settings) (css code : Option String) :
    fallback settings css code =
      assembled (headOf settings.documentTitle []) (bodyOf greeting) css code := by
  apply String.toList_injective
  cases css <;> cases code <;>
    simp [fallback, assembled, headOf, bodyOf, block, closing, Fragment.renderLine, Fragment.render,
      Text.joinLines, Page.preamble, Page.placed, Page.headEnd, Page.ending, greeting, laidOut,
      Text.Indented.render, styleBlock, scriptBlock, inside, element, Text.indentation,
      Fragment.element]

/-! ## The document of a source -/

/-- A document in the terms of the search for the ends of head and body. -/
theorem assembled_eq (head body : List Fragment) (css code : Option String) :
    assembled head body css code =
      Fragment.renderLine head ++ block "style" css ++ "</head>" ++ Fragment.renderLine body ++
        block "script" code ++ "</body>" ++ "\n</html>" := by
  apply String.toList_injective
  simp [assembled, closing, Fragment.renderLine, Fragment.render]

theorem assembled_none (head body : List Fragment) :
    assembled head body none none =
      Fragment.renderLine head ++ "</head>" ++ Fragment.renderLine body ++ "</body>" ++
        "\n</html>" := by
  rw [assembled_eq, block, block, String.append_empty, String.append_empty]

/-- A page takes its stylesheet and its script, whatever they are. -/
theorem merge?_assembled {head body : List Fragment} (framed : Framed head body)
    (css code : Option String) :
    merge? (assembled head body none none) css code = some (assembled head body css code) := by
  rcases framed.occurrences_assembled with ⟨headOnce, bodyOnce⟩
  rw [merge?_of_once (assembled_none head body) headOnce bodyOnce, assembled_eq]

theorem compose_assembled {head body : List Fragment} (framed : Framed head body)
    (settings : Settings) (css code : Option String) :
    compose settings (some (assembled head body none none)) css code =
      assembled head body css code := by
  rw [compose, Option.bind_some, merge?_assembled framed, Option.getD_some]

/-- Nothing can be put into an empty page. -/
theorem compose_empty (settings : Settings) (css code : Option String) :
    compose settings (some "") css code = fallback settings css code := rfl

/-- The output for the page is missing, or empty, or a page. -/
theorem output?_page {settings : Settings} {source : String}
    (accepted : settings.refuses source.utf8ByteSize = false) :
    (Report.ofSource settings source).output? .page = none ∨
      (Report.ofSource settings source).output? .page = some "" ∨
      ∃ title lines, Body lines [] ∧ (Report.ofSource settings source).output? .page =
        some (assembled (headOf title (Page.baseStylesheet settings)) (bodyOf lines) none none) := by
  rw [Report.ofSource_of_accepted accepted, (Report.output?_ofSections settings _).1]
  cases ran : Report.outcome? (Page.generator settings) (Section.ofSource source) with
  | none => exact Or.inl rfl
  | some outcome =>
      rcases Report.eq_run_of_outcome? ran with ⟨matching, rfl⟩
      have reachable := Generator.reachable_readAll (Page.generator settings)
        (matching.flatMap Section.lines)
      have written : ∀ {text}, (Page.finish ((Page.generator settings).readAll
          (matching.flatMap Section.lines)).state).output = .ok text →
          ((Page.generator settings).run matching).output = text := by
        intro text finished
        rw [Generator.run_eq rfl finished]
      rw [Option.map_some]
      rcases Page.output_finish (Page.laid_of_reachable reachable) with
        empty | ⟨title, lines, body, finished⟩
      · exact Or.inr (Or.inl (congrArg some (written empty)))
      · refine Or.inr (Or.inr ⟨title, lines, body, congrArg some ?_⟩)
        rw [written finished, text_eq_assembled]

/-- The document of a source has the shape of a document, with its stylesheet and
its script inside. -/
theorem exists_framed_outputs {settings : Settings} {source : String}
    (accepted : settings.refuses source.utf8ByteSize = false) :
    ∃ head body, Framed head body ∧ (Report.ofSource settings source).document? =
      some (assembled head body ((Report.ofSource settings source).output? .stylesheet)
        ((Report.ofSource settings source).output? .script)) := by
  rw [Report.document?_ofSource accepted]
  generalize (Report.ofSource settings source).output? .stylesheet = css
  generalize (Report.ofSource settings source).output? .script = code
  rcases output?_page accepted with missing | empty | ⟨title, lines, body, written⟩
  · refine ⟨_, _, framed_fallback settings, ?_⟩
    rw [missing, compose, Option.bind_none, Option.getD_none, fallback_eq_assembled]
  · refine ⟨_, _, framed_fallback settings, ?_⟩
    rw [empty, compose_empty, fallback_eq_assembled]
  · have framed := framed_page settings title body
    refine ⟨_, _, framed, ?_⟩
    rw [written, compose_assembled framed]

theorem exists_framed {settings : Settings} {source : String}
    (accepted : settings.refuses source.utf8ByteSize = false) :
    ∃ head body css code, Framed head body ∧
      (Report.ofSource settings source).document? = some (assembled head body css code) := by
  rcases exists_framed_outputs accepted with ⟨head, body, framed, composed⟩
  exact ⟨head, body, _, _, framed, composed⟩

/-- Every accepted source becomes one well-nested page, whatever its sections
hold and whichever of them fail. -/
theorem document_wellNested (settings : Settings) (source : String)
    (accepted : settings.refuses source.utf8ByteSize = false) :
    ∃ document tags, (Report.ofSource settings source).document? = some document ∧
      "<!DOCTYPE html>".toList <+: document.toList ∧ "</html>".toList <:+ document.toList ∧
      Markup.scan document = some tags ∧ Markup.IsDocument tags := by
  rcases exists_framed accepted with ⟨head, body, css, code, framed, composed⟩
  refine ⟨_, _, composed, ?_, ?_, framed.scan_assembled css code, framed.isDocument css code⟩
  · rcases framed.doctype with ⟨rest, rfl⟩
    simp only [assembled, Fragment.toList_renderLine_cons, String.toList_append, List.append_assoc]
    exact List.prefix_append _ _
  · rw [assembled_eq, String.toList_append]
    exact List.IsSuffix.trans ⟨['\n'], rfl⟩ (List.suffix_append _ _)

/-- A source with texts that look like the tags around them, whose page and
whose stylesheet fail. -/
def imitation : String :=
  "فقرة </p></head></body>\nأنهِ جدول\nابدأ_CSS\nلون red\nend_media\nابدأ_JS\nاطبع \"</script>\""

theorem document_wellNested_imitation :
    Settings.refuses {} imitation.utf8ByteSize = false ∧
      ∃ document tags, (Report.ofSource {} imitation).document? = some document ∧
        "<!DOCTYPE html>".toList <+: document.toList ∧ "</html>".toList <:+ document.toList ∧
        Markup.scan document = some tags ∧ Markup.IsDocument tags :=
  ⟨by decide +kernel, document_wellNested {} imitation (by decide +kernel)⟩

/-! ## Nothing of a page is lost -/

/-- `text` is what a document gets for a target: one element whose text cannot
end it if there is a section for the target, and nothing otherwise. -/
structure Inserts (report : Report) (sections : List Section) (target : Target)
    (name text : String) : Prop where
  present : (∃ part ∈ sections, part.target = target) → ∃ output,
    report.output? target = some output ∧ text = element name (inside name output) ∧
      EndTagFree name (inside name output).toList
  absent : (¬ ∃ part ∈ sections, part.target = target) → text = ""

theorem inserts_block {settings : Settings} {source : String}
    (accepted : settings.refuses source.utf8ByteSize = false) (target : Target) {name : String}
    (raw : name ∈ Markup.rawElements) :
    Inserts (Report.ofSource settings source) (Section.ofSource source) target name
      (block name ((Report.ofSource settings source).output? target)) := by
  have existence := Report.isSome_output? accepted target
  cases written : (Report.ofSource settings source).output? target with
  | none =>
      rw [written] at existence
      refine ⟨fun found => ?_, fun _ => rfl⟩
      exact absurd (existence.mpr found) Bool.false_ne_true
  | some output =>
      rw [written] at existence
      refine ⟨fun _ => ⟨output, written, rfl, endTagFree_inside raw output⟩, fun missing => ?_⟩
      exact absurd (existence.mp rfl) missing

/-- The base stylesheet comes with an element that has attributes. -/
theorem tags_baseStylesheet (settings : Settings) :
    ∃ name given others rest,
      Fragment.tags (laidOut (Page.placed (Page.baseStylesheet settings))) =
        .opening name (given :: others) :: rest := by
  unfold Page.baseStylesheet
  cases settings.stylesheet with
  | inline => exact ⟨_, _, _, _, rfl⟩
  | external => exact ⟨_, _, _, _, rfl⟩

/-- A page attaches its base stylesheet behind its title, and the document that
stands in for a page does not. -/
theorem assembled_ne_fallback (settings : Settings) (title : String) {lines : List Page.Line}
    (body : Body lines []) (css code : Option String) :
    assembled (headOf title (Page.baseStylesheet settings)) (bodyOf lines) css code ≠
      fallback settings css code := by
  intro same
  have scanned := congrArg Markup.scan same
  rw [fallback_eq_assembled, (framed_page settings title body).scan_assembled,
    (framed_fallback settings).scan_assembled, Option.some_inj, tags_headOf, tags_headOf] at scanned
  simp only [List.append_assoc] at scanned
  -- The tags agree up to the end of the title, so those behind it are compared.
  have behind := List.append_cancel_left scanned
  rcases tags_baseStylesheet settings with ⟨name, given, others, rest, tags⟩
  rw [tags] at behind
  cases css with
  | none => cases (List.cons.inj behind).1
  | some text => cases (List.cons.inj behind).1

/-- The fixed document is used for a missing or an empty page only. -/
theorem compose_eq_fallback_iff {settings : Settings} {source : String}
    (accepted : settings.refuses source.utf8ByteSize = false) (css code : Option String) :
    compose settings ((Report.ofSource settings source).output? .page) css code =
        fallback settings css code ↔
      (Report.ofSource settings source).output? .page = none ∨
        (Report.ofSource settings source).output? .page = some "" := by
  rcases output?_page accepted with missing | empty | ⟨title, lines, body, written⟩
  · rw [missing, compose, Option.bind_none, Option.getD_none]
    simp only [true_or]
  · rw [empty, compose_empty]
    simp only [or_true]
  · have framed := framed_page settings title body
    rw [written, compose_assembled framed]
    constructor
    · intro same
      exact absurd same (assembled_ne_fallback settings title body css code)
    · rintro (missing | empty)
      · cases missing
      · rw [← compose_assembled framed settings, Option.some.inj empty, compose_empty]

/-- A page that is not empty has one place for each block, and the document is
that page with a block in each place that the source has a section for.  The
fixed document is used for nothing else than a missing or an empty page. -/
theorem document_keeps_page (settings : Settings) (source : String)
    (accepted : settings.refuses source.utf8ByteSize = false) :
    let report := Report.ofSource settings source
    let sections := Section.ofSource source
    let css := report.output? .stylesheet
    let code := report.output? .script
    (∀ page, report.output? .page = some page → page ≠ "" →
      ∃ front middle back style script,
        page = front ++ "</head>" ++ middle ++ "</body>" ++ back ∧
        Text.occurrences "</head>".toList page.toList = 1 ∧
        Text.occurrences "</body>".toList page.toList = 1 ∧
        Inserts report sections .stylesheet "style" style ∧
        Inserts report sections .script "script" script ∧
        merge? page css code = report.document? ∧
        report.document? =
          some (front ++ style ++ "</head>" ++ middle ++ script ++ "</body>" ++ back)) ∧
    (report.document? = some (fallback settings css code) ↔
      (¬ ∃ part ∈ sections, part.target = .page) ∨ report.output? .page = some "") := by
  intro report sections css code
  have composed : report.document? = some (compose settings (report.output? .page) css code) :=
    Report.document?_ofSource accepted
  constructor
  · intro output written nonempty
    rcases output?_page accepted with missing | empty | ⟨title, lines, body, page⟩
    · rw [missing] at written
      cases written
    · rw [empty] at written
      exact absurd (Option.some.inj written).symm nonempty
    · rw [page] at written
      cases written
      have framed := framed_page settings title body
      rcases framed.occurrences_assembled with ⟨headOnce, bodyOnce⟩
      have merged := merge?_assembled framed css code
      rw [page, compose_assembled framed] at composed
      refine ⟨_, _, _, _, _, assembled_none _ _, headOnce, bodyOnce,
        inserts_block accepted .stylesheet (by decide), inserts_block accepted .script (by decide),
        merged.trans composed.symm, ?_⟩
      rw [composed, assembled_eq]
  · rw [composed, Option.some_inj, compose_eq_fallback_iff accepted,
      ← Report.isSome_output? accepted .page, Bool.not_eq_true, Option.isSome_eq_false_iff,
      Option.isNone_iff_eq_none]

theorem document_keeps_page_imitation :
    Settings.refuses {} imitation.utf8ByteSize = false ∧
      ∃ page front middle back style script,
        (Report.ofSource {} imitation).output? .page = some page ∧ page ≠ "" ∧
        page = front ++ "</head>" ++ middle ++ "</body>" ++ back ∧
        Inserts (Report.ofSource {} imitation) (Section.ofSource imitation) .stylesheet "style" style ∧
        Inserts (Report.ofSource {} imitation) (Section.ofSource imitation) .script "script" script ∧
        (Report.ofSource {} imitation).document? =
          some (front ++ style ++ "</head>" ++ middle ++ script ++ "</body>" ++ back) := by
  have accepted : Settings.refuses {} imitation.utf8ByteSize = false := by decide +kernel
  have begun : ((Report.ofSource {} imitation).output? .page).any (· ≠ "") = true := by
    decide +kernel
  rcases (Option.any_eq_true _ _).mp begun with ⟨page, written, nonempty⟩
  rcases (document_keeps_page {} imitation accepted).1 page written (of_decide_eq_true nonempty) with
    ⟨front, middle, back, style, script, parts, _, _, styled, scripted, _, document⟩
  exact ⟨accepted, page, front, middle, back, style, script, written, of_decide_eq_true nonempty, parts,
    styled, scripted, document⟩

end Document
end Pagewright
