import Pagewright.Markup.EndTag
import Pagewright.Page.Head
import Pagewright.Text.Indented
import Pagewright.Text.Search

namespace Pagewright
namespace Document

/-!
# Documents

A document is a page with its stylesheet and its script inside.  The stylesheet
goes in front of the first end of a head and the script in front of the first
end of a body.  Where a page lacks one of the two, or has them in the wrong
order, there is no place to put anything and no document is made of it; a
fixed document then takes its place.
-/

/-- A stylesheet as an element, from its tag to its end tag. -/
def styleBlock (css : String) : String :=
  "  <style>\n" ++ Markup.guardEndTags "style" css ++ "\n  </style>"

/-- A script as an element, from its tag to its end tag. -/
def scriptBlock (code : String) : String :=
  "  <script>\n" ++ Markup.guardEndTags "script" code ++ "\n  </script>"

/-- A block on lines of its own; nothing where there is no block. -/
def inserted (block : Option String) : String :=
  match block with
  | some text => text ++ "\n"
  | none => ""

/-- Cut a page in front of the ends of its head and of its body. -/
def cut? (page : List Char) : Option (List Char × List Char × List Char) :=
  match Text.splitAtFirst? "</head>".toList page,
      Text.splitAtFirst? "</body>".toList page with
  | some (head, _), some (front, back) =>
      if head.length ≤ front.length then
        some (head, front.drop head.length, back)
      else
        none
  | _, _ => none

/-- Put a stylesheet and a script into a page. -/
def merge? (page : String) (css script : Option String) : Option String :=
  (cut? page.toList).map fun (head, body, back) =>
    String.ofList head ++ inserted (css.map styleBlock) ++ String.ofList body ++
      inserted (script.map scriptBlock) ++ String.ofList back

/-- The heading of a document without a page of its own. -/
def heading : String := "مرحباً بك في لغة وحي"

/-- The document for a source without a page. -/
def fallback (settings : Settings) (css script : Option String) : String :=
  let line (depth : Nat) (fragments : List Markup.Fragment) : String :=
    Text.Indented.render Markup.Fragment.renderLine ⟨depth, fragments⟩
  Text.joinLines
    ((Page.preamble settings.documentTitle).map (fun (depth, fragments) => line depth fragments) ++
      (css.map styleBlock).toList ++
      Page.headEnd.map (fun (depth, fragments) => line depth fragments) ++
      [line 1 (Markup.Fragment.element "h1" [] heading)] ++
      (script.map scriptBlock).toList ++
      Page.ending.map (line 0))

/-- The document made of the outputs for the three targets. -/
def compose (settings : Settings) (page css script : Option String) : String :=
  (page.bind fun page => merge? page css script).getD (fallback settings css script)

end Document
end Pagewright
