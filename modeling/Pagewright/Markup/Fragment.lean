import Pagewright.Markup.Escape

namespace Pagewright
namespace Markup

/-!
# Fragments

A line of a page is a sequence of fragments.  Tags and texts are kept apart
until they are written, and writing escapes every attribute value and every
text exactly once.  The only way to place unescaped text is `verbatim`, which
is used for stylesheet rules; what may stand there is decided where it is
built.
-/

structure Attribute where
  name : String
  value : String
deriving Repr, DecidableEq

inductive Fragment where
  | doctype
  | start (element : String) (attributes : List Attribute)
  | stop (element : String)
  | text (content : String)
  | verbatim (content : String)
deriving Repr, DecidableEq

namespace Attribute

def render (given : Attribute) : String :=
  " " ++ given.name ++ "=\"" ++ escape given.value ++ "\""

end Attribute

namespace Fragment

def render : Fragment → String
  | .doctype => "<!DOCTYPE html>"
  | .start element attributes =>
      "<" ++ element ++ String.join (attributes.map Attribute.render) ++ ">"
  | .stop element => "</" ++ element ++ ">"
  | .text content => escape content
  | .verbatim content => content

/-- An element with text inside. -/
def element (name : String) (attributes : List Attribute) (content : String) :
    List Fragment :=
  [.start name attributes, .text content, .stop name]

/-- A stylesheet on a single line. -/
def style (rules : String) : List Fragment :=
  [.start "style" [], .verbatim rules, .stop "style"]

/-- The text of a line. -/
def renderLine (fragments : List Fragment) : String :=
  String.join (fragments.map render)

end Fragment

end Markup
end Pagewright
