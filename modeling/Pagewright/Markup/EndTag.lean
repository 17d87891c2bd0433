namespace Pagewright
namespace Markup

/-!
# Text inside raw elements

A style or script element ends at the first `</` followed by its name, in any
mix of cases, wherever that stands.  Text placed inside is therefore broken
up: a backslash goes between the bracket and the slash of each such place, and
nothing else changes.  With the empty name every `</` is broken up, which is
the form used inside string literals.

The text is rebuilt from its end, so that the test at each bracket looks at
text that is already in its final form.  That is the same test as on the text
as given, because the characters that are compared hold no bracket.
-/

/-- Does the text start with `lowered`, upper-case ASCII letters aside? -/
def startsWithLowered (lowered : List Char) (text : List Char) : Bool :=
  (text.take lowered.length).map Char.toLower == lowered

/-- Put one character in front of a text in which no end tag is left. -/
def guardChar (name : List Char) (c : Char) (rest : List Char) : List Char :=
  if c = '<' && startsWithLowered ('/' :: name) rest then
    '<' :: '\\' :: rest
  else
    c :: rest

/-- Break up every end tag of the element `name`, which is in lower case. -/
def guardEndTags (name : String) (text : String) : String :=
  String.ofList (text.toList.foldr (guardChar name.toList) [])

end Markup
end Pagewright
