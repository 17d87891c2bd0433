namespace Pagewright
namespace Markup

/-!
# Character references

Free text enters a page only through `escape`.  Five characters are replaced by
references; every other character stands for itself.  The result holds neither
an angle bracket nor a quote, so it can stand between tags and inside a quoted
attribute value alike.
-/

/-- The written form of one character. -/
def escapeChar : Char → List Char
  | '&' => "&amp;".toList
  | '<' => "&lt;".toList
  | '>' => "&gt;".toList
  | '"' => "&quot;".toList
  | '\'' => "&#x27;".toList
  | c => [c]

/-- The written form of a text. -/
def escape (text : String) : String :=
  String.ofList (text.toList.flatMap escapeChar)

end Markup
end Pagewright
