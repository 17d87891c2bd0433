import Pagewright.Markup.Fragment
import Pagewright.Settings

namespace Pagewright
namespace Page

/-!
# The frame of a page

Everything in front of the body and behind it is fixed, up to the title and
the way the base stylesheet is attached.
-/

open Markup (Fragment)

/-- The rules of the base stylesheet. -/
def baseRules : List String :=
  ["body \x7b font-family: 'Arial', sans-serif; margin: 20px; background-color: white; color: black; \x7d",
    "p \x7b line-height: 1.6; margin: 10px 0; \x7d",
    "img \x7b max-width: 100%; height: auto; \x7d",
    ".wahy-section \x7b margin: 10px 0; \x7d",
    ".wahy-button \x7b padding: 10px 20px; margin: 5px; background-color: #007bff; color: white; border: none; border-radius: 5px; cursor: pointer; \x7d",
    ".wahy-input \x7b padding: 8px; margin: 5px; border: 1px solid #ccc; border-radius: 3px; \x7d",
    "table \x7b border-collapse: collapse; width: 100%; margin: 10px 0; \x7d",
    "th, td \x7b border: 1px solid #ddd; padding: 8px; text-align: right; \x7d"]

/-- The lines that attach the base stylesheet. -/
def baseStylesheet (settings : Settings) : List (Nat × List Fragment) :=
  match settings.stylesheet with
  | .inline =>
      [(1, [.start "style" [⟨"id", "wahy-base"⟩]])] ++
        baseRules.map (fun rule => (2, [.verbatim rule])) ++
        [(1, [.stop "style"])]
  | .external =>
      [(1, [.start "link" [⟨"rel", "stylesheet"⟩, ⟨"href", settings.stylesheetHref⟩]])]

/-- The lines up to and including the title. -/
def preamble (title : String) : List (Nat × List Fragment) :=
  [(0, [.doctype]),
    (0, [.start "html" [⟨"dir", "rtl"⟩, ⟨"lang", "ar"⟩]]),
    (0, [.start "head" []]),
    (1, [.start "meta" [⟨"charset", "UTF-8"⟩]]),
    (1, [.start "meta" [⟨"name", "viewport"⟩,
      ⟨"content", "width=device-width, initial-scale=1.0"⟩]]),
    (1, Fragment.element "title" [] title)]

/-- The lines between the head and the body. -/
def headEnd : List (Nat × List Fragment) :=
  [(0, [.stop "head"]), (0, [.start "body" []])]

/-- All lines in front of the body. -/
def opening (settings : Settings) (title : String) : List (Nat × List Fragment) :=
  preamble title ++ baseStylesheet settings ++ headEnd

/-- The lines behind the body. -/
def ending : List (List Fragment) :=
  [[.stop "body"], [.stop "html"]]

end Page
end Pagewright
