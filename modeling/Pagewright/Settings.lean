namespace Pagewright

/-!
# Settings

Settings decide how a page refers to its base stylesheet, which titles stand in
for missing ones, and how large a source may be.  Every setting has a default.
-/

/-- How a page obtains its base stylesheet. -/
inductive StylesheetMode where
  /-- The rules stand in the head of the page. -/
  | inline
  /-- The head links to a file. -/
  | external
deriving Repr, DecidableEq

namespace StylesheetMode

def name : StylesheetMode → String
  | .inline => "inline"
  | .external => "external"

def ofName? : String → Option StylesheetMode
  | "inline" => some .inline
  | "external" => some .external
  | _ => none

end StylesheetMode

structure Settings where
  stylesheet : StylesheetMode := .inline
  /-- The link target of an external stylesheet. -/
  stylesheetHref : String := "wahy.css"
  /-- The title of a page that is opened without one. -/
  defaultTitle : String := "صفحة وحي"
  /-- The title of a document that has no page of its own. -/
  documentTitle : String := "مشروع وحي"
  /-- The largest accepted source; zero accepts every size. -/
  maxSourceBytes : Nat := 1024 * 1024
deriving Repr, DecidableEq

namespace Settings

/-- Is a source of this many bytes refused? -/
def refuses (settings : Settings) (size : Nat) : Bool :=
  0 < settings.maxSourceBytes && settings.maxSourceBytes < size

end Settings

end Pagewright
