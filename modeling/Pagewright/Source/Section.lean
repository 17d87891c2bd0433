import Pagewright.Text.Blank
import Pagewright.Text.Indented
import Pagewright.Source.Line

namespace Pagewright

/-!
# Sections

Marker lines divide a source into runs of lines.  A start marker names the
target of the run behind it; an end marker, whichever target it names, returns
to the page.  The run in front of the first marker belongs to the page too.

A run without text is no section.  Blank lines inside a run that has text are
kept, so that a section is always a contiguous piece of the source.
-/

/-- What the commands of a section produce. -/
inductive Target where
  | page
  | stylesheet
  | script
deriving Repr, DecidableEq

namespace Target

def label : Target → String
  | .page => "HTML"
  | .stylesheet => "CSS"
  | .script => "JavaScript"

end Target

/-- A line that divides the source. -/
inductive Marker where
  | start (target : Target)
  | stop
deriving Repr, DecidableEq

namespace Marker

/-- The spellings of each marker. -/
def spellings : List (String × Marker) :=
  [("ابدأ_HTML", .start .page), ("بداية_HTML", .start .page),
    ("<!-- HTML -->", .start .page), ("start_html", .start .page),
    ("ابدأ_CSS", .start .stylesheet), ("بداية_CSS", .start .stylesheet),
    ("/* CSS */", .start .stylesheet), ("start_css", .start .stylesheet),
    ("ابدأ_JS", .start .script), ("بداية_JS", .start .script),
    ("ابدأ_JavaScript", .start .script), ("// JavaScript", .start .script),
    ("start_js", .start .script),
    ("أنهِ_HTML", .stop), ("نهاية_HTML", .stop), ("end_html", .stop),
    ("أنهِ_CSS", .stop), ("نهاية_CSS", .stop), ("end_css", .stop),
    ("أنهِ_JS", .stop), ("نهاية_JS", .stop), ("أنهِ_JavaScript", .stop),
    ("end_js", .stop)]

/-- The marker on a line, blanks around it aside. -/
def ofText? (text : String) : Option Marker :=
  spellings.lookup (Text.trim text)

/-- The target of the lines behind a marker. -/
def target : Marker → Target
  | .start target => target
  | .stop => .page

end Marker

/-- A contiguous run of lines for one target. -/
structure Section where
  target : Target
  lines : List SourceLine
deriving Repr, DecidableEq

namespace Section

/-- The text of a section. -/
def body (part : Section) : String :=
  Text.joinLines (part.lines.map SourceLine.text)

/-- Does some line of the section hold more than blanks? -/
def hasText (part : Section) : Bool :=
  part.lines.any fun line => !(Text.trim line.text).isEmpty

/-- The lines in front of the first marker, and each marker with the lines
behind it. -/
def runs (lines : List SourceLine) :
    List SourceLine × List (Marker × List SourceLine) :=
  lines.foldr
    (fun line (run, later) =>
      match Marker.ofText? line.text with
      | some marker => ([], (marker, run) :: later)
      | none => (line :: run, later))
    ([], [])

/-- The runs of a list of lines with their targets, blank ones included. -/
def ofLines (lines : List SourceLine) : List Section :=
  let (leading, marked) := runs lines
  ⟨.page, leading⟩ :: marked.map fun (marker, run) => ⟨marker.target, run⟩

/-- The sections of a source. -/
def ofSource (source : String) : List Section :=
  (ofLines (SourceLine.ofSource source)).filter hasText

end Section

end Pagewright
