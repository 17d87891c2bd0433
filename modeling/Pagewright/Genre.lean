import Pagewright.Command
import Pagewright.Page.Vocabulary
import Pagewright.Script.Vocabulary
import Pagewright.Source.Section
import Pagewright.Stylesheet.Vocabulary

namespace Pagewright

/-!
# The genre of a source

A source may be written for one target, or for several.  The guess counts, for
each vocabulary, the commands that belong to it.  A source is mixed when it has
section markers, or when two vocabularies each have a command that belongs to
no other.  Otherwise the vocabulary with the most commands wins, the earlier
one on a tie, and the page when there are no commands at all.
-/

inductive Genre where
  | only (target : Target)
  | mixed
deriving Repr, DecidableEq

namespace Target

/-- Is the key a command of the target? -/
def knows (target : Target) (key : String) : Bool :=
  match target with
  | .page => (Page.Instruction.ofKey? key).isSome
  | .stylesheet => (Stylesheet.Instruction.ofKey? key).isSome
  | .script => (Script.Instruction.ofKey? key).isSome

def all : List Target := [.page, .stylesheet, .script]

end Target

namespace Genre

def name : Genre → String
  | .only .page => "html"
  | .only .stylesheet => "css"
  | .only .script => "javascript"
  | .mixed => "mixed"

/-- The keys of the commands on some lines. -/
def keys (lines : List SourceLine) : List String :=
  lines.filterMap fun line => (Command.ofLine? line.text).map Command.key

/-- The number of keys that the target knows. -/
def score (keys : List String) (target : Target) : Nat :=
  keys.countP target.knows

/-- Is there a key that this target alone knows? -/
def hasOwn (keys : List String) (target : Target) : Bool :=
  keys.any fun key => Target.all.filter (Target.knows · key) == [target]

/-- The earliest target with the highest score above zero. -/
def favourite (keys : List String) : Target :=
  let better (best next : Target) : Target :=
    if score keys best < score keys next then next else best
  better (better .page .stylesheet) .script

/-- Guess the genre from the keys of a source without markers. -/
def ofKeys (keys : List String) : Genre :=
  if 1 < (Target.all.filter (hasOwn keys)).length then .mixed
  else .only (favourite keys)

/-- Guess the genre of a source. -/
def ofSource (source : String) : Genre :=
  let lines := SourceLine.ofSource source
  if lines.any fun line => (Marker.ofText? line.text).isSome then .mixed
  else ofKeys (keys lines)

end Genre

end Pagewright
