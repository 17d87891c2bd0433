namespace Pagewright
namespace Text

/-!
# Indented lines

Every kind of output is a list of lines, each with a nesting depth.  The
content of a line keeps its own type until the text is written, so that the
three kinds of output share one notion of layout and nothing else.
-/

/-- A line of output at a nesting depth. -/
structure Indented (α : Type) where
  depth : Nat
  content : α
deriving Repr, DecidableEq

/-- Each level of nesting is two spaces wide. -/
def indentation (depth : Nat) : String :=
  String.ofList (List.replicate (2 * depth) ' ')

theorem length_indentation (depth : Nat) : (indentation depth).toList.length = 2 * depth := by
  rw [indentation, String.toList_ofList, List.length_replicate]

theorem notMem_indentation {c : Char} (other : c ≠ ' ') (depth : Nat) :
    c ∉ (indentation depth).toList := by
  intro member
  rw [indentation, String.toList_ofList] at member
  exact other (List.eq_of_mem_replicate member)

/-- Lines are joined by line feeds; the last one has none. -/
def joinLines (lines : List String) : String :=
  String.intercalate "\n" lines

namespace Indented

def render {α : Type} (write : α → String) (line : Indented α) : String :=
  indentation line.depth ++ write line.content

/-- The text of a list of lines. -/
def renderAll {α : Type} (write : α → String) (lines : Array (Indented α)) : String :=
  joinLines (lines.toList.map (render write))

end Indented

end Text
end Pagewright
