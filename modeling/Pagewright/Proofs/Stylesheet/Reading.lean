import Pagewright.Proofs.Avoiding
import Pagewright.Stylesheet.Sheet

namespace Pagewright
namespace Stylesheet

/-!
# Reading a stylesheet

A stylesheet is read back line by line.  A line opens a block, declares
something inside one, or closes the innermost block, and it is indented by two
spaces for each block around it, neither more nor less.  What is read is the
list of declarations, each with the headers of its blocks; blocks without
declarations leave no trace.

The reader is strict: anything that it does not expect, down to a block left
open at the end, makes the whole text unreadable.  Its rules are those of the
format alone, and how the lines came about is not known to it.
-/

/-- The characters that bound lines, declarations and blocks. -/
def delimiters : List Char := ['\x7b', '\x7d', ';', '\n']

/-- A declaration with the headers of the blocks around it, outermost first. -/
structure Declared where
  headers : List String
  text : String
deriving Repr, DecidableEq

/-- What a line does. -/
inductive Mark where
  | opening (header : String)
  | declaration (text : String)
  | closing
deriving Repr, DecidableEq

/-- A text, provided that it holds no delimiter. -/
def plain? (text : List Char) : Option String :=
  if Text.Avoids delimiters (String.ofList text) then some (String.ofList text) else none

namespace Mark

/-- Read a line behind its indentation. -/
def ofContent? (content : List Char) : Option Mark :=
  match content.reverse with
  | '\x7b' :: ' ' :: reversed => (plain? reversed.reverse).map opening
  | ';' :: reversed => (plain? reversed.reverse).map declaration
  | _ => none

/-- Read a line inside `depth` blocks.  The end of a block stands as far out as
its header. -/
def ofLine? (depth : Nat) (line : List Char) : Option Mark :=
  if 0 < depth ∧ line = (Text.indentation (depth - 1)).toList ++ ['\x7d'] then
    some closing
  else if (Text.indentation depth).toList <+: line then
    ofContent? (line.drop (2 * depth))
  else
    none

end Mark

/-- Follow a mark: the headers of the blocks open behind it, innermost first,
and what it declares. -/
def Mark.follow? (headers : List String) : Mark → Option (List String × List Declared)
  | .opening header => some (header :: headers, [])
  | .declaration text =>
      if headers = [] then none else some (headers, [⟨headers.reverse, text⟩])
  | .closing => if headers = [] then none else some (headers.tail, [])

/-- Read lines inside blocks with the given headers, innermost first. -/
def readLines (headers : List String) : List (List Char) → Option (List Declared)
  | [] => if headers = [] then some [] else none
  | line :: rest =>
      match (Mark.ofLine? headers.length line).bind (Mark.follow? headers) with
      | none => none
      | some (after, declared) => (readLines after rest).map (declared ++ ·)

/-- The declarations of a stylesheet in their order. -/
def reading (text : String) : Option (List Declared) :=
  readLines [] (text.toList.splitOn '\n')

/-! ## Lines that can be read -/

theorem plain?_eq_some {text : List Char} {found : String} (read : plain? text = some found) :
    '\n' ∉ text := by
  unfold plain? at read
  split at read
  case isTrue avoids =>
      intro member
      exact avoids '\n' (String.toList_ofList ▸ member) (by decide)
  case isFalse => cases read

theorem plain?_of_avoids {text : String} (avoids : Text.Avoids delimiters text) :
    plain? text.toList = some text := by
  rw [plain?, String.ofList_toList, if_pos avoids]

namespace Mark

theorem notMem_of_ofContent? {content : List Char} {mark : Mark}
    (read : ofContent? content = some mark) : '\n' ∉ content := by
  unfold ofContent? at read
  intro member
  have reversed : '\n' ∈ content.reverse := List.mem_reverse.mpr member
  split at read
  case h_1 front whole =>
      rcases Option.map_eq_some_iff.mp read with ⟨header, found, -⟩
      rw [whole] at reversed
      apply plain?_eq_some found
      simpa using reversed
  case h_2 front whole =>
      rcases Option.map_eq_some_iff.mp read with ⟨text, found, -⟩
      rw [whole] at reversed
      apply plain?_eq_some found
      simpa using reversed
  case h_3 => cases read

/-- A line that can be read is one line. -/
theorem notMem_of_ofLine? {depth : Nat} {line : List Char} {mark : Mark}
    (read : ofLine? depth line = some mark) : '\n' ∉ line := by
  unfold ofLine? at read
  split at read
  case isTrue closes =>
      rw [closes.2]
      simp [Text.notMem_indentation]
  case isFalse =>
      split at read
      case isTrue indented =>
          rcases indented with ⟨content, rfl⟩
          rw [← Text.length_indentation depth, List.drop_left] at read
          simp [Text.notMem_indentation, notMem_of_ofContent? read]
      case isFalse => cases read

end Mark

theorem notMem_of_readLines {headers : List String} {lines : List (List Char)}
    {declared : List Declared} (read : readLines headers lines = some declared) :
    ∀ line ∈ lines, '\n' ∉ line := by
  induction lines generalizing headers declared with
  | nil =>
      intro line member
      cases member
  | cons line rest ih =>
      rw [readLines] at read
      split at read
      case h_1 => cases read
      case h_2 after added followed =>
          rcases Option.map_eq_some_iff.mp read with ⟨behind, found, -⟩
          rcases Option.bind_eq_some_iff.mp followed with ⟨mark, marked, -⟩
          intro other member
          rcases List.mem_cons.mp member with rfl | later
          · exact Mark.notMem_of_ofLine? marked
          · exact ih found other later

/-- Lines that can be read one by one can be read as one text. -/
theorem reading_joinLines {lines : List String} {declared : List Declared} (nonempty : lines ≠ [])
    (read : readLines [] (lines.map String.toList) = some declared) :
    reading (Text.joinLines lines) = some declared := by
  have separate : (Text.joinLines lines).toList.splitOn '\n' = lines.map String.toList := by
    rw [Text.joinLines, String.toList_intercalate]
    apply List.splitOn_intercalate
    · exact notMem_of_readLines read
    · simpa using nonempty
  rw [reading, separate, read]

/-! ## Parts of a stylesheet -/

/-- Some lines lead from open blocks to open blocks, with declarations on the
way, whatever follows. -/
def Reads (before : List String) (lines : List (List Char)) (declared : List Declared)
    (after : List String) : Prop :=
  ∀ rest, readLines before (lines ++ rest) = (readLines after rest).map (declared ++ ·)

namespace Reads

variable {before middle after : List String}

theorem nil (headers : List String) : Reads headers [] [] headers := by
  intro rest
  exact Option.map_id'.symm

theorem append {front back : List (List Char)} {early late : List Declared}
    (first : Reads before front early middle) (second : Reads middle back late after) :
    Reads before (front ++ back) (early ++ late) after := by
  intro rest
  rw [List.append_assoc, first, second, Option.map_map]
  congr 1
  funext behind
  exact (List.append_assoc early late behind).symm

/-- One line leads where its mark does. -/
theorem line {line : List Char} {mark : Mark} {declared : List Declared}
    (read : Mark.ofLine? before.length line = some mark)
    (followed : mark.follow? before = some (after, declared)) :
    Reads before [line] declared after := by
  intro rest
  rw [List.singleton_append, readLines, read, Option.bind_some, followed]

/-- Lines that close what they open make up a stylesheet. -/
theorem readLines_eq {lines : List (List Char)} {declared : List Declared}
    (reads : Reads [] lines declared []) : readLines [] lines = some declared := by
  have whole := reads []
  rw [List.append_nil] at whole
  rw [whole, readLines, if_pos rfl, Option.map_some, List.append_nil]

end Reads

/-- A line as it is written. -/
def written (line : Text.Indented Entry) : List Char :=
  (line.render Entry.render).toList

theorem written_eq (depth : Nat) (entry : Entry) :
    written ⟨depth, entry⟩ = (Text.indentation depth).toList ++ entry.render.toList := by
  rw [written, Text.Indented.render, String.toList_append]

/-- A line that is no end of a block is read behind its indentation. -/
theorem Mark.ofLine?_written {depth : Nat} {entry : Entry} {mark : Mark}
    (content : ofContent? entry.render.toList = some mark) :
    ofLine? depth (written ⟨depth, entry⟩) = some mark := by
  have other : ¬(0 < depth ∧
      written ⟨depth, entry⟩ = (Text.indentation (depth - 1)).toList ++ ['\x7d']) := by
    rintro ⟨positive, closes⟩
    -- The end of a block is shorter than the indentation of what is inside it.
    have lengths := congrArg List.length closes
    rw [written_eq, List.length_append, List.length_append, Text.length_indentation,
      Text.length_indentation] at lengths
    have short : entry.render.toList.length = 0 := by
      simp only [List.length_singleton] at lengths
      omega
    rw [List.length_eq_zero_iff.mp short] at content
    cases content
  rw [ofLine?, if_neg other, written_eq, if_pos (List.prefix_append _ _),
    ← Text.length_indentation depth, List.drop_left, content]

namespace Reads

theorem opening {header : String} (avoids : Text.Avoids delimiters header)
    (headers : List String) :
    Reads headers [written ⟨headers.length, .opening header⟩] [] (header :: headers) := by
  have content : Mark.ofContent? (Entry.opening header).render.toList =
      some (.opening header) := by
    simp only [Mark.ofContent?, Entry.render, String.toList_append, String.reduceToList,
      List.reverse_append, List.reverse_cons, List.reverse_nil, List.nil_append, List.cons_append,
      List.reverse_reverse, plain?_of_avoids avoids, Option.map_some]
  exact line (Mark.ofLine?_written content) rfl

theorem declaration {property value : String} (name : Text.Avoids delimiters property)
    (given : Text.Avoids delimiters value) {headers : List String} (inside : headers ≠ []) :
    Reads headers [written ⟨headers.length, .declaration property value⟩]
      [⟨headers.reverse, property ++ ": " ++ value⟩] headers := by
  have avoids : Text.Avoids delimiters (property ++ ": " ++ value) :=
    (name.append (by decide)).append given
  have content : Mark.ofContent? (Entry.declaration property value).render.toList =
      some (.declaration (property ++ ": " ++ value)) := by
    rw [Mark.ofContent?, Entry.render, String.toList_append, List.reverse_append]
    simp only [String.reduceToList, List.reverse_cons, List.reverse_nil, List.nil_append,
      List.cons_append, List.reverse_reverse, plain?_of_avoids avoids, Option.map_some]
  exact line (Mark.ofLine?_written content) (if_neg inside)

theorem closing (header : String) (outer : List String) :
    Reads (header :: outer) [written ⟨outer.length, .closing⟩] [] outer := by
  have read : Mark.ofLine? (header :: outer).length (written ⟨outer.length, .closing⟩) =
      some .closing := by
    rw [Mark.ofLine?, if_pos]
    refine ⟨Nat.succ_pos _, ?_⟩
    rw [written_eq]
    rfl
  exact line read rfl

end Reads

end Stylesheet
end Pagewright
