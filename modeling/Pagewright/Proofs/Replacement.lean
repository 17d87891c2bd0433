import Pagewright.Proofs.Routing

namespace Pagewright

/-!
# Replacing a line

One line of a source is given another text, and its ending stays as it is.  The
source is cut at line feeds, put together again and cut once more, so the other
lines keep their texts and all lines keep their numbers.  Spans behind the line
move, and are left out of what is said here.
-/

namespace Text

/-- A text takes as many bytes as its characters do. -/
theorem utf8ByteSize_ofList (chars : List Char) :
    (String.ofList chars).utf8ByteSize = byteLength chars := by
  induction chars with
  | nil => rfl
  | cons c chars ih =>
      rw [String.ofList_cons, String.utf8ByteSize_append, String.utf8ByteSize_singleton, ih,
        byteLength_cons]

/-- Pieces that take fewer bytes do so when they are put together. -/
theorem byteLength_intercalate_le {separator : List Char} {left right : List (List Char)}
    (pieces : List.Forall₂ (fun first second => byteLength first ≤ byteLength second) left right) :
    byteLength (separator.intercalate left) ≤ byteLength (separator.intercalate right) := by
  induction pieces with
  | nil => exact Nat.le_refl _
  | cons first later ih =>
      cases later with
      | nil =>
          rw [List.intercalate_singleton, List.intercalate_singleton]
          exact first
      | cons _ _ =>
          simp only [List.intercalate_cons_cons, byteLength_append]
          exact Nat.add_le_add (Nat.add_le_add_right first _) ih

end Text

namespace SourceLine

/-- The carriage return at the end of a raw line, if there is one. -/
def ending (raw : List Char) : List Char :=
  if raw.getLast? = some '\r' then ['\r'] else []

/-- The source with another text on the line with the given number.  The ending of
the line stays. -/
def replaceLine (source : String) (number : Nat) (text : String) : String :=
  String.ofList (['\n'].intercalate
    ((source.toList.splitOn '\n').modify (number - 1) fun raw => text.toList ++ ending raw))

theorem withoutReturn_append_ending {text : List Char} (plain : text.getLast? ≠ some '\r')
    (raw : List Char) : withoutReturn (text ++ ending raw) = text := by
  unfold ending withoutReturn
  split
  case isTrue => rw [List.getLast?_concat, if_pos rfl, List.dropLast_concat]
  case isFalse => rw [List.append_nil, if_neg plain]

/-- A raw line is its text and its ending. -/
theorem withoutReturn_ending (raw : List Char) : withoutReturn raw ++ ending raw = raw := by
  unfold ending withoutReturn
  split
  case isTrue ends =>
      rcases List.getLast?_eq_some_iff.mp ends with ⟨front, rfl⟩
      rw [List.dropLast_concat]
  case isFalse => rw [List.append_nil]

theorem byteLength_withoutReturn (raw : List Char) :
    Text.byteLength (withoutReturn raw) + Text.byteLength (ending raw) = Text.byteLength raw := by
  rw [← Text.byteLength_append, withoutReturn_ending]

theorem splitOn_replaceLine {text : String} (free : '\n' ∉ text.toList) (source : String)
    (number : Nat) :
    (replaceLine source number text).toList.splitOn '\n' =
      (source.toList.splitOn '\n').modify (number - 1) fun raw => text.toList ++ ending raw := by
  have ends : ∀ raw, '\n' ∉ ending raw := by
    intro raw
    unfold ending
    split
    · decide
    · exact List.not_mem_nil
  rw [replaceLine, String.toList_ofList]
  apply List.splitOn_intercalate
  · intro piece member
    rcases List.mem_iff_getElem?.mp member with ⟨index, found⟩
    rw [List.getElem?_modify] at found
    rcases Option.map_eq_some_iff.mp found with ⟨raw, stands, rfl⟩
    split
    · rw [List.mem_append, not_or]
      exact ⟨free, ends raw⟩
    · exact notMem_of_mem_splitOn (List.mem_iff_getElem?.mpr ⟨index, stands⟩)
  · rw [Ne, List.modify_eq_nil_iff]
    exact List.splitOn_ne_nil '\n' _

/-- Replacing a line changes the text of that line only. -/
theorem map_text_replaceLine {text : String} (free : '\n' ∉ text.toList)
    (plain : text.toList.getLast? ≠ some '\r') (source : String) (number : Nat) :
    (ofSource (replaceLine source number text)).map SourceLine.text =
      ((ofSource source).map SourceLine.text).set (number - 1) text := by
  rw [map_text_ofSource, map_text_ofSource, splitOn_replaceLine free]
  apply List.ext_getElem?
  intro index
  rw [List.getElem?_map, List.getElem?_modify, List.getElem?_set, List.length_map, List.getElem?_map]
  by_cases here : number - 1 = index
  · rw [if_pos here]
    by_cases inside : number - 1 < (source.toList.splitOn '\n').length
    · rw [if_pos inside, ← here, List.getElem?_eq_getElem inside]
      simp only [Option.map_eq_map, Option.map_some, if_true, withoutReturn_append_ending plain,
        String.ofList_toList]
    · rw [if_neg inside, ← here, List.getElem?_eq_none (Nat.le_of_not_lt inside)]
      rfl
  · simp only [if_neg here, Option.map_eq_map, Option.map_id']

/-- Replacing a line does not change the numbers. -/
theorem map_number_replaceLine {text : String} (free : '\n' ∉ text.toList) (source : String)
    (number : Nat) :
    (ofSource (replaceLine source number text)).map SourceLine.number =
      (ofSource source).map SourceLine.number := by
  rw [map_number_ofSource, map_number_ofSource, splitOn_replaceLine free, List.length_modify]

theorem number_of_getElem? {source : String} {index : Nat} {line : SourceLine}
    (found : (ofSource source)[index]? = some line) : line.number = index + 1 := by
  have counted : ((ofSource source).map SourceLine.number)[index]? = some line.number := by
    rw [List.getElem?_map, found, Option.map_some]
  rw [map_number_ofSource] at counted
  rcases List.getElem?_eq_some_iff.mp counted with ⟨inside, value⟩
  rw [List.getElem_range'] at value
  omega

private theorem forall₂_of_getElem? {α β : Type} {related : α → β → Prop} {left : List α}
    {right : List β} (lengths : left.length = right.length)
    (places : ∀ (index : Nat) first second, left[index]? = some first → right[index]? = some second →
      related first second) : List.Forall₂ related left right :=
  List.forall₂_iff_get.mpr ⟨lengths, fun index inLeft inRight =>
    places index _ _ (List.getElem?_eq_getElem inLeft) (List.getElem?_eq_getElem inRight)⟩

/-- Replacing a line by a text that is no longer does not make the source
longer. -/
theorem utf8ByteSize_replaceLine_le {source text : String} {line : SourceLine}
    (member : line ∈ ofSource source) (shorter : text.utf8ByteSize ≤ line.text.utf8ByteSize) :
    (replaceLine source line.number text).utf8ByteSize ≤ source.utf8ByteSize := by
  rcases List.mem_iff_getElem?.mp member with ⟨place, found⟩
  have number := number_of_getElem? found
  have whole : source.utf8ByteSize =
      Text.byteLength (['\n'].intercalate (source.toList.splitOn '\n')) := by
    rw [List.intercalate_splitOn, ← Text.utf8ByteSize_ofList, String.ofList_toList]
  rw [replaceLine, Text.utf8ByteSize_ofList, whole]
  apply Text.byteLength_intercalate_le
  apply forall₂_of_getElem? (List.length_modify _ _ _)
  intro index changed raw inLeft inRight
  rw [List.getElem?_modify, inRight] at inLeft
  rw [← Option.some.inj inLeft]
  split
  case isTrue here =>
      have same : index = place := by omega
      have held : String.ofList (withoutReturn raw) = line.text := by
        have texts := congrArg (fun given => given[place]?) (map_text_ofSource source)
        rw [same] at inRight
        simp only [List.getElem?_map, found, inRight, Option.map_some] at texts
        exact (Option.some.inj texts).symm
      rw [← held, Text.utf8ByteSize_ofList, ← String.ofList_toList (s := text),
        Text.utf8ByteSize_ofList] at shorter
      rw [Text.byteLength_append, ← byteLength_withoutReturn raw]
      exact Nat.add_le_add_right shorter _
  case isFalse => exact Nat.le_refl _

/-- The lines of a source and of the source with another text on one line: they have
the same numbers, and the same texts elsewhere. -/
theorem forall₂_replaceLine {related : SourceLine → SourceLine → Prop} {source text : String}
    (free : '\n' ∉ text.toList) (plain : text.toList.getLast? ≠ some '\r') {line : SourceLine}
    (member : line ∈ ofSource source)
    (here : ∀ {right : SourceLine}, line.number = right.number → right.text = text →
      related line right)
    (elsewhere : ∀ {left right : SourceLine}, left ≠ line → left.number = right.number →
      left.text = right.text → related left right) :
    List.Forall₂ related (ofSource source) (ofSource (replaceLine source line.number text)) := by
  have texts := map_text_replaceLine free plain source line.number
  have numbers := map_number_replaceLine free source line.number
  have lengths := congrArg List.length numbers
  rw [List.length_map, List.length_map] at lengths
  rcases List.mem_iff_getElem?.mp member with ⟨place, found⟩
  have position := number_of_getElem? found
  apply forall₂_of_getElem? lengths.symm
  intro index left right inLeft inRight
  have number : left.number = right.number := by
    rw [number_of_getElem? inLeft, number_of_getElem? inRight]
  have told := congrArg (fun given => given[index]?) texts
  simp only [List.getElem?_map, List.getElem?_set, List.length_map, inLeft, inRight,
    Option.map_some] at told
  by_cases atPlace : index = place
  · have same : left = line := by
      rw [← atPlace, inLeft] at found
      exact Option.some.inj found
    have inside : line.number - 1 < (ofSource source).length := by
      rcases List.getElem?_eq_some_iff.mp found with ⟨bound, -⟩
      omega
    rw [if_pos (by omega), if_pos inside] at told
    rw [same] at number ⊢
    exact here number (Option.some.inj told)
  · rw [if_neg (by omega)] at told
    refine elsewhere ?_ number (Option.some.inj told).symm
    intro same
    have counted := number_of_getElem? inLeft
    rw [same] at counted
    omega

end SourceLine

end Pagewright
