import Pagewright.Command
import Pagewright.Source.Section

namespace Pagewright

/-!
# Lines and sections of a source

Three questions are asked of a line: which command it holds, which marker, and
whether it holds any text.  All three are answered from the line without the
blanks around it.  A carriage return is a blank, so the answers do not depend
on whether one at the end of a line is counted to its text or to its ending,
and lines that are put together and cut again are as good as the old ones.
-/

/-! ## Trimmed lines -/

namespace Text

theorem trimChars_concat {c : Char} (blank : isBlank c = true) (front : List Char) :
    trimChars (front ++ [c]) = trimChars front := by
  unfold trimChars trimEndChars dropEndWhile
  rw [List.dropWhile_append]
  by_cases allBlank : (front.dropWhile isBlank).isEmpty = true
  · rw [if_pos allBlank, List.isEmpty_iff.mp allBlank]
    simp [blank]
  · rw [if_neg allBlank]
    simp [blank]

end Text

namespace SourceLine

/-- The text of a line without the blanks around it. -/
def trimmed (line : SourceLine) : String :=
  Text.trim line.text

theorem trimChars_withoutReturn (raw : List Char) :
    Text.trimChars (withoutReturn raw) = Text.trimChars raw := by
  unfold withoutReturn
  split
  case isTrue ends =>
      rcases List.getLast?_eq_some_iff.mp ends with ⟨front, rfl⟩
      rw [List.dropLast_concat, Text.trimChars_concat (by decide)]
  case isFalse => rfl

end SourceLine

/-- The command on a line without blanks around it. -/
def Command.ofTrimmed? (text : String) : Option Command :=
  if isCommandLine text.toList then some (ofTokens text.toList (Token.ofLine text.toList)) else none

theorem Command.ofLine?_eq (text : String) : ofLine? text = ofTrimmed? (Text.trim text) := by
  unfold ofLine? ofTrimmed? Text.trim
  rw [String.toList_ofList]

/-! ## Cutting a source into lines -/

namespace SourceLine

private theorem map_text_numberFrom (number offset : Nat) (finished : List SourceLine)
    (raws : List (List Char)) :
    (numberFrom number offset finished raws).map text =
      finished.reverse.map text ++ raws.map fun raw => String.ofList (withoutReturn raw) := by
  induction raws generalizing number offset finished with
  | nil => simp only [numberFrom, List.map_nil, List.append_nil]
  | cons raw rest ih =>
      rw [numberFrom, ih, List.reverse_cons, List.map_append, List.append_assoc]
      rfl

/-- The texts of the lines of a source. -/
theorem map_text_ofSource (source : String) :
    (ofSource source).map text =
      (source.toList.splitOn '\n').map fun raw => String.ofList (withoutReturn raw) :=
  map_text_numberFrom 1 0 [] _

/-- No piece of a text that is cut at a character holds that character. -/
theorem notMem_of_mem_splitOn {stop : Char} {text piece : List Char}
    (member : piece ∈ text.splitOn stop) : stop ∉ piece := by
  induction text generalizing piece with
  | nil =>
      rw [List.splitOn_nil, List.mem_singleton] at member
      rw [member]
      exact List.not_mem_nil
  | cons c cs ih =>
      rw [List.splitOn_cons_eq_if_modifyHead] at member
      split at member
      case isTrue =>
          rcases List.mem_cons.mp member with empty | later
          · rw [empty]
            exact List.not_mem_nil
          · exact ih later
      case isFalse different =>
          cases pieces : cs.splitOn stop with
          | nil => exact absurd pieces (List.splitOn_ne_nil stop cs)
          | cons first others =>
              rw [pieces] at member ih
              rcases List.mem_cons.mp member with here | later
              · rw [here, List.mem_cons, not_or]
                have other : stop ≠ c := fun same => different (beq_iff_eq.mpr same.symm)
                exact ⟨other, ih List.mem_cons_self⟩
              · exact ih (List.mem_cons_of_mem first later)

theorem notMem_withoutReturn {c : Char} {raw : List Char} (absent : c ∉ raw) :
    c ∉ withoutReturn raw := by
  unfold withoutReturn
  split
  · exact fun inside => absent ((List.dropLast_sublist raw).subset inside)
  · exact absent

/-- No line holds a line feed. -/
theorem notMem_text {source : String} {line : SourceLine} (member : line ∈ ofSource source) :
    '\n' ∉ line.text.toList := by
  have listed : line.text ∈ (ofSource source).map text := List.mem_map_of_mem member
  rw [map_text_ofSource] at listed
  rcases List.mem_map.mp listed with ⟨raw, piece, whole⟩
  rw [← whole, String.toList_ofList]
  exact notMem_withoutReturn (notMem_of_mem_splitOn piece)

/-- Texts without line feeds that are joined and cut again stay the same up to
blanks around them. -/
theorem map_trimmed_joinLines {texts : List String} (nonempty : texts ≠ [])
    (free : ∀ text ∈ texts, '\n' ∉ text.toList) :
    (ofSource (Text.joinLines texts)).map trimmed = texts.map Text.trim := by
  have pieces : (Text.joinLines texts).toList.splitOn '\n' = texts.map String.toList := by
    have cut := @List.splitOn_intercalate Char (texts.map String.toList) _ _ '\n'
    rw [Text.joinLines, String.toList_intercalate]
    apply cut
    · intro piece member
      rcases List.mem_map.mp member with ⟨text, listed, rfl⟩
      exact free text listed
    · exact fun empty => nonempty (List.map_eq_nil_iff.mp empty)
  have trims : ∀ texts : List String, (ofSource (Text.joinLines texts)).map trimmed =
      ((ofSource (Text.joinLines texts)).map text).map Text.trim := by
    intro texts
    rw [List.map_map]
    rfl
  rw [trims, map_text_ofSource, pieces, List.map_map, List.map_map]
  apply List.map_congr_left
  intro text _
  simp only [Function.comp_apply, Text.trim, String.toList_ofList, trimChars_withoutReturn]

end SourceLine

/-! ## Cutting lines into sections -/

namespace Section

theorem runs_of_marked {first : SourceLine} {marker : Marker}
    (marked : Marker.ofText? first.text = some marker) (rest : List SourceLine) :
    runs (first :: rest) = ([], (marker, (runs rest).1) :: (runs rest).2) := by
  rw [runs, List.foldr_cons, marked]
  rfl

theorem runs_of_unmarked {first : SourceLine} (unmarked : Marker.ofText? first.text = none)
    (rest : List SourceLine) : runs (first :: rest) = (first :: (runs rest).1, (runs rest).2) := by
  rw [runs, List.foldr_cons, unmarked]
  rfl

/-- Lines without a marker form one run. -/
theorem runs_of_all_unmarked {lines : List SourceLine}
    (unmarked : ∀ line ∈ lines, Marker.ofText? line.text = none) : runs lines = (lines, []) := by
  induction lines with
  | nil => rfl
  | cons line rest ih =>
      rcases List.forall_mem_cons.mp unmarked with ⟨here, later⟩
      rw [runs_of_unmarked here, ih later]

/-- A marker starts a run, in front of which there is nothing here. -/
theorem ofLines_of_marked {first : SourceLine} {marker : Marker}
    (marked : Marker.ofText? first.text = some marker) {rest : List SourceLine}
    (unmarked : ∀ line ∈ rest, Marker.ofText? line.text = none) :
    ofLines (first :: rest) = [⟨.page, []⟩, ⟨marker.target, rest⟩] := by
  rw [ofLines, runs_of_marked marked, runs_of_all_unmarked unmarked]
  rfl

private theorem mem_runs (lines : List SourceLine) :
    (∀ line ∈ (runs lines).1, line ∈ lines ∧ Marker.ofText? line.text = none) ∧
      ∀ marked ∈ (runs lines).2, ∀ line ∈ marked.2, line ∈ lines ∧ Marker.ofText? line.text = none := by
  induction lines with
  | nil => exact ⟨nofun, nofun⟩
  | cons first rest ih =>
      have wider : ∀ {line : SourceLine}, line ∈ rest ∧ Marker.ofText? line.text = none →
          line ∈ first :: rest ∧ Marker.ofText? line.text = none :=
        fun found => ⟨List.mem_cons_of_mem first found.1, found.2⟩
      cases marked : Marker.ofText? first.text with
      | some marker =>
          rw [runs_of_marked marked]
          refine ⟨nofun, List.forall_mem_cons.mpr ⟨?_, ?_⟩⟩
          · exact fun line member => wider (ih.1 line member)
          · exact fun entry listed line member => wider (ih.2 entry listed line member)
      | none =>
          rw [runs_of_unmarked marked]
          refine ⟨List.forall_mem_cons.mpr ⟨⟨List.mem_cons_self, marked⟩, ?_⟩, ?_⟩
          · exact fun line member => wider (ih.1 line member)
          · exact fun entry listed line member => wider (ih.2 entry listed line member)

/-- The lines of sections are lines of the source without a marker. -/
theorem mem_of_mem_lines {source : String} {part : Section} (listed : part ∈ ofSource source)
    {line : SourceLine} (member : line ∈ part.lines) :
    line ∈ SourceLine.ofSource source ∧ Marker.ofText? line.text = none := by
  rcases mem_runs (SourceLine.ofSource source) with ⟨leading, marked⟩
  have run : part ∈ ofLines (SourceLine.ofSource source) := (List.mem_filter.mp listed).1
  rw [ofLines] at run
  rcases List.mem_cons.mp run with first | later
  · rw [first] at member
    exact leading line member
  · rcases List.mem_map.mp later with ⟨entry, found, rfl⟩
    exact marked entry found line member

end Section
end Pagewright
