import Pagewright.Proofs.Avoiding
import Pagewright.Proofs.Suite.Verdict

namespace Pagewright
namespace Suite

/-!
# Where a test file is cut

A test file is written line by line: three hyphens, the lines of the header,
three hyphens again, and then the source, whatever it holds.  Cutting follows the
text from the other side.  It drops the ending of the first line and looks for a
line feed with three hyphens behind it.  The line feed that it should find is the
one at the end of the last line of the header.

So a header with lines is found as it was written, also if lines of it are empty
and if lines of the source look like the end of a header.  A header without lines
is not found: the line feed in front of the second delimiter is the one that was
dropped.  By `Delimited`, which does not ask how a text was written, the parts of such
a file are other ones, or there are none.
-/

/-- A line that can stand in a header: it holds no line feed and no carriage
return, and does not begin like the end of the header. -/
structure IsHeaderLine (line : String) : Prop where
  unbroken : Text.Avoids ['\n', '\r'] line
  undelimited : ¬"---".toList <+: line.toList

/-- The text of some lines, each with its ending. -/
def linesWith (ending : LineEnding) (lines : List String) : List Char :=
  lines.flatMap fun line => line.toList ++ ending.text.toList

/-- A test file: byte order marks, the lines of the header between two lines of
hyphens, and the source. -/
def written (marks : Nat) (ending : LineEnding) (header : List String) (source : String) : String :=
  String.ofList (List.replicate marks '\ufeff' ++
    (linesWith ending ("---" :: (header ++ ["---"])) ++ source.toList))

section Lines

variable {ending : LineEnding} {header : List String}

/-- With its ending, a line of a header still does not begin like its end. -/
theorem IsHeaderLine.undelimited_with {line : String} (plain : IsHeaderLine line) (ending : LineEnding)
    (back : List Char) : ¬"---".toList <+: line.toList ++ (ending.text.toList ++ back) := by
  intro reaches
  rw [LineEnding.toList_text, List.append_assoc, List.singleton_append, ← List.append_assoc] at reaches
  have within := Text.prefix_of_notMem (by decide) reaches
  cases ending with
  | lineFeed =>
      rw [LineEnding.lead, List.append_nil] at within
      exact plain.undelimited within
  | returnLineFeed => exact plain.undelimited (Text.prefix_of_notMem (by decide) within)

/-- The first delimiter behind a header with lines is the one that closes it. -/
theorem splitAtFirst?_linesWith (lines : ∀ line ∈ header, IsHeaderLine line) (filled : header ≠ [])
    (back : List Char) :
    Text.splitAtFirst? "\n---".toList (linesWith ending header ++ ("---".toList ++ back)) =
      some ((String.intercalate ending.text header).toList ++ ending.lead, "\n---".toList ++ back) := by
  have needle : "\n---".toList = '\n' :: "---".toList := by decide
  induction header with
  | nil => exact absurd rfl filled
  | cons line others ih =>
      rcases List.forall_mem_cons.mp lines with ⟨plain, later⟩
      have absent : '\n' ∉ line.toList ++ ending.lead := by
        rw [List.mem_append, not_or]
        exact ⟨fun inside => plain.unbroken _ inside List.mem_cons_self, ending.notMem_lead⟩
      have split : linesWith ending (line :: others) ++ ("---".toList ++ back) =
          (line.toList ++ ending.lead) ++
            '\n' :: (linesWith ending others ++ ("---".toList ++ back)) := by
        rw [linesWith, List.flatMap_cons, ← linesWith, LineEnding.toList_text]
        simp only [List.append_assoc, List.cons_append, List.nil_append]
      rw [split, needle, Text.splitAtFirst?_skip _ absent]
      cases others with
      | nil =>
          rw [linesWith, List.flatMap_nil, List.nil_append, ← List.cons_append,
            Text.splitAtFirst?_of_here, Option.map_some, List.append_nil,
            String.intercalate_singleton]
      | cons next others =>
          have elsewhere : ¬('\n' :: "---".toList <+:
              '\n' :: (linesWith ending (next :: others) ++ ("---".toList ++ back))) := by
            intro here
            have reaches := (List.cons_prefix_cons.mp here).2
            rw [linesWith, List.flatMap_cons, List.append_assoc, List.append_assoc] at reaches
            exact (later next List.mem_cons_self).undelimited_with ending _ reaches
          rw [Text.splitAtFirst?_of_elsewhere elsewhere, ← needle,
            ih later (List.cons_ne_nil next others), Option.map_some, Option.map_some,
            String.intercalate_cons_cons]
          simp only [String.toList_append, LineEnding.toList_text, List.append_assoc,
            List.cons_append, List.nil_append]

/-- Joined lines do not end with a carriage return. -/
theorem getLast?_intercalate_ne (lines : ∀ line ∈ header, IsHeaderLine line) :
    (String.intercalate ending.text header).toList.getLast? ≠ some '\r' := by
  induction header with
  | nil =>
      rw [String.intercalate_nil]
      decide
  | cons line others ih =>
      rcases List.forall_mem_cons.mp lines with ⟨plain, later⟩
      cases others with
      | nil =>
          rw [String.intercalate_singleton]
          intro last
          exact plain.unbroken _ (List.mem_of_getLast? last) (by decide)
      | cons next others =>
          rw [String.intercalate_cons_cons, String.toList_append, List.getLast?_append]
          cases last : (String.intercalate ending.text (next :: others)).toList.getLast? with
          | some c =>
              rw [Option.some_or, ← last]
              exact ih later
          | none =>
              rw [Option.none_or, String.toList_append, LineEnding.toList_text, ← List.append_assoc,
                List.getLast?_concat]
              decide

theorem dropEndWhile_lead (ending : LineEnding) {text : List Char} (bare : text.getLast? ≠ some '\r') :
    Text.dropEndWhile (fun c => decide (c = '\r')) (text ++ ending.lead) = text := by
  rw [Text.dropEndWhile_eq_iff]
  cases ending with
  | lineFeed => exact ⟨0, rfl, bare⟩
  | returnLineFeed => exact ⟨1, rfl, bare⟩

end Lines

/-! ## Cutting what was written -/

/-- What a cut at the closing delimiter, if there is one, makes of a file. -/
def closing : Option (List Char × List Char) → Except CutError (String × String)
  | none => .error .missingClosing
  | some (front, closed) =>
      .ok (String.ofList (Text.dropEndWhile (fun c => decide (c = '\r')) front),
        String.ofList (withoutLineEnding (closed.drop 4)))

/-- Behind the marks and the first line, the search for the end of the header
begins. -/
theorem cut_written_eq (marks : Nat) (ending : LineEnding) (header : List String) (source : String) :
    cut (written marks ending header source) =
      closing (Text.splitAtFirst? "\n---".toList
        (linesWith ending header ++ ("---".toList ++ (ending.text.toList ++ source.toList)))) := by
  have text : withoutMarks (written marks ending header source).toList = "---".toList ++
      (ending.text.toList ++ (linesWith ending header ++
        ("---".toList ++ (ending.text.toList ++ source.toList)))) := by
    have head : (linesWith ending ("---" :: (header ++ ["---"])) ++ source.toList).head? =
        some '-' := rfl
    rw [withoutMarks, written, String.toList_ofList, Text.dropWhile_replicate_append]
    · simp only [linesWith, List.flatMap_cons, List.flatMap_append, List.flatMap_nil,
        List.append_assoc, List.append_nil]
    · rw [head]
      decide
  rw [cut, List.isPrefixOf?_eq_some_iff_append_eq.mpr text.symm]
  dsimp only
  rw [withoutLineEnding_text]
  cases Text.splitAtFirst? "\n---".toList
      (linesWith ending header ++ ("---".toList ++ (ending.text.toList ++ source.toList))) with
  | none => rfl
  | some found => rfl

theorem cut_written_of_filled (marks : Nat) (ending : LineEnding) {header : List String}
    (lines : ∀ line ∈ header, IsHeaderLine line) (filled : header ≠ []) (source : String) :
    cut (written marks ending header source) =
      .ok (String.intercalate ending.text header, source) := by
  have closed : ("\n---".toList ++ (ending.text.toList ++ source.toList)).drop 4 =
      ending.text.toList ++ source.toList := rfl
  rw [cut_written_eq, splitAtFirst?_linesWith lines filled, closing, closed, withoutLineEnding_text,
    dropEndWhile_lead ending (getLast?_intercalate_ne lines), String.ofList_toList,
    String.ofList_toList]

/-- Without lines in the header, the search begins at the delimiter that closes
it, and passes over it. -/
theorem cut_written_nil (marks : Nat) (ending : LineEnding) (source : String) :
    cut (written marks ending [] source) =
      closing ((Text.splitAtFirst? "\n---".toList ('\n' :: source.toList)).map fun found =>
        ("---".toList ++ ending.lead ++ found.1, found.2)) := by
  have needle : "\n---".toList = '\n' :: "---".toList := by decide
  have split : linesWith ending [] ++ ("---".toList ++ (ending.text.toList ++ source.toList)) =
      ("---".toList ++ ending.lead) ++ '\n' :: source.toList := by
    rw [linesWith, List.flatMap_nil, List.nil_append, LineEnding.toList_text]
    simp only [List.append_assoc, List.cons_append, List.nil_append]
  have absent : '\n' ∉ "---".toList ++ ending.lead := by
    rw [List.mem_append, not_or]
    exact ⟨by decide, ending.notMem_lead⟩
  rw [cut_written_eq, split, needle, Text.splitAtFirst?_skip _ absent]

/-- A header without lines is never found: what is taken for the header begins
with the delimiter that closes it. -/
theorem cut_written_nil_ne (marks : Nat) (ending : LineEnding) (source found : String) :
    cut (written marks ending [] source) ≠ .ok ("", found) := by
  rw [cut_written_nil]
  cases Text.splitAtFirst? "\n---".toList ('\n' :: source.toList) with
  | none =>
      intro absurdity
      cases absurdity
  | some parts =>
      intro same
      have front := (Prod.mk.inj (Except.ok.inj same)).1
      rw [← String.toList_inj, String.toList_ofList, Text.dropEndWhile, String.toList_empty,
        List.reverse_eq_nil_iff, List.dropWhile_eq_nil_iff] at front
      have hyphen : '-' ∈ ("---".toList ++ ending.lead ++ parts.1).reverse := by
        rw [List.mem_reverse, List.append_assoc]
        exact List.mem_append_left _ (by decide)
      exact absurd (of_decide_eq_true (front '-' hyphen)) (by decide)

/-- Without further delimiters, a header without lines is taken to have no end. -/
theorem cut_written_nil_of_undelimited (marks : Nat) (ending : LineEnding) {source : String}
    (undelimited : ¬"\n---".toList <:+: '\n' :: source.toList) :
    cut (written marks ending [] source) = .error .missingClosing := by
  have none := mt Text.isSome_splitAtFirst?_iff.mp undelimited
  rw [cut_written_nil, Option.not_isSome_iff_eq_none.mp none]
  rfl

/-- A test file is cut where its delimiters are, if its header has lines.  The header
is then found as its lines joined by their ending and the source as it is, and the
test passes when that source is as that header expects.  This does not depend on
byte order marks, on the ending, on empty lines in the header, or on delimiters in
the source.  Without lines in the header, the file is refused or cut elsewhere. -/
theorem cut_written_iff (marks : Nat) (ending : LineEnding) {header : List String}
    (lines : ∀ line ∈ header, IsHeaderLine line) (source : String) :
    (cut (written marks ending header source) =
        .ok (String.intercalate ending.text header, source) ↔ header ≠ []) ∧
      (header ≠ [] → ∀ path,
        (runText path (written marks ending header source)).passed = true ↔
          ∃ expectations,
            Expectations.ofHeader? (String.intercalate ending.text header) = some expectations ∧
            expectations.Meets (Report.ofSource expectations.settings source)) ∧
      (header = [] → ¬"\n---".toList <:+: '\n' :: source.toList →
        cut (written marks ending header source) = .error .missingClosing) := by
  refine ⟨⟨?_, fun filled => ?_⟩, fun filled path => ?_, ?_⟩
  · rintro found rfl
    exact cut_written_nil_ne marks ending source source found
  · exact cut_written_of_filled marks ending lines filled source
  · rw [passed_runText_iff, Succeeds]
    simp only [← cut_eq_ok_iff, cut_written_of_filled marks ending lines filled]
    constructor
    · rintro ⟨_, _, expectations, parts, headed, meets⟩
      cases parts
      exact ⟨expectations, headed, meets⟩
    · rintro ⟨expectations, headed, meets⟩
      exact ⟨_, _, expectations, rfl, headed, meets⟩
  · rintro rfl undelimited
    exact cut_written_nil_of_undelimited marks ending undelimited

/-- An empty line at the end of a header and a source full of delimiters do no harm,
but a header without lines does. -/
theorem cut_written_iff_delimiters :
    (∀ line ∈ ["description = 'x'", ""], IsHeaderLine line) ∧
      cut (written 2 .returnLineFeed ["description = 'x'", ""] "---\nx\n---\n") =
        .ok ("description = 'x'\r\n", "---\nx\n---\n") ∧
      cut (written 0 .lineFeed [] "فقرة x") = .error .missingClosing := by
  have lines : ∀ line ∈ ["description = 'x'", ""], IsHeaderLine line := by
    refine List.forall_mem_cons.mpr ⟨⟨by decide, by decide⟩, List.forall_mem_singleton.mpr ?_⟩
    exact ⟨by decide, by decide⟩
  have joined : "description = 'x'\r\n" =
      String.intercalate LineEnding.returnLineFeed.text ["description = 'x'", ""] := by
    decide +kernel
  have undelimited : ¬"\n---".toList <:+: '\n' :: "فقرة x".toList := by decide +kernel
  refine ⟨lines, ?_, ?_⟩
  · rw [joined]
    exact (cut_written_iff 2 .returnLineFeed lines "---\nx\n---\n").1.mpr (List.cons_ne_nil _ _)
  · exact (cut_written_iff 0 .lineFeed (List.forall_mem_nil _) "فقرة x").2.2 rfl undelimited

end Suite
end Pagewright
