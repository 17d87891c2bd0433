import Mathlib.Data.List.Infix
import Pagewright.Proofs.Text.Search
import Pagewright.Suite.TestFile

namespace Pagewright
namespace Suite

/-!
# The parts of a test file

What the header and the source of a test file are is stated here on its text,
without a search.  The header stands between two delimiters of three hyphens, and
neither of them has to be a whole line: what follows the hyphens on the same line
counts as the beginning of the header or of the source, and only a line that ends
behind the hyphens adds nothing.

The first delimiter stands behind byte order marks, if there are any.  The second
one begins the first line that begins so behind the line on which the header
begins.  Later ones therefore belong to the source, and no line of the header but
its first can begin like a delimiter.  Carriage returns at the end of the header
belong to the end of its last line.
-/

/-- How the lines around the header and in it end. -/
inductive LineEnding where
  | lineFeed
  | returnLineFeed
deriving Repr, DecidableEq

namespace LineEnding

def text : LineEnding → String
  | .lineFeed => "\n"
  | .returnLineFeed => "\r\n"

/-- What an ending has in front of its line feed. -/
def lead : LineEnding → List Char
  | .lineFeed => []
  | .returnLineFeed => ['\r']

theorem toList_text (ending : LineEnding) : ending.text.toList = ending.lead ++ ['\n'] := by
  cases ending <;> rfl

theorem notMem_lead (ending : LineEnding) : '\n' ∉ ending.lead := by
  cases ending <;> decide

end LineEnding

/-- What a delimiter is followed by, apart from the end of its own line. -/
inductive Follows : (behind rest : List Char) → Prop
  | nextLine (ending : LineEnding) (rest : List Char) :
      Follows (ending.text.toList ++ rest) rest
  | sameLine {rest : List Char} (unended : ∀ ending : LineEnding, ¬ending.text.toList <+: rest) :
      Follows rest rest

theorem withoutLineEnding_text (ending : LineEnding) (rest : List Char) :
    withoutLineEnding (ending.text.toList ++ rest) = rest := by
  cases ending <;> rfl

theorem withoutLineEnding_eq_iff {behind rest : List Char} :
    withoutLineEnding behind = rest ↔ Follows behind rest := by
  constructor
  · rintro rfl
    unfold withoutLineEnding
    split
    case h_1 rest => exact .nextLine .lineFeed rest
    case h_2 rest => exact .nextLine .returnLineFeed rest
    case h_3 noFeed noReturn =>
        apply Follows.sameLine
        rintro ending ⟨rest, parts⟩
        cases ending with
        | lineFeed => exact noFeed rest parts.symm
        | returnLineFeed => exact noReturn rest parts.symm
  · intro follows
    cases follows with
    | nextLine ending => exact withoutLineEnding_text ending rest
    | sameLine unended =>
        unfold withoutLineEnding
        split
        case h_1 rest => exact absurd (List.prefix_append _ rest) (unended .lineFeed)
        case h_2 rest => exact absurd (List.prefix_append _ rest) (unended .returnLineFeed)
        case h_3 => rfl

/-- A test file with its header and its source. -/
inductive Delimited (content header source : String) : Prop
  | intro (marks returns : Nat) {opened closed : List Char}
      (opening : content.toList = List.replicate marks '\ufeff' ++ ("---".toList ++ opened))
      (headed : Follows opened
        (header.toList ++ List.replicate returns '\r' ++ ("\n---".toList ++ closed)))
      (undelimited : ¬"\n---".toList <:+: header.toList)
      (bare : header.toList.getLast? ≠ some '\r')
      (sourced : Follows closed source.toList)

/-- The search for the second delimiter finds it where it stands. -/
theorem splitAtFirst?_delimiter_iff {text front back : List Char} :
    Text.splitAtFirst? "\n---".toList text = some (front, back) ↔
      text = front ++ back ∧ "\n---".toList <+: back ∧ ¬"\n---".toList <:+: front :=
  @Text.splitAtFirst?_eq_some_iff '\n' "---".toList text front back (by decide)

/-- A file is cut exactly into the parts that it has. -/
theorem cut_eq_ok_iff {content header source : String} :
    cut content = .ok (header, source) ↔ Delimited content header source := by
  constructor
  · intro parted
    unfold cut at parted
    split at parted
    case h_1 => cases parted
    case h_2 opened begins =>
      split at parted
      case h_1 => cases parted
      case h_2 front back found =>
          rcases Prod.mk.inj (Except.ok.inj parted) with ⟨trailed, closing⟩
          rw [← String.toList_inj, String.toList_ofList] at trailed closing
          have marked := (List.isPrefixOf?_eq_some_iff_append_eq.mp begins).symm
          rcases Text.dropWhile_eq_iff.mp marked with ⟨marks, opening, -⟩
          rcases Text.dropEndWhile_eq_iff.mp trailed with ⟨returns, rfl, bare⟩
          rcases splitAtFirst?_delimiter_iff.mp found with ⟨headed, ⟨closed, rfl⟩, absent⟩
          have undelimited : ¬"\n---".toList <:+: header.toList := fun inside =>
            absent (inside.trans (List.prefix_append _ _).isInfix)
          exact .intro marks returns opening (withoutLineEnding_eq_iff.mp headed) undelimited bare
            (withoutLineEnding_eq_iff.mp closing)
  · rintro @⟨marks, returns, opened, closed, opening, headed, undelimited, bare, sourced⟩
    have marked : withoutMarks content.toList = "---".toList ++ opened :=
      Text.dropWhile_eq_iff.mpr ⟨marks, opening, by simp⟩
    have found : Text.splitAtFirst? "\n---".toList (withoutLineEnding opened) =
        some (header.toList ++ List.replicate returns '\r', "\n---".toList ++ closed) := by
      rw [splitAtFirst?_delimiter_iff, withoutLineEnding_eq_iff]
      refine ⟨headed, List.prefix_append _ _, fun inside => ?_⟩
      exact undelimited (Text.infix_of_append_replicate (by decide) inside)
    have trailed : Text.dropEndWhile (· = '\r') (header.toList ++ List.replicate returns '\r') =
        header.toList :=
      Text.dropEndWhile_eq_iff.mpr ⟨returns, rfl, bare⟩
    have closing : withoutLineEnding (("\n---".toList ++ closed).drop 4) = source.toList :=
      withoutLineEnding_eq_iff.mpr sourced
    rw [cut, List.isPrefixOf?_eq_some_iff_append_eq.mpr marked.symm]
    dsimp only
    rw [found]
    dsimp only
    rw [trailed, closing, String.ofList_toList, String.ofList_toList]

end Suite
end Pagewright
