import Mathlib.Data.List.Forall2
import Pagewright.Proofs.FileTree.Paths
import Pagewright.Proofs.Suite.Delimited
import Pagewright.Proofs.Text.Search
import Pagewright.Suite.Run

namespace Pagewright
namespace Suite

/-!
# When a test passes

A check stops at the first expectation that is not met, because a failed test
gives one reason.  Whether there is a reason does not depend on that order: a
test passes when its file can be read and is delimited, its header is one, and each
of its expectations holds of the report on its source.  `Expectations.Meets` says
what each of them asks, without the checks.
-/

/-- A warning is the one expected: it holds the text, and is on the line if one
is given. -/
structure ExpectedWarning.Fits (expected : ExpectedWarning) (found : Target × Diagnostic) : Prop where
  text : expected.contains.toList <:+: (Report.renderEntry found).toList
  line : ∀ line, expected.line = some line → found.2.line = line

namespace Expectations

/-- A report is as expected. -/
structure Meets (expectations : Expectations) (report : Report) : Prop where
  success : report.success = expectations.success
  error : ∀ expected, expectations.error = some expected →
    ∃ found, report.failure? = some found ∧ expected.toList <:+: found.toList
  errorLine : ∀ line, expectations.errorLine = some line → report.failureLine? = some line
  contains : ∀ text ∈ expectations.contains, text.toList <:+: (report.document?.getD "").toList
  notContains : ∀ text ∈ expectations.notContains, ¬text.toList <:+: (report.document?.getD "").toList
  /-- There are as many warnings as expected, and they fit one by one. -/
  warnings : ∀ expected, expectations.warnings = some expected →
    List.Forall₂ ExpectedWarning.Fits expected report.warningDiagnostics

variable {expectations : Expectations} {report : Report}

theorem checkSuccess_eq_none_iff :
    expectations.checkSuccess report = none ↔ report.success = expectations.success := by
  rw [checkSuccess, Report.success]
  cases report.failure? with
  | none => cases expectations.success <;> simp
  | some error => cases expectations.success <;> simp

theorem checkError_eq_none_iff :
    expectations.checkError report = none ↔ ∀ expected, expectations.error = some expected →
      ∃ found, report.failure? = some found ∧ expected.toList <:+: found.toList := by
  rw [checkError, Option.bind_eq_none_iff]
  refine forall_congr' fun expected => imp_congr_right fun _ => ?_
  cases report.failure? with
  | none => simp
  | some found =>
      simp [← Text.occursIn_iff]

theorem checkErrorLine_eq_none_iff :
    expectations.checkErrorLine report = none ↔
      ∀ line, expectations.errorLine = some line → report.failureLine? = some line := by
  rw [checkErrorLine, Option.bind_eq_none_iff]
  refine forall_congr' fun line => imp_congr_right fun _ => ?_
  simp

theorem checkDocument_eq_none_iff :
    expectations.checkDocument report = none ↔
      (∀ text ∈ expectations.contains, text.toList <:+: (report.document?.getD "").toList) ∧
      ∀ text ∈ expectations.notContains, ¬text.toList <:+: (report.document?.getD "").toList := by
  simp only [checkDocument, Option.or_eq_none_iff, Option.map_eq_none_iff, List.find?_eq_none,
    Bool.not_eq_true', Bool.not_eq_false, Text.occursIn_iff]

theorem checkWarning_eq_none_iff {expected : ExpectedWarning} {found : Target × Diagnostic}
    {index : Nat} : checkWarning expected found index = none ↔ expected.Fits found := by
  rw [checkWarning]
  by_cases occurs : Text.occursIn expected.contains (Report.renderEntry found) = true
  · rw [occurs, if_neg (by decide), Option.bind_eq_none_iff]
    constructor
    · intro lines
      refine ⟨(Text.occursIn_iff _ _).mp occurs, fun line given => ?_⟩
      simpa using lines line given
    · intro fits line given
      rw [if_pos (fits.line line given)]
  · rw [if_pos (by simpa using occurs)]
    constructor
    · intro absurdity
      cases absurdity
    · intro fits
      exact absurd ((Text.occursIn_iff _ _).mpr fits.text) occurs

theorem checkWarnings_eq_none_iff :
    expectations.checkWarnings report = none ↔ ∀ expected, expectations.warnings = some expected →
      List.Forall₂ ExpectedWarning.Fits expected report.warningDiagnostics := by
  rw [checkWarnings, Option.bind_eq_none_iff]
  refine forall_congr' fun expected => imp_congr_right fun _ => ?_
  dsimp only
  rw [List.forall₂_iff_zip]
  by_cases same : report.warningDiagnostics.length = expected.length
  · rw [if_pos same, List.findSome?_eq_none_iff]
    constructor
    · intro fits
      refine ⟨same.symm, fun {first found} member => ?_⟩
      -- Each pair stands at some index, which only the message of a mismatch tells.
      rw [← List.zipIdx_map_fst 0 (expected.zip report.warningDiagnostics)] at member
      rcases List.mem_map.mp member with ⟨⟨pair, index⟩, indexed, rfl⟩
      have fit := fits _ indexed
      dsimp only at fit
      exact checkWarning_eq_none_iff.mp fit
    · rintro ⟨-, fits⟩ ⟨⟨first, found⟩, index⟩ indexed
      exact checkWarning_eq_none_iff.mpr (fits (List.fst_mem_of_mem_zipIdx indexed))
  · rw [if_neg same]
    constructor
    · intro absurdity
      cases absurdity
    · rintro ⟨length, -⟩
      exact absurd length.symm same

/-- A check finds nothing exactly when the report is as expected. -/
theorem check_eq_none_iff : expectations.check report = none ↔ expectations.Meets report := by
  rw [check]
  simp only [Option.or_eq_none_iff, checkSuccess_eq_none_iff, checkError_eq_none_iff,
    checkErrorLine_eq_none_iff, checkDocument_eq_none_iff, checkWarnings_eq_none_iff]
  constructor
  · rintro ⟨success, error, errorLine, ⟨contains, notContains⟩, warnings⟩
    exact ⟨success, error, errorLine, contains, notContains, warnings⟩
  · intro meets
    exact ⟨meets.success, meets.error, meets.errorLine, ⟨meets.contains, meets.notContains⟩,
      meets.warnings⟩

end Expectations

/-- The text of a test is a header and a source, the header is one, and the source
leads to what it says. -/
def Succeeds (content : String) : Prop :=
  ∃ header source expectations, Delimited content header source ∧
    Expectations.ofHeader? header = some expectations ∧
    expectations.Meets (Report.ofSource expectations.settings source)

/-- The test at a place of a suite can be read, and succeeds. -/
def Passes (suite : FileTree) (place : List String) : Prop :=
  ∃ content, suite.at? place = some (.file (.text content)) ∧ Succeeds content

theorem passed_runText_iff (path content : String) :
    (runText path content).passed = true ↔ Succeeds content := by
  unfold runText Succeeds
  simp only [← cut_eq_ok_iff]
  cases parted : cut content with
  | error error => simp [Result.passed]
  | ok parts =>
      rcases parts with ⟨header, source⟩
      dsimp only
      cases headed : Expectations.ofHeader? header with
      | none => simp [Result.passed, headed]
      | some expectations => simp [Result.passed, Expectations.check_eq_none_iff, headed]

end Suite
end Pagewright
