import Pagewright.CommandLine.Program
import Pagewright.Proofs.Suite.Categories
import Pagewright.Proofs.Suite.Verdict

namespace Pagewright
namespace Suite

/-!
# Running the tests of a directory

The exit code of a run is all that many of its callers look at.  It says that
there were tests and that each of them passed, and it can be trusted for the
tests that were asked for only if these are the ones that ran.  So what is proved
here is about the whole run: which tests they are, in which order and how often,
what is said about each, and how the totals and the exit code follow.
-/

/-- The results of tests of the suite at a path. -/
def resultsOf (tree : FileTree) (path : String) (tests : List (List String)) : List Result :=
  tests.map fun place => runFile tree (FileTree.join path place)

/-- The warnings for the requests that select nothing. -/
def warningsFor (suite : FileTree) (requests : List String) : List String :=
  (Category.unmatched (Category.ofTree suite) requests).map (unmatchedLine (Category.ofTree suite))

/-- The lines for some categories: each is announced before its results. -/
def categoryLines (style : Style) (tree : FileTree) (path : String) (categories : List Category) :
    List String :=
  categories.flatMap fun category =>
    ["", style.bold category.label] ++ (resultsOf tree path category.tests).map (resultLine style)

/-- What is said of a run of tests. -/
inductive Reports (style : Style) (tree : FileTree) (path : String) (suite : FileTree)
    (requests : List String) : List (List String) → List String → Prop
  | absent (none : ∀ place, ¬IsTestOf suite place) :
      Reports style tree path suite requests [] [noTestsLine path]
  | unmatched :
      Reports style tree path suite requests []
        (warningsFor suite requests ++ ["no matching categories found"])
  | ran {tests : List (List String)} {categories : List Category} (filled : tests ≠ [])
      (grouped : categories.flatMap Category.tests = tests)
      (named : ∀ category ∈ categories, category.tests ≠ [] ∧
        ∀ place ∈ category.tests, directoryPath place = category.name) :
      Reports style tree path suite requests tests
        (warningsFor suite requests ++
          (categoryLines style tree path categories ++ summaryLines style (resultsOf tree path tests)))

/-- The last line gives the numbers of tests that passed and failed. -/
def Totals (lines : List String) (passed failed : Nat) : Prop :=
  ∃ verdict rest, lines.getLast? = some ("test result: " ++ verdict ++ ". " ++ toString passed ++
    " passed, " ++ toString failed ++ " failed" ++ rest)

theorem totals_summaryLines (style : Style) (results : List Result) :
    Totals (summaryLines style results) (results.countP Result.passed)
      (results.countP fun result => !result.passed) := by
  unfold summaryLines
  dsimp only
  rw [@List.countP_eq_length_filter _ (fun result : Result => !result.passed)]
  split
  case isTrue none =>
      have written : " passed, 0 failed" = " passed, " ++ (toString 0 ++ (" failed" ++ "")) := by decide
      refine ⟨style.green "ok", "", ?_⟩
      rw [List.isEmpty_iff.mp none, List.length_nil, written]
      simp only [← String.append_assoc]
      rfl
  case isFalse =>
      have written : " failed (of " = " failed" ++ " (of " := by decide
      refine ⟨style.red "FAILED", " (of " ++ toString results.length ++ ")", ?_⟩
      rw [List.getLast?_append, written]
      simp only [← String.append_assoc]
      rfl

theorem Totals.append {lines : List String} {passed failed : Nat} (totals : Totals lines passed failed)
    (front : List String) : Totals (front ++ lines) passed failed := by
  rcases totals with ⟨verdict, rest, last⟩
  refine ⟨verdict, rest, ?_⟩
  rw [List.getLast?_append, last]
  rfl

/-- The test at a place below the suite is the one that the path of the place
leads to. -/
theorem passed_runFile_iff {tree : FileTree} {path : String} {entries : List (String × FileTree)}
    (found : tree.find path = .ok (.directory entries))
    (named : (FileTree.directory entries).WellNamed) {place : List String}
    (test : IsTestOf (.directory entries) place) :
    (runFile tree (FileTree.join path place)).passed = true ↔ Passes (.directory entries) place := by
  rcases test.stands with ⟨content, stands⟩
  have below : place ≠ [] := by
    rintro rfl
    cases stands
  rcases FileTree.leads_join found below (named.isName_of_at? stands) stands with
    ⟨outer, leads, there⟩
  have opened : tree.find (FileTree.join path place) = .ok (.file content) :=
    FileTree.find_eq_file_iff.mpr ⟨_, leads, there⟩
  rw [Passes, stands, runFile]
  cases content with
  | text content =>
      have read : tree.readText (FileTree.join path place) = .ok content :=
        FileTree.readText_eq_ok_iff.mpr ⟨_, leads, there⟩
      rw [read]
      dsimp only
      rw [passed_runText_iff]
      constructor
      · intro succeeds
        exact ⟨content, rfl, succeeds⟩
      · rintro ⟨other, same, succeeds⟩
        cases same
        exact succeeds
  | bytes contents =>
      have unread : tree.readText (FileTree.join path place) = .error .notText := by
        rw [FileTree.readText, opened]
        rfl
      rw [unread]
      constructor
      · intro absurdity
        cases absurdity
      · rintro ⟨other, absurdity, -⟩
        cases absurdity

/-! ## The run as a whole -/

section Runs

variable {tree : FileTree} {path : String} {entries : List (String × FileTree)}

theorem accountOfCategories_eq (style : Style) (tree : FileTree) (path : String)
    (categories : List Category) :
    accountOfCategories style tree path categories =
      ⟨categoryLines style tree path categories ++
          summaryLines style (resultsOf tree path (categories.flatMap Category.tests)),
        (resultsOf tree path (categories.flatMap Category.tests)).all Result.passed⟩ := by
  have results : (categories.map fun category => (category, runCategory tree path category)).flatMap
      Prod.snd = resultsOf tree path (categories.flatMap Category.tests) := by
    rw [List.flatMap_map, resultsOf, List.map_flatMap]
    rfl
  rw [accountOfCategories]
  dsimp only
  rw [results, List.flatMap_map]
  rfl

theorem isFile_of_directory (found : tree.find path = .ok (.directory entries)) :
    tree.isFile path = false := by
  rw [FileTree.isFile, found]

theorem categoriesAt_of_directory (found : tree.find path = .ok (.directory entries)) :
    categoriesAt tree path = Category.ofTree (.directory entries) := by
  rw [categoriesAt, found]

/-- What a run does depends on whether there are tests, and whether some of them
are selected. -/
theorem run_of_directory (style : Style) (found : tree.find path = .ok (.directory entries))
    (requests : List String) :
    run style tree path requests =
      if Category.ofTree (.directory entries) = [] then
        ⟨[noTestsLine path], false⟩
      else if Category.select (Category.ofTree (.directory entries)) requests = [] then
        ⟨warningsFor (.directory entries) requests ++ ["no matching categories found"], false⟩
      else
        ⟨warningsFor (.directory entries) requests ++
            (categoryLines style tree path
                (Category.select (Category.ofTree (.directory entries)) requests) ++
              summaryLines style (resultsOf tree path (selectedTests (.directory entries) requests))),
          (resultsOf tree path (selectedTests (.directory entries) requests)).all Result.passed⟩ := by
  rw [run, isFile_of_directory found, categoriesAt_of_directory found]
  simp only [accountOfCategories_eq, List.isEmpty_iff]
  rfl

theorem selectedTests_eq_nil_iff {suite : FileTree} {requests : List String} :
    selectedTests suite requests = [] ↔ Category.select (Category.ofTree suite) requests = [] := by
  constructor
  · intro none
    rw [List.eq_nil_iff_forall_not_mem]
    intro category selected
    have member := (select_sublist _ _).subset selected
    exact tests_ne_nil member (List.flatMap_eq_nil_iff.mp none category selected)
  · intro none
    rw [selectedTests, none]
    rfl

/-- The lines of a run are about the selected tests. -/
theorem reports_run (style : Style) (found : tree.find path = .ok (.directory entries))
    (named : (FileTree.directory entries).WellNamed) (plain : Plain (.directory entries))
    (requests : List String) :
    Reports style tree path (.directory entries) requests
      (selectedTests (.directory entries) requests) (run style tree path requests).lines := by
  rw [run_of_directory style found]
  split
  case isTrue none =>
      have nothing : selectedTests (.directory entries) requests = [] := by
        rw [selectedTests_eq_nil_iff, none]
        exact List.sublist_nil.mp (select_sublist [] requests)
      rw [nothing]
      refine .absent fun place test => ?_
      rcases exists_mem_group ((mem_files_filter_iff named).mpr test) with ⟨category, member, -⟩
      rw [Category.ofTree] at none
      rw [none] at member
      cases member
  case isFalse =>
      split
      case isTrue none =>
          rw [selectedTests_eq_nil_iff.mpr none]
          exact .unmatched
      case isFalse some =>
          refine .ran (mt selectedTests_eq_nil_iff.mp some) rfl fun category selected => ?_
          have member := (select_sublist _ _).subset selected
          exact ⟨tests_ne_nil member, fun place inside =>
            directoryPath_eq_name named plain member inside⟩

/-- A run succeeds when there are selected tests and all of them pass. -/
theorem success_run_iff (style : Style) (found : tree.find path = .ok (.directory entries))
    (requests : List String) :
    (run style tree path requests).success = true ↔
      selectedTests (.directory entries) requests ≠ [] ∧
        ∀ place ∈ selectedTests (.directory entries) requests,
          (runFile tree (FileTree.join path place)).passed = true := by
  rw [run_of_directory style found, ne_eq, selectedTests_eq_nil_iff]
  split
  case isTrue none =>
      rw [none]
      constructor
      · intro absurdity
        cases absurdity
      · rintro ⟨some, -⟩
        exact absurd (List.sublist_nil.mp (select_sublist [] requests)) some
  case isFalse =>
      split
      case isTrue none =>
          constructor
          · intro absurdity
            cases absurdity
          · rintro ⟨some, -⟩
            exact absurd none some
      case isFalse some =>
          dsimp only
          rw [resultsOf, List.all_map, List.all_eq_true]
          exact ⟨fun all => ⟨some, all⟩, fun all => all.2⟩

end Runs

/-- The totals of a run are those of its tests. -/
theorem Reports.totals {style : Style} {tree : FileTree} {path : String} {suite : FileTree}
    {requests : List String} {tests : List (List String)} {lines : List String}
    (reports : Reports style tree path suite requests tests lines) (filled : tests ≠ []) :
    Totals lines ((resultsOf tree path tests).countP Result.passed)
      ((resultsOf tree path tests).countP fun result => !result.passed) := by
  cases reports with
  | absent => exact absurd rfl filled
  | unmatched => exact absurd rfl filled
  | ran =>
      exact ((totals_summaryLines style (resultsOf tree path tests)).append _).append _

/-- The marks that a command line asks for. -/
def styleOf (plain : Bool) : Style :=
  if plain then .plain else .coloured

theorem effect_of_test {arguments : List String} {options : CommandLine.TestOptions} {plain : Bool}
    (reads : CommandLine.read arguments = .ok (.test options, plain))
    (running : options.listOnly = false) (tree : FileTree) :
    CommandLine.effect tree arguments =
      { code := if (run (styleOf plain) tree options.path options.requests).success then 0 else 1
        errors := CommandLine.linesText
          (run (styleOf plain) tree options.path options.requests).lines } := by
  rw [CommandLine.effect, reads]
  show CommandLine.test tree options plain = _
  rw [CommandLine.test, running]
  rfl

/-- Testing a directory runs the tests in the requested directories and below, at
any depth, and no others.  They run in order and each of them once, whatever the
requests have in common.  The totals add up to the number of tests, and the exit
code is zero when there are tests and each of them can be read and is as its
header expects. -/
theorem test_runs_requested {tree : FileTree} {arguments : List String}
    {options : CommandLine.TestOptions} {plain : Bool} {entries : List (String × FileTree)}
    (reads : CommandLine.read arguments = .ok (.test options, plain))
    (running : options.listOnly = false)
    (found : tree.find options.path = .ok (.directory entries))
    (named : (FileTree.directory entries).WellNamed) (backslashless : Plain (.directory entries))
    (filled : ∀ request ∈ options.requests, ∃ c ∈ request.toList, c ≠ '/') :
    ∃ tests lines,
      (∀ place, place ∈ tests ↔
        IsTestOf (.directory entries) place ∧ Requested options.requests place) ∧
      tests.Nodup ∧ tests.Pairwise Before ∧
      (CommandLine.effect tree arguments).errors = CommandLine.linesText lines ∧
      Reports (styleOf plain) tree options.path (.directory entries) options.requests tests lines ∧
      (∀ place ∈ tests, (runFile tree (FileTree.join options.path place)).passed = true ↔
        Passes (.directory entries) place) ∧
      (tests ≠ [] → ∃ passed failed, Totals lines passed failed ∧ passed + failed = tests.length ∧
        passed = (resultsOf tree options.path tests).countP Result.passed) ∧
      ((CommandLine.effect tree arguments).code = 0 ↔
        tests ≠ [] ∧ ∀ place ∈ tests, Passes (.directory entries) place) := by
  have reports := reports_run (styleOf plain) found named backslashless options.requests
  have ordered := pairwise_selected named backslashless options.requests
  have passes : ∀ place ∈ selectedTests (.directory entries) options.requests,
      ((runFile tree (FileTree.join options.path place)).passed = true ↔
        Passes (.directory entries) place) := by
    intro place member
    exact passed_runFile_iff found named ((mem_selected_iff named backslashless filled).mp member).1
  refine ⟨selectedTests (.directory entries) options.requests, _,
    fun place => mem_selected_iff named backslashless filled, ordered.imp Before.ne, ordered, ?_,
    reports, passes, ?_, ?_⟩
  · rw [effect_of_test reads running]
  · intro some
    refine ⟨_, _, reports.totals some, ?_, rfl⟩
    have sum := @List.length_eq_countP_add_countP _ Result.passed
      (resultsOf tree options.path (selectedTests (.directory entries) options.requests))
    simp only [decide_not, Bool.decide_eq_true] at sum
    rw [← sum, resultsOf, List.length_map]
  · rw [effect_of_test reads running]
    have code : ∀ success : Bool, (if success then 0 else 1) = 0 ↔ success = true := by decide
    rw [code, success_run_iff (styleOf plain) found]
    exact and_congr_right fun _ => forall₂_congr fun place member => passes place member

/-- The text of a test that expects nothing but success. -/
def emptyTest : String := "---\n\n---\n"

theorem succeeds_emptyTest : Succeeds emptyTest := by
  refine ⟨"", "", {}, cut_eq_ok_iff.mp (by decide +kernel), by decide +kernel, ?_⟩
  rw [← Expectations.check_eq_none_iff]
  decide +kernel

/-- The tests of two directories whose names begin alike. -/
def alike : List (String × FileTree) :=
  [("htmlx", .directory [("c.test.wahy", .file (.text "without a header"))]),
    ("html", .directory
      [("x", .directory [("b.test.wahy", .file (.text emptyTest))]),
        ("a.test.wahy", .file (.text emptyTest))])]

theorem wellNamed_alike : (FileTree.directory alike).WellNamed := by
  refine .directory (by decide) (by decide)
    (List.forall_mem_cons.mpr ⟨?_, List.forall_mem_singleton.mpr ?_⟩)
  · exact .directory (by decide) (by decide) (List.forall_mem_singleton.mpr (.file _))
  · refine .directory (by decide) (by decide)
      (List.forall_mem_cons.mpr ⟨?_, List.forall_mem_singleton.mpr (.file _)⟩)
    exact .directory (by decide) (by decide) (List.forall_mem_singleton.mpr (.file _))

theorem files_alike : (FileTree.directory alike).files =
    [["htmlx", "c.test.wahy"], ["html", "x", "b.test.wahy"], ["html", "a.test.wahy"]] := by
  simp [alike, FileTree.files, FileTree.filesOf]

theorem plain_alike : Plain (.directory alike) := by
  intro place content stands
  have listed := wellNamed_alike.mem_files_iff.mpr ⟨content, stands⟩
  have names : ∀ place ∈ (FileTree.directory alike).files, ∀ name ∈ place,
      Text.Avoids ['\\'] name := by
    rw [files_alike]
    decide
  exact names place listed

/-- Requests that overlap select the tests of `html` once, and those of `htmlx`
not at all, so that a test there without a header does no harm. -/
theorem test_runs_requested_alike :
    ∃ tests lines, ["html", "x", "b.test.wahy"] ∈ tests ∧ ["htmlx", "c.test.wahy"] ∉ tests ∧
      tests.Nodup ∧
      Reports .coloured (.directory [("tests", .directory alike)]) "tests" (.directory alike)
        ["html/x", "/html/", "html"] tests lines ∧
      (CommandLine.effect (.directory [("tests", .directory alike)])
        ["test", "tests", "-c", "html/x", "-c", "/html/", "-c", "html"]).code = 0 := by
  have reads : CommandLine.read ["test", "tests", "-c", "html/x", "-c", "/html/", "-c", "html"] =
      .ok (.test ⟨"tests", ["html/x", "/html/", "html"], false⟩, false) := by decide +kernel
  have parts : FileTree.parts "tests" = ["tests"] := by decide +kernel
  have found : (FileTree.directory [("tests", .directory alike)]).find "tests" =
      .ok (.directory alike) := by
    rw [FileTree.find_eq (by decide), parts]
    simp [FileTree.walk, FileTree.advance, FileTree.at?, Except.bind]
  have filled : ∀ request ∈ ["html/x", "/html/", "html"], ∃ c ∈ request.toList, c ≠ '/' := by
    have held : ∀ request ∈ ["html/x", "/html/", "html"], 'h' ∈ request.toList := by decide
    exact fun request member => ⟨'h', held request member, by decide⟩
  have asked : Requested ["html/x", "/html/", "html"] ["html", "x", "b.test.wahy"] :=
    .inr ⟨"html/x", List.mem_cons_self, ["html", "x"], ⟨0, 0, by decide⟩, by decide⟩
  have unasked : ¬Requested ["html/x", "/html/", "html"] ["htmlx", "c.test.wahy"] := by
    have selects : ∀ request ∈ ["html/x", "/html/", "html"],
        Category.isSelectedBy ⟨"htmlx", []⟩ (Category.requestedName request) = false := by decide
    rintro (none | ⟨request, member, named⟩)
    · cases none
    · have selected := (@isSelectedBy_iff ["htmlx"] (by decide) request (filled request member)
        ⟨"htmlx", []⟩ (by decide)).mpr named
      rw [selects request member] at selected
      cases selected
  rcases test_runs_requested reads rfl found wellNamed_alike plain_alike filled with
    ⟨tests, lines, selected, distinct, -, -, reports, -, -, code⟩
  have present : ["html", "x", "b.test.wahy"] ∈ tests :=
    (selected _).mpr ⟨⟨⟨_, rfl⟩, ["html", "x"], "b.test.wahy", rfl, by decide⟩, asked⟩
  refine ⟨tests, lines, present, fun inside => unasked ((selected _).mp inside).2, distinct, reports,
    code.mpr ⟨List.ne_nil_of_mem present, fun place inside => ?_⟩⟩
  rcases (selected place).mp inside with ⟨⟨stands, -⟩, requested⟩
  have listed := wellNamed_alike.mem_files_iff.mpr stands
  rw [files_alike] at listed
  simp only [List.mem_cons, List.not_mem_nil, or_false] at listed
  rcases listed with rfl | rfl | rfl
  · exact absurd requested unasked
  · exact ⟨emptyTest, rfl, succeeds_emptyTest⟩
  · exact ⟨emptyTest, rfl, succeeds_emptyTest⟩

end Suite
end Pagewright
