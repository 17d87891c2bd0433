import Pagewright.Proofs.CommandLine.Arguments
import Pagewright.Proofs.Suite.Running

namespace Pagewright

/-!
# Asking for what is listed

A listing shows each category by its label, with the number of its tests.  To ask
for a category is to give a text, which loses the slashes at both ends and is then
compared with the names of categories.  A label that is shown should be such a
text, but listing and asking spell categories in two ways.

The category of the tests that lie in the directory itself has no name, and its
label names nothing.  A directory whose name begins with a backslash makes a
category whose name begins with a slash, and that slash is lost.  These are all
the categories that cannot be asked for by their labels.  A name of nothing but
slashes is no exception: nothing is left of it, but the slash that is put behind
what is left makes up for that.

How a label gets into a command line is another matter.  One that begins with a
hyphen is not taken for a value when it is an argument of its own, and has to stand
in the argument of its option.
-/

/-! ## Command lines that ask for a category -/

namespace CommandLine

/-- The option for the categories of a test. -/
def categoryOption : ValueOption :=
  { name := "category", letter := some 'c', repeatable := true, mayBeEmpty := true }

theorem addValue_category (given : Given) (label : String) :
    given.addValue categoryOption label =
      .ok { given with values := ("category", label) :: given.values } := by
  unfold Given.addValue
  rw [if_neg, if_neg]
  · rfl
  · simp [categoryOption]
  · simp [categoryOption]

theorem demand_category (label : String) :
    demand testShape ("--category=" ++ label) = .value categoryOption (some label) := by
  have long : ("--category=" ++ label).toList =
      '-' :: '-' :: ("category=".toList ++ label.toList) := by
    rw [String.toList_append]
    rfl
  have parts : splitLong ("category=".toList ++ label.toList) =
      ("category", some (String.ofList label.toList)) := rfl
  rw [demand_long long, parts, String.ofList_toList]
  rfl

/-- Every text can be asked for, in every directory. -/
theorem read_category (label : String) {dir : String} (nonempty : dir ≠ "") :
    read ["test", "--category=" ++ label, "--", dir] = .ok (.test ⟨dir, [label], false⟩, false) := by
  have different : "--category=" ++ label ≠ "--" := by
    intro same
    have lengths := congrArg String.length same
    have option : "--category=".length = 11 := by decide
    have hyphens : "--".length = 2 := by decide
    rw [String.length_append] at lengths
    omega
  have filled : dir.isEmpty = false := by
    rw [Bool.eq_false_iff, ne_eq, String.isEmpty_iff]
    exact nonempty
  have given : readArguments testShape {} ["--category=" ++ label, "--", dir] =
      .ok { paths := [dir], values := [("category", label)] } := by
    rw [readArguments_cons testShape {} different, demand_category, meet, addValue_category]
    show readArguments testShape { values := [("category", label)] } ["--", dir] = _
    rw [readArguments.eq_2, List.foldlM_cons, Given.addPath, filled]
    rfl
  have task : readCommand "test" ["--category=" ++ label, "--", dir] =
      .ok (.test ⟨dir, [label], false⟩, false) :=
    finish_eq_ok_iff.mpr ⟨_, given, rfl, rfl⟩
  show Except.map _ (readCommand "test" ["--category=" ++ label, "--", dir]) = _
  rw [task]
  rfl

/-- A label that looks like an option is asked for in the argument of the option for
categories. -/
theorem exists_attached_of_read {arguments : List String} {options : TestOptions} {plain : Bool}
    (reads : read arguments = .ok (.test options, plain)) {label : String}
    (asked : label ∈ options.requests) (alike : looksLikeOption label = true) :
    ∃ argument ∈ arguments,
      argument ∈ ["--category=" ++ label, "-c" ++ label, "-c=" ++ label] := by
  rcases exists_command_of_readNamed reads with ⟨name, rest, flag, within, command⟩
  rcases readCommand_test command with ⟨given, readRest, made⟩
  rcases testTask_eq_ok_iff.mp made with ⟨path, -, same⟩
  cases same
  have present : ("category", label) ∈ given.values := by
    simpa [Given.valuesOf] using asked
  rcases (reads_of_readArguments readRest).exists_attached present alike with
    before | ⟨argument, member, option, known, attaches⟩
  · cases before
  · have written : argument ∈ ["--category=" ++ label, "-c" ++ label, "-c=" ++ label] := by
      cases List.mem_singleton.mp known
      cases attaches with
      | long => exact List.mem_cons_self
      | short named =>
          cases named
          exact List.mem_cons_of_mem _ List.mem_cons_self
      | shortWithSign named =>
          cases named
          exact List.mem_cons_of_mem _ (List.mem_cons_of_mem _ List.mem_cons_self)
    rcases mem_withCommand (within.subset (List.mem_cons_of_mem name member)) with inside | rfl
    · exact ⟨argument, inside, written⟩
    · exact absurd attaches.startsWithHyphen (by decide)

end CommandLine

namespace Suite

open FileTree (IsName)

/-! ## Labels as requests -/

namespace Category

/-- A category lies below another one. -/
def Below (inner outer : Category) : Prop :=
  (outer.name ++ "/").toList <+: inner.name.toList

/-- The name of a category that its label leads back to: there is a name, and it
does not begin with a slash, unless it is made of slashes. -/
def Recallable (name : String) : Prop :=
  name ≠ "" ∧ (name.toList.head? ≠ some '/' ∨ ∀ c ∈ name.toList, c = '/')

theorem label_of_named {category : Category} (named : category.name ≠ "") :
    category.label = category.name := by
  rw [label, if_neg]
  rw [String.isEmpty_iff]
  exact named

/-- What is left of a request does not begin with a slash. -/
theorem head?_requestedName (request : String) :
    (requestedName request).toList.head? ≠ some '/' := by
  intro opens
  have begins : (requestedName request).toList <+: request.toList.dropWhile fun c => c = '/' := by
    rw [requestedName, String.toList_ofList, ← List.reverse_suffix, List.reverse_reverse]
    exact List.dropWhile_suffix _
  rcases begins with ⟨rest, whole⟩
  have slash : (request.toList.dropWhile fun c => c = '/').head? = some '/' := by
    rw [← whole, List.head?_append, opens]
    rfl
  have other := List.head?_dropWhile_not (fun c => decide (c = '/')) request.toList
  rw [slash] at other
  cases other

/-- A text without its slashes is the text or begins it, unless slashes were lost in
front of something else. -/
theorem recallable_iff {name left : String} {before behind : Nat} (named : name ≠ "")
    (whole : name.toList =
      List.replicate before '/' ++ (left.toList ++ List.replicate behind '/'))
    (opens : left.toList.head? ≠ some '/') :
    (name = left ∨ (left ++ "/").toList <+: name.toList) ↔ Recallable name := by
  constructor
  · intro begins
    have front : left.toList <+: name.toList := by
      rcases begins with rfl | begins
      · exact List.prefix_rfl
      · rw [String.toList_append] at begins
        exact (List.prefix_append _ _).trans begins
    refine ⟨named, ?_⟩
    cases first : left.toList with
    | nil =>
        right
        intro c member
        rw [whole, first, List.nil_append, List.mem_append, List.mem_replicate,
          List.mem_replicate] at member
        rcases member with ⟨-, slash⟩ | ⟨-, slash⟩
        · exact slash
        · exact slash
    | cons c rest =>
        left
        rw [first] at front opens
        rcases front with ⟨back, same⟩
        rw [← same]
        exact opens
  · rintro ⟨-, bare | slashes⟩
    · cases before with
      | succ before =>
          rw [whole] at bare
          exact absurd rfl bare
      | zero =>
          cases behind with
          | zero =>
              left
              rw [← String.toList_inj, whole]
              simp
          | succ behind =>
              right
              refine ⟨List.replicate behind '/', ?_⟩
              rw [whole, String.toList_append, List.append_assoc]
              rfl
    · have nothing : left = "" := by
        cases first : left.toList with
        | nil => exact String.toList_eq_nil_iff.mp first
        | cons c rest =>
            have inside : c ∈ name.toList := by
              rw [whole, first]
              simp
            rw [first, slashes c inside] at opens
            exact absurd rfl opens
      right
      cases first : name.toList with
      | nil => exact absurd (String.toList_eq_nil_iff.mp first) named
      | cons c rest =>
          have slash : c = '/' := by
            apply slashes
            rw [first]
            exact List.mem_cons_self
          rw [nothing, slash]
          exact ⟨rest, rfl⟩

/-- A category is selected by its label if the label leads back to its name. -/
theorem isSelectedBy_label_iff (category : Category) :
    category.isSelectedBy (requestedName category.label) = true ↔ Recallable category.name := by
  by_cases named : category.name = ""
  · have root : category.label = "(root)" := by
      rw [label, named]
      rfl
    have kept : requestedName "(root)" = "(root)" := by decide +kernel
    rw [root, kept, isSelectedBy_iff_begins, named]
    constructor
    · rintro (same | begins)
      · exact absurd same (by decide)
      · exact absurd begins (by decide)
    · exact fun recallable => absurd rfl recallable.1
  · rcases exists_slashes category.name with ⟨before, behind, whole⟩
    rw [label_of_named named, isSelectedBy_iff_begins]
    exact recallable_iff named whole (head?_requestedName category.name)

/-- Whatever selects a category selects those below it. -/
theorem isSelectedBy_of_below {inner outer : Category} (below : inner.Below outer)
    {requested : String} (selects : outer.isSelectedBy requested = true) :
    inner.isSelectedBy requested = true := by
  rw [isSelectedBy_iff_begins] at selects ⊢
  right
  rcases selects with rfl | begins
  · exact below
  · rw [Below, String.toList_append] at below
    exact begins.trans ((List.prefix_append _ _).trans below)

/-- Only categories below it are selected by the label of another category, unless
its name ends with a slash. -/
theorem below_of_isSelectedBy {inner outer : Category} (recallable : Recallable outer.name)
    (closes : outer.name.toList.getLast? ≠ some '/')
    (selects : inner.isSelectedBy (requestedName outer.label) = true) :
    inner.name = outer.name ∨ inner.Below outer := by
  have filled : outer.name.toList ≠ [] := mt String.toList_eq_nil_iff.mp recallable.1
  have opens : outer.name.toList.head? ≠ some '/' := by
    rcases recallable.2 with bare | slashes
    · exact bare
    · have last := slashes _ (List.getLast_mem filled)
      rw [List.getLast?_eq_some_getLast filled, last] at closes
      exact absurd rfl closes
  have kept : requestedName outer.name = outer.name := by
    have whole : outer.name.toList =
        List.replicate 0 '/' ++ (outer.name.toList ++ List.replicate 0 '/') := by simp
    rw [requestedName_of_bare whole filled opens closes, String.ofList_toList]
  rw [label_of_named recallable.1, kept, isSelectedBy_iff_begins] at selects
  exact selects

/-- The line for a category in a listing. -/
def listedLine (category : Category) : String :=
  "  " ++ category.label ++ " (" ++ toString category.tests.length ++ " tests)"

end Category

/-! ## Listing and asking -/

/-- The categories that a request for the label of a category selects. -/
def recalled (suite : FileTree) (category : Category) : List Category :=
  Category.select (Category.ofTree suite) [category.label]

/-- A run tells the results of a category that was asked for by its label, and of all
categories below it.  It tells nothing else, and warns of nothing. -/
structure Honoured (style : Style) (tree : FileTree) (dir : String) (suite : FileTree)
    (category : Category) (errors : String) : Prop where
  runs : category ∈ recalled suite category
  below : ∀ other ∈ Category.ofTree suite, other.Below category → other ∈ recalled suite category
  /-- A slash at the end of a name is lost, and so more may be selected. -/
  only : category.name.toList.getLast? ≠ some '/' → ∀ other ∈ recalled suite category,
    other = category ∨ other.Below category
  told : errors = CommandLine.linesText
    (categoryLines style tree dir (recalled suite category) ++
      summaryLines style (resultsOf tree dir ((recalled suite category).flatMap Category.tests)))

section Suites

variable {suite : FileTree} {category other : Category}

theorem mem_recalled : other ∈ recalled suite category ↔ other ∈ Category.ofTree suite ∧
    other.isSelectedBy (Category.requestedName category.label) = true := by
  rw [recalled, mem_select]
  simp

/-- A name stands for one category. -/
theorem eq_of_name_eq (member : category ∈ Category.ofTree suite)
    (listed : other ∈ Category.ofTree suite) (same : category.name = other.name) :
    category = other := by
  rcases mem_group.mp member with ⟨name, -, rfl⟩
  rcases mem_group.mp listed with ⟨_, -, rfl⟩
  cases same
  rfl

/-- There is a warning when nothing is selected. -/
theorem warningsFor_label (suite : FileTree) (category : Category) :
    warningsFor suite [category.label] =
      if recalled suite category = [] then
        [unmatchedLine (Category.ofTree suite) (Category.requestedName category.label)]
      else [] := by
  have matched : ((Category.ofTree suite).any fun other =>
      other.isSelectedBy (Category.requestedName category.label)) = true ↔
        recalled suite category ≠ [] := by
    rw [List.any_eq_true]
    constructor
    · rintro ⟨other, member, selects⟩
      exact List.ne_nil_of_mem (mem_recalled.mpr ⟨member, selects⟩)
    · intro some
      rcases List.exists_mem_of_ne_nil _ some with ⟨other, member⟩
      exact ⟨other, mem_recalled.mp member⟩
  rw [warningsFor, Category.unmatched, List.map_singleton]
  split
  case isTrue none =>
      rw [List.filter_cons_of_pos, List.filter_nil, List.map_singleton]
      rw [Bool.not_eq_true', Bool.eq_false_iff]
      exact fun some => matched.mp some none
  case isFalse some =>
      rw [List.filter_cons_of_neg, List.filter_nil, List.map_nil]
      rw [matched.mpr some]
      decide

end Suites

section Runs

variable {tree : FileTree} {dir : String} {entries : List (String × FileTree)}
  {category : Category} {arguments : List String} {plain : Bool}

/-- A listing shows every category with the number of its tests. -/
theorem errors_of_listing (found : tree.find dir = .ok (.directory entries))
    (listed : category ∈ Category.ofTree (.directory entries)) {requests : List String}
    (lists : CommandLine.read arguments = .ok (.test ⟨dir, requests, true⟩, plain)) :
    (CommandLine.effect tree arguments).errors = CommandLine.linesText ("available categories:" ::
      (Category.ofTree (.directory entries)).map Category.listedLine) := by
  have filled : (Category.ofTree (.directory entries)).isEmpty = false := by
    rw [List.isEmpty_eq_false_iff]
    exact List.ne_nil_of_mem listed
  have effect : CommandLine.effect tree arguments =
      { errors := CommandLine.linesText (listCategories tree dir) } := by
    rw [CommandLine.effect, lists]
    rfl
  rw [effect, listCategories, isFile_of_directory found, categoriesAt_of_directory found]
  dsimp only
  rw [filled]
  rfl

/-- What is said when a label is asked for. -/
theorem effect_of_label (found : tree.find dir = .ok (.directory entries))
    (listed : category ∈ Category.ofTree (.directory entries))
    (asks : CommandLine.read arguments = .ok (.test ⟨dir, [category.label], false⟩, plain)) :
    CommandLine.effect tree arguments =
      if recalled (.directory entries) category = [] then
        { code := 1
          errors := CommandLine.linesText
            [unmatchedLine (Category.ofTree (.directory entries))
              (Category.requestedName category.label), "no matching categories found"] }
      else
        { code := if (resultsOf tree dir ((recalled (.directory entries) category).flatMap
              Category.tests)).all Result.passed then 0 else 1
          errors := CommandLine.linesText
            (categoryLines (styleOf plain) tree dir (recalled (.directory entries) category) ++
              summaryLines (styleOf plain) (resultsOf tree dir
                ((recalled (.directory entries) category).flatMap Category.tests))) } := by
  rw [effect_of_test asks rfl, run_of_directory (styleOf plain) found,
    if_neg (List.ne_nil_of_mem listed), warningsFor_label, ← recalled]
  split
  case isTrue none => rfl
  case isFalse some => rfl

theorem honoured_iff (found : tree.find dir = .ok (.directory entries))
    (listed : category ∈ Category.ofTree (.directory entries))
    (asks : CommandLine.read arguments = .ok (.test ⟨dir, [category.label], false⟩, plain)) :
    Honoured (styleOf plain) tree dir (.directory entries) category
        (CommandLine.effect tree arguments).errors ↔
      Category.Recallable category.name := by
  constructor
  · intro honoured
    exact (Category.isSelectedBy_label_iff category).mp (mem_recalled.mp honoured.runs).2
  · intro recallable
    have selects := (Category.isSelectedBy_label_iff category).mpr recallable
    have runs := mem_recalled.mpr ⟨listed, selects⟩
    refine ⟨runs, fun other member below => ?_, fun closes other member => ?_, ?_⟩
    · exact mem_recalled.mpr ⟨member, Category.isSelectedBy_of_below below selects⟩
    · rcases mem_recalled.mp member with ⟨inside, selected⟩
      rcases Category.below_of_isSelectedBy recallable closes selected with same | below
      · exact .inl (eq_of_name_eq inside listed same)
      · exact .inr below
    · rw [effect_of_label found listed asks, if_neg (List.ne_nil_of_mem runs)]

end Runs

/-- Without backslashes, the label of every category but that of the directory itself
leads back to its name. -/
theorem recallable_iff_of_plain {suite : FileTree} (named : suite.WellNamed) (plain : Plain suite)
    {category : Category} (listed : category ∈ Category.ofTree suite) {place : List String}
    (inside : place ∈ category.tests) :
    Category.Recallable category.name ↔ place.dropLast ≠ [] := by
  rcases (mem_tests_iff listed).mp inside with ⟨present, -⟩
  rcases ((mem_files_filter_iff named).mp present).stands with ⟨content, stands⟩
  rw [← directoryPath_eq_name named plain listed inside, directoryPath]
  constructor
  · rintro ⟨filled, -⟩ none
    rw [none] at filled
    exact filled rfl
  · intro below
    have proper : ∀ name ∈ place.dropLast, IsName name := fun name member =>
      named.isName_of_at? stands name (List.dropLast_subset place member)
    rcases FileTree.head?_intercalate below proper with ⟨first, opens, bare⟩
    constructor
    · intro empty
      rw [empty] at opens
      cases opens
    · left
      rw [opens]
      exact fun same => bare (Option.some.inj same)

/-- A category is listed with the number of its tests, and can be asked for by its
label.  A run that asks for it finds it and runs all its tests, with those of the
categories below it and without a warning, exactly when the label leads back to its
name; without backslashes this means that its tests lie in a directory below.  A
label that leads to no category is reported as not found, although it stands among
those that are available.  A label that begins with a hyphen looks like an option,
unless it is nothing else; it can be asked for only in the same argument as the
option for categories. -/
theorem listed_category_runs_iff {tree : FileTree} {dir : String} {entries : List (String × FileTree)}
    (found : tree.find dir = .ok (.directory entries))
    (named : (FileTree.directory entries).WellNamed) {category : Category}
    (listed : category ∈ Category.ofTree (.directory entries)) :
    (∀ arguments requests plain,
        CommandLine.read arguments = .ok (.test ⟨dir, requests, true⟩, plain) →
        (CommandLine.effect tree arguments).errors = CommandLine.linesText
          ("available categories:" ::
            (Category.ofTree (.directory entries)).map Category.listedLine)) ∧
      (∀ place, place ∈ category.tests ↔
        IsTestOf (.directory entries) place ∧ categoryOf place = category.name) ∧
      category.tests.Nodup ∧
      CommandLine.read ["test", "--category=" ++ category.label, "--", dir] =
        .ok (.test ⟨dir, [category.label], false⟩, false) ∧
      (∀ arguments plain,
        CommandLine.read arguments = .ok (.test ⟨dir, [category.label], false⟩, plain) →
        (Honoured (styleOf plain) tree dir (.directory entries) category
            (CommandLine.effect tree arguments).errors ↔
          Category.Recallable category.name) ∧
        (recalled (.directory entries) category = [] →
          CommandLine.effect tree arguments =
            { code := 1
              errors := CommandLine.linesText
                [unmatchedLine (Category.ofTree (.directory entries))
                  (Category.requestedName category.label), "no matching categories found"] }) ∧
        (category.label.toList.head? = some '-' → category.label ≠ "-" →
          ∃ argument ∈ arguments,
            argument ∈ ["--category=" ++ category.label, "-c" ++ category.label,
              "-c=" ++ category.label])) ∧
      (Plain (.directory entries) → ∀ place ∈ category.tests,
        (Category.Recallable category.name ↔ place.dropLast ≠ [])) := by
  have nonempty : dir ≠ "" := by
    rintro rfl
    rw [FileTree.find_empty] at found
    cases found
  refine ⟨fun arguments requests plain lists => errors_of_listing found listed lists, fun place => ?_,
    ?_, CommandLine.read_category category.label nonempty, fun arguments plain asks =>
      ⟨honoured_iff found listed asks, fun none => ?_, fun hyphen longer => ?_⟩,
    fun plain place inside => recallable_iff_of_plain named plain listed inside⟩
  · rw [mem_tests_iff listed, mem_files_filter_iff named]
  · exact (pairwise_tests (named.nodup_files.filter _) listed).imp fun ordered => ordered.ne
  · rw [effect_of_label found listed asks, if_pos none]
  · apply CommandLine.exists_attached_of_read asks List.mem_cons_self
    rw [CommandLine.looksLikeOption, hyphen, bne_iff_ne.mpr longer]
    rfl

/-- A test in the directory itself, and two in directories below it. -/
def topLevel : List (String × FileTree) :=
  [("a.test.wahy", .file (.text emptyTest)),
    ("html", .directory
      [("x", .directory [("b.test.wahy", .file (.text emptyTest))]),
        ("c.test.wahy", .file (.text emptyTest))])]

theorem wellNamed_topLevel : (FileTree.directory topLevel).WellNamed := by
  refine .directory (by decide) (by decide)
    (List.forall_mem_cons.mpr ⟨.file _, List.forall_mem_singleton.mpr ?_⟩)
  refine .directory (by decide) (by decide)
    (List.forall_mem_cons.mpr ⟨?_, List.forall_mem_singleton.mpr (.file _)⟩)
  exact .directory (by decide) (by decide) (List.forall_mem_singleton.mpr (.file _))

theorem tests_topLevel : (FileTree.directory topLevel).files.filter isTest =
    [["a.test.wahy"], ["html", "x", "b.test.wahy"], ["html", "c.test.wahy"]] := by
  have files : (FileTree.directory topLevel).files =
      [["a.test.wahy"], ["html", "x", "b.test.wahy"], ["html", "c.test.wahy"]] := by
    simp [topLevel, FileTree.files, FileTree.filesOf]
  rw [files]
  decide +kernel

/-- No directory is called like the label of the category without a name. -/
theorem recalled_topLevel {root : Category} (label : root.label = "(root)") :
    recalled (.directory topLevel) root = [] := by
  have names : (((FileTree.directory topLevel).files.filter isTest).map categoryOf).all
      (fun name => !Category.isSelectedBy ⟨name, []⟩ (Category.requestedName "(root)")) = true := by
    rw [tests_topLevel]
    decide +kernel
  rw [List.eq_nil_iff_forall_not_mem]
  intro other member
  rcases mem_recalled.mp member with ⟨inside, selects⟩
  rcases mem_group.mp inside with ⟨name, given, rfl⟩
  have unselected := List.all_eq_true.mp names name given
  rw [Bool.not_eq_true'] at unselected
  rw [label] at selects
  exact Bool.false_ne_true (unselected.symm.trans selects)

/-- The tests of `html` and `html/x` run when `html` is asked for.  The test in the
directory itself is listed as that of `(root)` and does not run when that is asked
for. -/
theorem listed_category_runs_iff_topLevel :
    ∃ html ∈ Category.ofTree (.directory topLevel), ∃ root ∈ Category.ofTree (.directory topLevel),
      html.label = "html" ∧ root.label = "(root)" ∧
      Honoured .coloured (.directory [("t", .directory topLevel)]) "t" (.directory topLevel) html
        (CommandLine.effect (.directory [("t", .directory topLevel)])
          ["test", "t", "--category", "html"]).errors ∧
      ¬Honoured .coloured (.directory [("t", .directory topLevel)]) "t" (.directory topLevel) root
        (CommandLine.effect (.directory [("t", .directory topLevel)])
          ["test", "t", "--category", "(root)"]).errors ∧
      (CommandLine.effect (.directory [("t", .directory topLevel)])
        ["test", "t", "--category", "(root)"]).code = 1 := by
  have parts : FileTree.parts "t" = ["t"] := by decide +kernel
  have found : (FileTree.directory [("t", .directory topLevel)]).find "t" =
      .ok (.directory topLevel) := by
    rw [FileTree.find_eq (by decide), parts]
    simp [FileTree.walk, FileTree.advance, FileTree.at?, Except.bind]
  have asksHtml : CommandLine.read ["test", "t", "--category", "html"] =
      .ok (.test ⟨"t", ["html"], false⟩, false) := by decide +kernel
  have asksRoot : CommandLine.read ["test", "t", "--category", "(root)"] =
      .ok (.test ⟨"t", ["(root)"], false⟩, false) := by decide +kernel
  have present : ∀ place ∈ [["a.test.wahy"], ["html", "x", "b.test.wahy"], ["html", "c.test.wahy"]],
      ∃ category ∈ Category.ofTree (.directory topLevel), category.name = categoryOf place := by
    intro place member
    rw [← tests_topLevel] at member
    exact exists_mem_group member
  rcases present ["html", "c.test.wahy"] (by decide) with ⟨html, inHtml, nameHtml⟩
  rcases present ["a.test.wahy"] (by decide) with ⟨root, inRoot, nameRoot⟩
  have htmlName : html.name = "html" := nameHtml.trans (by decide +kernel)
  have rootName : root.name = "" := nameRoot.trans (by decide +kernel)
  have htmlLabel : html.label = "html" := by
    rw [Category.label, htmlName]
    rfl
  have rootLabel : root.label = "(root)" := by
    rw [Category.label, rootName]
    rfl
  rcases listed_category_runs_iff found wellNamed_topLevel inHtml with ⟨-, -, -, -, honours, -⟩
  rcases listed_category_runs_iff found wellNamed_topLevel inRoot with ⟨-, -, -, -, fails, -⟩
  rw [htmlLabel] at honours
  rw [rootLabel] at fails
  refine ⟨html, inHtml, root, inRoot, htmlLabel, rootLabel, ?_, ?_, ?_⟩
  · refine (honours _ false asksHtml).1.mpr ?_
    rw [htmlName]
    exact ⟨by decide, .inl (by decide)⟩
  · intro honoured
    exact ((fails _ false asksRoot).1.mp honoured).1 rootName
  · rw [(fails _ false asksRoot).2.1 (recalled_topLevel rootLabel)]

end Suite
end Pagewright
