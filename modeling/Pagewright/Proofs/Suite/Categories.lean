import Mathlib.Data.List.Lex
import Mathlib.Data.List.Nodup
import Mathlib.Data.List.Triplewise
import Mathlib.Data.String.Basic
import Pagewright.Proofs.FileTree.Listing
import Pagewright.Proofs.Text.Search
import Pagewright.Suite.Category

namespace Pagewright
namespace Suite

open FileTree (IsName)

/-!
# Which tests are selected, and in which order

A request is a text and a category is a directory.  Selecting compares texts,
which goes wrong easily: `html` is the beginning of `htmlx`, and the directory of
the suite has no name at all.  Here a request is taken for the directories that
it names, one inside the other.  A test is then selected when the directories
that lead to it begin with those, and it does not matter how many requests say
so.

The order of the tests is the one of their categories as texts.  It is not the
order of the places: a hyphen comes before a slash, and so `a-b` before `a/b`.
-/

/-! ## Requests -/

/-- A request names a directory, perhaps with slashes around it. -/
def Names (request : String) (directory : List String) : Prop :=
  ∃ before behind, request.toList =
    List.replicate before '/' ++ ((String.intercalate "/" directory).toList ++
      List.replicate behind '/')

/-- A place lies in a requested directory, or below one.  Nothing requested is
everything requested. -/
def Requested (requests : List String) (place : List String) : Prop :=
  requests = [] ∨
    ∃ request ∈ requests, ∃ directory, Names request directory ∧ directory <+: place.dropLast

theorem dropWhile_slashes (text : List Char) :
    ∃ count, text = List.replicate count '/' ++ text.dropWhile (fun c => decide (c = '/')) := by
  induction text with
  | nil => exact ⟨0, rfl⟩
  | cons c text ih =>
      by_cases slash : c = '/'
      · rcases ih with ⟨count, whole⟩
        refine ⟨count + 1, ?_⟩
        rw [List.dropWhile_cons_of_pos (by simpa using slash), List.replicate_succ, List.cons_append,
          ← whole, slash]
      · refine ⟨0, ?_⟩
        rw [List.dropWhile_cons_of_neg (by simpa using slash)]
        rfl

/-- A request selects a category whose name it is, or begins. -/
theorem isSelectedBy_iff_begins {category : Category} {requested : String} :
    category.isSelectedBy requested = true ↔
      category.name = requested ∨ (requested ++ "/").toList <+: category.name.toList := by
  rw [Category.isSelectedBy, Bool.or_eq_true, decide_eq_true_eq, List.isPrefixOf_iff_prefix]

/-- What is left of a request stands in it between slashes. -/
theorem exists_slashes (request : String) :
    ∃ before behind, request.toList =
      List.replicate before '/' ++ ((Category.requestedName request).toList ++
        List.replicate behind '/') := by
  rcases dropWhile_slashes request.toList with ⟨before, opened⟩
  rcases dropWhile_slashes (request.toList.dropWhile fun c => decide (c = '/')).reverse with
    ⟨behind, closed⟩
  refine ⟨before, behind, ?_⟩
  have turned := congrArg List.reverse closed
  rw [List.reverse_reverse, List.reverse_append, List.reverse_replicate] at turned
  rw [Category.requestedName, String.toList_ofList, ← turned]
  exact opened

/-- A text that neither begins nor ends with a slash is what is left of it with
slashes around it. -/
theorem requestedName_of_bare {request : String} {text : List Char} {before behind : Nat}
    (whole : request.toList = List.replicate before '/' ++ (text ++ List.replicate behind '/'))
    (filled : text ≠ []) (opens : text.head? ≠ some '/') (closes : text.getLast? ≠ some '/') :
    Category.requestedName request = String.ofList text := by
  have head : (text ++ List.replicate behind '/').head? ≠ some '/' := by
    rw [List.head?_append_of_ne_nil _ filled]
    exact opens
  have last : text.reverse.head? ≠ some '/' := by
    rw [List.head?_reverse]
    exact closes
  rw [Category.requestedName, whole, Text.dropWhile_replicate_append before head, List.reverse_append,
    List.reverse_replicate, Text.dropWhile_replicate_append behind last, List.reverse_reverse]

section Directories

variable {directory outer : List String}

/-- What is left of a request is the path of the directory that it names. -/
theorem requestedName_of_names {request : String} (named : Names request directory)
    (below : directory ≠ []) (proper : ∀ name ∈ directory, IsName name) :
    Category.requestedName request = String.intercalate "/" directory := by
  rcases named with ⟨before, behind, whole⟩
  rcases FileTree.head?_intercalate below proper with ⟨first, opens, firstBare⟩
  rcases FileTree.getLast?_intercalate below proper with ⟨last, closes, lastBare⟩
  have filled : (String.intercalate "/" directory).toList ≠ [] := by
    intro empty
    rw [empty] at opens
    cases opens
  rw [requestedName_of_bare whole filled, String.ofList_toList]
  · rw [opens]
    exact fun same => firstBare (Option.some.inj same)
  · rw [closes]
    exact fun same => lastBare (Option.some.inj same)

/-- The path of a directory is a text, or begins with it and a slash, when the
text is the path of a directory around it. -/
theorem begins_iff (proper : ∀ name ∈ outer, IsName name) {requested : String}
    (nonempty : requested ≠ "") :
    (String.intercalate "/" outer = requested ∨
        (requested ++ "/").toList <+: (String.intercalate "/" outer).toList) ↔
      ∃ directory, directory <+: outer ∧ String.intercalate "/" directory = requested := by
  constructor
  · rintro (same | ⟨rest, whole⟩)
    · exact ⟨outer, List.prefix_rfl, same⟩
    · have below : outer.map String.toList ≠ [] := by
        intro none
        rw [String.toList_intercalate, none, String.toList_append] at whole
        simp at whole
      have slashless : ∀ text ∈ outer.map String.toList, '/' ∉ text := by
        intro text member
        rcases List.mem_map.mp member with ⟨name, inside, rfl⟩
        exact (proper name inside).slashless
      -- Cutting the path at its slashes gives the names back, those of the text first.
      have cut : outer.map String.toList = requested.toList.splitOn '/' ++ rest.splitOn '/' := by
        calc outer.map String.toList
            = (['/'].intercalate (outer.map String.toList)).splitOn '/' :=
              (List.splitOn_intercalate '/' slashless below).symm
          _ = (requested.toList ++ '/' :: rest).splitOn '/' := by
              rw [String.toList_append, String.toList_intercalate, List.append_assoc] at whole
              exact congrArg (List.splitOn '/') whole.symm
          _ = requested.toList.splitOn '/' ++ rest.splitOn '/' :=
              List.splitOn_append_cons_self requested.toList rest
      refine ⟨(requested.toList.splitOn '/').map String.ofList,
        ⟨(rest.splitOn '/').map String.ofList, ?_⟩, ?_⟩
      · rw [← List.map_append, ← cut, List.map_map]
        simp [Function.comp_def]
      · rw [← String.toList_inj, String.toList_intercalate, List.map_map]
        have back : (String.toList ∘ String.ofList) = id := funext fun _ => String.toList_ofList
        rw [back, List.map_id]
        exact List.intercalate_splitOn '/'
  · rintro ⟨directory, ⟨more, rfl⟩, rfl⟩
    by_cases nothing : more = []
    · rw [nothing, List.append_nil]
      exact .inl rfl
    · have below : directory ≠ [] := by
        rintro rfl
        exact nonempty rfl
      refine .inr ⟨(String.intercalate "/" more).toList, ?_⟩
      rw [String.intercalate_append_of_ne_nil below nothing]
      simp only [String.toList_append]

/-- A request with more than slashes in it does not name the suite itself. -/
theorem not_names_nil {request : String} (filled : ∃ c ∈ request.toList, c ≠ '/') :
    ¬Names request [] := by
  rintro ⟨before, behind, whole⟩
  rcases filled with ⟨c, member, bare⟩
  rw [whole, String.intercalate_nil] at member
  simp only [String.toList_empty, List.nil_append, List.mem_append, List.mem_replicate] at member
  rcases member with front | back
  · exact bare front.2
  · exact bare back.2

/-- A request selects the directory that it names and those below. -/
theorem isSelectedBy_iff (proper : ∀ name ∈ outer, IsName name) {request : String}
    (filled : ∃ c ∈ request.toList, c ≠ '/') {category : Category}
    (named : category.name = String.intercalate "/" outer) :
    category.isSelectedBy (Category.requestedName request) = true ↔
      ∃ directory, Names request directory ∧ directory <+: outer := by
  have nonempty : Category.requestedName request ≠ "" := by
    intro empty
    have between := exists_slashes request
    rw [empty] at between
    exact not_names_nil filled between
  rw [isSelectedBy_iff_begins, named, begins_iff proper nonempty]
  constructor
  · rintro ⟨directory, inside, same⟩
    rcases exists_slashes request with ⟨before, behind, whole⟩
    exact ⟨directory, ⟨before, behind, same ▸ whole⟩, inside⟩
  · rintro ⟨directory, names, inside⟩
    refine ⟨directory, inside, (requestedName_of_names names ?_ ?_).symm⟩
    · rintro rfl
      exact not_names_nil filled names
    · exact fun name member => proper name (inside.subset member)

end Directories

/-! ## Order -/

theorem nameBefore_iff (left right : String) : nameBefore left right = true ↔ left < right := by
  rw [nameBefore, List.lex_eq_true_iff_lex, String.lt_iff, ← List.lex_lt]
  have same : (fun c d : Char => c.toNat.blt d.toNat = true) = fun c d => c < d := by
    funext c d
    rw [Nat.blt_eq, Char.lt_def, UInt32.lt_iff_toNat_lt]
    rfl
  rw [same]

theorem placeBefore_iff (left right : List String) :
    placeBefore left right = true ↔ left < right := by
  rw [placeBefore, List.lex_eq_true_iff_lex, ← List.lex_lt]
  have same : (fun a b : String => nameBefore a b = true) = fun a b => a < b := by
    funext a b
    exact propext (nameBefore_iff a b)
  rw [same]

/-- Sorting distinct entries puts each of them strictly before the later ones. -/
theorem pairwise_lt_mergeSort {α : Type} [LinearOrder α] {before : α → α → Bool}
    (order : ∀ left right, before left right = true ↔ left < right) {entries : List α}
    (distinct : entries.Nodup) :
    (entries.mergeSort fun left right => !before right left).Pairwise (· < ·) := by
  have le : ∀ left right, (!before right left) = true ↔ left ≤ right := by
    intro left right
    rw [Bool.not_eq_true', Bool.eq_false_iff, ne_eq, order, not_lt]
  have trans : ∀ first second third, (!before second first) = true →
      (!before third second) = true → (!before third first) = true := by
    intro first second third front back
    exact (le first third).mpr (((le first second).mp front).trans ((le second third).mp back))
  have total : ∀ left right, (!before right left || !before left right) = true := by
    intro left right
    rw [Bool.or_eq_true, le, le]
    exact le_total left right
  have sorted := List.pairwise_mergeSort trans total entries
  have apart : (entries.mergeSort fun left right => !before right left).Nodup :=
    (List.mergeSort_perm _ _).nodup_iff.mpr distinct
  refine (sorted.and apart).imp ?_
  rintro left right ⟨ordered, different⟩
  exact lt_of_le_of_ne ((le _ _).mp ordered) different

theorem nodup_eraseDups (names : List String) : names.eraseDups.Nodup := by
  induction size : names.length using Nat.strongRecOn generalizing names with
  | ind count ih =>
      cases names with
      | nil => exact List.nodup_nil
      | cons name names =>
          have shorter : (names.filter fun other => !other == name).length < count := by
            rw [← size, List.length_cons]
            exact Nat.lt_succ_of_le (List.length_filter_le _ _)
          rw [List.eraseDups_cons, List.nodup_cons]
          refine ⟨?_, ih _ shorter _ rfl⟩
          rw [List.mem_eraseDups, List.mem_filter]
          rintro ⟨-, different⟩
          simp at different

/-! ## Grouping -/

section Grouping

variable {places : List (List String)} {category : Category}

theorem mem_group : category ∈ Category.group places ↔
    ∃ name ∈ places.map categoryOf, category =
      ⟨name, (places.filter fun place => categoryOf place = name).mergeSort
        fun a b => !placeBefore b a⟩ := by
  rw [Category.group, List.mem_map]
  simp only [List.mem_mergeSort, List.mem_eraseDups, eq_comm]

/-- The tests of a category are those that have it. -/
theorem mem_tests_iff (member : category ∈ Category.group places) {place : List String} :
    place ∈ category.tests ↔ place ∈ places ∧ categoryOf place = category.name := by
  rcases mem_group.mp member with ⟨name, -, rfl⟩
  rw [List.mem_mergeSort, List.mem_filter, decide_eq_true_eq]

/-- No category is empty. -/
theorem tests_ne_nil (member : category ∈ Category.group places) : category.tests ≠ [] := by
  rcases mem_group.mp member with ⟨name, given, rfl⟩
  rcases List.mem_map.mp given with ⟨place, inside, rfl⟩
  exact List.ne_nil_of_mem ((mem_tests_iff member).mpr ⟨inside, rfl⟩)

/-- Every place has its category. -/
theorem exists_mem_group {place : List String} (inside : place ∈ places) :
    ∃ category ∈ Category.group places, category.name = categoryOf place :=
  ⟨_, mem_group.mpr ⟨_, List.mem_map_of_mem inside, rfl⟩, rfl⟩

theorem pairwise_group (places : List (List String)) :
    (Category.group places).Pairwise fun first second => first.name < second.name := by
  rw [Category.group, List.pairwise_map]
  exact pairwise_lt_mergeSort nameBefore_iff (nodup_eraseDups _)

theorem pairwise_tests (distinct : places.Nodup) (member : category ∈ Category.group places) :
    category.tests.Pairwise (· < ·) := by
  rcases mem_group.mp member with ⟨name, -, rfl⟩
  exact pairwise_lt_mergeSort placeBefore_iff (distinct.filter _)

end Grouping

/-- A category is selected when some request selects it. -/
theorem mem_select {categories : List Category} {requests : List String} {category : Category} :
    category ∈ Category.select categories requests ↔ category ∈ categories ∧
      (requests = [] ∨ ∃ request ∈ requests,
        category.isSelectedBy (Category.requestedName request) = true) := by
  unfold Category.select
  cases requests with
  | nil => simp
  | cons request requests =>
      rw [if_neg (by simp), List.mem_filter, List.any_eq_true]
      simp

theorem select_sublist (categories : List Category) (requests : List String) :
    (Category.select categories requests).Sublist categories := by
  unfold Category.select
  split
  · exact List.Sublist.refl _
  · exact List.filter_sublist

/-! ## The tests of a suite -/

/-- A suite holds a test at a place. -/
structure IsTestOf (suite : FileTree) (place : List String) : Prop where
  stands : ∃ content, suite.at? place = some (.file content)
  named : ∃ outer name, place = outer ++ [name] ∧ ".test.wahy".toList <:+ name.toList

/-- The path of the directory of a place, from the directory of the suite on. -/
def directoryPath (place : List String) : String :=
  String.intercalate "/" place.dropLast

/-- Tests are ordered by their directories, and in one directory by their
places. -/
def Before (first second : List String) : Prop :=
  directoryPath first < directoryPath second ∨
    directoryPath first = directoryPath second ∧ first < second

theorem Before.ne {first second : List String} (ordered : Before first second) : first ≠ second := by
  rintro rfl
  rcases ordered with outer | ⟨-, inner⟩
  · exact lt_irrefl _ outer
  · exact lt_irrefl _ inner

theorem isTest_iff (place : List String) :
    isTest place = true ↔
      ∃ outer name, place = outer ++ [name] ∧ ".test.wahy".toList <:+ name.toList := by
  have ends : ∀ name : String, (testName? name).isSome = true ↔ ".test.wahy".toList <:+ name.toList := by
    intro name
    rw [testName?, Option.isSome_map, List.isSome_isPrefixOf?_eq_isPrefixOf, List.isPrefixOf_iff_prefix,
      List.reverse_prefix]
    rfl
  rw [isTest, Option.any_eq_true]
  constructor
  · rintro ⟨name, last, test⟩
    rcases List.getLast?_eq_some_iff.mp last with ⟨outer, whole⟩
    exact ⟨outer, name, whole, (ends name).mp test⟩
  · rintro ⟨outer, name, rfl, test⟩
    exact ⟨name, List.getLast?_concat, (ends name).mpr test⟩

/-- Without backslashes in the names, a category is the path of a directory. -/
theorem categoryOf_eq {place : List String} (plain : ∀ name ∈ place, Text.Avoids ['\\'] name) :
    categoryOf place = directoryPath place := by
  have avoids : Text.Avoids ['\\'] (directoryPath place) :=
    Text.Avoids.intercalate (by decide) fun name inside =>
      plain name (List.dropLast_subset place inside)
  have same : ∀ c ∈ (directoryPath place).toList, (if c = '\\' then '/' else c) = c := by
    intro c member
    rw [if_neg]
    rintro rfl
    exact avoids _ member List.mem_cons_self
  rw [categoryOf]
  show String.ofList ((directoryPath place).toList.map fun c => if c = '\\' then '/' else c) = _
  rw [List.map_congr_left same, List.map_id', String.ofList_toList]

/-- The tests of a suite that requests select. -/
def selectedTests (suite : FileTree) (requests : List String) : List (List String) :=
  (Category.select (Category.ofTree suite) requests).flatMap Category.tests

/-- No file of a suite has a backslash in its path. -/
def Plain (suite : FileTree) : Prop :=
  ∀ place content, suite.at? place = some (.file content) → ∀ name ∈ place, Text.Avoids ['\\'] name

section Suites

variable {suite : FileTree}

theorem mem_files_filter_iff (named : suite.WellNamed) {place : List String} :
    place ∈ suite.files.filter isTest ↔ IsTestOf suite place := by
  rw [List.mem_filter, isTest_iff, named.mem_files_iff]
  exact ⟨fun test => ⟨test.1, test.2⟩, fun test => ⟨test.stands, test.named⟩⟩

/-- The tests that are selected are those in requested directories. -/
theorem mem_selected_iff (named : suite.WellNamed) (plain : Plain suite) {requests : List String}
    (filled : ∀ request ∈ requests, ∃ c ∈ request.toList, c ≠ '/') {place : List String} :
    place ∈ selectedTests suite requests ↔ IsTestOf suite place ∧ Requested requests place := by
  have selects : ∀ {category : Category}, IsTestOf suite place → category.name = categoryOf place →
      ∀ request ∈ requests, (category.isSelectedBy (Category.requestedName request) = true ↔
        ∃ directory, Names request directory ∧ directory <+: place.dropLast) := by
    rintro category ⟨⟨content, stands⟩, -⟩ name request member
    rw [categoryOf_eq (plain place content stands)] at name
    have proper := named.isName_of_at? stands
    exact isSelectedBy_iff (fun name inside => proper name (List.dropLast_subset place inside))
      (filled request member) name
  rw [selectedTests, List.mem_flatMap]
  constructor
  · rintro ⟨category, selected, inside⟩
    rcases mem_select.mp selected with ⟨member, requested⟩
    rcases (mem_tests_iff member).mp inside with ⟨listed, name⟩
    have test := (mem_files_filter_iff named).mp listed
    refine ⟨test, requested.imp_right ?_⟩
    rintro ⟨request, given, asks⟩
    exact ⟨request, given, (selects test name.symm request given).mp asks⟩
  · rintro ⟨test, requested⟩
    have listed := (mem_files_filter_iff named).mpr test
    rcases exists_mem_group listed with ⟨category, member, name⟩
    refine ⟨category, mem_select.mpr ⟨member, requested.imp_right ?_⟩,
      (mem_tests_iff member).mpr ⟨listed, name.symm⟩⟩
    rintro ⟨request, given, directory⟩
    exact ⟨request, given, (selects test name request given).mpr directory⟩

/-- A category has the name of the directory that its tests lie in. -/
theorem directoryPath_eq_name (named : suite.WellNamed) (plain : Plain suite) {category : Category}
    (member : category ∈ Category.ofTree suite) {place : List String} (inside : place ∈ category.tests) :
    directoryPath place = category.name := by
  rcases (mem_tests_iff member).mp inside with ⟨listed, name⟩
  rcases ((mem_files_filter_iff named).mp listed).stands with ⟨content, stands⟩
  rw [← name, categoryOf_eq (plain place content stands)]

/-- The selected tests come in order. -/
theorem pairwise_selected (named : suite.WellNamed) (plain : Plain suite) (requests : List String) :
    (selectedTests suite requests).Pairwise Before := by
  have distinct : (suite.files.filter isTest).Nodup := named.nodup_files.filter _
  have path : ∀ category ∈ Category.ofTree suite, ∀ place ∈ category.tests,
      directoryPath place = category.name :=
    fun category member place inside => directoryPath_eq_name named plain member inside
  have kept := select_sublist (Category.ofTree suite) requests
  rw [selectedTests, List.pairwise_flatMap]
  constructor
  · intro category selected
    have member := kept.subset selected
    refine (pairwise_tests distinct member).imp_of_mem ?_
    intro first second inFirst inSecond ordered
    exact .inr ⟨(path _ member _ inFirst).trans (path _ member _ inSecond).symm, ordered⟩
  · refine ((pairwise_group _).sublist kept).imp_of_mem ?_
    intro first second inFirst inSecond ordered place inside other within
    refine .inl ?_
    rw [path _ (kept.subset inFirst) _ inside, path _ (kept.subset inSecond) _ within]
    exact ordered

end Suites

end Suite
end Pagewright
