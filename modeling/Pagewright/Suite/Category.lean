import Pagewright.FileTree

namespace Pagewright
namespace Suite

/-!
# Categories

The tests below a directory are grouped by the directory that they lie in,
named by its place below the directory of the suite.  The suite itself is the
category with the empty name.  Categories are sorted by name, and the tests of
each by their place, so that the order of the entries of a directory never
shows.
-/

/-- The ending of the names of test files. -/
def testEnding : String := ".test.wahy"

/-- The name of a test file without its ending. -/
def testName? (fileName : String) : Option String :=
  (testEnding.toList.reverse.isPrefixOf? fileName.toList.reverse).map fun rest =>
    String.ofList rest.reverse

/-- Does a place hold a test? -/
def isTest (place : List String) : Bool :=
  place.getLast?.any fun name => (testName? name).isSome

/-- The category of a place.  Backslashes count as separators of names. -/
def categoryOf (place : List String) : String :=
  String.ofList ((String.intercalate "/" place.dropLast).toList.map fun c =>
    if c = '\\' then '/' else c)

/-- Names are ordered by their characters. -/
def nameBefore (left right : String) : Bool :=
  left.toList.lex right.toList fun a b => a.toNat.blt b.toNat

/-- Places are ordered by their names, from the outermost directory on. -/
def placeBefore (left right : List String) : Bool :=
  left.lex right nameBefore

/-- The tests with a common category. -/
structure Category where
  name : String
  tests : List (List String)
deriving Repr, DecidableEq

namespace Category

/-- The name of a category as shown. -/
def label (category : Category) : String :=
  if category.name.isEmpty then "(root)" else category.name

/-- Group places by their categories. -/
def group (places : List (List String)) : List Category :=
  let names := (places.map categoryOf).eraseDups.mergeSort fun a b => !nameBefore b a
  names.map fun name =>
    { name := name
      tests := (places.filter fun place => categoryOf place = name).mergeSort
        fun a b => !placeBefore b a }

/-- The categories of the tests of a tree. -/
def ofTree (tree : FileTree) : List Category :=
  group (tree.files.filter isTest)

/-- A request names a category and those below it.  Slashes around it do not
count. -/
def requestedName (request : String) : String :=
  let isSlash (c : Char) : Bool := c = '/'
  String.ofList
    ((request.toList.dropWhile isSlash).reverse.dropWhile isSlash).reverse

/-- Does a request, without slashes around it, select a category? -/
def isSelectedBy (category : Category) (requested : String) : Bool :=
  category.name = requested ||
    (requested ++ "/").toList.isPrefixOf category.name.toList

/-- The categories that some request selects; all, if there are no requests. -/
def select (categories : List Category) (requests : List String) : List Category :=
  if requests.isEmpty then
    categories
  else
    categories.filter fun category =>
      requests.any fun request => category.isSelectedBy (requestedName request)

/-- The requests that select nothing. -/
def unmatched (categories : List Category) (requests : List String) : List String :=
  (requests.map requestedName).filter fun requested =>
    !categories.any fun category => category.isSelectedBy requested

end Category

end Suite
end Pagewright
