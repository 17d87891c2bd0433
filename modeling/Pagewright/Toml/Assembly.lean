import Pagewright.Datum

namespace Pagewright
namespace Toml

/-!
# Assembly of tables

A document states the members of its tables one by one, in any order and with
several notations.  Assembly puts them together and refuses what states a
member twice, reopens a finished table, or reaches through a datum that is not
a table.

Tables remember how they came about, because that decides what may be added to
them later.
-/

/-- How a table came about. -/
inductive Origin where
  /-- It has a header of its own, or is the document, or an item of a list. -/
  | header
  /-- It lies on the way to a table with a header. -/
  | passage
  /-- It lies on the way to a member with a dotted key. -/
  | dotted
deriving Repr, DecidableEq

/-- A datum that may still grow. -/
inductive Node where
  | finished (datum : Datum)
  | table (origin : Origin) (members : List (String × Node))
  /-- Tables under a repeated header, the latest one first. -/
  | items (tables : List (List (String × Node)))
deriving Repr

/-- The members of a table with one member replaced or added. -/
def setMember (name : String) (node : Node) :
    List (String × Node) → List (String × Node)
  | [] => [(name, node)]
  | (other, old) :: rest =>
      if other = name then (name, node) :: rest
      else (other, old) :: setMember name node rest

/-- Change the table at the end of a path.  Missing tables on the way are made
with the given origin; a repeated header leads to its latest item.  Only a path
of headers may pass through a table that has a header of its own. -/
def alter (made : Origin) (change : Origin → List (String × Node) → Option (List (String × Node))) :
    List String → Origin → List (String × Node) → Option (List (String × Node))
  | [], origin, members => change origin members
  | name :: path, _, members => do
      match members.lookup name with
      | none =>
          let inner ← alter made change path made []
          pure (setMember name (.table made inner) members)
      | some (.table origin inner) =>
          if made = .dotted && origin = .header then failure
          let inner ← alter made change path origin inner
          pure (setMember name (.table origin inner) members)
      | some (.items (latest :: earlier)) =>
          let latest ← alter made change path .header latest
          pure (setMember name (.items (latest :: earlier)) members)
      | some (.items []) | some (.finished _) => failure

/-- State a member under a dotted key inside one table. -/
def assign (path : List String) (name : String) (datum : Datum)
    (members : List (String × Node)) : Option (List (String × Node)) :=
  alter .dotted
    (fun origin members =>
      if !path.isEmpty && origin != .dotted then none
      else if (members.lookup name).isSome then none
      else some (members ++ [(name, .finished datum)]))
    path .header members

/-- Open the table of a header. -/
def openTable (name : String) (members : List (String × Node)) :
    Option (List (String × Node)) :=
  match members.lookup name with
  | none => some (members ++ [(name, .table .header [])])
  | some (.table .passage inner) => some (setMember name (.table .header inner) members)
  | some _ => none

/-- Open a further item of a repeated header. -/
def openItem (name : String) (members : List (String × Node)) :
    Option (List (String × Node)) :=
  match members.lookup name with
  | none => some (members ++ [(name, .items [[]])])
  | some (.items tables) => some (setMember name (.items ([] :: tables)) members)
  | some _ => none

mutual

def Node.toDatum : Node → Datum
  | .finished datum => datum
  | .table _ members => .table (membersToData members)
  | .items tables => .list (tablesToData tables).reverse

def membersToData : List (String × Node) → List (String × Datum)
  | [] => []
  | (name, node) :: rest => (name, node.toDatum) :: membersToData rest

def tablesToData : List (List (String × Node)) → List Datum
  | [] => []
  | members :: rest => .table (membersToData members) :: tablesToData rest

end

/-- The last key of a path, and the keys in front of it. -/
def splitPath? (path : List String) : Option (List String × String) :=
  path.getLast?.map fun name => (path.dropLast, name)

/-- The members of a table that is written in braces. -/
def ofPairs? (pairs : List (List String × Datum)) : Option (List (String × Datum)) := do
  let members ← pairs.foldlM
    (fun members (path, datum) => do
      let (front, name) ← splitPath? path
      assign front name datum members) []
  pure (membersToData members)

/-- A line of a document. -/
inductive Statement where
  | member (path : List String) (datum : Datum)
  | header (path : List String)
  | itemHeader (path : List String)
deriving Repr

/-- A document under assembly: all members, and the path of the last header. -/
structure Draft where
  members : List (String × Node) := []
  current : List String := []

/-- Take one more statement. -/
def Draft.take (draft : Draft) : Statement → Option Draft
  | .member path datum => do
      let (front, name) ← splitPath? path
      let members ← alter .passage (fun _ members => assign front name datum members)
        draft.current .header draft.members
      pure { draft with members := members }
  | .header path => do
      let (front, name) ← splitPath? path
      let members ← alter .passage (fun _ members => openTable name members)
        front .header draft.members
      pure { members := members, current := path }
  | .itemHeader path => do
      let (front, name) ← splitPath? path
      let members ← alter .passage (fun _ members => openItem name members)
        front .header draft.members
      pure { members := members, current := path }

/-- The members of the document that some statements make. -/
def ofStatements? (statements : List Statement) : Option (List (String × Datum)) := do
  let draft ← statements.foldlM Draft.take {}
  pure (membersToData draft.members)

end Toml
end Pagewright
