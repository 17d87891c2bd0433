import Mathlib.Data.List.Nodup
import Pagewright.Proofs.Avoiding
import Pagewright.Proofs.FileTree.Paths

namespace Pagewright
namespace FileTree

/-!
# Listing the files of a tree

A list of entries says more than a directory can: a name may stand in it twice,
and only the first of the two is ever found.  In the trees that directories
make, a listing and the places where files stand are the same thing, and no file
is listed twice.
-/

/-- The names in each directory differ, and can be written in paths. -/
inductive WellNamed : FileTree → Prop
  | file (content : Content) : WellNamed (.file content)
  | directory {entries : List (String × FileTree)} (distinct : (entries.map Prod.fst).Nodup)
      (proper : ∀ entry ∈ entries, IsName entry.1) (inner : ∀ entry ∈ entries, WellNamed entry.2) :
      WellNamed (.directory entries)

/-- Among distinct names, every entry is found under its name. -/
theorem lookup_eq_some_iff_mem {entries : List (String × FileTree)}
    (distinct : (entries.map Prod.fst).Nodup) {name : String} {inner : FileTree} :
    entries.lookup name = some inner ↔ (name, inner) ∈ entries := by
  constructor
  · exact mem_of_lookup
  · intro member
    rcases List.append_of_mem member with ⟨front, back, rfl⟩
    refine List.lookup_eq_some_iff.mpr ⟨front, back, rfl, fun other inFront => ?_⟩
    rw [List.map_append, List.map_cons] at distinct
    have apart := (List.nodup_append.mp distinct).2.2 other.1 (List.mem_map_of_mem inFront) name
      List.mem_cons_self
    exact bne_iff_ne.mpr apart.symm

/-- A file of a directory is a file of one of its entries. -/
theorem mem_filesOf {entries : List (String × FileTree)} {place : List String} :
    place ∈ filesOf entries ↔ ∃ entry ∈ entries, ∃ rest ∈ entry.2.files, place = entry.1 :: rest := by
  induction entries with
  | nil =>
      rw [filesOf]
      constructor
      · intro absurdity
        cases absurdity
      · rintro ⟨entry, absurdity, -⟩
        cases absurdity
  | cons first entries ih =>
      rw [filesOf, List.mem_append, ih, List.mem_map]
      constructor
      · rintro (⟨rest, member, rfl⟩ | ⟨entry, member, found⟩)
        · exact ⟨first, List.mem_cons_self, rest, member, rfl⟩
        · exact ⟨entry, List.mem_cons_of_mem first member, found⟩
      · rintro ⟨entry, member, rest, inside, rfl⟩
        rcases List.mem_cons.mp member with rfl | later
        · exact .inl ⟨rest, inside, rfl⟩
        · exact .inr ⟨entry, later, rest, inside, rfl⟩

namespace WellNamed

variable {tree : FileTree}

/-- The listing of a tree holds the places where files stand. -/
theorem mem_files_iff (named : WellNamed tree) {place : List String} :
    place ∈ tree.files ↔ ∃ content, tree.at? place = some (.file content) := by
  induction named generalizing place with
  | file content =>
      rw [files, List.mem_singleton]
      constructor
      · rintro rfl
        exact ⟨content, rfl⟩
      · rintro ⟨found, stands⟩
        by_contra below
        rw [at?_below_file content below] at stands
        cases stands
  | @directory entries distinct proper inner ih =>
      rw [files, mem_filesOf]
      constructor
      · rintro ⟨⟨name, below⟩, member, rest, inside, rfl⟩
        rw [at?, (lookup_eq_some_iff_mem distinct).mpr member]
        exact (ih _ member).mp inside
      · rintro ⟨content, stands⟩
        cases place with
        | nil => cases stands
        | cons name rest =>
            rw [at?] at stands
            cases found : entries.lookup name with
            | none =>
                rw [found] at stands
                cases stands
            | some below =>
                rw [found] at stands
                have member := (lookup_eq_some_iff_mem distinct).mp found
                exact ⟨_, member, rest, (ih _ member).mpr ⟨content, stands⟩, rfl⟩

/-- No file is listed twice. -/
theorem nodup_files (named : WellNamed tree) : tree.files.Nodup := by
  induction named with
  | file content =>
      rw [files]
      exact List.nodup_singleton []
  | @directory entries distinct proper inner ih =>
      rw [files]
      clear proper inner
      -- The listing of a directory follows its entries, one after the other.
      induction entries with
      | nil =>
          rw [filesOf]
          exact List.nodup_nil
      | cons first entries later =>
          rw [List.map_cons, List.nodup_cons] at distinct
          rcases List.forall_mem_cons.mp ih with ⟨here, ih⟩
          rw [filesOf, List.nodup_append]
          refine ⟨here.map List.cons_injective, later distinct.2 ih, ?_⟩
          intro left inFirst right inLater same
          rcases List.mem_map.mp inFirst with ⟨rest, -, rfl⟩
          rcases mem_filesOf.mp inLater with ⟨entry, member, others, -, rfl⟩
          rw [(List.cons.inj same).1] at distinct
          exact distinct.1 (List.mem_map_of_mem member)

/-- What stands in a tree is named by proper names. -/
theorem isName_of_at? (named : WellNamed tree) {place : List String} {inner : FileTree}
    (stands : tree.at? place = some inner) : ∀ name ∈ place, IsName name := by
  induction named generalizing place with
  | file content =>
      intro name member
      rw [at?_below_file content (List.ne_nil_of_mem member)] at stands
      cases stands
  | @directory entries distinct proper below ih =>
      cases place with
      | nil => exact fun name absurdity => absurd absurdity List.not_mem_nil
      | cons first rest =>
          rw [at?] at stands
          cases found : entries.lookup first with
          | none =>
              rw [found] at stands
              cases stands
          | some directory =>
              rw [found] at stands
              have member := (lookup_eq_some_iff_mem distinct).mp found
              exact List.forall_mem_cons.mpr ⟨proper _ member, ih _ member stands⟩

end WellNamed

end FileTree
end Pagewright
