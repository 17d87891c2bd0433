import Pagewright.FileTree

namespace Pagewright
namespace FileTree

/-!
# Places

A place names what stands in a tree.  Writing changes what stands at one place.
That everything else is left alone, directories on the way included, is stated
with `standing`, which tells what stands at a place without telling what lies
below it: the entries of a directory do change when a file in it is made.

A walk follows the parts of a path from place to place.  It looks at nothing but
directories, and it comes to a file only by a part that names it, so that the
points in a path change how a file is found and never which file.
-/

/-! ## What stands at a place -/

/-- What stands at a place, apart from what lies below it. -/
inductive Standing where
  | nothing
  | file (content : Content)
  | directory

def standing (tree : FileTree) (place : List String) : Standing :=
  match tree.at? place with
  | none => .nothing
  | some (.file content) => .file content
  | some (.directory _) => .directory

theorem standing_eq_file_iff {tree : FileTree} {place : List String} {content : Content} :
    tree.standing place = .file content ↔ tree.at? place = some (.file content) := by
  unfold standing
  constructor
  · intro stands
    split at stands
    case h_1 => cases stands
    case h_2 other found =>
        rw [Standing.file.inj stands] at found
        exact found
    case h_3 => cases stands
  · intro found
    rw [found]

theorem standing_eq_directory_iff {tree : FileTree} {place : List String} :
    tree.standing place = .directory ↔ ∃ entries, tree.at? place = some (.directory entries) := by
  unfold standing
  constructor
  · intro stands
    split at stands
    case h_1 => cases stands
    case h_2 => cases stands
    case h_3 entries found => exact ⟨entries, found⟩
  · rintro ⟨entries, found⟩
    rw [found]

theorem at?_nil (tree : FileTree) : tree.at? [] = some tree := by
  cases tree <;> rfl

theorem at?_append (tree : FileTree) (front back : List String) :
    tree.at? (front ++ back) = (tree.at? front).bind (·.at? back) := by
  induction front generalizing tree with
  | nil => rw [at?_nil, List.nil_append, Option.bind_some]
  | cons name front ih =>
      cases tree with
      | file content => rfl
      | directory entries =>
          rw [List.cons_append, at?, at?]
          cases entries.lookup name with
          | none => rfl
          | some inner => exact ih inner

/-- Below a file there is nothing. -/
theorem at?_below_file (content : Content) {place : List String} (below : place ≠ []) :
    (file content).at? place = none := by
  cases place with
  | nil => exact absurd rfl below
  | cons name rest => rfl

theorem lookup_setEntry (name : String) (tree : FileTree) (entries : List (String × FileTree))
    (other : String) :
    (setEntry name tree entries).lookup other =
      if other = name then some tree else entries.lookup other := by
  have lookup_cons : ∀ (key : String) (inner : FileTree) (rest : List (String × FileTree)),
      ((key, inner) :: rest).lookup other = if other = key then some inner else rest.lookup other := by
    intro key inner rest
    by_cases same : other = key
    · rw [List.lookup_cons, beq_iff_eq.mpr same, if_pos same]
    · rw [List.lookup_cons, beq_eq_false_iff_ne.mpr same, if_neg same]
  induction entries with
  | nil => rw [setEntry, lookup_cons]
  | cons entry entries ih =>
      rcases entry with ⟨key, inner⟩
      rw [setEntry]
      split
      case isTrue here =>
          subst here
          rw [lookup_cons, lookup_cons]
          split
          · rfl
          · rfl
      case isFalse elsewhere =>
          rw [lookup_cons, lookup_cons, ih]
          split
          case isTrue same =>
              subst same
              rw [if_neg elsewhere]
          case isFalse => rfl

/-! ## Writing -/

theorem put_directory (new : FileTree) (name : String) (rest : List String)
    (entries : List (String × FileTree)) :
    put new (name :: rest) (.directory entries) =
      .directory (setEntry name (put new rest ((entries.lookup name).getD empty)) entries) := rfl

section Putting

variable {tree : FileTree} {outer : List String} {entries : List (String × FileTree)}

/-- A file that is put into a directory stands there. -/
theorem at?_put (inside : tree.at? outer = some (.directory entries)) (name : String)
    (new : FileTree) : (put new (outer ++ [name]) tree).at? (outer ++ [name]) = some new := by
  induction outer generalizing tree with
  | nil =>
      rw [at?_nil, Option.some.injEq] at inside
      rw [inside, List.nil_append, put_directory, at?, lookup_setEntry, if_pos rfl]
      exact at?_nil new
  | cons step outer ih =>
      cases tree with
      | file content => cases inside
      | directory steps =>
          rw [at?] at inside
          cases found : steps.lookup step with
          | none =>
              rw [found] at inside
              cases inside
          | some inner =>
              rw [found] at inside
              rw [List.cons_append, put_directory, at?, lookup_setEntry, if_pos rfl, found,
                Option.getD_some]
              exact ih inside

/-- A file that is put into a directory, in the place of a file or of nothing,
changes what stands there and nothing else. -/
theorem standing_put (inside : tree.at? outer = some (.directory entries)) {name : String}
    (free : ∀ inner, entries.lookup name = some inner → ∃ content, inner = file content)
    (content : Content) {other : List String} (different : other ≠ outer ++ [name]) :
    (put (file content) (outer ++ [name]) tree).standing other = tree.standing other := by
  induction outer generalizing tree other with
  | nil =>
      rw [at?_nil, Option.some.injEq] at inside
      rw [inside, List.nil_append, put_directory]
      cases other with
      | nil => rfl
      | cons step rest =>
          rw [standing, standing, at?, at?, lookup_setEntry]
          by_cases here : step = name
          · have below : rest ≠ [] := by
              rintro rfl
              exact different (by rw [here, List.nil_append])
            have nothing : (file content).at? rest = none := at?_below_file content below
            rw [if_pos here, here]
            cases found : entries.lookup name with
            | none =>
                dsimp only [put]
                rw [nothing]
            | some inner =>
                rcases free inner found with ⟨old, rfl⟩
                dsimp only [put]
                rw [nothing, at?_below_file old below]
          · rw [if_neg here]
  | cons step outer ih =>
      cases tree with
      | file content => cases inside
      | directory steps =>
          rw [at?] at inside
          cases found : steps.lookup step with
          | none =>
              rw [found] at inside
              cases inside
          | some inner =>
              rw [found] at inside
              rw [List.cons_append, put_directory, found, Option.getD_some]
              cases other with
              | nil => rfl
              | cons first rest =>
                  rw [standing, standing, at?, at?, lookup_setEntry]
                  by_cases here : first = step
                  · have onward : rest ≠ outer ++ [name] := by
                      rintro rfl
                      exact different (by rw [here, List.cons_append])
                    rw [if_pos here, here, found]
                    exact ih inside onward
                  · rw [if_neg here]

end Putting

/-! ## Walking -/

/-- A walk along two lists of parts is one walk after the other. -/
theorem walk_append (tree : FileTree) (place front back : List String) :
    tree.walk place (front ++ back) = (tree.walk place front).bind fun next => tree.walk next back := by
  induction front generalizing place with
  | nil => rfl
  | cons part front ih =>
      rw [List.cons_append, walk, walk]
      cases tree.at? place.reverse with
      | none => rfl
      | some inner =>
          cases inner with
          | file content => rfl
          | directory entries => exact ih _

/-- A walk passes directories only, so that it leads to the same place where
these are still directories. -/
theorem walk_of_directories {tree changed : FileTree}
    (kept : ∀ place, tree.standing place = .directory → changed.standing place = .directory)
    {place parts target : List String} (leads : tree.walk place parts = .ok target) :
    changed.walk place parts = .ok target := by
  induction parts generalizing place with
  | nil => exact leads
  | cons part parts ih =>
      rw [walk] at leads ⊢
      cases found : tree.at? place.reverse with
      | none =>
          rw [found] at leads
          cases leads
      | some inner =>
          cases inner with
          | file content =>
              rw [found] at leads
              cases leads
          | directory entries =>
              rcases standing_eq_directory_iff.mp
                (kept _ (standing_eq_directory_iff.mpr ⟨entries, found⟩)) with ⟨others, still⟩
              rw [found] at leads
              rw [still]
              exact ih leads

theorem advance_name {name : String} (noPoint : name ≠ ".") (noPoints : name ≠ "..")
    (place : List String) : advance place name = name :: place := by
  unfold advance
  rw [if_neg noPoint, if_neg noPoints]

/-- A name leads from a directory to a place in it, whether or not anything
stands there. -/
theorem walk_name {tree : FileTree} {place : List String} {entries : List (String × FileTree)}
    (inside : tree.at? place.reverse = some (.directory entries)) {name : String}
    (noPoint : name ≠ ".") (noPoints : name ≠ "..") :
    tree.walk place [name] = .ok (name :: place) := by
  rw [walk, inside]
  dsimp only
  rw [advance_name noPoint noPoints, walk]

/-- Names that are no points lead to the place that they make up, if something
stands there. -/
theorem walk_names {tree : FileTree} {place names : List String} {inner : FileTree}
    (plain : ∀ name ∈ names, name ≠ "." ∧ name ≠ "..")
    (found : tree.at? (place.reverse ++ names) = some inner) :
    tree.walk place names = .ok (names.reverse ++ place) := by
  induction names generalizing place with
  | nil => rfl
  | cons name names ih =>
      rcases List.forall_mem_cons.mp plain with ⟨here, later⟩
      have next : tree.at? ((name :: place).reverse ++ names) = some inner := by
        rw [List.reverse_cons, List.append_assoc, List.singleton_append]
        exact found
      rw [at?_append] at found
      rw [walk]
      cases stands : tree.at? place.reverse with
      | none =>
          rw [stands] at found
          cases found
      | some directory =>
          cases directory with
          | file content =>
              rw [stands] at found
              cases found
          | directory entries =>
              dsimp only
              rw [advance_name here.1 here.2, ih later next, List.reverse_cons, List.append_assoc,
                List.singleton_append]

/-- Points at the end of a path do not change where it leads. -/
theorem walk_points {tree : FileTree} {place parts target : List String} (count : Nat)
    (leads : tree.walk place (List.replicate count "." ++ parts) = .ok target) :
    tree.walk place parts = .ok target := by
  induction count with
  | zero => exact leads
  | succ count ih =>
      apply ih
      rw [List.replicate_succ, List.cons_append, walk] at leads
      cases stands : tree.at? place.reverse with
      | none =>
          rw [stands] at leads
          cases leads
      | some inner =>
          rw [stands] at leads
          cases inner with
          | file content => cases leads
          | directory entries => exact leads

/-- From a directory, a part leads to a file only by naming it. -/
theorem advance_eq_cons {tree : FileTree} {place : List String}
    {entries : List (String × FileTree)} {part : String} {content : Content}
    (inside : tree.at? place.reverse = some (.directory entries))
    (found : tree.at? (advance place part).reverse = some (.file content)) :
    advance place part = part :: place := by
  unfold advance at found ⊢
  split
  case isTrue point =>
      rw [if_pos point, inside] at found
      cases found
  case isFalse noPoint =>
      rw [if_neg noPoint] at found
      split
      case isFalse => rfl
      case isTrue points =>
          rw [if_pos points] at found
          subst points
          cases place with
          | nil => rfl
          | cons name outer =>
              dsimp only at found ⊢
              split
              case isTrue => rfl
              case isFalse noPoints =>
                  rw [if_neg noPoints] at found
                  split at found
                  case isTrue =>
                      rw [inside] at found
                      cases found
                  case isFalse =>
                      rw [List.reverse_cons, at?_append, found] at inside
                      cases inside

end FileTree
end Pagewright
