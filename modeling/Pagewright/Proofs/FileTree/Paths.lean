import Mathlib.Data.List.TakeWhile
import Pagewright.Proofs.FileTree.Places

namespace Pagewright
namespace FileTree

/-!
# Paths

Different paths lead to one place, and what a path leads to depends on the
directories that it passes.  Facts about files are therefore facts about places,
and paths enter only through where they lead: the path of a place below a
directory leads to that place, the path of a file beside another one leads into
the same directory, and a file that is written through a path is read through it
afterwards.
-/

/-! ## Parts -/

/-- The parts of a text between slashes that are not empty. -/
def names (text : List Char) : List String :=
  ((text.splitOn '/').map String.ofList).filter fun part => !part.isEmpty

theorem parts_eq (path : String) :
    parts path =
      if path.toList.head? = some '/' then top :: names path.toList else names path.toList := rfl

theorem names_append (front back : List Char) :
    names (front ++ '/' :: back) = names front ++ names back := by
  rw [names, List.splitOn_append_cons_self, List.map_append, List.filter_append]
  rfl

theorem names_nil : names [] = [] := by
  rw [names, List.splitOn_nil]
  rfl

/-- A name is its only part. -/
theorem names_name {name : List Char} (nonempty : name ≠ []) (slashless : '/' ∉ name) :
    names name = [String.ofList name] := by
  have filled : (String.ofList name).isEmpty = false := by
    rw [Bool.eq_false_iff, ne_eq, String.isEmpty_iff, String.ofList_eq_empty_iff]
    exact nonempty
  rw [names, List.splitOn_eq_singleton slashless, List.map_singleton,
    List.filter_cons_of_pos (by rw [filled]; rfl), List.filter_nil]

/-- The parts of a path that leads on with names. -/
theorem names_intercalate {place : List String}
    (proper : ∀ name ∈ place, name ≠ "" ∧ '/' ∉ name.toList) :
    names (String.intercalate "/" place).toList = place := by
  induction place with
  | nil => exact names_nil
  | cons name place ih =>
      rcases List.forall_mem_cons.mp proper with ⟨⟨nonempty, slashless⟩, later⟩
      have first : names name.toList = [name] := by
        rw [names_name (by simpa using nonempty) slashless, String.ofList_toList]
      cases place with
      | nil =>
          rw [String.intercalate_singleton]
          exact first
      | cons next place =>
          rw [String.intercalate_cons_cons, String.toList_append, String.toList_append,
            List.append_assoc]
          show names (name.toList ++ '/' :: (String.intercalate "/" (next :: place)).toList) = _
          rw [names_append, first, ih later, List.singleton_append]

/-- A name that can stand in a directory and be written in a path. -/
structure IsName (name : String) : Prop where
  nonempty : name ≠ ""
  slashless : '/' ∉ name.toList
  noPoint : name ≠ "."
  noPoints : name ≠ ".."

instance (name : String) : Decidable (IsName name) :=
  decidable_of_iff (name ≠ "" ∧ '/' ∉ name.toList ∧ name ≠ "." ∧ name ≠ "..")
    ⟨fun ⟨nonempty, slashless, noPoint, noPoints⟩ => ⟨nonempty, slashless, noPoint, noPoints⟩,
      fun ⟨nonempty, slashless, noPoint, noPoints⟩ => ⟨nonempty, slashless, noPoint, noPoints⟩⟩

theorem toList_join (path : String) (place : List String) :
    (join path place).toList =
      path.toList ++ ((if path.isEmpty || endsWithSlash path then [] else ['/']) ++
        (String.intercalate "/" place).toList) := by
  rw [join, String.toList_append, String.toList_append, List.append_assoc]
  split
  · rfl
  · rfl

theorem names_join (path : String) {place : List String} (proper : ∀ name ∈ place, IsName name) :
    names (join path place).toList = names path.toList ++ place := by
  have written := names_intercalate fun name member =>
    ⟨(proper name member).nonempty, (proper name member).slashless⟩
  rw [toList_join]
  split
  case isTrue trivial =>
      rw [List.nil_append]
      rcases Bool.or_eq_true_iff.mp trivial with empty | slash
      · have nothing : path.toList = [] := by
          rw [String.isEmpty_iff.mp empty]
          rfl
        rw [nothing, List.nil_append, names_nil, List.nil_append, written]
      · rcases List.getLast?_eq_some_iff.mp (of_decide_eq_true slash) with ⟨front, whole⟩
        rw [whole, List.append_assoc, List.singleton_append, names_append, written, names_append,
          names_nil, List.append_nil]
  case isFalse => rw [List.singleton_append, names_append, written]

/-- The parts of the path of a place below a directory. -/
theorem parts_join {path : String} (nonempty : path ≠ "") {place : List String}
    (proper : ∀ name ∈ place, IsName name) : parts (join path place) = parts path ++ place := by
  have head : (join path place).toList.head? = path.toList.head? := by
    rw [toList_join]
    cases characters : path.toList with
    | nil => exact absurd (String.toList_eq_nil_iff.mp characters) nonempty
    | cons c cs => rfl
  rw [parts_eq, parts_eq, head, names_join path proper]
  split
  · rfl
  · rfl

theorem head?_intercalate {place : List String} (below : place ≠ [])
    (proper : ∀ name ∈ place, IsName name) :
    ∃ c, (String.intercalate "/" place).toList.head? = some c ∧ c ≠ '/' := by
  cases place with
  | nil => exact absurd rfl below
  | cons name place =>
      have here := proper name List.mem_cons_self
      cases characters : name.toList with
      | nil => exact absurd (String.toList_eq_nil_iff.mp characters) here.nonempty
      | cons c cs =>
          refine ⟨c, ?_, ?_⟩
          · rw [String.toList_intercalate, List.map_cons, characters, List.intercalate_cons_cons_left]
            rfl
          · rintro rfl
            exact here.slashless (characters ▸ List.mem_cons_self)

theorem getLast?_intercalate {place : List String} (below : place ≠ [])
    (proper : ∀ name ∈ place, IsName name) :
    ∃ c, (String.intercalate "/" place).toList.getLast? = some c ∧ c ≠ '/' := by
  induction place with
  | nil => exact absurd rfl below
  | cons name place ih =>
      rcases List.forall_mem_cons.mp proper with ⟨here, later⟩
      cases place with
      | nil =>
          have filled : name.toList ≠ [] := fun empty =>
            here.nonempty (String.toList_eq_nil_iff.mp empty)
          refine ⟨name.toList.getLast filled, ?_, ?_⟩
          · rw [String.intercalate_singleton, List.getLast?_eq_some_getLast filled]
          · intro slash
            exact here.slashless (slash ▸ List.getLast_mem filled)
      | cons next place =>
          rcases ih (List.cons_ne_nil _ _) later with ⟨c, last, different⟩
          refine ⟨c, ?_, different⟩
          rw [String.intercalate_cons_cons, String.toList_append, List.getLast?_append, last]
          rfl

theorem endsWithSlash_join (path : String) {place : List String} (below : place ≠ [])
    (proper : ∀ name ∈ place, IsName name) : endsWithSlash (join path place) = false := by
  rcases getLast?_intercalate below proper with ⟨c, last, different⟩
  rw [endsWithSlash, decide_eq_false_iff_not, toList_join, List.getLast?_append, List.getLast?_append,
    last]
  exact fun same => different (Option.some.inj same)

/-! ## Reading -/

/-- The path of a file leads to a place. -/
structure Leads (tree : FileTree) (path : String) (place : List String) : Prop where
  nonempty : path ≠ ""
  slashless : endsWithSlash path = false
  walks : tree.walk [] (parts path) = .ok place.reverse

theorem Leads.unique {tree : FileTree} {path : String} {left right : List String}
    (first : Leads tree path left) (second : Leads tree path right) : left = right :=
  List.reverse_inj.mp (Except.ok.inj (first.walks.symm.trans second.walks))

theorem find_eq {path : String} (nonempty : path ≠ "") (tree : FileTree) :
    tree.find path =
      (tree.walk [] (parts path)).bind fun place =>
        match tree.at? place.reverse with
        | none => .error .notFound
        | some (.file content) =>
            if endsWithSlash path then .error .notDirectory else .ok (.file content)
        | some (.directory entries) => .ok (.directory entries) := by
  have filled : path.isEmpty = false := by
    rw [Bool.eq_false_iff, ne_eq, String.isEmpty_iff]
    exact nonempty
  unfold find
  rw [filled]
  rfl

theorem find_empty (tree : FileTree) : tree.find "" = .error .notFound := rfl

/-- What is found stands where the path leads, and is a directory if the path
asks for one. -/
theorem walks_of_find {tree inner : FileTree} {path : String} (found : tree.find path = .ok inner) :
    path ≠ "" ∧ ∃ place, tree.walk [] (parts path) = .ok place.reverse ∧
      tree.at? place = some inner ∧
      (endsWithSlash path = true → ∃ entries, inner = .directory entries) := by
  have nonempty : path ≠ "" := by
    rintro rfl
    rw [find_empty] at found
    cases found
  refine ⟨nonempty, ?_⟩
  rw [find_eq nonempty] at found
  cases walks : tree.walk [] (parts path) with
  | error error =>
      rw [walks] at found
      cases found
  | ok place =>
      rw [walks] at found
      simp only [Except.bind] at found
      refine ⟨place.reverse, by rw [List.reverse_reverse], ?_⟩
      split at found
      case h_1 => cases found
      case h_2 content stands =>
          split at found
          case isTrue => cases found
          case isFalse slashless =>
              cases found
              exact ⟨stands, fun slash => absurd slash slashless⟩
      case h_3 entries stands =>
          cases found
          exact ⟨stands, fun _ => ⟨entries, rfl⟩⟩

/-- A file is found where its path leads. -/
theorem find_eq_file_iff {tree : FileTree} {path : String} {content : Content} :
    tree.find path = .ok (.file content) ↔
      ∃ place, Leads tree path place ∧ tree.at? place = some (.file content) := by
  constructor
  · intro found
    rcases walks_of_find found with ⟨nonempty, place, walks, stands, asked⟩
    refine ⟨place, ⟨nonempty, ?_, walks⟩, stands⟩
    refine Bool.eq_false_iff.mpr fun slash => ?_
    rcases asked slash with ⟨entries, absurdity⟩
    cases absurdity
  · rintro ⟨place, leads, stands⟩
    rw [find_eq leads.nonempty, leads.walks]
    simp only [Except.bind, List.reverse_reverse, stands, leads.slashless]
    rfl

theorem readText_eq_ok_iff {tree : FileTree} {path text : String} :
    tree.readText path = .ok text ↔
      ∃ place, Leads tree path place ∧ tree.at? place = some (.file (.text text)) := by
  rw [← find_eq_file_iff, readText]
  constructor
  · intro read
    cases found : tree.find path with
    | error error =>
        rw [found] at read
        cases read
    | ok inner =>
        rw [found] at read
        cases inner with
        | directory entries => cases read
        | file content =>
            cases content with
            | bytes contents => cases read
            | text contents =>
                cases read
                rfl
  · intro found
    rw [found]
    rfl

theorem isFile_iff {tree : FileTree} {path : String} :
    tree.isFile path = true ↔
      ∃ place content, Leads tree path place ∧ tree.at? place = some (.file content) := by
  unfold isFile
  constructor
  · intro found
    split at found
    case h_1 content there =>
        rcases find_eq_file_iff.mp there with ⟨place, leads, stands⟩
        exact ⟨place, content, leads, stands⟩
    case h_2 => cases found
  · rintro ⟨place, content, leads, stands⟩
    rw [find_eq_file_iff.mpr ⟨place, leads, stands⟩]

/-- The path of a place below a directory leads there. -/
theorem leads_join {tree : FileTree} {path : String} {entries : List (String × FileTree)}
    (found : tree.find path = .ok (.directory entries)) {place : List String} {inner : FileTree}
    (below : place ≠ []) (proper : ∀ name ∈ place, IsName name)
    (stands : (directory entries).at? place = some inner) :
    ∃ outer, Leads tree (join path place) (outer ++ place) ∧ tree.at? (outer ++ place) = some inner := by
  rcases walks_of_find found with ⟨nonempty, outer, walks, here, -⟩
  have there : tree.at? (outer ++ place) = some inner := by
    rw [at?_append, here]
    exact stands
  have plain : ∀ name ∈ place, name ≠ "." ∧ name ≠ ".." := fun name member =>
    ⟨(proper name member).noPoint, (proper name member).noPoints⟩
  have onward : tree.walk outer.reverse place = .ok (place.reverse ++ outer.reverse) :=
    walk_names plain (by rw [List.reverse_reverse]; exact there)
  refine ⟨outer, ⟨?_, endsWithSlash_join path below proper, ?_⟩, there⟩
  · intro empty
    have characters := toList_join path place
    rw [empty] at characters
    exact nonempty (String.toList_eq_nil_iff.mp (List.append_eq_nil_iff.mp characters.symm).1)
  · rw [parts_join nonempty proper, walk_append, walks, List.reverse_append]
    exact onward

/-! ## Files in one directory -/

/-- What is cut off the end of a path are points and slashes. -/
theorem names_withoutTail (reversed : List Char) :
    ∃ count, names reversed.reverse =
      names (withoutTail reversed).reverse ++ List.replicate count "." := by
  have point : names ['.'] = ["."] := names_name (by decide) (by decide)
  fun_induction withoutTail reversed with
  | case1 rest ih =>
      rcases ih with ⟨count, same⟩
      refine ⟨count, ?_⟩
      rw [List.reverse_cons, names_append, names_nil, List.append_nil, same]
  | case2 rest ih =>
      rcases ih with ⟨count, same⟩
      refine ⟨count + 1, ?_⟩
      rw [List.reverse_cons, List.reverse_cons, List.append_assoc, List.singleton_append,
        names_append, point, same, List.append_assoc, List.replicate_succ']
  | case3 reversed => exact ⟨0, (List.append_nil _).symm⟩

theorem withoutTail_suffix (reversed : List Char) : withoutTail reversed <:+ reversed := by
  fun_induction withoutTail reversed with
  | case1 rest ih => exact ih.trans (List.suffix_cons _ _)
  | case2 rest ih => exact (ih.trans (List.suffix_cons _ _)).trans (List.suffix_cons _ _)
  | case3 reversed => exact List.suffix_rfl

/-- A text with a slash in it, at its last slash. -/
theorem exists_last_slash {text : List Char} (member : '/' ∈ text) :
    ∃ front last, text = front ++ '/' :: last ∧ '/' ∉ last ∧
      text.reverse.dropWhile (· != '/') = '/' :: front.reverse := by
  rcases List.eq_append_cons_of_mem (List.mem_reverse.mpr member) with
    ⟨last, front, whole, absent⟩
  refine ⟨front.reverse, last.reverse, ?_, fun inside => absent (List.mem_reverse.mp inside), ?_⟩
  · have turned := congrArg List.reverse whole
    rw [List.reverse_reverse, List.reverse_append, List.reverse_cons, List.append_assoc,
      List.singleton_append] at turned
    exact turned
  · rw [whole, List.dropWhile_append_of_pos]
    · rw [List.dropWhile_cons_of_neg (by simp), List.reverse_reverse]
    · intro c inside
      rw [bne_iff_ne]
      rintro rfl
      exact absent inside

/-- The part that a slash at the beginning of a path stands for. -/
def lead (path : List Char) : List String :=
  if path.head? = some '/' then [top] else []

theorem parts_eq_lead (path : String) : parts path = lead path.toList ++ names path.toList := by
  rw [parts_eq, lead]
  split
  · rfl
  · rfl

theorem lead_of_prefix {front text : List Char} (nonempty : front ≠ []) (starts : front <+: text) :
    lead text = lead front := by
  rcases starts with ⟨rest, rfl⟩
  cases front with
  | nil => exact absurd rfl nonempty
  | cons c cs => rfl

theorem lead_of_notMem {text : List Char} (slashless : '/' ∉ text) : lead text = [] := by
  rw [lead, if_neg]
  intro head
  exact slashless (List.mem_of_mem_head? head)

/-- A name is a path of one part. -/
theorem parts_name {name : String} (nonempty : name ≠ "") (slashless : '/' ∉ name.toList) :
    parts name = [name] := by
  have filled : name.toList ≠ [] := fun empty => nonempty (String.toList_eq_nil_iff.mp empty)
  rw [parts_eq_lead, lead_of_notMem slashless, names_name filled slashless, String.ofList_toList,
    List.nil_append]

/-- The path that a sibling is joined to. -/
theorem parts_sibling_of_outer {file name : String} {outer : List Char}
    (cut : withoutTail (file.toList.reverse.dropWhile (· != '/')) = outer)
    (starts : outer.reverse <+: file.toList) (proper : IsName name) :
    parts (sibling file name) = lead file.toList ++ names outer.reverse ++ [name] := by
  have single : ∀ other ∈ [name], IsName other := List.forall_mem_singleton.mpr proper
  rw [sibling, cut]
  cases outer with
  | nil =>
      rw [List.reverse_nil, names_nil, List.append_nil, lead]
      by_cases slash : file.toList.head? = some '/'
      · rw [if_pos slash, slash]
        show parts (join "/" [name]) = [top] ++ [name]
        rw [parts_join (by decide) single]
        rfl
      · rw [if_neg slash, if_neg (by simpa using slash)]
        show parts (join "" [name]) = [name]
        rw [join, String.intercalate_singleton]
        exact parts_name proper.nonempty proper.slashless
  | cons c outer =>
      have filled : (c :: outer).reverse ≠ [] := by simp
      have nonempty : String.ofList (c :: outer).reverse ≠ "" := by simp
      show parts (join ("" ++ String.ofList (c :: outer).reverse) [name]) = _
      rw [String.empty_append, parts_join nonempty single, parts_eq_lead, String.toList_ofList,
        lead_of_prefix filled starts]

/-- The parts of the path of another file in the directory of a file are those
of the file up to its name, apart from points in front of the name. -/
theorem parts_sibling {file name : String} (nonempty : file ≠ "")
    (slashless : endsWithSlash file = false) (proper : IsName name) :
    ∃ base count last, parts file = base ++ (List.replicate count "." ++ [last]) ∧
      parts (sibling file name) = base ++ [name] := by
  by_cases slash : '/' ∈ file.toList
  · rcases exists_last_slash slash with ⟨front, last, whole, absent, dropped⟩
    have cut : withoutTail (file.toList.reverse.dropWhile (· != '/')) = withoutTail front.reverse := by
      rw [dropped, withoutTail]
    have starts : (withoutTail front.reverse).reverse <+: file.toList := by
      have front' : (withoutTail front.reverse).reverse <+: front.reverse.reverse :=
        List.reverse_prefix.mpr (withoutTail_suffix front.reverse)
      rw [List.reverse_reverse] at front'
      exact front'.trans (whole ▸ List.prefix_append front _)
    have filled : last ≠ [] := by
      rintro rfl
      rw [endsWithSlash, whole, List.getLast?_append] at slashless
      cases slashless
    rcases names_withoutTail front.reverse with ⟨count, same⟩
    rw [List.reverse_reverse] at same
    refine ⟨_, count, String.ofList last, ?_, parts_sibling_of_outer cut starts proper⟩
    rw [parts_eq_lead, whole, names_append, names_name filled absent, same, ← whole]
    simp only [List.append_assoc]
  · have cut : withoutTail (file.toList.reverse.dropWhile (· != '/')) = [] := by
      have all : file.toList.reverse.dropWhile (· != '/') = [] := by
        rw [List.dropWhile_eq_nil_iff]
        intro c member
        rw [bne_iff_ne]
        rintro rfl
        exact slash (List.mem_reverse.mp member)
      rw [all]
      rfl
    refine ⟨_, 0, file, ?_, parts_sibling_of_outer cut List.nil_prefix proper⟩
    rw [lead_of_notMem slash, List.reverse_nil, names_nil]
    exact parts_name nonempty slash

/-- The path of another file in the directory of a file leads to that
directory. -/
theorem leads_sibling {tree : FileTree} {file name : String} {place : List String}
    {content : Content} (leads : Leads tree file place)
    (found : tree.at? place = some (.file content)) (proper : IsName name) :
    ∃ directory own, place = directory ++ [own] ∧
      Leads tree (sibling file name) (directory ++ [name]) := by
  rcases parts_sibling leads.nonempty leads.slashless proper with ⟨base, count, last, whole, beside⟩
  have walks := leads.walks
  rw [whole, walk_append] at walks
  cases based : tree.walk [] base with
  | error error =>
      rw [based] at walks
      cases walks
  | ok outer =>
      rw [based] at walks
      have named := walk_points count walks
      rw [walk] at named
      cases stands : tree.at? outer.reverse with
      | none =>
          rw [stands] at named
          cases named
      | some inner =>
          rw [stands] at named
          cases inner with
          | file other => cases named
          | directory entries =>
              have arrived : advance outer last = place.reverse := Except.ok.inj named
              have file : tree.at? (advance outer last).reverse = some (.file content) := by
                rw [arrived, List.reverse_reverse]
                exact found
              rw [advance_eq_cons stands file] at arrived
              refine ⟨outer.reverse, last, ?_, ?_, ?_, ?_⟩
              · rw [← List.reverse_cons, arrived, List.reverse_reverse]
              · intro empty
                rw [empty, parts_eq_lead] at beside
                exact List.append_ne_nil_of_right_ne_nil base (List.cons_ne_nil name []) beside.symm
              · exact endsWithSlash_join _ (List.cons_ne_nil name []) (List.forall_mem_singleton.mpr proper)
              · rw [beside, walk_append, based, List.reverse_append, List.reverse_reverse]
                exact walk_name stands proper.noPoint proper.noPoints

/-! ## Writing -/

/-- A path at which a file can be written: it names no directory, and leads into
one. -/
structure Opens (tree : FileTree) (path : String) (outer : List String) (name : String) : Prop where
  nonempty : path ≠ ""
  slashless : endsWithSlash path = false
  last : lastName? path = some name
  noPoint : name ≠ "."
  noPoints : name ≠ ".."
  walks : tree.walk [] (parts path).dropLast = .ok outer.reverse
  inside : ∃ entries, tree.at? outer = some (.directory entries) ∧
    ∀ inner, entries.lookup name = some inner → ∃ content, inner = .file content

theorem writeText_eq {path : String} (nonempty : path ≠ "") (tree : FileTree) (contents : String) :
    tree.writeText path contents =
      match lastName? path with
      | none => .error .isDirectory
      | some name =>
          (tree.walk [] (parts path).dropLast).bind fun outer =>
            match tree.at? outer.reverse with
            | none => .error .notFound
            | some (.file _) => .error .notDirectory
            | some (.directory entries) =>
                if name = "." || name = ".." || endsWithSlash path then
                  .error .isDirectory
                else
                  match entries.lookup name with
                  | some (.directory _) => .error .isDirectory
                  | _ => .ok (put (.file (.text contents)) (outer.reverse ++ [name]) tree) := by
  have filled : path.isEmpty = false := by
    rw [Bool.eq_false_iff, ne_eq, String.isEmpty_iff]
    exact nonempty
  unfold writeText
  rw [filled]
  rfl

theorem writeText_empty (tree : FileTree) (contents : String) :
    tree.writeText "" contents = .error .notFound := rfl

section Writing

variable {tree changed : FileTree} {path contents : String} {outer : List String} {name : String}

/-- Whatever is written goes to one place. -/
theorem exists_opens (writes : tree.writeText path contents = .ok changed) :
    ∃ outer name, Opens tree path outer name ∧
      changed = put (.file (.text contents)) (outer ++ [name]) tree := by
  have nonempty : path ≠ "" := by
    rintro rfl
    rw [writeText_empty] at writes
    cases writes
  rw [writeText_eq nonempty] at writes
  cases last : lastName? path with
  | none =>
      rw [last] at writes
      cases writes
  | some name =>
      rw [last] at writes
      cases walks : tree.walk [] (parts path).dropLast with
      | error error =>
          rw [walks] at writes
          cases writes
      | ok outer =>
          rw [walks] at writes
          simp only [Except.bind] at writes
          split at writes
          case h_1 => cases writes
          case h_2 => cases writes
          case h_3 entries inside =>
              split at writes
              case isTrue => cases writes
              case isFalse allowed =>
                  simp only [Bool.or_eq_true, decide_eq_true_eq, not_or, Bool.not_eq_true] at allowed
                  rcases allowed with ⟨⟨noPoint, noPoints⟩, slashless⟩
                  split at writes
                  case h_1 => cases writes
                  case h_2 free =>
                      refine ⟨outer.reverse, name, ⟨nonempty, slashless, last, noPoint, noPoints, ?_,
                        entries, inside, ?_⟩, (Except.ok.inj writes).symm⟩
                      · rw [List.reverse_reverse]
                        exact walks
                      · intro inner found
                        cases inner with
                        | file content => exact ⟨content, rfl⟩
                        | directory others => exact absurd found (free others)

/-- Where a file can be written, any text can be written. -/
theorem Opens.writeText (opens : Opens tree path outer name) (contents : String) :
    tree.writeText path contents = .ok (put (.file (.text contents)) (outer ++ [name]) tree) := by
  rcases opens.inside with ⟨entries, inside, free⟩
  have allowed : (decide (name = ".") || decide (name = "..") || endsWithSlash path) = false := by
    rw [decide_eq_false opens.noPoint, decide_eq_false opens.noPoints, opens.slashless]
    rfl
  rw [writeText_eq opens.nonempty, opens.last, opens.walks]
  simp only [Except.bind, List.reverse_reverse, inside, allowed]
  rw [if_neg Bool.false_ne_true]
  cases found : entries.lookup name with
  | none => rfl
  | some inner =>
      rcases free inner found with ⟨content, rfl⟩
      rfl

theorem Opens.leads (opens : Opens tree path outer name) : Leads tree path (outer ++ [name]) := by
  rcases opens.inside with ⟨entries, inside, -⟩
  rcases List.getLast?_eq_some_iff.mp opens.last with ⟨front, whole⟩
  have walks := opens.walks
  rw [whole, List.dropLast_concat] at walks
  refine ⟨opens.nonempty, opens.slashless, ?_⟩
  rw [whole, walk_append, walks, List.reverse_append]
  exact walk_name (by rw [List.reverse_reverse]; exact inside) opens.noPoint opens.noPoints

/-- A text that is written can be read through the same path, stands at the
place where the path leads, and changes what stands there only. -/
theorem writeText_spec (writes : tree.writeText path contents = .ok changed) {place : List String}
    (leads : Leads tree path place) :
    changed.readText path = .ok contents ∧ changed.standing place = .file (.text contents) ∧
      ∀ other, other ≠ place → changed.standing other = tree.standing other := by
  rcases exists_opens writes with ⟨outer, name, opens, rfl⟩
  rcases opens.inside with ⟨entries, inside, free⟩
  rw [leads.unique opens.leads]
  have stands := at?_put inside name (.file (.text contents))
  have others : ∀ other, other ≠ outer ++ [name] →
      (put (.file (.text contents)) (outer ++ [name]) tree).standing other = tree.standing other :=
    fun other different => standing_put inside free _ different
  -- No directory gives way, so that the path leads where it led before.
  have kept : ∀ other, tree.standing other = .directory →
      (put (.file (.text contents)) (outer ++ [name]) tree).standing other = .directory := by
    intro other directory
    rw [others other, directory]
    rintro rfl
    rcases standing_eq_directory_iff.mp directory with ⟨inner, found⟩
    rw [at?_append, inside, Option.bind_some, at?] at found
    cases occupied : entries.lookup name with
    | none =>
        rw [occupied] at found
        cases found
    | some old =>
        rcases free old occupied with ⟨content, rfl⟩
        rw [occupied] at found
        cases found
  refine ⟨readText_eq_ok_iff.mpr ⟨_, ⟨leads.nonempty, leads.slashless, ?_⟩, stands⟩,
    standing_eq_file_iff.mpr stands, others⟩
  exact walk_of_directories kept opens.leads.walks

end Writing

end FileTree
end Pagewright
