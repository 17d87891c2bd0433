import Pagewright.Text.Blank
import Pagewright.Text.Search

namespace Pagewright
namespace Text

/-!
# Counting occurrences

The search cuts a text at the *first* place where the needle begins.  That
this is the intended place has to be argued from the whole text: the needle
must not begin anywhere else.  Occurrences are therefore counted, overlapping
ones included, and a needle that occurs once is found where it stands.  Where
only the text in front is known, the search is followed from one place to the
next.  Where the place does not matter, to be found is to be a part of the text.
-/

/-- The number of places in a text at which `needle` begins. -/
def occurrences (needle : List Char) : List Char → Nat
  | [] => if needle.isPrefixOf [] then 1 else 0
  | c :: cs =>
      (if needle.isPrefixOf (c :: cs) then 1 else 0) + occurrences needle cs

/-- A needle that is written out somewhere occurs. -/
theorem occurrences_pos (needle front back : List Char) :
    0 < occurrences needle (front ++ (needle ++ back)) := by
  induction front with
  | nil =>
      have found : needle.isPrefixOf (needle ++ back) = true :=
        List.isPrefixOf_iff_prefix.mpr (List.prefix_append needle back)
      cases whole : needle ++ back with
      | nil =>
          rw [whole] at found
          simp only [List.nil_append, occurrences, found, if_true, Nat.lt_add_one]
      | cons c cs =>
          rw [whole] at found
          simp only [List.nil_append, occurrences, found, if_true]
          omega
  | cons c front ih =>
      rw [List.cons_append, occurrences]
      omega

/-- A stretch of text that lacks the first character of a needle can neither
hold the needle nor hold its beginning. -/
theorem occurrences_skip {first : Char} {needle text : List Char} (rest : List Char)
    (absent : first ∉ text) :
    occurrences (first :: needle) (text ++ rest) = occurrences (first :: needle) rest := by
  induction text with
  | nil => rfl
  | cons c cs ih =>
      have different : first ≠ c := List.ne_of_not_mem_cons absent
      have notHere : (first :: needle).isPrefixOf (c :: (cs ++ rest)) = false := by
        simp only [List.isPrefixOf, beq_eq_false_iff_ne.mpr different, Bool.false_and]
      rw [List.cons_append, occurrences, notHere, ih (List.not_mem_of_not_mem_cons absent)]
      simp only [Bool.false_eq_true, if_false, Nat.zero_add]

private theorem splitAtFirstFrom_of_once {needle front back passed : List Char}
    (once : occurrences needle (front ++ (needle ++ back)) = 1) :
    splitAtFirstFrom needle passed (front ++ (needle ++ back)) =
      some (passed.reverse ++ front, needle ++ back) := by
  induction front generalizing passed with
  | nil =>
      have found : needle.isPrefixOf (needle ++ back) = true :=
        List.isPrefixOf_iff_prefix.mpr (List.prefix_append needle back)
      cases whole : needle ++ back with
      | nil =>
          have nothing := (List.append_eq_nil_iff.mp whole).1
          simp only [splitAtFirstFrom, nothing, List.isEmpty_nil, if_true, List.append_nil]
      | cons c cs =>
          rw [whole] at found
          simp only [List.nil_append, splitAtFirstFrom, found, if_true, List.append_nil]
  | cons c front ih =>
      have later := occurrences_pos needle front back
      rw [List.cons_append, occurrences] at once
      -- A match at this place would be a second one.
      have notHere : needle.isPrefixOf (c :: (front ++ (needle ++ back))) = false := by
        cases here : needle.isPrefixOf (c :: (front ++ (needle ++ back))) with
        | false => rfl
        | true =>
            rw [here, if_pos rfl] at once
            omega
      rw [notHere] at once
      have onceLater : occurrences needle (front ++ (needle ++ back)) = 1 := by
        simpa only [Bool.false_eq_true, if_false, Nat.zero_add] using once
      rw [List.cons_append, splitAtFirstFrom, notHere]
      simp only [Bool.false_eq_true, if_false, ih onceLater, List.reverse_cons,
        List.append_assoc, List.singleton_append]

/-- A needle that occurs once is found where it stands. -/
theorem splitAtFirst?_of_once {needle front back : List Char}
    (once : occurrences needle (front ++ (needle ++ back)) = 1) :
    splitAtFirst? needle (front ++ (needle ++ back)) = some (front, needle ++ back) := by
  have found := @splitAtFirstFrom_of_once needle front back [] once
  rwa [List.reverse_nil, List.nil_append] at found

/-! ## Searching from one place to the next -/

private theorem splitAtFirstFrom_eq (needle passed text : List Char) :
    splitAtFirstFrom needle passed text =
      (splitAtFirst? needle text).map fun cut => (passed.reverse ++ cut.1, cut.2) := by
  induction text generalizing passed with
  | nil =>
      rw [splitAtFirst?, splitAtFirstFrom, splitAtFirstFrom]
      split
      · simp only [Option.map_some, List.reverse_nil, List.append_nil]
      · rfl
  | cons c cs ih =>
      rw [splitAtFirst?, splitAtFirstFrom, splitAtFirstFrom]
      split
      · simp only [Option.map_some, List.reverse_nil, List.append_nil]
      · rw [ih (c :: passed), ih [c], Option.map_map]
        simp only [Function.comp_def, List.reverse_cons, List.append_assoc, List.reverse_nil,
          List.nil_append]

/-- Where a needle does not begin, the search goes on behind the character. -/
theorem splitAtFirst?_of_elsewhere {needle cs : List Char} {c : Char}
    (elsewhere : ¬needle <+: c :: cs) :
    splitAtFirst? needle (c :: cs) =
      (splitAtFirst? needle cs).map fun cut => (c :: cut.1, cut.2) := by
  rw [splitAtFirst?, splitAtFirstFrom, if_neg (mt List.isPrefixOf_iff_prefix.mp elsewhere),
    splitAtFirstFrom_eq]
  rfl

/-- Where a needle begins, the search ends. -/
theorem splitAtFirst?_of_here {first : Char} {needle : List Char} (back : List Char) :
    splitAtFirst? (first :: needle) (first :: needle ++ back) =
      some ([], first :: needle ++ back) := by
  rw [splitAtFirst?, List.cons_append, splitAtFirstFrom, if_pos, List.reverse_nil]
  exact List.isPrefixOf_iff_prefix.mpr (List.prefix_append (first :: needle) back)

/-- The search passes over a stretch of text without the first character of the
needle. -/
theorem splitAtFirst?_skip {first : Char} {needle text : List Char} (rest : List Char)
    (absent : first ∉ text) :
    splitAtFirst? (first :: needle) (text ++ rest) =
      (splitAtFirst? (first :: needle) rest).map fun cut => (text ++ cut.1, cut.2) := by
  induction text with
  | nil => simp only [List.nil_append, Option.map_id']
  | cons c cs ih =>
      have elsewhere : ¬first :: needle <+: c :: (cs ++ rest) :=
        fun here => List.ne_of_not_mem_cons absent (List.cons_prefix_cons.mp here).1
      rw [List.cons_append, splitAtFirst?_of_elsewhere elsewhere,
        ih (List.not_mem_of_not_mem_cons absent), Option.map_map]
      rfl

/-- A needle cannot reach over a character that it does not hold. -/
theorem prefix_of_notMem {needle front back : List Char} {stop : Char}
    (absent : stop ∉ needle) (reaches : needle <+: front ++ stop :: back) : needle <+: front := by
  rcases Nat.lt_or_ge front.length needle.length with longer | shorter
  · rcases reaches with ⟨rest, whole⟩
    have here := congrArg (fun text => text[front.length]?) whole
    simp only [List.getElem?_append_left longer, List.getElem?_append_right (Nat.le_refl _),
      Nat.sub_self, List.getElem?_cons_zero] at here
    exact False.elim (absent (List.mem_of_getElem? here))
  · exact List.prefix_of_prefix_length_le reaches (List.prefix_append front _) shorter

/-- A needle whose first character does not occur again in it is found exactly
where the text is cut in front of it and holds it nowhere before. -/
theorem splitAtFirst?_eq_some_iff {first : Char} {others text front back : List Char}
    (distinct : first ∉ others) :
    splitAtFirst? (first :: others) text = some (front, back) ↔
      text = front ++ back ∧ first :: others <+: back ∧ ¬first :: others <:+: front := by
  constructor
  · intro found
    refine ⟨(splitAtFirst?_append found).symm, ?_⟩
    induction text generalizing front with
    | nil => cases found
    | cons c cs ih =>
        by_cases here : first :: others <+: c :: cs
        case pos =>
            rcases here with ⟨rest, whole⟩
            rw [← whole, splitAtFirst?_of_here] at found
            cases found
            refine ⟨List.prefix_append _ _, ?_⟩
            rw [List.infix_nil]
            exact List.cons_ne_nil first others
        case neg =>
            have whole := splitAtFirst?_append found
            rw [splitAtFirst?_of_elsewhere here] at found
            rcases Option.map_eq_some_iff.mp found with ⟨⟨passed, behind⟩, later, same⟩
            cases same
            rcases ih later with ⟨begins, absent⟩
            refine ⟨begins, ?_⟩
            rw [List.infix_cons_iff, not_or]
            refine ⟨fun reaches => here ?_, absent⟩
            rw [← whole]
            exact reaches.trans (List.prefix_append _ _)
  · rintro ⟨rfl, ⟨rest, rfl⟩, absent⟩
    induction front with
    | nil => exact splitAtFirst?_of_here rest
    | cons c front ih =>
        rw [List.infix_cons_iff, not_or] at absent
        have elsewhere : ¬first :: others <+: c :: (front ++ (first :: others ++ rest)) := by
          intro reaches
          rcases List.cons_prefix_cons.mp reaches with ⟨same, onward⟩
          apply absent.1
          rw [List.cons_prefix_cons]
          exact ⟨same, prefix_of_notMem distinct onward⟩
        rw [List.cons_append, splitAtFirst?_of_elsewhere elsewhere, ih absent.2, Option.map_some]

/-- A needle cannot reach into copies of a character that it does not hold. -/
theorem infix_of_append_replicate {needle front : List Char} {c : Char} {count : Nat}
    (absent : c ∉ needle) (inside : needle <:+: front ++ List.replicate count c) :
    needle <:+: front := by
  induction count with
  | zero => rwa [List.replicate_zero, List.append_nil] at inside
  | succ count ih =>
      rw [List.replicate_succ', ← List.append_assoc] at inside
      rcases List.infix_concat_iff.mp inside with atEnd | before
      · rcases List.suffix_concat_iff.mp atEnd with rfl | ⟨others, rfl, -⟩
        · exact List.nil_infix
        · exact absurd (List.mem_append_right others (List.mem_singleton_self c)) absent
      · exact ih before

/-- Dropping copies of a character stops at the first other one. -/
theorem dropWhile_replicate_append {c : Char} (count : Nat) {text : List Char}
    (bare : text.head? ≠ some c) :
    (List.replicate count c ++ text).dropWhile (fun other => decide (other = c)) = text := by
  rw [List.dropWhile_append_of_pos]
  · cases text with
    | nil => rfl
    | cons other text =>
        rw [List.dropWhile_cons_of_neg]
        intro same
        exact bare (congrArg some (of_decide_eq_true same))
  · intro other member
    exact decide_eq_true (List.eq_of_mem_replicate member)

/-- What is left when copies of a character are dropped at the beginning. -/
theorem dropWhile_eq_iff {c : Char} {text rest : List Char} :
    text.dropWhile (fun other => decide (other = c)) = rest ↔
      ∃ count, text = List.replicate count c ++ rest ∧ rest.head? ≠ some c := by
  constructor
  · rintro rfl
    induction text with
    | nil => exact ⟨0, rfl, Option.some_ne_none c ∘ Eq.symm⟩
    | cons other text ih =>
        by_cases same : other = c
        case pos =>
            rcases ih with ⟨count, parts, bare⟩
            rw [List.dropWhile_cons, if_pos (decide_eq_true same)]
            refine ⟨count + 1, ?_, bare⟩
            rw [List.replicate_succ, List.cons_append, ← parts, same]
        case neg =>
            rw [List.dropWhile_cons, if_neg fun equal => same (of_decide_eq_true equal)]
            exact ⟨0, rfl, fun head => same (Option.some.inj head)⟩
  · rintro ⟨count, rfl, bare⟩
    exact dropWhile_replicate_append count bare

/-- What is left when copies of a character are dropped at the end. -/
theorem dropEndWhile_eq_iff {c : Char} {text rest : List Char} :
    dropEndWhile (fun other => decide (other = c)) text = rest ↔
      ∃ count, text = rest ++ List.replicate count c ∧ rest.getLast? ≠ some c := by
  rw [dropEndWhile, List.reverse_eq_iff, dropWhile_eq_iff]
  simp only [List.reverse_eq_iff, List.reverse_append, List.reverse_reverse, List.reverse_replicate,
    List.head?_reverse]

/-! ## Searching without a cut -/

private theorem isSome_splitAtFirstFrom (needle : List Char) {passed : List Char}
    (text : List Char) :
    (splitAtFirstFrom needle passed text).isSome = true ↔ needle <:+: text := by
  induction text generalizing passed with
  | nil =>
      rw [splitAtFirstFrom, List.infix_nil]
      cases needle with
      | nil => simp
      | cons first others => simp
  | cons c cs ih =>
      rw [splitAtFirstFrom, List.infix_cons_iff, ← List.isPrefixOf_iff_prefix]
      split
      case isTrue here => simp only [Option.isSome_some, here, true_or]
      case isFalse elsewhere => simp only [ih, elsewhere, Bool.false_eq_true, false_or]

/-- There is a cut if the needle is a part of the text. -/
theorem isSome_splitAtFirst?_iff {needle text : List Char} :
    (splitAtFirst? needle text).isSome = true ↔ needle <:+: text :=
  isSome_splitAtFirstFrom needle text

/-- A needle occurs in a text if it is a part of it. -/
theorem occursIn_iff (needle text : String) :
    occursIn needle text = true ↔ needle.toList <:+: text.toList :=
  isSome_splitAtFirst?_iff

end Text
end Pagewright
