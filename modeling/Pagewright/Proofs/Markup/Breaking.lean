import Pagewright.Proofs.Markup.EndTag

namespace Pagewright
namespace Markup

/-!
# Where end tags are broken up

A text is guarded from its end, and each bracket is tested against text that is
already guarded.  What this comes to is stated here on the text as given: each
place where an end tag begins gets one backslash, and there is no other change.

The two tests agree because an end tag holds one bracket, its first character.
Behind that bracket the characters that are compared are no brackets, and only
behind a bracket does guarding put anything in.
-/

/-- The text with one backslash behind each character at which an end tag
begins. -/
def brokenUp (element : String) (text : List Char) : List Char :=
  text.zipIdx.flatMap fun (c, position) =>
    if endTagBegins element (text.drop position) then [c, '\\'] else [c]

theorem brokenUp_cons (element : String) (c : Char) (cs : List Char) :
    brokenUp element (c :: cs) =
      (if endTagBegins element (c :: cs) then [c, '\\'] else [c]) ++ brokenUp element cs := by
  simp only [brokenUp, List.zipIdx_cons', List.flatMap_cons, List.flatMap_map, List.drop_zero,
    Prod.map_fst, Prod.map_snd, id_eq, List.drop_succ_cons]

/-- Text without an end tag has no place to be broken up. -/
theorem brokenUp_of_free {element : String} {text : List Char} (free : EndTagFree element text) :
    brokenUp element text = text := by
  induction text with
  | nil => rfl
  | cons c cs ih =>
      rcases endTagFree_cons.mp free with ⟨notHere, later⟩
      rw [brokenUp_cons, notHere, ih later]
      rfl

/-- An end tag begins with a bracket and a slash, as they stand. -/
theorem exists_of_endTagBegins {element : String} {text : List Char}
    (begins : endTagBegins element text = true) : ∃ rest, text = '<' :: '/' :: rest := by
  cases text with
  | nil => cases begins
  | cons c cs =>
      rw [endTagBegins_cons, ← startsWithLowered_eq, Bool.and_eq_true, decide_eq_true_eq] at begins
      rcases List.head?_eq_some_iff.mp (head?_of_startsWithLowered begins.2) with ⟨rest, slash⟩
      exact ⟨rest, by rw [begins.1, slash]⟩

/-- Guarding does not change how a text compares with one that holds no
bracket. -/
theorem isPrefixOf_guarded {needle : List Char} (bracketFree : '<' ∉ needle)
    (name text : List Char) :
    needle.isPrefixOf ((text.foldr (guardChar name) []).map Char.toLower) =
      needle.isPrefixOf (text.map Char.toLower) := by
  induction text generalizing needle with
  | nil => rfl
  | cons c cs ih =>
      cases needle with
      | nil => rfl
      | cons first others =>
          rw [List.mem_cons, not_or] at bracketFree
          rw [List.foldr_cons, guardChar]
          split
          case isTrue bracket =>
              -- Both texts begin with the bracket, which the needle does not.
              rw [Bool.and_eq_true, decide_eq_true_eq] at bracket
              have different : (first == '<'.toLower) = false :=
                beq_eq_false_iff_ne.mpr fun same => bracketFree.1 same.symm
              simp only [bracket.1, List.map_cons, List.isPrefixOf, different, Bool.false_and]
          case isFalse => simp only [List.map_cons, List.isPrefixOf, ih bracketFree.2]

/-- The test at a bracket can be made on the text as given. -/
theorem foldr_guardChar_cons {element : String} (bracketFree : '<' ∉ element.toList) (c : Char)
    (cs : List Char) :
    (c :: cs).foldr (guardChar element.toList) [] =
      if endTagBegins element (c :: cs) then
        '<' :: '\\' :: cs.foldr (guardChar element.toList) []
      else
        c :: cs.foldr (guardChar element.toList) [] := by
  have needleFree : '<' ∉ '/' :: element.toList := by
    rw [List.mem_cons, not_or]
    exact ⟨by decide, bracketFree⟩
  rw [List.foldr_cons, guardChar, startsWithLowered_eq, isPrefixOf_guarded needleFree,
    endTagBegins_cons]

/-- Guarding breaks a text up at the places of its own end tags. -/
theorem toList_guardEndTags {element : String} (bracketFree : '<' ∉ element.toList)
    (text : String) :
    (guardEndTags element text).toList = brokenUp element text.toList := by
  rw [guardEndTags, String.toList_ofList]
  induction text.toList with
  | nil => rfl
  | cons c cs ih =>
      rw [foldr_guardChar_cons bracketFree, brokenUp_cons, ih]
      split
      case isTrue begins =>
          rcases exists_of_endTagBegins begins with ⟨rest, same⟩
          rw [(List.cons.inj same).1]
          rfl
      case isFalse => rfl

/-- Breaking up the end tags of a raw element leaves none of them, in whatever
mix of cases.  It puts one backslash between the bracket and the slash of each
end tag in the text and changes nothing else, and doing it again changes
nothing. -/
theorem guardEndTags_breaks_up (element : String) (raw : element ∈ rawElements) (text : String) :
    EndTagFree element (guardEndTags element text).toList ∧
      (guardEndTags element text).toList = brokenUp element text.toList ∧
      (∀ position, endTagBegins element (text.toList.drop position) = true →
        ∃ rest, text.toList.drop position = '<' :: '/' :: rest) ∧
      guardEndTags element (guardEndTags element text) = guardEndTags element text := by
  have bracketFree : '<' ∉ element.toList := by
    revert element
    decide
  have free := endTagFree_guardEndTags element text
  refine ⟨free, toList_guardEndTags bracketFree text, fun _ => exists_of_endTagBegins, ?_⟩
  apply String.toList_injective
  rw [toList_guardEndTags bracketFree (guardEndTags element text), brokenUp_of_free free]

/-- End tags in two cases, one of them cut short by the next, beside a letter
that is an ASCII letter in no case. -/
def tangledTags : String := "</s</STYLE>é</sTyle</ſtyle"

theorem guardEndTags_breaks_up_tangledTags :
    "style" ∈ rawElements ∧
      guardEndTags "style" tangledTags = "</s<\\/STYLE>é<\\/sTyle</ſtyle" ∧
      EndTagFree "style" (guardEndTags "style" tangledTags).toList ∧
      guardEndTags "style" (guardEndTags "style" tangledTags) = guardEndTags "style" tangledTags := by
  rcases guardEndTags_breaks_up "style" (by decide) tangledTags with ⟨free, -, -, again⟩
  exact ⟨by decide, by decide +kernel, free, again⟩

end Markup
end Pagewright
