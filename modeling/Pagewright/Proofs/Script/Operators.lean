import Mathlib.Data.List.Forall2
import Pagewright.Proofs.Avoiding
import Pagewright.Script.Expression
import Pagewright.Text.Ranges

namespace Pagewright
namespace Script

/-!
# Operators in conditions

Words for operators are parts of each other, and one of them is a single letter
that stands in many names.  A word must therefore be looked up as a whole, from
one separator to the next, and the reader of a condition gets there character by
character with a word that is still open.

What it does is fixed by two laws.  A separator stays where it is, and the texts
on both sides of it are treated apart; a text without separators is looked up.
Any two functions with these laws are the same, because a condition is divided
into words and separators in exactly one way.  That nothing is left to replace
afterwards follows from the laws too.
-/

/-! ## Words -/

/-- The code points with the property `White_Space`. -/
def whiteSpace : Text.Ranges :=
  [(0x0009, 0x000D), (0x0020, 0x0020), (0x0085, 0x0085), (0x00A0, 0x00A0), (0x1680, 0x1680),
    (0x2000, 0x200A), (0x2028, 0x2029), (0x202F, 0x202F), (0x205F, 0x205F), (0x3000, 0x3000)]

theorem isBlank_iff {c : Char} : Text.isBlank c = true ↔
    ∃ range ∈ whiteSpace, range.1 ≤ c.toNat ∧ c.toNat ≤ range.2 := by
  simp only [Text.isBlank, whiteSpace, List.mem_cons, List.not_mem_nil, or_false, exists_eq_or_imp,
    exists_eq_left, Bool.or_eq_true, Bool.and_eq_true, decide_eq_true_eq, beq_iff_eq]
  omega

theorem isSeparator_iff {c : Char} : isSeparator c = true ↔
    c = '(' ∨ c = ')' ∨ ∃ range ∈ whiteSpace, range.1 ≤ c.toNat ∧ c.toNat ≤ range.2 := by
  rw [isSeparator, Bool.or_eq_true, Bool.or_eq_true, decide_eq_true_eq, decide_eq_true_eq,
    isBlank_iff, or_assoc, or_comm, or_assoc]

/-- No separator stands in a word. -/
def Unbroken (word : String) : Prop :=
  ∀ c ∈ word.toList, isSeparator c = false

/-- What stands for a word in a script: the operator that the table has for it,
or the word itself if the table does not have it. -/
inductive Replaced (word : String) : String → Prop
  | operator {sign : String} (listed : (word, sign) ∈ operators) : Replaced word sign
  | kept (unlisted : ∀ sign, (word, sign) ∉ operators) : Replaced word word

/-- The table has one operator for a word. -/
theorem lookup_of_listed {word sign : String} (listed : (word, sign) ∈ operators) :
    operators.lookup word = some sign := by
  have once : (operators.all fun entry => operators.lookup entry.1 == some entry.2) = true := by
    decide +kernel
  exact beq_iff_eq.mp (List.all_eq_true.mp once (word, sign) listed)

theorem replaced_iff {word result : String} :
    Replaced word result ↔ result = String.ofList (operatorNamed word.toList) := by
  rw [operatorNamed, String.ofList_toList]
  cases found : operators.lookup word with
  | some sign =>
      rw [String.ofList_toList]
      constructor
      · intro replaced
        cases replaced with
        | operator listed => exact Option.some.inj ((lookup_of_listed listed).symm.trans found)
        | kept unlisted => exact absurd (mem_of_lookup found) (unlisted sign)
      · rintro rfl
        exact .operator (mem_of_lookup found)
  | none =>
      have unlisted : ∀ sign, (word, sign) ∉ operators := by
        intro sign listed
        rw [lookup_of_listed listed] at found
        cases found
      dsimp only
      rw [String.ofList_toList]
      constructor
      · intro replaced
        cases replaced with
        | operator listed => exact absurd listed (unlisted _)
        | kept => rfl
      · rintro rfl
        exact .kept unlisted

/-- What stands for a word is neither broken nor looked up again. -/
theorem Replaced.settled {word result : String} (replaced : Replaced word result)
    (unbroken : Unbroken word) : Unbroken result ∧ ∀ sign, (result, sign) ∉ operators := by
  cases replaced with
  | kept unlisted => exact ⟨unbroken, unlisted⟩
  | operator listed =>
      have signs : (operators.all fun entry => (entry.2.toList.all fun c => !isSeparator c) &&
          (operators.lookup entry.2).isNone) = true := by
        decide +kernel
      have sign := List.all_eq_true.mp signs _ listed
      rw [Bool.and_eq_true] at sign
      constructor
      · intro c member
        simpa using List.all_eq_true.mp sign.1 c member
      · intro other again
        rw [lookup_of_listed again] at sign
        cases sign.2

/-! ## Words and separators -/

/-- The text of a first word and of separators, each with the word behind it. -/
def laid (first : String) : List (Char × String) → String
  | [] => first
  | (c, word) :: later => first ++ String.singleton c ++ laid word later

/-- A condition divided at its separators.  The words between them are as long as
they can be; between neighbouring separators they are empty. -/
structure Divides (first : String) (later : List (Char × String)) (condition : String) : Prop where
  whole : laid first later = condition
  first : Unbroken first
  later : ∀ entry ∈ later, isSeparator entry.1 = true ∧ Unbroken entry.2

/-- Put one character in front of a divided condition. -/
def divideStep (c : Char) (parts : String × List (Char × String)) : String × List (Char × String) :=
  if isSeparator c then ("", (c, parts.1) :: parts.2)
  else (String.singleton c ++ parts.1, parts.2)

/-- Divide a condition at its separators. -/
def divide (condition : List Char) : String × List (Char × String) :=
  condition.foldr divideStep ("", [])

theorem laid_append (front first : String) (later : List (Char × String)) :
    laid (front ++ first) later = front ++ laid first later := by
  cases later with
  | nil => rfl
  | cons entry later => simp only [laid, String.append_assoc]

theorem divides_divide (condition : List Char) :
    Divides (divide condition).1 (divide condition).2 (String.ofList condition) := by
  induction condition with
  | nil =>
      refine ⟨rfl, fun c member => ?_, fun entry member => ?_⟩
      · cases member
      · cases member
  | cons c condition ih =>
      have text : String.ofList (c :: condition) = String.singleton c ++ String.ofList condition := by
        rw [← String.toList_inj]
        simp
      rw [divide, List.foldr_cons, ← divide, divideStep, text, ← ih.whole]
      cases separates : isSeparator c with
      | true =>
          rw [if_pos rfl]
          refine ⟨?_, fun c member => ?_, List.forall_mem_cons.mpr ⟨⟨separates, ih.first⟩, ih.later⟩⟩
          · rw [laid, String.empty_append]
          · cases member
      | false =>
          rw [if_neg Bool.false_ne_true]
          refine ⟨laid_append _ _ _, ?_, ih.later⟩
          intro other member
          rw [String.toList_append, String.toList_singleton, List.singleton_append,
            List.mem_cons] at member
          rcases member with rfl | inside
          · exact separates
          · exact ih.first other inside

theorem foldr_divideStep_word {word : List Char} (unbroken : ∀ c ∈ word, isSeparator c = false)
    (parts : String × List (Char × String)) :
    word.foldr divideStep parts = (String.ofList word ++ parts.1, parts.2) := by
  induction word with
  | nil => simp
  | cons c word ih =>
      rw [List.foldr_cons, ih (fun other member => unbroken other (List.mem_cons_of_mem c member)),
        divideStep, unbroken c List.mem_cons_self, if_neg Bool.false_ne_true]
      refine Prod.ext ?_ rfl
      rw [← String.toList_inj]
      simp

/-- A condition is divided in one way only. -/
theorem Divides.eq_divide {first : String} {later : List (Char × String)} {condition : String}
    (divides : Divides first later condition) : (first, later) = divide condition.toList := by
  rcases divides with ⟨rfl, unbroken, proper⟩
  induction later generalizing first with
  | nil =>
      rw [laid, divide, foldr_divideStep_word unbroken]
      simp
  | cons entry later ih =>
      rcases entry with ⟨c, word⟩
      rcases List.forall_mem_cons.mp proper with ⟨⟨separates, whole⟩, rest⟩
      have behind := ih whole rest
      rw [divide] at behind
      rw [laid, divide, String.toList_append, String.toList_append, String.toList_singleton,
        List.append_assoc, List.foldr_append, List.singleton_append, List.foldr_cons, ← behind,
        divideStep, if_pos separates, foldr_divideStep_word unbroken]
      simp

/-! ## The two laws -/

/-- A function that treats the texts around a separator apart and replaces each
text without separators as one word. -/
structure Substitutes (f : String → String) : Prop where
  apart : ∀ front c back, isSeparator c = true →
    f (front ++ String.singleton c ++ back) = f front ++ String.singleton c ++ f back
  word : ∀ word, Unbroken word → Replaced word (f word)

namespace Substitutes

variable {f g : String → String}

/-- Each word is replaced, and the separators stay in place. -/
theorem exists_replaced (law : Substitutes f) {first : String} {later : List (Char × String)}
    {condition : String} (divides : Divides first later condition) :
    ∃ result others, Replaced first result ∧
      List.Forall₂ (fun old new => new.1 = old.1 ∧ Replaced old.2 new.2) later others ∧
      f condition = laid result others := by
  rcases divides with ⟨rfl, unbroken, proper⟩
  induction later generalizing first with
  | nil => exact ⟨f first, [], law.word first unbroken, .nil, rfl⟩
  | cons entry later ih =>
      rcases entry with ⟨c, word⟩
      rcases List.forall_mem_cons.mp proper with ⟨⟨separates, whole⟩, rest⟩
      rcases ih whole rest with ⟨result, others, replaced, pairs, behind⟩
      refine ⟨f first, (c, result) :: others, law.word first unbroken, .cons ⟨rfl, replaced⟩ pairs, ?_⟩
      rw [laid, law.apart _ _ _ separates, behind, laid]

/-- The laws leave no choice. -/
theorem eq_of_laws (left : Substitutes f) (right : Substitutes g) : f = g := by
  funext condition
  have divides := divides_divide condition.toList
  rw [String.ofList_toList] at divides
  generalize (divide condition.toList).1 = first, (divide condition.toList).2 = later at divides
  rcases divides with ⟨rfl, unbroken, proper⟩
  induction later generalizing first with
  | nil =>
      rw [laid, replaced_iff.mp (left.word first unbroken), replaced_iff.mp (right.word first unbroken)]
  | cons entry later ih =>
      rcases entry with ⟨c, word⟩
      rcases List.forall_mem_cons.mp proper with ⟨⟨separates, whole⟩, rest⟩
      rw [laid, left.apart _ _ _ separates, right.apart _ _ _ separates,
        replaced_iff.mp (left.word first unbroken), replaced_iff.mp (right.word first unbroken),
        ih word whole rest]

/-- Doing it twice has the same laws. -/
theorem twice (law : Substitutes f) : Substitutes fun condition => f (f condition) where
  apart := by
    intro front c back separates
    rw [law.apart _ _ _ separates, law.apart _ _ _ separates]
  word := by
    intro word unbroken
    have replaced := law.word word unbroken
    rcases replaced.settled unbroken with ⟨solid, unlisted⟩
    have again := law.word (f word) solid
    rw [replaced_iff.mp again, ← replaced_iff.mp (.kept unlisted)]
    exact replaced

end Substitutes

/-! ## The reader of conditions -/

/-- What has been read behind a text stays behind it. -/
theorem foldr_substituteStep_append (text first rest behind : List Char) :
    text.foldr substituteStep (first, rest ++ behind) =
      ((text.foldr substituteStep (first, rest)).1,
        (text.foldr substituteStep (first, rest)).2 ++ behind) := by
  induction text with
  | nil => rfl
  | cons c text ih =>
      rw [List.foldr_cons, ih, List.foldr_cons, substituteStep, substituteStep]
      split
      · simp only [List.cons_append, List.append_assoc]
      · rfl

theorem foldr_substituteStep_word {word : List Char} (unbroken : ∀ c ∈ word, isSeparator c = false)
    (first rest : List Char) :
    word.foldr substituteStep (first, rest) = (word ++ first, rest) := by
  induction word with
  | nil => rfl
  | cons c word ih =>
      rw [List.foldr_cons, ih (fun other member => unbroken other (List.mem_cons_of_mem c member)),
        substituteStep, unbroken c List.mem_cons_self, if_neg Bool.false_ne_true]
      rfl

theorem substitutes_substituteOperators : Substitutes substituteOperators where
  apart := by
    intro front c back separates
    have scanned := foldr_substituteStep_append front.toList [] []
      (c :: (substituteOperators back).toList)
    rw [← String.toList_inj]
    simp only [substituteOperators, String.toList_append, String.toList_singleton,
      String.toList_ofList, List.append_assoc, List.singleton_append, List.foldr_append,
      List.foldr_cons, substituteStep, if_pos separates, List.nil_append] at scanned ⊢
    rw [scanned]
  word := by
    intro word unbroken
    rw [replaced_iff, substituteOperators, foldr_substituteStep_word unbroken]
    simp

/-- A condition is divided at its blanks and parentheses in exactly one way.  These
stay in place and in order, and each stretch between them becomes its operator if
the table has it as a whole, and is kept if not.  This is all that the two laws
say: nothing else treats the texts around a separator apart and looks up a text
without separators.  Replacing once more changes nothing. -/
theorem substitution_by_words :
    (∀ c, isSeparator c = true ↔
        c = '(' ∨ c = ')' ∨ ∃ range ∈ whiteSpace, range.1 ≤ c.toNat ∧ c.toNat ≤ range.2) ∧
      (∀ condition, ∃ first later, Divides first later condition ∧
        (∀ first' later', Divides first' later' condition → first' = first ∧ later' = later) ∧
        ∃ result others, Replaced first result ∧
          List.Forall₂ (fun old new => new.1 = old.1 ∧ Replaced old.2 new.2) later others ∧
          substituteOperators condition = laid result others) ∧
      (∀ front c back, isSeparator c = true →
        substituteOperators (front ++ String.singleton c ++ back) =
          substituteOperators front ++ String.singleton c ++ substituteOperators back) ∧
      (∀ word, Unbroken word → Replaced word (substituteOperators word)) ∧
      (∀ condition, substituteOperators (substituteOperators condition) =
        substituteOperators condition) ∧
      ∀ f, Substitutes f ↔ f = substituteOperators := by
  have law := substitutes_substituteOperators
  refine ⟨fun _ => isSeparator_iff, fun condition => ?_, law.apart, law.word, fun condition => ?_,
    fun f => ⟨fun other => ?_, ?_⟩⟩
  · have divides := divides_divide condition.toList
    rw [String.ofList_toList] at divides
    refine ⟨_, _, divides, fun first later other => ?_, law.exists_replaced divides⟩
    exact Prod.ext_iff.mp other.eq_divide
  · exact congrFun (law.twice.eq_of_laws law) condition
  · exact other.eq_of_laws law
  · rintro rfl
    exact law

example : substituteOperators "(س أكبر_أو_يساوي ص)و ليس\tواحد" = "(س >= ص)&& !\tواحد" := by
  decide +kernel

end Script
end Pagewright
