import Pagewright.Proofs.Avoiding
import Pagewright.Script.Action

namespace Pagewright
namespace Script

/-!
# Brackets in code

Brackets are passed from left to right with a list of those that are waited
for, the innermost first.  Everything else in a text is passed over, so only the
sequence of its brackets counts, and a text whose variable parts hold none has
the brackets of its fixed parts.

Each code that a command stands for is such a text, provided that no argument
holds a bracket.  What is said about it is where it leads: a line leads back to
where it began, the head of a block leaves one brace to wait for, and so on.
The head of a callback may leave a parenthesis open as well, outside the
brace.
-/

def brackets : List Char := ['(', ')', '[', ']', '\x7b', '\x7d']

/-- The bracket that closes another. -/
def closer? : Char → Option Char
  | '(' => some ')'
  | '[' => some ']'
  | '\x7b' => some '\x7d'
  | _ => none

/-- Pass one character.  A closing bracket must be the one that is waited
for. -/
def passChar (waiting : List Char) (c : Char) : Option (List Char) :=
  match closer? c with
  | some closer => some (closer :: waiting)
  | none =>
      if c ∉ brackets then
        some waiting
      else if waiting.head? = some c then
        some waiting.tail
      else
        none

/-- Pass a text, with the brackets that are waited for in front of it and
behind it. -/
def nest (waiting text : List Char) : Option (List Char) :=
  text.foldlM passChar waiting

/-- Every bracket of the text is closed, in the order of nesting. -/
def Balanced (text : String) : Prop :=
  nest [] text.toList = some []

instance (text : String) : Decidable (Balanced text) :=
  inferInstanceAs (Decidable (nest [] text.toList = some []))

/-! ## Passing texts -/

theorem nest_cons (waiting : List Char) (c : Char) (cs : List Char) :
    nest waiting (c :: cs) = (passChar waiting c).bind fun after => nest after cs :=
  List.foldlM_cons

theorem nest_append (waiting front back : List Char) :
    nest waiting (front ++ back) = (nest waiting front).bind fun after => nest after back :=
  List.foldlM_append

theorem passChar_of_notMem {c : Char} (other : c ∉ brackets) (waiting : List Char) :
    passChar waiting c = some waiting := by
  have opens : closer? c = none := by
    unfold closer?
    split
    · exact absurd (by decide) other
    · exact absurd (by decide) other
    · exact absurd (by decide) other
    · rfl
  rw [passChar, opens]
  exact if_pos other

/-- A character opens a bracket, has nothing to do with brackets, or closes the
innermost one. -/
theorem passChar_cases {waiting after : List Char} {c : Char}
    (passed : passChar waiting c = some after) :
    (∃ closer, closer? c = some closer ∧ after = closer :: waiting) ∨
      (c ∉ brackets ∧ after = waiting) ∨
      (closer? c = none ∧ c ∈ brackets ∧ waiting = c :: after) := by
  unfold passChar at passed
  cases opens : closer? c with
  | some closer =>
      rw [opens] at passed
      cases passed
      exact .inl ⟨closer, rfl, rfl⟩
  | none =>
      rw [opens] at passed
      by_cases other : c ∉ brackets
      · rw [if_pos other] at passed
        cases passed
        exact .inr (.inl ⟨other, rfl⟩)
      · dsimp only at passed
        rw [if_neg other] at passed
        split at passed
        case isFalse => cases passed
        case isTrue top =>
            cases passed
            refine .inr (.inr ⟨rfl, Decidable.not_not.mp other, ?_⟩)
            rw [List.head?_eq_some_iff] at top
            rcases top with ⟨others, rfl⟩
            rfl

/-- Brackets that stay waited for do not matter. -/
theorem passChar_below {waiting after : List Char} {c : Char}
    (passed : passChar waiting c = some after) (below : List Char) :
    passChar (waiting ++ below) c = some (after ++ below) := by
  rcases passChar_cases passed with ⟨closer, opens, rfl⟩ | ⟨other, rfl⟩ | ⟨closes, member, rfl⟩
  · rw [passChar, opens, List.cons_append]
  · exact passChar_of_notMem other _
  · simp [passChar, closes, member]

theorem nest_below {waiting after text : List Char} (passed : nest waiting text = some after)
    (below : List Char) : nest (waiting ++ below) text = some (after ++ below) := by
  induction text generalizing waiting with
  | nil =>
      cases passed
      rfl
  | cons c cs ih =>
      rw [nest_cons] at passed ⊢
      rcases Option.bind_eq_some_iff.mp passed with ⟨middle, first, rest⟩
      rw [passChar_below first, Option.bind_some]
      exact ih rest

/-- The braces that a text leaves open are those that are waited for behind it
and were not before. -/
theorem count_of_nest {waiting after text : List Char} (passed : nest waiting text = some after) :
    waiting.count '\x7d' + text.count '\x7b' = after.count '\x7d' + text.count '\x7d' := by
  induction text generalizing waiting with
  | nil =>
      cases passed
      rfl
  | cons c cs ih =>
      rw [nest_cons] at passed
      rcases Option.bind_eq_some_iff.mp passed with ⟨middle, first, rest⟩
      have later := ih rest
      have here : waiting.count '\x7d' + [c].count '\x7b' =
          middle.count '\x7d' + [c].count '\x7d' := by
        rcases passChar_cases first with ⟨closer, opens, rfl⟩ | ⟨other, rfl⟩ | ⟨opens, _, rfl⟩
        · unfold closer? at opens
          split at opens <;> cases opens <;> simp
        · have notOpening : c ≠ '\x7b' := fun same => other (same ▸ by decide)
          have notClosing : c ≠ '\x7d' := fun same => other (same ▸ by decide)
          simp [notOpening, notClosing]
        · have notOpening : c ≠ '\x7b' := by
            rintro rfl
            cases opens
          simp [List.count_cons, notOpening]
      rw [← List.singleton_append, List.count_append, List.count_append]
      omega

/-! ## The brackets of a text -/

/-- The brackets of a text in their order. -/
def bracketsOf (text : String) : List Char :=
  text.toList.filter (· ∈ brackets)

theorem bracketsOf_append (front back : String) :
    bracketsOf (front ++ back) = bracketsOf front ++ bracketsOf back := by
  rw [bracketsOf, String.toList_append, List.filter_append]
  rfl

theorem bracketsOf_of_avoids {text : String} (avoids : Text.Avoids brackets text) :
    bracketsOf text = [] := by
  rw [bracketsOf, List.filter_eq_nil_iff]
  intro c member
  simpa using avoids c member

/-- Only brackets count. -/
theorem nest_filter (waiting text : List Char) :
    nest waiting (text.filter (· ∈ brackets)) = nest waiting text := by
  induction text generalizing waiting with
  | nil => rfl
  | cons c cs ih =>
      by_cases bracket : c ∈ brackets
      · rw [List.filter_cons_of_pos (by simpa using bracket), nest_cons, nest_cons]
        simp only [ih]
      · rw [List.filter_cons_of_neg (by simpa using bracket), ih, nest_cons,
          passChar_of_notMem bracket, Option.bind_some]

end Script
end Pagewright
