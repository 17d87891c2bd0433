import Pagewright.Markup.EndTag
import Pagewright.Proofs.Markup.Tag
import Pagewright.Proofs.Text.Search

namespace Pagewright
namespace Markup

/-!
# Reading raw elements

A raw element ends at the first place that looks like its end tag, so what
matters about text inside it is where an end tag *begins*.  Breaking up the end
tags leaves no such place.  The text alone does not settle where the element
ends, because its last characters could be the beginning of an end tag that is
completed behind it; one character that occurs in no end tag keeps the two
apart.
-/

/-- No end tag of `element` begins anywhere in the text. -/
def EndTagFree (element : String) (text : List Char) : Prop :=
  ∀ back, back <:+ text → endTagBegins element back = false

theorem endTagFree_nil (element : String) : EndTagFree element [] := by
  intro back ending
  rw [List.suffix_nil.mp ending]
  rfl

theorem endTagFree_cons {element : String} {c : Char} {cs : List Char} :
    EndTagFree element (c :: cs) ↔
      endTagBegins element (c :: cs) = false ∧ EndTagFree element cs := by
  constructor
  · intro free
    exact ⟨free _ List.suffix_rfl, fun back ending => free back (ending.trans (List.suffix_cons c cs))⟩
  · rintro ⟨notHere, free⟩ back ending
    rcases List.suffix_cons_iff.mp ending with whole | later
    · rw [whole]
      exact notHere
    · exact free back later

/-! ## Case -/

/-- Changing to lower case leaves a character as it is, or adds 32 to the code
of a letter. -/
theorem toLower_cases (c : Char) :
    c.toLower = c ∨ c.val.toNat ≤ 90 ∧ 97 ≤ c.toLower.val.toNat ∧ c.toLower.val.toNat ≤ 122 := by
  unfold Char.toLower
  split
  case isFalse => exact .inl rfl
  case isTrue upper =>
      have low := UInt32.le_iff_toNat_le.mp upper.1
      have high := UInt32.le_iff_toNat_le.mp upper.2
      simp at low high ⊢
      omega

/-- A character in front of the letters is not the lower case of another
character. -/
theorem eq_of_toLower {c mark : Char} (early : mark.val.toNat < 97) (lowered : c.toLower = mark) :
    c = mark := by
  rcases toLower_cases c with same | ⟨-, lower, -⟩
  · exact same.symm.trans lowered
  · rw [lowered] at lower
    omega

theorem endTagBegins_cons (element : String) (c : Char) (cs : List Char) :
    endTagBegins element (c :: cs) =
      (decide (c = '<') && ('/' :: element.toList).isPrefixOf (cs.map Char.toLower)) := by
  by_cases bracket : c = '<'
  · subst bracket
    rfl
  · have different : ('<' == c.toLower) = false := by
      rw [beq_eq_false_iff_ne]
      exact fun same => bracket (eq_of_toLower (by decide) same.symm)
    simp only [endTagBegins, List.map_cons, List.isPrefixOf, different, bracket, Bool.false_and,
      decide_false]

theorem startsWithLowered_eq (lowered text : List Char) :
    startsWithLowered lowered text = lowered.isPrefixOf (text.map Char.toLower) := by
  apply Bool.eq_iff_iff.mpr
  rw [List.isPrefixOf_iff_prefix, List.prefix_iff_eq_take, startsWithLowered, beq_iff_eq,
    List.map_take]
  exact eq_comm

/-- What starts with a slash up to case starts with a slash. -/
theorem head?_of_startsWithLowered {name rest : List Char}
    (starts : startsWithLowered ('/' :: name) rest = true) : rest.head? = some '/' := by
  rw [startsWithLowered_eq, List.isPrefixOf_iff_prefix] at starts
  cases rest with
  | nil => cases List.prefix_nil.mp starts
  | cons c others =>
      rw [List.map_cons, List.cons_prefix_cons] at starts
      rw [List.head?_cons, eq_of_toLower (by decide) starts.1.symm]

/-! ## Breaking up end tags -/

/-- Only a bracket in front of a slash is looked at twice. -/
theorem guardChar_of_apart {c : Char} {rest : List Char}
    (apart : c = '<' → rest.head? ≠ some '/') (name : List Char) :
    guardChar name c rest = c :: rest := by
  unfold guardChar
  split
  case isTrue begins =>
      rw [Bool.and_eq_true, decide_eq_true_eq] at begins
      exact absurd (head?_of_startsWithLowered begins.2) (apart begins.1)
  case isFalse => rfl

/-- Text without a bracket in front of a slash stays as it is. -/
theorem guardEndTags_of_free {text : String} (free : ¬"</".toList <:+: text.toList) (name : String) :
    guardEndTags name text = text := by
  have kept : ∀ cs : List Char, ¬"</".toList <:+: cs →
      cs.foldr (guardChar name.toList) [] = cs := by
    intro cs
    induction cs with
    | nil => exact fun _ => rfl
    | cons c cs ih =>
        intro free
        rw [List.infix_cons_iff, not_or] at free
        rw [List.foldr_cons, ih free.2]
        apply guardChar_of_apart
        rintro rfl slash
        rcases List.head?_eq_some_iff.mp slash with ⟨rest, rfl⟩
        exact free.1 ⟨rest, rfl⟩
  rw [guardEndTags, kept _ free, String.ofList_toList]

/-- One character in front of a text without end tags. -/
theorem endTagFree_guardChar {element : String} (c : Char) {rest : List Char}
    (free : EndTagFree element rest) :
    EndTagFree element (guardChar element.toList c rest) := by
  unfold guardChar
  split
  case isTrue begins =>
      -- The backslash stands where the slash of an end tag would have to stand.
      refine endTagFree_cons.mpr ⟨?_, endTagFree_cons.mpr ⟨?_, free⟩⟩
      · rfl
      · rfl
  case isFalse harmless =>
      refine endTagFree_cons.mpr ⟨?_, free⟩
      rw [endTagBegins_cons, ← startsWithLowered_eq]
      exact Bool.eq_false_iff.mpr harmless

/-- A guarded text holds no end tag of its element. -/
theorem endTagFree_guardEndTags (element text : String) :
    EndTagFree element (guardEndTags element text).toList := by
  rw [guardEndTags, String.toList_ofList]
  induction text.toList with
  | nil => exact endTagFree_nil element
  | cons c cs ih => exact endTagFree_guardChar c ih

/-- Without end tags of any name, no bracket stands in front of a slash. -/
theorem EndTagFree.notInfix {text : List Char} (free : EndTagFree "" text) :
    ¬"</".toList <:+: text := by
  rintro ⟨front, back, rfl⟩
  have here : endTagBegins "" ("</".toList ++ back) = false :=
    free _ ⟨front, (List.append_assoc front "</".toList back).symm⟩
  exact Bool.false_ne_true (here.symm.trans rfl)

/-! ## Reading -/

private theorem endTagBegins_append {element : String} {stop : Char}
    (absent : stop.toLower ∉ '<' :: '/' :: element.toList) {text : List Char}
    (notHere : endTagBegins element text = false) (rest : List Char) :
    endTagBegins element (text ++ stop :: rest) = false := by
  refine Bool.eq_false_iff.mpr fun begins => ?_
  have reaches := List.isPrefixOf_iff_prefix.mp begins
  rw [List.map_append, List.map_cons] at reaches
  have inside := List.isPrefixOf_iff_prefix.mpr (Text.prefix_of_notMem absent reaches)
  exact Bool.eq_false_iff.mp notHere inside

/-- A character that occurs in no end tag can be put on either side of a text. -/
theorem EndTagFree.between {element : String} {text : List Char} {stop : Char}
    (absent : stop.toLower ∉ '<' :: '/' :: element.toList) (free : EndTagFree element text) :
    EndTagFree element (stop :: (text ++ [stop])) := by
  have alone : ∀ rest, endTagBegins element (stop :: rest) = false :=
    fun rest => endTagBegins_append absent (endTagFree_nil element [] List.suffix_rfl) rest
  refine endTagFree_cons.mpr ⟨alone _, ?_⟩
  induction text with
  | nil => exact endTagFree_cons.mpr ⟨alone [], endTagFree_nil element⟩
  | cons c cs ih =>
      have parts := endTagFree_cons.mp free
      exact endTagFree_cons.mpr ⟨endTagBegins_append absent parts.1 [], ih parts.2⟩

/-- Inside a raw element, text without an end tag is skipped, up to and
including a character that occurs in no end tag. -/
theorem Scans.raw {element : String} {text : List Char} {stop : Char}
    (absent : stop.toLower ∉ '<' :: '/' :: element.toList) (free : EndTagFree element text) :
    Scans (.raw element) (text ++ [stop]) [] (.raw element) := by
  intro rest
  simp only [List.nil_append, Option.map_id', List.append_assoc, List.singleton_append]
  induction text with
  | nil =>
      have notHere := endTagBegins_append absent (free [] List.suffix_rfl) rest
      rw [List.nil_append] at notHere ⊢
      rw [scanFrom, notHere]
      rfl
  | cons c cs ih =>
      have parts := endTagFree_cons.mp free
      have notHere := endTagBegins_append absent parts.1 rest
      rw [List.cons_append] at notHere ⊢
      rw [scanFrom, notHere]
      exact ih parts.2

/-- Inside a raw element, text without a bracket is skipped. -/
theorem Scans.rawPlain {element : String} {text : List Char} (bracketFree : '<' ∉ text) :
    Scans (.raw element) text [] (.raw element) := by
  intro rest
  simp only [List.nil_append, Option.map_id']
  induction text with
  | nil => rfl
  | cons c cs ih =>
      have different : c ≠ '<' := fun same => bracketFree (same ▸ List.mem_cons_self)
      have notHere : endTagBegins element (c :: (cs ++ rest)) = false := by
        simp only [endTagBegins_cons, different, decide_false, Bool.false_and]
      rw [List.cons_append, scanFrom, notHere]
      exact ih (List.not_mem_of_not_mem_cons bracketFree)

/-- A raw element ends with its end tag. -/
theorem Scans.rawStop {element : String} (member : element ∈ rawElements) :
    Scans (.raw element) ('<' :: ('/' :: element.toList ++ ['>'])) [.closing element] .content := by
  have lowered : element.toList.map Char.toLower = element.toList := by
    revert element
    decide
  have bracketFree : '>' ∉ '/' :: element.toList := by
    revert element
    decide
  have named : element.toList.all Tag.isNameChar = true := by
    revert element
    decide
  intro rest
  have begins : endTagBegins element ('<' :: ('/' :: element.toList ++ ['>'] ++ rest)) = true := by
    rw [endTagBegins_cons, List.append_assoc, List.map_append, List.map_cons, lowered]
    simp only [decide_true, Bool.true_and]
    exact List.isPrefixOf_iff_prefix.mpr (List.prefix_append _ _)
  -- From the bracket on, the end tag is read as any other tag.
  have read := Scans.tag bracketFree rest
  rw [List.cons_append, scanFrom, if_pos rfl, Tag.ofInside_closing (List.all_eq_true.mp named)] at read
  rw [List.cons_append, scanFrom, begins]
  exact read

end Markup
end Pagewright
