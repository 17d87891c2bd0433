import Mathlib.Data.List.Nodup
import Mathlib.Data.List.Pairwise
import Mathlib.Data.List.Perm.Subperm
import Mathlib.Data.Set.Subsingleton
import Mathlib.Logic.Relation
import Pagewright.Genre
import Pagewright.Proofs.Avoiding

namespace Pagewright

/-!
# What decides the genre of a source

The guess counts commands, looks for commands that one target alone knows, and
breaks ties by the order of the targets, as if a key could belong to several
vocabularies.  No key does.  So every command that counts for a target is one of
that target alone, and as soon as two targets have a count above zero the source
is mixed.  What is left for the counts to decide is nothing: the answer follows
from the set of vocabularies that occur.

A set does not know how often or in which order its members were met.  Lines may
therefore be moved and repeated, and lines that say nothing may come and go.
-/

/-! ## Vocabularies are disjoint -/

namespace Target

/-- The keys in the table of commands of a target. -/
def vocabularyKeys : Target → List String
  | .page => Page.vocabulary.map Prod.fst
  | .stylesheet => Stylesheet.vocabulary.map Prod.fst
  | .script => Script.vocabulary.map Prod.fst

theorem knows_iff {target : Target} {key : String} :
    target.knows key = true ↔ key ∈ target.vocabularyKeys := by
  have listed : ∀ {α : Type} (table : List (String × α)),
      (table.lookup key).isSome = true ↔ key ∈ table.map Prod.fst := by
    intro α table
    rw [List.lookup_isSome_iff, List.mem_map]
    constructor
    · rintro ⟨entry, member, same⟩
      exact ⟨entry, member, (beq_iff_eq.mp same).symm⟩
    · rintro ⟨entry, member, same⟩
      exact ⟨entry, member, beq_iff_eq.mpr same.symm⟩
  cases target with
  | page => exact listed Page.vocabulary
  | stylesheet => exact listed Stylesheet.vocabulary
  | script => exact listed Script.vocabulary

theorem mem_all (target : Target) : target ∈ all := by
  cases target <;> decide

/-- The bytes of a key as one number.  Numbers are compared faster than texts. -/
def keyNumber (key : String) : Nat :=
  key.toByteArray.data.toList.foldr (fun byte number => number * 256 + byte.toNat) 1

theorem pairwise_apart :
    all.Pairwise fun first second =>
      (first.vocabularyKeys.all fun key =>
        second.vocabularyKeys.all fun other => !(keyNumber key == keyNumber other)) = true := by
  decide +kernel

/-- No key stands in two tables. -/
theorem eq_of_knows {first second : Target} {key : String} (left : first.knows key = true)
    (right : second.knows key = true) : first = second := by
  have apart : all.Pairwise fun first second =>
      ¬∃ key, first.knows key = true ∧ second.knows key = true := by
    refine pairwise_apart.imp ?_
    rintro first second different ⟨key, left, right⟩
    have numbers := List.all_eq_true.mp (List.all_eq_true.mp different key (knows_iff.mp left)) key
      (knows_iff.mp right)
    rw [beq_self_eq_true] at numbers
    cases numbers
  have symmetric : Std.Symm fun first second : Target =>
      ¬∃ key, first.knows key = true ∧ second.knows key = true := by
    constructor
    rintro first second none ⟨key, left, right⟩
    exact none ⟨key, right, left⟩
  by_contra different
  exact apart.forall (mem_all first) (mem_all second) different ⟨key, left, right⟩

end Target

namespace Genre

/-! ## Counts and vocabularies -/

section Keys

variable {keys : List String} {target : Target}

/-- The targets that know some of the keys. -/
def known (keys : List String) : Set Target :=
  {target | ∃ key ∈ keys, key ∈ target.vocabularyKeys}

theorem mem_known : target ∈ known keys ↔ ∃ key ∈ keys, target.knows key = true := by
  simp only [known, Set.mem_ofPred_eq, Target.knows_iff]

theorem score_pos_iff : 0 < score keys target ↔ target ∈ known keys := by
  rw [score, List.countP_pos_iff, mem_known]

/-- A target has a key of its own as soon as it knows one. -/
theorem hasOwn_iff : hasOwn keys target = true ↔ target ∈ known keys := by
  have alone : ∀ key, (Target.all.filter (Target.knows · key) == [target]) = true ↔
      target.knows key = true := by
    intro key
    rw [beq_iff_eq]
    constructor
    · intro only
      have member : target ∈ Target.all.filter (Target.knows · key) := by
        rw [only]
        exact List.mem_singleton_self target
      exact (List.mem_filter.mp member).2
    · intro here
      have others : ∀ other, other.knows key = decide (other = target) := by
        intro other
        rw [Bool.eq_iff_iff, decide_eq_true_iff]
        constructor
        · exact fun there => Target.eq_of_knows there here
        · rintro rfl
          exact here
      rw [funext others]
      cases target <;> rfl
  rw [hasOwn, List.any_eq_true, mem_known]
  simp only [alone]

theorem one_lt_iff : 1 < (Target.all.filter (hasOwn keys)).length ↔ (known keys).Nontrivial := by
  have distinct : (Target.all.filter (hasOwn keys)).Nodup := by
    apply List.Nodup.filter
    decide
  constructor
  · intro several
    cases listed : Target.all.filter (hasOwn keys) with
    | nil =>
        rw [listed] at several
        cases several
    | cons first others =>
        cases others with
        | nil =>
            rw [listed] at several
            exact absurd several (Nat.lt_irrefl 1)
        | cons second others =>
            have member : ∀ target ∈ first :: second :: others, target ∈ known keys := by
              intro target inside
              rw [← listed] at inside
              exact hasOwn_iff.mp (List.mem_filter.mp inside).2
            rw [listed, List.nodup_cons] at distinct
            refine ⟨first, member first List.mem_cons_self, second,
              member second (List.mem_cons_of_mem first List.mem_cons_self), ?_⟩
            rintro rfl
            exact distinct.1 List.mem_cons_self
  · rintro ⟨first, inFirst, second, inSecond, different⟩
    have inside : [first, second] ⊆ Target.all.filter (hasOwn keys) := by
      intro target member
      refine List.mem_filter.mpr ⟨Target.mem_all target, hasOwn_iff.mpr ?_⟩
      simp only [List.mem_cons, List.not_mem_nil, or_false] at member
      rcases member with rfl | rfl
      · exact inFirst
      · exact inSecond
    have pair : [first, second].Nodup := by
      simpa using different
    exact (List.subperm_of_subset pair inside).length_le

/-- A target without a rival is the favourite, if it has a count or is the
page. -/
theorem favourite_of_no_rival (rivals : ∀ other, other ≠ target → score keys other = 0)
    (favoured : 0 < score keys target ∨ target = .page) : favourite keys = target := by
  unfold favourite
  cases target with
  | page =>
      have second := rivals .stylesheet (by decide)
      have third := rivals .script (by decide)
      simp [second, third]
  | stylesheet =>
      have first := rivals .page (by decide)
      have third := rivals .script (by decide)
      have count := favoured.resolve_right (by decide)
      simp [first, third, count]
  | script =>
      have first := rivals .page (by decide)
      have second := rivals .stylesheet (by decide)
      have count := favoured.resolve_right (by decide)
      simp [first, second, count]

theorem score_eq_zero_iff : score keys target = 0 ↔ target ∉ known keys := by
  rw [← score_pos_iff, Nat.pos_iff_ne_zero, not_not]

theorem ofKeys_of_nontrivial (several : (known keys).Nontrivial) : ofKeys keys = .mixed := by
  rw [ofKeys, if_pos (one_lt_iff.mpr several)]

theorem ofKeys_of_singleton (single : known keys = {target}) : ofKeys keys = .only target := by
  have few : ¬(known keys).Nontrivial := by
    rw [single]
    exact Set.not_nontrivial_singleton
  rw [ofKeys, if_neg (mt one_lt_iff.mp few), favourite_of_no_rival]
  · intro other different
    rw [score_eq_zero_iff, single]
    exact different
  · refine .inl (score_pos_iff.mpr ?_)
    rw [single]
    rfl

theorem ofKeys_of_empty (empty : known keys = ∅) : ofKeys keys = .only .page := by
  have few : ¬(known keys).Nontrivial := by
    rw [empty]
    exact Set.not_nontrivial_empty
  rw [ofKeys, if_neg (mt one_lt_iff.mp few), favourite_of_no_rival]
  · intro other _
    rw [score_eq_zero_iff, empty]
    exact Set.notMem_empty other
  · exact .inr rfl

end Keys

/-! ## Lines -/

/-- The texts of the lines of a source. -/
def texts (source : String) : List String :=
  (SourceLine.ofSource source).map SourceLine.text

/-- A line that holds a command of a target. -/
def Speaks (target : Target) (text : String) : Prop :=
  ∃ command, Command.ofLine? text = some command ∧ command.key ∈ target.vocabularyKeys

/-- Some line of a source is a section marker. -/
def Marked (source : String) : Prop :=
  ∃ text ∈ texts source, (Marker.ofText? text).isSome = true

/-- The targets whose vocabularies occur in a source. -/
def vocabularies (source : String) : Set Target :=
  {target | ∃ text ∈ texts source, Speaks target text}

theorem known_keys (source : String) :
    known (keys (SourceLine.ofSource source)) = vocabularies source := by
  ext target
  simp only [known, vocabularies, Set.mem_ofPred_eq, keys, texts, Speaks, List.mem_filterMap,
    List.mem_map, Option.map_eq_some_iff]
  constructor
  · rintro ⟨key, ⟨line, member, command, reads, rfl⟩, listed⟩
    exact ⟨line.text, ⟨line, member, rfl⟩, command, reads, listed⟩
  · rintro ⟨text, ⟨line, member, rfl⟩, command, reads, listed⟩
    exact ⟨command.key, ⟨line, member, command, reads, rfl⟩, listed⟩

theorem marked_iff (source : String) :
    ((SourceLine.ofSource source).any fun line => (Marker.ofText? line.text).isSome) = true ↔
      Marked source := by
  rw [List.any_eq_true, Marked, texts]
  simp only [List.mem_map, exists_exists_and_eq_and]

theorem ofSource_of_marked {source : String} (marked : Marked source) : ofSource source = .mixed := by
  rw [ofSource]
  exact if_pos ((marked_iff source).mpr marked)

theorem ofSource_of_unmarked {source : String} (unmarked : ¬Marked source) :
    ofSource source = ofKeys (keys (SourceLine.ofSource source)) := by
  rw [ofSource]
  exact if_neg (mt (marked_iff source).mp unmarked)

/-- Without markers, sources with the same vocabularies are of one genre. -/
theorem ofSource_eq_of_vocabularies {source other : String} (markers : Marked source ↔ Marked other)
    (same : vocabularies source = vocabularies other) : ofSource source = ofSource other := by
  by_cases marked : Marked source
  · rw [ofSource_of_marked marked, ofSource_of_marked (markers.mp marked)]
  · rw [ofSource_of_unmarked marked, ofSource_of_unmarked (mt markers.mpr marked)]
    rw [← known_keys, ← known_keys] at same
    rcases (known (keys (SourceLine.ofSource source))).subsingleton_or_nontrivial with few | several
    · rcases few.eq_empty_or_singleton with empty | ⟨target, single⟩
      · rw [ofKeys_of_empty empty, ofKeys_of_empty (same ▸ empty)]
      · rw [ofKeys_of_singleton single, ofKeys_of_singleton (same ▸ single)]
    · rw [ofKeys_of_nontrivial several, ofKeys_of_nontrivial (same ▸ several)]

/-! ## Edits -/

/-- A line that says nothing about the genre: it is no marker, and either blank or
a comment or a command with a key that stands in no table. -/
structure Idle (text : String) : Prop where
  unmarked : Marker.ofText? text = none
  unknown : ∀ command, Command.ofLine? text = some command →
    ∀ target : Target, command.key ∉ target.vocabularyKeys

instance (text : String) : Decidable (Idle text) :=
  decidable_of_iff ((Marker.ofText? text).isNone = true ∧
      ((Command.ofLine? text).all fun command =>
        Target.all.all fun target => !target.knows command.key) = true) <| by
    rw [Option.isNone_iff_eq_none, Option.all_eq_true]
    constructor
    · rintro ⟨unmarked, unknown⟩
      refine ⟨unmarked, fun command reads target listed => ?_⟩
      have absent := List.all_eq_true.mp (unknown command reads) target (Target.mem_all target)
      rw [Target.knows_iff.mpr listed] at absent
      cases absent
    · rintro ⟨unmarked, unknown⟩
      refine ⟨unmarked, fun command reads => List.all_eq_true.mpr fun target _ => ?_⟩
      rw [Bool.not_eq_true', Bool.eq_false_iff]
      exact fun knows => unknown command reads target (Target.knows_iff.mp knows)

/-- One edit of a list of lines: the lines are put in another order, a line is
repeated anywhere, or a line that says nothing is added anywhere. -/
inductive Edit : List String → List String → Prop
  | reordered {before after : List String} (same : before.Perm after) : Edit before after
  | repeated {front back : List String} {text : String} (present : text ∈ front ++ back) :
      Edit (front ++ back) (front ++ text :: back)
  | added {front back : List String} {text : String} (idle : Idle text) :
      Edit (front ++ back) (front ++ text :: back)

section Edits

variable {before after : List String} {P : String → Prop}

/-- A line that is put in changes nothing about lines with a property if there was
one of them already, or the new line lacks the property. -/
theorem exists_mem_middle_iff {front back : List String} {added : String}
    (old : P added → ∃ text ∈ front ++ back, P text) :
    (∃ text ∈ front ++ back, P text) ↔ ∃ text ∈ front ++ added :: back, P text := by
  simp only [List.perm_middle.mem_iff, List.exists_mem_cons_iff]
  exact ⟨.inr, fun found => found.elim old id⟩

/-- What one edit does to lines that say something: there are such lines before
it when there are such lines behind it. -/
theorem Edit.exists_iff (edit : Edit before after) (telling : ∀ text, P text → ¬Idle text) :
    (∃ text ∈ before, P text) ↔ ∃ text ∈ after, P text := by
  cases edit with
  | reordered same => simp only [same.mem_iff]
  | repeated present => exact exists_mem_middle_iff fun holds => ⟨_, present, holds⟩
  | added idle => exact exists_mem_middle_iff fun holds => absurd idle (telling _ holds)

theorem exists_iff_of_edits (edits : Relation.EqvGen Edit before after)
    (telling : ∀ text, P text → ¬Idle text) :
    (∃ text ∈ before, P text) ↔ ∃ text ∈ after, P text := by
  induction edits with
  | rel before after edit => exact edit.exists_iff telling
  | refl => exact Iff.rfl
  | symm before after _ ih => exact ih.symm
  | trans before between after _ _ first second => exact first.trans second

end Edits

theorem ofSource_of_edits {source other : String}
    (edits : Relation.EqvGen Edit (texts source) (texts other)) : ofSource source = ofSource other := by
  apply ofSource_eq_of_vocabularies
  · apply exists_iff_of_edits edits
    intro text marker idle
    rw [idle.unmarked] at marker
    cases marker
  · ext target
    apply exists_iff_of_edits edits
    rintro text ⟨command, reads, listed⟩ idle
    exact idle.unknown command reads target listed

/-- Where there is an answer for one target, no other target has a count. -/
theorem score_of_rival {source : String} (unmarked : ¬Marked source) {target rival : Target}
    (answer : ofSource source = .only target) (different : rival ≠ target) :
    score (keys (SourceLine.ofSource source)) rival = 0 := by
  rw [ofSource_of_unmarked unmarked] at answer
  rw [score_eq_zero_iff]
  intro counted
  rcases (known (keys (SourceLine.ofSource source))).subsingleton_or_nontrivial with few | several
  · have single := few.eq_singleton_of_mem counted
    rw [ofKeys_of_singleton single] at answer
    exact different (Genre.only.inj answer)
  · rw [ofKeys_of_nontrivial several] at answer
    cases answer

/-- A source with a section marker is mixed.  Any other source is mixed if two
vocabularies occur in it, is of the one that occurs if there is only one, and is a
page if there is none.  No count is ever compared with another, because there is
at most one count above zero where an answer is needed.  So the genre stays the
same when lines are put in another order or repeated, and when lines that say
nothing are added or removed, in any number of edits. -/
theorem genre_of_vocabularies (source : String) :
    (Marked source → ofSource source = .mixed) ∧
      (¬Marked source →
        ((vocabularies source).Nontrivial → ofSource source = .mixed) ∧
        (∀ target, vocabularies source = {target} → ofSource source = .only target) ∧
        (vocabularies source = ∅ → ofSource source = .only .page) ∧
        ∀ target rival, ofSource source = .only target → rival ≠ target →
          score (keys (SourceLine.ofSource source)) rival = 0) ∧
      ∀ other, Relation.EqvGen Edit (texts source) (texts other) →
        ofSource other = ofSource source := by
  refine ⟨ofSource_of_marked, fun unmarked => ?_, fun other edits => (ofSource_of_edits edits).symm⟩
  rw [← known_keys]
  refine ⟨fun several => ?_, fun target single => ?_, fun empty => ?_, fun target rival => ?_⟩
  · rw [ofSource_of_unmarked unmarked, ofKeys_of_nontrivial several]
  · rw [ofSource_of_unmarked unmarked, ofKeys_of_singleton single]
  · rw [ofSource_of_unmarked unmarked, ofKeys_of_empty empty]
  · exact score_of_rival unmarked

/-- Three commands of scripts and one of stylesheets. -/
def lopsided : String := "while x\nelse\nلون red\nplus x y"

/-- The same commands in another order, one of them twice, with a comment and an
unknown command between them. -/
def reshuffled : String := "# x\nلون red\nطير\nwhile x\nplus x y\nelse\nwhile x"

theorem texts_lopsided : texts lopsided = ["while x", "else", "لون red", "plus x y"] := by decide +kernel

theorem texts_reshuffled :
    texts reshuffled = ["# x", "لون red", "طير", "while x", "plus x y", "else", "while x"] := by
  decide +kernel

/-- One command of another vocabulary outweighs any number of commands. -/
theorem genre_of_vocabularies_lopsided :
    ¬Marked lopsided ∧ (vocabularies lopsided).Nontrivial ∧ ofSource lopsided = .mixed ∧
      Relation.EqvGen Edit (texts lopsided) (texts reshuffled) ∧ ofSource reshuffled = .mixed := by
  have unmarked : ¬Marked lopsided := by
    have none : (["while x", "else", "لون red", "plus x y"].all fun text =>
        (Marker.ofText? text).isNone) = true := by decide +kernel
    rintro ⟨text, member, marker⟩
    rw [texts_lopsided] at member
    have absent := List.all_eq_true.mp none text member
    rw [Option.isNone_iff_eq_none.mp absent] at marker
    cases marker
  have several : (vocabularies lopsided).Nontrivial := by
    refine ⟨.stylesheet, ?_, .script, ?_, by decide⟩
    · refine ⟨"لون red", ?_, _, rfl, by decide +kernel⟩
      rw [texts_lopsided]
      decide
    · refine ⟨"else", ?_, _, rfl, by decide +kernel⟩
      rw [texts_lopsided]
      decide
  have idle : ∀ text ∈ ["# x", "طير"], Idle text := by decide +kernel
  have edits : Relation.EqvGen Edit (texts lopsided) (texts reshuffled) := by
    rw [texts_lopsided, texts_reshuffled]
    apply Relation.EqvGen.trans _ ["لون red", "while x", "plus x y", "else"] _
    · exact .rel _ _ (.reordered (by decide))
    apply Relation.EqvGen.trans _ ["لون red", "while x", "plus x y", "else", "while x"] _
    · exact .rel _ _ (@Edit.repeated ["لون red", "while x", "plus x y", "else"] [] "while x" (by decide))
    apply Relation.EqvGen.trans _ ["لون red", "طير", "while x", "plus x y", "else", "while x"] _
    · exact .rel _ _ (@Edit.added ["لون red"] _ "طير" (idle _ (by decide)))
    · exact .rel _ _ (@Edit.added [] _ "# x" (idle _ (by decide)))
  rcases genre_of_vocabularies lopsided with ⟨-, rules, same⟩
  have mixed := (rules unmarked).1 several
  exact ⟨unmarked, several, mixed, edits, (same reshuffled edits).trans mixed⟩

end Genre
end Pagewright
