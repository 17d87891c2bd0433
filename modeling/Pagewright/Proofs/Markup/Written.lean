import Pagewright.Markup.Fragment
import Pagewright.Proofs.Markup.EndTag
import Pagewright.Proofs.Text.Search

namespace Pagewright
namespace Markup

/-!
# Reading what was written

A fragment is either a tag between brackets or a text without an opening
bracket, provided its names are plain and its verbatim text holds no bracket.
From this one fact both readings of a page follow: the tags that are read are
the tags that were written, with the same attributes, and an end tag is found
in the text exactly as often as it was written.

Nothing is asked of attribute values and texts, since escaping takes the
brackets and the quotes out of them.
-/

/-! ## What escaping leaves -/

private theorem mem_reference {reference : String}
    (harmless : (reference.toList.all fun c => c ∉ ['<', '>', '"', '\'']) = true) {c : Char}
    (member : c ∈ reference.toList) : c ≠ '<' ∧ c ≠ '>' ∧ c ≠ '"' ∧ c ≠ '\'' := by
  have other := List.all_eq_true.mp harmless c member
  simpa using other

private theorem mem_escapeChar {c given : Char} (member : c ∈ escapeChar given) :
    c ≠ '<' ∧ c ≠ '>' ∧ c ≠ '"' ∧ c ≠ '\'' := by
  unfold escapeChar at member
  split at member
  case h_6 => simp_all
  all_goals exact mem_reference (by decide) member

/-- Neither a bracket nor a quote is left in escaped text. -/
theorem mem_escape {c : Char} {text : String} (member : c ∈ (escape text).toList) :
    c ≠ '<' ∧ c ≠ '>' ∧ c ≠ '"' ∧ c ≠ '\'' := by
  rw [escape, String.toList_ofList, List.mem_flatMap] at member
  rcases member with ⟨given, -, written⟩
  exact mem_escapeChar written

/-! ## Plain names -/

/-- A name of letters and digits. -/
def IsPlain (name : String) : Prop :=
  name.toList ≠ [] ∧ name.toList.all Char.isAlphanum = true

instance (name : String) : Decidable (IsPlain name) :=
  inferInstanceAs (Decidable (_ ∧ _))

namespace IsPlain

variable {name : String}

theorem isAlphanum (plain : IsPlain name) (c : Char) (member : c ∈ name.toList) :
    c.isAlphanum = true :=
  List.all_eq_true.mp plain.2 c member

theorem isNameChar (plain : IsPlain name) (c : Char) (member : c ∈ name.toList) :
    Tag.isNameChar c = true := by
  have alphanumeric : c.isAlphanum = true := plain.isAlphanum c member
  delta Char.isAlphanum at alphanumeric
  delta Char.isAlpha Char.isDigit at alphanumeric
  delta Char.isUpper Char.isLower at alphanumeric
  simp [UInt32.le_iff_toNat_le] at alphanumeric
  simp [Tag.isNameChar, Text.isBlank]
  omega

/-- A character that is neither a letter nor a digit is in no plain name. -/
theorem notMem (plain : IsPlain name) {c : Char} (other : c.isAlphanum = false) :
    c ∉ name.toList := by
  intro member
  rw [plain.isAlphanum c member] at other
  exact Bool.noConfusion other

end IsPlain

/-! ## Attributes -/

namespace Attribute

/-- The attributes of a tag, as they stand behind its name. -/
def renderAll (attributes : List Attribute) : String :=
  String.join (attributes.map render)

/-- The attribute as it is read. -/
def read (given : Attribute) : String × String :=
  (given.name, escape given.value)

theorem toList_renderAll_cons (given : Attribute) (others : List Attribute) :
    (renderAll (given :: others)).toList =
      ' ' :: (given.name.toList ++ '=' :: '"' ::
        ((escape given.value).toList ++ '"' :: (renderAll others).toList)) := by
  simp only [renderAll, render, List.map_cons, String.join_cons, String.toList_append,
    String.reduceToList, List.append_assoc, List.cons_append, List.nil_append]

/-- No bracket stands among the attributes of a tag. -/
theorem notMem_renderAll {attributes : List Attribute}
    (plain : ∀ given ∈ attributes, IsPlain given.name) :
    '<' ∉ (renderAll attributes).toList ∧ '>' ∉ (renderAll attributes).toList := by
  induction attributes with
  | nil => decide
  | cons given others ih =>
      have named := plain given List.mem_cons_self
      have rest := ih fun other member => plain other (List.mem_cons_of_mem given member)
      have opening : '<' ∉ (escape given.value).toList := fun member => (mem_escape member).1 rfl
      have closing : '>' ∉ (escape given.value).toList := fun member => (mem_escape member).2.1 rfl
      rw [toList_renderAll_cons]
      simp [named.notMem, rest, opening, closing]

private theorem attributesFrom_name {name : String} (plain : IsPlain name) (rest : List Char) :
    Tag.attributesFrom .gap (name.toList ++ '=' :: '"' :: rest) =
      Tag.attributesFrom (.value name []) rest := by
  -- The first character begins the name and the others continue it.
  have continued : ∀ (more reversed : List Char), (∀ c ∈ more, c.isAlphanum = true) →
      (∀ c ∈ more, Tag.isNameChar c = true) →
      Tag.attributesFrom (.name reversed) (more ++ '=' :: '"' :: rest) =
        Tag.attributesFrom (.value (String.ofList (reversed.reverse ++ more)) []) rest := by
    intro more
    induction more with
    | nil =>
        intro reversed _ _
        simp [Tag.attributesFrom]
    | cons c cs ih =>
        intro reversed alphanumeric named
        have notQuote : c ≠ '"' := by
          rintro rfl
          exact absurd (alphanumeric _ List.mem_cons_self) (by decide)
        have notEquals : c ≠ '=' := by
          rintro rfl
          exact absurd (alphanumeric _ List.mem_cons_self) (by decide)
        have notBlank : Text.isBlank c = false := by
          simpa only [Tag.isNameChar, Bool.not_eq_true'] using named c List.mem_cons_self
        rw [List.cons_append, Tag.attributesFrom, if_neg notQuote, if_neg notEquals, notBlank,
          if_neg Bool.false_ne_true,
          ih _ (fun d member => alphanumeric d (List.mem_cons_of_mem c member))
            (fun d member => named d (List.mem_cons_of_mem c member))]
        simp only [List.reverse_cons, List.append_assoc, List.singleton_append]
  have named := plain.isNameChar
  have alphanumeric := plain.isAlphanum
  cases characters : name.toList with
  | nil => exact absurd characters plain.1
  | cons c cs =>
      rw [characters] at named alphanumeric
      have notBlank : Text.isBlank c = false := by
        simpa only [Tag.isNameChar, Bool.not_eq_true'] using named c List.mem_cons_self
      rw [List.cons_append, Tag.attributesFrom, notBlank, if_neg Bool.false_ne_true,
        continued cs [c] (fun d member => alphanumeric d (List.mem_cons_of_mem c member))
          (fun d member => named d (List.mem_cons_of_mem c member)),
        List.reverse_singleton, List.singleton_append, ← characters, String.ofList_toList]

private theorem attributesFrom_value (name : String) {value : List Char} (reversed rest : List Char)
    (unquoted : '"' ∉ value) :
    Tag.attributesFrom (.value name reversed) (value ++ '"' :: rest) =
      (name, String.ofList (reversed.reverse ++ value)) :: Tag.attributesFrom .gap rest := by
  induction value generalizing reversed with
  | nil => simp only [List.nil_append, Tag.attributesFrom, if_true, List.append_nil]
  | cons c cs ih =>
      have different : c ≠ '"' := fun same => unquoted (same ▸ List.mem_cons_self)
      rw [List.cons_append, Tag.attributesFrom, if_neg different,
        ih (c :: reversed) (List.not_mem_of_not_mem_cons unquoted)]
      simp only [List.reverse_cons, List.append_assoc, List.singleton_append]

/-- The attributes of a tag are read as they were written. -/
theorem attributesFrom_renderAll {attributes : List Attribute}
    (plain : ∀ given ∈ attributes, IsPlain given.name) :
    Tag.attributesFrom .gap (renderAll attributes).toList = attributes.map read := by
  induction attributes with
  | nil => rfl
  | cons given others ih =>
      have unquoted : '"' ∉ (escape given.value).toList := fun member => (mem_escape member).2.2.1 rfl
      have blank : Text.isBlank ' ' = true := by decide
      rw [toList_renderAll_cons, Tag.attributesFrom, if_pos blank,
        attributesFrom_name (plain given List.mem_cons_self), attributesFrom_value _ _ _ unquoted,
        ih fun other member => plain other (List.mem_cons_of_mem given member),
        List.reverse_nil, List.nil_append, String.ofList_toList]
      rfl

end Attribute

/-! ## Fragments -/

namespace Fragment

/-- A fragment that can be read back. -/
def IsSound : Fragment → Prop
  | .doctype | .text _ => True
  | .start element attributes =>
      IsPlain element ∧ ∀ given ∈ attributes, IsPlain given.name
  | .stop element => IsPlain element
  | .verbatim content => '<' ∉ content.toList

instance : DecidablePred IsSound
  | .doctype | .text _ => inferInstanceAs (Decidable True)
  | .start _ _ => inferInstanceAs (Decidable (_ ∧ _))
  | .stop element => inferInstanceAs (Decidable (IsPlain element))
  | .verbatim _ => inferInstanceAs (Decidable (_ ∉ _))

/-- The tag that a fragment is read as. -/
def tag? : Fragment → Option Tag
  | .doctype => some .doctype
  | .start element attributes => some (.opening element (attributes.map Attribute.read))
  | .stop element => some (.closing element)
  | .text _ | .verbatim _ => none

/-- What the reader is inside of behind a fragment. -/
def next (fragment : Fragment) : Mode :=
  (fragment.tag?.map Mode.after).getD .content

/-- The tags of a sequence of fragments. -/
def tags (fragments : List Fragment) : List Tag :=
  fragments.filterMap tag?

theorem tags_cons (fragment : Fragment) (fragments : List Fragment) :
    tags (fragment :: fragments) = fragment.tag?.toList ++ tags fragments := by
  cases tag : fragment.tag? <;> simp only [tags, List.filterMap_cons, tag] <;> rfl

theorem tags_append (front back : List Fragment) : tags (front ++ back) = tags front ++ tags back :=
  List.filterMap_append

private theorem ofInside_start {element : String} {attributes : List Attribute}
    (plain : IsPlain element) (plainNames : ∀ given ∈ attributes, IsPlain given.name) :
    Tag.ofInside (element.toList ++ (Attribute.renderAll attributes).toList) =
      .opening element (attributes.map Attribute.read) := by
  have taken := @List.takeWhile_append_of_pos _ _ _ (Attribute.renderAll attributes).toList
    plain.isNameChar
  have dropped := @List.dropWhile_append_of_pos _ _ _ (Attribute.renderAll attributes).toList
    plain.isNameChar
  -- The name ends with the tag, or with the blank in front of the first attribute.
  have taken : (element.toList ++ (Attribute.renderAll attributes).toList).takeWhile
      Tag.isNameChar = element.toList := by
    rw [taken]
    cases attributes with
    | nil => exact List.append_nil _
    | cons given others =>
        rw [Attribute.toList_renderAll_cons, List.takeWhile_cons_of_neg (by decide), List.append_nil]
  have dropped : (element.toList ++ (Attribute.renderAll attributes).toList).dropWhile
      Tag.isNameChar = (Attribute.renderAll attributes).toList := by
    rw [dropped]
    cases attributes with
    | nil => rfl
    | cons given others =>
        rw [Attribute.toList_renderAll_cons, List.dropWhile_cons_of_neg (by decide)]
  rw [← Attribute.attributesFrom_renderAll plainNames]
  cases characters : element.toList with
  | nil => exact absurd characters plain.1
  | cons first others =>
      have member : first ∈ element.toList := characters ▸ List.mem_cons_self
      have notBang : first ≠ '!' := fun same => plain.notMem (by decide) (same ▸ member)
      have notSlash : first ≠ '/' := fun same => plain.notMem (by decide) (same ▸ member)
      rw [characters, List.cons_append] at taken dropped
      rw [List.cons_append, Tag.ofInside_opening notBang notSlash, taken, dropped, ← characters,
        String.ofList_toList]

/-- A sound fragment is a tag between brackets or holds no opening bracket. -/
theorem IsSound.written {fragment : Fragment} (sound : fragment.IsSound) :
    (∃ inside, fragment.render.toList = '<' :: (inside ++ ['>']) ∧ '<' ∉ inside ∧ '>' ∉ inside ∧
      fragment.tag? = some (Tag.ofInside inside)) ∨
    ('<' ∉ fragment.render.toList ∧ fragment.tag? = none) := by
  cases fragment with
  | doctype =>
      refine Or.inl ⟨"!DOCTYPE html".toList, ?_, ?_, ?_, ?_⟩ <;> decide
  | start element attributes =>
      have bracketFree := Attribute.notMem_renderAll sound.2
      refine Or.inl ⟨element.toList ++ (Attribute.renderAll attributes).toList, ?_, ?_, ?_, ?_⟩
      · simp [render, Attribute.renderAll]
      · rw [List.mem_append, not_or]
        exact ⟨sound.1.notMem (by decide), bracketFree.1⟩
      · rw [List.mem_append, not_or]
        exact ⟨sound.1.notMem (by decide), bracketFree.2⟩
      · rw [ofInside_start sound.1 sound.2, tag?]
  | stop element =>
      have plain : IsPlain element := sound
      refine Or.inl ⟨'/' :: element.toList, ?_, ?_, ?_, ?_⟩
      · simp [render]
      · rw [List.mem_cons, not_or]
        exact ⟨by decide, plain.notMem (by decide)⟩
      · rw [List.mem_cons, not_or]
        exact ⟨by decide, plain.notMem (by decide)⟩
      · rw [Tag.ofInside_closing plain.isNameChar, tag?]
  | text content => exact Or.inr ⟨fun member => (mem_escape member).1 rfl, rfl⟩
  | verbatim content => exact Or.inr ⟨sound, rfl⟩

/-- A sound fragment in ordinary content is read as its tag. -/
theorem IsSound.scans {fragment : Fragment} (sound : fragment.IsSound) :
    Scans .content fragment.render.toList fragment.tag?.toList fragment.next := by
  rcases sound.written with ⟨inside, text, -, bracketFree, tag⟩ | ⟨bracketFree, tag⟩
  · rw [text, next, tag]
    exact Scans.tag bracketFree
  · rw [next, tag]
    exact Scans.plain bracketFree

theorem toList_renderLine_cons (fragment : Fragment) (fragments : List Fragment) :
    (renderLine (fragment :: fragments)).toList =
      fragment.render.toList ++ (renderLine fragments).toList := by
  rw [renderLine, List.map_cons, String.join_cons, String.toList_append]
  rfl

theorem renderLine_append (front back : List Fragment) :
    renderLine (front ++ back) = renderLine front ++ renderLine back := by
  rw [renderLine, List.map_append, String.join_append]
  rfl

/-! ## Sequences -/

/-- A sequence of fragments that can be read back from one place to another.
Inside a raw element only text may stand, and only its own end tag ends it. -/
inductive Readable : Mode → List Fragment → Mode → Prop
  | nil (mode : Mode) : Readable mode [] mode
  | cons {fragment : Fragment} {fragments : List Fragment} {after : Mode}
      (sound : fragment.IsSound) (rest : Readable fragment.next fragments after) :
      Readable .content (fragment :: fragments) after
  | skip {element : String} {fragment : Fragment} {fragments : List Fragment} {after : Mode}
      (sound : fragment.IsSound) (tagless : fragment.tag? = none)
      (rest : Readable (.raw element) fragments after) :
      Readable (.raw element) (fragment :: fragments) after
  | leave {element : String} {fragments : List Fragment} {after : Mode}
      (member : element ∈ rawElements) (rest : Readable .content fragments after) :
      Readable (.raw element) (.stop element :: fragments) after

namespace Readable

variable {before between after : Mode} {fragments front back : List Fragment}

theorem append (first : Readable before front between) (second : Readable between back after) :
    Readable before (front ++ back) after := by
  induction first with
  | nil => exact second
  | cons sound _ ih => exact .cons sound (ih second)
  | skip sound tagless _ ih => exact .skip sound tagless (ih second)
  | leave member _ ih => exact .leave member (ih second)

/-- Fragments that open no raw element need only be sound. -/
theorem ofSound (sound : ∀ fragment ∈ fragments, fragment.IsSound ∧ fragment.next = .content) :
    Readable .content fragments .content := by
  induction fragments with
  | nil => exact .nil .content
  | cons fragment others ih =>
      have here := sound fragment List.mem_cons_self
      refine .cons here.1 ?_
      rw [here.2]
      exact ih fun other member => sound other (List.mem_cons_of_mem fragment member)

theorem isSound (readable : Readable before fragments after) :
    ∀ fragment ∈ fragments, fragment.IsSound := by
  induction readable with
  | nil =>
      intro fragment member
      cases member
  | cons sound _ ih | skip sound _ _ ih =>
      intro fragment member
      rcases List.mem_cons.mp member with here | later
      · exact here ▸ sound
      · exact ih fragment later
  | leave raw _ ih =>
      intro fragment member
      rcases List.mem_cons.mp member with here | later
      · subst here
        revert raw
        exact (by decide : ∀ element ∈ rawElements, IsPlain element) _
      · exact ih fragment later

/-- The tags that are read are the tags that were written. -/
theorem scans (readable : Readable before fragments after) :
    Scans before (renderLine fragments).toList (tags fragments) after := by
  induction readable with
  | nil mode => exact Scans.nil mode
  | cons sound _ ih =>
      rw [toList_renderLine_cons, tags_cons]
      exact sound.scans.append ih
  | skip sound tagless _ ih =>
      rw [toList_renderLine_cons, tags_cons, tagless]
      rcases sound.written with ⟨_, -, -, -, tag⟩ | ⟨bracketFree, -⟩
      · rw [tagless] at tag
        cases tag
      · exact (Scans.rawPlain bracketFree).append ih
  | @leave element others after member _ ih =>
      have text : (render (.stop element)).toList = '<' :: ('/' :: element.toList ++ ['>']) := by
        simp [render]
      rw [toList_renderLine_cons, tags_cons, text]
      exact (Scans.rawStop member).append ih

end Readable

/-! ## Finding end tags -/

/-- Two delimited texts that begin alike are the same up to the delimiter. -/
private theorem prefix_delimited {left right : List Char} (rest : List Char)
    (leftFree : '>' ∉ left) (rightFree : '>' ∉ right) :
    left ++ ['>'] <+: right ++ '>' :: rest ↔ left = right := by
  induction left generalizing right with
  | nil =>
      cases right with
      | nil => exact ⟨fun _ => rfl, fun _ => ⟨rest, rfl⟩⟩
      | cons c cs =>
          refine ⟨fun found => ?_, fun same => nomatch same⟩
          have delimiter := (List.cons_prefix_cons.mp found).1
          exact absurd (delimiter ▸ List.mem_cons_self) rightFree
  | cons x xs ih =>
      cases right with
      | nil =>
          refine ⟨fun found => ?_, fun same => nomatch same⟩
          have delimiter := (List.cons_prefix_cons.mp found).1
          exact absurd (delimiter ▸ List.mem_cons_self) leftFree
      | cons c cs =>
          have tails := ih (List.not_mem_of_not_mem_cons leftFree)
            (List.not_mem_of_not_mem_cons rightFree)
          rw [List.cons_append, List.cons_append, List.cons_prefix_cons, tails, List.cons.injEq]

/-- An end tag begins at a fragment only if the fragment is that end tag, and it
begins nowhere inside a fragment. -/
private theorem occurrences_fragment {name : String} (plain : IsPlain name) {fragment : Fragment}
    (sound : fragment.IsSound) (rest : List Char) :
    Text.occurrences (render (.stop name)).toList (fragment.render.toList ++ rest) =
      (if fragment = .stop name then 1 else 0) +
        Text.occurrences (render (.stop name)).toList rest := by
  have needle : (render (.stop name)).toList = '<' :: ('/' :: name.toList ++ ['>']) := by
    simp [render]
  have needleFree : '>' ∉ '/' :: name.toList := by
    rw [List.mem_cons, not_or]
    exact ⟨by decide, plain.notMem (by decide)⟩
  rw [needle]
  rcases sound.written with ⟨inside, text, openingFree, closingFree, tag⟩ | ⟨openingFree, tag⟩
  · have here : ('<' :: ('/' :: name.toList ++ ['>'])).isPrefixOf
        ('<' :: (inside ++ '>' :: rest)) = true ↔ fragment = .stop name := by
      rw [List.isPrefixOf_iff_prefix, List.cons_prefix_cons,
        prefix_delimited rest needleFree closingFree]
      constructor
      · rintro ⟨-, same⟩
        rw [← same, Tag.ofInside_closing plain.isNameChar] at tag
        cases fragment with
        | stop element =>
            injection Option.some.inj tag with sameName
            rw [sameName]
        | doctype => injection Option.some.inj tag
        | start element attributes => injection Option.some.inj tag
        | text content => cases tag
        | verbatim content => cases tag
      · rintro rfl
        have same := (List.cons.inj (needle.symm.trans text)).2
        exact ⟨rfl, List.append_cancel_right same⟩
    have behind : '<' ∉ inside ++ ['>'] := by
      rw [List.mem_append, not_or]
      exact ⟨openingFree, by decide⟩
    have later := @Text.occurrences_skip '<' ('/' :: name.toList ++ ['>']) _ rest behind
    rw [List.append_assoc, List.singleton_append] at later
    have whole : fragment.render.toList ++ rest = '<' :: (inside ++ '>' :: rest) := by
      rw [text, List.cons_append, List.append_assoc, List.singleton_append]
    rw [whole, Text.occurrences, later]
    simp only [here]
  · have other : fragment ≠ .stop name := by
      rintro rfl
      cases tag
    rw [Text.occurrences_skip rest openingFree, if_neg other, Nat.zero_add]

/-- An end tag occurs in the text as often as it was written. -/
theorem occurrences_stop {name : String} (plain : IsPlain name) {fragments : List Fragment}
    (sound : ∀ fragment ∈ fragments, fragment.IsSound) :
    Text.occurrences (render (.stop name)).toList (renderLine fragments).toList =
      fragments.count (.stop name) := by
  induction fragments with
  | nil =>
      have needle : (render (.stop name)).toList = '<' :: ('/' :: name.toList ++ ['>']) := by
        simp [render]
      rw [needle]
      rfl
  | cons fragment others ih =>
      rw [toList_renderLine_cons, occurrences_fragment plain (sound fragment List.mem_cons_self),
        ih fun other member => sound other (List.mem_cons_of_mem fragment member), List.count_cons,
        Nat.add_comm]
      simp only [beq_iff_eq]

end Fragment

end Markup
end Pagewright
