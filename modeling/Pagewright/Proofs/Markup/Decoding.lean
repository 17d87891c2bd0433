import Pagewright.Proofs.Markup.Written
import Pagewright.Proofs.Text.Literal
import Pagewright.Text.Indented

namespace Pagewright
namespace Markup

/-!
# Decoding

A reader of markup replaces character references by the characters they stand
for, in one pass from the left and without looking at what it has put in.  What
escaping writes falls into pieces, one for each character, and each piece is
decoded to its character whatever stands behind it.  Hence a text that was
escaped once is found again by decoding once, also where the text looks like a
reference itself.

Elements are read from whole lines.  A line is an element if it is a tag, with
nothing or with a text and the matching end tag behind it.  Attribute values and
texts are decoded where they are read and nowhere else.
-/

/-! ## References -/

/-- The character references, each with the character it stands for. -/
def references : List (String × Char) :=
  [("&amp;", '&'), ("&lt;", '<'), ("&gt;", '>'), ("&quot;", '"'), ("&#x27;", '\'')]

/-- The reference at the beginning of a text. -/
def reference? (text : List Char) : Option (String × Char) :=
  references.find? fun entry => entry.1.toList.isPrefixOf text

/-- Decode a text after passing over some of its characters. -/
def decodeFrom : Nat → List Char → List Char
  | _, [] => []
  | passed + 1, _ :: cs => decodeFrom passed cs
  | 0, c :: cs =>
      match reference? (c :: cs) with
      | some entry => entry.2 :: decodeFrom (entry.1.toList.length - 1) cs
      | none => c :: decodeFrom 0 cs

/-- The text with its character references replaced, in one pass. -/
def decode (text : String) : String :=
  String.ofList (decodeFrom 0 text.toList)

theorem decodeFrom_eq_drop (passed : Nat) (text : List Char) :
    decodeFrom passed text = decodeFrom 0 (text.drop passed) := by
  induction text generalizing passed with
  | nil => cases passed <;> rfl
  | cons c cs ih =>
      cases passed with
      | zero => rfl
      | succ passed => exact ih passed

/-- A reference begins with an ampersand and holds no other. -/
theorem exists_of_mem_references {entry : String × Char} (listed : entry ∈ references) :
    ∃ others, entry.1.toList = '&' :: others ∧ '&' ∉ others := by
  revert entry
  simp only [references, List.forall_mem_cons]
  refine ⟨?_, ?_, ?_, ?_, ?_, nofun⟩ <;> exact ⟨_, rfl, by decide⟩

/-- A reference is found whatever stands behind it. -/
theorem reference?_append {entry : String × Char} (listed : entry ∈ references)
    (rest : List Char) : reference? (entry.1.toList ++ rest) = some entry := by
  revert entry
  simp only [references, List.forall_mem_cons]
  exact ⟨rfl, rfl, rfl, rfl, rfl, nofun⟩

theorem reference?_of_ne {c : Char} (other : c ≠ '&') (rest : List Char) :
    reference? (c :: rest) = none := by
  apply List.find?_eq_none.mpr
  intro entry listed found
  rcases exists_of_mem_references listed with ⟨others, name, -⟩
  rw [name, List.isPrefixOf_iff_prefix, List.cons_prefix_cons] at found
  exact other found.1.symm

/-! ## Pieces -/

/-- The pieces of escaped text: ordinary characters and references. -/
inductive Encoded : (piece : List Char) → (meant : Char) → Prop
  | plain {c : Char} (ordinary : c ∉ ['&', '<', '>', '"', '\'']) : Encoded [c] c
  | reference {entry : String × Char} (listed : entry ∈ references) :
      Encoded entry.1.toList entry.2

theorem encoded_escapeChar (c : Char) : Encoded (escapeChar c) c := by
  unfold escapeChar
  split
  case h_1 => exact @Encoded.reference ("&amp;", '&') (by decide)
  case h_2 => exact @Encoded.reference ("&lt;", '<') (by decide)
  case h_3 => exact @Encoded.reference ("&gt;", '>') (by decide)
  case h_4 => exact @Encoded.reference ("&quot;", '"') (by decide)
  case h_5 => exact @Encoded.reference ("&#x27;", '\'') (by decide)
  case h_6 ampersand less greater double single => exact .plain (by simp_all)

/-- Escaped text falls into pieces, one for each character. -/
theorem spells_escape (text : String) :
    Text.Spells Encoded (escape text).toList text.toList := by
  rw [escape, String.toList_ofList]
  exact .flatMap fun c _ => encoded_escapeChar c

/-- A piece is decoded to its character, whatever stands behind it. -/
theorem decodeFrom_piece {piece : List Char} {c : Char} (encoded : Encoded piece c)
    (rest : List Char) : decodeFrom 0 (piece ++ rest) = c :: decodeFrom 0 rest := by
  cases encoded with
  | plain ordinary =>
      have other : c ≠ '&' := fun same => ordinary (same ▸ List.mem_cons_self)
      rw [List.singleton_append, decodeFrom, reference?_of_ne other]
  | @reference entry listed =>
      have found := reference?_append listed rest
      rcases exists_of_mem_references listed with ⟨others, name, -⟩
      rw [name, List.cons_append] at found ⊢
      rw [decodeFrom, found]
      dsimp only
      rw [name, decodeFrom_eq_drop, List.length_cons, Nat.add_sub_cancel, List.drop_left]

/-- Decoding undoes escaping. -/
theorem decode_escape (text : String) : decode (escape text) = text := by
  have pieces : ∀ {body meant : List Char}, Text.Spells Encoded body meant →
      decodeFrom 0 body = meant := by
    intro body meant spells
    induction spells with
    | nil => rfl
    | cons first _ ih => rw [decodeFrom_piece first, ih]
  rw [decode, pieces (spells_escape text), String.ofList_toList]

theorem escape_injective : Function.Injective escape := by
  intro left right same
  rw [← decode_escape left, same, decode_escape]

/-- Every ampersand in escaped text begins a reference. -/
theorem exists_reference_of_suffix {text : String} {back : List Char}
    (found : '&' :: back <:+ (escape text).toList) :
    ∃ entry ∈ references, entry.1.toList <+: '&' :: back := by
  -- A run without ampersands can be taken off the front.
  have beyond : ∀ {run rest : List Char}, '&' ∉ run → '&' :: back <:+ run ++ rest →
      '&' :: back <:+ rest := by
    intro run rest absent ending
    induction run with
    | nil => exact ending
    | cons c cs ih =>
        rw [List.mem_cons, not_or] at absent
        rw [List.cons_append] at ending
        rcases List.suffix_cons_iff.mp ending with whole | later
        · exact absurd (List.head_eq_of_cons_eq whole) absent.1
        · exact ih absent.2 later
  have spells := spells_escape text
  generalize (escape text).toList = body, text.toList = meant at found spells
  induction spells with
  | nil => cases List.suffix_nil.mp found
  | @cons piece body meant c first _ ih =>
      cases first with
      | plain ordinary =>
          have other : '&' ∉ [c] := fun same => ordinary (List.mem_singleton.mp same ▸ List.mem_cons_self)
          exact ih (beyond other found)
      | @reference entry listed =>
          rcases exists_of_mem_references listed with ⟨others, name, absent⟩
          rw [name, List.cons_append] at found
          rcases List.suffix_cons_iff.mp found with whole | later
          · refine ⟨entry, listed, ?_⟩
            rw [name, whole, ← List.cons_append]
            exact List.prefix_append _ _
          · exact ih (beyond absent later)

/-! ## Elements -/

/-- An element on one line: its name, its attributes, and the text inside if
its end stands on the line too. -/
structure Element where
  name : String
  attributes : List (String × String)
  text : Option String
deriving Repr, DecidableEq

namespace Element

/-- What stands inside an element, by what stands behind its tag. -/
def content? (name : String) (behind : List Char) : Option (Option String) :=
  if behind = [] then
    some none
  else if behind.dropWhile (· ≠ '<') = '<' :: '/' :: name.toList ++ ['>'] then
    some (some (decode (String.ofList (behind.takeWhile (· ≠ '<')))))
  else
    none

/-- The element with the given tag.  What stands inside a raw element is no
text, so these are not read. -/
def ofTag? (behind : List Char) : Tag → Option Element
  | .opening name attributes =>
      if name ∈ rawElements then
        none
      else
        (content? name behind).map fun content =>
          ⟨name, attributes.map fun given => (given.1, decode given.2), content⟩
  | .doctype | .closing _ => none

/-- Read a line that holds one element, blanks in front of it aside. -/
def ofText? (line : String) : Option Element :=
  match line.toList.dropWhile Text.isBlank with
  | '<' :: rest =>
      match rest.dropWhile (· ≠ '>') with
      | '>' :: behind => ofTag? behind (Tag.ofInside (rest.takeWhile (· ≠ '>')))
      | _ => none
  | _ => none

private theorem takeWhile_delimited {front : List Char} {delimiter : Char}
    (absent : delimiter ∉ front) (back : List Char) :
    (front ++ delimiter :: back).takeWhile (· ≠ delimiter) = front ∧
      (front ++ delimiter :: back).dropWhile (· ≠ delimiter) = delimiter :: back := by
  have others : ∀ c ∈ front, decide (c ≠ delimiter) = true := by
    intro c member
    exact decide_eq_true fun same => absent (same ▸ member)
  rw [List.takeWhile_append_of_pos others, List.dropWhile_append_of_pos others]
  simp

/-- Indentation is passed over. -/
private theorem dropWhile_indentation (depth : Nat) (rest : List Char) :
    ((Text.indentation depth).toList ++ '<' :: rest).dropWhile Text.isBlank = '<' :: rest := by
  have blanks : ∀ c ∈ (Text.indentation depth).toList, Text.isBlank c = true := by
    intro c member
    rw [Text.indentation, String.toList_ofList] at member
    rw [List.eq_of_mem_replicate member]
    rfl
  rw [List.dropWhile_append_of_pos blanks, List.dropWhile_cons_of_neg (by decide)]

/-- A line that begins with a tag is read by that tag. -/
theorem ofText?_tag {fragment : Fragment} (sound : fragment.IsSound) {tag : Tag}
    (isTag : fragment.tag? = some tag) (depth : Nat) (others : List Fragment) :
    ofText? (Text.Indented.render Fragment.renderLine ⟨depth, fragment :: others⟩) =
      ofTag? (Fragment.renderLine others).toList tag := by
  rcases sound.written with ⟨inside, written, -, bracketFree, same⟩ | ⟨-, none⟩
  · cases Option.some.inj (same.symm.trans isTag)
    have delimited := takeWhile_delimited bracketFree (Fragment.renderLine others).toList
    simp only [ofText?, Text.Indented.render, String.toList_append,
      Fragment.toList_renderLine_cons, written, List.cons_append, List.append_assoc,
      List.nil_append, dropWhile_indentation, delimited]
  · rw [none] at isTag
    cases isTag

variable {name : String} {attributes : List Attribute}

/-- The attributes of a tag, not written. -/
def pairs (attributes : List Attribute) : List (String × String) :=
  attributes.map fun given => (given.name, given.value)

private theorem decode_read (attributes : List Attribute) :
    (attributes.map Attribute.read).map (fun given => (given.1, decode given.2)) =
      pairs attributes := by
  rw [List.map_map, pairs]
  apply List.map_congr_left
  intro given _
  simp only [Function.comp_apply, Attribute.read, decode_escape]

/-- A tag alone on a line is read with the attributes it was given. -/
theorem ofText?_start (plain : IsPlain name) (notRaw : name ∉ rawElements)
    (plainNames : ∀ given ∈ attributes, IsPlain given.name) (depth : Nat) :
    ofText? (Text.Indented.render Fragment.renderLine ⟨depth, [.start name attributes]⟩) =
      some ⟨name, pairs attributes, none⟩ := by
  have sound : Fragment.IsSound (.start name attributes) := ⟨plain, plainNames⟩
  rw [ofText?_tag sound rfl, ofTag?, if_neg notRaw, decode_read]
  rfl

/-- An element with a text inside is read with the attributes and the text it
was given. -/
theorem ofText?_element (plain : IsPlain name) (notRaw : name ∉ rawElements)
    (plainNames : ∀ given ∈ attributes, IsPlain given.name) (depth : Nat) (content : String) :
    ofText? (Text.Indented.render Fragment.renderLine
      ⟨depth, Fragment.element name attributes content⟩) =
        some ⟨name, pairs attributes, some content⟩ := by
  have sound : Fragment.IsSound (.start name attributes) := ⟨plain, plainNames⟩
  have bracketFree : '<' ∉ (escape content).toList := fun member => (mem_escape member).1 rfl
  have behind : (Fragment.renderLine [.text content, .stop name]).toList =
      (escape content).toList ++ '<' :: '/' :: name.toList ++ ['>'] := by
    simp [Fragment.renderLine, Fragment.render]
  have inside : content? name ((escape content).toList ++ '<' :: '/' :: name.toList ++ ['>']) =
      some (some content) := by
    have delimited := takeWhile_delimited bracketFree ('/' :: name.toList ++ ['>'])
    rw [content?, if_neg (by simp)]
    simp only [List.append_assoc, List.cons_append] at delimited ⊢
    rw [delimited.1, delimited.2, if_pos rfl, String.ofList_toList, decode_escape]
  rw [Fragment.element, ofText?_tag sound rfl, ofTag?, if_neg notRaw, decode_read, behind, inside]
  rfl

example : ofText? "  <a href=\"?a&amp;b\" rel=\"\">&amp;lt;</a>" =
    some ⟨"a", [("href", "?a&b"), ("rel", "")], some "&lt;"⟩ := by
  decide +kernel

/-- An end tag is no element. -/
theorem ofText?_stop (plain : IsPlain name) (depth : Nat) :
    ofText? (Text.Indented.render Fragment.renderLine ⟨depth, [.stop name]⟩) = none := by
  have sound : Fragment.IsSound (.stop name) := plain
  rw [ofText?_tag sound rfl]
  rfl

/-- A raw element is not read. -/
theorem ofText?_raw (raw : name ∈ rawElements)
    (plainNames : ∀ given ∈ attributes, IsPlain given.name) (depth : Nat)
    (others : List Fragment) :
    ofText? (Text.Indented.render Fragment.renderLine
      ⟨depth, .start name attributes :: others⟩) = none := by
  have plain : IsPlain name := (by decide : ∀ element ∈ rawElements, IsPlain element) name raw
  have sound : Fragment.IsSound (.start name attributes) := ⟨plain, plainNames⟩
  rw [ofText?_tag sound rfl, ofTag?, if_pos raw]

/-- A line without a bracket is no element. -/
theorem ofText?_verbatim {content : String} (bracketFree : '<' ∉ content.toList) (depth : Nat) :
    ofText? (Text.Indented.render Fragment.renderLine ⟨depth, [.verbatim content]⟩) = none := by
  have absent : '<' ∉ (Text.Indented.render Fragment.renderLine
      ⟨depth, [.verbatim content]⟩).toList := by
    rw [Text.Indented.render, String.toList_append, Fragment.toList_renderLine_cons, List.mem_append,
      not_or, List.mem_append, not_or]
    exact ⟨Text.notMem_indentation (by decide) depth, bracketFree, List.not_mem_nil⟩
  unfold ofText?
  split
  case h_1 rest found =>
      have member : '<' ∈ (Text.Indented.render Fragment.renderLine
          ⟨depth, [.verbatim content]⟩).toList.dropWhile Text.isBlank := by
        rw [found]
        exact List.mem_cons_self
      exact absurd ((List.dropWhile_suffix _).subset member) absent
  case h_2 => rfl

end Element

end Markup
end Pagewright
