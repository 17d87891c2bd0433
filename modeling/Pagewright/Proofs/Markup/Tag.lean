import Pagewright.Text.Blank

namespace Pagewright
namespace Markup

/-!
# Reading tags

A page is written from fragments, but it is read as text.  The reader here
knows nothing of fragments or of commands.  A `<` starts a tag, which runs to
the next `>`; quotes do not protect a bracket.  Behind the tag of a style or
script element everything is skipped up to the first end tag of that name, in
any mix of cases.  A tag that no bracket ends, and a raw element without an
end, leave the reading without a result.

What a piece of text contributes is stated by `Scans`, for every text that may
stand behind it.  Pieces can then be read one by one, although the reading of
a raw element looks ahead.
-/

/-- A tag as found in a text.  Attribute values stand as they are written. -/
inductive Tag where
  | doctype
  | opening (name : String) (attributes : List (String × String))
  | closing (name : String)
deriving Repr, DecidableEq

namespace Tag

/-- What the reading of attributes is inside of, with the characters met so
far in reverse. -/
inductive Spot where
  | gap
  | name (reversed : List Char)
  | value (name : String) (reversed : List Char)
deriving Repr, DecidableEq

/-- Read the attributes behind the name of a tag.  A value stands in double
quotes behind its name; an attribute without one has the empty value. -/
def attributesFrom : Spot → List Char → List (String × String)
  | .gap, [] => []
  | .name reversed, [] => [(String.ofList reversed.reverse, "")]
  | .value name reversed, [] => [(name, String.ofList reversed.reverse)]
  | .gap, c :: cs =>
      if Text.isBlank c then attributesFrom .gap cs
      else attributesFrom (.name [c]) cs
  | .name reversed, c :: cs =>
      if c = '"' then attributesFrom (.value (String.ofList reversed.reverse) []) cs
      else if c = '=' then attributesFrom (.name reversed) cs
      else if Text.isBlank c then
        (String.ofList reversed.reverse, "") :: attributesFrom .gap cs
      else attributesFrom (.name (c :: reversed)) cs
  | .value name reversed, c :: cs =>
      if c = '"' then (name, String.ofList reversed.reverse) :: attributesFrom .gap cs
      else attributesFrom (.value name (c :: reversed)) cs

def isNameChar (c : Char) : Bool :=
  !Text.isBlank c

/-- The tag with the given characters between its brackets. -/
def ofInside (inside : List Char) : Tag :=
  if inside = "!DOCTYPE html".toList then
    .doctype
  else
    match inside with
    | '/' :: name => .closing (String.ofList (name.takeWhile isNameChar))
    | inside =>
        .opening (String.ofList (inside.takeWhile isNameChar))
          (attributesFrom .gap (inside.dropWhile isNameChar))

/-- An end tag holds nothing but its name. -/
theorem ofInside_closing {name : String} (named : ∀ c ∈ name.toList, isNameChar c = true) :
    ofInside ('/' :: name.toList) = .closing name := by
  have notDoctype : '/' :: name.toList ≠ "!DOCTYPE html".toList := by
    intro same
    have first : '/' = '!' := List.head_eq_of_cons_eq same
    exact absurd first (by decide)
  have whole : name.toList.takeWhile isNameChar = name.toList := by
    have taken := @List.takeWhile_append_of_pos _ isNameChar name.toList [] named
    simpa only [List.append_nil, List.takeWhile_nil] using taken
  unfold ofInside
  rw [if_neg notDoctype]
  simp only [whole, String.ofList_toList]

/-- Any other tag starts an element. -/
theorem ofInside_opening {first : Char} (notBang : first ≠ '!') (notSlash : first ≠ '/')
    (others : List Char) :
    ofInside (first :: others) =
      .opening (String.ofList ((first :: others).takeWhile isNameChar))
        (attributesFrom .gap ((first :: others).dropWhile isNameChar)) := by
  have notDoctype : first :: others ≠ "!DOCTYPE html".toList :=
    fun same => notBang (List.head_eq_of_cons_eq same)
  unfold ofInside
  rw [if_neg notDoctype]
  split
  case h_1 slashed => exact absurd (List.head_eq_of_cons_eq slashed) notSlash
  case h_2 => rfl

/-- The tag without the values of its attributes. -/
def skeleton : Tag → Tag
  | .opening name attributes =>
      .opening name (attributes.map fun given => (given.1, ""))
  | .doctype => .doctype
  | .closing name => .closing name

/-- Does the tag start an element of this name? -/
def opens (name : String) : Tag → Bool
  | .opening found _ => found == name
  | .doctype | .closing _ => false

end Tag

/-! ## The reader -/

/-- What the reader is inside of. -/
inductive Mode where
  | content
  | tag (reversed : List Char)
  | raw (element : String)
deriving Repr, DecidableEq

/-- Elements whose content is not markup. -/
def rawElements : List String := ["style", "script"]

namespace Mode

/-- What stands behind a tag. -/
def after : Tag → Mode
  | .opening name _ => if name ∈ rawElements then .raw name else .content
  | .doctype | .closing _ => .content

end Mode

/-- Does an end tag of `element` begin here, in any mix of cases? -/
def endTagBegins (element : String) (text : List Char) : Bool :=
  ('<' :: '/' :: element.toList).isPrefixOf (text.map Char.toLower)

/-- Read the rest of a text. -/
def scanFrom : Mode → List Char → Option (List Tag)
  | .content, [] => some []
  | .tag _, [] => none
  | .raw _, [] => none
  | .content, c :: cs =>
      if c = '<' then scanFrom (.tag []) cs else scanFrom .content cs
  | .tag reversed, c :: cs =>
      if c = '>' then
        let tag := Tag.ofInside reversed.reverse
        (scanFrom (Mode.after tag) cs).map (tag :: ·)
      else
        scanFrom (.tag (c :: reversed)) cs
  | .raw element, c :: cs =>
      if endTagBegins element (c :: cs) then scanFrom (.tag []) cs
      else scanFrom (.raw element) cs

/-- The tags of a text, in order. -/
def scan (text : String) : Option (List Tag) :=
  scanFrom .content text.toList

/-! ## Nesting -/

/-- Elements without an end tag. -/
def voidElements : List String := ["meta", "link", "img", "input", "hr", "br"]

/-- The elements open behind some tags, innermost first, where `stack` are
open in front of them.  An end tag must match the innermost element. -/
def nest : List String → List Tag → Option (List String)
  | stack, [] => some stack
  | stack, .doctype :: tags => nest stack tags
  | stack, .opening name _ :: tags =>
      if name ∈ voidElements then nest stack tags else nest (name :: stack) tags
  | [], .closing _ :: _ => none
  | innermost :: stack, .closing name :: tags =>
      if name = innermost then nest stack tags else none

/-- The tags of a whole document: everything opened is closed in order, and one
head stands in front of one body in one `html` element. -/
structure IsDocument (tags : List Tag) : Prop where
  nested : nest [] tags = some []
  one_html : tags.countP (Tag.opens "html") = 1
  one_head : tags.countP (Tag.opens "head") = 1
  one_body : tags.countP (Tag.opens "body") = 1
  head_before_body : ∃ front between back, tags =
    front ++ .closing "head" :: (between ++ .opening "body" [] :: back)

theorem nest_append (stack : List String) (front back : List Tag) :
    nest stack (front ++ back) = (nest stack front).bind fun stack => nest stack back := by
  induction front generalizing stack with
  | nil => rfl
  | cons tag front ih =>
      cases tag with
      | doctype =>
          rw [List.cons_append, nest, nest]
          exact ih stack
      | opening name attributes =>
          rw [List.cons_append, nest, nest]
          split
          · exact ih stack
          · exact ih (name :: stack)
      | closing name =>
          cases stack with
          | nil => rfl
          | cons innermost stack =>
              rw [List.cons_append, nest, nest]
              split
              · exact ih stack
              · rfl

/-! ## Reading piece by piece -/

/-- Reading `text` from `before` gives `tags` and leads to `after`, whatever
stands behind the text. -/
def Scans (before : Mode) (text : List Char) (tags : List Tag) (after : Mode) : Prop :=
  ∀ rest, scanFrom before (text ++ rest) = (scanFrom after rest).map (tags ++ ·)

namespace Scans

variable {before between after : Mode} {front back : List Char} {tags moreTags : List Tag}

theorem nil (mode : Mode) : Scans mode [] [] mode := by
  intro rest
  simp only [List.nil_append, Option.map_id']

theorem append (first : Scans before front tags between)
    (second : Scans between back moreTags after) :
    Scans before (front ++ back) (tags ++ moreTags) after := by
  intro rest
  rw [List.append_assoc, first, second, Option.map_map]
  congr 1
  funext later
  simp only [Function.comp_apply, List.append_assoc]

/-- A text that is read to its end has exactly the tags of its pieces. -/
theorem scanFrom_eq (whole : Scans before front tags .content) :
    scanFrom before front = some tags := by
  have ended := whole []
  simpa only [List.append_nil, scanFrom, Option.map_some] using ended

/-- Text without a bracket is no markup. -/
theorem plain {text : List Char} (bracketFree : '<' ∉ text) :
    Scans .content text [] .content := by
  intro rest
  simp only [List.nil_append, Option.map_id']
  induction text with
  | nil => rfl
  | cons c cs ih =>
      have different : c ≠ '<' := fun same => bracketFree (same ▸ List.mem_cons_self)
      rw [List.cons_append, scanFrom, if_neg different]
      exact ih (List.not_mem_of_not_mem_cons bracketFree)

private theorem inside_tag {inside : List Char} (reversed rest : List Char)
    (bracketFree : '>' ∉ inside) :
    scanFrom (.tag reversed) (inside ++ '>' :: rest) =
      (scanFrom (Mode.after (Tag.ofInside (reversed.reverse ++ inside))) rest).map
        (Tag.ofInside (reversed.reverse ++ inside) :: ·) := by
  induction inside generalizing reversed with
  | nil => simp only [List.nil_append, scanFrom, if_true, List.append_nil]
  | cons c cs ih =>
      have different : c ≠ '>' := fun same => bracketFree (same ▸ List.mem_cons_self)
      rw [List.cons_append, scanFrom, if_neg different,
        ih (c :: reversed) (List.not_mem_of_not_mem_cons bracketFree)]
      simp only [List.reverse_cons, List.append_assoc, List.singleton_append]

/-- A tag between brackets. -/
theorem tag {inside : List Char} (bracketFree : '>' ∉ inside) :
    Scans .content ('<' :: (inside ++ ['>'])) [Tag.ofInside inside]
      (Mode.after (Tag.ofInside inside)) := by
  intro rest
  have read := inside_tag [] rest bracketFree
  rw [List.reverse_nil, List.nil_append] at read
  rw [List.cons_append, List.append_assoc, List.singleton_append, scanFrom, if_pos rfl, read]
  rfl

end Scans

end Markup
end Pagewright
