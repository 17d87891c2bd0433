import Pagewright.Proofs.Page.Body

namespace Pagewright
namespace Page

open Markup (Fragment Attribute IsPlain Tag nest rawElements)

/-!
# Reading a page

The lines of a page are laid out into one sequence of fragments, with the line
feeds and the indentation as text between the tags.  A body is then read by
induction on how it was written: each line contributes its own tags, a block
adds its element to those that are open, and no line has to do with the
elements of the frame.
-/

/-- The elements of the frame of a page. -/
def frameElements : List String := ["html", "head", "body"]

/-- A tag that neither starts nor ends an element of the frame. -/
def Inner (tag : Tag) : Prop :=
  ∀ name ∈ frameElements, tag ≠ .closing name ∧ tag.opens name = false

theorem inner_opening {name : String} (attributes : List (String × String))
    (other : name ∉ frameElements) : Inner (.opening name attributes) := by
  intro frame framed
  have different : name ≠ frame := fun same => other (same ▸ framed)
  constructor
  · intro same
    cases same
  · exact beq_eq_false_iff_ne.mpr different

theorem inner_closing {name : String} (other : name ∉ frameElements) : Inner (.closing name) := by
  intro frame framed
  have different : name ≠ frame := fun same => other (same ▸ framed)
  exact ⟨fun same => different (Tag.closing.inj same), rfl⟩

/-- Tags that close what they open and stay inside the frame. -/
structure Balanced (tags : List Tag) : Prop where
  nested : ∀ stack, nest stack tags = some stack
  inner : ∀ tag ∈ tags, Inner tag

/-- Lines behind another one as a sequence of fragments. -/
def laidOut (lines : List Line) : List Fragment :=
  lines.flatMap fun line =>
    .verbatim "\n" :: .verbatim (Text.indentation line.depth) :: line.content

theorem laidOut_append (front back : List Line) :
    laidOut (front ++ back) = laidOut front ++ laidOut back :=
  List.flatMap_append

/-- The text of a list of lines. -/
theorem renderAll_cons (first : Line) (others : List Line) :
    Text.Indented.renderAll Fragment.renderLine (first :: others).toArray =
      first.render Fragment.renderLine ++ Fragment.renderLine (laidOut others) := by
  unfold Text.Indented.renderAll Text.joinLines
  induction others generalizing first with
  | nil => simp [laidOut, Fragment.renderLine]
  | cons second others ih =>
      have rest := ih second
      simp only [List.map_cons] at rest ⊢
      rw [String.intercalate_cons_cons, rest]
      simp [laidOut, Fragment.renderLine, Fragment.render, Text.Indented.render, String.append_assoc]

/-- The layout of a line adds nothing that could be read as a tag. -/
theorem readable_line {depth : Nat} {content : List Fragment}
    (readable : Fragment.Readable .content content .content) :
    Fragment.Readable .content (laidOut [⟨depth, content⟩]) .content := by
  rw [laidOut, List.flatMap_singleton]
  refine .cons (show '<' ∉ _ by decide) (.cons ?_ readable)
  exact Text.notMem_indentation (by decide) depth

theorem readable_lines {lines : List Line}
    (readable : ∀ line ∈ lines, Fragment.Readable .content line.content .content) :
    Fragment.Readable .content (laidOut lines) .content := by
  induction lines with
  | nil => exact .nil .content
  | cons line others ih =>
      rw [← List.singleton_append, laidOut_append]
      refine (readable_line (readable line List.mem_cons_self)).append ?_
      exact ih fun other member => readable other (List.mem_cons_of_mem line member)

theorem tags_line (depth : Nat) (content : List Fragment) :
    Fragment.tags (laidOut [⟨depth, content⟩]) = Fragment.tags content := by
  rw [laidOut, List.flatMap_singleton, Fragment.tags_cons, Fragment.tags_cons]
  rfl

/-! ## Lines that close what they open -/

theorem readable_start {name : String} {attributes : List Attribute} (plain : IsPlain name)
    (plainNames : ∀ given ∈ attributes, IsPlain given.name) (ordinary : name ∉ rawElements) :
    Fragment.Readable .content [.start name attributes] .content := by
  have next : Fragment.next (.start name attributes) = .content := by
    rw [Fragment.next, Fragment.tag?, Option.map_some, Option.getD_some, Markup.Mode.after,
      if_neg ordinary]
  refine .cons ⟨plain, plainNames⟩ ?_
  rw [next]
  exact .nil .content

theorem readable_element {name content : String} {attributes : List Attribute} (plain : IsPlain name)
    (plainNames : ∀ given ∈ attributes, IsPlain given.name) (ordinary : name ∉ rawElements) :
    Fragment.Readable .content (Fragment.element name attributes content) .content := by
  refine (readable_start plain plainNames ordinary).append (.cons True.intro ?_)
  exact .cons plain (.nil .content)

/-- An element that is not part of the frame is balanced. -/
theorem balanced_element {name : String} (attributes : List (String × String))
    (ended : name ∉ Markup.voidElements) (other : name ∉ frameElements) :
    Balanced [.opening name attributes, .closing name] := by
  constructor
  · intro stack
    rw [nest, if_neg ended, nest, if_pos rfl, nest]
  · intro tag member
    rw [List.mem_cons, List.mem_singleton] at member
    rcases member with rfl | rfl
    · exact inner_opening attributes other
    · exact inner_closing other

/-- An element without an end is balanced. -/
theorem balanced_void {name : String} (attributes : List (String × String))
    (endless : name ∈ Markup.voidElements) (other : name ∉ frameElements) :
    Balanced [.opening name attributes] := by
  constructor
  · intro stack
    rw [nest, if_pos endless, nest]
  · intro tag member
    rw [List.mem_singleton.mp member]
    exact inner_opening attributes other

theorem Balanced.append {front back : List Tag} (first : Balanced front) (second : Balanced back) :
    Balanced (front ++ back) := by
  constructor
  · intro stack
    rw [Markup.nest_append, first.nested, Option.bind_some, second.nested]
  · intro tag member
    rcases List.mem_append.mp member with before | behind
    · exact first.inner tag before
    · exact second.inner tag behind

theorem Inline.readable {around : Option Block} {content : List Fragment}
    (inline : Inline around content) : Fragment.Readable .content content .content := by
  cases inline with
  | element listed plain _ _ =>
      have facts := (by decide : ∀ name ∈ inlineElements, IsPlain name ∧ name ∉ rawElements) _ listed
      exact readable_element facts.1 plain facts.2
  | void listed plain =>
      have facts := (by decide : ∀ name ∈ emptyElements, IsPlain name ∧ name ∉ rawElements) _ listed
      exact readable_start facts.1 plain facts.2
  | style bracketFree =>
      refine .cons ⟨by decide, nofun⟩ ?_
      exact .skip bracketFree rfl (.leave (by decide) (.nil .content))

theorem Inline.balanced {around : Option Block} {content : List Fragment}
    (inline : Inline around content) : Balanced (Fragment.tags content) := by
  cases inline with
  | element listed _ _ _ =>
      have facts := (by decide : ∀ name ∈ inlineElements,
        name ∉ Markup.voidElements ∧ name ∉ frameElements) _ listed
      exact balanced_element _ facts.1 facts.2
  | void listed _ =>
      have facts := (by decide : ∀ name ∈ emptyElements,
        name ∈ Markup.voidElements ∧ name ∉ frameElements) _ listed
      exact balanced_void _ facts.1 facts.2
  | style _ => exact balanced_element _ (by decide) (by decide)

/-! ## Bodies -/

private theorem element_facts (block : Block) :
    IsPlain block.element ∧ block.element ∉ rawElements ∧ block.element ∉ Markup.voidElements ∧
      block.element ∉ frameElements := by
  cases block <;> decide

namespace Body

variable {lines : List Line} {blocks : List Block}

theorem readable (body : Body lines blocks) :
    Fragment.Readable .content (laidOut lines) .content := by
  induction body with
  | empty => exact .nil .content
  | line _ inline ih =>
      rw [laidOut_append]
      exact ih.append (readable_line inline.readable)
  | @start _ _ block _ _ plain _ ih =>
      have facts := element_facts block
      rw [laidOut_append]
      exact ih.append (readable_line (readable_start facts.1 plain facts.2.1))
  | @stop _ _ block _ ih =>
      rw [laidOut_append]
      exact ih.append (readable_line (.cons (element_facts block).1 (.nil .content)))

/-- Behind a body exactly the elements of its open blocks are open. -/
theorem nested (body : Body lines blocks) (stack : List String) :
    nest stack (Fragment.tags (laidOut lines)) = some (blocks.map Block.element ++ stack) := by
  induction body with
  | empty => rfl
  | line _ inline ih =>
      rw [laidOut_append, Fragment.tags_append, tags_line, Markup.nest_append, ih, Option.bind_some]
      exact inline.balanced.nested _
  | @start _ _ block _ _ _ _ ih =>
      rw [laidOut_append, Fragment.tags_append, tags_line, Markup.nest_append, ih, Option.bind_some]
      exact if_neg (element_facts block).2.2.1
  | stop _ ih =>
      rw [laidOut_append, Fragment.tags_append, tags_line, Markup.nest_append, ih, Option.bind_some]
      exact if_pos rfl

theorem inner (body : Body lines blocks) :
    ∀ tag ∈ Fragment.tags (laidOut lines), Inner tag := by
  induction body with
  | empty => exact nofun
  | line _ inline ih =>
      intro tag member
      rw [laidOut_append, Fragment.tags_append, tags_line] at member
      rcases List.mem_append.mp member with earlier | here
      · exact ih tag earlier
      · exact inline.balanced.inner tag here
  | @start _ _ block _ _ _ _ ih =>
      intro tag member
      rw [laidOut_append, Fragment.tags_append, tags_line] at member
      rcases List.mem_append.mp member with earlier | here
      · exact ih tag earlier
      · rw [List.mem_singleton.mp here]
        exact inner_opening _ (element_facts block).2.2.2
  | @stop _ _ block _ ih =>
      intro tag member
      rw [laidOut_append, Fragment.tags_append, tags_line] at member
      rcases List.mem_append.mp member with earlier | here
      · exact ih tag earlier
      · rw [List.mem_singleton.mp here]
        exact inner_closing (element_facts block).2.2.2

/-- A complete body is balanced. -/
theorem balanced (body : Body lines []) : Balanced (Fragment.tags (laidOut lines)) :=
  ⟨body.nested, body.inner⟩

end Body

end Page
end Pagewright
