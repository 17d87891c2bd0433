import Pagewright.Document
import Pagewright.Proofs.Markup.Breaking
import Pagewright.Proofs.Text.Slice

namespace Pagewright
namespace Offsets

open Text

/-!
# Documents by offsets

Two texts are cut at offsets that come from a search.  The end tags inside a
raw element are searched in a copy of the text in lower case, and the text
itself is then sliced at the offsets of the copy, which is sound only because
changing the case of an ASCII letter does not change its length.  The page is
cut at the ends of its head and its body, which are found by two searches that
know nothing of each other, so that their order has to be compared.

Each slice may fail and none does: the guarded text is the one that is built
character by character (`guardEndTags?_eq`), and so is the document
(`compose?_eq`).
-/

/-! ## End tags -/

/-- The offsets at which `needle` occurs in a text, from the left and without
overlap: nothing is found in front of `resume`.  The text starts at
`offset`. -/
def matchOffsets (needle : List Char) : (offset resume : Nat) → List Char → List Nat
  | _, _, [] => []
  | offset, resume, c :: cs =>
      if resume ≤ offset && needle.isPrefixOf (c :: cs) then
        offset :: matchOffsets needle (offset + c.utf8Size) (offset + byteLength needle) cs
      else
        matchOffsets needle (offset + c.utf8Size) resume cs

/-- The text from `copied` on, with a backslash inside the two characters at
each of the offsets. -/
def guardAt? (text : List Char) : (copied : Nat) → List Nat → Option (List Char)
  | copied, [] => suffixAt? text copied
  | copied, offset :: offsets => do
      let piece ← slice? text copied offset
      let later ← guardAt? text (offset + 2) offsets
      return piece ++ '<' :: '\\' :: '/' :: later

/-- The offsets of the end tags of an element, found in a copy of the text in
lower case. -/
def endTagOffsets (name text : List Char) : List Nat :=
  matchOffsets ('<' :: '/' :: name) 0 0 (text.map Char.toLower)

/-- Break up every end tag of the element `name`. -/
def guardEndTags? (name text : String) : Option String :=
  (guardAt? text.toList 0 (endTagOffsets name.toList text.toList)).map String.ofList

/-! ### Case -/

theorem utf8Size_toLower (c : Char) : c.toLower.utf8Size = c.utf8Size := by
  rcases Markup.toLower_cases c with same | ⟨upper, -, lower⟩
  · rw [same]
  · have short : ∀ {d : Char}, d.val.toNat ≤ 122 → d.utf8Size = 1 := by
      intro d bound
      exact Char.utf8Size_eq_one_iff.mpr
        (UInt32.le_iff_toNat_le.mpr (Nat.le_trans bound (by decide)))
    rw [short lower, short (Nat.le_trans upper (by decide))]

/-! ### Occurrences -/

/-- All offsets at which `needle` occurs. -/
def allOffsets (needle : List Char) : (offset : Nat) → List Char → List Nat
  | _, [] => []
  | offset, c :: cs =>
      if needle.isPrefixOf (c :: cs) then
        offset :: allOffsets needle (offset + c.utf8Size) cs
      else
        allOffsets needle (offset + c.utf8Size) cs

/-- Occurrences of a needle whose first character does not occur again in it
cannot overlap. -/
theorem matchOffsets_eq {first : Char} {others : List Char} (distinct : first ∉ others)
    {inside back : List Char} (absent : first ∉ inside) {offset resume : Nat}
    (reached : resume ≤ offset + byteLength inside) :
    matchOffsets (first :: others) offset resume (inside ++ back) =
      allOffsets (first :: others) offset (inside ++ back) := by
  generalize whole : inside ++ back = text
  induction text generalizing inside back offset resume with
  | nil => rfl
  | cons c cs ih =>
      rw [matchOffsets, allOffsets]
      cases inside with
      | nil =>
          have here : resume ≤ offset := reached
          rw [decide_eq_true here, Bool.true_and]
          split
          case isTrue found =>
              -- Until the occurrence ends, its own characters hold back the next one.
              rcases List.isPrefixOf_iff_prefix.mp found with ⟨rest, parts⟩
              rcases List.cons.inj parts with ⟨rfl, behind⟩
              have ended : offset + byteLength (first :: others) =
                  offset + first.utf8Size + byteLength others := by
                rw [byteLength_cons, Nat.add_assoc]
              rw [ih distinct (Nat.le_of_eq ended) behind]
          case isFalse =>
              exact @ih [] cs List.not_mem_nil _ _ (Nat.le_trans here (Nat.le_add_right _ _)) rfl
      | cons d inside =>
          rcases List.cons.inj whole with ⟨rfl, behind⟩
          have elsewhere : (first :: others).isPrefixOf (d :: cs) = false := by
            refine Bool.eq_false_iff.mpr fun found => ?_
            rcases List.isPrefixOf_iff_prefix.mp found with ⟨rest, parts⟩
            exact absent ((List.cons.inj parts).1 ▸ List.mem_cons_self)
          rw [elsewhere, Bool.and_false, if_neg Bool.false_ne_true, if_neg Bool.false_ne_true]
          refine ih (List.not_mem_of_not_mem_cons absent) ?_ behind
          rwa [Nat.add_assoc, ← byteLength_cons]

/-! ### Guarding -/

/-- The text with its end tags broken up, character by character. -/
def guarded (element : String) (text : List Char) : List Char :=
  text.foldr (Markup.guardChar element.toList) []

/-- The test at a bracket can be made on the text as given. -/
theorem guarded_cons {element : String} (plain : '<' ∉ element.toList) (c : Char) (cs : List Char) :
    guarded element (c :: cs) =
      if Markup.endTagBegins element (c :: cs) then '<' :: '\\' :: guarded element cs
      else c :: guarded element cs :=
  Markup.foldr_guardChar_cons plain c cs

theorem allOffsets_lowered (element : String) (offset : Nat) (c : Char) (cs : List Char) :
    allOffsets ('<' :: '/' :: element.toList) offset ((c :: cs).map Char.toLower) =
      if Markup.endTagBegins element (c :: cs) then
        offset :: allOffsets ('<' :: '/' :: element.toList) (offset + c.utf8Size) (cs.map Char.toLower)
      else
        allOffsets ('<' :: '/' :: element.toList) (offset + c.utf8Size) (cs.map Char.toLower) := by
  rw [List.map_cons, allOffsets, utf8Size_toLower]
  rfl

/-- Slicing at the end tags of the rest of a text copies what is pending and
guards the rest. -/
theorem guardAt?_allOffsets {element : String} (plain : '<' ∉ element.toList)
    (front pending rest : List Char) :
    guardAt? (front ++ (pending ++ rest)) (byteLength front)
        (allOffsets ('<' :: '/' :: element.toList) (byteLength (front ++ pending))
          (rest.map Char.toLower)) =
      some (pending ++ guarded element rest) := by
  induction size : rest.length using Nat.strongRecOn generalizing front pending rest with
  | ind size ih =>
      cases rest with
      | nil =>
          refine (suffixAt?_byteLength front _).trans ?_
          rfl
      | cons c cs =>
          rw [allOffsets_lowered, guarded_cons plain]
          split
          case isFalse =>
              have onward := ih cs.length (by rw [← size]; exact Nat.lt_succ_self _) front
                (pending ++ [c]) cs rfl
              have length : byteLength (front ++ (pending ++ [c])) =
                  byteLength (front ++ pending) + c.utf8Size := by
                simp only [byteLength_append, byteLength_cons, byteLength_nil, Nat.add_zero,
                  Nat.add_assoc]
              rw [length] at onward
              simpa only [List.append_assoc, List.singleton_append] using onward
          case isTrue begins =>
              rcases Markup.exists_of_endTagBegins begins with ⟨later, tag⟩
              cases tag
              have notHere : Markup.endTagBegins element ('/' :: later) = false := by
                rw [Markup.endTagBegins_cons]
                rfl
              have sliced : slice? (front ++ (pending ++ '<' :: '/' :: later)) (byteLength front)
                  (byteLength (front ++ pending)) = some pending :=
                slice?_eq_some_iff.mpr ⟨front, _, rfl, rfl, (byteLength_append _ _).symm⟩
              have onward := ih later.length (by simp only [← size, List.length_cons]; omega)
                (front ++ (pending ++ ['<', '/'])) [] later rfl
              have length : byteLength (front ++ (pending ++ ['<', '/'])) =
                  byteLength (front ++ pending) + 2 := by
                simp only [byteLength_append, Nat.add_assoc]
                rfl
              rw [List.append_nil, length] at onward
              simp only [List.append_assoc, List.cons_append, List.nil_append] at onward
              rw [allOffsets_lowered, notHere, guarded_cons plain, notHere, guardAt?, sliced,
                if_neg Bool.false_ne_true, if_neg Bool.false_ne_true]
              have widths : byteLength (front ++ pending) + '<'.utf8Size + '/'.utf8Size =
                byteLength (front ++ pending) + 2 := rfl
              rw [widths, onward]
              rfl

/-- Breaking up end tags by offsets gives the text with its end tags broken up. -/
theorem guardEndTags?_eq {element : String} (plain : '<' ∉ element.toList) (text : String) :
    guardEndTags? element text = some (Markup.guardEndTags element text) := by
  have distinct : '<' ∉ '/' :: element.toList := by
    rw [List.mem_cons, not_or]
    exact ⟨by decide, plain⟩
  have offsets : endTagOffsets element.toList text.toList =
      allOffsets ('<' :: '/' :: element.toList) 0 (text.toList.map Char.toLower) :=
    @matchOffsets_eq '<' _ distinct [] _ List.not_mem_nil 0 0 (Nat.le_refl _)
  rw [guardEndTags?, offsets]
  exact congrArg (Option.map String.ofList) (guardAt?_allOffsets plain [] [] text.toList)

/-! ## Pages -/

def styleBlock? (css : String) : Option String := do
  let guarded ← guardEndTags? "style" css
  return "  <style>\n" ++ guarded ++ "\n  </style>"

def scriptBlock? (code : String) : Option String := do
  let guarded ← guardEndTags? "script" code
  return "  <script>\n" ++ guarded ++ "\n  </script>"

/-- Put a stylesheet and a script into a page, which is sliced where its head
and its body end.  A page without these places gives no document. -/
def mergeAt? (page : String) (css script : Option String) : Option (Option String) :=
  match offsetOf? "</head>".toList page.toList, offsetOf? "</body>".toList page.toList with
  | some headEnd, some bodyEnd =>
      if bodyEnd < headEnd then
        some none
      else do
        let head ← slice? page.toList 0 headEnd
        let style ← css.mapM styleBlock?
        let body ← slice? page.toList headEnd bodyEnd
        let code ← script.mapM scriptBlock?
        let back ← suffixAt? page.toList bodyEnd
        return some (String.ofList head ++ Document.inserted style ++ String.ofList body ++
          Document.inserted code ++ String.ofList back)
  | _, _ => some none

/-- The document for a source without a page, with its blocks already made. -/
def fallbackOf (settings : Settings) (style script : Option String) : String :=
  let line (depth : Nat) (fragments : List Markup.Fragment) : String :=
    Text.Indented.render Markup.Fragment.renderLine ⟨depth, fragments⟩
  Text.joinLines
    ((Page.preamble settings.documentTitle).map (fun (depth, fragments) => line depth fragments) ++
      style.toList ++
      Page.headEnd.map (fun (depth, fragments) => line depth fragments) ++
      [line 1 (Markup.Fragment.element "h1" [] Document.heading)] ++
      script.toList ++
      Page.ending.map (line 0))

/-- The document made of the outputs for the three targets. -/
def compose? (settings : Settings) (page css script : Option String) : Option String := do
  let merged ← page.mapM fun page => mergeAt? page css script
  match merged.join with
  | some document => return document
  | none =>
      let style ← css.mapM styleBlock?
      let code ← script.mapM scriptBlock?
      return fallbackOf settings style code

theorem mapM_styleBlock? (css : Option String) :
    css.mapM styleBlock? = some (css.map Document.styleBlock) := by
  cases css with
  | none => rfl
  | some text =>
      have guarded := @guardEndTags?_eq "style" (by decide) text
      simp only [Option.mapM_some, styleBlock?, guarded]
      rfl

theorem mapM_scriptBlock? (script : Option String) :
    script.mapM scriptBlock? = some (script.map Document.scriptBlock) := by
  cases script with
  | none => rfl
  | some text =>
      have guarded := @guardEndTags?_eq "script" (by decide) text
      simp only [Option.mapM_some, scriptBlock?, guarded]
      rfl

/-- A page takes its blocks where it can be cut. -/
theorem mergeAt?_eq (page : String) (css script : Option String) :
    mergeAt? page css script = some (Document.merge? page css script) := by
  unfold mergeAt? Document.merge? Document.cut?
  rw [offsetOf?_eq, offsetOf?_eq]
  cases headCut : splitAtFirst? "</head>".toList page.toList with
  | none => rfl
  | some headParts =>
      cases bodyCut : splitAtFirst? "</body>".toList page.toList with
      | none => rfl
      | some bodyParts =>
          rcases headParts with ⟨head, behind⟩
          rcases bodyParts with ⟨front, back⟩
          have headWhole := splitAtFirst?_append headCut
          have bodyWhole := splitAtFirst?_append bodyCut
          have headFront : head <+: page.toList := ⟨behind, headWhole⟩
          have bodyFront : front <+: page.toList := ⟨back, bodyWhole⟩
          dsimp only [Option.map_some]
          by_cases ordered : head.length ≤ front.length
          · rcases List.prefix_of_prefix_length_le headFront bodyFront ordered with ⟨middle, rfl⟩
            have notBefore : ¬byteLength (head ++ middle) < byteLength head := by
              rw [byteLength_append]
              omega
            have whole : page.toList = head ++ (middle ++ back) := by
              rw [← bodyWhole, List.append_assoc]
            have first : slice? page.toList 0 (byteLength head) = some head :=
              slice?_eq_some_iff.mpr ⟨[], middle ++ back, whole, rfl, Nat.zero_add _⟩
            have second : slice? page.toList (byteLength head) (byteLength (head ++ middle)) =
                some middle :=
              slice?_eq_some_iff.mpr ⟨head, back, whole, rfl, (byteLength_append _ _).symm⟩
            have third : suffixAt? page.toList (byteLength (head ++ middle)) = some back :=
              suffixAt?_eq_some_iff.mpr ⟨head ++ middle, bodyWhole.symm, rfl⟩
            rw [if_neg notBefore, if_pos ordered, first, second, third, mapM_styleBlock?,
              mapM_scriptBlock?, List.drop_left]
            rfl
          · have shorter : front.length < head.length := Nat.lt_of_not_le ordered
            rcases List.prefix_of_prefix_length_le bodyFront headFront (Nat.le_of_lt shorter) with
              ⟨middle, rfl⟩
            have before : byteLength front < byteLength (front ++ middle) := by
              have nonempty : middle ≠ [] := by
                rintro rfl
                simp at shorter
              have positive : byteLength middle ≠ 0 := fun zero =>
                nonempty (byteLength_eq_zero.mp zero)
              rw [byteLength_append]
              omega
            rw [if_pos before, if_neg ordered]
            rfl

/-- The document composed by offsets is the document. -/
theorem compose?_eq (settings : Settings) (page css script : Option String) :
    compose? settings page css script = some (Document.compose settings page css script) := by
  have fallback : (do
      let style ← css.mapM styleBlock?
      let code ← script.mapM scriptBlock?
      return fallbackOf settings style code) = some (Document.fallback settings css script) := by
    rw [mapM_styleBlock?, mapM_scriptBlock?]
    rfl
  unfold compose? Document.compose
  cases page with
  | none =>
      rw [Option.bind_none, Option.getD_none, ← fallback]
      rfl
  | some page =>
      rw [Option.mapM_some, mergeAt?_eq, Option.bind_some]
      cases Document.merge? page css script with
      | none =>
          rw [Option.getD_none, ← fallback]
          rfl
      | some document => rfl

end Offsets
end Pagewright
