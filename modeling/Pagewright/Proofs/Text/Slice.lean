import Pagewright.Text.Bytes
import Pagewright.Text.Search

namespace Pagewright
namespace Text

/-!
# Slices between byte offsets

The library scans characters and never cuts a text at an offset that it
computed.  A program on UTF-8 bytes has no such choice: it searches, gets an
offset, and slices.  Slicing is partial.  Both offsets have to lie in the text
and between two characters, and they have to be in order.

The operations here are those of such a program, with the failure kept in the
result.  A slice that exists is a piece of the text (`slice?_eq_some_iff`), so
an argument that slices exist is an argument about pieces of a text and not
about numbers.
-/

/-- The part of a text in front of `offset`.  There is none when the offset lies
past the end or inside a character. -/
def frontAt? : List Char → Nat → Option (List Char)
  | _, 0 => some []
  | [], _ + 1 => none
  | c :: cs, offset + 1 =>
      if c.utf8Size ≤ offset + 1 then
        (frontAt? cs (offset + 1 - c.utf8Size)).map (c :: ·)
      else
        none

/-- The part of a text between two byte offsets. -/
def slice? (text : List Char) (start stop : Nat) : Option (List Char) :=
  if start ≤ stop then
    (suffixAt? text start).bind fun rest => frontAt? rest (stop - start)
  else
    none

theorem byteLength_eq_zero {text : List Char} : byteLength text = 0 ↔ text = [] := by
  cases text with
  | nil => exact ⟨fun _ => rfl, fun _ => rfl⟩
  | cons c cs =>
      have positive : 0 < c.utf8Size := Char.utf8Size_pos c
      rw [byteLength_cons]
      constructor
      · intro zero
        omega
      · intro absurdity
        cases absurdity

theorem suffixAt?_eq_some_iff {text rest : List Char} {offset : Nat} :
    suffixAt? text offset = some rest ↔ ∃ front, text = front ++ rest ∧ byteLength front = offset := by
  constructor
  · intro found
    fun_induction suffixAt? text offset with
    | case1 text =>
        cases found
        exact ⟨[], rfl, rfl⟩
    | case2 => cases found
    | case3 c cs offset fits ih =>
        rcases ih found with ⟨front, whole, length⟩
        refine ⟨c :: front, congrArg (c :: ·) whole, ?_⟩
        rw [byteLength_cons, length]
        omega
    | case4 => cases found
  · rintro ⟨front, rfl, rfl⟩
    exact suffixAt?_byteLength front rest

theorem frontAt?_eq_some_iff {text front : List Char} {offset : Nat} :
    frontAt? text offset = some front ↔ ∃ rest, text = front ++ rest ∧ byteLength front = offset := by
  constructor
  · intro found
    fun_induction frontAt? text offset generalizing front with
    | case1 text =>
        cases found
        exact ⟨text, rfl, rfl⟩
    | case2 => cases found
    | case3 c cs offset fits ih =>
        rcases Option.map_eq_some_iff.mp found with ⟨inner, here, rfl⟩
        rcases ih here with ⟨rest, whole, length⟩
        refine ⟨rest, congrArg (c :: ·) whole, ?_⟩
        rw [byteLength_cons, length]
        omega
    | case4 => cases found
  · rintro ⟨rest, rfl, rfl⟩
    induction front with
    | nil => cases rest <;> rfl
    | cons c front ih =>
        have positive : 0 < c.utf8Size := Char.utf8Size_pos c
        obtain ⟨n, hn⟩ : ∃ n, c.utf8Size + byteLength front = n + 1 :=
          ⟨c.utf8Size + byteLength front - 1, by omega⟩
        have fits : c.utf8Size ≤ n + 1 := by omega
        have remaining : n + 1 - c.utf8Size = byteLength front := by omega
        rw [List.cons_append, byteLength_cons, hn, frontAt?, if_pos fits, remaining, ih, Option.map_some]

/-- A slice is a piece of the text, and its offsets are where it begins and
ends. -/
theorem slice?_eq_some_iff {text middle : List Char} {start stop : Nat} :
    slice? text start stop = some middle ↔
      ∃ front back, text = front ++ (middle ++ back) ∧ byteLength front = start ∧
        byteLength front + byteLength middle = stop := by
  unfold slice?
  constructor
  · intro found
    split at found
    case isFalse => cases found
    case isTrue ordered =>
        rcases Option.bind_eq_some_iff.mp found with ⟨rest, behind, inFront⟩
        rcases suffixAt?_eq_some_iff.mp behind with ⟨front, whole, begins⟩
        rcases frontAt?_eq_some_iff.mp inFront with ⟨back, split, length⟩
        exact ⟨front, back, split ▸ whole, begins, by omega⟩
  · rintro ⟨front, back, whole, rfl, rfl⟩
    have behind : suffixAt? text (byteLength front) = some (middle ++ back) :=
      suffixAt?_eq_some_iff.mpr ⟨front, whole, rfl⟩
    rw [if_pos (Nat.le_add_right _ _), behind, Option.bind_some, Nat.add_sub_cancel_left]
    exact frontAt?_eq_some_iff.mpr ⟨back, rfl, rfl⟩

/-! ## Searching for offsets -/

/-- The byte offset of the first occurrence of `needle`. -/
def offsetOf? (needle : List Char) : List Char → Option Nat
  | [] => if needle.isEmpty then some 0 else none
  | c :: cs =>
      if needle.isPrefixOf (c :: cs) then
        some 0
      else
        (offsetOf? needle cs).map (c.utf8Size + ·)

private theorem map_splitAtFirstFrom (needle passed text : List Char) :
    (splitAtFirstFrom needle passed text).map (fun cut => byteLength cut.1) =
      (offsetOf? needle text).map (byteLength passed.reverse + ·) := by
  induction text generalizing passed with
  | nil =>
      rw [splitAtFirstFrom, offsetOf?]
      split
      · rfl
      · rfl
  | cons c cs ih =>
      rw [splitAtFirstFrom, offsetOf?]
      split
      · rfl
      · rw [ih, Option.map_map, List.reverse_cons, byteLength_append]
        congr 1
        funext offset
        simp only [byteLength_cons, byteLength_nil, Nat.add_zero, Nat.add_assoc, Function.comp_apply]

/-- The offset of the first occurrence is the length of what stands in front of
it. -/
theorem offsetOf?_eq (needle text : List Char) :
    offsetOf? needle text = (splitAtFirst? needle text).map fun cut => byteLength cut.1 := by
  rw [splitAtFirst?, map_splitAtFirstFrom]
  simp only [List.reverse_nil, byteLength_nil, Nat.zero_add, Option.map_id']

/-- A single character is found at its first place. -/
theorem offsetOf?_char {c : Char} {front : List Char} (absent : c ∉ front) (back : List Char) :
    offsetOf? [c] (front ++ c :: back) = some (byteLength front) := by
  induction front with
  | nil =>
      have here : [c].isPrefixOf (c :: back) = true := by simp
      rw [List.nil_append, offsetOf?, if_pos here]
      rfl
  | cons d front ih =>
      have elsewhere : ¬[c].isPrefixOf (d :: (front ++ c :: back)) = true := by
        simpa using List.ne_of_not_mem_cons absent
      rw [List.cons_append, offsetOf?, if_neg elsewhere, ih (List.not_mem_of_not_mem_cons absent)]
      rfl

theorem offsetOf?_of_notMem {c : Char} {text : List Char} (absent : c ∉ text) :
    offsetOf? [c] text = none := by
  induction text with
  | nil => rfl
  | cons d text ih =>
      have elsewhere : ¬[c].isPrefixOf (d :: text) = true := by
        simpa using List.ne_of_not_mem_cons absent
      rw [offsetOf?, if_neg elsewhere, ih (List.not_mem_of_not_mem_cons absent)]
      rfl

end Text
end Pagewright
