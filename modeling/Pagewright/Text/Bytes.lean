namespace Pagewright
namespace Text

/-!
# Byte offsets

Positions that leave the library count UTF-8 bytes, while scanning works on
characters.  The two are joined here: a character list has a byte length, and
an offset names a suffix only if it falls between two characters.
-/

/-- The number of bytes that a text takes in UTF-8. -/
def byteLength : List Char → Nat
  | [] => 0
  | c :: cs => c.utf8Size + byteLength cs

/-- The rest of a text after `offset` bytes.  There is none when the offset
lies past the end or inside a character. -/
def suffixAt? : List Char → Nat → Option (List Char)
  | cs, 0 => some cs
  | [], _ + 1 => none
  | c :: cs, offset + 1 =>
      if c.utf8Size ≤ offset + 1 then
        suffixAt? cs (offset + 1 - c.utf8Size)
      else
        none

/-- A range of byte offsets; `stop` is the first offset behind it. -/
structure Span where
  start : Nat
  stop : Nat
deriving Repr, DecidableEq

@[simp]
theorem byteLength_nil : byteLength [] = 0 := rfl

@[simp]
theorem byteLength_cons (c : Char) (cs : List Char) :
    byteLength (c :: cs) = c.utf8Size + byteLength cs := rfl

@[simp]
theorem byteLength_append (front back : List Char) :
    byteLength (front ++ back) = byteLength front + byteLength back := by
  induction front with
  | nil => exact (Nat.zero_add _).symm
  | cons c front ih => rw [List.cons_append, byteLength_cons, byteLength_cons, ih, Nat.add_assoc]

/-- An offset that is the byte length of a front part names the rest. -/
theorem suffixAt?_byteLength (front back : List Char) :
    suffixAt? (front ++ back) (byteLength front) = some back := by
  induction front with
  | nil => cases back <;> rfl
  | cons c front ih =>
      have positive : 0 < c.utf8Size := Char.utf8Size_pos c
      obtain ⟨n, hn⟩ : ∃ n, c.utf8Size + byteLength front = n + 1 :=
        ⟨c.utf8Size + byteLength front - 1, by omega⟩
      have fits : c.utf8Size ≤ n + 1 := by omega
      have remaining : n + 1 - c.utf8Size = byteLength front := by omega
      simp [hn, suffixAt?, fits, remaining, ih]

end Text
end Pagewright
