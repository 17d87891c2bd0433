namespace Pagewright
namespace Text

/-!
# Finding one text in another

Searching always means the first occurrence from the left.  The scan keeps
what it has passed in reverse, so that long texts are searched in constant
stack, and `splitAtFirst?` returns both halves of the cut at once: no offset
is computed and then used to slice.
-/

/-- The scan behind `splitAtFirst?`, with the characters already passed. -/
def splitAtFirstFrom (needle : List Char) (passed : List Char) :
    List Char → Option (List Char × List Char)
  | [] => if needle.isEmpty then some (passed.reverse, []) else none
  | c :: cs =>
      if needle.isPrefixOf (c :: cs) then
        some (passed.reverse, c :: cs)
      else
        splitAtFirstFrom needle (c :: passed) cs

/-- Cut a text in front of the first occurrence of `needle`. -/
def splitAtFirst? (needle text : List Char) : Option (List Char × List Char) :=
  splitAtFirstFrom needle [] text

/-- Does `needle` occur in `text`?  The empty text occurs everywhere. -/
def occursIn (needle text : String) : Bool :=
  (splitAtFirst? needle.toList text.toList).isSome

/-- A cut loses nothing. -/
theorem splitAtFirstFrom_append {needle text passed front back : List Char}
    (found : splitAtFirstFrom needle passed text = some (front, back)) :
    front ++ back = passed.reverse ++ text := by
  induction text generalizing passed with
  | nil =>
      rw [splitAtFirstFrom] at found
      split at found
      case isTrue =>
          cases found
          rfl
      case isFalse => cases found
  | cons c cs ih =>
      rw [splitAtFirstFrom] at found
      split at found
      case isTrue =>
          cases found
          rfl
      case isFalse =>
          rw [ih found, List.reverse_cons, List.append_assoc, List.singleton_append]

/-- Cutting at the first occurrence and joining the halves is the identity. -/
theorem splitAtFirst?_append {needle text front back : List Char}
    (found : splitAtFirst? needle text = some (front, back)) :
    front ++ back = text := by
  simpa using splitAtFirstFrom_append found

end Text
end Pagewright
