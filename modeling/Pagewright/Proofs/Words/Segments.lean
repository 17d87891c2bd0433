import Mathlib.Data.List.Pairwise
import Pagewright.Proofs.Text.Slice
import Pagewright.Proofs.Words.Reading

namespace Pagewright

/-!
# Cutting a line at its quotes

The words of a line can also be found in two steps.  The line is cut at all its
quotes; then every second segment is the text of a quoted word, and the segments
between them are split at blanks.  One quote may be left over at the end.  It is
put back between the last two segments, which are split at blanks as one text.

Nothing in this description looks ahead, and no offset is computed.  That the
words stand where they are said to stand is a claim of its own, and follows from
the order of words, blanks and quotes on the line.
-/

open Text (isBlank byteLength byteLength_cons byteLength_append)

namespace Text

/-- The longest runs of characters that are not blank. -/
def visibleRuns (text : List Char) : List (List Char) :=
  (text.splitOnP isBlank).filter fun run => !run.isEmpty

end Text

namespace Word

/-- The bare words of a text in which quotes mean nothing. -/
def bareWords (text : List Char) : List Word :=
  (Text.visibleRuns text).map fun run => ⟨String.ofList run, false⟩

/-- The words of a line that was cut at its quotes.  The last two segments of an
even number have a quote between them that closes nothing. -/
def ofSegments : List (List Char) → List Word
  | [] => []
  | [last] => bareWords last
  | [front, back] => bareWords (front ++ '"' :: back)
  | front :: inside :: next :: others =>
      bareWords front ++ ⟨String.ofList inside, true⟩ :: ofSegments (next :: others)

/-! ## Splitting at blanks -/

@[simp]
theorem bareWords_nil : bareWords [] = [] := rfl

theorem bareWords_blank {c : Char} (blank : isBlank c = true) (text : List Char) :
    bareWords (c :: text) = bareWords text := by
  simp [bareWords, Text.visibleRuns, List.splitOnP_cons_eq_if_modifyHead, blank]

/-- A run that ends here is a word of its own. -/
theorem bareWords_run {run rest : List Char} (nonempty : run ≠ [])
    (visible : ∀ c ∈ run, isBlank c = false) (ends : ∀ c ∈ rest.head?, isBlank c = true) :
    bareWords (run ++ rest) = ⟨String.ofList run, false⟩ :: bareWords rest := by
  cases rest with
  | nil => simp [bareWords, Text.visibleRuns, List.splitOnP_eq_singleton visible, nonempty]
  | cons c rest =>
      have blank : isBlank c = true := ends c rfl
      rw [bareWords_blank blank]
      simp [bareWords, Text.visibleRuns,
        List.splitOnP_append_cons_of_forall_mem visible c blank, nonempty]

/-! ## Segments -/

/-- What stands in front of the first segment adds its words in front. -/
theorem ofSegments_extend {run first : List Char} {words : List Word}
    (added : ∀ further,
      bareWords (run ++ (first ++ further)) = words ++ bareWords (first ++ further))
    (others : List (List Char)) :
    ofSegments ((run ++ first) :: others) = words ++ ofSegments (first :: others) := by
  have alone : bareWords (run ++ first) = words ++ bareWords first := by
    simpa using added []
  match others with
  | [] => exact alone
  | [back] =>
      rw [ofSegments, ofSegments, List.append_assoc]
      exact added ('"' :: back)
  | inside :: next :: others => rw [ofSegments, ofSegments, alone, List.append_assoc]

theorem splitOn_append {text : List Char} (absent : '"' ∉ text) (rest : List Char) :
    (text ++ rest).splitOn '"' = (rest.splitOn '"').modifyHead (text ++ ·) := by
  induction text with
  | nil => exact (congrFun List.modifyHead_id _).symm
  | cons c text ih =>
      have other : c ≠ '"' := fun same => absent (same ▸ List.mem_cons_self)
      have later := ih (List.not_mem_of_not_mem_cons absent)
      rw [List.cons_append, List.splitOn_cons_eq_if_modifyHead, later]
      simp [other, Function.comp_def]

/-- A blank in front of a line adds no word. -/
theorem ofSegments_blank {c : Char} (blank : isBlank c = true) (rest : List Char) :
    ofSegments ((c :: rest).splitOn '"') = ofSegments (rest.splitOn '"') := by
  have other : '"' ∉ [c] := by simpa using (Token.ne_quote_of_isBlank blank).symm
  rcases List.exists_cons_of_ne_nil (List.splitOn_ne_nil '"' rest) with ⟨first, others, cut⟩
  rw [← List.singleton_append, splitOn_append other, cut]
  exact @ofSegments_extend [c] first [] (fun _ => bareWords_blank blank _) others

/-- A quoted word in front of a line takes the first two cuts. -/
theorem ofSegments_quoted {text : String} (absent : '"' ∉ text.toList) (rest : List Char) :
    ofSegments ((spelling ⟨text, true⟩ ++ rest).splitOn '"') =
      ⟨text, true⟩ :: ofSegments (rest.splitOn '"') := by
  have cuts : (spelling ⟨text, true⟩ ++ rest).splitOn '"' =
      [] :: text.toList :: rest.splitOn '"' := by
    rw [spelling_quoted, List.cons_append, List.append_assoc, List.singleton_append,
      ← List.nil_append ('"' :: _), List.splitOn_append_cons_self_of_not_mem List.not_mem_nil,
      List.splitOn_append_cons_self_of_not_mem absent]
  rcases List.exists_cons_of_ne_nil (List.splitOn_ne_nil '"' rest) with ⟨first, others, cut⟩
  rw [cuts, cut, ofSegments, String.ofList_toList]
  rfl

/-- A bare word without quotes belongs to the first segment. -/
theorem ofSegments_bare {text : String} {rest : List Char} (nonempty : text.toList ≠ [])
    (visible : ∀ c ∈ text.toList, isBlank c = false) (absent : '"' ∉ text.toList)
    (ends : EndsBare rest) :
    ofSegments ((text.toList ++ rest).splitOn '"') =
      ⟨text, false⟩ :: ofSegments (rest.splitOn '"') := by
  have alone : ∀ {further : List Char}, (∀ c ∈ further.head?, isBlank c = true) →
      bareWords (text.toList ++ further) = [⟨text, false⟩] ++ bareWords further := by
    intro further stops
    rw [bareWords_run nonempty visible stops, String.ofList_toList]
    rfl
  have last : bareWords (text.toList ++ []) = [⟨text, false⟩] ++ bareWords [] :=
    alone (by simp)
  rw [splitOn_append absent]
  cases rest with
  | nil => exact last
  | cons c cs =>
      rcases ends with blank | ⟨rfl, closed⟩
      · -- The blank is the first character of the first segment.
        have other : '"' ∉ [c] := by simpa using (Token.ne_quote_of_isBlank blank).symm
        rcases List.exists_cons_of_ne_nil (List.splitOn_ne_nil '"' cs) with ⟨first, others, cut⟩
        rw [← List.singleton_append, splitOn_append other, cut]
        exact ofSegments_extend (fun further => alone (by simpa using blank)) others
      · -- The first segment is the word, and the second one is quoted.
        rcases List.eq_append_cons_of_mem closed with ⟨inside, back, rfl, free⟩
        rcases List.exists_cons_of_ne_nil (List.splitOn_ne_nil '"' back) with ⟨next, others, cut⟩
        rw [← List.nil_append ('"' :: _), List.splitOn_append_cons_self_of_not_mem List.not_mem_nil,
          List.splitOn_append_cons_self_of_not_mem free, cut, List.modifyHead_cons, ofSegments, last,
          ofSegments, List.append_assoc]
        rfl

/-- A bare word with a quote in it contains the only cut. -/
theorem ofSegments_unclosed {text : String} {rest : List Char} (nonempty : text.toList ≠ [])
    (visible : ∀ c ∈ text.toList, isBlank c = false) (quote : '"' ∈ text.toList)
    (unclosed : Unclosed text.toList rest) (ends : EndsBare rest) :
    ofSegments ((text.toList ++ rest).splitOn '"') =
      ⟨text, false⟩ :: ofSegments (rest.splitOn '"') := by
  rcases List.eq_append_cons_of_mem quote with ⟨front, back, parts, absent⟩
  have none := unclosed front back parts
  have behind : '"' ∉ rest := fun member => none (List.mem_append_right back member)
  have stops : ∀ c ∈ rest.head?, isBlank c = true := by
    cases rest with
    | nil => simp
    | cons c cs =>
        rcases ends with blank | ⟨rfl, closed⟩
        · simpa using blank
        · exact absurd List.mem_cons_self behind
  have cuts : (text.toList ++ rest).splitOn '"' = [front, back ++ rest] := by
    rw [parts, List.append_assoc, List.cons_append,
      List.splitOn_append_cons_self_of_not_mem absent, List.splitOn_eq_singleton none]
  have whole : front ++ '"' :: (back ++ rest) = text.toList ++ rest := by
    rw [parts, List.append_assoc, List.cons_append]
  calc ofSegments ((text.toList ++ rest).splitOn '"')
      = bareWords (text.toList ++ rest) := by rw [cuts, ofSegments.eq_3, whole]
    _ = ⟨text, false⟩ :: bareWords rest := by
        rw [bareWords_run nonempty visible stops, String.ofList_toList]
    _ = ⟨text, false⟩ :: ofSegments (rest.splitOn '"') := by
        rw [List.splitOn_eq_singleton behind, ofSegments]

end Word

namespace Token

/-- The words of a line are those of its segments. -/
theorem Reads.map_word_eq_ofSegments {offset : Nat} {rest : List Char} {tokens : List Token}
    (reads : Reads offset rest tokens) :
    tokens.map Token.word = Word.ofSegments (rest.splitOn '"') := by
  induction reads with
  | done => rfl
  | blank blank _ ih => rw [Word.ofSegments_blank blank, ih]
  | @word offset word rest tokens stands _ ih =>
      rw [List.map_cons, ih]
      cases stands with
      | quoted absent => exact (Word.ofSegments_quoted absent _).symm
      | @bare text _ nonempty visible unclosed ends =>
          by_cases quote : '"' ∈ text.toList
          · exact (Word.ofSegments_unclosed nonempty visible quote unclosed ends).symm
          · exact (Word.ofSegments_bare nonempty visible quote ends).symm

/-! ## Positions -/

/-- The offset behind the last character of a word. -/
def stop (token : Token) : Nat :=
  token.start + byteLength token.word.spelling

/-- The character at an offset belongs to the word as it is written. -/
def Holds (token : Token) (offset : Nat) (c : Char) : Prop :=
  ∃ before after, token.word.spelling = before ++ c :: after ∧
    token.start + byteLength before = offset

theorem Holds.within {token : Token} {offset : Nat} {c : Char} (holds : token.Holds offset c) :
    token.start ≤ offset ∧ offset < token.stop := by
  rcases holds with ⟨before, after, spelled, here⟩
  have positive : 0 < c.utf8Size := Char.utf8Size_pos c
  rw [stop, spelled, byteLength_append, byteLength_cons]
  omega

section Positions

variable {offset : Nat} {rest : List Char} {tokens : List Token}

theorem Reads.start_lt_stop (reads : Reads offset rest tokens) {token : Token}
    (member : token ∈ tokens) : token.start < token.stop := by
  rcases reads.stands_of_mem member with ⟨_, _, _, _, stands⟩
  have nonempty := mt Text.byteLength_eq_zero.mp stands.spelling_ne_nil
  rw [stop]
  omega

/-- A word ends before the next one starts. -/
theorem Reads.pairwise (reads : Reads offset rest tokens) :
    tokens.Pairwise (fun earlier later => earlier.stop ≤ later.start) ∧
      ∀ token ∈ tokens, offset ≤ token.start := by
  induction reads with
  | done => simp
  | blank _ _ ih =>
      refine ⟨ih.1, fun token member => ?_⟩
      have behind := ih.2 token member
      omega
  | word _ _ ih =>
      refine ⟨List.pairwise_cons.mpr ⟨ih.2, ih.1⟩, List.forall_mem_cons.mpr ⟨Nat.le_refl _, ?_⟩⟩
      intro token member
      have behind := ih.2 token member
      omega

/-- Two words with a position in common are the same word. -/
theorem Reads.eq_of_holds (reads : Reads offset rest tokens) {left right : Token}
    (leftMember : left ∈ tokens) (rightMember : right ∈ tokens) {place : Nat} {c d : Char}
    (leftHolds : left.Holds place c) (rightHolds : right.Holds place d) : left = right := by
  let Apart (one other : Token) : Prop := one.stop ≤ other.start ∨ other.stop ≤ one.start
  have symmetric : Std.Symm Apart := ⟨fun _ _ => Or.symm⟩
  have apart : tokens.Pairwise Apart := reads.pairwise.1.imp Or.inl
  by_contra different
  have order : Apart left right := apart.forall leftMember rightMember different
  have inLeft := leftHolds.within
  have inRight := rightHolds.within
  omega

/-- Every visible character belongs to a word. -/
theorem Reads.exists_holds (reads : Reads offset rest tokens) {front back : List Char} {c : Char}
    (here : rest = front ++ c :: back) (visible : isBlank c = false) :
    ∃ token ∈ tokens, token.Holds (offset + byteLength front) c := by
  induction reads generalizing front with
  | done => simp at here
  | @blank offset d cs tokens blank _ ih =>
      cases front with
      | nil =>
          cases (List.cons.inj here).1
          cases visible.symm.trans blank
      | cons first front =>
          rcases List.cons.inj here with ⟨rfl, further⟩
          rcases ih further with ⟨token, member, holds⟩
          rw [Nat.add_assoc] at holds
          exact ⟨token, member, holds⟩
  | @word offset word rest tokens stands _ ih =>
      -- Either the character is one of the word, or it stands behind the word.
      have later : ∀ {further}, rest = further ++ c :: back →
          ∃ token ∈ ⟨word, offset⟩ :: tokens,
            token.Holds (offset + byteLength (word.spelling ++ further)) c := by
        intro further parts
        rcases ih parts with ⟨token, member, holds⟩
        rw [Nat.add_assoc, ← byteLength_append] at holds
        exact ⟨token, List.mem_cons_of_mem _ member, holds⟩
      rcases List.append_eq_append_iff.mp here with ⟨further, rfl, behind⟩ | ⟨tail, spelled, behind⟩
      · exact later behind
      · cases tail with
        | nil =>
            have passed := @later [] behind.symm
            rw [List.append_nil] at spelled passed
            rwa [spelled] at passed
        | cons d tail =>
            rcases List.cons.inj behind with ⟨rfl, -⟩
            exact ⟨_, List.mem_cons_self, front, tail, spelled, rfl⟩

end Positions

/-- The words of a line are those of its segments: bare words between quotes, and
quoted words where a quote is closed.  Each stands where it is said to start,
they start one behind the other, and a visible character outside of quoted words
belongs to exactly one bare word. -/
theorem words_of_segments (line : List Char) :
    (ofLine line).map Token.word = Word.ofSegments (line.splitOn '"') ∧
      (∀ token ∈ ofLine line, ∃ front back,
        line = front ++ (token.word.spelling ++ back) ∧ byteLength front = token.start) ∧
      (ofLine line).Pairwise (fun earlier later => earlier.start < later.start) ∧
      ∀ front c back, line = front ++ c :: back → isBlank c = false →
        (∀ token ∈ ofLine line, token.word.quoted = true → ¬token.Holds (byteLength front) c) →
          ∃! token, token ∈ ofLine line ∧ token.word.quoted = false ∧
            token.Holds (byteLength front) c := by
  have reads := reads_ofLine line
  refine ⟨reads.map_word_eq_ofSegments, ?_, ?_, ?_⟩
  · intro token member
    rcases reads.stands_of_mem member with ⟨front, back, parts, start, -⟩
    exact ⟨front, back, parts, by omega⟩
  · apply reads.pairwise.1.imp_of_mem
    intro earlier later member _ separate
    have nonempty := reads.start_lt_stop member
    omega
  · intro front c back here visible outside
    rcases reads.exists_holds here visible with ⟨token, member, holds⟩
    rw [Nat.zero_add] at holds
    have bare : token.word.quoted = false :=
      Bool.eq_false_iff.mpr fun quoted => outside token member quoted holds
    refine ⟨token, ⟨member, bare, holds⟩, ?_⟩
    rintro other ⟨otherMember, -, otherHolds⟩
    exact reads.eq_of_holds otherMember member otherHolds holds

/-- A word glued to a quoted one, and a quote that nothing closes. -/
def glued : List Char := "أ\"ب ج\" د\"ه".toList

theorem words_of_segments_glued :
    glued.splitOn '"' = ["أ".toList, "ب ج".toList, " د".toList, "ه".toList] ∧
      (ofLine glued).map Token.word = [⟨"أ", false⟩, ⟨"ب ج", true⟩, ⟨"د\"ه", false⟩] ∧
      glued = glued.take 9 ++ 'ه' :: [] ∧
      ∃! token, token ∈ ofLine glued ∧ token.word.quoted = false ∧ token.Holds 13 'ه' := by
  have segments : glued.splitOn '"' = ["أ".toList, "ب ج".toList, " د".toList, "ه".toList] := by
    decide +kernel
  have words : Word.ofSegments ["أ".toList, "ب ج".toList, " د".toList, "ه".toList] =
      [⟨"أ", false⟩, ⟨"ب ج", true⟩, ⟨"د\"ه", false⟩] := by decide +kernel
  have tokens : ofLine glued = [⟨⟨"أ", false⟩, 0⟩, ⟨⟨"ب ج", true⟩, 2⟩, ⟨⟨"د\"ه", false⟩, 10⟩] := by
    decide +kernel
  have last : glued = glued.take 9 ++ 'ه' :: [] := by decide +kernel
  have place : byteLength (glued.take 9) = 13 := by decide +kernel
  rcases words_of_segments glued with ⟨cut, -, -, belongs⟩
  have unique := belongs (glued.take 9) 'ه' [] last (by decide)
  rw [place] at unique
  refine ⟨segments, by rw [cut, segments, words], last, unique ?_⟩
  intro token member quoted holds
  rw [tokens] at member
  have within := holds.within
  have behind : stop ⟨⟨"ب ج", true⟩, 2⟩ = 9 := by decide +kernel
  simp only [List.mem_cons, List.not_mem_nil, or_false] at member
  rcases member with rfl | rfl | rfl
  · cases quoted
  · omega
  · cases quoted

end Token
end Pagewright
