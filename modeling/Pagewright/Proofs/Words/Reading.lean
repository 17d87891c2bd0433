import Pagewright.Word

namespace Pagewright

/-!
# The words of a line as a relation

A line is read in one pass, which carries the word that it is inside of.  What is
claimed about words is about whole words, and a proof by induction on the pass
would meet each of them character by character.

`Token.Reads` states the result of the pass on whole words.  A line consists of
blanks and words, and each word stands in front of a rest that lets it be read as
it is (`Word.Stands`).  A quoted word may stand in front of anything.  A bare word
reaches up to a blank or to a quote that opens a quoted word, and a quote in it
has no quote behind it on the whole line: this is where the rest matters.

The relation describes the pass completely (`Token.reads_iff`), so that what is
claimed about the words of a line needs no induction on the pass.
-/

open Text (isBlank byteLength byteLength_cons byteLength_append)

namespace Word

/-- A word as it is written. -/
def spelling (word : Word) : List Char :=
  if word.quoted then '"' :: (word.text.toList ++ ['"']) else word.text.toList

@[simp]
theorem spelling_quoted (text : String) :
    spelling ⟨text, true⟩ = '"' :: (text.toList ++ ['"']) := rfl

@[simp]
theorem spelling_bare (text : String) : spelling ⟨text, false⟩ = text.toList := rfl

/-- Only quotes are added to a word when it is written. -/
theorem mem_text_of_mem_spelling {word : Word} {c : Char} (unquoted : c ≠ '"')
    (member : c ∈ word.spelling) : c ∈ word.text.toList := by
  unfold spelling at member
  split at member
  · simpa [unquoted] using member
  · exact member

theorem mem_spelling_of_mem_text {word : Word} {c : Char} (member : c ∈ word.text.toList) :
    c ∈ word.spelling := by
  unfold spelling
  split
  · simp [member]
  · exact member

/-- A bare word ends in front of this rest. -/
def EndsBare : List Char → Prop
  | [] => True
  | c :: cs => isBlank c = true ∨ c = '"' ∧ '"' ∈ cs

/-- No quote in a text has another one behind it, in the text or in the rest. -/
def Unclosed (text rest : List Char) : Prop :=
  ∀ front back, text = front ++ '"' :: back → '"' ∉ back ++ rest

theorem unclosed_of_notMem {text : List Char} (absent : '"' ∉ text) (rest : List Char) :
    Unclosed text rest := by
  rintro front back rfl
  exact absurd (List.mem_append_right front List.mem_cons_self) absent

/-- Only the quotes of the rest matter. -/
theorem Unclosed.imp {text rest other : List Char} (unclosed : Unclosed text rest)
    (fewer : '"' ∈ other → '"' ∈ rest) : Unclosed text other := by
  intro front back parts member
  apply unclosed front back parts
  rcases List.mem_append.mp member with inText | behind
  · exact List.mem_append_left rest inText
  · exact List.mem_append_right back (fewer behind)

theorem unclosed_cons {c : Char} {text rest : List Char} :
    Unclosed (c :: text) rest ↔ (c = '"' → '"' ∉ text ++ rest) ∧ Unclosed text rest := by
  constructor
  · intro unclosed
    constructor
    · rintro rfl
      exact unclosed [] text rfl
    · intro front back parts
      exact unclosed (c :: front) back (congrArg (c :: ·) parts)
  · rintro ⟨first, later⟩ front back parts
    cases front with
    | nil =>
        rcases List.cons.inj parts with ⟨same, rfl⟩
        exact first same
    | cons d front => exact later front back (List.cons.inj parts).2

theorem unclosed_singleton {c : Char} {rest : List Char} (unclosed : c = '"' → '"' ∉ rest) :
    Unclosed [c] rest :=
  unclosed_cons.mpr ⟨unclosed, unclosed_of_notMem List.not_mem_nil rest⟩

/-- In front of this rest the word is read as it is. -/
inductive Stands : Word → List Char → Prop
  | quoted {text : String} (absent : '"' ∉ text.toList) (rest : List Char) :
      Stands ⟨text, true⟩ rest
  | bare {text : String} {rest : List Char} (nonempty : text.toList ≠ [])
      (visible : ∀ c ∈ text.toList, isBlank c = false)
      (unclosed : Unclosed text.toList rest) (ends : EndsBare rest) :
      Stands ⟨text, false⟩ rest

theorem Stands.spelling_ne_nil {word : Word} {rest : List Char} (stands : word.Stands rest) :
    word.spelling ≠ [] := by
  cases stands with
  | quoted => exact List.cons_ne_nil _ _
  | bare nonempty => exact nonempty

end Word

namespace Token

/-- The words of the rest of a line that starts at `offset`. -/
inductive Reads : (offset : Nat) → List Char → List Token → Prop
  | done (offset : Nat) : Reads offset [] []
  | blank {offset : Nat} {c : Char} {cs : List Char} {tokens : List Token}
      (blank : isBlank c = true) (later : Reads (offset + c.utf8Size) cs tokens) :
      Reads offset (c :: cs) tokens
  | word {offset : Nat} {word : Word} {rest : List Char} {tokens : List Token}
      (stands : word.Stands rest) (later : Reads (offset + byteLength word.spelling) rest tokens) :
      Reads offset (word.spelling ++ rest) (⟨word, offset⟩ :: tokens)

/-! ## The pass -/

section Pass

variable {mode : Mode} {c : Char} {cs : List Char}

theorem ne_quote_of_isBlank (blank : isBlank c = true) : c ≠ '"' := by
  rintro rfl
  revert blank
  decide

theorem scan_opening (outside : ∀ start reversed, mode ≠ .quoted start reversed)
    (closed : '"' ∈ cs) (offset : Nat) (found : List Token) :
    scan ('"' :: cs) offset mode found =
      scan cs (offset + 1) (.quoted offset []) (mode.flush found) := by
  rw [scan.eq_3 _ _ _ _ _ outside, if_pos (by simpa using closed)]
  rfl

theorem scan_blank (outside : ∀ start reversed, mode ≠ .quoted start reversed)
    (blank : isBlank c = true) (offset : Nat) (found : List Token) :
    scan (c :: cs) offset mode found =
      scan cs (offset + c.utf8Size) .gap (mode.flush found) := by
  have other := ne_quote_of_isBlank blank
  rw [scan.eq_3 _ _ _ _ _ outside, if_neg (by simp [other]), if_pos blank]

theorem scan_visible (outside : ∀ start reversed, mode ≠ .quoted start reversed)
    (visible : isBlank c = false) (unclosed : c = '"' → '"' ∉ cs) (offset : Nat)
    (found : List Token) :
    scan (c :: cs) offset mode found =
      scan cs (offset + c.utf8Size) (mode.extend offset c) found := by
  rw [scan.eq_3 _ _ _ _ _ outside, if_neg (by simpa using unclosed), if_neg (by simp [visible])]

theorem scan_inside {inside : List Char} (absent : '"' ∉ inside) (back : List Char)
    (offset start : Nat) (reversed : List Char) (found : List Token) :
    scan (inside ++ '"' :: back) offset (.quoted start reversed) found =
      scan back (offset + byteLength (inside ++ ['"'])) .gap
        (⟨⟨String.ofList (reversed.reverse ++ inside), true⟩, start⟩ :: found) := by
  induction inside generalizing offset reversed with
  | nil =>
      rw [List.nil_append, scan, if_pos rfl, List.append_nil]
      rfl
  | cons c inside ih =>
      have other : c ≠ '"' := fun same => absent (same ▸ List.mem_cons_self)
      rw [List.cons_append, scan, if_neg other, ih (List.not_mem_of_not_mem_cons absent),
        List.reverse_cons, List.append_assoc, List.singleton_append, List.cons_append,
        byteLength_cons, Nat.add_assoc]

theorem scan_run {text rest : List Char} (visible : ∀ c ∈ text, isBlank c = false)
    (unclosed : Word.Unclosed text rest) (offset start : Nat) (reversed : List Char)
    (found : List Token) :
    scan (text ++ rest) offset (.bare start reversed) found =
      scan rest (offset + byteLength text) (.bare start (text.reverse ++ reversed)) found := by
  induction text generalizing offset reversed with
  | nil => rfl
  | cons c text ih =>
      rcases List.forall_mem_cons.mp visible with ⟨first, others⟩
      rcases Word.unclosed_cons.mp unclosed with ⟨here, later⟩
      rw [List.cons_append, scan_visible (fun _ _ => Mode.noConfusion) first here, Mode.extend,
        ih others later, List.reverse_cons, List.append_assoc, List.singleton_append,
        byteLength_cons, Nat.add_assoc]

/-- Where a bare word ends, it might as well have been finished before. -/
theorem scan_ends {rest : List Char} (ends : Word.EndsBare rest) (offset start : Nat)
    (reversed : List Char) (found : List Token) :
    scan rest offset (.bare start reversed) found =
      scan rest offset .gap (⟨⟨String.ofList reversed.reverse, false⟩, start⟩ :: found) := by
  cases rest with
  | nil => rfl
  | cons c cs =>
      rcases ends with blank | ⟨rfl, closed⟩
      · rw [scan_blank (fun _ _ => Mode.noConfusion) blank,
          scan_blank (fun _ _ => Mode.noConfusion) blank]
        rfl
      · rw [scan_opening (fun _ _ => Mode.noConfusion) closed,
          scan_opening (fun _ _ => Mode.noConfusion) closed]
        rfl

end Pass

theorem scan_word {word : Word} {rest : List Char} (stands : word.Stands rest) (offset : Nat)
    (found : List Token) :
    scan (word.spelling ++ rest) offset .gap found =
      scan rest (offset + byteLength word.spelling) .gap (⟨word, offset⟩ :: found) := by
  cases stands with
  | @quoted text absent rest =>
      have closed : '"' ∈ text.toList ++ '"' :: rest :=
        List.mem_append_right _ List.mem_cons_self
      rw [Word.spelling_quoted, List.cons_append, List.append_assoc, List.singleton_append,
        scan_opening (fun _ _ => Mode.noConfusion) closed, scan_inside absent, List.reverse_nil,
        List.nil_append, String.ofList_toList, byteLength_cons, Nat.add_assoc]
      rfl
  | @bare text rest nonempty visible unclosed ends =>
      rw [Word.spelling_bare]
      cases letters : text.toList with
      | nil => exact absurd letters nonempty
      | cons c cs =>
          rw [letters] at visible unclosed
          rcases List.forall_mem_cons.mp visible with ⟨first, others⟩
          rcases Word.unclosed_cons.mp unclosed with ⟨here, later⟩
          have whole : (cs.reverse ++ [c]).reverse = text.toList := by
            rw [List.reverse_append, List.reverse_reverse, letters]
            rfl
          rw [List.cons_append, scan_visible (fun _ _ => Mode.noConfusion) first here, Mode.extend,
            scan_run others later, scan_ends ends, whole, String.ofList_toList, byteLength_cons,
            Nat.add_assoc]
          exact fun _ _ => Mode.noConfusion

/-- The pass finds the words that the relation names. -/
theorem scan_of_reads {offset : Nat} {rest : List Char} {tokens : List Token}
    (reads : Reads offset rest tokens) (found : List Token) :
    scan rest offset .gap found = found.reverse ++ tokens := by
  induction reads generalizing found with
  | done => exact (List.append_nil _).symm
  | blank blank _ ih =>
      rw [scan_blank (fun _ _ => Mode.noConfusion) blank]
      exact ih found
  | word stands _ ih =>
      rw [scan_word stands, ih, List.reverse_cons, List.append_assoc, List.singleton_append]

/-! ## Every line can be read -/

/-- A visible character that opens no quoted word begins a bare word. -/
theorem exists_bare {c : Char} {cs : List Char} (visible : isBlank c = false)
    (unclosed : c = '"' → '"' ∉ cs) :
    ∃ text rest, c :: cs = text ++ rest ∧ text ≠ [] ∧ (∀ d ∈ text, isBlank d = false) ∧
      Word.Unclosed text rest ∧ Word.EndsBare rest := by
  induction cs generalizing c with
  | nil =>
      exact ⟨[c], [], rfl, List.cons_ne_nil _ _, List.forall_mem_singleton.mpr visible,
        Word.unclosed_singleton unclosed, trivial⟩
  | cons d cs ih =>
      by_cases ends : Word.EndsBare (d :: cs)
      · exact ⟨[c], d :: cs, rfl, List.cons_ne_nil _ _, List.forall_mem_singleton.mpr visible,
          Word.unclosed_singleton unclosed, ends⟩
      · rcases not_or.mp ends with ⟨dense, unopened⟩
        have next : d = '"' → '"' ∉ cs := fun same closed => unopened ⟨same, closed⟩
        rcases ih (Bool.eq_false_iff.mpr dense) next with
          ⟨text, rest, parts, -, allVisible, noneClosed, stops⟩
        rw [parts] at unclosed
        exact ⟨c :: text, rest, congrArg (c :: ·) parts, List.cons_ne_nil _ _,
          List.forall_mem_cons.mpr ⟨visible, allVisible⟩,
          Word.unclosed_cons.mpr ⟨unclosed, noneClosed⟩, stops⟩

/-- The rest of a line has words from any offset on. -/
theorem exists_reads (rest : List Char) (offset : Nat) : ∃ tokens, Reads offset rest tokens := by
  induction length : rest.length using Nat.strongRecOn generalizing rest offset with
  | ind n ih =>
      subst length
      -- Behind a word the rest is shorter.
      have onward : ∀ {word : Word} {back : List Char}, rest = word.spelling ++ back →
          word.Stands back → ∃ tokens, Reads offset rest tokens := by
        rintro word back rfl stands
        have shorter : back.length < (word.spelling ++ back).length := by
          have positive := List.length_pos_iff.mpr stands.spelling_ne_nil
          rw [List.length_append]
          omega
        rcases ih _ shorter back (offset + byteLength word.spelling) rfl with ⟨tokens, later⟩
        exact ⟨_, .word stands later⟩
      cases rest with
      | nil => exact ⟨[], .done offset⟩
      | cons c cs =>
          by_cases blank : isBlank c = true
          · rcases ih _ (Nat.lt_succ_self _) cs (offset + c.utf8Size) rfl with ⟨tokens, later⟩
            exact ⟨tokens, .blank blank later⟩
          · by_cases opens : c = '"' ∧ '"' ∈ cs
            · rcases opens with ⟨rfl, closed⟩
              rcases List.eq_append_cons_of_mem closed with ⟨inside, back, rfl, absent⟩
              rw [← @String.toList_ofList inside] at absent
              refine @onward ⟨String.ofList inside, true⟩ back ?_ (.quoted absent back)
              rw [Word.spelling_quoted, String.toList_ofList, List.cons_append, List.append_assoc,
                List.singleton_append]
            · have unclosed : c = '"' → '"' ∉ cs := fun same closed => opens ⟨same, closed⟩
              rcases exists_bare (Bool.eq_false_iff.mpr blank) unclosed with
                ⟨text, back, parts, nonempty, visible, noneClosed, ends⟩
              rw [← @String.toList_ofList text] at parts nonempty visible noneClosed
              exact @onward ⟨String.ofList text, false⟩ back parts
                (.bare nonempty visible noneClosed ends)

/-- The relation describes the reading of a line completely. -/
theorem reads_iff {line : List Char} {tokens : List Token} :
    Reads 0 line tokens ↔ ofLine line = tokens := by
  have found : ∀ {tokens}, Reads 0 line tokens → ofLine line = tokens :=
    fun reads => scan_of_reads reads []
  constructor
  · exact found
  · rintro rfl
    rcases exists_reads line 0 with ⟨tokens, reads⟩
    rwa [found reads]

theorem reads_ofLine (line : List Char) : Reads 0 line (ofLine line) :=
  reads_iff.mpr rfl

/-! ## Parts of a line -/

/-- A character stands in one of the words. -/
def Within (c : Char) (tokens : List Token) : Prop :=
  ∃ token ∈ tokens, c ∈ token.word.text.toList

namespace Reads

variable {offset : Nat} {rest : List Char} {tokens : List Token}

/-- Behind the last word there are blanks only. -/
theorem blank_of_nil (reads : Reads offset rest []) : ∀ c ∈ rest, isBlank c = true := by
  generalize none : ([] : List Token) = tokens at reads
  induction reads with
  | done => exact fun _ member => absurd member List.not_mem_nil
  | blank blank _ ih => exact List.forall_mem_cons.mpr ⟨blank, ih none⟩
  | word => cases none

/-- In front of the first word there are blanks only. -/
theorem first {token : Token} (reads : Reads offset rest (token :: tokens)) :
    ∃ gap back, rest = gap ++ (token.word.spelling ++ back) ∧ (∀ c ∈ gap, isBlank c = true) ∧
      token.start = offset + byteLength gap ∧ token.word.Stands back ∧
      Reads (token.start + byteLength token.word.spelling) back tokens := by
  generalize whole : token :: tokens = all at reads
  induction reads with
  | done => cases whole
  | @blank offset c cs _ blank _ ih =>
      rcases ih whole with ⟨gap, back, parts, blanks, start, stands, later⟩
      refine ⟨c :: gap, back, congrArg (c :: ·) parts, List.forall_mem_cons.mpr ⟨blank, blanks⟩, ?_,
        stands, later⟩
      rw [start, byteLength_cons, Nat.add_assoc]
  | @word offset word rest _ stands later =>
      cases whole
      exact ⟨[], rest, rfl, List.forall_mem_nil _, rfl, stands, later⟩

/-- A line can be cut in front of any of its words. -/
theorem cut {before behind : List Token} {token : Token}
    (reads : Reads offset rest (before ++ token :: behind)) :
    ∃ front back, rest = front ++ (token.word.spelling ++ back) ∧
      token.start = offset + byteLength front ∧ token.word.Stands back ∧
      Reads (token.start + byteLength token.word.spelling) back behind := by
  induction before generalizing offset rest with
  | nil =>
      rcases reads.first with ⟨gap, back, parts, -, start, stands, later⟩
      exact ⟨gap, back, parts, start, stands, later⟩
  | cons earlier before ih =>
      rcases reads.first with ⟨gap, middle, parts, -, begins, -, later⟩
      rcases ih later with ⟨front, back, further, start, stands, last⟩
      refine ⟨gap ++ (earlier.word.spelling ++ front), back, ?_, ?_, stands, last⟩
      · rw [parts, further, List.append_assoc, List.append_assoc]
      · rw [start, begins, byteLength_append, byteLength_append]
        omega

/-- A word stands where it is said to start. -/
theorem stands_of_mem (reads : Reads offset rest tokens) {token : Token}
    (member : token ∈ tokens) :
    ∃ front back, rest = front ++ (token.word.spelling ++ back) ∧
      token.start = offset + byteLength front ∧ token.word.Stands back := by
  rcases List.append_of_mem member with ⟨before, behind, rfl⟩
  rcases reads.cut with ⟨front, back, parts, start, stands, -⟩
  exact ⟨front, back, parts, start, stands⟩

/-- The words do not depend on where the line starts. -/
theorem map_word (reads : Reads offset rest tokens) :
    (ofLine rest).map Token.word = tokens.map Token.word := by
  suffices moved : ∀ other, ∃ others, Reads other rest others ∧
      others.map Token.word = tokens.map Token.word by
    rcases moved 0 with ⟨others, here, same⟩
    rw [reads_iff.mp here, same]
  induction reads with
  | done => exact fun other => ⟨[], .done other, rfl⟩
  | @blank _ c _ _ blank _ ih =>
      intro other
      rcases ih (other + c.utf8Size) with ⟨others, later, same⟩
      exact ⟨others, .blank blank later, same⟩
  | @word _ word _ _ stands _ ih =>
      intro other
      rcases ih (other + byteLength word.spelling) with ⟨others, later, same⟩
      exact ⟨⟨word, other⟩ :: others, .word stands later, congrArg (word :: ·) same⟩

/-- Every character is a blank, a quote, or part of a word. -/
theorem within {c : Char} (visible : isBlank c = false) (unquoted : c ≠ '"')
    (reads : Reads offset rest tokens) (member : c ∈ rest) : Within c tokens := by
  induction reads with
  | done => cases member
  | blank blank _ ih =>
      rcases List.mem_cons.mp member with rfl | later
      · cases visible.symm.trans blank
      · exact ih later
  | @word offset word rest tokens _ _ ih =>
      rcases List.mem_append.mp member with inWord | later
      · exact ⟨_, List.mem_cons_self, Word.mem_text_of_mem_spelling unquoted inWord⟩
      · rcases ih later with ⟨token, found, holds⟩
        exact ⟨token, List.mem_cons_of_mem _ found, holds⟩

end Reads

end Token
end Pagewright
