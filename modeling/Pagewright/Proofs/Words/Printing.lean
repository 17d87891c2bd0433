import Pagewright.Proofs.Words.Keys

namespace Pagewright

/-!
# Writing commands back

A command is written as the words of its key and its arguments, with blanks
between them and around them.  Reading such a line gives the command back.  For
the keys in the tables of commands the arguments may be anything that can be
written at all: a bare word without blanks and quotes, or a quoted word without
quotes.

The words of a line that was read may hold more than that, because a quote that
nothing closes belongs to a bare word.  It still has no quote behind it when the
words are written anew in the same order (`Word.Legible`), and so every command
that was read can be written back.
-/

open Text (isBlank byteLength byteLength_cons byteLength_append)

namespace Word

/-- Words one behind the other, with blanks between them. -/
inductive Written : List Word → List Char → Prop
  | nil : Written [] []
  | single (word : Word) : Written [word] word.spelling
  | cons {word next : Word} {others : List Word} {gap text : List Char} (nonempty : gap ≠ [])
      (blanks : ∀ c ∈ gap, isBlank c = true) (later : Written (next :: others) text) :
      Written (word :: next :: others) (word.spelling ++ (gap ++ text))

/-- The words with single spaces between them. -/
def line (words : List Word) : List Char :=
  [' '].intercalate (words.map spelling)

/-- A word that can be written anywhere: no quotes in it, and blanks only in
quotes. -/
structure Writable (word : Word) : Prop where
  unquoted : '"' ∉ word.text.toList
  bare : word.quoted = false →
    word.text.toList ≠ [] ∧ ∀ c ∈ word.text.toList, isBlank c = false

/-- Words that can be written in this order.  A bare word may hold a quote that
neither it nor a later word closes. -/
inductive Legible : List Word → Prop
  | nil : Legible []
  | quoted {text : String} {others : List Word} (absent : '"' ∉ text.toList)
      (later : Legible others) : Legible (⟨text, true⟩ :: others)
  | bare {text : String} {others : List Word} (bare : IsBare ⟨text, false⟩)
      (unclosed : Unclosed text.toList (others.flatMap spelling)) (later : Legible others) :
      Legible (⟨text, false⟩ :: others)

theorem written_line (words : List Word) : Written words (line words) := by
  unfold line
  induction words with
  | nil => exact .nil
  | cons word others ih =>
      cases others with
      | nil => simpa using Written.single word
      | cons next others =>
          rw [List.map_cons, List.map_cons, List.intercalate_cons_cons, List.append_assoc]
          exact .cons (List.cons_ne_nil _ _) (List.all_eq_true.mp rfl) ih

theorem legible_of_writable {words : List Word} (writable : ∀ word ∈ words, word.Writable) :
    Legible words := by
  induction words with
  | nil => exact .nil
  | cons word others ih =>
      rcases List.forall_mem_cons.mp writable with ⟨first, later⟩
      rcases word with ⟨text, quoted⟩
      cases quoted with
      | true => exact .quoted first.unquoted (ih later)
      | false =>
          rcases first.bare rfl with ⟨nonempty, visible⟩
          exact .bare ⟨rfl, nonempty, visible⟩ (unclosed_of_notMem first.unquoted _) (ih later)

/-! ## Reading what was written -/

theorem Written.mem {words : List Word} {text : List Char} (written : Written words text) {c : Char}
    (member : c ∈ text) (visible : isBlank c = false) : c ∈ words.flatMap spelling := by
  induction written with
  | nil => cases member
  | single => simpa using member
  | @cons word next others gap text _ blanks _ ih =>
      rw [List.flatMap_cons, List.mem_append]
      rcases List.mem_append.mp member with inWord | behind
      · exact .inl inWord
      · rcases List.mem_append.mp behind with inGap | later
        · rw [blanks c inGap] at visible
          cases visible
        · exact .inr (ih later)

/-- A bare word ends in front of blanks. -/
theorem endsBare_append {gap : List Char} (nonempty : gap ≠ [])
    (blanks : ∀ c ∈ gap, isBlank c = true) (rest : List Char) : EndsBare (gap ++ rest) := by
  cases gap with
  | nil => exact absurd rfl nonempty
  | cons c gap => exact .inl (blanks c List.mem_cons_self)

/-- A legible word may be written in front of words that may follow it. -/
theorem Legible.stands {word : Word} {others : List Word} (legible : Legible (word :: others))
    {rest : List Char} (ends : EndsBare rest)
    (quotes : '"' ∈ rest → '"' ∈ others.flatMap spelling) : word.Stands rest ∧ Legible others := by
  cases legible with
  | quoted absent later => exact ⟨.quoted absent rest, later⟩
  | bare bare unclosed later =>
      exact ⟨.bare bare.nonempty bare.visible (unclosed.imp quotes) ends, later⟩

theorem Legible.alone {word : Word} {others : List Word} (legible : Legible (word :: others)) :
    word.Stands [] ∧ Legible others :=
  @Legible.stands _ _ legible [] trivial (absurd · List.not_mem_nil)

/-- Written words begin with the first word, and neither end is blank. -/
theorem Written.trimmed {word : Word} {others : List Word} {text : List Char}
    (written : Written (word :: others) text) (legible : Legible (word :: others)) :
    Text.Trimmed text ∧
      ∃ rest, text = word.spelling ++ rest ∧ ∀ c ∈ rest.head?, isBlank c = true := by
  generalize whole : word :: others = words at written
  induction written generalizing word others with
  | nil => cases whole
  | single =>
      cases whole
      rcases legible.alone with ⟨stands, -⟩
      exact ⟨stands.trimmed, [], (List.append_nil _).symm, by simp⟩
  | @cons _ _ _ gap text nonempty blanks _ ih =>
      cases whole
      rcases legible.alone with ⟨stands, later⟩
      rcases ih later rfl with ⟨trimmed, rest, rfl, -⟩
      rcases later.alone with ⟨next, -⟩
      refine ⟨stands.trimmed.append stands.spelling_ne_nil trimmed ?_ gap, _, rfl, ?_⟩
      · exact List.append_ne_nil_of_left_ne_nil next.spelling_ne_nil rest
      · cases gap with
        | nil => exact absurd rfl nonempty
        | cons c gap => simpa using blanks c List.mem_cons_self

/-- The bare words of a text without quotes can be written anywhere. -/
theorem writable_of_mem_bareWords {text : List Char} (absent : '"' ∉ text) {word : Word}
    (member : word ∈ bareWords text) : word.Writable := by
  have unquoted : word.quoted = false := by
    rcases List.mem_map.mp member with ⟨run, -, rfl⟩
    rfl
  have reads := Token.reads_ofLine text
  have found := reads.map_word_eq_ofSegments
  rw [List.splitOn_eq_singleton absent, ofSegments] at found
  rw [← found] at member
  rcases List.mem_map.mp member with ⟨token, listed, rfl⟩
  rcases reads.stands_of_mem listed with ⟨front, back, parts, -, stands⟩
  have bare := stands.isBare unquoted
  refine ⟨fun inside => absent ?_, fun _ => ⟨bare.nonempty, bare.visible⟩⟩
  rw [parts, spelling, if_neg (by simp [unquoted])]
  exact List.mem_append_right front (List.mem_append_left back inside)

end Word

namespace Token

/-- Blanks in front of a line add no words. -/
theorem Reads.gap {offset : Nat} {gap rest : List Char} {tokens : List Token}
    (blanks : ∀ c ∈ gap, isBlank c = true) (later : Reads (offset + byteLength gap) rest tokens) :
    Reads offset (gap ++ rest) tokens := by
  induction gap generalizing offset with
  | nil => exact later
  | cons c gap ih =>
      rcases List.forall_mem_cons.mp blanks with ⟨first, others⟩
      rw [byteLength_cons, ← Nat.add_assoc] at later
      exact .blank first (ih others later)

/-- Legible words are read as they were written. -/
theorem exists_reads_written {words : List Word} {text : List Char} (legible : Word.Legible words)
    (written : Word.Written words text) (offset : Nat) :
    ∃ tokens, Reads offset text tokens ∧ tokens.map Token.word = words := by
  induction written generalizing offset with
  | nil => exact ⟨[], .done offset, rfl⟩
  | single word =>
      rcases legible.alone with ⟨stands, -⟩
      have reads := Reads.word stands (.done (offset + byteLength word.spelling))
      rw [List.append_nil] at reads
      exact ⟨_, reads, rfl⟩
  | @cons word next others gap text nonempty blanks later ih =>
      have quotes : '"' ∈ gap ++ text → '"' ∈ (next :: others).flatMap Word.spelling := by
        intro member
        rcases List.mem_append.mp member with inGap | inText
        · exact absurd rfl (ne_quote_of_isBlank (blanks _ inGap))
        · exact later.mem inText (by decide)
      rcases legible.stands (Word.endsBare_append nonempty blanks text) quotes with
        ⟨stands, legibleLater⟩
      rcases ih legibleLater (offset + byteLength word.spelling + byteLength gap) with
        ⟨tokens, reads, same⟩
      exact ⟨⟨word, offset⟩ :: tokens, .word stands (reads.gap blanks), congrArg (word :: ·) same⟩

/-- The words of a line are legible in their order. -/
theorem Reads.legible {offset : Nat} {rest : List Char} {tokens : List Token}
    (reads : Reads offset rest tokens) : Word.Legible (tokens.map Token.word) := by
  induction reads with
  | done => exact .nil
  | blank _ _ ih => exact ih
  | @word offset word rest tokens stands later ih =>
      cases stands with
      | quoted absent => exact .quoted absent ih
      | bare nonempty visible unclosed =>
          refine .bare ⟨rfl, nonempty, visible⟩ (unclosed.imp fun member => ?_) ih
          -- A quote in a later word stands on the rest of the line.
          rcases List.mem_flatMap.mp member with ⟨word, listed, inWord⟩
          rcases List.mem_map.mp listed with ⟨token, found, rfl⟩
          rcases later.stands_of_mem found with ⟨front, back, parts, -, -⟩
          rw [parts]
          exact List.mem_append_right front (List.mem_append_left back inWord)

end Token

namespace Command

/-! ## Reading commands again -/

/-- A key and its arguments are read as they were written, if the key is as long
as it should be and does not begin a comment. -/
theorem ofLine?_written {key arguments : List Word} {lead text trail : List Char}
    (legible : Word.Legible (key ++ arguments)) (written : Word.Written (key ++ arguments) text)
    (length : keyLength (key ++ arguments) = key.length)
    (begins : (key ++ arguments).head?.any (fun word => isCommandLine word.spelling) = true)
    (leading : ∀ c ∈ lead, isBlank c = true) (trailing : ∀ c ∈ trail, isBlank c = true) :
    ∃ command, ofLine? (String.ofList (lead ++ (text ++ trail))) = some command ∧
      command.key = String.intercalate " " (key.map Word.text) ∧ command.words = arguments := by
  rcases Token.exists_reads_written legible written 0 with ⟨tokens, reads, same⟩
  rcases Option.any_eq_true _ _ |>.mp begins with ⟨word, first, holds⟩
  rcases List.head?_eq_some_iff.mp first with ⟨others, whole⟩
  rw [whole] at written legible
  rcases written.trimmed legible with ⟨trimmed, rest, parts, blank⟩
  rcases legible.alone with ⟨stands, -⟩
  have nonempty : text ≠ [] := by
    rw [parts]
    exact List.append_ne_nil_of_left_ne_nil stands.spelling_ne_nil rest
  have isCommand : isCommandLine text = true := by
    have other : ∀ c ∈ rest.head?, c ≠ '/' := by
      rintro c next rfl
      cases (blank _ next).symm.trans (by decide : isBlank '/' = false)
    rw [parts, isCommandLine_append stands.spelling_ne_nil other, holds]
  refine ⟨ofTokens text tokens, ?_, ?_, ?_⟩
  · rw [ofLine?, String.toList_ofList, Text.trimChars_of_trimmed leading nonempty trimmed trailing]
    simp only [isCommand, if_true, Token.reads_iff.mp reads]
  · simp [ofTokens, same, length]
  · rw [words, ofTokens, List.map_drop, same, length, List.drop_left]

/-- The keys in the tables are read with any arguments. -/
theorem ofLine?_of_knows {target : Target} {key : String} (known : target.knows key = true)
    {arguments : List Word} (writable : ∀ word ∈ arguments, word.Writable)
    {lead text trail : List Char}
    (written : Word.Written (Word.bareWords key.toList ++ arguments) text)
    (leading : ∀ c ∈ lead, isBlank c = true) (trailing : ∀ c ∈ trail, isBlank c = true) :
    ∃ command, ofLine? (String.ofList (lead ++ (text ++ trail))) = some command ∧
      command.key = key ∧ command.words = arguments := by
  have tabled := isTableKey_of_knows known
  simp only [isTableKey, Bool.and_eq_true, beq_iff_eq, Bool.not_eq_true', List.contains_eq_mem,
    decide_eq_false_iff_not, Option.all_eq_true] at tabled
  rcases tabled with ⟨⟨⟨complete, joined⟩, unquoted⟩, isCommand⟩
  have legible : Word.Legible (Word.bareWords key.toList ++ arguments) := by
    apply Word.legible_of_writable
    intro word member
    rcases List.mem_append.mp member with inKey | argument
    · exact Word.writable_of_mem_bareWords unquoted inKey
    · exact writable word argument
  have length : keyLength (Word.bareWords key.toList ++ arguments) =
      (Word.bareWords key.toList).length := by
    rw [Word.bareWords, List.length_map]
    exact keyLength_append complete arguments
  have begins : (Word.bareWords key.toList ++ arguments).head?.any
      (fun word => isCommandLine word.spelling) = true := by
    unfold Word.bareWords
    cases runs : Text.visibleRuns key.toList with
    | nil => simp [runs, isCompleteKey] at complete
    | cons run others => simpa using isCommand run (by rw [runs]; rfl)
  have same : String.intercalate " " ((Word.bareWords key.toList).map Word.text) = key := by
    rw [← String.toList_inj, String.toList_intercalate, Word.bareWords]
    simpa [Function.comp_def] using joined
  rcases ofLine?_written legible written length begins leading trailing with
    ⟨command, read, keyed, words⟩
  exact ⟨command, read, keyed.trans same, words⟩

/-- The first word of a command begins no comment. -/
theorem Spelled.begins {command : Command} {key : List Token} (spelled : command.Spelled key) :
    (key.map Token.word ++ command.words).head?.any (fun word => isCommandLine word.spelling) =
      true := by
  rcases spelled.first with ⟨token, others, back, tokens, parts, stands, -⟩
  have isCommand := spelled.holdsCommand
  rw [words, ← List.map_append, tokens, List.map_cons, List.head?_cons, Option.any_some]
  rw [parts] at isCommand
  have nonempty := stands.spelling_ne_nil
  generalize token.word = word at stands isCommand nonempty
  cases stands with
  | quoted => rfl
  | bare _ _ _ ends =>
      rwa [isCommandLine_append nonempty] at isCommand
      rintro c next rfl
      cases back with
      | nil => cases next
      | cons d back =>
          cases next
          rcases ends with blank | ⟨quote, -⟩
          · revert blank
            decide
          · revert quote
            decide

/-- Reading inverts writing.  A key of any table is read with any arguments that
can be written, whatever blanks stand between the words and around them; and a
command that was read is read again when its words are written with single
spaces. -/
theorem printing_inverts_reading :
    (∀ target key, Target.knows target key = true →
      ∀ arguments, (∀ word ∈ arguments, word.Writable) →
        (∃ text, Word.Written (Word.bareWords key.toList ++ arguments) text) ∧
          ∀ lead text trail, (∀ c ∈ lead, isBlank c = true) → (∀ c ∈ trail, isBlank c = true) →
            Word.Written (Word.bareWords key.toList ++ arguments) text →
              ∃ command, ofLine? (String.ofList (lead ++ (text ++ trail))) = some command ∧
                command.key = key ∧ command.words = arguments) ∧
      ∀ text command, ofLine? text = some command →
        ∃ again, ofLine? (String.ofList
            (Word.line (Word.bareWords command.key.toList ++ command.words))) = some again ∧
          again.key = command.key ∧ again.words = command.words := by
  constructor
  · intro target key known arguments writable
    refine ⟨⟨_, Word.written_line _⟩, ?_⟩
    intro lead text trail leading trailing written
    exact ofLine?_of_knows known writable written leading trailing
  · intro text command read
    rcases exists_spelled read with ⟨-, key, spelled⟩
    have legible := spelled.reads.legible
    rw [List.map_append] at legible
    have length : keyLength (key.map Token.word ++ command.words) = (key.map Token.word).length := by
      rw [List.length_map]
      exact spelled.length
    have nothing : ∀ c ∈ ([] : List Char), isBlank c = true := by simp
    rcases ofLine?_written legible (Word.written_line _) length spelled.begins nothing nothing with
      ⟨again, reread, keyed, same⟩
    rw [List.nil_append, List.append_nil] at reread
    rw [spelled.bareWords_key]
    exact ⟨again, reread, keyed.trans spelled.joined.symm, same⟩

/-- A bare word, a quoted word with blanks, and a quoted word with nothing in it. -/
def fonts : List Word := [⟨"//#", false⟩, ⟨"ب  ج", true⟩, ⟨"", true⟩]

theorem printing_inverts_reading_fonts :
    Target.page.knows "غيّر الخط إلى" = true ∧
      Word.Written (Word.bareWords "غيّر الخط إلى".toList ++ fonts)
        "غيّر  الخط\tإلى //# \"ب  ج\" \"\"".toList ∧
      (∃ command, ofLine? (String.ofList
          ("\t ".toList ++ ("غيّر  الخط\tإلى //# \"ب  ج\" \"\"".toList ++ " ".toList))) = some command ∧
        command.key = "غيّر الخط إلى" ∧ command.words = fonts) ∧
      ∃ command again, ofLine? " أ\"ب ج\"د\"ه " = some command ∧
        command.words = [⟨"ب ج", true⟩, ⟨"د\"ه", false⟩] ∧
        ofLine? (String.ofList
          (Word.line (Word.bareWords command.key.toList ++ command.words))) = some again ∧
        again.key = command.key ∧ again.words = command.words := by
  have known : Target.page.knows "غيّر الخط إلى" = true := by decide +kernel
  have keyWords : Word.bareWords "غيّر الخط إلى".toList =
      [⟨"غيّر", false⟩, ⟨"الخط", false⟩, ⟨"إلى", false⟩] := by decide +kernel
  have written : Word.Written (Word.bareWords "غيّر الخط إلى".toList ++ fonts)
      "غيّر  الخط\tإلى //# \"ب  ج\" \"\"".toList := by
    have spaced : "غيّر  الخط\tإلى //# \"ب  ج\" \"\"".toList =
        Word.spelling ⟨"غيّر", false⟩ ++ ([' ', ' '] ++ (Word.spelling ⟨"الخط", false⟩ ++
          (['\t'] ++ (Word.spelling ⟨"إلى", false⟩ ++ ([' '] ++ Word.line fonts))))) := by
      decide +kernel
    rw [keyWords, spaced]
    have double : ∀ c ∈ [' ', ' '], isBlank c = true := List.all_eq_true.mp rfl
    have tab : ∀ c ∈ ['\t'], isBlank c = true := List.all_eq_true.mp rfl
    have space : ∀ c ∈ [' '], isBlank c = true := List.all_eq_true.mp rfl
    refine .cons (by simp) double (.cons (by simp) tab (.cons (by simp) space ?_))
    exact Word.written_line fonts
  have writable : ∀ word ∈ fonts, word.Writable := by
    have plain : ∀ word ∈ fonts, '"' ∉ word.text.toList ∧ (word.quoted = false →
        word.text.toList ≠ [] ∧ word.text.toList.all (fun c => !isBlank c) = true) := by
      decide +kernel
    intro word member
    rcases plain word member with ⟨unquoted, bare⟩
    exact ⟨unquoted, fun noQuotes => by simpa using bare noQuotes⟩
  have read : ofLine? " أ\"ب ج\"د\"ه " = some
      ⟨"أ", [⟨⟨"ب ج", true⟩, 2⟩, ⟨⟨"د\"ه", false⟩, 9⟩], "أ\"ب ج\"د\"ه"⟩ := by decide +kernel
  rcases printing_inverts_reading with ⟨writing, reading⟩
  rcases writing .page "غيّر الخط إلى" known fonts writable with ⟨-, found⟩
  rcases reading _ _ read with ⟨again, reread, same⟩
  refine ⟨known, written, ?_, _, again, read, rfl, reread, same⟩
  exact found "\t ".toList _ " ".toList (List.all_eq_true.mp (by decide +kernel))
    (List.all_eq_true.mp (by decide +kernel)) written

end Command
end Pagewright
