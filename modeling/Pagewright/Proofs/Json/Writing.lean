import Mathlib.Data.List.TakeWhile
import Pagewright.Json
import Pagewright.Proofs.Json.Reading
import Pagewright.Proofs.Text.Literal

namespace Pagewright
namespace Json

/-!
# Written objects can be read

Every object is written in a form that the reader accepts, and the reader finds
the members that were written, in their order.  Nothing is assumed about the
texts inside: quotes, backslashes, control characters and whole documents are
escaped one character at a time, so one character is also what has to be
looked at.

A number or a flag is a word, and only the character behind a word completes
it.  A value is therefore read together with what may stand behind it, a comma
or the end of the line (`Delimited`).
-/

/-! ## Strings -/

/-- A piece of a string is read as the character that it stands for. -/
theorem lexes_written {piece : List Char} {c : Char} (written : Text.Written piece c)
    (reversed : List Char) : Lexes (.text reversed) piece [] (.text (c :: reversed)) := by
  have backslash : Mode.step? (.text reversed) '\\' = some ([], .escape reversed none) := rfl
  cases written with
  | plain unquoted ordinary visible =>
      have plain : Mode.step? (.text reversed) c = some ([], .text (c :: reversed)) := by
        rw [Mode.step?, if_neg unquoted, if_neg ordinary, if_neg (Nat.not_lt.mpr visible)]
      exact .single plain
  | @short letter c listed =>
      have letters : ∀ entry ∈ Text.shortEscapes,
          entry.1 ≠ 'u' ∧ Mode.escaped? entry.1 = some entry.2 := by decide
      rcases letters (letter, c) listed with ⟨other, meant⟩
      have escape : Mode.step? (.escape reversed none) letter = some ([], .text (c :: reversed)) := by
        rw [Mode.step?, if_neg other, meant]
        rfl
      exact .cons_silent backslash (.single escape)
  | code control =>
      have last : Mode.step? (.code reversed none 0 (16 * 0 + c.toNat / 16))
          (Text.hexDigit (c.toNat % 16)) = some ([], .text (c :: reversed)) := by
        have value : 16 * (16 * 0 + c.toNat / 16) + c.toNat % 16 = c.toNat := by omega
        have single : Mode.isHigh c.toNat = false ∧ Mode.isLow c.toNat = false := by
          simp only [Mode.isHigh, Mode.isLow, Bool.and_eq_false_iff, decide_eq_false_iff_not]
          omega
        rw [Mode.step?, Text.hexValue?_hexDigit (Nat.mod_lt _ (by decide)), Option.bind_some]
        dsimp only
        rw [value, Mode.number?, single.1, single.2, Char.ofNat_toNat]
        rfl
      have next : Mode.step? (.code reversed none 1 0) (Text.hexDigit (c.toNat / 16)) =
          some ([], .code reversed none 0 (16 * 0 + c.toNat / 16)) := by
        rw [Mode.step?, Text.hexValue?_hexDigit (by omega), Option.bind_some]
      exact .cons_silent backslash (.cons_silent rfl (.cons_silent rfl (.cons_silent rfl
        (.cons_silent next (.cons_silent last (.nil _))))))

/-- A string is read piece by piece. -/
theorem lexes_spelled {body text : List Char} (spells : Text.Spells Text.Written body text)
    (reversed : List Char) : Lexes (.text reversed) body [] (.text (text.reverse ++ reversed)) := by
  induction spells generalizing reversed with
  | nil => exact .nil _
  | @cons piece body text c first _ ih =>
      rw [List.reverse_cons, List.append_assoc]
      exact (lexes_written first reversed).append_silent (ih (c :: reversed))

/-- Pieces between quotes are the string of their characters. -/
theorem lexes_between_quotes {body : List Char} {text : String}
    (spells : Text.Spells Text.Written body text.toList) :
    Lexes .gap ('"' :: (body ++ ['"'])) [.datum (.text text)] .gap := by
  have opening : Mode.step? .gap '"' = some ([], .text []) := rfl
  have closing : Mode.step? (.text (text.toList.reverse ++ [])) '"' =
      some ([.datum (.text text)], .gap) := by
    rw [Mode.step?, if_pos rfl, List.append_nil, List.reverse_reverse, String.ofList_toList]
  exact .cons_silent opening ((lexes_spelled spells []).append_silent (.single closing))

/-- A string is read as the text that it was written for. -/
theorem lexes_doubleQuoted (text : String) :
    Lexes .gap (Text.doubleQuoted text).toList [.datum (.text text)] .gap := by
  have spells : Text.Spells Text.Written (text.toList.flatMap Text.doubleQuotedChar) text.toList :=
    .flatMap fun c _ => Text.written_doubleQuotedChar c
  rw [Text.doubleQuoted, String.toList_append, String.toList_append, String.toList_ofList,
    String.toList_ofList, List.append_assoc]
  exact lexes_between_quotes spells

/-! ## Words -/

private theorem lexes_inside_word {word : List Char}
    (plain : ∀ c ∈ word, Mode.isDelimiter c = false) (reversed : List Char) :
    Lexes (.word reversed) word [] (.word (word.reverse ++ reversed)) := by
  induction word generalizing reversed with
  | nil => exact .nil _
  | cons c cs ih =>
      rcases List.forall_mem_cons.mp plain with ⟨first, others⟩
      have step : Mode.step? (.word reversed) c = some ([], .word (c :: reversed)) := by
        rw [Mode.step?, first]
        rfl
      rw [List.reverse_cons, List.append_assoc]
      exact .cons_silent step (ih others (c :: reversed))

/-- A word is complete as soon as a delimiter follows. -/
theorem lexes_word {word : List Char} (nonempty : word ≠ [])
    (plain : ∀ c ∈ word, Mode.isDelimiter c = false) {datum : Datum}
    (meant : word? word = some datum) {stop : Char} (ends : Mode.isDelimiter stop = true) :
    Lexes .gap (word ++ [stop]) (.datum datum :: (Mode.begin stop).1) (Mode.begin stop).2 := by
  cases word with
  | nil => exact absurd rfl nonempty
  | cons first others =>
      rcases List.forall_mem_cons.mp plain with ⟨plainFirst, plainOthers⟩
      have begun : Mode.step? .gap first = some ([], .word [first]) := by
        simp only [Mode.isDelimiter, Bool.or_eq_false_iff, decide_eq_false_iff_not,
          Option.isSome_eq_false_iff, Option.isNone_iff_eq_none] at plainFirst
        rw [Mode.step?, Mode.begin, plainFirst.1.1, if_neg plainFirst.1.2, plainFirst.2]
        rfl
      have ended : Mode.step? (.word (others.reverse ++ [first])) stop =
          some (.datum datum :: (Mode.begin stop).1, (Mode.begin stop).2) := by
        have whole : (others.reverse ++ [first]).reverse = first :: others := by simp
        rw [Mode.step?, ends, whole, meant]
        rfl
      exact .cons_silent begun ((lexes_inside_word plainOthers [first]).append_silent (.single ended))

/-! ## Numbers -/

theorem head?_toDigits {n : Nat} (positive : 0 < n) : (Nat.toDigits 10 n).head? ≠ some '0' := by
  induction n using Nat.strongRecOn with
  | ind n ih =>
      rcases Nat.lt_or_ge n 10 with small | large
      · have single : ∀ digit < 10, 0 < digit → [Nat.digitChar digit].head? ≠ some '0' := by decide
        rw [Nat.toDigits_of_lt_base small]
        exact single n small positive
      · have leading := ih (n / 10) (by omega) (by omega)
        rw [Nat.toDigits_of_base_le (by decide) large, List.head?_append]
        cases digits : Nat.toDigits 10 (n / 10) with
        | nil => exact absurd digits Nat.toDigits_ne_nil
        | cons first others =>
            rw [digits] at leading
            exact leading

theorem digits?_toDigits (n : Nat) : digits? (Nat.toDigits 10 n) = some n := by
  have allDigits : (Nat.toDigits 10 n).all Char.isDigit = true :=
    List.all_eq_true.mpr fun c member =>
      Nat.isDigit_of_mem_toDigits (by decide) (by decide) member
  have nonempty : (Nat.toDigits 10 n).isEmpty = false :=
    List.isEmpty_eq_false_iff.mpr Nat.toDigits_ne_nil
  rw [digits?, allDigits, nonempty, Nat.ofDigitChars_ten_toDigits]
  rfl

/-- A number is written without a superfluous zero. -/
theorem whole?_toDigits (n : Nat) : whole? (Nat.toDigits 10 n) = some n := by
  unfold whole?
  split
  case h_1 second others superfluous =>
      cases n with
      | zero => cases superfluous
      | succ n =>
          have first := head?_toDigits (Nat.succ_pos n)
          rw [superfluous] at first
          exact absurd rfl first
  case h_2 => exact digits?_toDigits n

theorem isDelimiter_of_isDigit {c : Char} (digit : c.isDigit = true) :
    Mode.isDelimiter c = false := by
  refine Bool.eq_false_iff.mpr fun ends => ?_
  simp only [Mode.isDelimiter, isSpace, Bool.or_eq_true, decide_eq_true_eq] at ends
  rcases ends with ((((rfl | rfl) | rfl) | rfl) | rfl) | marked
  case inr =>
      unfold Mark.ofChar? at marked
      split at marked
      case h_7 => cases marked
      all_goals cases digit
  all_goals cases digit

/-- Digits alone are an integer. -/
theorem word?_of_digits {word : List Char} (digits : ∀ c ∈ word, c.isDigit = true) :
    word? word = (whole? word).map fun n => .integer n := by
  have absent : ∀ {c : Char}, c.isDigit = false → c ∉ word := by
    intro c other member
    rw [digits c member] at other
    cases other
  have different : ∀ {name : List Char} (c : Char), c ∈ name → c.isDigit = false → word ≠ name := by
    intro name c member other same
    exact absent other (same ▸ member)
  have mantissa : ∀ c ∈ word, (c != 'e' && c != 'E') = true := by
    intro c member
    rw [Bool.and_eq_true, bne_iff_ne, bne_iff_ne]
    exact ⟨fun same => absent rfl (same ▸ member), fun same => absent rfl (same ▸ member)⟩
  have whole : ∀ c ∈ word, (c != '.') = true := fun c member =>
    bne_iff_ne.mpr fun same => absent rfl (same ▸ member)
  unfold word?
  rw [if_neg (different 'n' (by decide) rfl), if_neg (different 't' (by decide) rfl),
    if_neg (different 'f' (by decide) rfl)]
  split
  case h_1 rest signed => exact absurd List.mem_cons_self (absent rfl)
  case h_2 =>
      rw [unsigned?, List.takeWhile_eq_self_iff.mpr mantissa, List.dropWhile_eq_nil_iff.mpr mantissa,
        List.takeWhile_eq_self_iff.mpr whole, List.dropWhile_eq_nil_iff.mpr whole]
      cases whole? word with
      | none => rfl
      | some n => rfl

/-! ## Values and what stands behind them -/

/-- A piece of text has the given lexemes if a comma or the end of a line stands
behind it. -/
def Delimited (written : List Char) (found : List Lexeme) : Prop :=
  Lexes .gap (written ++ [',']) (found ++ [.mark .comma]) .gap ∧
    Lexes .gap (written ++ ['\n']) found .gap

/-- The end of a line means nothing between lexemes. -/
theorem lexes_lineFeed : Lexes .gap ['\n'] [] .gap := .single rfl

/-- A piece that is complete on its own. -/
theorem Lexes.delimited {written : List Char} {found : List Lexeme}
    (complete : Lexes .gap written found .gap) : Delimited written found := by
  have ended := complete.append lexes_lineFeed
  rw [List.append_nil] at ended
  exact ⟨complete.append (.single rfl), ended⟩

theorem delimited_word {word : List Char} (nonempty : word ≠ [])
    (plain : ∀ c ∈ word, Mode.isDelimiter c = false) {datum : Datum}
    (meant : word? word = some datum) : Delimited word [.datum datum] :=
  ⟨lexes_word nonempty plain meant rfl, lexes_word nonempty plain meant rfl⟩

theorem delimited_number (n : Nat) : Delimited (toString n).toList [.datum (.integer n)] := by
  have digits : ∀ c ∈ Nat.toDigits 10 n, c.isDigit = true := fun c member =>
    Nat.isDigit_of_mem_toDigits (by decide) (by decide) member
  rw [Nat.toString_eq_repr, Nat.toList_repr]
  apply delimited_word Nat.toDigits_ne_nil
  · exact fun c member => isDelimiter_of_isDigit (digits c member)
  · rw [word?_of_digits digits, whole?_toDigits]
    rfl

theorem delimited_flag (value : Bool) :
    Delimited (Value.flag value).render.toList [.datum (.boolean value)] := by
  have free : (Value.flag value).render.toList.any Mode.isDelimiter = false := by
    cases value <;> decide
  have plain : ∀ c ∈ (Value.flag value).render.toList, Mode.isDelimiter c = false :=
    fun c member => Bool.eq_false_iff.mpr (List.any_eq_false.mp free c member)
  cases value with
  | false => exact delimited_word (by decide) plain rfl
  | true => exact delimited_word (by decide) plain rfl

theorem lexes_indentation (depth : Nat) : Lexes .gap (Text.indentation depth).toList [] .gap := by
  rw [Text.indentation, String.toList_ofList]
  induction 2 * depth with
  | zero => exact .nil _
  | succ count ih =>
      rw [List.replicate_succ]
      exact .cons_silent rfl ih

/-! ## Items between brackets -/

/-- Lexemes between two marks, with commas in between. -/
def enclosed (opening closing : Mark) (items : List (List Lexeme)) : List Lexeme :=
  .mark opening :: ([.mark .comma].intercalate items ++ [.mark closing])

section Items

variable {α : Type} {write : α → String} {parts : α → List Lexeme}

private theorem lexes_items (each : ∀ item, Delimited (write item).toList (parts item)) (depth : Nat)
    (first : α) (others : List α) :
    Lexes .gap ((String.intercalate ",\n"
        (((first :: others).map write).map (Text.indentation depth ++ ·))).toList ++ ['\n'])
      ([.mark .comma].intercalate ((first :: others).map parts)) .gap := by
  induction others generalizing first with
  | nil =>
      simp only [List.map_cons, List.map_nil, String.intercalate_singleton,
        List.intercalate_singleton, String.toList_append, List.append_assoc]
      exact (lexes_indentation depth).append_silent (each first).2
  | cons second others ih =>
      have separator : ",\n".toList = [','] ++ ['\n'] := rfl
      have here := (lexes_indentation depth).append_silent (each first).1
      have whole := here.append (lexes_lineFeed.append_silent (ih second))
      simp only [List.map_cons, String.intercalate_cons_cons, List.intercalate_cons_cons,
        String.toList_append, separator, List.append_assoc] at whole ⊢
      exact whole

/-- Items between brackets are read as the lexemes of the items between
marks. -/
theorem lexes_bracketed (each : ∀ item, Delimited (write item).toList (parts item)) (depth : Nat)
    {opening closing : String} {openingMark closingMark : Mark}
    (opens : Lexes .gap opening.toList [.mark openingMark] .gap)
    (closes : Lexes .gap closing.toList [.mark closingMark] .gap) (items : List α) :
    Lexes .gap (bracketed opening closing depth (items.map write)).toList
      (enclosed openingMark closingMark (items.map parts)) .gap := by
  cases items with
  | nil =>
      rw [List.map_nil, bracketed, List.isEmpty_nil, if_pos rfl, String.toList_append]
      exact opens.append closes
  | cons first others =>
      have lineFeed : "\n".toList = ['\n'] := rfl
      have body := lexes_items each (depth + 1) first others
      have ending := (lexes_indentation depth).append_silent closes
      have whole := opens.append (lexes_lineFeed.append_silent (body.append ending))
      rw [bracketed, List.map_cons, List.isEmpty_cons, if_neg (by decide), ← List.map_cons]
      simp only [String.toList_append, lineFeed, List.append_assoc] at whole ⊢
      exact whole

end Items

/-! ## Putting lexemes together -/

/-- Directly behind the opening of a list, a datum is read as any other item. -/
theorem takeAll?_listStart {lexemes : List Lexeme} {datum : Datum} (whole : Assembles lexemes datum)
    (rest : List Lexeme) (frames : List Frame) :
    takeAll? (.listStart, frames) (lexemes ++ rest) =
      takeAll? (.value, .list [] :: frames) (lexemes ++ rest) := by
  have inside := whole []
  cases lexemes with
  | nil => cases inside
  | cons lexeme others =>
      cases lexeme with
      | datum datum => rfl
      | mark mark =>
          cases mark with
          | closeList => cases inside
          | openList => rfl
          | openTable => rfl
          | closeTable => rfl
          | colon => rfl
          | comma => rfl

section Lists

variable {α : Type} {parts : α → List Lexeme} {data : α → Datum}

private theorem takeAll?_items (each : ∀ item, Assembles (parts item) (data item)) (first : α)
    (others : List α) (earlier : List Datum) (frames : List Frame) :
    takeAll? (.value, .list earlier :: frames)
        ([.mark .comma].intercalate ((first :: others).map parts) ++ [.mark .closeList]) =
      some (.done (.list (earlier.reverse ++ (first :: others).map data)), frames) := by
  induction others generalizing first earlier with
  | nil =>
      rw [List.map_singleton, List.intercalate_singleton, (each first).takeAll?, List.map_singleton,
        ← List.reverse_cons]
      rfl
  | cons second others ih =>
      have next := ih second (data first :: earlier)
      rw [List.reverse_cons, List.append_assoc, List.singleton_append, ← List.map_cons] at next
      rw [List.map_cons, List.map_cons, List.intercalate_cons_cons, List.append_assoc,
        List.append_assoc, (each first).takeAll?, ← next]
      rfl

/-- Items make up a list. -/
theorem assembles_list (each : ∀ item, Assembles (parts item) (data item)) (items : List α) :
    Assembles (enclosed .openList .closeList (items.map parts)) (.list (items.map data)) := by
  intro frames
  cases items with
  | nil => rfl
  | cons first others =>
      -- The items begin with those of the first one, which is no end of the list.
      obtain ⟨rest, begins⟩ : ∃ rest, [Lexeme.mark .comma].intercalate ((first :: others).map parts) ++
          [.mark .closeList] = parts first ++ rest := by
        cases others with
        | nil => exact ⟨_, by rw [List.map_singleton, List.intercalate_singleton]⟩
        | cons second others =>
            exact ⟨_, by rw [List.map_cons, List.map_cons, List.intercalate_cons_cons,
              List.append_assoc, List.append_assoc]⟩
      have items := takeAll?_items each first others [] frames
      rw [begins, ← takeAll?_listStart (each first), ← begins] at items
      exact items

end Lists

/-! ## Members of a table -/

section Tables

variable {α : Type} {name : α → String} {parts : α → List Lexeme} {data : α → Datum}

/-- The lexemes of a member. -/
def memberParts (name : String) (value : List Lexeme) : List Lexeme :=
  .datum (.text name) :: .mark .colon :: value

private theorem takeAll?_members (each : ∀ item, Assembles (parts item) (data item)) (first : α)
    (others : List α) (earlier : List (String × Datum)) (frames : List Frame) :
    takeAll? (.name earlier, frames)
        ([.mark .comma].intercalate ((first :: others).map fun item => memberParts (name item) (parts item)) ++
          [.mark .closeTable]) =
      some (.done (.table (earlier.reverse ++ (first :: others).map fun item => (name item, data item))),
        frames) := by
  have value : ∀ rest, takeAll? (.name earlier, frames) (memberParts (name first) (parts first) ++ rest) =
      takeAll? (.done (data first), .table earlier (name first) :: frames) rest :=
    fun rest => (each first).takeAll? (.table earlier (name first) :: frames) rest
  induction others generalizing first earlier with
  | nil =>
      rw [List.map_singleton, List.intercalate_singleton, value, List.map_singleton,
        ← List.reverse_cons]
      rfl
  | cons second others ih =>
      have next := ih second ((name first, data first) :: earlier)
        fun rest => (each second).takeAll? (.table _ (name second) :: frames) rest
      rw [List.reverse_cons, List.append_assoc, List.singleton_append] at next
      rw [List.map_cons, List.map_cons, List.intercalate_cons_cons, List.append_assoc,
        List.append_assoc, value, List.map_cons, ← next]
      rfl

/-- Members make up a table. -/
theorem assembles_table (each : ∀ item, Assembles (parts item) (data item)) (items : List α) :
    Assembles
      (enclosed .openTable .closeTable (items.map fun item => memberParts (name item) (parts item)))
      (.table (items.map fun item => (name item, data item))) := by
  intro frames
  cases items with
  | nil => rfl
  | cons first others =>
      have members := @takeAll?_members α name parts data each first others [] frames
      rw [List.reverse_nil, List.nil_append] at members
      rw [← members]
      cases others with
      | nil => rfl
      | cons second others => rfl

end Tables

/-! ## Objects -/

namespace Value

/-- The lexemes of a value. -/
def parts : Value → List Lexeme
  | .flag value => [.datum (.boolean value)]
  | .number value => [.datum (.integer value)]
  | .text value => [.datum (.text value)]
  | .texts values => enclosed .openList .closeList (values.map fun value => [.datum (.text value)])

/-- What a value is to a reader. -/
def datum : Value → Datum
  | .flag value => .boolean value
  | .number value => .integer value
  | .text value => .text value
  | .texts values => .list (values.map .text)

theorem delimited_render (value : Value) : Delimited value.render.toList value.parts := by
  cases value with
  | flag value => exact delimited_flag value
  | number value => exact delimited_number value
  | text value => exact (lexes_doubleQuoted value).delimited
  | texts values =>
      exact (lexes_bracketed (fun value => (lexes_doubleQuoted value).delimited) 1 (.single rfl)
        (.single rfl) values).delimited

theorem assembles_parts (value : Value) : Assembles value.parts value.datum := by
  cases value with
  | flag value => exact assembles_datum _
  | number value => exact assembles_datum _
  | text value => exact assembles_datum _
  | texts values => exact assembles_list (fun value => assembles_datum (.text value)) values

end Value

theorem delimited_member (name : String) (value : Value) :
    Delimited (Text.doubleQuoted name ++ ": " ++ value.render).toList
      (memberParts name value.parts) := by
  have mark : Lexes .gap [':'] [.mark .colon] .gap := .single rfl
  have space : Lexes .gap [' '] [] .gap := .single rfl
  have colon : Lexes .gap ": ".toList [.mark .colon] .gap := mark.append space
  have named := (lexes_doubleQuoted name).append colon
  have behind := value.delimited_render
  rw [String.toList_append, String.toList_append]
  refine ⟨?_, ?_⟩
  · rw [List.append_assoc]
    exact named.append behind.1
  · rw [List.append_assoc]
    exact named.append behind.2

/-- The text of an object is read as a table of its members, in their order. -/
theorem read?_renderObject (members : List (String × Value)) :
    read? (renderObject members) = some (.table (members.map fun given => (given.1, given.2.datum))) := by
  have opens : Lexes .gap "\x7b".toList [.mark .openTable] .gap := .single rfl
  have closes : Lexes .gap "\x7d".toList [.mark .closeTable] .gap := .single rfl
  have lexed := lexes_bracketed (fun given : String × Value => delimited_member given.1 given.2) 0
    opens closes members
  exact read?_eq lexed (assembles_table (fun given => given.2.assembles_parts) members)

end Json
end Pagewright
