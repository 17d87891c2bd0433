import Pagewright.Text.Literal

namespace Pagewright
namespace Text

/-!
# The pieces of a string literal

A literal is written one character at a time, so what stands between its quotes
falls into pieces, one for each character of the text.  `Written` lists the
pieces that a double-quoted literal may have and `Spells` puts pieces together.
Whatever is claimed of a literal, by a reader or by a count of its characters,
can then be proved of one piece.

A slash has two pieces, one without a backslash and one with.  Only the first
is ever written, but where end tags are broken up in a finished literal it turns
into the second, and so the literal still falls into pieces.
-/

/-- A backslash takes the character behind it along, and all other characters
differ from the delimiter. -/
inductive Escaped (delimiter : Char) : List Char → Prop
  | nil : Escaped delimiter []
  | plain {c : Char} {rest : List Char} (other : c ≠ delimiter) (ordinary : c ≠ '\\')
      (later : Escaped delimiter rest) : Escaped delimiter (c :: rest)
  | taken (c : Char) {rest : List Char} (later : Escaped delimiter rest) :
      Escaped delimiter ('\\' :: c :: rest)

theorem Escaped.append {delimiter : Char} {front back : List Char}
    (first : Escaped delimiter front) (second : Escaped delimiter back) :
    Escaped delimiter (front ++ back) := by
  induction first with
  | nil => exact second
  | plain other ordinary _ ih => exact .plain other ordinary ih
  | taken c _ ih => exact .taken c ih

/-- A body that falls into pieces, one for each character of a text. -/
inductive Spells (allowed : List Char → Char → Prop) : (body text : List Char) → Prop
  | nil : Spells allowed [] []
  | cons {piece body text : List Char} {c : Char} (first : allowed piece c)
      (others : Spells allowed body text) : Spells allowed (piece ++ body) (c :: text)

namespace Spells

variable {allowed other : List Char → Char → Prop} {body text : List Char}

theorem imp (each : ∀ piece c, allowed piece c → other piece c) (spells : Spells allowed body text) :
    Spells other body text := by
  induction spells with
  | nil => exact .nil
  | cons first _ ih => exact .cons (each _ _ first) ih

/-- What is written one character at a time falls into pieces. -/
theorem flatMap {write : Char → List Char} (each : ∀ c ∈ text, allowed (write c) c) :
    Spells allowed (text.flatMap write) text := by
  induction text with
  | nil => exact .nil
  | cons c cs ih =>
      rw [List.forall_mem_cons] at each
      exact .cons each.1 (ih each.2)

theorem forall_mem {good : Char → Prop} (each : ∀ piece c, allowed piece c → ∀ d ∈ piece, good d)
    (spells : Spells allowed body text) : ∀ d ∈ body, good d := by
  induction spells with
  | nil => exact List.forall_mem_nil _
  | cons first _ ih => exact List.forall_mem_append.mpr ⟨each _ _ first, ih⟩

end Spells

/-! ## Double-quoted literals -/

/-- The letters that may stand behind a backslash, and what they stand for. -/
def shortEscapes : List (Char × Char) :=
  [('"', '"'), ('\\', '\\'), ('/', '/'), ('b', '\x08'), ('f', '\x0c'), ('n', '\n'), ('r', '\r'),
    ('t', '\t')]

/-- The pieces of a double-quoted literal. -/
inductive Written : (piece : List Char) → (meant : Char) → Prop
  | plain {c : Char} (unquoted : c ≠ '"') (ordinary : c ≠ '\\') (visible : 0x20 ≤ c.toNat) :
      Written [c] c
  | short {letter meant : Char} (listed : (letter, meant) ∈ shortEscapes) :
      Written ['\\', letter] meant
  | code {c : Char} (control : c.toNat < 0x20) :
      Written ['\\', 'u', '0', '0', hexDigit (c.toNat / 16), hexDigit (c.toNat % 16)] c

/-- Every character is written as one of its pieces. -/
theorem written_doubleQuotedChar (c : Char) : Written (doubleQuotedChar c) c := by
  unfold doubleQuotedChar
  split
  case isTrue special =>
      subst special
      exact .short (by decide)
  case isFalse unquoted =>
    split
    case isTrue special =>
        subst special
        exact .short (by decide)
    case isFalse ordinary =>
      iterate 5
        split
        case isTrue special =>
            subst special
            exact .short (by decide)
      split
      case isTrue control => exact .code control
      case isFalse visible => exact .plain unquoted ordinary (Nat.le_of_not_lt visible)

theorem hexValue?_hexDigit {value : Nat} (small : value < 16) :
    hexValue? (hexDigit value) = some value := by
  revert value
  decide

/-- What a hexadecimal digit is not. -/
theorem hexDigit_plain {value : Nat} (small : value < 16) :
    hexDigit value ≠ '"' ∧ hexDigit value ≠ '\\' ∧ hexDigit value ≠ '<' ∧
      0x20 ≤ (hexDigit value).toNat :=
  (by decide : ∀ value : Fin 16, hexDigit value ≠ '"' ∧ hexDigit value ≠ '\\' ∧
    hexDigit value ≠ '<' ∧ 0x20 ≤ (hexDigit value).toNat) ⟨value, small⟩

namespace Written

variable {piece : List Char} {meant : Char}

/-- No control character stands in a piece. -/
theorem visible (written : Written piece meant) : ∀ c ∈ piece, 0x20 ≤ c.toNat := by
  cases written with
  | plain _ _ visible => simpa only [List.forall_mem_singleton] using visible
  | @short letter meant listed =>
      have letters : ∀ entry ∈ shortEscapes, 0x20 ≤ entry.1.toNat := by decide
      simp only [List.forall_mem_cons]
      exact ⟨by decide, letters (letter, meant) listed, List.forall_mem_nil _⟩
  | code control =>
      have high := hexDigit_plain (by omega : meant.toNat / 16 < 16)
      have low := hexDigit_plain (by omega : meant.toNat % 16 < 16)
      simp only [List.forall_mem_cons]
      exact ⟨by decide, by decide, by decide, by decide, high.2.2.2, low.2.2.2, List.forall_mem_nil _⟩

/-- A quote stands in a piece only behind a backslash. -/
theorem escaped (written : Written piece meant) : Escaped '"' piece := by
  cases written with
  | plain unquoted ordinary _ => exact .plain unquoted ordinary .nil
  | short => exact .taken _ .nil
  | code control =>
      have high := hexDigit_plain (by omega : meant.toNat / 16 < 16)
      have low := hexDigit_plain (by omega : meant.toNat % 16 < 16)
      exact .taken 'u' (.plain (by decide) (by decide) (.plain (by decide) (by decide)
        (.plain high.1 high.2.1 (.plain low.1 low.2.1 .nil))))

/-- A bracket stands only for itself. -/
theorem bracketFree (written : Written piece meant) (other : meant ≠ '<') : '<' ∉ piece := by
  cases written with
  | plain => simpa only [List.mem_singleton] using other.symm
  | @short letter meant listed =>
      have letters : ∀ entry ∈ shortEscapes, '<' ≠ entry.1 := by decide
      have letter := letters (letter, meant) listed
      simp only [List.mem_cons, List.not_mem_nil, or_false, not_or]
      exact ⟨by decide, letter⟩
  | code control =>
      have high := hexDigit_plain (by omega : meant.toNat / 16 < 16)
      have low := hexDigit_plain (by omega : meant.toNat % 16 < 16)
      simp only [List.mem_cons, List.not_mem_nil, or_false, not_or]
      exact ⟨by decide, by decide, by decide, by decide, high.2.2.1.symm, low.2.2.1.symm⟩

end Written

/-- A quote stands between the delimiters only behind a backslash. -/
theorem Spells.escaped {body text : List Char} (spells : Spells Written body text) :
    Escaped '"' body := by
  induction spells with
  | nil => exact .nil
  | cons first _ ih => exact first.escaped.append ih

/-! ## Single-quoted literals -/

theorem toList_singleQuoted (text : String) :
    (singleQuoted text).toList = '\'' :: (text.toList.flatMap singleQuotedChar ++ ['\'']) := by
  simp [singleQuoted]

/-- Single quotes add nothing but quotes and backslashes, and lose nothing. -/
theorem mem_singleQuoted {c : Char} (unquoted : c ≠ '\'') (ordinary : c ≠ '\\') (text : String) :
    c ∈ (singleQuoted text).toList ↔ c ∈ text.toList := by
  have kept : ∀ d, c ∈ singleQuotedChar d ↔ d = c := by
    intro d
    unfold singleQuotedChar
    split
    case isTrue backslash => simp [backslash, ordinary, ordinary.symm]
    case isFalse =>
        split
        case isTrue quote => simp [quote, unquoted, unquoted.symm, ordinary]
        case isFalse => simp [eq_comm]
  simp [toList_singleQuoted, kept, unquoted]

end Text
end Pagewright
