import Pagewright.Proofs.Replacement

namespace Pagewright

/-!
# Lines and the source they were cut from

Cutting a source into lines loses nothing.  The texts of the lines and the
endings between them, put together in order, are the source again, and the span
of a line leads back to its text: the bytes of the source at the span encode
that text.

Lines are cut at characters and spans count bytes, so a span depends on every
line in front of it.  `Tiles` follows the cutting with the text in front of each
line, and not with its length.  What a line contributes is then a fact about
pieces of a text, and bytes are looked at in one place only
(`decodedAt?_eq`).
-/

namespace Text

/-- The text that the bytes of a source at a span encode.  There is none when
the span does not lie in the source, or when its bytes encode no text. -/
def decodedAt? (source : String) (span : Span) : Option String :=
  if span.start ≤ span.stop ∧ span.stop ≤ source.utf8ByteSize then
    String.fromUTF8? (source.toUTF8.extract span.start span.stop)
  else
    none

/-- A piece of a source is found by the bytes in front of it and its own. -/
theorem decodedAt?_eq {source front middle back : String} (parts : source = front ++ middle ++ back)
    {span : Span} (start : span.start = front.utf8ByteSize)
    (stop : span.stop = front.utf8ByteSize + middle.utf8ByteSize) :
    decodedAt? source span = some middle := by
  have bytes : source.toUTF8.extract span.start span.stop = middle.toByteArray := by
    have shifted := @ByteArray.extract_append_size_add front.toByteArray
      (middle.toByteArray ++ back.toByteArray) 0 middle.toByteArray.size
    rw [Nat.add_zero, ByteArray.extract_append_eq_left rfl] at shifted
    rw [String.toUTF8_eq_toByteArray, parts, start, stop, String.append_assoc,
      String.toByteArray_append, String.toByteArray_append, ← String.size_toByteArray,
      ← String.size_toByteArray, shifted]
  have inside : span.start ≤ span.stop ∧ span.stop ≤ source.utf8ByteSize := by
    rw [parts, start, stop, String.utf8ByteSize_append, String.utf8ByteSize_append]
    omega
  simp only [decodedAt?, if_pos inside, bytes, String.fromUTF8?, dif_pos middle.isValidUTF8]
  rfl

end Text

namespace SourceLine

open Text (decodedAt? decodedAt?_eq)

/-- What lies between a line and the next one, and behind the last line of a
source with `size` bytes. -/
def gaps (size : Nat) : List SourceLine → List Text.Span
  | [] => []
  | [last] => [⟨last.span.stop, size⟩]
  | line :: next :: rest => ⟨line.span.stop, next.span.start⟩ :: gaps size (next :: rest)

/-! ## Pieces of a source -/

/-- The text of a line and the carriage return behind it.  One at the end of the
text is a second one. -/
structure Piece (text returned : String) : Prop where
  free : '\n' ∉ text.toList
  single : returned = "" ∨ returned = "\r"
  stripped : text.toList.getLast? = some '\r' → returned = "\r"

/-- The line with the given text behind `front`. -/
def behind (number : Nat) (front text : String) : SourceLine where
  number := number
  text := text
  span := ⟨front.utf8ByteSize, front.utf8ByteSize + text.utf8ByteSize⟩

/-- Behind `front`, the rest of a source consists of some lines with their
endings. -/
inductive Tiles : (number : Nat) → (front rest : String) → List (SourceLine × String) → Prop
  | last {number : Nat} {front text returned : String} (piece : Piece text returned) :
      Tiles number front (text ++ returned) [(behind number front text, returned)]
  | line {number : Nat} {front text returned rest : String} {pairs : List (SourceLine × String)}
      (piece : Piece text returned)
      (later : Tiles (number + 1) (front ++ (text ++ returned ++ "\n")) rest pairs) :
      Tiles number front (text ++ returned ++ "\n" ++ rest)
        ((behind number front text, returned ++ "\n") :: pairs)

theorem piece_of_raw {raw : List Char} (free : '\n' ∉ raw) :
    Piece (String.ofList (withoutReturn raw)) (String.ofList (ending raw)) := by
  constructor
  case free =>
      rw [String.toList_ofList]
      exact notMem_withoutReturn free
  case single =>
      unfold ending
      split
      · exact .inr rfl
      · exact .inl rfl
  case stripped =>
      unfold withoutReturn ending
      split
      case isTrue => exact fun _ => rfl
      case isFalse plain =>
          intro ends
          rw [String.toList_ofList] at ends
          exact absurd ends plain

theorem ofList_raw (raw : List Char) :
    String.ofList (withoutReturn raw) ++ String.ofList (ending raw) = String.ofList raw := by
  rw [← String.ofList_append, withoutReturn_ending]

/-- Numbering goes on behind the lines that are finished. -/
theorem numberFrom_eq (number offset : Nat) (finished : List SourceLine)
    (raws : List (List Char)) :
    numberFrom number offset finished raws =
      finished.reverse ++ numberFrom number offset [] raws := by
  induction raws generalizing number offset finished with
  | nil => rw [numberFrom, numberFrom, List.reverse_nil, List.append_nil]
  | cons raw rest ih =>
      rw [numberFrom, numberFrom, ih, ih _ _ [ofRaw number offset raw], List.reverse_cons,
        List.append_assoc, List.reverse_singleton]

theorem numberFrom_cons (number offset : Nat) (raw : List Char) (rest : List (List Char)) :
    numberFrom number offset [] (raw :: rest) =
      ofRaw number offset raw ::
        numberFrom (number + 1) (offset + Text.byteLength raw + 1) [] rest := by
  rw [numberFrom, numberFrom_eq, List.reverse_singleton, List.singleton_append]

theorem ofRaw_eq_behind (number : Nat) (front : String) (raw : List Char) :
    ofRaw number front.utf8ByteSize raw =
      behind number front (String.ofList (withoutReturn raw)) := by
  simp only [ofRaw, behind, Text.utf8ByteSize_ofList]

/-- Raw lines that are numbered make up the text between line feeds. -/
theorem exists_tiles {raws : List (List Char)} (nonempty : raws ≠ [])
    (free : ∀ raw ∈ raws, '\n' ∉ raw) (number : Nat) (front : String) :
    ∃ pairs, Tiles number front (String.ofList (['\n'].intercalate raws)) pairs ∧
      pairs.map Prod.fst = numberFrom number front.utf8ByteSize [] raws := by
  induction raws generalizing number front with
  | nil => exact absurd rfl nonempty
  | cons raw rest ih =>
      rcases List.forall_mem_cons.mp free with ⟨here, others⟩
      have piece := piece_of_raw here
      cases rest with
      | nil =>
          have tiles := @Tiles.last number front _ _ piece
          rw [ofList_raw] at tiles
          rw [List.intercalate_singleton]
          refine ⟨_, tiles, ?_⟩
          rw [numberFrom_cons, ofRaw_eq_behind]
          rfl
      | cons next more =>
          have size : (front ++ (String.ofList raw ++ "\n")).utf8ByteSize =
              front.utf8ByteSize + Text.byteLength raw + 1 := by
            rw [String.utf8ByteSize_append, String.utf8ByteSize_append, Text.utf8ByteSize_ofList,
              Nat.add_assoc]
            rfl
          rcases ih (List.cons_ne_nil next more) others (number + 1)
            (front ++ (String.ofList raw ++ "\n")) with ⟨pairs, later, numbered⟩
          rw [← ofList_raw raw] at later
          have tiles := Tiles.line piece later
          rw [ofList_raw] at tiles
          rw [List.intercalate_cons_cons, String.ofList_append, String.ofList_append]
          refine ⟨_, tiles, ?_⟩
          rw [List.map_cons, numbered, size, numberFrom_cons _ _ raw, ofRaw_eq_behind]

/-- The lines of a source and their endings. -/
theorem exists_tiles_ofSource (source : String) :
    ∃ pairs, Tiles 1 "" source pairs ∧ pairs.map Prod.fst = ofSource source := by
  rcases exists_tiles (List.splitOn_ne_nil '\n' source.toList)
    (fun _ => notMem_of_mem_splitOn) 1 "" with ⟨pairs, tiles, lines⟩
  rw [List.intercalate_splitOn, String.ofList_toList] at tiles
  exact ⟨pairs, tiles, lines⟩

namespace Tiles

variable {number : Nat} {front rest : String} {pairs : List (SourceLine × String)}

/-- The bytes at the span of a line encode its text. -/
theorem decoded (tiles : Tiles number front rest pairs) :
    ∀ pair ∈ pairs, decodedAt? (front ++ rest) pair.1.span = some pair.1.text := by
  induction tiles with
  | last piece =>
      rw [List.forall_mem_singleton]
      exact decodedAt?_eq String.append_assoc.symm rfl rfl
  | @line number front text returned rest pairs piece later ih =>
      have whole : front ++ (text ++ returned ++ "\n" ++ rest) =
          front ++ (text ++ returned ++ "\n") ++ rest := String.append_assoc.symm
      rw [List.forall_mem_cons]
      constructor
      · refine @decodedAt?_eq _ front text (returned ++ "\n" ++ rest) ?_ _ rfl rfl
        simp only [String.append_assoc]
      · rwa [whole]

/-- The first line starts behind what is in front of all lines. -/
theorem exists_first (tiles : Tiles number front rest pairs) :
    ∃ line others, pairs.map Prod.fst = line :: others ∧ line.span.start = front.utf8ByteSize := by
  cases tiles with
  | last piece => exact ⟨_, _, rfl, rfl⟩
  | line piece later => exact ⟨_, _, rfl, rfl⟩

/-- The bytes between lines encode their endings. -/
theorem map_gaps (tiles : Tiles number front rest pairs) :
    (gaps (front ++ rest).utf8ByteSize (pairs.map Prod.fst)).map (decodedAt? (front ++ rest)) =
      (pairs.map Prod.snd).map some := by
  induction tiles with
  | @last number front text returned piece =>
      have behind : decodedAt? (front ++ (text ++ returned))
          ⟨(behind number front text).span.stop, (front ++ (text ++ returned)).utf8ByteSize⟩ =
            some returned := by
        refine @decodedAt?_eq _ (front ++ text) returned "" ?_ _ ?_ ?_
        · rw [String.append_empty, String.append_assoc]
        · exact (String.utf8ByteSize_append ..).symm
        · rw [← String.utf8ByteSize_append, String.append_assoc]
      simp only [List.map_cons, List.map_nil, gaps, behind]
  | @line number front text returned rest pairs piece later ih =>
      rcases later.exists_first with ⟨next, others, lines, start⟩
      have whole : front ++ (text ++ returned ++ "\n" ++ rest) =
          front ++ (text ++ returned ++ "\n") ++ rest := String.append_assoc.symm
      have between : decodedAt? (front ++ (text ++ returned ++ "\n") ++ rest)
          ⟨(behind number front text).span.stop, next.span.start⟩ = some (returned ++ "\n") := by
        refine @decodedAt?_eq _ (front ++ text) (returned ++ "\n") rest ?_ _ ?_ ?_
        · simp only [String.append_assoc]
        · exact (String.utf8ByteSize_append ..).symm
        · rw [start, ← String.utf8ByteSize_append]
          simp only [String.append_assoc]
      rw [lines] at ih
      rw [whole, List.map_cons, List.map_cons, List.map_cons, lines, gaps, List.map_cons, between, ih]

/-- Put together, the lines and their endings are what was cut. -/
theorem join (tiles : Tiles number front rest pairs) :
    String.join (pairs.map fun pair => pair.1.text ++ pair.2) = rest := by
  induction tiles with
  | last piece =>
      rw [List.map_singleton, String.join_cons, String.join_nil, String.append_empty]
      rfl
  | line piece later ih =>
      rw [List.map_cons, String.join_cons, ih]
      simp only [behind, String.append_assoc]

/-- Every line but the last ends with a line feed. -/
theorem exists_endings (tiles : Tiles number front rest pairs) :
    ∃ endings last, pairs.map Prod.snd = endings ++ [last] ∧
      (∀ ending ∈ endings, ending = "\n" ∨ ending = "\r\n") ∧ (last = "" ∨ last = "\r") := by
  induction tiles with
  | last piece => exact ⟨[], _, rfl, List.forall_mem_nil _, piece.single⟩
  | @line number front text returned rest pairs piece later ih =>
      rcases ih with ⟨endings, last, parts, each, final⟩
      refine ⟨(returned ++ "\n") :: endings, last, ?_, List.forall_mem_cons.mpr ⟨?_, each⟩, final⟩
      · rw [List.map_cons, parts, List.cons_append]
      · rcases piece.single with rfl | rfl
        · exact .inl rfl
        · exact .inr rfl

/-- There is one line feed less than there are lines. -/
theorem length_eq (tiles : Tiles number front rest pairs) :
    pairs.length = rest.toList.count '\n' + 1 := by
  have none : ∀ {text returned : String}, Piece text returned →
      (text ++ returned).toList.count '\n' = 0 := by
    intro text returned piece
    have ended : '\n' ∉ returned.toList := by
      rcases piece.single with rfl | rfl
      · decide
      · decide
    rw [String.toList_append, List.count_append, List.count_eq_zero.mpr piece.free,
      List.count_eq_zero.mpr ended]
  induction tiles with
  | last piece => rw [none piece, List.length_singleton]
  | line piece later ih =>
      rw [String.toList_append, String.toList_append, List.count_append, List.count_append,
        none piece, List.length_cons, ih]
      simp only [Nat.zero_add]
      rw [Nat.add_comm (List.count _ _)]
      rfl

/-- A carriage return stays in the text only where a second one is the
ending. -/
theorem stripped (tiles : Tiles number front rest pairs) :
    ∀ pair ∈ pairs, pair.1.text.toList.getLast? = some '\r' → '\r' ∈ pair.2.toList := by
  induction tiles with
  | last piece =>
      rw [List.forall_mem_singleton]
      intro ends
      rw [piece.stripped ends]
      exact (by decide : '\r' ∈ "\r".toList)
  | line piece later ih =>
      refine List.forall_mem_cons.mpr ⟨fun ends => ?_, ih⟩
      rw [piece.stripped ends]
      exact (by decide : '\r' ∈ "\r\n".toList)

end Tiles

/-- Cutting a source into lines can be undone.  There is one line more than
there are line feeds, numbered from one on.  The span of a line holds the bytes
of its text, which has no line feed.  The first span starts with the source, and
what lies between spans and behind the last one is the ending of a line; with
these endings the texts make up the source.  Of the carriage returns in front of
an ending exactly one is taken to it. -/
theorem lines_tile_source (source : String) :
    (ofSource source).map SourceLine.number = List.range' 1 (source.toList.count '\n' + 1) ∧
      (∀ line ∈ ofSource source,
        decodedAt? source line.span = some line.text ∧ '\n' ∉ line.text.toList) ∧
      (ofSource source).head?.map (fun line => line.span.start) = some 0 ∧
      ∃ endings last,
        (gaps source.utf8ByteSize (ofSource source)).map (decodedAt? source) =
          (endings ++ [last]).map some ∧
        (∀ ending ∈ endings, ending = "\n" ∨ ending = "\r\n") ∧ (last = "" ∨ last = "\r") ∧
        String.join (((ofSource source).zip (endings ++ [last])).map
          fun pair => pair.1.text ++ pair.2) = source ∧
        ∀ pair ∈ (ofSource source).zip (endings ++ [last]),
          pair.1.text.toList.getLast? = some '\r' → '\r' ∈ pair.2.toList := by
  rcases exists_tiles_ofSource source with ⟨pairs, tiles, lines⟩
  rcases tiles.exists_endings with ⟨endings, last, parts, each, final⟩
  rcases tiles.exists_first with ⟨first, others, begun, start⟩
  have decoded := tiles.decoded
  have between := tiles.map_gaps
  have zipped : (ofSource source).zip (endings ++ [last]) = pairs :=
    (List.zip_of_prod lines parts).symm
  have length : (source.toList.splitOn '\n').length = source.toList.count '\n' + 1 := by
    have numbered := congrArg List.length (map_number_ofSource source)
    rw [List.length_map, List.length_range', ← lines, List.length_map, tiles.length_eq] at numbered
    exact numbered.symm
  rw [String.empty_append] at decoded between
  rw [lines, parts] at between
  refine ⟨?_, ?_, ?_, endings, last, between, each, final, ?_, ?_⟩
  · rw [map_number_ofSource, length]
  · intro line member
    refine ⟨?_, notMem_text member⟩
    rw [← lines] at member
    rcases List.mem_map.mp member with ⟨pair, listed, rfl⟩
    exact decoded pair listed
  · rw [← lines, begun, List.head?_cons, Option.map_some, start]
    rfl
  · rw [zipped, tiles.join]
  · rw [zipped]
    exact tiles.stripped

end SourceLine
end Pagewright
