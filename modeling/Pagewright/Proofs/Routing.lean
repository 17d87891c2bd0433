import Mathlib.Data.List.DropRight
import Mathlib.Data.List.Flatten
import Mathlib.Data.List.Nodup
import Pagewright.Proofs.Source

namespace Pagewright

/-!
# Where the lines of a source go

A line with text that is no marker goes to the target that the last marker in
front of it names, and to the page if there is none.  The markers cut a source
into runs, and a section is a whole run, so blank lines share the fate of the
run they stand in.

`Cut` describes the cut once, run by run, with the target in force where it
begins as a parameter.  What happens to a single line is read off it from the
text around the line: the marker in front gives the target, and the markers on
both sides give the run.  That the line stands nowhere else follows from its
number.
-/

/-! ## Lines -/

/-- A marker has text. -/
theorem Marker.lookup_empty : Marker.spellings.lookup "" = none := by decide

namespace SourceLine

/-- Does the line divide the source? -/
def isMarker (line : SourceLine) : Bool :=
  (Marker.ofText? line.text).isSome

/-- Does the line hold nothing but blanks? -/
def isBlank (line : SourceLine) : Bool :=
  line.trimmed.isEmpty

theorem isMarker_of_isBlank {line : SourceLine} (blank : line.isBlank = true) :
    line.isMarker = false := by
  have empty : line.trimmed = "" := String.isEmpty_iff.mp blank
  have looked : Marker.ofText? line.text = Marker.spellings.lookup line.trimmed := rfl
  rw [isMarker, looked, empty, Marker.lookup_empty]
  rfl

private theorem map_number_numberFrom (number offset : Nat) (finished : List SourceLine)
    (raws : List (List Char)) :
    (numberFrom number offset finished raws).map SourceLine.number =
      finished.reverse.map SourceLine.number ++ List.range' number raws.length := by
  induction raws generalizing number offset finished with
  | nil => simp only [numberFrom, List.length_nil, List.range'_zero, List.append_nil]
  | cons raw rest ih =>
      rw [numberFrom, ih, List.reverse_cons, List.map_append, List.append_assoc, List.length_cons,
        List.range'_succ]
      rfl

/-- Lines are numbered from one on. -/
theorem map_number_ofSource (source : String) :
    (ofSource source).map SourceLine.number =
      List.range' 1 (source.toList.splitOn '\n').length :=
  map_number_numberFrom 1 0 [] _

theorem pairwise_number_ofSource (source : String) :
    (ofSource source).Pairwise fun first second => first.number < second.number := by
  have numbers : ((ofSource source).map SourceLine.number).Pairwise (· < ·) := by
    rw [map_number_ofSource]
    exact List.pairwise_lt_range'
  exact List.pairwise_map.mp numbers

theorem nodup_ofSource (source : String) : (ofSource source).Nodup :=
  (pairwise_number_ofSource source).imp fun smaller same => absurd (same ▸ smaller) (Nat.lt_irrefl _)

end SourceLine

namespace Section

/-! ## The cut at the markers -/

/-- The target in force behind some lines, if `start` is in force in front of
them: the last marker decides, and an end of any kind returns to the page. -/
def targetBehind (start : Target) (lines : List SourceLine) : Target :=
  match (lines.filterMap fun line => Marker.ofText? line.text).getLast? with
  | some (.start target) => target
  | some .stop => .page
  | none => start

/-- The run in which a line stands between the given lines: everything around
it up to the nearest markers. -/
def runAround (before : List SourceLine) (line : SourceLine) (after : List SourceLine) :
    List SourceLine :=
  before.rtakeWhile (fun other => !other.isMarker) ++
    line :: after.takeWhile fun other => !other.isMarker

/-- The runs of some lines, where `start` is in force in front of them. -/
inductive Cut : (start : Target) → List SourceLine → List Section → Prop
  | last {start : Target} {run : List SourceLine}
      (unmarked : ∀ line ∈ run, line.isMarker = false) : Cut start run [⟨start, run⟩]
  | divided {start : Target} {run : List SourceLine} {line : SourceLine} {marker : Marker}
      {rest : List SourceLine} {parts : List Section}
      (unmarked : ∀ line ∈ run, line.isMarker = false)
      (marked : Marker.ofText? line.text = some marker) (later : Cut marker.target rest parts) :
      Cut start (run ++ line :: rest) (⟨start, run⟩ :: parts)

theorem Cut.cons {start : Target} {first : SourceLine} {lines run : List SourceLine}
    {parts : List Section} (unmarked : first.isMarker = false)
    (cut : Cut start lines (⟨start, run⟩ :: parts)) :
    Cut start (first :: lines) (⟨start, first :: run⟩ :: parts) := by
  cases cut with
  | last others => exact .last (List.forall_mem_cons.mpr ⟨unmarked, others⟩)
  | divided others marked later =>
      exact .divided (List.forall_mem_cons.mpr ⟨unmarked, others⟩) marked later

theorem cut_runs (start : Target) (lines : List SourceLine) :
    Cut start lines
      (⟨start, (runs lines).1⟩ :: (runs lines).2.map fun (marker, run) => ⟨marker.target, run⟩) := by
  induction lines generalizing start with
  | nil => exact .last nofun
  | cons first rest ih =>
      cases marked : Marker.ofText? first.text with
      | some marker =>
          rw [runs_of_marked marked]
          exact @Cut.divided start [] first marker rest _ nofun marked (ih marker.target)
      | none =>
          rw [runs_of_unmarked marked]
          exact (ih start).cons (Option.isSome_eq_false_iff.mpr (Option.isNone_iff_eq_none.mpr marked))

theorem cut_ofLines (lines : List SourceLine) : Cut .page lines (ofLines lines) :=
  cut_runs .page lines

/-! ## Targets and runs around a line -/

theorem targetBehind_of_unmarked {lines : List SourceLine}
    (unmarked : ∀ line ∈ lines, line.isMarker = false) (start : Target) :
    targetBehind start lines = start := by
  have none : lines.filterMap (fun line => Marker.ofText? line.text) = [] :=
    List.filterMap_eq_nil_iff.mpr fun line member =>
      Option.isNone_iff_eq_none.mp (Option.isSome_eq_false_iff.mp (unmarked line member))
  rw [targetBehind, none]
  rfl

/-- What stands in front of a marker does not matter behind it. -/
theorem targetBehind_divided {line : SourceLine} {marker : Marker}
    (marked : Marker.ofText? line.text = some marker) (start : Target)
    (run rest : List SourceLine) :
    targetBehind start (run ++ line :: rest) = targetBehind marker.target rest := by
  have first : (line :: rest).filterMap (fun line => Marker.ofText? line.text) =
      marker :: rest.filterMap fun line => Marker.ofText? line.text := List.filterMap_cons_some marked
  unfold targetBehind
  rw [List.filterMap_append, first, List.getLast?_append, List.getLast?_cons]
  cases (rest.filterMap fun line => Marker.ofText? line.text).getLast? with
  | none =>
      cases marker with
      | start target => rfl
      | stop => rfl
  | some last =>
      cases last with
      | start target => rfl
      | stop => rfl

private theorem takeWhile_unmarked {lines : List SourceLine}
    (unmarked : ∀ line ∈ lines, line.isMarker = false) :
    lines.takeWhile (fun other => !other.isMarker) = lines :=
  List.takeWhile_eq_self_iff.mpr fun line member => by
    rw [unmarked line member]
    rfl

private theorem takeWhile_stopped {stop : SourceLine} (marked : stop.isMarker = true)
    (front back : List SourceLine) :
    (front ++ stop :: back).takeWhile (fun other => !other.isMarker) =
      front.takeWhile fun other => !other.isMarker := by
  induction front with
  | nil => simp [marked]
  | cons line front ih => simp only [List.cons_append, List.takeWhile_cons, ih]

/-- The lines in front of a marker do not belong to a run behind it. -/
theorem runAround_divided {stop : SourceLine} (marked : stop.isMarker = true)
    (front before : List SourceLine) (line : SourceLine) (after : List SourceLine) :
    runAround (front ++ stop :: before) line after = runAround before line after := by
  have reversed : (front ++ stop :: before).reverse = before.reverse ++ stop :: front.reverse := by
    simp
  unfold runAround List.rtakeWhile
  rw [reversed, takeWhile_stopped marked]

/-- A run ends in front of a marker, or with the lines. -/
theorem runAround_of_unmarked {before : List SourceLine}
    (unmarked : ∀ other ∈ before, other.isMarker = false) (line : SourceLine)
    (after : List SourceLine) :
    runAround before line after = before ++ line :: after.takeWhile fun other => !other.isMarker := by
  have whole : before.rtakeWhile (fun other => !other.isMarker) = before :=
    List.rtakeWhile_eq_self_iff.mpr fun other member => by
      rw [unmarked other member]
      rfl
  rw [runAround, whole]

/-- A line without a marker stands in a part that is the run around it, for the
target that the last marker in front of it names. -/
theorem Cut.exists_part {start : Target} {lines : List SourceLine} {parts : List Section}
    (cut : Cut start lines parts) {before after : List SourceLine} {line : SourceLine}
    (place : lines = before ++ line :: after) (plain : line.isMarker = false) :
    ∃ front back, parts =
      front ++ ⟨targetBehind start before, runAround before line after⟩ :: back := by
  induction cut generalizing before with
  | @last start run unmarked =>
      rw [place] at unmarked
      rcases List.forall_mem_append.mp unmarked with ⟨inFront, rest⟩
      refine ⟨[], [], ?_⟩
      rw [targetBehind_of_unmarked inFront, runAround_of_unmarked inFront,
        takeWhile_unmarked (List.forall_mem_cons.mp rest).2, place]
      rfl
  | @divided start run stop marker rest parts unmarked marked later ih =>
      have isMarker : stop.isMarker = true := by
        rw [SourceLine.isMarker, marked]
        rfl
      -- The line stands behind the first marker or in front of it.
      rcases List.append_eq_append_iff.mp place with
        ⟨between, beforeEq, restEq⟩ | ⟨behind, runEq, afterEq⟩
      · cases between with
        | nil =>
            rw [(List.cons.inj restEq).1, plain] at isMarker
            cases isMarker
        | cons first between =>
            rcases List.cons.inj restEq with ⟨rfl, tailEq⟩
            rcases ih tailEq with ⟨front, back, split⟩
            refine ⟨⟨start, run⟩ :: front, back, ?_⟩
            rw [beforeEq, targetBehind_divided marked, runAround_divided isMarker, split]
            rfl
      · cases behind with
        | nil =>
            rw [← (List.cons.inj afterEq).1, plain] at isMarker
            cases isMarker
        | cons first behind =>
            rcases List.cons.inj afterEq with ⟨rfl, tailEq⟩
            rw [runEq] at unmarked
            rcases List.forall_mem_append.mp unmarked with ⟨inFront, others⟩
            refine ⟨[], parts, ?_⟩
            rw [targetBehind_of_unmarked inFront, runAround_of_unmarked inFront, tailEq,
              List.append_eq, takeWhile_stopped isMarker,
              takeWhile_unmarked (List.forall_mem_cons.mp others).2, runEq]
            rfl

/-- Each part is a piece of the lines, for the target in force in front of
it. -/
theorem Cut.contiguous {start : Target} {lines : List SourceLine} {parts : List Section}
    (cut : Cut start lines parts) {part : Section} (listed : part ∈ parts) :
    ∃ before after, lines = before ++ part.lines ++ after ∧
      part.target = targetBehind start before ∧ ∀ line ∈ part.lines, line.isMarker = false := by
  induction cut with
  | @last start run unmarked =>
      rw [List.mem_singleton.mp listed]
      exact ⟨[], [], (List.append_nil run).symm, rfl, unmarked⟩
  | @divided start run stop marker rest parts unmarked marked later ih =>
      rcases List.mem_cons.mp listed with rfl | among
      · exact ⟨[], stop :: rest, rfl, rfl, unmarked⟩
      · rcases ih among with ⟨before, after, restEq, target, plain⟩
        refine ⟨run ++ stop :: before, after, ?_, ?_, plain⟩
        · rw [restEq]
          simp
        · rw [targetBehind_divided marked, target]

/-- The parts together hold the lines without a marker, in their order. -/
theorem Cut.flatMap_lines {start : Target} {lines : List SourceLine} {parts : List Section}
    (cut : Cut start lines parts) :
    parts.flatMap Section.lines = lines.filter fun line => !line.isMarker := by
  have keeps : ∀ {run : List SourceLine}, (∀ line ∈ run, line.isMarker = false) →
      run.filter (fun line => !line.isMarker) = run := fun unmarked =>
    List.filter_eq_self.mpr fun line member => by
      rw [unmarked line member]
      rfl
  induction cut with
  | last unmarked => simp [keeps unmarked]
  | @divided start run stop marker rest parts unmarked marked later ih =>
      have isMarker : stop.isMarker = true := by
        rw [SourceLine.isMarker, marked]
        rfl
      simp [keeps unmarked, ih, isMarker]

/-! ## Sections of a source -/

theorem hasText_iff {part : Section} :
    part.hasText = true ↔ ∃ line ∈ part.lines, line.isBlank = false := by
  simp only [hasText, List.any_eq_true, Bool.not_eq_true', SourceLine.isBlank, SourceLine.trimmed]

/-- The lines of the sections are lines of the source, in their order. -/
theorem flatMap_lines_sublist (source : String) :
    ((ofSource source).flatMap Section.lines).Sublist (SourceLine.ofSource source) := by
  have parts := (cut_ofLines (SourceLine.ofSource source)).flatMap_lines
  have fewer : ((ofSource source).flatMap Section.lines).Sublist
      ((ofLines (SourceLine.ofSource source)).flatMap Section.lines) :=
    (List.filter_sublist).flatMap Section.lines
  rw [parts] at fewer
  exact fewer.trans List.filter_sublist

/-- The part in which a line stands holds it once, and no other part does. -/
theorem exists_only_part {source : String} {before after : List SourceLine} {line : SourceLine}
    (place : SourceLine.ofSource source = before ++ line :: after)
    (plain : line.isMarker = false) :
    ∃ front part back, ofLines (SourceLine.ofSource source) = front ++ part :: back ∧
      part.target = targetBehind .page before ∧ part.lines = runAround before line after ∧
      part.lines.count line = 1 ∧ ∀ other ∈ front ++ back, line ∉ other.lines := by
  have cut := cut_ofLines (SourceLine.ofSource source)
  rcases cut.exists_part place plain with ⟨front, back, split⟩
  have distinct : ((ofLines (SourceLine.ofSource source)).flatMap Section.lines).Nodup := by
    rw [cut.flatMap_lines]
    exact (SourceLine.nodup_ofSource source).filter _
  have inside : line ∈ runAround before line after :=
    List.mem_append_right _ List.mem_cons_self
  rw [split, List.flatMap_append, List.flatMap_cons, List.nodup_append, List.nodup_append] at distinct
  rcases distinct with ⟨-, ⟨once, -, notBehind⟩, notInFront⟩
  refine ⟨front, _, back, split, rfl, rfl, List.count_eq_one_of_mem once inside, ?_⟩
  intro other listed found
  rcases List.mem_append.mp listed with earlier | later
  · exact notInFront line (List.mem_flatMap.mpr ⟨other, earlier, found⟩) line
      (List.mem_append_left _ inside) rfl
  · exact notBehind line inside line (List.mem_flatMap.mpr ⟨other, later, found⟩) rfl

/-- No line stands in two parts. -/
theorem eq_of_mem_lines {source : String} {line : SourceLine} {part other : Section}
    (listed : part ∈ ofLines (SourceLine.ofSource source)) (member : line ∈ part.lines)
    (otherListed : other ∈ ofLines (SourceLine.ofSource source)) (found : line ∈ other.lines) :
    other = part := by
  rcases (cut_ofLines (SourceLine.ofSource source)).contiguous listed with
    ⟨inFront, behind, whole, -, plain⟩
  have among : line ∈ SourceLine.ofSource source := by
    rw [whole]
    exact List.mem_append_left _ (List.mem_append_right _ member)
  rcases List.append_of_mem among with ⟨before, after, place⟩
  rcases exists_only_part place (plain line member) with ⟨front, only, back, split, -, -, -, nowhere⟩
  have same : ∀ {given : Section}, given ∈ ofLines (SourceLine.ofSource source) →
      line ∈ given.lines → given = only := by
    intro given inParts inside
    rw [split] at inParts
    rcases List.mem_append.mp inParts with earlier | here
    · exact absurd inside (nowhere given (List.mem_append_left _ earlier))
    · rcases List.mem_cons.mp here with same | later
      · exact same
      · exact absurd inside (nowhere given (List.mem_append_right _ later))
  rw [same otherListed found, same listed member]

/-- Cutting a source into sections loses, repeats, moves and misroutes no line:
a line with text that is no marker stands in exactly one section, for the target
that the last marker in front of it names; the sections keep the order of the
lines; each is a piece of the source with text and without markers; and a blank
line is left out exactly when the run around it is blank. -/
theorem sections_route_lines (source : String) :
    (∀ before line after, SourceLine.ofSource source = before ++ line :: after →
        line.isMarker = false → line.isBlank = false →
        ∃ front part back, ofSource source = front ++ part :: back ∧
          part.target = targetBehind .page before ∧ part.lines.count line = 1 ∧
          ∀ other ∈ front ++ back, line ∉ other.lines) ∧
      (((ofSource source).flatMap Section.lines).Pairwise fun first second =>
        first.number < second.number) ∧
      (∀ part ∈ ofSource source,
        (∀ line ∈ part.lines, line.isMarker = false) ∧ (∃ line ∈ part.lines, line.isBlank = false) ∧
          ∃ before after, SourceLine.ofSource source = before ++ part.lines ++ after ∧
            part.target = targetBehind .page before) ∧
      ∀ before line after, SourceLine.ofSource source = before ++ line :: after → line.isBlank = true →
        ((∀ part ∈ ofSource source, line ∉ part.lines) ↔
          ∀ other ∈ runAround before line after, other.isBlank = true) := by
  refine ⟨?_, ?_, ?_, ?_⟩
  · intro before line after place plain text
    rcases exists_only_part place plain with ⟨front, part, back, split, target, -, once, nowhere⟩
    have member : line ∈ part.lines := List.count_pos_iff.mp (once ▸ Nat.one_pos)
    have kept : part.hasText = true := hasText_iff.mpr ⟨line, member, text⟩
    refine ⟨front.filter hasText, part, back.filter hasText, ?_, target, once, ?_⟩
    · show (ofLines (SourceLine.ofSource source)).filter hasText = _
      rw [split, List.filter_append, List.filter_cons_of_pos kept]
    · intro other listed
      rw [← List.filter_append] at listed
      exact nowhere other (List.mem_filter.mp listed).1
  · exact (SourceLine.pairwise_number_ofSource source).sublist (flatMap_lines_sublist source)
  · intro part listed
    rcases List.mem_filter.mp listed with ⟨among, text⟩
    rcases (cut_ofLines (SourceLine.ofSource source)).contiguous among with
      ⟨before, after, whole, target, plain⟩
    exact ⟨plain, hasText_iff.mp text, before, after, whole, target⟩
  · intro before line after place blank
    rcases exists_only_part place (SourceLine.isMarker_of_isBlank blank) with
      ⟨front, part, back, split, -, run, once, -⟩
    have member : line ∈ part.lines := List.count_pos_iff.mp (once ▸ Nat.one_pos)
    have listed : part ∈ ofLines (SourceLine.ofSource source) := by
      rw [split]
      exact List.mem_append_right _ List.mem_cons_self
    rw [← run]
    constructor
    · intro dropped other inRun
      cases text : other.isBlank with
      | true => rfl
      | false =>
          have kept : part.hasText = true := hasText_iff.mpr ⟨other, inRun, text⟩
          exact absurd member (dropped part (List.mem_filter.mpr ⟨listed, kept⟩))
    · intro allBlank other inSections found
      rcases List.mem_filter.mp inSections with ⟨among, text⟩
      -- The run around the line is the only part that holds it, and it has no text.
      rcases hasText_iff.mp text with ⟨filled, inRun, notBlank⟩
      rw [eq_of_mem_lines listed member among found] at inRun
      rw [allBlank filled inRun] at notBlank
      cases notBlank

/-- A source with a blank run for the stylesheet, a blank line in a run for the
page, and a script that the end of a stylesheet ends. -/
def windings : String := "زر\n\nstart_css\n \nstart_js\nx\nend_css\nصف"

theorem sections_route_lines_windings :
    (∃ front part back, ofSource windings = front ++ part :: back ∧ part.target = .script ∧
        part.lines.count ⟨6, "x", ⟨27, 28⟩⟩ = 1 ∧
        ∀ other ∈ front ++ back, ⟨6, "x", ⟨27, 28⟩⟩ ∉ other.lines) ∧
      ∀ part ∈ ofSource windings, ⟨4, " ", ⟨16, 17⟩⟩ ∉ part.lines := by
  have lines : SourceLine.ofSource windings =
      [⟨1, "زر", ⟨0, 4⟩⟩, ⟨2, "", ⟨5, 5⟩⟩, ⟨3, "start_css", ⟨6, 15⟩⟩, ⟨4, " ", ⟨16, 17⟩⟩,
        ⟨5, "start_js", ⟨18, 26⟩⟩, ⟨6, "x", ⟨27, 28⟩⟩, ⟨7, "end_css", ⟨29, 36⟩⟩,
        ⟨8, "صف", ⟨37, 41⟩⟩] := by decide +kernel
  rcases sections_route_lines windings with ⟨routed, -, -, dropped⟩
  refine ⟨?_, ?_⟩
  · rcases routed [⟨1, "زر", ⟨0, 4⟩⟩, ⟨2, "", ⟨5, 5⟩⟩, ⟨3, "start_css", ⟨6, 15⟩⟩, ⟨4, " ", ⟨16, 17⟩⟩,
        ⟨5, "start_js", ⟨18, 26⟩⟩] ⟨6, "x", ⟨27, 28⟩⟩ _ lines (by decide) (by decide) with
      ⟨front, part, back, split, target, once, nowhere⟩
    exact ⟨front, part, back, split, target, once, nowhere⟩
  · refine (dropped [⟨1, "زر", ⟨0, 4⟩⟩, ⟨2, "", ⟨5, 5⟩⟩, ⟨3, "start_css", ⟨6, 15⟩⟩] ⟨4, " ", ⟨16, 17⟩⟩ _
      lines (by decide)).mpr ?_
    decide

end Section
end Pagewright
