import Pagewright.Proofs.Alignment

namespace Pagewright

open Generator (commandsOf said SimilarLines)

/-!
# Layout

Indentation, blank lines and the kind of line endings are layout.  What a source
means is settled by its lines without the blanks around them, and blank lines
mean nothing: they hold no command and no marker, and a section needs a line with
text.  The outputs for a target, whether a source succeeds and what its failure
says are therefore functions of the remaining texts.

Numbers of lines are not, because they count blank lines.  Where two sources agree
line by line after trimming, the numbers agree as well, and then everything does
but the spans.
-/

/-- The lines of a source, cut at line feeds and without the blanks around
them. -/
def Text.trimmedLines (source : String) : List String :=
  (source.toList.splitOn '\n').map fun raw => Text.trim (String.ofList raw)

/-- The lines of a source that hold text, without the blanks around them. -/
def Text.contentLines (source : String) : List String :=
  (Text.trimmedLines source).filter fun text => !text.isEmpty

theorem SourceLine.map_trimmed_ofSource (source : String) :
    (ofSource source).map trimmed = Text.trimmedLines source := by
  have texts : (ofSource source).map trimmed = ((ofSource source).map text).map Text.trim := by
    rw [List.map_map]
    rfl
  rw [texts, map_text_ofSource, List.map_map, Text.trimmedLines]
  apply List.map_congr_left
  intro raw _
  simp only [Function.comp_apply, Text.trim, String.toList_ofList, trimChars_withoutReturn]

/-! ## Texts for a target -/

namespace Section

/-- The texts for a target among trimmed lines, where `start` is the target in
force in front of them. -/
def textsFor (target : Target) : (start : Target) → List String → List String
  | _, [] => []
  | start, text :: rest =>
      match Marker.spellings.lookup text with
      | some marker => textsFor target marker.target rest
      | none => if start = target then text :: textsFor target start rest else textsFor target start rest

theorem textsFor_unmarked {target start : Target} {run : List SourceLine}
    (unmarked : ∀ line ∈ run, line.isMarker = false) (rest : List String) :
    textsFor target start (run.map SourceLine.trimmed ++ rest) =
      (if start = target then run.map SourceLine.trimmed else []) ++ textsFor target start rest := by
  induction run with
  | nil => simp
  | cons line run ih =>
      rcases List.forall_mem_cons.mp unmarked with ⟨here, later⟩
      have plain : Marker.spellings.lookup line.trimmed = none :=
        Option.isNone_iff_eq_none.mp (Option.isSome_eq_false_iff.mp here)
      rw [List.map_cons, List.cons_append, textsFor, plain, ih later]
      dsimp only
      by_cases matching : start = target
      · simp only [if_pos matching, List.cons_append]
      · simp only [if_neg matching]

/-- Lines go where their texts go. -/
theorem Cut.map_trimmed_routed {start : Target} {lines : List SourceLine} {parts : List Section}
    (cut : Cut start lines parts) (target : Target) :
    (routed target parts).map SourceLine.trimmed =
      textsFor target start (lines.map SourceLine.trimmed) := by
  have first : ∀ {start : Target} {run : List SourceLine} {parts : List Section},
      (routed target (⟨start, run⟩ :: parts)).map SourceLine.trimmed =
        (if start = target then run.map SourceLine.trimmed else []) ++
          (routed target parts).map SourceLine.trimmed := by
    intro start run parts
    unfold routed
    by_cases matching : start = target
    · simp [matching]
    · simp [matching]
  induction cut with
  | @last start run unmarked =>
      have whole := @textsFor_unmarked target start run unmarked []
      rw [List.append_nil] at whole
      rw [first, whole]
      rfl
  | @divided start run line marker rest parts unmarked marked later ih =>
      have looked : Marker.spellings.lookup line.trimmed = some marker := marked
      rw [first, ih, List.map_append, List.map_cons, textsFor_unmarked unmarked, textsFor, looked]

/-- Blank lines may be left out before or after. -/
theorem textsFor_filter (target start : Target) (texts : List String) :
    textsFor target start (texts.filter fun text => !text.isEmpty) =
      (textsFor target start texts).filter fun text => !text.isEmpty := by
  induction texts generalizing start with
  | nil => rfl
  | cons text rest ih =>
      cases empty : text.isEmpty with
      | true =>
          have plain : Marker.spellings.lookup text = none := by
            rw [String.isEmpty_iff.mp empty, Marker.lookup_empty]
          rw [List.filter_cons_of_neg (by rw [empty]; decide), ih, textsFor, plain]
          dsimp only
          split
          · rw [List.filter_cons_of_neg (by rw [empty]; decide)]
          · rfl
      | false =>
          rw [List.filter_cons_of_pos (by rw [empty]; rfl), textsFor, textsFor]
          cases Marker.spellings.lookup text with
          | some marker => exact ih marker.target
          | none =>
              dsimp only
              split
              · rw [List.filter_cons_of_pos (by rw [empty]; rfl), ih]
              · exact ih start

/-- The lines with text for a target, trimmed. -/
def contentFor (target : Target) (sections : List Section) : List String :=
  ((routed target sections).map SourceLine.trimmed).filter fun text => !text.isEmpty

/-- Runs without text add nothing. -/
theorem contentFor_filter (target : Target) (parts : List Section) :
    contentFor target (parts.filter hasText) = contentFor target parts := by
  have first : ∀ (part : Section) (parts : List Section), contentFor target (part :: parts) =
      (if part.target = target then
        (part.lines.map SourceLine.trimmed).filter fun text => !text.isEmpty else []) ++
        contentFor target parts := by
    intro part parts
    unfold contentFor routed
    by_cases matching : part.target = target
    · simp [matching]
    · simp [matching]
  induction parts with
  | nil => rfl
  | cons part parts ih =>
      cases text : part.hasText with
      | true => rw [List.filter_cons_of_pos text, first, first, ih]
      | false =>
          have nothing :
              (part.lines.map SourceLine.trimmed).filter (fun text => !text.isEmpty) = [] := by
            rw [hasText_eq] at text
            exact List.filter_eq_nil_iff.mpr (List.any_eq_false.mp text)
          rw [List.filter_cons_of_neg (by rw [text]; decide), ih, first, nothing]
          simp

/-- What goes to a target is settled by the lines with text. -/
theorem contentFor_ofSource (target : Target) (source : String) :
    contentFor target (ofSource source) = textsFor target .page (Text.contentLines source) := by
  rw [ofSource, contentFor_filter, contentFor,
    (cut_ofLines (SourceLine.ofSource source)).map_trimmed_routed, ← textsFor_filter,
    SourceLine.map_trimmed_ofSource, Text.contentLines]

theorem any_eq_contentFor {sections : List Section}
    (filled : ∀ part ∈ sections, part.hasText = true) (target : Target) :
    (sections.any fun part => part.target == target) = !(contentFor target sections).isEmpty := by
  rw [← hasText_routed filled target, hasText_eq, contentFor, Bool.eq_iff_iff, List.any_eq_true,
    Bool.not_eq_true', List.isEmpty_eq_false_iff_exists_mem]
  simp only [List.mem_filter]

/-- Blank lines hold no command. -/
theorem commandsOf_routed (target : Target) (sections : List Section) :
    commandsOf (routed target sections) =
      (contentFor target sections).filterMap Command.ofTrimmed? := by
  rw [commandsOf_eq, contentFor, List.filterMap_filter]
  apply List.filterMap_congr
  intro text _
  cases empty : text.isEmpty with
  | true =>
      rw [String.isEmpty_iff.mp empty]
      rfl
  | false => rfl

end Section

/-! ## Reports and genres -/

namespace Report

/-- What is said about a target is settled by the lines with text. -/
theorem accountFor?_eq_of_contentLines {left right : String}
    (same : Text.contentLines left = Text.contentLines right) (settings : Settings)
    (target : Target) :
    (ofSections settings (Section.ofSource left)).accountFor? target =
      (ofSections settings (Section.ofSource right)).accountFor? target := by
  have filled : ∀ source, ∀ part ∈ Section.ofSource source, part.hasText = true :=
    fun source part listed => (List.mem_filter.mp listed).2
  rw [accountFor?_ofSections, accountFor?_ofSections, Section.any_eq_contentFor (filled left),
    Section.any_eq_contentFor (filled right), Section.commandsOf_routed, Section.commandsOf_routed,
    Section.contentFor_ofSource, Section.contentFor_ofSource, same]

theorem failure?_ofSections (settings : Settings) (sections : List Section) :
    (ofSections settings sections).failure? =
      ((ofSections settings sections).accountFor? .page).bind fun account =>
        account.errors.head? := by
  have failure : (ofSections settings sections).failure? =
      (ofSections settings sections).pageError?.map Diagnostic.message := rfl
  rw [failure, pageError?, accountFor?]
  cases (ofSections settings sections).outcomeFor? .page with
  | none => rfl
  | some outcome =>
      rw [Option.bind_some, Option.map_some, Option.bind_some, Outcome.account, List.head?_map]

end Report

theorem Genre.ofSource_eq (source : String) :
    ofSource source =
      if (Text.contentLines source).any fun text => (Marker.spellings.lookup text).isSome then .mixed
      else ofKeys ((Text.contentLines source).filterMap fun text =>
        (Command.ofTrimmed? text).map Command.key) := by
  have markers : ((SourceLine.ofSource source).any fun line => (Marker.ofText? line.text).isSome) =
      (Text.contentLines source).any fun text => (Marker.spellings.lookup text).isSome := by
    rw [Text.contentLines, List.any_filter, ← SourceLine.map_trimmed_ofSource, List.any_map]
    apply congrArg ((SourceLine.ofSource source).any)
    funext line
    show (Marker.spellings.lookup line.trimmed).isSome = _
    rw [Function.comp_apply]
    cases empty : line.trimmed.isEmpty with
    | true =>
        rw [String.isEmpty_iff.mp empty, Marker.lookup_empty]
        rfl
    | false => rfl
  have commands : keys (SourceLine.ofSource source) =
      (Text.contentLines source).filterMap fun text => (Command.ofTrimmed? text).map Command.key := by
    rw [Text.contentLines, List.filterMap_filter, ← SourceLine.map_trimmed_ofSource,
      List.filterMap_map]
    apply List.filterMap_congr
    intro line _
    rw [Command.ofLine?_eq, Function.comp_apply]
    show Option.map Command.key (Command.ofTrimmed? line.trimmed) = _
    cases empty : line.trimmed.isEmpty with
    | true =>
        rw [String.isEmpty_iff.mp empty]
        rfl
    | false => rfl
  rw [ofSource, markers, commands]

/-! ## Sources that agree line by line -/

/-- Sources that agree line by line after trimming have equally numbered lines. -/
theorem SourceLine.sameTrimmed_ofSource {left right : String}
    (same : Text.trimmedLines left = Text.trimmedLines right) :
    List.Forall₂ SameTrimmed (ofSource left) (ofSource right) := by
  have pairs : ∀ source, (ofSource source).map (fun line => (line.number, line.trimmed)) =
      (List.range' 1 (Text.trimmedLines source).length).zip (Text.trimmedLines source) := by
    intro source
    have length : (Text.trimmedLines source).length = (source.toList.splitOn '\n').length :=
      List.length_map _
    rw [length, ← map_number_ofSource, ← map_trimmed_ofSource, List.zip_map']
  have equal : (ofSource left).map (fun line => (line.number, line.trimmed)) =
      (ofSource right).map fun line => (line.number, line.trimmed) := by
    rw [pairs, pairs, same]
  rw [← List.forall₂_eq_eq_eq, List.forall₂_map_left_iff, List.forall₂_map_right_iff] at equal
  exact equal.imp fun _ _ here => ⟨(Prod.mk.inj here).1, (Prod.mk.inj here).2⟩

/-- Sources that agree line by line after trimming fail on the same line and have
the same warnings. -/
theorem Report.eq_of_trimmedLines {left right : String}
    (same : Text.trimmedLines left = Text.trimmedLines right) (settings : Settings) :
    (ofSections settings (Section.ofSource left)).failureLine? =
        (ofSections settings (Section.ofSource right)).failureLine? ∧
      (ofSections settings (Section.ofSource left)).warnings =
        (ofSections settings (Section.ofSource right)).warnings := by
  have lines := SourceLine.sameTrimmed_ofSource same
  have alike : Section.CutsAlike SourceLine.SameTrimmed := fun _ _ here => ⟨here.marker, here.isBlank⟩
  have outcomes : ∀ target, Option.Rel SaysSame
      ((ofSections settings (Section.ofSource left)).outcomeFor? target)
      ((ofSections settings (Section.ofSource right)).outcomeFor? target) := by
    intro target
    rcases exists_generator settings target with ⟨σ, generator, rfl, finishes, -, outcomeFor⟩
    have present := Section.any_of_inLine (Section.inLine_ofSource alike lines) generator.target
    have routed := Section.inLine_routed alike lines generator.target
    rw [outcomeFor, outcomeFor]
    exact saysSame_outcome? finishes present (routed.imp fun _ _ here => here.similar)
  rcases eq_of_sameResult fun target => sameResult_of_saysSame (outcomes target) with
    ⟨-, -, -, -, failureLine⟩
  exact ⟨failureLine, warnings_of_saysSame outcomes⟩

/-- Layout does not matter.  Sources with the same lines, up to blanks around them
and blank lines between them, have the same outputs and the same document, succeed
or fail alike and for the same reason, and are of one genre.  If they also agree
line by line, failures and warnings are about the same lines. -/
theorem layout_irrelevant (settings : Settings) (left right : String)
    (leftAccepted : settings.refuses left.utf8ByteSize = false)
    (rightAccepted : settings.refuses right.utf8ByteSize = false)
    (same : Text.contentLines left = Text.contentLines right) :
    let leftReport := Report.ofSource settings left
    let rightReport := Report.ofSource settings right
    leftReport.success = rightReport.success ∧
      (∀ target, leftReport.output? target = rightReport.output? target) ∧
      leftReport.document? = rightReport.document? ∧
      leftReport.failure? = rightReport.failure? ∧
      Genre.ofSource left = Genre.ofSource right ∧
      (Text.trimmedLines left = Text.trimmedLines right →
        leftReport.failureLine? = rightReport.failureLine? ∧
          leftReport.warnings = rightReport.warnings) := by
  intro leftReport rightReport
  have wholeLeft : leftReport = Report.ofSections settings (Section.ofSource left) :=
    Report.ofSource_of_accepted leftAccepted
  have wholeRight : rightReport = Report.ofSections settings (Section.ofSource right) :=
    Report.ofSource_of_accepted rightAccepted
  rw [wholeLeft, wholeRight]
  have accounts := Report.accountFor?_eq_of_contentLines same settings
  have outputs : ∀ target, (Report.ofSections settings (Section.ofSource left)).output? target =
      (Report.ofSections settings (Section.ofSource right)).output? target := by
    intro target
    rw [Report.output?_eq_accountFor?, Report.output?_eq_accountFor?, accounts]
  refine ⟨?_, outputs, ?_, ?_, ?_, fun lines => ?_⟩
  · rw [Report.success_ofSections, Report.success_ofSections, accounts]
  · rw [Report.document?_ofSections, Report.document?_ofSections, outputs, outputs, outputs]
  · rw [Report.failure?_ofSections, Report.failure?_ofSections, accounts]
  · rw [Genre.ofSource_eq, Genre.ofSource_eq, same]
  · exact Report.eq_of_trimmedLines lines settings

/-- A source with bare line feeds, whose script is left open and whose page fails. -/
def plainLayout : String := "start_js\nif x\n\nend_js\nأنهِ قائمة\n"

/-- The same source with other line endings and indented. -/
def indentedLayout : String := "  start_js\r\n\tif x\r\r\n\u00a0\r\nend_js\r\n\u3000أنهِ قائمة \r\n"

theorem layout_irrelevant_indented :
    Text.trimmedLines plainLayout = Text.trimmedLines indentedLayout ∧
      (Report.ofSource {} plainLayout).success = (Report.ofSource {} indentedLayout).success ∧
      (Report.ofSource {} plainLayout).failureLine? = (Report.ofSource {} indentedLayout).failureLine? ∧
      (Report.ofSource {} plainLayout).warnings = (Report.ofSource {} indentedLayout).warnings := by
  have lines : Text.trimmedLines plainLayout = Text.trimmedLines indentedLayout := by decide +kernel
  have content : Text.contentLines plainLayout = Text.contentLines indentedLayout := by
    rw [Text.contentLines, Text.contentLines, lines]
  rcases layout_irrelevant {} plainLayout indentedLayout (by decide +kernel) (by decide +kernel) content
    with ⟨success, -, -, -, -, numbers⟩
  exact ⟨lines, success, numbers lines⟩

end Pagewright
