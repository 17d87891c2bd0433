import Pagewright.Genre
import Pagewright.Proofs.Failure
import Pagewright.Proofs.Isolation
import Pagewright.Proofs.Order

namespace Pagewright

/-!
# Diagnostics of a report

Every remark that a run makes is about one of the lines it read, and carries the
number and the span of that line.  This is an invariant of reading, and the
remarks made at the end of a run join it because a run of a section has a last
line.  A run makes at most one error, since an error ends it and asking for the
text does not fail.

The list of diagnostics is then determined by the outcomes.  Its order is stable,
so what stands on one line is ordered as the outcomes are.  The fields of a report
that summarise it, on the other hand, are computed from the outcomes and not from
the list; that the two agree is part of what is shown.
-/

/-! ## Remarks and lines -/

/-- A diagnostic of the given severity about one of the given lines. -/
def Diagnostic.IsAbout (lines : List SourceLine) (severity : Severity)
    (diagnostic : Diagnostic) : Prop :=
  ∃ line ∈ lines, ∃ message, diagnostic = Diagnostic.onLine line severity message

namespace Generator

variable {σ : Type} {lines : List SourceLine}

/-- A generator that always has a text. -/
def Finishes (generator : Generator σ) : Prop :=
  ∀ state, ∃ text, (generator.finish state).output = .ok text

/-- A reading of the given lines that has remarked on nothing else. -/
structure Placed (lines : List SourceLine) (progress : Progress σ) : Prop where
  warnings : ∀ warning ∈ progress.warnings.toList, warning.IsAbout lines .warning
  error : ∀ error, progress.error = some error → error.IsAbout lines .error
  last : ∀ line, progress.last = some line → line ∈ lines

namespace Placed

variable {progress : Progress σ} {line : SourceLine}

theorem visit (placed : Placed lines progress) (member : line ∈ lines) :
    Placed lines (progress.visit line) :=
  ⟨placed.warnings, placed.error, fun _ last => Option.some.inj last ▸ member⟩

theorem warn (placed : Placed lines progress) (member : line ∈ lines) (messages : List String) :
    Placed lines (progress.warn line messages) := by
  refine ⟨fun warning listed => ?_, placed.error, placed.last⟩
  rw [Progress.warn, Array.toList_append] at listed
  rcases List.mem_append.mp listed with earlier | added
  · exact placed.warnings warning earlier
  · rcases List.mem_map.mp added with ⟨message, -, rfl⟩
    exact ⟨line, member, message, rfl⟩

theorem fail (placed : Placed lines progress) (member : line ∈ lines) (fault : Fault) :
    Placed lines (progress.fail line fault) :=
  ⟨placed.warnings, fun _ error => ⟨line, member, fault.message, (Option.some.inj error).symm⟩,
    placed.last⟩

theorem advance (generator : Generator σ) (placed : Placed lines progress)
    (member : line ∈ lines) : Placed lines (generator.advance progress line) := by
  have visited := placed.visit member
  unfold Generator.advance
  dsimp only
  cases Command.ofLine? line.text with
  | none => exact visited
  | some command =>
      let step := generator.execute (progress.visit line).state command
      have moved : Placed lines { progress.visit line with state := step.state } :=
        ⟨visited.warnings, visited.error, visited.last⟩
      have stepped := moved.warn member step.warnings
      dsimp only
      cases (generator.execute (progress.visit line).state command).verdict with
      | handled => exact stepped
      | unknown => exact stepped.warn member _
      | failed fault => exact stepped.fail member fault
      | crashed crash => exact stepped.fail member crash.fault

theorem read (generator : Generator σ) (placed : Placed lines progress)
    (running : progress.error = none) {rest : List SourceLine}
    (members : ∀ line ∈ rest, line ∈ lines) : Placed lines (generator.read progress rest) := by
  induction rest generalizing progress with
  | nil => exact placed
  | cons line rest ih =>
      rcases List.forall_mem_cons.mp members with ⟨here, later⟩
      have advanced := placed.advance generator here
      rw [read_cons generator running]
      cases runs : (generator.advance progress line).error with
      | none => exact ih advanced runs later
      | some _ => exact advanced

theorem readAll (generator : Generator σ) (lines : List SourceLine) :
    Placed lines (generator.readAll lines) := by
  have start : Placed lines { state := generator.initial } :=
    ⟨fun _ listed => absurd listed List.not_mem_nil, fun _ absent => (nomatch absent),
      fun _ absent => (nomatch absent)⟩
  exact start.read generator rfl fun _ member => member

end Placed

theorem last_advance (generator : Generator σ) (progress : Progress σ) (line : SourceLine) :
    (generator.advance progress line).last = some line := by
  unfold advance
  dsimp only
  split
  · rfl
  · split
    · rfl
    · rfl
    · rfl
    · rfl

/-- Reading lines ends on one of them. -/
theorem exists_last (generator : Generator σ) {progress : Progress σ}
    (running : progress.error = none) {lines : List SourceLine}
    (begun : progress.last ≠ none ∨ lines ≠ []) :
    ∃ line, (generator.read progress lines).last = some line := by
  induction lines generalizing progress with
  | nil => exact Option.ne_none_iff_exists'.mp (begun.resolve_right fun nonempty => nonempty rfl)
  | cons line rest ih =>
      have last := last_advance generator progress line
      rw [read_cons generator running]
      cases runs : (generator.advance progress line).error with
      | none => exact ih runs (.inl (last ▸ nofun))
      | some _ => exact ⟨line, last⟩

/-- All that a run says is about the lines it read, and it has at most one
error. -/
theorem isAbout_run {generator : Generator σ} (finishes : generator.Finishes)
    {sections : List Section} (nonempty : sections.flatMap Section.lines ≠ []) :
    (∀ error ∈ (generator.run sections).errors,
        error.IsAbout (sections.flatMap Section.lines) .error) ∧
      (∀ warning ∈ (generator.run sections).warnings,
        warning.IsAbout (sections.flatMap Section.lines) .warning) ∧
      (generator.run sections).errors.length ≤ 1 := by
  have placed := Placed.readAll generator (sections.flatMap Section.lines)
  rcases @exists_last σ generator { state := generator.initial } rfl _ (.inr nonempty) with
    ⟨line, last⟩
  rcases finishes (generator.readAll (sections.flatMap Section.lines)).state with ⟨text, finished⟩
  rw [run_eq rfl finished]
  refine ⟨fun error listed => placed.error error (Option.mem_toList.mp listed), ?_, ?_⟩
  · intro warning listed
    rcases List.mem_append.mp listed with earlier | closing
    · exact placed.warnings warning earlier
    · rcases List.mem_map.mp closing with ⟨message, -, rfl⟩
      refine ⟨line, placed.last line last, message, ?_⟩
      rw [Progress.onLast, readAll, last]
  · exact Option.length_toList_le

end Generator

/-! ## Outcomes of a report -/

namespace Report

/-- The outcome for a target says what a run over its lines says. -/
structure Told (sections : List Section) (target : Target) (outcome : Outcome) : Prop where
  isFor : outcome.target = target
  errors : ∀ error ∈ outcome.errors, error.IsAbout (Section.routed target sections) .error
  warnings : ∀ warning ∈ outcome.warnings, warning.IsAbout (Section.routed target sections) .warning
  single : outcome.errors.length ≤ 1

theorem told_of_outcome? {σ : Type} {generator : Generator σ} (finishes : generator.Finishes)
    {sections : List Section} (filled : ∀ part ∈ sections, part.hasText = true) {outcome : Outcome}
    (ran : outcome? generator sections = some outcome) :
    Told sections generator.target outcome := by
  have target := target_of_outcome? ran
  unfold outcome? at ran
  split at ran
  · cases ran
  · case h_2 matching =>
      cases ran
      -- A section has text, so it has a line.
      have nonempty : Section.routed generator.target sections ≠ [] := by
        rcases List.exists_mem_of_ne_nil _ matching with ⟨part, listed⟩
        have text := filled part (List.mem_filter.mp listed).1
        rcases List.any_eq_true.mp text with ⟨line, member, -⟩
        exact List.ne_nil_of_mem (List.mem_flatMap.mpr ⟨part, listed, member⟩)
      rcases Generator.isAbout_run finishes nonempty with ⟨errors, warnings, single⟩
      exact ⟨target, errors, warnings, single⟩

/-- The three targets have generators that never fail to give a text and that
leave commands alone which they do not know. -/
theorem exists_generator (settings : Settings) (target : Target) :
    ∃ (σ : Type) (generator : Generator σ), generator.target = target ∧ generator.Finishes ∧
      (∀ state command, target.knows command.key = false →
        generator.execute state command = { state := state, verdict := .unknown }) ∧
      ∀ sections, (ofSections settings sections).outcomeFor? target = outcome? generator sections := by
  cases target with
  | page =>
      refine ⟨Page, Page.generator settings, rfl, (Page.clean_generator settings).finish, ?_,
        fun sections => (outcomeFor?_ofSections settings sections).1⟩
      intro page command unknown
      have absent : Page.Instruction.ofKey? command.key = none := by simpa [Target.knows] using unknown
      simp only [Page.generator, Page.execute, absent]
  | stylesheet =>
      refine ⟨Stylesheet.Sheet, Stylesheet.generator, rfl, Stylesheet.clean_generator.finish, ?_,
        fun sections => (outcomeFor?_ofSections settings sections).2.1⟩
      intro sheet command unknown
      have absent : Stylesheet.Instruction.ofKey? command.key = none := by
        simpa [Target.knows] using unknown
      simp only [Stylesheet.generator, Stylesheet.execute, absent]
  | script =>
      refine ⟨Script.Program, Script.generator, rfl, Script.clean_generator.finish, ?_,
        fun sections => (outcomeFor?_ofSections settings sections).2.2⟩
      intro program command unknown
      have absent : Script.Instruction.ofKey? command.key = none := by
        simpa [Target.knows] using unknown
      simp only [Script.generator, Script.execute, absent]

theorem told_of_outcomeFor? {settings : Settings} {sections : List Section}
    (filled : ∀ part ∈ sections, part.hasText = true) {target : Target} {outcome : Outcome}
    (found : (ofSections settings sections).outcomeFor? target = some outcome) :
    Told sections target outcome := by
  rcases exists_generator settings target with ⟨σ, generator, rfl, finishes, -, outcomeFor⟩
  rw [outcomeFor] at found
  exact told_of_outcome? finishes filled found

/-- The outcomes are those for the targets, in their order. -/
theorem outcomes_ofSections (settings : Settings) (sections : List Section) :
    (ofSections settings sections).outcomes =
      Target.all.flatMap fun target =>
        ((ofSections settings sections).outcomeFor? target).toList := by
  rcases outcomeFor?_ofSections settings sections with ⟨page, stylesheet, script⟩
  simp only [Target.all, List.flatMap_cons, List.flatMap_nil, page, stylesheet, script,
    List.append_nil]
  exact List.append_assoc _ _ _

/-! ## Entries by target -/

/-- How much an error for a target weighs in a report. -/
def errorSeverity : Target → Severity
  | .page => .error
  | .stylesheet => .warning
  | .script => .warning

/-- The errors for a target as they are reported, in the order in which they
were made. -/
def errorsFor (report : Report) (target : Target) : List (Target × Diagnostic) :=
  ((report.outcomeFor? target).toList.flatMap Outcome.errors).map fun error =>
    (target, { error with severity := errorSeverity target })

/-- The warnings for a target, in the order in which they were made. -/
def warningsFor (report : Report) (target : Target) : List (Target × Diagnostic) :=
  ((report.outcomeFor? target).toList.flatMap Outcome.warnings).map fun warning => (target, warning)

/-- All that is reported, by target and errors first. -/
def entries (report : Report) : List (Target × Diagnostic) :=
  Target.all.flatMap fun target => report.errorsFor target ++ report.warningsFor target

theorem diagnosticsOf_of_told {sections : List Section} {target : Target} {outcome : Outcome}
    (told : Told sections target outcome) :
    diagnosticsOf outcome =
      outcome.errors.map (fun error => (target, { error with severity := errorSeverity target })) ++
        outcome.warnings.map fun warning => (target, warning) := by
  have same : ∀ error ∈ outcome.errors, { error with severity := Severity.error } = error := by
    intro error listed
    rcases told.errors error listed with ⟨line, -, message, rfl⟩
    rfl
  unfold diagnosticsOf
  dsimp only
  rw [List.map_append, told.isFor]
  congr 1
  cases target with
  | page =>
      rw [if_pos rfl]
      exact List.map_congr_left fun error listed => congrArg (Target.page, ·) (same error listed).symm
  | stylesheet =>
      rw [if_neg nofun, List.map_map]
      rfl
  | script =>
      rw [if_neg nofun, List.map_map]
      rfl

/-- The diagnostics are the entries, put in order by their lines. -/
theorem diagnostics_ofSections {settings : Settings} {sections : List Section}
    (filled : ∀ part ∈ sections, part.hasText = true) :
    (ofSections settings sections).diagnostics =
      Order.byNumber (fun entry => entry.2.line) (ofSections settings sections).entries := by
  have listed : (ofSections settings sections).outcomes.flatMap diagnosticsOf =
      (ofSections settings sections).entries := by
    rw [outcomes_ofSections, List.flatMap_assoc, entries]
    congr 1
    funext target
    unfold errorsFor warningsFor
    cases found : (ofSections settings sections).outcomeFor? target with
    | none => rfl
    | some outcome =>
        simp only [Option.toList_some, List.flatMap_cons, List.flatMap_nil, List.append_nil]
        exact diagnosticsOf_of_told (told_of_outcomeFor? filled found)
  rw [diagnostics, listed]
  rfl

/-- An entry is about a line for its target. -/
theorem line_of_mem_entries {settings : Settings} {sections : List Section}
    (filled : ∀ part ∈ sections, part.hasText = true) {entry : Target × Diagnostic}
    (listed : entry ∈ (ofSections settings sections).entries) :
    ∃ line ∈ Section.routed entry.1 sections,
      entry.2.line = line.number ∧ entry.2.span = line.span := by
  rcases List.mem_flatMap.mp listed with ⟨target, -, member⟩
  rcases List.mem_append.mp member with error | warning
  · rcases List.mem_map.mp error with ⟨raised, inErrors, rfl⟩
    rcases List.mem_flatMap.mp inErrors with ⟨outcome, found, inside⟩
    have told := told_of_outcomeFor? filled (Option.mem_toList.mp found)
    rcases told.errors raised inside with ⟨line, among, message, rfl⟩
    exact ⟨line, among, rfl, rfl⟩
  · rcases List.mem_map.mp warning with ⟨given, inWarnings, rfl⟩
    rcases List.mem_flatMap.mp inWarnings with ⟨outcome, found, inside⟩
    have told := told_of_outcomeFor? filled (Option.mem_toList.mp found)
    rcases told.warnings given inside with ⟨line, among, message, rfl⟩
    exact ⟨line, among, rfl, rfl⟩

theorem severity_of_mem_errorsFor {report : Report} {target : Target}
    {entry : Target × Diagnostic} (listed : entry ∈ report.errorsFor target) :
    entry.2.severity = errorSeverity target := by
  rcases List.mem_map.mp listed with ⟨error, -, rfl⟩
  rfl

theorem severity_of_mem_warningsFor {settings : Settings} {sections : List Section}
    (filled : ∀ part ∈ sections, part.hasText = true) {target : Target}
    {entry : Target × Diagnostic}
    (listed : entry ∈ (ofSections settings sections).warningsFor target) :
    entry.2.severity = .warning := by
  rcases List.mem_map.mp listed with ⟨warning, inWarnings, rfl⟩
  rcases List.mem_flatMap.mp inWarnings with ⟨outcome, found, inside⟩
  have told := told_of_outcomeFor? filled (Option.mem_toList.mp found)
  rcases told.warnings warning inside with ⟨line, -, message, rfl⟩
  rfl

/-- The errors in a report are the errors in its page. -/
theorem filter_error_entries {settings : Settings} {sections : List Section}
    (filled : ∀ part ∈ sections, part.hasText = true) :
    (ofSections settings sections).entries.filter (fun entry => entry.2.severity == .error) =
      (ofSections settings sections).errorsFor .page := by
  have noWarning : ∀ target, ((ofSections settings sections).warningsFor target).filter
      (fun entry => entry.2.severity == .error) = [] := by
    intro target
    apply List.filter_eq_nil_iff.mpr
    intro entry listed
    rw [severity_of_mem_warningsFor filled listed]
    decide
  have allErrors : ((ofSections settings sections).errorsFor .page).filter
      (fun entry => entry.2.severity == .error) = (ofSections settings sections).errorsFor .page := by
    apply List.filter_eq_self.mpr
    intro entry listed
    rw [severity_of_mem_errorsFor listed]
    decide
  have noError : ∀ target, errorSeverity target = .warning →
      ((ofSections settings sections).errorsFor target).filter
        (fun entry => entry.2.severity == .error) = [] := by
    intro target lowered
    apply List.filter_eq_nil_iff.mpr
    intro entry listed
    rw [severity_of_mem_errorsFor listed, lowered]
    decide
  simp only [entries, Target.all, List.flatMap_cons, List.flatMap_nil, List.filter_append, noWarning,
    allErrors, noError .stylesheet rfl, noError .script rfl, List.append_nil]

/-- The first error in the page heads the errors for it. -/
theorem pageError?_eq {settings : Settings} {sections : List Section}
    (filled : ∀ part ∈ sections, part.hasText = true) :
    (ofSections settings sections).pageError? =
      ((ofSections settings sections).errorsFor .page).head?.map Prod.snd := by
  unfold pageError? errorsFor
  cases found : (ofSections settings sections).outcomeFor? .page with
  | none => rfl
  | some outcome =>
      have told := told_of_outcomeFor? filled found
      simp only [Option.bind_some, Option.toList_some, List.flatMap_cons, List.flatMap_nil,
        List.append_nil, List.head?_map, Option.map_map]
      cases errors : outcome.errors with
      | nil => rfl
      | cons error others =>
          rcases told.errors error (errors ▸ List.mem_cons_self) with ⟨line, -, message, rfl⟩
          rfl

theorem length_errorsFor_page_le {settings : Settings} {sections : List Section}
    (filled : ∀ part ∈ sections, part.hasText = true) :
    ((ofSections settings sections).errorsFor .page).length ≤ 1 := by
  unfold errorsFor
  cases found : (ofSections settings sections).outcomeFor? .page with
  | none => exact Nat.zero_le 1
  | some outcome =>
      have told := told_of_outcomeFor? filled found
      simpa using told.single

/-- The fields of a report that say why and where it failed are those of its
error, if it has one. -/
theorem failure_ofSections {settings : Settings} {sections : List Section}
    (filled : ∀ part ∈ sections, part.hasText = true) :
    let report := ofSections settings sections
    (report.success = false ↔ report.errorsFor .page ≠ []) ∧
      ∀ entry ∈ report.errorsFor .page,
        report.failure? = some entry.2.message ∧ report.failureLine? = some entry.2.line := by
  intro report
  have single : (report.errorsFor .page).length ≤ 1 := length_errorsFor_page_le filled
  have failure : report.failure? = report.pageError?.map Diagnostic.message := rfl
  rw [success, failureLine?, failure, pageError?_eq filled]
  show (Option.isNone (((report.errorsFor .page).head?.map Prod.snd).map _) = false ↔ _) ∧ _
  cases errors : report.errorsFor .page with
  | nil =>
      refine ⟨⟨fun wrong => ?_, fun nonempty => absurd rfl nonempty⟩, fun entry listed => ?_⟩
      · cases wrong
      · exact absurd listed List.not_mem_nil
  | cons error others =>
      refine ⟨⟨fun _ => List.cons_ne_nil _ _, fun _ => rfl⟩, fun entry listed => ?_⟩
      rw [errors, List.length_cons] at single
      have alone : others = [] := List.eq_nil_of_length_eq_zero (by omega)
      rw [alone] at listed
      rw [List.mem_singleton.mp listed]
      exact ⟨rfl, rfl⟩

/-- A warning in one line: its target, its line and what it says. -/
theorem renderEntry_eq (entry : Target × Diagnostic) :
    renderEntry entry =
      "[" ++ entry.1.label ++ "] line " ++ toString entry.2.line ++ ": " ++ entry.2.message := by
  apply String.toList_injective
  simp [renderEntry, Diagnostic.render]

/-- The diagnostics of a source are all that was said about its targets, in the
order of the lines; on one line the page comes first, then the stylesheet, then the
script, and for each of them errors before warnings, in the order in which they
were made.  Each is about a line for its target.  Only errors in the page count as
errors; there is at most one, which decides over success and gives the reason and
the line of a failure.  The other diagnostics, written in one line each, are the
warnings. -/
theorem diagnostics_account_for_lines (settings : Settings) (source : String)
    (accepted : settings.refuses source.utf8ByteSize = false) :
    let report := ofSource settings source
    report.diagnostics.Perm
        (Target.all.flatMap fun target => report.errorsFor target ++ report.warningsFor target) ∧
      (report.diagnostics.Pairwise fun first second => first.2.line ≤ second.2.line) ∧
      (∀ number, report.diagnostics.filter (fun entry => entry.2.line == number) =
        Target.all.flatMap fun target =>
          (report.errorsFor target ++ report.warningsFor target).filter
            fun entry => entry.2.line == number) ∧
      (∀ entry ∈ report.diagnostics, ∃ part ∈ Section.ofSource source, part.target = entry.1 ∧
        ∃ line ∈ part.lines, line ∈ SourceLine.ofSource source ∧
          entry.2.line = line.number ∧ entry.2.span = line.span) ∧
      (∀ entry ∈ report.diagnostics,
        entry.2.severity = .error ↔ entry ∈ report.errorsFor .page) ∧
      (report.diagnostics.filter fun entry => entry.2.severity == .error).length ≤ 1 ∧
      (report.success = false ↔ ∃ entry ∈ report.diagnostics, entry.2.severity = .error) ∧
      (∀ entry ∈ report.diagnostics, entry.2.severity = .error →
        report.failure? = some entry.2.message ∧ report.failureLine? = some entry.2.line) ∧
      report.warnings =
        (report.diagnostics.filter fun entry => entry.2.severity == .warning).map fun entry =>
          "[" ++ entry.1.label ++ "] line " ++ toString entry.2.line ++ ": " ++
            entry.2.message := by
  intro report
  have whole : report = ofSections settings (Section.ofSource source) := ofSource_of_accepted accepted
  have filled : ∀ part ∈ Section.ofSource source, part.hasText = true := fun part listed =>
    (List.mem_filter.mp listed).2
  have order : report.diagnostics = Order.byNumber (fun entry => entry.2.line) report.entries := by
    rw [whole]
    exact diagnostics_ofSections filled
  have errors : report.diagnostics.filter (fun entry => entry.2.severity == .error) =
      Order.byNumber (fun entry => entry.2.line) (report.errorsFor .page) := by
    rw [order, Order.byNumber_filter, whole, filter_error_entries filled]
  have isError : ∀ entry, (entry ∈ report.diagnostics ∧ entry.2.severity = .error) ↔
      entry ∈ report.errorsFor .page := by
    intro entry
    have reordered := (Order.perm_byNumber (fun entry => entry.2.line)
      (report.errorsFor .page)).mem_iff (a := entry)
    rw [← reordered, ← errors, List.mem_filter, beq_iff_eq]
  have failure : (report.success = false ↔ report.errorsFor .page ≠ []) ∧
      ∀ entry ∈ report.errorsFor .page,
        report.failure? = some entry.2.message ∧ report.failureLine? = some entry.2.line := by
    rw [whole]
    exact failure_ofSections filled
  refine ⟨?_, ?_, ?_, ?_, ?_, ?_, ?_, ?_, ?_⟩
  · rw [order]
    exact Order.perm_byNumber _ report.entries
  · rw [order]
    exact Order.pairwise_byNumber (fun entry => entry.2.line) report.entries
  · intro number
    rw [order, Order.filter_byNumber, entries, List.filter_flatMap]
  · intro entry listed
    rw [order, (Order.perm_byNumber _ _).mem_iff, whole] at listed
    rcases line_of_mem_entries filled listed with ⟨line, routed, number, span⟩
    rcases List.mem_flatMap.mp routed with ⟨part, matching, member⟩
    rcases List.mem_filter.mp matching with ⟨among, target⟩
    exact ⟨part, among, beq_iff_eq.mp target, line, member, (Section.mem_of_mem_lines among member).1,
      number, span⟩
  · intro entry listed
    rw [← isError entry]
    exact (and_iff_right listed).symm
  · rw [errors, (Order.perm_byNumber _ _).length_eq, whole]
    exact length_errorsFor_page_le filled
  · rw [failure.1]
    constructor
    · intro nonempty
      rcases List.exists_mem_of_ne_nil _ nonempty with ⟨entry, listed⟩
      exact ⟨entry, (isError entry).mpr listed⟩
    · rintro ⟨entry, found⟩
      exact List.ne_nil_of_mem ((isError entry).mp found)
  · intro entry listed isAnError
    exact failure.2 entry ((isError entry).mp ⟨listed, isAnError⟩)
  · rw [warnings, warningDiagnostics]
    exact List.map_congr_left fun entry _ => renderEntry_eq entry

/-- A source whose stylesheet and page fail, and whose script stays open. -/
def threeFailures : String :=
  "start_js\nif x\nstart_css\nend_media\nend_css\nأنهِ قائمة\nزر"

theorem diagnostics_account_for_lines_threeFailures :
    ({} : Settings).refuses threeFailures.utf8ByteSize = false ∧
      let report := ofSource {} threeFailures
      report.success = false ∧
        (report.diagnostics.Pairwise fun first second => first.2.line ≤ second.2.line) ∧
        ∃ entry ∈ report.diagnostics, entry.2.severity = .error ∧
          report.failure? = some entry.2.message ∧ report.failureLine? = some entry.2.line := by
  have accepted : ({} : Settings).refuses threeFailures.utf8ByteSize = false := by decide +kernel
  have failed : (ofSource {} threeFailures).success = false := by decide +kernel
  rcases diagnostics_account_for_lines {} threeFailures accepted with
    ⟨-, order, -, -, -, -, decides, reason, -⟩
  rcases decides.mp failed with ⟨entry, listed, isError⟩
  exact ⟨accepted, failed, order, entry, listed, isError, reason entry listed isError⟩

end Report
end Pagewright
