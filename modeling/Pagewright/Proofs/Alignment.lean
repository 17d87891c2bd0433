import Pagewright.Proofs.Diagnostics
import Pagewright.Proofs.Routing

namespace Pagewright

open Generator (said InStep SimilarLines)

/-!
# Sources in line

Two sources are in line if they have the same number of lines, with markers and
blank lines at the same places.  They are then cut into sections in the same way,
whatever else their lines hold, and what is reported about them can be compared
line by line.

Spans are left out of the comparison, because they move when a line before them
changes its length.  Everything else that a report shows is computed from what its
outcomes say without the spans: `Report.warnings_eq` states this for the warnings.
-/

/-! ## Sections in line -/

namespace Section

variable {related : SourceLine → SourceLine → Prop}

/-- Related lines are cut in the same way. -/
def CutsAlike (related : SourceLine → SourceLine → Prop) : Prop :=
  ∀ left right, related left right →
    Marker.ofText? left.text = Marker.ofText? right.text ∧ left.isBlank = right.isBlank

/-- Sections for one target with related lines. -/
structure InLine (related : SourceLine → SourceLine → Prop) (left right : Section) : Prop where
  target : left.target = right.target
  lines : List.Forall₂ related left.lines right.lines

theorem inLine_runs (alike : CutsAlike related) {left right : List SourceLine}
    (lines : List.Forall₂ related left right) :
    List.Forall₂ related (runs left).1 (runs right).1 ∧
      List.Forall₂ (fun leftRun rightRun => leftRun.1 = rightRun.1 ∧
        List.Forall₂ related leftRun.2 rightRun.2) (runs left).2 (runs right).2 := by
  induction lines with
  | nil => exact ⟨.nil, .nil⟩
  | @cons leftLine rightLine leftRest rightRest here _ ih =>
      have marker := (alike leftLine rightLine here).1
      cases marked : Marker.ofText? leftLine.text with
      | some divider =>
          rw [marked] at marker
          rw [runs_of_marked marked, runs_of_marked marker.symm]
          exact ⟨.nil, .cons ⟨rfl, ih.1⟩ ih.2⟩
      | none =>
          rw [marked] at marker
          rw [runs_of_unmarked marked, runs_of_unmarked marker.symm]
          exact ⟨.cons here ih.1, ih.2⟩

theorem hasText_of_inLine (alike : CutsAlike related) {left right : Section}
    (inLine : InLine related left right) : left.hasText = true ↔ right.hasText = true := by
  have blanks : left.lines.map SourceLine.isBlank = right.lines.map SourceLine.isBlank := by
    rw [← List.forall₂_eq_eq_eq, List.forall₂_map_left_iff, List.forall₂_map_right_iff]
    exact inLine.lines.imp fun leftLine rightLine here => (alike leftLine rightLine here).2
  have text : ∀ part : Section, part.hasText = (part.lines.map SourceLine.isBlank).any (!·) := by
    intro part
    rw [List.any_map]
    rfl
  rw [text, text, blanks]

/-- Sources with related lines have related sections. -/
theorem inLine_ofSource (alike : CutsAlike related) {left right : String}
    (lines : List.Forall₂ related (SourceLine.ofSource left) (SourceLine.ofSource right)) :
    List.Forall₂ (InLine related) (ofSource left) (ofSource right) := by
  rcases inLine_runs alike lines with ⟨leading, marked⟩
  refine List.rel_filter (fun _ _ inLine => hasText_of_inLine alike inLine) ?_
  refine .cons ⟨rfl, leading⟩ ?_
  exact List.rel_map (fun _ _ run => ⟨congrArg Marker.target run.1, run.2⟩) marked

theorem inLine_filter {left right : List Section} (sections : List.Forall₂ (InLine related) left right)
    (target : Target) :
    List.Forall₂ (InLine related) (left.filter fun part => part.target == target)
      (right.filter fun part => part.target == target) :=
  List.rel_filter (fun _ _ inLine => Eq.to_iff (congrArg (fun given => (given == target) = true)
    inLine.target)) sections

theorem any_of_inLine {left right : List Section}
    (sections : List.Forall₂ (InLine related) left right) (target : Target) :
    (left.any fun part => part.target == target) = right.any fun part => part.target == target := by
  have targets : left.map Section.target = right.map Section.target := by
    rw [← List.forall₂_eq_eq_eq, List.forall₂_map_left_iff, List.forall₂_map_right_iff]
    exact sections.imp fun _ _ inLine => inLine.target
  have among : ∀ parts : List Section, (parts.any fun part => part.target == target) =
      (parts.map Section.target).any (· == target) := by
    intro parts
    rw [List.any_map]
    rfl
  rw [among, among, targets]

theorem inLine_flatMap {left right : List Section}
    (sections : List.Forall₂ (InLine related) left right) :
    List.Forall₂ related (left.flatMap lines) (right.flatMap lines) :=
  List.rel_flatMap sections fun _ _ inLine => inLine.lines

/-- Related sources have related lines for each target. -/
theorem inLine_routed (alike : CutsAlike related) {left right : String}
    (lines : List.Forall₂ related (SourceLine.ofSource left) (SourceLine.ofSource right))
    (target : Target) :
    List.Forall₂ related (routed target (ofSource left)) (routed target (ofSource right)) :=
  inLine_flatMap (inLine_filter (inLine_ofSource alike lines) target)

end Section

/-! ## Lines that agree after trimming -/

namespace SourceLine

/-- Lines with one number and one text, blanks around it aside. -/
structure SameTrimmed (left right : SourceLine) : Prop where
  number : left.number = right.number
  trimmed : left.trimmed = right.trimmed

theorem SameTrimmed.marker {left right : SourceLine} (same : SameTrimmed left right) :
    Marker.ofText? left.text = Marker.ofText? right.text :=
  congrArg (fun text => Marker.spellings.lookup text) same.trimmed

theorem SameTrimmed.isBlank {left right : SourceLine} (same : SameTrimmed left right) :
    left.isBlank = right.isBlank :=
  congrArg String.isEmpty same.trimmed

theorem SameTrimmed.similar {left right : SourceLine} (same : SameTrimmed left right) :
    SimilarLines Eq left right := by
  have commands : Command.ofLine? left.text = Command.ofLine? right.text := by
    rw [Command.ofLine?_eq, Command.ofLine?_eq]
    exact congrArg Command.ofTrimmed? same.trimmed
  refine ⟨same.number, ?_⟩
  rw [commands]
  cases Command.ofLine? right.text with
  | none => exact .none
  | some command => exact .some rfl

end SourceLine

/-- A generator answers the same command in the same state in the same way. -/
theorem Generator.inStep_self {σ : Type} {generator : Generator σ} (finishes : generator.Finishes) :
    InStep generator generator Eq Eq Eq where
  target := rfl
  initial := rfl
  key := congrArg Command.key
  execute := by
    rintro state _ rfl command _ rfl
    exact ⟨rfl, rfl, rfl⟩
  finish := by
    rintro state _ rfl
    rcases finishes state with ⟨text, finished⟩
    exact ⟨rfl, text, text, finished, finished, rfl⟩

/-! ## What a report shows without spans -/

namespace Report

/-- What an entry says about which line, without its span. -/
def remark (entry : Target × Diagnostic) : Target × Nat × Severity × String :=
  (entry.1, said entry.2)

/-- What an error for a target is reported as. -/
def weigh (target : Target) (error : Nat × Severity × String) : Target × Nat × Severity × String :=
  (target, error.1, if target = .page then error.2.1 else .warning, error.2.2)

/-- All that the outcomes of a report say, in the order of the targets. -/
def remarks (report : Report) : List (Target × Nat × Severity × String) :=
  (report.outcomes.flatMap diagnosticsOf).map remark

theorem map_remark_diagnosticsOf (outcome : Outcome) :
    (diagnosticsOf outcome).map remark =
      (outcome.errors.map said).map (weigh outcome.target) ++
        (outcome.warnings.map said).map (Prod.mk outcome.target) := by
  have warnings : (outcome.warnings.map fun warning => (outcome.target, warning)).map remark =
      (outcome.warnings.map said).map (Prod.mk outcome.target) := by
    rw [List.map_map, List.map_map]
    rfl
  unfold diagnosticsOf
  dsimp only
  rw [List.map_append, List.map_append, warnings, List.map_map]
  congr 1
  by_cases isPage : outcome.target = .page
  · rw [if_pos isPage, List.map_map]
    apply List.map_congr_left
    intro error _
    simp only [Function.comp_apply, remark, said, weigh, if_pos isPage]
  · rw [if_neg isPage, List.map_map, List.map_map]
    apply List.map_congr_left
    intro error _
    simp only [Function.comp_apply, remark, said, weigh, if_neg isPage, Diagnostic.toWarning]

/-- A remark in one line. -/
def renderRemark (entry : Target × Nat × Severity × String) : String :=
  "[" ++ entry.1.label ++ "] line " ++ toString entry.2.1 ++ ": " ++ entry.2.2.2

/-- The warnings of a report are made of what its outcomes say. -/
theorem warnings_eq (report : Report) :
    report.warnings =
      ((Order.byNumber (fun entry => entry.2.1) report.remarks).filter
        fun entry => entry.2.2.1 == .warning).map renderRemark := by
  have order := Order.map_byNumber (fun entry : Target × Nat × Severity × String => entry.2.1) remark
    (report.outcomes.flatMap diagnosticsOf)
  rw [remarks, ← order, List.filter_map, List.map_map, warnings, warningDiagnostics]
  apply List.map_congr_left
  intro entry _
  exact renderEntry_eq entry

/-- The remarks of a report are those for its targets. -/
theorem remarks_ofSections (settings : Settings) (sections : List Section) :
    (ofSections settings sections).remarks =
      Target.all.flatMap fun target =>
        ((ofSections settings sections).outcomeFor? target).toList.flatMap fun outcome =>
          (diagnosticsOf outcome).map remark := by
  rw [remarks, outcomes_ofSections, List.flatMap_assoc, List.map_flatMap]
  congr 1
  funext target
  exact List.map_flatMap

/-- Outcomes that differ in warnings and in the spans of lines only. -/
structure SameResult (left right : Outcome) : Prop where
  target : left.target = right.target
  output : left.output = right.output
  errors : left.errors.map said = right.errors.map said

/-- Outcomes that differ in the spans of lines only. -/
structure SaysSame (left right : Outcome) : Prop extends SameResult left right where
  warnings : left.warnings.map said = right.warnings.map said

theorem sameResult_of_saysSame {left right : Option Outcome} (same : Option.Rel SaysSame left right) :
    Option.Rel SameResult left right := by
  cases same with
  | none => exact .none
  | some outcomes => exact .some outcomes.toSameResult

theorem outcome?_eq {σ : Type} (generator : Generator σ) (sections : List Section) :
    outcome? generator sections =
      if sections.any fun part => part.target == generator.target then
        some (generator.run (sections.filter fun part => part.target == generator.target))
      else
        none := by
  unfold outcome?
  split
  case h_1 empty =>
      rw [if_neg]
      intro present
      rcases List.any_eq_true.mp present with ⟨part, listed, matching⟩
      exact List.filter_eq_nil_iff.mp empty part listed matching
  case h_2 filled =>
      rw [if_pos]
      rcases List.exists_mem_of_ne_nil _ filled with ⟨part, listed⟩
      exact List.any_eq_true.mpr ⟨part, List.mem_filter.mp listed⟩

/-- A target with the same commands on lines with the same numbers has the same
outcome. -/
theorem saysSame_outcome? {σ : Type} {generator : Generator σ} (finishes : generator.Finishes)
    {left right : List Section}
    (present : (left.any fun part => part.target == generator.target) =
      right.any fun part => part.target == generator.target)
    (lines : List.Forall₂ (SimilarLines Eq) (Section.routed generator.target left)
      (Section.routed generator.target right)) :
    Option.Rel SaysSame (outcome? generator left) (outcome? generator right) := by
  rcases (Generator.inStep_self finishes).run lines with ⟨errors, warnings, output⟩
  rw [outcome?_eq, outcome?_eq, present]
  split
  · refine .some ⟨⟨?_, output, errors⟩, warnings⟩
    rw [target_run, target_run]
  · exact .none

theorem output?_of_sameResult {left right : Report} {target : Target}
    (same : Option.Rel SameResult (left.outcomeFor? target) (right.outcomeFor? target)) :
    left.output? target = right.output? target := by
  unfold output?
  generalize left.outcomeFor? target = leftOutcome, right.outcomeFor? target = rightOutcome at same
  cases same with
  | none => rfl
  | some outcomes => exact congrArg some outcomes.output

theorem pageError?_of_sameResult {left right : Report}
    (same : Option.Rel SameResult (left.outcomeFor? .page) (right.outcomeFor? .page)) :
    left.pageError?.map said = right.pageError?.map said := by
  unfold pageError?
  generalize left.outcomeFor? .page = leftOutcome, right.outcomeFor? .page = rightOutcome at same
  cases same with
  | none => rfl
  | some outcomes =>
      rw [Option.bind_some, Option.bind_some, ← List.head?_map, ← List.head?_map, outcomes.errors]

/-- Reports with the same results agree on everything but warnings. -/
theorem eq_of_sameResult {settings : Settings} {left right : List Section}
    (same : ∀ target, Option.Rel SameResult ((ofSections settings left).outcomeFor? target)
      ((ofSections settings right).outcomeFor? target)) :
    (ofSections settings left).success = (ofSections settings right).success ∧
      (∀ target, (ofSections settings left).output? target =
        (ofSections settings right).output? target) ∧
      (ofSections settings left).document? = (ofSections settings right).document? ∧
      (ofSections settings left).failure? = (ofSections settings right).failure? ∧
      (ofSections settings left).failureLine? = (ofSections settings right).failureLine? := by
  have outputs := fun target => output?_of_sameResult (same target)
  have errors := pageError?_of_sameResult (same .page)
  have failure : (ofSections settings left).failure? = (ofSections settings right).failure? := by
    have messages := congrArg (Option.map fun told => told.2.2) errors
    rw [Option.map_map, Option.map_map] at messages
    exact messages
  have line : (ofSections settings left).failureLine? = (ofSections settings right).failureLine? := by
    have lines := congrArg (Option.map fun told => told.1) errors
    rw [Option.map_map, Option.map_map] at lines
    exact lines
  refine ⟨?_, outputs, ?_, failure, line⟩
  · rw [success, failure, ← success]
  · rw [document?_ofSections, document?_ofSections, outputs, outputs, outputs]

theorem remarks_of_saysSame {left right : Report} {target : Target}
    (same : Option.Rel SaysSame (left.outcomeFor? target) (right.outcomeFor? target)) :
    ((left.outcomeFor? target).toList.flatMap fun outcome => (diagnosticsOf outcome).map remark) =
      (right.outcomeFor? target).toList.flatMap fun outcome =>
        (diagnosticsOf outcome).map remark := by
  generalize left.outcomeFor? target = leftOutcome, right.outcomeFor? target = rightOutcome at same
  cases same with
  | none => rfl
  | some outcomes =>
      simp only [Option.toList_some, List.flatMap_cons, List.flatMap_nil, List.append_nil,
        map_remark_diagnosticsOf, outcomes.target, outcomes.errors, outcomes.warnings]

/-- Reports whose outcomes say the same have the same warnings. -/
theorem warnings_of_saysSame {settings : Settings} {left right : List Section}
    (same : ∀ target, Option.Rel SaysSame ((ofSections settings left).outcomeFor? target)
      ((ofSections settings right).outcomeFor? target)) :
    (ofSections settings left).warnings = (ofSections settings right).warnings := by
  rw [warnings_eq, warnings_eq, remarks_ofSections, remarks_ofSections]
  congr 4
  funext target
  exact remarks_of_saysSame (same target)

end Report

end Pagewright
