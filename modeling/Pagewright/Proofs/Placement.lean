import Pagewright.Proofs.Calls
import Pagewright.Proofs.Diagnostics

namespace Pagewright

/-!
# Where remarks point

A remark names a line by its number and by its span.  The two belong to one line
in every warning of a run and in the error that ends the reading.  They also do
in the warnings given when the text is asked for, which are placed on the last
line read.  The error of a run without a text has the number of that line as
well, but not its span: it points at the beginning of the source, whatever line
that is.

So the remarks of a run all point at lines exactly if there is a text, or if a
line with the number of the last one happens to be empty and the first of its
source.
-/

/-- The number and the span are those of one of the lines. -/
def Diagnostic.PointsAt (lines : List SourceLine) (diagnostic : Diagnostic) : Prop :=
  ∃ line ∈ lines, diagnostic.line = line.number ∧ diagnostic.span = line.span

theorem Diagnostic.IsAbout.pointsAt {lines : List SourceLine} {severity : Severity}
    {diagnostic : Diagnostic} (about : diagnostic.IsAbout lines severity) :
    diagnostic.PointsAt lines := by
  rcases about with ⟨line, member, message, rfl⟩
  exact ⟨line, member, rfl, rfl⟩

namespace Generator

variable {σ : Type}

theorem accounted_readAll (generator : Generator σ) (lines : List SourceLine) :
    Accounted generator { state := generator.initial }
      (generator.callsFrom generator.initial lines) (generator.lastFrom generator.initial lines)
      (generator.readAll lines) :=
  accounted_read rfl lines

/-- A run over some lines has a last one. -/
theorem exists_lastRead (generator : Generator σ) {sections : List Section}
    (nonempty : sections.flatMap Section.lines ≠ []) :
    ∃ last ∈ sections.flatMap Section.lines, generator.lastRead sections = some last := by
  have account := generator.accounted_readAll (sections.flatMap Section.lines)
  have placed := Placed.readAll generator (sections.flatMap Section.lines)
  rcases @exists_last σ generator { state := generator.initial } rfl _ (.inr nonempty) with
    ⟨last, isLast⟩
  refine ⟨last, placed.last last isLast, ?_⟩
  rw [lastRead, ← isLast]
  exact (account.last.trans Option.or_none).symm

/-- What is said during the calls of a run points at lines. -/
theorem pointsAt_of_calls (generator : Generator σ) (sections : List Section) :
    (∀ warning ∈ (generator.calls sections).flatMap (Call.warnings generator),
        warning.PointsAt (sections.flatMap Section.lines)) ∧
      ∀ error ∈ ((generator.calls sections).getLast?.bind (Call.error? generator)).toList,
        error.PointsAt (sections.flatMap Section.lines) := by
  have account := generator.accounted_readAll (sections.flatMap Section.lines)
  have placed := Placed.readAll generator (sections.flatMap Section.lines)
  constructor
  · intro warning listed
    have among : warning ∈ (generator.readAll (sections.flatMap Section.lines)).warnings.toList := by
      rw [account.warnings]
      exact List.mem_append_right _ listed
    exact (placed.warnings warning among).pointsAt
  · intro error listed
    rw [Option.mem_toList] at listed
    exact (placed.error error (account.error.trans listed)).pointsAt

/-- In a run over some lines, every warning points at a line, those given at the
end at the last line read, and so does the error that ends the reading.  The error
of a run without a text has the number of the last line read and an empty span at
the beginning of the source.  Hence all remarks point at lines exactly if there is
a text, or if some line has just that number and that span. -/
theorem remarks_point_at_lines (generator : Generator σ) (sections : List Section)
    (nonempty : sections.flatMap Section.lines ≠ []) :
    ∃ last ∈ sections.flatMap Section.lines, generator.lastRead sections = some last ∧
      (generator.run sections).warnings =
        (generator.calls sections).flatMap (Call.warnings generator) ++
          (generator.closing sections).warnings.map (Diagnostic.onLine last .warning) ∧
      (∀ warning ∈ (generator.run sections).warnings,
        warning.PointsAt (sections.flatMap Section.lines)) ∧
      (generator.run sections).errors =
        ((generator.calls sections).getLast?.bind (Call.error? generator)).toList ++
          ((generator.closing sections).complaint?.map fun message =>
            ⟨last.number, ⟨0, 0⟩, .error, message⟩).toList ∧
      (∀ error ∈ ((generator.calls sections).getLast?.bind (Call.error? generator)).toList,
        error.PointsAt (sections.flatMap Section.lines)) ∧
      ((∀ remark ∈ (generator.run sections).errors ++ (generator.run sections).warnings,
          remark.PointsAt (sections.flatMap Section.lines)) ↔
        (generator.closing sections).complaint? = none ∨
          ∃ line ∈ sections.flatMap Section.lines,
            line.number = last.number ∧ line.span = ⟨0, 0⟩) := by
  rcases generator.exists_lastRead nonempty with ⟨last, member, isLast⟩
  rcases generator.pointsAt_of_calls sections with ⟨duringWarnings, duringErrors⟩
  have atEnd : generator.onLastRead sections = Diagnostic.onLine last := by
    funext severity message
    rw [onLastRead, isLast]
  have outcome := generator.run_eq_account sections
  rw [atEnd] at outcome
  have allWarnings : (generator.run sections).warnings =
      (generator.calls sections).flatMap (Call.warnings generator) ++
        (generator.closing sections).warnings.map (Diagnostic.onLine last .warning) := by
    rw [outcome]
  have allErrors : (generator.run sections).errors =
      ((generator.calls sections).getLast?.bind (Call.error? generator)).toList ++
        ((generator.closing sections).complaint?.map fun message =>
          ⟨last.number, ⟨0, 0⟩, .error, message⟩).toList := by
    rw [outcome]
    rfl
  have warnings : ∀ warning ∈ (generator.run sections).warnings,
      warning.PointsAt (sections.flatMap Section.lines) := by
    rw [allWarnings, List.forall_mem_append]
    refine ⟨duringWarnings, List.forall_mem_map.mpr fun message _ => ?_⟩
    exact ⟨last, member, rfl, rfl⟩
  refine ⟨last, member, isLast, allWarnings, warnings, allErrors, duringErrors, ?_⟩
  rw [List.forall_mem_append, and_iff_left warnings, allErrors, List.forall_mem_append,
    and_iff_right duringErrors]
  cases (generator.closing sections).complaint? with
  | none => simp
  | some message =>
      -- The error points at a line if one has its number and the empty span.
      simp [Diagnostic.PointsAt, eq_comm]

/-- A generator that takes every command and has no text in the end. -/
def speechless : Generator Unit where
  target := .script
  initial := ()
  execute := fun _ _ => { state := () }
  finish := fun _ => { state := (), warnings := ["finishing"], output := .error ⟨some "late boom"⟩ }

theorem remarks_point_at_lines_speechless :
    (Section.ofSource "ok\nlast").flatMap Section.lines ≠ [] ∧
      (speechless.run (Section.ofSource "ok\nlast")).warnings =
        [⟨2, ⟨3, 7⟩, .warning, "finishing"⟩] ∧
      (speechless.run (Section.ofSource "ok\nlast")).errors =
        [⟨2, ⟨0, 0⟩, .error, "internal emitter failure: late boom"⟩] ∧
      ¬∀ remark ∈ (speechless.run (Section.ofSource "ok\nlast")).errors ++
          (speechless.run (Section.ofSource "ok\nlast")).warnings,
        remark.PointsAt ((Section.ofSource "ok\nlast").flatMap Section.lines) := by
  have nonempty : (Section.ofSource "ok\nlast").flatMap Section.lines ≠ [] := by decide +kernel
  rcases remarks_point_at_lines speechless (Section.ofSource "ok\nlast") nonempty with
    ⟨last, -, -, -, -, -, -, exactly⟩
  have crashed : (speechless.closing (Section.ofSource "ok\nlast")).complaint? ≠ none := by
    decide +kernel
  have filled : ∀ line ∈ (Section.ofSource "ok\nlast").flatMap Section.lines,
      line.span ≠ ⟨0, 0⟩ := by
    decide +kernel
  refine ⟨nonempty, by decide +kernel, by decide +kernel, fun all => ?_⟩
  rcases exactly.mp all with text | ⟨line, member, -, empty⟩
  · exact crashed text
  · exact filled line member empty

end Generator
end Pagewright
