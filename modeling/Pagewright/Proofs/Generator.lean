import Mathlib.Data.List.Forall2
import Pagewright.Generator

namespace Pagewright
namespace Generator

/-!
# Runs of a generator

What holds of a generator after any history is proved once for each call and
then for all states that calls can lead to.  A generator may have further ways
to change its state besides commands; they are a parameter, so that one notion
of reachable state serves every generator.

A run that fails on a line is compared with the run that stops in front of it.
The two agree on the output as soon as a failed command leaves the state
alone.  `Clean` states this for one step, `FailsCleanly` for all states that
calls can lead to, and `AbortsCleanly` for whole runs.

Two runs are compared by a relation on states.  `InStep` asks that similar
commands keep related states related and are answered in the same way; that
the runs then agree to their ends holds for every generator.
-/

variable {σ : Type}

/-- The states that calls can lead to, where `move` are the calls besides
commands and asking for the text. -/
inductive Reachable (generator : Generator σ) (move : σ → σ → Prop) : σ → Prop
  | initial : Reachable generator move generator.initial
  | execute {state : σ} (earlier : Reachable generator move state) (command : Command) :
      Reachable generator move (generator.execute state command).state
  | finish {state : σ} (earlier : Reachable generator move state) :
      Reachable generator move (generator.finish state).state
  | move {state later : σ} (earlier : Reachable generator move state) (moved : move state later) :
      Reachable generator move later

/-- Commands and asking for the text are the only calls. -/
def noMove (_ _ : σ) : Prop := False

/-! ## Reading -/

@[simp] theorem Progress.state_visit (progress : Progress σ) (line : SourceLine) :
    (progress.visit line).state = progress.state := rfl

@[simp] theorem Progress.error_visit (progress : Progress σ) (line : SourceLine) :
    (progress.visit line).error = progress.error := rfl

@[simp] theorem Progress.error_warn (progress : Progress σ) (line : SourceLine)
    (messages : List String) : (progress.warn line messages).error = progress.error := rfl

/-- The progress behind one line, whether or not the line failed. -/
def advance (generator : Generator σ) (progress : Progress σ) (line : SourceLine) : Progress σ :=
  let visited := progress.visit line
  match Command.ofLine? line.text with
  | none => visited
  | some command =>
      let step := generator.execute visited.state command
      let stepped := { visited with state := step.state }.warn line step.warnings
      match step.verdict with
      | .handled => stepped
      | .unknown => stepped.warn line [unknownMessage generator.target command.key]
      | .failed fault => stepped.fail line fault
      | .crashed crash => stepped.fail line crash.fault

/-- Reading goes on behind a line exactly when the line did not fail. -/
theorem read_cons (generator : Generator σ) {progress : Progress σ}
    (running : progress.error = none) (line : SourceLine) (rest : List SourceLine) :
    generator.read progress (line :: rest) =
      match (generator.advance progress line).error with
      | none => generator.read (generator.advance progress line) rest
      | some _ => generator.advance progress line := by
  rw [read, advance]
  dsimp only
  cases Command.ofLine? line.text with
  | none =>
      dsimp only
      rw [Progress.error_visit, running]
  | some command =>
      dsimp only
      cases (generator.execute (progress.visit line).state command).verdict with
      | handled =>
          dsimp only
          rw [Progress.error_warn, Progress.error_visit, running]
      | unknown =>
          dsimp only
          rw [Progress.error_warn, Progress.error_warn, Progress.error_visit, running]
      | failed fault => rfl
      | crashed crash => rfl

/-- Reading more lines goes on where it stopped, unless it has ended. -/
theorem read_append (generator : Generator σ) {progress : Progress σ}
    (running : progress.error = none) (before after : List SourceLine) :
    generator.read progress (before ++ after) =
      match (generator.read progress before).error with
      | none => generator.read (generator.read progress before) after
      | some _ => generator.read progress before := by
  induction before generalizing progress with
  | nil => rw [List.nil_append, read, running]
  | cons line rest ih =>
      rw [List.cons_append, read_cons generator running, read_cons generator running]
      cases runs : (generator.advance progress line).error with
      | none => exact ih runs
      | some ended =>
          dsimp only
          rw [runs]

theorem line_of_error_advance {generator : Generator σ} {progress : Progress σ}
    (running : progress.error = none)
    {line : SourceLine} {error : Diagnostic}
    (ended : (generator.advance progress line).error = some error) : error.line = line.number := by
  unfold advance at ended
  dsimp only at ended
  cases found : Command.ofLine? line.text with
  | none =>
      rw [found] at ended
      cases running.symm.trans ended
  | some command =>
      rw [found] at ended
      dsimp only at ended
      cases verdict : (generator.execute (progress.visit line).state command).verdict with
      | handled =>
          rw [verdict] at ended
          cases running.symm.trans ended
      | unknown =>
          rw [verdict] at ended
          cases running.symm.trans ended
      | failed fault =>
          rw [verdict] at ended
          rw [← Option.some.inj ended]
          rfl
      | crashed crash =>
          rw [verdict] at ended
          rw [← Option.some.inj ended]
          rfl

/-- An error is about one of the lines that were read. -/
theorem exists_line_of_error {generator : Generator σ} {progress : Progress σ}
    (running : progress.error = none) {lines : List SourceLine} {error : Diagnostic}
    (failed : (generator.read progress lines).error = some error) :
    ∃ line ∈ lines, error.line = line.number := by
  induction lines generalizing progress with
  | nil => cases running.symm.trans failed
  | cons line rest ih =>
      rw [read_cons generator running] at failed
      cases runs : (generator.advance progress line).error with
      | none =>
          rw [runs] at failed
          rcases ih runs failed with ⟨found, member, number⟩
          exact ⟨found, List.mem_cons_of_mem line member, number⟩
      | some ended =>
          rw [runs] at failed
          exact ⟨line, List.mem_cons_self, line_of_error_advance running failed⟩

/-- A line leads to a reachable state. -/
theorem reachable_advance {generator : Generator σ} {move : σ → σ → Prop} {progress : Progress σ}
    (reachable : Reachable generator move progress.state) (line : SourceLine) :
    Reachable generator move (generator.advance progress line).state := by
  unfold advance
  dsimp only
  split
  case h_1 => exact reachable
  case h_2 command _ =>
      have stepped := reachable.execute command
      split
      · exact stepped
      · exact stepped
      · exact stepped
      · exact stepped

theorem reachable_read {generator : Generator σ} {move : σ → σ → Prop} (lines : List SourceLine)
    {progress : Progress σ} (running : progress.error = none)
    (reachable : Reachable generator move progress.state) :
    Reachable generator move (generator.read progress lines).state := by
  induction lines generalizing progress with
  | nil => exact reachable
  | cons line rest ih =>
      have advanced := reachable_advance reachable line
      rw [read_cons generator running]
      cases runs : (generator.advance progress line).error with
      | none => exact ih runs advanced
      | some _ => exact advanced

/-- How far a generator comes with some lines. -/
def readAll (generator : Generator σ) (lines : List SourceLine) : Progress σ :=
  generator.read { state := generator.initial } lines

theorem reachable_readAll (generator : Generator σ) (lines : List SourceLine) :
    Reachable generator noMove (generator.readAll lines).state :=
  reachable_read lines rfl .initial

/-- What a run comes to if the generator has a text for it. -/
theorem run_eq {generator : Generator σ} {sections : List Section} {progress : Progress σ}
    (reading : generator.readAll (sections.flatMap Section.lines) = progress) {text : String}
    (finished : (generator.finish progress.state).output = .ok text) :
    generator.run sections =
      { target := generator.target
        output := text
        errors := progress.error.toList
        warnings := progress.warnings.toList ++
          (generator.finish progress.state).warnings.map (progress.onLast .warning) } := by
  rw [run, ← readAll, reading, close]
  dsimp only
  rw [finished]

/-! ## Failure -/

/-- A failed command changes nothing and says nothing besides. -/
def FailsCleanly (generator : Generator σ) (move : σ → σ → Prop) : Prop :=
  ∀ state, generator.Reachable move state → ∀ command fault,
    (generator.execute state command).verdict = .failed fault →
      (generator.execute state command).state = state ∧
        (generator.execute state command).warnings = []

/-- A run with an error ended on a line whose command failed, and it has the
output of every run over exactly the lines in front of that one. -/
def AbortsCleanly (generator : Generator σ) : Prop :=
  ∀ sections, (generator.run sections).errors ≠ [] →
    ∃ before line after command fault,
      sections.flatMap Section.lines = before ++ line :: after ∧
      Command.ofLine? line.text = some command ∧
      (generator.execute (generator.readAll before).state command).verdict = .failed fault ∧
      (generator.run sections).errors = [Diagnostic.onLine line .error fault.message] ∧
      ∀ shorter, shorter.flatMap Section.lines = before →
        (generator.run shorter).errors = [] ∧
          (generator.run shorter).output = (generator.run sections).output

/-- A step that is taken or unknown, or that fails without a trace. -/
inductive CleanStep (before : σ) : Step σ → Prop
  | handled (state : σ) (warnings : List String) : CleanStep before ⟨state, warnings, .handled⟩
  | unknown (state : σ) (warnings : List String) : CleanStep before ⟨state, warnings, .unknown⟩
  | failed (fault : Fault) : CleanStep before ⟨before, [], .failed fault⟩

/-- Every command makes a clean step, and there always is a text. -/
structure Clean (generator : Generator σ) (move : σ → σ → Prop) : Prop where
  execute : ∀ state, generator.Reachable move state → ∀ command,
    CleanStep state (generator.execute state command)
  finish : ∀ state, ∃ text, (generator.finish state).output = .ok text

variable {generator : Generator σ} {move : σ → σ → Prop}

theorem Clean.failsCleanly (clean : Clean generator move) : FailsCleanly generator move := by
  intro state reachable command fault failed
  have step := clean.execute state reachable command
  generalize generator.execute state command = taken at step failed ⊢
  cases step with
  | handled => cases failed
  | unknown => cases failed
  | failed => exact ⟨rfl, rfl⟩

/-- A line can end the reading only if its command fails, and then it leaves
the state alone. -/
theorem Clean.failed_of_error_advance (clean : Clean generator move) {progress : Progress σ}
    (running : progress.error = none) (reachable : Reachable generator move progress.state)
    {line : SourceLine} {diagnostic : Diagnostic}
    (ended : (generator.advance progress line).error = some diagnostic) :
    ∃ command fault, Command.ofLine? line.text = some command ∧
      (generator.execute progress.state command).verdict = .failed fault ∧
      diagnostic = Diagnostic.onLine line .error fault.message ∧
      (generator.advance progress line).state = progress.state := by
  unfold advance at ended ⊢
  dsimp only at ended ⊢
  cases found : Command.ofLine? line.text with
  | none =>
      rw [found] at ended
      cases running.symm.trans ended
  | some command =>
      have step := clean.execute progress.state reachable command
      rw [found] at ended
      dsimp only at ended ⊢
      rw [Progress.state_visit] at ended ⊢
      generalize taken : generator.execute progress.state command = result at step ended ⊢
      cases step with
      | handled => cases running.symm.trans ended
      | unknown => cases running.symm.trans ended
      | failed fault =>
          refine ⟨command, fault, rfl, ?_, (Option.some.inj ended).symm, rfl⟩
          rw [taken]

/-- Reading that ends on a line leaves the state as it was in front of it. -/
theorem Clean.read_failed (clean : Clean generator move) (lines : List SourceLine)
    {progress : Progress σ} (running : progress.error = none)
    (reachable : Reachable generator move progress.state) {diagnostic : Diagnostic}
    (failed : (generator.read progress lines).error = some diagnostic) :
    ∃ before line after command fault, lines = before ++ line :: after ∧
      Command.ofLine? line.text = some command ∧
      (generator.execute (generator.read progress before).state command).verdict = .failed fault ∧
      diagnostic = Diagnostic.onLine line .error fault.message ∧
      (generator.read progress before).error = none ∧
      (generator.read progress lines).state = (generator.read progress before).state := by
  induction lines generalizing progress with
  | nil =>
      rw [read, running] at failed
      cases failed
  | cons line rest ih =>
      rw [read_cons generator running] at failed ⊢
      cases runs : (generator.advance progress line).error with
      | none =>
          rw [runs] at failed
          rcases ih runs (reachable_advance reachable line) failed with
            ⟨before, last, after, command, fault, parts, found, verdict, message, quiet, kept⟩
          -- The line goes on, so it also goes on in front of the shorter list.
          have shifted : generator.read progress (line :: before) =
              generator.read (generator.advance progress line) before := by
            rw [read_cons generator running, runs]
          refine ⟨line :: before, last, after, command, fault, ?_, found, ?_, message, ?_, ?_⟩
          · rw [parts, List.cons_append]
          · rw [shifted]
            exact verdict
          · rw [shifted]
            exact quiet
          · rw [shifted]
            exact kept
      | some ended =>
          rw [runs] at failed
          rcases clean.failed_of_error_advance running reachable failed with
            ⟨command, fault, found, verdict, message, kept⟩
          exact ⟨[], line, rest, command, fault, rfl, found, verdict, message, running, kept⟩

/-- Since failed commands change nothing, neither do the lines on which runs
end. -/
theorem Clean.abortsCleanly (clean : Clean generator move) : AbortsCleanly generator := by
  intro sections errors
  rcases clean.finish (generator.readAll (sections.flatMap Section.lines)).state with
    ⟨text, finished⟩
  have whole := run_eq rfl finished
  cases failed : (generator.readAll (sections.flatMap Section.lines)).error with
  | none =>
      rw [whole, failed] at errors
      exact absurd rfl errors
  | some diagnostic =>
      rcases clean.read_failed (sections.flatMap Section.lines) rfl .initial failed with
        ⟨before, line, after, command, fault, parts, found, verdict, message, runs, kept⟩
      refine ⟨before, line, after, command, fault, parts, found, verdict, ?_, ?_⟩
      · rw [whole, failed, message]
        rfl
      · rintro shorter rfl
        have same : (generator.finish
            (generator.readAll (shorter.flatMap Section.lines)).state).output = .ok text := by
          rw [readAll, ← kept]
          exact finished
        rw [run_eq rfl same, whole]
        refine ⟨?_, rfl⟩
        rw [readAll, runs]
        rfl

/-! ## Two runs in step -/

/-- The answers to commands that are given one after the other, and the state
behind them.  Unlike reading, this goes on behind a failure. -/
def perform (generator : Generator σ) (state : σ) :
    List Command → List (List String × Verdict) × σ
  | [] => ([], state)
  | command :: rest =>
      let step := generator.execute state command
      let (answers, last) := perform generator step.state rest
      ((step.warnings, step.verdict) :: answers, last)

theorem reachable_perform {state : σ} (reachable : Reachable generator move state)
    (commands : List Command) : Reachable generator move (generator.perform state commands).2 := by
  induction commands generalizing state with
  | nil => exact reachable
  | cons command rest ih => exact ih (reachable.execute command)

/-- Two steps that say the same and lead to related states. -/
structure SameStep (related : σ → σ → Prop) (left right : Step σ) : Prop where
  state : related left.state right.state
  warnings : left.warnings = right.warnings
  verdict : left.verdict = right.verdict

/-- Two texts at the end of runs that say the same, up to a relation on
texts. -/
structure SameFinish (alike : String → String → Prop) (left right : Finish σ) : Prop where
  warnings : left.warnings = right.warnings
  output : ∃ leftText rightText, left.output = .ok leftText ∧ right.output = .ok rightText ∧
    alike leftText rightText

/-- Two generators that answer similar commands in the same way. -/
structure InStep (left right : Generator σ) (related : σ → σ → Prop)
    (similar : Command → Command → Prop) (alike : String → String → Prop) : Prop where
  target : left.target = right.target
  initial : related left.initial right.initial
  key : ∀ {leftCommand rightCommand}, similar leftCommand rightCommand →
    leftCommand.key = rightCommand.key
  execute : ∀ {leftState rightState}, related leftState rightState →
    ∀ {leftCommand rightCommand}, similar leftCommand rightCommand →
      SameStep related (left.execute leftState leftCommand) (right.execute rightState rightCommand)
  finish : ∀ {leftState rightState}, related leftState rightState →
    SameFinish alike (left.finish leftState) (right.finish rightState)

/-- Two lines with one number that hold similar commands, or none. -/
structure SimilarLines (similar : Command → Command → Prop) (left right : SourceLine) : Prop where
  number : left.number = right.number
  command : Option.Rel similar (Command.ofLine? left.text) (Command.ofLine? right.text)

/-- What a diagnostic says about which line.  Its span is left out, because it
depends on the length of the line. -/
def said (diagnostic : Diagnostic) : Nat × Severity × String :=
  (diagnostic.line, diagnostic.severity, diagnostic.message)

/-- Readings that have come equally far. -/
structure SameProgress (related : σ → σ → Prop) (left right : Progress σ) : Prop where
  state : related left.state right.state
  warnings : left.warnings.toList.map said = right.warnings.toList.map said
  error : left.error.map said = right.error.map said
  last : left.last.map SourceLine.number = right.last.map SourceLine.number

namespace SameProgress

variable {related : σ → σ → Prop} {leftProgress rightProgress : Progress σ}
  {leftLine rightLine : SourceLine}

theorem visit (same : SameProgress related leftProgress rightProgress)
    (number : leftLine.number = rightLine.number) :
    SameProgress related (leftProgress.visit leftLine) (rightProgress.visit rightLine) :=
  ⟨same.state, same.warnings, same.error, congrArg some number⟩

theorem warn (same : SameProgress related leftProgress rightProgress)
    (number : leftLine.number = rightLine.number) (messages : List String) :
    SameProgress related (leftProgress.warn leftLine messages)
      (rightProgress.warn rightLine messages) := by
  refine ⟨same.state, ?_, same.error, same.last⟩
  have added : said ∘ Diagnostic.onLine leftLine .warning =
      said ∘ Diagnostic.onLine rightLine .warning := by
    funext message
    exact congrArg (·, Severity.warning, message) number
  simp only [Progress.warn, Array.toList_append, List.map_append, same.warnings, List.map_map, added]

theorem fail (same : SameProgress related leftProgress rightProgress)
    (number : leftLine.number = rightLine.number) (fault : Fault) :
    SameProgress related (leftProgress.fail leftLine fault)
      (rightProgress.fail rightLine fault) := by
  refine ⟨same.state, same.warnings, ?_, same.last⟩
  exact congrArg (fun number => some (number, Severity.error, fault.message)) number

theorem onLast (same : SameProgress related leftProgress rightProgress) (severity : Severity)
    (message : String) :
    said (leftProgress.onLast severity message) = said (rightProgress.onLast severity message) := by
  have last := same.last
  unfold Progress.onLast
  generalize leftProgress.last = leftLast, rightProgress.last = rightLast at last ⊢
  cases leftLast with
  | none =>
      cases rightLast with
      | none => rfl
      | some line => cases last
  | some leftLine =>
      cases rightLast with
      | none => cases last
      | some rightLine => exact congrArg (·, severity, message) (Option.some.inj last)

end SameProgress

namespace InStep

variable {left right : Generator σ} {related : σ → σ → Prop} {similar : Command → Command → Prop}
  {alike : String → String → Prop}

/-- Commands given one after the other are answered alike. -/
theorem perform (inStep : InStep left right related similar alike) {leftState rightState : σ}
    (states : related leftState rightState) {leftCommands rightCommands : List Command}
    (commands : List.Forall₂ similar leftCommands rightCommands) :
    (left.perform leftState leftCommands).1 = (right.perform rightState rightCommands).1 ∧
      related (left.perform leftState leftCommands).2 (right.perform rightState rightCommands).2 := by
  induction commands generalizing leftState rightState with
  | nil => exact ⟨rfl, states⟩
  | cons first _ ih =>
      have step := inStep.execute states first
      rcases ih step.state with ⟨answers, last⟩
      refine ⟨?_, last⟩
      exact congrArg₂ List.cons (congrArg₂ Prod.mk step.warnings step.verdict) answers

theorem advance (inStep : InStep left right related similar alike)
    {leftProgress rightProgress : Progress σ}
    (same : SameProgress related leftProgress rightProgress)
    {leftLine rightLine : SourceLine} (lines : SimilarLines similar leftLine rightLine) :
    SameProgress related (left.advance leftProgress leftLine)
      (right.advance rightProgress rightLine) := by
  have number := lines.number
  have visited := same.visit number
  have commands := lines.command
  unfold Generator.advance
  dsimp only
  generalize Command.ofLine? leftLine.text = leftCommand? at commands ⊢
  generalize Command.ofLine? rightLine.text = rightCommand? at commands ⊢
  cases commands with
  | none => exact visited
  | @some leftCommand rightCommand command =>
      have step := inStep.execute visited.state command
      have stepped : SameProgress related
          { leftProgress.visit leftLine with
            state := (left.execute (leftProgress.visit leftLine).state leftCommand).state }
          { rightProgress.visit rightLine with
            state := (right.execute (rightProgress.visit rightLine).state rightCommand).state } :=
        ⟨step.state, visited.warnings, visited.error, visited.last⟩
      have warned := stepped.warn number
        (left.execute (leftProgress.visit leftLine).state leftCommand).warnings
      dsimp only
      rw [← step.warnings, ← step.verdict, ← inStep.key command, ← inStep.target]
      cases (left.execute (leftProgress.visit leftLine).state leftCommand).verdict with
      | handled => exact warned
      | unknown => exact warned.warn number _
      | failed fault => exact warned.fail number fault
      | crashed crash => exact warned.fail number crash.fault

theorem read (inStep : InStep left right related similar alike)
    {leftProgress rightProgress : Progress σ}
    (same : SameProgress related leftProgress rightProgress)
    (running : leftProgress.error = none) {leftLines rightLines : List SourceLine}
    (lines : List.Forall₂ (SimilarLines similar) leftLines rightLines) :
    SameProgress related (left.read leftProgress leftLines)
      (right.read rightProgress rightLines) := by
  induction lines generalizing leftProgress rightProgress with
  | nil => exact same
  | @cons leftLine rightLine leftRest rightRest first _ ih =>
      have advanced := inStep.advance same first
      have error := advanced.error
      have alsoRunning : rightProgress.error = none := by
        have both := same.error
        rw [running] at both
        exact Option.map_eq_none_iff.mp both.symm
      rw [read_cons left running, read_cons right alsoRunning]
      cases leftEnd : (left.advance leftProgress leftLine).error with
      | none =>
          rw [leftEnd] at error
          rw [Option.map_eq_none_iff.mp error.symm]
          exact ih advanced leftEnd
      | some diagnostic =>
          cases rightEnd : (right.advance rightProgress rightLine).error with
          | none =>
              rw [leftEnd, rightEnd] at error
              cases error
          | some _ => exact advanced

/-- Runs over similar lines report the same and end with alike outputs. -/
theorem run (inStep : InStep left right related similar alike)
    {leftSections rightSections : List Section}
    (lines : List.Forall₂ (SimilarLines similar) (leftSections.flatMap Section.lines)
      (rightSections.flatMap Section.lines)) :
    (left.run leftSections).errors.map said = (right.run rightSections).errors.map said ∧
      (left.run leftSections).warnings.map said = (right.run rightSections).warnings.map said ∧
      alike (left.run leftSections).output (right.run rightSections).output := by
  have start : SameProgress related { state := left.initial } { state := right.initial } :=
    ⟨inStep.initial, rfl, rfl, rfl⟩
  have same : SameProgress related (left.readAll (leftSections.flatMap Section.lines))
      (right.readAll (rightSections.flatMap Section.lines)) := inStep.read start rfl lines
  have finished := inStep.finish same.state
  rcases finished.output with ⟨leftText, rightText, leftFinished, rightFinished, texts⟩
  rw [run_eq rfl leftFinished, run_eq rfl rightFinished]
  refine ⟨?_, ?_, texts⟩
  · rw [← Option.toList_map, ← Option.toList_map, same.error]
  · have closing : said ∘ (left.readAll (leftSections.flatMap Section.lines)).onLast .warning =
        said ∘ (right.readAll (rightSections.flatMap Section.lines)).onLast .warning :=
      funext (same.onLast .warning)
    rw [List.map_append, List.map_append, same.warnings, finished.warnings, List.map_map,
      List.map_map, closing]

end InStep

end Generator
end Pagewright
