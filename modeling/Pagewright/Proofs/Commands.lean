import Pagewright.Proofs.Generator

namespace Pagewright

/-!
# Runs as sequences of commands

Reading works on lines, because every remark names a line.  What is written and
what the remarks say depends on less: on the commands that the lines hold, in
their order.  Where the lines stand in a source, and which lines without a
command stand between them, shows in the numbers and spans of remarks only.

`obey` carries out commands as reading does, up to the first one that fails,
and keeps no lines.  A run is then a function of its commands, and what is
claimed about outputs can be proved by induction on commands.
-/

/-- What an outcome says, without the lines it says it about. -/
structure Account where
  output : String
  errors : List String
  warnings : List String
deriving Repr, DecidableEq

def Outcome.account (outcome : Outcome) : Account where
  output := outcome.output
  errors := outcome.errors.map Diagnostic.message
  warnings := outcome.warnings.map Diagnostic.message

namespace Generator

variable {σ : Type}

/-- The commands on some lines. -/
def commandsOf (lines : List SourceLine) : List Command :=
  lines.filterMap fun line => Command.ofLine? line.text

/-- Where commands have led, and what was said on the way. -/
structure Course (σ : Type) where
  state : σ
  warnings : List String := []
  fault : Option Fault := none
deriving Repr, DecidableEq

/-- The course with earlier warnings in front. -/
def Course.behind (course : Course σ) (earlier : List String) : Course σ :=
  { course with warnings := earlier ++ course.warnings }

/-- Carry out commands up to the first one that fails. -/
def obey (generator : Generator σ) (state : σ) : List Command → Course σ
  | [] => { state := state }
  | command :: rest =>
      let step := generator.execute state command
      match step.verdict with
      | .handled => (obey generator step.state rest).behind step.warnings
      | .unknown =>
          (obey generator step.state rest).behind
            (step.warnings ++ [unknownMessage generator.target command.key])
      | .failed fault => ⟨step.state, step.warnings, some fault⟩
      | .crashed crash => ⟨step.state, step.warnings, some crash.fault⟩

/-- What a generator says about a whole sequence of commands. -/
def account (generator : Generator σ) (commands : List Command) : Account :=
  let course := generator.obey generator.initial commands
  let closing := generator.finish course.state
  let errors := (course.fault.map Fault.message).toList
  let warnings := course.warnings ++ closing.warnings
  match closing.output with
  | .ok text => ⟨text, errors, warnings⟩
  | .error crash => ⟨"", errors ++ [crash.fault.message], warnings⟩

/-- Obeying commands up to a failure is giving them one after the other, and no
more of them behind it. -/
theorem exists_perform (generator : Generator σ) (state : σ) (commands : List Command) :
    ∃ taken, taken <+: commands ∧
      (generator.obey state commands).state = (generator.perform state taken).2 ∧
      ((generator.obey state commands).fault = none → taken = commands) := by
  induction commands generalizing state with
  | nil => exact ⟨[], List.prefix_rfl, rfl, fun _ => rfl⟩
  | cons command rest ih =>
      rcases ih (generator.execute state command).state with ⟨later, front, same, whole⟩
      have first : [command] <+: command :: rest := List.prefix_append [command] rest
      have longer : command :: later <+: command :: rest :=
        List.cons_prefix_cons.mpr ⟨rfl, front⟩
      rw [obey]
      cases (generator.execute state command).verdict with
      | handled => exact ⟨_, longer, same, fun running => congrArg _ (whole running)⟩
      | unknown => exact ⟨_, longer, same, fun running => congrArg _ (whole running)⟩
      | failed fault => exact ⟨_, first, rfl, nofun⟩
      | crashed crash => exact ⟨_, first, rfl, nofun⟩

/-! ## Reading -/

/-- The messages of the warnings so far. -/
def Progress.messages (progress : Progress σ) : List String :=
  progress.warnings.toList.map Diagnostic.message

theorem Progress.messages_warn (progress : Progress σ) (line : SourceLine) (added : List String) :
    (progress.warn line added).messages = progress.messages ++ added := by
  have kept : Diagnostic.message ∘ Diagnostic.onLine line .warning = id := rfl
  simp only [Progress.messages, Progress.warn, Array.toList_append, List.map_append, List.map_map,
    kept, List.map_id]

theorem Progress.message_onLast (progress : Progress σ) (severity : Severity) (message : String) :
    (progress.onLast severity message).message = message := by
  unfold Progress.onLast
  split
  · rfl
  · rfl

/-- A reading with the given messages at its start has come where a course
leads. -/
structure Agrees (start : List String) (progress : Progress σ) (course : Course σ) : Prop where
  state : progress.state = course.state
  messages : progress.messages = start ++ course.warnings
  error : progress.error.map Diagnostic.message = course.fault.map Fault.message

/-- Messages at the start of a reading may be counted to its course. -/
theorem Agrees.behind {start earlier : List String} {progress : Progress σ} {course : Course σ}
    (agrees : Agrees (start ++ earlier) progress course) :
    Agrees start progress (course.behind earlier) := by
  refine ⟨agrees.state, ?_, agrees.error⟩
  rw [agrees.messages, List.append_assoc]
  rfl

/-- Reading lines does what the commands on them ask for. -/
theorem agrees_read (generator : Generator σ) (lines : List SourceLine) {progress : Progress σ}
    (running : progress.error = none) :
    Agrees progress.messages (generator.read progress lines)
      (generator.obey progress.state (commandsOf lines)) := by
  induction lines generalizing progress with
  | nil =>
      refine ⟨rfl, (List.append_nil _).symm, ?_⟩
      rw [read, running]
      rfl
  | cons line rest ih =>
      rw [read]
      cases found : Command.ofLine? line.text with
      | none =>
          have skipped : commandsOf (line :: rest) = commandsOf rest :=
            List.filterMap_cons_none found
          rw [skipped]
          exact @ih (progress.visit line) running
      | some command =>
          have first : commandsOf (line :: rest) = command :: commandsOf rest :=
            List.filterMap_cons_some found
          let step := generator.execute progress.state command
          let stepped : Progress σ :=
            { progress.visit line with state := step.state }.warn line step.warnings
          have said : stepped.messages = progress.messages ++ step.warnings :=
            Progress.messages_warn _ line _
          rw [first, obey]
          dsimp only
          rw [Progress.state_visit]
          cases (generator.execute progress.state command).verdict with
          | handled =>
              have later := @ih stepped running
              rw [said] at later
              exact later.behind
          | unknown =>
              let message := unknownMessage generator.target command.key
              have later := @ih (stepped.warn line [message]) running
              rw [Progress.messages_warn, said, List.append_assoc] at later
              exact later.behind
          | failed fault => exact ⟨rfl, said, rfl⟩
          | crashed crash => exact ⟨rfl, said, rfl⟩

theorem agrees_readAll (generator : Generator σ) (lines : List SourceLine) :
    Agrees [] (generator.readAll lines)
      (generator.obey generator.initial (commandsOf lines)) :=
  @agrees_read σ generator lines { state := generator.initial } rfl

/-- What a run says depends on the commands of its lines only. -/
theorem account_run (generator : Generator σ) (sections : List Section) :
    (generator.run sections).account =
      generator.account (commandsOf (sections.flatMap Section.lines)) := by
  have agrees := agrees_readAll generator (sections.flatMap Section.lines)
  have messages : List.map Diagnostic.message
      (generator.readAll (sections.flatMap Section.lines)).warnings.toList = _ := agrees.messages
  have error := congrArg Option.toList agrees.error
  rw [Option.toList_map] at error
  rw [List.nil_append] at messages
  have closing : Diagnostic.message ∘
      (generator.readAll (sections.flatMap Section.lines)).onLast .warning = id :=
    funext (Progress.message_onLast _ .warning)
  rw [run, ← readAll, close, account]
  dsimp only
  rw [← agrees.state]
  cases finished : (generator.finish
      (generator.readAll (sections.flatMap Section.lines)).state).output with
  | ok text =>
      simp only [Outcome.account, List.map_append, List.map_map, closing, List.map_id, messages, error]
  | error crash =>
      simp only [Outcome.account, List.map_append, List.map_map, closing, List.map_id, messages, error,
        List.map_cons, List.map_nil, Progress.message_onLast]

end Generator
end Pagewright
