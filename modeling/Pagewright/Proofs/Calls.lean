import Pagewright.Proofs.Generator

namespace Pagewright

/-!
# The calls of a run

A run gives commands to a generator one after the other and then asks it for the
text.  Which commands these are is stated without reference to the loop that
gives them: the commands of all lines are attempted in order, each in the state
that the one in front of it left, and the attempts are cut behind the first one
that ends the reading.  Everything in the outcome of a run is then accounted for
by these calls and by the one call at the end.

That the calls are indeed made is not visible in an outcome.  It becomes visible
with a generator that writes down how it is called, and behaves like the one it
stands in for otherwise.
-/

namespace Finish

variable {σ : Type}

/-- The text that was asked for, empty where there is none. -/
def text (closing : Finish σ) : String :=
  match closing.output with
  | .ok text => text
  | .error _ => ""

/-- What is reported if there is no text. -/
def complaint? (closing : Finish σ) : Option String :=
  match closing.output with
  | .ok _ => none
  | .error crash =>
      some ("internal emitter failure: " ++ crash.reason.getD "emitter panicked")

end Finish

namespace Generator

variable {σ : Type}

/-! ## Calls -/

/-- A command given to a generator: the line it stands on, and the state that it
is given in. -/
structure Call (σ : Type) where
  line : SourceLine
  command : Command
  state : σ

namespace Call

/-- What the generator made of the command. -/
def step (generator : Generator σ) (call : Call σ) : Step σ :=
  generator.execute call.state call.command

/-- Does the call end the reading? -/
def ends (generator : Generator σ) (call : Call σ) : Bool :=
  match (call.step generator).verdict with
  | .handled | .unknown => false
  | .failed _ | .crashed _ => true

/-- The error that ends the reading. -/
def error? (generator : Generator σ) (call : Call σ) : Option Diagnostic :=
  match (call.step generator).verdict with
  | .handled | .unknown => none
  | .failed fault => some (Diagnostic.onLine call.line .error fault.message)
  | .crashed crash =>
      some (Diagnostic.onLine call.line .error
        ("internal emitter failure: " ++ crash.reason.getD "emitter panicked"))

/-- The one warning about a key that names no command. -/
def unknown? (generator : Generator σ) (call : Call σ) : Option Diagnostic :=
  match (call.step generator).verdict with
  | .unknown =>
      some (Diagnostic.onLine call.line .warning
        (unknownMessage generator.target call.command.key))
  | .handled | .failed _ | .crashed _ => none

/-- The warnings of a call: those given during it, then the one about its key. -/
def warnings (generator : Generator σ) (call : Call σ) : List Diagnostic :=
  (call.step generator).warnings.map (Diagnostic.onLine call.line .warning) ++
    (call.unknown? generator).toList

theorem isSome_error? (generator : Generator σ) (call : Call σ) :
    (call.error? generator).isSome = call.ends generator := by
  unfold error? ends
  cases (call.step generator).verdict <;> rfl

end Call

/-- A crash is reported as an internal failure, with its text if it has one. -/
theorem message_fault (crash : Crash) :
    crash.fault.message =
      "internal emitter failure: " ++ crash.reason.getD "emitter panicked" := rfl

/-- The lines that hold a command, each with its command. -/
def commanded (lines : List SourceLine) : List (SourceLine × Command) :=
  lines.filterMap fun line => (Command.ofLine? line.text).map fun command => (line, command)

/-- The calls for some commands, if none of them ended the reading. -/
def attempts (generator : Generator σ) (state : σ) : List (SourceLine × Command) → List (Call σ)
  | [] => []
  | (line, command) :: rest =>
      ⟨line, command, state⟩ ::
        attempts generator (generator.execute state command).state rest

/-- A list up to and including the first member with a property. -/
def upTo {α : Type} (property : α → Bool) (members : List α) : List α :=
  members.take (members.findIdx property + 1)

/-- The calls for some lines, up to and including the first that ends the
reading. -/
def callsFrom (generator : Generator σ) (state : σ) (lines : List SourceLine) : List (Call σ) :=
  upTo (Call.ends generator) (generator.attempts state (commanded lines))

/-- The state behind some calls that began in the given state. -/
def stateAfter (generator : Generator σ) (state : σ) (calls : List (Call σ)) : σ :=
  (calls.getLast?.map fun call => (call.step generator).state).getD state

/-- The last line read: the one that ended the reading, or else the last of
all. -/
def lastFrom (generator : Generator σ) (state : σ) (lines : List SourceLine) :
    Option SourceLine :=
  (((generator.callsFrom state lines).find? (Call.ends generator)).map Call.line).or lines.getLast?

theorem upTo_cons {α : Type} (property : α → Bool) (first : α) (others : List α) :
    upTo property (first :: others) =
      first :: if property first then [] else upTo property others := by
  unfold upTo
  rw [List.findIdx_cons, List.take_succ_cons]
  cases property first <;> rfl

/-- What is cut off stands behind a member with the property. -/
theorem exists_append_upTo {α : Type} (property : α → Bool) (members : List α) :
    ∃ later, members = upTo property members ++ later ∧
      (later ≠ [] → ∃ last, (upTo property members).getLast? = some last ∧ property last = true) := by
  induction members with
  | nil => exact ⟨[], rfl, fun nonempty => absurd rfl nonempty⟩
  | cons first others ih =>
      rw [upTo_cons]
      cases found : property first with
      | true => exact ⟨others, rfl, fun _ => ⟨first, rfl, found⟩⟩
      | false =>
          rcases ih with ⟨later, parts, cut⟩
          refine ⟨later, congrArg (first :: ·) parts, fun nonempty => ?_⟩
          rcases cut nonempty with ⟨last, isLast, ends⟩
          refine ⟨last, ?_, ends⟩
          rw [if_neg Bool.false_ne_true, List.getLast?_cons, isLast, Option.getD_some]

/-- Only the last member can have the property. -/
theorem forall_mem_dropLast_upTo {α : Type} (property : α → Bool) (members : List α) :
    ∀ member ∈ (upTo property members).dropLast, property member = false := by
  induction members with
  | nil => exact List.forall_mem_nil _
  | cons first others ih =>
      rw [upTo_cons]
      cases found : property first with
      | true => exact List.forall_mem_nil _
      | false =>
          rw [if_neg Bool.false_ne_true]
          cases rest : upTo property others with
          | nil => exact List.forall_mem_nil _
          | cons second more =>
              rw [rest] at ih
              rw [List.dropLast_cons_cons]
              exact List.forall_mem_cons.mpr ⟨found, ih⟩

/-- Every command is attempted, in order. -/
theorem map_attempts (generator : Generator σ) (state : σ)
    (commands : List (SourceLine × Command)) :
    (generator.attempts state commands).map (fun call => (call.line, call.command)) = commands := by
  induction commands generalizing state with
  | nil => rfl
  | cons first rest ih =>
      rw [attempts, List.map_cons, ih]

variable {generator : Generator σ} {line : SourceLine} {command : Command}

theorem commanded_cons_none (blank : Command.ofLine? line.text = none) (rest : List SourceLine) :
    commanded (line :: rest) = commanded rest := by
  rw [commanded, List.filterMap_cons, blank]
  rfl

theorem commanded_cons_some (found : Command.ofLine? line.text = some command)
    (rest : List SourceLine) :
    commanded (line :: rest) = (line, command) :: commanded rest := by
  rw [commanded, List.filterMap_cons, found]
  rfl

theorem callsFrom_cons_none (blank : Command.ofLine? line.text = none) (state : σ)
    (rest : List SourceLine) :
    generator.callsFrom state (line :: rest) = generator.callsFrom state rest := by
  rw [callsFrom, commanded_cons_none blank]
  rfl

theorem callsFrom_cons_some (found : Command.ofLine? line.text = some command) (state : σ)
    (rest : List SourceLine) :
    generator.callsFrom state (line :: rest) =
      ⟨line, command, state⟩ ::
        if Call.ends generator ⟨line, command, state⟩ then []
        else generator.callsFrom (generator.execute state command).state rest := by
  rw [callsFrom, commanded_cons_some found, attempts, upTo_cons]
  rfl

/-! ## Reading -/

/-- Reading from one progress to another is accounted for by calls. -/
structure Accounted (generator : Generator σ) (before : Progress σ) (calls : List (Call σ))
    (last : Option SourceLine) (after : Progress σ) : Prop where
  state : after.state = generator.stateAfter before.state calls
  warnings : after.warnings.toList =
    before.warnings.toList ++ calls.flatMap (Call.warnings generator)
  error : after.error = calls.getLast?.bind (Call.error? generator)
  last : after.last = last.or before.last

/-- A line with a command is accounted for by one call. -/
theorem accounted_advance {progress : Progress σ} (running : progress.error = none)
    (found : Command.ofLine? line.text = some command) :
    Accounted generator progress [⟨line, command, progress.state⟩] (some line)
      (generator.advance progress line) := by
  have call : Call.step generator ⟨line, command, progress.state⟩ =
      generator.execute progress.state command := rfl
  unfold advance
  rw [found]
  dsimp only
  rw [Progress.state_visit]
  cases verdict : (generator.execute progress.state command).verdict with
  | handled =>
      refine ⟨rfl, ?_, ?_, rfl⟩
      · simp [Progress.warn, Progress.visit, Call.warnings, Call.unknown?, call, verdict]
      · simpa [Call.error?, call, verdict] using running
  | unknown =>
      refine ⟨rfl, ?_, ?_, rfl⟩
      · simp [Progress.warn, Progress.visit, Call.warnings, Call.unknown?, call, verdict]
      · simpa [Call.error?, call, verdict] using running
  | failed fault =>
      refine ⟨rfl, ?_, ?_, rfl⟩
      · simp [Progress.fail, Progress.warn, Progress.visit, Call.warnings, Call.unknown?, call, verdict]
      · simp [Progress.fail, Call.error?, call, verdict]
  | crashed crash =>
      refine ⟨rfl, ?_, ?_, rfl⟩
      · simp [Progress.fail, Progress.warn, Progress.visit, Call.warnings, Call.unknown?, call, verdict]
      · simp only [Progress.fail, Call.error?, call, verdict, message_fault, List.getLast?_singleton,
          Option.bind_some]

/-- A line ends the reading exactly if its call does. -/
theorem isSome_error_advance {progress : Progress σ} (running : progress.error = none)
    (found : Command.ofLine? line.text = some command) :
    (generator.advance progress line).error.isSome =
      Call.ends generator ⟨line, command, progress.state⟩ := by
  rw [(accounted_advance running found).error]
  exact Call.isSome_error? generator ⟨line, command, progress.state⟩

/-- Behind a call that ends the reading nothing is read. -/
theorem read_of_ends {progress : Progress σ} (running : progress.error = none)
    (found : Command.ofLine? line.text = some command)
    (ends : Call.ends generator ⟨line, command, progress.state⟩ = true) (rest : List SourceLine) :
    generator.read progress (line :: rest) = generator.advance progress line := by
  rw [← isSome_error_advance running found] at ends
  rcases Option.isSome_iff_exists.mp ends with ⟨error, ended⟩
  rw [read_cons generator running, ended]

/-- Behind a call that went through the reading goes on. -/
theorem read_of_goesOn {progress : Progress σ} (running : progress.error = none)
    (found : Command.ofLine? line.text = some command)
    (goesOn : Call.ends generator ⟨line, command, progress.state⟩ = false) (rest : List SourceLine) :
    (generator.advance progress line).error = none ∧
      generator.read progress (line :: rest) =
        generator.read (generator.advance progress line) rest := by
  rw [← isSome_error_advance running found] at goesOn
  have still : (generator.advance progress line).error = none :=
    Option.isNone_iff_eq_none.mp (Option.isSome_eq_false_iff.mp goesOn)
  rw [read_cons generator running, still]
  exact ⟨rfl, rfl⟩

theorem state_advance {progress : Progress σ} (running : progress.error = none)
    (found : Command.ofLine? line.text = some command) :
    (generator.advance progress line).state = (generator.execute progress.state command).state :=
  (accounted_advance running found).state

/-- A line without a command is passed over. -/
theorem read_of_none {progress : Progress σ} (running : progress.error = none)
    (blank : Command.ofLine? line.text = none) (rest : List SourceLine) :
    generator.read progress (line :: rest) = generator.read (progress.visit line) rest := by
  have visited : generator.advance progress line = progress.visit line := by
    unfold advance
    rw [blank]
  rw [read_cons generator running, visited, Progress.error_visit, running]

theorem stateAfter_cons (state : σ) (call : Call σ) (others : List (Call σ)) :
    generator.stateAfter state (call :: others) =
      generator.stateAfter (call.step generator).state others := by
  cases others with
  | nil => rfl
  | cons next others =>
      rw [stateAfter, List.getLast?_cons_cons, stateAfter, List.getLast?_cons, Option.map_some,
        Option.getD_some, Option.getD_some]

private theorem getLast?_cons_or (rest : List SourceLine) :
    (line :: rest).getLast? = rest.getLast?.or (some line) := by
  rw [List.getLast?_cons]
  cases rest.getLast? <;> rfl

theorem lastFrom_cons_none (blank : Command.ofLine? line.text = none) (state : σ)
    (rest : List SourceLine) :
    generator.lastFrom state (line :: rest) = (generator.lastFrom state rest).or (some line) := by
  rw [lastFrom, lastFrom, callsFrom_cons_none blank, getLast?_cons_or, Option.or_assoc]

theorem lastFrom_cons_some (found : Command.ofLine? line.text = some command) (state : σ)
    (rest : List SourceLine) :
    generator.lastFrom state (line :: rest) =
      if Call.ends generator ⟨line, command, state⟩ then some line
      else (generator.lastFrom (generator.execute state command).state rest).or (some line) := by
  rw [lastFrom, callsFrom_cons_some found, getLast?_cons_or, List.find?_cons]
  cases Call.ends generator ⟨line, command, state⟩ with
  | true => rfl
  | false => exact (Option.or_assoc ..).symm

/-- Calls behind one that went through. -/
theorem Accounted.cons {before between after : Progress σ} {call : Call σ}
    {others : List (Call σ)} {last : Option SourceLine}
    (first : Accounted generator before [call] (some call.line) between)
    (goesOn : call.ends generator = false)
    (rest : Accounted generator between others last after) :
    Accounted generator before (call :: others) (last.or (some call.line)) after := by
  constructor
  case state =>
      rw [rest.state, first.state, stateAfter_cons, stateAfter_cons]
      rfl
  case warnings =>
      rw [rest.warnings, first.warnings, List.flatMap_singleton, List.flatMap_cons,
        List.append_assoc]
  case error =>
      rw [rest.error]
      cases others with
      | nil =>
          rw [← call.isSome_error?, Option.isSome_eq_false_iff] at goesOn
          exact (Option.isNone_iff_eq_none.mp goesOn).symm
      | cons next others => rw [List.getLast?_cons_cons]
  case last => rw [rest.last, first.last, Option.or_assoc, Option.some_or]

/-- Reading lines is accounted for by their calls. -/
theorem accounted_read {progress : Progress σ} (running : progress.error = none)
    (lines : List SourceLine) :
    Accounted generator progress (generator.callsFrom progress.state lines)
      (generator.lastFrom progress.state lines) (generator.read progress lines) := by
  induction lines generalizing progress with
  | nil => exact ⟨rfl, (List.append_nil _).symm, running, rfl⟩
  | cons line rest ih =>
      cases found : Command.ofLine? line.text with
      | none =>
          have later := @ih (progress.visit line) running
          rw [read_of_none running found, callsFrom_cons_none found, lastFrom_cons_none found]
          refine ⟨later.state, later.warnings, later.error, ?_⟩
          rw [Option.or_assoc]
          exact later.last
      | some command =>
          have first := @accounted_advance _ generator line command _ running found
          rw [callsFrom_cons_some found, lastFrom_cons_some found]
          cases ends : Call.ends generator ⟨line, command, progress.state⟩ with
          | true =>
              rw [read_of_ends running found ends]
              exact first
          | false =>
              rcases read_of_goesOn running found ends rest with ⟨still, reading⟩
              have later := ih still
              rw [state_advance running found] at later
              rw [reading]
              exact first.cons ends later

/-! ## Runs -/

/-- The calls of a run. -/
def calls (generator : Generator σ) (sections : List Section) : List (Call σ) :=
  generator.callsFrom generator.initial (sections.flatMap Section.lines)

/-- The last line that a run reads. -/
def lastRead (generator : Generator σ) (sections : List Section) : Option SourceLine :=
  generator.lastFrom generator.initial (sections.flatMap Section.lines)

/-- The effect of asking for the text at the end of a run. -/
def closing (generator : Generator σ) (sections : List Section) : Finish σ :=
  generator.finish (generator.stateAfter generator.initial (generator.calls sections))

/-- A remark on the last line read; a run without lines has none, and then the
remark is on no line. -/
def onLastRead (generator : Generator σ) (sections : List Section) (severity : Severity)
    (message : String) : Diagnostic :=
  match generator.lastRead sections with
  | some line => Diagnostic.onLine line severity message
  | none => ⟨0, ⟨0, 0⟩, severity, message⟩

/-- The outcome of a run in terms of its calls. -/
theorem run_eq_account (generator : Generator σ) (sections : List Section) :
    generator.run sections =
      { target := generator.target
        output := (generator.closing sections).text
        errors := ((generator.calls sections).getLast?.bind (Call.error? generator)).toList ++
          ((generator.closing sections).complaint?.map fun message =>
            { generator.onLastRead sections .error message with span := ⟨0, 0⟩ }).toList
        warnings := (generator.calls sections).flatMap (Call.warnings generator) ++
          (generator.closing sections).warnings.map (generator.onLastRead sections .warning) } := by
  have account := @accounted_read _ generator { state := generator.initial } rfl
    (sections.flatMap Section.lines)
  rw [run]
  generalize generator.read { state := generator.initial } (sections.flatMap Section.lines) = progress
    at account ⊢
  have closed : generator.finish progress.state = generator.closing sections := by
    rw [account.state]
    rfl
  have last : progress.onLast = generator.onLastRead sections := by
    funext severity message
    rw [Progress.onLast, onLastRead, account.last, Option.or_none]
    rfl
  have warnings : progress.warnings.toList =
      (generator.calls sections).flatMap (Call.warnings generator) := account.warnings
  have error : progress.error = (generator.calls sections).getLast?.bind (Call.error? generator) :=
    account.error
  rw [close, closed, last, warnings, error]
  unfold Finish.text Finish.complaint?
  cases (generator.closing sections).output with
  | ok text => simp
  | error crash => simp [message_fault]

/-! ## Making the calls visible -/

/-- A call to a generator. -/
inductive Event where
  | executed (command : Command)
  | finished
deriving Repr, DecidableEq

/-- A generator that writes down the calls made to it.  It behaves like the given
one, but when it is asked for the text it also warns, last of all, of the calls
so far. -/
def recorded (generator : Generator σ) (write : List Event → String) :
    Generator (σ × List Event) where
  target := generator.target
  initial := (generator.initial, [])
  execute := fun state command =>
    let step := generator.execute state.1 command
    { state := (step.state, state.2 ++ [.executed command])
      warnings := step.warnings
      verdict := step.verdict }
  finish := fun state =>
    let closing := generator.finish state.1
    { state := (closing.state, state.2 ++ [.finished])
      warnings := closing.warnings ++ [write (state.2 ++ [.finished])]
      output := closing.output }

namespace Progress

/-- The same progress of a generator that has written down some calls. -/
def withEvents (progress : Progress σ) (events : List Event) : Progress (σ × List Event) where
  state := (progress.state, events)
  warnings := progress.warnings
  error := progress.error
  last := progress.last

end Progress

/-- A line with a command is written down as one call. -/
theorem advance_recorded (found : Command.ofLine? line.text = some command)
    (write : List Event → String) (progress : Progress σ) (events : List Event) :
    (generator.recorded write).advance (progress.withEvents events) line =
      (generator.advance progress line).withEvents (events ++ [.executed command]) := by
  simp only [advance, found, recorded, Progress.withEvents, Progress.visit]
  cases verdict : (generator.execute progress.state command).verdict <;> rfl

/-- Reading writes down its calls and changes nothing else. -/
theorem read_recorded (generator : Generator σ) (write : List Event → String)
    {progress : Progress σ} (running : progress.error = none) (events : List Event)
    (lines : List SourceLine) :
    (generator.recorded write).read (progress.withEvents events) lines =
      (generator.read progress lines).withEvents
        (events ++ (generator.callsFrom progress.state lines).map fun call =>
          .executed call.command) := by
  induction lines generalizing progress events with
  | nil =>
      rw [read, read]
      exact congrArg progress.withEvents (List.append_nil events).symm
  | cons line rest ih =>
      have alsoRunning : (progress.withEvents events).error = none := running
      cases found : Command.ofLine? line.text with
      | none =>
          rw [callsFrom_cons_none found, read_of_none alsoRunning found, read_of_none running found]
          exact @ih (progress.visit line) running events
      | some command =>
          have alike : Call.ends (generator.recorded write)
              ⟨line, command, (progress.withEvents events).state⟩ =
                Call.ends generator ⟨line, command, progress.state⟩ := rfl
          rw [callsFrom_cons_some found]
          cases ends : Call.ends generator ⟨line, command, progress.state⟩ with
          | true =>
              rw [read_of_ends alsoRunning found (alike.trans ends), read_of_ends running found ends,
                advance_recorded found]
              rfl
          | false =>
              rcases read_of_goesOn running found ends rest with ⟨still, reading⟩
              have later := ih still (events ++ [.executed command])
              rw [List.append_assoc, state_advance running found] at later
              rw [(read_of_goesOn alsoRunning found (alike.trans ends) rest).2, reading,
                advance_recorded found]
              exact later

/-- Asking for the text is written down and changes nothing else. -/
theorem close_recorded (generator : Generator σ) (write : List Event → String)
    (progress : Progress σ) (events : List Event) :
    (generator.recorded write).close (progress.withEvents events) =
      { generator.close progress with
        warnings := (generator.close progress).warnings ++
          [progress.onLast .warning (write (events ++ [.finished]))] } := by
  simp only [close, recorded, Progress.withEvents, List.map_append, List.map_singleton]
  cases (generator.finish progress.state).output with
  | ok text =>
      rw [← List.append_assoc]
      rfl
  | error crash =>
      rw [← List.append_assoc]
      rfl

/-- A run makes its calls one after the other, and then asks for the text once. -/
theorem run_recorded (generator : Generator σ) (write : List Event → String)
    (sections : List Section) :
    ∃ remark : Diagnostic,
      remark.message = write ((generator.calls sections).map (fun call => .executed call.command) ++
        [.finished]) ∧
      (generator.recorded write).run sections =
        { generator.run sections with
          warnings := (generator.run sections).warnings ++ [remark] } := by
  let start : Progress σ := { state := generator.initial }
  let progress := generator.read start (sections.flatMap Section.lines)
  let events := (generator.calls sections).map fun call => Event.executed call.command
  have reading : (generator.recorded write).read (start.withEvents [])
      (sections.flatMap Section.lines) = progress.withEvents events :=
    @read_recorded _ generator write start rfl [] (sections.flatMap Section.lines)
  refine ⟨progress.onLast .warning (write (events ++ [.finished])), ?_, ?_⟩
  · unfold Progress.onLast
    split <;> rfl
  · have closing := generator.close_recorded write progress events
    rw [← reading] at closing
    exact closing

/-- A run calls a generator for the lines that hold a command, in order, up to and
including the first call that fails or crashes, and then asks it for the text
once.  The errors are that of the last call, if it has one, and one more if there
was no text.  The warnings are those given during the calls, in order, with one
more behind each call whose key names no command, and at the end those given when
the text was asked for.  The run succeeds if there are no errors. -/
theorem run_accounts_for_calls (generator : Generator σ) (sections : List Section) :
    (∃ later, commanded (sections.flatMap Section.lines) =
        (generator.calls sections).map (fun call => (call.line, call.command)) ++ later ∧
      (later ≠ [] → ∃ last, (generator.calls sections).getLast? = some last ∧
        last.ends generator = true)) ∧
    (∀ call ∈ (generator.calls sections).dropLast, call.ends generator = false) ∧
    (∀ write, ∃ remark : Diagnostic,
      remark.message = write ((generator.calls sections).map (fun call => .executed call.command) ++
        [.finished]) ∧
      (generator.recorded write).run sections =
        { generator.run sections with
          warnings := (generator.run sections).warnings ++ [remark] }) ∧
    (∃ late, (generator.run sections).errors =
        ((generator.calls sections).getLast?.bind (Call.error? generator)).toList ++ late ∧
      late.map (fun error => (error.severity, error.message)) =
        (generator.closing sections).complaint?.toList.map fun message =>
          (Severity.error, message)) ∧
    (generator.run sections).output = (generator.closing sections).text ∧
    (∃ late, (generator.run sections).warnings =
        (generator.calls sections).flatMap (Call.warnings generator) ++ late ∧
      late.map (fun warning => (warning.severity, warning.message)) =
        (generator.closing sections).warnings.map fun message => (Severity.warning, message)) ∧
    ((generator.run sections).success = true ↔ (generator.run sections).errors = []) := by
  have placed : ∀ severity message,
      (generator.onLastRead sections severity message).severity = severity ∧
        (generator.onLastRead sections severity message).message = message := by
    intro severity message
    unfold onLastRead
    split <;> exact ⟨rfl, rfl⟩
  refine ⟨?_, forall_mem_dropLast_upTo _ _, fun write => generator.run_recorded write sections,
    ?_, ?_, ?_, List.isEmpty_iff⟩
  · rcases exists_append_upTo (Call.ends generator)
      (generator.attempts generator.initial (commanded (sections.flatMap Section.lines))) with
      ⟨later, parts, cut⟩
    refine ⟨later.map fun call => (call.line, call.command), ?_, fun nonempty => ?_⟩
    · rw [← List.map_append]
      exact (generator.map_attempts generator.initial _).symm.trans (congrArg _ parts)
    · exact cut fun empty => nonempty (congrArg _ empty)
  · rw [run_eq_account]
    refine ⟨_, rfl, ?_⟩
    cases (generator.closing sections).complaint? with
    | none => rfl
    | some message => simp [placed]
  · rw [run_eq_account]
  · rw [run_eq_account]
    refine ⟨_, rfl, ?_⟩
    simp [placed]

end Generator
end Pagewright
