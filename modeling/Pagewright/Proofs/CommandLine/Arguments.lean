import Mathlib.Data.List.TakeWhile
import Pagewright.CommandLine.Arguments

namespace Pagewright
namespace CommandLine

/-!
# Adding an option

Options may stand anywhere, so a command line can be changed by adding an option
at its end, unless two hyphens end the options before.  That this is so is a fact
about reading from left to right: what was given so far is all that reading
remembers, and an argument at the end finds what the whole line in front of it
gave.

What happens on the way is stated as a relation, with one case for each kind of
argument.  It also tells where values come from: one that looks like an option
itself is never the next argument, and so stands in the argument of its option.
-/

/-! ## One argument -/

/-- What an argument asks for. -/
inductive Demand where
  | stop (reason : Stop)
  | flag (name : String)
  | value (option : ValueOption) (attached : Option String)
  | path
deriving Repr, DecidableEq

/-- What a long option asks for. -/
def demandLong (shape : Shape) (name : String) (attached : Option String) : Demand :=
  if attached.isNone && name = "help" then
    .stop .help
  else if attached.isNone && shape.flags.contains name then
    .flag name
  else
    match shape.options.find? fun option => option.name = name with
    | some option => .value option attached
    | none => .stop .misuse

/-- What a letter asks for, with the text behind it. -/
def demandShort (shape : Shape) (letter : Char) (text : List Char) : Demand :=
  if letter = 'h' then
    .stop .help
  else
    match shape.options.find? fun option => option.letter = some letter with
    | some option => .value option (attachedValue? text)
    | none => .stop .misuse

/-- What an argument asks for in a command of the given shape. -/
def demand (shape : Shape) (argument : String) : Demand :=
  match argument.toList with
  | '-' :: '-' :: text => demandLong shape (splitLong text).1 (splitLong text).2
  | '-' :: letter :: text => demandShort shape letter text
  | _ => .path

/-- Give an option the value in the next argument. -/
def takeNext (shape : Shape) (given : Given) (option : ValueOption) :
    List String → Except Stop Given
  | [] => .error .misuse
  | value :: rest =>
      if looksLikeOption value then .error .misuse
      else (given.addValue option value).bind (readArguments shape · rest)

/-- Meet a demand and read on. -/
def meet (shape : Shape) (given : Given) (argument : String) (rest : List String) :
    Demand → Except Stop Given
  | .stop reason => .error reason
  | .flag name => (given.addFlag name).bind (readArguments shape · rest)
  | .value option (some value) => (given.addValue option value).bind (readArguments shape · rest)
  | .value option none => takeNext shape given option rest
  | .path => (given.addPath argument).bind (readArguments shape · rest)

theorem demand_long {argument : String} {text : List Char}
    (long : argument.toList = '-' :: '-' :: text) (shape : Shape) :
    demand shape argument = demandLong shape (splitLong text).1 (splitLong text).2 := by
  rw [demand, long]
  rfl

theorem demand_short {argument : String} {letter : Char} {text : List Char}
    (short : argument.toList = '-' :: letter :: text) (single : letter ≠ '-') (shape : Shape) :
    demand shape argument = demandShort shape letter text := by
  unfold demand
  rw [short]
  split
  case h_1 same =>
      rcases List.cons.inj (List.cons.inj same).2 with ⟨hyphen, -⟩
      exact absurd hyphen single
  case h_2 same =>
      rcases List.cons.inj (List.cons.inj same).2 with ⟨rfl, rfl⟩
      rfl
  case h_3 neither => exact absurd rfl (neither letter text)

theorem demand_path {argument : String}
    (single : ∀ letter text, argument.toList ≠ '-' :: letter :: text) (shape : Shape) :
    demand shape argument = .path := by
  unfold demand
  split
  case h_1 text long => exact absurd long (single '-' text)
  case h_2 letter text _ short => exact absurd short (single letter text)
  case h_3 => rfl

/-- An argument holds an option and its value. -/
inductive Attaches (option : ValueOption) (value : String) : String → Prop
  | long : Attaches option value ("--" ++ option.name ++ "=" ++ value)
  | short {letter : Char} (named : option.letter = some letter) :
      Attaches option value ("-" ++ String.singleton letter ++ value)
  | shortWithSign {letter : Char} (named : option.letter = some letter) :
      Attaches option value ("-" ++ String.singleton letter ++ "=" ++ value)

theorem Attaches.startsWithHyphen {option : ValueOption} {value argument : String}
    (attaches : Attaches option value argument) : argument.toList.head? = some '-' := by
  cases attaches with
  | long => simp
  | short => simp
  | shortWithSign => simp

theorem splitLong_eq {text : List Char} {value : String} (found : (splitLong text).2 = some value) :
    text = (splitLong text).1.toList ++ '=' :: value.toList := by
  have parts := List.takeWhile_append_dropWhile (p := (· != '=')) (l := text)
  have stop := List.head?_dropWhile_not (· != '=') text
  unfold splitLong at found ⊢
  cases dropped : text.dropWhile (· != '=') with
  | nil =>
      rw [dropped] at found
      cases found
  | cons c rest =>
      rw [dropped] at found parts stop
      cases found
      have equals : c = '=' := by simpa using stop
      rw [equals] at parts
      simp only [String.toList_ofList]
      exact parts.symm

theorem attachedValue?_eq {text : List Char} {value : String} (found : attachedValue? text = some value) :
    text = value.toList ∨ text = '=' :: value.toList := by
  unfold attachedValue? at found
  split at found
  case h_1 => cases found
  case h_2 rest =>
      cases found
      right
      rw [String.toList_ofList]
  case h_3 =>
      cases found
      left
      rw [String.toList_ofList]

theorem attaches_of_demandLong {shape : Shape} {argument value : String} {text : List Char}
    {option : ValueOption} (long : argument.toList = '-' :: '-' :: text)
    (asked : demandLong shape (splitLong text).1 (splitLong text).2 = .value option (some value)) :
    option ∈ shape.options ∧ Attaches option value argument := by
  unfold demandLong at asked
  split at asked
  case isTrue => cases asked
  case isFalse =>
      split at asked
      case isTrue => cases asked
      case isFalse =>
          split at asked
          case h_1 chosen found =>
              rcases Demand.value.inj asked with ⟨rfl, attached⟩
              have name := List.find?_some found
              rw [decide_eq_true_eq] at name
              have whole : argument = "--" ++ chosen.name ++ "=" ++ value := by
                rw [← String.toList_inj, long, splitLong_eq attached, ← name]
                simp
              rw [whole]
              exact ⟨List.mem_of_find?_eq_some found, .long⟩
          case h_2 => cases asked

theorem attaches_of_demandShort {shape : Shape} {argument value : String} {letter : Char}
    {text : List Char} {option : ValueOption} (short : argument.toList = '-' :: letter :: text)
    (asked : demandShort shape letter text = .value option (some value)) :
    option ∈ shape.options ∧ Attaches option value argument := by
  unfold demandShort at asked
  split at asked
  case isTrue => cases asked
  case isFalse =>
      split at asked
      case h_1 found =>
          rcases Demand.value.inj asked with ⟨rfl, attached⟩
          have named := List.find?_some found
          rw [decide_eq_true_eq] at named
          refine ⟨List.mem_of_find?_eq_some found, ?_⟩
          rcases attachedValue?_eq attached with rfl | rfl
          · have whole : argument = "-" ++ String.singleton letter ++ value := by
              rw [← String.toList_inj, short]
              simp
            rw [whole]
            exact .short named
          · have whole : argument = "-" ++ String.singleton letter ++ "=" ++ value := by
              rw [← String.toList_inj, short]
              simp
            rw [whole]
            exact .shortWithSign named
      case h_2 => cases asked

/-- An argument that gives an option of a command its value holds both. -/
theorem attaches_of_demand {shape : Shape} {argument value : String} {option : ValueOption}
    (asked : demand shape argument = .value option (some value)) :
    option ∈ shape.options ∧ Attaches option value argument := by
  unfold demand at asked
  split at asked
  case h_1 text long => exact attaches_of_demandLong long asked
  case h_2 letter text single short => exact attaches_of_demandShort short asked
  case h_3 => cases asked

/-- Reading takes one argument, or two where the second is a value. -/
theorem readArguments_cons (shape : Shape) (given : Given) {argument : String}
    (different : argument ≠ "--") (rest : List String) :
    readArguments shape given (argument :: rest) =
      meet shape given argument rest (demand shape argument) := by
  rw [readArguments.eq_3 shape given argument rest different]
  split
  case h_1 text long =>
      rw [demand_long long]
      dsimp only
      generalize (splitLong text).1 = name
      generalize (splitLong text).2 = attached
      unfold demandLong
      split
      case isTrue => rfl
      case isFalse =>
          split
          case isTrue => rfl
          case isFalse =>
              cases shape.options.find? fun option => option.name = name with
              | none => rfl
              | some option =>
                  cases attached with
                  | some value => rfl
                  | none => cases rest <;> rfl
  case h_2 letter text single short =>
      rw [demand_short short single]
      dsimp only
      unfold demandShort
      generalize attachedValue? text = attached
      split
      case isTrue => rfl
      case isFalse =>
          cases shape.options.find? fun option => option.letter = some letter with
          | none => rfl
          | some option =>
              cases attached with
              | some value => rfl
              | none => cases rest <;> rfl
  case h_3 notLong notShort =>
      have single : ∀ letter text, argument.toList ≠ '-' :: letter :: text := by
        intro letter text same
        by_cases hyphen : letter = '-'
        · exact notLong text (hyphen ▸ same)
        · exact notShort letter text same
      rw [demand_path single]
      rfl

/-! ## All arguments -/

namespace Given

variable {given next : Given}

theorem values_of_addPath {path : String} (added : given.addPath path = .ok next) :
    next.values = given.values := by
  unfold addPath at added
  split at added
  case isTrue =>
      cases added
      rfl
  case isFalse => cases added

theorem values_of_addPaths {paths : List String} (added : paths.foldlM addPath given = .ok next) :
    next.values = given.values := by
  induction paths generalizing given with
  | nil =>
      cases added
      rfl
  | cons path paths ih =>
      rw [List.foldlM_cons] at added
      cases first : given.addPath path with
      | error stop =>
          rw [first] at added
          cases added
      | ok between =>
          rw [first] at added
          exact (ih added).trans (values_of_addPath first)

theorem values_of_addFlag {name : String} (added : given.addFlag name = .ok next) :
    next.values = given.values := by
  unfold addFlag at added
  split at added
  case isTrue => cases added
  case isFalse =>
      cases added
      rfl

theorem values_of_addValue {option : ValueOption} {value : String}
    (added : given.addValue option value = .ok next) :
    next.values = (option.name, value) :: given.values := by
  unfold addValue at added
  split at added
  case isTrue => cases added
  case isFalse =>
      split at added
      case isTrue => cases added
      case isFalse =>
          cases added
          rfl

end Given

/-- Arguments are read to their end, from what was given so far to what is given
with them. -/
inductive Reads (shape : Shape) (done : Given) : Given → List String → Prop
  | nothing : Reads shape done done []
  | paths {given : Given} {paths : List String}
      (added : paths.foldlM Given.addPath given = .ok done) :
      Reads shape done given ("--" :: paths)
  | flag {given next : Given} {argument name : String} {rest : List String}
      (asked : demand shape argument = .flag name) (added : given.addFlag name = .ok next)
      (onward : Reads shape done next rest) : Reads shape done given (argument :: rest)
  | path {given next : Given} {argument : String} {rest : List String}
      (asked : demand shape argument = .path) (added : given.addPath argument = .ok next)
      (onward : Reads shape done next rest) : Reads shape done given (argument :: rest)
  | attached {given next : Given} {argument value : String} {option : ValueOption}
      {rest : List String} (asked : demand shape argument = .value option (some value))
      (added : given.addValue option value = .ok next)
      (onward : Reads shape done next rest) : Reads shape done given (argument :: rest)
  | following {given next : Given} {argument value : String} {option : ValueOption}
      {rest : List String} (asked : demand shape argument = .value option none)
      (harmless : looksLikeOption value = false) (added : given.addValue option value = .ok next)
      (onward : Reads shape done next rest) : Reads shape done given (argument :: value :: rest)

theorem reads_of_readArguments {shape : Shape} {given done : Given} {arguments : List String}
    (read : readArguments shape given arguments = .ok done) : Reads shape done given arguments := by
  induction counted : arguments.length using Nat.strongRecOn generalizing given arguments with
  | ind size ih =>
      cases arguments with
      | nil =>
          rw [readArguments] at read
          cases read
          exact .nothing
      | cons argument rest =>
          by_cases ended : argument = "--"
          case pos =>
              subst ended
              rw [readArguments.eq_2] at read
              exact .paths read
          case neg =>
              -- Every demand that is met goes on with a shorter list.
              have onward : ∀ {result : Except Stop Given} {shorter : List String},
                  shorter.length < size →
                  (result.bind (readArguments shape · shorter)) = .ok done →
                  ∃ next, result = .ok next ∧ Reads shape done next shorter := by
                intro result shorter less continued
                cases result with
                | error stop => cases continued
                | ok next => exact ⟨next, rfl, ih shorter.length less continued rfl⟩
              have less : rest.length < size := by
                rw [← counted]
                exact Nat.lt_succ_self _
              rw [readArguments_cons shape given ended] at read
              cases asked : demand shape argument with
              | stop reason =>
                  rw [asked] at read
                  cases read
              | flag name =>
                  rw [asked] at read
                  rcases onward less read with ⟨next, added, later⟩
                  exact .flag asked added later
              | path =>
                  rw [asked] at read
                  rcases onward less read with ⟨next, added, later⟩
                  exact .path asked added later
              | value option attached =>
                  rw [asked] at read
                  cases attached with
                  | some value =>
                      rcases onward less read with ⟨next, added, later⟩
                      exact .attached asked added later
                  | none =>
                      cases rest with
                      | nil => cases read
                      | cons value rest =>
                          rw [meet, takeNext] at read
                          split at read
                          case isTrue => cases read
                          case isFalse harmless =>
                              rcases onward (Nat.lt_of_succ_lt less) read with ⟨next, added, later⟩
                              exact .following asked (Bool.eq_false_iff.mpr harmless) added later

namespace Reads

variable {shape : Shape} {given done : Given} {arguments : List String}

/-- Reading a longer line goes on from what its beginning gave. -/
theorem readArguments_append (reads : Reads shape done given arguments) (unended : "--" ∉ arguments)
    (more : List String) :
    readArguments shape given (arguments ++ more) = readArguments shape done more := by
  induction reads with
  | nothing => rw [List.nil_append]
  | paths added => exact absurd List.mem_cons_self unended
  | flag asked added onward ih | path asked added onward ih | attached asked added onward ih =>
      rcases List.ne_and_not_mem_of_not_mem_cons unended with ⟨different, later⟩
      rw [List.cons_append, readArguments_cons shape _ different.symm, asked, meet, added]
      exact ih later
  | following asked harmless added onward ih =>
      rcases List.ne_and_not_mem_of_not_mem_cons unended with ⟨different, later⟩
      rw [List.cons_append, readArguments_cons shape _ different.symm, asked, meet, List.cons_append,
        takeNext, harmless, if_neg Bool.false_ne_true, added]
      exact ih (List.not_mem_of_not_mem_cons later)

/-- A value that looks like an option stands in the argument that asks for it. -/
theorem exists_attached (reads : Reads shape done given arguments) {name value : String}
    (present : (name, value) ∈ done.values) (alike : looksLikeOption value = true) :
    (name, value) ∈ given.values ∨
      ∃ argument ∈ arguments, ∃ option ∈ shape.options, Attaches option value argument := by
  induction reads with
  | nothing => exact .inl present
  | paths added =>
      left
      rwa [Given.values_of_addPaths added] at present
  | flag asked added onward ih =>
      rcases ih with before | ⟨argument, member, attaches⟩
      · left
        rwa [Given.values_of_addFlag added] at before
      · exact .inr ⟨argument, List.mem_cons_of_mem _ member, attaches⟩
  | path asked added onward ih =>
      rcases ih with before | ⟨argument, member, attaches⟩
      · left
        rwa [Given.values_of_addPath added] at before
      · exact .inr ⟨argument, List.mem_cons_of_mem _ member, attaches⟩
  | attached asked added onward ih =>
      rcases ih with before | ⟨argument, member, attaches⟩
      · rw [Given.values_of_addValue added] at before
        cases before with
        | head =>
            rcases attaches_of_demand asked with ⟨known, attaches⟩
            exact .inr ⟨_, List.mem_cons_self, _, known, attaches⟩
        | tail _ before => exact .inl before
      · exact .inr ⟨argument, List.mem_cons_of_mem _ member, attaches⟩
  | following asked harmless added onward ih =>
      rcases ih with before | ⟨argument, member, attaches⟩
      · rw [Given.values_of_addValue added] at before
        cases before with
        | head =>
            rw [harmless] at alike
            cases alike
        | tail _ before => exact .inl before
      · exact .inr ⟨argument, List.mem_cons_of_mem _ (List.mem_cons_of_mem _ member), attaches⟩

end Reads

/-! ## The output of a run -/

/-- The option for the output of a run. -/
def outputOption : ValueOption :=
  { name := "output", letter := some 'o', repeatable := false, mayBeEmpty := false }

theorem demand_output : demand runShape "-o" = .value outputOption none := by decide

/-- A path behind the letter for the output is taken as such. -/
theorem readArguments_output {given : Given} (unset : given.value? "output" = none) {path : String}
    (nonempty : path ≠ "") (harmless : looksLikeOption path = false) :
    readArguments runShape given ["-o", path] =
      .ok { given with values := ("output", path) :: given.values } := by
  have added : given.addValue outputOption path =
      .ok { given with values := ("output", path) :: given.values } := by
    have filled : path.isEmpty = false := by
      rw [Bool.eq_false_iff, ne_eq, String.isEmpty_iff]
      exact nonempty
    have first : given.values.lookup outputOption.name = none := unset
    unfold Given.addValue
    rw [first, filled]
    rfl
  rw [readArguments_cons runShape given (by decide), demand_output, meet, takeNext, harmless,
    if_neg Bool.false_ne_true, added]
  rfl

/-- The values that are given decide about nothing but themselves. -/
theorem runTask_values {given : Given} {task : Task} (made : runTask given = .ok task) :
    ∃ file format, ∀ values, runTask { given with values := values } =
      .ok (.run ⟨file, format, values.lookup "output", values.lookup "config"⟩) := by
  unfold runTask at made ⊢
  cases found : requiredPath given with
  | error stop =>
      rw [found] at made
      cases made
  | ok file =>
      have same : ∀ values, requiredPath { given with values := values } = .ok file :=
        fun _ => found
      cases json : given.flags.contains "json" with
      | true =>
          cases html : given.flags.contains "html-only" with
          | true =>
              rw [found, json, html] at made
              cases made
          | false =>
              refine ⟨file, .json, fun values => ?_⟩
              rw [same, json, html]
              rfl
      | false =>
          cases html : given.flags.contains "html-only" with
          | true =>
              refine ⟨file, .html, fun values => ?_⟩
              rw [same, json, html]
              rfl
          | false =>
              refine ⟨file, .document, fun values => ?_⟩
              rw [same, json, html]
              rfl

/-- A run with an output is the run without it, apart from the output. -/
theorem runTask_output {given : Given} {options : RunOptions}
    (made : runTask given = .ok (.run options)) :
    given.value? "output" = options.output ∧
      ∀ path, runTask { given with values := ("output", path) :: given.values } =
        .ok (.run { options with output := some path }) := by
  rcases runTask_values made with ⟨file, format, tasks⟩
  have own : options = ⟨file, format, given.value? "output", given.value? "config"⟩ :=
    Task.run.inj (Except.ok.inj (made.symm.trans (tasks given.values)))
  refine ⟨by rw [own], fun path => ?_⟩
  rw [tasks, own]
  rfl

/-! ## Whole command lines -/

theorem finish_eq_ok_iff {shape : Shape} {make : Given → Except Stop Task} {arguments : List String}
    {task : Task} {plain : Bool} :
    readCommand.finish arguments shape make = .ok (task, plain) ↔
      ∃ given, readArguments shape {} arguments = .ok given ∧ make given = .ok task ∧
        given.flags.contains plainFlag = plain := by
  unfold readCommand.finish
  constructor
  · intro reads
    cases read : readArguments shape {} arguments with
    | error stop =>
        rw [read] at reads
        cases reads
    | ok given =>
        cases made : make given with
        | error stop =>
            simp only [read, bind, Except.bind, made] at reads
            cases reads
        | ok found =>
            simp only [read, bind, Except.bind, made] at reads
            cases reads
            exact ⟨given, rfl, made, rfl⟩
  · rintro ⟨given, read, made, flag⟩
    simp only [read, bind, Except.bind, made, ← flag]
    rfl

theorem testTask_eq_ok_iff {given : Given} {task : Task} :
    testTask given = .ok task ↔ ∃ path, requiredPath given = .ok path ∧
      .test ⟨path, given.valuesOf "category", given.flags.contains "list-categories"⟩ = task := by
  unfold testTask
  cases requiredPath given with
  | error stop => simp [bind, Except.bind]
  | ok path => simp [bind, Except.bind, pure, Except.pure]

theorem detectTask_eq_ok_iff {given : Given} {task : Task} :
    detectTask given = .ok task ↔ ∃ path, requiredPath given = .ok path ∧ .detect path = task := by
  unfold detectTask
  cases requiredPath given with
  | error stop => simp [bind, Except.bind]
  | ok path => simp [bind, Except.bind, pure, Except.pure]

/-- Only the command to run a source makes a task of that kind. -/
theorem readCommand_run {name : String} {arguments : List String} {options : RunOptions}
    {plain : Bool} (reads : readCommand name arguments = .ok (.run options, plain)) :
    name = "run" ∧ ∃ given, readArguments runShape {} arguments = .ok given ∧
      runTask given = .ok (.run options) ∧ given.flags.contains plainFlag = plain := by
  unfold readCommand at reads
  split at reads
  case h_1 => exact ⟨rfl, finish_eq_ok_iff.mp reads⟩
  case h_2 =>
      rcases finish_eq_ok_iff.mp reads with ⟨given, -, made, -⟩
      rcases testTask_eq_ok_iff.mp made with ⟨path, -, different⟩
      cases different
  case h_3 =>
      rcases finish_eq_ok_iff.mp reads with ⟨given, -, made, -⟩
      rcases detectTask_eq_ok_iff.mp made with ⟨path, -, different⟩
      cases different
  case h_4 =>
      split at reads
      case isTrue => cases reads
      case isFalse => cases reads
  case h_5 => cases reads

/-- Only the command to run tests makes a task of that kind. -/
theorem readCommand_test {name : String} {arguments : List String} {options : TestOptions}
    {plain : Bool} (reads : readCommand name arguments = .ok (.test options, plain)) :
    ∃ given, readArguments testShape {} arguments = .ok given ∧
      testTask given = .ok (.test options) := by
  unfold readCommand at reads
  split at reads
  case h_1 =>
      rcases finish_eq_ok_iff.mp reads with ⟨given, -, made, -⟩
      rcases runTask_values made with ⟨file, format, tasks⟩
      cases made.symm.trans (tasks given.values)
  case h_2 =>
      rcases finish_eq_ok_iff.mp reads with ⟨given, read, made, -⟩
      exact ⟨given, read, made⟩
  case h_3 =>
      rcases finish_eq_ok_iff.mp reads with ⟨given, -, made, -⟩
      rcases detectTask_eq_ok_iff.mp made with ⟨path, -, different⟩
      cases different
  case h_4 =>
      split at reads
      case isTrue => cases reads
      case isFalse => cases reads
  case h_5 => cases reads

/-- What the first argument of a line decides, it decides without the rest. -/
theorem readNamed_cases (before : Bool) (argument : String) :
    (∃ stop, ∀ rest, readNamed before (argument :: rest) = .error stop) ∨
    (argument.toList.head? = some '-' ∧
      ∀ rest, readNamed before (argument :: rest) = readNamed true rest) ∨
    ∀ rest, readNamed before (argument :: rest) =
      (readCommand argument rest).map fun (task, given) => (task, before || given) := by
  simp only [readNamed.eq_2]
  generalize argument.toList = characters
  split
  case h_1 text =>
      split
      case isTrue => exact .inr (.inl ⟨rfl, fun _ => rfl⟩)
      case isFalse =>
          split
          case isTrue => exact .inl ⟨_, fun _ => rfl⟩
          case isFalse =>
              split
              case isTrue => exact .inl ⟨_, fun _ => rfl⟩
              case isFalse => exact .inl ⟨_, fun _ => rfl⟩
  case h_2 => exact .inl ⟨_, fun _ => rfl⟩
  case h_3 => exact .inl ⟨_, fun _ => rfl⟩
  case h_4 => exact .inr (.inr fun _ => rfl)

/-- A line with a task names its command. -/
theorem exists_command_of_readNamed {before plain : Bool} {arguments : List String} {task : Task}
    (reads : readNamed before arguments = .ok (task, plain)) :
    ∃ name rest flag, name :: rest <:+ arguments ∧ readCommand name rest = .ok (task, flag) := by
  induction arguments generalizing before with
  | nil => cases reads
  | cons argument rest ih =>
      rcases readNamed_cases before argument with ⟨stop, stops⟩ | ⟨-, skips⟩ | names
      · rw [stops] at reads
        cases reads
      · rw [skips] at reads
        rcases ih reads with ⟨name, later, flag, within, command⟩
        exact ⟨name, later, flag, within.trans (List.suffix_cons argument rest), command⟩
      · rw [names] at reads
        cases command : readCommand argument rest with
        | error stop =>
            rw [command] at reads
            cases reads
        | ok found =>
            rcases found with ⟨made, flag⟩
            rw [command] at reads
            cases reads
            exact ⟨argument, rest, flag, List.suffix_rfl, command⟩

section Output

variable {options : RunOptions} {plain : Bool} {path : String}

theorem readCommand_output {name : String} {arguments : List String}
    (reads : readCommand name arguments = .ok (.run options, plain))
    (unset : options.output = none) (unended : "--" ∉ arguments) (nonempty : path ≠ "")
    (harmless : looksLikeOption path = false) :
    readCommand name (arguments ++ ["-o", path]) =
      .ok (.run { options with output := some path }, plain) := by
  rcases readCommand_run reads with ⟨rfl, given, read, made, flag⟩
  rcases runTask_output made with ⟨value, tasks⟩
  refine finish_eq_ok_iff.mpr
    ⟨{ given with values := ("output", path) :: given.values }, ?_, tasks path, flag⟩
  rw [(reads_of_readArguments read).readArguments_append unended, readArguments_output (value.trans unset) nonempty harmless]

theorem readNamed_output {before : Bool} {arguments : List String}
    (reads : readNamed before arguments = .ok (.run options, plain))
    (unset : options.output = none) (unended : "--" ∉ arguments) (nonempty : path ≠ "")
    (harmless : looksLikeOption path = false) :
    readNamed before (arguments ++ ["-o", path]) =
      .ok (.run { options with output := some path }, plain) := by
  induction arguments generalizing before with
  | nil => cases reads
  | cons argument rest ih =>
      have later : "--" ∉ rest := List.not_mem_of_not_mem_cons unended
      rw [List.cons_append]
      rcases readNamed_cases before argument with ⟨stop, stops⟩ | ⟨-, skips⟩ | names
      · rw [stops] at reads
        cases reads
      · rw [skips] at reads ⊢
        exact ih reads later
      · rw [names] at reads ⊢
        cases read : readCommand argument rest with
        | error stop =>
            rw [read] at reads
            cases reads
        | ok found =>
            rcases found with ⟨task, flag⟩
            rw [read] at reads
            cases reads
            rw [readCommand_output read unset later nonempty harmless]
            rfl

/-- A line with a task has an argument that is no option. -/
theorem exists_name_of_readNamed {before : Bool} {arguments : List String}
    (reads : readNamed before arguments = .ok (.run options, plain)) :
    ∃ argument ∈ arguments, argument.toList.head? ≠ some '-' := by
  rcases exists_command_of_readNamed reads with ⟨name, rest, flag, within, command⟩
  refine ⟨name, within.subset List.mem_cons_self, ?_⟩
  rw [(readCommand_run command).1]
  decide

end Output

def startsWithHyphen (argument : String) : Bool :=
  argument.toList.head? = some '-'

theorem withCommand_eq (arguments : List String) :
    withCommand arguments =
      match arguments.dropWhile startsWithHyphen with
      | [] => arguments
      | first :: _ =>
          if commandNames.contains first then arguments
          else arguments.takeWhile startsWithHyphen ++
            "run" :: arguments.dropWhile startsWithHyphen := rfl

theorem mem_withCommand {argument : String} {arguments : List String}
    (member : argument ∈ withCommand arguments) : argument ∈ arguments ∨ argument = "run" := by
  rw [withCommand_eq] at member
  split at member
  case h_1 => exact .inl member
  case h_2 =>
      split at member
      case isTrue => exact .inl member
      case isFalse =>
          rcases List.mem_append.mp member with before | after
          · exact .inl ((List.takeWhile_sublist _).subset before)
          · rcases List.mem_cons.mp after with named | behind
            · exact .inr named
            · exact .inl ((List.dropWhile_sublist _).subset behind)

/-- The command of a line is looked for at its first argument that is no
option. -/
theorem withCommand_append {front : List String} {first : String}
    (options : ∀ argument ∈ front, startsWithHyphen argument = true)
    (named : ¬startsWithHyphen first = true) (back : List String) :
    withCommand (front ++ first :: back) =
      if commandNames.contains first then front ++ first :: back
      else front ++ "run" :: first :: back := by
  rw [withCommand_eq, List.dropWhile_append_of_pos options, List.takeWhile_append_of_pos options,
    List.dropWhile_cons_of_neg named, List.takeWhile_cons_of_neg named, List.append_nil]

/-- A line that is read as a run has options, and then an argument that is
none. -/
theorem exists_first_of_read {arguments : List String} {options : RunOptions} {plain : Bool}
    (reads : read arguments = .ok (.run options, plain)) :
    ∃ front first back, arguments = front ++ first :: back ∧
      (∀ argument ∈ front, startsWithHyphen argument = true) ∧ ¬startsWithHyphen first = true := by
  cases dropped : arguments.dropWhile startsWithHyphen with
  | nil =>
      have unchanged : withCommand arguments = arguments := by
        rw [withCommand_eq, dropped]
      rw [read, unchanged] at reads
      rcases exists_name_of_readNamed reads with ⟨argument, member, named⟩
      have option := List.dropWhile_eq_nil_iff.mp dropped argument member
      exact absurd (of_decide_eq_true option) named
  | cons first back =>
      refine ⟨arguments.takeWhile startsWithHyphen, first, back, ?_,
        fun argument => List.mem_takeWhile_imp, ?_⟩
      · rw [← dropped, List.takeWhile_append_dropWhile]
      · have nonempty : arguments.dropWhile startsWithHyphen ≠ [] := by
          rw [dropped]
          exact List.cons_ne_nil _ _
        have stopped := List.head_dropWhile_not startsWithHyphen nonempty
        simp only [dropped, List.head_cons] at stopped
        exact Bool.eq_false_iff.mp stopped

/-- Adding an output to the arguments of a run changes its output and nothing
else. -/
theorem read_output {arguments : List String} {options : RunOptions} {plain : Bool}
    (reads : read arguments = .ok (.run options, plain)) (unset : options.output = none)
    (unended : "--" ∉ arguments) {path : String} (nonempty : path ≠ "")
    (harmless : looksLikeOption path = false) :
    read (arguments ++ ["-o", path]) = .ok (.run { options with output := some path }, plain) := by
  rcases exists_first_of_read reads with ⟨front, first, back, rfl, passed, named⟩
  rw [read, withCommand_append passed named] at reads
  rw [read, List.append_assoc, List.cons_append, withCommand_append passed named]
  split at reads
  case isTrue command =>
      rw [if_pos command]
      have longer := readNamed_output reads unset unended nonempty harmless
      rwa [List.append_assoc, List.cons_append] at longer
  case isFalse file =>
      rw [if_neg file]
      have still : "--" ∉ front ++ "run" :: first :: back := by
        intro member
        rcases List.mem_append.mp member with before | after
        · exact unended (List.mem_append_left _ before)
        · exact unended (List.mem_append_right _ (List.mem_of_ne_of_mem (by decide) after))
      have longer := readNamed_output reads unset still nonempty harmless
      rwa [List.append_assoc, List.cons_append, List.cons_append] at longer

end CommandLine
end Pagewright
