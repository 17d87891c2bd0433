import Pagewright.CommandLine.Program
import Pagewright.Proofs.CommandLine.Arguments
import Pagewright.Proofs.FileTree.Paths

namespace Pagewright
namespace CommandLine

open FileTree (Leads)

/-!
# Running a source

A run reads two files at most, the source and its settings, and then does one of
two things with the result: it prints it, or it writes it to a file.  The choice
between the two comes last, so it changes neither the exit code nor what is said
about the source, and a file that is written may even be one of those that were
read.  Where reading fails the choice is never made.

Which file the settings come from depends on where the source lies and not on how
its path is spelled; this is why `Configured` speaks of places.
-/

/-! ## Loading -/

/-- The settings for the source at a path are those in the file given, or else
those in the settings file in the directory of the source, or else the default
ones. -/
inductive Configured (tree : FileTree) (file : String) : Option String → Settings → Prop
  | given {path text : String} {settings : Settings} (read : tree.readText path = .ok text)
      (valid : Settings.ofDocument text = .ok settings) :
      Configured tree file (some path) settings
  | beside {directory : List String} {own text : String} {settings : Settings}
      (leads : Leads tree file (directory ++ [own]))
      (found : tree.at? (directory ++ [settingsName]) = some (.file (.text text)))
      (valid : Settings.ofDocument text = .ok settings) : Configured tree file none settings
  | default {directory : List String} {own : String} (leads : Leads tree file (directory ++ [own]))
      (absent : ∀ content, tree.at? (directory ++ [settingsName]) ≠ some (.file content)) :
      Configured tree file none {}

/-- The source of a run can be read, and so can its settings. -/
structure Loaded (tree : FileTree) (options : RunOptions) (source : String) (settings : Settings) :
    Prop where
  source : tree.readText options.file = .ok source
  settings : Configured tree options.file options.settings settings

theorem isName_settingsName : FileTree.IsName settingsName := by decide

/-- The settings in the file at a path. -/
def settingsAt (tree : FileTree) (path : String) : Except Effect Settings :=
  match tree.readText path with
  | .error error => .error (failWith ("cannot read config '" ++ path ++ "': " ++ error.message))
  | .ok text =>
      (Settings.ofDocument text).mapError fun error => failWith (settingsMessage path error)

theorem readSettings_eq (tree : FileTree) (given : Option String) (file : String) :
    readSettings tree given file =
      match settingsPath? tree given file with
      | none => .ok {}
      | some path => settingsAt tree path := rfl

theorem settingsAt_eq_ok_iff {tree : FileTree} {path : String} {settings : Settings} :
    settingsAt tree path = .ok settings ↔
      ∃ text, tree.readText path = .ok text ∧ Settings.ofDocument text = .ok settings := by
  constructor
  · intro loaded
    unfold settingsAt at loaded
    split at loaded
    case h_1 => cases loaded
    case h_2 text read =>
        cases valid : Settings.ofDocument text with
        | error error =>
            rw [valid] at loaded
            cases loaded
        | ok found =>
            rw [valid] at loaded
            cases loaded
            exact ⟨text, read, valid⟩
  · rintro ⟨text, read, valid⟩
    rw [settingsAt, read]
    dsimp only
    rw [valid]
    rfl

/-- Settings that cannot be loaded end the run with a message. -/
theorem exists_message_of_settingsAt {tree : FileTree} {path : String} {effect : Effect}
    (failed : settingsAt tree path = .error effect) : ∃ message, effect = failWith message := by
  unfold settingsAt at failed
  split at failed
  case h_1 => exact ⟨_, (Except.error.inj failed).symm⟩
  case h_2 text read =>
      cases valid : Settings.ofDocument text with
      | error error =>
          rw [valid] at failed
          exact ⟨_, (Except.error.inj failed).symm⟩
      | ok found =>
          rw [valid] at failed
          cases failed

theorem configured_some_iff {tree : FileTree} {file path : String} {settings : Settings} :
    Configured tree file (some path) settings ↔ settingsAt tree path = .ok settings := by
  rw [settingsAt_eq_ok_iff]
  constructor
  · rintro ⟨read, valid⟩
    exact ⟨_, read, valid⟩
  · rintro ⟨text, read, valid⟩
    exact .given read valid

section Beside

variable {tree : FileTree} {file own : String} {directory : List String}

theorem isFile_beside_iff
    (beside : Leads tree (FileTree.sibling file settingsName) (directory ++ [settingsName])) :
    tree.isFile (FileTree.sibling file settingsName) = true ↔
      ∃ content, tree.at? (directory ++ [settingsName]) = some (.file content) := by
  rw [FileTree.isFile_iff]
  constructor
  · rintro ⟨place, content, found, there⟩
    rw [found.unique beside] at there
    exact ⟨content, there⟩
  · rintro ⟨content, there⟩
    exact ⟨_, content, beside, there⟩

/-- Without settings given, a source is configured by the file beside it.  In
whatever way the source was spelled, there is one such place to look at. -/
theorem configured_none_iff (leads : Leads tree file (directory ++ [own]))
    (beside : Leads tree (FileTree.sibling file settingsName) (directory ++ [settingsName]))
    {settings : Settings} :
    Configured tree file none settings ↔ readSettings tree none file = .ok settings := by
  have same : ∀ {others : List String} {other : String},
      Leads tree file (others ++ [other]) → others = directory := by
    intro others other otherLeads
    exact (List.append_inj' (otherLeads.unique leads) rfl).1
  have path : settingsPath? tree none file =
      if tree.isFile (FileTree.sibling file settingsName) then
        some (FileTree.sibling file settingsName)
      else
        none := rfl
  rw [readSettings_eq, path]
  by_cases present : tree.isFile (FileTree.sibling file settingsName) = true
  · rw [if_pos present]
    show _ ↔ settingsAt tree (FileTree.sibling file settingsName) = .ok settings
    rw [settingsAt_eq_ok_iff]
    constructor
    · intro configured
      cases configured with
      | beside otherLeads found valid =>
          rw [same otherLeads] at found
          exact ⟨_, FileTree.readText_eq_ok_iff.mpr ⟨_, beside, found⟩, valid⟩
      | default otherLeads absent =>
          rw [same otherLeads] at absent
          rcases (isFile_beside_iff beside).mp present with ⟨content, there⟩
          exact absurd there (absent content)
    · rintro ⟨text, reads, valid⟩
      rcases FileTree.readText_eq_ok_iff.mp reads with ⟨place, found, there⟩
      rw [found.unique beside] at there
      exact .beside leads there valid
  · rw [if_neg present]
    constructor
    · intro configured
      cases configured with
      | beside otherLeads found valid =>
          rw [same otherLeads] at found
          exact absurd ((isFile_beside_iff beside).mpr ⟨_, found⟩) present
      | default => rfl
    · intro loaded
      cases loaded
      exact .default leads fun content there =>
        present ((isFile_beside_iff beside).mpr ⟨content, there⟩)

end Beside

/-- The settings that a run finds are those that its source is configured with. -/
theorem configured_iff {tree : FileTree} {file source : String}
    (read : tree.readText file = .ok source) {given : Option String} {settings : Settings} :
    Configured tree file given settings ↔ readSettings tree given file = .ok settings := by
  cases given with
  | some path => exact configured_some_iff
  | none =>
      rcases FileTree.readText_eq_ok_iff.mp read with ⟨place, leads, stands⟩
      rcases FileTree.leads_sibling leads stands isName_settingsName with
        ⟨directory, own, rfl, beside⟩
      exact configured_none_iff leads beside

/-! ## Running -/

section

variable {tree : FileTree} {options : RunOptions} {source : String} {settings : Settings}

/-- What is loaded is run. -/
theorem run_of_loaded (loaded : Loaded tree options source settings) :
    run tree options = .ok (runSource tree options settings source) := by
  have found := (configured_iff loaded.source).mp loaded.settings
  rw [run, readSource, loaded.source]
  simp only [bind, Except.bind, found]
  rfl

/-- What cannot be loaded ends the run with a message, which does not depend on
where the result was to go. -/
theorem run_of_unloaded (unloaded : ¬∃ source settings, Loaded tree options source settings) :
    ∃ message, ∀ output, run tree { options with output := output } = .error (failWith message) := by
  cases read : tree.readText options.file with
  | error error =>
      refine ⟨"cannot read '" ++ options.file ++ "': " ++ error.message, fun output => ?_⟩
      rw [run, readSource]
      dsimp only
      rw [read]
      rfl
  | ok source =>
      cases found : readSettings tree options.settings options.file with
      | ok settings => exact absurd ⟨source, settings, read, (configured_iff read).mpr found⟩ unloaded
      | error effect =>
          have message : ∃ message, effect = failWith message := by
            rw [readSettings_eq] at found
            split at found
            case h_1 => cases found
            case h_2 => exact exists_message_of_settingsAt found
          rcases message with ⟨message, rfl⟩
          refine ⟨message, fun output => ?_⟩
          rw [run, readSource]
          dsimp only
          rw [read]
          simp only [bind, Except.bind, found]

theorem effect_of_read {arguments : List String} {plain : Bool}
    (reads : read arguments = .ok (.run options, plain)) (tree : FileTree) :
    effect tree arguments =
      match run tree options with
      | .ok effect => effect
      | .error effect => effect := by
  rw [effect, reads]
  rfl

theorem effect_of_loaded {arguments : List String} {plain : Bool}
    (reads : read arguments = .ok (.run options, plain))
    (loaded : Loaded tree options source settings) :
    effect tree arguments = runSource tree options settings source := by
  rw [effect_of_read reads, run_of_loaded loaded]

/-- Without an output, the result of a run is printed. -/
theorem runSource_of_unset (unset : options.output = none) (tree : FileTree) (settings : Settings)
    (source : String) :
    runSource tree options settings source =
      { code := if (Report.ofSource settings source).success then 0 else 1
        output := rendered options.format (Report.ofSource settings source) ++ "\n"
        errors := linesText (reportLines options.file (Report.ofSource settings source)) } := by
  rw [runSource, unset]

end

/-- One effect writes to a place what another one prints, and is the same
otherwise. -/
structure Redirects (tree : FileTree) (printing writing : Effect) (path : String)
    (place : List String) : Prop where
  code : writing.code = printing.code
  errors : writing.errors = printing.errors
  silent : writing.output = ""
  readable : (writing.apply tree).readText path = .ok printing.output
  there : (writing.apply tree).standing place = .file (.text printing.output)
  elsewhere : ∀ other, other ≠ place → (writing.apply tree).standing other = tree.standing other

/-- Two effects end in the same way, without a result and without a change. -/
structure EndsAlike (tree : FileTree) (first second : Effect) : Prop where
  code : second.code = first.code
  errors : second.errors = first.errors
  silent : first.output = "" ∧ second.output = ""
  unchanged : first.apply tree = tree ∧ second.apply tree = tree

/-- Where a run can write, it writes what it would have printed. -/
theorem redirects_runSource {tree changed : FileTree} {path : String}
    (writes : tree.writeText path "" = .ok changed) {options : RunOptions}
    (unset : options.output = none) (settings : Settings) (source : String) :
    ∃ place, Leads tree path place ∧
      Redirects tree (runSource tree options settings source)
        (runSource tree { options with output := some path } settings source) path place := by
  rcases FileTree.exists_opens writes with ⟨outer, name, opens, -⟩
  let text := rendered options.format (Report.ofSource settings source) ++ "\n"
  have written := opens.writeText text
  rcases FileTree.writeText_spec written opens.leads with ⟨readable, there, elsewhere⟩
  have effect : runSource tree { options with output := some path } settings source =
      { code := if (Report.ofSource settings source).success then 0 else 1
        errors := linesText (reportLines options.file (Report.ofSource settings source))
        written := some (path, text) } := by
    unfold runSource
    dsimp only
    rw [written]
  have applied : (runSource tree { options with output := some path } settings source).apply tree =
      FileTree.put (.file (.text text)) (outer ++ [name]) tree := by
    rw [effect, Effect.apply]
    dsimp only
    rw [written]
    rfl
  rw [runSource_of_unset unset]
  refine ⟨outer ++ [name], opens.leads, ?_, ?_, ?_, ?_, ?_, ?_⟩
  · rw [effect]
  · rw [effect]
  · rw [effect]
  · rw [applied]
    exact readable
  · rw [applied]
    exact there
  · rw [applied]
    exact elsewhere

/-- The exit code of a run that prints its result. -/
theorem code_eq_zero_iff {tree : FileTree} {arguments : List String} {options : RunOptions}
    {plain : Bool} (reads : read arguments = .ok (.run options, plain))
    (unset : options.output = none) :
    (effect tree arguments).code = 0 ↔
      ∃ source settings, Loaded tree options source settings ∧
        (Report.ofSource settings source).success = true := by
  constructor
  · intro zero
    by_cases load : ∃ source settings, Loaded tree options source settings
    · rcases load with ⟨source, settings, loaded⟩
      refine ⟨source, settings, loaded, ?_⟩
      rw [effect_of_loaded reads loaded, runSource_of_unset unset] at zero
      by_cases success : (Report.ofSource settings source).success = true
      · exact success
      · rw [if_neg success] at zero
        cases zero
    · rcases run_of_unloaded load with ⟨message, runs⟩
      have ran := runs options.output
      rw [effect_of_read reads, ran] at zero
      cases zero
  · rintro ⟨source, settings, loaded, success⟩
    rw [effect_of_loaded reads loaded, runSource_of_unset unset, if_pos success]

/-- A run ends well exactly when the source and its settings can be loaded and
the source is interpreted with success.  With an output it ends in the same way
and says the same, but writes the result to the file that the path names instead
of printing it, and leaves every other file alone.  What cannot be loaded leaves
no result and no file behind. -/
theorem run_redirects {tree : FileTree} {arguments : List String} {options : RunOptions}
    {plain : Bool} (reads : read arguments = .ok (.run options, plain))
    (unset : options.output = none) :
    ((effect tree arguments).code = 0 ↔
        ∃ source settings, Loaded tree options source settings ∧
          (Report.ofSource settings source).success = true) ∧
      (effect tree arguments).apply tree = tree ∧
      ((¬∃ source settings, Loaded tree options source settings) →
        (effect tree arguments).output = "") ∧
      (∀ path, path ≠ "" → looksLikeOption path = false → "--" ∉ arguments →
        read (arguments ++ ["-o", path]) = .ok (.run { options with output := some path }, plain)) ∧
      ∀ path longer flag, read longer = .ok (.run { options with output := some path }, flag) →
        ((∃ source settings, Loaded tree options source settings) →
          (∃ changed, tree.writeText path "" = .ok changed) →
          ∃ place, Leads tree path place ∧
            Redirects tree (effect tree arguments) (effect tree longer) path place) ∧
        ((¬∃ source settings, Loaded tree options source settings) →
          EndsAlike tree (effect tree arguments) (effect tree longer)) := by
  have failed : ∀ {message : String},
      (∀ output, run tree { options with output := output } = .error (failWith message)) →
      effect tree arguments = failWith message := by
    intro message runs
    have ran := runs options.output
    rw [effect_of_read reads, ran]
  refine ⟨code_eq_zero_iff reads unset, ?_, ?_, ?_, ?_⟩
  · by_cases load : ∃ source settings, Loaded tree options source settings
    · rcases load with ⟨source, settings, loaded⟩
      rw [effect_of_loaded reads loaded, runSource_of_unset unset]
      rfl
    · rcases run_of_unloaded load with ⟨message, runs⟩
      rw [failed runs]
      rfl
  · intro unloaded
    rcases run_of_unloaded unloaded with ⟨message, runs⟩
    rw [failed runs]
    rfl
  · intro path nonempty harmless unended
    exact read_output reads unset unended nonempty harmless
  · intro path longer flag readsLonger
    constructor
    · rintro ⟨source, settings, loaded⟩ ⟨changed, writes⟩
      have redirected : Loaded tree { options with output := some path } source settings :=
        ⟨loaded.source, loaded.settings⟩
      rw [effect_of_loaded reads loaded, effect_of_loaded readsLonger redirected]
      exact redirects_runSource writes unset settings source
    · intro unloaded
      rcases run_of_unloaded unloaded with ⟨message, runs⟩
      rw [failed runs, effect_of_read readsLonger, runs]
      exact ⟨rfl, rfl, ⟨rfl, rfl⟩, ⟨rfl, rfl⟩⟩

/-- A source with a settings file beside it. -/
def site : FileTree :=
  .directory [("site", .directory
    [("page.wahy", .file (.text "عنوان مرحبا")), ("wahy.toml", .file (.text "document_title = 'x'"))])]

/-- The settings of a source are overwritten with its result. -/
theorem run_redirects_onto_settings :
    read ["site/./page.wahy", "--json"] = .ok (.run ⟨"site/./page.wahy", .json, none, none⟩, false) ∧
      ∃ place, Leads site "site/wahy.toml" place ∧
        Redirects site (effect site ["site/./page.wahy", "--json"])
          (effect site ["site/./page.wahy", "--json", "-o", "site/wahy.toml"]) "site/wahy.toml"
          place := by
  have reads : read ["site/./page.wahy", "--json"] =
      .ok (.run ⟨"site/./page.wahy", .json, none, none⟩, false) := by decide +kernel
  have parts : FileTree.parts "site/./page.wahy" = ["site", ".", "page.wahy"] := by decide +kernel
  have leads : Leads site "site/./page.wahy" ["site", "page.wahy"] := by
    refine ⟨by decide, by decide, ?_⟩
    rw [parts]
    simp [site, FileTree.walk, FileTree.advance, FileTree.at?]
  have source : site.at? ["site", "page.wahy"] = some (.file (.text "عنوان مرحبا")) := by
    simp [site, FileTree.at?]
  have beside : site.at? ["site", settingsName] = some (.file (.text "document_title = 'x'")) := by
    simp [site, FileTree.at?, settingsName, List.lookup_cons]
  have valid : Settings.ofDocument "document_title = 'x'" = .ok { documentTitle := "x" } := by
    have read : (Settings.ofDocument "document_title = 'x'").toOption =
        some { documentTitle := "x" } := by decide +kernel
    cases parsed : Settings.ofDocument "document_title = 'x'" with
    | error error =>
        rw [parsed] at read
        cases read
    | ok settings =>
        rw [parsed] at read
        exact congrArg Except.ok (Option.some.inj read)
  have loaded : Loaded site ⟨"site/./page.wahy", .json, none, none⟩ "عنوان مرحبا"
      { documentTitle := "x" } :=
    ⟨FileTree.readText_eq_ok_iff.mpr ⟨_, leads, source⟩,
      @Configured.beside site _ ["site"] _ _ _ leads beside valid⟩
  have opens : FileTree.Opens site "site/wahy.toml" ["site"] "wahy.toml" := by
    have named : FileTree.parts "site/wahy.toml" = ["site", "wahy.toml"] := by decide +kernel
    refine ⟨by decide, by decide, by rw [FileTree.lastName?, named]; rfl, by decide, by decide, ?_, _,
      by simp [site, FileTree.at?]; rfl, ?_⟩
    · rw [named]
      simp [site, FileTree.walk, FileTree.advance, FileTree.at?]
    · intro inner found
      simp [List.lookup_cons] at found
      exact ⟨_, found.symm⟩
  have writes : ∃ changed, site.writeText "site/wahy.toml" "" = .ok changed :=
    ⟨_, opens.writeText ""⟩
  refine ⟨reads, ?_⟩
  have whole := @run_redirects site _ _ _ reads rfl
  have longer := whole.2.2.2.1 "site/wahy.toml" (by decide) (by decide) (by decide)
  exact (whole.2.2.2.2 "site/wahy.toml" _ false longer).1 ⟨_, _, loaded⟩ writes

end CommandLine
end Pagewright
