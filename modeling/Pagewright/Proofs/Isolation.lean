import Pagewright.Proofs.Commands
import Pagewright.Proofs.Report
import Pagewright.Proofs.Source

namespace Pagewright

open Generator (commandsOf)

/-!
# Targets in isolation

The sections for different targets may be interleaved in any way, and any of
them may fail.  None of this shows in what is said about one target: it is the
same as for a source that holds nothing but the lines for that target, behind a
single marker.  Numbers and spans of lines are left out of the comparison, since
the lines do move.

There are two steps.  What a report says about a target depends on the commands
for it, and on whether there is a section at all.  And the lines for a target,
put together and cut again, hold the same commands, although the text of a line
may lose a carriage return on the way.
-/

/-! ## Accounts in a report -/

namespace Section

/-- The lines for a target, in their order. -/
def routed (target : Target) (sections : List Section) : List SourceLine :=
  (sections.filter fun part => part.target == target).flatMap lines

end Section

namespace Report

/-- What a report says about a target. -/
def accountFor? (report : Report) (target : Target) : Option Account :=
  (report.outcomeFor? target).map Outcome.account

/-- What is said about commands for a target. -/
def accountOf (settings : Settings) : Target → List Command → Account
  | .page => (Page.generator settings).account
  | .stylesheet => Stylesheet.generator.account
  | .script => Script.generator.account

theorem account_outcome? {σ : Type} (generator : Generator σ) (sections : List Section) :
    (outcome? generator sections).map Outcome.account =
      if sections.any fun part => part.target == generator.target then
        some (generator.account (commandsOf (Section.routed generator.target sections)))
      else
        none := by
  have ran := isSome_outcome? generator sections
  have listed : (sections.any fun part => part.target == generator.target) = true ↔
      ∃ part ∈ sections, part.target = generator.target := by
    simp only [List.any_eq_true, beq_iff_eq]
  cases outcome : outcome? generator sections with
  | none =>
      rw [outcome, ← listed] at ran
      rw [if_neg fun present => Bool.noConfusion (ran.mpr present)]
      rfl
  | some given =>
      rw [outcome, ← listed] at ran
      rw [if_pos (ran.mp rfl), Section.routed, ← Generator.account_run]
      unfold outcome? at outcome
      split at outcome
      · cases outcome
      · cases outcome
        rfl

/-- What a report says about a target depends on the lines for it only. -/
theorem accountFor?_ofSections (settings : Settings) (sections : List Section) (target : Target) :
    (ofSections settings sections).accountFor? target =
      if sections.any fun part => part.target == target then
        some (accountOf settings target (commandsOf (Section.routed target sections)))
      else
        none := by
  rcases outcomeFor?_ofSections settings sections with ⟨page, stylesheet, script⟩
  unfold accountFor?
  cases target with
  | page =>
      rw [page]
      exact account_outcome? (Page.generator settings) sections
  | stylesheet =>
      rw [stylesheet]
      exact account_outcome? Stylesheet.generator sections
  | script =>
      rw [script]
      exact account_outcome? Script.generator sections

/-- A source succeeds if no error is told about its page. -/
theorem success_ofSections (settings : Settings) (sections : List Section) :
    (ofSections settings sections).success =
      ((ofSections settings sections).accountFor? .page).all fun account =>
        account.errors.isEmpty := by
  have failure : (ofSections settings sections).failure? =
      (ofSections settings sections).pageError?.map Diagnostic.message := rfl
  rw [success, failure, Option.isNone_map, pageError?, accountFor?]
  cases (ofSections settings sections).outcomeFor? .page with
  | none => rfl
  | some outcome =>
      rw [Option.bind_some, Option.map_some, Option.all_some, Outcome.account]
      cases outcome.errors with
      | nil => rfl
      | cons error others => rfl

theorem output?_eq_accountFor? (report : Report) (target : Target) :
    report.output? target = (report.accountFor? target).map Account.output := by
  rw [accountFor?, Option.map_map]
  rfl

end Report

/-! ## The lines for one target -/

namespace Section

/-- A source that holds some lines behind a marker. -/
def alone (spelling : String) (lines : List SourceLine) : String :=
  Text.joinLines (spelling :: lines.map SourceLine.text)

theorem hasText_eq (part : Section) :
    part.hasText = (part.lines.map SourceLine.trimmed).any fun text => !text.isEmpty := by
  simp only [hasText, List.any_map, Function.comp_def, SourceLine.trimmed]

theorem commandsOf_eq (lines : List SourceLine) :
    commandsOf lines = (lines.map SourceLine.trimmed).filterMap Command.ofTrimmed? := by
  rw [List.filterMap_map]
  apply List.filterMap_congr
  intro line _
  rw [Command.ofLine?_eq, Function.comp_apply, SourceLine.trimmed]

/-- Lines without markers and line feeds are cut again into one section, unless
they are blank. -/
theorem ofSource_alone {target : Target} {spelling : String}
    (starts : (spelling, Marker.start target) ∈ Marker.spellings) {lines : List SourceLine}
    (unmarked : ∀ line ∈ lines, Marker.ofText? line.text = none)
    (free : ∀ line ∈ lines, '\n' ∉ line.text.toList) :
    ∃ copies, copies.map SourceLine.trimmed = lines.map SourceLine.trimmed ∧
      ofSource (alone spelling lines) = [⟨target, copies⟩].filter hasText := by
  have facts := (by decide : ∀ entry ∈ Marker.spellings,
    '\n' ∉ entry.1.toList ∧ Marker.spellings.lookup (Text.trim entry.1) = some entry.2) _ starts
  have cut : (SourceLine.ofSource (alone spelling lines)).map SourceLine.trimmed =
      Text.trim spelling :: lines.map SourceLine.trimmed := by
    have joined := @SourceLine.map_trimmed_joinLines (spelling :: lines.map SourceLine.text)
      (List.cons_ne_nil _ _) (List.forall_mem_cons.mpr ⟨facts.1, List.forall_mem_map.mpr free⟩)
    rw [List.map_cons, List.map_map] at joined
    exact joined
  cases source : SourceLine.ofSource (alone spelling lines) with
  | nil =>
      rw [source] at cut
      cases cut
  | cons first copies =>
      rw [source, List.map_cons, List.cons.injEq] at cut
      rcases cut with ⟨firstCut, copiesCut⟩
      have marked : Marker.ofText? first.text = some (.start target) := by
        have looked : Marker.spellings.lookup first.trimmed = some (.start target) := by
          rw [firstCut]
          exact facts.2
        exact looked
      -- A copy has a marker exactly when the line it was made from has one.
      have copiesUnmarked : ∀ copy ∈ copies, Marker.ofText? copy.text = none := by
        intro copy member
        have listed : copy.trimmed ∈ copies.map SourceLine.trimmed := List.mem_map_of_mem member
        rw [copiesCut] at listed
        rcases List.mem_map.mp listed with ⟨line, original, same⟩
        have none := unmarked line original
        unfold Marker.ofText? at none ⊢
        rw [show Text.trim copy.text = Text.trim line.text from same.symm]
        exact none
      refine ⟨copies, copiesCut, ?_⟩
      rw [ofSource, source, ofLines_of_marked marked copiesUnmarked]
      rfl

/-- There is a section for a target exactly when the lines for it hold text. -/
theorem hasText_routed {sections : List Section} (filled : ∀ part ∈ sections, part.hasText = true)
    (target : Target) :
    hasText ⟨target, routed target sections⟩ = sections.any fun part => part.target == target := by
  apply Bool.eq_iff_iff.mpr
  rw [hasText, List.any_eq_true, List.any_eq_true]
  constructor
  · rintro ⟨line, member, -⟩
    rcases List.mem_flatMap.mp member with ⟨part, matching, -⟩
    exact ⟨part, List.mem_filter.mp matching⟩
  · rintro ⟨part, listed, matching⟩
    rcases List.any_eq_true.mp (filled part listed) with ⟨line, member, text⟩
    exact ⟨line, List.mem_flatMap.mpr ⟨part, List.mem_filter.mpr ⟨listed, matching⟩, member⟩, text⟩

/-- The lines for a target, taken alone, make a section exactly when there was
one, with the same commands. -/
theorem alone_spec {target : Target} {spelling : String}
    (starts : (spelling, Marker.start target) ∈ Marker.spellings) (source : String) :
    let sections := ofSource source
    let again := ofSource (alone spelling (routed target sections))
    (again.any fun part => part.target == target) =
        (sections.any fun part => part.target == target) ∧
      commandsOf (routed target again) = commandsOf (routed target sections) := by
  intro sections again
  have kept : ∀ line ∈ routed target sections,
      Marker.ofText? line.text = none ∧ '\n' ∉ line.text.toList := by
    intro line member
    rcases List.mem_flatMap.mp member with ⟨part, matching, inside⟩
    have found := mem_of_mem_lines (List.mem_filter.mp matching).1 inside
    exact ⟨found.2, SourceLine.notMem_text found.1⟩
  have filled : ∀ part ∈ sections, part.hasText = true := fun part listed =>
    (List.mem_filter.mp listed).2
  rcases ofSource_alone starts (fun line member => (kept line member).1)
    (fun line member => (kept line member).2) with ⟨copies, same, cut⟩
  have text : hasText ⟨target, copies⟩ = sections.any fun part => part.target == target := by
    rw [← hasText_routed filled target, hasText_eq, hasText_eq]
    exact congrArg (List.any · _) same
  have again_eq : again = [⟨target, copies⟩].filter hasText := cut
  rw [commandsOf_eq (routed target sections), ← same, ← commandsOf_eq, again_eq, ← text]
  cases present : hasText ⟨target, copies⟩ with
  | true =>
      rw [List.filter_cons_of_pos present]
      simp [routed]
  | false =>
      have absent : sections.filter (fun part => part.target == target) = [] := by
        rw [present] at text
        exact List.filter_eq_nil_iff.mpr (List.any_eq_false.mp text.symm)
      have nothing : copies = [] := by
        rw [routed, absent] at same
        exact List.map_eq_nil_iff.mp same
      rw [List.filter_cons_of_neg (Bool.eq_false_iff.mp present), nothing]
      exact ⟨rfl, rfl⟩

end Section

theorem Settings.refuses_of_unlimited {settings : Settings} (unlimited : settings.maxSourceBytes = 0)
    (size : Nat) : settings.refuses size = false := by
  rw [refuses, unlimited]
  rfl

/-- What is said about a target, and whether a source succeeds, depends on the
lines for the target only, and not on the lines between them or on what becomes
of other targets. -/
theorem target_isolated (settings : Settings) (unlimited : settings.maxSourceBytes = 0)
    (source : String) (target : Target) (spelling : String)
    (starts : (spelling, Marker.start target) ∈ Marker.spellings) :
    let lines := Section.routed target (Section.ofSource source)
    let whole := Report.ofSource settings source
    let part := Report.ofSource settings (Section.alone spelling lines)
    whole.output? target = part.output? target ∧
      whole.accountFor? target = part.accountFor? target ∧
      (target = .page → whole.success = part.success) ∧
      ∀ other,
        (Section.routed target (Section.ofSource other)).map SourceLine.text =
          lines.map SourceLine.text →
        (Report.ofSource settings other).accountFor? target = whole.accountFor? target ∧
          (target = .page → (Report.ofSource settings other).success = whole.success) := by
  intro lines whole part
  have unlimitedReport : ∀ source, Report.ofSource settings source =
      Report.ofSections settings (Section.ofSource source) := fun source =>
    Report.ofSource_of_accepted (settings.refuses_of_unlimited unlimited _)
  have same : ∀ source, (Report.ofSource settings source).accountFor? target =
      (Report.ofSource settings (Section.alone spelling
        (Section.routed target (Section.ofSource source)))).accountFor? target := by
    intro source
    rcases Section.alone_spec starts source with ⟨present, commands⟩
    rw [unlimitedReport, unlimitedReport, Report.accountFor?_ofSections,
      Report.accountFor?_ofSections, present, commands]
  have success : ∀ first second, (Report.ofSource settings first).accountFor? target =
      (Report.ofSource settings second).accountFor? target → target = .page →
      (Report.ofSource settings first).success = (Report.ofSource settings second).success := by
    intro first second accounts isPage
    rw [isPage, unlimitedReport, unlimitedReport] at accounts
    rw [unlimitedReport, unlimitedReport, Report.success_ofSections, Report.success_ofSections,
      accounts]
  refine ⟨?_, same source, success _ _ (same source), fun other texts => ?_⟩
  · rw [Report.output?_eq_accountFor?, same source, ← Report.output?_eq_accountFor?]
  · have accounts : (Report.ofSource settings other).accountFor? target = whole.accountFor? target := by
      rw [same other, same source, Section.alone, Section.alone, texts]
    exact ⟨accounts, success _ _ accounts⟩

/-- A source with three targets in turn, whose stylesheet and script fail and
whose page has a blank section and carriage returns. -/
def interleaved : String :=
  "زر\r\r\nstart_css\nend_media\nend_js\n \nstart_js\nelse\nend_css\nصف"

theorem target_isolated_interleaved :
    ("start_html", Marker.start .page) ∈ Marker.spellings ∧
      let settings : Settings := { maxSourceBytes := 0 }
      let lines := Section.routed .page (Section.ofSource interleaved)
      let whole := Report.ofSource settings interleaved
      let part := Report.ofSource settings (Section.alone "start_html" lines)
      lines.length = 2 ∧ whole.output? .page = part.output? .page ∧
        whole.accountFor? .page = part.accountFor? .page ∧ whole.success = part.success := by
  have starts : ("start_html", Marker.start .page) ∈ Marker.spellings := by decide
  rcases target_isolated { maxSourceBytes := 0 } rfl interleaved .page "start_html" starts with
    ⟨output, account, success, -⟩
  exact ⟨starts, by decide +kernel, output, account, success rfl⟩

end Pagewright
