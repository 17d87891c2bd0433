import Pagewright.Proofs.Alignment
import Pagewright.Proofs.Replacement

namespace Pagewright

open Generator (said SameProgress SimilarLines)

/-!
# Unknown commands

A line whose key names no command of its target costs a warning and nothing else.
To say so, the line is replaced by a comment, which keeps its place among the
lines: the sections stay where they are, and so does the last line of a section,
to which the remarks at the end of a run are attached.

The two sources are then read side by side.  Up to the line the readings agree.  If
they have ended by then, they stay the same; otherwise the line leaves the state
alone and adds its warning, and since warnings are only ever added, the readings
agree behind it up to this one entry.  `Loses` carries that entry through the
places where lists of warnings are put together and ordered.
-/

/-! ## Lists without one entry -/

/-- The right list is the left one without one entry. -/
def Loses {α : Type} (extra : α) (left right : List α) : Prop :=
  ∃ front back, left = front ++ extra :: back ∧ right = front ++ back

namespace Loses

variable {α β : Type} {extra : α} {left right : List α}

theorem append_left (loses : Loses extra left right) (more : List α) :
    Loses extra (more ++ left) (more ++ right) := by
  rcases loses with ⟨front, back, rfl, rfl⟩
  exact ⟨more ++ front, back, (List.append_assoc _ _ _).symm, (List.append_assoc _ _ _).symm⟩

theorem append_right (loses : Loses extra left right) (more : List α) :
    Loses extra (left ++ more) (right ++ more) := by
  rcases loses with ⟨front, back, rfl, rfl⟩
  exact ⟨front, back ++ more, List.append_assoc _ _ _, List.append_assoc _ _ _⟩

theorem map (loses : Loses extra left right) (view : α → β) :
    Loses (view extra) (left.map view) (right.map view) := by
  rcases loses with ⟨front, back, rfl, rfl⟩
  exact ⟨front.map view, back.map view, List.map_append, List.map_append⟩

theorem filter (loses : Loses extra left right) {keep : α → Bool} (kept : keep extra = true) :
    Loses extra (left.filter keep) (right.filter keep) := by
  rcases loses with ⟨front, back, rfl, rfl⟩
  refine ⟨front.filter keep, back.filter keep, ?_, List.filter_append _ _⟩
  rw [List.filter_append, List.filter_cons_of_pos kept]

theorem byNumber (loses : Loses extra left right) (number : α → Nat) :
    Loses extra (Order.byNumber number left) (Order.byNumber number right) := by
  rcases loses with ⟨front, back, rfl, rfl⟩
  exact Order.byNumber_middle number front extra back

/-- An entry lost in one of several lists is lost in all of them together. -/
theorem flatMap {keys : List β} (distinct : keys.Nodup) {key : β} (listed : key ∈ keys)
    {lefts rights : β → List α} (here : Loses extra (lefts key) (rights key))
    (elsewhere : ∀ other, other ≠ key → lefts other = rights other) :
    Loses extra (keys.flatMap lefts) (keys.flatMap rights) := by
  rcases List.append_of_mem listed with ⟨before, after, rfl⟩
  rcases List.nodup_cons.mp (List.nodup_middle.mp distinct) with ⟨absent, -⟩
  have others : ∀ other ∈ before ++ after, lefts other = rights other := by
    intro other member
    exact elsewhere other fun same => absent (same ▸ member)
  rcases List.forall_mem_append.mp others with ⟨inFront, behind⟩
  rw [List.flatMap_append, List.flatMap_append, List.flatMap_cons, List.flatMap_cons,
    List.flatMap_congr inFront, List.flatMap_congr behind]
  exact (here.append_right _).append_left _

end Loses

/-! ## Silencing a line -/

namespace SourceLine

/-- A line and what stands in its place when one line, perhaps this one, is replaced
by a comment. -/
inductive Silenced (line : SourceLine) : SourceLine → SourceLine → Prop
  | here {comment : SourceLine} (number : line.number = comment.number)
      (text : comment.text = "#") : Silenced line line comment
  | elsewhere {left right : SourceLine} (other : left ≠ line) (number : left.number = right.number)
      (text : left.text = right.text) : Silenced line left right

theorem silenced_replaceLine {source : String} {line : SourceLine} (member : line ∈ ofSource source) :
    List.Forall₂ (Silenced line) (ofSource source) (ofSource (replaceLine source line.number "#")) :=
  forall₂_replaceLine (by decide) (by decide) member .here .elsewhere

namespace Silenced

variable {line : SourceLine}

theorem cutsAlike (unmarked : Marker.ofText? line.text = none) (text : line.isBlank = false) :
    Section.CutsAlike (Silenced line) := by
  intro left right silenced
  cases silenced with
  | here number comment =>
      rw [unmarked, text, isBlank, trimmed, comment]
      decide
  | elsewhere other number same =>
      rw [isBlank, isBlank, trimmed, trimmed, same]
      exact ⟨rfl, rfl⟩

/-- Lines among which the silenced one is not hold the same commands. -/
theorem similar {left right : List SourceLine} (lines : List.Forall₂ (Silenced line) left right)
    (absent : line ∉ left) : List.Forall₂ (SimilarLines Eq) left right := by
  induction lines with
  | nil => exact .nil
  | cons first _ ih =>
      rw [List.mem_cons, not_or] at absent
      refine .cons ?_ (ih absent.2)
      cases first with
      | here => exact absurd rfl absent.1
      | elsewhere other number text =>
          exact SameTrimmed.similar ⟨number, congrArg Text.trim text⟩

/-- Around the silenced line, both sides hold the same commands. -/
theorem split {before after right : List SourceLine}
    (lines : List.Forall₂ (Silenced line) (before ++ line :: after) right)
    (once : line ∉ before ++ after) :
    ∃ otherBefore comment otherAfter, right = otherBefore ++ comment :: otherAfter ∧
      List.Forall₂ (SimilarLines Eq) before otherBefore ∧
      line.number = comment.number ∧ comment.text = "#" ∧
      List.Forall₂ (SimilarLines Eq) after otherAfter := by
  rw [List.mem_append, not_or] at once
  have front := List.forall₂_take_append _ before (line :: after) lines.flip
  have rest := List.forall₂_drop_append _ before (line :: after) lines.flip
  rcases List.forall₂_cons_right_iff.mp rest with ⟨comment, otherAfter, here, behind, dropped⟩
  refine ⟨right.take before.length, comment, otherAfter, ?_, similar front.flip once.1, ?_⟩
  · rw [← dropped, List.take_append_drop]
  · cases here with
    | here number text => exact ⟨number, text, similar behind.flip once.2⟩
    | elsewhere other => exact absurd rfl other

end Silenced

end SourceLine

/-! ## Reading past a line -/

namespace Generator

variable {σ : Type} {generator : Generator σ}

/-- The progress with warnings from before. -/
def Progress.recall (earlier : Array Diagnostic) (progress : Progress σ) : Progress σ :=
  { progress with warnings := earlier ++ progress.warnings }

theorem advance_recall (generator : Generator σ) (earlier : Array Diagnostic) (progress : Progress σ)
    (line : SourceLine) :
    generator.advance (progress.recall earlier) line =
      (generator.advance progress line).recall earlier := by
  unfold advance
  simp only [Progress.recall, Progress.visit, Progress.warn, Array.append_assoc]
  cases Command.ofLine? line.text with
  | none => rfl
  | some command =>
      dsimp only
      cases (generator.execute progress.state command).verdict with
      | handled => rfl
      | unknown => rfl
      | failed fault => rfl
      | crashed crash => rfl

/-- Warnings from before are kept and change nothing. -/
theorem read_recall (generator : Generator σ) (earlier : Array Diagnostic) {progress : Progress σ}
    (running : progress.error = none) (lines : List SourceLine) :
    generator.read (progress.recall earlier) lines =
      (generator.read progress lines).recall earlier := by
  induction lines generalizing progress with
  | nil => rfl
  | cons line rest ih =>
      have recalled : (progress.recall earlier).error = none := running
      have advanced := advance_recall generator earlier progress line
      have same : ((generator.advance progress line).recall earlier).error =
          (generator.advance progress line).error := rfl
      rw [read_cons generator running, read_cons generator recalled, advanced, same]
      cases runs : (generator.advance progress line).error with
      | none => exact ih runs
      | some ended => rfl

/-- A run has an error from in front of a line exactly when reading does not come
to that line. -/
theorem ended_iff (finishes : generator.Finishes) {sections : List Section}
    {before after : List SourceLine} {line : SourceLine}
    (split : sections.flatMap Section.lines = before ++ line :: after)
    (order : (before ++ line :: after).Pairwise fun first second => first.number < second.number) :
    (∃ error ∈ (generator.run sections).errors, error.line < line.number) ↔
      (generator.readAll before).error ≠ none := by
  rcases finishes (generator.readAll (before ++ line :: after)).state with ⟨text, finished⟩
  rw [run_eq (congrArg generator.readAll split) finished]
  rcases List.pairwise_append.mp order with ⟨-, behind, inFront⟩
  have whole := @read_append σ generator { state := generator.initial } rfl before (line :: after)
  cases ended : (generator.readAll before).error with
  | none =>
      refine ⟨?_, fun wrong => absurd rfl wrong⟩
      rintro ⟨error, listed, early⟩
      rw [← readAll, ← readAll, ended] at whole
      rw [whole] at listed
      rcases exists_line_of_error ended (Option.mem_toList.mp listed) with ⟨found, member, number⟩
      rcases List.mem_cons.mp member with rfl | later
      · omega
      · have next := (List.pairwise_cons.mp behind).1 found later
        omega
  | some error =>
      rw [← readAll, ← readAll, ended] at whole
      refine ⟨fun _ => Option.some_ne_none error, fun _ => ⟨error, ?_, ?_⟩⟩
      · rw [whole]
        exact Option.mem_toList.mpr ended
      · rcases exists_line_of_error rfl ended with ⟨found, member, number⟩
        rw [number]
        exact inFront found member line List.mem_cons_self

/-! ## Reading past a silenced line -/

theorem advance_silent {progress : Progress σ} (running : progress.error = none) {line : SourceLine}
    (silent : Command.ofLine? line.text = none) :
    generator.advance progress line =
      ({ state := progress.state, last := some line } : Progress σ).recall progress.warnings := by
  rw [advance, silent, Progress.recall, Array.append_empty, Progress.visit, running]

theorem advance_unknown {progress : Progress σ} (running : progress.error = none) {line : SourceLine}
    {command : Command} (found : Command.ofLine? line.text = some command)
    (ignored : ∀ state, generator.execute state command = { state := state, verdict := .unknown }) :
    generator.advance progress line =
      ({ state := progress.state, last := some line } : Progress σ).recall (progress.warnings ++
        #[Diagnostic.onLine line .warning (unknownMessage generator.target command.key)]) := by
  rw [advance, found]
  dsimp only
  rw [ignored, Progress.recall]
  simp [Progress.warn, Progress.visit, running]

theorem SameProgress.running_iff {left right : Progress σ} (same : SameProgress Eq left right) :
    left.error = none ↔ right.error = none := by
  rw [← Option.map_eq_none_iff (f := said), same.error, Option.map_eq_none_iff]

theorem sameProgress_readAll (finishes : generator.Finishes) {lines otherLines : List SourceLine}
    (similar : List.Forall₂ (SimilarLines Eq) lines otherLines) :
    SameProgress Eq (generator.readAll lines) (generator.readAll otherLines) :=
  (inStep_self finishes).read ⟨rfl, rfl, rfl, rfl⟩ rfl similar

/-- What stands behind the line on which reading ended does not matter. -/
theorem sameProgress_of_ended (finishes : generator.Finishes) {before otherBefore : List SourceLine}
    (inFront : List.Forall₂ (SimilarLines Eq) before otherBefore)
    (ended : (generator.readAll before).error ≠ none) (after otherAfter : List SourceLine) :
    SameProgress Eq (generator.readAll (before ++ after))
      (generator.readAll (otherBefore ++ otherAfter)) := by
  have same := sameProgress_readAll finishes inFront
  have otherEnded : (generator.readAll otherBefore).error ≠ none :=
    fun running => ended (same.running_iff.mpr running)
  rcases Option.ne_none_iff_exists'.mp ended with ⟨error, leftEnd⟩
  rcases Option.ne_none_iff_exists'.mp otherEnded with ⟨otherError, rightEnd⟩
  rw [readAll, readAll, read_append generator rfl, read_append generator rfl, ← readAll, ← readAll,
    leftEnd, rightEnd]
  exact same

/-- Behind the line the readings are the same again, apart from what they remarked
before. -/
theorem exists_recall (finishes : generator.Finishes)
    {before after otherBefore otherAfter : List SourceLine} {line comment : SourceLine}
    {command : Command} (inFront : List.Forall₂ (SimilarLines Eq) before otherBefore)
    (number : line.number = comment.number)
    (behind : List.Forall₂ (SimilarLines Eq) after otherAfter)
    (found : Command.ofLine? line.text = some command)
    (silent : Command.ofLine? comment.text = none)
    (ignored : ∀ state, generator.execute state command = { state := state, verdict := .unknown })
    (running : (generator.readAll before).error = none) :
    ∃ earlier otherEarlier later otherLater,
      generator.readAll (before ++ line :: after) = Progress.recall (earlier ++
        #[Diagnostic.onLine line .warning (unknownMessage generator.target command.key)]) later ∧
      generator.readAll (otherBefore ++ comment :: otherAfter) =
        Progress.recall otherEarlier otherLater ∧
      earlier.toList.map said = otherEarlier.toList.map said ∧ SameProgress Eq later otherLater := by
  have same := sameProgress_readAll finishes inFront
  have otherRunning := same.running_iff.mp running
  -- Behind the line both readings start afresh; what they remarked before is recalled.
  have visited : SameProgress Eq
      ({ state := (generator.readAll before).state, last := some line } : Progress σ)
      { state := (generator.readAll otherBefore).state, last := some comment } :=
    ⟨same.state, rfl, rfl, congrArg some number⟩
  refine ⟨(generator.readAll before).warnings, (generator.readAll otherBefore).warnings, _, _, ?_, ?_,
    same.warnings, (inStep_self finishes).read visited rfl behind⟩
  · rw [readAll, read_append generator rfl, ← readAll, running]
    dsimp only
    rw [read_cons generator running, advance_unknown running found ignored]
    exact read_recall generator _ rfl after
  · rw [readAll, read_append generator rfl, ← readAll, otherRunning]
    dsimp only
    rw [read_cons generator otherRunning, advance_silent otherRunning silent]
    exact read_recall generator _ rfl otherAfter

end Generator

/-! ## Reports -/

namespace Report

/-- Outcomes with the same result, where the right one lacks one warning. -/
structure SaysLess (extra : Nat × Severity × String) (left right : Outcome) : Prop
    extends SameResult left right where
  warnings : Loses extra (left.warnings.map said) (right.warnings.map said)

/-- Runs that come equally far have the same result, and their warnings differ in
what was remarked before. -/
theorem sameResult_of_recall {σ : Type} {generator : Generator σ} (finishes : generator.Finishes)
    {sections otherSections : List Section} {earlier otherEarlier : Array Diagnostic}
    {later otherLater : Generator.Progress σ}
    (reading : generator.readAll (sections.flatMap Section.lines) = later.recall earlier)
    (otherReading : generator.readAll (otherSections.flatMap Section.lines) =
      otherLater.recall otherEarlier)
    (same : SameProgress Eq later otherLater) :
    SameResult (generator.run sections) (generator.run otherSections) ∧
      ∃ closing, (generator.run sections).warnings.map said = earlier.toList.map said ++ closing ∧
        (generator.run otherSections).warnings.map said =
          otherEarlier.toList.map said ++ closing := by
  rcases finishes later.state with ⟨text, finished⟩
  have otherFinished := finished
  rw [same.state] at otherFinished
  rw [Generator.run_eq reading finished, Generator.run_eq otherReading otherFinished]
  refine ⟨⟨rfl, rfl, ?_⟩, later.warnings.toList.map said ++
    (generator.finish later.state).warnings.map (said ∘ later.onLast .warning), ?_, ?_⟩
  · show later.error.toList.map said = otherLater.error.toList.map said
    rw [← Option.toList_map, ← Option.toList_map, same.error]
  · simp only [Generator.Progress.recall, Array.toList_append, List.map_append, List.map_map,
      List.append_assoc]
    rfl
  · have closing : said ∘ later.onLast .warning = said ∘ otherLater.onLast .warning :=
      funext (same.onLast .warning)
    rw [closing, same.state, same.warnings]
    simp only [Generator.Progress.recall, Array.toList_append, List.map_append, List.map_map,
      List.append_assoc]
    rfl

/-- The run for the target of a silenced line loses the warning about it, unless it
ended before. -/
theorem run_silenced {σ : Type} {generator : Generator σ} (finishes : generator.Finishes)
    {sections otherSections : List Section} {line : SourceLine} {command : Command}
    (lines : List.Forall₂ (SourceLine.Silenced line) (sections.flatMap Section.lines)
      (otherSections.flatMap Section.lines))
    (order : (sections.flatMap Section.lines).Pairwise fun first second =>
      first.number < second.number)
    (member : line ∈ sections.flatMap Section.lines)
    (found : Command.ofLine? line.text = some command)
    (ignored : ∀ state, generator.execute state command = { state := state, verdict := .unknown }) :
    ((∃ error ∈ (generator.run sections).errors, error.line < line.number) →
        SaysSame (generator.run sections) (generator.run otherSections)) ∧
      ((¬∃ error ∈ (generator.run sections).errors, error.line < line.number) →
        SaysLess (line.number, .warning, Generator.unknownMessage generator.target command.key)
          (generator.run sections) (generator.run otherSections)) := by
  rcases List.append_of_mem member with ⟨before, after, split⟩
  rw [split] at order lines
  -- Numbers rise along the lines, so the line stands in one place only.
  have once : line ∉ before ++ after := by
    have distinct : (before ++ line :: after).Nodup :=
      order.imp fun smaller same => absurd (same ▸ smaller) (Nat.lt_irrefl _)
    exact (List.nodup_cons.mp (List.nodup_middle.mp distinct)).1
  rcases SourceLine.Silenced.split lines once with
    ⟨otherBefore, comment, otherAfter, otherSplit, inFront, number, text, behind⟩
  have silent : Command.ofLine? comment.text = none := by
    rw [text]
    decide
  rw [Generator.ended_iff finishes split order]
  constructor
  · intro ended
    have same := Generator.sameProgress_of_ended finishes inFront ended (line :: after)
      (comment :: otherAfter)
    rw [← split, ← otherSplit] at same
    have fresh : ∀ progress : Generator.Progress σ, progress = progress.recall #[] := fun progress => by
      rw [Generator.Progress.recall, Array.empty_append]
    rcases sameResult_of_recall finishes (fresh _) (fresh _) same with
      ⟨result, closing, warnings, otherWarnings⟩
    exact ⟨result, warnings.trans otherWarnings.symm⟩
  · intro notEnded
    rcases Generator.exists_recall finishes inFront number behind found silent ignored
      (not_not.mp notEnded) with ⟨earlier, otherEarlier, later, otherLater, reading, otherReading,
        remarked, same⟩
    rw [← split] at reading
    rw [← otherSplit] at otherReading
    rcases sameResult_of_recall finishes reading otherReading same with
      ⟨result, closing, warnings, otherWarnings⟩
    refine ⟨result, earlier.toList.map said, closing, ?_, ?_⟩
    · rw [warnings, Array.toList_append, List.map_append, List.append_assoc]
      rfl
    · rw [otherWarnings, remarked]

/-- Reading for the target ended in front of the line with the given number. -/
def EndedBefore (report : Report) (target : Target) (number : Nat) : Prop :=
  ∃ outcome, report.outcomeFor? target = some outcome ∧
    ∃ error ∈ outcome.errors, error.line < number

/-- What is lost in the outcome for one target is lost in the warnings. -/
theorem loses_warnings {settings : Settings} {left right : List Section} {target : Target}
    {leftOutcome rightOutcome : Outcome} {number : Nat} {message : String}
    (leftFound : (ofSections settings left).outcomeFor? target = some leftOutcome)
    (rightFound : (ofSections settings right).outcomeFor? target = some rightOutcome)
    (isFor : leftOutcome.target = target)
    (less : SaysLess (number, .warning, message) leftOutcome rightOutcome)
    (elsewhere : ∀ other, other ≠ target → Option.Rel SaysSame
      ((ofSections settings left).outcomeFor? other) ((ofSections settings right).outcomeFor? other)) :
    Loses ("[" ++ target.label ++ "] line " ++ toString number ++ ": " ++ message)
      (ofSections settings left).warnings (ofSections settings right).warnings := by
  have distinct : Target.all.Nodup := by decide
  have listed : target ∈ Target.all := by
    cases target with
    | page => decide
    | stylesheet => decide
    | script => decide
  have remarks : Loses (target, number, .warning, message)
      (ofSections settings left).remarks (ofSections settings right).remarks := by
    rw [remarks_ofSections, remarks_ofSections]
    refine Loses.flatMap distinct listed ?_ fun other different =>
      remarks_of_saysSame (elsewhere other different)
    simp only [leftFound, rightFound, Option.toList_some, List.flatMap_cons, List.flatMap_nil,
      List.append_nil, map_remark_diagnosticsOf, ← less.target, less.errors, isFor]
    exact (less.warnings.map (Prod.mk target)).append_left _
  rw [warnings_eq, warnings_eq]
  exact ((remarks.byNumber fun entry => entry.2.1).filter rfl).map renderRemark

end Report

theorem Section.routed_sublist (target : Target) (source : String) :
    (routed target (ofSource source)).Sublist (SourceLine.ofSource source) :=
  ((List.filter_sublist).flatMap Section.lines).trans (flatMap_lines_sublist source)

theorem Settings.refuses_of_le {settings : Settings} {size smaller : Nat} (le : smaller ≤ size)
    (accepted : settings.refuses size = false) : settings.refuses smaller = false := by
  unfold refuses at accepted ⊢
  rw [Bool.and_eq_false_imp, decide_eq_true_eq, decide_eq_false_iff_not] at accepted ⊢
  intro limited
  have bound := accepted limited
  omega

namespace SourceLine

theorem isBlank_of_command {line : SourceLine} {command : Command}
    (found : Command.ofLine? line.text = some command) : line.isBlank = false := by
  rw [Command.ofLine?_eq, ← trimmed] at found
  cases blank : line.isBlank with
  | false => rfl
  | true =>
      rw [String.isEmpty_iff.mp blank] at found
      cases found

/-- A comment needs no more room than a command. -/
theorem refuses_replaceLine {settings : Settings} {source : String}
    (accepted : settings.refuses source.utf8ByteSize = false) {line : SourceLine}
    (among : line ∈ ofSource source) {command : Command}
    (found : Command.ofLine? line.text = some command) :
    settings.refuses (replaceLine source line.number "#").utf8ByteSize = false := by
  have one : "#".utf8ByteSize = 1 := by decide
  have room : line.text.utf8ByteSize ≠ 0 := by
    intro none
    rw [String.utf8ByteSize_eq_zero_iff.mp none] at found
    cases found
  exact Settings.refuses_of_le (utf8ByteSize_replaceLine_le among (by omega)) accepted

end SourceLine

namespace Report

variable {source : String} {part : Section} {line : SourceLine} {command : Command}

/-- Silencing a line does not show in the outcomes for other targets. -/
theorem saysSame_of_silenced (settings : Settings) (listed : part ∈ Section.ofSource source)
    (member : line ∈ part.lines) (found : Command.ofLine? line.text = some command)
    {target : Target} (other : target ≠ part.target) :
    Option.Rel SaysSame
      ((ofSections settings (Section.ofSource source)).outcomeFor? target)
      ((ofSections settings (Section.ofSource
        (SourceLine.replaceLine source line.number "#"))).outcomeFor? target) := by
  rcases Section.mem_of_mem_lines listed member with ⟨among, unmarked⟩
  have lines := SourceLine.silenced_replaceLine among
  have alike := SourceLine.Silenced.cutsAlike unmarked (SourceLine.isBlank_of_command found)
  have absent : line ∉ Section.routed target (Section.ofSource source) := by
    intro routed
    rcases List.mem_flatMap.mp routed with ⟨holder, matching, held⟩
    rcases List.mem_filter.mp matching with ⟨inSections, isFor⟩
    have same := Section.eq_of_mem_lines (List.mem_filter.mp listed).1 member
      (List.mem_filter.mp inSections).1 held
    rw [same] at isFor
    exact other (beq_iff_eq.mp isFor).symm
  rcases exists_generator settings target with ⟨σ, generator, rfl, finishes, -, outcomeFor⟩
  rw [outcomeFor, outcomeFor]
  exact saysSame_outcome? finishes
    (Section.any_of_inLine (Section.inLine_ofSource alike lines) generator.target)
    (SourceLine.Silenced.similar (Section.inLine_routed alike lines generator.target) absent)

/-- Silencing a line with an unknown command costs the outcome for its target the
warning about it, unless reading ended before. -/
theorem exists_outcomes_of_silenced (settings : Settings) (listed : part ∈ Section.ofSource source)
    (member : line ∈ part.lines) (found : Command.ofLine? line.text = some command)
    (unknown : part.target.knows command.key = false) :
    ∃ outcome quiet,
      (ofSections settings (Section.ofSource source)).outcomeFor? part.target = some outcome ∧
      (ofSections settings (Section.ofSource
        (SourceLine.replaceLine source line.number "#"))).outcomeFor? part.target = some quiet ∧
      outcome.target = part.target ∧
      ((∃ error ∈ outcome.errors, error.line < line.number) → SaysSame outcome quiet) ∧
      ((¬∃ error ∈ outcome.errors, error.line < line.number) →
        SaysLess (line.number, .warning, Generator.unknownMessage part.target command.key)
          outcome quiet) := by
  rcases Section.mem_of_mem_lines listed member with ⟨among, unmarked⟩
  have lines := SourceLine.silenced_replaceLine among
  have alike := SourceLine.Silenced.cutsAlike unmarked (SourceLine.isBlank_of_command found)
  have order := (SourceLine.pairwise_number_ofSource source).sublist
    (Section.routed_sublist part.target source)
  have routed : line ∈ Section.routed part.target (Section.ofSource source) :=
    List.mem_flatMap.mpr ⟨part, List.mem_filter.mpr ⟨listed, beq_self_eq_true _⟩, member⟩
  have present : ((Section.ofSource source).any fun given => given.target == part.target) = true :=
    List.any_eq_true.mpr ⟨part, listed, beq_self_eq_true _⟩
  have otherPresent := Section.any_of_inLine (Section.inLine_ofSource alike lines) part.target
  rw [present] at otherPresent
  have both := Section.inLine_routed alike lines part.target
  rcases exists_generator settings part.target with
    ⟨σ, generator, isFor, finishes, ignored, outcomeFor⟩
  rw [outcomeFor, outcomeFor, outcome?_eq, outcome?_eq, isFor, present, ← otherPresent]
  refine ⟨_, _, rfl, rfl, (target_run generator _).trans isFor, ?_⟩
  rw [← isFor] at order routed both ⊢
  exact run_silenced finishes both order routed found fun state => ignored state command unknown

end Report

/-- Unknown commands are inert.  With a comment in the place of a line whose key its
target does not know, a source gives the same outputs and the same document, and
succeeds or fails in the same way on the same line.  Its warnings are those of the
old source without the one about that line, in their order; if reading for the
target ended in front of the line, there was none, and they are the same. -/
theorem unknown_command_inert (settings : Settings) (source : String)
    (accepted : settings.refuses source.utf8ByteSize = false)
    (part : Section) (listed : part ∈ Section.ofSource source)
    (line : SourceLine) (member : line ∈ part.lines)
    (command : Command) (found : Command.ofLine? line.text = some command)
    (unknown : part.target.knows command.key = false) :
    let report := Report.ofSource settings source
    let quiet := Report.ofSource settings (SourceLine.replaceLine source line.number "#")
    report.success = quiet.success ∧
      (∀ target, report.output? target = quiet.output? target) ∧
      report.document? = quiet.document? ∧
      report.failure? = quiet.failure? ∧
      report.failureLine? = quiet.failureLine? ∧
      (¬report.EndedBefore part.target line.number →
        ∃ front back, report.warnings = front ++
            ("[" ++ part.target.label ++ "] line " ++ toString line.number ++ ": " ++
              Generator.unknownMessage part.target command.key) :: back ∧
          quiet.warnings = front ++ back) ∧
      (report.EndedBefore part.target line.number → report.warnings = quiet.warnings) := by
  intro report quiet
  have among := (Section.mem_of_mem_lines listed member).1
  have whole : report = Report.ofSections settings (Section.ofSource source) :=
    Report.ofSource_of_accepted accepted
  have quietWhole : quiet = Report.ofSections settings
      (Section.ofSource (SourceLine.replaceLine source line.number "#")) :=
    Report.ofSource_of_accepted (SourceLine.refuses_replaceLine accepted among found)
  rcases Report.exists_outcomes_of_silenced settings listed member found unknown with
    ⟨outcome, quietOutcome, outcomeFor, quietFor, isFor, ended, notEnded⟩
  have others := fun (target : Target) (other : target ≠ part.target) =>
    Report.saysSame_of_silenced settings listed member found other
  have results : ∀ target, Option.Rel Report.SameResult
      ((Report.ofSections settings (Section.ofSource source)).outcomeFor? target)
      ((Report.ofSections settings (Section.ofSource
        (SourceLine.replaceLine source line.number "#"))).outcomeFor? target) := by
    intro target
    by_cases same : target = part.target
    · rw [same, outcomeFor, quietFor]
      by_cases early : ∃ error ∈ outcome.errors, error.line < line.number
      · exact .some (ended early).toSameResult
      · exact .some (notEnded early).toSameResult
    · exact Report.sameResult_of_saysSame (others target same)
  have endedBefore : report.EndedBefore part.target line.number ↔
      ∃ error ∈ outcome.errors, error.line < line.number := by
    rw [whole, Report.EndedBefore, outcomeFor]
    exact ⟨fun ⟨given, same, early⟩ => Option.some.inj same ▸ early, fun early => ⟨outcome, rfl, early⟩⟩
  rcases Report.eq_of_sameResult results with ⟨success, outputs, document, failure, failureLine⟩
  rw [endedBefore, whole, quietWhole]
  refine ⟨success, outputs, document, failure, failureLine, fun late => ?_, fun early => ?_⟩
  · exact Report.loses_warnings outcomeFor quietFor isFor (notEnded late) others
  · apply Report.warnings_of_saysSame
    intro target
    by_cases same : target = part.target
    · rw [same, outcomeFor, quietFor]
      exact .some (ended early)
    · exact others target same

/-- A page with a quoted text in front, and with an unknown command behind the line
on which it fails. -/
def unheard : String := "\"نص\"\r\nأنهِ قائمة\nمجهول"

theorem unknown_command_inert_unheard :
    Settings.refuses {} unheard.utf8ByteSize = false ∧
      (∃ front back, (Report.ofSource {} unheard).warnings =
          front ++ "[HTML] line 1: expected a command before the quoted text" :: back ∧
        (Report.ofSource {} (SourceLine.replaceLine unheard 1 "#")).warnings = front ++ back) ∧
      (Report.ofSource {} unheard).warnings =
        (Report.ofSource {} (SourceLine.replaceLine unheard 3 "#")).warnings := by
  have accepted : Settings.refuses {} unheard.utf8ByteSize = false := by decide +kernel
  let part : Section :=
    ⟨.page, [⟨1, "\"نص\"", ⟨0, 6⟩⟩, ⟨2, "أنهِ قائمة", ⟨8, 27⟩⟩, ⟨3, "مجهول", ⟨28, 38⟩⟩]⟩
  have listed : part ∈ Section.ofSource unheard := by decide +kernel
  have failed : ((Report.ofSource {} unheard).outcomeFor? .page).map
      (fun outcome => outcome.errors.map Diagnostic.line) = some [2] := by decide +kernel
  rcases Option.map_eq_some_iff.mp failed with ⟨outcome, outcomeFor, errors⟩
  refine ⟨accepted, ?_, ?_⟩
  · rcases unknown_command_inert {} unheard accepted part listed ⟨1, "\"نص\"", ⟨0, 6⟩⟩ (by decide)
      ⟨"", [⟨⟨"نص", true⟩, 0⟩], "\"نص\""⟩ (by decide +kernel) (by decide +kernel) with
      ⟨-, -, -, -, -, loses, -⟩
    apply loses
    rintro ⟨given, same, error, member, early⟩
    rw [outcomeFor] at same
    have counted : error.line ∈ outcome.errors.map Diagnostic.line :=
      List.mem_map_of_mem (Option.some.inj same ▸ member)
    rw [errors, List.mem_singleton] at counted
    rw [counted] at early
    exact absurd early (by decide)
  · rcases unknown_command_inert {} unheard accepted part listed ⟨3, "مجهول", ⟨28, 38⟩⟩ (by decide)
      ⟨"مجهول", [], "مجهول"⟩ (by decide +kernel) (by decide +kernel) with
      ⟨-, -, -, -, -, -, keeps⟩
    apply keeps
    have counted : 2 ∈ outcome.errors.map Diagnostic.line := errors ▸ List.mem_singleton_self 2
    rcases List.mem_map.mp counted with ⟨error, member, number⟩
    exact ⟨outcome, outcomeFor, error, member, number ▸ (by decide)⟩

end Pagewright
