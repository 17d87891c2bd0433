import Pagewright.Report

namespace Pagewright
namespace Report

/-!
# Outputs of a report

A report keeps its outcomes in one list and finds the outcome for a target by
looking for it.  Since every generator marks its outcome with its own target,
this finds the run of the generator for that target, and a run exists exactly
when the source has a section for it.
-/

theorem target_run {σ : Type} (generator : Generator σ) (sections : List Section) :
    (generator.run sections).target = generator.target := by
  unfold Generator.run Generator.close
  dsimp only
  split <;> rfl

/-- An outcome comes from a run over some of the sections. -/
theorem eq_run_of_outcome? {σ : Type} {generator : Generator σ} {sections : List Section}
    {outcome : Outcome} (ran : outcome? generator sections = some outcome) :
    ∃ matching, outcome = generator.run matching := by
  unfold outcome? at ran
  split at ran
  · cases ran
  · exact ⟨_, (Option.some.inj ran).symm⟩

theorem target_of_outcome? {σ : Type} {generator : Generator σ} {sections : List Section}
    {outcome : Outcome} (ran : outcome? generator sections = some outcome) :
    outcome.target = generator.target := by
  rcases eq_run_of_outcome? ran with ⟨matching, run⟩
  rw [run]
  exact target_run generator matching

/-- A generator runs exactly when there is a section for its target. -/
theorem isSome_outcome? {σ : Type} (generator : Generator σ) (sections : List Section) :
    (outcome? generator sections).isSome = true ↔ ∃ part ∈ sections, part.target = generator.target := by
  unfold outcome?
  split
  case h_1 none =>
      refine ⟨nofun, ?_⟩
      rintro ⟨part, member, target⟩
      exact absurd (beq_iff_eq.mpr target) (List.filter_eq_nil_iff.mp none part member)
  case h_2 some =>
      refine ⟨fun _ => ?_, fun _ => rfl⟩
      rcases List.exists_mem_of_ne_nil _ some with ⟨part, member⟩
      have kept := List.mem_filter.mp member
      exact ⟨part, kept.1, beq_iff_eq.mp kept.2⟩

/-- The outcome of a generator is found by its own target and by no other. -/
theorem find?_outcome? {σ : Type} (generator : Generator σ) (sections : List Section)
    (target : Target) :
    (outcome? generator sections).toList.find? (fun outcome => outcome.target == target) =
      if generator.target = target then outcome? generator sections else none := by
  cases ran : outcome? generator sections with
  | none => rw [Option.toList_none, List.find?_nil, ite_self]
  | some outcome =>
      rw [Option.toList_some, List.find?_singleton, target_of_outcome? ran]
      simp only [beq_iff_eq]

/-- The outcomes of a report are those of the generators that ran. -/
theorem outcomeFor?_ofSections (settings : Settings) (sections : List Section) :
    (ofSections settings sections).outcomeFor? .page =
        outcome? (Page.generator settings) sections ∧
      (ofSections settings sections).outcomeFor? .stylesheet =
        outcome? Stylesheet.generator sections ∧
      (ofSections settings sections).outcomeFor? .script = outcome? Script.generator sections := by
  have found : ∀ target, (ofSections settings sections).outcomeFor? target =
      ((if Target.page = target then outcome? (Page.generator settings) sections else none).or
        (if Target.stylesheet = target then outcome? Stylesheet.generator sections else none)).or
        (if Target.script = target then outcome? Script.generator sections else none) := by
    intro target
    unfold outcomeFor? outcomes ofSections
    dsimp only
    rw [List.find?_append, List.find?_append, find?_outcome?, find?_outcome?, find?_outcome?]
    rfl
  refine ⟨?_, ?_, ?_⟩
  · rw [found, if_pos rfl, if_neg (by decide), if_neg (by decide), Option.or_none, Option.or_none]
  · rw [found, if_neg (by decide), if_pos rfl, if_neg (by decide), Option.none_or, Option.or_none]
  · rw [found, if_neg (by decide), if_neg (by decide), if_pos rfl, Option.none_or, Option.none_or]

/-- The outputs of a report are those of the generators that ran. -/
theorem output?_ofSections (settings : Settings) (sections : List Section) :
    (ofSections settings sections).output? .page =
        (outcome? (Page.generator settings) sections).map Outcome.output ∧
      (ofSections settings sections).output? .stylesheet =
        (outcome? Stylesheet.generator sections).map Outcome.output ∧
      (ofSections settings sections).output? .script =
        (outcome? Script.generator sections).map Outcome.output := by
  rcases outcomeFor?_ofSections settings sections with ⟨page, stylesheet, script⟩
  rw [output?, output?, output?, page, stylesheet, script]
  exact ⟨rfl, rfl, rfl⟩

theorem ofSource_of_accepted {settings : Settings} {source : String}
    (accepted : settings.refuses source.utf8ByteSize = false) :
    ofSource settings source = ofSections settings (Section.ofSource source) := by
  rw [ofSource, accepted]
  rfl

/-- Only an accepted source has outputs. -/
theorem accepted_of_output? {settings : Settings} {source output : String} {target : Target}
    (written : (ofSource settings source).output? target = some output) :
    settings.refuses source.utf8ByteSize = false := by
  cases refused : settings.refuses source.utf8ByteSize with
  | false => rfl
  | true =>
      rw [ofSource, refused] at written
      cases written

/-- There is an output for a target exactly when there is a section for it. -/
theorem isSome_output? {settings : Settings} {source : String}
    (accepted : settings.refuses source.utf8ByteSize = false) (target : Target) :
    ((ofSource settings source).output? target).isSome = true ↔
      ∃ part ∈ Section.ofSource source, part.target = target := by
  rcases output?_ofSections settings (Section.ofSource source) with ⟨page, stylesheet, script⟩
  rw [ofSource_of_accepted accepted]
  cases target with
  | page =>
      rw [page, Option.isSome_map]
      exact isSome_outcome? (Page.generator settings) _
  | stylesheet =>
      rw [stylesheet, Option.isSome_map]
      exact isSome_outcome? Stylesheet.generator _
  | script =>
      rw [script, Option.isSome_map]
      exact isSome_outcome? Script.generator _

/-- The document is made of the outputs. -/
theorem document?_ofSections (settings : Settings) (sections : List Section) :
    (ofSections settings sections).document? =
      some (Document.compose settings ((ofSections settings sections).output? .page)
        ((ofSections settings sections).output? .stylesheet)
        ((ofSections settings sections).output? .script)) := by
  rcases output?_ofSections settings sections with ⟨page, stylesheet, script⟩
  rw [page, stylesheet, script]
  rfl

theorem document?_ofSource {settings : Settings} {source : String}
    (accepted : settings.refuses source.utf8ByteSize = false) :
    (ofSource settings source).document? =
      some (Document.compose settings ((ofSource settings source).output? .page)
        ((ofSource settings source).output? .stylesheet)
        ((ofSource settings source).output? .script)) := by
  rw [ofSource_of_accepted accepted]
  exact document?_ofSections settings (Section.ofSource source)

end Report
end Pagewright
