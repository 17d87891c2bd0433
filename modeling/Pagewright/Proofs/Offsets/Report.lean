import Pagewright.Proofs.Messages
import Pagewright.Proofs.Offsets.Document
import Pagewright.Proofs.Offsets.Generators
import Pagewright.Proofs.Source

namespace Pagewright
namespace Offsets

/-!
# Reports by offsets

Interpreting a source once more, with every slice, every split, every look at
the first line of a section and every step down of a counter as an operation
that may fail.  What fails while lines are read or a document is composed leaves
no report at all; what fails inside a generator is caught there and becomes a
diagnostic about an internal failure.

No source and no settings bring about either.  There is always a report, it is
the one of the library, and none of its messages is about an internal failure.
-/

/-! ## Sections -/

/-- Finish a run of lines.  The first line of a section is looked at. -/
def flush? (found : List Section) (target : Target) (buffer : List SourceLine) :
    Option (List Section) :=
  if Section.hasText ⟨target, buffer⟩ then
    buffer[0]?.map fun _ => found ++ [⟨target, buffer⟩]
  else
    some found

/-- A source being split: the sections found, and the run that is being
gathered. -/
structure Gathering where
  found : List Section := []
  target : Target := .page
  buffer : List SourceLine := []
deriving Repr, DecidableEq

def Gathering.finish? (gathering : Gathering) : Option (List Section) :=
  flush? gathering.found gathering.target gathering.buffer

/-- Take one line. -/
def Gathering.step? (gathering : Gathering) (line : SourceLine) : Option Gathering :=
  match Marker.ofText? line.text with
  | some marker =>
      gathering.finish?.map fun found => { found := found, target := marker.target }
  | none => some { gathering with buffer := gathering.buffer ++ [line] }

/-- The sections of a source. -/
def sections? (source : String) : Option (List Section) :=
  ((SourceLine.ofSource source).foldlM Gathering.step? {}).bind Gathering.finish?

theorem flush?_eq (found : List Section) (target : Target) (buffer : List SourceLine) :
    flush? found target buffer =
      some (found ++ [(⟨target, buffer⟩ : Section)].filter Section.hasText) := by
  unfold flush?
  split
  case isTrue filled =>
      rw [List.filter_cons_of_pos filled, List.filter_nil]
      cases buffer with
      | nil => cases filled
      | cons line rest => rfl
  case isFalse blank => rw [List.filter_cons_of_neg blank, List.filter_nil, List.append_nil]

/-- The sections that come of a gathering and the lines behind it. -/
theorem finish?_foldlM (gathering : Gathering) (lines : List SourceLine) :
    (lines.foldlM Gathering.step? gathering).bind Gathering.finish? =
      some (gathering.found ++
        ((⟨gathering.target, gathering.buffer ++ (Section.runs lines).1⟩ : Section) ::
          (Section.runs lines).2.map fun (marker, run) => ⟨marker.target, run⟩).filter
            Section.hasText) := by
  induction lines generalizing gathering with
  | nil =>
      rw [List.foldlM_nil]
      refine (flush?_eq _ _ _).trans ?_
      rw [Section.runs, List.foldr_nil, List.append_nil]
      rfl
  | cons line rest ih =>
      rw [List.foldlM_cons]
      cases marked : Marker.ofText? line.text with
      | some marker =>
          have step : gathering.step? line = some
              { found := gathering.found ++
                  [(⟨gathering.target, gathering.buffer⟩ : Section)].filter Section.hasText
                target := marker.target } := by
            rw [Gathering.step?, marked]
            dsimp only
            rw [Gathering.finish?, flush?_eq, Option.map_some]
          rw [step, Section.runs_of_marked marked]
          refine (ih _).trans ?_
          rw [List.nil_append, List.append_nil, List.map_cons, List.append_assoc,
            ← List.filter_append, List.singleton_append]
      | none =>
          have step : gathering.step? line =
              some { gathering with buffer := gathering.buffer ++ [line] } := by
            rw [Gathering.step?, marked]
          rw [step, Section.runs_of_unmarked marked]
          refine (ih _).trans ?_
          rw [List.append_assoc, List.singleton_append]

/-- Every section has a first line. -/
theorem sections?_eq (source : String) : sections? source = some (Section.ofSource source) :=
  finish?_foldlM {} (SourceLine.ofSource source)

/-! ## Reports -/

/-- Run a generator over the sections for its target, if there are any. -/
def outcome? {σ : Type} (generator : Generator σ) (sections : List Section) :
    Option (Option Outcome) :=
  match sections.filter fun part => part.target == generator.target with
  | [] => some none
  | matching => (run? generator matching).map some

/-- Interpret a source. -/
def report? (settings : Settings) (source : String) : Option Report :=
  let size := source.utf8ByteSize
  if settings.refuses size then
    some (.rejected (.sourceTooLarge size settings.maxSourceBytes))
  else do
    let sections ← sections? source
    let page ← outcome? (Page.generator settings) sections
    let stylesheet ← outcome? sheetGenerator sections
    let script ← outcome? scriptGenerator sections
    let document ← compose? settings (page.map Outcome.output)
      (stylesheet.map Outcome.output) (script.map Outcome.output)
    return .composed (page.toList ++ stylesheet.toList ++ script.toList) document

theorem outcome?_eq {σ : Type} {guarded plain : Generator σ} (agrees : Agrees guarded plain)
    (sections : List Section) : outcome? guarded sections = some (Report.outcome? plain sections) := by
  unfold outcome? Report.outcome?
  rw [agrees.target]
  cases sections.filter fun part => part.target == plain.target with
  | nil => rfl
  | cons first others =>
      dsimp only
      rw [run?_eq agrees, Option.map_some]

/-- The report by offsets exists and is the report. -/
theorem report?_eq (settings : Settings) (source : String) :
    report? settings source = some (Report.ofSource settings source) := by
  unfold report? Report.ofSource
  dsimp only
  split
  case isTrue => rfl
  case isFalse =>
      rw [sections?_eq]
      dsimp only [Option.bind_eq_bind, Option.bind_some]
      rw [outcome?_eq (agrees_self _), Option.bind_some, outcome?_eq agrees_sheet, Option.bind_some,
        outcome?_eq agrees_script, Option.bind_some, compose?_eq]
      rfl

/-- Interpreting a source by offsets never fails: every slice exists, every
counter that is lowered is above zero, and what comes out is the report of the
source.  An operation that fails inside a generator would leave a diagnostic
about an internal failure, and there is none. -/
theorem report_total (settings : Settings) (source : String) :
    report? settings source = some (Report.ofSource settings source) ∧
      (∀ crash : Crash, IsInternal crash.fault.message) ∧
      ∀ entry ∈ (Report.ofSource settings source).diagnostics, ¬IsInternal entry.2.message := by
  refine ⟨report?_eq settings source, isInternal_crash, fun entry member => ?_⟩
  exact (Report.beginsOtherwise_diagnostics settings source entry member).not_isInternal

end Offsets
end Pagewright
