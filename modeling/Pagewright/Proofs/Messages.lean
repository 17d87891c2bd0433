import Pagewright.Proofs.Commands
import Pagewright.Proofs.Report

namespace Pagewright

/-!
# Messages

A generator that gives up is not trusted to say why: what it leaves behind is
turned into a message about an internal failure, which begins with words of its
own.  The messages of a generator that works are about the source.  They name
what could not be closed or run, which words are unknown, or how many blocks
were left open, and the words at their beginning are fixed.

So a look at the first letter tells the two kinds apart, and no generator of the
library ever says anything of the first kind, in whatever state it is asked.
-/

/-- A message about a failure inside a generator. -/
def IsInternal (message : String) : Prop :=
  "internal emitter failure".toList <+: message.toList

/-- Every generator that gives up leaves such a message. -/
theorem isInternal_crash (crash : Crash) : IsInternal crash.fault.message := by
  refine ⟨(": " ++ crash.reason.getD "emitter panicked").toList, ?_⟩
  rw [← String.toList_append, ← String.append_assoc]
  rfl

/-- A text with a first letter that begins no message about an internal
failure. -/
def BeginsOtherwise (text : String) : Prop :=
  text.toList.head?.any (· != 'i') = true

theorem BeginsOtherwise.append {front : String} (otherwise : BeginsOtherwise front)
    (rest : String) : BeginsOtherwise (front ++ rest) := by
  unfold BeginsOtherwise at otherwise ⊢
  rw [String.toList_append, List.head?_append]
  cases first : front.toList.head? with
  | none =>
      rw [first] at otherwise
      cases otherwise
  | some c =>
      rw [first] at otherwise
      exact otherwise

theorem BeginsOtherwise.not_isInternal {message : String} (otherwise : BeginsOtherwise message) :
    ¬IsInternal message := by
  rintro ⟨rest, whole⟩
  rw [BeginsOtherwise, ← whole, List.head?_append] at otherwise
  cases otherwise

theorem beginsOtherwise_count (count : Nat) : BeginsOtherwise (toString count) := by
  rw [BeginsOtherwise, Nat.toString_eq_repr, Nat.toList_repr]
  cases digits : Nat.toDigits 10 count with
  | nil => exact absurd digits Nat.toDigits_ne_nil
  | cons first others =>
      have digit : first.isDigit = true :=
        Nat.isDigit_of_mem_toDigits (by decide) (by decide) (digits ▸ List.mem_cons_self)
      rw [List.head?_cons, Option.any_some, bne_iff_ne]
      rintro rfl
      cases digit

theorem beginsOtherwise_unknown (target : Target) (key : String) :
    BeginsOtherwise (Generator.unknownMessage target key) := by
  have unknown : BeginsOtherwise "unknown " := by
    unfold BeginsOtherwise
    decide
  unfold Generator.unknownMessage
  split
  · unfold BeginsOtherwise
    decide
  · exact ((unknown.append _).append _).append _

/-- The faults in the structure of a source. -/
theorem beginsOtherwise_fault {fault : Fault} (structural : fault.isStructural = true) :
    BeginsOtherwise fault.message := by
  have cannotClose : BeginsOtherwise "cannot close " := by
    unfold BeginsOtherwise
    decide
  have cannotRun : BeginsOtherwise "cannot run '" := by
    unfold BeginsOtherwise
    decide
  cases fault with
  | unmatchedClose construct => exact (cannotClose.append _).append _
  | contentAfterClose command => exact (cannotRun.append _).append _
  | sourceTooLarge size limit => cases structural
  | internal reason => cases structural

namespace Step

variable {σ : Type}

/-- A step whose messages are about the source. -/
structure Speaks (step : Step σ) : Prop where
  warnings : ∀ warning ∈ step.warnings, BeginsOtherwise warning
  fault : ∀ fault, step.verdict = .failed fault → BeginsOtherwise fault.message
  verdict : ∀ crash, step.verdict ≠ .crashed crash

theorem speaks_handled (state : σ) : Speaks { state := state } :=
  ⟨List.forall_mem_nil _, fun _ => Verdict.noConfusion, fun _ => Verdict.noConfusion⟩

theorem speaks_unknown (state : σ) : Speaks { state := state, verdict := .unknown } :=
  ⟨List.forall_mem_nil _, fun _ => Verdict.noConfusion, fun _ => Verdict.noConfusion⟩

theorem speaks_warning (state : σ) {message : String}
    (otherwise : message.toList.head?.any (· != 'i') = true) :
    Speaks { state := state, warnings := [message] } :=
  ⟨List.forall_mem_singleton.mpr otherwise, fun _ => Verdict.noConfusion,
    fun _ => Verdict.noConfusion⟩

theorem speaks_failed (state : σ) {fault : Fault} (structural : fault.isStructural = true) :
    Speaks { state := state, verdict := .failed fault } := by
  refine ⟨List.forall_mem_nil _, ?_, fun _ => Verdict.noConfusion⟩
  intro other same
  rw [← Verdict.failed.inj same]
  exact beginsOtherwise_fault structural

end Step

namespace Generator

variable {σ : Type}

/-- A generator whose messages are all about the source. -/
structure Speaks (generator : Generator σ) : Prop where
  execute : ∀ state command, (generator.execute state command).Speaks
  output : ∀ state, ∃ text, (generator.finish state).output = .ok text
  closing : ∀ state, ∀ warning ∈ (generator.finish state).warnings, BeginsOtherwise warning

/-- All that is said while commands are carried out is about the source. -/
theorem speaks_obey {generator : Generator σ} (speaks : generator.Speaks) (state : σ)
    (commands : List Command) :
    (∀ warning ∈ (generator.obey state commands).warnings, BeginsOtherwise warning) ∧
      ∀ fault, (generator.obey state commands).fault = some fault → BeginsOtherwise fault.message := by
  induction commands generalizing state with
  | nil => exact ⟨List.forall_mem_nil _, fun _ absent => (nomatch absent)⟩
  | cons command rest ih =>
      have step := speaks.execute state command
      have later := ih (generator.execute state command).state
      rw [obey]
      cases verdict : (generator.execute state command).verdict with
      | handled => exact ⟨List.forall_mem_append.mpr ⟨step.warnings, later.1⟩, later.2⟩
      | unknown =>
          refine ⟨List.forall_mem_append.mpr ⟨List.forall_mem_append.mpr ⟨step.warnings, ?_⟩, later.1⟩,
            later.2⟩
          exact List.forall_mem_singleton.mpr (beginsOtherwise_unknown _ _)
      | failed fault =>
          refine ⟨step.warnings, ?_⟩
          intro other same
          rw [← Option.some.inj same]
          exact step.fault fault verdict
      | crashed crash => exact absurd verdict (step.verdict crash)

/-- All that a run says is about the source. -/
theorem speaks_run {generator : Generator σ} (speaks : generator.Speaks) (sections : List Section) :
    ∀ message ∈ (generator.run sections).account.errors ++ (generator.run sections).account.warnings,
      BeginsOtherwise message := by
  rw [account_run, account]
  generalize commandsOf (sections.flatMap Section.lines) = commands
  rcases speaks_obey speaks generator.initial commands with ⟨warnings, fault⟩
  rcases speaks.output (generator.obey generator.initial commands).state with ⟨text, output⟩
  rw [output]
  refine List.forall_mem_append.mpr ⟨?_, List.forall_mem_append.mpr ⟨warnings, speaks.closing _⟩⟩
  intro message member
  rcases Option.map_eq_some_iff.mp (Option.mem_toList.mp member) with ⟨cause, present, rfl⟩
  exact fault cause present

end Generator

/-! ## The three generators -/

open Step (speaks_handled speaks_unknown speaks_warning speaks_failed)

namespace Page

theorem speaks_styleOverride (page : Page) (declaration : String) :
    (page.styleOverride declaration).Speaks := by
  unfold styleOverride
  split
  · exact speaks_warning _ (by decide)
  · exact speaks_handled _

theorem speaks_listItem (page : Page) (text : String) : (page.listItem text).Speaks := by
  unfold listItem
  split
  · exact speaks_handled _
  · exact speaks_warning _ (by decide)

theorem speaks_tableRow (page : Page) : page.tableRow.Speaks := by
  unfold tableRow
  dsimp only
  split
  · exact speaks_handled _
  · exact speaks_warning _ (by decide)

theorem speaks_tableCell (page : Page) (text : String) : (page.tableCell text).Speaks := by
  unfold tableCell
  dsimp only
  split
  · exact speaks_handled _
  · exact speaks_warning _ (by decide)

theorem speaks_add (page : Page) (command : Command) (content : Content) :
    (page.add command content).Speaks := by
  cases content with
  | backgroundColor => exact speaks_styleOverride page _
  | textColor => exact speaks_styleOverride page _
  | font => exact speaks_styleOverride page _
  | listItem => exact speaks_listItem page _
  | tableRow => exact speaks_tableRow page
  | tableCell => exact speaks_tableCell page _
  | _ => exact speaks_handled _

theorem speaks_openPage (settings : Settings) (page : Page) (title : String) :
    (page.openPage settings title).Speaks := by
  unfold openPage
  split
  · exact speaks_handled _
  all_goals exact speaks_warning _ (by decide)

theorem speaks_closePage (page : Page) : page.closePage.Speaks := by
  unfold closePage
  split
  · exact speaks_warning _ (by decide)
  · exact speaks_handled _
  · exact speaks_warning _ (by decide)

theorem speaks_endBlock (page : Page) (construct : String) : (page.endBlock construct).Speaks := by
  unfold endBlock
  split
  · exact speaks_handled _
  · exact speaks_failed _ rfl

theorem speaks_generator (settings : Settings) : (generator settings).Speaks where
  execute := by
    intro page command
    show (execute settings page command).Speaks
    unfold execute
    split
    case h_1 => exact speaks_unknown _
    case h_2 => exact speaks_openPage settings page _
    case h_3 => exact speaks_closePage page
    case h_4 => exact speaks_endBlock page _
    case h_5 => exact speaks_endBlock page _
    case h_6 => exact speaks_endBlock _ _
    case h_7 content _ =>
        split
        · exact speaks_add _ command content
        · exact speaks_add _ command content
        · exact speaks_failed _ rfl
  output := fun _ => ⟨_, rfl⟩
  closing := fun _ => List.forall_mem_nil _

end Page

namespace Stylesheet

theorem speaks_apply (sheet : Sheet) (command : Command) (instruction : Instruction) :
    (apply sheet command instruction).Speaks := by
  cases instruction with
  | rule =>
      rw [apply]
      split
      · exact speaks_handled _
      · exact speaks_warning _ (by decide)
  | endMedia =>
      rw [apply]
      split
      · exact speaks_handled _
      · exact speaks_failed _ rfl
  | _ => exact speaks_handled _

theorem speaks_generator : generator.Speaks where
  execute := by
    intro sheet command
    show (execute sheet command).Speaks
    unfold execute
    split
    · exact speaks_unknown _
    · split
      · exact speaks_warning _ (by decide)
      · exact speaks_apply sheet command _
  output := fun _ => ⟨_, rfl⟩
  closing := by
    intro sheet
    show ∀ warning ∈ (finish sheet).warnings, BeginsOtherwise warning
    unfold finish
    dsimp only
    split
    · exact List.forall_mem_nil _
    · exact List.forall_mem_singleton.mpr ((beginsOtherwise_count _).append _)

end Stylesheet

namespace Script

theorem speaks_apply (program : Program) (action : Action) : (program.apply action).Speaks := by
  cases action with
  | line => exact speaks_handled _
  | openBlock => exact speaks_handled _
  | reopenBlock =>
      rw [Program.apply]
      split
      · exact speaks_handled _
      · exact speaks_failed _ rfl
  | closeBlock =>
      rw [Program.apply]
      split
      · exact speaks_handled _
      · exact speaks_failed _ rfl
  | callback => exact speaks_handled _

theorem speaks_generator : generator.Speaks where
  execute := by
    intro program command
    show (execute program command).Speaks
    unfold execute
    split
    · exact speaks_unknown _
    · exact speaks_apply program _
  output := fun _ => ⟨_, rfl⟩
  closing := by
    intro program
    show ∀ warning ∈ (finish program).warnings, BeginsOtherwise warning
    unfold finish
    dsimp only
    split
    · exact List.forall_mem_nil _
    · exact List.forall_mem_singleton.mpr ((beginsOtherwise_count _).append _)

end Script

namespace Report

/-- What an outcome says in a report is what its run said. -/
theorem beginsOtherwise_diagnosticsOf {σ : Type} {generator : Generator σ}
    (speaks : generator.Speaks) {sections : List Section} {outcome : Outcome}
    (ran : outcome? generator sections = some outcome) :
    ∀ entry ∈ diagnosticsOf outcome, BeginsOtherwise entry.2.message := by
  rcases eq_run_of_outcome? ran with ⟨matching, rfl⟩
  have said := Generator.speaks_run speaks matching
  intro entry member
  apply said
  rcases List.mem_map.mp member with ⟨diagnostic, listed, rfl⟩
  rcases List.mem_append.mp listed with error | warning
  · apply List.mem_append_left
    split at error
    case isTrue => exact List.mem_map_of_mem error
    case isFalse =>
        rcases List.mem_map.mp error with ⟨original, present, rfl⟩
        exact List.mem_map.mpr ⟨original, present, rfl⟩
  · exact List.mem_append_right _ (List.mem_map_of_mem warning)

/-- All that a report says is about the source. -/
theorem beginsOtherwise_diagnostics (settings : Settings) (source : String) :
    ∀ entry ∈ (ofSource settings source).diagnostics, BeginsOtherwise entry.2.message := by
  intro entry member
  rw [diagnostics, List.mem_mergeSort, List.mem_flatMap] at member
  rcases member with ⟨outcome, ran, said⟩
  unfold ofSource at ran
  dsimp only at ran
  split at ran
  case isTrue => cases ran
  case isFalse =>
      rcases List.mem_append.mp ran with styled | script
      · rcases List.mem_append.mp styled with page | stylesheet
        · exact beginsOtherwise_diagnosticsOf (Page.speaks_generator settings)
            (Option.mem_toList.mp page) entry said
        · exact beginsOtherwise_diagnosticsOf Stylesheet.speaks_generator
            (Option.mem_toList.mp stylesheet) entry said
      · exact beginsOtherwise_diagnosticsOf Script.speaks_generator
          (Option.mem_toList.mp script) entry said

end Report

end Pagewright
