import Pagewright.Proofs.Json.Writing
import Pagewright.Summary

namespace Pagewright
namespace Summary

/-!
# Summaries handed on as data

Whoever receives the text of a summary reads it as JSON and knows nothing of
how it was written.  Such a reader finds every member that has a value, under
its name and in a fixed order, and finds nothing else.  A summary is therefore
determined by its text.

An absent member and a member without content are different things here: an
empty text is written, and only an empty list of warnings is left out.
-/

/-- The names that members may have, in their order. -/
def memberNames : List String :=
  ["success", "html", "css", "javascript", "combinedOutput", "error", "lineNumber", "warnings"]

/-- What the members found in a text say, if they are those of a summary. -/
structure Tells (entries : List (String × Datum)) (summary : Summary) : Prop where
  names : (entries.map Prod.fst).Sublist memberNames
  success : entries.lookup "success" = some (.boolean summary.success)
  html : entries.lookup "html" = summary.html.map .text
  css : entries.lookup "css" = summary.css.map .text
  javascript : entries.lookup "javascript" = summary.javascript.map .text
  combinedOutput : entries.lookup "combinedOutput" = summary.combinedOutput.map .text
  error : entries.lookup "error" = summary.error.map .text
  lineNumber : entries.lookup "lineNumber" = summary.lineNumber.map fun line : Nat => .integer line
  warnings : entries.lookup "warnings" =
    if summary.warnings = [] then none else some (.list (summary.warnings.map .text))

/-! ## The members of the text -/

/-- A member that is there if it has a value. -/
def told (name : String) (value : Option Datum) : List (String × Datum) :=
  (value.map fun given => (name, given)).toList

theorem map_optional {α : Type} (name : String) (wrap : α → Json.Value) (value : Option α) :
    (optional name wrap value).map (fun given => (given.1, given.2.datum)) =
      told name (value.map fun given => (wrap given).datum) := by
  cases value with
  | none => rfl
  | some given => rfl

theorem lookup_told (name wanted : String) (value : Option Datum) :
    (told name value).lookup wanted = if wanted = name then value else none := by
  cases value with
  | none => exact (ite_self none).symm
  | some given =>
      rw [told, Option.map_some, Option.toList_some, List.lookup_cons]
      by_cases same : wanted = name
      · rw [if_pos same, beq_iff_eq.mpr same]
      · rw [if_neg same, beq_eq_false_iff_ne.mpr same]
        rfl

theorem names_told (name : String) (value : Option Datum) :
    ((told name value).map Prod.fst).Sublist [name] := by
  cases value with
  | none => exact List.nil_sublist [name]
  | some given => exact List.Sublist.refl [name]

/-- The members that a reader finds in the text of a summary. -/
def entries (summary : Summary) : List (String × Datum) :=
  summary.members.map fun given => (given.1, given.2.datum)

theorem entries_eq (summary : Summary) :
    summary.entries =
      told "success" (some (.boolean summary.success)) ++ told "html" (summary.html.map .text) ++
        told "css" (summary.css.map .text) ++ told "javascript" (summary.javascript.map .text) ++
        told "combinedOutput" (summary.combinedOutput.map .text) ++
        told "error" (summary.error.map .text) ++
        told "lineNumber" (summary.lineNumber.map fun line : Nat => .integer line) ++
        told "warnings"
          (if summary.warnings = [] then none else some (.list (summary.warnings.map .text))) := by
  have warnings : (if summary.warnings.isEmpty = true then none else some summary.warnings).map
      (fun given => (Json.Value.texts given).datum) =
        if summary.warnings = [] then none else some (.list (summary.warnings.map .text)) := by
    cases summary.warnings with
    | nil => rfl
    | cons first others => rfl
  unfold entries members
  simp only [List.map_append, map_optional, warnings]
  rfl

theorem tells_entries (summary : Summary) : Tells summary.entries summary := by
  rw [entries_eq]
  constructor
  case names =>
      simp only [List.map_append]
      exact names_told _ _ |>.append (names_told _ _) |>.append (names_told _ _)
        |>.append (names_told _ _) |>.append (names_told _ _) |>.append (names_told _ _)
        |>.append (names_told _ _) |>.append (names_told _ _)
  all_goals simp [List.lookup_append, lookup_told]

/-- Members say one thing only. -/
theorem Tells.unique {entries : List (String × Datum)} {summary other : Summary}
    (this : Tells entries summary) (that : Tells entries other) : summary = other := by
  have texts : ∀ {left right : Option String}, left.map Datum.text = right.map .text → left = right :=
    fun same => Option.map_injective (fun _ _ => Datum.text.inj) same
  have success : summary.success = other.success :=
    Datum.boolean.inj (Option.some.inj (this.success.symm.trans that.success))
  have lineNumber : summary.lineNumber = other.lineNumber :=
    Option.map_injective (fun _ _ same => Int.ofNat.inj (Datum.integer.inj same))
      (this.lineNumber.symm.trans that.lineNumber)
  have warnings : summary.warnings = other.warnings := by
    have same := this.warnings.symm.trans that.warnings
    split at same
    case isTrue empty =>
        split at same
        case isTrue otherEmpty => rw [empty, otherEmpty]
        case isFalse => cases same
    case isFalse filled =>
        split at same
        case isTrue => cases same
        case isFalse =>
            exact (List.map_inj_right fun _ _ => Datum.text.inj).mp
              (Datum.list.inj (Option.some.inj same))
  cases summary
  cases other
  rw [Summary.mk.injEq]
  exact ⟨success, texts (this.html.symm.trans that.html), texts (this.css.symm.trans that.css),
    texts (this.javascript.symm.trans that.javascript),
    texts (this.combinedOutput.symm.trans that.combinedOutput),
    texts (this.error.symm.trans that.error), lineNumber, warnings⟩

theorem read?_toJson (summary : Summary) :
    Json.read? summary.toJson = some (.table summary.entries) :=
  Json.read?_renderObject summary.members

/-- The text of a summary is JSON for an object whose members stand in their
order, each exactly if it has a value and with that value; and no other summary
has the same text. -/
theorem json_faithful (summary : Summary) :
    (∃ entries, Json.read? summary.toJson = some (.table entries) ∧ Tells entries summary) ∧
      ∀ other : Summary, other.toJson = summary.toJson ↔ other = summary := by
  refine ⟨⟨summary.entries, read?_toJson summary, tells_entries summary⟩, fun other => ?_⟩
  constructor
  · intro same
    have found := read?_toJson other
    rw [same, read?_toJson summary] at found
    have shared : summary.entries = other.entries := Datum.table.inj (Option.some.inj found)
    exact (tells_entries other).unique (shared ▸ tells_entries summary)
  · intro same
    rw [same]

end Summary
end Pagewright
