import Mathlib.Data.List.Basic

namespace Pagewright
namespace Order

/-!
# Stable order

Entries are put in order by a number that each of them carries, and entries with
one number keep the order in which they were given.  These two facts determine
the result: a list in order is known from its entries with each number.  What
else is needed about the order follows without another look at sorting, in
particular that it does not matter whether entries are left out before or after
it is made.
-/

variable {α β : Type}

/-- The entries in the order of their numbers. -/
def byNumber (number : α → Nat) (entries : List α) : List α :=
  entries.mergeSort fun first second => number first ≤ number second

private theorem trans_le (number : α → Nat) (first second third : α)
    (left : decide (number first ≤ number second) = true)
    (right : decide (number second ≤ number third) = true) :
    decide (number first ≤ number third) = true :=
  decide_eq_true (Nat.le_trans (of_decide_eq_true left) (of_decide_eq_true right))

private theorem total_le (number : α → Nat) (first second : α) :
    (decide (number first ≤ number second) || decide (number second ≤ number first)) = true := by
  rw [Bool.or_eq_true, decide_eq_true_eq, decide_eq_true_eq]
  exact Nat.le_total _ _

theorem perm_byNumber (number : α → Nat) (entries : List α) :
    (byNumber number entries).Perm entries :=
  List.mergeSort_perm _ _

theorem pairwise_byNumber (number : α → Nat) (entries : List α) :
    (byNumber number entries).Pairwise fun first second => number first ≤ number second :=
  (List.pairwise_mergeSort (trans_le number) (total_le number) entries).imp of_decide_eq_true

/-- Entries with one number keep their order. -/
theorem filter_byNumber (number : α → Nat) (entries : List α) (given : Nat) :
    (byNumber number entries).filter (fun entry => number entry == given) =
      entries.filter fun entry => number entry == given := by
  have level : (entries.filter fun entry => number entry == given).Pairwise
      fun first second => decide (number first ≤ number second) = true := by
    apply List.pairwise_of_forall_mem_list
    intro first inFirst second inSecond
    have left := beq_iff_eq.mp (List.mem_filter.mp inFirst).2
    have right := beq_iff_eq.mp (List.mem_filter.mp inSecond).2
    exact decide_eq_true (Nat.le_of_eq (left.trans right.symm))
  have kept := List.sublist_mergeSort (trans_le number) (total_le number) level List.filter_sublist
  have again : (entries.filter fun entry => number entry == given).Sublist
      ((byNumber number entries).filter fun entry => number entry == given) := by
    have filtered := kept.filter fun entry => number entry == given
    rw [List.filter_filter] at filtered
    simp only [Bool.and_self] at filtered
    exact filtered
  have same := ((perm_byNumber number entries).filter fun entry => number entry == given).length_eq
  exact (again.eq_of_length same.symm).symm

/-- A list in order is determined by its entries with each number. -/
theorem eq_of_filter_eq {number : α → Nat} {left right : List α}
    (leftOrder : left.Pairwise fun first second => number first ≤ number second)
    (rightOrder : right.Pairwise fun first second => number first ≤ number second)
    (same : ∀ given, left.filter (fun entry => number entry == given) =
      right.filter fun entry => number entry == given) : left = right := by
  have passes : ∀ {lefts rights : List α}, (∀ given,
      lefts.filter (fun entry => number entry == given) =
        rights.filter fun entry => number entry == given) →
      ∀ entry ∈ lefts, entry ∈ rights := by
    intro lefts rights same entry member
    have kept : entry ∈ lefts.filter fun other => number other == number entry :=
      List.mem_filter.mpr ⟨member, beq_self_eq_true _⟩
    rw [same] at kept
    exact (List.mem_filter.mp kept).1
  induction left generalizing right with
  | nil =>
      cases right with
      | nil => rfl
      | cons entry rest =>
          exact absurd (passes (fun given => (same given).symm) entry List.mem_cons_self)
            List.not_mem_nil
  | cons first rest ih =>
      cases right with
      | nil => exact absurd (passes same first List.mem_cons_self) List.not_mem_nil
      | cons other others =>
          rcases List.pairwise_cons.mp leftOrder with ⟨leftLeast, restOrder⟩
          rcases List.pairwise_cons.mp rightOrder with ⟨rightLeast, othersOrder⟩
          -- Both heads have the least number, so they head the same filtered list.
          have level : number first = number other := by
            apply Nat.le_antisymm
            · rcases List.mem_cons.mp (passes (fun given => (same given).symm) other
                List.mem_cons_self) with here | later
              · exact Nat.le_of_eq (congrArg number here.symm)
              · exact leftLeast other later
            · rcases List.mem_cons.mp (passes same first List.mem_cons_self) with here | later
              · exact Nat.le_of_eq (congrArg number here.symm)
              · exact rightLeast first later
          have heads := same (number first)
          simp only [List.filter_cons, level, beq_self_eq_true, if_true] at heads
          have head : first = other := (List.cons.inj heads).1
          have tails : ∀ given, rest.filter (fun entry => number entry == given) =
              others.filter fun entry => number entry == given := by
            intro given
            have both := same given
            rw [← head, List.filter_cons, List.filter_cons] at both
            split at both
            · exact (List.cons.inj both).2
            · exact both
          rw [head, ih restOrder othersOrder tails]

/-- Entries may be left out before or after the order is made. -/
theorem byNumber_filter (number : α → Nat) (keep : α → Bool) (entries : List α) :
    (byNumber number entries).filter keep = byNumber number (entries.filter keep) := by
  apply eq_of_filter_eq ((pairwise_byNumber number entries).filter keep) (pairwise_byNumber number _)
  intro given
  rw [List.filter_comm, filter_byNumber, filter_byNumber, List.filter_comm]

theorem map_byNumber (number : β → Nat) (view : α → β) (entries : List α) :
    (byNumber (fun entry => number (view entry)) entries).map view =
      byNumber number (entries.map view) :=
  List.map_mergeSort fun _ _ _ _ => rfl

/-- One more entry stands somewhere between the others, which keep their
places. -/
theorem byNumber_middle (number : α → Nat) (before : List α) (extra : α) (after : List α) :
    ∃ front back, byNumber number (before ++ extra :: after) = front ++ extra :: back ∧
      byNumber number (before ++ after) = front ++ back := by
  -- The mark tells the extra entry from equal ones.
  let marked : List (α × Bool) :=
    before.map (·, true) ++ (extra, false) :: after.map (·, true)
  let ordered := byNumber (fun entry => number entry.1) marked
  have all : ordered.map Prod.fst = byNumber number (before ++ extra :: after) := by
    rw [map_byNumber number Prod.fst]
    simp [marked, Function.comp_def]
  have others : (ordered.filter Prod.snd).map Prod.fst = byNumber number (before ++ after) := by
    rw [byNumber_filter, map_byNumber number Prod.fst]
    simp [marked, List.filter_map, Function.comp_def]
  have member : (extra, false) ∈ ordered :=
    (perm_byNumber _ marked).mem_iff.mpr (List.mem_append_right _ List.mem_cons_self)
  rcases List.append_of_mem member with ⟨front, back, split⟩
  have single : (ordered.filter fun entry => !entry.2).length = 1 := by
    rw [((perm_byNumber _ marked).filter fun entry => !entry.2).length_eq]
    simp [marked, List.filter_map, Function.comp_def]
  rw [split, List.filter_append, List.filter_cons_of_pos rfl, List.length_append, List.length_cons]
    at single
  have unmarked : ∀ {part : List (α × Bool)}, (part.filter fun entry => !entry.2).length = 0 →
      part.filter Prod.snd = part := by
    intro part none
    apply List.filter_eq_self.mpr
    intro entry listed
    have dropped := List.filter_eq_nil_iff.mp (List.eq_nil_of_length_eq_zero none) entry listed
    simpa using dropped
  refine ⟨front.map Prod.fst, back.map Prod.fst, ?_, ?_⟩
  · rw [← all, split, List.map_append, List.map_cons]
  · rw [← others, split, List.filter_append, List.filter_cons_of_neg Bool.false_ne_true,
      unmarked (by omega), unmarked (by omega), List.map_append]

end Order
end Pagewright
