import Mathlib.Data.List.Sort
import Mathlib.Data.String.Basic
import Provisioning.Text.Sort
/-!
Sorted listings of names.

The library sorts with its own stable insertion sort (`Text.sortBy`), kept structural so that
listings compute inside proofs. It is Mathlib's `List.insertionSort` for the relation its test
decides (`sortBy_eq_insertionSort`), so a sort of names is ordered (`pairwise_sortStrings`) and
a sort of pairs is ordered by their names (`pairwise_sortByKey`). Dropping repeats from an
ordered list leaves a strictly increasing one (`pairwise_dedupAdjacent`), so `sortDedup` lists
its names in strictly increasing order, each once (`pairwise_sortDedup`).
-/

namespace Provisioning.Text

variable {α : Type} (r : α → α → Prop) [DecidableRel r]

/-- Inserting by a decided relation is Mathlib's ordered insertion. -/
theorem insertBy_eq_orderedInsert (x : α) (l : List α) :
    insertBy (fun a b => decide (r a b)) x l = l.orderedInsert r x := by
  induction l with
  | nil => rfl
  | cons y ys ih => by_cases h : r x y <;> simp [insertBy, h, ih]

/-- Sorting by a decided relation is Mathlib's insertion sort. -/
theorem sortBy_eq_insertionSort (l : List α) :
    sortBy (fun a b => decide (r a b)) l = l.insertionSort r := by
  induction l with
  | nil => rfl
  | cons x xs ih => rw [sortBy, ih, insertBy_eq_orderedInsert, List.insertionSort_cons]

/-- Sorted names come in order. -/
theorem pairwise_sortStrings (xs : List String) : (sortStrings xs).Pairwise (· ≤ ·) := by
  rw [sortStrings, sortBy_eq_insertionSort]
  exact List.pairwise_insertionSort _ xs

/-- Pairs sorted by name come in the order of their names. -/
theorem pairwise_sortByKey {β : Type} (xs : List (String × β)) :
    (sortByKey xs).Pairwise fun a b => a.1 ≤ b.1 := by
  -- comparing by names is total and transitive, as comparing names is
  have : Std.Total fun a b : String × β => a.1 ≤ b.1 := ⟨fun a b => le_total a.1 b.1⟩
  have : IsTrans (String × β) fun a b => a.1 ≤ b.1 := ⟨fun _ _ _ => le_trans⟩
  rw [sortByKey, sortBy_eq_insertionSort (fun a b : String × β => a.1 ≤ b.1)]
  exact List.pairwise_insertionSort _ xs

/-- Dropping repeats from names in order leaves them strictly increasing: in an ordered list a
name that differs from the next one is below every later one. -/
theorem pairwise_dedupAdjacent {xs : List String} (h : xs.Pairwise (· ≤ ·)) :
    (dedupAdjacent xs).Pairwise (· < ·) := by
  fun_induction dedupAdjacent xs with
  | case1 => exact .nil
  | case2 x => exact List.pairwise_singleton _ x
  | case3 x rest ih => exact ih h.of_cons
  | case4 x y rest hxy ih =>
    refine List.Pairwise.cons (fun z hz => ?_) (ih h.of_cons)
    have hxy' : x < y := lt_of_le_of_ne (List.rel_of_pairwise_cons h List.mem_cons_self) hxy
    rcases List.mem_cons.mp (mem_dedupAdjacent.mp hz) with rfl | hz
    · exact hxy'
    · exact lt_of_lt_of_le hxy' (List.rel_of_pairwise_cons h.of_cons hz)

/-- `sortDedup` lists names in strictly increasing order. -/
theorem pairwise_sortDedup (xs : List String) : (sortDedup xs).Pairwise (· < ·) :=
  pairwise_dedupAdjacent (pairwise_sortStrings xs)

end Provisioning.Text
