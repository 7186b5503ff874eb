/-!
Sorted lists of names.

Names are listed in the order of their characters' code points, which is
also the order of their UTF-8 bytes. Sorting is a stable insertion sort,
structural so that sorted listings can be computed inside proofs;
`sortDedup` also drops repeats.
-/

namespace Provisioning.Text

/-- Put an element before the first one it may come before, so that it stays ahead of those
it ties with. -/
def insertBy {α : Type} (le : α → α → Bool) (x : α) : List α → List α
  | [] => [x]
  | y :: ys => if le x y then x :: y :: ys else y :: insertBy le x ys

/-- Sort by inserting each element into the sorted rest; elements that tie keep their order. -/
def sortBy {α : Type} (le : α → α → Bool) : List α → List α
  | [] => []
  | x :: xs => insertBy le x (sortBy le xs)

/-- Names in code-point order. -/
def sortStrings (xs : List String) : List String :=
  sortBy (fun a b => decide (a ≤ b)) xs

/-- Drop an element equal to the one before it. -/
def dedupAdjacent : List String → List String
  | [] => []
  | [x] => [x]
  | x :: y :: rest => if x = y then dedupAdjacent (y :: rest) else x :: dedupAdjacent (y :: rest)

/-- Names in code-point order, each once. -/
def sortDedup (xs : List String) : List String :=
  dedupAdjacent (sortStrings xs)

/-- Pairs in the code-point order of their first components. -/
def sortByKey {α : Type} (xs : List (String × α)) : List (String × α) :=
  sortBy (fun a b => decide (a.1 ≤ b.1)) xs

theorem insertBy_perm {α : Type} (le : α → α → Bool) (x : α) (xs : List α) :
    (insertBy le x xs).Perm (x :: xs) := by
  fun_induction insertBy le x xs with
  | case1 => rfl
  | case2 y ys => rfl
  | case3 y ys _ ih => exact (ih.cons y).trans (List.Perm.swap x y ys)

theorem sortBy_perm {α : Type} (le : α → α → Bool) (xs : List α) : (sortBy le xs).Perm xs := by
  induction xs with
  | nil => rfl
  | cons x xs ih => exact (insertBy_perm le x _).trans (ih.cons x)

theorem sortStrings_perm (xs : List String) : (sortStrings xs).Perm xs :=
  sortBy_perm _ xs

theorem sortByKey_perm {α : Type} (xs : List (String × α)) : (sortByKey xs).Perm xs :=
  sortBy_perm _ xs

@[simp] theorem mem_dedupAdjacent {x : String} {xs : List String} :
    x ∈ dedupAdjacent xs ↔ x ∈ xs := by
  fun_induction dedupAdjacent xs with
  | case1 => rfl
  | case2 y => rfl
  | case3 y rest ih => simp [ih]
  | case4 y z rest hyz ih => simp [ih]

/-- Sorting and dropping repeats keeps exactly the names there were. -/
@[simp] theorem mem_sortDedup {x : String} {xs : List String} : x ∈ sortDedup xs ↔ x ∈ xs := by
  rw [sortDedup, mem_dedupAdjacent]
  exact (sortStrings_perm xs).mem_iff

end Provisioning.Text
