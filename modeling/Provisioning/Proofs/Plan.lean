import Mathlib.Data.List.Find
import Mathlib.Data.List.Induction
import Mathlib.Data.List.Nodup
import Provisioning.Plan
/-!
The laws of install plans.

A plan is read through its order of names: `contains` is membership in
the order, `push` appends a name exactly when it is not planned yet, and
in a plan without repeated names `position?` gives the one index at
which a name stands.

`blockedBy` walks the plan from the front, so what it says of an entry
depends only on the entry and on the entries before it. In a plan in
dependency order (`DepsOrdered`) the dependencies of an entry are among
those before it, and so the answer for an entry depends only on which of
the entries before it failed, and on whether it failed itself
(`blockedBy_lookup_congr`).
-/

namespace Provisioning

/-- A split of `l ++ [a]` around one element either ends at `a` or is a split of `l`. -/
theorem eq_append_cons_of_concat {α : Type} {l pre post : List α} {a x : α}
    (h : l ++ [a] = pre ++ x :: post) :
    (pre = l ∧ x = a ∧ post = []) ∨ ∃ post', post = post' ++ [a] ∧ l = pre ++ x :: post' := by
  rcases List.eq_nil_or_concat post with rfl | ⟨post', last, rfl⟩
  · obtain ⟨rfl, hx⟩ := List.append_inj' h rfl
    exact .inl ⟨rfl, by simpa using hx.symm, rfl⟩
  · have h' : l ++ [a] = (pre ++ x :: post') ++ [last] := by simpa using h
    obtain ⟨hl, hlast⟩ := List.append_inj' h' rfl
    obtain rfl : a = last := by simpa using hlast
    exact .inr ⟨post', List.concat_eq_append, hl⟩

namespace Plan

@[simp] theorem order_mk (entries : List (String × List String)) :
    (⟨entries⟩ : Plan).order = entries.map Prod.fst := rfl

@[simp] theorem order_empty : ({} : Plan).order = [] := rfl

theorem contains_iff_mem (p : Plan) (name : String) : p.contains name = true ↔ name ∈ p.order := by
  simp [contains, order]

theorem push_of_not_mem {p : Plan} {name : String} (h : name ∉ p.order) (deps : List String) :
    p.push name deps = ⟨p.entries ++ [(name, deps)]⟩ := by
  have : p.contains name = false := by
    rw [← Bool.not_eq_true, contains_iff_mem]
    exact h
  simp [push, this]

theorem order_push_of_not_mem {p : Plan} {name : String} (h : name ∉ p.order) (deps : List String) :
    (p.push name deps).order = p.order ++ [name] := by
  simp [push_of_not_mem h, order]

theorem push_of_mem {p : Plan} {name : String} (h : name ∈ p.order) (deps : List String) :
    p.push name deps = p := by
  have : p.contains name = true := (contains_iff_mem p name).mpr h
  simp [push, this]

/-- Pushing a name keeps the planned names free of repeats. -/
theorem nodup_order_push {p : Plan} (hp : p.order.Nodup) (name : String) (deps : List String) :
    (p.push name deps).order.Nodup := by
  by_cases h : name ∈ p.order
  · rwa [push_of_mem h]
  · rw [order_push_of_not_mem h, ← List.concat_eq_append]
    exact hp.concat h

/-- Merging keeps the plan free of repeats and plans the names of both plans. -/
theorem merge_order {p : Plan} (hp : p.order.Nodup) (q : Plan) :
    (p.merge q).order.Nodup ∧ ∀ n, n ∈ (p.merge q).order ↔ n ∈ p.order ∨ n ∈ q.order := by
  obtain ⟨entries⟩ := q
  simp only [merge, order_mk]
  induction entries generalizing p with
  | nil => simpa using hp
  | cons e rest ih =>
    rw [List.foldl_cons]
    by_cases he : e.1 ∈ p.order
    · -- a planned name is passed over
      rw [push_of_mem he]
      obtain ⟨hnd, hmem⟩ := ih hp
      refine ⟨hnd, fun n => ?_⟩
      rw [hmem, List.map_cons, List.mem_cons]
      constructor
      · rintro (h | h)
        · exact .inl h
        · exact .inr (.inr h)
      · rintro (h | rfl | h)
        · exact .inl h
        · exact .inl he
        · exact .inr h
    · obtain ⟨hnd', hmem⟩ := ih (nodup_order_push hp e.1 e.2)
      refine ⟨hnd', fun n => ?_⟩
      rw [hmem, order_push_of_not_mem he]
      simp [or_assoc]

/-- In a plan whose entries each carry `deps` of their name, a planned name's dependencies are
`deps` of it. -/
theorem depsOf_of_forall {p : Plan} {deps : String → List String}
    (h : ∀ e ∈ p.entries, e.2 = deps e.1) {n : String} (hn : n ∈ p.order) : p.depsOf n = deps n := by
  cases hl : p.entries.lookup n with
  | none =>
    obtain ⟨e, he, rfl⟩ := List.mem_map.mp hn
    simpa using List.lookup_eq_none_iff.mp hl e he
  | some found =>
    obtain ⟨l₁, l₂, hsplit, -⟩ := List.lookup_eq_some_iff.mp hl
    have := h (n, found) (by simp [hsplit])
    simpa [depsOf, hl] using this

/-- In a plan without repeated names, the position of a name is the one index holding it. -/
theorem position?_eq_some_iff {p : Plan} (hnd : p.order.Nodup) {name : String} {i : Nat} :
    p.position? name = some i ↔ p.order[i]? = some name := by
  rw [position?, List.idxOf?_eq_some_iff, List.getElem?_eq_some_iff]
  constructor
  · rintro ⟨hi, hget, -⟩
    exact ⟨hi, hget⟩
  · rintro ⟨hi, hget⟩
    refine ⟨hi, hget, fun j hj hj' => ?_⟩
    have := (hnd.getElem_inj_iff (i := j) (j := i)).mp (hj'.trans hget.symm)
    omega

/-- A name standing right after `pre` is at position `pre.length`. -/
theorem position?_of_eq_append {p : Plan} (hnd : p.order.Nodup) {pre post : List String}
    {name : String} (h : p.order = pre ++ name :: post) : p.position? name = some pre.length := by
  rw [position?_eq_some_iff hnd, h]
  simp

/-! ## Dependency order -/

/-- Each name is planned once, after every one of its dependencies. -/
def DepsOrdered (p : Plan) : Prop :=
  p.order.Nodup ∧
    ∀ i (hi : i < p.entries.length), ∀ d ∈ p.entries[i].2, d ∈ (p.entries.take i).map Prod.fst

instance (p : Plan) : Decidable p.DepsOrdered := inferInstanceAs (Decidable (_ ∧ _))

theorem DepsOrdered.deps_mem {p : Plan} (h : p.DepsOrdered) {pre post : List (String × List String)}
    {e : String × List String} (hsplit : p.entries = pre ++ e :: post) :
    ∀ d ∈ e.2, d ∈ pre.map Prod.fst := by
  intro d hd
  have hi : pre.length < p.entries.length := by simp [hsplit]
  have := h.2 pre.length hi d (by simpa [hsplit] using hd)
  simpa [hsplit] using this

/-! ## Blocked entries -/

/-- One step of `blockedBy`: an entry that has not failed is blocked by its first dependency
that failed or is blocked. -/
def blockStep (failed : List String) : List (String × String) → String × List String →
    List (String × String)
  | blocked, (name, deps) =>
    if failed.contains name then blocked
    else
      match deps.find? (fun d => failed.contains d || blocked.any (·.1 == d)) with
      | some d => blocked ++ [(name, d)]
      | none => blocked

theorem blockedBy_eq_foldl (p : Plan) (failed : List String) :
    p.blockedBy failed = p.entries.foldl (blockStep failed) [] := rfl

/-- Steps over entries not named `n`, or named `n` when `n` failed, leave the answer for `n`. -/
theorem lookup_foldl_blockStep {failed : List String} {n : String} :
    ∀ {l : List (String × List String)} {acc : List (String × String)},
      (∀ e ∈ l, e.1 = n → n ∈ failed) → (l.foldl (blockStep failed) acc).lookup n = acc.lookup n
  | [], _, _ => rfl
  | (name, deps) :: l, acc, hl => by
    rw [List.foldl_cons, lookup_foldl_blockStep fun e he => hl e (List.mem_cons_of_mem _ he)]
    have hname : name = n → n ∈ failed := hl (name, deps) List.mem_cons_self
    by_cases hf : name ∈ failed
    · simp [blockStep, hf]
    · -- a step that blocks `name` adds nothing for `n`
      have hne : n ≠ name := fun h => hf (h ▸ hname h.symm)
      simp only [blockStep, List.contains_iff_mem, hf, if_false]
      split <;> simp [List.lookup_append, List.lookup_cons, beq_eq_false_iff_ne.mpr hne]

/-- Two sets of failures that agree on the dependencies of an entry, and on the entry itself,
block it alike after alike histories. -/
theorem blockStep_congr {failed failed' : List String} {acc : List (String × String)}
    {e : String × List String} (hname : e.1 ∈ failed ↔ e.1 ∈ failed')
    (hdeps : ∀ d ∈ e.2, d ∈ failed ↔ d ∈ failed') :
    blockStep failed acc e = blockStep failed' acc e := by
  obtain ⟨name, deps⟩ := e
  have hfind : deps.find? (fun d => failed.contains d || acc.any (·.1 == d)) =
      deps.find? (fun d => failed'.contains d || acc.any (·.1 == d)) := by
    apply List.find?_congr
    intro d hd
    simp [hdeps d hd]
  simp only [blockStep, hfind, List.contains_iff_mem, hname]

/-- Over entries in dependency order, the blocked entries depend only on which of them failed. -/
theorem foldl_blockStep_congr {failed failed' : List String} (l : List (String × List String))
    (hord : ∀ pre e post, l = pre ++ e :: post → ∀ d ∈ e.2, d ∈ pre.map Prod.fst)
    (hagree : ∀ x ∈ l.map Prod.fst, x ∈ failed ↔ x ∈ failed') :
    l.foldl (blockStep failed) [] = l.foldl (blockStep failed') [] := by
  induction l using List.reverseRecOn with
  | nil => rfl
  | append_singleton l e ih =>
    have hl : l.foldl (blockStep failed) [] = l.foldl (blockStep failed') [] := by
      refine ih (fun pre e' post h d hd => hord pre e' (post ++ [e]) (by simp [h]) d hd) ?_
      intro x hx
      exact hagree x (by simp [hx])
    rw [List.foldl_append, List.foldl_append, hl]
    refine blockStep_congr (hagree _ (by simp)) fun d hd => hagree d ?_
    have := hord l e [] rfl d hd
    simp [this]

/-- What `blockedBy` says of an entry: nothing if it failed, else its first dependency that
failed or is blocked by the entries before it. -/
theorem blockedBy_lookup {p : Plan} {failed : List String} {pre post : List (String × List String)}
    {n : String} {deps : List String} (hsplit : p.entries = pre ++ (n, deps) :: post)
    (hpre : n ∉ pre.map Prod.fst) (hpost : n ∉ post.map Prod.fst) :
    (p.blockedBy failed).lookup n =
      if n ∈ failed then none
      else deps.find? (fun d => failed.contains d || (pre.foldl (blockStep failed) []).any (·.1 == d)) := by
  have hpre' : (pre.foldl (blockStep failed) []).lookup n = none := by
    rw [lookup_foldl_blockStep fun e he h => absurd (List.mem_map.mpr ⟨e, he, h⟩) hpre]
    rfl
  rw [blockedBy_eq_foldl, hsplit, List.foldl_append, List.foldl_cons,
    lookup_foldl_blockStep fun e he h => absurd (List.mem_map.mpr ⟨e, he, h⟩) hpost]
  by_cases hn : n ∈ failed
  · simp [blockStep, hpre', hn]
  · have hc : failed.contains n = false := by
      rw [← Bool.not_eq_true, List.contains_iff_mem]
      exact hn
    rw [if_neg hn]
    simp only [blockStep, hc, Bool.false_eq_true, if_false]
    split <;> rename_i hfind <;> rw [hfind]
    · simp [List.lookup_append, hpre']
    · exact hpre'

/-- With nothing failed, nothing is blocked. -/
@[simp] theorem blockedBy_nil (p : Plan) : p.blockedBy [] = [] := by
  rw [blockedBy_eq_foldl]
  induction p.entries with
  | nil => rfl
  | cons e l ih =>
    have hstep : blockStep [] [] e = [] := by
      obtain ⟨name, deps⟩ := e
      have hnone : deps.find? (fun _ => false) = none := List.find?_eq_none.mpr (by simp)
      simp [blockStep, hnone]
    rw [List.foldl_cons, hstep, ih]

/-- A failed name is never blocked. -/
theorem blockedBy_lookup_of_mem (p : Plan) {failed : List String} {n : String} (hn : n ∈ failed) :
    (p.blockedBy failed).lookup n = none := by
  rw [blockedBy_eq_foldl, lookup_foldl_blockStep fun _ _ _ => hn]
  rfl

/-- In a plan in dependency order, whether an entry is blocked, and by what, depends only on
which of the entries before it failed and whether it failed itself. -/
theorem blockedBy_lookup_congr {p : Plan} (hord : p.DepsOrdered) {failed failed' : List String}
    {pre post : List (String × List String)} {n : String} {deps : List String}
    (hsplit : p.entries = pre ++ (n, deps) :: post)
    (hagree : ∀ x ∈ pre.map Prod.fst, x ∈ failed ↔ x ∈ failed') (hn : n ∈ failed ↔ n ∈ failed') :
    (p.blockedBy failed).lookup n = (p.blockedBy failed').lookup n := by
  have hnd : (pre.map Prod.fst ++ n :: post.map Prod.fst).Nodup := by
    simpa [order, hsplit] using hord.1
  have hpre : n ∉ pre.map Prod.fst := fun h => (List.nodup_append.mp hnd).2.2 n h n (by simp) rfl
  have hpost : n ∉ post.map Prod.fst := (List.nodup_cons.mp (List.nodup_append.mp hnd).2.1).1
  -- the entries before `n` are in dependency order among themselves
  have hord_pre : ∀ a e b, pre = a ++ e :: b → ∀ d ∈ e.2, d ∈ a.map Prod.fst :=
    fun a e b h => hord.deps_mem (show p.entries = a ++ e :: (b ++ (n, deps) :: post) by simp [hsplit, h])
  have hdeps : ∀ d ∈ deps, d ∈ pre.map Prod.fst := hord.deps_mem hsplit
  rw [blockedBy_lookup hsplit hpre hpost, blockedBy_lookup hsplit hpre hpost,
    foldl_blockStep_congr pre hord_pre hagree]
  by_cases hf : n ∈ failed
  · simp [hf, hn.mp hf]
  · have hf' : n ∉ failed' := fun h => hf (hn.mpr h)
    simp only [hf, hf', if_false]
    apply List.find?_congr
    intro d hd
    simp [hagree d (hdeps d hd)]

end Plan

end Provisioning
