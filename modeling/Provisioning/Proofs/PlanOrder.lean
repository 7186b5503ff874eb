import Mathlib.Logic.Relation
import Provisioning.Proofs.Graph.Requests
/-!
Merging plans, and the entries that failures block.

Both rest on dependency order (`DepsOrdered`): each name planned once, after every one of its
dependencies, so that every dependency of an entry is planned too
(`DepsOrdered.mem_order_of_dependsOn`). Resolution gives plans in dependency order
(`Graph.IsPlan.depsOrdered`), and merging keeps it.

Merging a plan into another appends, in its order, the entries whose names are not planned yet,
each with the dependencies it has there (`merge_entries`). Every dependency of an appended entry
is planned by the first plan or appended before it, so the merged plan is in dependency order
again (`DepsOrdered.merge`). `merge_spec` gathers the laws.

`blockedBy` walks the plan once from the front, and what it computes is a transitive closure: an
entry is blocked exactly when it has not failed and reaches a failed name along the plan's
dependencies (`DependsOn`). One half is a fold invariant: whatever the walk blocks has a
dependency that failed or that the walk blocked before (`reaches_of_mem_foldl_blockStep`). The
other half follows a path to a failure backwards, and it is where the order counts: the
dependencies of an entry come before it, so by the time the walk reaches the entry, what it says
of them is final (`lookup_blockedBy_of_before`). `blockedBy_spec` gathers both halves with the
choice of the dependency that blocks.
-/

namespace Provisioning

namespace Plan

variable {p q : Plan}

/-- A name is among the keys of an association list exactly when looking it up finds something. -/
theorem mem_keys_iff_lookup_isSome {β : Type} {l : List (String × β)} {k : String} :
    k ∈ l.map Prod.fst ↔ (l.lookup k).isSome := by
  rw [List.lookup_isSome_iff, List.mem_map]
  constructor
  · rintro ⟨e, he, rfl⟩
    exact ⟨e, he, beq_self_eq_true _⟩
  · rintro ⟨e, he, hk⟩
    exact ⟨e, he, (beq_iff_eq.mp hk).symm⟩

/-- Keeping every entry of one name keeps what that name looks up. -/
theorem lookup_filter_of_keep {β : Type} {f : String × β → Bool} {k : String} :
    ∀ {l : List (String × β)}, (∀ e ∈ l, e.1 = k → f e = true) → (l.filter f).lookup k = l.lookup k
  | [], _ => rfl
  | e :: l, h => by
    have ih := lookup_filter_of_keep fun e' he' => h e' (List.mem_cons_of_mem _ he')
    by_cases hk : e.1 = k
    · obtain ⟨name, v⟩ := e
      obtain rfl : name = k := hk
      rw [List.filter_cons_of_pos (h _ List.mem_cons_self rfl)]
      simp
    · have hne : (k == e.1) = false := beq_eq_false_iff_ne.mpr (Ne.symm hk)
      obtain ⟨name, v⟩ := e
      by_cases hf : f (name, v) = true
      · rw [List.filter_cons_of_pos hf, List.lookup_cons, List.lookup_cons]
        simp only at hne
        simp only [hne, ih]
      · rw [List.filter_cons_of_neg hf, ih, List.lookup_cons]
        simp only at hne
        simp only [hne]

/-- In a plan without repeated names, split around an entry, no name before the entry is the
entry's or one after it, and the entry's name is not after it either. -/
theorem names_of_split (hnd : p.order.Nodup) {pre post : List (String × List String)}
    {e : String × List String} (hsplit : p.entries = pre ++ e :: post) :
    (∀ x ∈ pre.map Prod.fst, x ∉ (e :: post).map Prod.fst) ∧ e.1 ∉ post.map Prod.fst := by
  have hnd' : (pre.map Prod.fst ++ (e :: post).map Prod.fst).Nodup := by
    simpa [order, hsplit] using hnd
  refine ⟨fun x hx hx' => (List.nodup_append.mp hnd').2.2 x hx x hx' rfl, ?_⟩
  exact (List.nodup_cons.mp (List.nodup_append.mp hnd').2.1).1

/-- In a plan without repeated names, a name's dependencies are those of its entry. -/
theorem depsOf_of_mem (hnd : p.order.Nodup) {n : String} {deps : List String}
    (he : (n, deps) ∈ p.entries) : p.depsOf n = deps := by
  obtain ⟨pre, post, hsplit⟩ := List.append_of_mem he
  have hpre : pre.lookup n = none := by
    refine List.lookup_eq_none_iff.mpr fun e he' => bne_iff_ne.mpr fun h => ?_
    exact (names_of_split hnd hsplit).1 e.1 (List.mem_map_of_mem he') (by simp [h])
  simp [depsOf, hsplit, List.lookup_append, hpre]

/-! ## Dependency order, entry by entry -/

/-- Dependency order, read through the ways the plan splits around one entry. -/
theorem depsOrdered_iff_split : p.DepsOrdered ↔ p.order.Nodup ∧
    ∀ pre e post, p.entries = pre ++ e :: post → ∀ d ∈ e.2, d ∈ pre.map Prod.fst := by
  refine ⟨fun h => ⟨h.1, fun _ _ _ hsplit => h.deps_mem hsplit⟩, fun ⟨hnd, hsplit⟩ => ⟨hnd, ?_⟩⟩
  intro i hi d hd
  exact hsplit (p.entries.take i) p.entries[i] (p.entries.drop (i + 1))
    (by rw [List.getElem_cons_drop, List.take_append_drop]) d hd

/-- Planning a name after all of its dependencies keeps dependency order. -/
theorem DepsOrdered.push (hp : p.DepsOrdered) {n : String} {deps : List String}
    (hdeps : ∀ d ∈ deps, d ∈ p.order) : (p.push n deps).DepsOrdered := by
  by_cases hn : n ∈ p.order
  · rwa [push_of_mem hn]
  · rw [depsOrdered_iff_split] at hp ⊢
    refine ⟨?_, fun pre e post hsplit d hd => ?_⟩
    · exact nodup_order_push hp.1 n deps
    · rw [push_of_not_mem hn] at hsplit
      -- the entry is the one pushed, or one of the plan before
      rcases eq_append_cons_of_concat hsplit with ⟨rfl, rfl, -⟩ | ⟨post', -, hsplit'⟩
      · exact hdeps d hd
      · exact hp.2 pre e post' hsplit' d hd

/-! ## Merging -/

/-- Pushing entries with distinct names in turn appends those whose names are not planned yet. -/
theorem foldl_push_entries :
    ∀ {p : Plan} {l : List (String × List String)}, (l.map Prod.fst).Nodup →
      (l.foldl (fun acc e => acc.push e.1 e.2) p).entries =
        p.entries ++ l.filter (fun e => e.1 ∉ p.order)
  | p, [], _ => by simp
  | p, e :: rest, hnd => by
    rw [List.map_cons, List.nodup_cons] at hnd
    rw [List.foldl_cons, foldl_push_entries hnd.2]
    by_cases he : e.1 ∈ p.order
    · rw [push_of_mem he, List.filter_cons_of_neg (by simpa using he)]
    · -- the names after `e` differ from it, so pushing `e` does not change which are planned
      have hrest : rest.filter (fun x => x.1 ∉ p.order ++ [e.1]) =
          rest.filter (fun x => x.1 ∉ p.order) := by
        refine List.filter_congr fun x hx => ?_
        have hx' : x.1 ≠ e.1 := fun h => hnd.1 (h ▸ List.mem_map_of_mem hx)
        simp [hx']
      rw [order_push_of_not_mem he, push_of_not_mem he, List.filter_cons_of_pos (by simpa using he),
        hrest]
      simp

/-- Merging appends, in order, the entries of the second plan whose names the first does not
plan, each with its dependencies. -/
theorem merge_entries (hq : q.order.Nodup) :
    (p.merge q).entries = p.entries ++ q.entries.filter (fun e => e.1 ∉ p.order) :=
  foldl_push_entries hq

theorem order_merge (hq : q.order.Nodup) :
    (p.merge q).order = p.order ++ q.order.filter (· ∉ p.order) := by
  simp only [order, merge_entries hq, List.map_append, List.filter_map]
  rfl

/-- After a merge, a name has the dependencies it has in the first plan that plans it. -/
theorem depsOf_merge (hq : q.order.Nodup) (n : String) :
    (p.merge q).depsOf n = if n ∈ p.order then p.depsOf n else q.depsOf n := by
  simp only [depsOf, merge_entries hq, List.lookup_append]
  split
  · next hn =>
    obtain ⟨found, hfound⟩ := Option.isSome_iff_exists.mp (mem_keys_iff_lookup_isSome.mp hn)
    simp [hfound]
  · next hn =>
    have hnone : p.entries.lookup n = none :=
      Option.not_isSome_iff_eq_none.mp fun h => hn (mem_keys_iff_lookup_isSome.mpr h)
    rw [hnone, Option.none_or, lookup_filter_of_keep fun e _ he => by simpa [he] using hn]

/-- Merging plans in dependency order gives a plan in dependency order. -/
theorem DepsOrdered.merge (hp : p.DepsOrdered) (hq : q.DepsOrdered) : (p.merge q).DepsOrdered :=
  foldl_push_induct (fun _ _ _ hp' hdeps => hp'.push hdeps) hp
    fun _ _ _ hsplit d hd => .inr (hq.deps_mem hsplit d hd)

/-- Merging plans that are in dependency order, each name planned once and after all of its
dependencies, gives the names of the first followed by the new names of the second in their
order, without repeats; every name keeps the dependencies of the first plan that planned it, and
the merged plan is in dependency order again. -/
theorem merge_spec (hp : p.DepsOrdered) (hq : q.DepsOrdered) :
    (p.merge q).order = p.order ++ q.order.filter (· ∉ p.order) ∧ (p.merge q).order.Nodup ∧
      (∀ n, (p.merge q).depsOf n = if n ∈ p.order then p.depsOf n else q.depsOf n) ∧
      (p.merge q).DepsOrdered :=
  have hmerge := hp.merge hq
  ⟨order_merge hq.1, hmerge.1, depsOf_merge hq.1, hmerge⟩

theorem merge_spec_shared :
    let p : Plan := ⟨[("a", []), ("c", ["a"])]⟩
    let q : Plan := ⟨[("b", []), ("c", ["b"]), ("d", ["c"])]⟩
    (p.DepsOrdered ∧ q.DepsOrdered) ∧
      (p.merge q).order = p.order ++ q.order.filter (· ∉ p.order) ∧ (p.merge q).order.Nodup ∧
      (∀ n, (p.merge q).depsOf n = if n ∈ p.order then p.depsOf n else q.depsOf n) ∧
      (p.merge q).DepsOrdered :=
  ⟨⟨by decide, by decide⟩, merge_spec (by decide) (by decide)⟩

example : (Plan.merge ⟨[("a", []), ("c", ["a"])]⟩ ⟨[("b", []), ("c", ["b"]), ("d", ["c"])]⟩).entries =
    [("a", []), ("c", ["a"]), ("b", []), ("d", ["c"])] := by decide

/-! ## Blocked entries -/

/-- `n` depends directly on `d` in the plan. -/
def DependsOn (p : Plan) (n d : String) : Prop := d ∈ p.depsOf n

/-- In a plan in dependency order, whatever a name depends on is planned. -/
theorem DepsOrdered.mem_order_of_dependsOn (hp : p.DepsOrdered) {n d : String}
    (h : p.DependsOn n d) : d ∈ p.order := by
  cases hl : p.entries.lookup n with
  | none => simp [DependsOn, depsOf, hl] at h
  | some deps =>
    obtain ⟨pre, post, hsplit, -⟩ := List.lookup_eq_some_iff.mp hl
    have hd : d ∈ deps := by simpa [DependsOn, depsOf, hl] using h
    have := hp.deps_mem hsplit d hd
    simp only [order, hsplit, List.map_append, List.mem_append]
    exact .inl this

/-- The keys a walk of `blockedBy` gathers are those it started with and some of the names it
walked over, in order. -/
theorem keys_foldl_blockStep_sublist {failed : List String} :
    ∀ (l : List (String × List String)) (acc : List (String × String)),
      ((l.foldl (blockStep failed) acc).map Prod.fst).Sublist (acc.map Prod.fst ++ l.map Prod.fst)
  | [], acc => by simp
  | (name, deps) :: l, acc => by
    rw [List.foldl_cons]
    refine (keys_foldl_blockStep_sublist l _).trans ?_
    have hstep : ((blockStep failed acc (name, deps)).map Prod.fst).Sublist
        (acc.map Prod.fst ++ [name]) := by
      simp only [blockStep]
      split
      · exact List.sublist_append_left _ _
      · split <;> simp
    simpa using hstep.append_right (l.map Prod.fst)

/-- A walk of `blockedBy` over entries of the plan blocks only names that have not failed and
reach a failed name, as long as the names it started with do. -/
theorem reaches_of_mem_foldl_blockStep (hnd : p.order.Nodup) {failed : List String} :
    ∀ {l : List (String × List String)} {acc : List (String × String)}, (∀ e ∈ l, e ∈ p.entries) →
      (∀ x ∈ acc, x.1 ∈ p.order ∧ x.1 ∉ failed ∧ ∃ f ∈ failed, Relation.TransGen p.DependsOn x.1 f) →
      ∀ x ∈ l.foldl (blockStep failed) acc,
        x.1 ∈ p.order ∧ x.1 ∉ failed ∧ ∃ f ∈ failed, Relation.TransGen p.DependsOn x.1 f
  | [], _, _, hacc => hacc
  | (name, deps) :: l, acc, hl, hacc => by
    rw [List.foldl_cons]
    refine reaches_of_mem_foldl_blockStep hnd (fun e he => hl e (List.mem_cons_of_mem _ he)) ?_
    have hentry : (name, deps) ∈ p.entries := hl _ List.mem_cons_self
    simp only [blockStep]
    split
    · exact hacc
    · next hname =>
      split
      · next d hfind =>
        -- the one new entry: `name` is blocked by `d`, which failed or was blocked before
        intro x hx
        rcases List.mem_append.mp hx with hx | hx
        · exact hacc x hx
        · obtain rfl := List.mem_singleton.mp hx
          have hdep : p.DependsOn name d := by
            rw [DependsOn, depsOf_of_mem hnd hentry]
            exact List.mem_of_find?_eq_some hfind
          refine ⟨List.mem_map_of_mem (f := Prod.fst) hentry, by simpa using hname, ?_⟩
          have hd := List.find?_some hfind
          simp only [Bool.or_eq_true, List.contains_iff_mem, List.any_eq_true, beq_iff_eq] at hd
          rcases hd with hd | ⟨y, hy, rfl⟩
          · exact ⟨d, hd, .single hdep⟩
          · obtain ⟨-, -, f, hf, hreach⟩ := hacc y hy
            exact ⟨f, hf, .head hdep hreach⟩
      · exact hacc

/-- In a plan in dependency order, what `blockedBy` says of a name planned before an entry is
what the walk had said of it on reaching that entry. -/
theorem lookup_blockedBy_of_before (hord : p.DepsOrdered) {failed : List String}
    {pre post : List (String × List String)} {e : String × List String}
    (hsplit : p.entries = pre ++ e :: post) {d : String} (hd : d ∈ pre.map Prod.fst) :
    (p.blockedBy failed).lookup d = (pre.foldl (blockStep failed) []).lookup d := by
  -- no entry from `e` on is named `d`
  have hafter : ∀ x ∈ e :: post, x.1 = d → d ∈ failed := fun x hx hxd =>
    absurd (hxd ▸ List.mem_map_of_mem hx) ((names_of_split hord.1 hsplit).1 d hd)
  rw [blockedBy_eq_foldl, hsplit, List.foldl_append, lookup_foldl_blockStep hafter]

/-- In a plan in dependency order, the entry that does not fail is blocked by its first
dependency that failed or is blocked. -/
theorem lookup_blockedBy_eq_find (hord : p.DepsOrdered) {failed : List String} {n : String}
    (hn : n ∈ p.order) (hnf : n ∉ failed) :
    (p.blockedBy failed).lookup n =
      (p.depsOf n).find? fun d => d ∈ failed ∨ d ∈ (p.blockedBy failed).map Prod.fst := by
  obtain ⟨⟨n', deps⟩, hentry, rfl⟩ := List.mem_map.mp hn
  obtain ⟨pre, post, hsplit⟩ := List.append_of_mem hentry
  obtain ⟨hbefore, hpost⟩ := names_of_split hord.1 hsplit
  have hpre : n' ∉ pre.map Prod.fst := fun h => hbefore n' h (by simp)
  rw [blockedBy_lookup hsplit hpre hpost, if_neg hnf, depsOf_of_mem hord.1 hentry]
  refine List.find?_congr fun d hd => ?_
  -- the dependency comes before the entry, where what the walk says of it is already final
  have hfinal : d ∈ (p.blockedBy failed).map Prod.fst ↔
      d ∈ (pre.foldl (blockStep failed) []).map Prod.fst := by
    rw [mem_keys_iff_lookup_isSome, mem_keys_iff_lookup_isSome,
      lookup_blockedBy_of_before hord hsplit (hord.deps_mem hsplit d hd)]
  simp only [hfinal, List.any_eq, List.mem_map, beq_iff_eq, List.contains_eq_mem, Bool.decide_or]

/-- In a plan in dependency order, an entry that has not failed is blocked as soon as one of its
dependencies failed or is blocked. -/
theorem mem_keys_blockedBy_of_dep (hord : p.DepsOrdered) {failed : List String} {n d : String}
    (hn : n ∈ p.order) (hnf : n ∉ failed) (hd : p.DependsOn n d)
    (hdb : d ∈ failed ∨ d ∈ (p.blockedBy failed).map Prod.fst) :
    n ∈ (p.blockedBy failed).map Prod.fst := by
  rw [mem_keys_iff_lookup_isSome, lookup_blockedBy_eq_find hord hn hnf, List.find?_isSome]
  exact ⟨d, hd, by simpa using hdb⟩

/-- In a plan in dependency order, an entry that has not failed and leads to a failed name is
blocked. -/
theorem mem_keys_blockedBy_of_reaches (hord : p.DepsOrdered) {failed : List String} {n f : String}
    (hf : f ∈ failed) (hreach : Relation.TransGen p.DependsOn n f) :
    n ∈ p.order → n ∉ failed → n ∈ (p.blockedBy failed).map Prod.fst := by
  -- along the path from its far end: each name on it is blocked by the next
  induction hreach using Relation.TransGen.head_induction_on with
  | single hdep => exact fun hn hnf => mem_keys_blockedBy_of_dep hord hn hnf hdep (.inl hf)
  | @head _ m hdep _ ih =>
    intro hn hnf
    by_cases hm : m ∈ failed
    · exact mem_keys_blockedBy_of_dep hord hn hnf hdep (.inl hm)
    · exact mem_keys_blockedBy_of_dep hord hn hnf hdep
        (.inr (ih (hord.mem_order_of_dependsOn hdep) hm))

/-- In a plan in dependency order, `blockedBy` blocks exactly the entries that have not failed
and reach a failed name through one or more dependencies, each once, and each by the first of
its dependencies, in their order, that failed or is blocked. Plans that resolution gives are in
dependency order (`Graph.IsPlan.depsOrdered`), and so are merges of them (`DepsOrdered.merge`). -/
theorem blockedBy_spec (hord : p.DepsOrdered) (failed : List String) :
    ((p.blockedBy failed).map Prod.fst).Nodup ∧
      (∀ n, n ∈ (p.blockedBy failed).map Prod.fst ↔
        n ∈ p.order ∧ n ∉ failed ∧ ∃ f ∈ failed, Relation.TransGen p.DependsOn n f) ∧
      ∀ n ∈ (p.blockedBy failed).map Prod.fst, (p.blockedBy failed).lookup n =
        (p.depsOf n).find? fun d => d ∈ failed ∨ d ∈ (p.blockedBy failed).map Prod.fst := by
  have hreach : ∀ x ∈ p.entries.foldl (blockStep failed) [],
      x.1 ∈ p.order ∧ x.1 ∉ failed ∧ ∃ f ∈ failed, Relation.TransGen p.DependsOn x.1 f :=
    reaches_of_mem_foldl_blockStep hord.1 (fun _ he => he) (by simp)
  rw [← blockedBy_eq_foldl] at hreach
  have hkeys : ∀ n, n ∈ (p.blockedBy failed).map Prod.fst ↔
      n ∈ p.order ∧ n ∉ failed ∧ ∃ f ∈ failed, Relation.TransGen p.DependsOn n f := by
    intro n
    constructor
    · intro hn
      obtain ⟨x, hx, rfl⟩ := List.mem_map.mp hn
      exact hreach x hx
    · rintro ⟨hn, hnf, f, hf, hpath⟩
      exact mem_keys_blockedBy_of_reaches hord hf hpath hn hnf
  refine ⟨?_, hkeys, fun n hn => ?_⟩
  · have := @keys_foldl_blockStep_sublist failed p.entries []
    rw [← blockedBy_eq_foldl, List.map_nil, List.nil_append] at this
    exact this.nodup hord.1
  · obtain ⟨hn', hnf, -⟩ := (hkeys n).mp hn
    exact lookup_blockedBy_eq_find hord hn' hnf

theorem blockedBy_spec_chain :
    let p : Plan := ⟨[("a", []), ("d", []), ("b", ["a"]), ("c", ["d", "b"])]⟩
    p.DepsOrdered ∧ ((p.blockedBy ["a"]).map Prod.fst).Nodup ∧
      (∀ n, n ∈ (p.blockedBy ["a"]).map Prod.fst ↔
        n ∈ p.order ∧ n ∉ ["a"] ∧ ∃ f ∈ ["a"], Relation.TransGen p.DependsOn n f) ∧
      ∀ n ∈ (p.blockedBy ["a"]).map Prod.fst, (p.blockedBy ["a"]).lookup n =
        (p.depsOf n).find? fun d => d ∈ ["a"] ∨ d ∈ (p.blockedBy ["a"]).map Prod.fst :=
  ⟨by decide, blockedBy_spec (by decide) ["a"]⟩

example : (Plan.blockedBy ⟨[("a", []), ("d", []), ("b", ["a"]), ("c", ["d", "b"])]⟩ ["a"]) =
    [("b", "a"), ("c", "b")] := by decide

end Plan

end Provisioning
