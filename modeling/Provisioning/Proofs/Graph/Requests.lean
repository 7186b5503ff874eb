import Provisioning.Pipeline
import Provisioning.Proofs.Catalog
import Provisioning.Proofs.Graph.Resolve
/-!
Resolving requests one at a time.

`resolveEach` resolves every request on its own, so that a request that
cannot be resolved does not hold back the others. The plans of the requests
that resolve are then merged, in request order, into one plan
(`mergeResolved`), and the other requests are reported with their errors
(`failures`).

Everything rests on one fact of resolution: the part of the graph reached
from a planned name lies inside the part reached from the request that
planned it, so whatever would make that name fail on its own would have made
the request fail too (`resolve_ok_of_mem_plan`). A name that fails on its own
is therefore in no successful plan, and the merged plan and the failures
split the requests between them.

Main statements:

* `IsPlan`: each name planned once, after its dependencies and with them.
  Resolution gives such plans (`isPlan_resolve`), merging keeps them
  (`IsPlan.merge`), and in such a plan no name depends, even through others,
  on a name after it (`IsPlan.pairwise`);
* `mem_mergeResolved`: the merged plan holds exactly the names reached from
  the requests that resolve;
* `mem_mergeResolved_iff`: a request is in the merged plan exactly when it is
  not among the failures;
* `seedOrder_eq`: the seed order of names that are all in the catalog is the
  merged plan, kept to the names asked for, and the failures; so it splits
  the requested names between the order, dependencies first, and the
  unresolved requests (`seedOrder_split`).
-/

namespace Provisioning

namespace Plan

theorem mem_order_push (p : Plan) (name : String) (deps : List String) (x : String) :
    x ∈ (p.push name deps).order ↔ x ∈ p.order ∨ x = name := by
  by_cases h : name ∈ p.order
  · rw [push_of_mem h]
    constructor
    · exact .inl
    · rintro (hx | rfl)
      · exact hx
      · exact h
  · simp [order_push_of_not_mem h]

/-- A property of plans that pushing an entry of `l` keeps, when that entry's dependencies are
planned, holds after pushing the entries of `l` in turn, each after its dependencies. -/
theorem foldl_push_induct {P : Plan → Prop} {p : Plan} {l : List (String × List String)}
    (hstep : ∀ p e, e ∈ l → P p → (∀ d ∈ e.2, d ∈ p.order) → P (p.push e.1 e.2)) (hp : P p)
    (hbefore : ∀ pre e post, l = pre ++ e :: post → ∀ d ∈ e.2, d ∈ p.order ∨ d ∈ pre.map Prod.fst) :
    P (l.foldl (fun acc e => acc.push e.1 e.2) p) := by
  induction l generalizing p with
  | nil => exact hp
  | cons e rest ih =>
    rw [List.foldl_cons]
    have hp' : P (p.push e.1 e.2) :=
      hstep p e List.mem_cons_self hp fun d hd => by simpa using hbefore [] e rest rfl d hd
    refine ih (fun p' e' he' => hstep p' e' (List.mem_cons_of_mem _ he')) hp'
      fun pre e' post hsplit d hd => ?_
    -- before `e'` come `e`, now planned, and `pre`
    rcases hbefore (e :: pre) e' post (by simp [hsplit]) d hd with h | h
    · exact .inl ((mem_order_push _ _ _ d).mpr (.inl h))
    · rw [List.map_cons, List.mem_cons] at h
      rcases h with rfl | h
      · exact .inl ((mem_order_push _ _ _ _).mpr (.inr rfl))
      · exact .inr h

/-- Merging plans in turn keeps the plan free of repeats and plans the names of all of them. -/
theorem foldl_merge_order {p : Plan} (hp : p.order.Nodup) (plans : List Plan) :
    (plans.foldl merge p).order.Nodup ∧
      ∀ n, n ∈ (plans.foldl merge p).order ↔ n ∈ p.order ∨ ∃ q ∈ plans, n ∈ q.order := by
  induction plans generalizing p with
  | nil => simpa using hp
  | cons q plans ih =>
    obtain ⟨hnd, hmem⟩ := merge_order hp q
    obtain ⟨hnd', hmem'⟩ := ih hnd
    refine ⟨hnd', fun n => ?_⟩
    rw [List.foldl_cons, hmem', hmem]
    simp [or_assoc]

end Plan

namespace Graph

variable {g : Graph}

/-! ## Plans of a graph -/

/-- `p` is a plan of `g`: each name planned once, after its dependencies, and with them. -/
structure IsPlan (g : Graph) (p : Plan) : Prop where
  nodup : p.order.Nodup
  depsFirst : g.DepsFirst p.order
  deps_eq : ∀ e ∈ p.entries, e.2 = g.depsOf e.1

theorem isPlan_empty : g.IsPlan {} where
  nodup := List.nodup_nil
  depsFirst := .nil
  deps_eq e he := by cases he

/-- Resolution gives a plan of the graph. -/
theorem isPlan_resolve {requested : List String} {p : Plan} (h : g.resolve requested = .ok p) :
    g.IsPlan p := by
  obtain ⟨⟨w, hinv, rfl⟩, hpost⟩ := resolve_ok h
  exact ⟨hinv.plan_nodup, hpost.depsFirst .nil, hinv.plan_deps⟩

namespace IsPlan

variable {p : Plan}

/-- Planning a name after its dependencies, with them, keeps a plan. -/
theorem push (hp : g.IsPlan p) {n : String} (hdeps : ∀ d ∈ g.depsOf n, d ∈ p.order) :
    g.IsPlan (p.push n (g.depsOf n)) := by
  by_cases hn : n ∈ p.order
  · rw [Plan.push_of_mem hn]
    exact hp
  · have horder := Plan.order_push_of_not_mem hn (g.depsOf n)
    refine ⟨?_, horder ▸ hp.depsFirst.concat hdeps, fun e he => ?_⟩
    · exact Plan.nodup_order_push hp.nodup n _
    · rw [Plan.push_of_not_mem hn] at he
      rcases List.mem_append.mp he with he | he
      · exact hp.deps_eq e he
      · rw [List.mem_singleton.mp he]

/-- Pushing entries in turn, each with the graph's dependencies of its name and after them,
keeps a plan. -/
theorem foldl_push (hp : g.IsPlan p) (l : List (String × List String))
    (hdeps : ∀ e ∈ l, e.2 = g.depsOf e.1)
    (hbefore : ∀ pre e post, l = pre ++ e :: post → ∀ d ∈ e.2, d ∈ p.order ∨ d ∈ pre.map Prod.fst) :
    g.IsPlan (l.foldl (fun acc e => acc.push e.1 e.2) p) := by
  refine Plan.foldl_push_induct (fun p' e he hp' hd => ?_) hp hbefore
  rw [hdeps e he] at hd ⊢
  exact hp'.push hd

/-- Merging a plan of the graph into a plan of the graph keeps a plan. -/
theorem merge (hp : g.IsPlan p) {q : Plan} (hq : g.IsPlan q) : g.IsPlan (p.merge q) := by
  refine hp.foldl_push q.entries hq.deps_eq fun pre e post hsplit d hd => .inr ?_
  have horder : q.order = pre.map Prod.fst ++ e.1 :: post.map Prod.fst := by
    simp [Plan.order, hsplit]
  exact hq.depsFirst _ _ _ horder d (hq.deps_eq e (by simp [hsplit]) ▸ hd)

theorem foldl_merge (hp : g.IsPlan p) {plans : List Plan} (hplans : ∀ q ∈ plans, g.IsPlan q) :
    g.IsPlan (plans.foldl Plan.merge p) := by
  induction plans generalizing p with
  | nil => exact hp
  | cons q plans ih =>
    exact ih (hp.merge (hplans q List.mem_cons_self))
      fun q' hq' => hplans q' (List.mem_cons_of_mem _ hq')

/-- A planned name is planned with the graph's dependencies. -/
theorem depsOf_eq (hp : g.IsPlan p) {n : String} (hn : n ∈ p.order) : p.depsOf n = g.depsOf n :=
  Plan.depsOf_of_forall hp.deps_eq hn

/-- Each entry's dependencies, as planned, come before it. -/
theorem depsOrdered (hp : g.IsPlan p) : p.DepsOrdered := by
  refine ⟨hp.nodup, fun i hi d hd => ?_⟩
  have hsplit : p.entries = p.entries.take i ++ p.entries[i] :: p.entries.drop (i + 1) := by
    rw [List.getElem_cons_drop, List.take_append_drop]
  have horder : p.order =
      (p.entries.take i).map Prod.fst ++ p.entries[i].1 :: (p.entries.drop (i + 1)).map Prod.fst := by
    change p.entries.map Prod.fst = _
    conv_lhs => rw [hsplit]
    rw [List.map_append, List.map_cons]
  exact hp.depsFirst _ _ _ horder d (hp.deps_eq _ (List.getElem_mem hi) ▸ hd)

/-- No planned name depends, even through others, on a name planned after it. -/
theorem pairwise (hp : g.IsPlan p) :
    p.order.Pairwise fun a b => ¬ Relation.TransGen g.DependsOn a b := by
  refine List.pairwise_iff_getElem.mpr fun i j hi hj hij hdep => ?_
  -- along dependencies the index falls, so `j` would come before `i`
  have hlt := (idxOf_lt_of_transGen hp.nodup hp.depsFirst (List.getElem_mem hi) hdep).2
  rw [hp.nodup.idxOf_getElem, hp.nodup.idxOf_getElem] at hlt
  omega

end IsPlan

/-! ## What a planned name resolves to -/

/-- Resolution succeeds when a list without repeats that keeps dependencies first holds the
requested names, and only present names whose dependencies are present. -/
theorem resolve_ok_of_closed {requested l : List String} (hnd : l.Nodup) (hdf : g.DepsFirst l)
    (hpresent : ∀ n ∈ l, g.contains n = true ∧ ∀ d ∈ g.depsOf n, g.contains d = true)
    (hreq : ∀ r ∈ requested, r ∈ l) : ∃ p, g.resolve requested = .ok p := by
  cases hr : g.resolve requested with
  | ok p => exact ⟨p, rfl⟩
  | error e =>
    -- every fault lies in the part reached from the request, which `l` holds
    have hfault := resolve_error hr
    have hreach : ∀ n, g.Reaches requested n → n ∈ l :=
      fun n hn => mem_of_reaches_of_closed hdf.closed hreq hn
    exfalso
    cases e with
    | unknownExtension n =>
      obtain ⟨hn, habsent⟩ := hfault
      rw [(hpresent n (hreq n hn)).1] at habsent
      cases habsent
    | missingDependency r m =>
      obtain ⟨hr, hm, habsent⟩ := hfault
      rw [(hpresent r (hreach r hr)).2 m hm] at habsent
      cases habsent
    | dependencyCycle c =>
      obtain ⟨n, hn, hcycle⟩ := hfault.1.transGen
      exact not_transGen_of_depsFirst hnd hdf (hreach n (hfault.2 n hn)) hcycle
    | _ => exact hfault.elim

/-- A name planned by a successful resolution resolves on its own: what it reaches, the request
reached too. -/
theorem resolve_ok_of_mem_plan {requested : List String} {p : Plan} (h : g.resolve requested = .ok p)
    {y : String} (hy : y ∈ p.order) : ∃ q, g.resolve [y] = .ok q := by
  obtain ⟨⟨w, hinv, rfl⟩, hpost⟩ := resolve_ok h
  exact resolve_ok_of_closed hinv.plan_nodup (hpost.depsFirst .nil) hinv.plan_present
    (by simpa using hy)

/-- A name that fails on its own is in no plan that resolution gives. -/
theorem not_mem_plan_of_error {requested : List String} {p : Plan} (h : g.resolve requested = .ok p)
    {y : String} {e : Error} (he : g.resolve [y] = .error e) : y ∉ p.order := by
  intro hy
  obtain ⟨q, hq⟩ := resolve_ok_of_mem_plan h hy
  rw [hq] at he
  cases he

/-! ## Requests resolved one at a time -/

/-- The plans of the requests that resolved, merged in request order into the empty plan. -/
def mergeResolved (results : List (String × Except Error Plan)) : Plan :=
  (results.filterMap fun x => x.2.toOption).foldl Plan.merge {}

/-- The requests that did not resolve, each with its error, in request order. -/
def failures (results : List (String × Except Error Plan)) : List (String × Error) :=
  results.filterMap fun x =>
    match x.2 with
    | .ok _ => none
    | .error e => some (x.1, e)

theorem mem_resolved {requested : List String} {q : Plan} :
    q ∈ (g.resolveEach requested).filterMap (fun x => x.2.toOption) ↔
      ∃ r ∈ requested, g.resolve [r] = .ok q := by
  simp only [resolveEach, List.filterMap_map, List.mem_filterMap, Function.comp]
  refine exists_congr fun r => and_congr_right fun _ => ?_
  cases g.resolve [r] <;> simp [Except.toOption]

theorem mem_failures {requested : List String} {r : String} :
    r ∈ (failures (g.resolveEach requested)).map Prod.fst ↔
      r ∈ requested ∧ ∃ e, g.resolve [r] = .error e := by
  simp only [failures, resolveEach, List.filterMap_map, List.mem_map, List.mem_filterMap,
    Function.comp]
  constructor
  · rintro ⟨⟨n, e⟩, ⟨r', hr', hres⟩, rfl⟩
    cases hr : g.resolve [r'] with
    | ok q => simp [hr] at hres
    | error e' =>
      simp only [hr, Option.some.injEq, Prod.mk.injEq] at hres
      obtain ⟨rfl, rfl⟩ := hres
      exact ⟨hr', _, hr⟩
  · rintro ⟨hr, e, he⟩
    exact ⟨(r, e), ⟨r, hr, by simp [he]⟩, rfl⟩

/-- The merged plan is a plan of the graph. -/
theorem isPlan_mergeResolved (g : Graph) (requested : List String) :
    g.IsPlan (mergeResolved (g.resolveEach requested)) := by
  refine isPlan_empty.foldl_merge fun q hq => ?_
  obtain ⟨r, -, hr⟩ := mem_resolved.mp hq
  exact isPlan_resolve hr

/-- The merged plan holds exactly the names reached from the requests that resolve. -/
theorem mem_mergeResolved {requested : List String} {n : String} :
    n ∈ (mergeResolved (g.resolveEach requested)).order ↔
      ∃ r ∈ requested, (∃ q, g.resolve [r] = .ok q) ∧ g.Reaches [r] n := by
  rw [mergeResolved, (Plan.foldl_merge_order (p := {}) List.nodup_nil _).2]
  simp only [Plan.order_empty, List.not_mem_nil, false_or]
  constructor
  · rintro ⟨q, hq, hn⟩
    obtain ⟨r, hr, hres⟩ := mem_resolved.mp hq
    exact ⟨r, hr, ⟨q, hres⟩, (resolve_ok hres).2.mem_iff_reaches.mp hn⟩
  · rintro ⟨r, hr, ⟨q, hres⟩, hreach⟩
    exact ⟨q, mem_resolved.mpr ⟨r, hr, hres⟩, (resolve_ok hres).2.mem_iff_reaches.mpr hreach⟩

/-- The merged plan holds only names of the graph. -/
theorem contains_of_mem_mergeResolved {requested : List String} {n : String}
    (h : n ∈ (mergeResolved (g.resolveEach requested)).order) : g.contains n = true := by
  obtain ⟨r, -, ⟨q, hq⟩, hreach⟩ := mem_mergeResolved.mp h
  obtain ⟨⟨w, hinv, rfl⟩, hpost⟩ := resolve_ok hq
  exact (hinv.plan_present n (hpost.mem_iff_reaches.mpr hreach)).1

/-- A name that fails on its own is in no successful plan, so not in the merged plan. -/
theorem not_mem_mergeResolved_of_error {requested : List String} {r : String} {e : Error}
    (he : g.resolve [r] = .error e) : r ∉ (mergeResolved (g.resolveEach requested)).order := by
  intro hmem
  obtain ⟨r', -, ⟨q, hq⟩, hreach⟩ := mem_mergeResolved.mp hmem
  exact not_mem_plan_of_error hq he ((resolve_ok hq).2.mem_iff_reaches.mpr hreach)

/-- A request is in the merged plan exactly when it is not among the failures. -/
theorem mem_mergeResolved_iff {requested : List String} {r : String} (hr : r ∈ requested) :
    r ∈ (mergeResolved (g.resolveEach requested)).order ↔
      r ∉ (failures (g.resolveEach requested)).map Prod.fst := by
  rw [mem_failures]
  constructor
  · rintro hmem ⟨-, e, he⟩
    exact not_mem_mergeResolved_of_error he hmem
  · intro hnot
    cases hres : g.resolve [r] with
    | error e => exact absurd ⟨hr, e, hres⟩ hnot
    | ok q => exact mem_mergeResolved.mpr ⟨r, hr, ⟨q, hres⟩, .of_mem List.mem_cons_self⟩

/-- Folding the results of resolving requests into a plan and a list of failures, as the seed
order does, merges the plans and collects the failures. -/
theorem foldl_plan_failures
    {f : Plan × List (String × Error) → String × Except Error Plan → Plan × List (String × Error)}
    (hf : ∀ p u n r, f (p, u) (n, r) = match r with
      | .ok q => (p.merge q, u)
      | .error e => (p, u ++ [(n, e)]))
    (results : List (String × Except Error Plan)) (p : Plan) (u : List (String × Error)) :
    results.foldl f (p, u) =
      ((results.filterMap fun x => x.2.toOption).foldl Plan.merge p, u ++ failures results) := by
  induction results generalizing p u with
  | nil => simp [failures]
  | cons x results ih =>
    obtain ⟨n, r⟩ := x
    rw [List.foldl_cons, hf]
    cases r with
    | ok q => simp [ih, failures, Except.toOption]
    | error e => simp [ih, failures, Except.toOption]

end Graph

/-! ## The seed order -/

/-- A loop whose every round goes on, answering nothing, answers nothing. -/
theorem forIn_except_yield {ε α : Type} {l : List α} {f : α → PUnit → Except ε (ForInStep PUnit)}
    (hf : ∀ a ∈ l, f a PUnit.unit = .ok (.yield PUnit.unit)) :
    forIn l PUnit.unit f = .ok PUnit.unit := by
  induction l with
  | nil => rfl
  | cons a l ih =>
    rw [List.forIn_cons, hf a List.mem_cons_self]
    exact ih fun a' ha' => hf a' (List.mem_cons_of_mem _ ha')

/-- The seed order of names that are all in the catalog: the merged plan of the requests, kept to
the names asked for, and the requests that did not resolve. -/
theorem seedOrder_eq {c : Catalog} {names : List String} (hnames : ∀ n ∈ names, c.contains n = true) :
    seedOrder c names =
      .ok { order := (Graph.mergeResolved (c.graph.resolveEach
                (if names.isEmpty then c.names else names))).order.filter
              fun n => names.isEmpty || names.contains n,
            unresolved := Graph.failures (c.graph.resolveEach
              (if names.isEmpty then c.names else names)) } := by
  unfold seedOrder
  rw [forIn_except_yield]
  dsimp only [bind, Except.bind]
  rw [Graph.foldl_plan_failures]
  · rfl
  · intro p u n r
    cases r <;> rfl
  · intro n hn
    simp [hnames n hn]
    rfl

/-- `so` splits the names `requested` between its order and its unresolved requests: every
requested name is in exactly one of them and nothing else is in either; the order has no
repeats, and no name in it depends, even through others, on a name after it. -/
structure SeedOrder.Splits (g : Graph) (requested : List String) (so : SeedOrder) : Prop where
  mem : ∀ n, n ∈ so.order ∨ n ∈ so.unresolved.map Prod.fst ↔ n ∈ requested
  disjoint : ∀ n ∈ so.order, n ∉ so.unresolved.map Prod.fst
  nodup : so.order.Nodup
  depsFirst : so.order.Pairwise fun a b => ¬ Relation.TransGen g.DependsOn a b

/-- The seed order of names that are all in the catalog (of every name of the catalog when none
are given) splits them between the order, dependencies first, and the unresolved requests. -/
theorem seedOrder_split {c : Catalog} (hc : ∀ n e, (n, e) ∈ c.entries → e.name = n)
    {names : List String} (hnames : ∀ n ∈ names, c.contains n = true) :
    ∃ so, seedOrder c names = .ok so ∧
      so.Splits c.graph (if names.isEmpty then c.names else names) := by
  rw [seedOrder_eq hnames]
  refine ⟨_, rfl, ?_⟩
  generalize hreq : (if names.isEmpty then c.names else names) = requested
  have hplan := Graph.isPlan_mergeResolved c.graph requested
  -- an ordered name is requested: asked for, or a node of the graph, so a name of the catalog
  have hasked : ∀ n ∈ (Graph.mergeResolved (c.graph.resolveEach requested)).order.filter
      (fun n => names.isEmpty || names.contains n), n ∈ requested := by
    intro n hn
    obtain ⟨hn, hf⟩ := List.mem_filter.mp hn
    cases hnil : names.isEmpty
    · rw [← hreq, hnil]
      simpa [hnil] using hf
    · rw [← hreq, hnil]
      exact Catalog.mem_names_of_graph hc (Graph.contains_of_mem_mergeResolved hn)
  refine ⟨fun n => ⟨?_, fun hn => ?_⟩, fun n hn => ?_, hplan.nodup.filter _,
    hplan.pairwise.filter _⟩
  · rintro (hn | hn)
    · exact hasked n hn
    · exact (Graph.mem_failures.mp hn).1
  · by_cases hf : n ∈ (Graph.failures (c.graph.resolveEach requested)).map Prod.fst
    · exact .inr hf
    · refine .inl (List.mem_filter.mpr ⟨(Graph.mem_mergeResolved_iff hn).mpr hf, ?_⟩)
      cases hnil : names.isEmpty
      · rw [← hreq, hnil] at hn
        simpa [hnil] using hn
      · simp
  · exact (Graph.mem_mergeResolved_iff (hasked n hn)).mp (List.mem_filter.mp hn).1

end Provisioning
