import Provisioning.Proofs.Pipeline
import Provisioning.Proofs.Graph.Requests
/-!
What a report says of its plan.

The resolve stage resolves every request on its own and merges the plans
of those that resolve; a request that does not resolve gets a failed
resolve result. The report's plan is the merged plan, since no later stage
changes it, and a request that failed is in no successful plan
(`Graph.not_mem_mergeResolved_of_error`). So no failed resolve result names
a planned extension (`run_resolveFailed_not_planned`).

The proof goes through the stages with `runStages_induct`: a property of the
run's state, indexed by the stages still to run, that the first stage
carries to the rest, holds of the state the run ends in. Each stage other
than resolving only appends results of its own and keeps the plan
(`AppendsOnly`), which keeps the property once the plan is made.
-/

namespace Provisioning

namespace Pipeline

/-! ## Running the stages -/

/-- A property `I` of the run, indexed by the stages still to run, that every stage carries to the
stages after it, gives `post` of the state a run ends in; a stage that stops the run must give
`post` itself. -/
theorem runStages_induct (p : Pipeline) (sources targets : List String)
    (I : List Stage → RunState → Prop) (post : RunState → Prop)
    (hnil : ∀ st, I [] st → post st)
    (hlink : ∀ rest st m st' m', I (.link :: rest) st →
      (p.linkStage sources st).run m = .ok st' m' → I rest st')
    (hresolve : ∀ rest st m st' go m', I (.resolve :: rest) st →
      (p.resolveStage targets st).run m = .ok (st', go) m' → if go then I rest st' else post st')
    (hinstall : ∀ rest st m st' go m', I (.install :: rest) st →
      (installStage st).run m = .ok (st', go) m' → if go then I rest st' else post st')
    (hseed : ∀ rest st m st' m', I (.seed :: rest) st →
      (p.seedStage st).run m = .ok st' m' → I rest st') :
    ∀ stages st m st' m', I stages st →
      (p.runStages sources targets stages st).run m = .ok st' m' → post st' := by
  intro stages
  induction stages with
  | nil =>
    intro st m st' m' hI h
    cases h
    exact hnil st hI
  | cons stage rest ih =>
    intro st m st' m' hI h
    -- each stage either ends the run or hands its state to the stages after it
    cases stage with
    | link =>
      rw [runStages] at h
      obtain ⟨st₁, m₁, hs, h⟩ := Act.run_bind_eq_ok h
      exact ih st₁ m₁ st' m' (hlink rest st m st₁ m₁ hI hs) h
    | resolve =>
      rw [runStages] at h
      obtain ⟨⟨st₁, go⟩, m₁, hs, h⟩ := Act.run_bind_eq_ok h
      have hgo := hresolve rest st m st₁ go m₁ hI hs
      cases go
      · cases h
        exact hgo
      · exact ih st₁ m₁ st' m' hgo h
    | install =>
      rw [runStages] at h
      obtain ⟨⟨st₁, go⟩, m₁, hs, h⟩ := Act.run_bind_eq_ok h
      have hgo := hinstall rest st m st₁ go m₁ hI hs
      cases go
      · cases h
        exact hgo
      · exact ih st₁ m₁ st' m' hgo h
    | seed =>
      rw [runStages] at h
      obtain ⟨st₁, m₁, hs, h⟩ := Act.run_bind_eq_ok h
      exact ih st₁ m₁ st' m' (hseed rest st m st₁ m₁ hI hs) h

/-! ## Stages that only append their own results -/

/-- From `st` to `st'` the plan stayed and only results of stage `s` were added. -/
def AppendsOnly (s : Stage) (st st' : RunState) : Prop :=
  st'.plan = st.plan ∧ ∃ new, st'.results = st.results ++ new ∧ ∀ r ∈ new, r.stage = s

theorem AppendsOnly.refl (s : Stage) (st : RunState) : AppendsOnly s st st :=
  ⟨rfl, [], (List.append_nil _).symm, by simp⟩

theorem AppendsOnly.trans {s : Stage} {st₁ st₂ st₃ : RunState} (h₁ : AppendsOnly s st₁ st₂)
    (h₂ : AppendsOnly s st₂ st₃) : AppendsOnly s st₁ st₃ := by
  obtain ⟨hp₁, new₁, hr₁, hs₁⟩ := h₁
  obtain ⟨hp₂, new₂, hr₂, hs₂⟩ := h₂
  refine ⟨hp₂.trans hp₁, new₁ ++ new₂, by rw [hr₂, hr₁, List.append_assoc], fun r hr => ?_⟩
  rcases List.mem_append.mp hr with hr | hr
  · exact hs₁ r hr
  · exact hs₂ r hr

theorem linkStage_appendsOnly (p : Pipeline) (sources : List String) {st st' : RunState}
    {m m' : Machine} (h : (p.linkStage sources st).run m = .ok st' m') :
    AppendsOnly .link st st' := by
  obtain ⟨results, m₁, hlink⟩ := p.linker.linkAll_ok sources m
  rw [linkStage, EStateM.run_bind, hlink] at h
  cases h
  refine List.foldlRecOn (motive := AppendsOnly .link st) _ _ ⟨rfl, [], by simp, by simp⟩
    fun s hs x _ => hs.trans ?_
  obtain ⟨r, hres, hstage, -, -, -, hplan, -⟩ := recordLink_result s x
  exact ⟨hplan, [r], hres, by simp [hstage]⟩

theorem installStage_appendsOnly {st st' : RunState} {go : Bool} {m m' : Machine}
    (h : (installStage st).run m = .ok (st', go) m') : AppendsOnly .install st st' := by
  rw [installStage, EStateM.run_bind, Act.run_tryCatch, Act.run_map] at h
  cases hrun : ({} : Installer).enable st.plan |>.run m with
  | error e m₁ =>
    rw [hrun] at h
    cases h
    exact ⟨rfl, _, rfl, by simp [StageResult.failed]⟩
  | ok r m₁ =>
    rw [hrun] at h
    cases h
    rw [foldl_recordInstall]
    refine ⟨rfl, _, rfl, fun x hx => ?_⟩
    obtain ⟨⟨n, o⟩, -, rfl⟩ := List.mem_map.mp hx
    exact o.stageResult_stage n

theorem seedEach_appendsOnly (p : Pipeline) :
    ∀ (names : List String) (st : RunState) (m : Machine) {st' : RunState} {m' : Machine},
      (p.seedEach names st).run m = .ok st' m' → AppendsOnly .seed st st'
  | [], st, m, st', m', h => by
    cases h
    exact .refl _ _
  | name :: rest, st, m, st', m', h => by
    unfold seedEach at h
    split at h
    · exact seedEach_appendsOnly p rest st m h
    · obtain ⟨r, m₁, h₁, -, hstage, -⟩ := seedOne_run p st name m
      simp only [EStateM.run_bind, h₁] at h
      have hstep : AppendsOnly .seed st { st with results := st.results ++ [r] } :=
        ⟨rfl, [r], rfl, by simp [hstage]⟩
      exact hstep.trans (seedEach_appendsOnly p rest _ m₁ h)

theorem seedStage_appendsOnly (p : Pipeline) {st st' : RunState} {m m' : Machine}
    (h : (p.seedStage st).run m = .ok st' m') : AppendsOnly .seed st st' :=
  seedEach_appendsOnly p st.plan.order st m h

/-! ## Resolving -/

/-- Recording the resolution of each request merges the plans of those that resolved and fails
the others, with a failed resolve result each. -/
theorem foldl_recordResolution (results : List (String × Except Error Plan)) (st : RunState) :
    results.foldl recordResolution st =
      { st with plan := (results.filterMap fun x => x.2.toOption).foldl Plan.merge st.plan,
                failed := st.failed ++ (Graph.failures results).map Prod.fst,
                results := st.results ++
                  (Graph.failures results).map fun f => .failed f.1 .resolve f.2 } := by
  induction results generalizing st with
  | nil => simp [Graph.failures]
  | cons x results ih =>
    obtain ⟨name, r⟩ := x
    rw [List.foldl_cons, ih]
    cases r with
    | ok q => simp [recordResolution, Graph.failures, Except.toOption]
    | error e => simp [recordResolution, Graph.failures, Except.toOption]

/-- Recording where the planned names stand adds only results that are done. -/
theorem foldl_recordPlanned (names : List String) (st : RunState) :
    (names.foldl recordPlanned st).plan = st.plan ∧
      ∃ new, (names.foldl recordPlanned st).results = st.results ++ new ∧
        ∀ r ∈ new, r.status = .done := by
  induction names generalizing st with
  | nil => exact ⟨rfl, [], by simp, by simp⟩
  | cons name rest ih =>
    obtain ⟨hplan, new, hres, hdone⟩ := ih (recordPlanned st name)
    obtain ⟨detail, hstep⟩ : ∃ detail,
        (recordPlanned st name).results = st.results ++ [.done name .resolve detail] := ⟨_, rfl⟩
    refine ⟨hplan, _ :: new, by rw [List.foldl_cons, hres, hstep, List.append_assoc]; rfl,
      fun r hr => ?_⟩
    rcases List.mem_cons.mp hr with rfl | hr
    · rfl
    · exact hdone r hr

/-- No failed resolve result names a planned extension. -/
def ResolveClean (st : RunState) : Prop :=
  ∀ r ∈ st.results, r.stage = .resolve → r.status = .failed → r.name ∉ st.plan.order

/-- A stage that only appends results of its own, other than resolving, keeps the results clean. -/
theorem ResolveClean.appendsOnly {s : Stage} (hs : s ≠ .resolve) {st st' : RunState}
    (hclean : ResolveClean st) (h : AppendsOnly s st st') : ResolveClean st' := by
  obtain ⟨hplan, new, hres, hstage⟩ := h
  intro r hr hresolve hfailed
  rw [hres] at hr
  rw [hplan]
  rcases List.mem_append.mp hr with hr | hr
  · exact hclean r hr hresolve hfailed
  · exact absurd (hresolve.symm.trans (hstage r hr)) (Ne.symm hs)

/-- Resolving from an empty plan, before any resolve result, leaves no failed resolve result
naming a planned extension: a request that failed is in no successful plan. -/
theorem resolveStage_clean (p : Pipeline) (targets : List String) {st : RunState}
    (hplan : st.plan = {}) (hnone : ∀ r ∈ st.results, r.stage ≠ .resolve) {m m' : Machine}
    {st' : RunState} {go : Bool} (h : (p.resolveStage targets st).run m = .ok (st', go) m') :
    ResolveClean st' := by
  have hget : EStateM.run (get : Act Machine) m = .ok m m := rfl
  simp -zeta only [resolveStage, EStateM.run_bind, hget] at h
  split at h
  · -- the catalog cannot be read: nothing is planned
    cases h
    intro r _ _ _
    simp [hplan]
  · next catalog hdisc =>
    extract_lets requested planned listed at h
    injection h with h hm
    injection h with hst hgo
    subst hst
    obtain ⟨hlisted_plan, done, hlisted, hdone⟩ := foldl_recordPlanned planned.plan.order planned
    have hplanned : planned = _ := foldl_recordResolution _ _
    intro r hr hresolve hfailed
    rw [hlisted_plan, hplanned, hplan]
    rw [hlisted, hplanned] at hr
    simp only [List.mem_append, List.mem_map] at hr
    rcases hr with (hr | ⟨f, hf, rfl⟩) | hr
    · exact absurd hresolve (hnone r hr)
    · -- a failed request
      obtain ⟨hreq, e, he⟩ := Graph.mem_failures.mp (List.mem_map_of_mem hf)
      exact Graph.not_mem_mergeResolved_of_error he
    · rw [hdone r hr] at hfailed
      cases hfailed

/-! ## Every run -/

/-- Only linking may come before resolving, in the pipeline's order of stages. -/
theorem Stage.resolve_not_mem_of_sublist {s : Stage} {rest : List Stage}
    (h : (s :: rest).Sublist Stage.all) (hs : s ≠ .link) : .resolve ∉ rest := by
  have horder : Stage.all.Pairwise fun a b => b ≠ .resolve ∨ a = .link := by decide
  have hafter := (List.pairwise_cons.mp (horder.sublist h)).1
  intro hmem
  rcases hafter _ hmem with hne | hlink
  · exact hne rfl
  · exact hs hlink

/-- What holds before running `rest` from `st`: the stages left run in the pipeline's order, no
failed resolve result names a planned extension, and before resolving nothing is planned nor
resolved. -/
def CleanAhead (rest : List Stage) (st : RunState) : Prop :=
  rest.Sublist Stage.all ∧ ResolveClean st ∧
    (.resolve ∈ rest → st.plan = {} ∧ ∀ r ∈ st.results, r.stage ≠ .resolve)

/-- A stage other than resolving, that only appends its own results, carries `CleanAhead`. -/
theorem CleanAhead.step {s : Stage} {rest : List Stage} {st st' : RunState}
    (hI : CleanAhead (s :: rest) st) (hs : s ≠ .resolve) (h : AppendsOnly s st st') :
    CleanAhead rest st' := by
  obtain ⟨hsub, hclean, hbefore⟩ := hI
  refine ⟨(List.sublist_cons_self s rest).trans hsub, hclean.appendsOnly hs h, fun hmem => ?_⟩
  obtain ⟨hplan, hnone⟩ := hbefore (List.mem_cons_of_mem _ hmem)
  obtain ⟨hplan', new, hres, hstage⟩ := h
  refine ⟨hplan'.trans hplan, fun r hr => ?_⟩
  rw [hres] at hr
  rcases List.mem_append.mp hr with hr | hr
  · exact hnone r hr
  · rw [hstage r hr]
    exact hs

/-- A run of stages in the pipeline's order, from nothing, ends with no failed resolve result
naming a planned extension. -/
theorem runStages_resolveClean (p : Pipeline) (sources targets : List String) {stages : List Stage}
    (hstages : stages.Sublist Stage.all) {m m' : Machine} {st' : RunState}
    (h : (p.runStages sources targets stages {}).run m = .ok st' m') : ResolveClean st' := by
  have hstart : CleanAhead stages {} :=
    ⟨hstages, (fun r hr => by cases hr), fun _ => ⟨rfl, fun r hr => by cases hr⟩⟩
  refine runStages_induct p sources targets CleanAhead ResolveClean (fun st hI => hI.2.1)
    (fun rest st m st' m' hI h => hI.step (by decide) (linkStage_appendsOnly p sources h))
    (fun rest st m st' go m' hI h => ?_)
    (fun rest st m st' go m' hI h => ?_)
    (fun rest st m st' m' hI h => hI.step (by decide) (seedStage_appendsOnly p h))
    stages {} m st' m' hstart h
  · -- resolving starts from an empty plan and no resolve result, and cannot come again
    obtain ⟨hsub, -, hbefore⟩ := hI
    obtain ⟨hplan, hnone⟩ := hbefore List.mem_cons_self
    have hclean := resolveStage_clean p targets hplan hnone h
    cases go
    · exact hclean
    · exact ⟨(List.sublist_cons_self _ rest).trans hsub, hclean,
        fun hmem => absurd hmem (Stage.resolve_not_mem_of_sublist hsub (by decide))⟩
  · have hstep := hI.step (by decide) (installStage_appendsOnly h)
    cases go
    · exact hstep.2.1
    · exact hstep

/-- Every run of a pipeline whose stages `withStages` chose answers a report in which no failed
resolve result names an extension of the plan. -/
theorem run_resolveFailed_not_planned (p : Pipeline) (sel : List Stage)
    (hstages : p.stages = withStages sel) (sources targets : List String) (m : Machine) :
    ∃ report m', (p.run sources targets).run m = .ok report m' ∧
      ∀ r ∈ report.results, r.stage = .resolve → r.status = .failed → r.name ∉ report.plan := by
  obtain ⟨Q, hQ, hsel⟩ := withStages_filter sel
  obtain ⟨st, m', hrun, -⟩ := runStages_all p sources targets hsel m
  have hsub : (Stage.all.filter Q).Sublist Stage.all := List.filter_sublist
  refine ⟨⟨st.plan.order, st.results⟩, m', ?_, runStages_resolveClean p sources targets hsub hrun⟩
  simp only [run, EStateM.run_bind, hstages, hQ, hrun]
  rfl

end Pipeline

/-! ## Requests resolved one at a time -/

open Graph in
/-- Requests resolved one at a time. The plans of those that resolve, merged in request order,
make one plan: each name once, after its dependencies and planned with them, and with every
dependency of a planned name planned too; it holds exactly the names reached from the requests
that resolve. Every request is either in it or among the failures, never both, since a name that
fails on its own is in no successful plan. So the seed order of names all in the catalog splits
them between its order, dependencies first, and its unresolved requests; and no failed resolve
result of a pipeline run names an extension of the run's plan. -/
theorem resolveEach_merge_partition (g : Graph) (requested : List String) :
    let merged := mergeResolved (g.resolveEach requested)
    let failed := (failures (g.resolveEach requested)).map Prod.fst
    merged.DepsOrdered ∧ g.DepsFirst merged.order ∧
    (∀ n ∈ merged.order, merged.depsOf n = g.depsOf n ∧ ∀ d ∈ g.depsOf n, d ∈ merged.order) ∧
    (∀ n, n ∈ merged.order ↔ ∃ r ∈ requested, (∃ q, g.resolve [r] = .ok q) ∧ g.Reaches [r] n) ∧
    (∀ r, r ∈ failed ↔ r ∈ requested ∧ ∃ e, g.resolve [r] = .error e) ∧
    (∀ r ∈ requested, r ∈ merged.order ↔ r ∉ failed) ∧
    (∀ (r y : String) q e, g.resolve [r] = .ok q → g.resolve [y] = .error e → y ∉ q.order) ∧
    (∀ c : Catalog, (∀ n e, (n, e) ∈ c.entries → e.name = n) →
      ∀ names, (∀ n ∈ names, c.contains n = true) →
        ∃ so, seedOrder c names = .ok so ∧
          so.Splits c.graph (if names.isEmpty then c.names else names)) ∧
    (∀ (p : Pipeline) (sel : List Stage), p.stages = withStages sel →
      ∀ (sources targets : List String) (m : Machine), ∃ report m',
        (p.run sources targets).run m = .ok report m' ∧
          ∀ r ∈ report.results, r.stage = .resolve → r.status = .failed → r.name ∉ report.plan) := by
  intro merged failed
  have hplan : g.IsPlan merged := isPlan_mergeResolved g requested
  refine ⟨hplan.depsOrdered, hplan.depsFirst, fun n hn => ⟨hplan.depsOf_eq hn, ?_⟩,
    fun n => mem_mergeResolved, fun r => mem_failures, fun r hr => mem_mergeResolved_iff hr,
    fun r y q e hq he => not_mem_plan_of_error hq he,
    fun c hc names hnames => seedOrder_split hc hnames,
    fun p sel hstages => Pipeline.run_resolveFailed_not_planned p sel hstages⟩
  exact fun d hd => hplan.depsFirst.closed n hn d hd

/-- Two extensions of a catalog, `b` depending on `a`, split as asked, and a pipeline of every
stage asked for `b`. -/
theorem resolveEach_merge_partition_sample :
    let c : Catalog := ⟨[("a", ⟨"a", "a", "/ext/a", {}, .absent⟩),
      ("b", ⟨"b", "b", "/ext/b", { dependencies := ["a"] }, .loaded⟩)]⟩
    let p : Pipeline := { linker := ⟨"/ext", .auto⟩ }
    ((∀ n e, (n, e) ∈ c.entries → e.name = n) ∧ (∀ n ∈ ["b"], c.contains n = true) ∧
      ∃ so, seedOrder c ["b"] = .ok so ∧ so.Splits c.graph ["b"]) ∧
    (p.stages = withStages Stage.all ∧ ∃ report m', (p.run [] ["b"]).run default = .ok report m' ∧
      ∀ r ∈ report.results, r.stage = .resolve → r.status = .failed → r.name ∉ report.plan) := by
  intro c p
  have hc : ∀ n e, (n, e) ∈ c.entries → e.name = n := by
    intro n e h
    simp only [c, List.mem_cons, Prod.mk.injEq, List.not_mem_nil, or_false] at h
    rcases h with ⟨rfl, rfl⟩ | ⟨rfl, rfl⟩ <;> rfl
  have hnames : ∀ n ∈ ["b"], c.contains n = true := by
    simp [c, Catalog.contains]
  have hstages : p.stages = withStages Stage.all := by decide
  have hall := resolveEach_merge_partition ⟨[("b", ["a"]), ("a", [])]⟩ ["b"]
  exact ⟨⟨hc, hnames, hall.2.2.2.2.2.2.2.1 c hc ["b"] hnames⟩,
    hstages, hall.2.2.2.2.2.2.2.2 p Stage.all hstages [] ["b"] default⟩

end Provisioning
