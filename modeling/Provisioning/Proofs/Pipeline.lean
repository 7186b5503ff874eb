import Provisioning.Proofs.Runner
import Provisioning.Proofs.Catalog
import Provisioning.Proofs.Graph.Resolve
/-!
The provisioning pipeline: what gets seeded, and the exit code.

Every run of a pipeline whose stages `withStages` chose answers a report,
and the run is gated (`Pipeline.run_gated`, with `Pipeline.Gated`), whatever
the sources, targets, host, marker store and runner.

* Seeding is gated. The seed runner runs only for planned names, at most
  once each and in plan order, never for a name that failed or was blocked
  when resolving or installing, never after the install stage failed as a
  whole or the plan is empty, and, when installing was selected, only for
  names it enabled or found enabled (`Pipeline.SeedGate`). The runs are read
  off a recording runner, which notes each one; every other action leaves
  the runner alone (`Act.KeepsRunner`).
* A blocked result always comes after a failed one (`BlockedAfterFailed`),
  since only the installer blocks and only after a failure of the plan. So
  the exit code is 0 exactly when the run succeeded, and otherwise the code
  of the first failure's error kind (`ProvisionReport.exitCode_spec`).

The proof follows the stages. `RunState.Inv` is what holds after every
stage that lets the run go on; each stage has a lemma saying what it adds to
the results (`linkStage_run`, `resolveStage_run`, `installStage_run`,
`seedEach_run`), and the selected stages are put together from them one at
a time (`runStages_all`), a run that stops early having seeded nothing.
-/

namespace Provisioning

/-! ## Reports -/

namespace StageResult

/-- A result has an error kind exactly when it failed, as the constructors build it. -/
def Wellformed (r : StageResult) : Prop := r.errorKind.isSome = (r.status == .failed)

theorem wellformed_done (name : String) (stage : Stage) (detail : String) :
    (done name stage detail).Wellformed := rfl

theorem wellformed_skipped (name : String) (stage : Stage) (detail : String) :
    (skipped name stage detail).Wellformed := rfl

theorem wellformed_failed (name : String) (stage : Stage) (e : Error) :
    (failed name stage e).Wellformed := rfl

theorem wellformed_blocked (name : String) (stage : Stage) (by_ : String) :
    (blocked name stage by_).Wellformed := rfl

theorem isFailure_iff (r : StageResult) :
    r.isFailure = true ↔ r.status = .failed ∨ r.status = .blocked := by
  simp [isFailure]

end StageResult

namespace EnableOutcome

@[simp] theorem stageResult_name (o : EnableOutcome) (name : String) :
    (o.stageResult name).name = name := by
  cases o <;> rfl

@[simp] theorem stageResult_stage (o : EnableOutcome) (name : String) :
    (o.stageResult name).stage = .install := by
  cases o <;> rfl

theorem wellformed_stageResult (o : EnableOutcome) (name : String) :
    (o.stageResult name).Wellformed := by
  cases o <;> rfl

/-- A successful outcome is reported as done or skipped. -/
theorem status_of_isSuccess {o : EnableOutcome} (name : String) (h : o.isSuccess = true) :
    (o.stageResult name).status = .done ∨ (o.stageResult name).status = .skipped := by
  cases o with
  | enabled => exact .inl rfl
  | alreadyEnabled => exact .inr rfl
  | failed e => cases h
  | blocked b => cases h

/-- An outcome is reported as a failure exactly when it is not a success. -/
theorem isFailure_stageResult (o : EnableOutcome) (name : String) :
    (o.stageResult name).isFailure = !o.isSuccess := by
  cases o <;> rfl

end EnableOutcome

/-- Every blocked result comes after a failed one. -/
def BlockedAfterFailed (results : List StageResult) : Prop :=
  ∀ pre r post, results = pre ++ r :: post → r.status = .blocked → ∃ f ∈ pre, f.status = .failed

namespace BlockedAfterFailed

theorem of_not_blocked {results : List StageResult} (h : ∀ r ∈ results, r.status ≠ .blocked) :
    BlockedAfterFailed results := by
  intro pre r post hsplit hr
  exact absurd hr (h r (by simp [hsplit]))

theorem append {l₁ l₂ : List StageResult} (h₁ : BlockedAfterFailed l₁)
    (h₂ : BlockedAfterFailed l₂) :
    BlockedAfterFailed (l₁ ++ l₂) := by
  intro pre r post hsplit hr
  rcases List.append_eq_append_iff.mp hsplit with ⟨mid, rfl, hl₂⟩ | ⟨mid, hl₁, hmid⟩
  · -- `r` is a result of `l₂`
    obtain ⟨f, hf, hfailed⟩ := h₂ mid r post hl₂ hr
    exact ⟨f, List.mem_append_right _ hf, hfailed⟩
  · -- `r` is a result of `l₁`
    cases mid with
    | nil =>
      simp only [List.nil_append] at hmid
      obtain ⟨f, hf, hfailed⟩ := h₂ [] r post hmid.symm hr
      simp at hf
    | cons x mid =>
      obtain ⟨rfl, rfl⟩ := List.cons_eq_cons.mp hmid
      exact h₁ pre r mid hl₁ hr

/-- Before the first failed result no result is a failure at all. -/
theorem not_isFailure {results pre rest : List StageResult} (h : BlockedAfterFailed results)
    (hsplit : results = pre ++ rest) (hpre : ∀ x ∈ pre, x.status ≠ .failed) :
    ∀ x ∈ pre, x.isFailure = false := by
  intro x hx
  have hblocked : x.status ≠ .blocked := by
    intro hb
    obtain ⟨pre', post', hsplit'⟩ := List.append_of_mem hx
    obtain ⟨f, hf, hfailed⟩ := h pre' x (post' ++ rest) (by simp [hsplit, hsplit']) hb
    exact hpre f (by simp [hsplit', hf]) hfailed
  simp [StageResult.isFailure, hpre x hx, hblocked]

end BlockedAfterFailed

namespace ProvisionReport

/-- A report with no blocked result before its first failure: its exit code is 0 exactly when
the run succeeded, and otherwise the code of the first failed result's error kind. -/
theorem exitCode_spec {report : ProvisionReport} (hwf : ∀ r ∈ report.results, r.Wellformed)
    (hord : BlockedAfterFailed report.results) :
    (report.exitCode = 0 ↔ report.isSuccess = true) ∧
      (report.isSuccess = false → ∃ pre r post k, report.results = pre ++ r :: post ∧
        r.status = .failed ∧ (∀ x ∈ pre, x.status ≠ .failed) ∧ r.errorKind = some k ∧
        report.exitCode = k.exitCode) := by
  cases hfirst : report.results.find? (·.status == .failed) with
  | none =>
    -- nothing failed, so nothing was blocked either
    have hnofail : ∀ r ∈ report.results, r.status ≠ .failed := by
      simpa using List.find?_eq_none.mp hfirst
    have hnofailure : ∀ r ∈ report.results, r.isFailure = false :=
      hord.not_isFailure (List.append_nil _).symm hnofail
    have hsuccess : report.isSuccess = true := by
      simpa [isSuccess] using hnofailure
    have hfilter : report.results.filter (·.isFailure) = [] :=
      List.filter_eq_nil_iff.mpr fun r hr => by simp [hnofailure r hr]
    refine ⟨⟨fun _ => hsuccess, fun _ => ?_⟩, fun h => absurd hsuccess (by simp [h])⟩
    simp [exitCode, hfilter, hsuccess]
  | some r =>
    obtain ⟨hr, pre, post, hsplit, hpre⟩ := List.find?_eq_some_iff_append.mp hfirst
    have hrfailed : r.status = .failed := by simpa using hr
    have hprefail : ∀ x ∈ pre, x.status ≠ .failed := fun x hx => by simpa using hpre x hx
    have hprefailure : ∀ x ∈ pre, x.isFailure = false := hord.not_isFailure hsplit hprefail
    obtain ⟨k, hk⟩ : ∃ k, r.errorKind = some k := by
      have hwfr := hwf r (by simp [hsplit])
      simp only [StageResult.Wellformed, hrfailed, beq_self_eq_true] at hwfr
      exact Option.isSome_iff_exists.mp hwfr
    have hfilter : report.results.filter (·.isFailure) = r :: post.filter (·.isFailure) := by
      rw [hsplit, List.filter_append,
        List.filter_eq_nil_iff.mpr fun x hx => by simp [hprefailure x hx]]
      simp [StageResult.isFailure, hrfailed]
    have hcode : report.exitCode = k.exitCode := by
      simp [exitCode, hfilter, hk]
    have hfail : report.isSuccess = false := by
      simp only [isSuccess, Bool.not_eq_false', List.any_eq_true]
      exact ⟨r, by simp [hsplit], by simp [StageResult.isFailure, hrfailed]⟩
    refine ⟨⟨fun h => absurd (hcode ▸ h) (ErrorKind.exitCode_ne k).1,
      fun h => by simp [hfail] at h⟩,
      fun _ => ⟨pre, r, post, k, hsplit, hrfailed, hprefail, hk, hcode⟩⟩

end ProvisionReport

/-! ## Running actions to the end -/

namespace Act

/-- A handler that only computes makes an action that always answers. -/
theorem run_tryCatch_pure {α : Type} (x : Act α) (h : Error → α) (m : Machine) :
    ∃ a m', (tryCatch x fun e => pure (h e)).run m = .ok a m' := by
  rw [run_tryCatch]
  cases x.run m with
  | ok a m' => exact ⟨a, m', rfl⟩
  | error e m' => exact ⟨h e, m', rfl⟩

end Act

/-- Linking always answers, with one result per source. -/
theorem Linker.linkAll_ok (l : Linker) (sources : List String) (m : Machine) :
    ∃ results m', (l.linkAll sources).run m = .ok results m' := by
  unfold linkAll
  induction sources generalizing m with
  | nil => exact ⟨[], m, rfl⟩
  | cons source rest ih =>
    rw [List.mapM_cons, EStateM.run_bind]
    obtain ⟨r, m₁, h₁⟩ := Act.run_tryCatch_pure (Except.ok <$> l.link source) Except.error m
    rw [h₁]
    obtain ⟨rs, m₂, h₂⟩ := ih m₁
    refine ⟨r :: rs, m₂, ?_⟩
    simp only [EStateM.run_bind, h₂]
    rfl

/-! ## The state of a run -/

namespace RunState

/-- What holds of a run's state after every stage that let it go on. -/
structure Inv (st : RunState) : Prop where
  wellformed : ∀ r ∈ st.results, r.Wellformed
  blockedAfterFailed : BlockedAfterFailed st.results
  /-- A name that failed or was blocked when resolving or installing is among the failed. -/
  failed_mem : ∀ r ∈ st.results, (r.stage = .resolve ∨ r.stage = .install) → r.isFailure = true →
    r.name ∈ st.failed
  plan_nodup : st.plan.order.Nodup
  catalog_keyed : st.catalog.Keyed
  plan_mem : ∀ n ∈ st.plan.order, st.catalog.contains n = true
  /-- Install results are about planned names. -/
  install_mem : ∀ r ∈ st.results, r.stage = .install → r.name ∈ st.plan.order

/-- Nothing was installed yet. -/
def NoInstall (st : RunState) : Prop := ∀ r ∈ st.results, r.stage ≠ .install

/-- Every planned name that has not failed has one install result, which enabled it or found it
enabled. -/
def Installed (st : RunState) : Prop :=
  ∀ n ∈ st.plan.order, n ∉ st.failed →
    ∃ r, st.results.filter (fun r => r.name == n && r.stage == .install) = [r] ∧
      (r.status = .done ∨ r.status = .skipped)

theorem inv_empty : ({} : RunState).Inv where
  wellformed := by simp
  blockedAfterFailed := BlockedAfterFailed.of_not_blocked (by simp)
  failed_mem := by simp
  plan_nodup := by simp
  catalog_keyed := Catalog.keyed_empty
  plan_mem := by simp
  install_mem := by simp

/-- Results that are well formed and never blocked can follow the results of a run. -/
theorem Inv.results_append {st : RunState} (h : st.Inv) {new : List StageResult}
    (hnew : ∀ r ∈ new, r.Wellformed ∧ r.status ≠ .blocked) :
    (∀ x ∈ st.results ++ new, x.Wellformed) ∧ BlockedAfterFailed (st.results ++ new) := by
  refine ⟨fun x hx => ?_, h.blockedAfterFailed.append (.of_not_blocked fun r hr => (hnew r hr).2)⟩
  rcases List.mem_append.mp hx with hx | hx
  · exact h.wellformed x hx
  · exact (hnew x hx).1

/-- A step that adds results other than install results, fails no fewer names, and keeps the
plan and the catalog keeps the invariant, when each failed resolve result it adds names a failed
name. -/
theorem Inv.of_append {st st' : RunState} (h : st.Inv) {new : List StageResult}
    (hres : st'.results = st.results ++ new) (hfailed : st.failed ⊆ st'.failed)
    (hplan : st'.plan = st.plan) (hcat : st'.catalog = st.catalog)
    (hnew : ∀ r ∈ new, r.Wellformed ∧ r.status ≠ .blocked ∧ r.stage ≠ .install ∧
      (r.stage = .resolve → r.isFailure = true → r.name ∈ st'.failed)) : st'.Inv := by
  obtain ⟨hwf, hord⟩ := h.results_append fun r hr => ⟨(hnew r hr).1, (hnew r hr).2.1⟩
  refine ⟨hres ▸ hwf, hres ▸ hord, ?_, hplan ▸ h.plan_nodup, hcat ▸ h.catalog_keyed, ?_, ?_⟩
  · rw [hres]
    intro r hr hstage hfail
    rcases List.mem_append.mp hr with hr | hr
    · exact hfailed (h.failed_mem r hr hstage hfail)
    · obtain ⟨-, -, hins, hres⟩ := hnew r hr
      rcases hstage with hstage | hstage
      · exact hres hstage hfail
      · exact absurd hstage hins
  · rw [hplan, hcat]
    exact h.plan_mem
  · rw [hres, hplan]
    intro r hr hstage
    rcases List.mem_append.mp hr with hr | hr
    · exact h.install_mem r hr hstage
    · exact absurd hstage (hnew r hr).2.2.1

/-- The invariant reads only the results, the failed names, the plan and the catalog. -/
theorem Inv.of_eq {st st' : RunState} (h : st.Inv) (hres : st'.results = st.results)
    (hfailed : st'.failed = st.failed) (hplan : st'.plan = st.plan)
    (hcat : st'.catalog = st.catalog) : st'.Inv :=
  h.of_append (hres.trans (List.append_nil _).symm) (hfailed ▸ List.Subset.refl _) hplan hcat
    (by simp)

/-- A stage that stops the run adds one result; the results stay well formed and in order. -/
theorem Inv.stop {st : RunState} (h : st.Inv) {r : StageResult} (hr : r.Wellformed)
    (hnb : r.status ≠ .blocked) :
    (∀ x ∈ st.results ++ [r], x.Wellformed) ∧ BlockedAfterFailed (st.results ++ [r]) :=
  h.results_append fun _ hx => by
    rw [List.mem_singleton.mp hx]
    exact ⟨hr, hnb⟩

theorem NoInstall.of_append {st st' : RunState} (h : st.NoInstall) {new : List StageResult}
    (hres : st'.results = st.results ++ new) (hnew : ∀ r ∈ new, r.stage ≠ .install) :
    st'.NoInstall := by
  rw [NoInstall, hres]
  intro r hr
  rcases List.mem_append.mp hr with hr | hr
  · exact h r hr
  · exact hnew r hr

/-- A step that adds one result, neither an install result nor a blocked one, keeps the
invariant and installs nothing, when it keeps the plan and the catalog, fails no fewer names, and
fails the name of a failed resolve result. -/
theorem Inv.push {st st' : RunState} (h : st.Inv) (hno : st.NoInstall) {r : StageResult}
    (hres : st'.results = st.results ++ [r]) (hfailed : st.failed ⊆ st'.failed)
    (hplan : st'.plan = st.plan) (hcat : st'.catalog = st.catalog) (hwf : r.Wellformed)
    (hnb : r.status ≠ .blocked) (hins : r.stage ≠ .install)
    (hresolve : r.stage = .resolve → r.isFailure = true → r.name ∈ st'.failed) :
    st'.Inv ∧ st'.NoInstall := by
  refine ⟨h.of_append hres hfailed hplan hcat ?_, hno.of_append hres ?_⟩
  · simp only [List.mem_singleton, forall_eq]
    exact ⟨hwf, hnb, hins, hresolve⟩
  · simp only [List.mem_singleton, forall_eq]
    exact hins

end RunState

namespace Pipeline

/-! ## Linking -/

/-- Recording a linked source adds one link result and changes nothing else the invariant
reads. -/
theorem recordLink_result (st : RunState) (x : String × Except Error LinkedExtension) :
    ∃ r, (recordLink st x).results = st.results ++ [r] ∧ r.stage = .link ∧ r.Wellformed ∧
      r.status ≠ .blocked ∧ (recordLink st x).failed = st.failed ∧
      (recordLink st x).plan = st.plan ∧ (recordLink st x).catalog = st.catalog := by
  obtain ⟨source, result⟩ := x
  cases result with
  | ok linked =>
    exact ⟨_, rfl, rfl, StageResult.wellformed_done _ _ _, by simp [StageResult.done], rfl, rfl,
      rfl⟩
  | error e =>
    exact ⟨_, rfl, rfl, StageResult.wellformed_failed _ _ _, by simp [StageResult.failed], rfl, rfl,
      rfl⟩

/-- Linking keeps the runner and the invariant, and plans and installs nothing. -/
theorem linkStage_run (p : Pipeline) (sources : List String) {st : RunState} (hinv : st.Inv)
    (hno : st.NoInstall) (m : Machine) :
    ∃ st' m', (p.linkStage sources st).run m = .ok st' m' ∧ m'.runner = m.runner ∧ st'.Inv ∧
      st'.NoInstall ∧ st'.plan = st.plan := by
  obtain ⟨results, m₁, hlink⟩ := p.linker.linkAll_ok sources m
  refine ⟨_, m₁, by rw [linkStage, EStateM.run_bind, hlink]; rfl,
    (Linker.keepsRunner_linkAll _ _).runner_of_ok hlink, ?_⟩
  refine List.foldlRecOn (motive := fun s : RunState => s.Inv ∧ s.NoInstall ∧ s.plan = st.plan) _ _
    ⟨hinv.of_eq rfl rfl rfl rfl, hno, rfl⟩ fun s ⟨hs, hsno, hsplan⟩ x _ => ?_
  obtain ⟨r, hres, hstage, hwf, hnb, hfailed, hplan, hcat⟩ := recordLink_result s x
  obtain ⟨hs', hsno'⟩ := hs.push hsno hres (hfailed ▸ List.Subset.refl _) hplan hcat hwf hnb
    (by simp [hstage]) (by simp [hstage])
  exact ⟨hs', hsno', hplan.trans hsplan⟩

/-! ## Resolving -/

/-- A resolved plan names only nodes of the graph. -/
theorem contains_of_resolve {g : Graph} {requested : List String} {plan : Plan}
    (h : g.resolve requested = .ok plan) : ∀ n ∈ plan.order, g.contains n = true := by
  obtain ⟨⟨w, hinv, rfl⟩, -⟩ := Graph.resolve_ok h
  exact fun n hn => (hinv.plan_present n hn).1

/-- Recording one request keeps the invariant: a resolved plan is merged in, a failed request
fails its name. -/
theorem recordResolution_inv {st : RunState} (h : st.Inv) (hno : st.NoInstall)
    (x : String × Except Error Plan)
    (hx : ∀ plan, x.2 = .ok plan → ∀ n ∈ plan.order, st.catalog.contains n = true) :
    (recordResolution st x).Inv ∧ (recordResolution st x).NoInstall ∧
      (recordResolution st x).catalog = st.catalog := by
  obtain ⟨name, result⟩ := x
  cases result with
  | ok plan =>
    obtain ⟨hnd, hmem⟩ := Plan.merge_order h.plan_nodup plan
    refine ⟨{ h with plan_nodup := hnd, plan_mem := ?_, install_mem := ?_ }, hno, rfl⟩
    · intro n hn
      rcases (hmem n).mp hn with hn | hn
      · exact h.plan_mem n hn
      · exact hx plan rfl n hn
    · intro r hr hstage
      exact absurd hstage (hno r hr)
  | error e =>
    have hres : (recordResolution st (name, .error e)).results =
        st.results ++ [.failed name .resolve e] := rfl
    obtain ⟨hinv, hno⟩ := h.push hno hres (List.subset_append_left _ _) rfl rfl
      (StageResult.wellformed_failed _ _ _) (by simp [StageResult.failed])
      (by simp [StageResult.failed]) fun _ _ => by simp [recordResolution, StageResult.failed]
    exact ⟨hinv, hno, rfl⟩

/-- Recording where a planned name stands keeps the invariant. -/
theorem recordPlanned_inv {st : RunState} (h : st.Inv) (hno : st.NoInstall) (name : String) :
    (recordPlanned st name).Inv ∧ (recordPlanned st name).NoInstall := by
  obtain ⟨detail, hres⟩ : ∃ detail,
      (recordPlanned st name).results = st.results ++ [.done name .resolve detail] := ⟨_, rfl⟩
  exact h.push hno hres (List.Subset.refl _) rfl rfl (StageResult.wellformed_done _ _ _)
    (by simp [StageResult.done]) (by simp [StageResult.done])
    fun _ h => by simp [StageResult.done, StageResult.isFailure] at h

/-- Resolving reads the machine and changes nothing on it. When it lets the run go on, the
invariant holds with the catalog it read and the plan it made. -/
theorem resolveStage_run (p : Pipeline) (targets : List String) {st : RunState} (hinv : st.Inv)
    (hno : st.NoInstall) (hplan : st.plan = {}) (m : Machine) :
    ∃ st' go, (p.resolveStage targets st).run m = .ok (st', go) m ∧
      (∀ r ∈ st'.results, r.Wellformed) ∧ BlockedAfterFailed st'.results ∧
      (go = true → st'.Inv ∧ st'.NoInstall) := by
  have hget : EStateM.run (get : Act Machine) m = .ok m m := rfl
  simp -zeta only [resolveStage, EStateM.run_bind, hget]
  split
  · -- the catalog cannot be read: the run stops
    obtain ⟨hwf, hord⟩ := hinv.stop (StageResult.wellformed_failed "*" .resolve _)
      (by simp [StageResult.failed])
    exact ⟨_, false, rfl, hwf, hord, by simp⟩
  · next catalog hdisc =>
    have hkeyed := Catalog.discover_keyed hdisc
    extract_lets requested planned listed
    have h₀ : ({ st with catalog } : RunState).Inv :=
      { hinv with
        catalog_keyed := hkeyed
        plan_mem := by simp [hplan]
        install_mem := fun r hr hstage => absurd hstage (hno r hr) }
    -- each request is resolved on its own against the catalog's graph
    have h₁ : planned.Inv ∧ planned.NoInstall ∧ planned.catalog = catalog :=
      List.foldlRecOn (motive := fun s : RunState => s.Inv ∧ s.NoInstall ∧ s.catalog = catalog) _ _
        ⟨h₀, hno, rfl⟩ fun s ⟨hs, hsno, hscat⟩ x hx => by
          obtain ⟨name, -, rfl⟩ := List.mem_map.mp hx
          -- a resolved plan names nodes of the graph, which are the catalog's names
          have hcontains : ∀ plan, catalog.graph.resolve [name] = .ok plan →
              ∀ n ∈ plan.order, s.catalog.contains n = true := fun plan hplan n hn => by
            rw [hscat]
            exact Catalog.contains_graph hkeyed (contains_of_resolve hplan n hn)
          obtain ⟨hs', hsno', hscat'⟩ := recordResolution_inv hs hsno (name, _) hcontains
          exact ⟨hs', hsno', hscat'.trans hscat⟩
    have h₂ : listed.Inv ∧ listed.NoInstall :=
      List.foldlRecOn (motive := fun s : RunState => s.Inv ∧ s.NoInstall) _ _ ⟨h₁.1, h₁.2.1⟩
        fun s ⟨hs, hsno⟩ name _ => recordPlanned_inv hs hsno name
    exact ⟨listed, _, rfl, h₂.1.wellformed, h₂.1.blockedAfterFailed, fun _ => h₂⟩

/-! ## Installing -/

/-- The results an enable report adds, one per entry, in order. -/
def installResults (entries : List (String × EnableOutcome)) : List StageResult :=
  entries.map fun e => e.2.stageResult e.1

/-- Recording a report appends its results and fails the entries that did not succeed. -/
theorem foldl_recordInstall (entries : List (String × EnableOutcome)) (st : RunState) :
    entries.foldl recordInstall st =
      { st with results := st.results ++ installResults entries,
                failed := st.failed ++ (entries.filter (!·.2.isSuccess)).map Prod.fst } := by
  induction entries generalizing st with
  | nil => simp [installResults]
  | cons e rest ih =>
    obtain ⟨name, o⟩ := e
    rw [List.foldl_cons, ih]
    cases ho : o.isSuccess <;> simp [recordInstall, installResults, ho]

/-- The installer blocks an extension only after an earlier one failed. -/
theorem blockedAfterFailed_installResults {plan : Plan} {listed : Except Error (List HostEntry)}
    {entries : List (String × EnableOutcome)} (h : Installer.FitsBefore plan listed entries) :
    BlockedAfterFailed (installResults entries) := by
  intro pre r post hsplit hr
  obtain ⟨pre', rest, rfl, rfl, hrest⟩ := List.map_eq_append_iff.mp hsplit
  obtain ⟨⟨name, o⟩, post', rfl, rfl, -⟩ := List.map_eq_cons_iff.mp hrest
  cases o with
  | blocked b =>
    obtain ⟨⟨n, o'⟩, hmem, hfailed⟩ := h.exists_failed_of_blocked rfl
    cases o' with
    | failed e => exact ⟨_, List.mem_map_of_mem hmem, rfl⟩
    | _ => cases hfailed
  | _ => cases hr

/-- The install result of a name that appears once among the entries is its outcome's. -/
theorem filter_installResults {pre post : List (String × EnableOutcome)} {n : String}
    {o : EnableOutcome} (hpre : n ∉ pre.map Prod.fst) (hpost : n ∉ post.map Prod.fst) :
    (installResults (pre ++ (n, o) :: post)).filter (fun r => r.name == n && r.stage == .install) =
      [o.stageResult n] := by
  have hother : ∀ l : List (String × EnableOutcome), n ∉ l.map Prod.fst →
      (installResults l).filter (fun r => r.name == n && r.stage == .install) = [] := by
    intro l hl
    refine List.filter_eq_nil_iff.mpr fun r hr => ?_
    obtain ⟨⟨n', o'⟩, hmem, rfl⟩ := List.mem_map.mp hr
    have hne : n' ≠ n := fun heq => hl (List.mem_map.mpr ⟨_, hmem, heq⟩)
    simp [hne]
  rw [installResults, List.map_append, List.filter_append, ← installResults, hother pre hpre,
    List.map_cons, List.filter_cons, ← installResults, hother post hpost]
  simp

/-- An entry of a list whose keys have no repeats stands between entries of other keys. -/
theorem exists_split_of_nodup {α β : Type} {l : List (α × β)} (hnd : (l.map Prod.fst).Nodup)
    {x : α × β} (hx : x ∈ l) :
    ∃ pre post, l = pre ++ x :: post ∧ x.1 ∉ pre.map Prod.fst ∧ x.1 ∉ post.map Prod.fst := by
  obtain ⟨pre, post, rfl⟩ := List.append_of_mem hx
  have hnd' : (pre.map Prod.fst ++ x.1 :: post.map Prod.fst).Nodup := by simpa using hnd
  exact ⟨pre, post, rfl, fun h => (List.nodup_append.mp hnd').2.2 x.1 h x.1 List.mem_cons_self rfl,
    (List.nodup_cons.mp (List.nodup_append.mp hnd').2.1).1⟩

/-- Recording a report with one entry per planned name, each fitting the failures before it,
keeps the invariant. -/
theorem foldl_recordInstall_inv {st : RunState} (hinv : st.Inv) (hno : st.NoInstall)
    {listed : Except Error (List HostEntry)} {entries : List (String × EnableOutcome)}
    (hnames : entries.map Prod.fst = st.plan.order)
    (hfits : Installer.FitsBefore st.plan listed entries) :
    (entries.foldl recordInstall st).Inv := by
  rw [foldl_recordInstall]
  have hnew : ∀ r ∈ installResults entries, r.Wellformed ∧ r.stage = .install ∧
      r.name ∈ st.plan.order := by
    intro r hr
    obtain ⟨⟨n, o⟩, hmem, rfl⟩ := List.mem_map.mp hr
    refine ⟨o.wellformed_stageResult n, o.stageResult_stage n, ?_⟩
    rw [o.stageResult_name, ← hnames]
    exact List.mem_map_of_mem hmem
  refine ⟨?_, hinv.blockedAfterFailed.append (blockedAfterFailed_installResults hfits), ?_,
    hinv.plan_nodup, hinv.catalog_keyed, hinv.plan_mem, ?_⟩
  · intro r hr
    rcases List.mem_append.mp hr with hr | hr
    · exact hinv.wellformed r hr
    · exact (hnew r hr).1
  · -- a failed or blocked entry is among the failed names
    intro r hr hstage hfail
    rcases List.mem_append.mp hr with hr | hr
    · exact List.mem_append_left _ (hinv.failed_mem r hr hstage hfail)
    · obtain ⟨⟨n, o⟩, hmem, rfl⟩ := List.mem_map.mp hr
      rw [EnableOutcome.isFailure_stageResult] at hfail
      exact List.mem_append_right _ (List.mem_map.mpr ⟨(n, o), List.mem_filter.mpr ⟨hmem, hfail⟩,
        (o.stageResult_name n).symm⟩)
  · intro r hr hstage
    rcases List.mem_append.mp hr with hr | hr
    · exact absurd hstage (hno r hr)
    · exact (hnew r hr).2.2

/-- After recording a report with one entry per planned name, every planned name that did not
fail has exactly one install result, which enabled it or found it enabled. -/
theorem foldl_recordInstall_installed {st : RunState} (hinv : st.Inv) (hno : st.NoInstall)
    {entries : List (String × EnableOutcome)} (hnames : entries.map Prod.fst = st.plan.order) :
    (entries.foldl recordInstall st).Installed := by
  rw [foldl_recordInstall]
  intro n hn hnf
  have hn : n ∈ st.plan.order := hn
  -- the plan has no repeats, so the name has exactly one entry
  rw [← hnames] at hn
  obtain ⟨⟨n', o⟩, hmem, rfl⟩ := List.mem_map.mp hn
  obtain ⟨pre, post, hsplit, hpre, hpost⟩ := exists_split_of_nodup (hnames ▸ hinv.plan_nodup) hmem
  have hsuccess : o.isSuccess = true := by
    by_contra hfail
    exact hnf (List.mem_append_right _
      (List.mem_map.mpr ⟨(n', o), List.mem_filter.mpr ⟨hmem, by simpa using hfail⟩, rfl⟩))
  have hnoinstall : st.results.filter (fun r => r.name == n' && r.stage == .install) = [] :=
    List.filter_eq_nil_iff.mpr fun r hr => by simp [hno r hr]
  refine ⟨o.stageResult n', ?_, o.status_of_isSuccess n' hsuccess⟩
  rw [List.filter_append, hnoinstall, List.nil_append, hsplit]
  exact filter_installResults hpre hpost

/-- Installing asks the host to enable the plan and keeps the runner. When the host could not be
refreshed the run stops; otherwise the invariant holds and every planned name that did not fail
was enabled or found enabled, once. -/
theorem installStage_run {st : RunState} (hinv : st.Inv) (hno : st.NoInstall) (m : Machine) :
    ∃ st' go m', (installStage st).run m = .ok (st', go) m' ∧ m'.runner = m.runner ∧
      (∀ r ∈ st'.results, r.Wellformed) ∧ BlockedAfterFailed st'.results ∧
      (go = true → st'.Inv ∧ st'.Installed) := by
  have hkeep := Installer.keepsRunner_enable {} st.plan m
  rw [installStage, EStateM.run_bind, Act.run_tryCatch, Act.run_map]
  rcases Installer.enable_run {} st.plan m with
    ⟨e, m', -, -, hrun⟩ | ⟨i', entries, m', listed, after, hrun, -, hnames, -, hfits⟩
  · -- the first refresh failed: the run stops
    rw [hrun] at hkeep ⊢
    obtain ⟨hwf, hord⟩ := hinv.stop (StageResult.wellformed_failed "*" .install e)
      (by simp [StageResult.failed])
    exact ⟨_, false, m', rfl, hkeep, hwf, hord, by simp⟩
  · rw [hrun] at hkeep ⊢
    have hinv' := foldl_recordInstall_inv hinv hno hnames hfits
    exact ⟨_, true, m', rfl, hkeep, hinv'.wellformed, hinv'.blockedAfterFailed,
      fun _ => ⟨hinv', foldl_recordInstall_installed hinv hno hnames⟩⟩

/-! ## Seeding -/

/-- Seeding one name adds one seed result, never a blocked one, and changes nothing else. -/
theorem seedOne_run (p : Pipeline) (st : RunState) (name : String) (m : Machine) :
    ∃ r m', (p.seedOne st name).run m = .ok { st with results := st.results ++ [r] } m' ∧
      r.Wellformed ∧ r.stage = .seed ∧ r.status ≠ .blocked := by
  unfold seedOne
  split
  · exact ⟨_, m, rfl, StageResult.wellformed_failed _ _ _, rfl, by simp [StageResult.failed]⟩
  · next ext _ =>
    rw [EStateM.run_bind, Act.run_tryCatch, EStateM.run_bind]
    cases (seed p.forceSeed ext).run m with
    | ok outcome m' =>
      -- a script that ran is done, one that did not is skipped
      by_cases hran : outcome.ran
      · refine ⟨.done name .seed outcome.label, m', ?_, StageResult.wellformed_done _ _ _, rfl,
          by simp [StageResult.done]⟩
        simp only [hran, if_true]
        rfl
      · refine ⟨.skipped name .seed outcome.label, m', ?_, StageResult.wellformed_skipped _ _ _,
          rfl, by simp [StageResult.skipped]⟩
        simp only [hran, Bool.false_eq_true, if_false]
        rfl
    | error e m' =>
      exact ⟨_, m', rfl, StageResult.wellformed_failed _ _ _, rfl, by simp [StageResult.failed]⟩

/-- Seeding one name of a keyed catalog runs the seed runner at most once, for that name. -/
theorem records_seedOne (p : Pipeline) {st : RunState} (hk : st.catalog.Keyed) (name : String) :
    Act.Records (p.seedOne st name) [name] := by
  unfold seedOne
  split
  · exact .of_keepsRunner (.pure _) _
  · next ext hget =>
    rw [← hk.name_of_get? hget]
    have hseed : Act.Records (do
        let outcome ← seed p.forceSeed ext
        pure (if outcome.ran then StageResult.done ext.name .seed outcome.label
          else StageResult.skipped ext.name .seed outcome.label)) [ext.name] :=
      (Act.Records.bind (records_seed p.forceSeed ext) fun _ => .of_keepsRunner (.pure _) []).mono
        (by simp)
    exact (Act.Records.bind (hseed.tryCatch fun _ => .pure _) fun _ =>
      .of_keepsRunner (.pure _) []).mono (by simp)

/-- Seeding names in turn adds seed results only, and runs the seed runner only for the names
that have not failed, in their order. -/
theorem seedEach_run (p : Pipeline) (names : List String) (st : RunState) (hk : st.catalog.Keyed)
    (m : Machine) :
    ∃ new m', (p.seedEach names st).run m = .ok { st with results := st.results ++ new } m' ∧
      (∀ r ∈ new, r.Wellformed ∧ r.stage = .seed ∧ r.status ≠ .blocked) ∧
      Act.Recorded m m' (names.filter fun n => !st.failed.contains n) := by
  induction names generalizing st m with
  | nil => exact ⟨[], m, by simp [seedEach], by simp, .of_runner_eq rfl _⟩
  | cons name rest ih =>
    unfold seedEach
    split
    · next hfailed =>
      -- a failed name is passed over
      obtain ⟨new, m', hrun, hnew, hrec⟩ := ih st hk m
      rw [List.filter_cons_of_neg (by simpa using hfailed)]
      exact ⟨new, m', hrun, hnew, hrec⟩
    · next hfailed =>
      obtain ⟨r, m₁, h₁, hr⟩ := seedOne_run p st name m
      have hrec₁ := (records_seedOne p hk name).recorded_of_run h₁
      rw [EStateM.run_bind, h₁]
      obtain ⟨new, m', hrun, hnew, hrec⟩ := ih { st with results := st.results ++ [r] } hk m₁
      refine ⟨r :: new, m', by simpa using hrun, ?_, ?_⟩
      · intro x hx
        rcases List.mem_cons.mp hx with rfl | hx
        · exact hr
        · exact hnew x hx
      · rw [List.filter_cons_of_pos (by simpa using hfailed)]
        exact hrec₁.trans hrec

/-! ## The seed gate -/

/-- What the seed runner may have run, read against a report: names of the plan, in plan order
and each once; none that failed or was blocked when resolving or installing; nothing when
installing failed as a whole or the plan is empty; and, when installing was selected, only names
it enabled or found enabled, with exactly one install result each. -/
structure SeedGate (stages : List Stage) (report : ProvisionReport) (seeded : List String) :
    Prop where
  sublist : seeded.Sublist report.plan
  nodup : seeded.Nodup
  not_failed : ∀ n ∈ seeded, ∀ r ∈ report.results, r.name = n →
    (r.stage = .resolve ∨ r.stage = .install) → r.status ≠ .failed ∧ r.status ≠ .blocked
  install_whole : (∃ r ∈ report.results, r.name = "*" ∧ r.stage = .install) → seeded = []
  empty_plan : report.plan = [] → seeded = []
  installed : .install ∈ stages → ∀ n ∈ seeded, ∃ r,
    report.results.filter (fun r => r.name == n && r.stage == .install) = [r] ∧
      (r.status = .done ∨ r.status = .skipped)

theorem SeedGate.nil (stages : List Stage) (report : ProvisionReport) :
    SeedGate stages report [] where
  sublist := List.nil_sublist _
  nodup := List.nodup_nil
  not_failed := by simp
  install_whole := fun _ => rfl
  empty_plan := fun _ => rfl
  installed := by simp

/-- Seeding after a run that kept the invariant, for names of the plan that have not failed, in
order, passes the gate. -/
theorem SeedGate.of_seeding {stages : List Stage} {st : RunState} (hinv : st.Inv)
    (hins : .install ∈ stages → st.Installed) {new : List StageResult}
    (hnew : ∀ r ∈ new, r.stage = .seed) {seeded : List String}
    (hs : seeded.Sublist (st.plan.order.filter fun n => !st.failed.contains n)) :
    SeedGate stages { plan := st.plan.order, results := st.results ++ new } seeded := by
  have hsub : seeded.Sublist st.plan.order := hs.trans List.filter_sublist
  have hnotfailed : ∀ n ∈ seeded, n ∉ st.failed := fun n hn => by
    simpa using (List.mem_filter.mp (hs.subset hn)).2
  -- the results of resolving and installing are all from before seeding
  have hold : ∀ r ∈ st.results ++ new, r.stage ≠ .seed → r ∈ st.results := fun r hr hseed =>
    (List.mem_append.mp hr).resolve_right fun hr => hseed (hnew r hr)
  refine ⟨hsub, hsub.nodup hinv.plan_nodup, ?_, ?_, ?_, ?_⟩
  · rintro n hn r hr rfl hstage
    have hr' : r ∈ st.results := hold r hr (by rcases hstage with h | h <;> simp [h])
    have hnf : ¬ r.isFailure = true := fun hf => hnotfailed _ hn (hinv.failed_mem r hr' hstage hf)
    rw [StageResult.isFailure_iff, not_or] at hnf
    exact hnf
  · -- install results name planned names, which are valid names; "*" is not one
    rintro ⟨r, hr, hname, hstage⟩
    have hmem := hinv.install_mem r (hold r hr (by simp [hstage])) hstage
    rw [hname] at hmem
    have hvalid := hinv.catalog_keyed.valid_of_contains (hinv.plan_mem _ hmem)
    rw [Name.isValid_star] at hvalid
    cases hvalid
  · intro hplan
    have hplan : st.plan.order = [] := hplan
    rw [hplan] at hsub
    exact List.sublist_nil.mp hsub
  · intro hi n hn
    obtain ⟨r, hfilter, hstatus⟩ := hins hi n (hsub.subset hn) (hnotfailed n hn)
    refine ⟨r, ?_, hstatus⟩
    rw [List.filter_append, hfilter, List.filter_eq_nil_iff.mpr fun x hx => by simp [hnew x hx]]
    rfl

/-- How a run from `m` ended in `st` and `m'`: its results are well formed, every blocked result
comes after a failed one, and the seed runner ran only as the gate allows. -/
structure Ended (stages : List Stage) (m : Machine) (st : RunState) (m' : Machine) : Prop where
  wellformed : ∀ r ∈ st.results, r.Wellformed
  blockedAfterFailed : BlockedAfterFailed st.results
  seeded : ∀ failing runs, m.runner = .recording failing runs →
    ∃ extra : List (String × String), m'.runner = .recording failing (runs ++ extra) ∧
      SeedGate stages { plan := st.plan.order, results := st.results } (extra.map Prod.fst)

/-- A run that stopped before seeding has run nothing. -/
theorem Ended.of_stop {stages : List Stage} {m m' : Machine} {st : RunState}
    (hwf : ∀ r ∈ st.results, r.Wellformed) (hord : BlockedAfterFailed st.results)
    (hrunner : m'.runner = m.runner) : Ended stages m st m' :=
  ⟨hwf, hord, fun failing runs hm => ⟨[], by rw [hrunner, hm, List.append_nil], SeedGate.nil _ _⟩⟩

theorem Ended.of_runner {stages : List Stage} {m m₁ m' : Machine} {st : RunState}
    (h : Ended stages m₁ st m') (hm : m₁.runner = m.runner) : Ended stages m st m' :=
  ⟨h.wellformed, h.blockedAfterFailed, fun failing runs hmr => h.seeded failing runs (hm.trans hmr)⟩

/-! ## Running the selected stages -/

/-- The stage `s`, when `Q` selects it. -/
def Stage.pick (Q : Stage → Bool) (s : Stage) : List Stage := if Q s then [s] else []

theorem Stage.pick_true {Q : Stage → Bool} {s : Stage} (h : Q s = true) :
    Stage.pick Q s = [s] := by
  simp [Stage.pick, h]

theorem Stage.pick_false {Q : Stage → Bool} {s : Stage} (h : Q s = false) :
    Stage.pick Q s = [] := by
  simp [Stage.pick, h]

/-- The selected stages, in the pipeline's order. -/
theorem Stage.filter_all (Q : Stage → Bool) :
    Stage.all.filter Q =
      Stage.pick Q .link ++
        (Stage.pick Q .resolve ++ (Stage.pick Q .install ++ Stage.pick Q .seed)) := by
  cases hl : Q .link <;> cases hr : Q .resolve <;> cases hi : Q .install <;> cases hs : Q .seed <;>
    simp [Stage.all, Stage.pick, hl, hr, hi, hs]

theorem Stage.mem_filter_all {Q : Stage → Bool} {s : Stage} :
    s ∈ Stage.all.filter Q ↔ Q s = true := by
  cases s <;> simp [Stage.all]

section Stages

variable (p : Pipeline) (sources targets : List String) {Q : Stage → Bool}

theorem runStages_seed {st : RunState} (hinv : st.Inv) (hins : Q .install = true → st.Installed)
    (m : Machine) :
    ∃ st' m', (p.runStages sources targets (Stage.pick Q .seed) st).run m = .ok st' m' ∧
      Ended (Stage.all.filter Q) m st' m' := by
  cases hs : Q .seed
  · rw [Stage.pick_false hs]
    exact ⟨st, m, rfl, .of_stop hinv.wellformed hinv.blockedAfterFailed rfl⟩
  · rw [Stage.pick_true hs]
    obtain ⟨new, m', hrun, hnew, hrec⟩ := seedEach_run p st.plan.order st hinv.catalog_keyed m
    obtain ⟨hwf, hord⟩ := hinv.results_append fun r hr => ⟨(hnew r hr).1, (hnew r hr).2.2⟩
    refine ⟨_, m', by simp only [runStages, seedStage, EStateM.run_bind, hrun]; rfl, hwf, hord, ?_⟩
    intro failing runs hm
    obtain ⟨extra, hsub, hm'⟩ := hrec failing runs hm
    exact ⟨extra, hm', SeedGate.of_seeding hinv (fun hi => hins (Stage.mem_filter_all.mp hi))
      (fun r hr => (hnew r hr).2.1) hsub⟩

theorem runStages_install {st : RunState} (hinv : st.Inv) (hno : st.NoInstall) (m : Machine) :
    ∃ st' m',
      (p.runStages sources targets (Stage.pick Q .install ++ Stage.pick Q .seed) st).run m =
        .ok st' m' ∧ Ended (Stage.all.filter Q) m st' m' := by
  cases hi : Q .install
  · rw [Stage.pick_false hi, List.nil_append]
    exact runStages_seed p sources targets hinv
      (fun h => absurd (hi.symm.trans h) Bool.false_ne_true) m
  · rw [Stage.pick_true hi, List.singleton_append]
    obtain ⟨st₁, go, m₁, hrun₁, hrunner, hwf, hord, hgo⟩ := installStage_run hinv hno m
    simp only [runStages, EStateM.run_bind, hrun₁]
    cases go
    · -- the host could not be refreshed: nothing is seeded
      exact ⟨st₁, m₁, rfl, .of_stop hwf hord hrunner⟩
    · obtain ⟨hinv₁, hins₁⟩ := hgo rfl
      obtain ⟨st', m', hrun, hend⟩ := runStages_seed p sources targets hinv₁ (fun _ => hins₁) m₁
      exact ⟨st', m', hrun, hend.of_runner hrunner⟩

theorem runStages_resolve (hQ : Q .install = true ∨ Q .seed = true → Q .resolve = true)
    {st : RunState} (hinv : st.Inv) (hno : st.NoInstall) (hplan : st.plan = {}) (m : Machine) :
    ∃ st' m', (p.runStages sources targets
        (Stage.pick Q .resolve ++ (Stage.pick Q .install ++ Stage.pick Q .seed)) st).run m =
        .ok st' m' ∧ Ended (Stage.all.filter Q) m st' m' := by
  cases hr : Q .resolve
  · -- without resolving, neither installing nor seeding is selected
    have hi : Q .install = false := by
      cases h : Q .install
      · rfl
      · exact absurd (hQ (.inl h)) (by simp [hr])
    have hs : Q .seed = false := by
      cases h : Q .seed
      · rfl
      · exact absurd (hQ (.inr h)) (by simp [hr])
    rw [Stage.pick_false hr, Stage.pick_false hi, Stage.pick_false hs]
    exact ⟨st, m, rfl, .of_stop hinv.wellformed hinv.blockedAfterFailed rfl⟩
  · rw [Stage.pick_true hr, List.singleton_append]
    obtain ⟨st₁, go, hrun₁, hwf, hord, hgo⟩ := resolveStage_run p targets hinv hno hplan m
    simp only [runStages, EStateM.run_bind, hrun₁]
    cases go
    · exact ⟨st₁, m, rfl, .of_stop hwf hord rfl⟩
    · obtain ⟨hinv₁, hno₁⟩ := hgo rfl
      exact runStages_install p sources targets hinv₁ hno₁ m

theorem runStages_all (hQ : Q .install = true ∨ Q .seed = true → Q .resolve = true) (m : Machine) :
    ∃ st' m', (p.runStages sources targets (Stage.all.filter Q) {}).run m = .ok st' m' ∧
      Ended (Stage.all.filter Q) m st' m' := by
  have hno₀ : ({} : RunState).NoInstall := fun r hr => by cases hr
  nth_rewrite 1 [Stage.filter_all]
  cases hl : Q .link
  · rw [Stage.pick_false hl, List.nil_append]
    exact runStages_resolve p sources targets hQ RunState.inv_empty hno₀ rfl m
  · rw [Stage.pick_true hl, List.singleton_append]
    obtain ⟨st₁, m₁, hrun₁, hrunner, hinv₁, hno₁, hplan₁⟩ :=
      linkStage_run p sources RunState.inv_empty hno₀ m
    simp only [runStages, EStateM.run_bind, hrun₁]
    obtain ⟨st', m', hrun, hend⟩ := runStages_resolve p sources targets hQ hinv₁ hno₁ hplan₁ m₁
    exact ⟨st', m', hrun, hend.of_runner hrunner⟩

end Stages

/-- The stages `withStages` selects: resolving comes with installing and with seeding. -/
theorem withStages_filter (sel : List Stage) :
    ∃ Q : Stage → Bool, withStages sel = Stage.all.filter Q ∧
      (Q .install = true ∨ Q .seed = true → Q .resolve = true) := by
  refine ⟨_, rfl, ?_⟩
  split
  · intro _
    simp
  · next hany =>
    rintro (h | h)
    · exact absurd (List.any_eq_true.mpr ⟨.install, by simpa using h, by decide⟩) hany
    · exact absurd (List.any_eq_true.mpr ⟨.seed, by simpa using h, by decide⟩) hany

/-! ## Every run -/

/-- What a run of the pipeline from `m`, answering `report` and leaving `m'`, guarantees: every
blocked result comes after a failed one; the exit code is 0 exactly on success, and otherwise the
code of the first failed result's error kind; and the seed runner ran only as the gate allows. -/
structure Gated (stages : List Stage) (m : Machine) (report : ProvisionReport) (m' : Machine) :
    Prop where
  blockedAfterFailed : BlockedAfterFailed report.results
  exitCode_zero : report.exitCode = 0 ↔ report.isSuccess = true
  exitCode_failure : report.isSuccess = false → ∃ pre r post k, report.results = pre ++ r :: post ∧
    r.status = .failed ∧ (∀ x ∈ pre, x.status ≠ .failed) ∧ r.errorKind = some k ∧
    report.exitCode = k.exitCode
  seeded : ∀ failing runs, m.runner = .recording failing runs →
    ∃ seeded : List (String × String), m'.runner = .recording failing (runs ++ seeded) ∧
      SeedGate stages report (seeded.map Prod.fst)

/-- Every run of a pipeline whose stages `withStages` selected answers a report, and is gated:
whatever the sources, targets, host, marker store and runner. -/
theorem run_gated (p : Pipeline) (sel : List Stage) (hstages : p.stages = withStages sel)
    (sources targets : List String) (m : Machine) :
    ∃ report m', (p.run sources targets).run m = .ok report m' ∧ Gated p.stages m report m' := by
  obtain ⟨Q, hQ, hsel⟩ := withStages_filter sel
  rw [hstages, hQ]
  obtain ⟨st, m', hrun, hend⟩ := runStages_all p sources targets hsel m
  obtain ⟨hcode, hfirst⟩ := @ProvisionReport.exitCode_spec ⟨st.plan.order, st.results⟩
    hend.wellformed hend.blockedAfterFailed
  refine ⟨_, m', ?_, ⟨hend.blockedAfterFailed, hcode, hfirst, hend.seeded⟩⟩
  simp only [run, EStateM.run_bind, hstages, hQ, hrun]
  rfl

/-- The default pipeline, which runs every stage, is gated. -/
theorem run_gated_every_stage :
    ({ linker := ⟨"/ext", .auto⟩ } : Pipeline).stages = withStages Stage.all ∧
      ∃ report m', (({ linker := ⟨"/ext", .auto⟩ } : Pipeline).run [] []).run default =
        .ok report m' ∧ Gated Stage.all default report m' :=
  ⟨by decide, run_gated _ Stage.all (by decide) [] [] default⟩

end Pipeline

end Provisioning
