import Provisioning.Kitchen.Run
import Provisioning.Proofs.Pipeline
/-!
The exit codes of the batch commands.

`link-extension`, `seed-extensions`, `provision` and `install-dependencies` each run a batch of
entries and go on after an entry fails. Each entry contributes the exit code of its error when it
failed (`entryCode`, `resultCode`), and a batch ends as `conclude` says: in success when no entry
failed, and otherwise in a `batch` setback that counts the failed entries and carries the code of
the first failed one in report order. `BatchEnds` says, for each batch request, which entries make
its report and in which order: the results of linking each path in argument order; the unresolved
requests followed by the seeding results; the results of the pipeline's report. An engine error
before the batch runs (the configuration, discovering the catalog, an unknown name to seed,
discovering the source trees) ends the run with that error instead, and a source directory that
does not exist ends it as a mistake of the user's.

* Printing never fails, so the loops over the entries always go on and compute a fold
  (`forIn_yield_run`): the code of the first failure and the count of failures (`foldl_tally`).
  Every code an entry contributes is positive (`entryCode_pos`, `resultCode_pos`), so a batch exits
  with 0 exactly when no entry failed (`exitCode_conclude_eq_zero_iff`).
* A pipeline's report lists no blocked result before its first failure, so its exit code is the
  code of the first failed result (`conclude_report`).
* Each command ends as `BatchEnds` says (`link_ends`, `seed_ends`, `provision_ends`,
  `installDependencies_ends`), and so does every run of a batch request (`execute_batch`); the
  process exits with the code of that ending (`run_exit`).
-/

namespace Provisioning

/-- Every error exits with a code other than 0. -/
theorem Error.exitCode_pos (e : Error) : 0 < e.exitCode :=
  Nat.pos_of_ne_zero (ErrorKind.exitCode_ne e.kind).1

/-- A pipeline whose stages are a selection of all the stages, resolution among them whenever
installing or seeding is, answers a well-formed report. -/
theorem Pipeline.run_wellformed (p : Pipeline) {Q : Stage → Bool}
    (hQ : Q .install = true ∨ Q .seed = true → Q .resolve = true) (hstages : p.stages = Stage.all.filter Q)
    (sources targets : List String) (m : Machine) :
    ∃ report m', (p.run sources targets).run m = .ok report m' ∧
      (∀ x ∈ report.results, x.Wellformed) ∧ BlockedAfterFailed report.results := by
  obtain ⟨st, m', hrun, hend⟩ := runStages_all p sources targets hQ m
  refine ⟨⟨st.plan.order, st.results⟩, m', ?_, hend.wellformed, hend.blockedAfterFailed⟩
  simp only [Pipeline.run, EStateM.run_bind, hstages, hrun]
  rfl

namespace Kitchen

open Provisioning.Text

/-! ### Batches -/

/-- The exit code an entry contributes: none when it succeeded, its error's code when it failed. -/
def entryCode {α : Type} : Except Error α → Option Nat
  | .ok _ => none
  | .error e => some e.exitCode

/-- The exit code a result of the pipeline contributes: none unless it failed or was blocked, and
the code of its error kind when it has one. -/
def resultCode (r : StageResult) : Option Nat :=
  if r.isFailure then some ((r.errorKind.map ErrorKind.exitCode).getD 1) else none

/-- How a batch ends, from its entries' codes in report order: in success when none failed, and
otherwise in a `batch` setback that counts the failed entries and carries the code of the first. -/
def conclude (codes : List (Option Nat)) (total : Nat) : Option Setback :=
  match codes.reduceOption with
  | [] => none
  | code :: _ => some (.batch codes.reduceOption.length total code)

/-- The setback a run ended in, if any. -/
def setbackOf {α : Type} : EStateM.Result Setback Machine α → Option Setback
  | .ok _ _ => none
  | .error s _ => some s

/-- The exit code of a run: 0 on success, the setback's code otherwise. -/
def exitOf (r : EStateM.Result Setback Machine Unit) : Nat := ((setbackOf r).map Setback.exitCode).getD 0

theorem reduceOption_eq_filterMap (codes : List (Option Nat)) :
    codes.reduceOption = codes.filterMap id := rfl

theorem reduceOption_eq_nil_iff {codes : List (Option Nat)} :
    codes.reduceOption = [] ↔ ∀ c ∈ codes, c = none := by
  simp [reduceOption_eq_filterMap, List.filterMap_eq_nil_iff]

theorem mem_reduceOption {codes : List (Option Nat)} {n : Nat} :
    n ∈ codes.reduceOption ↔ some n ∈ codes := by
  simp [reduceOption_eq_filterMap]

/-- A batch ends in success exactly when none of its entries failed. -/
theorem conclude_eq_none_iff {codes : List (Option Nat)} {total : Nat} :
    conclude codes total = none ↔ ∀ c ∈ codes, c = none := by
  rw [← reduceOption_eq_nil_iff]
  unfold conclude
  split <;> simp_all

/-- A batch of entries exits with 0 when no entry failed, and otherwise with the code of the
first failed entry. -/
theorem exitCode_conclude (codes : List (Option Nat)) (total : Nat) :
    ((conclude codes total).map Setback.exitCode).getD 0 = (codes.reduceOption.head?).getD 0 := by
  unfold conclude
  split <;> simp_all [Setback.exitCode]

/-- When no failed entry has the code 0, a batch exits with 0 exactly when no entry failed. -/
theorem exitCode_conclude_eq_zero_iff {codes : List (Option Nat)} {total : Nat}
    (hpos : ∀ n, some n ∈ codes → 0 < n) :
    ((conclude codes total).map Setback.exitCode).getD 0 = 0 ↔ ∀ c ∈ codes, c = none := by
  rw [exitCode_conclude, ← reduceOption_eq_nil_iff]
  cases hr : codes.reduceOption with
  | nil => simp
  | cons n rest =>
    have hn : some n ∈ codes := mem_reduceOption.mp (by simp [hr])
    simpa using (hpos n hn).ne'

theorem entryCode_pos {α : Type} {x : Except Error α} {n : Nat} (h : entryCode x = some n) : 0 < n := by
  cases x with
  | ok a => cases h
  | error e =>
    cases h
    exact e.exitCode_pos

theorem resultCode_pos {r : StageResult} {n : Nat} (h : resultCode r = some n) : 0 < n := by
  unfold resultCode at h
  split at h
  · cases h
    cases r.errorKind with
    | none => exact Nat.one_pos
    | some k => exact Nat.pos_of_ne_zero (ErrorKind.exitCode_ne k).1
  · cases h

/-! ### Running a session -/

theorem say_run (s : String) (m : Machine) :
    (say s).run m = .ok () { m with stdout := m.stdout ++ (s ++ "\n") } := rfl

theorem engine_run {α : Type} (x : Act α) (m : Machine) :
    (engine x).run m = match x.run m with
      | .ok a m' => .ok a m'
      | .error e m' => .error (.engine e) m' := rfl

theorem engineResult_ok_run {α : Type} (a : α) (m : Machine) :
    (engineResult (.ok a)).run m = .ok a m := rfl

theorem engineResult_error_run {α : Type} (e : Error) (m : Machine) :
    (engineResult (.error e : Except Error α)).run m = .error (.engine e) m := rfl

theorem get_bind_run {ε α : Type} (k : Machine → EStateM ε Machine α) (m : Machine) :
    (get >>= k).run m = (k m).run m := rfl

theorem setbackOf_bind_ok {α β : Type} {x : Session α} {k : α → Session β} {m m' : Machine} {a : α}
    (h : x.run m = .ok a m') : setbackOf ((x >>= k).run m) = setbackOf ((k a).run m') := by
  rw [EStateM.run_bind, h]

theorem setbackOf_bind_error {α β : Type} {x : Session α} {k : α → Session β} {m m' : Machine}
    {s : Setback} (h : x.run m = .error s m') : setbackOf ((x >>= k).run m) = some s := by
  rewrite [EStateM.run_bind, h]
  rfl

/-- A check that ends in `s` when it fails, and otherwise in an action that does not fail. -/
theorem setbackOf_ite_throw {c : Prop} [Decidable c] {x : Session Unit}
    (hx : ∀ m, setbackOf (x.run m) = none) (s : Setback) (m : Machine) :
    setbackOf ((if c then x else throw s).run m) = if c then none else some s := by
  by_cases hc : c
  · rw [if_pos hc, if_pos hc]
    exact hx m
  · rewrite [if_neg hc, if_neg hc]
    rfl

/-- A loop whose body never fails and always goes on ends; what `π` sees of its state is the fold
of `G` over the list. -/
theorem forIn_yield_run {α σ τ : Type} (l : List α) (π : σ → τ) (G : τ → α → τ)
    (f : α → σ → Session (ForInStep σ))
    (hf : ∀ a s m, ∃ s' m', (f a s).run m = .ok (.yield s') m' ∧ π s' = G (π s) a)
    (init : σ) (m : Machine) :
    ∃ s m', (forIn l init f).run m = .ok s m' ∧ π s = l.foldl G (π init) := by
  induction l generalizing init m with
  | nil => exact ⟨init, m, rfl, rfl⟩
  | cons a rest ih =>
    obtain ⟨s₁, m₁, h₁, hπ₁⟩ := hf a init m
    obtain ⟨s₂, m₂, h₂, hπ₂⟩ := ih s₁ m₁
    refine ⟨s₂, m₂, ?_, ?_⟩
    · rw [List.forIn_cons, EStateM.run_bind, h₁]
      exact h₂
    · rw [hπ₂, hπ₁, List.foldl_cons]

/-- How a run goes on after such a loop: as its continuation does from the loop's end. -/
theorem setbackOf_forIn_bind {α σ τ β : Type} {l : List α} {init : σ}
    {f : α → σ → Session (ForInStep σ)} {k : σ → Session β} {c : Option Setback}
    (π : σ → τ) (G : τ → α → τ)
    (hf : ∀ a s m, ∃ s' m', (f a s).run m = .ok (.yield s') m' ∧ π s' = G (π s) a)
    (hk : ∀ s m, π s = l.foldl G (π init) → setbackOf ((k s).run m) = c) (m : Machine) :
    setbackOf ((forIn l init f >>= k).run m) = c := by
  obtain ⟨s, m', hrun, hπ⟩ := forIn_yield_run l π G f hf init m
  rw [setbackOf_bind_ok hrun]
  exact hk s m' hπ

/-- A loop of checks stops at the first element that fails its check, and otherwise goes through
with the machine unchanged. -/
theorem forIn_check_run {α σ : Type} (l : List α) (P : α → Bool) (err : α → Setback)
    (f : α → σ → Session (ForInStep σ))
    (hf : ∀ a s m, (f a s).run m = if P a then .error (err a) m else .ok (.yield s) m)
    (init : σ) (m : Machine) :
    (forIn l init f).run m = match l.find? P with
      | some a => .error (err a) m
      | none => .ok init m := by
  induction l with
  | nil => rfl
  | cons a rest ih =>
    rw [List.forIn_cons, EStateM.run_bind, hf, List.find?_cons]
    cases P a
    · exact ih
    · rfl

/-- Running an action on each element, where no action fails, ends with one answer each. -/
theorem mapM_ok {α β : Type} (f : α → Act β) (hf : ∀ a m, ∃ b m', (f a).run m = .ok b m')
    (l : List α) (m : Machine) :
    ∃ bs m', (l.mapM f).run m = .ok bs m' ∧ bs.length = l.length := by
  induction l generalizing m with
  | nil => exact ⟨[], m, rfl, rfl⟩
  | cons a rest ih =>
    obtain ⟨b, m₁, h₁⟩ := hf a m
    obtain ⟨bs, m₂, h₂, hlen⟩ := ih m₁
    refine ⟨b :: bs, m₂, ?_, by simp [hlen]⟩
    simp only [List.mapM_cons, EStateM.run_bind, h₁, h₂]
    rfl

/-! ### Counting failures -/

/-- The counters of a batch after one more entry: the code of the first failure, and the number
of failures. -/
def tally (s : Option Nat × Nat) : Option Nat → Option Nat × Nat
  | none => s
  | some code => (s.1 <|> some code, s.2 + 1)

theorem foldl_tally (codes : List (Option Nat)) (first : Option Nat) (failed : Nat) :
    codes.foldl tally (first, failed) =
      (first <|> codes.reduceOption.head?, failed + codes.reduceOption.length) := by
  induction codes generalizing first failed with
  | nil => cases first <;> rfl
  | cons c rest ih =>
    cases c with
    | none => simpa [tally, reduceOption_eq_filterMap] using ih first failed
    | some code =>
      rw [List.foldl_cons, tally, ih]
      cases first <;> simp [reduceOption_eq_filterMap, Nat.add_assoc, Nat.add_comm 1]

/-- The end of a batch whose counters stand at `(first, failed)` after all its entries. -/
theorem conclude_of_tally {codes : List (Option Nat)} {total : Nat} :
    (match codes.foldl tally (none, 0) with
      | (some code, failed) => some (Setback.batch failed total code)
      | (none, _) => none) = conclude codes total := by
  rw [foldl_tally]
  unfold conclude
  cases codes.reduceOption <;> simp

/-- Counting the entries alongside. -/
theorem foldl_count_tally {β : Type} (code : β → Option Nat) (l : List β) (n : Nat)
    (t : Option Nat × Nat) :
    l.foldl (fun s x => (s.1 + 1, tally s.2 (code x))) (n, t) =
      (n + l.length, (l.map code).foldl tally t) := by
  induction l generalizing n t with
  | nil => rfl
  | cons x rest ih =>
    rw [List.foldl_cons, ih, List.map_cons, List.foldl_cons, List.length_cons]
    simp only [Prod.mk.injEq, and_true]
    omega

/-! ### The reports of the pipeline -/

theorem reduceOption_map_resultCode (results : List StageResult) :
    (results.map resultCode).reduceOption =
      (results.filter (·.isFailure)).map fun r => (r.errorKind.map ErrorKind.exitCode).getD 1 := by
  induction results with
  | nil => rfl
  | cons r rest ih =>
    cases hr : r.isFailure
    · have hcode : resultCode r = none := by simp [resultCode, hr]
      simpa [reduceOption_eq_filterMap, hcode, hr] using ih
    · have hcode : resultCode r = some ((r.errorKind.map ErrorKind.exitCode).getD 1) := by
        simp [resultCode, hr]
      simpa [reduceOption_eq_filterMap, hcode, hr] using ih

/-- The first failure of a report whose blocked results come after a failed one is a failed result,
and so has an error kind. -/
theorem errorKind_first_failure {results : List StageResult} (hwf : ∀ r ∈ results, r.Wellformed)
    (hord : BlockedAfterFailed results) {f : StageResult} {rest : List StageResult}
    (hfirst : results.filter (·.isFailure) = f :: rest) : ∃ k, f.errorKind = some k := by
  obtain ⟨pre, post, hsplit, hpre, hf, -⟩ := List.filter_eq_cons_iff.mp hfirst
  have hfailed : f.status = .failed := by
    cases hs : f.status with
    | failed => rfl
    | blocked =>
      -- a blocked result has a failed one before it, which would come first
      obtain ⟨g, hg, hgf⟩ := hord pre f post hsplit hs
      exact absurd (by simp [StageResult.isFailure, hgf]) (hpre g hg)
    | done | skipped => simp [StageResult.isFailure, hs] at hf
  have hw := hwf f (by simp [hsplit])
  simp only [StageResult.Wellformed, hfailed, beq_self_eq_true] at hw
  exact Option.isSome_iff_exists.mp hw

/-- The batch of a well-formed report ends as `finish` ends it: in success when nothing failed,
and otherwise in a setback that counts the failures and carries the report's exit code. -/
theorem conclude_report {r : ProvisionReport} (hwf : ∀ x ∈ r.results, x.Wellformed)
    (hord : BlockedAfterFailed r.results) :
    conclude (r.results.map resultCode) r.results.length =
      if (r.results.filter (·.isFailure)).length = 0 then none
      else some (.batch (r.results.filter (·.isFailure)).length r.results.length r.exitCode) := by
  unfold conclude
  rw [reduceOption_map_resultCode]
  cases hfl : r.results.filter (·.isFailure) with
  | nil => rfl
  | cons f rest =>
    obtain ⟨k, hk⟩ := errorKind_first_failure hwf hord hfl
    have hcode : r.exitCode = k.exitCode := by
      simp [ProvisionReport.exitCode, hfl, hk]
    simp [hk, hcode]

/-! ### The batch commands -/

/-- The batch requests: those that go on after an entry fails. -/
def Request.isBatch : Request → Bool
  | .link .. | .seed .. | .provision .. | .installDependencies .. => true
  | _ => false

/-- How the batch request `req`, run with the context `ctx` from the machine `m`, ends: `s` is
the setback its batch concludes, over its entries' codes in report order as the engine answers
them on `m`, or the error that stopped it before the batch. -/
def BatchEnds (ctx : Context) (req : Request) (m : Machine) (s : Option Setback) : Prop :=
  match req with
  | .link paths strategy =>
    let linker := match strategy with
      | some st => { ctx.linker with strategy := st }
      | none => ctx.linker
    ∃ results m', (linker.linkAll paths).run m = .ok results m' ∧
      s = conclude (results.map entryCode) paths.length
  | .seed names force _ =>
    match Catalog.discover m ctx.linker.root with
    | .error e => s = some (.engine e)
    | .ok catalog =>
      match seedOrder catalog names with
      | .error e => s = some (.engine e)
      | .ok seeding =>
        ∃ results m', (seedAll force (seeding.order.filterMap catalog.get?)).run m = .ok results m' ∧
          s = conclude (seeding.unresolved.map (fun u => some u.2.exitCode) ++
              results.map fun x => entryCode x.2)
            (seeding.unresolved.length + results.length)
  | .provision names extra force _ =>
    let dirs := ctx.config.sources ++ extra
    match dirs.find? (fun dir => !m.isDir dir) with
    | some dir => s = some (.user ("source directory " ++ dir ++ " does not exist"))
    | none =>
      match Catalog.discoverAll m dirs with
      | .error e => s = some (.engine e)
      | .ok catalog =>
        let pipeline : Pipeline := { linker := ctx.linker, forceSeed := force }
        ∃ report m', (pipeline.run (catalog.extensions.map (·.path)) names).run m = .ok report m' ∧
          s = conclude (report.results.map resultCode) report.results.length
  | .installDependencies name =>
    let pipeline : Pipeline := { linker := ctx.linker, stages := withStages [.install] }
    ∃ report m', (pipeline.run [] [name]).run m = .ok report m' ∧
      s = conclude (report.results.map resultCode) report.results.length
  | _ => False

/-- Linking answers one result per path. -/
theorem linkAll_run (l : Linker) (sources : List String) (m : Machine) :
    ∃ results m', (l.linkAll sources).run m = .ok results m' ∧ results.length = sources.length :=
  mapM_ok _ (fun _ m => Act.run_tryCatch_pure _ _ m) sources m

/-- Seeding answers one result per extension. -/
theorem seedAll_run (force : Bool) (exts : List Extension) (m : Machine) :
    ∃ results m', (seedAll force exts).run m = .ok results m' := by
  obtain ⟨results, m', h, -⟩ := mapM_ok _ (fun ext m => by
    obtain ⟨r, m₁, h₁⟩ := Act.run_tryCatch_pure (Except.ok <$> Provisioning.seed force ext) Except.error m
    exact ⟨(ext.name, r), m₁, by rewrite [EStateM.run_bind, h₁]; rfl⟩) exts m
  exact ⟨results, m', h⟩

theorem link_ends (ctx : Context) (p : Palette) (paths : List String) (strategy : Option LinkStrategy)
    (m : Machine) :
    BatchEnds ctx (.link paths strategy) m (setbackOf ((link ctx p paths strategy).run m)) := by
  cases strategy <;>
  · obtain ⟨results, m₁, hall, hlen⟩ := linkAll_run _ paths m
    refine ⟨results, m₁, hall, ?_⟩
    unfold link
    dsimp only
    rw [setbackOf_bind_ok ((engine_run _ _).trans (by rw [hall]))]
    refine setbackOf_forIn_bind (fun t => t) (fun t x => tally t (entryCode x.2)) ?_ ?_ m₁
    · intro x t m
      obtain ⟨path, r⟩ := x
      cases r <;> exact ⟨_, _, rfl, rfl⟩
    · intro t m ht
      -- the loop runs over the paths zipped with their results, one result per path
      have hcodes : (paths.zip results).map (fun x => entryCode x.2) = results.map entryCode := by
        rw [show (fun x : String × Except Error LinkedExtension => entryCode x.2) = entryCode ∘ Prod.snd
          from rfl, ← List.map_map, List.map_snd_zip (by omega)]
      have hfold : (paths.zip results).foldl (fun t x => tally t (entryCode x.2)) (none, 0) =
          (results.map entryCode).foldl tally (none, 0) := by
        rw [← hcodes, List.foldl_map]
      rw [← conclude_of_tally, ← hfold, ← ht]
      obtain ⟨_ | code, failed⟩ := t <;> rfl

theorem seed_ends (ctx : Context) (p : Palette) (names : List String) (force json : Bool) (m : Machine) :
    BatchEnds ctx (.seed names force json) m
      (setbackOf ((Kitchen.seed ctx p names force json).run m)) := by
  unfold Kitchen.seed
  rw [get_bind_run]
  simp only [BatchEnds]
  cases hd : Catalog.discover m ctx.linker.root with
  | error e => exact setbackOf_bind_error (engineResult_error_run e m)
  | ok catalog =>
    dsimp only
    rw [setbackOf_bind_ok (engineResult_ok_run catalog m)]
    cases ho : seedOrder catalog names with
    | error e => exact setbackOf_bind_error (engineResult_error_run e m)
    | ok seeding =>
      dsimp only
      obtain ⟨results, m₁, hall⟩ := seedAll_run force (seeding.order.filterMap catalog.get?) m
      refine ⟨results, m₁, hall, ?_⟩
      rw [setbackOf_bind_ok (engineResult_ok_run seeding m),
        setbackOf_bind_ok ((engine_run _ _).trans (by rw [hall]))]
      refine setbackOf_forIn_bind (fun s => (s.1.length, s.2)) (fun n x => (n.1 + 1, tally n.2 (entryCode x.2)))
        ?_ ?_ m₁
      · intro x s m
        obtain ⟨name, r⟩ := x
        cases r <;> cases json <;> exact ⟨_, _, rfl, by simp [tally, entryCode]⟩
      · intro s m hs
        obtain ⟨rows, t⟩ := s
        -- the loop counted every entry, the unresolved requests first, and tallied their codes
        have hcodes : (seeding.unresolved.map (fun x => (x.1, (.error x.2 : Except Error SeedOutcome))) ++
            results).map (fun x => entryCode x.2) =
            seeding.unresolved.map (fun u => some u.2.exitCode) ++ results.map fun x => entryCode x.2 := by
          simp [Function.comp_def, entryCode]
        dsimp only at hs
        rw [foldl_count_tally, hcodes] at hs
        simp only [List.length_nil, Prod.mk.injEq, List.length_append, List.length_map, Nat.zero_add] at hs
        obtain ⟨hrows, ht⟩ := hs
        rw [← conclude_of_tally, ← ht, ← hrows]
        obtain ⟨_ | code, failed⟩ := t <;> cases json <;> rfl

/-- Printing a well-formed report ends as its batch of results concludes. -/
theorem finish_ends (p : Palette) (runId startedAt : String) {r : ProvisionReport} (json : Bool)
    (hwf : ∀ x ∈ r.results, x.Wellformed) (hord : BlockedAfterFailed r.results) (m : Machine) :
    setbackOf ((finish p runId startedAt r json).run m) =
      conclude (r.results.map resultCode) r.results.length := by
  rw [conclude_report hwf hord]
  unfold finish
  cases json <;> simp only [Bool.false_eq_true, Bool.not_false, Bool.not_true, beq_iff_eq, ↓reduceIte]
  · -- the rows, then the plan when there is one, then the summary
    refine setbackOf_forIn_bind (fun _ => ()) (fun _ _ => ()) (fun _ _ _ => ⟨_, _, rfl, rfl⟩)
      (fun _ m _ => ?_) m
    split
    · rw [setbackOf_bind_ok (say_run _ _)]
      exact setbackOf_ite_throw (fun _ => rfl) _ _
    · exact setbackOf_ite_throw (fun _ => rfl) _ _
  · rw [setbackOf_bind_ok (say_run _ _)]
    exact setbackOf_ite_throw (fun _ => rfl) _ _

/-- The source trees of a provisioning run: the first source directory that is not a directory
stops the run, and otherwise the trees are those the catalog finds in the directories. -/
theorem sourceTrees_run (ctx : Context) (extra : List String) (m : Machine) :
    (sourceTrees ctx extra).run m =
      match (ctx.config.sources ++ extra).find? (fun dir => !m.isDir dir) with
      | some dir => .error (.user ("source directory " ++ dir ++ " does not exist")) m
      | none =>
        match Catalog.discoverAll m (ctx.config.sources ++ extra) with
        | .error e => .error (.engine e) m
        | .ok catalog => .ok (catalog.extensions.map (·.path)) m := by
  unfold sourceTrees
  rw [get_bind_run, EStateM.run_bind, forIn_check_run _ (fun dir => !m.isDir dir)
    (fun dir => .user ("source directory " ++ dir ++ " does not exist")) _
    (fun dir _ m' => by cases m.isDir dir <;> rfl)]
  cases (ctx.config.sources ++ extra).find? (fun dir => !m.isDir dir) with
  | some dir => rfl
  | none => cases Catalog.discoverAll m (ctx.config.sources ++ extra) <;> rfl

theorem provision_ends (ctx : Context) (p : Palette) (runId startedAt : String)
    (names extra : List String) (force json : Bool) (m : Machine) :
    BatchEnds ctx (.provision names extra force json) m
      (setbackOf ((provision ctx p runId startedAt names extra force json).run m)) := by
  have hrun := sourceTrees_run ctx extra m
  unfold provision
  simp only [BatchEnds]
  cases hdir : (ctx.config.sources ++ extra).find? (fun dir => !m.isDir dir) with
  | some dir =>
    rw [hdir] at hrun
    exact setbackOf_bind_error hrun
  | none =>
    rw [hdir] at hrun
    dsimp only
    cases hcat : Catalog.discoverAll m (ctx.config.sources ++ extra) with
    | error e =>
      rw [hcat] at hrun
      exact setbackOf_bind_error hrun
    | ok catalog =>
      rw [hcat] at hrun
      dsimp only
      -- the default pipeline runs every stage
      obtain ⟨report, m₁, hpipe, hwf, hord⟩ :=
        Pipeline.run_wellformed { linker := ctx.linker, forceSeed := force } (Q := fun _ => true)
          (fun _ => rfl) (List.filter_true _).symm (catalog.extensions.map (·.path)) names m
      refine ⟨report, m₁, hpipe, ?_⟩
      rw [setbackOf_bind_ok hrun, setbackOf_bind_ok ((engine_run _ _).trans (by rw [hpipe]))]
      exact finish_ends p runId startedAt json hwf hord m₁

theorem installDependencies_ends (ctx : Context) (p : Palette) (runId startedAt : String) (name : String)
    (m : Machine) :
    BatchEnds ctx (.installDependencies name) m
      (setbackOf ((installDependencies ctx p runId startedAt name).run m)) := by
  obtain ⟨Q, hQ, hsel⟩ := Pipeline.withStages_filter [.install]
  obtain ⟨report, m₁, hpipe, hwf, hord⟩ :=
    Pipeline.run_wellformed { linker := ctx.linker, stages := withStages [.install] } hsel hQ [] [name] m
  refine ⟨report, m₁, hpipe, ?_⟩
  unfold installDependencies
  rw [setbackOf_bind_ok ((engine_run _ _).trans (by rw [hpipe]))]
  exact finish_ends p runId startedAt false hwf hord m₁

/-! ### Whole runs -/

/-- A configuration that cannot be found or read stops the run before anything else. -/
theorem load_run_error {explicit extDir : Option String} {m : Machine} {e : Error}
    (h : KitchenConfig.discover m explicit (workingDir m) = .error e) :
    (Context.load explicit extDir).run m = .error (.engine e) m := by
  unfold Context.load
  rewrite [get_bind_run, EStateM.run_bind, h]
  rfl

/-- How the batch request of `inv`, run from `m`, ends in `s`: in the configuration's error when the
configuration cannot be loaded, and otherwise as `BatchEnds` says from the machine the
configuration was loaded into. -/
structure EndsAsBatch (inv : Invocation) (m : Machine) (s : Option Setback) : Prop where
  configError : ∀ e, KitchenConfig.discover m inv.config (workingDir m) = .error e → s = some (.engine e)
  loaded : ∀ ctx m₀, (Context.load inv.config inv.extDir).run m = .ok ctx m₀ → BatchEnds ctx inv.request m₀ s

/-- Every run of a batch request ends as its batch concludes: with no setback exactly when no
entry failed, and otherwise in a `batch` setback that counts the failed entries and carries the
exit code of the first of them in report order; or in the engine's error when one stops the run
before the batch. -/
theorem execute_batch (inv : Invocation) (p : Palette) (runId startedAt : String) (m : Machine)
    (hbatch : inv.request.isBatch = true) :
    EndsAsBatch inv m (setbackOf ((execute inv p runId startedAt).run m)) := by
  obtain ⟨verbose, config, extDir, request⟩ := inv
  cases request <;> simp only [Request.isBatch, Bool.false_eq_true] at hbatch <;>
    refine ⟨fun e he => setbackOf_bind_error (load_run_error he), fun ctx m₀ hload => ?_⟩ <;>
    rw [execute, setbackOf_bind_ok hload]
  next paths strategy => exact link_ends ctx p paths strategy m₀
  next name => exact installDependencies_ends ctx p runId startedAt name m₀
  next names force json => exact seed_ends ctx p names force json m₀
  next names extra force json => exact provision_ends ctx p runId startedAt names extra force json m₀

theorem execute_batch_link :
    Request.isBatch (.link ["src"] none) = true ∧
      EndsAsBatch ⟨false, none, none, .link ["src"] none⟩ default
        (setbackOf ((execute ⟨false, none, none, .link ["src"] none⟩ .none "" "").run default)) :=
  ⟨rfl, execute_batch _ .none "" "" default rfl⟩

/-- A run whose command line reads as an invocation exits with the code of how the invocation
ends. -/
theorem run_exit {args : List String} {inv : Invocation} (runId startedAt : String) (m : Machine)
    (h : Invocation.read m.env args = .ok (some inv)) :
    ∃ m', (Kitchen.run args runId startedAt).run m =
      .ok (exitOf ((execute inv (outputPalette m.env) runId startedAt).run m)) m' := by
  unfold Kitchen.run
  rw [get_bind_run]
  dsimp only
  rw [h]
  cases hx : (execute inv (outputPalette m.env) runId startedAt).run m with
  | ok u m' => exact ⟨m', by simp only [EStateM.run] at hx ⊢; rewrite [hx]; rfl⟩
  | error s m' => exact ⟨_, by simp only [EStateM.run] at hx ⊢; rewrite [hx]; rfl⟩

end Kitchen

end Provisioning
