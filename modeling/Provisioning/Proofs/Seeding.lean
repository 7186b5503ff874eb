import Provisioning.Proofs.Runner
/-!
Seeding once, across any sequence of seeds and resets.

With the markers kept in memory, one equation says all that seeding an
extension does (`seed_run_memory`). It answers at once when seeding is not
declared or not enabled, and when the script runs once, is not forced and
finds its marker. It fails and changes nothing when the script file is
missing. Otherwise it runs the script, and the marker is added exactly
when the script succeeded. A recording runner makes each run visible: it
notes the script, then fails exactly for the names it was given
(`runScript_run_recording`).

A `SeedHistory` is a sequence of seeds and marker resets of one extension,
each with its answer. Between two operations anything but the markers may
change: the files, or which runs of the runner fail. Seeds never remove a
marker, and a reset removes only those it covers (`SeedOp.perform_markers`),
so the marker an answered seed leaves stays until a reset clears it. While
it is there a script that runs once is not run again unless forced
(`SeedHistory.not_seeded_of_marks`). Hence such a script succeeds unforced
at most once between two resets that clear its marker
(`SeedHistory.clears_between_seeded`).
-/

namespace Provisioning

open Act

/-! ## The marker store in memory -/

namespace MarkerStore

variable {m : Machine} {names : List String}

theorem exists_run_memory (hm : m.markers = .memory names) (name : String) :
    (exists_ name).run m = .ok (names.contains name) m := by
  simp [exists_, hm]

theorem set_run_memory (hm : m.markers = .memory names) (name : String) :
    (set name).run m = .ok () { m with markers := .memory (Text.sortDedup (name :: names)) } := by
  simp [set, hm]

theorem clear_run_memory (hm : m.markers = .memory names) (name : String) :
    (clear name).run m =
      .ok (names.contains name) { m with markers := .memory (names.filter (· != name)) } := by
  simp only [clear, EStateM.run_bind, EStateM.run_get, hm]
  rfl

theorem list_run_memory (hm : m.markers = .memory names) : list.run m = .ok names m := by
  simp [list, hm]

end MarkerStore

/-! ## Running the script -/

/-- A recording runner notes the script, then fails exactly for the names it was given. -/
theorem runScript_run_recording {ext : Extension} {script : String} {m : Machine}
    {failing : List String} {runs : List (String × String)} (hr : m.runner = .recording failing runs) :
    (runScript ext script).run m =
      if ext.name ∈ failing then
        .error (.seedExecution ext.name injectedFailure)
          { m with runner := .recording failing (runs ++ [(ext.name, script)]) }
      else .ok () { m with runner := .recording failing (runs ++ [(ext.name, script)]) } := by
  simp only [runScript, EStateM.run_bind, EStateM.run_get, hr, EStateM.run_modify]
  by_cases hf : ext.name ∈ failing <;> simp [hf]

/-- A command changes the files, never the markers. -/
theorem runCommand_markers (cmd : Command) (m : Machine) :
    (final ((runCommand cmd).run m)).markers = m.markers := by
  simp only [runCommand, EStateM.run]
  split
  · rfl
  · split <;> rfl

/-- Whatever runs the script, the markers stay as they were, however the run ends. -/
theorem runScript_markers (ext : Extension) (script : String) (m : Machine) :
    (final ((runScript ext script).run m)).markers = m.markers := by
  simp only [runScript, EStateM.run_bind, EStateM.run_get]
  split
  · simp only [EStateM.run_bind, EStateM.run_modify]
    split <;> rfl
  · rw [EStateM.run_bind]
    generalize hx : runCommand _ = cmd
    have hcmd : (final (cmd.run m)).markers = m.markers := hx ▸ runCommand_markers _ m
    cases hc : cmd.run m with
    | error e m₁ =>
      rw [hc] at hcmd
      exact hcmd
    | ok r m₁ =>
      rw [hc] at hcmd
      -- the command's answer only decides whether the run fails
      cases r with
      | error e => exact hcmd
      | ok out =>
        dsimp only
        split <;> exact hcmd

/-! ## Seeding -/

section
variable {m : Machine} {names : List String}

/-- Seeding with the markers in memory, given what running the script does. -/
theorem seed_run_memory (force : Bool) (ext : Extension) (hm : m.markers = .memory names) :
    (seed force ext).run m =
      match ext.manifest.seeding with
      | none => .ok .notDeclared m
      | some s =>
        if s.enabled = false then .ok .disabled m
        else if s.runOnce = true ∧ force = false ∧ ext.name ∈ names then .ok .alreadySeeded m
        else if m.isFile (Path.join ext.path s.script) = false then
          .error (.seedExecution ext.name ("seed script not found: " ++ Path.join ext.path s.script)) m
        else
          match (runScript ext (Path.join ext.path s.script)).run m with
          | .ok () m₁ => .ok .seeded { m₁ with markers := .memory (Text.sortDedup (ext.name :: names)) }
          | .error e m₁ => .error e m₁ := by
  unfold seed
  cases hs : ext.manifest.seeding with
  | none => rfl
  | some s =>
    dsimp -zeta only
    extract_lets script jpRun jpCheck
    -- past the marker, both ways check the script file, run it and write the marker
    have hcheck : (jpCheck ()).run m =
        if m.isFile script = false then
          .error (.seedExecution ext.name ("seed script not found: " ++ script)) m
        else
          match (runScript ext script).run m with
          | .ok () m₁ => .ok .seeded { m₁ with markers := .memory (Text.sortDedup (ext.name :: names)) }
          | .error e m₁ => .error e m₁ := by
      simp only [jpCheck, EStateM.run_bind, EStateM.run_get]
      cases hf : m.isFile script
      · rfl
      · simp only [Bool.not_true]
        rw [if_neg Bool.false_ne_true, if_neg (fun h => Bool.false_ne_true h.symm)]
        simp only [jpRun, EStateM.run_bind]
        have hmarkers := runScript_markers ext script m
        cases hr : (runScript ext script).run m with
        | error e m₁ => rfl
        | ok u m₁ =>
          rw [hr] at hmarkers
          dsimp only [final] at hmarkers ⊢
          rw [Act.run_tryCatch, MarkerStore.set_run_memory (hmarkers.trans hm)]
          rfl
    by_cases hen : s.enabled = false
    · simp [hen]
    have hon : s.enabled = true := by simpa using hen
    rw [if_neg hen]
    simp only [hon, Bool.not_true]
    rw [if_neg Bool.false_ne_true]
    by_cases honce : s.runOnce = true ∧ force = false
    · -- running once and not forced, the marker is looked up first
      obtain ⟨h1, h2⟩ := honce
      simp only [h1, h2, Bool.not_false, Bool.and_self, if_true, EStateM.run_bind,
        MarkerStore.exists_run_memory hm]
      by_cases hmark : ext.name ∈ names
      · simp [hmark]
      · simpa [hmark] using hcheck
    · have hguard : (s.runOnce && !force) = false := by
        cases hr : s.runOnce <;> cases hf : force <;> simp_all
      rw [hguard, if_neg Bool.false_ne_true, if_neg (fun h => honce ⟨h.1, h.2.1⟩), hcheck]

/-- Enabled seeding: the marker is looked at first, then the script file, then the script runs. -/
theorem seed_run_enabled {ext : Extension} {s : Seeding} (hs : ext.manifest.seeding = some s)
    (hen : s.enabled = true) (hm : m.markers = .memory names) (force : Bool) :
    (seed force ext).run m =
      if s.runOnce = true ∧ force = false ∧ ext.name ∈ names then .ok .alreadySeeded m
      else if m.isFile (Path.join ext.path s.script) = false then
        .error (.seedExecution ext.name ("seed script not found: " ++ Path.join ext.path s.script)) m
      else
        match (runScript ext (Path.join ext.path s.script)).run m with
        | .ok () m₁ => .ok .seeded { m₁ with markers := .memory (Text.sortDedup (ext.name :: names)) }
        | .error e m₁ => .error e m₁ := by
  rw [seed_run_memory force ext hm, hs]
  exact if_neg (by simp [hen])

/-- With enabled seeding, a script file in place and a recording runner: the script runs unless
it runs once, is not forced and finds its marker; the run is noted, and the marker is added
exactly when the run succeeds. -/
theorem seed_run_recording {ext : Extension} {s : Seeding} (hs : ext.manifest.seeding = some s)
    (hen : s.enabled = true) (hm : m.markers = .memory names) {failing : List String}
    {runs : List (String × String)} (hr : m.runner = .recording failing runs)
    (hfile : m.isFile (Path.join ext.path s.script) = true) (force : Bool) :
    (seed force ext).run m =
      if s.runOnce = true ∧ force = false ∧ ext.name ∈ names then .ok .alreadySeeded m
      else
        let ran :=
          { m with runner := .recording failing (runs ++ [(ext.name, Path.join ext.path s.script)]) }
        if ext.name ∈ failing then .error (.seedExecution ext.name injectedFailure) ran
        else .ok .seeded { ran with markers := .memory (Text.sortDedup (ext.name :: names)) } := by
  have hran : ¬ m.isFile (Path.join ext.path s.script) = false := by simp [hfile]
  rw [seed_run_enabled hs hen hm, if_neg hran, runScript_run_recording hr]
  by_cases hf : ext.name ∈ failing <;> simp [hf]

/-- A missing script file fails the seed, and nothing changes, unless the marker answers first. -/
theorem seed_run_missing {ext : Extension} {s : Seeding} (hs : ext.manifest.seeding = some s)
    (hen : s.enabled = true) (hm : m.markers = .memory names)
    (hfile : m.isFile (Path.join ext.path s.script) = false) (force : Bool) :
    (seed force ext).run m =
      if s.runOnce = true ∧ force = false ∧ ext.name ∈ names then .ok .alreadySeeded m
      else
        .error (.seedExecution ext.name ("seed script not found: " ++ Path.join ext.path s.script)) m := by
  rw [seed_run_enabled hs hen hm, if_pos hfile]

/-- Without enabled seeding nothing runs and nothing changes, whatever the markers. -/
theorem seed_run_not_enabled {ext : Extension}
    (hs : ∀ s, ext.manifest.seeding = some s → s.enabled = false) (force : Bool) (m : Machine) :
    (seed force ext).run m =
      .ok (if ext.manifest.seeding.isSome then .disabled else .notDeclared) m := by
  unfold seed
  cases hseed : ext.manifest.seeding with
  | none => rfl
  | some s => simp [hs s hseed]

/-- A seed that answers adds at most its own marker, and does exactly when it answers seeded. -/
theorem seed_ok_markers (hm : m.markers = .memory names) {force : Bool} {ext : Extension}
    {o : SeedOutcome} {m' : Machine} (h : (seed force ext).run m = .ok o m') :
    m'.markers = .memory (if o = .seeded then Text.sortDedup (ext.name :: names) else names) := by
  rw [seed_run_memory force ext hm] at h
  -- every answer but `seeded` leaves `m` as it was
  split at h
  · cases h
    simpa using hm
  · split_ifs at h
    · cases h
      simpa using hm
    · cases h
      simpa using hm
    · split at h
      · cases h
        rfl
      · cases h

/-- A seed that fails leaves the markers as they were: the marker is written after the script. -/
theorem seed_error_markers (hm : m.markers = .memory names) {force : Bool} {ext : Extension}
    {e : Error} {m' : Machine} (h : (seed force ext).run m = .error e m') :
    m'.markers = .memory names := by
  rw [seed_run_memory force ext hm] at h
  split at h
  · cases h
  · -- the answers that do not fail are ruled out by `split_ifs` itself
    split_ifs at h
    · cases h
      exact hm
    · next s _ _ _ _ =>
      have hmarkers := runScript_markers ext (Path.join ext.path s.script) m
      split at h
      · cases h
      · next e₁ m₁ hr =>
        cases h
        rw [hr] at hmarkers
        exact hmarkers.trans hm

/-- Running once, unforced, with its marker there, a seed answers at once. -/
theorem seed_run_marked {ext : Extension} {s : Seeding} (hs : ext.manifest.seeding = some s)
    (hrun : s.runOnce = true) (hm : m.markers = .memory names) (hmark : ext.name ∈ names) :
    (seed false ext).run m = .ok (if s.enabled then .alreadySeeded else .disabled) m := by
  rw [seed_run_memory false ext hm, hs]
  cases hen : s.enabled
  · simp [hen]
  · simp [hen, hrun, hmark]

end

/-! ## Resetting markers -/

/-- Whether resetting `target` removes the marker of `name`. -/
def ResetTarget.covers : ResetTarget → String → Bool
  | .one n, name => name == n
  | .all, _ => true

section
variable {m : Machine} {names : List String}

/-- Clearing the markers of a list of names, one after another, removes all of them. -/
theorem filterAuxM_clear_run (l acc : List String) (hm : m.markers = .memory names) :
    ∃ kept, (l.filterAuxM MarkerStore.clear acc).run m =
      .ok kept { m with markers := .memory (names.filter fun x => !l.contains x) } := by
  induction l generalizing acc m names with
  | nil =>
    refine ⟨acc, ?_⟩
    have hkeep : names.filter (fun x => !([] : List String).contains x) = names := by simp
    rw [hkeep, ← hm]
    rfl
  | cons y l ih =>
    simp only [List.filterAuxM, EStateM.run_bind, MarkerStore.clear_run_memory hm]
    obtain ⟨kept, hk⟩ := ih (cond (names.contains y) (y :: acc) acc) (m := { m with
      markers := .memory (names.filter (· != y)) }) rfl
    refine ⟨kept, hk.trans ?_⟩
    -- clearing `y` and then the rest removes the names of `y :: l`
    have hfilter : (names.filter (· != y)).filter (fun x => !l.contains x) =
        names.filter fun x => !(y :: l).contains x := by
      rw [List.filter_filter]
      congr 1
      funext x
      by_cases hxy : x = y <;> simp [hxy]
    rw [hfilter]

/-- Resetting markers kept in memory removes exactly those the target covers. -/
theorem resetMarkers_run_memory (target : ResetTarget) (hm : m.markers = .memory names) :
    ∃ cleared, (resetMarkers target).run m =
      .ok cleared { m with markers := .memory (names.filter fun x => !target.covers x) } := by
  cases target with
  | one n =>
    obtain ⟨kept, hk⟩ := filterAuxM_clear_run [n] [] hm
    refine ⟨kept.reverse, ?_⟩
    simp only [resetMarkers, List.filterM, EStateM.run_bind, EStateM.run_pure, hk]
    congr 3
    refine List.filter_congr fun x _ => ?_
    by_cases hxn : x = n <;> simp [hxn, ResetTarget.covers]
  | all =>
    obtain ⟨kept, hk⟩ := filterAuxM_clear_run names [] hm
    refine ⟨kept.reverse, ?_⟩
    simp only [resetMarkers, List.filterM, EStateM.run_bind, MarkerStore.list_run_memory hm,
      EStateM.run_pure, hk]
    -- every marker there is one of the names listed
    have hnone : names.filter (fun x => !names.contains x) =
        names.filter fun x => !ResetTarget.all.covers x := by
      simp [ResetTarget.covers, List.filter_eq_nil_iff]
    rw [hnone]

end

/-! ## Histories of seeds and resets -/

namespace Act

/-- An answer of `f <$> x` is an answer of `x` passed through `f`. -/
theorem Answers.of_map {α β : Type} {f : α → β} {x : Act α} {m m' : Machine} {b : Except Error β}
    (h : Answers (f <$> x) m b m') : ∃ a, Answers x m a m' ∧ b = a.map f := by
  unfold Answers at h
  rw [Act.run_map] at h
  cases hx : x.run m with
  | ok a m₁ =>
    rw [hx] at h
    cases b with
    | ok v =>
      cases h
      exact ⟨.ok a, hx, rfl⟩
    | error e => cases h
  | error e m₁ =>
    rw [hx] at h
    cases b with
    | ok v => cases h
    | error e' =>
      cases h
      exact ⟨.error e, hx, rfl⟩

/-- Two runs from one machine answer alike. -/
theorem Answers.of_run_ok {α : Type} {x : Act α} {m m₁ m' : Machine} {a : Except Error α} {v : α}
    (h : Answers x m a m₁) (hx : x.run m = .ok v m') : a = .ok v ∧ m₁ = m' := by
  unfold Answers at h
  rw [hx] at h
  cases a with
  | ok w =>
    cases h
    exact ⟨rfl, rfl⟩
  | error e => cases h

end Act

/-- One operation on an extension's seeding: a seed, forced or not, or a reset of markers. -/
inductive SeedOp where
  | seed (force : Bool)
  | reset (target : ResetTarget)

namespace SeedOp

/-- Perform the operation for `ext`: a seed answers its outcome, a reset nothing. -/
def perform (ext : Extension) : SeedOp → Act (Option SeedOutcome)
  | .seed force => some <$> Provisioning.seed force ext
  | .reset target => (fun _ => none) <$> resetMarkers target

/-- Whether the operation removes the marker of `name`. -/
def clears (name : String) : SeedOp → Bool
  | .seed _ => false
  | .reset target => target.covers name

/-- What one operation does to markers kept in memory: they stay in memory, those it does not
clear stay, and a seed that answers `seeded` leaves its own. -/
theorem perform_markers {ext : Extension} {op : SeedOp} {m m₁ : Machine} {names : List String}
    {a : Except Error (Option SeedOutcome)} (hm : m.markers = .memory names)
    (h : Answers (op.perform ext) m a m₁) :
    ∃ names', m₁.markers = .memory names' ∧ (∀ x ∈ names, op.clears x = false → x ∈ names') ∧
      (a = .ok (some .seeded) → ext.name ∈ names') := by
  cases op with
  | seed force =>
    obtain ⟨a', ha', rfl⟩ := Answers.of_map (f := some) (x := Provisioning.seed force ext) h
    cases a' with
    | ok o =>
      refine ⟨_, seed_ok_markers hm ha', fun x hx _ => ?_, fun hseeded => ?_⟩
      · split <;> simp [hx]
      · obtain rfl : o = .seeded := by simpa [Except.map] using hseeded
        simp
    | error e =>
      refine ⟨names, seed_error_markers hm ha', fun x hx _ => hx, fun hseeded => ?_⟩
      cases hseeded
  | reset target =>
    obtain ⟨a', ha', rfl⟩ := Answers.of_map (f := fun _ => none) (x := resetMarkers target) h
    obtain ⟨cleared, hr⟩ := resetMarkers_run_memory target hm
    obtain ⟨rfl, rfl⟩ := Answers.of_run_ok ha' hr
    refine ⟨_, rfl, fun x hx hkeep => List.mem_filter.mpr ⟨hx, ?_⟩, fun hseeded => ?_⟩
    · simpa [clears] using hkeep
    · cases hseeded

end SeedOp

/-- `SeedHistory ext m steps`: from `m`, each operation of `steps` was performed for `ext` and gave
the answer written beside it. Between two operations anything but the markers may change: the
files, or which runs of the runner fail. -/
inductive SeedHistory (ext : Extension) :
    Machine → List (SeedOp × Except Error (Option SeedOutcome)) → Prop
  | nil (m : Machine) : SeedHistory ext m []
  | step {m m₁ m₂ : Machine} {op : SeedOp} {a : Except Error (Option SeedOutcome)}
      {rest : List (SeedOp × Except Error (Option SeedOutcome))} :
      Answers (op.perform ext) m a m₁ → m₂.markers = m₁.markers → SeedHistory ext m₂ rest →
      SeedHistory ext m ((op, a) :: rest)

namespace SeedHistory

variable {ext : Extension} {s : Seeding}

/-- While its marker stays, a script that runs once is not run again unforced: up to the first
reset that clears the marker, every non-forced seed answers without `seeded`. -/
theorem not_seeded_of_marks (hs : ext.manifest.seeding = some s) (hrun : s.runOnce = true) :
    ∀ (mid : List (SeedOp × Except Error (Option SeedOutcome))) {m : Machine} {names : List String}
      {a : Except Error (Option SeedOutcome)} {post : List (SeedOp × Except Error (Option SeedOutcome))},
      m.markers = .memory names → ext.name ∈ names →
      SeedHistory ext m (mid ++ (.seed false, a) :: post) →
      (∀ op ∈ mid.map Prod.fst, op.clears ext.name = false) → a ≠ .ok (some .seeded) := by
  intro mid
  -- the marker is carried along `mid`, one operation at a time
  induction mid with
  | nil =>
    intro m names a post hm hmark hh _
    cases hh with
    | step ha _ _ =>
      obtain ⟨a', ha', rfl⟩ := Answers.of_map (f := some) (x := Provisioning.seed false ext) ha
      obtain ⟨rfl, -⟩ := Answers.of_run_ok ha' (seed_run_marked hs hrun hm hmark)
      cases hen : s.enabled <;> simp [Except.map]
  | cons x mid ih =>
    intro m names a post hm hmark hh hclear
    obtain ⟨op, b⟩ := x
    cases hh with
    | step hx heq hrest =>
      obtain ⟨names', hm₁, hkeep, -⟩ := SeedOp.perform_markers hm hx
      exact ih (heq.trans hm₁) (hkeep _ hmark (hclear op (List.mem_cons_self ..))) hrest
        fun op' hop' => hclear op' (List.mem_cons_of_mem _ hop')

/-- After a seed answered `seeded`, a script that runs once answers `seeded` to a non-forced seed
again only once an operation in between has cleared its marker. -/
theorem clears_between_seeded (hs : ext.manifest.seeding = some s) (hrun : s.runOnce = true) :
    ∀ (pre : List (SeedOp × Except Error (Option SeedOutcome))) {m : Machine} {names : List String}
      {f : Bool} {mid post : List (SeedOp × Except Error (Option SeedOutcome))},
      m.markers = .memory names →
      SeedHistory ext m (pre ++ (.seed f, .ok (some .seeded)) ::
        (mid ++ (.seed false, .ok (some .seeded)) :: post)) →
      ∃ op ∈ mid.map Prod.fst, op.clears ext.name = true := by
  intro pre
  -- the markers stay in memory along `pre`
  induction pre with
  | nil =>
    intro m names f mid post hm hh
    cases hh with
    | step ha heq hrest =>
      obtain ⟨names', hm₁, -, hseeded⟩ := SeedOp.perform_markers hm ha
      by_contra hnone
      have hkept : ∀ op ∈ mid.map Prod.fst, op.clears ext.name = false := by
        intro op hop
        simpa using fun h => hnone ⟨op, hop, h⟩
      exact not_seeded_of_marks hs hrun mid (heq.trans hm₁) (hseeded rfl) hrest hkept rfl
  | cons x pre ih =>
    intro m names f mid post hm hh
    obtain ⟨op, b⟩ := x
    cases hh with
    | step hx heq hrest =>
      obtain ⟨names', hm₁, -, -⟩ := SeedOp.perform_markers hm hx
      exact ih (heq.trans hm₁) hrest

end SeedHistory

/-! ## Seeding once -/

/-- Seeding with the markers kept in memory. With enabled seeding and its script file in place, a
recording runner sees the script run unless it runs once, is not forced and finds its marker, and
the marker is added exactly when the run succeeds. A missing script file fails the seed and changes
nothing. Whatever runs the script, a failed seed leaves the markers as they were, and one that
answers adds at most its own marker, exactly when it answers `seeded`. Without enabled seeding
nothing runs and nothing changes. Across any history of seeds and resets, a script that runs once
answers `seeded` unforced after an earlier success only once its marker was cleared in between. -/
theorem seed_marker_discipline :
    (∀ (ext : Extension) (s : Seeding) (m : Machine) (names failing : List String)
        (runs : List (String × String)) (force : Bool),
      ext.manifest.seeding = some s → s.enabled = true → m.markers = .memory names →
      m.runner = .recording failing runs → m.isFile (Path.join ext.path s.script) = true →
      (seed force ext).run m =
        if s.runOnce = true ∧ force = false ∧ ext.name ∈ names then .ok .alreadySeeded m
        else
          let ran := { m with
            runner := .recording failing (runs ++ [(ext.name, Path.join ext.path s.script)]) }
          if ext.name ∈ failing then .error (.seedExecution ext.name injectedFailure) ran
          else .ok .seeded { ran with markers := .memory (Text.sortDedup (ext.name :: names)) }) ∧
    (∀ (ext : Extension) (s : Seeding) (m : Machine) (names : List String) (force : Bool),
      ext.manifest.seeding = some s → s.enabled = true → m.markers = .memory names →
      m.isFile (Path.join ext.path s.script) = false →
      (seed force ext).run m =
        if s.runOnce = true ∧ force = false ∧ ext.name ∈ names then .ok .alreadySeeded m
        else .error (.seedExecution ext.name ("seed script not found: " ++ Path.join ext.path s.script)) m) ∧
    (∀ (ext : Extension) (m m' : Machine) (names : List String) (force : Bool),
      m.markers = .memory names →
      (∀ o, (seed force ext).run m = .ok o m' →
        m'.markers = .memory (if o = .seeded then Text.sortDedup (ext.name :: names) else names)) ∧
      (∀ e, (seed force ext).run m = .error e m' → m'.markers = m.markers)) ∧
    (∀ (ext : Extension) (m : Machine) (force : Bool),
      (∀ s, ext.manifest.seeding = some s → s.enabled = false) →
      (seed force ext).run m = .ok (if ext.manifest.seeding.isSome then .disabled else .notDeclared) m) ∧
    (∀ (ext : Extension) (s : Seeding) (m : Machine) (names : List String) (f : Bool)
        (pre mid post : List (SeedOp × Except Error (Option SeedOutcome))),
      ext.manifest.seeding = some s → s.runOnce = true → m.markers = .memory names →
      SeedHistory ext m (pre ++ (.seed f, .ok (some .seeded)) ::
        (mid ++ (.seed false, .ok (some .seeded)) :: post)) →
      ∃ op ∈ mid.map Prod.fst, op.clears ext.name = true) :=
  ⟨fun _ _ _ _ _ _ force hs hen hm hr hfile => seed_run_recording hs hen hm hr hfile force,
   fun _ _ _ _ force hs hen hm hfile => seed_run_missing hs hen hm hfile force,
   fun _ _ _ _ _ hm =>
    ⟨fun _ h => seed_ok_markers hm h, fun _ h => (seed_error_markers hm h).trans hm.symm⟩,
   fun _ _ force hs => seed_run_not_enabled hs force _,
   fun _ _ _ _ _ pre _ _ hs hrun hm hh => SeedHistory.clears_between_seeded hs hrun pre hm hh⟩

/-- A script that runs once, seeded, its marker reset, and seeded again unforced. -/
theorem seed_marker_discipline_reseeded :
    let ext : Extension := ⟨"a", "a", "/ext/a", { seeding := some ⟨true, "seed.sh", true⟩ }, .loaded⟩
    let m : Machine :=
      { files := ⟨[(["ext"], .dir), (["ext", "a"], .dir), (["ext", "a", "seed.sh"], .file [] 493)]⟩,
        cwd := [], env := [], clock := "", pid := "", host := default, markers := .memory [],
        runner := .recording [] [] }
    SeedHistory ext m ([] ++ (.seed false, .ok (some .seeded)) ::
        ([(.reset (.one "a"), .ok none)] ++ (.seed false, .ok (some .seeded)) :: [])) ∧
      ∃ op ∈ ([(.reset (.one "a"), .ok none)] : List (SeedOp × Except Error (Option SeedOutcome))).map
        Prod.fst, op.clears ext.name = true := by
  intro ext m
  have hfile : m.isFile (Path.join ext.path "seed.sh") = true := by decide +kernel
  let m₁ : Machine :=
    { m with runner := .recording [] [("a", Path.join "/ext/a" "seed.sh")],
             markers := .memory (Text.sortDedup ["a"]) }
  let m₂ : Machine :=
    { m₁ with markers := .memory ((Text.sortDedup ["a"]).filter fun x => !(ResetTarget.one "a").covers x) }
  have h₁ : Answers ((SeedOp.seed false).perform ext) m (.ok (some .seeded)) m₁ := by
    show (some <$> seed false ext).run m = _
    rw [Act.run_map, seed_run_recording (s := ⟨true, "seed.sh", true⟩) rfl rfl rfl rfl hfile false]
    simp [m₁, ext]
  have h₂ : Answers ((SeedOp.reset (.one "a")).perform ext) m₁ (.ok none) m₂ := by
    obtain ⟨cleared, hr⟩ := resetMarkers_run_memory (.one "a") (m := m₁) rfl
    show ((fun _ => none) <$> resetMarkers _).run m₁ = _
    rw [Act.run_map, hr]
  have h₃ : Answers ((SeedOp.seed false).perform ext) m₂ (.ok (some .seeded))
      { m₂ with runner := .recording [] [("a", Path.join "/ext/a" "seed.sh"),
                                          ("a", Path.join "/ext/a" "seed.sh")],
                markers := .memory ["a"] } := by
    -- the files are those of `m`, so the script is still in place
    have hfile₂ : m₂.isFile (Path.join ext.path "seed.sh") = true := hfile
    show (some <$> seed false ext).run m₂ = _
    rw [Act.run_map, seed_run_recording (s := ⟨true, "seed.sh", true⟩) rfl rfl rfl rfl hfile₂ false]
    simp [m₂, m₁, ext, ResetTarget.covers]
    decide +kernel
  have hist := SeedHistory.step h₁ rfl (.step h₂ rfl (.step h₃ rfl (.nil _)))
  exact ⟨hist,
    seed_marker_discipline.2.2.2.2 ext ⟨true, "seed.sh", true⟩ m [] false [] _ [] rfl rfl rfl hist⟩

end Provisioning
