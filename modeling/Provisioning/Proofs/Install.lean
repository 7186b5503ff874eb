import Provisioning.Install
import Provisioning.Proofs.Plan
/-!
Enabling a plan, answer by answer.

The installer reaches the host through three operations, each of which the
host may answer as it likes. A `HostCall` is one call with its answer, and
`HostCall.Chain m calls m'` says that the host, asked `calls` in turn from
the machine `m`, answered each as written and left `m'`. Enabling a plan is
described by one such chain (`enable_spec`): a first refresh, unless the
installer has refreshed before; one listing of the local extensions; one
`enable` for each extension that is neither blocked nor already enabled, in
plan order; and one more refresh when anything failed. The outcome of each
extension is read off the answers: blocked exactly as `blockedBy` of the
run's failures says, else already enabled exactly when the listing shows it
enabled, else enabled or failed as its `enable` call was answered.

The proof has one lemma per piece of `Installer.enable`: the first refresh,
the listing, one extension (`enableOne_run`), the loop over the plan
(`enableEach_run`, by induction on the names left) and the last refresh.
The loop decides whether an extension is blocked from the failures seen so
far, while the statement speaks of the failures of the whole run. The two
agree because the plan is in dependency order: what `blockedBy` says of an
extension depends only on whether it failed and on which extensions before
it failed (`Plan.blockedBy_lookup_congr`), and those are settled by the
time it is reached (`FitsBefore.fits_final`).
-/

namespace Provisioning

namespace Act

/-- Running `x` from `m` answers `a` and leaves `m'`. -/
def Answers {α : Type} (x : Act α) (m : Machine) (a : Except Error α) (m' : Machine) : Prop :=
  x.run m = match a with
    | .ok v => .ok v m'
    | .error e => .error e m'

/-- A handler runs from the machine the failure left. -/
theorem run_tryCatch {α : Type} (x : Act α) (h : Error → Act α) (m : Machine) :
    (tryCatch x h).run m = match x.run m with
      | .ok a m' => .ok a m'
      | .error e m' => (h e).run m' := by
  change EStateM.tryCatch x h m = _
  cases hx : x.run m with
  | ok a m' => simp only [EStateM.tryCatch, show x m = _ from hx]
  | error e m' =>
    simp only [EStateM.tryCatch, show x m = _ from hx]
    rfl

end Act

/-! ## Calls to the host -/

/-- One call of the installer to the host, with the host's answer. -/
inductive HostCall where
  | refresh (answer : Except Error Unit)
  | listLocal (answer : Except Error (List HostEntry))
  | enable (name : String) (answer : Except Error Unit)

namespace HostCall

/-- The host, asked `c` from `m`, answers as `c` says and leaves `m'`. -/
def Answered : HostCall → Machine → Machine → Prop
  | .refresh a, m, m' => Act.Answers Host.refresh m a m'
  | .listLocal a, m, m' => Act.Answers (Host.list .local) m a m'
  | .enable name a, m, m' => Act.Answers (Host.enable name) m a m'

/-- The host, asked `calls` in turn from `m`, answers each as written and leaves `m'`. -/
inductive Chain : Machine → List HostCall → Machine → Prop
  | nil (m : Machine) : Chain m [] m
  | cons {m m₁ m' : Machine} {c : HostCall} {cs : List HostCall} :
      c.Answered m m₁ → Chain m₁ cs m' → Chain m (c :: cs) m'

theorem Chain.single {m m' : Machine} {c : HostCall} (h : c.Answered m m') : Chain m [c] m' :=
  .cons h (.nil m')

theorem Chain.append {m m₁ m' : Machine} {cs cs' : List HostCall} (h₁ : Chain m cs m₁)
    (h₂ : Chain m₁ cs' m') : Chain m (cs ++ cs') m' := by
  induction h₁ with
  | nil => exact h₂
  | cons hc _ ih => exact .cons hc (ih h₂)

end HostCall

namespace EnableOutcome

/-- Whether the outcome is a failure. -/
def isFailed : EnableOutcome → Bool
  | .failed _ => true
  | _ => false

/-- The `enable` call behind an outcome, with the answer the outcome records; none for an
extension that was not tried. -/
def hostCall? (name : String) : EnableOutcome → Option HostCall
  | .enabled => some (.enable name (.ok ()))
  | .failed e => some (.enable name (.error e))
  | .alreadyEnabled | .blocked _ => none

end EnableOutcome

namespace Installer

/-! ## What enabling does -/

/-- The listing shows `name` enabled; a failed listing shows nothing. -/
def EnabledIn : Except Error (List HostEntry) → String → Prop
  | .ok rows, name => ∃ row ∈ rows, row.name = name ∧ row.status = .enabled
  | .error _, _ => False

/-- The names of the entries that failed, in order. -/
def failedIn (entries : List (String × EnableOutcome)) : List String :=
  (entries.filter (·.2.isFailed)).map Prod.fst

/-- The `enable` calls behind the entries, in order. -/
def enableCalls (entries : List (String × EnableOutcome)) : List HostCall :=
  entries.filterMap fun e => e.2.hostCall? e.1

/-- The outcome `o` of `name` fits what `blockedBy` says of it and what the host listed:
blocked exactly as `blocked` says; else already enabled exactly when listed enabled; else
tried. -/
def Fits (listed : Except Error (List HostEntry)) (blocked : Option String) (name : String)
    (o : EnableOutcome) : Prop :=
  (∀ b, o = .blocked b ↔ blocked = some b) ∧
    (blocked = none →
      (o = .alreadyEnabled ↔ EnabledIn listed name) ∧
        (¬ EnabledIn listed name → (o.hostCall? name).isSome))

/-- What enabling `plan` from `m` does, in the host's answers: it fails only when its first
refresh fails, and then it has asked nothing else; otherwise the host was asked exactly the
chain of calls below, and each entry's outcome fits the failures of the whole run. -/
def EnableSpec (i : Installer) (plan : Plan) (m : Machine) :
    EStateM.Result Error Machine (Installer × EnableReport) → Prop
  | .error e m' => i.refreshed = false ∧ Act.Answers Host.refresh m (.error e) m'
  | .ok (i', report) m' =>
    i'.refreshed = true ∧ report.entries.map Prod.fst = plan.order ∧
      ∃ listed after,
        HostCall.Chain m
          ((if i.refreshed then [] else [.refresh (.ok ())]) ++ [.listLocal listed] ++
            enableCalls report.entries ++
            (if failedIn report.entries = [] then [] else [.refresh after])) m' ∧
        ∀ n o, (n, o) ∈ report.entries →
          Fits listed ((plan.blockedBy (failedIn report.entries)).lookup n) n o

@[simp] theorem failedIn_nil : failedIn [] = [] := rfl

@[simp] theorem failedIn_append (l l' : List (String × EnableOutcome)) :
    failedIn (l ++ l') = failedIn l ++ failedIn l' := by
  simp [failedIn]

theorem mem_failedIn {l : List (String × EnableOutcome)} {x : String} :
    x ∈ failedIn l ↔ ∃ o, (x, o) ∈ l ∧ o.isFailed = true := by
  simp [failedIn]

@[simp] theorem enableCalls_append (l l' : List (String × EnableOutcome)) :
    enableCalls (l ++ l') = enableCalls l ++ enableCalls l' := by
  simp [enableCalls]

/-! ## Outcomes that fit -/

section Fits

variable {listed : Except Error (List HostEntry)} {name : String}

theorem fits_blocked (b : String) : Fits listed (some b) name (.blocked b) := by
  simp [Fits]

theorem fits_alreadyEnabled (h : EnabledIn listed name) :
    Fits listed none name .alreadyEnabled := by
  simp [Fits, h]

theorem fits_tried (h : ¬ EnabledIn listed name) {o : EnableOutcome}
    (ho : (o.hostCall? name).isSome) : Fits listed none name o := by
  refine ⟨fun b => ?_, fun _ => ⟨?_, fun _ => ho⟩⟩
  · cases o <;> simp_all [EnableOutcome.hostCall?]
  · cases o <;> simp_all [EnableOutcome.hostCall?]

/-- An outcome that is not `blocked` fits only where `blockedBy` says nothing. -/
theorem Fits.eq_none {blocked : Option String} {o : EnableOutcome}
    (h : Fits listed blocked name o) (ho : ∀ b, o ≠ .blocked b) : blocked = none := by
  cases hb : blocked with
  | none => rfl
  | some b => exact absurd ((h.1 b).mpr hb) (ho b)

end Fits

/-! ## The pieces of `enable` -/

/-- The first refresh: skipped after an earlier one, else its failure is the run's. -/
theorem refreshFirst_run (i : Installer) (m : Machine) :
    (∃ e m', i.refreshed = false ∧ Act.Answers Host.refresh m (.error e) m' ∧
        i.refreshOnce.run m = .error e m') ∨
      ∃ i' m', i'.refreshed = true ∧
        i.refreshOnce.run m = .ok i' m' ∧
        HostCall.Chain m (if i.refreshed then [] else [.refresh (.ok ())]) m' := by
  unfold refreshOnce
  cases hi : i.refreshed with
  | true => exact .inr ⟨i, m, hi, rfl, .nil m⟩
  | false =>
    rw [if_neg Bool.false_ne_true, refresh, EStateM.run_bind]
    cases h : Host.refresh.run m with
    | ok u m' => exact .inr ⟨{ refreshed := true }, m', rfl, rfl, .single h⟩
    | error e m' => exact .inl ⟨e, m', rfl, h, rfl⟩

/-- The listing is taken once; the names it gives are those it shows enabled. -/
theorem listEnabled_run (m : Machine) :
    ∃ listed enabled m', HostCall.Answered (.listLocal listed) m m' ∧
      listEnabled.run m = .ok enabled m' ∧ ∀ n, n ∈ enabled ↔ EnabledIn listed n := by
  rw [listEnabled, Act.run_tryCatch, EStateM.run_bind]
  cases h : (Host.list .local).run m with
  | ok rows m' =>
    refine ⟨.ok rows, _, m', h, rfl, fun n => ?_⟩
    simp only [List.mem_map, List.mem_filter, HostStatus.isEnabled, beq_iff_eq, EnabledIn]
    constructor
    · rintro ⟨row, ⟨hrow, hst⟩, rfl⟩
      exact ⟨row, hrow, rfl, hst⟩
    · rintro ⟨row, hrow, rfl, hst⟩
      exact ⟨row, ⟨hrow, hst⟩, rfl⟩
  | error e m' => exact ⟨.error e, [], m', h, rfl, fun n => by simp [EnabledIn]⟩

/-- The loop's history: the outcome of each entry fits the failures before it. -/
def FitsBefore (plan : Plan) (listed : Except Error (List HostEntry))
    (entries : List (String × EnableOutcome)) : Prop :=
  ∀ pre n o post, entries = pre ++ (n, o) :: post →
    Fits listed ((plan.blockedBy (failedIn pre)).lookup n) n o

section History

variable {plan : Plan} {listed : Except Error (List HostEntry)}

theorem FitsBefore.nil : FitsBefore plan listed [] := by
  intro pre n o post h
  simp at h

theorem FitsBefore.concat {entries : List (String × EnableOutcome)} {n : String}
    {o : EnableOutcome} (h : FitsBefore plan listed entries)
    (hn : Fits listed ((plan.blockedBy (failedIn entries)).lookup n) n o) :
    FitsBefore plan listed (entries ++ [(n, o)]) := by
  intro pre n' o' post hsplit
  rcases eq_append_cons_of_concat hsplit with ⟨rfl, hlast, -⟩ | ⟨post', -, hpre⟩
  · cases hlast
    exact hn
  · exact h pre n' o' post' hpre

/-- An entry is blocked only after an entry before it failed. -/
theorem FitsBefore.exists_failed_of_blocked {entries pre post : List (String × EnableOutcome)}
    {n b : String} (h : FitsBefore plan listed entries)
    (hsplit : entries = pre ++ (n, .blocked b) :: post) : ∃ x ∈ pre, x.2.isFailed = true := by
  have hlookup : (plan.blockedBy (failedIn pre)).lookup n = some b :=
    ((h pre n (.blocked b) post hsplit).1 b).mp rfl
  by_contra hnone
  have hnil : failedIn pre = [] := by
    simpa [failedIn, List.filter_eq_nil_iff] using hnone
  rw [hnil, Plan.blockedBy_nil] at hlookup
  simp at hlookup

/-- In a run that has not failed `n`, a name other than `n` and the ones after it has failed
after `n` exactly when it had failed before. -/
theorem mem_failedIn_of_split {entries pre post : List (String × EnableOutcome)} {n : String}
    {o : EnableOutcome} (hsplit : entries = pre ++ (n, o) :: post) (ho : o.isFailed = false)
    {x : String} (hx : x ∉ post.map Prod.fst) : x ∈ failedIn entries ↔ x ∈ failedIn pre := by
  have hpost : x ∉ failedIn post := fun h => by
    obtain ⟨o', hmem, -⟩ := mem_failedIn.mp h
    exact hx (List.mem_map.mpr ⟨(x, o'), hmem, rfl⟩)
  have hone : failedIn [(n, o)] = [] := by simp [failedIn, ho]
  rw [hsplit, ← List.singleton_append, failedIn_append, failedIn_append, hone]
  simp [hpost]

/-- In a plan in dependency order, outcomes that fit the failures before each entry fit the
failures of the whole run. -/
theorem FitsBefore.fits_final (hplan : plan.DepsOrdered) {entries : List (String × EnableOutcome)}
    (h : FitsBefore plan listed entries) (hnames : entries.map Prod.fst = plan.order)
    {n : String} {o : EnableOutcome} (hmem : (n, o) ∈ entries) :
    Fits listed ((plan.blockedBy (failedIn entries)).lookup n) n o := by
  obtain ⟨pre, post, hsplit⟩ := List.append_of_mem hmem
  have hfit := h pre n o post hsplit
  suffices hsame : (plan.blockedBy (failedIn pre)).lookup n =
      (plan.blockedBy (failedIn entries)).lookup n by
    rwa [← hsame]
  cases ho : o.isFailed with
  | true =>
    -- a failed entry is blocked neither way
    have hnone : (plan.blockedBy (failedIn pre)).lookup n = none :=
      hfit.eq_none fun b hb => by simp [hb, EnableOutcome.isFailed] at ho
    rw [hnone, plan.blockedBy_lookup_of_mem (mem_failedIn.mpr ⟨o, hmem, ho⟩)]
  | false =>
    have hnd : (pre.map Prod.fst ++ n :: post.map Prod.fst).Nodup := by
      have horder := hplan.1
      rw [← hnames, hsplit] at horder
      simpa using horder
    have hdisj := (List.nodup_append.mp hnd).2.2
    have hnpost : n ∉ post.map Prod.fst := (List.nodup_cons.mp (List.nodup_append.mp hnd).2.1).1
    -- split the plan's entries where the run's entries split
    have hplan_names : plan.entries.map Prod.fst = pre.map Prod.fst ++ n :: post.map Prod.fst := by
      rw [← Plan.order, ← hnames, hsplit]
      simp
    obtain ⟨pe, rest, hentries, hpe, hrest⟩ := List.map_eq_append_iff.mp hplan_names
    obtain ⟨⟨n', deps⟩, ps, rfl, hn', -⟩ := List.map_eq_cons_iff.mp hrest
    obtain rfl : n' = n := hn'
    refine Plan.blockedBy_lookup_congr hplan hentries (fun x hx => ?_) ?_
    · rw [hpe] at hx
      exact (mem_failedIn_of_split hsplit ho fun hpost => hdisj x hx x (by simp [hpost]) rfl).symm
    · exact (mem_failedIn_of_split hsplit ho hnpost).symm

end History

section Loop

variable (plan : Plan) {listed : Except Error (List HostEntry)} {enabled : List String}
  (henabled : ∀ n, n ∈ enabled ↔ EnabledIn listed n)
include henabled

/-- One extension: its outcome fits what `blockedBy` says of it, the host is asked to enable
it exactly when the outcome says so, and a failure joins the failed names. -/
theorem enableOne_run (name : String) (failed : List String) (m : Machine) :
    ∃ o m', (enableOne plan enabled name failed (plan.blockedBy failed)).run m =
        .ok (o, failed ++ failedIn [(name, o)], plan.blockedBy (failed ++ failedIn [(name, o)])) m' ∧
      HostCall.Chain m (enableCalls [(name, o)]) m' ∧
      Fits listed ((plan.blockedBy failed).lookup name) name o := by
  unfold enableOne
  split
  next b hb =>
    -- blocked: the host is not asked
    refine ⟨.blocked b, m, ?_, .nil m, hb ▸ fits_blocked b⟩
    simp [failedIn, EnableOutcome.isFailed]
  next hb =>
    rw [hb]
    split
    next he =>
      have hlisted : EnabledIn listed name := (henabled name).mp (List.contains_iff_mem.mp he)
      refine ⟨.alreadyEnabled, m, ?_, .nil m, fits_alreadyEnabled hlisted⟩
      simp [failedIn, EnableOutcome.isFailed]
    next he =>
      have hlisted : ¬ EnabledIn listed name := fun h =>
        he (List.contains_iff_mem.mpr ((henabled name).mpr h))
      rw [Act.run_tryCatch, EStateM.run_bind]
      cases h : (Host.enable name).run m with
      | ok u m' =>
        refine ⟨.enabled, m', ?_, .single h, fits_tried hlisted rfl⟩
        simp [failedIn, EnableOutcome.isFailed]
      | error e m' =>
        refine ⟨.failed e, m', ?_, .single h, fits_tried hlisted rfl⟩
        simp [failedIn, EnableOutcome.isFailed]

/-- The loop over the names left, from the entries so far: it adds one entry per name, asks
the host for those entries' `enable` calls and nothing else, and keeps the history fitting. -/
theorem enableEach_run : ∀ (names : List String) (entries : List (String × EnableOutcome))
    (m : Machine), FitsBefore plan listed entries →
    ∃ more m', (enableEach plan enabled names
          (failedIn entries, plan.blockedBy (failedIn entries), entries)).run m =
        .ok (failedIn (entries ++ more), plan.blockedBy (failedIn (entries ++ more)),
          entries ++ more) m' ∧
      more.map Prod.fst = names ∧ HostCall.Chain m (enableCalls more) m' ∧
      FitsBefore plan listed (entries ++ more)
  | [], entries, m, hfits => ⟨[], m, by simp [enableEach], rfl, .nil m, by simpa using hfits⟩
  | name :: rest, entries, m, hfits => by
    obtain ⟨o, m₁, hone, hchain₁, hfit⟩ := enableOne_run plan henabled name (failedIn entries) m
    obtain ⟨more, m', hrest, hnames, hchain, hfits'⟩ :=
      enableEach_run rest (entries ++ [(name, o)]) m₁ (hfits.concat hfit)
    refine ⟨(name, o) :: more, m', ?_, by simp [hnames], ?_, by simpa using hfits'⟩
    · rw [enableEach, EStateM.run_bind, hone, ← failedIn_append]
      simpa using hrest
    · rw [← List.singleton_append, enableCalls_append]
      exact hchain₁.append hchain

end Loop

/-- The last refresh: asked exactly when something failed, and its failure passed over. -/
theorem refreshAfter_run {i : Installer} (hi : i.refreshed = true) (failed : List String)
    (m : Machine) :
    ∃ i' after m', i'.refreshed = true ∧
      (i.refreshAfter failed).run m = .ok i' m' ∧
      HostCall.Chain m (if failed = [] then [] else [.refresh after]) m' := by
  cases failed with
  | nil => exact ⟨i, .ok (), m, hi, rfl, .nil m⟩
  | cons n ns =>
    simp only [refreshAfter, List.isEmpty_cons, Bool.false_eq_true, if_false, reduceCtorEq, Act.run_tryCatch,
      refresh, EStateM.run_bind]
    cases h : Host.refresh.run m with
    | ok u m' => exact ⟨{ refreshed := true }, .ok (), m', rfl, rfl, .single h⟩
    | error e m' => exact ⟨i, .error e, m', hi, rfl, .single h⟩

/-- A run of `enable`, piece by piece: either the first refresh fails and nothing else is
asked, or the run answers with one entry per planned name, after asking the host exactly this
chain of calls, with a history that fits. -/
theorem enable_run (i : Installer) (plan : Plan) (m : Machine) :
    (∃ e m', i.refreshed = false ∧ Act.Answers Host.refresh m (.error e) m' ∧
        (i.enable plan).run m = .error e m') ∨
      ∃ i' entries m' listed after, (i.enable plan).run m = .ok (i', { entries }) m' ∧
        i'.refreshed = true ∧ entries.map Prod.fst = plan.order ∧
        HostCall.Chain m
          ((if i.refreshed then [] else [.refresh (.ok ())]) ++ [.listLocal listed] ++
            enableCalls entries ++ (if failedIn entries = [] then [] else [.refresh after])) m' ∧
        FitsBefore plan listed entries := by
  rw [enable, EStateM.run_bind]
  rcases refreshFirst_run i m with ⟨e, m₁, hfalse, hrefresh, hrun₁⟩ | ⟨i₁, m₁, hi₁, hrun₁, hchain₁⟩
  · rw [hrun₁]
    exact .inl ⟨e, m₁, hfalse, hrefresh, rfl⟩
  · obtain ⟨listed, enabled, m₂, hlisted, hrun₂, henabled⟩ := listEnabled_run m₁
    obtain ⟨entries, m₃, hrun₃, hnames, hchain₃, hfits⟩ :=
      enableEach_run plan henabled plan.order [] m₂ .nil
    obtain ⟨i₄, after, m₄, hi₄, hrun₄, hchain₄⟩ := refreshAfter_run hi₁ (failedIn entries) m₃
    simp only [failedIn_nil, Plan.blockedBy_nil, List.nil_append] at hrun₃
    rw [hrun₁]
    simp only [EStateM.run_bind, hrun₂, hrun₃, hrun₄]
    exact .inr ⟨i₄, entries, m₄, listed, after, rfl, hi₄, hnames,
      ((hchain₁.append (.single hlisted)).append hchain₃).append hchain₄, hfits⟩

/-- Enabling a plan in dependency order, against any host: it fails only when its first
refresh fails, having asked nothing else; otherwise the host was asked exactly the calls of
`EnableSpec`, and each outcome fits the failures of the whole run. -/
theorem enable_spec (i : Installer) {plan : Plan} (hplan : plan.DepsOrdered) (m : Machine) :
    i.EnableSpec plan m ((i.enable plan).run m) := by
  rcases enable_run i plan m with ⟨e, m', hfalse, hrefresh, hrun⟩ |
    ⟨i', entries, m', listed, after, hrun, hi', hnames, hchain, hfits⟩
  · rw [hrun]
    exact ⟨hfalse, hrefresh⟩
  · rw [hrun]
    exact ⟨hi', hnames, listed, after, hchain, fun n o hmem => hfits.fits_final hplan hnames hmem⟩

theorem enable_spec_dependent_pair :
    Plan.DepsOrdered ⟨[("base", []), ("app", ["base"])]⟩ ∧
      ({} : Installer).EnableSpec ⟨[("base", []), ("app", ["base"])]⟩ default
        ((({} : Installer).enable ⟨[("base", []), ("app", ["base"])]⟩).run default) :=
  ⟨by decide, enable_spec {} (by decide) default⟩

end Installer

end Provisioning
