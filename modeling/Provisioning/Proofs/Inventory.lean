import Provisioning.Inventory
import Provisioning.Proofs.Runner
import Provisioning.Proofs.PlanOrder
import Provisioning.Proofs.MemoryHost
import Provisioning.Proofs.SortedNames
/-!
Taking the inventory.

Taking the inventory never fails, and its only effect on the machine is the one listing it asks
the host for (`Inventory.collect_spec`). Its entries are the catalog's names and the listed
names, each once, in strictly increasing order; each entry is observed as `EntryObserved` says,
from whether the catalog has the name, the last listed row of the name, and, for a linked
extension, the answer of its marker lookup on the machine the listing left. The warnings are the
listing's failure, if it failed, and then the failed marker lookups, in the order of the names.

The proof follows the three steps of the function: the listing, answered once
(`listed_run`); the table of statuses, in which the last row of a name wins
(`lookup_statuses`); and the loop over the names, one entry per name, with the machine left as
the listing left it (`forIn_entries_bind`), since a marker lookup only reads the machine
(`MarkerStore.exists_run`).
-/

namespace Provisioning

namespace Act

/-- What an action answers when run from a machine, leaving aside the machine it ends in. -/
def answer {α : Type} (x : Act α) (m : Machine) : Except Error α :=
  match x.run m with
  | .ok a _ => .ok a
  | .error e _ => .error e

/-- The result of a run that answers `a` and ends in `m`. -/
def ofAnswer {α : Type} : Except Error α → Machine → EStateM.Result Error Machine α
  | .ok a, m => .ok a m
  | .error e, m => .error e m

/-- An action that ends in the machine it started from answers from that machine. -/
theorem run_of_final {α : Type} {x : Act α} {m : Machine} (h : final (x.run m) = m) :
    x.run m = ofAnswer (x.answer m) m := by
  unfold answer
  cases hx : x.run m with
  | ok a m' =>
    rw [hx] at h
    cases h
    rfl
  | error e m' =>
    rw [hx] at h
    cases h
    rfl

/-- Every run answers what it answers and leaves the machine it leaves. -/
theorem answers_self {α : Type} (x : Act α) (m : Machine) :
    Answers x m (x.answer m) (final (x.run m)) := by
  unfold Answers answer final
  cases x.run m <;> rfl

end Act

namespace MarkerStore

/-- Looking up a marker only reads the machine. -/
theorem final_exists (name : String) (m : Machine) : Act.final ((exists_ name).run m) = m := by
  cases hstore : m.markers with
  | memory names => simp [exists_, hstore, Act.final]
  | files root fileName =>
    simp only [exists_, EStateM.run_bind, EStateM.run_get, hstore]
    cases Name.validate name <;> rfl

theorem exists_run (name : String) (m : Machine) :
    (exists_ name).run m = Act.ofAnswer ((exists_ name).answer m) m :=
  Act.run_of_final (final_exists name m)

end MarkerStore

namespace Catalog

/-- A catalog has an extension of a name exactly when it contains the name. -/
theorem isSome_get? (c : Catalog) (n : String) : (c.get? n).isSome = c.contains n := by
  rw [Bool.eq_iff_iff, get?, ← Plan.mem_keys_iff_lookup_isSome, contains, List.any_eq_true]
  simp

end Catalog

namespace Inventory

/-! ## The listing -/

/-- The warning a failed listing leaves. -/
def listWarning : Except Error (List HostEntry) → List String
  | .ok _ => []
  | .error e => ["host status unavailable: " ++ e.message]

/-- The listing is asked for once; a failure is caught, leaving no rows and a warning. -/
theorem listed_run {scope : ListScope} {m m₁ : Machine} {listed : Except Error (List HostEntry)}
    (hlist : Act.Answers (Host.list scope) m listed m₁) :
    (tryCatch (do
        let rows ← Host.list scope
        pure (rows.map (fun r => (r.name, r.status)), ([] : List String))) fun (e : Error) =>
      pure ([], ["host status unavailable: " ++ e.message]) :
        Act (List (String × HostStatus) × List String)).run m =
      .ok ((listed.toOption.getD []).map (fun r => (r.name, r.status)), listWarning listed) m₁ := by
  rw [Act.run_tryCatch, EStateM.run_bind]
  cases listed with
  | ok rows =>
    rw [show (Host.list scope).run m = .ok rows m₁ from hlist]
    rfl
  | error e =>
    rw [show (Host.list scope).run m = .error e m₁ from hlist]
    rfl

/-! ## The table of statuses -/

/-- One row of the listing entered in the table of statuses: the status of a name already there
is replaced in place, and a new name is added at the end. -/
def statusStep (acc : List (String × HostStatus)) (x : String × HostStatus) :
    List (String × HostStatus) :=
  if (acc.any fun y => y.1 == x.1) = true then
    acc.map fun y => if (y.1 == x.1) = true then (y.1, x.2) else (y.1, y.2)
  else acc ++ [(x.1, x.2)]

/-- Entering a row sets the status of its name and of no other. -/
theorem lookup_statusStep (acc : List (String × HostStatus)) (x : String × HostStatus) (k : String) :
    (statusStep acc x).lookup k = if k = x.1 then some x.2 else acc.lookup k := by
  unfold statusStep
  split
  · next hany =>
    -- the name is there: the map keeps every name and sets the value of this one
    rw [show acc.lookup k = Registry.get? acc k from rfl,
      show List.lookup k _ = Registry.get? _ k from rfl, Registry.get?_map (fun _ => by split <;> rfl)]
    by_cases hk : k = x.1
    · subst hk
      obtain ⟨v, hv⟩ := Option.isSome_iff_exists.mp
        (Plan.mem_keys_iff_lookup_isSome.mp (by simpa [List.any_eq_true] using hany))
      simp [Registry.get?, hv]
    · simp [hk]
  · next hany =>
    -- the name is new, so the old table has no entry for it
    have hnone : acc.lookup x.1 = none := by
      rw [← Option.not_isSome_iff_eq_none, ← Plan.mem_keys_iff_lookup_isSome]
      simpa [List.any_eq_true] using hany
    obtain ⟨n, v⟩ := x
    by_cases hk : k = n
    · subst hk
      simp [List.lookup_append, hnone]
    · simp [List.lookup_append, List.lookup_cons, beq_false_of_ne hk, hk]

/-- In the table of statuses, a name has the status of its last row. -/
theorem lookup_statuses (rows : List HostEntry) (k : String) :
    ((rows.map fun r => (r.name, r.status)).foldl statusStep []).lookup k =
      (rows.reverse.find? (·.name == k)).map (·.status) := by
  induction rows using List.reverseRecOn with
  | nil => rfl
  | append_singleton rows row ih =>
    rw [List.map_append, List.foldl_append, List.map_singleton, List.foldl_cons, List.foldl_nil,
      lookup_statusStep, ih]
    by_cases hk : k = row.name
    · subst hk
      simp
    · simp [hk, Ne.symm hk]

/-- The table of statuses names the listed names. -/
theorem mem_names_statuses (rows : List HostEntry) (k : String) :
    k ∈ ((rows.map fun r => (r.name, r.status)).foldl statusStep []).map (·.1) ↔
      k ∈ rows.map (·.name) := by
  rw [Plan.mem_keys_iff_lookup_isSome, lookup_statuses, Option.isSome_map, List.find?_isSome]
  simp

/-! ## The loop over the names -/

/-- A loop whose body, from every state, answers without changing the machine, adding the
warnings `warn` gives for the name and one entry of the name that satisfies `P`, ends with the
warnings of every name in turn and one such entry per name, in the order of the names. -/
theorem forIn_entries_bind {γ : Type} {names : List String} (warn : String → List String)
    (P : InventoryEntry → Prop)
    {body : String → List String × List InventoryEntry →
      Act (ForInStep (List String × List InventoryEntry))}
    {k : List String × List InventoryEntry → γ} {Q : γ → Prop} {m : Machine}
    (w : List String) (l : List InventoryEntry)
    (hbody : ∀ n ∈ names, ∀ w l, ∃ e,
      (body n (w, l)).run m = .ok (.yield (w ++ warn n, l ++ [e])) m ∧ e.name = n ∧ P e)
    (hQ : ∀ l', l'.map (·.name) = names → (∀ e ∈ l', P e) →
      Q (k (w ++ names.flatMap warn, l ++ l'))) :
    ∃ r, (forIn names (w, l) body >>= fun s => pure (k s)).run m = .ok r m ∧ Q r := by
  induction names generalizing w l with
  | nil => exact ⟨_, rfl, by simpa using hQ [] rfl (by simp)⟩
  | cons n rest ih =>
    obtain ⟨e, hstep, hname, he⟩ := hbody n List.mem_cons_self w l
    obtain ⟨r, hrun, hr⟩ := ih (w ++ warn n) (l ++ [e])
      (fun n' hn' => hbody n' (List.mem_cons_of_mem _ hn'))
      (fun l' hnames hl' => by
        simpa using hQ (e :: l') (by simp [hname, hnames]) (by simpa [he] using hl'))
    refine ⟨r, ?_, hr⟩
    rw [List.forIn_cons, bind_assoc, EStateM.run_bind, hstep]
    exact hrun

/-- A step of the loop that yields one more entry yields that entry. -/
theorem exists_yield_iff {w w' : List String} {l : List InventoryEntry} {x : InventoryEntry}
    {m : Machine} {n : String} {P : InventoryEntry → Prop} :
    (∃ e, (EStateM.Result.ok (ForInStep.yield (w, l ++ [x])) m :
        EStateM.Result Error Machine (ForInStep (List String × List InventoryEntry))) =
          .ok (.yield (w', l ++ [e])) m ∧ e.name = n ∧ P e) ↔
      w = w' ∧ x.name = n ∧ P x := by
  simp

/-! ## The inventory -/

/-- The warning a failed marker lookup of a linked extension leaves. -/
def lookupWarning (catalog : Catalog) (seen : String → Except Error Bool) (n : String) :
    List String :=
  if catalog.contains n then
    match seen n with
    | .error e => ["marker lookup failed for " ++ n ++ ": " ++ e.message]
    | .ok _ => []
  else []

/-- How an entry of the inventory is observed, from the catalog, the rows the host listed
(none when the listing failed) and what looking up a marker answers. -/
structure EntryObserved (catalog : Catalog) (rows : List HostEntry)
    (seen : String → Except Error Bool) (e : InventoryEntry) : Prop where
  /-- Linked exactly when the catalog has the name. -/
  linked : e.linked = catalog.contains e.name
  /-- The status of the last row of the name, if any. -/
  hostStatus : e.hostStatus = (rows.reverse.find? (·.name == e.name)).map (·.status)
  enabled : e.enabled = true ↔ e.hostStatus = some .enabled
  /-- A marker is looked up for a linked extension only; unknown when the lookup fails. -/
  seeded : e.seeded = if e.linked then (seen e.name).toOption else some false
  lifecycle : e.lifecycle = Lifecycle.observe e.linked e.hostStatus (e.seeded == some true)

/-- The inventory, from what the listing answered and the machine it left: it ends in that
machine. Its entries are the catalog's names and the listed names, each once and in strictly
increasing order; each is observed from the catalog, the last listed row of its name and, for a
linked extension, its marker lookup on that machine. The warnings are the listing's failure, if
it failed, and then one per failed marker lookup, in the order of the names. -/
theorem collect_of_listed (catalog : Catalog) (scope : ListScope) {m m₁ : Machine}
    {listed : Except Error (List HostEntry)} (hlist : Act.Answers (Host.list scope) m listed m₁) :
    ∃ inv, (collect catalog scope).run m = .ok inv m₁ ∧
      (inv.entries.map (·.name)).Pairwise (· < ·) ∧
      (∀ n, n ∈ inv.entries.map (·.name) ↔
        n ∈ catalog.names ∨ n ∈ (listed.toOption.getD []).map (·.name)) ∧
      (∀ e ∈ inv.entries, EntryObserved catalog (listed.toOption.getD [])
        (fun n => (MarkerStore.exists_ n).answer m₁) e) ∧
      inv.warnings = listWarning listed ++ (inv.entries.map (·.name)).flatMap
        (lookupWarning catalog fun n => (MarkerStore.exists_ n).answer m₁) := by
  unfold collect
  rw [EStateM.run_bind, listed_run hlist]
  simp only
  -- the table of statuses is built by `statusStep`
  rw [List.foldl_ext _ statusStep _ ?same]
  case same => exact fun _ _ _ => rfl
  refine forIn_entries_bind (lookupWarning catalog fun n => (MarkerStore.exists_ n).answer m₁)
    (EntryObserved catalog (listed.toOption.getD []) fun n => (MarkerStore.exists_ n).answer m₁)
    _ _ ?_ ?_
  · -- one name: its entry, and a warning when its marker lookup fails
    intro n _ w l
    by_cases hcat : catalog.contains n = true
    · rw [if_pos ((Catalog.isSome_get? catalog n).trans hcat), EStateM.run_bind, Act.run_tryCatch,
        Act.run_map, MarkerStore.exists_run]
      cases hans : (MarkerStore.exists_ n).answer m₁ <;>
        simp only [Act.ofAnswer, EStateM.run_pure, lookupWarning, hcat, hans, if_true,
          List.append_nil, exists_yield_iff, true_and] <;>
        exact ⟨Catalog.isSome_get? catalog n, lookup_statuses _ n, beq_iff_eq,
          by simp [Catalog.isSome_get?, hcat, hans, Except.toOption], rfl⟩
    · rw [if_neg (by rwa [Catalog.isSome_get?]), EStateM.run_bind]
      simp only [EStateM.run_pure, lookupWarning, hcat, Bool.false_eq_true, if_false,
        List.append_nil, exists_yield_iff, true_and]
      exact ⟨Catalog.isSome_get? catalog n, lookup_statuses _ n, beq_iff_eq,
        by simp [Catalog.isSome_get?, hcat, Except.toOption], rfl⟩
  · -- the whole loop: one entry per name, in the order of the names
    intro l hnames hl
    simp only [List.nil_append]
    rw [hnames]
    refine ⟨Text.pairwise_sortDedup _, fun n => ?_, hl, rfl⟩
    rw [Text.mem_sortDedup, List.mem_append, mem_names_statuses]

/-- Taking the inventory never fails, whatever the catalog, the host and its listing (rows with
names repeated, or a failure) and the marker store, and its only effect on the machine is the
one listing it asks the host for. Its entries are the catalog's names and the listed names,
each once and in strictly increasing order; an entry is linked exactly when the catalog has it,
has the status of the last row listed for it, is enabled exactly when that status is enabled,
has its marker looked up only when linked (unknown when the lookup fails), and takes its
lifecycle stage from these. The warnings are the listing's failure, if it failed, and then one
per failed marker lookup, in the order of the names. -/
theorem collect_spec (catalog : Catalog) (scope : ListScope) (m : Machine) :
    let listed := (Host.list scope).answer m
    let m₁ := Act.final ((Host.list scope).run m)
    ∃ inv, (collect catalog scope).run m = .ok inv m₁ ∧
      (inv.entries.map (·.name)).Pairwise (· < ·) ∧
      (∀ n, n ∈ inv.entries.map (·.name) ↔
        n ∈ catalog.names ∨ n ∈ (listed.toOption.getD []).map (·.name)) ∧
      (∀ e ∈ inv.entries, EntryObserved catalog (listed.toOption.getD [])
        (fun n => (MarkerStore.exists_ n).answer m₁) e) ∧
      inv.warnings = listWarning listed ++ (inv.entries.map (·.name)).flatMap
        (lookupWarning catalog fun n => (MarkerStore.exists_ n).answer m₁) :=
  collect_of_listed catalog scope (Act.answers_self (Host.list scope) m)

end Inventory

end Provisioning
