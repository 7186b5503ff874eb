import Provisioning.Host.Memory
import Mathlib.Tactic.SplitIfs
/-!
The registry of a host kept in memory, operation by operation.

The host keeps its registry as a list of names in strictly increasing order (`Registry.Sorted`),
the form a map from names has, and every operation keeps that order (`Op.sorted_run`), so every
host reached from a fresh one has it (`Reachable.sorted`). The registry is read by name through
`get?`:

* `set` changes the entry of its own name only, and `remove` drops it;
* a refresh changes each name's entry as `refreshEntry` says, from whether the name's code is in
  the extensions root (`get?_refreshed`); it is built from the three passes of `refreshed`, each
  read by name: a fold of updates (`get?_foldl_update`), a map that keeps the names (`get?_map`)
  and a filter, which on a sorted registry filters each name's one entry (`get?_filter`).

`Op` lists the operations of the host other than forcing a status, and `Op.Moves` the registry
transitions each may make for one name. A run of any of them (`Op.run_spec`) logs its call, fails
exactly when a failure was injected for it or the table has no move from the entry of the name
it acts on, leaves the registry and the available code as they were when it fails, and otherwise
makes the table's moves; an operation on one name leaves every other name's entry alone.
-/

namespace Provisioning

namespace Registry

/-- The registry as the host keeps it: names in strictly increasing order. -/
def Sorted (r : Registry) : Prop := (r.map Prod.fst).Pairwise (· < ·)

instance (r : Registry) : Decidable r.Sorted :=
  inferInstanceAs (Decidable ((r.map Prod.fst).Pairwise (· < ·)))

@[simp] theorem get?_nil (m : String) : get? [] m = none := rfl

theorem get?_cons (k m : String) (v : HostStatus) (r : Registry) :
    get? ((k, v) :: r) m = if m = k then some v else get? r m := by
  unfold get?
  rw [List.lookup_cons]
  by_cases h : m = k
  · simp [h]
  · simp only [beq_false_of_ne h, h, if_false]

theorem get?_eq_none {r : Registry} {m : String} (h : m ∉ r.map Prod.fst) : get? r m = none := by
  induction r with
  | nil => rfl
  | cons kv rest ih =>
    obtain ⟨k, v⟩ := kv
    have hk : m ≠ k := fun e => h (by simp [e])
    rw [get?_cons, if_neg hk]
    exact ih fun hm => h (List.mem_cons_of_mem _ hm)

theorem get?_set_of_ne {m n : String} (h : m ≠ n) (r : Registry) (s : HostStatus) :
    get? (r.set n s) m = get? r m := by
  induction r with
  | nil => simp [set, get?_cons, h]
  | cons kv rest ih =>
    obtain ⟨k, v⟩ := kv
    unfold set
    by_cases hk : n = k
    · subst hk
      simp [get?_cons, h]
    · by_cases hlt : n < k
      · simp [hk, hlt, get?_cons, h]
      · simp only [hk, hlt, if_false, get?_cons, ih]

theorem get?_remove_self (r : Registry) (n : String) : get? (r.remove n) n = none :=
  get?_eq_none (by simp [remove])

theorem get?_remove_of_ne {m n : String} (h : m ≠ n) (r : Registry) :
    get? (r.remove n) m = get? r m := by
  induction r with
  | nil => rfl
  | cons kv rest ih =>
    obtain ⟨k, v⟩ := kv
    by_cases hk : k = n
    · subst hk
      have hm : m ≠ k := h
      simp [remove, get?_cons, hm] at ih ⊢
      exact ih
    · simp only [remove, List.filter_cons, bne_iff_ne, ne_eq, hk, not_false_eq_true, if_true,
        get?_cons] at ih ⊢
      rw [ih]

/-- A name set in a registry is that name or one that was there. -/
theorem mem_keys_set {r : Registry} {n k : String} {s : HostStatus}
    (hk : k ∈ (r.set n s).map Prod.fst) : k = n ∨ k ∈ r.map Prod.fst := by
  induction r with
  | nil => simpa [set] using hk
  | cons kv rest ih =>
    obtain ⟨k', v⟩ := kv
    unfold set at hk
    split_ifs at hk with h₁ h₂
    · subst h₁
      simpa using hk
    · simp only [List.map_cons, List.mem_cons] at hk
      rcases hk with hk | hk | hk <;> simp [hk]
    · simp only [List.map_cons, List.mem_cons] at hk
      rcases hk with hk | hk
      · simp [hk]
      · rcases ih hk with h | h <;> simp [h]

theorem Sorted.set {r : Registry} (hr : r.Sorted) (n : String) (s : HostStatus) :
    (r.set n s).Sorted := by
  induction r with
  | nil => simp [Registry.set, Sorted]
  | cons kv rest ih =>
    obtain ⟨k, v⟩ := kv
    simp only [Sorted, List.map_cons, List.pairwise_cons] at hr
    obtain ⟨hk, hrest⟩ := hr
    unfold Registry.set
    split_ifs with h₁ h₂
    · subst h₁
      simpa [Sorted] using And.intro hk hrest
    · simp only [Sorted, List.map_cons, List.pairwise_cons, List.mem_cons]
      refine ⟨?_, hk, hrest⟩
      rintro a (rfl | ha)
      · exact h₂
      · exact String.lt_trans h₂ (hk a ha)
    · simp only [Sorted, List.map_cons, List.pairwise_cons]
      refine ⟨fun a ha => ?_, ih hrest⟩
      rcases mem_keys_set ha with rfl | ha
      · exact Std.lt_of_le_of_ne (String.not_lt.1 h₂) (Ne.symm h₁)
      · exact hk a ha

theorem Sorted.sublist {r r' : Registry} (hr : r.Sorted) (h : r'.Sublist r) : r'.Sorted :=
  List.Pairwise.sublist (h.map Prod.fst) hr

theorem Sorted.remove {r : Registry} (hr : r.Sorted) (n : String) : (r.remove n).Sorted :=
  hr.sublist List.filter_sublist

/-- On a sorted registry a filter keeps or drops each name's one entry. -/
theorem get?_filter {r : Registry} (hr : r.Sorted) (p : String × HostStatus → Bool) (m : String) :
    get? (r.filter p) m = (get? r m).filter fun v => p (m, v) := by
  induction r with
  | nil => rfl
  | cons kv rest ih =>
    obtain ⟨k, v⟩ := kv
    simp only [Sorted, List.map_cons, List.pairwise_cons] at hr
    obtain ⟨hk, hrest⟩ := hr
    have ih := ih hrest
    by_cases hm : m = k
    · subst hm
      -- `m` heads the registry, so the rest has no entry for it
      have hnone : get? rest m = none :=
        get?_eq_none fun hmem => String.lt_irrefl m (hk m hmem)
      rw [hnone] at ih
      by_cases hp : p (m, v) <;> simp [hp, get?_cons, ih, Option.filter_some]
    · by_cases hp : p (k, v) <;> simp [hp, get?_cons, hm, ih]

/-- A map that keeps every name changes each entry in place. -/
theorem get?_map {f : String × HostStatus → String × HostStatus} (hf : ∀ kv, (f kv).1 = kv.1)
    (r : Registry) (m : String) : get? (r.map f) m = (get? r m).map fun v => (f (m, v)).2 := by
  induction r with
  | nil => rfl
  | cons kv rest ih =>
    obtain ⟨k, v⟩ := kv
    have hkv : f (k, v) = (k, (f (k, v)).2) := Prod.ext (hf (k, v)) rfl
    rw [List.map_cons, hkv, get?_cons, get?_cons, ih]
    by_cases hm : m = k
    · subst hm
      simp
    · simp [hm]

theorem map_keys {f : String × HostStatus → String × HostStatus} (hf : ∀ kv, (f kv).1 = kv.1)
    (r : Registry) : (r.map f).map Prod.fst = r.map Prod.fst := by
  simp only [List.map_map]
  exact List.map_congr_left fun kv _ => hf kv

/-- A fold of updates, each changing the entry of its own name by `g`, changes the entry of
every name it visits by `g`, once, when `g` settles after one application. -/
theorem get?_foldl_update {f : Registry → String → Registry}
    {g : Option HostStatus → Option HostStatus}
    (hf : ∀ r n m, get? (f r n) m = if m = n then g (get? r n) else get? r m)
    (hg : ∀ e, g (g e) = g e) (names : List String) (r : Registry) (m : String) :
    get? (names.foldl f r) m = if m ∈ names then g (get? r m) else get? r m := by
  induction names generalizing r with
  | nil => simp
  | cons n rest ih =>
    rw [List.foldl_cons, ih, hf]
    by_cases hm : m = n
    · subst hm
      by_cases hrest : m ∈ rest <;> simp [hrest, hg]
    · simp [hm]

theorem Sorted.foldl {f : Registry → String → Registry} (hf : ∀ r n, r.Sorted → (f r n).Sorted)
    (names : List String) {r : Registry} (hr : r.Sorted) : (names.foldl f r).Sorted := by
  induction names generalizing r with
  | nil => exact hr
  | cons n rest ih => exact ih (hf r n hr)

end Registry

namespace MemoryHost

open Registry

/-- What a refresh makes of one name's entry, from whether the name's code is in the
extensions root. -/
def refreshEntry : Bool → Option HostStatus → Option HostStatus
  -- present code that was not registered is registered as uninstalled
  | true, none => some .uninstalled
  -- a missing extension whose code is back is disabled
  | true, some .missing => some .disabled
  -- an enabled or disabled extension whose code is gone is missing
  | false, some .enabled => some .missing
  | false, some .disabled => some .missing
  -- an uninstalled extension whose code is gone is forgotten
  | false, some .uninstalled => none
  | _, e => e

/-- The first pass of a refresh, for one name. -/
def registerEntry : Option HostStatus → Option HostStatus
  | none => some .uninstalled
  | some .missing => some .disabled
  | e => e

theorem refreshed_sorted {r : Registry} (hr : r.Sorted) (available : List String) :
    (refreshed available r).Sorted := by
  unfold refreshed
  refine Sorted.sublist ?_ List.filter_sublist
  simp only [Sorted]
  rw [map_keys (fun kv => by split <;> (try split) <;> rfl)]
  refine Sorted.foldl (fun r n hr => ?_) available hr
  split
  · exact hr.set _ _
  · exact hr
  · exact hr.set _ _

/-- Each name's entry after a refresh, read off the entry before it. -/
theorem get?_refreshed {r : Registry} (hr : r.Sorted) (available : List String) (m : String) :
    get? (refreshed available r) m = refreshEntry (available.contains m) (get? r m) := by
  unfold refreshed
  simp only
  rw [get?_filter, get?_map, get?_foldl_update (g := registerEntry)]
  · -- the three passes, by whether the name's code is present and by the name's entry
    by_cases hm : m ∈ available <;> rcases get? r m with _ | ⟨_ | _ | _ | _ | _⟩ <;>
      simp [hm, registerEntry, refreshEntry]
  · intro r n m
    by_cases hmn : m = n
    · subst hmn
      split <;> simp_all [get_set_self, registerEntry]
    · split <;> simp [hmn, get?_set_of_ne hmn]
  · intro e
    rcases e with _ | ⟨_ | _ | _ | _ | _⟩ <;> rfl
  · intro kv
    split <;> (try split) <;> rfl
  · simp only [Sorted]
    rw [map_keys (fun kv => by split <;> (try split) <;> rfl)]
    refine Sorted.foldl (fun r n hr => ?_) available hr
    split
    · exact hr.set _ _
    · exact hr
    · exact hr.set _ _

/-! ### Running an operation -/

/-- The host with entries added to its call log. -/
def logs (h : MemoryHost) (entries : List String) : MemoryHost := { h with calls := h.calls ++ entries }

@[simp] theorem logs_registry (h : MemoryHost) (entries : List String) :
    (h.logs entries).registry = h.registry := rfl

@[simp] theorem logs_available (h : MemoryHost) (entries : List String) :
    (h.logs entries).available = h.available := rfl

@[simp] theorem logs_calls (h : MemoryHost) (entries : List String) :
    (h.logs entries).calls = h.calls ++ entries := rfl

@[simp] theorem logs_status (h : MemoryHost) (entries : List String) (name : String) :
    (h.logs entries).status name = h.status name := rfl

@[simp] theorem logs_nil (h : MemoryHost) : h.logs [] = h := by
  simp [logs]

/-- An operation is logged first, then fails if a failure was injected for it. -/
theorem begin_bind_run {α : Type} (w n : String) (k : Unit → EStateM Error MemoryHost α)
    (h : MemoryHost) :
    (begin w n >>= k).run h = match h.failures.lookup (w, n) with
      | some msg => .error (.hostOperation w n msg) (h.logs [w ++ " " ++ n])
      | none => (k ()).run (h.logs [w ++ " " ++ n]) := by
  cases hf : h.failures.lookup (w, n) <;> simp [begin, logs, hf, EStateM.run_bind]

theorem modify_run (f : MemoryHost → MemoryHost) (h : MemoryHost) :
    (modify f : EStateM Error MemoryHost Unit).run h = .ok () (f h) := rfl

/-- An operation on a name that is not registered fails and changes nothing. -/
theorem registered_bind_run {α : Type} (w n : String) (k : HostStatus → EStateM Error MemoryHost α)
    (h : MemoryHost) :
    (registered w n >>= k).run h = match h.status n with
      | some s => (k s).run h
      | none => .error (.hostOperation w n ("extension '" ++ n ++ "' is not known to the host")) h := by
  cases hs : h.status n with
  | none =>
    simp [registered, hs, EStateM.run_bind]
    rfl
  | some s => simp [registered, hs, EStateM.run_bind]

/-- An operation on a host in memory, other than forcing a status. -/
inductive Op where
  | list
  | refresh
  | enable (name : String)
  | disable (name : String)
  | uninstall (name : String)
  | addAvailable (name : String)
  | removeAvailable (name : String)
  | failOn (operation name message : String)
  | failList (message : String)
  deriving DecidableEq

namespace Op

/-- The extension an operation acts on in the registry. -/
def target : Op → Option String
  | .enable n | .disable n | .uninstall n => some n
  | _ => none

/-- What an operation writes in the call log: its word and its target, `*` for a refresh. -/
def logged : Op → List String
  | .refresh => ["refresh" ++ " " ++ "*"]
  | .enable n => ["enable" ++ " " ++ n]
  | .disable n => ["disable" ++ " " ++ n]
  | .uninstall n => ["uninstall" ++ " " ++ n]
  | _ => []

/-- The failure injected for an operation, if any. -/
def injected (h : MemoryHost) : Op → Option String
  | .list => h.listFailure
  | .refresh => h.failures.lookup ("refresh", "*")
  | .enable n => h.failures.lookup ("enable", n)
  | .disable n => h.failures.lookup ("disable", n)
  | .uninstall n => h.failures.lookup ("uninstall", n)
  | _ => none

/-- The outcome of an action of the host: the error it ended in, if any, and the host after it. -/
def outcome (x : EStateM Error MemoryHost Unit) (h : MemoryHost) : Option Error × MemoryHost :=
  match x.run h with
  | .ok _ h' => (none, h')
  | .error e h' => (some e, h')

/-- Carry out an operation: the error it ended in, if any, and the host after it. -/
def run : Op → MemoryHost → Option Error × MemoryHost
  | .list, h => (match h.list with | .ok _ => none | .error e => some e, h)
  | .refresh, h => outcome MemoryHost.refresh h
  | .enable n, h => outcome (MemoryHost.enable n) h
  | .disable n, h => outcome (MemoryHost.disable n) h
  | .uninstall n, h => outcome (MemoryHost.uninstall n) h
  | .addAvailable n, h => (none, h.addAvailable n)
  | .removeAvailable n, h => (none, h.removeAvailable n)
  | .failOn w n msg, h => (none, h.failOn w n msg)
  | .failList msg, h => (none, h.failList msg)

/-- The registry transitions of the operations: how an operation that succeeded leaves one
name's entry, from the entry before it and whether the name's code is in the extensions root. -/
inductive Moves : Op → Bool → String → Option HostStatus → Option HostStatus → Prop
  /-- A refresh changes each entry as `refreshEntry` says. -/
  | refresh {p m e} : Moves .refresh p m e (refreshEntry p e)
  /-- Enabling turns an enabled, disabled, uninstalled or unknown extension into an enabled one. -/
  | enable {p n s} : s ≠ .missing → Moves (.enable n) p n (some s) (some .enabled)
  /-- Disabling turns an enabled or disabled extension into a disabled one. -/
  | disable {p n s} : s = .enabled ∨ s = .disabled →
      Moves (.disable n) p n (some s) (some .disabled)
  /-- Uninstalling an extension that is not enabled keeps it as uninstalled while its code is
  present, and forgets it otherwise. -/
  | uninstall {p n s} : s ≠ .enabled →
      Moves (.uninstall n) p n (some s) (if p then some .uninstalled else none)
  /-- Every other operation, and every other name, leaves the entry as it is. -/
  | keep {op p m e} : op ≠ .refresh → op.target ≠ some m → Moves op p m e e

/-- An operation succeeds when no failure is injected for it and the table has a move from the
entry of the name it acts on. -/
def Permitted (op : Op) (h : MemoryHost) : Prop :=
  op.injected h = none ∧
    ∀ n, op.target = some n → ∃ e, op.Moves (h.available.contains n) n (h.status n) e

/-- How a run of an operation from `h` may end: failing, when the operation is not permitted,
with its call logged and nothing else changed; or succeeding, when it is permitted, with its
call logged, the registry still sorted, and the table's move made for every name. -/
def Ends (op : Op) (h : MemoryHost) : Option Error × MemoryHost → Prop
  | (some _, h') => ¬ op.Permitted h ∧ h' = h.logs op.logged
  | (none, h') => op.Permitted h ∧ h'.calls = h.calls ++ op.logged ∧ h'.registry.Sorted ∧
      ∀ m, op.Moves (h.available.contains m) m (h.status m) (h'.status m)

namespace Moves

/-- Off the name it acts on, an operation other than a refresh keeps the entry. -/
theorem eq_of_ne {op : Op} {present : Bool} {m : String} {e e' : Option HostStatus}
    (hm : Moves op present m e e') (hr : op ≠ .refresh) (ht : op.target ≠ some m) : e' = e := by
  cases hm with
  | refresh => exact absurd rfl hr
  | enable _ => exact absurd rfl ht
  | disable _ => exact absurd rfl ht
  | uninstall _ => exact absurd rfl ht
  | keep => rfl

theorem exists_enable {present : Bool} {n : String} {e : Option HostStatus} :
    (∃ e', Moves (.enable n) present n e e') ↔ ∃ s, e = some s ∧ s ≠ .missing := by
  constructor
  · rintro ⟨e', hm⟩
    cases hm with
    | enable hs => exact ⟨_, rfl, hs⟩
    | keep _ ht => exact absurd rfl ht
  · rintro ⟨s, rfl, hs⟩
    exact ⟨_, .enable hs⟩

theorem exists_disable {present : Bool} {n : String} {e : Option HostStatus} :
    (∃ e', Moves (.disable n) present n e e') ↔ ∃ s, e = some s ∧ (s = .enabled ∨ s = .disabled) := by
  constructor
  · rintro ⟨e', hm⟩
    cases hm with
    | disable hs => exact ⟨_, rfl, hs⟩
    | keep _ ht => exact absurd rfl ht
  · rintro ⟨s, rfl, hs⟩
    exact ⟨_, .disable hs⟩

theorem exists_uninstall {present : Bool} {n : String} {e : Option HostStatus} :
    (∃ e', Moves (.uninstall n) present n e e') ↔ ∃ s, e = some s ∧ s ≠ .enabled := by
  constructor
  · rintro ⟨e', hm⟩
    cases hm with
    | uninstall hs => exact ⟨_, rfl, hs⟩
    | keep _ ht => exact absurd rfl ht
  · rintro ⟨s, rfl, hs⟩
    exact ⟨_, .uninstall hs⟩

end Moves

/-- An operation with a failure injected for it is not permitted. -/
theorem not_permitted_of_injected {op : Op} {h : MemoryHost} {msg : String}
    (hi : op.injected h = some msg) : ¬ op.Permitted h := fun hp => by
  rw [hp.1] at hi
  cases hi

/-- An operation without a target and without a failure is permitted. -/
theorem permitted_of_untargeted {op : Op} {h : MemoryHost} (hi : op.injected h = none)
    (ht : op.target = none) : op.Permitted h :=
  ⟨hi, fun n hn => by rw [ht] at hn; cases hn⟩

/-- An operation that leaves the registry alone makes the table's moves, if it is neither a
refresh nor aimed at a name. -/
theorem moves_of_registry {op : Op} {h h' : MemoryHost} (hr : op ≠ .refresh)
    (ht : op.target = none) (hreg : h'.registry = h.registry) :
    ∀ m, op.Moves (h.available.contains m) m (h.status m) (h'.status m) := fun m => by
  have : h'.status m = h.status m := by simp [MemoryHost.status, hreg]
  rw [this]
  exact .keep hr (by rw [ht]; simp)

/-- A successful operation on one name that sets that name's entry makes the table's moves: the
given one for the name, and none for every other. -/
theorem moves_of_set {op : Op} {h : MemoryHost} {n : String} {r : Registry}
    (hr : op ≠ .refresh) (ht : op.target = some n)
    (hn : op.Moves (h.available.contains n) n (h.status n) (get? r n))
    (hother : ∀ m, m ≠ n → get? r m = h.status m) :
    ∀ m, op.Moves (h.available.contains m) m (h.status m) (get? r m) := fun m => by
  by_cases hm : m = n
  · subst hm
    exact hn
  · rw [hother m hm]
    exact .keep hr (by rw [ht]; simpa using Ne.symm hm)

theorem ends_list {h : MemoryHost} (hsorted : h.registry.Sorted) : Op.list.Ends h (Op.list.run h) := by
  cases hl : h.listFailure with
  | some msg =>
    simp only [run, MemoryHost.list, hl, Ends]
    exact ⟨not_permitted_of_injected hl, by simp [logged]⟩
  | none =>
    simp only [run, MemoryHost.list, hl, Ends]
    exact ⟨permitted_of_untargeted hl rfl, by simp [logged], hsorted,
      moves_of_registry (by decide) rfl rfl⟩

theorem ends_refresh {h : MemoryHost} (hs : h.registry.Sorted) :
    Op.refresh.Ends h (Op.refresh.run h) := by
  simp only [run, outcome, MemoryHost.refresh, begin_bind_run]
  cases hf : h.failures.lookup ("refresh", "*") with
  | some msg => exact ⟨not_permitted_of_injected hf, rfl⟩
  | none =>
    refine ⟨permitted_of_untargeted hf rfl, rfl, refreshed_sorted hs _, fun m => ?_⟩
    show Moves _ _ m _ (get? (refreshed h.available h.registry) m)
    rw [get?_refreshed hs]
    exact .refresh

theorem ends_enable (n : String) {h : MemoryHost} (hsorted : h.registry.Sorted) :
    (Op.enable n).Ends h ((Op.enable n).run h) := by
  simp only [run, outcome, MemoryHost.enable, begin_bind_run]
  cases hf : h.failures.lookup ("enable", n) with
  | some msg => exact ⟨not_permitted_of_injected hf, rfl⟩
  | none =>
    have hp : (Op.enable n).Permitted h ↔ ∃ s, h.status n = some s ∧ s ≠ .missing := by
      simp [Permitted, injected, hf, target, Moves.exists_enable]
    simp only [registered_bind_run, logs_status]
    cases hs : h.status n with
    | none => exact ⟨by simp [hp, hs], rfl⟩
    | some s =>
      by_cases hms : s = .missing
      · subst hms
        exact ⟨by simp [hp, hs], rfl⟩
      · simp only
        refine ⟨hp.2 ⟨s, hs, hms⟩, by simp [logged, setStatus], hsorted.set _ _, ?_⟩
        refine moves_of_set (r := h.registry.set n .enabled) (by simp) rfl ?_ fun m hm => get?_set_of_ne hm _ _
        rw [get_set_self, hs]
        exact .enable hms

theorem ends_disable (n : String) {h : MemoryHost} (hsorted : h.registry.Sorted) :
    (Op.disable n).Ends h ((Op.disable n).run h) := by
  simp only [run, outcome, MemoryHost.disable, begin_bind_run]
  cases hf : h.failures.lookup ("disable", n) with
  | some msg => exact ⟨not_permitted_of_injected hf, rfl⟩
  | none =>
    have hp : (Op.disable n).Permitted h ↔
        ∃ s, h.status n = some s ∧ (s = .enabled ∨ s = .disabled) := by
      simp [Permitted, injected, hf, target, Moves.exists_disable]
    simp only [registered_bind_run, logs_status]
    cases hs : h.status n with
    | none => exact ⟨by simp [hp, hs], rfl⟩
    | some s =>
      have hok (hed : s = .enabled ∨ s = .disabled) :
          (Op.disable n).Ends h (none, (h.logs (Op.disable n).logged).setStatus n .disabled) := by
        refine ⟨hp.2 ⟨s, hs, hed⟩, rfl, hsorted.set _ _, ?_⟩
        refine moves_of_set (r := h.registry.set n .disabled) (by simp) rfl ?_
          fun m hm => get?_set_of_ne hm _ _
        rw [get_set_self, hs]
        exact .disable hed
      cases s with
      | enabled => exact hok (.inl rfl)
      | disabled => exact hok (.inr rfl)
      | uninstalled | missing | unknown => exact ⟨by simp [hp, hs], rfl⟩

theorem ends_uninstall (n : String) {h : MemoryHost} (hsorted : h.registry.Sorted) :
    (Op.uninstall n).Ends h ((Op.uninstall n).run h) := by
  simp only [run, outcome, MemoryHost.uninstall, begin_bind_run]
  cases hf : h.failures.lookup ("uninstall", n) with
  | some msg => exact ⟨not_permitted_of_injected hf, rfl⟩
  | none =>
    have hp : (Op.uninstall n).Permitted h ↔ ∃ s, h.status n = some s ∧ s ≠ .enabled := by
      simp [Permitted, injected, hf, target, Moves.exists_uninstall]
    simp only [registered_bind_run, logs_status]
    cases hs : h.status n with
    | none => exact ⟨by simp [hp, hs], rfl⟩
    | some s =>
      by_cases hse : s = .enabled
      · subst hse
        exact ⟨by simp [hp, hs], rfl⟩
      · simp only
        have hmove := Moves.uninstall (p := h.available.contains n) (n := n) hse
        rw [← hs] at hmove
        -- with its code present the extension stays as uninstalled, without it is forgotten
        by_cases hav : h.available.contains n = true
        · rw [if_pos hav] at hmove
          simp only [modify_run, logs_available, hav, ↓reduceIte]
          exact ⟨hp.2 ⟨s, hs, hse⟩, by simp [logged, setStatus], hsorted.set _ _,
            moves_of_set (r := h.registry.set n .uninstalled) (by simp) rfl (by rwa [get_set_self])
              fun m hm => get?_set_of_ne hm _ _⟩
        · rw [if_neg hav] at hmove
          simp only [modify_run, logs_available, hav]
          exact ⟨hp.2 ⟨s, hs, hse⟩, by simp [logged], hsorted.remove _,
            moves_of_set (r := h.registry.remove n) (by simp) rfl (by rwa [get?_remove_self])
              fun m hm => get?_remove_of_ne hm _⟩

/-- Every operation ends as `Ends` says, on a sorted registry. -/
theorem ends_run (op : Op) {h : MemoryHost} (hs : h.registry.Sorted) : op.Ends h (op.run h) := by
  cases op with
  | list => exact ends_list hs
  | refresh => exact ends_refresh hs
  | enable n => exact ends_enable n hs
  | disable n => exact ends_disable n hs
  | uninstall n => exact ends_uninstall n hs
  | addAvailable n | removeAvailable n | failOn w n msg | failList msg =>
    exact ⟨permitted_of_untargeted rfl rfl, by simp [logged, MemoryHost.addAvailable, MemoryHost.removeAvailable, MemoryHost.failOn,
      MemoryHost.failList], hs, moves_of_registry (by simp) rfl rfl⟩

/-- What a run of an operation from `h`, ending as `r`, keeps to. -/
structure Obeys (op : Op) (h : MemoryHost) (r : Option Error × MemoryHost) : Prop where
  /-- The operation's call is logged, whether it succeeds or fails. -/
  logs : r.2.calls = h.calls ++ op.logged
  /-- It succeeds exactly when it is permitted. -/
  succeeds_iff : r.1 = none ↔ op.Permitted h
  /-- A failed run leaves the registry and the available code as they were. -/
  keeps : r.1 ≠ none → r.2.registry = h.registry ∧ r.2.available = h.available
  /-- A successful run makes the table's move for every name. -/
  moves : r.1 = none → ∀ m, op.Moves (h.available.contains m) m (h.status m) (r.2.status m)
  /-- An operation on one name leaves every other name's entry as it was. -/
  frame : ∀ n m, op.target = some n → m ≠ n → r.2.status m = h.status m

theorem Ends.obeys {op : Op} {h : MemoryHost} {r : Option Error × MemoryHost} (hend : op.Ends h r) :
    op.Obeys h r := by
  obtain ⟨err, h'⟩ := r
  cases err with
  | some e =>
    obtain ⟨hnp, rfl⟩ := hend
    exact ⟨rfl, by simp [hnp], fun _ => ⟨rfl, rfl⟩, by simp, fun _ _ _ _ => rfl⟩
  | none =>
    obtain ⟨hp, hcalls, -, hmoves⟩ := hend
    refine ⟨hcalls, by simp [hp], by simp, fun _ => hmoves, fun n m ht hm => ?_⟩
    -- off its target an operation on one name keeps the entry
    exact (hmoves m).eq_of_ne (by rintro rfl; simp [target] at ht) (by rw [ht]; simpa using Ne.symm hm)

/-- A run of any operation other than forcing a status, on a registry kept as the host keeps
it, logs the operation's call whether it succeeds or fails, and succeeds exactly when the
operation is permitted. A failed run leaves the registry and the available code as they were; a
successful one makes the table's move for every name; and an operation on one name leaves every
other name's entry as it was. -/
theorem run_spec (op : Op) {h : MemoryHost} (hs : h.registry.Sorted) : op.Obeys h (op.run h) :=
  (ends_run op hs).obeys

/-- Uninstalling a disabled extension whose code is present keeps it, as uninstalled. -/
theorem run_spec_uninstall_disabled :
    let h : MemoryHost := { available := ["a"], registry := [("a", .disabled), ("b", .enabled)] }
    h.registry.Sorted ∧ (Op.uninstall "a").Obeys h ((Op.uninstall "a").run h) :=
  ⟨by decide, run_spec (.uninstall "a") (by decide)⟩

/-- Every operation keeps the registry sorted. -/
theorem sorted_run (op : Op) {h : MemoryHost} (hs : h.registry.Sorted) :
    (op.run h).2.registry.Sorted := by
  have hend := ends_run op hs
  generalize op.run h = r at hend ⊢
  obtain ⟨err, h'⟩ := r
  cases err with
  | some e =>
    obtain ⟨-, rfl⟩ := hend
    exact hs
  | none => exact hend.2.2.1

end Op

/-- The hosts a fresh host can become: by operations, and by statuses forced from outside. -/
inductive Reachable : MemoryHost → Prop
  | fresh (names : List String) : Reachable (withAvailable names)
  | run {h : MemoryHost} (op : Op) : Reachable h → Reachable (op.run h).2
  | force {h : MemoryHost} (name : String) (s : HostStatus) : Reachable h →
      Reachable (h.setStatus name s)

/-- Every host a fresh host can become keeps its registry sorted. -/
theorem Reachable.sorted {h : MemoryHost} (hr : Reachable h) : h.registry.Sorted := by
  induction hr with
  | fresh names => simp [withAvailable, Sorted]
  | run op _ ih => exact Op.sorted_run op ih
  | force name s _ ih => exact ih.set name s

end MemoryHost

end Provisioning
