import Provisioning.Proofs.MemoryHost
/-!
A refresh settles the registry.

A registry is settled against the code in the extensions root (`Registry.Settled`) when every
name whose code is present is registered with a status other than missing, and every entry
whose code is gone is missing or unknown. A refresh leaves every registry settled
(`refreshed_settled`) and changes nothing in a settled one (`refreshed_of_settled`), so the
settled registries are exactly those a refresh keeps (`refreshed_eq_self_iff`), and a second
refresh finds nothing to do (`refresh_idempotent`).

None of this needs the registry in order: the first pass of a refresh reads each present name
through `get?`, and the other two look at the entries one by one, so the statements hold of
every registry, those that no run of the host reaches included.
-/

namespace Provisioning

namespace Registry

/-- A filter that keeps every entry of a name keeps what `get?` finds for it. -/
theorem get?_filter_of_keeps {p : String × HostStatus → Bool} {m : String}
    (hp : ∀ v, p (m, v) = true) (r : Registry) : get? (r.filter p) m = get? r m := by
  induction r with
  | nil => rfl
  | cons kv rest ih =>
    obtain ⟨k, v⟩ := kv
    by_cases hm : m = k
    · subst hm
      simp [hp, get?_cons]
    · by_cases hk : p (k, v) <;> simp [hk, get?_cons, hm, ih]

/-- A registry settled against the names whose code is present: each of them registered, and
not as missing; each entry of a name whose code is gone missing or unknown. -/
def Settled (available : List String) (r : Registry) : Prop :=
  (∀ n ∈ available, ∃ s, get? r n = some s ∧ s ≠ .missing) ∧
    ∀ e ∈ r, e.1 ∉ available → e.2 = .missing ∨ e.2 = .unknown

end Registry

/-- A fold whose every step leaves its start as it is ends where it started. -/
theorem List.foldl_eq_self_of_forall_mem {α β : Type} {f : α → β → α} {a : α} {l : List β}
    (h : ∀ b ∈ l, f a b = a) : l.foldl f a = a := by
  induction l with
  | nil => rfl
  | cons b l ih =>
    rw [List.foldl_cons, h b (List.mem_cons_self ..)]
    exact ih fun b' hb' => h b' (List.mem_cons_of_mem _ hb')

namespace MemoryHost

open Registry

/-- After a refresh, a name whose code is present has the entry the first pass gave it. -/
theorem get?_refreshed_of_mem (available : List String) (r : Registry) {n : String}
    (hn : n ∈ available) : get? (refreshed available r) n = registerEntry (get? r n) := by
  unfold refreshed
  simp only
  rw [get?_filter_of_keeps (fun v => by simp [hn]), get?_map, get?_foldl_update (g := registerEntry)]
  · -- the second pass leaves the entry of a present name alone
    rcases get? r n with _ | ⟨_ | _ | _ | _ | _⟩ <;> simp [hn, registerEntry]
  · -- each step of the first pass changes the entry of its own name only
    intro r n m
    by_cases hmn : m = n
    · subst hmn
      split <;> simp_all [get_set_self, registerEntry]
    · split <;> simp [hmn, get?_set_of_ne hmn]
  · intro e
    rcases e with _ | ⟨_ | _ | _ | _ | _⟩ <;> rfl
  · intro kv
    split <;> (try split) <;> rfl

/-- After a refresh, an entry whose code is gone is missing or unknown. -/
theorem status_refreshed_of_not_mem (available : List String) (r : Registry)
    {e : String × HostStatus} (he : e ∈ refreshed available r) (hn : e.1 ∉ available) :
    e.2 = .missing ∨ e.2 = .unknown := by
  unfold refreshed at he
  simp only [List.mem_filter, List.mem_map] at he
  obtain ⟨⟨⟨k, s⟩, -, rfl⟩, hkeep⟩ := he
  by_cases hk : k ∈ available
  · simp [hk] at hn
  · -- the second pass made enabled and disabled entries missing; the third dropped
    -- uninstalled ones
    cases s <;> simp_all

/-- A refresh leaves every registry settled. -/
theorem refreshed_settled (available : List String) (r : Registry) :
    Settled available (refreshed available r) := by
  refine ⟨fun n hn => ?_, fun e he hn => status_refreshed_of_not_mem available r he hn⟩
  rw [get?_refreshed_of_mem available r hn]
  rcases get? r n with _ | ⟨_ | _ | _ | _ | _⟩ <;> simp [registerEntry]

/-- A refresh changes nothing in a settled registry: the first pass finds every present name
registered and not missing, the second finds no enabled or disabled entry without code, and
the third no uninstalled one. -/
theorem refreshed_of_settled {available : List String} {r : Registry} (hr : Settled available r) :
    refreshed available r = r := by
  obtain ⟨hpresent, hgone⟩ := hr
  unfold refreshed
  simp only
  rw [List.foldl_eq_self_of_forall_mem, List.map_congr_left (g := id), List.map_id,
    List.filter_eq_self]
  · -- the third pass: nothing uninstalled is left without code
    rintro ⟨n, s⟩ he
    by_cases hn : n ∈ available
    · simp [hn]
    · rcases hgone (n, s) he hn with rfl | rfl <;> simp [hn]
  · -- the second pass: nothing enabled or disabled is left without code
    rintro ⟨n, s⟩ he
    by_cases hn : n ∈ available
    · simp [hn]
    · rcases hgone (n, s) he hn with rfl | rfl <;> simp [hn]
  · -- the first pass: every present name is registered, and not as missing
    intro n hn
    obtain ⟨s, hs, hmissing⟩ := hpresent n hn
    rw [hs]
    cases s <;> simp_all

/-- The registries a refresh keeps are exactly the settled ones. -/
theorem refreshed_eq_self_iff {available : List String} {r : Registry} :
    refreshed available r = r ↔ Settled available r :=
  ⟨fun h => h ▸ refreshed_settled available r, refreshed_of_settled⟩

/-- A refresh that succeeds keeps the code present and refreshes the registry. -/
theorem refresh_run_ok {h h' : MemoryHost} (hrun : refresh.run h = .ok () h') :
    h'.available = h.available ∧ h'.registry = refreshed h.available h.registry := by
  simp only [MemoryHost.refresh, begin_bind_run] at hrun
  cases hf : h.failures.lookup ("refresh", "*") with
  | some msg => simp [hf] at hrun
  | none =>
    simp only [hf, modify_run, EStateM.Result.ok.injEq] at hrun
    rw [← hrun.2]
    exact ⟨rfl, rfl⟩

/-- Refreshing the host kept in memory is idempotent: when two refreshes in a row succeed, the
second leaves the registry as the first left it. After a successful refresh every name whose
code is present is registered, and not as missing, and every registered name whose code is
gone is missing or unknown. -/
theorem refresh_idempotent {h h₁ h₂ : MemoryHost} (first : refresh.run h = .ok () h₁)
    (second : refresh.run h₁ = .ok () h₂) :
    h₂.registry = h₁.registry ∧
      (∀ n ∈ h₁.available, ∃ s, h₁.registry.get? n = some s ∧ s ≠ .missing) ∧
      ∀ n s, (n, s) ∈ h₁.registry → n ∉ h₁.available → s = .missing ∨ s = .unknown := by
  obtain ⟨havail₁, hreg₁⟩ := refresh_run_ok first
  obtain ⟨-, hreg₂⟩ := refresh_run_ok second
  have hsettled : Settled h₁.available h₁.registry := by
    rw [hreg₁, havail₁]
    exact refreshed_settled h.available h.registry
  exact ⟨hreg₂.trans (refreshed_of_settled hsettled), hsettled.1,
    fun n s hmem hn => hsettled.2 (n, s) hmem hn⟩

/-- A registry out of step with the code: a missing extension whose code is back, an enabled
one whose code is gone, and an uninstalled one whose code is gone. Two refreshes settle it
after the first. -/
theorem refresh_idempotent_outOfStep :
    let h : MemoryHost :=
      { available := ["a", "d"], registry := [("a", .missing), ("b", .enabled), ("c", .uninstalled)] }
    let h₁ : MemoryHost :=
      { h with registry := [("a", .disabled), ("b", .missing), ("d", .uninstalled)],
               calls := ["refresh *"] }
    let h₂ : MemoryHost := { h₁ with calls := ["refresh *", "refresh *"] }
    refresh.run h = .ok () h₁ ∧ refresh.run h₁ = .ok () h₂ ∧
      (h₂.registry = h₁.registry ∧
        (∀ n ∈ h₁.available, ∃ s, h₁.registry.get? n = some s ∧ s ≠ .missing) ∧
        ∀ n s, (n, s) ∈ h₁.registry → n ∉ h₁.available → s = .missing ∨ s = .unknown) := by
  intro h h₁ h₂
  exact ⟨rfl, rfl, refresh_idempotent (h := h) rfl rfl⟩

end MemoryHost

end Provisioning
