import Mathlib.Data.List.Induction
import Provisioning.Catalog.Basic
/-!
The names a catalog holds.

A catalog read from disk keys each extension by its own name, and every
such name is a valid extension name: the name is validated when the
extension is identified, and inserting keeps the keys of what was there
(`discover_keyed`). The dependency graph of a catalog has exactly the
catalog's names as nodes: a dependency that no extension provides is an
edge to a name that is not there (`contains_graph`).
-/

namespace Provisioning

/-- A successful bind is a successful first step followed by a successful rest. -/
theorem except_bind_eq_ok {ε α β : Type} {x : Except ε α} {f : α → Except ε β} {b : β} :
    (x >>= f) = .ok b ↔ ∃ a, x = .ok a ∧ f a = .ok b := by
  cases x with
  | error e => simp [bind, Except.bind]
  | ok a => simp [bind, Except.bind]

theorem Name.isValid_of_validate {name : String} (h : Name.validate name = .ok ()) :
    Name.isValid name = true := by
  unfold Name.validate at h
  unfold Name.isValid
  split at h
  · cases h
  · next hnone => simp [hnone]

/-- The name a result for a whole stage carries is no extension's name. -/
theorem Name.isValid_star : Name.isValid "*" = false := by
  simp [Name.isValid, Name.problem?, Name.allowedChar]

/-- An identified extension has a valid name. -/
theorem identify_valid {m : Machine} {dir name key : String}
    (h : identify m dir = .ok (name, key)) :
    Name.isValid name = true := by
  unfold identify at h
  obtain ⟨info, -, h⟩ := except_bind_eq_ok.mp h
  extract_lets validated at h
  -- every way of choosing the name ends in validating it
  have hvalidated : ∀ n, validated n = .ok (name, key) → Name.isValid name = true := by
    intro n hn
    obtain ⟨u, hv, hpure⟩ := except_bind_eq_ok.mp hn
    cases hpure
    exact Name.isValid_of_validate hv
  split at h
  · exact hvalidated _ h
  · split at h
    · exact hvalidated _ h
    · cases h

namespace Catalog

/-- Each extension is keyed by its own name, and that name is valid. -/
def Keyed (c : Catalog) : Prop :=
  ∀ n e, (n, e) ∈ c.entries → e.name = n ∧ Name.isValid n = true

theorem keyed_empty : ({} : Catalog).Keyed := by
  intro n e h
  cases h

/-- Inserting keeps what was there and adds at most the new extension under its name. -/
theorem mem_insert {c : Catalog} {e : Extension} {x : String × Extension}
    (h : x ∈ (c.insert e).entries) : x ∈ c.entries ∨ x = (e.name, e) := by
  unfold Catalog.insert at h
  split at h
  · exact .inl h
  · have h' : x ∈ c.entries ++ [(e.name, e)] := (Text.sortByKey_perm _).mem_iff.mp h
    simpa using h'

theorem Keyed.insert {c : Catalog} (hc : c.Keyed) {e : Extension}
    (he : Name.isValid e.name = true) :
    (c.insert e).Keyed := by
  intro n e' hmem
  rcases mem_insert hmem with hold | hnew
  · exact hc n e' hold
  · obtain ⟨rfl, rfl⟩ := Prod.mk.inj hnew
    exact ⟨rfl, he⟩

theorem Keyed.scan {c c' : Catalog} (hc : c.Keyed) {m : Machine} {dir : String}
    (h : Catalog.scan m c dir = .ok c') : c'.Keyed := by
  unfold Catalog.scan at h
  split at h
  · cases h
    exact hc
  · split at h
    · cases h
    · cases h
      -- each child either adds a validly named extension or leaves the catalog
      generalize List.map _ _ = children
      induction children generalizing c with
      | nil => exact hc
      | cons child rest ih =>
        refine ih ?_
        dsimp only
        split
        · split
          · next e hofDir =>
            obtain ⟨⟨name, key⟩, hid, hpure⟩ := except_bind_eq_ok.mp hofDir
            cases hpure
            exact hc.insert (identify_valid hid)
          · exact hc
        · exact hc

/-- A catalog read from disk keys each extension by its own valid name. -/
theorem discover_keyed {m : Machine} {dir : String} {c : Catalog} (h : discover m dir = .ok c) :
    c.Keyed :=
  keyed_empty.scan h

theorem Keyed.name_of_get? {c : Catalog} (hc : c.Keyed) {n : String} {e : Extension}
    (h : c.get? n = some e) : e.name = n := by
  obtain ⟨l₁, l₂, hsplit, -⟩ := List.lookup_eq_some_iff.mp h
  exact (hc n e (by simp [hsplit])).1

theorem Keyed.valid_of_contains {c : Catalog} (hc : c.Keyed) {n : String}
    (h : c.contains n = true) : Name.isValid n = true := by
  obtain ⟨⟨k, e⟩, hmem, hk⟩ := List.any_eq_true.mp h
  obtain rfl : k = n := by simpa using hk
  exact (hc k e hmem).2

end Catalog

/-! ## The graph of a catalog -/

namespace Graph

theorem contains_iff_mem (g : Graph) (n : String) :
    g.contains n = true ↔ n ∈ g.entries.map Prod.fst := by
  simp [contains]

/-- A step that adds `x` unless it is there has the names before it and `x`. -/
theorem mem_names_of_eq {g g' : Graph} {x : String}
    (h : g'.entries.map Prod.fst =
      if g.contains x then g.entries.map Prod.fst else g.entries.map Prod.fst ++ [x]) (n : String) :
    n ∈ g'.entries.map Prod.fst ↔ n ∈ g.entries.map Prod.fst ∨ n = x := by
  rw [h]
  split
  · next hx =>
    have hmem := (contains_iff_mem g x).mp hx
    constructor
    · exact .inl
    · rintro (hn | rfl)
      · exact hn
      · exact hmem
  · simp

theorem names_addNode (g : Graph) (name : String) :
    (g.addNode name).entries.map Prod.fst =
      if g.contains name then g.entries.map Prod.fst else g.entries.map Prod.fst ++ [name] := by
  unfold addNode
  split <;> simp

theorem names_addEdge (g : Graph) (source target : String) :
    (g.addEdge source target).entries.map Prod.fst =
      if g.contains source then g.entries.map Prod.fst else g.entries.map Prod.fst ++ [source] := by
  unfold addEdge
  split
  · -- adding an edge to a present name keeps every name in place
    simp only [List.map_map]
    congr 1
    funext e
    simp only [Function.comp]
    split <;> rfl
  · simp

theorem mem_names_addEntry (g : Graph) (name : String) (deps : List String) (n : String) :
    n ∈ (g.addEntry name deps).entries.map Prod.fst ↔ n ∈ g.entries.map Prod.fst ∨ n = name := by
  unfold addEntry
  -- every edge starts at `name`, which is present from the first step
  suffices h : ∀ g' : Graph, (n ∈ g'.entries.map Prod.fst ↔ n ∈ g.entries.map Prod.fst ∨ n = name) →
      (n ∈ (deps.foldl (fun g d => g.addEdge name d) g').entries.map Prod.fst ↔
        n ∈ g.entries.map Prod.fst ∨ n = name) from
    h _ (mem_names_of_eq (names_addNode g name) n)
  induction deps with
  | nil => exact fun g' h => h
  | cons d ds ih =>
    intro g' hg'
    rw [List.foldl_cons]
    refine ih _ ?_
    rw [mem_names_of_eq (names_addEdge g' name d), hg']
    constructor
    · rintro (h | rfl)
      · exact h
      · exact .inr rfl
    · exact .inl

/-- The nodes of a graph built from entries are the entries' names. -/
theorem mem_names_ofEntries (entries : List (String × List String)) (n : String) :
    n ∈ (ofEntries entries).entries.map Prod.fst ↔ n ∈ entries.map Prod.fst := by
  unfold ofEntries
  induction entries using List.reverseRecOn with
  | nil => simp
  | append_singleton entries e ih =>
    rw [List.foldl_append, List.foldl_cons, List.foldl_nil, mem_names_addEntry, ih]
    simp

end Graph

/-- In a catalog that keys each extension by its name, as every catalog does, the nodes of the
graph are names of the catalog. -/
theorem Catalog.mem_names_of_graph {c : Catalog} (hc : ∀ n e, (n, e) ∈ c.entries → e.name = n)
    {n : String} (h : c.graph.contains n = true) : n ∈ c.names := by
  rw [Graph.contains_iff_mem, Catalog.graph, Graph.mem_names_ofEntries] at h
  obtain ⟨e, he, rfl⟩ : ∃ e ∈ c.extensions, e.name = n := by simpa using h
  obtain ⟨⟨k, e'⟩, hmem, rfl⟩ := List.mem_map.mp he
  obtain rfl := hc k e' hmem
  exact List.mem_map.mpr ⟨(e'.name, e'), hmem, rfl⟩

/-- The graph of a catalog has the catalog's names as its nodes. -/
theorem Catalog.contains_graph {c : Catalog} (hc : c.Keyed) {n : String}
    (h : c.graph.contains n = true) : c.contains n = true := by
  obtain ⟨⟨k, e⟩, hmem, rfl⟩ := List.mem_map.mp (mem_names_of_graph (fun n e h => (hc n e h).1) h)
  exact List.any_eq_true.mpr ⟨(k, e), hmem, by simp⟩

end Provisioning
