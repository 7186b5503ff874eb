import Provisioning.Plan
import Provisioning.Manifest
/-!
Dependency graphs.

A graph holds the extensions that are present, each with the names it
depends on in declaration order. A dependency may name an extension that is
not present; only resolving through it fails. Adding a present name again
changes nothing, and declaring the same dependency twice keeps it once.
Declaring a dependency of a name that is not present makes that name
present.
-/

namespace Provisioning

/-- Present extensions, each with its direct dependencies in declaration order. -/
structure Graph where
  entries : List (String × List String) := []
  deriving DecidableEq, Repr, Inhabited

namespace Graph

/-- Whether a name is present. -/
def contains (g : Graph) (name : String) : Bool := g.entries.any (·.1 == name)

/-- The direct dependencies of a name, in declaration order; none when it is absent. -/
def depsOf (g : Graph) (name : String) : List String := (g.entries.lookup name).getD []

/-- Make a name present. -/
def addNode (g : Graph) (name : String) : Graph :=
  if g.contains name then g else ⟨g.entries ++ [(name, [])]⟩

/-- Declare that `source` depends on `target`, making `source` present. -/
def addEdge (g : Graph) (source target : String) : Graph :=
  if g.contains source then
    ⟨g.entries.map fun (n, deps) =>
      if n = source && !deps.contains target then (n, deps ++ [target]) else (n, deps)⟩
  else ⟨g.entries ++ [(source, [target])]⟩

/-- Add a name and its dependencies. -/
def addEntry (g : Graph) (name : String) (deps : List String) : Graph :=
  deps.foldl (fun g d => g.addEdge name d) (g.addNode name)

/-- The graph of named dependency lists, added in order. -/
def ofEntries (entries : List (String × List String)) : Graph :=
  entries.foldl (fun g (name, deps) => g.addEntry name deps) {}

/-- The graph of named manifests. -/
def ofManifests (manifests : List (String × Manifest)) : Graph :=
  ofEntries (manifests.map fun (name, m) => (name, m.dependencies))

/-- The present names, in code-point order. -/
def names (g : Graph) : List String := Text.sortStrings (g.entries.map Prod.fst)

/-- The number of present names. -/
def nodeCount (g : Graph) : Nat := g.entries.length

/-- The number of declared dependencies. -/
def edgeCount (g : Graph) : Nat := (g.entries.map fun e => e.2.length).foldr Nat.add 0

theorem contains_addNode (g : Graph) (name : String) : (g.addNode name).contains name = true := by
  unfold addNode
  split
  · assumption
  · simp [contains]

end Graph

end Provisioning
