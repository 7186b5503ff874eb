import Provisioning.Text.Sort
/-!
Install plans.

A plan is the list of extensions to install in one run, in dependency
order, each kept with its direct dependencies so that later stages can
tell which entries a failure affects without the graph. A name is planned
at most once: pushing a planned name again changes nothing, and merging a
plan appends, in its order, the entries not yet planned.

`blockedBy` answers, for a set of failed names, which entries cannot go
ahead: an entry that is not itself failed is blocked by its first direct
dependency that failed or is blocked, walking the plan from the front so
that blocking passes down chains of dependencies.
-/

namespace Provisioning

/-- Extensions to install, dependencies first, each with its direct dependencies. -/
structure Plan where
  entries : List (String × List String) := []
  deriving DecidableEq, Repr, Inhabited

namespace Plan

/-- The planned names, in order. -/
def order (p : Plan) : List String := p.entries.map Prod.fst

/-- Whether a name is planned. -/
def contains (p : Plan) (name : String) : Bool := p.entries.any (·.1 == name)

/-- Plan a name after the planned ones, unless it is planned already. -/
def push (p : Plan) (name : String) (deps : List String) : Plan :=
  if p.contains name then p else ⟨p.entries ++ [(name, deps)]⟩

/-- Append the entries of `q` that are not planned yet, in `q`'s order. -/
def merge (p q : Plan) : Plan :=
  q.entries.foldl (fun acc e => acc.push e.1 e.2) p

/-- The number of planned names. -/
def length (p : Plan) : Nat := p.entries.length

/-- Whether nothing is planned. -/
def isEmpty (p : Plan) : Bool := p.entries.isEmpty

/-- The position of a name in the plan. -/
def position? (p : Plan) (name : String) : Option Nat := p.order.idxOf? name

/-- The direct dependencies of a planned name; none for a name not planned. -/
def depsOf (p : Plan) (name : String) : List String := (p.entries.lookup name).getD []

/-- For each entry that cannot go ahead because of `failed`, the failed or blocked direct
dependency it waits on, in plan order. -/
def blockedBy (p : Plan) (failed : List String) : List (String × String) :=
  p.entries.foldl (fun blocked (name, deps) =>
    if failed.contains name then blocked
    else
      match deps.find? (fun d => failed.contains d || blocked.any (·.1 == d)) with
      | some d => blocked ++ [(name, d)]
      | none => blocked) []

@[simp] theorem order_push_of_contains (p : Plan) (name : String) (deps : List String)
    (h : p.contains name = true) : (p.push name deps).order = p.order := by
  simp [push, h]

end Plan

end Provisioning
