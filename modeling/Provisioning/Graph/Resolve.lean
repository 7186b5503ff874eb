import Provisioning.Graph.Basic
import Provisioning.Error
/-!
Resolving requested extensions into an install plan.

Resolution is a depth-first walk. The requested names are taken in order;
each must be present. Visiting a name visits its dependencies in
declaration order and then plans the name, so that every planned name comes
after all of its dependencies; a name already planned is passed over, and
siblings keep their declaration order.

Resolution fails with the first problem the walk meets: a requested name
that is not present, a dependency that is not present (naming the
extension that declared it), or a cycle. A cycle is reported as the path
of the walk from the first visit of the name that was reached again, then
that name once more, so `a -> b -> a`.

The walk carries a fuel bound of one more than the number of names: each
step down the walk puts one more name on the current path, and a name on
the path is never entered again.
-/

namespace Provisioning

namespace Graph

/-- The state of a name during the walk. -/
inductive Mark where
  /-- On the current path. -/
  | open_
  /-- Visited, with its dependencies, and planned. -/
  | closed
  deriving DecidableEq, Repr

/-- The state of a depth-first walk: marks, current path from the root, plan so far. -/
structure Walk where
  marks : List (String × Mark) := []
  path : List String := []
  plan : Plan := {}
  deriving Repr, Inhabited

/-- The cycle closed by reaching `name` again: the path from its first visit, then `name`. -/
def cycleTo (path : List String) (name : String) : List String :=
  path.dropWhile (· ≠ name) ++ [name]

/-- Visit the dependencies of `requester` in order with `visitOne`; each must be present. -/
def visitDeps (g : Graph) (visitOne : String → Walk → Except Error Walk) (requester : String) :
    List String → Walk → Except Error Walk
  | [], w => .ok w
  | d :: ds, w =>
    if g.contains d then
      match visitOne d w with
      | .error e => .error e
      | .ok w => visitDeps g visitOne requester ds w
    else .error (.missingDependency requester d)

/-- Visit a name: its dependencies first, then the name itself is planned. -/
def visit (g : Graph) : Nat → String → Walk → Except Error Walk
  | 0, _, w => .ok w
  | fuel + 1, name, w =>
    match w.marks.lookup name with
    | some .closed => .ok w
    | some .open_ => .error (.dependencyCycle (cycleTo w.path name))
    | none =>
      let deps := g.depsOf name
      let entered : Walk := { w with marks := (name, .open_) :: w.marks, path := w.path ++ [name] }
      match g.visitDeps (visit g fuel) name deps entered with
      | .error e => .error e
      | .ok w =>
        .ok { marks := (name, .closed) :: w.marks, path := w.path.dropLast,
              plan := w.plan.push name deps }

/-- Resolve requested names into a plan, dependencies first. -/
def resolve (g : Graph) (requested : List String) : Except Error Plan :=
  let fuel := g.nodeCount + 1
  let rec go : List String → Walk → Except Error Walk
    | [], w => .ok w
    | name :: rest, w =>
      if g.contains name then
        match visit g fuel name w with
        | .error e => .error e
        | .ok w => go rest w
      else .error (.unknownExtension name)
  (go requested {}).map (·.plan)

/-- Resolve each requested name on its own, so that one failure does not hide the others. -/
def resolveEach (g : Graph) (requested : List String) : List (String × Except Error Plan) :=
  requested.map fun name => (name, g.resolve [name])

/-- Resolve every present name, in name order. -/
def resolveAll (g : Graph) : Except Error Plan := g.resolve g.names

theorem cycleTo_self (name : String) : cycleTo [name] name = [name, name] := by
  simp [cycleTo]

end Graph

end Provisioning
