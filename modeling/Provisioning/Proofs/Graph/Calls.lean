import Provisioning.Proofs.Graph.Resolve
/-!
The calls that resolution makes, and why their recursion is bounded.

`visit` recurses along dependencies, which may form cycles or name absent
extensions. What keeps the recursion finite is the marks: a call on a name
without a mark marks it before going down its dependencies, and no mark is
ever removed, so no name is entered twice. `visitCalls` lists the calls of
`visit` that a visit makes, itself first, in the order they are made, with
the depth each is nested at and the fuel it is given; `resolveCalls` lists
those of a whole resolution.

Every call that resolution makes is `Call.Ready`: the walk it starts from
keeps the invariant of the walk (`Walk.Inv`: the names marked open are those
on the path, which runs along dependencies with no name twice), the path goes
on along a dependency to the visited name, the depth is one more than the
length of the path, and the fuel reaches past the number of names. Since the
path holds distinct present names, the fuel never runs out and the depth is
at most one more than the number of names.

Main statements:

* `visitCalls_keep`: the calls a ready call makes are ready, and each of them
  finds the names of all the calls before it marked (`CallsKeep`);
* `visit_fuel_add`: a visit none of whose calls runs out of fuel gives the
  same answer with any more fuel;
* `resolve_recursion_bounded`: for every graph and every request, every call
  of resolution is given fuel, is nested at most one deeper than the number
  of names and starts from a walk whose open names are its path, a chain of
  distinct names along dependencies; the name of each call is marked at
  every later call, so at most as many calls as there are names find their
  name unmarked; and resolution with more fuel gives the same answer.
-/

namespace Provisioning

namespace Graph

/-- A call of `visit`: how deep it is nested, the fuel it is given, the name it visits and the
walk it starts from. -/
structure Call where
  depth : Nat
  fuel : Nat
  name : String
  walk : Walk

/-- Whether a call visits a name that carries no mark yet. -/
def Call.fresh (c : Call) : Bool := (c.walk.marks.lookup c.name).isNone

/-- The calls of a loop that visits the present names of a list in turn with `visitOne`, as
`visitDeps` and the loop of `resolve` do, stopping at the first absent name or failed visit;
`callsOne` lists the calls of one visit. -/
def callsOver (g : Graph) (callsOne : String → Walk → List Call)
    (visitOne : String → Walk → Except Error Walk) : List String → Walk → List Call
  | [], _ => []
  | d :: ds, w =>
    if g.contains d then
      callsOne d w ++
        match visitOne d w with
        | .ok w' => callsOver g callsOne visitOne ds w'
        | .error _ => []
    else []

/-- The calls that `visit fuel name w`, nested at `depth`, makes: itself first, then those of the
visits of the dependencies, one deeper. -/
def visitCalls (g : Graph) (depth : Nat) : Nat → String → Walk → List Call
  | 0, name, w => [⟨depth, 0, name, w⟩]
  | fuel + 1, name, w =>
    ⟨depth, fuel + 1, name, w⟩ ::
      match w.marks.lookup name with
      | some _ => []
      | none =>
        g.callsOver (visitCalls g (depth + 1) fuel) (g.visit fuel) (g.depsOf name)
          { w with marks := (name, .open_) :: w.marks, path := w.path ++ [name] }

/-- The calls of `visit` that resolving `requested` makes, the requested names at depth one. -/
def resolveCalls (g : Graph) (requested : List String) : List Call :=
  g.callsOver (g.visitCalls 1 (g.nodeCount + 1)) (g.visit (g.nodeCount + 1)) requested {}

/-- A name carries a mark in the walk. -/
def Walk.Marked (w : Walk) (n : String) : Prop := (w.marks.lookup n).isSome = true

/-- Every mark of `w` is still set in `w'`. -/
def Walk.MarksKept (w w' : Walk) : Prop := ∀ n, w.Marked n → w'.Marked n

variable {g : Graph} {requested : List String}

/-! ## Marks -/

theorem Walk.marked_cons {w : Walk} {k n : String} {m : Mark} {marks : List (String × Mark)}
    (hmarks : w.marks = (k, m) :: marks) : w.Marked n ↔ n = k ∨ (marks.lookup n).isSome = true := by
  by_cases h : n = k
  · subst h; simp [Walk.Marked, hmarks]
  · simp [Walk.Marked, hmarks, lookup_cons_of_ne h, h]

theorem Call.fresh_iff (c : Call) : c.fresh = true ↔ ¬ c.walk.Marked c.name := by
  unfold Call.fresh Walk.Marked
  cases c.walk.marks.lookup c.name <;> simp

theorem Walk.MarksKept.refl (w : Walk) : w.MarksKept w := fun _ h => h

theorem Walk.MarksKept.trans {w₁ w₂ w₃ : Walk} (h₁ : w₁.MarksKept w₂) (h₂ : w₂.MarksKept w₃) :
    w₁.MarksKept w₃ := fun n h => h₂ n (h₁ n h)

/-- A name is marked exactly when it is on the path or planned. -/
theorem Walk.Inv.marked_iff {w : Walk} (hinv : w.Inv g requested) (n : String) :
    w.Marked n ↔ n ∈ w.path ∨ n ∈ w.plan.order := by
  rw [← hinv.open_iff n, ← hinv.closed_iff n, Walk.Marked]
  cases w.marks.lookup n with
  | none => simp
  | some m => cases m <;> simp

/-- A walk that goes on from `w` keeps its marks and marks the names it walked. -/
theorem Walked.marked {w w' : Walk} {todo : List String} (h : g.Walked requested w todo w')
    (hinv : w.Inv g requested) {n : String} (hn : w.Marked n ∨ n ∈ todo) : w'.Marked n := by
  obtain ⟨hinv', hpath, hpost⟩ := h
  rw [hinv'.marked_iff, hpath]
  rcases hn with hn | hn
  · rcases (hinv.marked_iff n).mp hn with hn | hn
    · exact .inl hn
    · exact .inr (hpost.mem_of_mem_done hn)
  · exact .inr (hpost.mem_of_mem_todo hn)

theorem Walked.marksKept {w w' : Walk} {todo : List String} (h : g.Walked requested w todo w')
    (hinv : w.Inv g requested) : w.MarksKept w' := fun _ hn => h.marked hinv (.inl hn)

/-! ## Ready calls -/

/-- What holds at every call that resolution makes. -/
structure Call.Ready (g : Graph) (requested : List String) (c : Call) : Prop where
  inv : c.walk.Inv g requested
  /-- The path goes on along a dependency to the visited name. -/
  trail : g.Trail requested (c.walk.path ++ [c.name])
  present : g.contains c.name = true
  /-- The path holds one name for each call the call is nested in. -/
  depth_eq : c.depth = c.walk.path.length + 1
  fuel_gt : g.nodeCount < c.fuel + c.walk.path.length

namespace Call.Ready

variable {c : Call}

theorem fuel_pos (h : c.Ready g requested) : 0 < c.fuel := by
  have hlen := h.inv.path_length_le
  have hfuel := h.fuel_gt
  omega

theorem depth_le (h : c.Ready g requested) : c.depth ≤ g.nodeCount + 1 := by
  have hlen := h.inv.path_length_le
  have hdepth := h.depth_eq
  omega

/-- A requested name, visited from a walk with an empty path, is visited by a ready call. -/
theorem top {w : Walk} {name : String} (hinv : w.Inv g requested) (hpath : w.path = [])
    (hname : name ∈ requested) (hpresent : g.contains name = true) :
    (⟨1, g.nodeCount + 1, name, w⟩ : Call).Ready g requested where
  inv := hinv
  trail := by simpa [hpath] using Trail.singleton (g := g) hname
  present := hpresent
  depth_eq := by simp [hpath]
  fuel_gt := by simp [hpath]

/-- A dependency of a ready call's name, visited from a walk on the path extended by that name,
is visited by a ready call one deeper. -/
theorem dep {depth fuel : Nat} {name d : String} {w w₁ : Walk}
    (h : (⟨depth, fuel + 1, name, w⟩ : Call).Ready g requested) (hinv₁ : w₁.Inv g requested)
    (hpath₁ : w₁.path = w.path ++ [name]) (hd : g.DependsOn name d)
    (hpresent : g.contains d = true) : (⟨depth + 1, fuel, d, w₁⟩ : Call).Ready g requested where
  inv := hinv₁
  trail := hpath₁ ▸ h.trail.concat List.getLast?_concat hd
  present := hpresent
  depth_eq := by
    have hdepth : depth = w.path.length + 1 := h.depth_eq
    simp [hpath₁, hdepth]
  fuel_gt := by
    have hfuel : g.nodeCount < fuel + 1 + w.path.length := h.fuel_gt
    simp only [hpath₁, List.length_append, List.length_singleton]
    omega

end Call.Ready

/-! ## What the calls keep -/

/-- What the calls made from the walk `w` keep: each call is ready and finds every mark of `w`
still set, and each finds the names of all the calls before it marked. -/
structure CallsKeep (g : Graph) (requested : List String) (w : Walk) (calls : List Call) :
    Prop where
  ready : ∀ c ∈ calls, c.Ready g requested
  kept : ∀ c ∈ calls, w.MarksKept c.walk
  marked : calls.Pairwise fun c c' => c'.walk.Marked c.name

namespace CallsKeep

variable {w : Walk}

theorem nil : g.CallsKeep requested w [] := ⟨by simp, by simp, .nil⟩

/-- A call alone keeps what calls keep from the walk it starts from. -/
theorem single {c : Call} (h : c.Ready g requested) : g.CallsKeep requested c.walk [c] where
  ready := by simpa using h
  kept := by simpa using Walk.MarksKept.refl c.walk
  marked := List.pairwise_singleton _ c

/-- Calls from `w` followed by calls from a walk `w₁` that keeps the marks of `w` and marks the
names of the first calls. -/
theorem append {w₁ : Walk} {l₁ l₂ : List Call} (h₁ : g.CallsKeep requested w l₁)
    (h₂ : g.CallsKeep requested w₁ l₂) (hkept : w.MarksKept w₁)
    (hmarked : ∀ c ∈ l₁, w₁.Marked c.name) : g.CallsKeep requested w (l₁ ++ l₂) where
  ready c hc := (List.mem_append.mp hc).elim (h₁.ready c) (h₂.ready c)
  kept c hc := (List.mem_append.mp hc).elim (h₁.kept c) fun hc => hkept.trans (h₂.kept c hc)
  marked := List.pairwise_append.mpr
    ⟨h₁.marked, h₂.marked, fun c hc c' hc' => h₂.kept c' hc' _ (hmarked c hc)⟩

/-- Calls that keep what calls keep visit fresh names at most once each, so there are at most as
many such calls as names. -/
theorem countP_fresh_le {calls : List Call} (h : g.CallsKeep requested w calls) :
    calls.countP Call.fresh ≤ g.nodeCount := by
  have hnodup : ((calls.filter Call.fresh).map Call.name).Nodup := by
    refine List.pairwise_map.mpr ((h.marked.filter Call.fresh).imp_of_mem ?_)
    intro c c' _ hc' hmarked hname
    rw [hname] at hmarked
    exact (c'.fresh_iff.mp (List.mem_filter.mp hc').2) hmarked
  have hsub : (calls.filter Call.fresh).map Call.name ⊆ g.entries.map Prod.fst := by
    intro n hn
    obtain ⟨c, hc, rfl⟩ := List.mem_map.mp hn
    simpa [contains] using (h.ready c (List.mem_filter.mp hc).1).present
  rw [List.countP_eq_length_filter, ← List.length_map (f := Call.name)]
  simpa [nodeCount] using hnodup.length_le_of_subset hsub

end CallsKeep

/-! ## The calls of a loop -/

section Loop

variable {callsOne : String → Walk → List Call} {visitOne : String → Walk → Except Error Walk}
  {path : List String} {allowed : String → Prop}

/-- What a loop needs of each visit it makes from a walk on `path`: its calls keep what calls
keep, and when it succeeds it walks over the name and leaves each visited name marked. -/
def VisitKeeps (g : Graph) (requested : List String) (callsOne : String → Walk → List Call)
    (visitOne : String → Walk → Except Error Walk) (path : List String)
    (allowed : String → Prop) : Prop :=
  ∀ d w, w.Inv g requested → w.path = path → allowed d → g.contains d = true →
    g.CallsKeep requested w (callsOne d w) ∧
    ∀ w', visitOne d w = .ok w' → g.Walked requested w [d] w' ∧ ∀ c ∈ callsOne d w, w'.Marked c.name

/-- The calls of a loop keep what calls keep when those of each visit do. -/
theorem callsOver_keep (hone : g.VisitKeeps requested callsOne visitOne path allowed)
    (ds : List String) (w : Walk) (hds : ∀ d ∈ ds, allowed d) (hinv : w.Inv g requested)
    (hpath : w.path = path) : g.CallsKeep requested w (g.callsOver callsOne visitOne ds w) := by
  induction ds generalizing w with
  | nil => exact .nil
  | cons d ds ih =>
    rw [callsOver]
    split
    · rename_i hpresent
      obtain ⟨hkeep, hok⟩ := hone d w hinv hpath (hds d List.mem_cons_self) hpresent
      cases hv : visitOne d w with
      | error e => simpa using hkeep
      | ok w₁ =>
        obtain ⟨hwalked, hmarked⟩ := hok w₁ hv
        have hrest := ih w₁ (fun d' hd' => hds d' (List.mem_cons_of_mem _ hd')) hwalked.1
          (hwalked.2.1.trans hpath)
        exact hkeep.append hrest (hwalked.marksKept hinv) hmarked
    · exact .nil

/-- A loop over dependencies that succeeds keeps the marks of its start and leaves the name of
each of its calls marked. -/
theorem visitDeps_marked (hone : g.VisitKeeps requested callsOne visitOne path allowed)
    {requester : String} (ds : List String) (w : Walk) (hds : ∀ d ∈ ds, allowed d)
    (hinv : w.Inv g requested) (hpath : w.path = path) (w' : Walk)
    (hok : g.visitDeps visitOne requester ds w = .ok w') :
    w.MarksKept w' ∧ ∀ c ∈ g.callsOver callsOne visitOne ds w, w'.Marked c.name := by
  induction ds generalizing w with
  | nil =>
    obtain rfl : w = w' := by simpa [visitDeps] using hok
    exact ⟨.refl w, by simp [callsOver]⟩
  | cons d ds ih =>
    rw [visitDeps] at hok
    rw [callsOver]
    split at hok
    · rename_i hpresent
      obtain ⟨-, hvisit⟩ := hone d w hinv hpath (hds d List.mem_cons_self) hpresent
      cases hv : visitOne d w with
      | error e => rw [hv] at hok; cases hok
      | ok w₁ =>
        rw [hv] at hok
        obtain ⟨hwalked, hmarked⟩ := hvisit w₁ hv
        obtain ⟨hkept, hrest⟩ := ih w₁ (fun d' hd' => hds d' (List.mem_cons_of_mem _ hd'))
          hwalked.1 (hwalked.2.1.trans hpath) hok
        refine ⟨(hwalked.marksKept hinv).trans hkept, fun c hc => ?_⟩
        simp only [hpresent, if_true, List.mem_append] at hc
        rcases hc with hc | hc
        · exact hkept _ (hmarked c hc)
        · exact hrest c hc
    · cases hok

end Loop

/-! ## The calls of a visit -/

theorem visitCalls_of_marked {depth fuel : Nat} {name : String} {w : Walk} {m : Mark}
    (hmark : w.marks.lookup name = some m) :
    g.visitCalls depth (fuel + 1) name w = [⟨depth, fuel + 1, name, w⟩] := by
  simp [visitCalls, hmark]

theorem visitCalls_of_unmarked {depth fuel : Nat} {name : String} {w : Walk}
    (hmark : w.marks.lookup name = none) :
    g.visitCalls depth (fuel + 1) name w = ⟨depth, fuel + 1, name, w⟩ ::
      g.callsOver (g.visitCalls (depth + 1) fuel) (g.visit fuel) (g.depsOf name)
        { w with marks := (name, .open_) :: w.marks, path := w.path ++ [name] } := by
  simp [visitCalls, hmark]

/-- A visit of an unmarked name that succeeds ends by closing the name on top of the marks its
dependencies leave. -/
theorem visit_ok_of_unmarked {fuel : Nat} {name : String} {w w'' : Walk}
    (hmark : w.marks.lookup name = none) (hv : g.visit (fuel + 1) name w = .ok w'') :
    ∃ w', g.visitDeps (g.visit fuel) name (g.depsOf name)
        { w with marks := (name, .open_) :: w.marks, path := w.path ++ [name] } = .ok w' ∧
      w''.marks = (name, .closed) :: w'.marks := by
  rw [visit, hmark] at hv
  simp only at hv
  split at hv
  · cases hv
  · rename_i w' hok
    simp only [Except.ok.injEq] at hv
    exact ⟨w', hok, by rw [← hv]⟩

/-- The calls a ready call makes keep what calls keep; a visit that succeeds walks over the name
and leaves the name of each call marked. Induction on the fuel: the calls on dependencies are
ready one deeper, with one less fuel, from walks on the path extended by the name. -/
theorem visitCalls_keep : ∀ fuel depth name w, (⟨depth, fuel, name, w⟩ : Call).Ready g requested →
    g.CallsKeep requested w (g.visitCalls depth fuel name w) ∧
    ∀ w', g.visit fuel name w = .ok w' → g.Walked requested w [name] w' ∧
      ∀ c ∈ g.visitCalls depth fuel name w, w'.Marked c.name := by
  intro fuel
  induction fuel with
  | zero => intro depth name w h; exact absurd h.fuel_pos (Nat.lt_irrefl 0)
  | succ fuel ih =>
    intro depth name w h
    have hsettles := visit_settles (fuel + 1) name w h.inv h.trail h.present h.fuel_gt
    have hwalked : ∀ w', g.visit (fuel + 1) name w = .ok w' → g.Walked requested w [name] w' :=
      fun w' hv => by rw [hv] at hsettles; exact hsettles
    cases hmark : w.marks.lookup name with
    | some m =>
      -- a marked name is visited by the call alone
      rw [visitCalls_of_marked hmark]
      refine ⟨.single h, fun w' hv => ⟨hwalked w' hv, fun c hc => ?_⟩⟩
      obtain rfl := List.mem_singleton.mp hc
      exact (hwalked w' hv).marked h.inv (.inr List.mem_cons_self)
    | none =>
      -- entering the name marks it open; its dependencies are visited from there
      have henter : ({ w with marks := (name, .open_) :: w.marks, path := w.path ++ [name] } : Walk).Inv
          g requested := h.inv.enter hmark h.trail h.present
      have hone : g.VisitKeeps requested (g.visitCalls (depth + 1) fuel) (g.visit fuel)
          (w.path ++ [name]) (g.DependsOn name) := by
        intro d w₁ hinv₁ hpath₁ hd hpresent
        exact ih (depth + 1) d w₁ (h.dep hinv₁ hpath₁ hd hpresent)
      have hdeps := callsOver_keep hone (g.depsOf name) _ (fun d hd => hd) henter rfl
      rw [visitCalls_of_unmarked hmark]
      refine ⟨(CallsKeep.single h).append hdeps (fun n hn => (Walk.marked_cons rfl).mpr (.inr hn))
        fun c hc => ?_, fun w'' hv => ⟨hwalked w'' hv, ?_⟩⟩
      · obtain rfl := List.mem_singleton.mp hc
        exact (Walk.marked_cons rfl).mpr (.inl rfl)
      · obtain ⟨w', hok, hmarks⟩ := visit_ok_of_unmarked hmark hv
        have hmarked := (visitDeps_marked hone (g.depsOf name) _ (fun d hd => hd) henter rfl w'
          hok).2
        intro c hc
        rcases List.mem_cons.mp hc with rfl | hc
        · exact (Walk.marked_cons hmarks).mpr (.inl rfl)
        · exact (Walk.marked_cons hmarks).mpr (.inr (hmarked c hc))

/-! ## Fuel -/

/-- Two loops whose visits agree on every walk the first loop's calls start from agree. -/
theorem visitDeps_congr {callsOne : String → Walk → List Call}
    {visitOne visitOne' : String → Walk → Except Error Walk} {P : Call → Prop} {requester : String}
    (hone : ∀ d w, (∀ c ∈ callsOne d w, P c) → visitOne' d w = visitOne d w) :
    ∀ ds w, (∀ c ∈ g.callsOver callsOne visitOne ds w, P c) →
      g.visitDeps visitOne' requester ds w = g.visitDeps visitOne requester ds w := by
  intro ds
  induction ds with
  | nil => intro w _; rfl
  | cons d ds ih =>
    intro w hcalls
    rw [callsOver] at hcalls
    rw [visitDeps, visitDeps]
    split
    · rename_i hpresent
      simp only [hpresent, if_true, List.mem_append] at hcalls
      rw [hone d w fun c hc => hcalls c (.inl hc)]
      cases hv : visitOne d w with
      | error e => rfl
      | ok w₁ =>
        simp only [hv] at hcalls
        exact ih w₁ fun c hc => hcalls c (.inr hc)
    · rfl

/-- A visit none of whose calls runs out of fuel gives the same answer with more fuel. -/
theorem visit_fuel_add (k : Nat) : ∀ fuel depth name w,
    (∀ c ∈ g.visitCalls depth fuel name w, 0 < c.fuel) →
      g.visit (fuel + k) name w = g.visit fuel name w := by
  intro fuel
  induction fuel with
  | zero =>
    intro depth name w hcalls
    exact absurd (hcalls ⟨depth, 0, name, w⟩ (by simp [visitCalls])) (Nat.lt_irrefl 0)
  | succ fuel ih =>
    intro depth name w hcalls
    rw [Nat.add_right_comm, visit, visit]
    cases hmark : w.marks.lookup name with
    | some m => cases m <;> rfl
    | none =>
      rw [visitCalls_of_unmarked hmark] at hcalls
      simp only [List.mem_cons] at hcalls
      simp only
      rw [visitDeps_congr (fun d w₁ h => ih (depth + 1) d w₁ h) _ _ fun c hc => hcalls c (.inr hc)]

/-- The loop of resolution gives the same answer with more fuel when none of its calls runs out. -/
theorem go_fuel_add {fuel : Nat} (k : Nat) :
    ∀ ds w, (∀ c ∈ g.callsOver (g.visitCalls 1 fuel) (g.visit fuel) ds w, 0 < c.fuel) →
      resolve.go g (fuel + k) ds w = resolve.go g fuel ds w := by
  intro ds
  induction ds with
  | nil => intro w _; rfl
  | cons d ds ih =>
    intro w hcalls
    rw [callsOver] at hcalls
    rw [resolve.go, resolve.go]
    split
    · rename_i hpresent
      simp only [hpresent, if_true, List.mem_append] at hcalls
      rw [visit_fuel_add k fuel 1 d w fun c hc => hcalls c (.inl hc)]
      cases hv : g.visit fuel d w with
      | error e => rfl
      | ok w₁ =>
        simp only [hv] at hcalls
        exact ih w₁ fun c hc => hcalls c (.inr hc)
    · rfl

/-! ## Resolution -/

/-- The calls of resolution keep what calls keep from the empty walk. -/
theorem resolveCalls_keep (g : Graph) (requested : List String) :
    g.CallsKeep requested {} (g.resolveCalls requested) := by
  have hone : g.VisitKeeps requested (g.visitCalls 1 (g.nodeCount + 1)) (g.visit (g.nodeCount + 1))
      [] (· ∈ requested) := fun d w hinv hpath hd hpresent =>
    visitCalls_keep _ _ _ _ (.top hinv hpath hd hpresent)
  exact callsOver_keep hone requested {} (fun _ hd => hd) .empty rfl

/-- Resolution terminates with bounded recursion. Every call of `visit` it makes is given fuel
and is nested at most one deeper than the number of names; the walk the call starts from marks
open exactly the names on its path, which are distinct and go along dependencies to the name
visited. The name of each call is marked at every later call, so at most as many calls as there
are names visit an unmarked name. More fuel changes nothing. -/
theorem resolve_recursion_bounded (g : Graph) (requested : List String) :
    (∀ c ∈ g.resolveCalls requested,
      0 < c.fuel ∧ c.depth ≤ g.nodeCount + 1 ∧
      (∀ n, c.walk.marks.lookup n = some .open_ ↔ n ∈ c.walk.path) ∧
      c.walk.path.Nodup ∧ (c.walk.path ++ [c.name]).IsChain g.DependsOn) ∧
    (g.resolveCalls requested).Pairwise (fun c c' => (c'.walk.marks.lookup c.name).isSome) ∧
    (g.resolveCalls requested).countP Call.fresh ≤ g.nodeCount ∧
    ∀ k, (resolve.go g (g.nodeCount + 1 + k) requested {}).map (·.plan) = g.resolve requested := by
  have hkeep := resolveCalls_keep g requested
  refine ⟨fun c hc => ?_, hkeep.marked, hkeep.countP_fresh_le, fun k => ?_⟩
  · have hready := hkeep.ready c hc
    exact ⟨hready.fuel_pos, hready.depth_le, hready.inv.open_iff, hready.inv.path_nodup,
      hready.trail.1⟩
  · rw [go_fuel_add k requested {} fun c hc => (hkeep.ready c hc).fuel_pos]
    rfl

/-- On the cycle `x → y → x` the third call reaches `x` again, at depth three, one more than the
number of names. -/
example :
    ((⟨[("x", ["y"]), ("y", ["x"])]⟩ : Graph).resolveCalls ["x"]).map (fun c => (c.depth, c.name)) =
      [(1, "x"), (2, "y"), (3, "x")] := by
  decide

end Graph

end Provisioning
