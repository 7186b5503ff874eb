import Provisioning.Graph.Resolve
import Provisioning.Proofs.Plan
import Provisioning.Proofs.Graph.PostOrder
/-!
Resolution walks the depth-first post-order, and fails only on a real fault.

The walk of `visit` keeps an invariant, `Walk.Inv`: the names marked open
are those on the current path, which runs down dependencies from a
requested name with no name twice; the names marked closed are the
planned ones, each planned once, with its own dependencies, all present.
Visiting a name from such a walk either gives back a walk on the same path
whose plan has grown as the reference walk `PostOrder` says, or fails with
an error that names a real fault of the graph (`IsFault`): a requested
name that is not present, a dependency that is not present, or a simple
cycle. The fuel never runs out, since the path holds distinct present
names.

Main statements:

* `resolve_eq_postOrder`: a plan that resolution returns lists the
  reference post-order of the request: each reached name once, after its
  dependencies and with them;
* `resolve_ok_iff`: resolution succeeds exactly when every requested name
  is present, every dependency reached is present and nothing reached lies
  on a cycle, and every error it returns names such a fault.
-/

namespace Provisioning

namespace Graph

/-- `l` runs down dependencies from a requested name. -/
def Trail (g : Graph) (requested : List String) (l : List String) : Prop :=
  l.IsChain g.DependsOn ∧ ∀ r ∈ l.head?, r ∈ requested

/-- A simple cycle: back to its first name after at least one step along dependencies, with no
name twice before its end. -/
def IsCycle (g : Graph) (cycle : List String) : Prop :=
  2 ≤ cycle.length ∧ cycle.head? = cycle.getLast? ∧ cycle.IsChain g.DependsOn ∧
    cycle.dropLast.Nodup

/-- The error names a real fault of the part of `g` reached from `requested`. -/
def IsFault (g : Graph) (requested : List String) : Error → Prop
  | .unknownExtension name => name ∈ requested ∧ g.contains name = false
  | .missingDependency requester missing =>
    g.Reaches requested requester ∧ missing ∈ g.depsOf requester ∧ g.contains missing = false
  | .dependencyCycle cycle => g.IsCycle cycle ∧ ∀ n ∈ cycle, g.Reaches requested n
  | _ => False

/-- The invariant of the walk. -/
structure Walk.Inv (g : Graph) (requested : List String) (w : Walk) : Prop where
  /-- The names marked open are those on the path. -/
  open_iff : ∀ n, w.marks.lookup n = some .open_ ↔ n ∈ w.path
  /-- The names marked closed are the planned ones. -/
  closed_iff : ∀ n, w.marks.lookup n = some .closed ↔ n ∈ w.plan.order
  path_nodup : w.path.Nodup
  path_trail : g.Trail requested w.path
  path_present : ∀ n ∈ w.path, g.contains n = true
  plan_nodup : w.plan.order.Nodup
  /-- Each planned name is planned with its own dependencies. -/
  plan_deps : ∀ e ∈ w.plan.entries, e.2 = g.depsOf e.1
  /-- Each planned name is present, and so is each of its dependencies. -/
  plan_present : ∀ n ∈ w.plan.order, g.contains n = true ∧ ∀ d ∈ g.depsOf n, g.contains d = true

/-- The walk `w'` goes on from `w` having walked `todo`: same path, and the plan grown as the
reference walk says. -/
def Walked (g : Graph) (requested : List String) (w : Walk) (todo : List String) (w' : Walk) :
    Prop :=
  w'.Inv g requested ∧ w'.path = w.path ∧ g.PostOrder w.plan.order todo w'.plan.order

/-- A step of resolution ends in a walk meeting `post`, or in a fault of the graph. -/
def Settles (g : Graph) (requested : List String) (post : Walk → Prop) :
    Except Error Walk → Prop
  | .ok w => post w
  | .error e => g.IsFault requested e

variable {g : Graph} {requested : List String}

theorem lookup_cons_of_ne {β : Type} {k n : String} {v : β} {l : List (String × β)} (h : n ≠ k) :
    ((k, v) :: l).lookup n = l.lookup n := by
  simp [List.lookup_cons, beq_eq_false_iff_ne.mpr h]

/-! ## Trails -/

theorem Trail.reaches {l : List String} (h : g.Trail requested l) :
    ∀ n ∈ l, g.Reaches requested n := by
  refine h.1.induction _ _ (fun _ _ hdep hx => hx.dep hdep) fun hne => Reaches.of_mem ?_
  exact h.2 _ (List.head?_eq_some_head hne)

theorem Trail.singleton {r : String} (hr : r ∈ requested) : g.Trail requested [r] :=
  ⟨.singleton r, by simpa using hr⟩

theorem Trail.of_append {l₁ l₂ : List String} (h : g.Trail requested (l₁ ++ l₂)) :
    g.Trail requested l₁ := by
  refine ⟨(List.isChain_append.mp h.1).1, fun r hr => h.2 r ?_⟩
  simp [List.head?_append, Option.mem_def.mp hr]

/-- A trail goes on down a dependency of its last name. -/
theorem Trail.concat {l : List String} {last d : String} (h : g.Trail requested l)
    (hlast : l.getLast? = some last) (hd : g.DependsOn last d) : g.Trail requested (l ++ [d]) := by
  have hne : l ≠ [] := by rintro rfl; simp at hlast
  refine ⟨List.isChain_append.mpr ⟨h.1, .singleton d, ?_⟩, fun r hr => h.2 r ?_⟩
  · simp_all
  · simpa [List.head?_append, List.head?_eq_some_head hne] using hr

/-! ## Faults -/

/-- A simple cycle takes its first name back to itself. -/
theorem IsCycle.transGen {cycle : List String} (h : g.IsCycle cycle) :
    ∃ n ∈ cycle, Relation.TransGen g.DependsOn n n := by
  obtain ⟨hlen, hends, hchain, -⟩ := h
  rcases cycle with _ | ⟨a, _ | ⟨b, rest⟩⟩
  · simp at hlen
  · simp at hlen
  · obtain ⟨hab, hchain⟩ := List.isChain_cons_cons.mp hchain
    -- the chain from `b` ends where the cycle started
    have hlast : (b :: rest).getLast (List.cons_ne_nil _ _) = a := by
      have := (List.getLast?_eq_some_getLast (List.cons_ne_nil a (b :: rest))).symm.trans hends.symm
      simpa using this
    exact ⟨a, List.mem_cons_self,
      .head' hab (List.relationReflTransGen_of_exists_isChain_cons rest hchain hlast)⟩

/-- Reaching a name that is on the path closes a simple cycle of reached names. -/
theorem isFault_cycleTo {w : Walk} {name : String} (hinv : w.Inv g requested)
    (htrail : g.Trail requested (w.path ++ [name])) (hname : name ∈ w.path) :
    g.IsFault requested (.dependencyCycle (cycleTo w.path name)) := by
  obtain ⟨pre, post, hsplit⟩ := List.append_of_mem hname
  have hnd := hinv.path_nodup
  rw [hsplit] at hnd
  have hpre : name ∉ pre := fun h => (List.nodup_append.mp hnd).2.2 name h name (by simp) rfl
  -- the cycle is the part of the path from `name` on, then `name` again
  have hcycle : cycleTo w.path name = (name :: post) ++ [name] := by
    rw [cycleTo, hsplit, List.dropWhile_append_of_pos]
    · simp
    · intro a ha
      simp only [ne_eq, decide_eq_true_eq]
      rintro rfl
      exact hpre ha
  have hsuffix : (name :: post) ++ [name] <:+ w.path ++ [name] := by
    rw [hsplit]
    exact ⟨pre, by simp⟩
  have hnodup : (name :: post).Nodup := hnd.sublist (List.sublist_append_right pre _)
  refine hcycle ▸ ⟨⟨by simp, ?_, htrail.1.suffix hsuffix, ?_⟩, fun n hn => ?_⟩
  · rw [List.getLast?_concat]
    rfl
  · simpa only [List.dropLast_concat] using hnodup
  · exact htrail.reaches n (hsuffix.subset hn)

theorem Settles.mono {post post' : Walk → Prop} {r : Except Error Walk}
    (h : g.Settles requested post r) (himp : ∀ w, post w → post' w) :
    g.Settles requested post' r := by
  cases r with
  | error e => exact h
  | ok w => exact himp w h

/-! ## The invariant of the walk -/

theorem Walk.Inv.empty : ({} : Walk).Inv g requested where
  open_iff n := by simp
  closed_iff n := by simp
  path_nodup := .nil
  path_trail := ⟨.nil, by simp⟩
  path_present n := by simp
  plan_nodup := .nil
  plan_deps e := by simp
  plan_present n := by simp

namespace Walk.Inv

variable {w : Walk}

theorem not_mem_plan {n : String} (hinv : w.Inv g requested) (hn : n ∈ w.path) :
    n ∉ w.plan.order := by
  intro hp
  have := ((hinv.open_iff n).mpr hn).symm.trans ((hinv.closed_iff n).mpr hp)
  cases this

/-- The path holds distinct present names, so it is no longer than the graph. -/
theorem path_length_le (hinv : w.Inv g requested) : w.path.length ≤ g.nodeCount := by
  have hsub : w.path ⊆ g.entries.map Prod.fst := fun n hn => by
    simpa [contains] using hinv.path_present n hn
  simpa [nodeCount] using hinv.path_nodup.length_le_of_subset hsub

/-- Planned names are planned with their own dependencies. -/
theorem depsOf_plan (hinv : w.Inv g requested) {n : String} (hn : n ∈ w.plan.order) :
    w.plan.depsOf n = g.depsOf n :=
  Plan.depsOf_of_forall hinv.plan_deps hn

/-- Entering a name that is not marked puts it on the path, open. -/
theorem enter (hinv : w.Inv g requested) {name : String} (hmark : w.marks.lookup name = none)
    (htrail : g.Trail requested (w.path ++ [name])) (hname : g.contains name = true) :
    ({ w with marks := (name, .open_) :: w.marks, path := w.path ++ [name] } : Walk).Inv g requested where
  open_iff n := by
    by_cases h : n = name
    · subst h; simp
    · simp [lookup_cons_of_ne h, hinv.open_iff n, h]
  closed_iff n := by
    by_cases h : n = name
    · subst h
      simp only [List.lookup_cons_self, Option.some.injEq, reduceCtorEq, false_iff]
      intro hp
      rw [(hinv.closed_iff n).mpr hp] at hmark
      cases hmark
    · simp [lookup_cons_of_ne h, hinv.closed_iff n]
  path_nodup := by
    refine List.nodup_append.mpr ⟨hinv.path_nodup, by simp, ?_⟩
    intro a ha b hb hab
    obtain rfl : b = name := List.mem_singleton.mp hb
    subst hab
    have := (hinv.open_iff a).mpr ha
    rw [hmark] at this
    cases this
  path_trail := htrail
  path_present n hn := by
    rcases List.mem_append.mp hn with hn | hn
    · exact hinv.path_present n hn
    · simp_all
  plan_nodup := hinv.plan_nodup
  plan_deps := hinv.plan_deps
  plan_present := hinv.plan_present

/-- Leaving the last name of the path, once its dependencies are planned, closes and plans it. -/
theorem leave (hinv : w.Inv g requested) {pre : List String} {name : String}
    (hpath : w.path = pre ++ [name]) (hdeps : ∀ d ∈ g.depsOf name, d ∈ w.plan.order) :
    ({ marks := (name, .closed) :: w.marks, path := w.path.dropLast,
       plan := w.plan.push name (g.depsOf name) } : Walk).Inv g requested := by
  have hnd := hinv.path_nodup
  rw [hpath] at hnd
  have hname_pre : name ∉ pre := fun h => (List.nodup_append.mp hnd).2.2 name h name (by simp) rfl
  have hname_plan : name ∉ w.plan.order := hinv.not_mem_plan (by simp [hpath])
  have horder := Plan.order_push_of_not_mem hname_plan (g.depsOf name)
  have hpresent : g.contains name = true := hinv.path_present name (by simp [hpath])
  refine
    { open_iff := fun n => ?_, closed_iff := fun n => ?_, path_nodup := ?_, path_trail := ?_,
      path_present := fun n hn => ?_, plan_nodup := ?_, plan_deps := ?_,
      plan_present := fun n hn => ?_ }
  · by_cases h : n = name
    · subst h; simp [hpath, hname_pre]
    · simp [lookup_cons_of_ne h, hinv.open_iff n, hpath, h]
  · by_cases h : n = name
    · subst h; simp [horder]
    · simp [lookup_cons_of_ne h, hinv.closed_iff n, horder, h]
  · simpa [hpath] using (List.nodup_append.mp hnd).1
  · have htrail := hinv.path_trail
    rw [hpath] at htrail
    simpa [hpath] using htrail.of_append
  · exact hinv.path_present n (by simp_all)
  · rw [horder]
    exact List.nodup_append.mpr
      ⟨hinv.plan_nodup, by simp, fun a ha b hb hab => hname_plan (by simp_all)⟩
  · intro e he
    rw [Plan.push_of_not_mem hname_plan] at he
    rcases List.mem_append.mp he with he | he
    · exact hinv.plan_deps e he
    · simp_all
  · rw [horder] at hn
    rcases List.mem_append.mp hn with hn | hn
    · exact hinv.plan_present n hn
    · obtain rfl : n = name := by simpa using hn
      exact ⟨hpresent, fun d hd => (hinv.plan_present d (hdeps d hd)).1⟩

end Walk.Inv

theorem Walked.trans {w w₁ w₂ : Walk} {d : String} {ds : List String}
    (h₁ : g.Walked requested w [d] w₁) (h₂ : g.Walked requested w₁ ds w₂) :
    g.Walked requested w (d :: ds) w₂ :=
  ⟨h₂.1, h₂.2.1.trans h₁.2.1, h₁.2.2.singleton_cons h₂.2.2⟩

/-! ## Visiting -/

/-- Visiting the dependencies of `requester`, the name at the end of the path, settles as the
reference walk over them, provided each single visit does. -/
theorem visitDeps_settles {visitOne : String → Walk → Except Error Walk} {requester : String}
    {path : List String} (hlast : path.getLast? = some requester)
    (hone : ∀ d w, w.Inv g requested → w.path = path → g.DependsOn requester d →
      g.contains d = true → g.Settles requested (g.Walked requested w [d]) (visitOne d w))
    (ds : List String) (w : Walk) (hds : ∀ d ∈ ds, g.DependsOn requester d)
    (hinv : w.Inv g requested) (hpath : w.path = path) :
    g.Settles requested (g.Walked requested w ds) (g.visitDeps visitOne requester ds w) := by
  induction ds generalizing w with
  | nil => exact ⟨hinv, rfl, .nil _⟩
  | cons d ds ih =>
    have hd := hds d List.mem_cons_self
    rw [visitDeps]
    split
    · rename_i hpresent
      have hfirst := hone d w hinv hpath hd hpresent
      cases hv : visitOne d w with
      | error e => rw [hv] at hfirst; exact hfirst
      | ok w₁ =>
        rw [hv] at hfirst
        exact (ih w₁ (fun d' hd' => hds d' (List.mem_cons_of_mem _ hd')) hfirst.1
          (hfirst.2.1.trans hpath)).mono fun w₂ hrest => hfirst.trans hrest
    · rename_i hmissing
      have hreq : requester ∈ w.path := by
        rw [hpath]
        exact List.mem_of_getLast? hlast
      exact ⟨hinv.path_trail.reaches requester hreq, hd, by simpa using hmissing⟩

/-- Visiting a present name at the end of a trail settles as the reference walk over it, as long
as the fuel and the path together exceed the number of names. -/
theorem visit_settles (fuel : Nat) (name : String) (w : Walk) (hinv : w.Inv g requested)
    (htrail : g.Trail requested (w.path ++ [name])) (hname : g.contains name = true)
    (hfuel : g.nodeCount < fuel + w.path.length) :
    g.Settles requested (g.Walked requested w [name]) (g.visit fuel name w) := by
  induction fuel generalizing name w with
  | zero =>
    -- the path cannot be longer than the graph
    have := hinv.path_length_le
    omega
  | succ fuel ih =>
    rw [visit]
    cases hmark : w.marks.lookup name with
    | some mark =>
      cases mark with
      | closed => exact ⟨hinv, rfl, .skip ((hinv.closed_iff name).mp hmark) (.nil _)⟩
      | open_ => exact isFault_cycleTo hinv htrail ((hinv.open_iff name).mp hmark)
    | none =>
      have hplan : name ∉ w.plan.order := fun h => by
        rw [(hinv.closed_iff name).mpr h] at hmark
        cases hmark
      have hdeps := visitDeps_settles (List.getLast?_concat (l := w.path) (a := name))
        (fun d w' hinv' hpath' hd hpresent => ih d w' hinv'
          (hpath' ▸ htrail.concat (List.getLast?_concat) hd) hpresent
          (by rw [hpath', List.length_append, List.length_singleton]; omega))
        (g.depsOf name) _ (fun d hd => hd) (hinv.enter hmark htrail hname) rfl
      simp only
      cases hv : g.visitDeps (g.visit fuel) name (g.depsOf name)
          { w with marks := (name, .open_) :: w.marks, path := w.path ++ [name] } with
      | error e => rw [hv] at hdeps; exact hdeps
      | ok w₁ =>
        rw [hv] at hdeps
        obtain ⟨hinv₁, hpath₁, hpost₁⟩ := hdeps
        have hmem : ∀ d ∈ g.depsOf name, d ∈ w₁.plan.order := fun d hd => hpost₁.mem_of_mem_todo hd
        refine ⟨hinv₁.leave hpath₁ hmem, by simp [hpath₁], ?_⟩
        rw [Plan.order_push_of_not_mem (hinv₁.not_mem_plan (by simp [hpath₁]))]
        exact .visit hplan hpost₁ (.nil _)

/-- The walk over the requested names settles as the reference walk over them. -/
theorem go_settles (rest : List String) (hrest : ∀ n ∈ rest, n ∈ requested) (w : Walk)
    (hinv : w.Inv g requested) (hpath : w.path = []) :
    g.Settles requested (g.Walked requested w rest) (resolve.go g (g.nodeCount + 1) rest w) := by
  induction rest generalizing w with
  | nil => exact ⟨hinv, rfl, .nil _⟩
  | cons name rest ih =>
    have hname := hrest name List.mem_cons_self
    rw [resolve.go]
    split
    · rename_i hpresent
      have hfirst := visit_settles (g.nodeCount + 1) name w hinv
        (by simpa [hpath] using Trail.singleton (g := g) hname) hpresent (by omega)
      cases hv : g.visit (g.nodeCount + 1) name w with
      | error e => rw [hv] at hfirst; exact hfirst
      | ok w₁ =>
        rw [hv] at hfirst
        exact (ih (fun n hn => hrest n (List.mem_cons_of_mem _ hn)) w₁ hfirst.1
          (hfirst.2.1.trans hpath)).mono fun w₂ hrest => hfirst.trans hrest
    · rename_i hunknown
      exact ⟨hname, by simpa using hunknown⟩

theorem resolve_eq_go (g : Graph) (requested : List String) :
    g.resolve requested = (resolve.go g (g.nodeCount + 1) requested {}).map (·.plan) := rfl

/-- The plan of a successful resolution is that of a walk keeping the invariant, and its
order is the reference walk over the request. -/
theorem resolve_ok {p : Plan} (h : g.resolve requested = .ok p) :
    (∃ w : Walk, w.Inv g requested ∧ w.plan = p) ∧ g.PostOrder [] requested p.order := by
  have hgo := go_settles (g := g) requested (fun _ hn => hn) {} .empty rfl
  rw [resolve_eq_go] at h
  cases hv : resolve.go g (g.nodeCount + 1) requested {} with
  | error e => simp [hv, Except.map] at h
  | ok w =>
    rw [hv] at hgo
    obtain rfl : w.plan = p := by simpa [hv, Except.map] using h
    exact ⟨⟨w, hgo.1, rfl⟩, hgo.2.2⟩

/-- Every error of resolution names a real fault. -/
theorem resolve_error {e : Error} (h : g.resolve requested = .error e) : g.IsFault requested e := by
  have hgo := go_settles (g := g) requested (fun _ hn => hn) {} .empty rfl
  rw [resolve_eq_go] at h
  cases hv : resolve.go g (g.nodeCount + 1) requested {} with
  | error e' =>
    obtain rfl : e' = e := by simpa [hv, Except.map] using h
    rw [hv] at hgo
    exact hgo
  | ok w => simp [hv, Except.map] at h

/-! ## Plans in dependency order -/

/-- In a list without repeated names that keeps dependencies first, a dependency of a listed
name is listed, at a smaller index. -/
theorem idxOf_lt_of_dependsOn {l : List String} (hnd : l.Nodup) (hdf : g.DepsFirst l) {n d : String}
    (hn : n ∈ l) (hd : g.DependsOn n d) : d ∈ l ∧ l.idxOf d < l.idxOf n := by
  obtain ⟨pre, post, rfl⟩ := List.append_of_mem hn
  have hdpre := hdf pre n post rfl d hd
  have hnpre : n ∉ pre := fun h => (List.nodup_append.mp hnd).2.2 n h n (by simp) rfl
  refine ⟨List.mem_append_left _ hdpre, ?_⟩
  have hlt := List.idxOf_lt_length_of_mem hdpre
  simp only [List.idxOf_append, hdpre, hnpre, if_true, if_false, List.idxOf_cons_self]
  omega

/-- Along dependencies, even through others, the index in a list without repeated names that
keeps dependencies first falls strictly. -/
theorem idxOf_lt_of_transGen {l : List String} (hnd : l.Nodup) (hdf : g.DepsFirst l) {n m : String}
    (hn : n ∈ l) (hm : Relation.TransGen g.DependsOn n m) : m ∈ l ∧ l.idxOf m < l.idxOf n := by
  induction hm with
  | single hd => exact idxOf_lt_of_dependsOn hnd hdf hn hd
  | tail _ hd ih =>
    have hstep := idxOf_lt_of_dependsOn hnd hdf ih.1 hd
    exact ⟨hstep.1, hstep.2.trans ih.2⟩

/-- A list without repeated names that keeps dependencies first holds no name of a cycle. -/
theorem not_transGen_of_depsFirst {l : List String} (hnd : l.Nodup) (hdf : g.DepsFirst l)
    {n : String} (hn : n ∈ l) : ¬ Relation.TransGen g.DependsOn n n := fun hcyc =>
  Nat.lt_irrefl _ (idxOf_lt_of_transGen hnd hdf hn hcyc).2

/-- In a plan without repeated names that keeps dependencies first, each dependency of a planned
name stands before it. -/
theorem position?_lt_of_depsFirst {p : Plan} (hnd : p.order.Nodup) (hdf : g.DepsFirst p.order)
    {n d : String} (hn : n ∈ p.order) (hd : d ∈ g.depsOf n) :
    ∃ i j, p.position? d = some i ∧ p.position? n = some j ∧ i < j := by
  obtain ⟨pre, post, hsplit⟩ := List.append_of_mem hn
  obtain ⟨pre₁, pre₂, hpre⟩ := List.append_of_mem (hdf pre n post hsplit d hd)
  have hd_at : p.order = pre₁ ++ d :: (pre₂ ++ n :: post) := by simp [hsplit, hpre]
  refine ⟨pre₁.length, pre.length, Plan.position?_of_eq_append hnd hd_at,
    Plan.position?_of_eq_append hnd hsplit, ?_⟩
  simp [hpre]

/-! ## Resolution -/

/-- A plan that resolution returns is the depth-first post-order of the request: it lists once
each name reached from the request, the requested names among them, all present, each planned
with its own dependencies and after them; `contains` and `position?` read the same order. -/
theorem resolve_eq_postOrder {g : Graph} {requested : List String} {p : Plan}
    (h : g.resolve requested = .ok p) :
    (∀ out, g.PostOrder [] requested out ↔ out = p.order) ∧
    p.order.Nodup ∧
    (∀ n, n ∈ p.order ↔ g.Reaches requested n) ∧
    (∀ n ∈ p.order, g.contains n = true) ∧
    (∀ n ∈ p.order, p.depsOf n = g.depsOf n ∧
      ∀ d ∈ g.depsOf n, ∃ i j, p.position? d = some i ∧ p.position? n = some j ∧ i < j) ∧
    (∀ n, p.contains n = true ↔ n ∈ p.order) ∧
    (∀ n i, p.position? n = some i ↔ p.order[i]? = some n) := by
  obtain ⟨⟨w, hinv, rfl⟩, hpost⟩ := resolve_ok h
  have hdf := hpost.depsFirst .nil
  refine ⟨fun out => ⟨fun hout => hout.deterministic hpost, fun hout => hout ▸ hpost⟩,
    hinv.plan_nodup, fun n => hpost.mem_iff_reaches, fun n hn => (hinv.plan_present n hn).1,
    fun n hn => ⟨hinv.depsOf_plan hn, fun d hd => position?_lt_of_depsFirst hinv.plan_nodup hdf hn hd⟩,
    fun n => Plan.contains_iff_mem _ n, fun n i => Plan.position?_eq_some_iff hinv.plan_nodup⟩

theorem resolve_chain_postOrder :
    (⟨[("b", ["a"]), ("a", [])]⟩ : Graph).resolve ["b"] = .ok ⟨[("a", []), ("b", ["a"])]⟩ ∧
    ((∀ out, (⟨[("b", ["a"]), ("a", [])]⟩ : Graph).PostOrder [] ["b"] out ↔
        out = (⟨[("a", []), ("b", ["a"])]⟩ : Plan).order) ∧
      (⟨[("a", []), ("b", ["a"])]⟩ : Plan).order.Nodup ∧
      (∀ n, n ∈ (⟨[("a", []), ("b", ["a"])]⟩ : Plan).order ↔
        (⟨[("b", ["a"]), ("a", [])]⟩ : Graph).Reaches ["b"] n) ∧
      (∀ n ∈ (⟨[("a", []), ("b", ["a"])]⟩ : Plan).order,
        (⟨[("b", ["a"]), ("a", [])]⟩ : Graph).contains n = true) ∧
      (∀ n ∈ (⟨[("a", []), ("b", ["a"])]⟩ : Plan).order,
        (⟨[("a", []), ("b", ["a"])]⟩ : Plan).depsOf n = (⟨[("b", ["a"]), ("a", [])]⟩ : Graph).depsOf n ∧
        ∀ d ∈ (⟨[("b", ["a"]), ("a", [])]⟩ : Graph).depsOf n, ∃ i j,
          (⟨[("a", []), ("b", ["a"])]⟩ : Plan).position? d = some i ∧
          (⟨[("a", []), ("b", ["a"])]⟩ : Plan).position? n = some j ∧ i < j) ∧
      (∀ n, (⟨[("a", []), ("b", ["a"])]⟩ : Plan).contains n = true ↔
        n ∈ (⟨[("a", []), ("b", ["a"])]⟩ : Plan).order) ∧
      (∀ n i, (⟨[("a", []), ("b", ["a"])]⟩ : Plan).position? n = some i ↔
        (⟨[("a", []), ("b", ["a"])]⟩ : Plan).order[i]? = some n)) :=
  ⟨rfl, resolve_eq_postOrder rfl⟩

/-- Resolution succeeds exactly when every requested name is present, every dependency reached
from them is present and no name reached lies on a cycle; every error it returns names such a
fault. -/
theorem resolve_ok_iff (g : Graph) (requested : List String) :
    ((∃ p, g.resolve requested = .ok p) ↔
      (∀ n ∈ requested, g.contains n = true) ∧
      (∀ n, g.Reaches requested n → ∀ d ∈ g.depsOf n, g.contains d = true) ∧
      (∀ n, g.Reaches requested n → ¬ Relation.TransGen g.DependsOn n n)) ∧
    ∀ e, g.resolve requested = .error e → g.IsFault requested e := by
  refine ⟨⟨?_, ?_⟩, fun e h => resolve_error h⟩
  · rintro ⟨p, h⟩
    obtain ⟨⟨w, hinv, rfl⟩, hpost⟩ := resolve_ok h
    have hplanned : ∀ n, g.Reaches requested n → n ∈ w.plan.order :=
      fun n hn => hpost.mem_iff_reaches.mpr hn
    exact ⟨fun n hn => (hinv.plan_present n (hplanned n (.of_mem hn))).1,
      fun n hn => (hinv.plan_present n (hplanned n hn)).2,
      fun n hn => not_transGen_of_depsFirst hinv.plan_nodup (hpost.depsFirst .nil) (hplanned n hn)⟩
  · rintro ⟨hreq, hdeps, hacyclic⟩
    cases hr : g.resolve requested with
    | ok p => exact ⟨p, rfl⟩
    | error e =>
      -- each kind of fault breaks one of the three conditions
      have hfault := resolve_error hr
      exfalso
      cases e with
      | unknownExtension n =>
        obtain ⟨hn, habsent⟩ := hfault
        rw [hreq n hn] at habsent
        cases habsent
      | missingDependency r m =>
        obtain ⟨hr, hm, habsent⟩ := hfault
        rw [hdeps r hr m hm] at habsent
        cases habsent
      | dependencyCycle c =>
        obtain ⟨n, hn, hcycle⟩ := hfault.1.transGen
        exact hacyclic n (hfault.2 n hn) hcycle
      | _ => exact hfault.elim

theorem resolve_cycle_isFault :
    (⟨[("entry", ["x"]), ("x", ["y"]), ("y", ["z"]), ("z", ["x"])]⟩ : Graph).resolve ["entry"] =
      .error (.dependencyCycle ["x", "y", "z", "x"]) ∧
    (⟨[("entry", ["x"]), ("x", ["y"]), ("y", ["z"]), ("z", ["x"])]⟩ : Graph).IsFault ["entry"]
      (.dependencyCycle ["x", "y", "z", "x"]) :=
  ⟨rfl, (resolve_ok_iff _ _).2 _ rfl⟩

end Graph

end Provisioning
