import Mathlib.Data.List.Chain
import Mathlib.Logic.Relation
import Provisioning.Graph.Basic
import Provisioning.Proofs.Plan
/-!
Depth-first post-order, the reference order of resolution.

`PostOrder g done todo done'` is the walk over the names `todo`, taken in
order, that starts with the names `done` already emitted and ends with
`done'` emitted. A name already emitted is passed over; any other is
emitted right after the walk over its dependencies, in declaration order.
The walk looks for no cycle: a name on a cycle has no walk at all.

Main statements:

* `PostOrder.deterministic`: a walk has at most one outcome;
* `PostOrder.mem_iff_reaches`: the walk from nothing emits exactly the
  names reached from `todo` along dependencies;
* `PostOrder.depsFirst`: every name it emits comes after all of its
  dependencies.
-/

namespace Provisioning

namespace Graph

/-- `d` is a direct dependency of `n`. -/
def DependsOn (g : Graph) (n d : String) : Prop := d ∈ g.depsOf n

/-- `n` is reached from one of the `requested` names along dependencies. -/
def Reaches (g : Graph) (requested : List String) (n : String) : Prop :=
  ∃ r ∈ requested, Relation.ReflTransGen g.DependsOn r n

/-- Every name of `l` comes after all of its dependencies. -/
def DepsFirst (g : Graph) (l : List String) : Prop :=
  ∀ pre n post, l = pre ++ n :: post → ∀ d ∈ g.depsOf n, d ∈ pre

/-- The depth-first post-order walk over `todo` from the emitted names `done`. -/
inductive PostOrder (g : Graph) : List String → List String → List String → Prop
  | nil (done : List String) : PostOrder g done [] done
  /-- A name already emitted is passed over. -/
  | skip {done ns after : List String} {n : String} :
      n ∈ done → PostOrder g done ns after → PostOrder g done (n :: ns) after
  /-- Any other name is emitted after the walk over its dependencies. -/
  | visit {done ns mid after : List String} {n : String} :
      n ∉ done → PostOrder g done (g.depsOf n) mid → PostOrder g (mid ++ [n]) ns after →
      PostOrder g done (n :: ns) after

variable {g : Graph}

/-! ## Reaching and ordering -/

theorem Reaches.of_mem {requested : List String} {n : String} (h : n ∈ requested) :
    g.Reaches requested n :=
  ⟨n, h, .refl⟩

theorem Reaches.dep {requested : List String} {n d : String} (h : g.Reaches requested n)
    (hd : g.DependsOn n d) : g.Reaches requested d := by
  obtain ⟨r, hr, hrn⟩ := h
  exact ⟨r, hr, hrn.tail hd⟩

/-- A list that holds the dependencies of each of its names holds every name they reach. -/
theorem mem_of_reaches_of_closed {l requested : List String}
    (hclosed : ∀ n ∈ l, ∀ d ∈ g.depsOf n, d ∈ l) (hreq : ∀ r ∈ requested, r ∈ l)
    {n : String} (h : g.Reaches requested n) : n ∈ l := by
  obtain ⟨r, hr, hrn⟩ := h
  induction hrn with
  | refl => exact hreq r hr
  | tail _ hdep ih => exact hclosed _ ih _ hdep

theorem DepsFirst.nil : g.DepsFirst [] := by
  intro pre n post h
  simp at h

/-- Appending a name whose dependencies are all there keeps dependencies first. -/
theorem DepsFirst.concat {l : List String} {n : String} (hl : g.DepsFirst l)
    (hn : ∀ d ∈ g.depsOf n, d ∈ l) : g.DepsFirst (l ++ [n]) := by
  intro pre m post h
  rcases eq_append_cons_of_concat h with ⟨rfl, rfl, -⟩ | ⟨post', -, hsplit⟩
  · exact hn
  · exact hl pre m post' hsplit

theorem DepsFirst.closed {l : List String} (hl : g.DepsFirst l) :
    ∀ n ∈ l, ∀ d ∈ g.depsOf n, d ∈ l := by
  intro n hn d hd
  obtain ⟨pre, post, rfl⟩ := List.append_of_mem hn
  exact List.mem_append_left _ (hl pre n post rfl d hd)

/-! ## The walk -/

/-- Walking `a` and then `b` is walking `a :: b`. -/
theorem PostOrder.singleton_cons {done mid after : List String} {n : String} {ns : List String}
    (h₁ : g.PostOrder done [n] mid) (h₂ : g.PostOrder mid ns after) :
    g.PostOrder done (n :: ns) after := by
  cases h₁ with
  | skip hn hnil =>
    cases hnil
    exact .skip hn h₂
  | visit hn hdeps hnil =>
    cases hnil
    exact .visit hn hdeps h₂

/-- A walk has at most one outcome. -/
theorem PostOrder.deterministic {done todo a b : List String} (ha : g.PostOrder done todo a)
    (hb : g.PostOrder done todo b) : a = b := by
  induction ha generalizing b with
  | nil => cases hb; rfl
  | skip hn _ ih =>
    cases hb with
    | skip _ hrest => exact ih hrest
    | visit hn' _ _ => exact absurd hn hn'
  | visit hn _ _ ihdeps ihrest =>
    cases hb with
    | skip hn' _ => exact absurd hn' hn
    | visit _ hdeps hrest =>
      obtain rfl := ihdeps hdeps
      exact ihrest hrest

/-- The names emitted before stay emitted. -/
theorem PostOrder.mem_of_mem_done {done todo after : List String} (h : g.PostOrder done todo after)
    {n : String} (hn : n ∈ done) : n ∈ after := by
  induction h with
  | nil => exact hn
  | skip _ _ ih => exact ih hn
  | visit _ _ _ ihdeps ihrest => exact ihrest (List.mem_append_left _ (ihdeps hn))

/-- Every name of `todo` ends up emitted. -/
theorem PostOrder.mem_of_mem_todo {done todo after : List String} (h : g.PostOrder done todo after)
    {n : String} (hn : n ∈ todo) : n ∈ after := by
  induction h with
  | nil => simp at hn
  | skip hm hrest ih =>
    rcases List.mem_cons.mp hn with rfl | hn
    · exact hrest.mem_of_mem_done hm
    · exact ih hn
  | visit _ _ hrest _ ihrest =>
    rcases List.mem_cons.mp hn with rfl | hn
    · exact hrest.mem_of_mem_done (by simp)
    · exact ihrest hn

/-- Every name emitted by the walk was emitted before or is reached from `todo`. -/
theorem PostOrder.mem_done_or_reaches {done todo after : List String}
    (h : g.PostOrder done todo after) {n : String} (hn : n ∈ after) :
    n ∈ done ∨ g.Reaches todo n := by
  induction h with
  | nil => exact .inl hn
  | skip _ _ ih => exact (ih hn).imp id fun ⟨r, hr, hrn⟩ => ⟨r, List.mem_cons_of_mem _ hr, hrn⟩
  | @visit done ns mid after m hm _ _ ihdeps ihrest =>
    rcases ihrest hn with hn | ⟨r, hr, hrn⟩
    · rcases List.mem_append.mp hn with hn | hn
      · -- emitted during the walk over `m`'s dependencies: reached from `m`
        refine (ihdeps hn).imp id fun ⟨d, hd, hdn⟩ => ⟨m, List.mem_cons_self, ?_⟩
        exact Relation.ReflTransGen.head hd hdn
      · exact .inr ⟨m, List.mem_cons_self, by simp_all [Relation.ReflTransGen.refl]⟩
    · exact .inr ⟨r, List.mem_cons_of_mem _ hr, hrn⟩

/-- The walk keeps dependencies first. -/
theorem PostOrder.depsFirst {done todo after : List String} (h : g.PostOrder done todo after)
    (hdone : g.DepsFirst done) : g.DepsFirst after := by
  induction h with
  | nil => exact hdone
  | skip _ _ ih => exact ih hdone
  | visit _ hdeps _ ihdeps ihrest =>
    exact ihrest ((ihdeps hdone).concat fun d hd => hdeps.mem_of_mem_todo hd)

/-- The walk from nothing emits exactly the names reached from `todo`. -/
theorem PostOrder.mem_iff_reaches {todo after : List String} (h : g.PostOrder [] todo after)
    {n : String} : n ∈ after ↔ g.Reaches todo n := by
  constructor
  · intro hn
    simpa using h.mem_done_or_reaches hn
  · exact mem_of_reaches_of_closed (h.depsFirst .nil).closed fun r hr => h.mem_of_mem_todo hr

end Graph

end Provisioning
