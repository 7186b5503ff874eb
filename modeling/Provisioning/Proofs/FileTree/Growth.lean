import Provisioning.Proofs.FileTree.Links
/-!
Trees grown at one location.

Linking an extension fills its destination, a location `D` that the tree does not hold: a link
is put there, or a copy is made there, directory by directory and file by file. `GrownAt t₀ D t`
says that `t` is `t₀` grown at `D`: erasing `D` gives `t₀` back, and what is at and below `D` is
made of names and holds no link. Putting entries at or below `D` and moving entries there keep a
tree grown (`GrownAt.put`, `GrownAt.moveEntry`). A tree is its own growth when it holds nothing
at or below `D`, which in a tree whose entries have their directories (`Rooted`) is when it holds
nothing at `D` (`Rooted.erase_eq`).

The operations of the file system keep a tree grown when their path lies below the root at
which `D` is (`Beneath`): making directories (`GrownAt.mkdirAll_beneath`), writing and copying
files, renaming one file onto another there, and putting a link at the name
(`GrownAt.symlink_beneath`). Paths below the root are resolved from the location of the root,
with the fuel the walk to the root leaves (`fuel_of_skipped`, `Beneath.locate_eq`).
-/

namespace Provisioning

namespace FileTree

open Provisioning.Path

variable {t t' t₀ : FileTree} {D L l : List String} {n : Node}

/-- A tree whose entries have their directories: every proper beginning of an entry's location
is a directory, as in a file system. -/
def Rooted (t : FileTree) : Prop :=
  ∀ e ∈ t.entries, ∀ i < e.1.length, t.node? (e.1.take i) = some .dir

instance : DecidablePred Rooted := fun t =>
  inferInstanceAs (Decidable (∀ e ∈ t.entries, ∀ i < e.1.length, t.node? (e.1.take i) = some .dir))

/-- An entry at a location makes the location hold something. -/
theorem node?_of_mem {e : List String × Node} (he : e ∈ t.entries) : t.node? e.1 ≠ none := by
  unfold node?
  split
  · simp
  · rw [ne_eq, ← Option.not_isSome_iff_eq_none, not_not, List.lookup_isSome_iff]
    exact ⟨e, he, beq_self_eq_true _⟩

/-- Whatever a location holds is held by one of the entries at it. -/
theorem mem_of_node? (hne : l ≠ []) (h : t.node? l = some n) : (l, n) ∈ t.entries := by
  unfold node? at h
  rw [if_neg (by simpa using hne)] at h
  obtain ⟨l₁, l₂, hsplit, -⟩ := List.lookup_eq_some_iff.mp h
  simp [hsplit]

/-- In a tree whose entries have their directories, nothing is below a location that holds
nothing, so erasing it changes nothing. -/
theorem Rooted.erase_eq (h : t.Rooted) (hD : t.node? D = none) : t.erase D = t := by
  unfold erase
  congr 1
  refine List.filter_eq_self.2 fun e he => ?_
  rw [Bool.not_eq_true', Bool.eq_false_iff]
  intro hpre
  obtain ⟨rest, hrest⟩ := List.isPrefixOf_iff_prefix.1 hpre
  cases rest with
  | nil =>
    -- an entry at `D` itself
    rw [List.append_nil] at hrest
    exact node?_of_mem he (hrest ▸ hD)
  | cons x rest =>
    -- an entry below `D` has `D` among its directories
    have hlen : D.length < e.1.length := by rw [← hrest]; simp
    have hdir := h e he D.length hlen
    rw [← hrest, List.take_left] at hdir
    rw [hD] at hdir
    cases hdir

/-- In a tree whose entries have their directories, nothing is below a location that holds no
directory, so erasing it erases its own entry alone. -/
theorem Rooted.node?_erase_of_ne (h : t.Rooted) (hL : t.node? L ≠ some .dir) (hl : l ≠ L) :
    (t.erase L).node? l = t.node? l := by
  by_cases hpre : L <+: l
  · have hne : l ≠ [] := by
      rintro rfl
      exact hl (List.prefix_nil.1 hpre).symm
    have herase : (t.erase L).node? l = none := node?_erase_of_prefix hne hpre
    rw [herase]
    cases hn : t.node? l with
    | none => rfl
    | some n =>
      -- an entry below `L` would have a directory at `L`
      obtain ⟨rest, rfl⟩ := hpre
      have hrest : rest ≠ [] := by
        rintro rfl
        simp at hl
      have hlen : L.length < (L ++ rest).length := by
        simpa using List.length_pos_iff.2 hrest
      have hdir := h _ (mem_of_node? hne hn) L.length hlen
      simp only [List.take_left] at hdir
      exact absurd hdir hL
  · exact node?_erase_of_not_prefix hpre

/-! ## Growth at a location -/

/-- `t` is `t₀` with entries put at and below `D`: erasing `D` gives `t₀` back, and the entries
at and below `D` are made of names and are no links. -/
structure GrownAt (t₀ : FileTree) (D : List String) (t : FileTree) : Prop where
  erase_eq : t.erase D = t₀
  noLink : ∀ e ∈ t.entries, D <+: e.1 → e.2.isLink = false
  named : ∀ e ∈ t.entries, D <+: e.1 → ∀ x ∈ e.1, IsName x

/-- Changing entries at or below a location in place leaves what erasing it leaves. -/
theorem filter_erase_map_put (hL : D <+: L) (es : List (List String × Node)) :
    ((es.map fun (k, m) => if k == L then (k, n) else (k, m)).filter fun (k, _) => !(D.isPrefixOf k)) =
      es.filter fun (k, _) => !(D.isPrefixOf k) := by
  induction es with
  | nil => rfl
  | cons e es ih =>
    obtain ⟨k, v⟩ := e
    by_cases hk : D <+: k
    · have hpre : D.isPrefixOf k = true := List.isPrefixOf_iff_prefix.2 hk
      by_cases hkL : k = L
      · subst hkL
        simpa [hpre] using ih
      · simpa [hkL, hpre] using ih
    · -- an entry kept by the erasure is not at `L`, which is below `D`
      have hkL : k ≠ L := fun h => hk (h ▸ hL)
      have hpre : D.isPrefixOf k = false := by
        rw [Bool.eq_false_iff]
        exact fun h => hk (List.isPrefixOf_iff_prefix.1 h)
      simpa [hkL, hpre] using ih

/-- Putting at or below a location leaves what erasing it leaves. -/
theorem erase_put_below (hL : D <+: L) : (t.put L n).erase D = t.erase D := by
  unfold put erase
  split
  · exact congrArg FileTree.mk (filter_erase_map_put hL t.entries)
  · have hpre : D.isPrefixOf L = true := List.isPrefixOf_iff_prefix.2 hL
    simp [List.filter_append, hpre]

/-- Erasing at or below a location leaves what erasing it leaves. -/
theorem erase_erase_below (hL : D <+: L) : (t.erase L).erase D = t.erase D := by
  unfold erase
  simp only [List.filter_filter]
  congr 1
  refine List.filter_congr fun e _ => ?_
  -- whatever is below `L` is below `D`
  by_cases hk : L <+: e.1
  · have hD : D.isPrefixOf e.1 = true := List.isPrefixOf_iff_prefix.2 (hL.trans hk)
    simp [hD]
  · have hpre : L.isPrefixOf e.1 = false := by
      rw [Bool.eq_false_iff]
      exact fun h => hk (List.isPrefixOf_iff_prefix.1 h)
    simp [hpre]

/-- An entry left by erasing a location is not at or below it. -/
theorem not_prefix_of_mem_erase {e : List String × Node} (he : e ∈ (t.erase D).entries) :
    ¬ D <+: e.1 := by
  have hkeep := (List.mem_filter.1 he).2
  intro hpre
  simp [List.isPrefixOf_iff_prefix.2 hpre] at hkeep

theorem mem_put {e : List String × Node} (he : e ∈ (t.put L n).entries) :
    e = (L, n) ∨ e ∈ t.entries := by
  unfold put at he
  split at he
  · obtain ⟨⟨k, v⟩, hkv, rfl⟩ := List.mem_map.1 he
    by_cases hk : k = L
    · subst hk
      simp
    · simp [hk, hkv]
  · rcases List.mem_append.1 he with he | he
    · exact .inr he
    · exact .inl (List.mem_singleton.1 he)

/-- An entry moved below a location comes from an entry below the location it is moved from. -/
theorem mem_moved_of_below {S T : List String} {e : List String × Node}
    (he : e ∈ (t.below S).map fun x => (T ++ x.1, x.2)) :
    ∃ rel, e.1 = T ++ rel ∧ (S ++ rel, e.2) ∈ t.entries := by
  obtain ⟨⟨rel, m⟩, hb, rfl⟩ := List.mem_map.1 he
  obtain ⟨⟨k, v⟩, hkv, hsome⟩ := List.mem_filterMap.1 hb
  by_cases hk : (S.isPrefixOf k && decide (k.length > S.length)) = true
  · simp only [hk, if_true, Option.some.injEq, Prod.mk.injEq] at hsome
    obtain ⟨rfl, rfl⟩ := hsome
    have hpre : S <+: k := List.isPrefixOf_iff_prefix.1 (by simp_all)
    refine ⟨k.drop S.length, rfl, ?_⟩
    simp only
    rwa [List.prefix_iff_eq_append.1 hpre]
  · simp [hk] at hsome

namespace GrownAt

/-- A tree that erasing `D` leaves as it is is its own growth. -/
theorem self (h : t₀.erase D = t₀) : GrownAt t₀ D t₀ where
  erase_eq := h
  noLink _ he hD := absurd hD (not_prefix_of_mem_erase (h ▸ he))
  named _ he hD := absurd hD (not_prefix_of_mem_erase (h ▸ he))

theorem node?_of_not_prefix (h : GrownAt t₀ D t) (hl : ¬ D <+: l) : t.node? l = t₀.node? l := by
  rw [← h.erase_eq, node?_erase_of_not_prefix hl]

theorem node?_ne_link (h : GrownAt t₀ D t) (hl : D <+: l) (target : String) :
    t.node? l ≠ some (.link target) := by
  intro hnode
  have hne : l ≠ [] := by
    rintro rfl
    simp [node?] at hnode
  have := h.noLink _ (mem_of_node? hne hnode) hl
  simp [Node.isLink] at this

/-- A grown tree keeps every entry of the tree it grew from. -/
theorem extends_ (h : GrownAt t₀ D t) (hD : D ≠ []) : t₀.Extends t := by
  intro l n hl
  by_cases hpre : D <+: l
  · -- the tree grown from holds nothing at or below `D`
    have hne : l ≠ [] := fun hnil => hD (List.prefix_nil.1 (hnil ▸ hpre))
    rw [← h.erase_eq, node?_erase_of_prefix hne hpre] at hl
    cases hl
  · rw [h.node?_of_not_prefix hpre]
    exact hl

theorem named_tree (h : GrownAt t₀ D t) (h₀ : t₀.Named) : t.Named := by
  intro e he
  by_cases hpre : D <+: e.1
  · exact h.named e he hpre
  · refine h₀ e ?_
    rw [← h.erase_eq]
    refine List.mem_filter.2 ⟨he, ?_⟩
    have : D.isPrefixOf e.1 = false := by
      rw [Bool.eq_false_iff]
      exact fun hp => hpre (List.isPrefixOf_iff_prefix.1 hp)
    simp [this]

theorem put (h : GrownAt t₀ D t) (hL : D <+: L) (hn : n.isLink = false)
    (hnames : ∀ x ∈ L, IsName x) : GrownAt t₀ D (t.put L n) where
  erase_eq := by rw [erase_put_below hL, h.erase_eq]
  noLink e he hD := by
    rcases mem_put he with rfl | he
    · exact hn
    · exact h.noLink e he hD
  named e he hD := by
    rcases mem_put he with rfl | he
    · exact hnames
    · exact h.named e he hD

theorem erase (h : GrownAt t₀ D t) (hL : D <+: L) : GrownAt t₀ D (t.erase L) where
  erase_eq := by rw [erase_erase_below hL, h.erase_eq]
  noLink e he hD := h.noLink e (List.mem_filter.1 he).1 hD
  named e he hD := h.named e (List.mem_filter.1 he).1 hD

theorem foldl_put {es : List (List String × Node)}
    (hes : ∀ e ∈ es, D <+: e.1 ∧ e.2.isLink = false ∧ ∀ x ∈ e.1, IsName x) :
    ∀ {t}, GrownAt t₀ D t → GrownAt t₀ D (es.foldl (fun acc e => acc.put e.1 e.2) t) := by
  induction es with
  | nil => exact fun h => h
  | cons e es ih =>
    intro t h
    obtain ⟨hD, hn, hnames⟩ := hes e List.mem_cons_self
    exact ih (fun e he => hes e (List.mem_cons_of_mem _ he)) (h.put hD hn hnames)

/-- Moving an entry, and what is below it, from below `D` to below `D` keeps the growth. -/
theorem moveEntry (h : GrownAt t₀ D t) {S T : List String} (hS : D <+: S) (hT : D <+: T)
    (hn : n.isLink = false) (hTnames : ∀ x ∈ T, IsName x) :
    GrownAt t₀ D (t.moveEntry S T n) := by
  unfold FileTree.moveEntry
  simp only
  refine foldl_put (fun e he => ?_) (((h.erase hT).erase hS).put hT hn hTnames)
  obtain ⟨rel, hrel, hmem⟩ := mem_moved_of_below he
  have hbelow : D <+: S ++ rel := hS.trans (List.prefix_append _ _)
  refine ⟨hrel ▸ hT.trans (List.prefix_append _ _), h.noLink (S ++ rel, e.2) hmem hbelow,
    fun x hx => ?_⟩
  rw [hrel, List.mem_append] at hx
  rcases hx with hx | hx
  · exact hTnames x hx
  · exact h.named _ hmem hbelow x (List.mem_append_right _ hx)

end GrownAt

/-- Every directory of `t` is a directory of `t'`. -/
def KeepsDirs (t t' : FileTree) : Prop := ∀ l, t.node? l = some .dir → t'.node? l = some .dir

theorem KeepsDirs.refl (t : FileTree) : KeepsDirs t t := fun _ h => h

theorem KeepsDirs.trans {t'' : FileTree} (h : KeepsDirs t t') (h' : KeepsDirs t' t'') :
    KeepsDirs t t'' := fun l hl => h' l (h l hl)

/-- Putting a directory, or anything where there is no directory, keeps every directory. -/
theorem KeepsDirs.put (hn : t.node? L = some .dir → n = .dir) : KeepsDirs t (t.put L n) := by
  intro l hl
  by_cases hlL : l = L
  · subst hlL
    by_cases hnil : l = []
    · subst hnil
      exact node_root _
    · rw [node?_put_self hnil, hn hl]
  · rw [node?_put_of_ne hlL]
    exact hl

/-! ## Paths below a name in a directory -/

section Beneath

variable {cwd : List String} {root name p : String} {pre rel : List String}

/-- `p` is written as `root`, with some of the texts that name nothing left out (`pre`), then
`name`, then the names `rel`. -/
structure Beneath (cwd : List String) (root : String) (pre : List String) (name p : String)
    (rel : List String) : Prop where
  skipped : Skipped (split root) pre
  split_eq : split p = pre ++ name :: rel
  origin_eq : origin cwd p = origin cwd root
  names : ∀ x ∈ name :: rel, IsName x

namespace Beneath

theorem getLast?_split (hb : Beneath cwd root pre name p rel) :
    ∃ y, (split p).getLast? = some y ∧ IsName y := by
  obtain ⟨y, hy⟩ := Option.isSome_iff_exists.1 (List.getLast?_isSome.2 (List.cons_ne_nil name rel))
  refine ⟨y, ?_, hb.names y (List.mem_of_getLast? hy)⟩
  rw [hb.split_eq, List.getLast?_append_of_ne_nil _ (List.cons_ne_nil _ _), hy]

theorem ne_empty (hb : Beneath cwd root pre name p rel) : p ≠ "" := by
  rintro rfl
  -- the one text of the empty path is empty, and the last text is a name
  obtain ⟨y, hy, hname⟩ := hb.getLast?_split
  rw [split_empty] at hy
  cases hy
  exact hname.1 rfl

theorem names_append (hb : Beneath cwd root pre name p rel) {P : List String}
    (hPnames : ∀ x ∈ P, IsName x) : ∀ x ∈ P ++ name :: rel, IsName x :=
  fun x hx => (List.mem_append.1 hx).elim (hPnames x) (hb.names x)

theorem endsWith (hb : Beneath cwd root pre name p rel) : p.endsWith "/" = false := by
  obtain ⟨y, hy, hname⟩ := hb.getLast?_split
  exact endsWith_of_getLast?_split hy hname.1

/-- A name joined onto a path below the name is below it, one name further. -/
theorem join (hb : Beneath cwd root pre name p rel) {x : String} (hx : IsName x) :
    Beneath cwd root pre name (Path.join p x) (rel ++ [x]) where
  skipped := hb.skipped
  split_eq := by
    rw [split_join_name_of_endsWith hb.ne_empty hx hb.endsWith, hb.split_eq]
    simp
  origin_eq := by
    rw [← hb.origin_eq]
    simp only [origin, isAbsolute_join_name hb.ne_empty hx]
  names y hy := by
    rw [← List.cons_append, List.mem_append, List.mem_singleton] at hy
    rcases hy with hy | rfl
    · exact hb.names y hy
    · exact hx

/-- A name joined onto a path below the name has a parent, written with the path's parts: it is
below the name where the path is. -/
theorem parent (hb : Beneath cwd root pre name p rel) {x : String} (hx : IsName x) :
    ∃ q pre', parent? (Path.join p x) = some q ∧ Beneath cwd root pre' name q rel := by
  have hname := hb.names name List.mem_cons_self
  have hparts : parts p ≠ [] := by
    have hmem : name ∈ (split p).filter fun s => s ≠ "" && s ≠ "." := by
      rw [hb.split_eq, List.mem_filter]
      exact ⟨by simp, by simp [hname.1, hname.2.1]⟩
    rw [parts_eq]
    exact List.ne_nil_of_mem (List.mem_append_right _ hmem)
  obtain ⟨q, hq, -, habs, hsub, hnamed⟩ := parent?_join_name hb.ne_empty hx hparts
  -- the parent leaves out texts that name nothing, never the names at the end
  have hskip := skipped_of_sublist hsub hnamed
  rw [hb.split_eq] at hskip
  obtain ⟨pre', hsplit, hpre'⟩ := Skipped.append_of_named
    (fun y hy => ⟨(hb.names y hy).1, (hb.names y hy).2.1⟩) hskip
  refine ⟨q, pre', hq, hb.skipped.trans hpre', hsplit, ?_, hb.names⟩
  rw [← hb.origin_eq]
  simp only [origin, habs]

end Beneath

/-- The destination of a name in a directory is below the name. -/
theorem beneath_join (hroot : root ≠ "") (hname : IsName name) :
    ∃ pre, Beneath cwd root pre name (Path.join root name) [] := by
  obtain ⟨pre, hsplit, hnamed, hsub, -⟩ := split_join_name hroot hname
  refine ⟨pre, skipped_of_sublist hsub hnamed, hsplit, ?_, by simpa using hname⟩
  simp only [origin, isAbsolute_join_name hroot hname]

end Beneath

/-- Where making a directory does not fail for want of a parent, making it with its parents
makes it alone, or finds a directory there. -/
theorem mkdirAll_of_mkdir {cwd : List String} {q : String} (hq : q ≠ "")
    (hmk : t.mkdir cwd q ≠ .error .notFound) (h : t.mkdirAll cwd q = .ok t') :
    t.mkdir cwd q = .ok t' ∨ (t.isDir cwd q = true ∧ t' = t) := by
  unfold mkdirAll at h
  rw [mkdirAll.go, if_neg (by simpa using hq)] at h
  split at h
  · next t₂ hmk' =>
    cases h
    exact .inl hmk'
  · next hmk' => exact absurd hmk' hmk
  · split at h
    · next hdir =>
      cases h
      exact .inr ⟨hdir, rfl⟩
    · cases h

/-- Making a directory that is there already changes nothing, links on the way or not: the path
leads to the directory, or, not following a link at its end, to that link, and either is in the
way of a new directory. -/
theorem mkdirAll_eq_of_isDir {cwd : List String} {q : String} (hq : t.isDir cwd q = true) :
    t.mkdirAll cwd q = .ok t := by
  obtain ⟨L, hL, hnode⟩ := stat_ok (stat_of_isDir hq)
  obtain ⟨L', hL', hend⟩ := locate_follow_ok hL
  have hne : q ≠ "" := by
    rintro rfl
    simp [locate] at hL
  have hmkdir : t.mkdir cwd q = .error .alreadyExists := by
    unfold mkdir
    rw [hL']
    simp only [bind, Except.bind]
    split
    · rfl
    · rcases hend with rfl | ⟨target, hlink⟩
      · simp [hnode, throw, throwThe, MonadExceptOf.throw]
      · simp [hlink, throw, throwThe, MonadExceptOf.throw]
  unfold mkdirAll
  rw [mkdirAll.go, if_neg (by simpa using hne), hmkdir]
  simp [hq]

/-! ## Resolving paths below the name -/

section Resolve

variable {cwd P : List String} {root name p : String} {pre rel : List String} {f : Bool}

/-- Paths written as the root, with texts that name nothing left out, and then more parts, are
resolved from the root's directory, with steps to spare, in every tree that keeps the entries of
the tree the root was resolved in. -/
theorem fuel_of_skipped (hroot : t₀.locate cwd root true = .ok P) (hP : t₀.node? P = some .dir)
    (hs : Skipped (split root) pre) :
    ∃ k, 0 < k ∧ ∀ t', t₀.Extends t' → ∀ f xs, xs ≠ [] →
      t'.walk f 4096 (origin cwd root) (pre ++ xs) = t'.walk f k P xs := by
  have hne : root ≠ "" := by
    rintro rfl
    simp [locate] at hroot
  unfold locate at hroot
  rw [if_neg (by simpa using hne), Bool.true_or] at hroot
  obtain ⟨k, hk, hwalk⟩ := walk_append_of_dir hP 4096 _ _ hroot pre hs
  exact ⟨k, hk, fun t' ht' f xs hxs => hwalk t' ht' 0 f xs hxs⟩

theorem Beneath.locate_eq (hb : Beneath cwd root pre name p rel) {k : Nat}
    (hk : ∀ t', t₀.Extends t' → ∀ f xs, xs ≠ [] →
      t'.walk f 4096 (origin cwd root) (pre ++ xs) = t'.walk f k P xs)
    (ht : t₀.Extends t) (f : Bool) : t.locate cwd p f = t.walk f k P (name :: rel) := by
  unfold locate
  rw [if_neg (by simpa using hb.ne_empty), hb.endsWith, Bool.or_false, hb.origin_eq, hb.split_eq]
  exact hk t ht f _ (List.cons_ne_nil _ _)

/-- In a tree grown at the name, a walk from the root's directory over the name and names below
it meets no link, and ends, if it ends, at their location. -/
theorem GrownAt.walk_beneath (h : GrownAt t₀ (P ++ [name]) t)
    (hnames : ∀ x ∈ name :: rel, IsName x) {k : Nat} (hw : t.walk f k P (name :: rel) = .ok L) :
    L = P ++ name :: rel := by
  refine walk_names_ok _ _ _ hnames (fun ys hys hpre target => ?_) hw
  obtain ⟨y, ys, rfl⟩ := List.exists_cons_of_ne_nil hys
  obtain ⟨rfl, -⟩ := List.cons_prefix_cons.1 hpre
  exact h.node?_ne_link ⟨ys, by simp⟩ target

/-- A step onto a directory goes on from it. -/
theorem walk_cons_dir {at_ : List String} {x : String} {xs : List String} {fuel : Nat}
    (hx : IsName x) (hsize : ¬ x.utf8ByteSize > 255) (hdir : t.node? (at_ ++ [x]) = some .dir) :
    t.walk f (fuel + 1) at_ (x :: xs) = t.walk f fuel (at_ ++ [x]) xs := by
  rw [walk_cons_name hsize ⟨hx.1, hx.2.1, hx.2.2.1⟩, hdir]

/-- A last step onto a file ends there. -/
theorem walk_last_file {at_ : List String} {x : String} {fuel : Nat} {data : List UInt8}
    {mode : Nat} (hx : IsName x) (hsize : ¬ x.utf8ByteSize > 255)
    (hfile : t.node? (at_ ++ [x]) = some (.file data mode)) :
    t.walk f (fuel + 1) at_ [x] = .ok (at_ ++ [x]) := by
  rw [walk_cons_name hsize ⟨hx.1, hx.2.1, hx.2.2.1⟩, hfile]
  rfl

/-- A walk that went through the directory at `name` onto one name more had a step for each
name, and one more to end with, and both names are short enough to step on. -/
theorem walk_two_of_dir {x : String} (hname : IsName name)
    (hdir : t.node? (P ++ [name]) = some .dir) {k : Nat} (hw : t.walk f k P [name, x] = .ok L) :
    ∃ k', k = k' + 2 ∧ ¬ name.utf8ByteSize > 255 ∧ ¬ x.utf8ByteSize > 255 := by
  cases k with
  | zero => simp [walk] at hw
  | succ k =>
    by_cases hsize : name.utf8ByteSize > 255
    · rw [walk_cons_long hsize] at hw
      cases hw
    rw [walk_cons_dir hname hsize hdir] at hw
    cases k with
    | zero => simp [walk] at hw
    | succ k =>
      refine ⟨k, rfl, hsize, fun hxsize => ?_⟩
      rw [walk_cons_long hxsize] at hw
      cases hw

/-- Putting an entry where there is none keeps every entry. -/
theorem Extends.put (h : t.node? L = none) : t.Extends (t.put L n) := by
  intro l n' hl
  rw [node?_put_of_ne]
  · exact hl
  · rintro rfl
    rw [h] at hl
    cases hl

/-- A walk onto a name that ends, not following a link at its end, ends at the name once a link
is put there. -/
theorem walk_put_link_last {at_ : List String} {x target : String} {k : Nat} (hx : IsName x)
    (hw : t.walk false k at_ [x] = .ok L) :
    (t.put (at_ ++ [x]) (.link target)).walk false k at_ [x] = .ok (at_ ++ [x]) := by
  match k, hw with
  | 0, hw => simp [walk] at hw
  | k + 1, hw =>
    by_cases hsize : x.utf8ByteSize > 255
    · rw [walk_cons_long hsize] at hw
      cases hw
    rw [walk_cons_name hsize ⟨hx.1, hx.2.1, hx.2.2.1⟩, node?_put_self (by simp)]
    rfl

variable (hroot : t₀.locate cwd root true = .ok P) (hP : t₀.node? P = some .dir)
include hroot hP

/-- Where the path to the name finds nothing without following a link at its end, nothing is at
the name: whatever were there would be found, or would stop the walk with another error. -/
theorem node?_of_lstat_notFound (hb : Beneath cwd root pre name p [])
    (hl : t₀.lstat cwd p = .error .notFound) : t₀.node? (P ++ [name]) = none := by
  obtain ⟨k, hk0, hk⟩ := fuel_of_skipped hroot hP hb.skipped
  unfold lstat at hl
  rw [hb.locate_eq hk (Extends.refl t₀) false] at hl
  obtain ⟨k, rfl⟩ : ∃ k', k = k' + 1 := ⟨k - 1, by omega⟩
  have hname := hb.names name List.mem_cons_self
  by_cases hsize : name.utf8ByteSize > 255
  · simp [walk_cons_long hsize, bind, Except.bind] at hl
  rw [walk_cons_name hsize ⟨hname.1, hname.2.1, hname.2.2.1⟩] at hl
  rcases hnode : t₀.node? (P ++ [name]) with _ | _ | ⟨data, mode⟩ | target
  · rfl
  · -- a directory: the walk ends there, or runs out of steps
    simp only [hnode] at hl
    cases k <;> simp [walk, bind, Except.bind, hnode, pure, Except.pure] at hl
  · simp [hnode, bind, Except.bind, pure, Except.pure] at hl
  · simp [hnode, bind, Except.bind, pure, Except.pure] at hl

/-- In a tree grown at the name, a path below the name resolves, when it does, to the location
of its names. -/
theorem GrownAt.locate_beneath (h : GrownAt t₀ (P ++ [name]) t)
    (hb : Beneath cwd root pre name p rel) (hl : t.locate cwd p f = .ok L) :
    L = P ++ name :: rel := by
  obtain ⟨k, -, hk⟩ := fuel_of_skipped hroot hP hb.skipped
  rw [hb.locate_eq hk (h.extends_ (by simp)) f] at hl
  exact h.walk_beneath hb.names hl

/-- Through directories, making a directory below the name never fails for want of a parent. -/
theorem GrownAt.mkdir_ne_notFound (h : GrownAt t₀ (P ++ [name]) t)
    (hb : Beneath cwd root pre name p rel)
    (hdirs : ∀ ys, ys <+: rel → ys ≠ rel → t.node? (P ++ name :: ys) = some .dir) :
    t.mkdir cwd p ≠ .error .notFound := by
  obtain ⟨k, -, hk⟩ := fuel_of_skipped hroot hP hb.skipped
  have hwalk : t.walk false k P (name :: rel) ≠ .error .notFound := by
    refine walk_dirs_ne_notFound _ _ _ (List.cons_ne_nil _ _) hb.names fun ys hys hpre hne => ?_
    obtain ⟨y, ys, rfl⟩ := List.exists_cons_of_ne_nil hys
    obtain ⟨rfl, hpre'⟩ := List.cons_prefix_cons.1 hpre
    simpa using hdirs ys hpre' (by simpa using hne)
  unfold mkdir
  rw [hb.locate_eq hk (h.extends_ (by simp)) false]
  cases hw : t.walk false k P (name :: rel) with
  | error e =>
    rw [hw] at hwalk
    simpa [bind, Except.bind] using hwalk
  | ok L =>
    -- what is found there is in the way, or the directory is made
    simp only [bind, Except.bind]
    split
    · simp [throw, throwThe, MonadExceptOf.throw]
    · split <;> simp [throw, throwThe, MonadExceptOf.throw, pure, Except.pure]


/-- Making a directory below the name puts it where the path's names lead, where nothing is. -/
theorem GrownAt.mkdir_beneath (h : GrownAt t₀ (P ++ [name]) t)
    (hb : Beneath cwd root pre name p rel) (hm : t.mkdir cwd p = .ok t') :
    t.node? (P ++ name :: rel) = none ∧ t' = t.put (P ++ name :: rel) .dir := by
  unfold mkdir at hm
  obtain ⟨L, hL, hm⟩ := except_bind_eq_ok.1 hm
  obtain rfl := h.locate_beneath hroot hP hb hL
  rw [if_neg (by simp)] at hm
  rcases hnode : t.node? (P ++ name :: rel) with _ | n <;> simp only [hnode] at hm
  · cases hm
    exact ⟨rfl, rfl⟩
  · cases hm

/-- Making a directory with its parents, below the name and through directories, makes that
directory alone, or finds one there: the tree stays grown, keeps its directories, and has the
directory. -/
theorem GrownAt.mkdirAll_beneath (h : GrownAt t₀ (P ++ [name]) t) (hPnames : ∀ x ∈ P, IsName x)
    (hb : Beneath cwd root pre name p rel)
    (hdirs : ∀ ys, ys <+: rel → ys ≠ rel → t.node? (P ++ name :: ys) = some .dir)
    (hm : t.mkdirAll cwd p = .ok t') :
    GrownAt t₀ (P ++ [name]) t' ∧ KeepsDirs t t' ∧ t'.node? (P ++ name :: rel) = some .dir := by
  rcases mkdirAll_of_mkdir hb.ne_empty (h.mkdir_ne_notFound hroot hP hb hdirs) hm with hmk | ⟨hdir, rfl⟩
  · obtain ⟨hnone, rfl⟩ := h.mkdir_beneath hroot hP hb hmk
    exact ⟨h.put ⟨rel, by simp⟩ rfl (hb.names_append hPnames), KeepsDirs.put (by simp [hnone]),
      node?_put_self (by simp)⟩
  · -- a directory is there already
    obtain ⟨L, hL, hnode⟩ := stat_ok (stat_of_isDir hdir)
    obtain rfl := h.locate_beneath hroot hP hb hL
    exact ⟨h, KeepsDirs.refl _, hnode⟩

/-- Writing a file below the name puts the file where the path's names lead, over no
directory. -/
theorem GrownAt.writeBytes_beneath (h : GrownAt t₀ (P ++ [name]) t) (hPnames : ∀ x ∈ P, IsName x)
    (hb : Beneath cwd root pre name p rel) {data : List UInt8}
    (hw : t.writeBytes cwd p data = .ok t') :
    GrownAt t₀ (P ++ [name]) t' ∧ KeepsDirs t t' ∧
      ∃ mode, t' = t.put (P ++ name :: rel) (.file data mode) := by
  obtain ⟨L, hL, hnotdir, mode, rfl⟩ := writeBytes_ok hw
  obtain rfl := h.locate_beneath hroot hP hb hL
  exact ⟨h.put ⟨rel, by simp⟩ rfl (hb.names_append hPnames),
    KeepsDirs.put fun hdir => absurd hdir hnotdir, mode, rfl⟩

theorem GrownAt.chmod_beneath (h : GrownAt t₀ (P ++ [name]) t) (hPnames : ∀ x ∈ P, IsName x)
    (hb : Beneath cwd root pre name p rel) {mode : Nat} (hc : t.chmod cwd p mode = .ok t') :
    GrownAt t₀ (P ++ [name]) t' ∧ KeepsDirs t t' := by
  unfold chmod at hc
  obtain ⟨L, hL, hc⟩ := except_bind_eq_ok.1 hc
  obtain rfl := h.locate_beneath hroot hP hb hL
  rcases hnode : t.node? (P ++ name :: rel) with _ | _ | ⟨data, mode'⟩ | target <;>
    simp only [hnode] at hc
  · cases hc
  · cases hc
    exact ⟨h, KeepsDirs.refl _⟩
  · -- a file takes the new permission bits
    cases hc
    exact ⟨h.put ⟨rel, by simp⟩ rfl (hb.names_append hPnames), KeepsDirs.put (by simp [hnode])⟩
  · cases hc
    exact ⟨h, KeepsDirs.refl _⟩

/-- Copying a file to a path below the name writes the file there and sets its permission bits:
the tree stays grown and keeps its directories. -/
theorem GrownAt.copyFile_beneath (h : GrownAt t₀ (P ++ [name]) t) (hPnames : ∀ x ∈ P, IsName x)
    (hb : Beneath cwd root pre name p rel) {src : String} (hc : t.copyFile cwd src p = .ok t') :
    GrownAt t₀ (P ++ [name]) t' ∧ KeepsDirs t t' := by
  unfold copyFile at hc
  obtain ⟨n, -, hc⟩ := except_bind_eq_ok.1 hc
  cases n with
  | file data mode =>
    obtain ⟨t₁, hw, hc⟩ := except_bind_eq_ok.1 hc
    obtain ⟨h₁, hdirs₁, -⟩ := h.writeBytes_beneath hroot hP hPnames hb hw
    obtain ⟨h₂, hdirs₂⟩ := h₁.chmod_beneath hroot hP hPnames hb hc
    exact ⟨h₂, hdirs₁.trans hdirs₂⟩
  | dir => cases hc
  | link _ => cases hc

/-- Moving a file between two paths below the name moves it between their locations, and leaves
every location below neither. -/
theorem GrownAt.rename_beneath (h : GrownAt t₀ (P ++ [name]) t) (hPnames : ∀ x ∈ P, IsName x)
    {src dst : String} {preS preT relS relT : List String}
    (hS : Beneath cwd root preS name src relS) (hT : Beneath cwd root preT name dst relT)
    (hne : relS ≠ relT) {data : List UInt8} {mode : Nat}
    (hfile : t.node? (P ++ name :: relS) = some (.file data mode))
    (hr : t.rename cwd src dst = .ok t') :
    GrownAt t₀ (P ++ [name]) t' ∧ t'.node? (P ++ name :: relT) = some (.file data mode) ∧
      ∀ l, ¬ (P ++ name :: relS) <+: l → ¬ (P ++ name :: relT) <+: l → t'.node? l = t.node? l := by
  obtain ⟨S, T, hSl, hTl⟩ := rename_locate hr
  obtain rfl := h.locate_beneath hroot hP hS hSl
  obtain rfl := h.locate_beneath hroot hP hT hTl
  obtain ⟨-, -, rfl⟩ := rename_file_ok hr hSl hTl hfile (by simpa using hne)
  exact ⟨h.moveEntry ⟨relS, by simp⟩ ⟨relT, by simp⟩ rfl (hT.names_append hPnames),
    node?_moveEntry_dst (by simp), fun l hs ht => node?_moveEntry_of_not_prefix hs ht⟩

/-- A link made at the name is put at its location, where nothing is. -/
theorem GrownAt.symlink_beneath (h : GrownAt t₀ (P ++ [name]) t)
    (hb : Beneath cwd root pre name p []) {target : String} (hs : t.symlink cwd target p = .ok t') :
    t.node? (P ++ [name]) = none ∧ t' = t.put (P ++ [name]) (.link target) ∧
      t'.locate cwd p false = .ok (P ++ [name]) := by
  unfold symlink at hs
  obtain ⟨L, hL, hs⟩ := except_bind_eq_ok.1 hs
  obtain rfl := h.locate_beneath hroot hP hb hL
  rw [if_neg (by simp)] at hs
  rcases hnode : t.node? (P ++ [name]) with _ | n <;> simp only [hnode] at hs
  · cases hs
    refine ⟨rfl, rfl, ?_⟩
    -- the path is resolved as before, and stops at the link
    obtain ⟨k, -, hk⟩ := fuel_of_skipped hroot hP hb.skipped
    have hext : t₀.Extends (t.put (P ++ [name]) (.link target)) :=
      (h.extends_ (by simp)).trans (Extends.put hnode)
    rw [hb.locate_eq hk (h.extends_ (by simp)) false] at hL
    rw [hb.locate_eq hk hext false]
    exact walk_put_link_last (hb.names name List.mem_cons_self) hL
  · cases hs

end Resolve

end FileTree

end Provisioning
