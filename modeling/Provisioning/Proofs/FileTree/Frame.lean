import Provisioning.Proofs.FileTree.Resolution
import Provisioning.Proofs.Catalog
/-!
What the operations on a tree change.

A tree is read through `node?`, the entry at a location, and `childNames`,
the names directly inside one. Putting an entry changes `node?` at its
location only, and erasing one at and below its location only
(`node?_put_of_ne`, `node?_erase_of_not_prefix`); the names inside a
location change only when an entry one level below it comes or goes
(`childNames_put`, `childNames_erase`).

On top of these, each operation that writes is described by what it can
do when it succeeds: `writeBytes` puts a file where the path resolves
(`writeBytes_ok`), `unlink` erases the file there (`unlink_ok`), `rename`
moves the entry at the source, and what is below it, to the target
(`rename_file_ok`, `moveEntry`), and `mkdirAll` on a directory that exists
changes nothing (`mkdirAll_of_isDir`). Trees without links stay so.

`Plain` trees, with no links and only names between slashes in their
locations, are the ones the file system gives: every name listed inside a
directory is a name a path can give back.
-/

namespace Provisioning

namespace FileTree

open Provisioning.Path

variable {t : FileTree} {loc l R : List String} {n : Node}

/-! ## Entries at locations -/

/-- Putting at a location where there are entries changes what each of them holds. -/
theorem lookup_map_put (es : List (List String × Node)) :
    (es.map fun (k, m) => if k == loc then (k, n) else (k, m)).lookup l =
      (es.lookup l).map fun v => if l = loc then n else v := by
  induction es with
  | nil => rfl
  | cons e es ih =>
    obtain ⟨k, v⟩ := e
    by_cases hk : l = k
    · subst hk
      by_cases hl : l = loc <;> simp [hl]
    · have hbeq : (l == k) = false := by simpa using hk
      by_cases hkl : k = loc
      · subst hkl
        simpa [List.lookup_cons, hbeq] using ih
      · simpa [hkl, List.lookup_cons, hbeq] using ih

/-- Erasing entries by their locations hides exactly the locations erased. -/
theorem lookup_filter_erase (es : List (List String × Node)) :
    (es.filter fun (k, _) => !(loc.isPrefixOf k)).lookup l =
      if loc <+: l then none else es.lookup l := by
  induction es with
  | nil => simp
  | cons e es ih =>
    obtain ⟨k, v⟩ := e
    by_cases hk : loc <+: k
    · have hpre : loc.isPrefixOf k = true := List.isPrefixOf_iff_prefix.2 hk
      rw [List.filter_cons_of_neg (by simp [hpre]), ih]
      by_cases hkl : l = k
      · subst hkl
        simp [hk]
      · have hbeq : (l == k) = false := by simpa using hkl
        simp only [List.lookup_cons, hbeq]
    · have hpre : loc.isPrefixOf k = false := by
        rw [Bool.eq_false_iff]
        exact fun h => hk (List.isPrefixOf_iff_prefix.1 h)
      rw [List.filter_cons_of_pos (by simp [hpre])]
      by_cases hkl : l = k
      · subst hkl
        simp [hk]
      · have hbeq : (l == k) = false := by simpa using hkl
        simp only [List.lookup_cons, hbeq, ih]

theorem node?_put_self (hloc : loc ≠ []) : (t.put loc n).node? loc = some n := by
  unfold put node?
  rw [if_neg (by simpa using hloc)]
  split
  · next hany =>
    -- some entry is at the location, and the first one now holds `n`
    have hsome : (t.entries.lookup loc).isSome := by
      obtain ⟨e, he, hkey⟩ := List.any_eq_true.1 hany
      exact List.lookup_isSome_iff.2 ⟨e, he, beq_iff_eq.2 (beq_iff_eq.1 hkey).symm⟩
    rw [lookup_map_put]
    obtain ⟨v, hv⟩ := Option.isSome_iff_exists.1 hsome
    simp [hv]
  · next hany =>
    have hnone : t.entries.lookup loc = none := by
      rw [List.lookup_eq_none_iff]
      intro p hp
      have hne : ¬ (p.1 == loc) = true := List.any_eq_false.1 (Bool.eq_false_iff.2 hany) p hp
      rw [bne_iff_ne]
      exact fun h => hne (beq_iff_eq.2 h.symm)
    rw [List.lookup_append, hnone, Option.none_or]
    simp

theorem node?_put_of_ne (hl : l ≠ loc) : (t.put loc n).node? l = t.node? l := by
  unfold put node?
  split
  · rfl
  · split
    · rw [lookup_map_put]
      simp [hl]
    · rw [List.lookup_append]
      have : ([(loc, n)] : List (List String × Node)).lookup l = none := by simp [hl]
      rw [this, Option.or_none]

theorem node?_erase_of_not_prefix (hl : ¬ loc <+: l) : (t.erase loc).node? l = t.node? l := by
  unfold erase node?
  split
  · rfl
  · rw [lookup_filter_erase, if_neg hl]

theorem node?_erase_of_prefix (hne : l ≠ []) (hl : loc <+: l) : (t.erase loc).node? l = none := by
  unfold erase node?
  rw [if_neg (by simpa using hne), lookup_filter_erase, if_pos hl]

/-- Putting entries at locations other than `l`, one after another, leaves the entry at `l`. -/
theorem node?_foldl_put_of_ne {es : List (List String × Node)} (hes : ∀ e ∈ es, e.1 ≠ l) :
    ∀ t : FileTree, (es.foldl (fun acc e => acc.put e.1 e.2) t).node? l = t.node? l := by
  induction es with
  | nil => exact fun _ => rfl
  | cons e es ih =>
    intro t
    obtain ⟨k, m⟩ := e
    rw [List.foldl_cons, ih (fun e he => hes e (List.mem_cons_of_mem _ he)),
      node?_put_of_ne (Ne.symm (hes (k, m) List.mem_cons_self))]

/-! ## Names inside a location -/

/-- The names inside a location are read off the locations of the entries alone. -/
theorem childNames_eq_of_keys {t t' : FileTree}
    (h : t'.entries.map Prod.fst = t.entries.map Prod.fst) : t'.childNames R = t.childNames R := by
  have hf : ∀ u : FileTree, u.entries.filterMap (fun (l, _) =>
      if l.length = R.length + 1 && R.isPrefixOf l then l.getLast? else none) =
      (u.entries.map Prod.fst).filterMap fun l =>
        if l.length = R.length + 1 && R.isPrefixOf l then l.getLast? else none := by
    intro u
    rw [List.filterMap_map]
    rfl
  unfold childNames
  rw [hf t', hf t, h]

theorem childNames_put (h : loc.length ≠ R.length + 1) :
    (t.put loc n).childNames R = t.childNames R := by
  unfold put
  split
  · apply childNames_eq_of_keys
    rw [List.map_map]
    congr 1
    funext e
    obtain ⟨k, v⟩ := e
    show (if (k == loc) = true then (k, n) else (k, v)).1 = k
    split <;> rfl
  · unfold childNames
    simp [List.filterMap_append, h]

theorem childNames_erase (h : R.length + 1 < loc.length) :
    (t.erase loc).childNames R = t.childNames R := by
  unfold erase childNames
  congr 1
  rw [List.filterMap_filter]
  apply List.filterMap_congr
  intro e _
  obtain ⟨k, v⟩ := e
  -- an erased entry is too deep to be directly inside `R`
  by_cases hk : loc.isPrefixOf k = true
  · have hlen := (List.isPrefixOf_iff_prefix.1 hk).length_le
    have : k.length ≠ R.length + 1 := by omega
    simp [hk, this]
  · simp [hk]

theorem childNames_foldl_put {es : List (List String × Node)}
    (hes : ∀ e ∈ es, e.1.length ≠ R.length + 1) :
    ∀ t : FileTree, (es.foldl (fun acc e => acc.put e.1 e.2) t).childNames R = t.childNames R := by
  induction es with
  | nil => exact fun _ => rfl
  | cons e es ih =>
    intro t
    obtain ⟨k, m⟩ := e
    rw [List.foldl_cons, ih (fun e he => hes e (List.mem_cons_of_mem _ he)),
      childNames_put (hes (k, m) List.mem_cons_self)]

/-! ## Trees without links -/

theorem LinkFree.put (h : t.LinkFree) (hn : n.isLink = false) : (t.put loc n).LinkFree := by
  intro e he
  unfold FileTree.put at he
  split at he
  · obtain ⟨⟨k, v⟩, hkv, rfl⟩ := List.mem_map.1 he
    by_cases hk : (k == loc) = true
    · simpa [hk] using hn
    · simpa [hk] using h _ hkv
  · rcases List.mem_append.1 he with he | he
    · exact h e he
    · simp_all

theorem LinkFree.erase (h : t.LinkFree) : (t.erase loc).LinkFree :=
  fun e he => h e (List.mem_filter.1 he).1

theorem LinkFree.foldl_put {es : List (List String × Node)} (hes : ∀ e ∈ es, e.2.isLink = false) :
    ∀ t : FileTree, t.LinkFree → (es.foldl (fun acc e => acc.put e.1 e.2) t).LinkFree := by
  induction es with
  | nil => exact fun _ h => h
  | cons e es ih =>
    intro t h
    obtain ⟨k, m⟩ := e
    exact ih (fun e he => hes e (List.mem_cons_of_mem _ he)) _
      (h.put (hes (k, m) List.mem_cons_self))

/-- A tree whose locations are made of names, as a file system gives them; it may hold links. -/
def Named (t : FileTree) : Prop := ∀ e ∈ t.entries, ∀ x ∈ e.1, IsName x

instance : DecidablePred Named := fun t =>
  inferInstanceAs (Decidable (∀ e ∈ t.entries, ∀ x ∈ e.1, IsName x))

/-- A tree of directories and files whose locations are made of names, as a file system
gives them. -/
structure Plain (t : FileTree) : Prop where
  linkFree : t.LinkFree
  names : ∀ e ∈ t.entries, ∀ x ∈ e.1, IsName x

instance : DecidablePred Plain := fun t =>
  decidable_of_iff ((∀ e ∈ t.entries, e.2.isLink = false) ∧ ∀ e ∈ t.entries, ∀ x ∈ e.1, IsName x)
    ⟨fun h => ⟨h.1, h.2⟩, fun h => ⟨h.1, h.2⟩⟩

/-- Every name listed inside a location of a tree of names is a name. -/
theorem Named.isName_of_mem_childNames (h : t.Named) {c : String} (hc : c ∈ t.childNames R) :
    IsName c := by
  unfold childNames at hc
  obtain ⟨⟨k, v⟩, hkv, hlast⟩ := List.mem_filterMap.1 ((Text.sortStrings_perm _).mem_iff.1 hc)
  have hsome : k.getLast? = some c := by
    by_cases hk : (k.length = R.length + 1 && R.isPrefixOf k) = true
    · simpa [hk] using hlast
    · simp [hk] at hlast
  exact h _ hkv c (List.mem_of_getLast? hsome)

theorem Plain.isName_of_mem_childNames (h : t.Plain) {c : String} (hc : c ∈ t.childNames R) :
    IsName c :=
  Named.isName_of_mem_childNames h.names hc

/-! ## What the operations do -/

variable {cwd : List String} {p : String} {t' : FileTree}

/-- A write puts a file, with the bytes written, where the path resolves: at a location that is
not a directory. -/
theorem writeBytes_ok {data : List UInt8} (h : t.writeBytes cwd p data = .ok t') :
    ∃ L, t.locate cwd p true = .ok L ∧ t.node? L ≠ some .dir ∧
      ∃ mode, t' = t.put L (.file data mode) := by
  unfold writeBytes at h
  obtain ⟨L, hL, h⟩ := except_bind_eq_ok.1 h
  refine ⟨L, hL, ?_⟩
  rcases hnode : t.node? L with _ | _ | ⟨old, mode⟩ | target <;> simp only [hnode] at h
  · -- nothing there: a new file, unless the path ends with a slash
    split at h
    · cases h
    · cases h
      exact ⟨by simp, _, rfl⟩
  · cases h
  · cases h
    exact ⟨by simp, mode, rfl⟩
  · cases h

/-- Removing a file or link erases the entry where the path leads, which is no directory. -/
theorem unlink_ok (h : t.unlink cwd p = .ok t') :
    ∃ L, t.locate cwd p false = .ok L ∧ t.node? L ≠ none ∧ t.node? L ≠ some .dir ∧
      t' = t.erase L := by
  unfold unlink at h
  obtain ⟨L, hL, h⟩ := except_bind_eq_ok.1 h
  refine ⟨L, hL, ?_⟩
  rcases hnode : t.node? L with _ | _ | ⟨data, mode⟩ | target <;> simp only [hnode] at h
  · cases h
  · cases h
  · cases h
    exact ⟨by simp, by simp, rfl⟩
  · cases h
    exact ⟨by simp, by simp, rfl⟩

/-- Where nothing can be removed, in a tree without links, there is no file. -/
theorem isFile_of_unlink_notFound (hfree : t.LinkFree) (h : t.unlink cwd p = .error .notFound) :
    t.isFile cwd p = false := by
  unfold unlink at h
  unfold isFile stat
  rw [locate_follow hfree true false]
  cases hL : t.locate cwd p false with
  | error e => rfl
  | ok L =>
    rw [hL] at h
    simp only [bind, Except.bind] at h ⊢
    rcases hnode : t.node? L with _ | _ | ⟨data, mode⟩ | target <;> simp only [hnode] at h ⊢
    · rfl
    · cases h
    · cases h
    · cases h

/-- The tree a move leaves: the entry at the target, and what was below it, gone; the entry
from the source at the target; and what was below the source below the target. -/
def moveEntry (t : FileTree) (src dst : List String) (n : Node) : FileTree :=
  let moved := (t.below src).map fun (rel, m) => (dst ++ rel, m)
  let t := (t.erase dst).erase src
  moved.foldl (fun acc (l, m) => acc.put l m) (t.put dst n)

/-- What was below the source goes strictly below the target. -/
theorem mem_moved {src dst : List String} {e : List String × Node}
    (he : e ∈ (t.below src).map fun x => (dst ++ x.1, x.2)) :
    dst <+: e.1 ∧ dst.length < e.1.length ∧ ∃ k, (k, e.2) ∈ t.entries := by
  obtain ⟨⟨rel, m⟩, hb, rfl⟩ := List.mem_map.1 he
  obtain ⟨⟨k, v⟩, hkv, hsome⟩ := List.mem_filterMap.1 hb
  by_cases hk : (src.isPrefixOf k && decide (k.length > src.length)) = true
  · simp only [hk, if_true, Option.some.injEq, Prod.mk.injEq] at hsome
    obtain ⟨rfl, rfl⟩ := hsome
    have hlen : k.length > src.length := by simp_all
    exact ⟨List.prefix_append _ _, by simp; omega, k, hkv⟩
  · simp [hk] at hsome

theorem node?_moveEntry_of_not_prefix {src dst : List String} (hs : ¬ src <+: l)
    (hd : ¬ dst <+: l) : (t.moveEntry src dst n).node? l = t.node? l := by
  unfold moveEntry
  simp only
  rw [node?_foldl_put_of_ne (fun e he h => hd (by rw [← h]; exact (mem_moved he).1)),
    node?_put_of_ne (fun h => hd (by subst h; exact List.prefix_refl _)),
    node?_erase_of_not_prefix hs, node?_erase_of_not_prefix hd]

theorem node?_moveEntry_dst {src dst : List String} (hne : dst ≠ []) :
    (t.moveEntry src dst n).node? dst = some n := by
  unfold moveEntry
  simp only
  rw [node?_foldl_put_of_ne (fun e he h => by have := (mem_moved he).2.1; rw [h] at this; omega),
    node?_put_self hne]

theorem childNames_moveEntry {src dst : List String} (hs : R.length + 1 < src.length)
    (hd : R.length + 1 < dst.length) : (t.moveEntry src dst n).childNames R = t.childNames R := by
  unfold moveEntry
  simp only
  rw [childNames_foldl_put (fun e he => by have := (mem_moved he).2.1; omega),
    childNames_put (by omega), childNames_erase hs, childNames_erase hd]

theorem LinkFree.moveEntry (h : t.LinkFree) {src dst : List String} (hn : n.isLink = false) :
    (t.moveEntry src dst n).LinkFree := by
  unfold FileTree.moveEntry
  simp only
  refine LinkFree.foldl_put (fun e he => ?_) _ ((h.erase.erase).put hn)
  obtain ⟨-, -, k, hk⟩ := mem_moved he
  exact h (k, e.2) hk

/-- A rename that succeeds resolved both its paths. -/
theorem rename_locate {src dst : String} (h : t.rename cwd src dst = .ok t') :
    ∃ S D, t.locate cwd src false = .ok S ∧ t.locate cwd dst false = .ok D := by
  unfold rename at h
  obtain ⟨S, hS, h⟩ := except_bind_eq_ok.1 h
  obtain ⟨D, hD, -⟩ := except_bind_eq_ok.1 h
  exact ⟨S, D, hS, hD⟩

/-- A rename of a file to another location that succeeds found no directory at the target and
a target not below the source, and moved the file there. -/
theorem rename_file_ok {src dst : String} {S D : List String} {data : List UInt8} {mode : Nat}
    (h : t.rename cwd src dst = .ok t') (hS : t.locate cwd src false = .ok S)
    (hD : t.locate cwd dst false = .ok D) (hnode : t.node? S = some (.file data mode))
    (hSD : S ≠ D) :
    t.node? D ≠ some .dir ∧ ¬ S <+: D ∧ t' = t.moveEntry S D (.file data mode) := by
  unfold rename at h
  rw [hS, hD] at h
  simp only [bind, Except.bind, hnode, pure, Except.pure, beq_false_of_ne hSD,
    Bool.false_eq_true, if_false] at h
  rcases hD' : t.node? D with _ | _ | ⟨data', mode'⟩ | target <;> simp only [hD'] at h
  -- a directory at the target refuses a file
  case some.dir => cases h
  all_goals
    refine ⟨by simp, ?_⟩
    -- and a target below the source is refused
    by_cases hpre : S.isPrefixOf D = true
    · simp [hpre, throw, throwThe, MonadExceptOf.throw] at h
    · simp only [hpre, Bool.false_eq_true, if_false, Except.ok.injEq] at h
      exact ⟨fun hp => hpre (List.isPrefixOf_iff_prefix.2 hp), h ▸ rfl⟩

theorem stat_ok {n : Node} (h : t.stat cwd p = .ok n) :
    ∃ L, t.locate cwd p true = .ok L ∧ t.node? L = some n := by
  unfold stat at h
  obtain ⟨L, hL, h⟩ := except_bind_eq_ok.1 h
  refine ⟨L, hL, ?_⟩
  rcases hnode : t.node? L with _ | m <;> simp only [hnode] at h
  · cases h
  · split at h
    · cases h
    · cases h
      rfl

theorem isDir_of_locate {L : List String} (hl : t.locate cwd p true = .ok L)
    (hnode : t.node? L = some .dir) : t.isDir cwd p = true := by
  unfold isDir stat
  simp [hl, bind, Except.bind, hnode, pure, Except.pure, Node.isDir]

theorem stat_of_isDir (h : t.isDir cwd p = true) : t.stat cwd p = .ok .dir := by
  unfold isDir at h
  split at h
  · next m hm =>
    cases m <;> simp_all [Node.isDir]
  · cases h

/-- Whether a path that resolves is a file is read off the entry at its location. -/
theorem isFile_of_locate (hends : p.endsWith "/" = false) {L : List String}
    (hl : t.locate cwd p true = .ok L) :
    t.isFile cwd p = ((t.node? L).map Node.isFile).getD false := by
  unfold isFile
  rw [stat_of_locate hends hl]
  cases t.node? L <;> rfl

/-- After a change that kept the way to a directory, whether a name inside it is a file is read
off the entry at the name's location. -/
theorem isFile_join_name_congr (h : t.LinkFree) (h' : t'.LinkFree) {d x : String} (hd : d ≠ "")
    (hx : IsName x) (hup : ".." ∉ split d)
    (hway : ∀ l, l <+: lexical cwd d → t'.node? l = t.node? l)
    (hend : t.node? (lexical cwd (join d x)) ≠ some .dir)
    (hend' : t'.node? (lexical cwd (join d x)) ≠ some .dir)
    {L : List String} (hl : t.locate cwd (join d x) false = .ok L) :
    t'.isFile cwd (join d x) = ((t'.node? L).map Node.isFile).getD false := by
  rw [lexical_join_name hd hx] at hend hend'
  exact isFile_of_locate (endsWith_join_name hd hx)
    ((locate_join_name_congr h' h hd hx hup hway hend' hend true false).trans hl)

/-- A directory lists the names inside its location. -/
theorem readDir_of_isDir (h : t.isDir cwd p = true) :
    ∃ L, t.locate cwd p true = .ok L ∧ t.readDir cwd p = .ok (t.childNames L) := by
  obtain ⟨L, hL, hnode⟩ := stat_ok (stat_of_isDir h)
  refine ⟨L, hL, ?_⟩
  simp [readDir, hL, bind, Except.bind, hnode, pure, Except.pure]

/-- What a directory lists is a location's names. -/
theorem readDir_ok {entries : List String} (h : t.readDir cwd p = .ok entries) :
    ∃ L, entries = t.childNames L := by
  unfold readDir at h
  obtain ⟨L, -, h⟩ := except_bind_eq_ok.1 h
  rcases hnode : t.node? L with _ | _ | ⟨data, mode⟩ | target <;> simp only [hnode] at h
  · cases h
  · cases h
    exact ⟨L, rfl⟩
  · cases h
  · cases h

/-- In a tree of names every name a directory lists is a name. -/
theorem Named.isName_of_readDir (h : t.Named) {entries : List String}
    (hread : t.readDir cwd p = .ok entries) {c : String} (hc : c ∈ entries) : IsName c := by
  obtain ⟨L, rfl⟩ := readDir_ok hread
  exact h.isName_of_mem_childNames hc

theorem Plain.isName_of_readDir (h : t.Plain) {entries : List String}
    (hread : t.readDir cwd p = .ok entries) {c : String} (hc : c ∈ entries) : IsName c :=
  Named.isName_of_readDir h.names hread hc

theorem isDir_empty : t.isDir cwd "" = false := by
  simp [isDir, stat, locate, bind, Except.bind]

/-- Making a directory that is there already changes nothing, in a tree without links. -/
theorem mkdirAll_of_isDir (hfree : t.LinkFree) {q : String} (hq : t.isDir cwd q = true) :
    t.mkdirAll cwd q = .ok t := by
  -- `q` resolves to a directory, so making it fails with "file exists" and is forgiven
  obtain ⟨L, hL, hnode⟩ := stat_ok (stat_of_isDir hq)
  rw [locate_follow hfree true false] at hL
  have hne : q.isEmpty = false := by
    cases hq' : q.isEmpty
    · rfl
    · have : q = "" := by simpa using hq'
      subst this
      simp [locate] at hL
  have hmkdir : t.mkdir cwd q = .error .alreadyExists := by
    unfold mkdir
    rw [hL]
    simp only [bind, Except.bind]
    split
    · rfl
    · simp [hnode, throw, throwThe, MonadExceptOf.throw]
  unfold mkdirAll
  rw [mkdirAll.go, if_neg (by simp [hne]), hmkdir]
  simp [hq]

end FileTree

end Provisioning
