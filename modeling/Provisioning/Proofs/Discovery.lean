import Provisioning.Proofs.Catalog
import Provisioning.Proofs.SortedNames
import Provisioning.Proofs.FileTree.Frame
/-!
What discovery finds.

Discovery looks at the children of the directories it is given, directory by directory, and in
each directory at the entries it lists that are not hidden, in the order it lists them, which is
name order (`readDir_sorted`); a path that is no directory has no children (`children`). A child
holds an extension when it is an extension directory that is identified under a valid name
(`Catalog.Holds`), and the extension's manifest is read from it as `Manifest.Reads` says: parsed
when the file parses, the empty manifest when there is no file, and the empty manifest with the
reason otherwise (`Manifest.reads_iff`).

Scanning a directory never fails: it inserts what each child holds (`scan_eq`). Inserting keeps
the first extension of each name and the names in strict order (`get?_foldl_insert`,
`sorted_foldl_insert`), so the catalog of several directories has the names some child holds,
each with the extension of the first child that holds one of that name (`discoverAll_spec`).
-/

namespace Provisioning

/-! ## Reading a manifest -/

namespace Manifest

/-- How the manifest of an extension directory is read from its manifest file: parsed when the
file parses, the empty manifest when there is no file, and the empty manifest with the reason
when the file cannot be read or does not parse. -/
inductive Reads (m : Machine) (dir : String) : Manifest → ManifestStatus → Prop
  | loaded {text : String} {man : Manifest} :
      m.readTextIfExists (Path.join dir fileName) = .ok (some text) →
      parse text (Path.join dir fileName) = .ok man → Reads m dir man .loaded
  | absent : m.readTextIfExists (Path.join dir fileName) = .ok none → Reads m dir {} .absent
  | unreadable {e : Error} : m.readTextIfExists (Path.join dir fileName) = .error e →
      Reads m dir {} (.invalid e.message)
  | invalid {text : String} {e : Error} :
      m.readTextIfExists (Path.join dir fileName) = .ok (some text) →
      parse text (Path.join dir fileName) = .error e → Reads m dir {} (.invalid e.message)

/-- A manifest that does not parse is refused as a parse error of its own path. -/
theorem parse_error {content path : String} {e : Error} (h : parse content path = .error e) :
    ∃ reason, e = .manifestParse path reason := by
  unfold parse at h
  split at h
  · cases h
    exact ⟨_, rfl⟩
  · dsimp only at h
    split at h
    · cases h
      exact ⟨_, rfl⟩
    · cases h

end Manifest

/-- A file that cannot be read is refused as a store error of its own path. -/
theorem Machine.readTextIfExists_error {m : Machine} {p : String} {e : Error}
    (h : m.readTextIfExists p = .error e) : ∃ o, e = Machine.fsError p o := by
  unfold Machine.readTextIfExists at h
  cases hread : m.files.readTextIfExists m.cwd p with
  | error o =>
    rw [hread] at h
    cases h
    exact ⟨o, rfl⟩
  | ok _ =>
    rw [hread] at h
    cases h

theorem Except.toOption_eq_some {ε α : Type} {x : Except ε α} {a : α} :
    x.toOption = some a ↔ x = .ok a := by
  cases x <;> simp [Except.toOption]

namespace Manifest

/-- `load` reads a manifest as `Reads` says: neither a failed read nor a failed parse is taken
for a missing file. -/
theorem reads_load (m : Machine) (dir : String) : Reads m dir (load m dir).1 (load m dir).2 := by
  cases hread : m.readTextIfExists (Path.join dir fileName) with
  | error e =>
    obtain ⟨o, rfl⟩ := Machine.readTextIfExists_error hread
    have hload :
        load m dir = ({}, .invalid (Machine.fsError (Path.join dir fileName) o).message) := by
      simp [load, fromPath, hread, Machine.fsError, bind, Except.bind]
    rw [hload]
    exact .unreadable hread
  | ok read =>
    cases read with
    | none =>
      have hload : load m dir = ({}, .absent) := by
        simp [load, fromPath, hread, bind, Except.bind, throw, throwThe, MonadExceptOf.throw]
      rw [hload]
      exact .absent hread
    | some text =>
      cases hparse : parse text (Path.join dir fileName) with
      | ok man =>
        have hload : load m dir = (man, .loaded) := by
          simp [load, fromPath, hread, hparse, bind, Except.bind]
        rw [hload]
        exact .loaded hread hparse
      | error e =>
        obtain ⟨reason, rfl⟩ := parse_error hparse
        have hload : load m dir =
            ({}, .invalid (Error.manifestParse (Path.join dir fileName) reason).message) := by
          simp [load, fromPath, hread, hparse, bind, Except.bind]
        rw [hload]
        exact .invalid hread hparse

/-- What the manifest file holds decides how it is read. -/
theorem Reads.unique {m : Machine} {dir : String} {man man' : Manifest}
    {st st' : ManifestStatus} (h : Reads m dir man st) (h' : Reads m dir man' st') :
    man = man' ∧ st = st' := by
  cases h <;> cases h' <;> simp_all

/-- `load` gives exactly the manifest and status that `Reads` describes. -/
theorem reads_iff {m : Machine} {dir : String} {man : Manifest} {st : ManifestStatus} :
    Reads m dir man st ↔ load m dir = (man, st) := by
  constructor
  · intro h
    obtain ⟨hman, hst⟩ := (reads_load m dir).unique h
    rw [← hman, ← hst]
  · intro h
    have hread := reads_load m dir
    rw [h] at hread
    exact hread

end Manifest

/-! ## Inserting, first one wins -/

/-- In a list whose keys are all different, what `lookup` finds is what the list holds. -/
theorem List.lookup_eq_some_iff_mem {β : Type} {l : List (String × β)}
    (hl : (l.map Prod.fst).Nodup) {k : String} {v : β} : l.lookup k = some v ↔ (k, v) ∈ l := by
  induction l with
  | nil => simp
  | cons kv rest ih =>
    obtain ⟨k', v'⟩ := kv
    rw [List.map_cons, List.nodup_cons] at hl
    by_cases hk : k = k'
    · subst hk
      -- the head has the key, and no later entry does
      have hrest : (k, v) ∉ rest := fun hmem => hl.1 (List.mem_map.mpr ⟨_, hmem, rfl⟩)
      simp [hrest, eq_comm]
    · simp [List.lookup_cons, beq_false_of_ne hk, hk, ih hl.2]

/-- Reordering a list whose keys are all different changes no lookup. -/
theorem List.lookup_eq_of_perm {β : Type} {l l' : List (String × β)} (hp : l.Perm l')
    (hl : (l.map Prod.fst).Nodup) (k : String) : l.lookup k = l'.lookup k := by
  have hl' : (l'.map Prod.fst).Nodup := (hp.map Prod.fst).nodup_iff.mp hl
  cases hfound : l'.lookup k with
  | some v =>
    have hmem := hp.mem_iff.mpr ((List.lookup_eq_some_iff_mem hl').mp hfound)
    exact (List.lookup_eq_some_iff_mem hl).mpr hmem
  | none =>
    cases hv : l.lookup k with
    | none => rfl
    | some v =>
      have hmem := hp.mem_iff.mp ((List.lookup_eq_some_iff_mem hl).mp hv)
      rw [(List.lookup_eq_some_iff_mem hl').mpr hmem] at hfound
      cases hfound

namespace Catalog

theorem mem_names_iff_contains {c : Catalog} {n : String} :
    n ∈ c.names ↔ c.contains n = true := by
  simp [names, contains]

theorem isSome_get?_iff_contains {c : Catalog} {n : String} :
    (c.get? n).isSome ↔ c.contains n = true := by
  rw [get?, List.lookup_isSome_iff, contains, List.any_eq_true]
  constructor <;> rintro ⟨kv, hkv, hk⟩ <;>
    exact ⟨kv, hkv, beq_iff_eq.mpr (beq_iff_eq.mp hk).symm⟩

/-- Adding an entry under a name the catalog does not contain keeps the names all different. -/
theorem nodup_append_of_not_contains {c : Catalog} (hc : c.names.Nodup) {e : Extension}
    (hnone : ¬c.contains e.name = true) : ((c.entries ++ [(e.name, e)]).map Prod.fst).Nodup := by
  simp only [List.map_append, List.map_cons, List.map_nil, List.nodup_append]
  refine ⟨hc, List.nodup_singleton _, ?_⟩
  intro a ha b hb
  rw [List.mem_singleton] at hb
  subst hb
  rintro rfl
  exact hnone (mem_names_iff_contains.mp ha)

/-- Inserting into a catalog whose names are all different gives a name the extension it had,
or else the inserted one when it has that name. -/
theorem get?_insert {c : Catalog} (hc : c.names.Nodup) (e : Extension) (n : String) :
    (c.insert e).get? n = (c.get? n).or (if e.name = n then some e else none) := by
  unfold insert
  split
  · next hany =>
    -- the name is taken: where the new extension would be found, the old one is
    by_cases he : e.name = n
    · subst he
      obtain ⟨old, hold⟩ := Option.isSome_iff_exists.mp (isSome_get?_iff_contains.mpr hany)
      simp [hold]
    · simp [he]
  · next hnone =>
    have hnd := nodup_append_of_not_contains hc hnone
    rw [get?, ← List.lookup_eq_of_perm (Text.sortByKey_perm _).symm hnd, List.lookup_append, get?]
    by_cases he : e.name = n
    · subst he
      simp
    · simp [List.lookup_cons, he, beq_false_of_ne (Ne.symm he)]

/-- Inserting keeps the names in strict order. -/
theorem sorted_insert {c : Catalog} (hc : c.names.Pairwise (· < ·)) (e : Extension) :
    (c.insert e).names.Pairwise (· < ·) := by
  unfold insert
  split
  · exact hc
  · next hnone =>
    -- the new names are sorted by `sortByKey`, and all different as the name is new
    have hnd := nodup_append_of_not_contains (hc.imp ne_of_lt) hnone
    have hperm := (Text.sortByKey_perm (c.entries ++ [(e.name, e)])).map Prod.fst
    have hle := List.pairwise_map.mpr (Text.pairwise_sortByKey (c.entries ++ [(e.name, e)]))
    exact (hle.and (hperm.nodup_iff.mpr hnd)).imp fun h => lt_of_le_of_ne h.1 h.2

/-- Inserting extensions in turn into a catalog whose names are in order keeps them in order. -/
theorem sorted_foldl_insert (es : List Extension) {c : Catalog} (hc : c.names.Pairwise (· < ·)) :
    (es.foldl insert c).names.Pairwise (· < ·) := by
  induction es generalizing c with
  | nil => exact hc
  | cons e es ih => exact ih (sorted_insert hc e)

/-- Inserting extensions in turn gives a name the extension the catalog had, or else the first
extension of that name. -/
theorem get?_foldl_insert (es : List Extension) {c : Catalog} (hc : c.names.Pairwise (· < ·))
    (n : String) : (es.foldl insert c).get? n = (c.get? n).or (es.find? (·.name == n)) := by
  induction es generalizing c with
  | nil => simp
  | cons e es ih =>
    rw [List.foldl_cons, ih (sorted_insert hc e), get?_insert (hc.imp ne_of_lt), List.find?_cons]
    by_cases he : e.name = n
    · simp [he]
    · simp [he, beq_false_of_ne he]

/-! ## Scanning directories -/

/-- A child directory holds the extension `e`: it is an extension directory identified as
`e.name` with short key `e.key`, the name is valid, `e` sits at the child, and its manifest is
the one read there. -/
structure Holds (m : Machine) (child : String) (e : Extension) : Prop where
  extensionDir : isExtensionDir m child = true
  identified : identify m child = .ok (e.name, e.key)
  valid : Name.isValid e.name = true
  path : e.path = child
  manifest : Manifest.Reads m child e.manifest e.manifestStatus

/-- The extension discovery takes from a child: the one read from it, when it is an extension
directory and can be identified. -/
def take? (m : Machine) (child : String) : Option Extension :=
  if isExtensionDir m child then (Extension.ofDir m child).toOption else none

/-- The children discovery looks at in a directory: the entries it lists that are not hidden,
in the order it lists them; a path that is no directory has none. -/
def visibleChildren (m : Machine) (dir : String) : List String :=
  if m.isDir dir then
    (((m.readDir dir).toOption.getD []).filter fun n => !n.startsWith ".").map (Path.join dir)
  else []

/-- The children discovery looks at in several directories, directory by directory. -/
def children (m : Machine) (dirs : List String) : List String := dirs.flatMap (visibleChildren m)

theorem ofDir_eq_ok_iff {m : Machine} {dir : String} {e : Extension} :
    Extension.ofDir m dir = .ok e ↔
      identify m dir = .ok (e.name, e.key) ∧ e.path = dir ∧
        Manifest.load m dir = (e.manifest, e.manifestStatus) := by
  unfold Extension.ofDir
  cases hid : identify m dir with
  | error err => simp [bind, Except.bind]
  | ok nk =>
    obtain ⟨name, key⟩ := nk
    generalize Manifest.load m dir = ld
    obtain ⟨man, st⟩ := ld
    cases e
    simp only [bind, Except.bind, pure, Except.pure, Except.ok.injEq, Extension.mk.injEq,
      Prod.mk.injEq]
    constructor
    · rintro ⟨rfl, rfl, rfl, rfl, rfl⟩
      simp
    · rintro ⟨⟨rfl, rfl⟩, rfl, rfl, rfl⟩
      simp

/-- Discovery takes from a child exactly the extension the child holds. -/
theorem take?_eq_some_iff {m : Machine} {child : String} {e : Extension} :
    take? m child = some e ↔ Holds m child e := by
  unfold take?
  constructor
  · intro h
    split at h
    · next hdir =>
      obtain ⟨hid, hpath, hload⟩ := ofDir_eq_ok_iff.mp (Except.toOption_eq_some.mp h)
      exact ⟨hdir, hid, identify_valid hid, hpath, Manifest.reads_iff.mpr hload⟩
    · cases h
  · intro h
    rw [if_pos h.extensionDir, Except.toOption_eq_some,
      ofDir_eq_ok_iff.mpr ⟨h.identified, h.path, Manifest.reads_iff.mp h.manifest⟩]

/-- A directory lists its entries in name order. -/
theorem readDir_sorted {m : Machine} {dir : String} {names : List String}
    (h : m.readDir dir = .ok names) : names.Pairwise (· ≤ ·) := by
  obtain ⟨L, rfl⟩ := FileTree.readDir_ok h
  exact Text.pairwise_sortStrings _

/-- Scanning a directory never fails: it inserts, in order, what each of its children holds. -/
theorem scan_eq (m : Machine) (c : Catalog) (dir : String) :
    scan m c dir = .ok (((visibleChildren m dir).filterMap (take? m)).foldl insert c) := by
  unfold scan visibleChildren
  by_cases hdir : m.isDir dir
  · obtain ⟨L, -, hread⟩ := FileTree.readDir_of_isDir hdir
    have hread' : m.readDir dir = .ok (m.files.childNames L) := hread
    simp only [hdir, Bool.not_true, Bool.false_eq_true, if_false, if_true, hread',
      Except.toOption, Option.getD_some]
    congr 1
    -- each child inserts what it holds, or leaves the catalog as it is
    generalize List.map _ _ = kids
    induction kids generalizing c with
    | nil => rfl
    | cons child rest ih =>
      rw [List.foldl_cons, List.filterMap_cons, take?]
      split
      · split
        · next e hofDir => simp [hofDir, Except.toOption, ih]
        · next err hofDir => simp [hofDir, Except.toOption, ih]
      · exact ih c
  · simp [hdir]

/-- Discovering in several directories never fails: it inserts, in order, what each child of
each directory holds. -/
theorem discoverAll_eq (m : Machine) (dirs : List String) :
    discoverAll m dirs = .ok (((children m dirs).filterMap (take? m)).foldl insert {}) := by
  unfold discoverAll
  generalize ({} : Catalog) = c
  induction dirs generalizing c with
  | nil => rfl
  | cons dir rest ih =>
    rw [List.foldlM_cons, scan_eq]
    simp only [bind, Except.bind, ih, children, List.flatMap_cons, List.filterMap_append,
      List.foldl_append]

/-- A path that is no directory adds nothing to a discovery. -/
theorem discoverAll_cons_of_not_isDir (m : Machine) {dir : String} (hdir : m.isDir dir = false)
    (dirs : List String) : discoverAll m (dir :: dirs) = discoverAll m dirs := by
  rw [discoverAll_eq, discoverAll_eq, children, List.flatMap_cons, visibleChildren,
    if_neg (by simp [hdir]), List.nil_append, children]

/-- Discovering in one directory is discovering in the list of it alone. -/
theorem discover_eq_discoverAll (m : Machine) (dir : String) :
    discover m dir = discoverAll m [dir] := by
  rw [discoverAll_eq, discover, scan_eq, children, List.flatMap_singleton]

/-- Discovering the extensions in several directories never fails. The names of the catalog
are in strict order, and they are exactly the names of the extensions that the children of the
directories hold. Each name has the extension of the first child that holds one of that name,
directory by directory and, within one, in the order it lists its entries, which is name order;
a path that is no directory has no children. -/
theorem discoverAll_spec (m : Machine) (dirs : List String) :
    ∃ c, discoverAll m dirs = .ok c ∧
      (∀ dir ∈ dirs, ∀ names, m.readDir dir = .ok names → names.Pairwise (· ≤ ·)) ∧
      c.names.Pairwise (· < ·) ∧
      (∀ n, n ∈ c.names ↔
        ∃ child ∈ children m dirs, ∃ e, Holds m child e ∧ e.name = n) ∧
      ∀ n e, c.get? n = some e ↔
        ∃ pre child post, children m dirs = pre ++ child :: post ∧ Holds m child e ∧
          e.name = n ∧ ∀ other ∈ pre, ∀ e', Holds m other e' → e'.name ≠ n := by
  set found := (children m dirs).filterMap (take? m)
  -- the catalog gives each name the first extension found of that name
  have hget : ∀ n, (found.foldl insert {}).get? n = found.find? (·.name == n) := by
    intro n
    rw [get?_foldl_insert found .nil]
    rfl
  refine ⟨_, discoverAll_eq m dirs, fun dir _ names h => readDir_sorted h,
    sorted_foldl_insert found .nil, fun n => ?names, fun n e => ?first⟩
  case names =>
    rw [mem_names_iff_contains, ← isSome_get?_iff_contains, hget, List.find?_isSome]
    simp only [found, List.mem_filterMap, take?_eq_some_iff, beq_iff_eq]
    constructor
    · rintro ⟨e, ⟨child, hchild, he⟩, rfl⟩
      exact ⟨child, hchild, e, he, rfl⟩
    · rintro ⟨child, hchild, e, he, rfl⟩
      exact ⟨e, ⟨child, hchild, he⟩, rfl⟩
  case first =>
    rw [hget, List.find?_filterMap, Option.bind_eq_some_iff]
    constructor
    · rintro ⟨child, hfind, htake⟩
      obtain ⟨hany, pre, post, hsplit, hpre⟩ := List.find?_eq_some_iff_append.mp hfind
      rw [htake] at hany
      refine ⟨pre, child, post, hsplit, take?_eq_some_iff.mp htake, by simpa using hany, ?_⟩
      -- an earlier child holding an extension of that name would have been found first
      intro other hother e' he' hname
      have hskip := hpre other hother
      rw [take?_eq_some_iff.mpr he'] at hskip
      simp [hname] at hskip
    · rintro ⟨pre, child, post, hsplit, hholds, rfl, hpre⟩
      refine ⟨child, List.find?_eq_some_iff_append.mpr ⟨?_, pre, post, hsplit, ?_⟩,
        take?_eq_some_iff.mpr hholds⟩
      · rw [take?_eq_some_iff.mpr hholds]
        simp
      · intro other hother
        cases htake : take? m other with
        | none => simp
        | some e' => simpa using hpre other hother e' (take?_eq_some_iff.mp htake)

end Catalog

end Provisioning
