import Provisioning.Marker
import Provisioning.Seed
import Provisioning.Proofs.Catalog
/-!
Where the file marker store puts an extension's marker.

The catalog and the marker store find an extension's directory in two
ways. The catalog looks at the entries of the extensions root in order,
passing over hidden ones, and keeps for each name the first directory that
identifies as it (`discover_found`). The marker store takes the directory
named after the extension whenever there is one, whatever that directory
identifies as, and otherwise the first directory listed under the root that
identifies as the name, hidden ones included.

So the store picks the extension's own directory exactly when the
directory named after the extension is its own or, when there is no such
directory, no directory listed before its own identifies as the same name
(`extensionDir?_discovered`). A directory named after one extension that
holds another is where the two part (`markerPath_other_directory`), and
there the store's laws fail: `list` names directories by what they
identify as, while `set`, `exists_` and `clear` go to the directory named
after the name (`markerLaws_misnamed`).
-/

namespace Provisioning

/-! ## What the catalog keeps -/

theorem Extension.ofDir_ok {m : Machine} {dir : String} {e : Extension}
    (h : Extension.ofDir m dir = .ok e) : e.path = dir ∧ identify m dir = .ok (e.name, e.key) := by
  unfold Extension.ofDir at h
  obtain ⟨⟨name, key⟩, hid, h⟩ := except_bind_eq_ok.mp h
  cases h
  exact ⟨rfl, hid⟩

theorem isDir_of_isExtensionDir {m : Machine} {dir : String} (h : isExtensionDir m dir = true) :
    m.isDir dir = true := by
  unfold isExtensionDir at h
  exact (Bool.and_eq_true _ _ ▸ h).1

namespace Catalog

/-- An extension that scanning a directory added sits in one of the directory's entries, which
is a directory that identifies as the extension. -/
theorem found_of_scan {m : Machine} {dir : String} {c c' : Catalog} (h : scan m c dir = .ok c')
    {x : String × Extension} (hx : x ∈ c'.entries) :
    x ∈ c.entries ∨ ∃ entries, m.readDir dir = .ok entries ∧
      x.2.path ∈ entries.map (Path.join dir) ∧ m.isDir x.2.path = true ∧
      identify m x.2.path = .ok (x.2.name, x.2.key) := by
  unfold scan at h
  split at h
  · cases h
    exact .inl hx
  · split at h
    · cases h
    · next entries hread =>
      cases h
      generalize hl : List.map _ _ = children at hx
      have hsub : ∀ d ∈ children, d ∈ entries.map (Path.join dir) := by
        rw [← hl]
        exact fun d hd => List.map_subset _ List.filter_sublist.subset hd
      clear hl
      refine (?_ : x ∈ c.entries ∨ _).imp id fun h => ⟨entries, hread, h⟩
      -- each step adds an extension found in a listed directory, or nothing
      induction children generalizing c with
      | nil => exact .inl hx
      | cons child rest ih =>
        rw [List.foldl_cons] at hx
        rcases ih hx (fun d hd => hsub d (List.mem_cons_of_mem _ hd)) with hx | hx
        · split at hx
          · next hext =>
            split at hx
            · next e hof =>
              rcases mem_insert hx with hx | rfl
              · exact .inl hx
              · obtain ⟨hpath, hid⟩ := Extension.ofDir_ok hof
                rw [hpath]
                exact .inr ⟨hsub child List.mem_cons_self, isDir_of_isExtensionDir hext, hid⟩
            · exact .inl hx
          · exact .inl hx
        · exact .inr hx

end Catalog

/-- An extension of a discovered catalog sits in a directory listed under the root, which
identifies as the extension's name. -/
theorem discover_found {m : Machine} {root : String} {c : Catalog} {name : String}
    {e : Extension} (hd : Catalog.discover m root = .ok c) (he : c.get? name = some e) :
    ∃ entries, m.readDir root = .ok entries ∧ e.path ∈ entries.map (Path.join root) ∧
      m.isDir e.path = true ∧ identify m e.path = .ok (name, e.key) := by
  have hname := (Catalog.discover_keyed hd).name_of_get? he
  obtain ⟨l₁, l₂, hsplit, -⟩ := List.lookup_eq_some_iff.mp he
  have hmem : (name, e) ∈ c.entries := by simp [hsplit]
  rcases Catalog.found_of_scan hd hmem with h | h
  · cases h
  · rw [← hname]
    exact h

/-! ## Where the store looks -/

/-- The entries of a list before the first `x`, then `x`. -/
theorem List.eq_takeWhile_append {α : Type} [DecidableEq α] {l : List α} {x : α} (hx : x ∈ l) :
    ∃ rest, l = l.takeWhile (· != x) ++ x :: rest := by
  induction l with
  | nil => cases hx
  | cons y l ih =>
    by_cases hy : y = x
    · subst hy
      exact ⟨l, by simp⟩
    · obtain ⟨rest, hrest⟩ := ih ((List.mem_cons.mp hx).resolve_left (Ne.symm hy))
      exact ⟨rest, by simp [hy, ← hrest]⟩

/-- Before the first `x` come exactly the entries before an `x` when none of them is `x`. -/
theorem List.takeWhile_ne_of_eq_append {α : Type} [DecidableEq α] {l as bs : List α} {x : α}
    (h : l = as ++ x :: bs) (hx : x ∉ as) : l.takeWhile (· != x) = as := by
  subst h
  rw [List.takeWhile_append_of_pos (fun a ha => by simpa using ne_of_mem_of_not_mem ha hx),
    List.takeWhile_cons_of_neg (by simp)]
  exact List.append_nil as

/-- The marker store picks a discovered extension's own directory exactly when the directory
named after the extension, if there is one, is its own, and, if there is none, no directory
listed under the root before its own identifies as the extension. -/
theorem extensionDir?_discovered {m : Machine} {root : String} {c : Catalog} {name : String}
    {e : Extension} (hd : Catalog.discover m root = .ok c) (he : c.get? name = some e) :
    ∃ entries, m.readDir root = .ok entries ∧
      (MarkerStore.extensionDir? m root name = some e.path ↔
        if m.isDir (Path.join root name) then Path.join root name = e.path
        else ∀ d ∈ (entries.map (Path.join root)).takeWhile (· != e.path),
          ¬ (m.isDir d = true ∧ (identify m d).map Prod.fst = .ok name)) ∧
      (MarkerStore.extensionDir? m root name = some e.path →
        ∀ fileName, MarkerStore.markerPath m root fileName name = Path.join e.path fileName) := by
  obtain ⟨entries, hread, hmem, hdir, hid⟩ := discover_found hd he
  refine ⟨entries, hread, ?_, fun h fileName => by rw [MarkerStore.markerPath, h]; rfl⟩
  -- the store's test of a listed directory, and that the extension's own passes it
  obtain ⟨found, hstore, hfound⟩ : ∃ found : String → Bool,
      MarkerStore.extensionDir? m root name =
        (if m.isDir (Path.join root name) then some (Path.join root name)
          else (entries.map (Path.join root)).find? found) ∧
      ∀ d, found d = true ↔ m.isDir d = true ∧ (identify m d).map Prod.fst = .ok name := by
    refine ⟨_, by simp only [MarkerStore.extensionDir?, hread]; rfl, fun d => ?_⟩
    simp only [Bool.and_eq_true]
    cases identify m d with
    | error e => simp [Except.map]
    | ok r => simp [Except.map]
  have hown : found e.path = true := (hfound e.path).mpr ⟨hdir, by simp [hid, Except.map]⟩
  rw [hstore]
  split
  · simp
  · rw [List.find?_eq_some_iff_append]
    constructor
    · rintro ⟨-, as, bs, hsplit, hbefore⟩ d hd hdfound
      -- the extension's own directory passes, so it is not among those before it
      have hnot : e.path ∉ as := fun hin => by simpa [hown] using hbefore _ hin
      rw [List.takeWhile_ne_of_eq_append hsplit hnot] at hd
      simpa [(hfound d).mpr hdfound] using hbefore d hd
    · intro hnone
      obtain ⟨rest, hsplit⟩ := List.eq_takeWhile_append (List.mem_map.mpr (by simpa using hmem))
      refine ⟨hown, _, rest, hsplit, fun d hd => ?_⟩
      have hnot : found d ≠ true := fun hd' => hnone d hd ((hfound d).mp hd')
      simpa using hnot

/-- An extensions root where `org.example.a` lives in `/ext/other` while the directory named
after it, `/ext/org.example.a`, holds `org.example.z`. -/
def misnamedRoot : Machine :=
  { files := ⟨[(["ext"], .dir), (["ext", "org.example.a"], .dir),
      (["ext", "org.example.a", "info.xml"],
        .file (bytesOf "<extension key=\"org.example.z\" type=\"module\"></extension>") 420),
      (["ext", "other"], .dir),
      (["ext", "other", "info.xml"],
        .file (bytesOf "<extension key=\"org.example.a\" type=\"module\"></extension>") 420)]⟩,
    cwd := [], env := [], clock := "", pid := "", host := default,
    markers := .files "/ext" markerFileName, runner := .recording [] [] }

/-- In `misnamedRoot` the directory named after `org.example.a` exists and is not its own, so the
store passes over the extension's own directory. -/
theorem extensionDir?_discovered_misnamed :
    ∃ e, ((Catalog.discover misnamedRoot "/ext").toOption.bind fun c => c.get? "org.example.a") =
        some e ∧ e.path = "/ext/other" ∧
      MarkerStore.extensionDir? misnamedRoot "/ext" "org.example.a" ≠ some e.path := by
  have hfound : ((Catalog.discover misnamedRoot "/ext").toOption.bind
      fun c => c.get? "org.example.a").map Extension.path = some "/ext/other" := by
    decide +kernel
  cases hd : Catalog.discover misnamedRoot "/ext" with
  | error err =>
    rw [hd] at hfound
    cases hfound
  | ok c =>
    rw [hd] at hfound
    cases he : c.get? "org.example.a" with
    | none =>
      simp [Except.toOption, he] at hfound
    | some e =>
      have hpath : e.path = "/ext/other" := by simpa [Except.toOption, he] using hfound
      obtain ⟨_, -, hiff, -⟩ := extensionDir?_discovered hd he
      refine ⟨e, by simp [Except.toOption, he], hpath, fun hstore => ?_⟩
      have hdir : misnamedRoot.isDir (Path.join "/ext" "org.example.a") = true := by decide +kernel
      have hown := hiff.mp hstore
      rw [if_pos hdir, hpath] at hown
      exact absurd hown (by decide +kernel)

/-- `org.example.a` lives in `/ext/other`, while `/ext/org.example.a` holds `org.example.z`: the
store puts the marker of `org.example.a` in the directory of `org.example.z`. -/
theorem markerPath_other_directory :
    ((Catalog.discover misnamedRoot "/ext").toOption.bind fun c => c.get? "org.example.a").map
        Extension.path = some "/ext/other" ∧
      MarkerStore.markerPath misnamedRoot "/ext" markerFileName "org.example.a" =
        "/ext/org.example.a/.civicrm-seeded" := by
  decide +kernel

/-- `misnamedRoot` with a marker in the directory of `org.example.a` itself. -/
def ownMarkedRoot : Machine :=
  { misnamedRoot with
    files := ⟨misnamedRoot.files.entries ++
      [(["ext", "other", ".civicrm-seeded"], .file (bytesOf "x") 420)]⟩ }

/-- Setting the marker of `org.example.a` in `misnamedRoot` makes it exist, but the store lists
`org.example.z`. With a marker in the extension's own directory, clearing answers that there
was none, the extension stays listed, and resetting every marker clears nothing. -/
theorem markerLaws_misnamed :
    (do
      MarkerStore.set "org.example.a"
      let present ← MarkerStore.exists_ "org.example.a"
      let listed ← MarkerStore.list
      pure (present, listed) : Act (Bool × List String)).run' misnamedRoot =
      some (true, ["org.example.z"]) ∧
    (do
      let removed ← MarkerStore.clear "org.example.a"
      let present ← MarkerStore.exists_ "org.example.a"
      let listed ← MarkerStore.list
      let cleared ← resetMarkers .all
      let left ← MarkerStore.list
      pure (removed, present, listed, cleared, left) :
        Act (Bool × Bool × List String × List String × List String)).run' ownMarkedRoot =
      some (false, false, ["org.example.a"], [], ["org.example.a"]) := by
  constructor <;> decide +kernel

end Provisioning
