import Provisioning.Proofs.MarkerWrites
/-!
The laws of the file marker store where directories are named after their extensions.

The file store keeps the marker of an extension in the directory that `set`,
`exists_` and `clear` pick for its name, while `list` names each directory
under the root that holds a marker by what the directory identifies as. The
two meet when every directory under the root that identifies as an
extension is named after it (`NamedLayout`): then the marker of a name is
always the file of that name's own directory (`markerPath_named`), and the
store keeps the laws the store in memory keeps (`markerLaws_named`):

* after `set n`, `n` exists and is listed, when a directory identifies as `n`;
* after `clear n`, `n` neither exists nor is listed;
* after resetting every marker, none is listed.

`NamedStore` gathers what the laws ask of the machine. Each law follows
from what its writing step changes (`writeMarker_effect`,
`removeMarker_effect`): the layout stays named, so the store still finds
each marker in the directory named after it. Resetting clears the listed
names one after another (`NamedStore.clear_each`), each step touching only
its own marker, so a name left listed at the end would have been listed,
and cleared, at the start.
-/

namespace Provisioning

open Provisioning.Path FileTree

/-! ## Layouts where directories are named after their extensions -/

/-- Every directory listed under the root that identifies as an extension is named after it. -/
def NamedLayout (m : Machine) (root : String) : Prop :=
  ∀ entries ∈ (m.readDir root).toOption, ∀ c ∈ entries,
    ∀ found ∈ (identify m (join root c)).toOption.map Prod.fst, found = c

instance (m : Machine) (root : String) : Decidable (NamedLayout m root) :=
  inferInstanceAs (Decidable (∀ entries ∈ (m.readDir root).toOption, ∀ c ∈ entries,
    ∀ found ∈ (identify m (join root c)).toOption.map Prod.fst, found = c))

section Named

variable {m m' : Machine} {root fileName name : String} {entries : List String}

theorem NamedLayout.eq_of_identify (h : NamedLayout m root) (hread : m.readDir root = .ok entries)
    {c found key : String} (hc : c ∈ entries) (hid : identify m (join root c) = .ok (found, key)) :
    found = c :=
  h entries (by simp [hread, Except.toOption]) c hc found (by simp [hid, Except.toOption])

/-- A layout stays named when the root lists the same names and they identify alike. -/
theorem NamedLayout.of_same (h : NamedLayout m root) (hread : m'.readDir root = m.readDir root)
    (hid : ∀ entries, m.readDir root = .ok entries → ∀ c ∈ entries,
      identify m' (join root c) = identify m (join root c)) :
    NamedLayout m' root := by
  intro entries hentries c hc
  rw [hread] at hentries
  have hread' : m.readDir root = .ok entries := by
    cases hr : m.readDir root <;> simp_all [Except.toOption]
  rw [hid entries hread' c hc]
  exact h entries hentries c hc

/-- In a named layout the store picks the directory named after the extension, which is a
directory. -/
theorem MarkerStore.extensionDir?_named (h : NamedLayout m root) {dir : String}
    (hdir : MarkerStore.extensionDir? m root name = some dir) :
    dir = join root name ∧ m.isDir dir = true := by
  by_cases hdirect : m.isDir (join root name) = true
  · simp only [MarkerStore.extensionDir?, hdirect, if_true, Option.some.injEq] at hdir
    exact ⟨hdir.symm, hdir ▸ hdirect⟩
  · simp only [MarkerStore.extensionDir?, hdirect, Bool.false_eq_true, if_false] at hdir
    cases hread : m.readDir root with
    | error e => simp [hread] at hdir
    | ok entries =>
      simp only [hread] at hdir
      -- the directory found is listed, and identifies as `name`, so it is named `name`
      have hpass := List.find?_some hdir
      obtain ⟨c, hc, rfl⟩ := List.mem_map.1 (List.mem_of_find?_eq_some hdir)
      simp only [Bool.and_eq_true] at hpass
      obtain ⟨hisdir, hfound⟩ := hpass
      split at hfound
      · next found key hid =>
        have hname : found = name := by simpa using hfound
        rw [← hname, h.eq_of_identify hread hc hid]
        exact ⟨rfl, hisdir⟩
      · cases hfound

/-- In a named layout the marker of an extension is the marker file of its own directory. -/
theorem MarkerStore.markerPath_named (h : NamedLayout m root) :
    MarkerStore.markerPath m root fileName name = join (join root name) fileName := by
  unfold MarkerStore.markerPath
  cases hd : MarkerStore.extensionDir? m root name with
  | none => rfl
  | some dir => rw [Option.getD_some, (MarkerStore.extensionDir?_named h hd).1]

end Named

/-! ## Running the store's operations -/

namespace MarkerStore

variable {m m' : Machine} {root fileName name : String} {entries : List String}

theorem exists_run_files (hstore : m.markers = .files root fileName)
    (hvalid : Name.validate name = .ok ()) :
    (exists_ name).run m = .ok (m.isFile (markerPath m root fileName name)) m := by
  simp only [exists_, EStateM.run_bind, EStateM.run_get, hstore,
    Act.run_read (f := fun _ => Name.validate name) hvalid, EStateM.run_pure]

theorem set_run_files_ok (hstore : m.markers = .files root fileName)
    (h : (set name).run m = .ok () m') :
    Name.validate name = .ok () ∧ ∃ dir, extensionDir? m root name = some dir ∧
      (Act.writeAtomic (join dir fileName) (m.clock ++ "\n")).run m = .ok () m' := by
  simp only [set, EStateM.run_bind, EStateM.run_get, hstore] at h
  obtain ⟨u, m₁, hread, h⟩ := Act.run_bind_eq_ok h
  obtain ⟨hvalid, hm⟩ := Act.read_run_ok hread
  rw [hm] at h
  refine ⟨hvalid, ?_⟩
  cases hdir : extensionDir? m root name with
  | none =>
    rw [hdir] at h
    cases h
  | some dir =>
    rw [hdir] at h
    exact ⟨dir, rfl, h⟩

theorem clear_run_files_ok (hstore : m.markers = .files root fileName) {b : Bool}
    (h : (clear name).run m = .ok b m') :
    Name.validate name = .ok () ∧
      (Act.removeFileIfExists (markerPath m root fileName name)).run m = .ok b m' := by
  simp only [clear, EStateM.run_bind, EStateM.run_get, hstore] at h
  obtain ⟨u, m₁, hread, h⟩ := Act.run_bind_eq_ok h
  obtain ⟨hvalid, hm⟩ := Act.read_run_ok hread
  rw [hm] at h
  exact ⟨hvalid, h⟩

theorem list_run_files (hstore : m.markers = .files root fileName) (hdir : m.isDir root = true)
    (hread : m.readDir root = .ok entries) :
    list.run m = .ok (Text.sortDedup ((((entries.map (join root)).filter fun dir =>
      m.isFile (join dir fileName)).filterMap fun dir => (identify m dir).toOption.map (·.1)))) m := by
  simp [list, hstore, hdir, hread]

/-- A name is listed when a directory under the root holds a marker and identifies as it. -/
theorem mem_listed {x : String} :
    x ∈ Text.sortDedup ((((entries.map (join root)).filter fun dir =>
      m.isFile (join dir fileName)).filterMap fun dir => (identify m dir).toOption.map (·.1))) ↔
      ∃ c ∈ entries, m.isFile (join (join root c) fileName) = true ∧
        (identify m (join root c)).toOption.map Prod.fst = some x := by
  simp only [Text.mem_sortDedup, List.mem_filterMap, List.mem_filter, List.mem_map]
  constructor
  · rintro ⟨_, ⟨⟨c, hc, rfl⟩, hfile⟩, hid⟩
    exact ⟨c, hc, hfile, hid⟩
  · rintro ⟨c, hc, hfile, hid⟩
    exact ⟨_, ⟨⟨c, hc, rfl⟩, hfile⟩, hid⟩

end MarkerStore

/-! ## The laws -/

open MarkerStore

/-- A valid extension name is a name of a directory entry. -/
theorem Name.isName_of_isValid {name : String} (h : Name.isValid name = true) : IsName name := by
  have hall : name.toList.all Name.allowedChar = true := by
    unfold Name.isValid Name.problem? at h
    split_ifs at h <;> simp_all
  refine ⟨?_, ?_, ?_, fun hslash => absurd (List.all_eq_true.1 hall '/' hslash) (by decide)⟩
  all_goals
    rintro rfl
    exact absurd h (by decide +kernel)

/-- A file marker store under a root whose directories are named after their extensions, in a
tree of plain names without links. -/
structure NamedStore (m : Machine) (root fileName : String) : Prop where
  markers : m.markers = .files root fileName
  plain : m.files.Plain
  rootDir : m.isDir root = true
  climbFree : ".." ∉ split root
  markerName : IsName fileName
  notInfo : fileName ≠ infoFileName
  named : NamedLayout m root

namespace NamedStore

variable {m m₀ m₁ : Machine} {root fileName : String} (h : NamedStore m root fileName)
include h

theorem root_ne_empty : root ≠ "" := by
  rintro rfl
  have hroot := h.rootDir
  simp [Machine.isDir, isDir_empty] at hroot

/-- The marker locations of some names, each inside the directory of its name. -/
theorem belowRoot_markers (S : List String) :
    BelowRoot m root (S.map fun c => lexical m.cwd root ++ [c, fileName]) := by
  intro q hq
  obtain ⟨c, -, rfl⟩ := List.mem_map.1 hq
  exact ⟨c, fileName, rfl, h.notInfo⟩

section
variable {Q : List (List String)} (hs : SameOutside m m₀ Q) (hQ : BelowRoot m root Q)
include hs hQ

/-- A directory listed under the root identifies as it did, after a change below the
directories. -/
theorem identify_of_sameOutside {entries : List String} (hread : m.readDir root = .ok entries)
    {c : String} (hc : c ∈ entries) : identify m₀ (join root c) = identify m (join root c) :=
  hs.identify_dir h.plain.linkFree h.climbFree hQ h.root_ne_empty (h.plain.isName_of_readDir hread hc)

/-- Changing the tree only below the directories under the root keeps the layout named. -/
theorem named_of_sameOutside : NamedLayout m₀ root :=
  h.named.of_same (hs.readDir_root h.plain.linkFree h.climbFree hQ) fun _ hread _ hc =>
    h.identify_of_sameOutside hs hQ hread hc

/-- After a change below the directories under the root, the store lists from the names the
root listed before. -/
theorem list_run_of_sameOutside {entries : List String} (hread : m.readDir root = .ok entries) :
    list.run m₀ = .ok (Text.sortDedup ((((entries.map (join root)).filter fun dir =>
      m₀.isFile (join dir fileName)).filterMap fun dir => (identify m₀ dir).toOption.map (·.1)))) m₀ :=
  list_run_files (hs.markers.trans h.markers)
    ((hs.isDir_root h.plain.linkFree h.climbFree hQ).trans h.rootDir)
    ((hs.readDir_root h.plain.linkFree h.climbFree hQ).trans hread)

end

/-- After setting the marker of a name some directory identifies as, the name has a marker and
is listed. -/
theorem set_named (hpid : '/' ∉ m.pid.toList) {name : String} {entries : List String}
    (hread : m.readDir root = .ok entries)
    (hid : ∃ c ∈ entries, (identify m (join root c)).toOption.map Prod.fst = some name)
    (hset : (set name).run m = .ok () m₁) :
    (exists_ name).run m₁ = .ok true m₁ ∧ ∃ names, list.run m₁ = .ok names m₁ ∧ name ∈ names := by
  obtain ⟨hvalid, dir, hdir, hwrite⟩ := set_run_files_ok h.markers hset
  obtain ⟨rfl, hisdir⟩ := extensionDir?_named h.named hdir
  -- the directory that identifies as the name is the one named after it
  obtain ⟨c, hc, hidc⟩ := hid
  obtain ⟨⟨found, key⟩, hidok⟩ : ∃ r, identify m (join root c) = .ok r := by
    cases hi : identify m (join root c) <;> simp_all [Except.toOption]
  have hfound : found = name := by simpa [hidok, Except.toOption] using hidc
  obtain rfl : c = name := (h.named.eq_of_identify hread hc hidok).symm.trans hfound
  have hcname : IsName c := h.plain.isName_of_readDir hread hc
  obtain ⟨hs, hmarked⟩ := writeMarker_effect h.plain.linkFree h.root_ne_empty h.climbFree
    h.markerName hpid hcname hisdir hwrite
  have hQ : BelowRoot m root [lexical m.cwd root ++ [c, fileName],
      lexical m.cwd root ++ [c, "." ++ fileName ++ "." ++ m.pid ++ ".tmp"]] := by
    intro q hq
    rcases List.mem_pair.1 hq with rfl | rfl
    · exact ⟨c, fileName, rfl, h.notInfo⟩
    · exact ⟨c, _, rfl, (isName_tempName h.markerName hpid).2.2⟩
  refine ⟨?_, _, h.list_run_of_sameOutside hs hQ hread, mem_listed.2 ⟨c, hc, hmarked, ?_⟩⟩
  · rw [exists_run_files (hs.markers.trans h.markers) hvalid,
      markerPath_named (h.named_of_sameOutside hs hQ), hmarked]
  · rw [h.identify_of_sameOutside hs hQ hread hc]
    exact hidc

/-- Clearing a marker, where the store had its layout, removes the marker file of that name and
changes the tree nowhere else. -/
theorem clear_step {S : List String} {name : String} {b : Bool}
    (hs : SameOutside m m₀ (S.map fun c => lexical m.cwd root ++ [c, fileName]))
    (hclear : (clear name).run m₀ = .ok b m₁) :
    IsName name ∧ SameOutside m₀ m₁ [lexical m.cwd root ++ [name, fileName]] ∧
      m₁.isFile (join (join root name) fileName) = false := by
  obtain ⟨hvalid, hremove⟩ := clear_run_files_ok (hs.markers.trans h.markers) hclear
  rw [markerPath_named (h.named_of_sameOutside hs (h.belowRoot_markers S))] at hremove
  have hn := Name.isName_of_isValid (Name.isValid_of_validate hvalid)
  obtain ⟨hs', hgone⟩ := removeMarker_effect hs.linkFree h.root_ne_empty h.climbFree h.markerName hn
    hremove
  rw [hs.cwd] at hs'
  exact ⟨hn, hs', hgone⟩

/-- After clearing a name, it has no marker and is not listed. -/
theorem clear_named {name : String} {b : Bool} (hclear : (clear name).run m = .ok b m₁) :
    (exists_ name).run m₁ = .ok false m₁ ∧ ∃ names, list.run m₁ = .ok names m₁ ∧ name ∉ names := by
  obtain ⟨hvalid, -⟩ := clear_run_files_ok h.markers hclear
  obtain ⟨-, hs, hgone⟩ := h.clear_step (S := []) (SameOutside.self h.plain.linkFree []) hclear
  have hQ := h.belowRoot_markers [name]
  obtain ⟨L, -, hread⟩ := readDir_of_isDir h.rootDir
  refine ⟨?_, _, h.list_run_of_sameOutside hs hQ hread, fun hmem => ?_⟩
  · rw [exists_run_files (hs.markers.trans h.markers) hvalid,
      markerPath_named (h.named_of_sameOutside hs hQ), hgone]
  · -- a listed directory is named after what it identifies as, and the name's marker is gone
    obtain ⟨c, hc, hmarked, hid⟩ := mem_listed.1 hmem
    rw [h.identify_of_sameOutside hs hQ hread hc] at hid
    obtain rfl : name = c :=
      h.named _ (by simp [Machine.readDir, hread, Except.toOption]) c hc name hid
    rw [hgone] at hmarked
    cases hmarked

/-- Clearing names one after another, the invariant being that only the markers of the names
cleared so far changed, and none of them is left. -/
theorem clear_each : ∀ (xs acc S : List String) (m₀ m₁ : Machine) (r : List String),
    SameOutside m m₀ (S.map fun c => lexical m.cwd root ++ [c, fileName]) →
    (∀ c ∈ S, IsName c ∧ m₀.isFile (join (join root c) fileName) = false) →
    (xs.filterAuxM clear acc).run m₀ = .ok r m₁ →
    SameOutside m m₁ ((S ++ xs).map fun c => lexical m.cwd root ++ [c, fileName]) ∧
      ∀ c ∈ S ++ xs, IsName c ∧ m₁.isFile (join (join root c) fileName) = false
  | [], acc, S, m₀, m₁, r, hs, hS, hrun => by
    simp only [List.filterAuxM, EStateM.run_pure, EStateM.Result.ok.injEq] at hrun
    obtain ⟨-, rfl⟩ := hrun
    simpa using ⟨hs, hS⟩
  | x :: xs, acc, S, m₀, m₁, r, hs, hS, hrun => by
    simp only [List.filterAuxM] at hrun
    obtain ⟨b, m₀', hclear, hrest⟩ := Act.run_bind_eq_ok hrun
    obtain ⟨hx, hstep, hgone⟩ := h.clear_step hs hclear
    have hQx : BelowRoot m₀ root [lexical m.cwd root ++ [x, fileName]] :=
      fun q hq => ⟨x, fileName, by rw [List.mem_singleton.1 hq, hs.cwd], h.notInfo⟩
    have hs' : SameOutside m m₀' ((S ++ [x]).map fun c => lexical m.cwd root ++ [c, fileName]) := by
      simpa using hs.trans hstep
    -- the names cleared before keep no marker: clearing `x` touched only the marker of `x`
    have hS' : ∀ c ∈ S ++ [x], IsName c ∧ m₀'.isFile (join (join root c) fileName) = false := by
      intro c hc
      by_cases hcx : c = x
      · subst hcx
        exact ⟨hx, hgone⟩
      · obtain ⟨hcn, hcfile⟩ := hS c (by simpa [hcx] using hc)
        have hnot : lexical m₀.cwd root ++ [c, fileName] ∉
            [lexical m.cwd root ++ [x, fileName]] := by
          simp [hs.cwd, hcx]
        refine ⟨hcn, ?_⟩
        rw [hstep.isFile_file hs.linkFree h.climbFree hQx h.root_ne_empty hcn h.markerName hnot]
        exact hcfile
    simpa using clear_each xs _ (S ++ [x]) m₀' m₁ r hs' hS' hrest

/-- After resetting every marker, no name is listed. -/
theorem reset_named {cleared : List String} (hreset : (resetMarkers .all).run m = .ok cleared m₁) :
    list.run m₁ = .ok [] m₁ := by
  simp only [resetMarkers] at hreset
  obtain ⟨listed, m₀, hlist, hfilter⟩ := Act.run_bind_eq_ok hreset
  obtain ⟨L, -, hread⟩ := readDir_of_isDir h.rootDir
  rw [list_run_files h.markers h.rootDir hread] at hlist
  cases hlist
  unfold List.filterM at hfilter
  obtain ⟨r, m₂, hrun, hpure⟩ := Act.run_bind_eq_ok hfilter
  cases hpure
  obtain ⟨hs, hgone⟩ :=
    clear_each h _ [] [] m _ r (SameOutside.self h.plain.linkFree []) (by simp) hrun
  simp only [List.nil_append] at hs hgone
  set listed := Text.sortDedup (((((m.files.childNames L).map (join root)).filter fun dir =>
      m.isFile (join dir fileName)).filterMap fun dir => (identify m dir).toOption.map (·.1)))
  have hQ := h.belowRoot_markers listed
  rw [h.list_run_of_sameOutside hs hQ hread]
  congr
  refine List.eq_nil_iff_forall_not_mem.2 fun y hy => ?_
  obtain ⟨c, hc, hmarked, hid⟩ := mem_listed.1 hy
  by_cases hcl : c ∈ listed
  · rw [(hgone c hcl).2] at hmarked
    cases hmarked
  · -- a name not cleared kept its marker and its identity, so it was listed before
    have hcn := h.plain.isName_of_readDir hread hc
    have hnot : lexical m.cwd root ++ [c, fileName] ∉
        listed.map fun c => lexical m.cwd root ++ [c, fileName] := fun hmem => by
      obtain ⟨c', hc', heq⟩ := List.mem_map.1 hmem
      simp only [List.append_cancel_left_eq, List.cons.injEq, and_true] at heq
      exact hcl (heq ▸ hc')
    rw [hs.isFile_file h.plain.linkFree h.climbFree hQ h.root_ne_empty hcn h.markerName hnot]
      at hmarked
    rw [h.identify_of_sameOutside hs hQ hread hc] at hid
    have hyc : y = c := h.named _ (by simp [Machine.readDir, hread, Except.toOption]) c hc y hid
    exact hcl (hyc ▸ mem_listed.2 ⟨c, hc, hmarked, hid⟩)

end NamedStore

/-- On a named layout the file marker store keeps the laws of the store in memory: a name set
exists and is listed, a name cleared neither exists nor is listed, and after a reset of every
marker nothing is listed. -/
theorem markerLaws_named {m : Machine} {root fileName : String} (h : NamedStore m root fileName)
    (hpid : '/' ∉ m.pid.toList) :
    (∀ name entries m', m.readDir root = .ok entries →
      (∃ c ∈ entries, (identify m (join root c)).toOption.map Prod.fst = some name) →
      (set name).run m = .ok () m' →
      (exists_ name).run m' = .ok true m' ∧ ∃ names, list.run m' = .ok names m' ∧ name ∈ names) ∧
    (∀ name b m', (clear name).run m = .ok b m' →
      (exists_ name).run m' = .ok false m' ∧ ∃ names, list.run m' = .ok names m' ∧ name ∉ names) ∧
    (∀ cleared m', (resetMarkers .all).run m = .ok cleared m' → list.run m' = .ok [] m') :=
  ⟨fun _ _ _ hread hid hset => h.set_named hpid hread hid hset,
    fun _ _ _ hclear => h.clear_named hclear,
    fun _ _ hreset => h.reset_named hreset⟩

/-- An extensions root with `org.example.a` and `org.example.b` each in the directory named after
it, `org.example.b` marked. -/
def namedRoot : Machine :=
  { files := ⟨[(["ext"], .dir), (["ext", "org.example.a"], .dir),
      (["ext", "org.example.a", "info.xml"],
        .file (bytesOf "<extension key=\"org.example.a\" type=\"module\"></extension>") 420),
      (["ext", "org.example.b"], .dir),
      (["ext", "org.example.b", "info.xml"],
        .file (bytesOf "<extension key=\"org.example.b\" type=\"module\"></extension>") 420),
      (["ext", "org.example.b", ".civicrm-seeded"], .file (bytesOf "x") 420)]⟩,
    cwd := [], env := [], clock := "", pid := "7", host := default,
    markers := .files "/ext" markerFileName, runner := .recording [] [] }

theorem markerLaws_named_sample :
    NamedStore namedRoot "/ext" markerFileName ∧ '/' ∉ namedRoot.pid.toList ∧
    (∀ name entries m', namedRoot.readDir "/ext" = .ok entries →
      (∃ c ∈ entries, (identify namedRoot (join "/ext" c)).toOption.map Prod.fst = some name) →
      (set name).run namedRoot = .ok () m' →
      (exists_ name).run m' = .ok true m' ∧ ∃ names, list.run m' = .ok names m' ∧ name ∈ names) ∧
    (∀ name b m', (clear name).run namedRoot = .ok b m' →
      (exists_ name).run m' = .ok false m' ∧ ∃ names, list.run m' = .ok names m' ∧ name ∉ names) ∧
    (∀ cleared m', (resetMarkers .all).run namedRoot = .ok cleared m' → list.run m' = .ok [] m') := by
  have h : NamedStore namedRoot "/ext" markerFileName :=
    ⟨rfl, by decide +kernel, by decide +kernel, by decide +kernel, by decide +kernel,
      by decide +kernel, by decide +kernel⟩
  exact ⟨h, by decide, markerLaws_named h (by decide)⟩

end Provisioning
