import Provisioning.Proofs.MarkerLaws
import Provisioning.Config.Kitchen
import Provisioning.Proofs.Link
/-!
Names cannot lead the file operations out of the extensions root.

The operations that take an extension's name and touch the files for it are the linker's
`unlink` and `isLinked`, and the file marker store's `set`, `clear` and `exists_`. Each of them
checks the name first: a name that `Name.validate` refuses is refused, as an invalid name, before
anything is read or changed (`MarkerStore.set_refused`, `Linker.unlink_refused`, ...). A name it
accepts is a name of a directory entry (`IsName`): not empty, neither `.` nor `..`, and without a
slash, so joined to the root it names an entry directly inside the root.

What an operation changes is told by the edits of the file tree it makes, each with the paths it
is given (`Edit`, `EditsWithin`), however the operation ends (`Act.Confined`). The paths are
compared as written, from the working directory (`lexical`): a link on the way is followed as the
file system follows it, so where an edit lands is where its path leads. The linker edits only the
entry of the name (`Linker.unlink_confined`). The store edits only inside an entry of the root:
the marker file, the temporary file it is written through, and the directory the marker is
written in, which it makes when missing (`MarkerStore.set_confined`, `MarkerStore.clear_confined`).
Its directory for a name is the entry of that name or else one the root lists
(`MarkerStore.extensionDir?_entry`), which is a name when the tree's locations are names, as a
file system gives them (`FileTree.Named`). The marker file is a name by the configuration's check
(`KitchenConfig.markerFile_isName`), and so is the temporary file when the process number holds
no slash (`isName_tempName`).

Every name `identify` gives passes the check (`identify_valid`), so the linker's destination for
it is an entry of the root as well. `stays_in_root` gathers all of this.
-/
namespace Provisioning

open Provisioning.Path FileTree

/-! ## Edits of the file tree -/

/-- A change of the file tree, with the paths it is given. -/
inductive Edit where
  | mkdirAll (p : String)
  | writeBytes (p : String) (data : List UInt8)
  | rename (source target : String)
  | unlink (p : String)
  | removeAll (p : String)

namespace Edit

/-- The edit made to a tree, from a working directory. -/
def apply : Edit → FileTree → List String → Except OsError FileTree
  | .mkdirAll p, t, cwd => t.mkdirAll cwd p
  | .writeBytes p data, t, cwd => t.writeBytes cwd p data
  | .rename source target, t, cwd => t.rename cwd source target
  | .unlink p, t, cwd => t.unlink cwd p
  | .removeAll p, t, cwd => t.removeAll cwd p

/-- The paths an edit creates, writes or removes. -/
def paths : Edit → List String
  | .mkdirAll p | .writeBytes p _ | .unlink p | .removeAll p => [p]
  | .rename source target => [source, target]

end Edit

/-- `m'` is `m` after the edits, made one after another, each of them succeeding. -/
def Edited (m m' : Machine) : List Edit → Prop
  | [] => m' = m
  | e :: es => ∃ t, e.apply m.files m.cwd = .ok t ∧ Edited { m with files := t } m' es

/-- `m'` is `m` after edits of its files at paths that `P` allows, and nothing else. -/
def EditsWithin (P : String → Prop) (m m' : Machine) : Prop :=
  ∃ es, (∀ e ∈ es, ∀ p ∈ e.paths, P p) ∧ Edited m m' es

namespace EditsWithin

variable {P : String → Prop} {m m₁ m₂ : Machine}

theorem refl (P : String → Prop) (m : Machine) : EditsWithin P m m := ⟨[], by simp, rfl⟩

theorem edited_append {es es' : List Edit} :
    ∀ {m}, Edited m m₁ es → Edited m₁ m₂ es' → Edited m m₂ (es ++ es') := by
  induction es with
  | nil =>
    intro m h h'
    cases h
    exact h'
  | cons e es ih =>
    intro m h h'
    obtain ⟨t, ht, hrest⟩ := h
    exact ⟨t, ht, ih hrest h'⟩

theorem trans (h : EditsWithin P m m₁) (h' : EditsWithin P m₁ m₂) : EditsWithin P m m₂ := by
  obtain ⟨es, hes, hed⟩ := h
  obtain ⟨es', hes', hed'⟩ := h'
  refine ⟨es ++ es', fun e he => ?_, edited_append hed hed'⟩
  rcases List.mem_append.1 he with he | he
  · exact hes e he
  · exact hes' e he

/-- One edit at allowed paths, whether or not it succeeds. -/
theorem edit (e : Edit) (hP : ∀ p ∈ e.paths, P p) (m : Machine) :
    EditsWithin P m (match e.apply m.files m.cwd with
      | .ok t => { m with files := t }
      | .error _ => m) := by
  cases ht : e.apply m.files m.cwd with
  | ok t => exact ⟨[e], by simpa using hP, t, ht, rfl⟩
  | error _ => exact refl P m

theorem mono {Q : String → Prop} (h : EditsWithin P m m₁) (hPQ : ∀ p, P p → Q p) :
    EditsWithin Q m m₁ := by
  obtain ⟨es, hes, hed⟩ := h
  exact ⟨es, fun e he p hp => hPQ p (hes e he p hp), hed⟩

end EditsWithin

/-! ## Actions that edit only at some paths -/

namespace Act

/-- Running `x` from `m` changes nothing of the machine but its files, and those only by edits at
paths `P` allows, however the run ends. -/
def Confined (P : String → Prop) {α : Type} (x : Act α) (m : Machine) : Prop :=
  EditsWithin P m (final (x.run m))

namespace Confined

variable {P : String → Prop} {α β : Type} {m : Machine}

theorem pure (a : α) : Confined P (Pure.pure a : Act α) m := EditsWithin.refl P m

theorem throw (e : Error) : Confined P (MonadExcept.throw e : Act α) m := EditsWithin.refl P m

theorem read (f : Machine → Except Error α) : Confined P (Act.read f) m := by
  unfold Confined Act.read
  simp only [EStateM.run]
  cases f m <;> exact EditsWithin.refl P m

theorem bind {x : Act α} {k : α → Act β} (hx : Confined P x m)
    (hk : ∀ a m₁, x.run m = .ok a m₁ → Confined P (k a) m₁) : Confined P (x >>= k) m := by
  unfold Confined at *
  rw [EStateM.run_bind]
  cases h : x.run m with
  | ok a m₁ =>
    rw [h] at hx
    exact hx.trans (hk a m₁ h)
  | error e m₁ =>
    rw [h] at hx
    exact hx

/-- Reading the machine and going on from what was read. -/
theorem get_bind {k : Machine → Act β} (hk : Confined P (k m) m) :
    Confined P ((MonadState.get : Act Machine) >>= k) m := hk

/-- One change of the file tree, at paths `P` allows. -/
theorem change (wrap : OsError → Error) (e : Edit) (hP : ∀ p ∈ e.paths, P p) :
    Confined P (Act.change wrap fun t cwd => e.apply t cwd) m := by
  unfold Confined Act.change
  simp only [EStateM.run]
  have h := EditsWithin.edit e hP m
  cases ht : e.apply m.files m.cwd with
  | ok t =>
    rw [ht] at h
    exact h
  | error _ =>
    rw [ht] at h
    exact h

theorem removeFileIfExists {p : String} (hp : P p) : Confined P (Act.removeFileIfExists p) m := by
  have h := EditsWithin.edit (.unlink p) (by simpa [Edit.paths] using hp) m
  unfold Confined Act.removeFileIfExists
  simp only [EStateM.run]
  simp only [Edit.apply] at h
  cases ht : m.files.unlink m.cwd p with
  | ok t =>
    rw [ht] at h
    exact h
  | error e => cases e <;> exact EditsWithin.refl P m

/-- A change of the file tree leaves the rest of the machine as it was. -/
theorem change_run_ok_pid {wrap : OsError → Error} {f : FileTree → List String → Except OsError FileTree}
    {m₁ : Machine} {u : Unit} (h : (Act.change wrap f).run m = .ok u m₁) : m₁.pid = m.pid := by
  obtain ⟨t, -, rfl⟩ := Act.change_run_ok h
  rfl

/-- Writing a file through a temporary file beside it edits the parent directory, the temporary
file and the file. -/
theorem writeAtomic {p content : String} (hparent : ∀ q, parent? p = some q → P q)
    (htemp : P (withFileName p ("." ++ (fileName? p).getD "" ++ "." ++ m.pid ++ ".tmp")))
    (hp : P p) : Confined P (Act.writeAtomic p content) m := by
  unfold Act.writeAtomic
  dsimp only
  have hrest : ∀ (temp : String) (m₁ : Machine), P temp →
      Confined P (Act.change (Machine.fsError temp) (fun t cwd => t.writeBytes cwd temp (bytesOf content)) >>=
        fun _ => Act.change (Machine.fsError p) fun t cwd => t.rename cwd temp p) m₁ := by
    intro temp m₁ htemp
    refine bind (change _ (.writeBytes temp _) ?_) fun _ m₂ _ => change _ (.rename temp p) ?_
    · simpa [Edit.paths] using htemp
    · simpa [Edit.paths] using ⟨htemp, hp⟩
  split
  · next q hq =>
    refine bind (change _ (.mkdirAll q) (by simpa [Edit.paths] using hparent q hq)) fun _ m₁ h₁ => ?_
    -- making the parent changes only the files, so the temporary file is named as before
    exact get_bind (hrest _ m₁ (by rwa [change_run_ok_pid h₁]))
  · exact get_bind (hrest _ m htemp)

end Confined

end Act

/-! ## Entries of the root -/

theorem join_empty_name {x : String} (hx : IsName x) : join "" x = x := by
  simp [join, isAbsolute_of_slash_not_mem hx.1 hx.2.2.2]

/-- A name joined to any path, the empty one included, names an entry inside it. -/
theorem lexical_join_entry {cwd : List String} {d x : String} (hx : IsName x) :
    lexical cwd (join d x) = lexical cwd d ++ [x] := by
  by_cases hd : d = ""
  · subst hd
    rw [join_empty_name hx]
    have hempty : isAbsolute "" = false := by decide
    simp [lexical, origin, isAbsolute_of_slash_not_mem hx.1 hx.2.2.2, split_of_slash_not_mem hx.2.2.2,
      hx.named_singleton, split_empty, named_cons_skip, hempty]
  · exact lexical_join_name hd hx

theorem join_entry_ne_empty {d x : String} (hx : IsName x) : join d x ≠ "" := by
  by_cases hd : d = ""
  · subst hd
    rw [join_empty_name hx]
    exact hx.1
  · exact join_name_ne_empty hd hx

theorem parts_join_entry_ne_nil {d x : String} (hx : IsName x) : parts (join d x) ≠ [] := by
  by_cases hd : d = ""
  · subst hd
    rw [join_empty_name hx]
    simp [parts, split_of_slash_not_mem hx.2.2.2, hx.1, hx.2.1]
  · simp [parts_join_name hd hx]

/-- The directory of a file directly inside an entry of `d` names that entry. -/
theorem lexical_parent_join_entry {cwd : List String} {d c x q : String} (hc : IsName c) (hx : IsName x)
    (hq : parent? (join (join d c) x) = some q) : lexical cwd q = lexical cwd d ++ [c] := by
  obtain ⟨q', hq', -, habs, -, hnamed⟩ :=
    parent?_join_name (join_entry_ne_empty hc) hx (parts_join_entry_ne_nil hc)
  rw [hq] at hq'
  cases hq'
  rw [← lexical_join_entry hc]
  simp only [lexical, origin, habs, hnamed]

/-- From `cwd`, the path `p` names an entry `c` of the root, for a name `c`. -/
def AtEntry (cwd : List String) (root p : String) : Prop :=
  ∃ c, IsName c ∧ lexical cwd p = lexical cwd root ++ [c]

/-- From `cwd`, the path `p` names an entry of the root, or an entry `x` directly inside one, for
names `c` and `x`. -/
def InEntry (cwd : List String) (root p : String) : Prop :=
  AtEntry cwd root p ∨ ∃ c x, IsName c ∧ IsName x ∧ lexical cwd p = lexical cwd root ++ [c, x]

section InEntry

variable {cwd : List String} {root c x : String}

theorem atEntry_join (hc : IsName c) : AtEntry cwd root (join root c) :=
  ⟨c, hc, lexical_join_entry hc⟩

theorem inEntry_inside (hc : IsName c) (hx : IsName x) : InEntry cwd root (join (join root c) x) :=
  .inr ⟨c, x, hc, hx, by rw [lexical_join_entry hx, lexical_join_entry hc, List.append_assoc]; rfl⟩

theorem inEntry_parent (hc : IsName c) (hx : IsName x) {q : String}
    (hq : parent? (join (join root c) x) = some q) : InEntry cwd root q :=
  .inl ⟨c, hc, lexical_parent_join_entry hc hx hq⟩

/-- The temporary file written beside a file directly inside an entry is directly inside it too,
when its name is a name. -/
theorem inEntry_withFileName (hc : IsName c) (hx : IsName x) {y : String} (hy : IsName y) :
    InEntry cwd root (withFileName (join (join root c) x) y) := by
  obtain ⟨q, hq, -⟩ := parent?_join_name (join_entry_ne_empty hc) hx (parts_join_entry_ne_nil hc)
  refine .inr ⟨c, y, hc, hy, ?_⟩
  rw [withFileName, hq]
  dsimp only
  rw [lexical_join_entry hy, lexical_parent_join_entry hc hx hq, List.append_assoc]
  rfl

end InEntry

/-! ## The names the operations accept -/

theorem Name.validate_of_problem {name reason : String} (h : Name.problem? name = some reason) :
    Name.validate name = .error (.invalidName name reason) := by
  simp [Name.validate, h]

/-- A name the check lets through is a name of a directory entry. -/
theorem Name.isName_of_validate {name : String} (h : Name.validate name = .ok ()) : IsName name :=
  Name.isName_of_isValid (Name.isValid_of_validate h)

/-- A configuration that passes its check names its marker file with a name. -/
theorem KitchenConfig.markerFile_isName {c : KitchenConfig} (h : c.problem? = none) :
    IsName c.seeding.markerFile := by
  unfold KitchenConfig.problem? at h
  dsimp only at h
  split_ifs at h with h₁ h₂ h₃ h₄ hplain
  simp only [Bool.or_eq_true, beq_iff_eq, not_or, String.isEmpty_iff] at hplain
  obtain ⟨⟨⟨⟨hempty, hslash⟩, -⟩, hdot⟩, hdots⟩ := hplain
  rw [String.contains_char_eq, decide_eq_true_iff] at hslash
  exact ⟨hempty, hdot, hdots, hslash⟩

/-! ## The marker store -/

namespace MarkerStore

variable {m : Machine} {root fileName name : String}

/-- The store's directory for a name is an entry of the root: the entry of the name, or one the
root lists, which in a tree of names is a name too. -/
theorem extensionDir?_entry (hn : IsName name) (hnamed : m.files.Named) {dir : String}
    (h : extensionDir? m root name = some dir) : ∃ c, IsName c ∧ dir = join root c := by
  by_cases hdirect : m.isDir (join root name) = true
  · simp only [extensionDir?, hdirect, if_true, Option.some.injEq] at h
    exact ⟨name, hn, h.symm⟩
  · simp only [extensionDir?, hdirect, Bool.false_eq_true, if_false] at h
    cases hread : m.readDir root with
    | error e => simp [hread] at h
    | ok entries =>
      simp only [hread] at h
      -- a directory found by what it identifies as is one the root lists
      obtain ⟨c, hc, rfl⟩ := List.mem_map.1 (List.mem_of_find?_eq_some h)
      exact ⟨c, hnamed.isName_of_readDir hread hc, rfl⟩

/-- The marker of an accepted name is a file directly inside an entry of the root. -/
theorem markerPath_inEntry (hn : IsName name) (hfile : IsName fileName) (hnamed : m.files.Named) :
    InEntry m.cwd root (markerPath m root fileName name) := by
  unfold markerPath
  cases hd : extensionDir? m root name with
  | none => exact inEntry_inside hn hfile
  | some dir =>
    obtain ⟨c, hc, rfl⟩ := extensionDir?_entry hn hnamed hd
    exact inEntry_inside hc hfile

theorem read_run {α : Type} (f : Machine → Except Error α) :
    (Act.read f).run m = match f m with
      | .ok a => .ok a m
      | .error e => .error e m := rfl

theorem set_refused (hstore : m.markers = .files root fileName) {reason : String}
    (h : Name.problem? name = some reason) :
    (set name).run m = .error (.invalidName name reason) m := by
  simp only [set, EStateM.run_bind, EStateM.run_get, hstore, read_run, Name.validate_of_problem h]

theorem clear_refused (hstore : m.markers = .files root fileName) {reason : String}
    (h : Name.problem? name = some reason) :
    (clear name).run m = .error (.invalidName name reason) m := by
  simp only [clear, EStateM.run_bind, EStateM.run_get, hstore, read_run, Name.validate_of_problem h]

theorem exists_refused (hstore : m.markers = .files root fileName) {reason : String}
    (h : Name.problem? name = some reason) :
    (exists_ name).run m = .error (.invalidName name reason) m := by
  simp only [exists_, EStateM.run_bind, EStateM.run_get, hstore, read_run, Name.validate_of_problem h]

/-- Setting a marker writes only the marker file of an entry of the root and the temporary file
beside it, and makes that entry's directory. -/
theorem set_confined (hstore : m.markers = .files root fileName) (hfile : IsName fileName)
    (hpid : '/' ∉ m.pid.toList) (hnamed : m.files.Named) :
    Act.Confined (InEntry m.cwd root) (set name) m := by
  unfold set
  refine Act.Confined.get_bind ?_
  rw [hstore]
  refine Act.Confined.bind (Act.Confined.read _) fun _ m₁ h₁ => ?_
  obtain ⟨hvalid, rfl⟩ := Act.read_run_ok h₁
  split
  · exact Act.Confined.throw _
  · next dir hdir =>
    obtain ⟨c, hc, rfl⟩ := extensionDir?_entry (Name.isName_of_validate hvalid) hnamed hdir
    refine Act.Confined.writeAtomic (fun q hq => inEntry_parent hc hfile hq) ?_ (inEntry_inside hc hfile)
    rw [fileName?_join_name (join_entry_ne_empty hc) hfile, Option.getD_some]
    exact inEntry_withFileName hc hfile (isName_tempName hfile hpid).1

/-- Clearing a marker removes only the marker file of an entry of the root. -/
theorem clear_confined (hstore : m.markers = .files root fileName) (hfile : IsName fileName)
    (hnamed : m.files.Named) :
    Act.Confined (InEntry m.cwd root) (clear name) m := by
  unfold clear
  refine Act.Confined.get_bind ?_
  rw [hstore]
  refine Act.Confined.bind (Act.Confined.read _) fun _ m₁ h₁ => ?_
  obtain ⟨hvalid, rfl⟩ := Act.read_run_ok h₁
  exact Act.Confined.removeFileIfExists (markerPath_inEntry (Name.isName_of_validate hvalid) hfile hnamed)

/-- Asking whether a marker is there changes nothing. -/
theorem exists_final (hstore : m.markers = .files root fileName) :
    Act.final ((exists_ name).run m) = m := by
  simp only [exists_, EStateM.run_bind, EStateM.run_get, hstore, read_run]
  cases Name.validate name <;> rfl

end MarkerStore

/-! ## The linker -/

namespace Linker

variable {m : Machine} {name : String}

theorem unlink_refused (l : Linker) {reason : String} (h : Name.problem? name = some reason) :
    (l.unlink name).run m = .error (.invalidName name reason) m := by
  simp only [unlink, EStateM.run_bind, MarkerStore.read_run, Name.validate_of_problem h]

theorem isLinked_refused (l : Linker) {reason : String} (h : Name.problem? name = some reason) :
    l.isLinked m name = false := by
  simp [isLinked, Name.isValid, h]

/-- Unlinking removes only the entry of the name in the root. -/
theorem unlink_confined (l : Linker) : Act.Confined (AtEntry m.cwd l.root) (l.unlink name) m := by
  have hdest : Name.validate name = .ok () → ∀ cwd, AtEntry cwd l.root (l.destination name) :=
    fun hvalid _ => atEntry_join (Name.isName_of_validate hvalid)
  unfold unlink
  refine Act.Confined.bind (Act.Confined.read _) fun _ m₁ h₁ => ?_
  obtain ⟨hvalid, rfl⟩ := Act.read_run_ok h₁
  refine Act.Confined.bind (Act.Confined.read _) fun occupant m₂ h₂ => ?_
  obtain ⟨-, rfl⟩ := Act.read_run_ok h₂
  cases occupant with
  | nothing => exact Act.Confined.pure _
  | symlink _ =>
    exact Act.Confined.bind (Act.Confined.change _ (.unlink _) (by simpa [Edit.paths] using hdest hvalid _))
      fun _ _ _ => Act.Confined.pure _
  | copy _ =>
    exact Act.Confined.bind (Act.Confined.change _ (.removeAll _) (by simpa [Edit.paths] using hdest hvalid _))
      fun _ _ _ => Act.Confined.pure _
  | directory => exact Act.Confined.throw _
  | file => exact Act.Confined.throw _

end Linker

/-! ## Every operation on a name -/

/-- A name given to the operations on the extension directories stays inside the root. A name
the check refuses is refused, as an invalid name, before anything is read or changed. Setting
and clearing a marker edit only inside an entry of the root, asking for one changes nothing, and
unlinking edits only the entry of the name. Every name identified from a directory passes the
check, so the linker's destination for it is an entry of the root. -/
structure StaysInRoot (m : Machine) (root : String) (l : Linker) (name : String) : Prop where
  refused : ∀ reason, Name.problem? name = some reason →
    (MarkerStore.set name).run m = .error (.invalidName name reason) m ∧
    (MarkerStore.clear name).run m = .error (.invalidName name reason) m ∧
    (MarkerStore.exists_ name).run m = .error (.invalidName name reason) m ∧
    (l.unlink name).run m = .error (.invalidName name reason) m ∧ l.isLinked m name = false
  set : Act.Confined (InEntry m.cwd root) (MarkerStore.set name) m
  clear : Act.Confined (InEntry m.cwd root) (MarkerStore.clear name) m
  exists_ : Act.final ((MarkerStore.exists_ name).run m) = m
  unlink : Act.Confined (AtEntry m.cwd l.root) (l.unlink name) m
  identified : ∀ dir found key, identify m dir = .ok (found, key) →
    Name.isValid found = true ∧ AtEntry m.cwd l.root (l.destination found)

/-- Whatever the name, the file store of a checked configuration, over a tree of names and with a
process number free of slashes, and the linker stay inside their root. -/
theorem stays_in_root {cfg : KitchenConfig} (hcfg : cfg.problem? = none) {m : Machine} {root : String}
    (hstore : m.markers = .files root cfg.seeding.markerFile) (hpid : '/' ∉ m.pid.toList)
    (hnamed : m.files.Named) (l : Linker) (name : String) : StaysInRoot m root l name where
  refused _ h := ⟨MarkerStore.set_refused hstore h, MarkerStore.clear_refused hstore h,
    MarkerStore.exists_refused hstore h, Linker.unlink_refused l h, Linker.isLinked_refused l h⟩
  set := MarkerStore.set_confined hstore (KitchenConfig.markerFile_isName hcfg) hpid hnamed
  clear := MarkerStore.clear_confined hstore (KitchenConfig.markerFile_isName hcfg) hnamed
  exists_ := MarkerStore.exists_final hstore
  unlink := Linker.unlink_confined l
  identified _ _ _ h := ⟨identify_valid h, atEntry_join (Name.isName_of_isValid (identify_valid h))⟩

/-- A root holding the link of one extension, for the marker file of the default configuration. -/
def linkedRoot : Machine :=
  { files := ⟨[(["ext"], .dir), (["ext", "org.example.a"], .link "/src/a")]⟩,
    cwd := [], env := [], clock := "", pid := "7", host := default,
    markers := .files "/ext" ({} : KitchenConfig).seeding.markerFile, runner := .recording [] [] }

theorem stays_in_root_linked :
    ({} : KitchenConfig).problem? = none ∧
      linkedRoot.markers = .files "/ext" ({} : KitchenConfig).seeding.markerFile ∧
      '/' ∉ linkedRoot.pid.toList ∧ linkedRoot.files.Named ∧
      StaysInRoot linkedRoot "/ext" ⟨"/ext", .symlink⟩ "../etc" := by
  have hcfg : ({} : KitchenConfig).problem? = none := by
    simp [KitchenConfig.problem?, String.contains_char_eq, Text.trim, Text.trimStart, Text.trimEnd,
      Text.isBlank]
  exact ⟨hcfg, rfl, by decide, by decide,
    stays_in_root hcfg rfl (by decide) (by decide) ⟨"/ext", .symlink⟩ "../etc"⟩

end Provisioning
