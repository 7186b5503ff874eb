import Provisioning.Seed
import Provisioning.Proofs.FileTree.Frame
import Provisioning.Proofs.Runner
/-!
What writing and removing a marker file change in the tree.

The file store writes a marker through a temporary file beside it, renamed
into place, and removes one by unlinking it. Each of these steps changes
the tree only at and below the locations it writes (`SameOutside`): writing
the marker of a directory under the root changes its marker and its
temporary file (`writeMarker_effect`), removing it changes its marker
alone (`removeMarker_effect`), and after the one the marker is a file,
after the other it is none.

The root, the directories under it and their `info.xml` files lie where no
such step reaches (`BelowRoot`), so what the store reads there stays:
whether the root is a directory, what it lists, and what each directory
under it identifies as (`SameOutside.readDir_root`,
`SameOutside.identify_dir`).
-/

namespace Provisioning

open Provisioning.Path FileTree

/-! ## What a machine reads, through the entries at paths -/

namespace Machine

variable {m m' : Machine} {p : String}

theorem isDir_eq_of_stat (h : m'.files.stat m'.cwd p = m.files.stat m.cwd p) :
    m'.isDir p = m.isDir p := by
  simp only [isDir, FileTree.isDir, h]

theorem isFile_eq_of_stat (h : m'.files.stat m'.cwd p = m.files.stat m.cwd p) :
    m'.isFile p = m.isFile p := by
  simp only [isFile, FileTree.isFile, h]

theorem readTextIfExists_eq_of_stat (h : m'.files.stat m'.cwd p = m.files.stat m.cwd p) :
    m'.readTextIfExists p = m.readTextIfExists p := by
  simp only [readTextIfExists, FileTree.readTextIfExists, FileTree.readText, FileTree.readBytes, h]

end Machine

/-- A directory whose path names it is identified from its `info.xml` alone. -/
theorem identify_eq_of_info {m m' : Machine} {dir c : String} (hname : Path.fileName? dir = some c)
    (h : m'.readTextIfExists (Path.join dir infoFileName) =
      m.readTextIfExists (Path.join dir infoFileName)) :
    identify m' dir = identify m dir := by
  have hdir : ∀ u : Machine, dirName? u dir = some c := fun u => by simp [dirName?, hname]
  simp only [identify, h, hdir]

/-! ## Machines whose files differ only at some locations -/

/-- The files of `m'` are those of `m` except at and below the locations `Q`. -/
structure SameOutside (m m' : Machine) (Q : List (List String)) : Prop where
  cwd : m'.cwd = m.cwd
  markers : m'.markers = m.markers
  /-- The files have no links. -/
  linkFree : m'.files.LinkFree
  /-- Every location that none of `Q` leads to holds what it held. -/
  node : ∀ l, (∀ q ∈ Q, ¬ q <+: l) → m'.files.node? l = m.files.node? l
  /-- Every location above all of `Q` has the names inside it that it had. -/
  childNames : ∀ R, (∀ q ∈ Q, R.length + 1 < q.length) →
    m'.files.childNames R = m.files.childNames R

namespace SameOutside

variable {m m' m'' : Machine} {Q Q' : List (List String)}

theorem self (h : m.files.LinkFree) (Q : List (List String)) : SameOutside m m Q :=
  ⟨rfl, rfl, h, fun _ _ => rfl, fun _ _ => rfl⟩

theorem trans (h : SameOutside m m' Q) (h' : SameOutside m' m'' Q') :
    SameOutside m m'' (Q ++ Q') where
  cwd := h'.cwd.trans h.cwd
  markers := h'.markers.trans h.markers
  linkFree := h'.linkFree
  node l hl := by
    rw [h'.node l fun q hq => hl q (List.mem_append_right _ hq),
      h.node l fun q hq => hl q (List.mem_append_left _ hq)]
  childNames R hR := by
    rw [h'.childNames R fun q hq => hR q (List.mem_append_right _ hq),
      h.childNames R fun q hq => hR q (List.mem_append_left _ hq)]

/-- Erasing a location changes the files only there. -/
theorem erase (h : m.files.LinkFree) (D : List String) :
    SameOutside m { m with files := m.files.erase D } [D] where
  cwd := rfl
  markers := rfl
  linkFree := h.erase
  node _ hl := node?_erase_of_not_prefix (hl _ (List.mem_singleton_self _))
  childNames _ hR := childNames_erase (hR _ (List.mem_singleton_self _))

/-- Putting an entry at one location and moving it to another changes the files only at the
two. -/
theorem move (h : m.files.LinkFree) {T D : List String} {n : Node} (hn : n.isLink = false) :
    SameOutside m { m with files := (m.files.put T n).moveEntry T D n } [D, T] where
  cwd := rfl
  markers := rfl
  linkFree := (h.put hn).moveEntry hn
  node l hl := by
    have hT : ¬ T <+: l := hl T (by simp)
    have hne : l ≠ T := fun heq => hT (heq ▸ List.prefix_refl l)
    have hmove := node?_moveEntry_of_not_prefix (t := m.files.put T n) (n := n) hT (hl D (by simp))
    rw [hmove, node?_put_of_ne hne]
  childNames R hR := by
    have hT := hR T (by simp)
    rw [childNames_moveEntry hT (hR D (by simp)), childNames_put (by omega)]

/-- A path whose lexical location passes none of `Q` gives the same entry. -/
theorem stat_eq (hs : SameOutside m m' Q) (hfree : m.files.LinkFree) {p : String}
    (hup : ".." ∉ split p) (hp : ∀ q ∈ Q, ∀ l, l <+: lexical m.cwd p → ¬ q <+: l) :
    m'.files.stat m'.cwd p = m.files.stat m.cwd p := by
  rw [hs.cwd]
  exact (stat_congr hfree hup fun l hl => (hs.node l fun q hq => hp q hq l hl).symm).symm

end SameOutside

/-! ## Below the extensions root -/

section Root

variable {m m' : Machine} {root : String} {Q : List (List String)}

/-- Each location of `Q` is an entry two levels below the root, other than an `info.xml`. -/
def BelowRoot (m : Machine) (root : String) (Q : List (List String)) : Prop :=
  ∀ q ∈ Q, ∃ c x, q = lexical m.cwd root ++ [c, x] ∧ x ≠ infoFileName

/-- A location two levels below `R` begins no way to `R` or to a directory inside it. -/
theorem not_prefix_below {R l extra : List String} {c x : String} (hl : l <+: R ++ extra)
    (hextra : extra.length ≤ 1) : ¬ R ++ [c, x] <+: l := by
  intro h
  have h₁ := h.length_le
  have h₂ := hl.length_le
  simp only [List.length_append, List.length_cons, List.length_nil] at h₁ h₂
  omega

/-- No location of `Q` begins the way to the root or to a directory under it. -/
theorem BelowRoot.not_prefix (hQ : BelowRoot m root Q) {q l extra : List String} (hq : q ∈ Q)
    (hextra : extra.length ≤ 1) (hl : l <+: lexical m.cwd root ++ extra) : ¬ q <+: l := by
  obtain ⟨c, x, rfl, -⟩ := hQ q hq
  exact not_prefix_below hl hextra

section
variable (hs : SameOutside m m' Q) (hfree : m.files.LinkFree) (hup : ".." ∉ split root)
  (hQ : BelowRoot m root Q)
include hs hfree hup hQ

theorem SameOutside.isDir_root : m'.isDir root = m.isDir root := by
  refine Machine.isDir_eq_of_stat (hs.stat_eq hfree hup fun q hq l hl => ?_)
  exact hQ.not_prefix hq (by simp : ([] : List String).length ≤ 1) (by simpa using hl)

theorem SameOutside.readDir_root : m'.readDir root = m.readDir root := by
  -- the root's location and the way to it are out of reach of `Q`
  have hagree : ∀ l, l <+: lexical m.cwd root → m.files.node? l = m'.files.node? l :=
    fun l hl => (hs.node l fun q hq =>
      hQ.not_prefix hq (by simp : ([] : List String).length ≤ 1) (by simpa using hl)).symm
  unfold Machine.readDir FileTree.readDir
  rw [hs.cwd, ← locate_congr hfree hup hagree true true]
  cases hl : m.files.locate m.cwd root true with
  | error e => rfl
  | ok L =>
    obtain rfl := locate_lexical hfree hup hl
    have hnames := hs.childNames (lexical m.cwd root) fun q hq => by
      obtain ⟨c, x, rfl, -⟩ := hQ q hq
      simp
    simp only [bind, Except.bind, hagree _ List.prefix_rfl, hnames]

/-- The entry at a name inside a directory under the root stays, unless `Q` holds it. -/
theorem SameOutside.stat_file (hroot : root ≠ "") {c x : String} (hc : IsName c) (hx : IsName x)
    (hnot : lexical m.cwd root ++ [c, x] ∉ Q) :
    m'.files.stat m'.cwd (join (join root c) x) = m.files.stat m.cwd (join (join root c) x) := by
  have hdir : join root c ≠ "" := join_name_ne_empty hroot hc
  refine hs.stat_eq hfree (climb_free_join_name hdir hx (climb_free_join_name hroot hc hup))
    fun q hq l hl hql => ?_
  obtain ⟨c', y, rfl, -⟩ := hQ q hq
  rw [lexical_join_name hdir hx, lexical_join_name hroot hc] at hl
  -- a location two levels down that begins a path two levels down is that path's location
  have heq := (hql.trans hl).eq_of_length (by simp)
  rw [List.append_assoc, List.singleton_append] at heq
  exact hnot (heq ▸ hq)

theorem SameOutside.isFile_file (hroot : root ≠ "") {c x : String} (hc : IsName c) (hx : IsName x)
    (hnot : lexical m.cwd root ++ [c, x] ∉ Q) :
    m'.isFile (join (join root c) x) = m.isFile (join (join root c) x) :=
  Machine.isFile_eq_of_stat (hs.stat_file hfree hup hQ hroot hc hx hnot)

theorem SameOutside.identify_dir (hroot : root ≠ "") {c : String} (hc : IsName c) :
    identify m' (join root c) = identify m (join root c) := by
  have hinfo : IsName infoFileName := by decide
  refine identify_eq_of_info (fileName?_join_name hroot hc)
    (Machine.readTextIfExists_eq_of_stat (hs.stat_file hfree hup hQ hroot hc hinfo ?_))
  intro hmem
  obtain ⟨c', x, hq, hx⟩ := hQ _ hmem
  rw [List.append_cancel_left_eq] at hq
  obtain ⟨-, hrest⟩ := List.cons.inj hq
  exact hx (List.cons.inj hrest).1.symm

end

end Root

/-! ## Writing and removing a file -/

namespace Act

variable {m m' : Machine}

theorem run_read {α : Type} {f : Machine → Except Error α} {a : α} (h : f m = .ok a) :
    (read f).run m = .ok a m := by
  simp [read, EStateM.run, h]

theorem read_run_ok {α : Type} {f : Machine → Except Error α} {a : α}
    (h : (read f).run m = .ok a m') : f m = .ok a ∧ m' = m := by
  simp only [read, EStateM.run] at h
  split at h
  · next ha =>
    cases h
    exact ⟨ha, rfl⟩
  · cases h

theorem change_run_ok {wrap : OsError → Error}
    {f : FileTree → List String → Except OsError FileTree} {u : Unit} (h : (change wrap f).run m = .ok u m') :
    ∃ t, f m.files m.cwd = .ok t ∧ m' = { m with files := t } := by
  simp only [change, EStateM.run] at h
  split at h
  · next t ht =>
    cases h
    exact ⟨t, ht, rfl⟩
  · cases h

/-- What an atomic write does when it succeeds: it makes the parent, writes the temporary file
beside the target and renames it onto the target, changing nothing but the files. -/
theorem writeAtomic_steps {p content : String} (h : (writeAtomic p content).run m = .ok () m') :
    ∃ t₁ t₂, (match parent? p with
        | some q => m.files.mkdirAll m.cwd q
        | none => .ok m.files) = .ok t₁ ∧
      t₁.writeBytes m.cwd (withFileName p ("." ++ (fileName? p).getD "" ++ "." ++ m.pid ++ ".tmp"))
        (bytesOf content) = .ok t₂ ∧
      t₂.rename m.cwd (withFileName p ("." ++ (fileName? p).getD "" ++ "." ++ m.pid ++ ".tmp")) p =
        .ok m'.files ∧
      m' = { m with files := m'.files } := by
  -- after the parent, the temporary file is written and renamed, on the machine as it then is
  have tail : ∀ m₁ : Machine, (get >>= fun m₂ : Machine =>
      change (Machine.fsError (withFileName p ("." ++ (fileName? p).getD "" ++ "." ++ m₂.pid ++ ".tmp")))
        (fun t cwd => t.writeBytes cwd (withFileName p ("." ++ (fileName? p).getD "" ++ "." ++ m₂.pid ++ ".tmp"))
          (bytesOf content)) >>= fun _ =>
      change (Machine.fsError p) fun t cwd =>
        t.rename cwd (withFileName p ("." ++ (fileName? p).getD "" ++ "." ++ m₂.pid ++ ".tmp")) p).run m₁ =
        .ok () m' →
      ∃ t₂, m₁.files.writeBytes m₁.cwd (withFileName p ("." ++ (fileName? p).getD "" ++ "." ++ m₁.pid ++ ".tmp"))
          (bytesOf content) = .ok t₂ ∧
        t₂.rename m₁.cwd (withFileName p ("." ++ (fileName? p).getD "" ++ "." ++ m₁.pid ++ ".tmp")) p =
          .ok m'.files ∧ m' = { m₁ with files := m'.files } := by
    intro m₁ hrest
    obtain ⟨m₂, _, hget, hchanges⟩ := run_bind_eq_ok hrest
    cases hget
    obtain ⟨u, m₃, hwrite, hrename⟩ := run_bind_eq_ok hchanges
    obtain ⟨t₂, hwrite', rfl⟩ := change_run_ok hwrite
    obtain ⟨t₃, hrename', rfl⟩ := change_run_ok hrename
    exact ⟨t₂, hwrite', hrename', rfl⟩
  unfold writeAtomic at h
  cases hp : parent? p with
  | none =>
    simp only [hp] at h
    obtain ⟨t₂, hwrite, hrename, hm'⟩ := tail m h
    exact ⟨m.files, t₂, rfl, hwrite, hrename, hm'⟩
  | some q =>
    simp only [hp] at h
    obtain ⟨u, m₁, hdirs, hrest⟩ := run_bind_eq_ok h
    obtain ⟨t₁, hmk, rfl⟩ := change_run_ok hdirs
    obtain ⟨t₂, hwrite, hrename, hm'⟩ := tail _ hrest
    exact ⟨t₁, t₂, hmk, hwrite, hrename, hm'⟩

/-- Writing beside a directory that is there writes the temporary file and renames it into
place, and changes nothing but the files. -/
theorem writeAtomic_run_ok (hfree : m.files.LinkFree) {p q content : String}
    (hparent : parent? p = some q) (hq : m.isDir q = true)
    (h : (writeAtomic p content).run m = .ok () m') :
    ∃ t, m.files.writeBytes m.cwd (join q ("." ++ (fileName? p).getD "" ++ "." ++ m.pid ++ ".tmp"))
        (bytesOf content) = .ok t ∧
      t.rename m.cwd (join q ("." ++ (fileName? p).getD "" ++ "." ++ m.pid ++ ".tmp")) p =
        .ok m'.files ∧
      m' = { m with files := m'.files } := by
  obtain ⟨t₁, t₂, hdirs, hwrite, hrename, hm'⟩ := writeAtomic_steps h
  -- the parent is there, so making it changes nothing
  simp only [hparent, mkdirAll_of_isDir hfree hq, Except.ok.injEq] at hdirs
  subst hdirs
  simp only [withFileName, hparent] at hwrite hrename
  exact ⟨t₂, hwrite, hrename, hm'⟩

theorem removeFileIfExists_run_ok {p : String} {b : Bool}
    (h : (removeFileIfExists p).run m = .ok b m') :
    (∃ t, m.files.unlink m.cwd p = .ok t ∧ m' = { m with files := t }) ∨
      (m.files.unlink m.cwd p = .error .notFound ∧ m' = m) := by
  simp only [removeFileIfExists, EStateM.run] at h
  split at h
  · next t ht =>
    cases h
    exact .inl ⟨t, ht, rfl⟩
  · next ht =>
    cases h
    exact .inr ⟨ht, rfl⟩
  · cases h

end Act

/-- Writing a file under a temporary name and renaming it onto its target, in a tree without
links and along paths that do not climb with `..`: the file is put at the temporary name's
location and moved from there onto the target's, where no directory was. -/
theorem FileTree.writeBytes_rename_moved {t t₁ t₂ : FileTree} {cwd S P : List String}
    {tp p : String} {data : List UInt8} (hfree : t.LinkFree)
    (hS : lexical cwd tp = S) (hSup : ".." ∉ split tp) (hP : lexical cwd p = P)
    (hPup : ".." ∉ split p) (hSP : S ≠ P) (hSne : S ≠ [])
    (hwrite : t.writeBytes cwd tp data = .ok t₁) (hrename : t₁.rename cwd tp p = .ok t₂) :
    ∃ mode, t₁ = t.put S (.file data mode) ∧ t₂ = t₁.moveEntry S P (.file data mode) ∧
      t₁.locate cwd p false = .ok P ∧ t₁.node? P ≠ some .dir := by
  -- without links, each path is found at its lexical location
  obtain ⟨L, hL, -, mode, rfl⟩ := writeBytes_ok hwrite
  have hSL : S = L := ((locate_lexical hfree hSup hL).trans hS).symm
  subst hSL
  have hfree₁ : (t.put S (.file data mode)).LinkFree := hfree.put rfl
  obtain ⟨S', P', hS', hP'⟩ := rename_locate hrename
  have hSS' : S = S' := ((locate_lexical hfree₁ hSup hS').trans hS).symm
  have hPP' : P = P' := ((locate_lexical hfree₁ hPup hP').trans hP).symm
  subst hSS' hPP'
  obtain ⟨hPdir, -, rfl⟩ := rename_file_ok hrename hS' hP' (node?_put_self hSne) hSP
  exact ⟨mode, rfl, rfl, hP', hPdir⟩

/-! ## What writing and removing a marker change -/

/-- The temporary file a marker is written through is named after the marker and the process:
a name of its own, neither the marker's nor `info.xml`. -/
theorem isName_tempName {x pid : String} (hx : IsName x) (hpid : '/' ∉ pid.toList) :
    IsName ("." ++ x ++ "." ++ pid ++ ".tmp") ∧ "." ++ x ++ "." ++ pid ++ ".tmp" ≠ x ∧
      "." ++ x ++ "." ++ pid ++ ".tmp" ≠ infoFileName := by
  have hlist : ("." ++ x ++ "." ++ pid ++ ".tmp").toList =
      '.' :: (x.toList ++ '.' :: (pid.toList ++ ['.', 't', 'm', 'p'])) := by simp
  -- the temporary name is longer than the name and starts with a dot
  have hlonger : ∀ y : String, y.toList.length ≤ x.toList.length + 5 →
      "." ++ x ++ "." ++ pid ++ ".tmp" ≠ y := by
    intro y hy h
    have := congrArg (fun s => s.toList.length) h
    simp only [hlist, List.length_cons, List.length_append] at this
    omega
  refine ⟨⟨hlonger "" (by simp), hlonger "." (by simp), hlonger ".." (by simp), ?_⟩,
    hlonger x (by omega), fun h => ?_⟩
  · rw [hlist]
    simp [hx.2.2.2, hpid]
  · have := congrArg (fun s => s.toList.head?) h
    simp [hlist, infoFileName] at this

section Effects

variable {m m' : Machine} {root fileName name : String}

/-- The location of a name inside a directory under the root. -/
theorem lexical_join_join {cwd : List String} (hroot : root ≠ "") (hn : IsName name)
    (hx : IsName fileName) :
    lexical cwd (join (join root name) fileName) = lexical cwd root ++ [name, fileName] := by
  simp [lexical_join_name (join_name_ne_empty hroot hn) hx, lexical_join_name hroot hn]

/-- Where writing the marker of a directory under the root goes: a file put at the temporary
file's location and moved onto the marker's, which was no directory. -/
theorem writeMarker_files (hfree : m.files.LinkFree) (hroot : root ≠ "") (hup : ".." ∉ split root)
    (hfile : IsName fileName) (hpid : '/' ∉ m.pid.toList) (hn : IsName name)
    (hdir : m.isDir (join root name) = true) {content : String}
    (h : (Act.writeAtomic (join (join root name) fileName) content).run m = .ok () m') :
    ∃ mode, m'.files =
        (m.files.put (lexical m.cwd root ++ [name, "." ++ fileName ++ "." ++ m.pid ++ ".tmp"])
          (.file (bytesOf content) mode)).moveEntry
          (lexical m.cwd root ++ [name, "." ++ fileName ++ "." ++ m.pid ++ ".tmp"])
          (lexical m.cwd root ++ [name, fileName]) (.file (bytesOf content) mode) ∧
      m' = { m with files := m'.files } ∧
      (m.files.put (lexical m.cwd root ++ [name, "." ++ fileName ++ "." ++ m.pid ++ ".tmp"])
        (.file (bytesOf content) mode)).locate m.cwd (join (join root name) fileName) false =
        .ok (lexical m.cwd root ++ [name, fileName]) ∧
      (m.files.put (lexical m.cwd root ++ [name, "." ++ fileName ++ "." ++ m.pid ++ ".tmp"])
        (.file (bytesOf content) mode)).node? (lexical m.cwd root ++ [name, fileName]) ≠
        some .dir := by
  have hdirne : join root name ≠ "" := join_name_ne_empty hroot hn
  have hdirup : ".." ∉ split (join root name) := climb_free_join_name hroot hn hup
  have hparts : parts (join root name) ≠ [] := by simp [parts_join_name hroot hn]
  obtain ⟨q, hparent, hqne, habs, hsub, hnamed⟩ := parent?_join_name hdirne hfile hparts
  -- the parent of the marker is the extension's directory, written another way
  have hlexq : lexical m.cwd q = lexical m.cwd root ++ [name] := by
    rw [← lexical_join_name hroot hn]
    simp only [lexical, origin, habs, hnamed]
  have hqup : ".." ∉ split q := fun hmem => hdirup (hsub.subset hmem)
  have hqdir : m.isDir q = true := by
    obtain ⟨L, hL, hnode⟩ := stat_ok (stat_of_isDir hdir)
    exact isDir_of_locate (locate_of_sublist hfree hqne habs hsub hnamed hL) hnode
  obtain ⟨t₁, hwrite, hrename, hm'⟩ := Act.writeAtomic_run_ok hfree hparent hqdir h
  rw [fileName?_join_name hdirne hfile, Option.getD_some] at hwrite hrename
  obtain ⟨htmp, htmp_ne, -⟩ := isName_tempName hfile hpid
  have hlexT : lexical m.cwd (join q ("." ++ fileName ++ "." ++ m.pid ++ ".tmp")) =
      lexical m.cwd root ++ [name, "." ++ fileName ++ "." ++ m.pid ++ ".tmp"] := by
    simp [lexical_join_name hqne htmp, hlexq]
  -- the temporary file is put at its location, then moved onto the marker's
  obtain ⟨mode, rfl, ht₂, hD, hDdir⟩ := writeBytes_rename_moved hfree hlexT
    (climb_free_join_name hqne htmp hqup) (lexical_join_join hroot hn hfile)
    (climb_free_join_name hdirne hfile hdirup) (by simpa using htmp_ne) (by simp) hwrite hrename
  exact ⟨mode, ht₂, hm', hD, hDdir⟩

/-- Writing the marker of a directory under the root puts a file there, through a temporary
file beside it, and changes the tree nowhere else. -/
theorem writeMarker_effect (hfree : m.files.LinkFree) (hroot : root ≠ "") (hup : ".." ∉ split root)
    (hfile : IsName fileName) (hpid : '/' ∉ m.pid.toList) (hn : IsName name)
    (hdir : m.isDir (join root name) = true) {content : String}
    (h : (Act.writeAtomic (join (join root name) fileName) content).run m = .ok () m') :
    SameOutside m m' [lexical m.cwd root ++ [name, fileName],
        lexical m.cwd root ++ [name, "." ++ fileName ++ "." ++ m.pid ++ ".tmp"]] ∧
      m'.isFile (join (join root name) fileName) = true := by
  obtain ⟨mode, hfiles, hm', hD, hDdir⟩ := writeMarker_files hfree hroot hup hfile hpid hn hdir h
  rw [hfiles] at hm'
  subst hm'
  set T := lexical m.cwd root ++ [name, "." ++ fileName ++ "." ++ m.pid ++ ".tmp"]
  set D := lexical m.cwd root ++ [name, fileName]
  set f : Node := .file (bytesOf content) mode
  have hfree₁ : (m.files.put T f).LinkFree := hfree.put rfl
  refine ⟨SameOutside.move hfree rfl, ?_⟩
  have hmoved : ((m.files.put T f).moveEntry T D f).node? D = some f :=
    node?_moveEntry_dst (by simp [D])
  -- the way to the marker is untouched, and the marker is the file moved there
  have hway : ∀ l, l <+: lexical m.cwd (join root name) →
      ((m.files.put T f).moveEntry T D f).node? l = (m.files.put T f).node? l := by
    intro l hl
    rw [lexical_join_name hroot hn] at hl
    exact node?_moveEntry_of_not_prefix (not_prefix_below hl (by simp))
      (not_prefix_below hl (by simp))
  have hlex : lexical m.cwd (join (join root name) fileName) = D := lexical_join_join hroot hn hfile
  show FileTree.isFile _ m.cwd _ = true
  rw [isFile_join_name_congr hfree₁ (hfree₁.moveEntry rfl) (join_name_ne_empty hroot hn) hfile
    (climb_free_join_name hroot hn hup) hway (by rwa [hlex]) (by simp [hlex, hmoved]) hD, hmoved]
  rfl

/-- Removing the marker of a directory under the root leaves no file there, and changes the
tree nowhere else. -/
theorem removeMarker_effect (hfree : m.files.LinkFree) (hroot : root ≠ "") (hup : ".." ∉ split root)
    (hfile : IsName fileName) (hn : IsName name) {b : Bool}
    (h : (Act.removeFileIfExists (join (join root name) fileName)).run m = .ok b m') :
    SameOutside m m' [lexical m.cwd root ++ [name, fileName]] ∧
      m'.isFile (join (join root name) fileName) = false := by
  have hdirne : join root name ≠ "" := join_name_ne_empty hroot hn
  have hdirup : ".." ∉ split (join root name) := climb_free_join_name hroot hn hup
  rcases Act.removeFileIfExists_run_ok h with ⟨t, hun, rfl⟩ | ⟨hun, rfl⟩
  case inr => exact ⟨SameOutside.self hfree _, isFile_of_unlink_notFound hfree hun⟩
  case inl =>
  obtain ⟨L, hL, -, hLdir, rfl⟩ := unlink_ok hun
  obtain rfl := (locate_lexical hfree (climb_free_join_name hdirne hfile hdirup) hL).trans
    (lexical_join_join hroot hn hfile)
  refine ⟨SameOutside.erase hfree _, ?_⟩
  have hlex : lexical m.cwd (join (join root name) fileName) = lexical m.cwd root ++ [name, fileName] :=
    lexical_join_join hroot hn hfile
  have hgone := node?_erase_of_prefix (t := m.files) (by simp)
    (List.prefix_refl (lexical m.cwd root ++ [name, fileName]))
  -- the way to the marker is untouched, and the marker is gone
  have hway : ∀ l, l <+: lexical m.cwd (join root name) →
      (m.files.erase (lexical m.cwd root ++ [name, fileName])).node? l = m.files.node? l := by
    intro l hl
    rw [lexical_join_name hroot hn] at hl
    exact node?_erase_of_not_prefix (not_prefix_below hl (by simp))
  show FileTree.isFile _ m.cwd _ = false
  rw [isFile_join_name_congr hfree hfree.erase hdirne hfile hdirup hway (by rwa [hlex])
    (by simp [hlex, hgone]) hL, hgone]
  rfl

end Effects

end Provisioning
