import Provisioning.Proofs.AtomicWrite
import Provisioning.Proofs.FileTree.Growth
/-!
Unlinking an extension, and unlinking as the undoing of linking.

Linking where nothing is found at the destination only adds: a link at the name, or a copy
made directory by directory with the record of its source written last. The run of each step is
followed in the file tree it changes.

* `Grew t₀ D m m'` — a step from `m` to `m'` that keeps everything of the machine but its files,
  keeps every directory, and leaves the files `t₀` grown at `D` (`FileTree.GrownAt`).
  `Act.Grows` says it of every successful run of an action, and is built up along the
  combinators the linker is written with (`bind`, `forIn`, `change`), as
  `Act.GrowsTo` is for a last step that also establishes a property of the files.
* `Linked t₀ cwd P name dest t` — what linking leaves: `t₀` with a link at the name, or a copy
  there (`CopyMade`) that is a directory with a readable record. `Linker.link_linked` shows
  that linking leaves it, from `copyTree_made` and `create_linked`.
* `Linker.unlink_absent`, `unlink_foreign`, `unlink_symlink` and `unlink_linked` follow
  `unlink` through the occupant it finds; `unlink_after_link` puts linking and unlinking
  together, and `unlink_laws` collects what unlinking does.

The path to a name is resolved with the fuel of every walk; what it finds below the root is
taken from the walk to the root once (`FileTree.Beneath`). A root that is a regular file is not
a place where nothing is found: the walk stops at the file and unlinking fails
(`unlink_below_file_root`).
-/

namespace Provisioning

open Provisioning.Path FileTree

/-! ## Runs that grow the files at one location -/

/-- `m'` is `m` with its files grown further at `D` over `t₀`: every directory of `m` kept, and
nothing else of the machine changed. -/
structure Grew (t₀ : FileTree) (D : List String) (m m' : Machine) : Prop where
  grown : GrownAt t₀ D m'.files
  dirs : KeepsDirs m.files m'.files
  rest : m' = { m with files := m'.files }

namespace Grew

variable {t₀ : FileTree} {D : List String} {m m₁ m₂ : Machine}

theorem refl (h : GrownAt t₀ D m.files) : Grew t₀ D m m := ⟨h, KeepsDirs.refl _, rfl⟩

theorem trans (h : Grew t₀ D m m₁) (h' : Grew t₀ D m₁ m₂) : Grew t₀ D m m₂ where
  grown := h'.grown
  dirs := h.dirs.trans h'.dirs
  rest := by rw [h'.rest, h.rest]

theorem cwd_eq (h : Grew t₀ D m m₁) : m₁.cwd = m.cwd := by
  rw [h.rest]

theorem pid_eq (h : Grew t₀ D m m₁) : m₁.pid = m.pid := by
  rw [h.rest]

end Grew

/-- Every run of `x` from `m`, with files grown at `D` over `t₀`, that answers ends in a machine
that `m` grew into. -/
def Act.Grows (t₀ : FileTree) (D : List String) {α : Type} (x : Act α) (m : Machine) : Prop :=
  GrownAt t₀ D m.files → ∀ a m', x.run m = .ok a m' → Grew t₀ D m m'

namespace Act.Grows

variable {t₀ : FileTree} {D : List String} {α β γ σ : Type} {m : Machine}

theorem pure (a : α) : Act.Grows t₀ D (Pure.pure a : Act α) m := by
  intro h a' m' hrun
  cases hrun
  exact Grew.refl h

theorem throw (e : Error) : Act.Grows t₀ D (MonadExcept.throw e : Act α) m := by
  intro _ a' m' hrun
  cases hrun

theorem throw_bind (e : Error) {k : α → Act β} :
    Act.Grows t₀ D (MonadExcept.throw e >>= k) m := by
  intro _ b m' hrun
  obtain ⟨a, m₁, hthrow, -⟩ := Act.run_bind_eq_ok hrun
  cases hthrow

theorem read (f : Machine → Except Error α) : Act.Grows t₀ D (Act.read f) m := by
  intro h a m' hrun
  obtain ⟨-, rfl⟩ := Act.read_run_ok hrun
  exact Grew.refl h

theorem get_bind {k : Machine → Act β} (hk : Act.Grows t₀ D (k m) m) :
    Act.Grows t₀ D ((MonadState.get : Act Machine) >>= k) m := hk

theorem bind {x : Act α} {k : α → Act β} (hx : Act.Grows t₀ D x m)
    (hk : ∀ a m₁, x.run m = .ok a m₁ → Grew t₀ D m m₁ → Act.Grows t₀ D (k a) m₁) :
    Act.Grows t₀ D (x >>= k) m := by
  intro h b m' hrun
  obtain ⟨a, m₁, hx₁, hk₁⟩ := Act.run_bind_eq_ok hrun
  have h₁ := hx h a m₁ hx₁
  exact h₁.trans (hk a m₁ hx₁ h₁ h₁.grown b m' hk₁)

/-- A change of the files that keeps them grown and keeps their directories. -/
theorem change {wrap : OsError → Error} {f : FileTree → List String → Except OsError FileTree}
    (hf : GrownAt t₀ D m.files → ∀ t', f m.files m.cwd = .ok t' →
      GrownAt t₀ D t' ∧ KeepsDirs m.files t') :
    Act.Grows t₀ D (Act.change wrap f) m := by
  intro h u m' hrun
  obtain ⟨t', ht', rfl⟩ := Act.change_run_ok hrun
  obtain ⟨hgrown, hdirs⟩ := hf h t' ht'
  exact ⟨hgrown, hdirs, rfl⟩

/-- A loop grows the files when each of its rounds does, from every machine the loop reaches. -/
theorem forIn {l : List γ} {f : γ → σ → Act (ForInStep σ)}
    (hf : ∀ a ∈ l, ∀ s m₁, Grew t₀ D m m₁ → Act.Grows t₀ D (f a s) m₁) (init : σ) :
    Act.Grows t₀ D (ForIn.forIn l init f) m := by
  intro h
  -- the rounds run from the machines the loop has reached, each grown from `m`
  suffices hloop : ∀ (l' : List γ), (∀ a ∈ l', a ∈ l) → ∀ s m₁ r m', Grew t₀ D m m₁ →
      (ForIn.forIn l' s f).run m₁ = .ok r m' → Grew t₀ D m m' from
    fun r m' hrun => hloop l (fun _ ha => ha) init m r m' (Grew.refl h) hrun
  intro l'
  induction l' with
  | nil =>
    intro _ s m₁ r m' h₁ hrun
    cases hrun
    exact h₁
  | cons a l' ih =>
    intro hl s m₁ r m' h₁ hrun
    rw [List.forIn_cons] at hrun
    obtain ⟨step, m₂, hstep, hrest⟩ := Act.run_bind_eq_ok hrun
    have h₂ := h₁.trans (hf a (hl a List.mem_cons_self) s m₁ h₁ h₁.grown step m₂ hstep)
    cases step with
    | done b =>
      cases hrest
      exact h₂
    | yield b => exact ih (fun a' ha' => hl a' (List.mem_cons_of_mem _ ha')) b m₂ r m' h₂ hrest

end Act.Grows

/-- Every run of `x` from `m`, with files grown at `D` over `t₀`, that answers changes nothing of
the machine but its files, and leaves files that satisfy `Q`. -/
def Act.GrowsTo (t₀ : FileTree) (D : List String) (Q : FileTree → Prop) {α : Type} (x : Act α)
    (m : Machine) : Prop :=
  GrownAt t₀ D m.files → ∀ a m', x.run m = .ok a m' → m' = { m with files := m'.files } ∧ Q m'.files

namespace Act.GrowsTo

variable {t₀ : FileTree} {D : List String} {Q : FileTree → Prop} {α β : Type} {m : Machine}

theorem throw_bind (e : Error) {k : α → Act β} : Act.GrowsTo t₀ D Q (MonadExcept.throw e >>= k) m := by
  intro _ b m' hrun
  obtain ⟨a, m₁, hthrow, -⟩ := Act.run_bind_eq_ok hrun
  cases hthrow

theorem get_bind {k : Machine → Act β} (hk : Act.GrowsTo t₀ D Q (k m) m) :
    Act.GrowsTo t₀ D Q ((MonadState.get : Act Machine) >>= k) m := hk

/-- Growing the files, then going on to files that satisfy `Q`. -/
theorem bind {x : Act α} {k : α → Act β} (hx : Act.Grows t₀ D x m)
    (hk : ∀ a m₁, x.run m = .ok a m₁ → Grew t₀ D m m₁ → Act.GrowsTo t₀ D Q (k a) m₁) :
    Act.GrowsTo t₀ D Q (x >>= k) m := by
  intro h b m' hrun
  obtain ⟨a, m₁, hx₁, hk₁⟩ := Act.run_bind_eq_ok hrun
  have h₁ := hx h a m₁ hx₁
  obtain ⟨hm', hQ⟩ := hk a m₁ hx₁ h₁ h₁.grown b m' hk₁
  refine ⟨?_, hQ⟩
  rw [hm', h₁.rest]

theorem bind_pure {x : Act α} {g : α → β} (hx : Act.GrowsTo t₀ D Q x m) :
    Act.GrowsTo t₀ D Q (x >>= fun a => Pure.pure (g a)) m := by
  intro h b' m' hrun
  obtain ⟨a, m₁, hx₁, hpure⟩ := Act.run_bind_eq_ok hrun
  cases hpure
  exact hx h a m' hx₁

/-- A change of the files to files that satisfy `Q`. -/
theorem change {wrap : OsError → Error} {f : FileTree → List String → Except OsError FileTree}
    (hf : GrownAt t₀ D m.files → ∀ t', f m.files m.cwd = .ok t' → Q t') :
    Act.GrowsTo t₀ D Q (Act.change wrap f) m := by
  intro h u m' hrun
  obtain ⟨t', ht', rfl⟩ := Act.change_run_ok hrun
  exact ⟨rfl, hf h t' ht'⟩

theorem mono {Q' : FileTree → Prop} {x : Act α} (hx : Act.GrowsTo t₀ D Q x m)
    (hQ : ∀ t, Q t → Q' t) : Act.GrowsTo t₀ D Q' x m := by
  intro h a m' hrun
  obtain ⟨hm', hq⟩ := hx h a m' hrun
  exact ⟨hm', hQ _ hq⟩

end Act.GrowsTo

/-- What a copy at the name leaves: the files grown there, the destination a directory that its
path leads to without following a link at its end, and a record in it that reads back. -/
structure CopyMade (t₀ : FileTree) (cwd P : List String) (name dest : String) (t : FileTree) :
    Prop where
  grown : GrownAt t₀ (P ++ [name]) t
  dir : t.node? (P ++ [name]) = some .dir
  located : t.locate cwd dest false = .ok (P ++ [name])
  record : ∃ text, t.readText cwd (Path.join dest copySourceFileName) = .ok text

/-- What linking at a destination where nothing is leaves: a link at the name, that the
destination's path leads to without following it, or a copy. -/
def Linked (t₀ : FileTree) (cwd P : List String) (name dest : String) (t : FileTree) : Prop :=
  (∃ target, t = t₀.put (P ++ [name]) (.link target) ∧ t.locate cwd dest false = .ok (P ++ [name])) ∨
    CopyMade t₀ cwd P name dest t

theorem Act.try_run_ok {f : FileTree → List String → Except OsError FileTree} {m m' : Machine}
    {r : Except OsError Unit} (h : (Act.try_ f).run m = .ok r m') :
    (∃ t, f m.files m.cwd = .ok t ∧ r = .ok () ∧ m' = { m with files := t }) ∨
      (∃ e, f m.files m.cwd = .error e ∧ r = .error e ∧ m' = m) := by
  simp only [Act.try_, EStateM.run] at h
  split at h
  · next t ht =>
    cases h
    exact .inl ⟨t, ht, rfl, rfl⟩
  · next e he =>
    cases h
    exact .inr ⟨e, he, rfl, rfl⟩

/-- Where nothing is found at the destination, it is taken for empty. -/
theorem Linker.occupant_of_notFound {m : Machine} {dest : String}
    (h : m.files.lstat m.cwd dest = .error .notFound) : Linker.occupant m dest = .ok .nothing := by
  simp [Linker.occupant, h]

/-! ## Copying below the destination -/

section Copy

variable {t₀ : FileTree} {cwd P : List String} {root name : String}
variable (hroot : t₀.locate cwd root true = .ok P) (hP : t₀.node? P = some .dir)
  (hPnames : ∀ x ∈ P, IsName x)
include hroot hP hPnames

/-- Making a directory with its parents at a path below the name, through directories, grows the
files there. -/
theorem grows_mkdirAll {pre rel : List String} {p : String} {m : Machine} {wrap : OsError → Error}
    (hcwd : m.cwd = cwd) (hb : Beneath cwd root pre name p rel)
    (hdirs : ∀ ys, ys <+: rel → ys ≠ rel → m.files.node? (P ++ name :: ys) = some .dir) :
    Act.Grows t₀ (P ++ [name]) (Act.change wrap fun t cwd => t.mkdirAll cwd p) m :=
  Act.Grows.change fun hg _ ht' =>
    have hmk := hg.mkdirAll_beneath hroot hP hPnames hb hdirs (hcwd ▸ ht')
    ⟨hmk.1, hmk.2.1⟩

/-- Writing the record of a copy atomically into the destination, a directory, puts the record
where the destination's path leads: afterwards the destination is found without following a
link at its end, and the record reads back as the text written. -/
theorem writeAtomic_record {pre : List String} {dest content : String} {m m' : Machine}
    (hcwd : m.cwd = cwd) (hpid : '/' ∉ m.pid.toList) (hb : Beneath cwd root pre name dest [])
    (hg : GrownAt t₀ (P ++ [name]) m.files) (hD : m.files.node? (P ++ [name]) = some .dir)
    (h : (Act.writeAtomic (Path.join dest copySourceFileName) content).run m = .ok () m') :
    m' = { m with files := m'.files } ∧ GrownAt t₀ (P ++ [name]) m'.files ∧
      m'.files.node? (P ++ [name]) = some .dir ∧
      m'.files.locate cwd dest false = .ok (P ++ [name]) ∧
      m'.files.readText cwd (Path.join dest copySourceFileName) = .ok content := by
  have hrec : IsName copySourceFileName := by decide
  have hname := hb.names name List.mem_cons_self
  obtain ⟨q, preq, hq, hbq⟩ := hb.parent hrec
  obtain ⟨t₁, t₂, hdirs, hwrite, hrename, hm'⟩ := Act.writeAtomic_steps h
  simp only [hq] at hdirs
  rw [fileName?_join_entry hrec, Option.getD_some] at hwrite hrename
  obtain ⟨htmp, htmp_ne, -⟩ := isName_tempName hrec hpid
  have hT : withFileName (Path.join dest copySourceFileName)
      ("." ++ copySourceFileName ++ "." ++ m.pid ++ ".tmp") =
      Path.join q ("." ++ copySourceFileName ++ "." ++ m.pid ++ ".tmp") := by
    simp [withFileName, hq]
  rw [hT, hcwd] at hwrite hrename
  rw [hcwd] at hdirs
  -- the parent is the destination written again: a directory already there
  obtain ⟨hg₁, hkeep₁, -⟩ := hg.mkdirAll_beneath hroot hP hPnames hbq (by simp) hdirs
  -- the temporary file is written beside the record, and moved onto it
  have hbT : Beneath cwd root preq name (Path.join q ("." ++ copySourceFileName ++ "." ++ m.pid ++ ".tmp"))
      ["." ++ copySourceFileName ++ "." ++ m.pid ++ ".tmp"] := by simpa using hbq.join htmp
  have hbR : Beneath cwd root pre name (Path.join dest copySourceFileName) [copySourceFileName] := by
    simpa using hb.join hrec
  obtain ⟨hg₂, hkeep₂, mode, rfl⟩ := hg₁.writeBytes_beneath hroot hP hPnames hbT hwrite
  obtain ⟨hg₃, hfile, hrest⟩ := hg₂.rename_beneath hroot hP hPnames hbT hbR
    (by simpa using htmp_ne) (node?_put_self (by simp)) hrename
  have hD₂ : (t₁.put (P ++ [name, "." ++ copySourceFileName ++ "." ++ m.pid ++ ".tmp"])
      (.file (bytesOf content) mode)).node? (P ++ [name]) = some .dir := hkeep₂ _ (hkeep₁ _ hD)
  have hshorter : ∀ y, ¬ P ++ [name, y] <+: P ++ [name] := fun y hpre => by
    have := hpre.length_le
    simp at this
  have hD₃ : m'.files.node? (P ++ [name]) = some .dir := by
    rw [hrest _ (hshorter _) (hshorter _)]
    exact hD₂
  -- the walk that found the record's place went through the destination with steps to spare
  obtain ⟨S, R, -, hR⟩ := rename_locate hrename
  obtain ⟨k, -, hk⟩ := fuel_of_skipped hroot hP hbR.skipped
  rw [hbR.locate_eq hk (hg₂.extends_ (by simp)) false] at hR
  obtain ⟨k', rfl, hsize, hrsize⟩ := walk_two_of_dir hname hD₂ hR
  refine ⟨hm', hg₃, hD₃, ?_, ?_⟩
  · rw [hb.locate_eq hk (hg₃.extends_ (by simp)) false, walk_cons_dir hname hsize hD₃]
    simp [walk]
  · refine readText_of_locate hbR.endsWith ?_ hfile
    rw [hbR.locate_eq hk (hg₃.extends_ (by simp)) true, walk_cons_dir hname hsize hD₃,
      walk_last_file hrec hrsize (by simpa using hfile)]
    simp

variable (h₀ : t₀.Named)
include h₀

/-- Copying the entries of a directory to a path below the name, through directories there, only
grows the files below the name. -/
theorem Linker.grows_copyEntries (fail : String → Error) :
    ∀ fuel ancestors src dst pre rel (m : Machine), m.cwd = cwd →
      Beneath cwd root pre name dst rel →
      (∀ ys, ys <+: rel → m.files.node? (P ++ name :: ys) = some .dir) →
      Act.Grows t₀ (P ++ [name]) (Linker.copyEntries fail fuel ancestors src dst) m
  | 0, _, _, _, _, _, _, _, _, _ => .pure ()
  | fuel + 1, ancestors, src, dst, pre, rel, m, hcwd, hb, hdirs => by
    intro hgrown
    rw [Linker.copyEntries]
    refine Act.Grows.get_bind (Act.Grows.bind (Act.Grows.forIn (fun x hx _ m₁ h₁ => ?_) _)
      fun _ _ _ _ => .pure ()) hgrown
    -- the names listed are names, in a tree of names
    have hx : IsName x := by
      cases hread : m.readDir src with
      | error e => simp [hread, Except.toOption] at hx
      | ok names =>
        simp only [hread, Except.toOption, Option.getD_some] at hx
        exact (hgrown.named_tree h₀).isName_of_readDir hread hx
    have hcwd₁ : m₁.cwd = cwd := h₁.cwd_eq.trans hcwd
    have hb' := hb.join hx
    extract_lets path target
    refine Act.Grows.get_bind ?_
    split
    · exact .throw_bind _
    · extract_lets loc isLink jp
      -- a directory is made at the target, then filled
      have hjp : ∀ r, Act.Grows t₀ (P ++ [name]) (jp r) m₁ := by
        intro r
        refine .bind (grows_mkdirAll hroot hP hPnames hcwd₁ hb' fun ys hys hne => ?_)
          fun _ m₂ hrun h₂ => .bind ?_ fun _ _ _ _ => .pure _
        · rcases List.prefix_concat_iff.1 hys with rfl | hys
          · exact absurd rfl hne
          · exact h₁.dirs _ (hdirs ys hys)
        · refine Linker.grows_copyEntries fail fuel _ _ _ pre (rel ++ [x]) m₂
            (h₂.cwd_eq.trans hcwd₁) hb' fun ys hys => ?_
          rcases List.prefix_concat_iff.1 hys with rfl | hys
          · -- the target was just made, or found, a directory
            obtain ⟨t', ht', rfl⟩ := Act.change_run_ok hrun
            refine (h₁.grown.mkdirAll_beneath hroot hP hPnames hb' (fun ys hys hne => ?_)
              (hcwd₁ ▸ ht')).2.2
            rcases List.prefix_concat_iff.1 hys with rfl | hys
            · exact absurd rfl hne
            · exact h₁.dirs _ (hdirs ys hys)
          · exact h₂.dirs _ (h₁.dirs _ (hdirs ys hys))
      split
      · split
        · exact .throw_bind _
        · exact hjp ()
      · exact hjp ()
    · refine .bind (Act.Grows.change fun hg t' ht' => ?_) fun _ _ _ _ => .pure _
      exact hg.copyFile_beneath hroot hP hPnames hb' (hcwd₁ ▸ ht')

/-- Copying a source tree to the destination, a path to the name, makes a copy there: the
destination, what is copied into it, and the record. -/
theorem Linker.copyTree_made (fail : String → Error) (source : String) {pre : List String}
    {dest : String} (hb : Beneath cwd root pre name dest []) {m : Machine} (hcwd : m.cwd = cwd)
    (hpid : '/' ∉ m.pid.toList) :
    Act.GrowsTo t₀ (P ++ [name]) (CopyMade t₀ cwd P name dest) (Linker.copyTree fail source dest) m := by
  intro hgrown
  refine (?_ : Act.GrowsTo t₀ (P ++ [name]) (CopyMade t₀ cwd P name dest)
    (Linker.copyTree fail source dest) m) hgrown
  unfold Linker.copyTree
  refine Act.GrowsTo.get_bind ?_
  extract_lets jp
  have hjp : ∀ loc, Act.GrowsTo t₀ (P ++ [name]) (CopyMade t₀ cwd P name dest) (jp loc) m := by
    intro loc
    dsimp -zeta only [jp]
    extract_lets src jp'
    have hjp' : ∀ r, Act.GrowsTo t₀ (P ++ [name]) (CopyMade t₀ cwd P name dest) (jp' r) m := by
      intro r
      refine .bind (grows_mkdirAll hroot hP hPnames hcwd hb (by simp)) fun _ m₂ hrun₂ h₂ => ?_
      -- the destination is a directory now
      have hD₂ : m₂.files.node? (P ++ [name]) = some .dir := by
        obtain ⟨t', ht', rfl⟩ := Act.change_run_ok hrun₂
        simpa using (hgrown.mkdirAll_beneath hroot hP hPnames hb (by simp) (hcwd ▸ ht')).2.2
      refine .bind (Linker.grows_copyEntries hroot hP hPnames h₀ fail _ _ _ _ pre [] m₂
        (h₂.cwd_eq.trans hcwd) hb fun ys hys => ?_) fun _ m₃ _ h₃ => ?_
      · obtain rfl := List.prefix_nil.1 hys
        simpa using hD₂
      · -- the record is written last; a failure to write it is no answer
        intro hg₃ u m' hrun
        rw [Act.run_tryCatch] at hrun
        cases hw : (Act.writeAtomic (Path.join dest copySourceFileName) (src ++ "\n")).run m₃ with
        | ok a m₄ =>
          rw [hw] at hrun
          cases hrun
          obtain ⟨hm', hg', hD', hloc, htext⟩ := writeAtomic_record hroot hP hPnames
            ((h₂.trans h₃).cwd_eq.trans hcwd) ((h₂.trans h₃).pid_eq ▸ hpid) hb hg₃
            (h₃.dirs _ hD₂) hw
          exact ⟨hm', hg', hD', hloc, _, htext⟩
        | error e m₄ =>
          rw [hw] at hrun
          cases hrun
    split
    · split
      · exact .throw_bind _
      · exact hjp' ()
    · exact hjp' ()
  split
  · refine .bind (.pure _) fun a m₁ hrun _ => ?_
    cases hrun
    exact hjp _
  · exact .throw_bind _

/-- Making the link or copy at the destination, a path to the name where nothing is, puts a link
at the name or makes a copy there. -/
theorem Linker.create_linked (l : Linker) (extName source : String) {pre : List String}
    {dest : String} (hb : Beneath cwd root pre name dest []) {m : Machine} (hcwd : m.cwd = cwd)
    (hpid : '/' ∉ m.pid.toList) (hfiles : m.files = t₀) :
    Act.GrowsTo t₀ (P ++ [name]) (Linked t₀ cwd P name dest) (l.create extName source dest) m := by
  intro hgrown
  refine (?_ : Act.GrowsTo t₀ (P ++ [name]) (Linked t₀ cwd P name dest)
    (l.create extName source dest) m) hgrown
  -- a link is put at the name, where nothing is
  have hlink : ∀ t', m.files.symlink m.cwd source dest = .ok t' → Linked t₀ cwd P name dest t' := by
    intro t' ht'
    obtain ⟨-, rfl, hloc⟩ := hgrown.symlink_beneath hroot hP hb (hcwd ▸ ht')
    exact .inl ⟨source, by rw [hfiles], hloc⟩
  have hcopy : Act.GrowsTo t₀ (P ++ [name]) (Linked t₀ cwd P name dest)
      (Linker.copyTree (Error.link extName) source dest) m :=
    (Linker.copyTree_made hroot hP hPnames h₀ (Error.link extName) source hb hcwd hpid).mono
      fun _ h => Or.inr h
  unfold Linker.create
  split
  · exact hcopy.bind_pure
  · exact (Act.GrowsTo.change fun _ t' ht' => hlink t' ht').bind_pure
  · -- the link is tried first, and a copy made when it cannot be
    intro _ a m' hrun
    obtain ⟨r, m₁, htry, hrest⟩ := Act.run_bind_eq_ok hrun
    rcases Act.try_run_ok htry with ⟨t', ht', rfl, rfl⟩ | ⟨e, -, rfl, rfl⟩
    · cases hrest
      exact ⟨rfl, hlink t' ht'⟩
    · exact hcopy.bind_pure hgrown a m' hrest

/-- Placing an extension at a destination where nothing is found makes it there. -/
theorem Linker.place_linked (l : Linker) (extName key source : String) {pre : List String}
    {dest : String} (hb : Beneath cwd root pre name dest []) {m : Machine} (hcwd : m.cwd = cwd)
    (hpid : '/' ∉ m.pid.toList) (hfiles : m.files = t₀)
    (habsent : m.files.lstat m.cwd dest = .error .notFound) :
    Act.GrowsTo t₀ (P ++ [name]) (Linked t₀ cwd P name dest) (l.place extName key source dest) m := by
  unfold Linker.place
  refine Act.GrowsTo.get_bind (.bind (.read _) fun occ m₁ hrun _ => ?_)
  obtain ⟨hocc, rfl⟩ := Act.read_run_ok hrun
  rw [Linker.occupant_of_notFound habsent] at hocc
  cases hocc
  exact (Linker.create_linked hroot hP hPnames h₀ l extName source hb hcwd hpid hfiles).bind_pure

end Copy

/-! ## Linking where nothing is -/

/-- Linking a source that identifies as `name`, into a root that is a directory, where nothing is
found at the name, puts a link at the name or makes a copy there, and changes nothing else of the
machine. -/
theorem Linker.link_linked (l : Linker) {m : Machine} {source name key : String}
    {P : List String} (hroot : m.files.locate m.cwd l.root true = .ok P)
    (hP : m.files.node? P = some .dir) (hPnames : ∀ x ∈ P, IsName x) (h₀ : m.files.Named)
    (hpid : '/' ∉ m.pid.toList) (hid : identify m source = .ok (name, key)) {pre : List String}
    (hb : Beneath m.cwd l.root pre name (l.destination name) [])
    (habsent : m.files.lstat m.cwd (l.destination name) = .error .notFound) :
    Act.GrowsTo m.files (P ++ [name]) (Linked m.files m.cwd P name (l.destination name))
      (l.link source) m := by
  have hmkdir : m.files.mkdirAll m.cwd l.root = .ok m.files :=
    mkdirAll_eq_of_isDir (isDir_of_locate hroot hP)
  unfold Linker.link
  refine Act.GrowsTo.get_bind ?_
  extract_lets jp
  have hjp : ∀ r, Act.GrowsTo m.files (P ++ [name]) (Linked m.files m.cwd P name (l.destination name))
      (jp r) m := by
    intro r
    dsimp -zeta only [jp]
    refine .bind (.read _) fun x m₁ hrun _ => ?_
    obtain ⟨hx, hm₁⟩ := Act.read_run_ok hrun
    subst m₁
    rw [hid] at hx
    cases hx
    extract_lets jp'
    -- the root is a directory already, so making it changes nothing
    have hjp' : ∀ p, Act.GrowsTo m.files (P ++ [name])
        (Linked m.files m.cwd P name (l.destination name)) (jp' p) m := by
      intro p
      refine .bind (Act.Grows.change fun hg t' ht' => ?_) fun _ m₂ hrun₂ _ => ?_
      · rw [hmkdir] at ht'
        cases ht'
        exact ⟨hg, KeepsDirs.refl _⟩
      · obtain ⟨t', ht', rfl⟩ := Act.change_run_ok hrun₂
        rw [hmkdir] at ht'
        cases ht'
        exact Linker.place_linked hroot hP hPnames h₀ l name key p hb rfl hpid rfl habsent
    split
    · exact .bind (.pure _) fun a m₁ hrun _ => by
        cases hrun
        exact hjp' _
    · exact .throw_bind _
  split
  · exact .throw_bind _
  · exact hjp ()

/-! ## Unlinking -/

theorem Name.validate_of_isValid {name : String} (h : Name.isValid name = true) :
    Name.validate name = .ok () := by
  unfold Name.isValid at h
  simp [Name.validate, Option.isNone_iff_eq_none.1 h]

namespace Linker

variable (l : Linker) {m : Machine} {name : String}

/-- Unlinking a name the check accepts, where nothing is found at its destination, answers that
nothing was there and changes nothing. -/
theorem unlink_absent (hvalid : Name.validate name = .ok ())
    (habsent : m.files.lstat m.cwd (l.destination name) = .error .notFound) :
    (l.unlink name).run m = .ok false m := by
  simp [unlink, EStateM.run_bind, MarkerStore.read_run, hvalid, occupant_of_notFound habsent]

/-- A regular file at the destination, or a directory without the record of a copy, is refused,
and nothing changes. -/
theorem unlink_foreign (hvalid : Name.validate name = .ok ())
    (hforeign : (∃ data mode, m.files.lstat m.cwd (l.destination name) = .ok (.file data mode)) ∨
      (m.files.lstat m.cwd (l.destination name) = .ok .dir ∧
        m.files.stat m.cwd (Path.join (l.destination name) copySourceFileName) = .error .notFound)) :
    (l.unlink name).run m = .error (.link name
      (l.destination name ++ " was not linked by civikitchen; refusing to remove it")) m := by
  rcases hforeign with ⟨data, mode, hfile⟩ | ⟨hdir, hnorecord⟩
  · simp [unlink, EStateM.run_bind, MarkerStore.read_run, hvalid, occupant, hfile]
    rfl
  · -- no record is read as no record
    have hnone : m.readTextIfExists (Path.join (l.destination name) copySourceFileName) = .ok none := by
      simp [Machine.readTextIfExists, FileTree.readTextIfExists, FileTree.readText, FileTree.readBytes,
        hnorecord, bind, Except.bind, Except.mapError]
    simp [unlink, EStateM.run_bind, MarkerStore.read_run, hvalid, occupant, hdir, hnone]
    rfl

/-- A link at the destination is removed by erasing its location, and nothing else changes. -/
theorem unlink_symlink (hvalid : Name.validate name = .ok ()) {L : List String} {target : String}
    (hL : m.files.locate m.cwd (l.destination name) false = .ok L)
    (hlink : m.files.node? L = some (.link target)) :
    (l.unlink name).run m = .ok true { m with files := m.files.erase L } := by
  have hlstat : m.files.lstat m.cwd (l.destination name) = .ok (.link target) := by
    simp [lstat, hL, hlink, bind, Except.bind, pure, Except.pure]
  have hunlink : m.files.unlink m.cwd (l.destination name) = .ok (m.files.erase L) := by
    simp [FileTree.unlink, hL, hlink, bind, Except.bind, pure, Except.pure]
  simp only [unlink, EStateM.run_bind, MarkerStore.read_run, hvalid, occupant, hlstat,
    bind_pure_comp, Act.run_map]
  simp [Act.change, EStateM.run, hunlink]

/-- Unlinking what linking made where nothing was, a link or a copy, gives back the files as they
were before. -/
theorem unlink_linked {t₀ : FileTree} {P : List String} (hvalid : Name.validate name = .ok ())
    (hself : t₀.erase (P ++ [name]) = t₀)
    (hlinked : Linked t₀ m.cwd P name (l.destination name) m.files) :
    (l.unlink name).run m = .ok true { m with files := t₀ } := by
  rcases hlinked with ⟨target, hfiles, hloc⟩ | hcopy
  · -- the link is removed, and with it all that linking added
    have hlink : m.files.node? (P ++ [name]) = some (.link target) := by
      rw [hfiles]
      exact node?_put_self (by simp)
    rw [unlink_symlink l hvalid hloc hlink, hfiles, erase_put_below (List.prefix_refl _), hself]
  · -- the copy is a directory with a record: it is removed with everything in it
    obtain ⟨text, htext⟩ := hcopy.record
    have hlstat : m.files.lstat m.cwd (l.destination name) = .ok .dir := by
      simp [lstat, hcopy.located, hcopy.dir, bind, Except.bind, pure, Except.pure]
    have hrec : m.readTextIfExists (Path.join (l.destination name) copySourceFileName) =
        .ok (some text) := by
      simp [Machine.readTextIfExists, FileTree.readTextIfExists, htext, Except.mapError]
    have hocc := occupant_recorded (by rw [hlstat]; rfl) (by rw [hrec]; rfl)
    have hremove : m.files.removeAll m.cwd (l.destination name) = .ok (m.files.erase (P ++ [name])) := by
      simp [removeAll, hcopy.located, hcopy.dir, bind, Except.bind, pure, Except.pure]
    simp only [unlink, EStateM.run_bind, MarkerStore.read_run, hvalid, hocc, bind_pure_comp,
      Act.run_map]
    simp [Act.change, EStateM.run, hremove, hcopy.grown.erase_eq]

/-- Unlinking the name a source identifies as, after linking the source where nothing was, gives
back the machine as it was before linking. -/
theorem unlink_after_link {m₁ : Machine} {source key : String} {r : LinkedExtension}
    (hrooted : m.files.Rooted) (h₀ : m.files.Named) (hpid : '/' ∉ m.pid.toList)
    (hroot : m.isDir l.root = true) (hid : identify m source = .ok (name, key))
    (habsent : m.files.lstat m.cwd (l.destination name) = .error .notFound)
    (hlink : (l.link source).run m = .ok r m₁) :
    (l.unlink name).run m₁ = .ok true m := by
  obtain ⟨P, hloc, hP⟩ := stat_ok (stat_of_isDir hroot)
  have hPnames : ∀ x ∈ P, IsName x := fun x hx =>
    h₀ _ (mem_of_node? (List.ne_nil_of_mem hx) hP) x hx
  have hne : l.root ≠ "" := by
    rintro hempty
    simp [Machine.isDir, hempty, isDir_empty] at hroot
  have hvalid := identify_valid hid
  obtain ⟨pre, hb⟩ : ∃ pre, Beneath m.cwd l.root pre name (l.destination name) [] :=
    beneath_join hne (Name.isName_of_isValid hvalid)
  -- nothing was at the name, so erasing it leaves the files as they were
  have hself := hrooted.erase_eq (node?_of_lstat_notFound hloc hP hb habsent)
  obtain ⟨hm₁, hlinked⟩ :=
    link_linked l hloc hP hPnames h₀ hpid hid hb habsent (GrownAt.self hself) r m₁ hlink
  rw [hm₁]
  exact unlink_linked l (Name.validate_of_isValid hvalid) hself hlinked

/-- Unlinking undoes linking, and removes nothing it did not make.

* With the files as a file system has them (every entry below directories, every location made
  of names), a process number without slashes and a directory as extensions root: where nothing
  is found at the destination of the name a source identifies as, unlinking that name after
  linking the source gives back the machine as it was, so the link, or the copy with its record,
  is all that linking added.
* Where nothing is found at the destination, unlinking answers `false` and changes nothing.
* A regular file at the destination, or a directory without the record of a copy, is refused
  with an error naming the extension, and nothing changes.
* A link at the destination is removed, and only it: every other location, the one it leads to
  among them, keeps its entry. -/
theorem unlink_laws :
    (∀ (m m₁ : Machine) (source name key : String) (r : LinkedExtension),
      m.files.Rooted → m.files.Named → '/' ∉ m.pid.toList → m.isDir l.root = true →
      identify m source = .ok (name, key) →
      m.files.lstat m.cwd (l.destination name) = .error .notFound →
      (l.link source).run m = .ok r m₁ → (l.unlink name).run m₁ = .ok true m) ∧
    (∀ (m : Machine) (name : String), Name.validate name = .ok () →
      m.files.lstat m.cwd (l.destination name) = .error .notFound →
      (l.unlink name).run m = .ok false m) ∧
    (∀ (m : Machine) (name : String), Name.validate name = .ok () →
      ((∃ data mode, m.files.lstat m.cwd (l.destination name) = .ok (.file data mode)) ∨
        (m.files.lstat m.cwd (l.destination name) = .ok .dir ∧
          m.files.stat m.cwd (Path.join (l.destination name) copySourceFileName) =
            .error .notFound)) →
      (l.unlink name).run m = .error (.link name
        (l.destination name ++ " was not linked by civikitchen; refusing to remove it")) m) ∧
    (∀ (m : Machine) (name target : String) (L : List String), Name.validate name = .ok () →
      m.files.Rooted → m.files.locate m.cwd (l.destination name) false = .ok L →
      m.files.node? L = some (.link target) →
      (l.unlink name).run m = .ok true { m with files := m.files.erase L } ∧
        (m.files.erase L).node? L = none ∧
        ∀ l', l' ≠ L → (m.files.erase L).node? l' = m.files.node? l') := by
  refine ⟨fun m m₁ source name key r hrooted h₀ hpid hroot hid habsent hlink =>
      unlink_after_link l hrooted h₀ hpid hroot hid habsent hlink,
    fun m name hvalid habsent => unlink_absent l hvalid habsent,
    fun m name hvalid hforeign => unlink_foreign l hvalid hforeign, ?_⟩
  intro m name target L hvalid hrooted hL hlink
  have hnotdir : m.files.node? L ≠ some .dir := by simp [hlink]
  -- the root is a directory, so the link is below it
  have hne : L ≠ [] := by
    rintro rfl
    simp [node?] at hlink
  exact ⟨unlink_symlink l hvalid hL hlink, node?_erase_of_prefix hne (List.prefix_refl L),
    fun l' hl' => hrooted.node?_erase_of_ne hnotdir hl'⟩

/-- A source tree and an empty extensions root. -/
def unlinkedMachine : Machine :=
  { files := ⟨[(["src"], .dir),
      (["src", "info.xml"],
        .file (bytesOf "<extension key=\"org.example.a\" type=\"module\"></extension>") 420),
      (["ext"], .dir)]⟩,
    cwd := [], env := [], clock := "", pid := "", host := default,
    markers := .memory [], runner := .recording [] [] }

/-- Copying `/src` into the empty `/ext` and unlinking it again gives the machine back. -/
theorem unlink_after_copy :
    unlinkedMachine.files.Rooted ∧ unlinkedMachine.files.Named ∧
      identify unlinkedMachine "/src" = .ok ("org.example.a", "a") ∧
      unlinkedMachine.files.lstat [] ((⟨"/ext", .copy⟩ : Linker).destination "org.example.a") =
        .error .notFound ∧
      ∃ r m₁, ((⟨"/ext", .copy⟩ : Linker).link "/src").run unlinkedMachine = .ok r m₁ ∧
        ((⟨"/ext", .copy⟩ : Linker).unlink "org.example.a").run m₁ = .ok true unlinkedMachine := by
  have hrooted : unlinkedMachine.files.Rooted := by decide +kernel
  have hnamed : unlinkedMachine.files.Named := by decide +kernel
  have hid : identify unlinkedMachine "/src" = .ok ("org.example.a", "a") :=
    Except.eq_ok_of_toOption (by decide +kernel)
  have habsent : unlinkedMachine.files.lstat []
      ((⟨"/ext", .copy⟩ : Linker).destination "org.example.a") = .error .notFound := by
    decide +kernel
  have hok : (match ((⟨"/ext", .copy⟩ : Linker).link "/src").run unlinkedMachine with
      | .ok _ _ => true
      | .error _ _ => false) = true := by
    decide +kernel
  refine ⟨hrooted, hnamed, hid, habsent, ?_⟩
  split at hok
  · next r m₁ hrun =>
    exact ⟨r, m₁, hrun, (unlink_laws _).1 _ _ _ _ _ r hrooted hnamed (by decide)
      (by decide +kernel) hid habsent hrun⟩
  · cases hok

/-- An extensions root that is a regular file. -/
def fileRootMachine : Machine :=
  { files := ⟨[(["ext"], .file (bytesOf "x") 420)]⟩,
    cwd := [], env := [], clock := "", pid := "", host := default,
    markers := .memory [], runner := .recording [] [] }

/-- Below an extensions root that is a regular file nothing is at any name, yet unlinking a name
fails rather than answering that nothing was there: the path to the name stops at the file. -/
theorem unlink_below_file_root :
    fileRootMachine.files.node? ["ext", "org.example.a"] = none ∧
      ((tryCatch ((⟨"/ext", .copy⟩ : Linker).unlink "org.example.a" *> pure none)
        (fun e => pure (some e.message)) : Act (Option String))).run' fileRootMachine =
        some (some "/ext/org.example.a: Not a directory (os error 20)") := by
  constructor <;> decide +kernel

end Linker

end Provisioning
