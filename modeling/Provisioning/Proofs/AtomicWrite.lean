import Provisioning.Proofs.Confinement
import Provisioning.Proofs.Json
/-!
A file written atomically reads back as the text written.

`Act.writeAtomic` makes the parent directory, writes the text to a temporary file beside the
target (named after the target and the process number) and renames that file onto the target.
For a target that is a name `x` in a directory `d` whose path does not climb with `..`, in a tree
without symbolic links, each step lands where the target's path leads: the parent of `join d x`
is `d` as written (`parent?_join_entry`), making directories adds no links
(`FileTree.LinkFree.mkdirAll`), and the temporary file and the target are two names in one
directory, located alike (`FileTree.locate_join_entry_congr`). So after a write that succeeds the
target holds a file with the bytes of the text, and reading it as text gives the text back
(`Act.readText_writeAtomic`).

The conditions are the ones under which the path's text tells where the file is. A link on the
way may lead `d/x` and `d` apart (with `c.toml` a link to a directory, `c.toml/../c.toml` is
written through the directory and read through the link), and a slash in the process number
would put the temporary file elsewhere.
-/
namespace Provisioning

open Provisioning.Path FileTree

/-! ## The parent of a name in a directory -/

section Parent

variable {d x y : String}

theorem fileName?_join_entry (hx : IsName x) : fileName? (join d x) = some x := by
  by_cases hd : d = ""
  · subst hd
    rw [join_empty_name hx]
    simp [fileName?, parts, split_of_slash_not_mem hx.2.2.2, hx.1, hx.2.1, hx.2.2.1]
  · exact fileName?_join_name hd hx

theorem endsWith_join_entry (hx : IsName x) : (join d x).endsWith "/" = false := by
  by_cases hd : d = ""
  · subst hd
    rw [join_empty_name hx, Bool.eq_false_iff]
    intro hends
    obtain ⟨t, ht⟩ := String.Slice.endsWith_string_iff.1 hends
    have hmem : '/' ∈ t ++ "/".toList := by simp
    rw [ht] at hmem
    exact hx.2.2.2 (by simpa using hmem)
  · exact endsWith_join_name hd hx

/-- A name joined to a path that climbs nowhere climbs nowhere. -/
theorem climb_free_join_entry (hx : IsName x) (hup : ".." ∉ split d) : ".." ∉ split (join d x) := by
  by_cases hd : d = ""
  · subst hd
    rw [join_empty_name hx, split_of_slash_not_mem hx.2.2.2]
    simpa using hx.2.2.1.symm
  · exact climb_free_join_name hd hx hup

/-- The parent of a name joined to a path names where the path leads, and climbs only where the
path does. -/
theorem parent?_join_entry {cwd : List String} (hx : IsName x) :
    ∃ q, parent? (join d x) = some q ∧ lexical cwd q = lexical cwd d ∧
      (".." ∉ split d → ".." ∉ split q) := by
  by_cases hd : d = ""
  · -- a name alone: its parent is the empty path, the working directory
    subst hd
    refine ⟨"", ?_, rfl, id⟩
    rw [join_empty_name hx]
    simp [parent?, parts, split_of_slash_not_mem hx.2.2.2, hx.1, hx.2.1,
      isAbsolute_of_slash_not_mem hx.1 hx.2.2.2]
  by_cases hpd : parts d = []
  · -- a path with no parts names the root or the working directory, as its parent does
    have hparts : parts (join d x) = [x] := by rw [parts_join_name hd hx, hpd]; rfl
    have hnamed : named (split d) = [] := by
      have := parts_eq d
      rw [hpd] at this
      exact (List.append_eq_nil_iff.1 this.symm).2
    have hsplit_root : split "/" = ["", ""] := by decide
    have hroot : lexical cwd "/" = [] := by
      simp [lexical, origin, isAbsolute, hsplit_root, named]
    have hhere : lexical cwd "" = cwd := by
      simp [lexical, origin, isAbsolute, split_empty, named]
    cases habs : isAbsolute d
    · refine ⟨"", ?_, ?_, fun _ => by simp [split_empty]⟩
      · simp [parent?, hparts, isAbsolute_join_name hd hx, habs]
      · rw [hhere, lexical, origin, habs, hnamed]
        simp
    · refine ⟨"/", ?_, ?_, fun _ => by simp [hsplit_root]⟩
      · simp [parent?, hparts, isAbsolute_join_name hd hx, habs]
      · rw [hroot, lexical, origin, habs, hnamed]
        simp
  · -- otherwise the parent is written with the path's own parts
    obtain ⟨q, hq, -, habs, hsub, hnamed⟩ := parent?_join_name hd hx hpd
    refine ⟨q, hq, by simp only [lexical, origin, habs, hnamed], fun hup hmem => hup (hsub.subset hmem)⟩

end Parent

/-! ## Trees without links -/

namespace FileTree

variable {t t' : FileTree} {cwd : List String}

theorem LinkFree.mkdir (h : t.LinkFree) {q : String} (hm : t.mkdir cwd q = .ok t') : t'.LinkFree := by
  unfold FileTree.mkdir at hm
  obtain ⟨L, -, hm⟩ := except_bind_eq_ok.1 hm
  cases hL : L.isEmpty <;> simp only [hL] at hm
  · rcases hnode : t.node? L with _ | n <;> simp only [hnode] at hm
    · cases hm
      exact h.put rfl
    · cases hm
  · cases hm

/-- Making directories adds directories only, so a tree without links stays without links. -/
theorem LinkFree.mkdirAll (h : t.LinkFree) {q : String} (hm : t.mkdirAll cwd q = .ok t') :
    t'.LinkFree := by
  unfold FileTree.mkdirAll at hm
  generalize (parts q).length + 2 = fuel at hm
  induction fuel generalizing t t' q with
  | zero => cases hm
  | succ fuel ih =>
    rw [FileTree.mkdirAll.go] at hm
    -- each directory made is made by `mkdir`, on the tree as it stands
    split at hm
    · cases hm
      exact h
    · split at hm
      · next t₂ hmk =>
        cases hm
        exact h.mkdir hmk
      · split at hm
        · cases hm
        · split at hm
          · cases hm
          · next t₂ hgo =>
            have h₂ := ih h hgo
            split at hm
            · next t₃ hmk =>
              cases hm
              exact h₂.mkdir hmk
            · split at hm
              · cases hm
                exact h₂
              · cases hm
      · split at hm
        · cases hm
          exact h
        · cases hm

/-- A name directly in a directory resolves alike in trees that agree on the way to the directory
and have no directory at the name; the directory may be the working one, written as nothing. -/
theorem locate_join_entry_congr (h : t.LinkFree) (h' : t'.LinkFree) {d x : String} (hx : IsName x)
    (hup : ".." ∉ split d) (hsame : ∀ l, l <+: lexical cwd d → t.node? l = t'.node? l)
    (hend : t.node? (lexical cwd d ++ [x]) ≠ some .dir)
    (hend' : t'.node? (lexical cwd d ++ [x]) ≠ some .dir) (f f' : Bool) :
    t.locate cwd (join d x) f = t'.locate cwd (join d x) f' := by
  by_cases hd : d = ""
  · subst hd
    have hhere : lexical cwd "" = cwd := by
      simp [lexical, origin, isAbsolute, split_empty, named]
    rw [hhere] at hsame hend hend'
    rw [join_empty_name hx]
    unfold locate
    rw [if_neg (by simpa using hx.1), if_neg (by simpa using hx.1), split_of_slash_not_mem hx.2.2.2]
    simp only [origin, isAbsolute_of_slash_not_mem hx.1 hx.2.2.2]
    exact walk_congr_last h h' ⟨hx.1, hx.2.1, hx.2.2.1⟩ _ cwd [] (by simp) (by simpa [named] using hsame)
      (by simpa [named] using hend) (by simpa [named] using hend')
  · exact locate_join_name_congr h h' hd hx hup hsame hend hend' f f'

end FileTree

/-- The bytes of a text decode to the text. -/
theorem textOf?_bytesOf (s : String) : textOf? (bytesOf s) = some s := by
  have hbytes : (⟨(bytesOf s).toArray⟩ : ByteArray) = s.toByteArray := by
    rw [bytesOf, String.toUTF8_eq_toByteArray, ByteArray.toList_eq]
  rw [textOf?, hbytes, String.fromUTF8?, dif_pos s.isValidUTF8]
  rfl

/-- A file written from a text holds a file whose text it is. -/
theorem FileTree.readText_of_locate {t : FileTree} {cwd : List String} {p : String} {L : List String}
    (hends : p.endsWith "/" = false) (hl : t.locate cwd p true = .ok L) {content : String} {mode : Nat}
    (hnode : t.node? L = some (.file (bytesOf content) mode)) : t.readText cwd p = .ok content := by
  unfold FileTree.readText FileTree.readBytes
  rw [stat_of_locate hends hl, hnode]
  simp only [bind, Except.bind, pure, Except.pure, textOf?_bytesOf]

namespace Act

variable {m m' : Machine}

/-- A file written atomically, under a name in a directory that does not climb with `..`, in a
tree without symbolic links, reads back as the text written. The temporary file is a name of its
own beside the target, so the rename lands where reading looks, and the way there is untouched. -/
theorem readText_writeAtomic {d x content : String} (hfree : m.files.LinkFree) (hx : IsName x)
    (hup : ".." ∉ split d) (hpid : '/' ∉ m.pid.toList)
    (h : (writeAtomic (join d x) content).run m = .ok () m') :
    m'.cwd = m.cwd ∧ m'.files.readText m'.cwd (join d x) = .ok content := by
  obtain ⟨q, hq, hlexq, hupq⟩ := @parent?_join_entry d x m.cwd hx
  obtain ⟨t₁, t₂, hdirs, hwrite, hrename, hm'⟩ := writeAtomic_steps h
  simp only [hq] at hdirs
  rw [fileName?_join_entry hx, Option.getD_some] at hwrite hrename
  obtain ⟨htmp, htmp_ne, -⟩ := isName_tempName hx hpid
  have hT : withFileName (join d x) ("." ++ x ++ "." ++ m.pid ++ ".tmp") =
      join q ("." ++ x ++ "." ++ m.pid ++ ".tmp") := by
    simp [withFileName, hq]
  rw [hT] at hwrite hrename
  -- the temporary file is put beside the target, then moved onto it
  have hfree₁ := hfree.mkdirAll hdirs
  obtain ⟨mode, rfl, ht₂, hD, hDdir⟩ := FileTree.writeBytes_rename_moved hfree₁
    (by rw [lexical_join_entry htmp, hlexq]) (climb_free_join_entry htmp (hupq hup))
    (lexical_join_entry hx) (climb_free_join_entry hx hup) (by simpa using htmp_ne) (by simp)
    hwrite hrename
  set tmp := "." ++ x ++ "." ++ m.pid ++ ".tmp"
  set D := lexical m.cwd d
  set f : Node := .file (bytesOf content) mode
  have hfree₂ : (t₁.put (D ++ [tmp]) f).LinkFree := hfree₁.put rfl
  have hcwd : m'.cwd = m.cwd := by rw [hm']
  refine ⟨hcwd, ?_⟩
  rw [hcwd, ht₂]
  -- the way to the directory is untouched, and the target is the file moved there
  have hshorter : ∀ l y, l <+: D → ¬ D ++ [y] <+: l := by
    intro l y hl hpre
    have h₁ := hpre.length_le
    have h₂ := hl.length_le
    simp only [List.length_append, List.length_cons, List.length_nil] at h₁
    omega
  have hway : ∀ l, l <+: D → (t₁.put (D ++ [tmp]) f).node? l =
      ((t₁.put (D ++ [tmp]) f).moveEntry (D ++ [tmp]) (D ++ [x]) f).node? l := fun l hl =>
    Eq.symm <| node?_moveEntry_of_not_prefix (hshorter l _ hl) (hshorter l _ hl)
  have hmoved : ((t₁.put (D ++ [tmp]) f).moveEntry (D ++ [tmp]) (D ++ [x]) f).node? (D ++ [x]) =
      some f := node?_moveEntry_dst (by simp)
  have hlocate := locate_join_entry_congr hfree₂ (hfree₂.moveEntry rfl) hx hup hway hDdir
    (by rw [hmoved]; simp [f]) false true
  rw [hD] at hlocate
  exact FileTree.readText_of_locate (endsWith_join_entry hx) hlocate.symm hmoved

end Act

end Provisioning
