import Provisioning.FileTree.Basic
import Provisioning.Proofs.Manifest
/-!
Where a written path leads in a tree without links.

In a tree with no symbolic links, resolving a path that does not climb
with `..` is lexical: each part that names an entry adds it to the
location reached, empty parts and `.` are passed over, and nothing else
moves the walk. So a path that resolves resolves to its lexical location
`lexical cwd p` (`locate_lexical`), and what the walk finds depends only
on the entries at the beginnings of that location (`walk_congr`): two
trees that agree there resolve the path alike. The entry at the location
itself matters only as far as being a directory when the path ends with
a name (`walk_congr_last`), so a file written or removed there leaves
the path resolving to the same place.

Two facts about the walk's bound on steps let one path stand in for
another with the same named parts: more steps never undo a walk that
ended (`walk_add_fuel`), and dropping parts that are passed over keeps
the walk where it was (`walk_of_sublist`).

The texts of the paths built by joining a name onto a directory, and by
taking the parent of such a path, are worked out at the start:
`lexical_join_name` and `parent?_join_name`.
-/

namespace Provisioning

namespace Path

/-- A text that names an entry between two slashes: not empty, not `.` or `..`, without a
slash. -/
def IsName (x : String) : Prop := x ≠ "" ∧ x ≠ "." ∧ x ≠ ".." ∧ '/' ∉ x.toList

instance : DecidablePred IsName := fun _ => inferInstanceAs (Decidable (_ ∧ _))

/-- The texts between slashes that name entries: empty ones and `.` dropped. -/
def named (ps : List String) : List String := ps.filter fun s => s ≠ "" && s ≠ "."

@[simp] theorem named_nil : named [] = [] := rfl

theorem named_append (xs ys : List String) : named (xs ++ ys) = named xs ++ named ys :=
  List.filter_append ..

theorem named_cons_skip {s : String} (ps : List String) (h : s = "" ∨ s = ".") :
    named (s :: ps) = named ps := by
  rcases h with rfl | rfl <;> simp [named]

theorem named_cons_name {s : String} (ps : List String) (h : s ≠ "" ∧ s ≠ ".") :
    named (s :: ps) = s :: named ps := by
  simp [named, h.1, h.2]

theorem IsName.named_singleton {x : String} (h : IsName x) : named [x] = [x] := by
  rw [named_cons_name [] ⟨h.1, h.2.1⟩, named_nil]

theorem named_named (ps : List String) : named (named ps) = named ps := by
  simp [named, List.filter_filter]

theorem named_sublist (ps : List String) : (named ps).Sublist ps := List.filter_sublist

/-! ## Texts between slashes -/

theorem slash_not_mem_of_mem_splitOn {cs : List Char} :
    ∀ l ∈ cs.splitOn '/', '/' ∉ l := by
  induction cs with
  | nil => simp [List.splitOn_nil]
  | cons c cs ih =>
    rw [List.splitOn_cons_eq_if_modifyHead]
    split
    · next hc =>
      intro l hl
      rcases List.mem_cons.1 hl with rfl | hl
      · simp
      · exact ih l hl
    · next hc =>
      -- the character joins the first text, which had no slash and still has none
      obtain ⟨first, rest, hsplit⟩ := List.exists_cons_of_ne_nil (List.splitOn_ne_nil '/' cs)
      rw [hsplit] at ih ⊢
      intro l hl
      rcases List.mem_cons.1 hl with rfl | hl
      · have hc' : c ≠ '/' := by simpa using hc
        simp only [List.mem_cons, not_or]
        exact ⟨fun h => hc' h.symm, ih first List.mem_cons_self⟩
      · exact ih l (List.mem_cons_of_mem _ hl)

/-- No text between slashes holds a slash. -/
theorem slash_not_mem_of_mem_split {p x : String} (h : x ∈ split p) : '/' ∉ x.toList := by
  obtain ⟨l, hl, rfl⟩ := List.mem_map.1 h
  simpa using slash_not_mem_of_mem_splitOn l hl

theorem split_of_slash_not_mem {x : String} (h : '/' ∉ x.toList) : split x = [x] := by
  simp [split, List.splitOn_eq_singleton h]

/-- A path starts at the root exactly when its first text between slashes is empty, unless the
path itself is empty. -/
theorem isAbsolute_iff (p : String) : isAbsolute p = true ↔ p ≠ "" ∧ (split p).head? = some "" := by
  rw [isAbsolute, String.startsWith_string_iff]
  cases hp : p.toList with
  | nil =>
    have : p = "" := String.toList_inj.1 (by simpa using hp)
    simp [this]
  | cons c cs =>
    have hne : p ≠ "" := fun h => by simp [h] at hp
    simp only [split, hp, List.splitOn_cons_eq_if_modifyHead, ne_eq, hne, not_false_eq_true,
      true_and]
    by_cases hc : c = '/'
    · simp [hc]
    · obtain ⟨first, rest, hsplit⟩ := List.exists_cons_of_ne_nil (List.splitOn_ne_nil '/' cs)
      have hc' : '/' ≠ c := fun h => hc h.symm
      simp [hc, hc', hsplit]

theorem isAbsolute_of_slash_not_mem {x : String} (hx : x ≠ "") (h : '/' ∉ x.toList) :
    isAbsolute x = false := by
  rw [Bool.eq_false_iff]
  intro habs
  obtain ⟨-, hhead⟩ := (isAbsolute_iff x).1 habs
  rw [split_of_slash_not_mem h] at hhead
  exact hx (by simpa using hhead)

theorem isAbsolute_append {a : String} (b : String) (ha : a ≠ "") :
    isAbsolute (a ++ b) = isAbsolute a := by
  apply Bool.eq_iff_iff.2
  rw [isAbsolute, isAbsolute, String.startsWith_string_iff, String.startsWith_string_iff,
    String.toList_append]
  obtain ⟨c, cs, hc⟩ := List.exists_cons_of_ne_nil (by simpa using ha : a.toList ≠ [])
  simp [hc]

theorem split_slash_append (s : String) : split ("/" ++ s) = "" :: split s := by
  simpa [split_empty] using split_append_slash "" s

/-- Joining a name onto a path that does not end with a slash puts one slash between them. -/
theorem split_join_name_of_endsWith {d x : String} (hd : d ≠ "") (hx : IsName x)
    (hends : d.endsWith "/" = false) : split (join d x) = split d ++ [x] := by
  have hrel : isAbsolute x = false := isAbsolute_of_slash_not_mem hx.1 hx.2.2.2
  unfold join
  rw [if_neg (by simp [hrel]), if_neg (by simpa using hd), if_neg (by simp [hends]),
    split_append_slash, split_of_slash_not_mem hx.2.2.2]

/-- Joining a name onto a path that is not empty adds the name as a last text between slashes,
after texts that name what the path's own texts name. -/
theorem split_join_name {d x : String} (hd : d ≠ "") (hx : IsName x) :
    ∃ pre, split (join d x) = pre ++ [x] ∧ named pre = named (split d) ∧ pre.Sublist (split d) ∧
      pre ≠ [] ∧ (split d).head? = pre.head? := by
  cases hends : d.endsWith "/"
  · exact ⟨split d, split_join_name_of_endsWith hd hx hends, rfl, List.Sublist.refl _,
      split_ne_nil d, rfl⟩
  · -- the path already ends with a slash, whose empty last text goes
    have hrel : isAbsolute x = false := isAbsolute_of_slash_not_mem hx.1 hx.2.2.2
    obtain ⟨t, ht⟩ := String.Slice.endsWith_string_iff.1 hends
    obtain rfl : d = String.ofList t ++ "/" := by
      rw [← String.toList_inj]
      simpa using ht.symm
    have hd' : split (String.ofList t ++ "/") = split (String.ofList t) ++ [""] := by
      simpa [split_empty] using split_append_slash (String.ofList t) ""
    refine ⟨split (String.ofList t), ?_, ?_, ?_, split_ne_nil _, ?_⟩
    · unfold join
      rw [if_neg (by simp [hrel]), if_neg (by simp), if_pos hends, split_append_slash,
        split_of_slash_not_mem hx.2.2.2]
    · rw [hd', named_append]
      simp [named]
    · rw [hd']
      exact List.sublist_append_left _ _
    · rw [hd']
      obtain ⟨y, ys, hy⟩ := List.exists_cons_of_ne_nil (split_ne_nil (String.ofList t))
      simp [hy]

theorem isAbsolute_join_name {d x : String} (hd : d ≠ "") (hx : IsName x) :
    isAbsolute (join d x) = isAbsolute d := by
  have hrel : isAbsolute x = false := isAbsolute_of_slash_not_mem hx.1 hx.2.2.2
  unfold join
  rw [if_neg (by simp [hrel]), if_neg (by simpa using hd)]
  split_ifs
  · exact isAbsolute_append x hd
  · rw [String.append_assoc]
    exact isAbsolute_append _ hd

/-- Joining a name onto a path that does not climb gives a path that does not climb. -/
theorem climb_free_join_name {d x : String} (hd : d ≠ "") (hx : IsName x) (hup : ".." ∉ split d) :
    ".." ∉ split (join d x) := by
  obtain ⟨pre, hsplit, -, hsub, -⟩ := split_join_name hd hx
  rw [hsplit]
  intro hmem
  rcases List.mem_append.1 hmem with hmem | hmem
  · exact hup (hsub.subset hmem)
  · exact hx.2.2.1 (List.mem_singleton.1 hmem).symm

theorem join_name_ne_empty {d x : String} (hd : d ≠ "") (hx : IsName x) : join d x ≠ "" := by
  intro h
  obtain ⟨pre, hsplit, -⟩ := split_join_name hd hx
  rw [h, split_empty] at hsplit
  -- the empty path has one empty text, which is not the name
  have hlast := congrArg List.getLast? hsplit
  simp at hlast
  exact hx.1 hlast

/-- A path that ends with a slash has an empty last text. -/
theorem getLast?_split_of_endsWith {p : String} (hends : p.endsWith "/" = true) :
    (split p).getLast? = some "" := by
  obtain ⟨t, ht⟩ := String.Slice.endsWith_string_iff.1 hends
  have hp : p = String.ofList t ++ "/" ++ "" := by
    rw [← String.toList_inj]
    simpa using ht.symm
  rw [hp, split_append_slash, split_empty]
  simp

/-- A path whose last text between slashes is not empty does not end with a slash. -/
theorem endsWith_of_getLast?_split {p x : String} (hlast : (split p).getLast? = some x)
    (hx : x ≠ "") : p.endsWith "/" = false := by
  rw [Bool.eq_false_iff]
  intro hends
  rw [getLast?_split_of_endsWith hends, Option.some.injEq] at hlast
  exact hx hlast.symm

theorem endsWith_join_name {d x : String} (hd : d ≠ "") (hx : IsName x) :
    (join d x).endsWith "/" = false := by
  obtain ⟨pre, hsplit, -⟩ := split_join_name hd hx
  exact endsWith_of_getLast?_split (by simp [hsplit]) hx.1

/-- The parts of a path with a name joined on are the path's parts and the name. -/
theorem parts_join_name {d x : String} (hd : d ≠ "") (hx : IsName x) :
    parts (join d x) = parts d ++ [x] := by
  obtain ⟨pre, hsplit, hnamed, -, hpre, hhead⟩ := split_join_name hd hx
  obtain ⟨y, ys, rfl⟩ := List.exists_cons_of_ne_nil hpre
  rw [parts_eq, parts_eq, hsplit, hhead]
  change _ ++ named _ = _ ++ named _ ++ _
  rw [← hnamed, named_append, hx.named_singleton]
  simp

theorem fileName?_join_name {d x : String} (hd : d ≠ "") (hx : IsName x) :
    fileName? (join d x) = some x := by
  rw [fileName?, parts_join_name hd hx, List.getLast?_concat]
  split
  · next h => exact absurd (Option.some_inj.1 h) hx.2.2.1
  · next h => exact absurd (Option.some_inj.1 h) hx.2.1
  · next h => exact h.symm
  · next h => simp at h

theorem slash_not_mem_of_mem_parts {p x : String} (h : x ∈ parts p) : '/' ∉ x.toList :=
  slash_not_mem_of_mem_split (mem_split_of_mem_parts h)

theorem ne_empty_of_mem_parts {p x : String} (h : x ∈ parts p) : x ≠ "" := by
  rw [parts_eq] at h
  rcases List.mem_append.1 h with h | h
  · split_ifs at h <;> simp_all
  · simp_all [List.mem_filter]

theorem split_intercalate {xs : List String} (hxs : xs ≠ []) (h : ∀ x ∈ xs, '/' ∉ x.toList) :
    split (String.intercalate "/" xs) = xs := by
  rw [split, String.toList_intercalate]
  rw [show "/".toList = ['/'] from rfl, List.splitOn_intercalate '/' (by simpa using h)
    (by simpa using hxs)]
  simp

theorem isAbsolute_intercalate {x : String} {xs : List String} (hx : x ≠ "")
    (h : '/' ∉ x.toList) : isAbsolute (String.intercalate "/" (x :: xs)) = false := by
  cases xs with
  | nil => simpa using isAbsolute_of_slash_not_mem hx h
  | cons y ys =>
    rw [String.intercalate_cons_of_ne_nil (by simp), String.append_assoc,
      isAbsolute_append _ hx]
    exact isAbsolute_of_slash_not_mem hx h

/-- The parent of a path with a name joined on is written with the path's parts: its texts
between slashes are some of the path's, naming the same entries, and it starts where the
path starts. -/
theorem parent?_join_name {d x : String} (hd : d ≠ "") (hx : IsName x) (hparts : parts d ≠ []) :
    ∃ q, parent? (join d x) = some q ∧ q ≠ "" ∧ isAbsolute q = isAbsolute d ∧
      (split q).Sublist (split d) ∧ named (split q) = named (split d) := by
  have hslash : ∀ y ∈ parts d, '/' ∉ y.toList := fun y hy => slash_not_mem_of_mem_parts hy
  have hfront : (parts d ++ [x]).dropLast = parts d := List.dropLast_concat ..
  have hq : split (String.intercalate "/" (parts d)) = parts d := split_intercalate hparts hslash
  obtain ⟨y, ys, hy⟩ := List.exists_cons_of_ne_nil hparts
  unfold parent?
  simp only [parts_join_name hd hx, List.getLast?_concat, hfront, isAbsolute_join_name hd hx]
  by_cases habs : isAbsolute d = true
  · -- an absolute path: its first text is empty, and its parts are its named texts
    obtain ⟨-, hhead⟩ := (isAbsolute_iff d).1 habs
    obtain ⟨rest, hrest⟩ := List.head?_eq_some_iff.1 hhead
    have hpd : parts d = named rest := by
      rw [parts_eq, hrest, if_neg (by simp)]
      exact named_cons_skip rest (.inl rfl)
    refine ⟨"/" ++ String.intercalate "/" (parts d), by simp [habs], by simp, ?_, ?_, ?_⟩
    · rw [isAbsolute_append _ (by simp), habs]
      exact String.startsWith_string_iff.2 List.prefix_rfl
    · rw [split_slash_append, hq, hrest, hpd]
      exact (named_sublist rest).cons_cons ""
    · rw [split_slash_append, hq, hrest, hpd, named_cons_skip _ (.inl rfl),
        named_cons_skip _ (.inl rfl), named_named]
  · -- a relative path: its parts are its named texts, after a leading `.` if it has one
    have hne : String.intercalate "/" (parts d) ≠ "" := by
      intro h
      have := congrArg split h
      rw [hq, split_empty] at this
      exact ne_empty_of_mem_parts (x := "") (this ▸ List.mem_singleton_self "") rfl
    refine ⟨String.intercalate "/" (parts d), by simp [habs], hne, ?_, ?_, ?_⟩
    · rw [hy, isAbsolute_intercalate (ne_empty_of_mem_parts (hy ▸ List.mem_cons_self))
        (hslash y (hy ▸ List.mem_cons_self))]
      simpa using habs
    · rw [hq, parts_eq]
      split_ifs with hdot
      · obtain ⟨rest, hrest⟩ := List.head?_eq_some_iff.1 hdot
        rw [hrest]
        change List.Sublist (["."] ++ named ("." :: rest)) ("." :: rest)
        rw [named_cons_skip _ (.inr rfl)]
        exact (named_sublist rest).cons_cons "."
      · exact named_sublist _
    · rw [hq, parts_eq]
      split_ifs with hdot
      · change named (["."] ++ named _) = _
        rw [named_append, named_named]
        simp [named]
      · exact named_named _

end Path

namespace FileTree

open Provisioning.Path

/-- The location a path names when nothing on the way is a link: from where the path starts,
each named text in turn. -/
def lexical (cwd : List String) (p : String) : List String := origin cwd p ++ named (split p)

theorem lexical_join_name {cwd : List String} {d x : String} (hd : d ≠ "") (hx : IsName x) :
    lexical cwd (join d x) = lexical cwd d ++ [x] := by
  obtain ⟨pre, hsplit, hnamed, -⟩ := split_join_name hd hx
  simp only [lexical, origin, isAbsolute_join_name hd hx, hsplit, named_append, hnamed,
    hx.named_singleton, List.append_assoc]

/-- A tree with no symbolic links. -/
def LinkFree (t : FileTree) : Prop := ∀ e ∈ t.entries, e.2.isLink = false

theorem LinkFree.node?_ne_link {t : FileTree} (h : t.LinkFree) (l : List String) (target : String) :
    t.node? l ≠ some (.link target) := by
  intro hl
  unfold node? at hl
  split at hl
  · cases hl
  · obtain ⟨e, he, hkey, hval⟩ : ∃ e ∈ t.entries, e.1 = l ∧ e.2 = .link target := by
      obtain ⟨l₁, l₂, hsplit, -⟩ := List.lookup_eq_some_iff.1 hl
      exact ⟨(l, .link target), by simp [hsplit], rfl, rfl⟩
    have := h e he
    rw [hval] at this
    cases this

/-! ## Walking -/

section Walk

variable {t t' : FileTree} {f f' : Bool} {fuel : Nat} {at_ : List String} {x : String}
  {rest : List String}

theorem walk_cons_long (h : x.utf8ByteSize > 255) :
    t.walk f (fuel + 1) at_ (x :: rest) = .error .nameTooLong := by
  simp [walk, h]

theorem walk_cons_skip (h : x = "" ∨ x = ".") :
    t.walk f (fuel + 1) at_ (x :: rest) = t.walk f fuel at_ rest := by
  have hsize : ¬ x.utf8ByteSize > 255 := by rcases h with rfl | rfl <;> decide
  simp [walk, hsize, or_comm.1 h]

theorem walk_cons_climb :
    t.walk f (fuel + 1) at_ (".." :: rest) = t.walk f fuel at_.dropLast rest := by
  simp [walk, show ¬ "..".utf8ByteSize > 255 by decide]

/-- A step onto a name looks at the entry there. -/
theorem walk_cons_name (hsize : ¬ x.utf8ByteSize > 255) (hx : x ≠ "" ∧ x ≠ "." ∧ x ≠ "..") :
    t.walk f (fuel + 1) at_ (x :: rest) =
      match t.node? (at_ ++ [x]) with
      | none => if rest.isEmpty then .ok (at_ ++ [x]) else .error .notFound
      | some .dir => t.walk f fuel (at_ ++ [x]) rest
      | some (.file ..) => if rest.isEmpty then .ok (at_ ++ [x]) else .error .notADirectory
      | some (.link target) =>
        if rest.isEmpty && !f then .ok (at_ ++ [x])
        else t.walk f fuel (if Path.isAbsolute target then [] else at_)
          (Path.split target ++ rest) := by
  simp only [walk]
  -- the entry's match is the definition's own, up to unfolding
  rewrite [if_neg hsize, if_neg (by simp [hx.1, hx.2.1]), if_neg hx.2.2]
  rfl

/-- Every part is too long, passed over, a climb, or a name. -/
theorem part_cases (x : String) :
    x.utf8ByteSize > 255 ∨ (x = "" ∨ x = ".") ∨ x = ".." ∨
      (¬ x.utf8ByteSize > 255 ∧ x ≠ "" ∧ x ≠ "." ∧ x ≠ "..") := by
  by_cases hsize : x.utf8ByteSize > 255
  · exact .inl hsize
  · by_cases hskip : x = "" ∨ x = "."
    · exact .inr (.inl hskip)
    · by_cases hclimb : x = ".."
      · exact .inr (.inr (.inl hclimb))
      · simp only [not_or] at hskip
        exact .inr (.inr (.inr ⟨hsize, hskip.1, hskip.2, hclimb⟩))

/-- Without links, the walk does not depend on whether a link at the end is followed. -/
theorem walk_follow (h : t.LinkFree) (f f' : Bool) :
    ∀ fuel at_ ps, t.walk f fuel at_ ps = t.walk f' fuel at_ ps := by
  intro fuel
  induction fuel with
  | zero => intro at_ ps; rfl
  | succ fuel ih =>
    intro at_ ps
    cases ps with
    | nil => rfl
    | cons x rest =>
      rcases part_cases x with hsize | hskip | rfl | ⟨hsize, hx⟩
      · rw [walk_cons_long hsize, walk_cons_long hsize]
      · rw [walk_cons_skip hskip, walk_cons_skip hskip]
        exact ih _ _
      · rw [walk_cons_climb, walk_cons_climb]
        exact ih _ _
      · rw [walk_cons_name hsize hx, walk_cons_name hsize hx]
        rcases hnode : t.node? (at_ ++ [x]) with _ | _ | ⟨data, mode⟩ | target
        · rfl
        · exact ih _ _
        · rfl
        · exact absurd hnode (h.node?_ne_link _ target)

/-- More steps never undo a walk that ended. -/
theorem walk_add_fuel {L : List String} (k : Nat) :
    ∀ fuel at_ ps, t.walk f fuel at_ ps = .ok L → t.walk f (fuel + k) at_ ps = .ok L := by
  intro fuel
  induction fuel with
  | zero => intro at_ ps h; simp [walk] at h
  | succ fuel ih =>
    intro at_ ps h
    rw [Nat.add_right_comm]
    cases ps with
    | nil => simpa [walk] using h
    | cons x rest =>
      rcases part_cases x with hsize | hskip | rfl | ⟨hsize, hx⟩
      · rw [walk_cons_long hsize] at h
        cases h
      · rw [walk_cons_skip hskip] at h ⊢
        exact ih _ _ h
      · rw [walk_cons_climb] at h ⊢
        exact ih _ _ h
      · rw [walk_cons_name hsize hx] at h ⊢
        rcases hnode : t.node? (at_ ++ [x]) with _ | _ | ⟨data, mode⟩ | target <;>
          simp only [hnode] at h ⊢
        · exact h
        · exact ih _ _ h
        · exact h
        · by_cases hstop : (rest.isEmpty && !f) = true
          · rw [if_pos hstop] at h ⊢
            exact h
          · rw [if_neg hstop] at h ⊢
            exact ih _ _ h

/-- A walk that ends leads to the lexical location of its parts. -/
theorem walk_lexical (h : t.LinkFree) {L : List String} :
    ∀ fuel at_ ps, ".." ∉ ps → t.walk f fuel at_ ps = .ok L → L = at_ ++ named ps := by
  intro fuel
  induction fuel with
  | zero => intro at_ ps _ hw; simp [walk] at hw
  | succ fuel ih =>
    intro at_ ps hup hw
    cases ps with
    | nil => simpa [walk] using hw.symm
    | cons x rest =>
      have hrest : ".." ∉ rest := fun hr => hup (List.mem_cons_of_mem _ hr)
      rcases part_cases x with hsize | hskip | rfl | ⟨hsize, hx⟩
      · rw [walk_cons_long hsize] at hw
        cases hw
      · rw [walk_cons_skip hskip] at hw
        rw [named_cons_skip rest hskip]
        exact ih _ _ hrest hw
      · exact absurd List.mem_cons_self hup
      · rw [walk_cons_name hsize hx] at hw
        rw [named_cons_name rest ⟨hx.1, hx.2.1⟩]
        -- the walk stops at a missing entry or a file only when no part is left
        rcases hnode : t.node? (at_ ++ [x]) with _ | _ | ⟨data, mode⟩ | target <;>
          simp only [hnode] at hw
        · cases rest <;> simp_all
        · rw [ih _ _ hrest hw]
          simp
        · cases rest <;> simp_all
        · exact absurd hnode (h.node?_ne_link _ target)

/-- The walk reads the tree only at the beginnings of the lexical location of its parts. -/
theorem walk_congr (h : t.LinkFree) :
    ∀ fuel at_ ps, ".." ∉ ps → (∀ l, l <+: at_ ++ named ps → t.node? l = t'.node? l) →
      t.walk f fuel at_ ps = t'.walk f' fuel at_ ps := by
  intro fuel
  induction fuel with
  | zero => intro at_ ps _ _; rfl
  | succ fuel ih =>
    intro at_ ps hup hsame
    cases ps with
    | nil => rfl
    | cons x rest =>
      have hrest : ".." ∉ rest := fun hr => hup (List.mem_cons_of_mem _ hr)
      rcases part_cases x with hsize | hskip | rfl | ⟨hsize, hx⟩
      · rw [walk_cons_long hsize, walk_cons_long hsize]
      · rw [walk_cons_skip hskip, walk_cons_skip hskip]
        rw [named_cons_skip rest hskip] at hsame
        exact ih _ _ hrest hsame
      · exact absurd List.mem_cons_self hup
      · rw [walk_cons_name hsize hx, walk_cons_name hsize hx]
        rw [named_cons_name rest ⟨hx.1, hx.2.1⟩] at hsame
        -- the entry the step meets is the same in both trees
        have hnext : t.node? (at_ ++ [x]) = t'.node? (at_ ++ [x]) := hsame _ (by simp)
        rw [← hnext]
        rcases hnode : t.node? (at_ ++ [x]) with _ | _ | ⟨data, mode⟩ | target
        · rfl
        · exact ih _ _ hrest fun l hl => hsame l (by simpa using hl)
        · rfl
        · exact absurd hnode (h.node?_ne_link _ target)

/-- A last step onto an entry that is no directory ends the walk there. -/
theorem walk_name_nondir (h : t.LinkFree) (hsize : ¬ x.utf8ByteSize > 255)
    (hx : x ≠ "" ∧ x ≠ "." ∧ x ≠ "..") (hend : t.node? (at_ ++ [x]) ≠ some .dir) :
    t.walk f (fuel + 1) at_ [x] = .ok (at_ ++ [x]) := by
  rw [walk_cons_name hsize hx]
  rcases hnode : t.node? (at_ ++ [x]) with _ | _ | ⟨data, mode⟩ | target
  · rfl
  · exact absurd hnode hend
  · rfl
  · exact absurd hnode (h.node?_ne_link _ target)

/-- For parts that end with a name, the entry at the end is read only as being a directory or
not: trees that agree before it, with no directory at the end in either, walk alike. -/
theorem walk_congr_last (h : t.LinkFree) (h' : t'.LinkFree) (hx : x ≠ "" ∧ x ≠ "." ∧ x ≠ "..") :
    ∀ fuel at_ qs, ".." ∉ qs → (∀ l, l <+: at_ ++ named qs → t.node? l = t'.node? l) →
      t.node? (at_ ++ named qs ++ [x]) ≠ some .dir →
      t'.node? (at_ ++ named qs ++ [x]) ≠ some .dir →
      t.walk f fuel at_ (qs ++ [x]) = t'.walk f' fuel at_ (qs ++ [x]) := by
  intro fuel
  induction fuel with
  | zero => intro at_ qs _ _ _ _; rfl
  | succ fuel ih =>
    intro at_ qs hup hsame hend hend'
    cases qs with
    | nil =>
      by_cases hsize : x.utf8ByteSize > 255
      · rw [List.nil_append, walk_cons_long hsize, walk_cons_long hsize]
      · rw [List.nil_append, walk_name_nondir h hsize hx (by simpa using hend),
          walk_name_nondir h' hsize hx (by simpa using hend')]
    | cons y rest =>
      have hrest : ".." ∉ rest := fun hr => hup (List.mem_cons_of_mem _ hr)
      rw [List.cons_append]
      rcases part_cases y with hsize | hskip | rfl | ⟨hsize, hy⟩
      · rw [walk_cons_long hsize, walk_cons_long hsize]
      · rw [walk_cons_skip hskip, walk_cons_skip hskip]
        rw [named_cons_skip rest hskip] at hsame hend hend'
        exact ih _ _ hrest hsame hend hend'
      · exact absurd List.mem_cons_self hup
      · rw [walk_cons_name hsize hy, walk_cons_name hsize hy]
        rw [named_cons_name rest ⟨hy.1, hy.2.1⟩] at hsame hend hend'
        have hnext : t.node? (at_ ++ [y]) = t'.node? (at_ ++ [y]) := hsame _ (by simp)
        rw [← hnext]
        rcases hnode : t.node? (at_ ++ [y]) with _ | _ | ⟨data, mode⟩ | target
        · rfl
        · exact ih _ _ hrest (fun l hl => hsame l (by simpa using hl)) (by simpa using hend)
            (by simpa using hend')
        · rfl
        · exact absurd hnode (h.node?_ne_link _ target)

/-- Passing over fewer empty texts and `.` keeps a walk that ended where it ended. -/
theorem walk_of_sublist (h : t.LinkFree) {L : List String} {qs ps : List String}
    (hsub : qs.Sublist ps) (hnamed : named qs = named ps) :
    ∀ fuel at_, t.walk f fuel at_ ps = .ok L → t.walk f fuel at_ qs = .ok L := by
  induction hsub with
  | slnil => exact fun _ _ hw => hw
  | @cons qs ps a hsub ih =>
    -- the part left out names nothing, or the named parts would differ in number
    have hskip : a = "" ∨ a = "." := by
      by_contra hname
      have hlen := (hsub.filter fun s => s ≠ "" && s ≠ ".").length_le
      change (named qs).length ≤ (named ps).length at hlen
      rw [hnamed, named_cons_name _ (by simpa [not_or] using hname), List.length_cons] at hlen
      omega
    rw [named_cons_skip _ hskip] at hnamed
    intro fuel at_ hw
    cases fuel with
    | zero => simp [walk] at hw
    | succ fuel =>
      rw [walk_cons_skip hskip] at hw
      exact walk_add_fuel 1 _ _ _ (ih hnamed fuel at_ hw)
  | @cons_cons qs ps a hsub ih =>
    intro fuel at_ hw
    cases fuel with
    | zero => simp [walk] at hw
    | succ fuel =>
      rcases part_cases a with hsize | hskip | rfl | ⟨hsize, ha⟩
      · rw [walk_cons_long hsize] at hw
        cases hw
      · rw [named_cons_skip _ hskip, named_cons_skip _ hskip] at hnamed
        rw [walk_cons_skip hskip] at hw ⊢
        exact ih hnamed _ _ hw
      · rw [named_cons_name _ (by decide), named_cons_name _ (by decide)] at hnamed
        rw [walk_cons_climb] at hw ⊢
        exact ih (List.cons_inj_right _ |>.1 hnamed) _ _ hw
      · rw [named_cons_name _ ⟨ha.1, ha.2.1⟩, named_cons_name _ ⟨ha.1, ha.2.1⟩] at hnamed
        have hnamed' := List.cons_inj_right _ |>.1 hnamed
        rw [walk_cons_name hsize ha] at hw ⊢
        -- the same entry is met, and only a directory lets the walk go on
        rcases hnode : t.node? (at_ ++ [a]) with _ | _ | ⟨data, mode⟩ | target <;>
          simp only [hnode] at hw ⊢
        · cases ps with
          | nil => simp_all [List.sublist_nil.1 hsub]
          | cons _ _ => simp at hw
        · exact ih hnamed' _ _ hw
        · cases ps with
          | nil => simp_all [List.sublist_nil.1 hsub]
          | cons _ _ => simp at hw
        · exact absurd hnode (h.node?_ne_link _ target)

end Walk

/-! ## Locating paths -/

section Locate

variable {t t' : FileTree} {cwd : List String} {p : String}

/-- A path that resolves in a tree without links resolves to its lexical location. -/
theorem locate_lexical (h : t.LinkFree) (hup : ".." ∉ split p) {f : Bool} {L : List String}
    (hl : t.locate cwd p f = .ok L) : L = lexical cwd p := by
  unfold locate at hl
  split at hl
  · cases hl
  · exact walk_lexical h _ _ _ hup hl

theorem locate_follow (h : t.LinkFree) (f f' : Bool) : t.locate cwd p f = t.locate cwd p f' := by
  unfold locate
  split
  · rfl
  · exact walk_follow h _ _ _ _ _

/-- Trees that agree at the beginnings of a path's lexical location resolve it alike. -/
theorem locate_congr (h : t.LinkFree) (hup : ".." ∉ split p)
    (hsame : ∀ l, l <+: lexical cwd p → t.node? l = t'.node? l) (f f' : Bool) :
    t.locate cwd p f = t'.locate cwd p f' := by
  unfold locate
  split
  · rfl
  · exact walk_congr h _ _ _ hup hsame

/-- Trees that agree at the beginnings of a path's lexical location, the location itself
included, give the path the same entry. -/
theorem stat_congr (h : t.LinkFree) (hup : ".." ∉ split p)
    (hsame : ∀ l, l <+: lexical cwd p → t.node? l = t'.node? l) :
    t.stat cwd p = t'.stat cwd p := by
  unfold stat
  rw [locate_congr h hup hsame true true]
  cases hl : t'.locate cwd p true with
  | error e => rfl
  | ok L =>
    have hL : L = lexical cwd p := by
      rw [← locate_congr h hup hsame true true] at hl
      exact locate_lexical h hup hl
    simp only [bind, Except.bind, hsame L (hL ▸ List.prefix_rfl)]

/-- A name joined onto a directory resolves alike in trees that agree at the beginnings of the
directory's lexical location and have no directory at the name. -/
theorem locate_join_name_congr (h : t.LinkFree) (h' : t'.LinkFree) {d x : String} (hd : d ≠ "")
    (hx : IsName x) (hup : ".." ∉ split d)
    (hsame : ∀ l, l <+: lexical cwd d → t.node? l = t'.node? l)
    (hend : t.node? (lexical cwd d ++ [x]) ≠ some .dir)
    (hend' : t'.node? (lexical cwd d ++ [x]) ≠ some .dir) (f f' : Bool) :
    t.locate cwd (join d x) f = t'.locate cwd (join d x) f' := by
  obtain ⟨pre, hsplit, hnamed, hsub, -⟩ := split_join_name hd hx
  have hlex : lexical cwd d = origin cwd (join d x) ++ named pre := by
    simp only [lexical, origin, isAbsolute_join_name hd hx, hnamed]
  unfold locate
  rw [if_neg (by simpa using join_name_ne_empty hd hx), if_neg (by simpa using join_name_ne_empty hd hx),
    hsplit]
  rw [hlex] at hsame hend hend'
  exact walk_congr_last h h' ⟨hx.1, hx.2.1, hx.2.2.1⟩ _ _ _ (fun hm => hup (hsub.subset hm)) hsame
    hend hend'

/-- A path whose texts are some of another's, naming the same entries and starting at the
same place, resolves where the other does. -/
theorem locate_of_sublist (h : t.LinkFree) {q : String} (hq : q ≠ "")
    (habs : isAbsolute q = isAbsolute p) (hsub : (split q).Sublist (split p))
    (hnamed : named (split q) = named (split p)) {f f' : Bool} {L : List String}
    (hl : t.locate cwd p f = .ok L) : t.locate cwd q f' = .ok L := by
  unfold locate at hl ⊢
  split at hl
  · cases hl
  · rw [if_neg (by simpa using hq), walk_follow h _ (f || p.endsWith "/")]
    have hwalk := walk_of_sublist h hsub hnamed _ _ hl
    simpa only [origin, habs] using hwalk

/-- What a path that resolves leads to, when the path does not end with a slash. -/
theorem stat_of_locate (hends : p.endsWith "/" = false) {L : List String}
    (hl : t.locate cwd p true = .ok L) : t.stat cwd p = match t.node? L with
      | some n => .ok n
      | none => .error .notFound := by
  unfold stat
  rw [hl]
  simp only [bind, Except.bind, hends, Bool.false_and]
  cases t.node? L <;> rfl

end Locate


end FileTree

end Provisioning
