import Provisioning.Proofs.FileTree.Frame
/-!
Resolving paths in trees that hold symbolic links.

The lemmas of `Resolution` read a walk off the lexical location of its parts, which needs a tree
without links. Here links may be anywhere, and a walk is compared with itself: in another tree,
with other parts after it, or with some parts it passes over left out.

* A tree that keeps every entry of another (`Extends`) walks alike wherever the first walked to a
  directory: the walk met only entries it found. Walking the parts of a path to a directory and
  then more parts is walking the more parts from the directory, with the steps left over
  (`walk_append_of_dir`); leaving out texts the walk passes over (`Skipped`) only leaves more
  steps.
* A walk over names that meets no link goes down one name at a time: it ends, if it ends, at the
  location followed by the names (`walk_names_ok`), and through directories it never stops for
  want of an entry (`walk_dirs_ne_notFound`).
* A walk that follows a link at its end and one that does not stop at the same place, or the
  second at that link (`walk_follow_ok`, `locate_follow_ok`).
-/

namespace Provisioning

open Provisioning.Path

/-- `ps'` is `ps` with some of the texts that a walk passes over, empty ones and `.`, left out. -/
inductive Skipped : List String → List String → Prop
  | nil : Skipped [] []
  | keep (x : String) {ps ps' : List String} : Skipped ps ps' → Skipped (x :: ps) (x :: ps')
  | drop {x : String} {ps ps' : List String} : x = "" ∨ x = "." → Skipped ps ps' →
      Skipped (x :: ps) ps'

namespace Skipped

theorem refl : ∀ ps, Skipped ps ps
  | [] => .nil
  | x :: ps => .keep x (refl ps)

theorem append_left (pre : List String) {ps ps' : List String} (h : Skipped ps ps') :
    Skipped (pre ++ ps) (pre ++ ps') := by
  induction pre with
  | nil => exact h
  | cons x pre ih => exact .keep x ih

theorem append_right {ps ps' : List String} (h : Skipped ps ps') (qs : List String) :
    Skipped (ps ++ qs) (ps' ++ qs) := by
  induction h with
  | nil => exact refl qs
  | keep x _ ih => exact .keep x ih
  | drop hx _ ih => exact .drop hx ih

theorem trans {ps ps' ps'' : List String} (h : Skipped ps ps') (h' : Skipped ps' ps'') :
    Skipped ps ps'' := by
  induction h generalizing ps'' with
  | nil => exact h'
  | keep x _ ih =>
    cases h' with
    | keep _ h' => exact .keep x (ih h')
    | drop hx h' => exact .drop hx (ih h')
  | drop hx _ ih => exact .drop hx (ih h')

/-- Texts that all name entries are never left out. -/
theorem eq_of_named {ys qs : List String} (h : Skipped ys qs) (hys : ∀ y ∈ ys, y ≠ "" ∧ y ≠ ".") :
    qs = ys := by
  induction h with
  | nil => rfl
  | keep x _ ih => rw [ih fun y hy => hys y (List.mem_cons_of_mem _ hy)]
  | drop hx _ _ =>
    have := hys _ List.mem_cons_self
    rcases hx with rfl | rfl <;> simp at this

/-- After leaving texts out of `pre ++ ys`, where every text of `ys` names an entry, `ys` is
still at the end. -/
theorem append_of_named {ys : List String} (hys : ∀ y ∈ ys, y ≠ "" ∧ y ≠ ".") :
    ∀ {pre qs : List String}, Skipped (pre ++ ys) qs → ∃ pre', qs = pre' ++ ys ∧ Skipped pre pre'
  | [], qs, h => ⟨[], eq_of_named h hys, .nil⟩
  | x :: pre, qs, h => by
    cases h with
    | keep _ h =>
      obtain ⟨pre', rfl, hpre⟩ := append_of_named hys h
      exact ⟨x :: pre', rfl, .keep x hpre⟩
    | drop hx h =>
      obtain ⟨pre', rfl, hpre⟩ := append_of_named hys h
      exact ⟨pre', rfl, .drop hx hpre⟩

end Skipped

/-- A sublist that keeps every text naming an entry leaves out only texts the walk passes over. -/
theorem skipped_of_sublist {ps ps' : List String} (hsub : ps'.Sublist ps)
    (hnamed : named ps' = named ps) : Skipped ps ps' := by
  induction hsub with
  | slnil => exact .nil
  | @cons ps' ps a hsub ih =>
    -- the text left out names nothing, or the named texts would differ in number
    have hskip : a = "" ∨ a = "." := by
      by_contra hname
      have hlen := (hsub.filter fun s => s ≠ "" && s ≠ ".").length_le
      change (named ps').length ≤ (named ps).length at hlen
      rw [hnamed, named_cons_name _ (by simpa [not_or] using hname), List.length_cons] at hlen
      omega
    rw [named_cons_skip _ hskip] at hnamed
    exact .drop hskip (ih hnamed)
  | @cons_cons ps' ps a _ ih =>
    by_cases hskip : a = "" ∨ a = "."
    · rw [named_cons_skip _ hskip, named_cons_skip _ hskip] at hnamed
      exact .keep a (ih hnamed)
    · have hname : a ≠ "" ∧ a ≠ "." := by simpa [not_or] using hskip
      rw [named_cons_name _ hname, named_cons_name _ hname] at hnamed
      exact .keep a (ih (List.cons_inj_right _ |>.1 hnamed))

namespace FileTree

/-- `t'` holds every entry that `t` holds, at the same location. -/
def Extends (t t' : FileTree) : Prop := ∀ l n, t.node? l = some n → t'.node? l = some n

theorem Extends.refl (t : FileTree) : t.Extends t := fun _ _ h => h

theorem Extends.trans {t t' t'' : FileTree} (h : t.Extends t') (h' : t'.Extends t'') :
    t.Extends t'' := fun l n hl => h' l n (h l n hl)

section Walk

variable {t : FileTree} {f : Bool} {x : String} {L : List String}

/-- A walk that follows links to a directory `P` is, in every tree that keeps the entries it met,
a walk to `P` followed by a walk from `P` over whatever parts come after, with at least one step
left; leaving out texts the walk passes over leaves more steps. -/
theorem walk_append_of_dir {P : List String} (hP : t.node? P = some .dir) :
    ∀ fuel at_ ps, t.walk true fuel at_ ps = .ok P → ∀ ps', Skipped ps ps' →
      ∃ k, 0 < k ∧ ∀ t', t.Extends t' → ∀ e f qs, qs ≠ [] →
        t'.walk f (fuel + e) at_ (ps' ++ qs) = t'.walk f (k + e) P qs := by
  intro fuel
  induction fuel with
  | zero => intro _ _ h; simp [walk] at h
  | succ fuel ih =>
    intro at_ ps h ps' hs
    cases hs with
    | nil =>
      -- nothing to walk: the walk stays where it starts, with every step left
      obtain rfl : at_ = P := by simpa [walk] using h
      exact ⟨fuel + 1, Nat.succ_pos _, fun _ _ _ _ _ _ => rfl⟩
    | drop hskip hs =>
      rw [walk_cons_skip hskip] at h
      obtain ⟨k, hk, hwalk⟩ := ih at_ _ h _ hs
      refine ⟨k + 1, Nat.succ_pos _, fun t' ht' e f qs hqs => ?_⟩
      rw [show fuel + 1 + e = fuel + (e + 1) by omega, show k + 1 + e = k + (e + 1) by omega]
      exact hwalk t' ht' (e + 1) f qs hqs
    | keep x hs =>
      rename_i rest rest'
      rcases part_cases x with hsize | hskip | rfl | ⟨hsize, hx⟩
      · rw [walk_cons_long hsize] at h
        cases h
      · rw [walk_cons_skip hskip] at h
        obtain ⟨k, hk, hwalk⟩ := ih at_ _ h _ hs
        refine ⟨k, hk, fun t' ht' e f qs hqs => ?_⟩
        rw [List.cons_append, Nat.add_right_comm, walk_cons_skip hskip]
        exact hwalk t' ht' e f qs hqs
      · rw [walk_cons_climb] at h
        obtain ⟨k, hk, hwalk⟩ := ih _ _ h _ hs
        refine ⟨k, hk, fun t' ht' e f qs hqs => ?_⟩
        rw [List.cons_append, Nat.add_right_comm, walk_cons_climb]
        exact hwalk t' ht' e f qs hqs
      · rw [walk_cons_name hsize hx] at h
        rcases hnode : t.node? (at_ ++ [x]) with _ | _ | ⟨data, mode⟩ | target <;>
          simp only [hnode] at h
        · -- a missing entry ends the walk only as its last part, and `P` is a directory
          split at h
          · cases h
            simp [hnode] at hP
          · cases h
        · obtain ⟨k, hk, hwalk⟩ := ih _ _ h _ hs
          refine ⟨k, hk, fun t' ht' e f qs hqs => ?_⟩
          rw [List.cons_append, Nat.add_right_comm, walk_cons_name hsize hx, ht' _ _ hnode]
          exact hwalk t' ht' e f qs hqs
        · split at h
          · cases h
            simp [hnode] at hP
          · cases h
        · -- a link is followed: with more parts after it, also where the walk would stop at it
          simp only [Bool.not_true, Bool.and_false, Bool.false_eq_true, if_false] at h
          obtain ⟨k, hk, hwalk⟩ := ih _ _ h _ (hs.append_left (split target))
          refine ⟨k, hk, fun t' ht' e f qs hqs => ?_⟩
          have hne : (rest' ++ qs).isEmpty = false := by simpa using fun _ => hqs
          rw [List.cons_append, Nat.add_right_comm, walk_cons_name hsize hx, ht' _ _ hnode]
          simp only [hne, Bool.false_and, Bool.false_eq_true, if_false]
          rw [← List.append_assoc]
          exact hwalk t' ht' e f qs hqs

/-- A walk over names that meets no link ends, if it ends, at the location it started from
followed by the names. -/
theorem walk_names_ok : ∀ xs fuel at_, (∀ x ∈ xs, IsName x) →
    (∀ ys, ys ≠ [] → ys <+: xs → ∀ target, t.node? (at_ ++ ys) ≠ some (.link target)) →
    t.walk f fuel at_ xs = .ok L → L = at_ ++ xs := by
  intro xs
  induction xs with
  | nil =>
    intro fuel at_ _ _ h
    cases fuel with
    | zero => simp [walk] at h
    | succ fuel => simpa [walk] using h.symm
  | cons x rest ih =>
    intro fuel at_ hnames hfree h
    have hx := hnames x List.mem_cons_self
    cases fuel with
    | zero => simp [walk] at h
    | succ fuel =>
      by_cases hsize : x.utf8ByteSize > 255
      · rw [walk_cons_long hsize] at h
        cases h
      rw [walk_cons_name hsize ⟨hx.1, hx.2.1, hx.2.2.1⟩] at h
      rcases hnode : t.node? (at_ ++ [x]) with _ | _ | ⟨data, mode⟩ | target <;>
        simp only [hnode] at h
      · split at h
        · next hrest =>
          cases h
          simp [List.isEmpty_iff.mp hrest]
        · cases h
      · -- the names after the directory meet no link either
        have hfree' : ∀ ys, ys ≠ [] → ys <+: rest → ∀ target,
            t.node? (at_ ++ [x] ++ ys) ≠ some (.link target) := fun ys hys hpre target => by
          simpa using hfree (x :: ys) (by simp) (List.cons_prefix_cons.mpr ⟨rfl, hpre⟩) target
        rw [ih fuel _ (fun y hy => hnames y (List.mem_cons_of_mem _ hy)) hfree' h]
        simp
      · split at h
        · next hrest =>
          cases h
          simp [List.isEmpty_iff.mp hrest]
        · cases h
      · exact absurd hnode (by simpa using hfree [x] (by simp) (by simp) target)

/-- A walk over names through directories does not stop for want of an entry when it does not
follow a link at its end. -/
theorem walk_dirs_ne_notFound :
    ∀ xs fuel at_, xs ≠ [] → (∀ x ∈ xs, IsName x) →
      (∀ ys, ys ≠ [] → ys <+: xs → ys ≠ xs → t.node? (at_ ++ ys) = some .dir) →
      t.walk false fuel at_ xs ≠ .error .notFound := by
  intro xs
  induction xs with
  | nil => intro _ _ h; exact absurd rfl h
  | cons x rest ih =>
    intro fuel at_ _ hnames hdirs
    have hx := hnames x List.mem_cons_self
    cases fuel with
    | zero => simp [walk]
    | succ fuel =>
      by_cases hsize : x.utf8ByteSize > 255
      · simp [walk_cons_long hsize]
      rw [walk_cons_name hsize ⟨hx.1, hx.2.1, hx.2.2.1⟩]
      cases rest with
      | nil =>
        -- the last name: whatever is there, the walk ends or runs out of steps
        rcases t.node? (at_ ++ [x]) with _ | _ | ⟨data, mode⟩ | target
        · simp
        · cases fuel <;> simp [walk]
        · simp
        · simp
      | cons y rest =>
        have hdir : t.node? (at_ ++ [x]) = some .dir :=
          hdirs [x] (by simp) (by simp) (by simp)
        simp only [hdir]
        refine ih fuel _ (by simp) (fun z hz => hnames z (List.mem_cons_of_mem _ hz)) ?_
        intro ys hys hpre hne
        have := hdirs (x :: ys) (by simp) (List.cons_prefix_cons.mpr ⟨rfl, hpre⟩) (by simpa using hne)
        simpa using this

/-- Not following a link at the end stops the walk where following it does, or at that link. -/
theorem walk_follow_ok :
    ∀ fuel at_ ps, t.walk true fuel at_ ps = .ok L →
      ∃ L', t.walk false fuel at_ ps = .ok L' ∧ (L' = L ∨ ∃ target, t.node? L' = some (.link target)) := by
  intro fuel
  induction fuel with
  | zero => intro _ _ h; simp [walk] at h
  | succ fuel ih =>
    intro at_ ps h
    cases ps with
    | nil => exact ⟨L, h, .inl rfl⟩
    | cons x rest =>
      rcases part_cases x with hsize | hskip | rfl | ⟨hsize, hx⟩
      · rw [walk_cons_long hsize] at h
        cases h
      · rw [walk_cons_skip hskip] at h ⊢
        exact ih _ _ h
      · rw [walk_cons_climb] at h ⊢
        exact ih _ _ h
      · rw [walk_cons_name hsize hx] at h ⊢
        rcases hnode : t.node? (at_ ++ [x]) with _ | _ | ⟨data, mode⟩ | target <;>
          simp only [hnode] at h ⊢
        · exact ⟨L, h, .inl rfl⟩
        · exact ih _ _ h
        · exact ⟨L, h, .inl rfl⟩
        · by_cases hrest : rest.isEmpty = true
          · exact ⟨at_ ++ [x], by simp [hrest], .inr ⟨target, hnode⟩⟩
          · simp only [hrest, Bool.false_and, Bool.false_eq_true, if_false,
              Bool.not_true, Bool.and_false] at h ⊢
            exact ih _ _ h

end Walk

/-- Resolving a path without following a link at its end stops where following one does, or at
that link. -/
theorem locate_follow_ok {t : FileTree} {cwd : List String} {p : String} {L : List String}
    (h : t.locate cwd p true = .ok L) :
    ∃ L', t.locate cwd p false = .ok L' ∧ (L' = L ∨ ∃ target, t.node? L' = some (.link target)) := by
  unfold locate at h ⊢
  by_cases hp : p.isEmpty = true
  · simp [hp] at h
  · simp only [hp, Bool.false_eq_true, if_false, Bool.false_or, Bool.true_or] at h ⊢
    cases hends : p.endsWith "/"
    · exact walk_follow_ok _ _ _ h
    · exact ⟨L, h, .inl rfl⟩

end FileTree

end Provisioning
