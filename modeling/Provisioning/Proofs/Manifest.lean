import Provisioning.Manifest
import Provisioning.Proofs.Json
import Mathlib.Data.List.Forall2
import Mathlib.Tactic.SplitIfs
/-!
Parsed manifests are well formed, and the written form parses back.

A manifest that parses has a dependency list with neither blank names nor
repeats, each name kept at its first place in the document. Its seed
script, when there is one, is a non-blank relative path with no `..` among
the texts between its slashes, so joined onto any directory it only adds
parts below that directory. Written with the indented printer, it parses to
itself.

The round trip rests on `Json.readDocument_pretty`: the written manifest is
read against the manifest's shape to the fields `writtenFields` lists, and
`ofDatum` rebuilds the manifest from them.
-/

namespace Provisioning

namespace Path

theorem split_ne_nil (p : String) : split p ≠ [] := by
  simp [split, List.splitOn_ne_nil]

theorem split_empty : split "" = [""] := by
  simp [split]

/-- A slash between two paths separates the texts of the one from those of the other. -/
theorem split_append_slash (a b : String) : split (a ++ "/" ++ b) = split a ++ split b := by
  simp [split, List.splitOn_append_cons_self]

/-- The parts of a path: a leading `.` when the path starts with one, then every text between
slashes that is neither empty nor `.`. -/
theorem parts_eq (p : String) :
    parts p = (if (split p).head? = some "." then ["."] else []) ++
      (split p).filter fun s => s ≠ "" && s ≠ "." := by
  simp only [parts]
  split
  · simp_all
  · next hnot =>
    have hhead : (split p).head? ≠ some "." := fun hh => by
      obtain ⟨t, ht⟩ := List.head?_eq_some_iff.1 hh
      exact hnot t ht
    simp [hhead]

theorem parts_empty : parts "" = [] := by
  simp [parts_eq, split_empty]

/-- Every part of a path is one of the texts between its slashes. -/
theorem mem_split_of_mem_parts {p x : String} (h : x ∈ parts p) : x ∈ split p := by
  rw [parts_eq] at h
  rcases List.mem_append.1 h with h | h
  · split_ifs at h with hhead
    · rw [List.mem_singleton.1 h]
      exact List.mem_of_mem_head? hhead
    · simp at h
  · exact (List.mem_filter.1 h).1

/-- Two paths whose texts between slashes share a non-empty beginning, the first having only
empty or `.` texts after it: the parts of the second continue the parts of the first. -/
theorem parts_of_split {q a : String} {r bs cs : List String} (hr : r ≠ [])
    (hq : split q = r ++ bs) (ha : split a = r ++ cs) (hcs : ∀ x ∈ cs, x = "" ∨ x = ".") :
    parts q = parts a ++ bs.filter fun s => s ≠ "" && s ≠ "." := by
  have hdropped : (cs.filter fun s => s ≠ "" && s ≠ ".") = [] := by
    rw [List.filter_eq_nil_iff]
    intro x hx
    rcases hcs x hx with rfl | rfl <;> simp
  have hhead : (r ++ bs).head? = (r ++ cs).head? := by
    obtain ⟨y, ys, rfl⟩ := List.exists_cons_of_ne_nil hr
    rfl
  rw [parts_eq, parts_eq, hq, ha, hhead, List.filter_append, List.filter_append, hdropped,
    List.append_nil, List.append_assoc]

/-- Joining a relative path onto a directory keeps the directory's parts and adds some after
them, each one of the texts between the slashes of the joined path. -/
theorem parts_join (dir p : String) (hp : isAbsolute p = false) :
    ∃ tail, parts (join dir p) = parts dir ++ tail ∧ ∀ x ∈ tail, x ∈ split p := by
  unfold join
  rw [if_neg (by simp [hp])]
  split_ifs with hempty hends
  · -- joined onto the empty path
    have hdir : dir = "" := by simpa using hempty
    subst hdir
    exact ⟨parts p, by simp [parts_empty], fun x hx => mem_split_of_mem_parts hx⟩
  · -- the directory already ends with a slash
    have hsuffix : "/".toList <:+ dir.toSlice.copy.toList :=
      String.Slice.endsWith_string_iff.1 hends
    obtain ⟨t, ht⟩ := hsuffix
    obtain rfl : dir = String.ofList t ++ "/" := by
      rw [← String.toList_inj]
      simpa using ht.symm
    refine ⟨(split p).filter fun s => s ≠ "" && s ≠ ".", ?_, fun x hx => (List.mem_filter.1 hx).1⟩
    have hdir : split (String.ofList t ++ "/") = split (String.ofList t) ++ [""] := by
      simpa [split_empty] using split_append_slash (String.ofList t) ""
    exact parts_of_split (split_ne_nil _) (split_append_slash _ p) hdir (by simp)
  · -- a slash goes between the two
    refine ⟨(split p).filter fun s => s ≠ "" && s ≠ ".", ?_, fun x hx => (List.mem_filter.1 hx).1⟩
    exact parts_of_split (split_ne_nil dir) (split_append_slash dir p)
      (List.append_nil _).symm (by simp)

end Path

namespace Manifest

/-! ## Dependencies: each name at its first place -/

theorem dedupAfter_eq_eraseDups (xs seen : List String) :
    dedupAfter xs seen = (xs.filter fun x => !seen.contains x).eraseDups := by
  induction xs generalizing seen with
  | nil => rfl
  | cons x rest ih =>
    by_cases hx : seen.contains x
    · have hmem : x ∈ seen := by simpa using hx
      simp [dedupAfter, hmem, ih]
    · -- `x` is kept, and the names after it are filtered against `x` as well as `seen`
      rw [dedupAfter, if_neg hx, ih, List.filter_cons_of_pos (by simpa using hx),
        List.eraseDups_cons, List.filter_filter]
      congr 2
      apply List.filter_congr
      intro y _
      by_cases hy : y = x <;> simp [hy]

/-- Dropping repeated dependencies keeps the first occurrence of each name, as the library's
`eraseDups` does. -/
theorem dedupFirst_eq_eraseDups (xs : List String) : dedupFirst xs = xs.eraseDups := by
  simp [dedupFirst, dedupAfter_eq_eraseDups]

theorem dedupAfter_sublist (xs seen : List String) : (dedupAfter xs seen).Sublist xs := by
  induction xs generalizing seen with
  | nil => exact .slnil
  | cons x rest ih =>
    rw [dedupAfter]
    split
    · exact (ih seen).cons x
    · exact (ih (x :: seen)).cons_cons x

/-- What `dedupAfter` keeps has no repeats and nothing already seen. -/
theorem dedupAfter_nodup (xs seen : List String) :
    (dedupAfter xs seen).Nodup ∧ ∀ y ∈ dedupAfter xs seen, y ∉ seen := by
  induction xs generalizing seen with
  | nil => simp [dedupAfter]
  | cons x rest ih =>
    rw [dedupAfter]
    split
    · exact ih seen
    · next hx =>
      obtain ⟨hnodup, hout⟩ := ih (x :: seen)
      refine ⟨List.nodup_cons.2 ⟨fun h => hout x h (by simp), hnodup⟩, ?_⟩
      intro y hy
      rcases List.mem_cons.1 hy with rfl | hy
      · simpa using hx
      · exact fun h => hout y hy (List.mem_cons_of_mem _ h)

theorem dedupFirst_nodup (xs : List String) : (dedupFirst xs).Nodup :=
  (dedupAfter_nodup xs []).1

/-- A list without repeats, none of them seen, is kept whole. -/
theorem dedupAfter_of_nodup {xs seen : List String} (hnodup : xs.Nodup)
    (hout : ∀ y ∈ xs, y ∉ seen) : dedupAfter xs seen = xs := by
  induction xs generalizing seen with
  | nil => rfl
  | cons x rest ih =>
    obtain ⟨hx, hrest⟩ := List.nodup_cons.1 hnodup
    have hseen : x ∉ seen := hout x (by simp)
    rw [dedupAfter, if_neg (by simpa using hseen), ih hrest]
    intro y hy hmem
    rcases List.mem_cons.1 hmem with rfl | h
    · exact hx hy
    · exact hout y (List.mem_cons_of_mem _ hy) h

theorem dedupFirst_of_nodup {xs : List String} (hnodup : xs.Nodup) : dedupFirst xs = xs :=
  dedupAfter_of_nodup hnodup (by simp)

/-! ## What the checks accept -/

/-- A manifest passes its checks exactly when its seed script is a non-blank relative path with
no `..` between its slashes, and no dependency is blank. -/
theorem problem?_eq_none_iff (m : Manifest) :
    m.problem? = none ↔
      (∀ s, m.seeding = some s → Text.isBlankText s.script = false ∧
        Path.isAbsolute s.script = false ∧ ".." ∉ Path.split s.script) ∧
      ∀ x ∈ m.dependencies, Text.isBlankText x = false := by
  obtain ⟨seeding, deps⟩ := m
  cases seeding with
  | none => simp [problem?]
  | some s =>
    simp only [problem?]
    split_ifs <;> simp_all [Path.isAbsolute, pathParts]

/-- Dropping repeated dependencies keeps a manifest that passed its checks passing. -/
theorem problem?_dedupFirst {m : Manifest} (h : m.problem? = none) :
    { m with dependencies := dedupFirst m.dependencies }.problem? = none := by
  obtain ⟨hscript, hdeps⟩ := (problem?_eq_none_iff m).1 h
  refine (problem?_eq_none_iff _).2 ⟨hscript, fun x hx => hdeps x ?_⟩
  exact (dedupAfter_sublist _ _).subset hx

/-- A text parses to a manifest exactly when it reads against the shape, the datum's manifest
passes its checks, and the result is that manifest with repeated dependencies dropped. -/
theorem ofText_eq_ok_iff {text : String} {m : Manifest} :
    ofText text = .ok m ↔ ∃ d, Json.readDocument shape text = .ok d ∧
      (ofDatum d).problem? = none ∧
      m = { ofDatum d with dependencies := dedupFirst (ofDatum d).dependencies } := by
  unfold ofText parse
  cases hread : Json.readDocument shape text with
  | error e => simp
  | ok d =>
    cases hproblem : (ofDatum d).problem? with
    | some reason => simp [hproblem]
    | none => simp [hproblem, eq_comm]

/-! ## Reading back the written form -/

/-- The datum a written seed-script directive reads back as. -/
def seedingDatum (s : Seeding) : Datum :=
  .record [("enabled", .flag s.enabled), ("script", .text s.script), ("runOnce", .flag s.runOnce)]

/-- The fields a written manifest reads back as: the directive when there is one, and the
dependencies when there are any. -/
def writtenFields (m : Manifest) : List (String × Datum) :=
  (match m.seeding with
    | some s => [("seeding", Datum.some (seedingDatum s))]
    | none => []) ++
  (if m.dependencies.isEmpty then [] else [("dependencies", .list (m.dependencies.map .text))])

theorem readsAs_seedingJson (L : Nat) (s : Seeding) :
    Json.ReadsAs seedingShape (bytesOf (Json.prettyAt L (seedingJson s))) (seedingDatum s) 0 := by
  unfold seedingShape seedingJson seedingDatum
  apply Json.readsAs_record
  · exact .cons ⟨rfl, .flag, false, by simp, Json.readsAs_bool _ _⟩ <|
      .cons ⟨rfl, .text "a string", false, by simp, Json.readsAs_str _ _ _⟩ <|
      .cons ⟨rfl, .flag, false, by simp, Json.readsAs_bool _ _⟩ .nil
  · simp
  · intro key sh hmem _
    simp only [List.mem_cons, Prod.mk.injEq, List.not_mem_nil, or_false] at hmem
    rcases hmem with ⟨rfl, -⟩ | ⟨rfl, -⟩ | ⟨rfl, -⟩ <;> simp

/-- The written form of a manifest reads against the manifest's shape as `writtenFields`. -/
theorem readsAs_toJson (m : Manifest) :
    Json.ReadsAs shape (bytesOf (Json.pretty m.toJson)) (.record (writtenFields m)) 1 := by
  obtain ⟨seeding, deps⟩ := m
  unfold shape Json.pretty toJson writtenFields
  apply Json.readsAs_record
  · apply List.rel_append
    · cases seeding with
      | none => exact .nil
      | some s =>
        have hobj : (bytesOf (Json.prettyAt 1 (seedingJson s))).head? ≠ some 110 := by
          simp [seedingJson, Json.prettyAt_obj_bytes]
        exact .cons ⟨rfl, .maybe seedingShape, true, by simp, (readsAs_seedingJson 1 s).maybe hobj⟩ .nil
    · cases deps.isEmpty with
      | true => exact .nil
      | false =>
        exact .cons ⟨rfl, .list (.text "a string"), true, by simp,
          (Json.readsAs_strs "a string" 1 deps).mono (by omega)⟩ .nil
  · cases seeding <;> cases deps.isEmpty <;> simp
  · intro key sh hmem _
    simp at hmem

theorem texts?_map_text (xs : List String) : Datum.texts? (.list (xs.map .text)) = some xs := by
  induction xs with
  | nil => rfl
  | cons x xs ih =>
    simp only [Datum.texts?, List.map_cons, List.mapM_cons] at ih ⊢
    simp [ih, Datum.text?]

/-- The fields a written manifest reads back as rebuild the manifest. -/
theorem ofDatum_writtenFields (m : Manifest) : ofDatum (.record (writtenFields m)) = m := by
  obtain ⟨seeding, deps⟩ := m
  cases seeding <;> cases hdeps : deps.isEmpty <;>
    simp_all [ofDatum, writtenFields, Datum.field?, seedingOfDatum, seedingDatum, texts?_map_text,
      List.lookup_cons, Datum.flag?, Datum.text?]

/-- A manifest that passes its checks and has no repeated dependency parses back from its
written form. -/
theorem ofText_pretty_toJson {m : Manifest} (hok : m.problem? = none)
    (hnodup : m.dependencies.Nodup) : ofText (Json.pretty m.toJson) = .ok m := by
  have hread := Json.readDocument_pretty (readsAs_toJson m) (by omega)
  refine ofText_eq_ok_iff.2 ⟨_, hread, ?_, ?_⟩
  · rw [ofDatum_writtenFields]
    exact hok
  · rw [ofDatum_writtenFields, dedupFirst_of_nodup hnodup]

/-! ## Parsed manifests -/

/-- A manifest that parses is well formed. Its dependencies are the first occurrences of the
names the document lists, none of them blank. Its seed script is a non-blank relative path with
no `..` between its slashes, so joined onto any directory it only adds parts that never climb
out of it. Written back and parsed again it is the same manifest, so writing is stable too. -/
theorem ofText_wellFormed {text : String} {m : Manifest} (h : ofText text = .ok m) :
    (∃ d, Json.readDocument shape text = .ok d ∧
      m.dependencies = (ofDatum d).dependencies.eraseDups) ∧
    m.dependencies.Nodup ∧
    (∀ x ∈ m.dependencies, Text.isBlankText x = false) ∧
    (∀ s, m.seeding = some s →
      Text.isBlankText s.script = false ∧ Path.isAbsolute s.script = false ∧
      ".." ∉ Path.split s.script ∧
      ∀ dir, ∃ tail, Path.parts (Path.join dir s.script) = Path.parts dir ++ tail ∧ ".." ∉ tail) ∧
    ofText (Json.pretty m.toJson) = .ok m ∧
    (ofText (Json.pretty m.toJson)).map (fun m' => Json.pretty m'.toJson) =
      .ok (Json.pretty m.toJson) := by
  obtain ⟨d, hread, hok, rfl⟩ := ofText_eq_ok_iff.1 h
  have hnodup := dedupFirst_nodup (ofDatum d).dependencies
  obtain ⟨hscript, hdeps⟩ := (problem?_eq_none_iff _).1 (problem?_dedupFirst hok)
  have hround := ofText_pretty_toJson (problem?_dedupFirst hok) hnodup
  refine ⟨⟨d, hread, dedupFirst_eq_eraseDups _⟩, hnodup, hdeps, ?_, hround, by rw [hround]; rfl⟩
  intro s hs
  obtain ⟨hblank, hrelative, hclimb⟩ := hscript s hs
  refine ⟨hblank, hrelative, hclimb, fun dir => ?_⟩
  obtain ⟨tail, hparts, htail⟩ := Path.parts_join dir s.script hrelative
  exact ⟨tail, hparts, fun hmem => hclimb (htail _ hmem)⟩

/-- The manifest of the documentation's example, written and parsed back. -/
theorem ofText_wellFormed_example :
    let m : Manifest :=
      { seeding := some ⟨true, "scripts/seed.sh", true⟩, dependencies := ["org.example.base"] }
    ofText (Json.pretty m.toJson) = .ok m ∧ m.dependencies.Nodup ∧
      ∀ dir, ∃ tail, Path.parts (Path.join dir "scripts/seed.sh") = Path.parts dir ++ tail ∧
        ".." ∉ tail := by
  intro m
  have hok : m.problem? = none := by decide +kernel
  have h := ofText_pretty_toJson hok (by simp [m])
  exact ⟨h, (ofText_wellFormed h).2.1, ((ofText_wellFormed h).2.2.2.1 _ rfl).2.2.2⟩

end Manifest

end Provisioning
