import Provisioning.Config.Store
import Provisioning.Proofs.Json
import Provisioning.Proofs.Manifest
import Provisioning.Proofs.Catalog
import Provisioning.Proofs.AtomicWrite
/-!
Saving a configuration and loading it again.

`KitchenConfig.save` writes the configuration's document (`toJson`) in the format the file's
extension names and puts the text in place with an atomic write; `KitchenConfig.load` reads the
file back against `KitchenConfig.shape`, rebuilds the settings from the document (`ofDatum`) and
checks them. What reads back is the document written (`KitchenConfig.datum`), member by member,
except for an absent site directory: JSON and YAML write it as `null`, which reads back as absent,
while TOML, which has no null, leaves the entry out, and an entry left out reads back as its
default. So in TOML no site directory comes back as the default one (`KitchenConfig.reloaded`).

`KitchenConfig.load_after_save` puts the pieces together. For a configuration that passes its
checks, saved as a name in a directory in a tree without links, the load after a successful save
gives the configuration as its format reads it back: itself in JSON and YAML, and in TOML itself
exactly when it has a site directory. That the format reads its own text back is a hypothesis
(`ConfigFormat.ReadsBack`), proved for JSON for every configuration whose time limits are counts
JSON reads (`ConfigFormat.readsBack_json`). From the other side, no configuration loaded from a
TOML file lacks a site directory, whatever the file holds (`KitchenConfig.load_toml_siteDir`), so
settings without one, saved as TOML, never load back as themselves.
-/
namespace Provisioning

/-! ## Successful steps -/

/-- What a successful `mapM` in `Except` gives comes from its list, element by element. -/
theorem mem_of_mapM_ok {ε α β : Type} {g : α → Except ε β} :
    ∀ {xs : List α} {ys : List β}, xs.mapM g = .ok ys → ∀ y ∈ ys, ∃ x ∈ xs, g x = .ok y
  | [], ys, h => by
    simp only [List.mapM_nil, pure, Except.pure, Except.ok.injEq] at h
    simp [← h]
  | x :: xs, ys, h => by
    rw [List.mapM_cons] at h
    cases hx : g x with
    | error e => simp [hx, bind, Except.bind] at h
    | ok b =>
      cases hrest : xs.mapM g with
      | error e => simp [hx, hrest, bind, Except.bind] at h
      | ok bs =>
        simp only [hx, hrest, bind, Except.bind, pure, Except.pure, Except.ok.injEq] at h
        subst h
        intro y hy
        rcases List.mem_cons.1 hy with rfl | hy
        · exact ⟨x, by simp, hx⟩
        · obtain ⟨x', hx', hg⟩ := mem_of_mapM_ok hrest y hy
          exact ⟨x', by simp [hx'], hg⟩

/-- What a successful `filterMapM` in `Except` keeps comes from its list, element by element. -/
theorem mem_of_filterMapM_ok {ε α β : Type} {g : α → Except ε (Option β)} :
    ∀ {xs : List α} {ys : List β}, xs.filterMapM g = .ok ys → ∀ y ∈ ys, ∃ x ∈ xs, g x = .ok (some y)
  | [], ys, h => by
    simp only [List.filterMapM_nil, pure, Except.pure, Except.ok.injEq] at h
    simp [← h]
  | x :: xs, ys, h => by
    rw [List.filterMapM_cons] at h
    cases hx : g x with
    | error e => simp [hx, bind, Except.bind] at h
    | ok o =>
      cases hrest : xs.filterMapM g with
      | error e => cases o <;> simp [hx, hrest, bind, Except.bind] at h
      | ok bs =>
        have hsub : ∀ y ∈ bs, ∃ x' ∈ x :: xs, g x' = .ok (some y) := fun y hy => by
          obtain ⟨x', hx', hg⟩ := mem_of_filterMapM_ok hrest y hy
          exact ⟨x', by simp [hx'], hg⟩
        cases o with
        | none =>
          simp only [hx, hrest, bind, Except.bind, Except.ok.injEq] at h
          subst h
          exact hsub
        | some b =>
          simp only [hx, hrest, bind, Except.bind, pure, Except.pure, Except.ok.injEq] at h
          subst h
          intro y hy
          rcases List.mem_cons.1 hy with rfl | hy
          · exact ⟨x, by simp, hx⟩
          · exact hsub y hy

/-- A field a record gives is one of its members. -/
theorem Datum.mem_of_field? {present : List (String × Datum)} {k : String} {v : Datum}
    (h : (Datum.record present).field? k = Option.some v) : (k, v) ∈ present := by
  obtain ⟨l₁, l₂, rfl, -⟩ := List.lookup_eq_some_iff.1 h
  simp

/-- Relabelling the error changes no success. -/
theorem Except.mapError_eq_ok {ε ε' α : Type} {x : Except ε α} {f : ε → ε'} {a : α} :
    x.mapError f = .ok a ↔ x = .ok a := by
  cases x <;> simp [Except.mapError]

/-- A step that gives an answer ran to a machine. -/
theorem Act.exists_run_ok_of_isSome {act : Act Unit} {m : Machine} (h : (act.run' m).isSome = true) :
    ∃ m', act.run m = .ok () m' := by
  cases hr : act.run m with
  | ok u m' => exact ⟨m', rfl⟩
  | error e s =>
    delta EStateM.run' at h
    simp [hr] at h

/-! ## What TOML gives back -/

namespace Toml

variable {fuel : Nat} {item : Item} {d : Datum}

/-- TOML has no null: an optional value read from it is always present. -/
theorem read_maybe {inner : Shape} (h : read (fuel + 1) (.maybe inner) item = .ok d) :
    ∃ d', d = .some d' ∧ read fuel inner item = .ok d' := by
  simp only [read] at h
  cases hr : read fuel inner item with
  | error e => simp [hr, Functor.map, Except.map] at h
  | ok d' =>
    simp only [hr, Functor.map, Except.map, Except.ok.injEq] at h
    exact ⟨d', h.symm, rfl⟩

theorem read_text {what : String} (h : read (fuel + 1) (.text what) item = .ok d) : ∃ s, d = .text s := by
  simp only [read] at h
  split at h
  · cases h
    exact ⟨_, rfl⟩
  · simp [wrongType] at h

/-- A record read from TOML holds only fields of its shape, each read against that field's shape,
whether it was written as a table or as an array. -/
theorem read_record {name : String} {fields : List (String × Shape × Bool)}
    (h : read (fuel + 1) (.record name fields) item = .ok d) :
    ∃ present, d = .record present ∧ ∀ p ∈ present, ∃ sh opt, (p.1, sh, opt) ∈ fields ∧
      ∃ item', read fuel sh item' = .ok p.2 := by
  simp only [read] at h
  split at h
  · cases h
    exact ⟨[], rfl, by simp⟩
  · split at h
    · -- a table: the entries named by fields, each read against its field
      next es hes =>
      obtain ⟨present, hpresent, h⟩ := except_bind_eq_ok.1 h
      split at h
      · cases h
      · cases h
        refine ⟨present, rfl, fun p hp => ?_⟩
        obtain ⟨⟨k, ks, v⟩, -, hg⟩ := mem_of_filterMapM_ok hpresent p hp
        simp only at hg
        split at hg
        · cases hg
        · next fk fshape fopt hfind =>
          split at hg
          · next d' hread =>
            cases hg
            have hk : fk = k := by simpa using List.find?_some hfind
            subst hk
            exact ⟨fshape, fopt, List.mem_of_find?_eq_some hfind, v, hread⟩
          · cases hg
    · -- an array: the fields taken by position
      split at h
      · next els hels =>
        obtain ⟨present, hpresent, h⟩ := except_bind_eq_ok.1 h
        split at h
        · cases h
        · cases h
          refine ⟨present, rfl, fun p hp => ?_⟩
          obtain ⟨⟨⟨f, fshape, fopt⟩, el⟩, hmem, hg⟩ := mem_of_mapM_ok hpresent p hp
          simp only at hg
          split at hg
          · next d' hread =>
            cases hg
            exact ⟨fshape, fopt, (List.of_mem_zip hmem).1, el, hread⟩
          · cases hg
      · simp [wrongType] at h

/-- A document read from TOML text is read from the document the text parses to. -/
theorem read_of_readDocument {shape : Shape} {text : String} (h : readDocument shape text = .ok d) :
    ∃ root, read 64 shape root = .ok d := by
  unfold readDocument at h
  split at h
  · cases h
  · cases h
  · next root _ =>
    refine ⟨root, ?_⟩
    cases hr : read 64 shape root <;> simp [hr, Except.mapError] at h ⊢
    exact h

end Toml

namespace KitchenConfig

/-! ## Reading a configuration file -/

/-- A configuration read from TOML has a site directory: TOML cannot write an absent value, so the
host table either names a directory or leaves the entry out, and then the default stands. -/
theorem siteDir_isSome_of_toml {root : Toml.Item} {d : Datum} (h : Toml.read 64 shape root = .ok d) :
    (ofDatum d).host.siteDir.isSome = true := by
  obtain ⟨present, rfl, hpresent⟩ := Toml.read_record h
  simp only [ofDatum]
  cases hhost : (Datum.record present).field? "host" with
  | none => rfl
  | some hd =>
    obtain ⟨sh, opt, hmem, item, hread⟩ := hpresent ("host", hd) (Datum.mem_of_field? hhost)
    obtain ⟨rfl, -⟩ : sh = hostShape ∧ opt = true := by simpa [shape] using hmem
    obtain ⟨hpresent', rfl, hfields⟩ := Toml.read_record hread
    simp only [Option.map_some, Option.getD_some, hostOfDatum]
    cases hsite : (Datum.record hpresent').field? "site_dir" with
    | none => rfl
    | some sd =>
      obtain ⟨sh', opt', hmem', item', hread'⟩ := hfields ("site_dir", sd) (Datum.mem_of_field? hsite)
      obtain ⟨rfl, -⟩ : sh' = .maybe (.text "path string") ∧ opt' = true := by
        simpa [hostShape] using hmem'
      obtain ⟨v, rfl, hv⟩ := Toml.read_maybe hread'
      obtain ⟨s, rfl⟩ := Toml.read_text hv
      rfl

/-- Reading a configuration file: the format its extension names, its text, and the document
that text holds. -/
theorem readFile_eq_ok {m : Machine} {path : String} {c : KitchenConfig} :
    readFile m path = .ok c ↔ ∃ f text d, ConfigFormat.ofExtension (extensionOf path) = .ok f ∧
      m.files.readText m.cwd path = .ok text ∧ f.read shape text = .ok d ∧ ofDatum d = c := by
  unfold readFile
  simp only [except_bind_eq_ok, Except.mapError_eq_ok, pure, Except.pure, Except.ok.injEq]
  constructor
  · rintro ⟨f, hf, text, ht, d, hd, rfl⟩
    exact ⟨f, text, d, hf, ht, hd, rfl⟩
  · rintro ⟨f, text, d, hf, ht, hd, rfl⟩
    exact ⟨f, hf, text, ht, d, hd, rfl⟩

/-- A configuration loads when the file reads as one and the configuration passes its checks. -/
theorem load_eq_ok {m : Machine} {path : String} {c : KitchenConfig} :
    load m path = .ok c ↔ readFile m path = .ok c ∧ c.problem? = none := by
  unfold load
  cases hr : readFile m path with
  | error e => simp [Except.mapError, bind, Except.bind]
  | ok c' =>
    simp only [Except.mapError, bind, Except.bind]
    cases hp : c'.problem? <;> simp [pure, Except.pure, throw, throwThe, MonadExceptOf.throw] <;>
      rintro rfl <;> simp [hp]

/-- No configuration loaded from a TOML file lacks a site directory. -/
theorem load_toml_siteDir {m : Machine} {path : String} (hext : extensionOf path = "toml")
    {c : KitchenConfig} (h : load m path = .ok c) : c.host.siteDir.isSome = true := by
  obtain ⟨f, text, d, hf, -, hdoc, rfl⟩ := readFile_eq_ok.1 (load_eq_ok.1 h).1
  obtain rfl : f = .toml := by
    rw [hext] at hf
    cases hf
    rfl
  obtain ⟨root, hroot⟩ := Toml.read_of_readDocument hdoc
  exact siteDir_isSome_of_toml hroot

/-! ## The document a configuration is written as -/

/-- The site directory as a member of the host table: its text, or, when there is none, `null`
in a format that writes `null` and nothing in one that does not. -/
def siteDirEntry (nulls : Bool) : Option String → List (String × Datum)
  | some s => [("site_dir", .some (.text s))]
  | none => if nulls then [("site_dir", .none)] else []

/-- The host table as it reads back. -/
def hostDatum (nulls : Bool) (h : HostConfig) : Datum :=
  .record ([("program", .text h.program)] ++ siteDirEntry nulls h.siteDir ++
    [("exec_prefix", .list (h.execPrefix.map .text)), ("timeout_secs", .count h.timeoutSecs),
      ("flush_on_refresh", .flag h.flushOnRefresh)])

/-- The seeding table as it reads back. -/
def seedingDatum (s : SeedConfig) : Datum :=
  .record [("interpreter", .text s.interpreter), ("timeout_secs", .count s.timeoutSecs),
    ("marker_file", .text s.markerFile)]

/-- A configuration's document as it reads back, every member in its written order. -/
def datum (nulls : Bool) (c : KitchenConfig) : Datum :=
  .record [("extensions_root", .text c.extensionsRoot), ("sources", .list (c.sources.map .text)),
    ("link", .choice c.link.name), ("host", hostDatum nulls c.host), ("seeding", seedingDatum c.seeding)]

/-- The configuration read back from a written one: the same, except that where no site
directory was written because the format cannot write `null`, the default one stands. -/
def reloaded (nulls : Bool) (c : KitchenConfig) : KitchenConfig :=
  if nulls || c.host.siteDir.isSome then c
  else { c with host := { c.host with siteDir := some defaultSiteDir } }

/-- The settings rebuilt from a written document are the configuration as it reads back. -/
theorem ofDatum_datum (nulls : Bool) (c : KitchenConfig) : ofDatum (c.datum nulls) = c.reloaded nulls := by
  obtain ⟨root, sources, link, ⟨program, siteDir, execPrefix, hostTimeout, flush⟩,
    ⟨interpreter, seedTimeout, marker⟩⟩ := c
  cases siteDir <;> cases nulls <;>
    simp [ofDatum, hostOfDatum, seedingOfDatum, datum, hostDatum, seedingDatum, siteDirEntry, reloaded,
      Datum.field?, List.lookup_cons, Datum.text?, Datum.count?, Datum.flag?, Manifest.texts?_map_text,
      LinkStrategy.ofName_name]

/-- A configuration that passes its checks still passes them read back: the checks never look
at the site directory. -/
theorem problem?_reloaded (nulls : Bool) (c : KitchenConfig) :
    (c.reloaded nulls).problem? = c.problem? := by
  unfold reloaded
  split
  · rfl
  · simp [problem?]

/-- Reading back changes a configuration exactly when the format leaves out an absent site
directory. -/
theorem reloaded_eq_self_iff (nulls : Bool) (c : KitchenConfig) :
    c.reloaded nulls = c ↔ nulls = true ∨ c.host.siteDir.isSome = true := by
  unfold reloaded
  split
  · next h => simpa using h
  · next h =>
    simp only [Bool.or_eq_true, not_or, Bool.not_eq_true] at h
    obtain ⟨hn, hs⟩ := h
    simp only [hn, hs, Bool.false_eq_true, or_self, iff_false]
    intro heq
    have := congrArg (fun c => c.host.siteDir.isSome) heq
    simp [hs] at this

/-! ## JSON writes a configuration it reads back -/

section Written

open Json

/-- A site directory reads back as its text, and no site directory as `null`. -/
theorem readsAs_siteDir (L : Nat) (site : Option String) :
    ∃ d, ReadsAs (.maybe (.text "path string")) (bytesOf (prettyAt L (Json.opt .str site))) d 1 ∧
      siteDirEntry true site = [("site_dir", d)] := by
  cases site with
  | none => exact ⟨.none, (readsAs_null _ _).mono (by omega), rfl⟩
  | some s =>
    have hhead : (bytesOf (prettyAt L (.str s))).head? ≠ some 110 := by
      simp [prettyAt, compact, quote_bytes]
    exact ⟨_, (readsAs_str _ _ s).maybe hhead, rfl⟩

theorem readsAs_hostTable (L : Nat) (h : HostConfig) (ht : h.timeoutSecs ≤ u64Max) :
    ReadsAs hostShape (bytesOf (prettyAt L (.obj [("program", .str h.program),
      ("site_dir", Json.opt .str h.siteDir), ("exec_prefix", Json.strs h.execPrefix),
      ("timeout_secs", Json.nat h.timeoutSecs), ("flush_on_refresh", .bool h.flushOnRefresh)])))
      (hostDatum true h) 1 := by
  obtain ⟨d, hsite, hentry⟩ := readsAs_siteDir (L + 1) h.siteDir
  unfold hostShape hostDatum
  rw [hentry]
  apply readsAs_record_delimited
  · exact .cons ⟨rfl, .text "a string", true, by simp, ((readsAs_str _ _ _).mono (by omega)).delimited⟩ <|
      .cons ⟨rfl, _, true, by simp, hsite.delimited⟩ <|
      .cons ⟨rfl, .list (.text "a string"), true, by simp,
        ((readsAs_strs _ _ _).mono (by omega)).delimited⟩ <|
      .cons ⟨rfl, _, true, by simp, (readsAs_nat _ _ ht).mono (by omega)⟩ <|
      .cons ⟨rfl, _, true, by simp, ((readsAs_bool _ _).mono (by omega)).delimited⟩ .nil
  · simp
  · intro key sh hmem _
    simp at hmem

theorem readsAs_seedingTable (L : Nat) (s : SeedConfig) (ht : s.timeoutSecs ≤ u64Max) :
    ReadsAs seedingShape (bytesOf (prettyAt L (.obj [("interpreter", .str s.interpreter),
      ("timeout_secs", Json.nat s.timeoutSecs), ("marker_file", .str s.markerFile)])))
      (seedingDatum s) 0 := by
  unfold seedingShape seedingDatum
  apply readsAs_record_delimited
  · exact .cons ⟨rfl, .text "a string", true, by simp, (readsAs_str _ _ _).delimited⟩ <|
      .cons ⟨rfl, _, true, by simp, readsAs_nat _ _ ht⟩ <|
      .cons ⟨rfl, .text "a string", true, by simp, (readsAs_str _ _ _).delimited⟩ .nil
  · simp
  · intro key sh hmem _
    simp at hmem

/-- A configuration written as JSON reads back as its document, with an absent site directory
as `null`, provided its time limits are counts JSON reads (at most 64 bits). -/
theorem readsAs_toJson (c : KitchenConfig) (hh : c.host.timeoutSecs ≤ u64Max)
    (hs : c.seeding.timeoutSecs ≤ u64Max) :
    ReadsAs shape (bytesOf (pretty c.toJson)) (c.datum true) 1 := by
  have hlink : c.link.name ∈ LinkStrategy.names := by
    cases c.link <;> decide
  unfold shape pretty toJson datum
  apply readsAs_record_delimited
  · exact .cons ⟨rfl, .text "path string", true, by simp,
        ((readsAs_str _ _ _).mono (by omega)).delimited⟩ <|
      .cons ⟨rfl, .list (.text "path string"), true, by simp,
        ((readsAs_strs _ _ _).mono (by omega)).delimited⟩ <|
      .cons ⟨rfl, .choice "LinkStrategy" LinkStrategy.names, true, by simp,
        ((readsAs_choice _ hlink _).mono (by omega)).delimited⟩ <|
      .cons ⟨rfl, _, true, by simp, (readsAs_hostTable _ _ hh).delimited⟩ <|
      .cons ⟨rfl, _, true, by simp, ((readsAs_seedingTable _ _ hs).mono (by omega)).delimited⟩ .nil
  · simp
  · intro key sh hmem _
    simp at hmem

end Written

end KitchenConfig

/-! ## What a format reads back -/

namespace ConfigFormat

/-- Whether the format writes an absent value as `null`; TOML has no null and leaves the entry
out. -/
def writesNull : ConfigFormat → Bool
  | .toml => false
  | _ => true

/-- The format reads what it writes of a configuration back as the document it wrote, with an
absent site directory as it wrote it: `null`, or left out. -/
def ReadsBack (f : ConfigFormat) (c : KitchenConfig) : Prop :=
  ∀ text, f.write c.toJson = .ok text → f.read KitchenConfig.shape text = .ok (c.datum f.writesNull)

/-- JSON reads back every configuration whose time limits it can read. -/
theorem readsBack_json {c : KitchenConfig} (hh : c.host.timeoutSecs ≤ Json.u64Max)
    (hs : c.seeding.timeoutSecs ≤ Json.u64Max) : ConfigFormat.json.ReadsBack c := by
  intro text htext
  cases htext
  rw [read, Json.readDocument_pretty (KitchenConfig.readsAs_toJson c hh hs) (by omega)]
  rfl

end ConfigFormat

/-! ## Saving and loading again -/

namespace KitchenConfig

open Provisioning.Path

/-- Saving a configuration to a name in a directory and loading it again gives the configuration
back as its format reads it: unchanged, except that in TOML, which cannot write an absent site
directory, the default site directory takes its place. This holds for a configuration that passes
its checks, saved to a path whose extension names a format that reads back what it writes, in a
tree without links and by a process whose number holds no slash. -/
theorem load_after_save {m m' : Machine} {c : KitchenConfig} {f : ConfigFormat} {d name : String}
    (hc : c.problem? = none) (hf : ConfigFormat.ofExtension (extensionOf (join d name)) = .ok f)
    (hback : f.ReadsBack c) (hname : IsName name) (hup : ".." ∉ split d)
    (hfree : m.files.LinkFree) (hpid : '/' ∉ m.pid.toList)
    (hsave : (c.save (join d name)).run m = .ok () m') :
    load m' (join d name) = .ok (c.reloaded f.writesNull) ∧
      (c.reloaded f.writesNull = c ↔ f ≠ .toml ∨ c.host.siteDir.isSome = true) := by
  obtain ⟨text, hrender, hwrite⟩ : ∃ text, c.render (join d name) = .ok text ∧
      (Act.writeAtomic (join d name) text).run m = .ok () m' := by
    unfold save at hsave
    cases hr : c.render (join d name) with
    | error e =>
      rw [hr] at hsave
      cases hsave
    | ok text =>
      rw [hr] at hsave
      exact ⟨text, rfl, hsave⟩
  have htext : f.write c.toJson = .ok text := by
    unfold render at hrender
    rw [hf] at hrender
    exact Except.mapError_eq_ok.1 hrender
  obtain ⟨-, hread⟩ := Act.readText_writeAtomic hfree hname hup hpid hwrite
  refine ⟨load_eq_ok.2 ⟨readFile_eq_ok.2 ⟨f, text, _, hf, hread, hback text htext, ofDatum_datum _ _⟩, ?_⟩, ?_⟩
  · rw [problem?_reloaded, hc]
  · rw [reloaded_eq_self_iff]
    cases f <;> simp [ConfigFormat.writesNull]

/-- The default settings with no site directory. -/
def noSiteDir : KitchenConfig := { host := { siteDir := none } }

theorem noSiteDir_problem : noSiteDir.problem? = none := by
  simp only [problem?, noSiteDir, Nat.reduceBEq, Bool.false_eq_true, ↓reduceIte, Text.trim,
    Text.trimEnd, Text.trimStart, String.reduceToList, ↓Char.isValue, String.toList_ofList,
    String.isEmpty_iff, String.ofList_eq_empty_iff, List.reverse_eq_nil_iff, String.contains_char_eq,
    List.mem_cons, Char.reduceEq, List.not_mem_nil, or_self, decide_false, Bool.or_false,
    String.reduceBEq, String.reduceEq]
  decide

/-- Saved as JSON on a fresh machine, settings without a site directory load back unchanged. -/
theorem load_after_save_json_noSiteDir :
    ∃ m', (noSiteDir.save (join "out" "c.json")).run default = .ok () m' ∧
      load m' (join "out" "c.json") = .ok noSiteDir := by
  have hok : ((noSiteDir.save (join "out" "c.json")).run' default).isSome = true := by
    decide +kernel
  obtain ⟨m', hsave⟩ := Act.exists_run_ok_of_isSome hok
  have hext : extensionOf (join "out" "c.json") = "json" := by decide +kernel
  obtain ⟨hload, hsame⟩ := load_after_save noSiteDir_problem (by rw [hext]; rfl)
    (ConfigFormat.readsBack_json (by decide) (by decide)) (by decide) (by decide)
    (by exact fun _ h => nomatch h) (by decide) hsave
  exact ⟨m', hsave, hload.trans (congrArg Except.ok (hsame.2 (Or.inl (by decide))))⟩

/-- Saved as TOML on a fresh machine, settings without a site directory do not load back as
themselves: the saved file has no site directory, and the default one is read in its place. -/
theorem load_after_save_toml_noSiteDir :
    ∃ m', (noSiteDir.save (join "out" "c.toml")).run default = .ok () m' ∧
      load m' (join "out" "c.toml") ≠ .ok noSiteDir := by
  have hok : ((noSiteDir.save (join "out" "c.toml")).run' default).isSome = true := by
    decide +kernel
  obtain ⟨m', hsave⟩ := Act.exists_run_ok_of_isSome hok
  refine ⟨m', hsave, fun hload => ?_⟩
  have hsite := load_toml_siteDir (by decide +kernel) hload
  cases hsite

end KitchenConfig

end Provisioning