import Provisioning.Pipeline
import Provisioning.Proofs.Install
/-!
Which actions touch the seed runner.

The runner of seed scripts is part of the machine, and one function uses
it: `runScript`. Every other action leaves it as it found it, however the
action ends (`Act.KeepsRunner`): linking, the host's operations, the
installer and the marker store. A recording runner notes each script it
runs, so its notes after seeding one extension are its notes before,
followed by at most one run, of that extension (`records_seed`).

The frame lemmas are built up the way the actions are: one lemma per way
of combining actions (`bind`, `tryCatch`, loops), one per primitive action
of the machine, and one per function of the model, which cites the lemmas
of the functions it calls and never unfolds them.
-/

namespace Provisioning

namespace Act

/-- The machine a run ends in, whether it answered or failed. -/
def final {α : Type} : EStateM.Result Error Machine α → Machine
  | .ok _ m => m
  | .error _ m => m

theorem run_map {α β : Type} (f : α → β) (x : Act α) (m : Machine) :
    (f <$> x).run m = match x.run m with
      | .ok a m' => .ok (f a) m'
      | .error e m' => .error e m' := by
  change EStateM.map f x m = _
  cases h : x.run m with
  | ok a m' => simp only [EStateM.map, show x m = _ from h]
  | error e m' => simp only [EStateM.map, show x m = _ from h]

/-- A bind that answered ran its first action to an answer, and the rest from there. -/
theorem run_bind_eq_ok {α β : Type} {x : Act α} {f : α → Act β} {m m' : Machine} {b : β}
    (h : (x >>= f).run m = .ok b m') : ∃ a m₁, x.run m = .ok a m₁ ∧ (f a).run m₁ = .ok b m' := by
  rw [EStateM.run_bind] at h
  cases hx : x.run m with
  | ok a m₁ =>
    rw [hx] at h
    exact ⟨a, m₁, rfl, h⟩
  | error e m₁ =>
    rw [hx] at h
    cases h

/-- The action leaves the seed runner as it found it, however it ends. -/
def KeepsRunner {α : Type} (x : Act α) : Prop := ∀ m, (final (x.run m)).runner = m.runner

namespace KeepsRunner

variable {α β γ σ : Type}

theorem pure (a : α) : KeepsRunner (Pure.pure a : Act α) := fun _ => rfl

theorem get : KeepsRunner (MonadState.get : Act Machine) := fun _ => rfl

theorem throw (e : Error) : KeepsRunner (MonadExcept.throw e : Act α) := fun _ => rfl

theorem bind {x : Act α} {f : α → Act β} (hx : KeepsRunner x) (hf : ∀ a, KeepsRunner (f a)) :
    KeepsRunner (x >>= f) := by
  intro m
  have hxm := hx m
  rw [EStateM.run_bind]
  cases h : x.run m with
  | ok a m₁ =>
    rw [h] at hxm
    exact (hf a m₁).trans hxm
  | error e m₁ =>
    rw [h] at hxm
    exact hxm

theorem tryCatch {x : Act α} {h : Error → Act α} (hx : KeepsRunner x)
    (hh : ∀ e, KeepsRunner (h e)) :
    KeepsRunner (MonadExcept.tryCatch x h) := by
  intro m
  have hxm := hx m
  rw [Act.run_tryCatch]
  cases hr : x.run m with
  | ok a m₁ =>
    rw [hr] at hxm
    exact hxm
  | error e m₁ =>
    rw [hr] at hxm
    exact (hh e m₁).trans hxm

theorem map {x : Act α} (f : α → β) (hx : KeepsRunner x) : KeepsRunner (f <$> x) := by
  intro m
  have hxm := hx m
  rw [run_map]
  cases h : x.run m with
  | ok a m₁ =>
    rw [h] at hxm
    exact hxm
  | error e m₁ =>
    rw [h] at hxm
    exact hxm

theorem discard {x : Act α} (hx : KeepsRunner x) : KeepsRunner (Functor.discard x) :=
  map _ hx

theorem ite {c : Prop} [Decidable c] {x y : Act α} (hx : KeepsRunner x) (hy : KeepsRunner y) :
    KeepsRunner (if c then x else y) := by
  split
  · exact hx
  · exact hy

theorem modify {f : Machine → Machine} (hf : ∀ m, (f m).runner = m.runner) :
    KeepsRunner (MonadState.modifyGet fun m => (PUnit.unit, f m) : Act PUnit) := hf

/-- A loop keeps the runner when each of its rounds does. -/
theorem forIn {l : List γ} {f : γ → σ → Act (ForInStep σ)} (hf : ∀ a s, KeepsRunner (f a s)) :
    ∀ init, KeepsRunner (ForIn.forIn l init f) := by
  induction l with
  | nil => exact fun init => pure init
  | cons a l ih =>
    intro init
    rw [List.forIn_cons]
    refine bind (hf a init) fun step => ?_
    cases step with
    | done b => exact pure b
    | yield b => exact ih b

/-- An action that answered left the runner as it found it. -/
theorem runner_of_ok {x : Act α} (hx : KeepsRunner x) {m m' : Machine} {a : α}
    (h : x.run m = .ok a m') : m'.runner = m.runner := by
  have hxm := hx m
  rw [h] at hxm
  exact hxm

theorem mapM {l : List γ} {f : γ → Act β} (hf : ∀ a, KeepsRunner (f a)) :
    KeepsRunner (l.mapM f) := by
  induction l with
  | nil => exact pure []
  | cons a l ih =>
    rw [List.mapM_cons]
    exact bind (hf a) fun b => bind ih fun bs => pure (b :: bs)

end KeepsRunner

theorem keepsRunner_read {α : Type} (f : Machine → Except Error α) : KeepsRunner (read f) := by
  intro m
  simp only [read, EStateM.run]
  split <;> rfl

theorem keepsRunner_change (wrap : OsError → Error)
    (f : FileTree → List String → Except OsError FileTree) : KeepsRunner (change wrap f) := by
  intro m
  simp only [change, EStateM.run]
  split <;> rfl

theorem keepsRunner_try (f : FileTree → List String → Except OsError FileTree) :
    KeepsRunner (try_ f) := by
  intro m
  simp only [try_, EStateM.run]
  split <;> rfl

theorem keepsRunner_createDirAll (p : String) : KeepsRunner (createDirAll p) :=
  keepsRunner_change _ _

theorem keepsRunner_writeAtomic (p content : String) : KeepsRunner (writeAtomic p content) := by
  unfold writeAtomic
  extract_lets jp
  have hjp : ∀ r, KeepsRunner (jp r) := fun _ =>
    .bind .get fun m => .bind (keepsRunner_change _ _) fun _ => keepsRunner_change _ _
  split
  · exact .bind (keepsRunner_createDirAll _) hjp
  · exact hjp ()

theorem keepsRunner_runCommand (cmd : Command) : KeepsRunner (runCommand cmd) := by
  intro m
  simp only [runCommand, EStateM.run]
  split
  · rfl
  · split <;> rfl

end Act

open Act

/-! ## Linking -/

namespace Linker

theorem keepsRunner_copyEntries (fail : String → Error) :
    ∀ fuel ancestors src dst, KeepsRunner (copyEntries fail fuel ancestors src dst)
  | 0, _, _, _ => .pure ()
  | fuel + 1, ancestors, src, dst => by
    rw [copyEntries]
    refine .bind .get fun m => .bind (.forIn (fun name _ => ?_) _) fun _ => .pure ()
    extract_lets path target
    refine .bind .get fun m => ?_
    split
    · exact .bind (.throw _) fun _ => .pure _
    · extract_lets loc isLink jp
      have hjp : ∀ r, KeepsRunner (jp r) := fun _ =>
        .bind (keepsRunner_change _ _) fun _ =>
          .bind (keepsRunner_copyEntries fail fuel _ _ _) fun _ => .pure _
      split
      · split
        · exact .bind (.throw _) hjp
        · exact hjp ()
      · exact hjp ()
    · exact .bind (keepsRunner_change _ _) fun _ => .pure _

theorem keepsRunner_copyTree (fail : String → Error) (source dest : String) :
    KeepsRunner (copyTree fail source dest) := by
  unfold copyTree
  refine .bind .get fun m => ?_
  extract_lets jp
  have hjp : ∀ loc, KeepsRunner (jp loc) := by
    intro loc
    dsimp -zeta only [jp]
    extract_lets src jp'
    have hjp' : ∀ r, KeepsRunner (jp' r) := fun _ =>
      .bind (keepsRunner_change _ _) fun _ =>
        .bind (keepsRunner_copyEntries _ _ _ _ _) fun _ =>
          .tryCatch (keepsRunner_writeAtomic _ _) fun _ => .throw _
    split
    · split
      · exact .bind (.throw _) hjp'
      · exact hjp' ()
    · exact hjp' ()
  split
  · exact .bind (.pure _) hjp
  · exact .bind (.throw _) hjp

theorem keepsRunner_create (l : Linker) (name source dest : String) :
    KeepsRunner (l.create name source dest) := by
  unfold create
  split
  · exact .bind (keepsRunner_copyTree _ _ _) fun _ => .pure _
  · exact .bind (keepsRunner_change _ _) fun _ => .pure _
  · refine .bind (keepsRunner_try _) fun r => ?_
    split
    · exact .pure _
    · exact .bind (keepsRunner_copyTree _ _ _) fun _ => .pure _

theorem keepsRunner_place (l : Linker) (name key source dest : String) :
    KeepsRunner (l.place name key source dest) := by
  unfold place
  refine .bind .get fun m => .bind (keepsRunner_read _) fun occ => ?_
  extract_lets sameTree jp
  have hjp : ∀ r, KeepsRunner (jp r) := fun _ =>
    .bind (keepsRunner_change _ _) fun _ => .bind (keepsRunner_create _ _ _ _) fun _ => .pure _
  split
  · exact .bind (keepsRunner_create _ _ _ _) fun _ => .pure _
  · split
    · exact .pure _
    · exact .ite (.bind (.throw _) hjp) (hjp ())
  · split
    · exact .pure _
    · exact .throw _
  · split
    · exact .pure _
    · split
      · exact .bind (keepsRunner_copyTree _ _ _) fun _ => .pure _
      · exact .throw _
  · exact .throw _

theorem keepsRunner_link (l : Linker) (source : String) : KeepsRunner (l.link source) := by
  unfold link
  refine .bind .get fun m => ?_
  extract_lets jp
  have hjp : ∀ r, KeepsRunner (jp r) := by
    intro r
    dsimp -zeta only [jp]
    refine .bind (keepsRunner_read _) fun x => ?_
    extract_lets jp'
    have hjp' : ∀ p, KeepsRunner (jp' p) := fun _ =>
      .bind (keepsRunner_change _ _) fun _ => keepsRunner_place _ _ _ _ _
    split
    · exact .bind (.pure _) hjp'
    · exact .bind (.throw _) hjp'
  split
  · exact .bind (.throw _) hjp
  · exact hjp ()

theorem keepsRunner_linkAll (l : Linker) (sources : List String) :
    KeepsRunner (l.linkAll sources) :=
  .mapM fun _ => .tryCatch (.map _ (keepsRunner_link _ _)) fun _ => .pure _

end Linker

/-! ## The host and the installer -/

namespace CommandHost

theorem keepsRunner_call (h : CommandHost) (operation target : String) (args : List String) :
    KeepsRunner (h.call operation target args) := by
  unfold call
  extract_lets cmd jp
  have hjp : ∀ c, KeepsRunner (jp c) := by
    intro c
    refine .bind (keepsRunner_runCommand _) fun r => ?_
    split
    · exact .throw _
    · exact .ite (.pure _) (.throw _)
  split
  · refine .bind .get fun m => ?_
    extract_lets jp'
    have hjp' : ∀ r, KeepsRunner (jp' r) := fun _ => .bind (.pure _) hjp
    exact .ite (.bind (.throw _) hjp') (hjp' ())
  · exact .bind (.pure _) hjp

theorem keepsRunner_list (h : CommandHost) (scope : ListScope) : KeepsRunner (h.list scope) := by
  unfold list
  refine .bind (keepsRunner_call _ _ _ _) fun out => ?_
  split
  · exact .pure _
  · exact .throw _

theorem keepsRunner_refresh (h : CommandHost) : KeepsRunner h.refresh := by
  unfold refresh
  extract_lets jp
  have hjp : ∀ r, KeepsRunner (jp r) := fun _ => .discard (keepsRunner_call _ _ _ _)
  exact .ite (.bind (.discard (keepsRunner_call _ _ _ _)) hjp) (hjp ())

theorem keepsRunner_enable (h : CommandHost) (name : String) : KeepsRunner (h.enable name) :=
  .discard (keepsRunner_call _ _ _ _)

end CommandHost

namespace Host

theorem keepsRunner_onMemory {α : Type} (h : MemoryHost) (x : EStateM Error MemoryHost α) :
    KeepsRunner (onMemory h x) := by
  intro m
  simp only [onMemory, EStateM.run]
  split <;> rfl

theorem keepsRunner_list (scope : ListScope) : KeepsRunner (list scope) := by
  unfold list
  refine .bind .get fun m => ?_
  split
  · exact keepsRunner_read _
  · exact CommandHost.keepsRunner_list _ _

theorem keepsRunner_refresh : KeepsRunner refresh := by
  unfold refresh
  refine .bind .get fun m => ?_
  split
  · exact keepsRunner_onMemory _ _
  · exact CommandHost.keepsRunner_refresh _

theorem keepsRunner_enable (name : String) : KeepsRunner (enable name) := by
  unfold enable
  refine .bind .get fun m => ?_
  split
  · exact keepsRunner_onMemory _ _
  · exact CommandHost.keepsRunner_enable _ _

end Host

namespace Installer

theorem keepsRunner_refresh (i : Installer) : KeepsRunner i.refresh :=
  .bind Host.keepsRunner_refresh fun _ => .pure _

theorem keepsRunner_enableOne (plan : Plan) (enabled : List String) (name : String)
    (failed : List String) (blocked : List (String × String)) :
    KeepsRunner (enableOne plan enabled name failed blocked) := by
  unfold enableOne
  split
  · exact .pure _
  · exact .ite (.pure _)
      (.tryCatch (.bind (Host.keepsRunner_enable _) fun _ => .pure _) fun _ => .pure _)

theorem keepsRunner_enableEach (plan : Plan) (enabled : List String) :
    ∀ (names : List String) s, KeepsRunner (enableEach plan enabled names s)
  | [], _ => .pure _
  | name :: rest, (failed, blocked, entries) => by
    rw [enableEach]
    exact .bind (keepsRunner_enableOne _ _ _ _ _) fun _ => keepsRunner_enableEach plan enabled rest _

theorem keepsRunner_enable (i : Installer) (plan : Plan) : KeepsRunner (i.enable plan) := by
  unfold enable
  refine .bind ?_ fun i => .bind ?_ fun enabled => .bind (keepsRunner_enableEach _ _ _ _) fun r => ?_
  · exact .ite (.pure _) (keepsRunner_refresh _)
  · exact .tryCatch (.bind (Host.keepsRunner_list _) fun _ => .pure _) fun _ => .pure _
  · refine .bind ?_ fun _ => .pure _
    exact .ite (.pure _) (.tryCatch (keepsRunner_refresh _) fun _ => .pure _)

end Installer

namespace MarkerStore

theorem keepsRunner_exists (name : String) : KeepsRunner (exists_ name) := by
  unfold exists_
  refine .bind .get fun m => ?_
  split
  · exact .pure _
  · exact .bind (keepsRunner_read _) fun _ => .pure _

theorem keepsRunner_set (name : String) : KeepsRunner (set name) := by
  unfold set
  refine .bind .get fun m => ?_
  split
  · exact .modify fun _ => rfl
  · refine .bind (keepsRunner_read _) fun _ => ?_
    split
    · exact .throw _
    · exact keepsRunner_writeAtomic _ _

end MarkerStore

/-! ## Seeding with a recording runner -/

namespace Act

/-- From `m` to `m'` a recording runner only gained runs of some of `names`, in their order and
each as often as listed at most. -/
def Recorded (m m' : Machine) (names : List String) : Prop :=
  ∀ failing runs, m.runner = .recording failing runs →
    ∃ extra : List (String × String), (extra.map Prod.fst).Sublist names ∧
      m'.runner = .recording failing (runs ++ extra)

namespace Recorded

theorem of_runner_eq {m m' : Machine} (h : m'.runner = m.runner) (names : List String) :
    Recorded m m' names :=
  fun failing runs hm => ⟨[], List.nil_sublist _, by rw [h, hm, List.append_nil]⟩

theorem trans {m m₁ m' : Machine} {l₁ l₂ : List String} (h₁ : Recorded m m₁ l₁)
    (h₂ : Recorded m₁ m' l₂) : Recorded m m' (l₁ ++ l₂) := by
  intro failing runs hm
  obtain ⟨extra, hsub, hm₁⟩ := h₁ failing runs hm
  obtain ⟨extra', hsub', hm'⟩ := h₂ failing (runs ++ extra) hm₁
  refine ⟨extra ++ extra', ?_, by rw [hm', List.append_assoc]⟩
  rw [List.map_append]
  exact hsub.append hsub'

theorem mono {m m' : Machine} {l l' : List String} (h : Recorded m m' l) (hl : l.Sublist l') :
    Recorded m m' l' :=
  fun failing runs hm =>
    let ⟨extra, hsub, hm'⟩ := h failing runs hm
    ⟨extra, hsub.trans hl, hm'⟩

end Recorded

/-- Started from a recording runner, the action leaves it with its notes followed by runs of some
of `names`, in their order and each at most once, however it ends. -/
def Records {α : Type} (x : Act α) (names : List String) : Prop :=
  ∀ m, Recorded m (final (x.run m)) names

namespace Records

variable {α β : Type}

theorem of_keepsRunner {x : Act α} (hx : KeepsRunner x) (names : List String) : Records x names :=
  fun m => .of_runner_eq (hx m) names

theorem bind {x : Act α} {f : α → Act β} {l₁ l₂ : List String} (hx : Records x l₁)
    (hf : ∀ a, Records (f a) l₂) : Records (x >>= f) (l₁ ++ l₂) := by
  intro m
  have hxm := hx m
  rw [EStateM.run_bind]
  cases h : x.run m with
  | ok a m₁ =>
    rw [h] at hxm
    exact hxm.trans (hf a m₁)
  | error e m₁ =>
    rw [h] at hxm
    exact hxm.mono (List.sublist_append_left _ _)

theorem mono {x : Act α} {l l' : List String} (hx : Records x l) (h : l.Sublist l') :
    Records x l' :=
  fun m => (hx m).mono h

theorem tryCatch {x : Act α} {h : Error → Act α} {l : List String} (hx : Records x l)
    (hh : ∀ e, KeepsRunner (h e)) : Records (MonadExcept.tryCatch x h) l := by
  intro m
  have hxm := hx m
  rw [Act.run_tryCatch]
  cases hr : x.run m with
  | ok a m₁ =>
    rw [hr] at hxm
    exact hxm
  | error e m₁ =>
    rw [hr] at hxm
    exact (hxm.trans (.of_runner_eq (hh e m₁) [])).mono (by simp)

theorem ite {c : Prop} [Decidable c] {x y : Act α} {l : List String} (hx : Records x l)
    (hy : Records y l) : Records (if c then x else y) l := by
  split
  · exact hx
  · exact hy

/-- An action that answered recorded its runs on the way. -/
theorem recorded_of_run {x : Act α} {l : List String} (hx : Records x l) {m m' : Machine} {a : α}
    (h : x.run m = .ok a m') : Recorded m m' l := by
  have hxm := hx m
  rw [h] at hxm
  exact hxm

end Records

end Act

/-- Running a seed script is one run of the extension, noted before the script answers. -/
theorem records_runScript (ext : Extension) (script : String) :
    Records (runScript ext script) [ext.name] := by
  intro m failing runs hm
  refine ⟨[(ext.name, script)], List.Sublist.refl _, ?_⟩
  have hget : EStateM.run (get : Act Machine) m = .ok m m := rfl
  simp only [runScript, EStateM.run_bind, hget, hm]
  change (final (EStateM.run (if _ then _ else _) _)).runner = _
  split <;> rfl

/-- Seeding an extension runs its script at most once. -/
theorem records_seed (force : Bool) (ext : Extension) : Records (seed force ext) [ext.name] := by
  unfold seed
  split
  · exact .of_keepsRunner (.pure _) _
  · extract_lets script jpRun jpCheck
    -- the script runs once the marker and the script file are checked; the marker follows it
    have hrun : ∀ r, Records (jpRun r) [ext.name] := fun _ =>
      (Records.bind (records_runScript ext script) fun _ =>
        .of_keepsRunner (.bind (.tryCatch (MarkerStore.keepsRunner_set _) fun _ => .throw _)
          fun _ => .pure _) []).mono (by simp)
    have hcheck : ∀ r, Records (jpCheck r) [ext.name] := fun _ =>
      (Records.bind (.of_keepsRunner .get []) fun _ =>
        .ite ((Records.bind (.of_keepsRunner (.throw _) []) hrun).mono (by simp)) (hrun ())).mono
        (by simp)
    refine .ite (.of_keepsRunner (.pure _) _) (.ite ?_ (hcheck ()))
    exact (Records.bind (.of_keepsRunner (MarkerStore.keepsRunner_exists _) []) fun _ =>
      .ite (.of_keepsRunner (.pure _) _) (hcheck ())).mono (by simp)

end Provisioning
