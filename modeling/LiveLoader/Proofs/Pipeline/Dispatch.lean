import LiveLoader.Proofs.Filter
import LiveLoader.Proofs.Pipeline.Loads

/-!
# Dispatching and loading

Each loader tests by itself whether it takes a path, and dispatching asks the loaders in turn. The
main statement, `load_agrees_with_dispatch`, says that the loader which is picked never turns the
path down, which paths go to which loader, and that no load but that of a readable source of the
framework touches the session.
-/

namespace LiveLoader.Pipeline

section

variable {c : Compiler σ Program} {p : Pipeline Program} {path : Path} {w : World σ}

theorem dispatch_of_routes (h : p.takes path .routes = true) : p.dispatch path = some .routes :=
  if_pos h

theorem dispatch_of_framework (hr : p.takes path .routes = false)
    (h : p.takes path .framework = true) : p.dispatch path = some .framework := by
  simp only [takes] at hr h
  simp [dispatch, hr, h]

theorem dispatch_of_neither (hr : p.takes path .routes = false)
    (hf : p.takes path .framework = false) :
    p.dispatch path = if p.takes path .generic then some .generic else none := by
  have hneither : ¬ p.routes.any (·.accepts path) = true ∧ ¬ SourceFile.isFramework path = true := by
    simp only [takes] at hr hf
    simp [hr, hf]
  unfold dispatch
  rw [if_neg hneither.1, if_neg hneither.2]
  rfl

theorem loadFramework_ne_none (framework : SourceFile.isFramework path = true)
    (s : Session Program) : (loadFramework c s path w).1 ≠ .ok none := by
  cases hr : w.files.readText path with
  | error e => simp [loadFramework, framework, readSource, hr]
  | ok text =>
    rw [loadFramework_eq framework hr]
    intro h
    obtain ⟨e, -, he⟩ := map_eq_ok.mp h
    cases he

theorem loadGeneric_ne_none (script : SourceFile.isScript path = true)
    (transform : SourceTransform) (fs : FileSystem) :
    loadGeneric transform fs path ≠ .ok none := by
  intro h
  simp only [loadGeneric, script, Bool.not_true, Bool.false_eq_true, if_false] at h
  obtain ⟨source, -, h⟩ := bind_eq_ok.mp h
  obtain ⟨transformed, -, h⟩ := bind_eq_ok.mp h
  obtain ⟨code, -, h⟩ := bind_eq_ok.mp h
  cases h

/-- The routes module is answered with its table, or with what keeps the table from being made. -/
theorem value_loadRoutes (r : RoutesModule) (fs : FileSystem) :
    (loadRoutes (some r) fs).run.value =
      (r.generate fs).run.value.map fun table => some ⟨table, .ts⟩ := by
  have h : Build.result (loadRoutes (some r) fs) = _ :=
    Build.result_bind (r.generate fs) fun table => pure (some (Loaded.mk table .ts))
  refine h.trans ?_
  unfold Build.result
  cases (r.generate fs).run.value <;> rfl

theorem answer_of_routes {r : RoutesModule} (hr : p.routes = some r)
    (h : p.dispatch path = some .routes) : (load c p path w).1 =
      ((r.generate w.files).run.value.map fun table => some ⟨table, .ts⟩).mapError
        (LoadError.mk path) := by
  rw [(load_eq path w).1, loadPath, h, ← value_loadRoutes, hr]
  rfl

theorem answer_of_framework (h : p.dispatch path = some .framework) :
    (load c p path w).1 = (loadFramework c p.session path w).1.mapError (LoadError.mk path) := by
  rw [(load_eq path w).1, loadPath, h]

theorem answer_of_generic (h : p.dispatch path = some .generic) :
    (load c p path w).1 = (loadGeneric p.transform w.files path).mapError (LoadError.mk path) := by
  rw [(load_eq path w).1, loadPath, h]

theorem loadPath_eq_none : (loadPath c p path w).1 = .ok none ↔ p.dispatch path = none := by
  cases hd : p.dispatch path with
  | none => simp [loadPath, hd]
  | some kind =>
    have htakes := takes_of_dispatch hd
    refine iff_of_false ?_ (Option.some_ne_none kind)
    rw [loadPath, hd]
    cases kind with
    | framework => exact loadFramework_ne_none htakes p.session
    | generic => exact loadGeneric_ne_none htakes p.transform w.files
    | routes =>
      obtain ⟨r, hr, -⟩ := (Option.any_eq_true _ _).mp htakes
      show (loadRoutes p.routes w.files).run.value ≠ _
      rw [hr, value_loadRoutes]
      intro h
      obtain ⟨table, -, htable⟩ := map_eq_ok.mp h
      cases htable

theorem load_eq_none : (load c p path w).1 = .ok none ↔ p.dispatch path = none := by
  rw [(load_eq path w).1, mapError_eq_ok, loadPath_eq_none]

/-- The load is one of a source of the framework that can be read. -/
def CallsSession (p : Pipeline Program) (path : Path) (fs : FileSystem) : Prop :=
  p.dispatch path = some .framework ∧ ∃ text, fs.readText path = .ok text

theorem loadPath_frame (h : ¬ CallsSession p path w.files) :
    (loadPath c p path w).2.1 = p ∧ (loadPath c p path w).2.2.files = w.files ∧
      (loadPath c p path w).2.2.state = w.state := by
  cases hd : p.dispatch path with
  | none => simp [loadPath, hd]
  | some kind =>
    rw [loadPath, hd]
    cases kind with
    | routes => exact ⟨rfl, rfl, rfl⟩
    | generic => exact ⟨rfl, rfl, rfl⟩
    | framework =>
      cases hr : w.files.readText path with
      | ok text => exact absurd ⟨hd, text, hr⟩ h
      | error e => simp [loadFramework, isFramework_of_dispatch hd, readSource, hr]

theorem world_load (c : Compiler σ Program) (p : Pipeline Program) (path : Path) (w : World σ) :
    (load c p path w).2.2.files = (loadPath c p path w).2.2.files ∧
      (load c p path w).2.2.state = (loadPath c p path w).2.2.state := by
  unfold load
  rcases loadPath c p path w with ⟨r, p', w'⟩
  cases r <;> exact ⟨rfl, rfl⟩

end

/-- For every path, loading agrees with dispatching. Nothing is loaded just if no loader is picked,
and a loader that is picked takes the path by its own test. What the routes module matches is
answered by the route table or the failure to make it. Of all other paths those in a package of
others, and those without the ending of a script, are left alone; those with an ending of the
framework go to its loader, and the rest to the loader of scripts. The session changes by the load of
a readable source of the framework alone; any other load, whatever comes of it, leaves the pipeline,
the files and the compiler's state as they are. -/
theorem load_agrees_with_dispatch (c : Compiler σ Program) (p : Pipeline Program) (path : Path)
    (w : World σ) :
    let answer := (load c p path w).1
    let vendored := Component.normal "node_modules".toList ∈ path.components
    let endsIn (endings : List (List Char)) := ∃ e ∈ endings, e <:+ path.text
    (answer = .ok none ↔ p.dispatch path = none) ∧
    (∀ kind, p.dispatch path = some kind → p.takes path kind = true) ∧
    (∀ r, p.routes = some r → r.accepts path = true →
      p.dispatch path = some .routes ∧ answer = ((r.generate w.files).run.value.map
        fun table => some ⟨table, .ts⟩).mapError (LoadError.mk path)) ∧
    (p.routes.any (·.accepts path) = false →
      (vendored ∨ ¬ endsIn SourceFile.scriptEndings → answer = .ok none) ∧
      (¬ vendored → endsIn SourceFile.frameworkEndings → p.dispatch path = some .framework ∧
        answer = (loadFramework c p.session path w).1.mapError (LoadError.mk path)) ∧
      (¬ vendored → endsIn SourceFile.scriptEndings → ¬ endsIn SourceFile.frameworkEndings →
        p.dispatch path = some .generic ∧
        answer = (loadGeneric p.transform w.files path).mapError (LoadError.mk path))) ∧
    (¬ CallsSession p path w.files → (load c p path w).2.1 = p ∧
      (load c p path w).2.2.files = w.files ∧ (load c p path w).2.2.state = w.state) := by
  intro answer vendored endsIn
  have hframework : p.takes path .framework = true ↔
      ¬ vendored ∧ endsIn SourceFile.frameworkEndings := SourceFile.isFramework_iff
  have hscript : p.takes path .generic = true ↔ ¬ vendored ∧ endsIn SourceFile.scriptEndings :=
    SourceFile.isScript_iff
  refine ⟨load_eq_none, fun kind => takes_of_dispatch, ?_, fun other => ⟨?_, ?_, ?_⟩,
    fun quiet => ?_⟩
  · intro r hr haccepts
    have hroutes : p.dispatch path = some .routes :=
      dispatch_of_routes (by simpa [takes, hr] using haccepts)
    exact ⟨hroutes, answer_of_routes hr hroutes⟩
  · intro left
    have hno : p.takes path .framework = false := by
      rw [Bool.eq_false_iff]
      intro h
      obtain ⟨own, e, he, hends⟩ := hframework.mp h
      exact left.elim own fun hs => hs ⟨e, SourceFile.frameworkEndings_subset he, hends⟩
    refine load_eq_none.mpr ?_
    rw [dispatch_of_neither other hno, if_neg]
    intro h
    obtain ⟨own, script⟩ := hscript.mp h
    exact left.elim own fun hs => hs script
  · intro own framework
    have hdispatch := dispatch_of_framework other (hframework.mpr ⟨own, framework⟩)
    exact ⟨hdispatch, answer_of_framework hdispatch⟩
  · intro own script typeless
    have hno : p.takes path .framework = false :=
      Bool.eq_false_iff.mpr fun h => typeless (hframework.mp h).2
    have hdispatch : p.dispatch path = some .generic := by
      rw [dispatch_of_neither other hno, if_pos (hscript.mpr ⟨own, script⟩)]
    exact ⟨hdispatch, answer_of_generic hdispatch⟩
  · obtain ⟨hpipeline, hfiles, hstate⟩ := loadPath_frame (c := c) quiet
    obtain ⟨hfiles', hstate'⟩ := world_load c p path w
    exact ⟨(load_eq path w).2.trans hpipeline, hfiles'.trans hfiles, hstate'.trans hstate⟩

/-- A pipeline whose routes module is `/app/src/routes.ng.ts`. -/
def Trial.routed : Pipeline Scripted.Program :=
  { routes := some (.configured {} "/app"), session := Session.Trial.session
    transform := .unchanged }

theorem load_agrees_with_dispatch_trial :
    let loaded (path : Path) := load Session.Trial.compiler Trial.routed path Session.Trial.world
    (loaded "/app/SRC/routes.ng.ts").1 =
      .ok (some ⟨"export const routes = [\n];\n".toList, .ts⟩) ∧
    (loaded "/app/node_modules/x/a.ts").1 = .ok none ∧ (loaded "/app/a.ts.css").1 = .ok none ∧
    Trial.routed.dispatch "/app/a.mts" = some .framework ∧
    Trial.routed.dispatch "/app/a.tsx" = some .generic ∧
    (loaded "/app/a.mts").2.1 = Trial.routed := by
  intro loaded
  have agrees (path : Path) :=
    load_agrees_with_dispatch Session.Trial.compiler Trial.routed path Session.Trial.world
  obtain ⟨-, -, routes, -, -⟩ := agrees "/app/SRC/routes.ng.ts"
  obtain ⟨-, -, -, vendored, -⟩ := agrees "/app/node_modules/x/a.ts"
  obtain ⟨-, -, -, style, -⟩ := agrees "/app/a.ts.css"
  obtain ⟨-, -, -, module, frame⟩ := agrees "/app/a.mts"
  obtain ⟨-, -, -, markup, -⟩ := agrees "/app/a.tsx"
  have missing : Session.Trial.world.files.readText "/app/a.mts" = .error .missing := by decide
  refine ⟨(routes _ rfl (by decide)).2.trans (by decide), (vendored (by decide)).1 (by decide),
    (style (by decide)).1 (by decide), ((module (by decide)).2.1 (by decide) (by decide)).1,
    ((markup (by decide)).2.2 (by decide) (by decide) (by decide)).1, (frame ?_).1⟩
  rintro ⟨-, text, readable⟩
  rw [missing] at readable
  cases readable

end LiveLoader.Pipeline
