import LiveLoader.Pipeline
import LiveLoader.Proofs.Build
import LiveLoader.Proofs.Session.Texts

/-!
# Loads and calls

A load touches the pipeline's session by one call at most: a source of the framework that can be
read is ensured with its text. So a sequence of loads is a sequence of calls. As with calls, each
load is made in a world of its own.
-/

namespace LiveLoader

namespace Pipeline

/-- The test by which a loader takes a path. -/
def takes (p : Pipeline Program) (path : Path) : LoaderKind → Bool
  | .routes => p.routes.any (·.accepts path)
  | .framework => SourceFile.isFramework path
  | .generic => SourceFile.isScript path

structure Load (σ : Type) where
  path : Path
  world : World σ

/-- The path as the session is asked for it. -/
def Load.place (l : Load σ) : Path := l.path.absolutize l.world.files.workingDirectory

/-- The call that a load makes on the session. -/
def call? (p : Pipeline Program) (l : Load σ) : Option (Session.Call σ) :=
  match p.dispatch l.path, l.world.files.readText l.path with
  | some .framework, .ok text => some ⟨.ensureCurrent l.place text, l.world⟩
  | _, _ => none

def afterLoad (c : Compiler σ Program) (p : Pipeline Program) (l : Load σ) : Pipeline Program :=
  (load c p l.path l.world).2.1

def afterLoads (c : Compiler σ Program) (p : Pipeline Program) (ls : List (Load σ)) :
    Pipeline Program :=
  ls.foldl (afterLoad c) p

/-- What is loaded for a source of the framework: the emitted code with the snippet of a text. -/
def moduleOf (place : Path) (text : List Char) (e : Emitted) : Loaded :=
  ⟨instrument e.code (.ofSource (.ofPath place) text), .js⟩

/-- What a load answers when the session emits a file or fails to. -/
def answer (path place : Path) (text : List Char) (r : Result Emitted) :
    Except LoadError (Option Loaded) :=
  (r.map fun e => some (moduleOf place text e)).mapError (LoadError.mk path)

section

variable {c : Compiler σ Program} {p : Pipeline Program}

theorem takes_of_dispatch {path : Path} {kind : LoaderKind} (h : p.dispatch path = some kind) :
    p.takes path kind = true := by
  unfold dispatch at h
  split at h
  case isTrue hr =>
    cases h
    exact hr
  case isFalse =>
    split at h
    case isTrue hf =>
      cases h
      exact hf
    case isFalse =>
      split at h
      case isTrue hs =>
        cases h
        exact hs
      case isFalse => cases h

theorem isFramework_of_dispatch {path : Path} (h : p.dispatch path = some .framework) :
    SourceFile.isFramework path = true := takes_of_dispatch h

theorem call?_eq_some {l : Load σ} {k : Session.Call σ} : call? p l = some k ↔
    p.dispatch l.path = some .framework ∧
      ∃ text, l.world.files.readText l.path = .ok text ∧
        k = ⟨.ensureCurrent l.place text, l.world⟩ := by
  unfold call?
  split
  case h_1 text hd hr => simp [hd, hr, eq_comm]
  case h_2 hno =>
    refine ⟨nofun, ?_⟩
    rintro ⟨hd, text, hr, -⟩
    exact absurd hr (hno text hd)

theorem world_of_call? {l : Load σ} {k : Session.Call σ} (hk : call? p l = some k) :
    k.world = l.world := by
  obtain ⟨-, text, -, rfl⟩ := call?_eq_some.mp hk
  rfl

theorem emitAfter_eq (path : Path) (x : Result Bool × Session Program × World σ) :
    (Session.emitAfter c path x).2 = x.2 := by
  rcases x with ⟨r, s, w⟩
  cases r <;> rfl

theorem loadFramework_eq {s : Session Program} {path : Path} {w : World σ} {text : List Char}
    (framework : SourceFile.isFramework path = true) (readable : w.files.readText path = .ok text) :
    let place := path.absolutize w.files.workingDirectory
    let compiled := Session.compileSource c s place text w
    loadFramework c s path w =
      (compiled.1.map fun e => some (moduleOf place text e), compiled.2) := by
  intro place compiled
  have hread : readSource w.files path = .ok text := by simp [readSource, readable]
  rcases hc : Session.compileSource c s place text w with ⟨r, s', w'⟩
  simp only [loadFramework, framework, hread, Bool.not_true, Bool.false_eq_true, if_false]
  rw [show compiled = (r, s', w') from hc]
  simp only [place] at hc
  rw [hc]
  cases r <;> rfl

theorem load_eq (path : Path) (w : World σ) :
    (load c p path w).1 = (loadPath c p path w).1.mapError (LoadError.mk path) ∧
      (load c p path w).2.1 = (loadPath c p path w).2.1 := by
  unfold load
  rcases loadPath c p path w with ⟨r, p', w'⟩
  cases r <;> exact ⟨rfl, rfl⟩

/-- A load of a source of the framework that can be read answers what the session gives. -/
theorem load_framework {path : Path} {w : World σ} {text : List Char}
    (framework : p.dispatch path = some .framework) (readable : w.files.readText path = .ok text) :
    let place := path.absolutize w.files.workingDirectory
    let compiled := Session.compileSource c p.session place text w
    (load c p path w).1 = answer path place text compiled.1 ∧
      (load c p path w).2.1 = { p with session := compiled.2.1 } := by
  intro place compiled
  have heq : loadFramework c p.session path w =
      (compiled.1.map fun e => some (moduleOf place text e), compiled.2) :=
    loadFramework_eq (isFramework_of_dispatch framework) readable
  obtain ⟨hresult, hpipeline⟩ := load_eq (c := c) (p := p) path w
  rw [hresult, hpipeline, loadPath, framework]
  simp only [heq, and_true]
  rfl

/-- A load leaves routes and transform alone, and the session too unless it makes a call. -/
theorem afterLoad_eq (c : Compiler σ Program) (p : Pipeline Program) (l : Load σ) :
    afterLoad c p l = { p with session := match call? p l with
      | some k => Session.after c p.session k
      | none => p.session } := by
  cases hk : call? p l with
  | some k =>
    obtain ⟨framework, text, readable, rfl⟩ := call?_eq_some.mp hk
    refine (load_framework framework readable).2.trans ?_
    simp only [Session.compileSource, emitAfter_eq]
    rfl
  | none =>
    rw [afterLoad, (load_eq l.path l.world).2, loadPath]
    cases hd : p.dispatch l.path with
    | none => rfl
    | some kind =>
      cases kind with
      | routes | generic => rfl
      | framework =>
        cases hr : l.world.files.readText l.path with
        | ok text => simp [call?, hd, hr] at hk
        | error e =>
          have hf := isFramework_of_dispatch hd
          simp [loadFramework, hf, readSource, hr]

@[simp] theorem call?_afterLoad (c : Compiler σ Program) (p : Pipeline Program) (k : Load σ)
    (l : Load σ) : call? (afterLoad c p k) l = call? p l := by
  rw [afterLoad_eq]
  rfl

@[simp] theorem afterLoads_cons (c : Compiler σ Program) (p : Pipeline Program) (l : Load σ)
    (ls : List (Load σ)) : afterLoads c p (l :: ls) = afterLoads c (afterLoad c p l) ls := rfl

theorem afterLoads_append (c : Compiler σ Program) (p : Pipeline Program) (js ls : List (Load σ)) :
    afterLoads c p (js ++ ls) = afterLoads c (afterLoads c p js) ls := List.foldl_append

/-- What loads do to a pipeline is what their calls do to its session. -/
theorem afterLoads_eq (c : Compiler σ Program) (p : Pipeline Program) (ls : List (Load σ)) :
    afterLoads c p ls =
      { p with session := Session.afterAll c p.session (ls.filterMap (call? p)) } := by
  induction ls generalizing p with
  | nil => rfl
  | cons l ls ih =>
    have hcall : call? (afterLoad c p l) = call? p := funext (call?_afterLoad c p l)
    rw [afterLoads_cons, ih, hcall, afterLoad_eq, List.filterMap_cons]
    cases call? p l <;> rfl

theorem session_afterLoads (c : Compiler σ Program) (p : Pipeline Program) (ls : List (Load σ)) :
    (afterLoads c p ls).session = Session.afterAll c p.session (ls.filterMap (call? p)) := by
  rw [afterLoads_eq]

theorem session_append (c : Compiler σ Program) (p : Pipeline Program) (js ls : List (Load σ)) :
    (afterLoads c p (js ++ ls)).session =
      Session.afterAll c (afterLoads c p js).session (ls.filterMap (call? p)) := by
  rw [session_afterLoads, session_afterLoads, List.filterMap_append, Session.afterAll_append]

theorem calls_concat {l : Load σ} {k : Session.Call σ} (hk : call? p l = some k)
    (ls : List (Load σ)) : (ls ++ [l]).filterMap (call? p) = ls.filterMap (call? p) ++ [k] := by
  rw [List.filterMap_append, List.filterMap_cons, hk]
  rfl

theorem session_concat (c : Compiler σ Program) {l : Load σ} {k : Session.Call σ}
    (hk : call? p l = some k) (ls : List (Load σ)) :
    (afterLoads c p (ls ++ [l])).session = Session.after c (afterLoads c p ls).session k := by
  rw [session_append, List.filterMap_cons, hk]
  rfl

/-- A call stems from a load, and the calls before and after it from the loads before and after. -/
theorem exists_load_of_calls {ls : List (Load σ)} {hs ks : List (Session.Call σ)}
    {k : Session.Call σ} (h : ls.filterMap (call? p) = hs ++ k :: ks) :
    ∃ js i is, ls = js ++ i :: is ∧ js.filterMap (call? p) = hs ∧ call? p i = some k ∧
      is.filterMap (call? p) = ks := by
  obtain ⟨js, rest, rfl, rfl, hrest⟩ := List.filterMap_eq_append_iff.mp h
  obtain ⟨mid, i, is, rfl, hmid, hi, rfl⟩ := List.filterMap_eq_cons_iff.mp hrest
  refine ⟨js ++ mid, i, is, by simp, ?_, hi, rfl⟩
  rw [List.filterMap_append, List.filterMap_eq_nil_iff.mpr hmid, List.append_nil]

/-- The program of a session that is up to date and has a root was put in place by a load. -/
theorem exists_made {options : CompilerOptions} {host : ResourceHost} {w w' : World σ}
    (started : Session.start c options host w = (.ok p.session, w')) {ls : List (Load σ)}
    {path : Path} (fresh : (afterLoads c p ls).session.stale = false)
    (known : (afterLoads c p ls).session.knows path = true) :
    ∃ js i is, ls = js ++ i :: is ∧
      (∃ k, call? p i = some k ∧ Session.Installs c (afterLoads c p js).session k) ∧
      ¬ Session.InstallsAmong c (afterLoads c p (js ++ [i])).session (is.filterMap (call? p)) := by
  rw [session_afterLoads] at fresh known
  obtain ⟨hs, k, ks, hsplit, installed, kept⟩ := Session.exists_installs started fresh known
  obtain ⟨js, i, is, rfl, hjs, hi, rfl⟩ := exists_load_of_calls hsplit
  refine ⟨js, i, is, rfl, ⟨k, hi, ?_⟩, ?_⟩
  · rw [session_afterLoads, hjs]
    exact installed
  · rw [session_afterLoads, calls_concat hi, hjs]
    exact kept

/-- The counter of rebuilds tells which load was the last to put a program in place. -/
theorem rebuilds_iff (c : Compiler σ Program) (p : Pipeline Program) (js : List (Load σ))
    (i : Load σ) (is : List (Load σ)) :
    let rebuilds ls := (afterLoads c p ls).session.rebuilds
    rebuilds (js ++ [i]) = rebuilds js + 1 ∧ rebuilds (js ++ i :: is) = rebuilds (js ++ [i]) ↔
      (∃ k, call? p i = some k ∧ Session.Installs c (afterLoads c p js).session k) ∧
        ¬ Session.InstallsAmong c (afterLoads c p (js ++ [i])).session
          (is.filterMap (call? p)) := by
  intro rebuilds
  refine and_congr ?_ ?_
  · cases hi : call? p i with
    | none =>
      have hsame : rebuilds (js ++ [i]) = rebuilds js := by
        simp only [rebuilds]
        rw [session_append, List.filterMap_cons, hi]
        rfl
      simp [hsame]
    | some k =>
      simp only [rebuilds, session_concat c hi, Option.some.injEq, exists_eq_left']
      rcases Session.program_after c (afterLoads c p js).session k with
        ⟨installed, -, -, hr⟩ | ⟨hno, -, -, hr, -⟩
      · simp [installed, hr]
      · simp [hno, hr]
  · simp only [rebuilds]
    rw [List.append_cons, session_append, Session.rebuilds_eq_iff]

@[simp] theorem dispatch_afterLoads (c : Compiler σ Program) (p : Pipeline Program)
    (ls : List (Load σ)) (path : Path) : (afterLoads c p ls).dispatch path = p.dispatch path := by
  rw [afterLoads_eq]
  rfl

/-- A source of the framework that is loaded could be read. -/
theorem readable_of_load {l : Load σ} {x : Option Loaded}
    (framework : p.dispatch l.path = some .framework)
    (loaded : (load c p l.path l.world).1 = .ok x) :
    ∃ text, l.world.files.readText l.path = .ok text := by
  cases hr : l.world.files.readText l.path with
  | ok text => exact ⟨text, rfl⟩
  | error e =>
    have hf := isFramework_of_dispatch framework
    rw [(load_eq l.path l.world).1, mapError_eq_ok, loadPath, framework] at loaded
    simp [loadFramework, hf, readSource, hr] at loaded

theorem emitted_of_answer {path place : Path} {text : List Char} {r : Result Emitted}
    {x : Option Loaded} (h : answer path place text r = .ok x) : ∃ e, r = .ok e := by
  obtain ⟨e, he, -⟩ := map_eq_ok.mp (mapError_eq_ok.mp h)
  exact ⟨e, he⟩

end

end Pipeline

end LiveLoader
