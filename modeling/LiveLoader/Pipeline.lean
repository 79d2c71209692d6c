import LiveLoader.Instrument
import LiveLoader.Routes.Module
import LiveLoader.Session
import LiveLoader.SourceFile
import LiveLoader.Syntax.Outline
import LiveLoader.Transpile

/-!
# The load pipeline

A bundler hands each path that it wants to load to the pipeline. Three loaders are asked in a fixed
order: the routes module, the framework's sources, other scripts. A path that none of them takes is
left to the bundler.
-/

namespace LiveLoader

/-- How the bundler reads what it is given. -/
inductive ContentKind where
  | js | ts
  deriving DecidableEq, Repr

namespace ContentKind

def name : ContentKind → String
  | js => "js"
  | ts => "ts"

end ContentKind

structure Loaded where
  contents : List Char
  kind : ContentKind
  deriving DecidableEq, Repr

inductive LoaderKind where
  | routes | framework | generic
  deriving DecidableEq, Repr

namespace LoaderKind

def name : LoaderKind → String
  | routes => "Routes"
  | framework => "Framework"
  | generic => "Generic"

end LoaderKind

/-- What a bundler is told of a loader. -/
structure Registration where
  name : String
  filter : Filter
  kind : LoaderKind
  deriving Repr

/-- What a script goes through before it is transpiled. -/
abbrev SourceTransform := Path → List Char → Result (List Char)

namespace SourceTransform

def unchanged : SourceTransform := fun _ source => .ok source

end SourceTransform

def readSource (fs : FileSystem) (path : Path) : Result (List Char) :=
  match fs.readText path with
  | .ok text => .ok text
  | .error e => .error (.io path e.message)

structure Pipeline (Program : Type) where
  routes : Option RoutesModule
  session : Session Program
  transform : SourceTransform

namespace Pipeline

/-- A pipeline with all loaders and a session of its own; relative routing paths are seen from
`cwd`. -/
def setup (c : Compiler σ Program) (options : LoaderOptions) (cwd : Path)
    (stylesheets : StylesheetTransform) (transform : SourceTransform) (w : World σ) :
    Result (Pipeline Program) × World σ :=
  let host := ResourceHost.configured options.inlineStylesExtension stylesheets
  match Session.start c .standard host w with
  | (.error e, w) => (.error e, w)
  | (.ok session, w) =>
    (.ok ⟨some (.configured options.routing cwd), session, transform⟩, w)

def registrations (p : Pipeline Program) : List Registration :=
  (p.routes.map fun r => Registration.mk "angular-routes" r.filter .routes).toList
    ++ [⟨"angular-framework", SourceFile.frameworkFilter, .framework⟩,
      ⟨"angular-generic", SourceFile.scriptFilter, .generic⟩]

/-- The loader that takes a path. -/
def dispatch (p : Pipeline Program) (path : Path) : Option LoaderKind :=
  if p.routes.any (·.accepts path) then some .routes
  else if SourceFile.isFramework path then some .framework
  else if SourceFile.isScript path then some .generic
  else none

/-- Loads a source of the framework: compiled in the session, and with the snippet of the text that
was read. -/
def loadFramework (c : Compiler σ Program) (s : Session Program) (path : Path) (w : World σ) :
    Result (Option Loaded) × Session Program × World σ :=
  if !SourceFile.isFramework path then (.ok none, s, w)
  else match readSource w.files path with
    | .error e => (.error e, s, w)
    | .ok source =>
      let absolute := path.absolutize w.files.workingDirectory
      match s.compileSource c absolute source w with
      | (.error e, s, w) => (.error e, s, w)
      | (.ok emitted, s, w) =>
        let classification := Classification.ofSource (.ofPath absolute) source
        (.ok (some ⟨instrument emitted.code classification, .js⟩), s, w)

/-- Loads any other script by itself. -/
def loadGeneric (transform : SourceTransform) (fs : FileSystem) (path : Path) :
    Result (Option Loaded) := do
  if !SourceFile.isScript path then return none
  let source ← readSource fs path
  let transformed ← transform path source
  let code ← transpile path transformed
  return some ⟨instrument code (.ofSource .scriptModule code), .ts⟩

def loadRoutes (routes : Option RoutesModule) (fs : FileSystem) : Build (Option Loaded) :=
  match routes with
  | none => return none
  | some r => do return some ⟨← r.generate fs, .ts⟩

/-- Loads a path with the loader that takes it. -/
def loadPath (c : Compiler σ Program) (p : Pipeline Program) (path : Path) (w : World σ) :
    Result (Option Loaded) × Pipeline Program × World σ :=
  match p.dispatch path with
  | none => (.ok none, p, w)
  | some .routes =>
    let (r, w) := w.carryOut (loadRoutes p.routes w.files).run
    (r, p, w)
  | some .framework =>
    let (r, session, w) := loadFramework c p.session path w
    (r, { p with session }, w)
  | some .generic => (loadGeneric p.transform w.files path, p, w)

/-- Loads a path; a failure names the path and goes to the log. -/
def load (c : Compiler σ Program) (p : Pipeline Program) (path : Path) (w : World σ) :
    Except LoadError (Option Loaded) × Pipeline Program × World σ :=
  match loadPath c p path w with
  | (.ok loaded, p, w) => (.ok loaded, p, w)
  | (.error cause, p, w) =>
    let e : LoadError := ⟨path, cause⟩
    (.error e, p, w.write [.error e.message])

end Pipeline

end LiveLoader
