import LiveLoader.Error
import LiveLoader.Json.Reader

/-!
# Options

What a user of the loader can set, and how the settings are read from JSON.
-/

namespace LiveLoader

open Json

structure RoutingOptions where
  redirectTo : Option (List Char) := none
  /-- The module whose load is answered by the route table. -/
  filePath : Path := "src/routes.ng.ts"
  /-- The directory that is searched for pages. -/
  pagesPath : Path := "src/pages"
  deriving DecidableEq, Repr

structure LoaderOptions where
  /-- The extension in the names made up for inline styles; without one they stay as they are. -/
  inlineStylesExtension : Option (List Char) := none
  routing : RoutingOptions := {}
  deriving DecidableEq, Repr

/-- A field that was left out keeps its standard value. -/
def fieldOr (standard : α) (read? : Json → Option α) : Option Json → Option α
  | none => some standard
  | some j => read? j

namespace RoutingOptions

def fieldNames : List (List Char) :=
  ["redirectTo".toList, "filePath".toList, "pagesPath".toList]

def ofJson? (j : Json) : Option RoutingOptions := do
  let standard : RoutingOptions := {}
  match ← j.fields? fieldNames with
  | [redirectTo, filePath, pagesPath] =>
    return {
      redirectTo := ← fieldOr none nullableText? redirectTo
      filePath := ← fieldOr standard.filePath (fun j => j.text?.map Path.mk) filePath
      pagesPath := ← fieldOr standard.pagesPath (fun j => j.text?.map Path.mk) pagesPath }
  | _ => none

/-- The same options with both paths seen from `cwd`. -/
def resolve (o : RoutingOptions) (cwd : Path) : RoutingOptions :=
  { o with filePath := o.filePath.absolutize cwd, pagesPath := o.pagesPath.absolutize cwd }

end RoutingOptions

namespace LoaderOptions

def fieldNames : List (List Char) := ["inlineStylesExtension".toList, "routing".toList]

def ofJson? (j : Json) : Option LoaderOptions := do
  match ← j.fields? fieldNames with
  | [ext, routing] =>
    return {
      inlineStylesExtension := ← fieldOr none nullableText? ext
      routing := ← fieldOr {} RoutingOptions.ofJson? routing }
  | _ => none

def ofText? (s : List Char) : Option LoaderOptions := (Json.ofText? s).bind ofJson?

/-- Reads the options; a text that denotes none is a failure of the setup. -/
def read (s : List Char) : Result LoaderOptions :=
  match ofText? s with
  | some o => .ok o
  | none => .error (.setup "Invalid options: malformed JSON")

end LoaderOptions

inductive ScriptTarget where
  | latest
  deriving DecidableEq, Repr

inductive ModuleFormat where
  | esNext
  deriving DecidableEq, Repr

/-- What the framework's compiler is told; fixed for a session. -/
structure CompilerOptions where
  strict : Bool := true
  strictTemplates : Bool := true
  target : ScriptTarget := .latest
  module : ModuleFormat := .esNext
  annotateForClosureCompiler : Bool := true
  compilationMode : List Char := "experimental-local".toList
  inlineSourceMap : Bool := true
  incremental : Bool := true
  deriving DecidableEq, Repr

namespace CompilerOptions

def standard : CompilerOptions := {}

def fieldNames : List (List Char) :=
  ["strict".toList, "strictTemplates".toList, "target".toList, "module".toList,
    "annotateForClosureCompiler".toList, "compilationMode".toList, "inlineSourceMap".toList,
    "incremental".toList]

/-- A constant is named by a text or by an object with that one member, which is `null`. -/
def constant? (name : List Char) (value : α) : Json → Option α
  | .string (some t) => if t = name then some value else none
  | .object [(some k, .null)] => if k = name then some value else none
  | _ => none

/-- All fields have to be given. -/
def ofJson? (j : Json) : Option CompilerOptions := do
  match ← j.fields? fieldNames with
  | [some strict, some templates, some target, some module, some annotate, some mode, some map,
      some incremental] =>
    return {
      strict := ← strict.bool?
      strictTemplates := ← templates.bool?
      target := ← constant? "Latest".toList .latest target
      module := ← constant? "EsNext".toList .esNext module
      annotateForClosureCompiler := ← annotate.bool?
      compilationMode := ← mode.text?
      inlineSourceMap := ← map.bool?
      incremental := ← incremental.bool? }
  | _ => none

def ofText? (s : List Char) : Option CompilerOptions := (Json.ofText? s).bind ofJson?

end CompilerOptions

end LiveLoader
