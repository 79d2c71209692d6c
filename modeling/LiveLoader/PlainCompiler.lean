import LiveLoader.Compiler
import LiveLoader.Resource.Inlining
import LiveLoader.Transpile

/-!
# The plain compiler

A compiler that leaves templates as they are. Its analysis reads the root files and the resources of
their components; its emit inlines the resources and transpiles.
-/

namespace LiveLoader.PlainCompiler

open Resource

/-- What the analysis found out about the resources of a source. -/
inductive Resources where
  | none
  | inlined (parts : Inlined)
  | missing (file : Path)
  deriving Repr

/-- A root file that could be read. -/
structure Source where
  path : Path
  text : List Char
  problems : Nat
  resources : Resources
  deriving Repr

structure Program where
  roots : List Path
  options : CompilerOptions
  host : ResourceHost
  /-- In the order of the roots, once the program is analyzed. -/
  sources : List Source := []

namespace Program

/-- The source for a path; of several the last. -/
def source? (p : Program) (path : Path) : Option Source :=
  p.sources.reverse.find? fun s => s.path.same path

/-- How many problems of syntax the sources have. -/
def diagnostics (p : Program) : Nat := p.sources.foldr (fun s n => s.problems + n) 0

/-- The paths of the sources whose resources are inlined, with what is put in. -/
def components (p : Program) : List (Path × Inlined) :=
  p.sources.filterMap fun s =>
    match s.resources with
    | .inlined parts => some (s.path, parts)
    | _ => none

/-- The paths of the sources that miss a resource, with the first file that cannot be read. -/
def missing (p : Program) : List (Path × Path) :=
  p.sources.filterMap fun s =>
    match s.resources with
    | .missing file => some (s.path, file)
    | _ => none

end Program

section Analysis

/-- The texts of the roots that can be read; for each other one a warning is written. -/
def readRoots (fs : FileSystem) : List Path → Logged (List (Path × List Char))
  | [] => return []
  | root :: roots =>
    match fs.readText root with
    | .ok text => do
      let rest ← readRoots fs roots
      return (root, text) :: rest
    | .error e => do
      Logged.write (.warn ("Failed to read root file " ++ root.toString ++ ": " ++ e.message))
      readRoots fs roots

def warnOfProblems (path : Path) (n : Nat) : Logged Unit :=
  if n = 0 then return ()
  else Logged.write (.warn (toString n ++ " syntax error(s) in " ++ path.toString))

def warnOfMissing (path file : Path) : Logged Unit :=
  Logged.write
    (.warn (path.toString ++ " references missing resource " ++ file.toString))

variable (digest : List Char → String) (host : ResourceHost) (fs : FileSystem)

/-- The resources of a source with the given properties. A file that cannot be read fails the source
alone; any other failure would fail the analysis. -/
def resourcesOf (path : Path) (ps : List MetadataProperty) : Build Resources :=
  if ps.isEmpty then return .none
  else ExceptT.mk do
    match ← (inlineAll digest host fs path ps).run with
    | .ok parts => return .ok (.inlined parts)
    | .error (.resourceNotFound file) => do
      warnOfMissing path file
      return .ok (.missing file)
    | .error e => return .error e

def analyzeSource (path : Path) (text : List Char) : Build Source := do
  let reading := Syntax.read (.ofPath path) text
  Build.ofLogged (warnOfProblems path reading.problems)
  let resources ← resourcesOf digest host fs path (properties reading.program)
  return ⟨path, text, reading.problems, resources⟩

/-- Reads all roots first, and then looks into each of them. -/
def analyzeRoots (roots : List Path) : Build (List Source) := do
  let texts ← Build.ofLogged (readRoots fs roots)
  texts.mapM fun (path, text) => analyzeSource digest host fs path text

end Analysis

def analyze (digest : List Char → String) (p : Program) (fs : FileSystem) :
    Build Program := do
  let sources ← analyzeRoots digest p.host fs p.roots
  return { p with sources }

section Emit

def declarationEndings : List (List Char) := [".d.ts".toList, ".d.mts".toList, ".d.cts".toList]

/-- Declaration files have no output. -/
def isDeclarationFile (path : Path) : Bool :=
  declarationEndings.any fun ending => Text.endsWith ending path.text

def outputExtension (path : Path) : List Char :=
  match path.extension?.map String.ofList with
  | some "mts" | some "mjs" => "mjs".toList
  | some "cts" | some "cjs" => "cjs".toList
  | _ => "js".toList

def outputName (path : Path) : List Char := (path.withExtension (outputExtension path)).text

def Source.inlinedText (s : Source) : List Char :=
  match s.resources with
  | .inlined parts => Text.splice s.text parts.replacements
  | _ => s.text

/-- The output for a source; a module in which nothing runs has none. -/
def emitSource (s : Source) (path : Path) (ts : Transformers) : Result (List Artifact) := do
  if isDeclarationFile path then return []
  if let .missing file := s.resources then throw (.resourceNotFound file)
  let text ← ts.applyBefore path s.inlinedText
  let code ← transpile path text
  if isEmptyModule code then return []
  let code ← ts.applyAfter path code
  return [⟨outputName path, code⟩]

def emit (p : Program) (path : Path) (ts : Transformers) : Result (List Artifact) :=
  match p.source? path with
  | some s => emitSource s path ts
  | none => .error (.unknownSource path)

end Emit

def Source.files (s : Source) : List (Path × String) :=
  match s.resources with
  | .inlined parts => parts.files
  | _ => []

def dependencies (p : Program) (path : Path) : List Path :=
  match p.source? path with
  | some s => s.files.map (·.1)
  | none => []

/-- A resource changed: one that was missing is there, or one that was read has another text. -/
def Source.changed (digest : List Char → String) (fs : FileSystem) (s : Source) : Bool :=
  match s.resources with
  | .none => false
  | .missing file => fs.holds file
  | .inlined parts => parts.files.any fun (file, d) =>
    match fs.readText file with
    | .ok text => digest text ≠ d
    | .error _ => true

def inputsChanged (digest : List Char → String) (p : Program) (fs : FileSystem) : Bool :=
  p.sources.any (Source.changed digest fs)

/-- The plain compiler for any way of telling texts apart. -/
def compilerWith (digest : List Char → String) : Compiler Unit Program where
  create roots options host w := (.ok { roots, options, host }, w)
  analyze p w := w.carryOut (analyze digest p w.files).run
  contains p path := (p.source? path).isSome
  prepareEmit _ := {}
  emit := emit
  dependencies := dependencies
  inputsChanged p w := (inputsChanged digest p w.files, w)
  digest := digest

def compiler : Compiler Unit Program := compilerWith fun s => fingerprint (String.ofList s)

end LiveLoader.PlainCompiler
