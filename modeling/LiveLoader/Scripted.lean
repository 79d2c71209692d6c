import LiveLoader.Session
import LiveLoader.Text.Upper

/-!
# Scripted parts

Parts whose answers are written down in advance, so that sessions and pipelines can be tried without
the framework: a compiler, transformers, and transforms of styles and sources.
-/

namespace LiveLoader.Scripted

structure Script where
  createFailure : Option String := none
  /-- A program with one of these roots cannot be analyzed. -/
  broken : List Path := []
  analysisFails : Bool := false
  /-- Roots that a program does not know. -/
  hidden : List Path := []
  transformers : Transformers := {}
  /-- What is emitted for a path; an entry without artifact gives none. -/
  artifacts : List (Path × Option Artifact) := []
  noDependencies : Bool := false
  inputsChanged : Bool := false

structure Program where
  roots : List Path
  broken : List Path
  analysisFails : Bool

def Program.holds (p : Program) (path : Path) : Bool := p.roots.any (·.same path)

namespace Script

def create (s : Script) (roots : List Path) (w : World Nat) : Result Program × World Nat :=
  match s.createFailure with
  | some cause => (.error (.setup cause), w)
  | none => (.ok ⟨roots, s.broken, s.analysisFails⟩, { w with state := w.state + 1 })

def analyze (p : Program) : Result Program :=
  if p.analysisFails || p.broken.any p.holds then
    .error (.transformFailure "analysis" "broken root")
  else .ok p

/-- Without an entry the number of roots is emitted. -/
def artifactsFor (s : Script) (p : Program) (path : Path) : List Artifact :=
  match s.artifacts.filter (·.1.same path) with
  | [] =>
    [⟨"out.js".toList, ("export const roots = " ++ toString p.roots.length ++ ";").toList⟩]
  | entries => entries.filterMap (·.2)

def emit (s : Script) (p : Program) (path : Path) (ts : Transformers) : Result (List Artifact) :=
  (s.artifactsFor p path).mapM fun a => do
    return { a with data := ← ts.applyAfter path (← ts.applyBefore path a.data) }

def dependencies (s : Script) (p : Program) (path : Path) : List Path :=
  if s.noDependencies then [] else p.roots.filter fun root => !root.same path

/-- The compiler that answers as it is written. -/
def compiler (s : Script) : Compiler Nat Program where
  create roots _ _ w := s.create roots w
  analyze p w := (analyze p, w)
  contains p path := p.holds path && !s.hidden.any (·.same path)
  prepareEmit _ := s.transformers
  emit := s.emit
  dependencies := s.dependencies
  inputsChanged _ w := (s.inputsChanged, w)

end Script

/-- What stands before and after the first colon. -/
def splitDescription (s : List Char) : String × List Char :=
  match Text.breakOn [':'] s with
  | some (name, text) => (String.ofList name, text)
  | none => (String.ofList s, [])

def transformer (description : List Char) : Transformer :=
  match splitDescription description with
  | ("bootstrap", _) => .bootstrap
  | ("suffix", x) => ⟨"suffix", fun _ text => .ok (text ++ x)⟩
  | ("prefix", x) => ⟨"prefix", fun _ text => .ok (x ++ text)⟩
  | ("upper", _) => ⟨"upper", fun _ text => .ok (Text.upper text)⟩
  | (_, x) => ⟨"fail", fun path _ => .error (.transformFailure path (String.ofList x))⟩

def stylesheets (description : List Char) : StylesheetTransform :=
  match String.ofList description with
  | "tag" => fun css id => .ok ("/* ".toList ++ id ++ " */".toList ++ css)
  | "minify" => fun css _ => .ok (css.filter (· ≠ ' '))
  | "fail" => fun _ id => .error (.transformFailure ⟨id⟩ "unexpected token")
  | "failempty" => fun css id =>
    if css.isEmpty then .error (.transformFailure ⟨id⟩ "empty stylesheet") else .ok css
  | _ => .unchanged

def sourceTransform (description : List Char) : Path → List Char → Result (List Char) :=
  match splitDescription description with
  | ("prefix", x) => fun _ source => .ok (x ++ source)
  | ("replace", x) => fun _ _ => .ok x
  | ("fail", x) => fun path _ => .error (.transformFailure path (String.ofList x))
  | _ => fun _ source => .ok source

end LiveLoader.Scripted
