import LiveLoader.Lowering.Build
import LiveLoader.Lowering.Fresh
import LiveLoader.Lowering.Names

/-!
# Namespaces

A namespace becomes a function that is called at once with the object that holds what the namespace
exports. Only constants can be exported.
-/

namespace LiveLoader.Lowering

open Syntax

structure NamespaceState where
  fresh : Fresh
  errors : List String := []

abbrev Namespaced := StateM NamespaceState

namespace Namespace

/-- Where a statement stands: outside of namespaces, or in the one held by a parameter. -/
inductive Place where
  | outside
  | inside (holder : String)

def nonConstantMessage : String :=
  "Namespaces exporting non-const are not supported by Babel. Change to const or see: https://babeljs.io/docs/en/babel-plugin-transform-typescript"

def valueNames (n : Node) : List String :=
  let names := namesOf n
  names.block ++ names.function

/-- What leaves nothing behind in a namespace: directives and what stands for types alone. -/
def isIdle (n : Node) : Bool :=
  match n.form with
  | .directive _ | .typeDecl _ | .typeAlias | .moduleDecl _ => true
  | _ => false

def held (holder name : String) : Node := Build.member (Build.name holder) name

def keep (holder name : String) : Node := Build.assign (held holder name) (Build.name name)

/-- The variables that a namespace exports: each value is kept on its way, or all are kept behind
the declaration if some are taken apart. -/
def exportVariables (holder : String) (n : Node) : List Node :=
  let simple := n.children.all fun d => match d.children with
    | [p, _] => p.nameOf?.isSome
    | _ => false
  if simple then
    let ds := n.children.map fun d => match d with
      | .mk .declarator s [p, v] =>
        if v.isAbsent then d
        else .mk .declarator s [p, Build.assign (held holder (p.nameOf?.getD "")) v]
      | d => d
    [.mk n.form n.span ds]
  else
    let names := (namesOfAll n.children).pattern
    [n, Build.statement (.made .sequence (names.map (keep holder)))]

/-- What the object of a namespace is made of: itself if it exists, else a new one, which an
exported namespace also keeps in its holder. -/
def objectFor (name : String) (holder : Option String) : Node :=
  let new := match holder with
    | none => Build.emptyObject
    | some h => Build.either (held h name) (.made .paren [Build.assign (held h name) Build.emptyObject])
  Build.either (Build.name name) (.made .paren [Build.assign (Build.name name) new])

def statements (span : Span) (name : String) (parameter : String) (body : List Node)
    (declares isExported : Bool) (holder : Option String) : List Node :=
  let d := Build.declareAt .nowhere "let" name .absent
  let front :=
    if !declares then []
    else if isExported then [.made .exportDecl [d]] else [d]
  front ++ [Build.statementAt span
    (Build.call (Build.function parameter body) [objectFor name holder])]

/-- What an action needs to know of a namespace: where it stands, whether it is exported and whether
its name is declared before. -/
structure Site where
  place : Place
  isExported : Bool
  declaredBefore : Bool

def namespaceName? (n : Node) : Option String :=
  match n with
  | .mk (.moduleDecl _) _ (name :: _) => name.nameOf?
  | .mk .exportDecl _ [.mk (.moduleDecl _) _ (name :: _)] => name.nameOf?
  | _ => none

/-- Runs the actions of statements in order; each is told whether its name was declared before. -/
def inOrder (place : Place) (ns : List Node) (actions : List (Site → Namespaced (List Node))) :
    Namespaced (List Node) := do
  let results ← (ns.zip actions).mapIdxM fun i (n, action) =>
    let declaredBefore := match namespaceName? n with
      | some w => (ns.take i).any fun m => (valueNames m).contains w
      | none => false
    action ⟨place, false, declaredBefore⟩
  return results.flatten

def Site.holder (s : Site) : Option String :=
  match s.place with
  | .inside h => if s.isExported then some h else none
  | .outside => none

def isOutside (s : Site) : Bool := match s.place with | .outside => true | .inside _ => false

/-- A namespace that leaves nothing behind still declares its name. -/
def trace (n : Node) : Node :=
  match n with
  | .mk (.moduleDecl _) s (name :: body) => .mk (.moduleDecl true) s (name :: body)
  | n => n

/-- What a statement becomes at its site, given the same for its parts. -/
def step (n : Node) (parts : List (Site → Namespaced (List Node))) (site : Site) :
    Namespaced (List Node) := do
  match n.form, n.children, parts, site.place with
  | .moduleDecl declared, [name, body], [_, inside], _ =>
    match declared || body.isAbsent, name.nameOf? with
    | false, some w =>
      let s ← get
      let (parameter, fresh) := s.fresh.take w
      set { s with fresh }
      let nested := match body.form with | .moduleDecl _ => true | _ => false
      let ss ← inside ⟨.inside parameter, nested, false⟩
      if ss.all isIdle then return [trace n]
      return statements n.span w parameter ss (!site.declaredBefore)
        (site.isExported && isOutside site) site.holder
    | _, _ => return [trace n]
  | .block, ns, actions, .inside h => inOrder (.inside h) ns actions
  | .exportDecl, [d], [action], .inside h =>
    match d.form with
    | .moduleDecl _ => action { site with isExported := true }
    | .enumDecl declared =>
      match declared, d.children with
      | false, name :: _ => return [d, Build.statement (keep h (name.nameOf?.getD ""))]
      | _, _ => return []
    | .function info =>
      match info.declared, d.children with
      | false, name :: _ => return [d, Build.statement (keep h (name.nameOf?.getD ""))]
      | _, _ => return []
    | .classDef info =>
      match info.declared, d.children with
      | false, _ :: name :: _ => return [d, Build.statement (keep h (name.nameOf?.getD ""))]
      | _, _ => return []
    | .variable keyword declared =>
      if declared then return []
      if keyword ≠ "const" then
        modify fun s => { s with
          errors := s.errors ++ d.children.map fun _ => nonConstantMessage }
      return exportVariables h d
    | .importEquals false =>
      return [d, Build.statement (keep h ((d.children.head?.bind (·.nameOf?)).getD ""))]
    | .typeDecl _ | .typeAlias => return [d]
    | _ => return []
  | .exportDecl, [d], [action], .outside =>
    match d.form with
    | .moduleDecl _ => action { site with isExported := true }
    | _ => return [n]
  | .exportNamed _, _, _, .inside _ => return []
  | _, _, _, _ => return [n]

def lower (body : List Node) : Namespaced (List Node) :=
  inOrder .outside body (body.map (Node.fold step))

end Namespace

end LiveLoader.Lowering
