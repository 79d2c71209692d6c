import LiveLoader.Lowering.Enumeration
import LiveLoader.Lowering.Fresh

/-!
# Erasure

Takes everything out of a tree that stands for types alone, and writes out what typed script leaves
to its reader: enumerations, parameters that are fields, and imports by assignment.
-/

namespace LiveLoader.Lowering

open Syntax

abbrev Erasing := StateM Enumerations

namespace Erasure

structure Site where
  isTop : Bool
  isExported : Bool := false
  /-- Behind a label, where also what stands for types alone is kept. -/
  isLabeled : Bool := false
  used : List String := []
  declared : List String := []

/-- The modifiers that remain. -/
def plainModifiers (m : Modifiers) : Modifiers := { isStatic := m.isStatic }

def fieldName? (param : Node) : Option String :=
  match param with
  | .mk (.param m) _ [_, p] =>
    if m.makesField then
      match p with
      | .mk .defaulted _ [p, _] => p.nameOf?
      | p => p.nameOf?
    else none
  | _ => none

def fieldStatement (w : String) : Node :=
  Build.statement (Build.assign (Build.member (.made .this []) w) (Build.name w))

def isSuperCall (n : Node) : Bool :=
  match n with
  | .mk .expressionStatement _ [.mk (.call _ _) _ (callee :: _)] =>
    match callee.form with | .super => true | _ => false
  | _ => false

def isDirective (n : Node) : Bool := match n.form with | .directive _ => true | _ => false

/-- Fields are set right behind the call of the superclass, or first of all. -/
def insertFields (fields body : List Node) : List Node :=
  match body.findIdx? isSuperCall with
  | some i => body.take (i + 1) ++ fields ++ body.drop (i + 1)
  | none => body.takeWhile isDirective ++ fields ++ body.dropWhile isDirective

/-- A constructor's function with the fields that its parameters are. -/
def withFields (params : List Node) (function : Node) : Node :=
  match params.filterMap fieldName?, function with
  | [], f => f
  | names, .mk form s [name, ps, .mk bodyForm bodySpan body] =>
    .mk form s [name, ps, .mk bodyForm bodySpan (insertFields (names.map fieldStatement) body)]
  | _, f => f

def isDeclared (function : Node) : Bool :=
  match function.form with
  | .function info => info.declared
  | _ => false

def functionParams (function : Node) : List Node :=
  match function.children with
  | [_, params, _] => params.children
  | _ => []

def isTypedStatement (n : Node) : Bool :=
  match n.form with
  | .typeDecl _ | .typeAlias | .moduleDecl _ | .enumDecl _ | .variable _ true => true
  | .function info => info.declared
  | .classDef info => info.isDeclaration && (info.declared || info.isAbstract)
  | _ => false

/-- Branches and loops: parts that are single statements. -/
def isBranching (form : Form) : Bool :=
  match form with
  | .ifElse | .forLoop | .forIn | .forOf _ | .whileLoop | .doWhile => true
  | _ => false

def isLabeling (form : Form) : Bool :=
  match form with
  | .labeled _ | .withObject => true
  | _ => false

/-- Parts that do not make a scope of their own. -/
def staysTop (form : Form) : Bool :=
  match form with
  | .exportDecl | .exportDefault | .ifElse | .whileLoop | .doWhile | .withObject | .labeled _ => true
  | _ => false

def isAlias (n : Node) : Bool := match n.form with | .importEquals _ => true | _ => false

/-- The variable that an import by assignment becomes. -/
def aliasVariable (span : Span) (name target : Node) : Node :=
  let w := name.nameOf?.getD ""
  match target with
  | .mk .externalModule _ [source] =>
    Build.declareAt span "const" w (Build.call (Build.name "require") [source])
  | target => Build.declareAt span "var" w target

def declaresEnum : Node → Bool
  | .mk (.enumDecl _) _ _ => true
  | .mk .exportDecl _ [d] | .mk (.labeled _) _ [d] => declaresEnum d
  | _ => false

/-- All names that statements declare in their scope, those of types included. -/
def declaredBy (ns : List Node) : List String :=
  let names := namesOfAll ns
  names.block ++ names.function ++ names.types

/-- The names that are declared before the statement at `i`; only enumerations ask for them. -/
def declaredBefore (ns : List Node) (i : Nat) : List String :=
  if ns[i]?.any declaresEnum then declaredBy (ns.take i) else []

def partSite (n : Node) (site : Site) (i : Nat) : Site :=
  let inner : Site := { isTop := site.isTop && staysTop n.form }
  match n.form with
  | .functionBody =>
    { inner with
      used := if n.children.any isAlias then (namesOfAll n.children).reached else []
      declared := site.declared ++ declaredBefore n.children i }
  | .block => { inner with used := site.used, declared := declaredBefore n.children i }
  | .staticBlock => { inner with declared := declaredBefore n.children i }
  | .switchCase => { inner with declared := site.declared ++ declaredBefore n.children i }
  | .switch => { inner with declared := declaredBy (n.children.take i) }
  | .function _ | .arrow _ =>
    { inner with
      declared := (n.children.take i).flatMap fun p => match p.form with
        | .params => (namesOf p).pattern
        | _ => [] }
  | .exportDecl => { inner with isExported := true, used := site.used, declared := site.declared }
  | .labeled _ | .withObject => { inner with isLabeled := true, declared := site.declared }
  | _ => inner

/-- A branch that only typed programs have is empty, and an `else` before it is left out. -/
def emptyBranch (form : Form) (i : Nat) : Node :=
  match form, i with
  | .ifElse, 2 => .absent
  | _, _ => Build.emptyBlock

/-- What a node becomes at its site, given the same for its parts. -/
def step (n : Node) (parts : List (Site → Erasing (List Node))) (site : Site) :
    Erasing (List Node) := do
  let inner := partSite n site 0
  let children : Erasing (List Node) := do
    return (← (n.children.zip parts).mapIdxM fun i (child, part) => do
      if isBranching n.form && isTypedStatement child then return [emptyBranch n.form i]
      let ns ← part (partSite n site i)
      return if isBranching n.form || isLabeling n.form then [Build.single ns] else ns).flatten
  match n.form, n.children, parts with
  | .typeDecl _, _, _ | .typeAlias, _, _ | .moduleDecl _, _, _ =>
    if site.isLabeled then return [.mk n.form n.span (← children)] else return []
  | .indexSignature, _, _ | .exportAsNamespace, _, _ => return []
  | .typed _, _, _ => children
  | .function info, _, _ =>
    if info.declared && info.place ≠ .method && !site.isLabeled then return []
    else return [.mk n.form n.span (← children)]
  | .variable _ declared, _, _ =>
    if declared && !site.isLabeled then return [] else return [.mk n.form n.span (← children)]
  | .classDef info, [_, _, _, _, _], [ds, name, superclass, _, members] =>
    if info.declared && !site.isLabeled then return []
    let front := (← [ds, name, superclass].mapM fun p => p inner).flatten
    return [.mk (.classDef { info with isAbstract := false }) n.span
      (front ++ Node.absent :: (← members inner))]
  | .method kind m, [_, _, f], [ds, key, function] =>
    if m.isAbstract || isDeclared f then return []
    let front := (← [ds, key].mapM fun p => p inner).flatten
    match ← function inner with
    | [g] =>
      let g := if kind = .constructor then withFields (functionParams f) g else g
      return [.mk (.method kind (plainModifiers m)) n.span (front ++ [g])]
    | _ => return []
  | .field m, _, _ =>
    if m.isAbstract || m.declared then return []
    return [.mk (.field { plainModifiers m with isAccessor := m.isAccessor }) n.span (← children)]
  | .param _, _, _ => return [.mk (.param {}) n.span (← children)]
  | .list, _, _ => return [.mk .list n.span (← children)]
  | .enumDecl declared, name :: members, _ :: parts =>
    if declared then
      if site.isLabeled then return [n] else return []
    let enums ← get
    let place := if site.isExported then EnumPlace.exported else if site.isTop then .top else .nested
    let w := name.nameOf?.getD ""
    let again := site.declared.contains w
    set (lowerEnum enums place again n.span w (members.map fun m => (m, m))).2
    let lowered ← parts.mapM fun p => return Build.single (← p inner)
    let after ← get
    let (d, _) := lowerEnum enums place again n.span w
      (members.zip (lowered.map fun m => m.children.getLast?.getD .absent))
    set after
    return [d]
  | .exportDecl, _, [part] =>
    match ← part inner with
    | [] => return []
    | [d] =>
      match d.form with
      | .exportDecl => return [.mk .exportDecl n.span d.children]
      | .expressionStatement => return [.mk .expressionStatement n.span d.children]
      | _ => return [.mk .exportDecl n.span [d]]
    | ds => return ds
  | .exportDefault, _, [part] =>
    match ← part inner with
    | [d] => return [.mk .exportDefault n.span [d]]
    | _ => return []
  | .importEquals typeOnly, [name, target], _ =>
    let w := name.nameOf?.getD ""
    if typeOnly || !(site.isExported || site.used.contains w) then return []
    return [aliasVariable n.span name target]
  | .exportAssign, _, [part] =>
    return (← part inner).map fun e =>
      Build.statementAt n.span (Build.assign (Build.member (Build.name "module") "exports") e)
  | form, _, _ => return [.mk form n.span (← children)]

/-- The statements that a statement of the program becomes; `used` are the names used beside it and
`declared` those declared before it. -/
def statement (used declared : List String) (n : Node) : Erasing (List Node) :=
  n.fold step { isTop := true, used, declared }

end Erasure

end LiveLoader.Lowering
