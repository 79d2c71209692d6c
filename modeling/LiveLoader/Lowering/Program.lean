import LiveLoader.Lowering.Erasure
import LiveLoader.Lowering.Markup
import LiveLoader.Lowering.Namespace
import LiveLoader.Syntax.Dialect

/-!
# Lowering programs

Turns a program of any dialect into plain script: namespaces, types, enumerations and markup are
written out, and imports and exports that only types used are left out. What cannot be written out
is answered with messages.
-/

namespace LiveLoader.Lowering

open Syntax

/-- Names that a program declares, as types alone and as values. -/
structure Declared where
  types : List String := []
  values : List String := []

namespace Declared

def append (a b : Declared) : Declared := ⟨a.types ++ b.types, a.values ++ b.values⟩

def names (isType : Bool) (ws : List String) : Declared :=
  if isType then { types := ws } else { values := ws }

def ofSpecifier (typeOnly : Bool) (n : Node) : Declared :=
  let isType := typeOnly || match n.form with | .importNamed t => t | _ => false
  names isType (n.children.getLast?.bind (·.nameOf?)).toList

def ofNode : Node → Declared
  | .mk .exportDecl _ [d] => ofNode d
  | .mk .exportDefault _ [d] => ofNode d
  | .mk (.typeDecl w) _ _ => { types := [w] }
  | .mk .typeAlias _ (name :: _) => { types := name.nameOf?.toList }
  | .mk (.importDecl typeOnly _) _ (specifiers :: _) =>
    specifiers.children.foldl (fun acc s => acc.append (ofSpecifier typeOnly s)) {}
  | .mk (.importEquals typeOnly) _ (name :: _) => names typeOnly name.nameOf?.toList
  | .mk (.variable k declared) s cs =>
    let n := namesOf (.mk (.variable k declared) s cs)
    names declared (n.block ++ n.function)
  | .mk (.function info) _ (name :: _) => names info.declared name.nameOf?.toList
  | .mk (.classDef info) _ (_ :: name :: _) => names info.declared name.nameOf?.toList
  | .mk (.enumDecl declared) _ (name :: _) => names declared name.nameOf?.toList
  | .mk (.moduleDecl declared) s cs =>
    match cs with
    | name :: _ =>
      names (declared || !holdsValues (.mk (.moduleDecl declared) s cs)) name.nameOf?.toList
    | [] => {}
  | _ => {}

def ofBody (body : List Node) : Declared := body.foldl (fun acc n => acc.append (ofNode n)) {}

/-- The name stands for a type and for nothing else. -/
def isType (d : Declared) (w : String) : Bool := d.types.contains w && !d.values.contains w

end Declared

structure Surroundings where
  used : List String
  declared : Declared
  inMarkup : List String

/-- What becomes of a statement that imports or exports. -/
inductive Kept where
  /-- It is left out, and the program may have to be marked as a module. -/
  | dropped
  | kept (statements : List Node)
  /-- It is, or becomes, an ordinary statement. -/
  | plain (statements : List Node)

/-- Whether the name that a specifier imports is needed. -/
def keepsImport (s : Surroundings) (n : Node) : Bool :=
  let typeOnly := match n.form with | .importNamed t => t | _ => false
  match n.children.getLast?.bind (·.nameOf?) with
  | some w => !typeOnly && (s.used.contains w || s.inMarkup.contains w)
  | none => false

def keepsExport (s : Surroundings) (isOwn : Bool) (n : Node) : Bool :=
  match n.form, n.children with
  | .exportSpecifier true, _ => false
  | _, name :: _ => !(isOwn && name.nameOf?.any s.declared.isType)
  | _, [] => false

def keptImport (s : Surroundings) (place : Span) (phase : Option String)
    (specifiers source attributes : Node) : Kept :=
  let stay (specifiers : Node) : Kept :=
    .kept [.mk (.importDecl false phase) place [specifiers, source, attributes]]
  if specifiers.isAbsent then stay specifiers
  else if specifiers.children.isEmpty then stay .absent
  else
    match specifiers.children.filter (keepsImport s) with
    | [] => .dropped
    | ns => stay (.made .list ns)

def keptExport (s : Surroundings) (place : Span) (specifiers source attributes : Node) : Kept :=
  let stay (ns : List Node) : Kept :=
    .kept [.mk (.exportNamed false) place [.made .list ns, source, attributes]]
  if specifiers.children.isEmpty then stay []
  else
    match specifiers.children.filter (keepsExport s source.isAbsent) with
    | [] => .dropped
    | ns => stay ns

def isExportForm (n : Node) : Bool :=
  match n.form with
  | .exportDecl | .exportDefault => true
  | _ => false

/-- What becomes of a statement of the program; `declared` are the names declared before it. -/
def keepStatement (s : Surroundings) (declared : List String) (n : Node) : Erasing Kept := do
  match n with
  | .mk (.importDecl typeOnly phase) place [specifiers, source, attributes] =>
    return if typeOnly then .dropped else keptImport s place phase specifiers source attributes
  | .mk (.exportNamed typeOnly) place [specifiers, source, attributes] =>
    return if typeOnly then .dropped else keptExport s place specifiers source attributes
  | .mk (.exportAll typeOnly) _ _ => return if typeOnly then .dropped else .kept [n]
  | .mk .exportAsNamespace _ _ => return .dropped
  | .mk .exportDefault _ [value] =>
    if value.nameOf?.any s.declared.isType then return .dropped
    match ← Erasure.statement s.used declared n with
    | [] => return .dropped
    | ns => return .kept ns
  | .mk .exportDecl _ _ =>
    match ← Erasure.statement s.used declared n with
    | [] => return .dropped
    | ns => return if ns.all isExportForm then .kept ns else .plain ns
  | n => return .plain (← Erasure.statement s.used declared n)

def markupNames (style : MarkupStyle) (body : List Node) : List String :=
  ((Node.nodesOf body).filterMap fun n => match n.form with
    | .jsxElement => some style.elementName
    | .jsxFragment => some style.fragmentName
    | _ => none).eraseDups

/-- A program keeps being a module although nothing is imported or exported any more. -/
def moduleMark : Node := .made (.exportNamed false) [Build.emptyList, .absent, .absent]

/-- The statements of a typed program in plain script, and whether it has to be marked. -/
def eraseTypes (body : List Node) (s : Surroundings) : List Node × Bool :=
  let kept :=
    ((body.mapIdxM fun i n => keepStatement s (Erasure.declaredBefore body i) n).run []).1
  let ns := kept.flatMap fun
    | .dropped => []
    | .kept ns | .plain ns => ns
  let dropped := kept.any fun | .dropped => true | _ => false
  let remains := kept.any fun | .kept _ => true | _ => false
  (ns, dropped && !remains)

def isImport (n : Node) : Bool := match n.form with | .importDecl .. => true | _ => false

/-- Puts statements behind the directives and imports that a program begins with. -/
def insertImports (new body : List Node) : List Node :=
  let rest := body.dropWhile Erasure.isDirective
  body.takeWhile Erasure.isDirective ++ rest.takeWhile isImport ++ new ++ rest.dropWhile isImport

/-- The program without types, whether it has to be marked as a module, and what remains to be known
of its names. -/
def lowerTypes (names : Names) (inMarkup : List String) (body : List Node) (fresh : Fresh) :
    (List Node × Bool) × NamespaceState :=
  let (lowered, s) := (Namespace.lower body).run { fresh }
  let used := names.reached ++ (namesOfAll lowered).reached
  (eraseTypes lowered ⟨used, .ofBody body, inMarkup⟩, s)

def lower (d : Dialect) (p : Program) : Except (List String) Program :=
  let p := { p with body := Node.withoutTypesOf p.body }
  let style : MarkupStyle := if d.jsx then .ofComments p.comments else {}
  let names := namesOfAll p.body
  let inMarkup := markupNames style p.body
  let fresh := Fresh.ofNames names.mentioned
  let ((body, marked), s) :=
    if d.typescript then lowerTypes names inMarkup p.body fresh else ((p.body, false), { fresh })
  let (body, m) :=
    if inMarkup.isEmpty then (body, { isModule := p.isModule, style, fresh })
    else (body.mapM Markup.lower).run { isModule := p.isModule, style, fresh := s.fresh }
  match style.problems ++ s.errors ++ m.errors with
  | [] =>
    let new := Markup.importStatements m
    let body := if marked && new.isEmpty then body ++ [moduleMark] else body
    .ok { p with body := if new.isEmpty then body else insertImports new body }
  | es => .error es

end LiveLoader.Lowering
