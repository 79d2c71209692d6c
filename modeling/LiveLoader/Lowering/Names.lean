import LiveLoader.Syntax.Node

/-!
# Names

Which names a piece of a program refers to from outside, and which it declares. Types are kept as
texts, so every name that is used stands for a value. What a name of another name refers to is used
only if that name is.
-/

namespace LiveLoader.Lowering

open Syntax

structure Names where
  /-- Names of values that are declared further out. -/
  used : List String := []
  block : List String := []
  function : List String := []
  /-- Names declared as types alone. -/
  types : List String := []
  /-- Names that stand for other names, with what those use. -/
  aliases : List (String × List String) := []
  pattern : List String := []
  /-- What is used by the defaults and computed keys of a pattern. -/
  inPattern : List String := []
  mentioned : List String := []
  deriving Repr, Inhabited

/-- Whether the body of a namespace holds more than types; a missing body may. -/
def holdsValues : Node → Bool :=
  Node.fold fun n parts => match n.form, n.children, parts with
    | .typeDecl _, _, _ | .typeAlias, _, _ | .importDecl _ _, _, _ | .importEquals _, _, _
    | .directive _, _, _ => false
    | .exportNamed _, specifiers :: _, _ => !specifiers.children.isEmpty
    | .moduleDecl _, _, [_, body] => body
    | .exportDecl, [d], [part] => part || match d.form with | .importEquals _ => true | _ => false
    | .block, _, ps => ps.any id
    | _, _, _ => true

namespace Names

def append (a b : Names) : Names :=
  ⟨a.used ++ b.used, a.block ++ b.block, a.function ++ b.function, a.types ++ b.types,
    a.aliases ++ b.aliases, a.pattern ++ b.pattern, a.inPattern ++ b.inPattern,
    a.mentioned ++ b.mentioned⟩

instance : Append Names := ⟨append⟩

def join (ns : List Names) : Names := ns.foldr (· ++ ·) {}

def without (declared used : List String) : List String := used.filter (!declared.contains ·)

/-- The names with what those among them use that stand for other names. -/
def reach : List (String × List String) → List String → List String
  | [], used => used
  | aliases, used =>
    let next (used : List String) : List String :=
      used ++ (aliases.filter fun a => used.contains a.1).flatMap (·.2)
    aliases.foldl (fun used _ => next used) used

def reached (n : Names) : List String := reach n.aliases n.used

/-- A scope of its own: what its parts declare is not seen outside. -/
def scope (declared : List String) (n : Names) : Names :=
  { used := without declared n.reached, mentioned := n.mentioned }

/-- A block: variables of the function go through it. -/
def closeBlock (n : Names) : Names :=
  { used := without n.block n.reached, function := n.function, mentioned := n.mentioned }

def asBinding (n : Names) : Names :=
  { used := n.inPattern, pattern := n.pattern, inPattern := n.inPattern, mentioned := n.mentioned }

/-- A key uses names only if it is computed. -/
def ofKey (key : Node) (n : Names) : Names :=
  match key.form with
  | .computed => { used := n.used, inPattern := n.used, mentioned := n.mentioned }
  | _ => {}

def uses (n : Names) : Names := { used := n.used, mentioned := n.mentioned }

/-- A use that is one also inside a pattern. -/
def value (n : Names) : Names := { used := n.used, inPattern := n.used, mentioned := n.mentioned }

def declare (name : Node) (n : Names) : Names :=
  match name.nameOf? with
  | some w => { n with block := w :: n.block, mentioned := w :: n.mentioned }
  | none => n

def asTypes (n : Names) : Names := { n with block := [], types := n.block ++ n.types }

/-- What stands for another name is seen from outside, so that the other name is used. -/
def exported (n : Names) : Names :=
  { n with used := n.used ++ n.aliases.flatMap (·.2), aliases := [] }

def step (n : Node) (parts : List Names) : Names :=
  match n.form, n.children, parts with
  | .identifier w, _, _ => { used := [w], pattern := [w], mentioned := [w] }
  | .property _, [key, _], [k, v] | .targetProperty _, [key, _], [k, v] => ofKey key k ++ uses v
  | .bindingProperty, [key, _], [k, v] => ofKey key k ++ v
  | .defaulted, _, [p, d] => p ++ value d
  | .objectPattern, _, ps | .arrayPattern, _, ps => asBinding (join ps)
  | .params, _, ps => join ps
  | .param _, _, [ds, p] => uses ds ++ asBinding p
  | .function info, [name, _, _], [_, params, body] =>
    let own := if info.place = .expression then name.nameOf?.toList else []
    let outer := scope (own ++ params.pattern ++ body.block ++ body.function)
      (uses params ++ body)
    if info.place = .declaration then declare name outer else outer
  | .arrow _, _, [params, body] =>
    scope (params.pattern ++ body.block ++ body.function) (uses params ++ body)
  | .classDef info, [_, name, _, _, _], [ds, _, superclass, _, members] =>
    let outer := scope name.nameOf?.toList (ds ++ superclass ++ members)
    if info.isDeclaration then declare name outer else outer
  | .method _ _, [_, key, _], [ds, k, f] => uses ds ++ uses (ofKey key k) ++ uses f
  | .field _, [_, key, _], [ds, k, v] => uses ds ++ uses (ofKey key k) ++ uses v
  | .staticBlock, _, ps => let b := join ps; scope (b.block ++ b.function) b
  | .declarator, _, [p, v] => asBinding p ++ uses v
  | .variable keyword _, _, ds =>
    let all := join ds
    if keyword = "var" then { used := all.used, function := all.pattern, mentioned := all.mentioned }
    else { used := all.used, block := all.pattern, mentioned := all.mentioned }
  | .block, _, ps | .switch, _, ps | .forLoop, _, ps | .forIn, _, ps | .forOf _, _, ps =>
    closeBlock (join ps)
  | .catchClause, _, [p, body] =>
    { scope p.pattern (asBinding p ++ body) with function := body.function }
  | .importDefault, [name], _ | .importNamespace, [name], _ => declare name {}
  | .importNamed typeOnly, [_, name], _ =>
    if typeOnly then asTypes (declare name {}) else declare name {}
  | .importDecl typeOnly _, _, specifiers :: _ =>
    if typeOnly then asTypes specifiers else specifiers
  | .importEquals typeOnly, [name, _], [_, target] =>
    let own := declare name { mentioned := target.mentioned }
    if typeOnly then asTypes own
    else { own with aliases := [(name.nameOf?.getD "", target.used)] }
  | .externalModule, _, _ | .exportAll _, _, _ | .attributes _, _, _ | .attribute, _, _ => {}
  | .exportSpecifier typeOnly, _, first :: _ => if typeOnly then {} else uses first
  | .exportNamed typeOnly, [_, source, _], specifiers :: _ =>
    if !typeOnly && source.isAbsent then uses specifiers else {}
  | .enumMember, _, [_, v] => uses v
  | .enumDecl _, name :: members, _ :: parts =>
    let keys := members.filterMap fun m => match m.children with
      | key :: _ => key.nameOf?
      | [] => none
    declare name (scope keys (join parts))
  | .moduleDecl _, [name, body], [_, inside] =>
    let own := declare name (scope (inside.block ++ inside.function) inside)
    if holdsValues body then own else asTypes own
  | .typeDecl w, _, _ => { types := [w], mentioned := [w] }
  | .typeAlias, name :: _, _ => asTypes (declare name {})
  | .exportDecl, _, ps => exported (join ps)
  | .list, _, ps | .functionBody, _, ps | .ifElse, _, ps | .labeled _, _, ps
  | .exportDefault, _, ps | .rest, _, ps | .whileLoop, _, ps | .doWhile, _, ps
  | .withObject, _, ps | .switchCase, _, ps | .tryBlock, _, ps => join ps
  | _, _, ps => uses (join ps)

end Names

def namesOf : Node → Names := Node.fold Names.step

def namesOfAll (ns : List Node) : Names := Names.join (ns.map namesOf)

end LiveLoader.Lowering
