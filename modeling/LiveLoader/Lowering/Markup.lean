import LiveLoader.Lowering.Entity
import LiveLoader.Lowering.Fresh
import LiveLoader.Lowering.Pragma
import LiveLoader.Text.Identifier

/-!
# Markup

An element becomes a call of the runtime's functions: its name, an object with its attributes and
children, and its key. What the calls need is imported, or required where there are no imports. In
the classic style it becomes a call of one function that takes the children as arguments.
-/

namespace LiveLoader.Lowering

open Syntax

/-- What a program with markup takes functions from. -/
inductive Provider where
  | runtime | library
  deriving DecidableEq, Repr

/-- A name taken from a module: the module, the name there, the name here. -/
structure Import where
  provider : Provider
  imported : String
  localName : String
  deriving DecidableEq, Repr

structure MarkupState where
  isModule : Bool
  style : MarkupStyle
  fresh : Fresh
  imports : List Import := []
  errors : List String := []

abbrev Markup := StateM MarkupState

namespace Markup

/-- The source of what is imported. -/
def sourceText (style : MarkupStyle) (p : Provider) : String :=
  let library := style.source.getD "react"
  match p with
  | .runtime => library ++ "/jsx-runtime"
  | .library => library

def variableName : Provider → String
  | .runtime => "reactJsxRuntime"
  | .library => "react"

def fail (message : String) : Markup Unit :=
  modify fun s => { s with errors := s.errors ++ [message] }

def takeFresh (name : String) : Markup String := do
  let s ← get
  let (w, fresh) := s.fresh.take name
  set { s with fresh }
  return w

/-- Adds an import; the library goes before what a script requires. -/
def addImport (i : Import) : Markup Unit :=
  modify fun s => { s with
    imports := if !s.isModule && i.provider = .library then i :: s.imports else s.imports ++ [i] }

/-- A reference to a name of a module. -/
def reference (provider : Provider) (imported : String) : Markup Node := do
  let s ← get
  if s.isModule then
    match s.imports.find? fun i => i.provider = provider && i.imported = imported with
    | some i => return Build.name i.localName
    | none =>
      let w ← takeFresh imported
      addImport ⟨provider, imported, w⟩
      return Build.name w
  else
    match s.imports.find? (·.provider = provider) with
    | some i => return Build.member (Build.name i.localName) imported
    | none =>
      let w ← takeFresh (variableName provider)
      addImport ⟨provider, "", w⟩
      return Build.member (Build.name w) imported

def isLineBlank (c : Char) : Bool :=
  let n := c.toNat
  n = 0x20 || n = 9 || n = 0xB || n = 0xC || n = 0xA0 || n = 0x85 || n = 0x1680
    || (0x2000 ≤ n && n ≤ 0x200B) || n = 0x202F || n = 0x205F || n = 0x3000 || n = 0xFEFF

def splitLines : List Char → List (List Char)
  | [] => [[]]
  | c :: r =>
    if isLineEnd c then [] :: splitLines r
    else match splitLines r with
      | [] => [[c]]
      | l :: ls => (c :: l) :: ls

def dropBack (s : List Char) : List Char := (s.reverse.dropWhile isLineBlank).reverse

/-- The lines of a text without the blanks around line ends; blank lines are left out, and a text
on one line keeps all its blanks. -/
def contentLines (text : List Char) : List (List Char) :=
  match splitLines text with
  | [] => []
  | [line] => [line]
  | first :: rest =>
    let last := rest.getLast?.getD []
    let inner := rest.dropLast
    let lines := dropBack first :: inner.map (fun l => dropBack (l.dropWhile isLineBlank))
    let lines := lines.filter (!·.isEmpty)
    let last := last.dropWhile isLineBlank
    lines ++ if last.isEmpty then [] else [last]

/-- The text of a child; `none` if only blanks and line ends stand there. -/
def childText? (raw : String) : Option String :=
  match contentLines raw.toList with
  | [] => none
  | lines => some (String.ofList ([' '].intercalate (lines.map Entity.decode)))

def isKey (n : Node) : Bool :=
  match n.form with | .jsxAttribute w => w = "key" | _ => false

def isSpread (n : Node) : Bool :=
  match n.form with | .jsxSpreadAttribute => true | _ => false

/-- A spread stands somewhere before a key. -/
def keyAfterSpread : List Node → Bool
  | [] => false
  | a :: r => (isSpread a && r.any isKey) || keyAfterSpread r

def namespaceMessage : String :=
  "Namespace tags are not supported by default. React's JSX doesn't have namespace tags."
def keyMessage : String :=
  "Please provide an explicit key value. Using \"key\" as a shorthand for \"key=\x7btrue\x7d\" is not allowed."

def elementName (n : Node) : Markup Node := do
  match n.form with
  | .jsxTag w => return Build.text w
  | .jsxNamespaced w =>
    fail namespaceMessage
    return Build.text w
  | _ => return n

def attributeKey (w : String) : Node :=
  if w.toList.any fun c => c = '-' || c = ':' then Build.text w else Build.name w

/-- An object that may set its prototype is not taken apart. -/
def setsPrototype (e : Node) : Bool :=
  match e.form with
  | .object => e.children.any fun p => match p with
    | .mk (.property kind) _ (key :: _) => kind ≠ .shorthand && match key.form with
      | .identifier w => w = "__proto__"
      | .string us => us = unitsOfText "__proto__"
      | _ => false
    | _ => false
  | _ => false

/-- The properties that a spread of an expression gives. -/
def spreadProperties (e : Node) : List Node :=
  match e.form with
  | .object => if setsPrototype e then [.made .spread [e]] else e.children
  | _ => [.made .spread [e]]

/-- A key among the other properties. -/
def keyProperty (n : Node) : Node :=
  match n with
  | .mk (.jsxAttribute w) _ [v] => Build.property (attributeKey w) v
  | n => n

/-- The call of a runtime's function: the name of the element, its properties with its children among
them, and its key. -/
def runtimeCall (name : Node) (properties children : List Node) (key : Option Node) :
    Markup Node := do
  let held := match children with
    | [] => []
    | [c] => [Build.property (Build.name "children") c]
    | cs => [Build.property (Build.name "children") (.made .array cs)]
  let callee ← reference .runtime (if children.length > 1 then "jsxs" else "jsx")
  return Build.pureCall true callee ([name, .made .object (properties ++ held)] ++ key.toList)

/-- The call of the one function of the classic style: the name of the element, its properties and its
children. Elsewhere that function is imported. -/
def classicCall (name properties : Node) (children : List Node) : Markup Node := do
  let style := (← get).style
  let callee ←
    if style.isClassic then pure (MarkupStyle.pathNode style.elementPath)
    else reference .library "createElement"
  return Build.pureCall true callee ([name, properties] ++ children)

/-- All properties in one object; a single spread needs none. -/
def classicProperties (attributes properties : List Node) : Node :=
  match attributes with
  | [] => .made .null []
  | [.mk .jsxSpreadAttribute _ [e]] => if setsPrototype e then .made .object properties else e
  | _ => .made .object properties

/-- What a part of markup becomes: the values of a child, the properties of an attribute. -/
def step (n : Node) (parts : List (Markup (List Node))) : Markup (List Node) := do
  match n.form, n.children, parts with
  | .jsxText raw, _, _ => return (childText? raw).toList.map Build.text
  | .jsxContainer, [e], _ => return if e.isAbsent then [] else [e]
  | .jsxSpreadChild, [e], _ => return [.made .array [.made .spread [e]]]
  | .jsxAttribute w, [value], [part] =>
    let v ← match value.form with
      | .jsxText raw => pure [Build.text (String.ofList (Entity.decode raw.toList))]
      | .absent => pure [.made (.boolean true) []]
      | _ => part
    let v := v.headD .absent
    if w = "key" then
      if value.isAbsent then fail keyMessage
      return [.made (.jsxAttribute w) [v]]
    else return [Build.property (attributeKey w) v]
  | .jsxSpreadAttribute, [e], _ => return spreadProperties e
  | .list, _, parts => return (← parts.mapM id).flatten
  | .jsxElement, [name, attributes, _], [_, properties, children] =>
    let name ← elementName name
    let all ← properties
    let cs ← children
    if (← get).style.isClassic || keyAfterSpread attributes.children then
      return [← classicCall name (classicProperties attributes.children (all.map keyProperty)) cs]
    else
      let (keys, rest) := all.partition isKey
      return [← runtimeCall name rest cs (keys.getLast?.bind (·.children.head?))]
  | .jsxFragment, _, parts =>
    let cs := (← parts.mapM id).flatten
    let style := (← get).style
    if style.isClassic then
      return [← classicCall (MarkupStyle.pathNode style.fragmentPath) (.made .null []) cs]
    else return [← runtimeCall (← reference .runtime "Fragment") [] cs none]
  | _, _, _ => return [n]

def isElement (n : Node) : Bool :=
  match n.form with | .jsxElement | .jsxFragment => true | _ => false

/-- The call that an element becomes; its expressions are lowered before. -/
def element (n : Node) : Markup Node := do
  return (← n.fold step).headD .absent

/-- Lowers the markup in a tree, the expressions inside markup first. -/
def lowerStep (n : Node) (parts : List (Markup Node)) : Markup Node := do
  let holdsMarkup := match n.form with
    | .jsxElement | .jsxFragment | .jsxAttribute _ | .list => true
    | _ => false
  let children ← parts.mapM fun part => do
    let c ← part
    if !holdsMarkup && isElement c then element c else return c
  return .mk n.form n.span children

def lower (n : Node) : Markup Node := n.fold lowerStep

def importStatement (source : String) (names : List Import) : Node :=
  .made (.importDecl false none)
    [.made .list (names.map fun i =>
        .made (.importNamed false) [Build.name i.imported, Build.name i.localName]),
      Build.text source, .absent]

def requireStatement (source : String) (i : Import) : Node :=
  Build.declareAt .nowhere "var" i.localName (Build.call (Build.name "require") [Build.text source])

def importStatements (s : MarkupState) : List Node :=
  if s.isModule then
    (s.imports.map (·.provider)).eraseDups.map fun p =>
      importStatement (sourceText s.style p) (s.imports.filter (·.provider = p))
  else s.imports.map fun i => requireStatement (sourceText s.style i.provider) i

end Markup

end LiveLoader.Lowering
