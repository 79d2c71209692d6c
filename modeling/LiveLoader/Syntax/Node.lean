import LiveLoader.Syntax.Operator

/-!
# Syntax trees

A tree has one kind of node. The form of a node says what it is and holds its own data; its parts
are the children, in the order in which they stand in the source. A part that was left out is an
`absent` node, so that each form has its parts at fixed places; types can stand beside them. Positions
count characters.
-/

namespace LiveLoader.Syntax

/-- The characters from `start` up to but not including `stop`. -/
structure Span where
  start : Nat
  stop : Nat
  deriving DecidableEq, Repr, Inhabited

namespace Span

/-- `s` lies inside `t`. -/
def Within (s t : Span) : Prop := t.start ≤ s.start ∧ s.stop ≤ t.stop

/-- `s` ends before `t` begins. -/
def Before (s t : Span) : Prop := s.stop ≤ t.start

instance (s t : Span) : Decidable (s.Within t) := inferInstanceAs (Decidable (_ ∧ _))
instance (s t : Span) : Decidable (s.Before t) := inferInstanceAs (Decidable (_ ≤ _))

/-- The place of a node that stands nowhere in the source. -/
def nowhere : Span := ⟨0, 0⟩

end Span

/-- A piece of a template: as written, and the characters it denotes if its escapes are valid. -/
structure TemplatePart where
  raw : String
  cooked : Option (List Nat)
  deriving Repr

inductive FunctionPlace where
  | declaration | expression | method
  deriving DecidableEq, Repr

/-- `declared` where it is for the type checker alone, `effectFree` where a comment says that calls have
no effect. -/
structure FunctionInfo where
  isAsync : Bool := false
  isGenerator : Bool := false
  place : FunctionPlace := .expression
  declared : Bool := false
  effectFree : Bool := false
  inParens : Bool := false
  deriving DecidableEq, Repr

structure ArrowInfo where
  isAsync : Bool := false
  effectFree : Bool := false
  inParens : Bool := false
  deriving DecidableEq, Repr

structure ClassInfo where
  isDeclaration : Bool
  declared : Bool := false
  isAbstract : Bool := false
  deriving DecidableEq, Repr

inductive PropertyKind where
  | init | shorthand | method | get | set
  deriving DecidableEq, Repr

inductive MethodKind where
  | method | get | set | constructor
  deriving DecidableEq, Repr

/-- What can stand before the name of a class member or a parameter. -/
structure Modifiers where
  accessibility : Option String := none
  declared : Bool := false
  isStatic : Bool := false
  isAbstract : Bool := false
  isOverride : Bool := false
  isReadonly : Bool := false
  isAccessor : Bool := false
  isOptional : Bool := false
  deriving DecidableEq, Repr

/-- A parameter with one of these is also a field. -/
def Modifiers.makesField (m : Modifiers) : Bool :=
  m.accessibility.isSome || m.isOverride || m.isReadonly

inductive TypedSyntax where
  | as | satisfies | nonNull | assertion | instantiation
  deriving DecidableEq, Repr

/-- The parts of a function are its name, its parameters and its body; the body of an arrow can be one
expression statement. Those of a class are its decorators, its name, its superclass, the types that it
implements and its members, and those of a member or a parameter its decorators, its key if it has one,
and what it holds. A loop has its beginning, its test, its update and its body; an import or export what
it names, its source and its attributes; an element its name, its attributes and its children. -/
inductive Form where
  | absent
  | list
  | identifier (name : String)
  | privateName (name : String)
  | number (value : Float)
  | bigInt (value : Nat)
  /-- The code points of a string; half of a surrogate pair is one too. -/
  | string (units : List Nat)
  | boolean (value : Bool)
  | null
  | this
  | super
  | regex (pattern : String) (flags : String)
  | template (parts : List TemplatePart)
  | metaProperty (text : String)
  | array
  | hole
  | spread
  | object
  | property (kind : PropertyKind)
  | computed
  | function (info : FunctionInfo)
  | arrow (info : ArrowInfo)
  | classDef (info : ClassInfo)
  | unary (op : UnaryOperator)
  | update (increment : Bool) (before : Bool)
  | binary (op : BinaryOperator)
  | conditional
  | assignment (mark : String)
  | sequence
  | member (name : String) (optional : Bool)
  | privateMember (name : String) (optional : Bool)
  | index (optional : Bool)
  | call (optional : Bool) (pure : Bool)
  | new (pure : Bool)
  | importCall (phase : Option String)
  | taggedTemplate
  | chain
  | paren
  | await
  | yield (delegate : Bool)
  | typed (how : TypedSyntax)
  | decorator
  | params
  | param (modifiers : Modifiers)
  | method (kind : MethodKind) (modifiers : Modifiers)
  | field (modifiers : Modifiers)
  | staticBlock
  | indexSignature
  | objectPattern
  | arrayPattern
  | bindingProperty
  | targetProperty (shorthand : Bool)
  | defaulted
  | rest
  | objectTarget
  | arrayTarget
  | directive (raw : String)
  | expressionStatement
  | empty
  | debugger
  | block
  | functionBody
  | variable (keyword : String) (declared : Bool)
  | declarator
  | ifElse
  | forLoop
  | forIn
  | forOf (isAwait : Bool)
  | whileLoop
  | doWhile
  | switch
  | switchCase
  | return
  | throw
  | break (label : Option String)
  | continue (label : Option String)
  | tryBlock
  | catchClause
  | labeled (label : String)
  | withObject
  | importDecl (typeOnly : Bool) (phase : Option String)
  | importDefault
  | importNamespace
  | importNamed (typeOnly : Bool)
  | attributes (word : String)
  | attribute
  | exportDecl
  | exportDefault
  | exportNamed (typeOnly : Bool)
  | exportSpecifier (typeOnly : Bool)
  | exportAll (typeOnly : Bool)
  /-- A type, with the expressions in it as its parts. -/
  | typeText (text : String)
  /-- Types that stand beside the parts of a node. -/
  | types
  | typeDecl (name : String)
  | typeAlias
  | enumDecl (declared : Bool)
  | enumMember
  | moduleDecl (declared : Bool)
  | importEquals (typeOnly : Bool)
  | externalModule
  | exportAssign
  | exportAsNamespace
  | jsxElement
  | jsxFragment
  | jsxTag (name : String)
  | jsxNamespaced (name : String)
  | jsxAttribute (name : String)
  | jsxSpreadAttribute
  | jsxText (raw : String)
  | jsxContainer
  | jsxSpreadChild
  deriving Repr, Inhabited

inductive Node where
  | mk (form : Form) (span : Span) (children : List Node)
  deriving Repr, Inhabited

namespace Node

def form : Node → Form | mk f _ _ => f
def span : Node → Span | mk _ s _ => s
def children : Node → List Node | mk _ _ cs => cs

@[simp] theorem form_mk (f : Form) (s : Span) (cs : List Node) : (mk f s cs).form = f := rfl
@[simp] theorem span_mk (f : Form) (s : Span) (cs : List Node) : (mk f s cs).span = s := rfl
@[simp] theorem children_mk (f : Form) (s : Span) (cs : List Node) : (mk f s cs).children = cs := rfl

/-- A part that was left out. -/
def absent : Node := mk .absent .nowhere []

def isAbsent (n : Node) : Bool := match n.form with | .absent => true | _ => false

/-- A node that stands nowhere in the source. -/
def made (f : Form) (cs : List Node) : Node := mk f .nowhere cs

def nameOf? (n : Node) : Option String := match n.form with | .identifier name => some name | _ => none

mutual

/-- Computes a value for each node from the node and the values of its children. -/
def fold (f : Node → List α → α) : Node → α
  | mk form span children => f (mk form span children) (foldList f children)

def foldList (f : Node → List α → α) : List Node → List α
  | [] => []
  | n :: ns => fold f n :: foldList f ns

end

theorem foldList_eq_map (f : Node → List α → α) (ns : List Node) :
    foldList f ns = ns.map (fold f) := by
  induction ns with
  | nil => rfl
  | cons n ns ih => simp [foldList, ih]

@[simp] theorem fold_mk (f : Node → List α → α) (form : Form) (span : Span) (cs : List Node) :
    fold f (mk form span cs) = f (mk form span cs) (cs.map (fold f)) := by
  simp [fold, foldList_eq_map]

mutual

/-- The node and all nodes below it, in source order. -/
def nodes : Node → List Node
  | mk form span children => mk form span children :: nodesOf children

def nodesOf : List Node → List Node
  | [] => []
  | n :: ns => nodes n ++ nodesOf ns

end

def isTypes (n : Node) : Bool := match n.form with | .types => true | _ => false

/-- The children but for the types that stand beside them. -/
def parts (n : Node) : List Node := n.children.filter (!·.isTypes)

mutual

/-- The tree without types beside the parts of nodes; other types are texts alone. -/
def withoutTypes : Node → Node
  | mk (.typeText text) span _ => mk (.typeText text) span []
  | mk form span children => mk form span (withoutTypesOf children)

def withoutTypesOf : List Node → List Node
  | [] => []
  | n :: ns => if n.isTypes then withoutTypesOf ns else withoutTypes n :: withoutTypesOf ns

end

/-- The expression inside any number of parentheses. -/
def bare : Node → Node
  | mk .paren _ [e] => bare e
  | n => n

/-- The name of a callee: a plain name or the property of a plain member. -/
def calleeName? (callee : Node) : Option String :=
  match callee.form with
  | .identifier name | .member name _ => some name
  | _ => none

end Node

/-- A comment, and how lines break around it. -/
structure Comment where
  text : String
  /-- Where the token starts that it belongs to. -/
  attachedTo : Option Nat
  isLine : Bool
  newlineBefore : Bool
  newlineAfter : Bool
  deriving Repr

structure Program where
  hashbang : Option String
  body : List Node
  comments : List Comment
  length : Nat
  isModule : Bool
  deriving Repr, Inhabited

end LiveLoader.Syntax
