import LiveLoader.Outline
import LiveLoader.Syntax.Parser

/-!
# Outlines of programs

The outline of a syntax tree has one node for each call and one for each class of the tree. It is
built on a visit of the tree that keeps a stack: the nodes found so far in each call or class that the
visit is in.
-/

namespace LiveLoader

namespace Syntax

/-- The name of a decorator that is a call of a plain name. -/
def decoratorName? : Node → Option String
  | .mk .decorator _ [.mk (.call _ _) _ (callee :: _)] => callee.nameOf?
  | _ => none

/-- What a call or a class becomes in the outline once it is known what is found in it; other nodes
do not show. A call has its callee in front, and a class its decorators. -/
def Node.outlined? : Node → Option (Outline → OutlineNode)
  | mk (.call _ _) _ parts => some (.call (parts.head?.bind calleeName?))
  | mk (.classDef info) _ parts =>
    some (.classDef info.isDeclaration ((parts.head?.elim [] children).map decoratorName?))
  | _ => none

/-- An outline that is being built. The top of the stack holds what was found in the innermost call
or class, the bottom what was found outside of all. -/
structure OutlineBuilder where
  stack : List Outline

namespace OutlineBuilder

def start : OutlineBuilder := ⟨[[]]⟩

/-- Adds a node to the top; on an empty stack it is dropped. -/
def push (b : OutlineBuilder) (node : OutlineNode) : OutlineBuilder :=
  match b.stack with
  | [] => b
  | found :: around => ⟨(found ++ [node]) :: around⟩

def enter (b : OutlineBuilder) : OutlineBuilder := ⟨[] :: b.stack⟩

/-- Takes the top off and adds the node that it becomes to what is below. -/
def leave (b : OutlineBuilder) (node : Outline → OutlineNode) : OutlineBuilder :=
  push ⟨b.stack.tail⟩ (node (b.stack.headD []))

def finish (b : OutlineBuilder) : Outline := b.stack.headD []

mutual

def visit : Node → OutlineBuilder → OutlineBuilder
  | .mk form span parts, b =>
    match (Node.mk form span parts).outlined? with
    | some node => (visitAll parts b.enter).leave node
    | none => visitAll parts b

def visitAll : List Node → OutlineBuilder → OutlineBuilder
  | [], b => b
  | n :: ns, b => visitAll ns (visit n b)

end

end OutlineBuilder

def Program.outline (p : Program) : Outline := (OutlineBuilder.visitAll p.body .start).finish

end Syntax

namespace Outline

open Syntax

def ofSource (d : Dialect) (source : List Char) : Outline := (read d source).program.outline

end Outline

def Classification.ofSource (d : Syntax.Dialect) (source : List Char) : Classification :=
  (Outline.ofSource d source).classify

end LiveLoader
