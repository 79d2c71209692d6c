import LiveLoader.Classification

/-!
# Outlines

An outline keeps of a module its calls and its classes, nested as they are in the source. The
classification of a module depends on its outline alone.
-/

namespace LiveLoader

inductive OutlineNode where
  /-- A call; the callee is named when it is a plain name or a plain member. -/
  | call (callee : Option String) (children : List OutlineNode)
  /-- A class; a decorator is named when it is a call of a plain name. -/
  | classDef (declaration : Bool) (decorators : List (Option String)) (children : List OutlineNode)
  deriving Repr, Inhabited

abbrev Outline := List OutlineNode

namespace OutlineNode

def children : OutlineNode → List OutlineNode
  | call _ cs => cs
  | classDef _ _ cs => cs

mutual

def nodes : OutlineNode → List OutlineNode
  | n@(call _ cs) => n :: nodesOf cs
  | n@(classDef _ _ cs) => n :: nodesOf cs

/-- All nodes of a forest, each before the nodes below it. -/
def nodesOf : List OutlineNode → List OutlineNode
  | [] => []
  | n :: ns => nodes n ++ nodesOf ns

end

/-- The names that start an application begin with this. -/
def bootstrapName : String := "bootstrap"

def isBootstrapName (s : String) : Bool := bootstrapName.toList.isPrefixOf s.toList

/-- The decorators of the framework's building blocks. -/
def buildingBlocks : List String := ["Component", "Directive", "Pipe", "NgModule", "Injectable"]

def startsApplication : OutlineNode → Bool
  | call (some name) _ => isBootstrapName name
  | _ => false

def declaresBlock : OutlineNode → Bool
  | classDef true ds _ => ds.any fun d => d.any (· ∈ buildingBlocks)
  | _ => false

end OutlineNode

namespace Outline

/-- Takes up the nodes of a work list one by one, adding the children of each; a class that declares
a building block is remembered, a bootstrap call ends the search. -/
def search (fuel : Nat) (work : List OutlineNode) (found : Bool) : Classification :=
  match fuel, work with
  | _, [] | 0, _ => if found then .frameworkDecorated else .plainModule
  | fuel + 1, n :: work =>
    if n.startsApplication then .entryBootstrap
    else search fuel (n.children ++ work) (found || n.declaresBlock)

def classify (o : Outline) : Classification := search (OutlineNode.nodesOf o).length o false

end Outline

end LiveLoader
