import LiveLoader.Lowering.Build
import LiveLoader.Lowering.Constant
import LiveLoader.Lowering.Names

/-!
# Enumerations

An enumeration becomes a variable that holds an object. Members with a known value are written with
it, and each number also leads back to the name of its member.
-/

namespace LiveLoader.Lowering

open Syntax

def declaredInside (n : Node) : List String :=
  match n.form, n.children with
  | .function _, [name, params, body] =>
    let b := namesOf body
    name.nameOf?.toList ++ (namesOf params).pattern ++ b.block ++ b.function
  | .arrow _, [params, body] =>
    let b := namesOf body
    (namesOf params).pattern ++ b.block ++ b.function
  | .classDef _, _ :: name :: _ => name.nameOf?.toList
  | .catchClause, p :: _ => (namesOf p).pattern
  | .block, cs | .switch, cs | .forLoop, cs | .forIn, cs | .forOf _, cs | .staticBlock, cs =>
    (namesOfAll cs).block
  | _, _ => []

/-- Whether the name that a part of a node is stands as it is: a key that is not computed, what is
assigned to, the name of an element. -/
def isFixed (n : Node) (i : Nat) (part : Node) : Bool :=
  let isKey := match part.form with | .computed => false | _ => true
  let isName := part.bare.nameOf?.isSome
  match n.form with
  | .property _ | .bindingProperty => i = 0 && isKey
  | .targetProperty _ => if i = 0 then isKey else isName
  | .method _ _ | .field _ => i = 1 && isKey
  | .assignment _ | .update .. | .forIn | .forOf _ | .defaulted | .rest => i = 0 && isName
  | .arrayTarget => isName
  | .jsxElement => i = 0
  | _ => false

/-- A node with its free names among the members written as members of the enumeration. -/
def qualifyStep (enumeration : String) (n : Node) (parts : List (List String → Node))
    (members : List String) : Node :=
  let members := Names.without (declaredInside n) members
  let children := (n.children.zip parts).mapIdx fun i (child, part) =>
    if isFixed n i child then child else part members
  match n.form with
  | .identifier w => if members.contains w then Build.member (Build.name enumeration) w else n
  | form => .mk form n.span children

def qualify (enumeration : String) (members : List String) (n : Node) : Node :=
  n.fold (qualifyStep enumeration) members

def numberNode (x : Float) : Node :=
  let plain (y : Float) : Node :=
    if y.isInf then Build.name "Infinity"
    else if y.isNaN then Build.name "NaN"
    else .made (.number y) []
  if x < 0 then .made (.unary .minus) [plain (-x)] else plain x

def Constant.node : Constant → Node
  | number x => numberNode x
  | string us => .made (.string us) []

def Constant.float? : Constant → Option Float
  | number x => some x
  | string _ => none

structure MemberState where
  members : Members
  last : Option Float
  lastName : Option (List Nat)

/-- The value of a member as an expression, and what is known after it. -/
def memberValue (enums : Enumerations) (enumeration : String) (s : MemberState) (key : List Nat)
    (value lowered : Node) : Node × MemberState :=
  let name := textOfUnits key
  let known (c : Constant) : Node × MemberState :=
    (c.node, ⟨(name, some c) :: s.members, c.float?, some key⟩)
  let unknown (n : Node) : Node × MemberState :=
    (n, ⟨(name, none) :: s.members, none, some key⟩)
  if value.isAbsent then
    match s.last, s.lastName with
    | some x, _ => known (.number (x + 1.0))
    | none, some previous =>
      unknown (.made (.binary .add)
        [numberNode 1.0, Build.index (Build.name enumeration) (.made (.string previous) [])])
    | none, none => known (.number 0.0)
  else
    match constant? enums s.members value with
    | some c => known c
    | none => unknown (qualify enumeration (name :: s.members.map (·.1)) lowered)

def isText (value node : Node) : Bool :=
  match value.form, node.form with
  | .typed _, _ => false
  | _, .string _ | _, .template _ => true
  | _, _ => false

/-- The statement that sets a member, and the way back if its value is no string. -/
def memberStatement (enumeration : String) (place : Span) (key : List Nat) (value : Node)
    (onlyText : Bool) : Node :=
  let own := Build.name enumeration
  let keyNode := Node.made (.string key) []
  let set := Build.assign (Build.index own keyNode) value
  Build.statementAt place (if onlyText then set else Build.assign (Build.index own set) keyNode)

def keyUnits (key : Node) : List Nat :=
  match key.form with
  | .identifier w => unitsOfText w
  | .string us => Constant.heldUnits us
  | _ => []

/-- The statements of all members, and the members with their values. The lowered values stand
beside the members. -/
def memberStatements (enums : Enumerations) (enumeration : String) (members : List (Node × Node))
    (earlier : Members) : List Node × Members :=
  let (statements, s) := members.foldl (fun (acc, s) (m, lowered) =>
      match m.children with
      | [key, value] =>
        let us := keyUnits key
        let (node, s') := memberValue enums enumeration s us value lowered
        (memberStatement enumeration m.span us node (isText value node) :: acc, s')
      | _ => (acc, s))
    ([], (⟨earlier, some (-1.0), none⟩ : MemberState))
  (statements.reverse, s.members)

/-- A call or a new object may do something. -/
def mayAct (m : Node) : Bool :=
  match m.children with
  | [_, v] => match v.form with
    | .call .. | .new _ => true
    | _ => false
  | _ => false

/-- The place of an enumeration decides on how its variable is declared. -/
inductive EnumPlace where
  | top | nested | exported
  deriving DecidableEq

/-- The declaration that an enumeration becomes, and the enumerations known then. If its name was
declared before, `again`, that is what it adds to. -/
def lowerEnum (enums : Enumerations) (place : EnumPlace) (again : Bool) (span : Span)
    (enumeration : String) (members : List (Node × Node)) : Node × Enumerations :=
  let earlier := (enums.lookup enumeration).getD []
  let (statements, found) :=
    memberStatements ((enumeration, earlier) :: enums) enumeration members earlier
  let own := Build.name enumeration
  let isPure := !members.any (mayAct ·.1)
  let argument :=
    if place ≠ .top && !again then Build.emptyObject
    else Build.either own Build.emptyObject
  let value := Build.pureCall isPure
    (Build.functionAt span enumeration (statements ++ [Build.ret own])) [argument]
  let declaration :=
    if again then Build.statementAt span (Build.assign own value)
    else
      let keyword := if place = .top then "var" else "let"
      let d := Build.declareAt span keyword enumeration value
      if place = .exported then .mk .exportDecl span [d] else d
  (declaration, (enumeration, found) :: enums)

end LiveLoader.Lowering
