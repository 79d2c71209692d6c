import LiveLoader.Syntax.Grammar.Types

/-!
# Functions and classes

Functions with their bodies, and classes with their members.
-/

namespace LiveLoader.Syntax

/-- What holds inside a function. -/
def Mode.enterFunction (isAsync isGenerator : Bool) (m : Mode) : Mode :=
  { m with
    inFunction := true, inAwait := isAsync, inYield := isGenerator, allowIn := true
    inDecorator := false, conditionalTypes := true }

/-- What holds inside the value of a field and a static block. -/
def Mode.enterClassCode (m : Mode) : Mode :=
  { m.enterFunction false false with inFunction := false }

namespace Reader

variable (self : Rule → Reader Node)

/-- Parameters, return type and body of a function whose name is read. Typed dialects may leave the
body out, except where a value is expected. -/
def functionRest (info : FunctionInfo) (role : FunctionRole) (start : Nat) (name : Node) :
    Reader Node := do
  let (typeParams, params, type, body) ←
    within (Mode.enterFunction info.isAsync info.isGenerator) do
      let typeParams ← typeParameters? self
      let params ← parameters self role
      let type ← returnType self
      let body ← if ← atMark "\x7b" then self .functionBody else pure Node.absent
      return (typeParams, params, type, body)
  problemIf (role = .constructor && !type.isEmpty)
  if body.isAbsent then
    unless (← isTypescript) && info.place ≠ .expression && role ≠ .objectMethod do giveUp
    endStatement
  node (.function { info with declared := info.declared || body.isAbsent }) start
    (name :: typeParams ++ params :: type ++ [body])

/-- A function from its keyword on; `declared` where only its type is meant. -/
def functionFrom (start : Nat) (isAsync declared : Bool) (place : FunctionPlace)
    (needsName : Bool) : Reader Node := do
  expectWord "function"
  let isGenerator ← eatMark "*"
  let name ←
    if (← token).isName then
      if place = .expression then
        within ({ · with inAwait := isAsync, inYield := isGenerator }) bindingName
      else bindingName
    else
      problemIf needsName
      pure Node.absent
  let f ← functionRest self { isAsync, isGenerator, place, declared } .plain start name
  problemIf (declared && f.children.getLast?.any fun body => !body.isAbsent)
  return f

def methodFunction (isAsync isGenerator : Bool) (role : FunctionRole) : Reader Node := do
  functionRest self { isAsync, isGenerator, place := .method } role (← position) Node.absent

def parameterShape (function : Node) : Nat × Bool :=
  match function.parts with
  | [_, params, _] => (params.parts.length, params.parts.any isRestParameter)
  | _ => (0, false)

/-- What reads a property has no parameter, and what writes it has one. -/
def checkAccessor (kind : MethodKind) (function : Node) : Reader Unit :=
  match kind, parameterShape function with
  | .get, (n, _) => problemIf (n ≠ 0)
  | .set, (n, hasRest) => problemIf (n ≠ 1 || hasRest)
  | _, _ => pure ()

def memberKey : Reader Node := do
  let t ← token
  match t.lexeme with
  | .privateWord w =>
    problemIf (w == "constructor")
    advanceName
    return .mk (.privateName w) t.span []
  | _ => propertyKey self

/-- A key that is written as the name, or as a text of it. -/
def keyIs (name : String) (key : Node) : Bool :=
  match key.form with
  | .identifier w => w == name
  | .string us => us == unitsOfText name
  | _ => false

/-- A private name needs no words on access, and a class has its own `prototype`. -/
def checkMemberKey (ws : List String) (key : Node) : Reader Unit := do
  let isPrivate := match key.form with | .privateName _ => true | _ => false
  problemIf (isPrivate && (← isTypescript) && ws.any (· ∈ accessWords))
  problemIf ("static" ∈ ws && keyIs "prototype" key)

def methodWords : List String :=
  accessWords ++ ["abstract", "accessor", "async", "override", "static"]

def fieldModifierWords : List String :=
  accessWords ++ ["abstract", "declare", "override", "readonly", "static"]

def accessorFieldWords : List String :=
  accessWords ++ ["abstract", "accessor", "override", "static"]

def methodOf (start : Nat) (ds : Node) (ws : List String) (kind : MethodKind) (isOptional : Bool)
    (key function : Node) : Reader Node := do
  let hasBody := function.children.getLast?.any fun body => !body.isAbsent
  problemIf ("abstract" ∈ ws && hasBody)
  unless hasBody do forbidDecorators ds
  checkAccessor kind function
  let m := { Modifiers.ofWords ws isOptional with isAccessor := false }
  node (.method kind m) start [ds, key, function]

/-- What reads or writes a property, behind its word. -/
def classAccessor (start : Nat) (ds : Node) (ws : List String) (kind : MethodKind) :
    Reader Node := do
  let key ← memberKey self
  checkMemberKey ws key
  allowModifiers (methodWords.filter (· ≠ "async")) ws
  problemIf (!("static" ∈ ws) && keyIs "constructor" key)
  let f ← methodFunction self false false .method
  methodOf start ds ws kind false key f

def constructor? (start : Nat) (ds : Node) (ws : List String) : Reader (Option Node) := do
  if "static" ∈ ws then return none
  let t ← token
  let isNamed := match t.lexeme with
    | .word w _ => w == "constructor"
    | .string us => us == unitsOfText "constructor"
    | _ => false
  unless isNamed && (← nextIs (·.isMark "(")) do return none
  let key ← propertyKey self
  forbidDecorators ds
  allowModifiers accessWords ws
  let f ← methodFunction self false false .constructor
  return some (← methodOf start ds ws .constructor false key f)

def classField (start : Nat) (ds : Node) (ws : List String) (isOptional : Bool) (key : Node) :
    Reader Node := do
  let isAccessor : Bool := "accessor" ∈ ws
  allowModifiers (if isAccessor then accessorFieldWords else fieldModifierWords) ws
  problemIf (keyIs "constructor" key)
  let type ← typeAnnotation self
  let value ←
    if ← eatMark "=" then within Mode.enterClassCode (self (.assignment true))
    else pure Node.absent
  problemIf ("abstract" ∈ ws && !value.isAbsent)
  endStatement
  node (.field (.ofWords ws isOptional)) start (ds :: key :: type ++ [value])

/-- A method or a field behind its modifiers. -/
def methodOrField (start : Nat) (ds : Node) (ws : List String) : Reader Node := do
  let isGenerator ← eatMark "*"
  let key ← memberKey self
  checkMemberKey ws key
  let isOptional ← eatMark "?"
  if isGenerator || (← atMark "(") || (← atMark "<") then
    allowModifiers methodWords ws
    problemIf (!("static" ∈ ws) && keyIs "constructor" key)
    let f ← methodFunction self ("async" ∈ ws) isGenerator .method
    methodOf start ds ws .method isOptional key f
  else
    problemIf ((← eatMark "!") && isOptional)
    classField self start ds ws isOptional key

def staticBlock (start : Nat) : Reader Node := do
  advance
  expectMark "\x7b"
  let ss ← within (fun m => { m.enterClassCode with inAwait := true }) <| many do
    if ← atMark "\x7d" then return none else return some (← self (.statement false))
  expectMark "\x7d"
  node .staticBlock start ss

def classMember : Reader Node := do
  let start ← position
  let ds ← decorators self
  let ws ← modifiers true
  if (← atWord "static") && (← nextIs (·.isMark "\x7b")) then
    forbidDecorators ds
    allowModifiers [] ws
    return ← staticBlock self start
  if ((← atWord "get") || (← atWord "set")) && (← nextIs followsModifier) then
    let kind := if ← atWord "get" then MethodKind.get else MethodKind.set
    advance
    return ← classAccessor self start ds ws kind
  if let some c ← constructor? self start ds ws then return c
  if (← isTypescript) && (← beginsIndexSignature) then
    forbidDecorators ds
    allowModifiers ["readonly", "static"] ws
    let types ← indexSignature self
    return ← node .indexSignature start types
  methodOrField self start ds ws

def implementedTypes : Reader (List Node) := do
  let t ← self .type
  let ts ← many do
    if ← eatMark "," then return some (← self .type) else return none
  return t :: ts

/-- What a class extends, with its type arguments; more than one class is a problem. -/
def superclass : Reader (List Node) := do
  let one : Reader (List Node) := do
    let e ← within ({ · with inDecorator := false }) (self .leftHand)
    return e :: (← if ← isTypescript then typeArguments? self else pure [])
  let first ← one
  let _ ← many do
    if ← eatMark "," then
      problem
      return some (← one)
    else return none
  return first

/-- What a class extends and implements; each is said once, and in this order. -/
def heritage : Reader (List Node × Node) :=
  growing ([.absent], .absent) fun (parent, types) => do
    if ← eatWord "extends" then
      problemIf (parent.any (!·.isAbsent) || !types.isAbsent)
      return some (← superclass self, types)
    if ← eatWord "implements" then
      problemIf !types.isAbsent
      return some (parent, Node.made .list (← implementedTypes self))
    return none

/-- A class from its keyword on. -/
def classFrom (start : Nat) (ds : Node) (info : ClassInfo) : Reader Node := do
  expectWord "class"
  let name ←
    if (← token).isName && !(← atWord "implements") then bindingName else pure Node.absent
  let typeParams ← typeParameters? self
  let (parent, types) ← heritage self
  let bodyStart ← position
  expectMark "\x7b"
  let members ← within ({ · with inDecorator := false }) <| many do
    let _ ← many do
      if ← eatMark ";" then return some () else return none
    if ← atMark "\x7d" then return none else return some (← classMember self)
  expectMark "\x7d"
  let body ← node .list bodyStart members
  node (.classDef info) start (ds :: name :: typeParams ++ parent ++ [types, body])

end Reader

end LiveLoader.Syntax
