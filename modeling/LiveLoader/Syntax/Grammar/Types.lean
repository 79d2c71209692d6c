import LiveLoader.Syntax.Grammar.Parameters

/-!
# Types

Types are read so that what follows them is found. Of their structure their text is kept, and the
expressions in them: each reader gives the trees of what it went through, in their order.
-/

namespace LiveLoader.Syntax.Reader

variable (self : Rule → Reader Node)

def readType : Reader (List Node) := do
  return [← within ({ · with conditionalTypes := true }) (self .type)]

/-- The type that an expression is cast to; `const` is one. -/
def castType : Reader (List Node) := types do
  if ← atWord "const" then
    advance
    return []
  else readType self

def entityName : Reader Unit := do
  let _ ← propertyWord
  let _ ← many do
    if ← eatMark "." then
      let _ ← propertyWord
      return some ()
    else return none

/-- Splits marks that begin with an opening angle. -/
def splitAngle : Reader Unit := do
  if (← atMark "<<") || (← atMark "<=") || (← atMark "<<=") then
    reread fun s => (.mark "<", true, s.drop 1)

/-- Types between angles. -/
def typeArguments : Reader (List Node) := types do
  splitAngle
  expectMark "<"
  let ts ← commaList ">" (readType self)
  problemIf ts.isEmpty
  expectMark ">"
  return ts.flatten

def typeArguments? : Reader (List Node) := do
  splitAngle
  if ← atMark "<" then typeArguments self else return []

def typeArgumentsHere? : Reader (List Node) := do
  if (← token).newlineBefore then return [] else typeArguments? self

/-- A type behind a word or mark that was taken, or nothing. -/
def typeIf (found : Bool) : Reader (List Node) := do
  if found then readType self else return []

def typeParameters : Reader (List Node) := types do
  expectMark "<"
  let ps ← commaList ">" do
    let ws ← modifiers true
    allowModifiers ["const", "in", "out"] ws
    let _ ← bindingName
    let bound ← typeIf self (← eatWord "extends")
    let default ← typeIf self (← eatMark "=")
    return bound ++ default
  problemIf ps.isEmpty
  expectMark ">"
  return ps.flatten

def typeParameters? : Reader (List Node) := do
  if (← isTypescript) && (← atMark "<") then typeParameters self else return []

/-- A predicate `x is T`, or a type. -/
def predicateOrType : Reader Node := do
  if (← token).isPlainName && (← nextIs fun t => t.isWord "is" && !t.newlineBefore) then
    advanceName
    advance
  self .type

def returnType : Reader (List Node) := do
  if (← isTypescript) && (← eatMark ":") then
    types do return [← within ({ · with conditionalTypes := true }) (predicateOrType self)]
  else return []

def skipParameterStart : Reader Bool := do
  let _ ← modifiers false
  let t ← token
  if t.isPlainName || t.isWord "this" then
    advanceName
    return true
  else if t.isMark "[" || t.isMark "\x7b" then
    let before := (← get).problems
    let _ ← self .binding
    return (← get).problems = before
  else return false

/-- What makes a parenthesis begin a function type. -/
def beginsFunctionType : Reader Bool := aheadHolds do
  advance
  let t ← token
  if t.isMark ")" || t.isMark "..." then return true
  if ← skipParameterStart self then
    let t ← token
    if t.isMark ":" || t.isMark "," || t.isMark "?" || t.isMark "=" then return true
    if ← eatMark ")" then return ← atMark "=>"
  return false

/-- The parameters and the result of a function type. -/
def functionTypeRest : Reader (List Node) := do
  let typeParams ← typeParameters? self
  let params ← parameters self .signature
  expectMark "=>"
  let result ← predicateOrType self
  return typeParams ++ [params, result]

def functionType? : Reader (Option (List Node)) := do
  if (← atMark "<") || ((← atMark "(") && (← beginsFunctionType self)) then
    return some (← functionTypeRest self)
  if (← atWord "new") || ((← atWord "abstract") && (← nextIs (·.isWord "new"))) then
    let _ ← eatWord "abstract"
    advance
    return some (← functionTypeRest self)
  return none

/-- A comma or a semicolon behind a member of an object type; both may be missing. -/
def endMember : Reader Unit := do
  unless ← eatMark "," do
    let _ ← eatMark ";"

def callSignature : Reader (List Node) := do
  let typeParams ← typeParameters? self
  let params ← parameters self .signature
  let result ← returnType self
  return typeParams ++ params :: result

/-- Whether a bracket begins an index signature. -/
def beginsIndexSignature : Reader Bool := do
  unless ← atMark "[" do return false
  aheadHolds do
    advance
    let t ← token
    if t.isMark "..." || t.isMark "]" then return true
    match t.word? with
    | some w =>
      if w ∈ modifierWords then
        advanceName
        if (← token).isName then return true
      else if t.isName then advanceName
      else return false
    | none => return false
    if (← atMark ":") || (← atMark ",") then return true
    unless ← eatMark "?" do return false
    return (← atMark ":") || (← atMark ",") || (← atMark "]")

/-- An index signature from its bracket on: one typed name, and a type behind it. -/
def indexSignature : Reader (List Node) := do
  expectMark "["
  let ps ← commaList "]" do
    let _ ← propertyWord
    unless ← atMark ":" do giveUp
    typeAnnotation self
  problemIf (ps.length ≠ 1)
  expectMark "]"
  let type ← typeAnnotation self
  problemIf type.isEmpty
  endMember
  return ps.flatten ++ type

def namedMember : Reader (List Node) := do
  let isAccessor ← do
    if ((← atWord "get") || (← atWord "set")) && (← nextIs followsModifier) then
      advance
      pure true
    else pure false
  let key ← propertyKey self
  if isAccessor then return key :: (← callSignature self)
  let _ ← eatMark "?"
  if (← atMark "(") || (← atMark "<") then return key :: (← callSignature self)
  return key :: (← typeAnnotation self)

def objectMember : Reader (List Node) := do
  if (← atMark "(") || (← atMark "<") then
    let parts ← callSignature self
    endMember
    return parts
  if (← atWord "new") && (← nextIs fun t => t.isMark "(" || t.isMark "<") then
    advance
    let parts ← callSignature self
    endMember
    return parts
  let ws ← modifiers false
  allowModifiers ["readonly"] ws
  if ← beginsIndexSignature then return ← indexSignature self
  let parts ← namedMember self
  endMember
  return parts

def objectTypeBody : Reader (List Node) := do
  expectMark "\x7b"
  let members ← many do
    if ← atMark "\x7d" then return none
    return some (← objectMember self)
  expectMark "\x7d"
  return members.flatten

/-- Whether a brace begins a mapped type. -/
def beginsMappedType : Reader Bool := aheadHolds do
  advance
  if (← eatMark "+") || (← eatMark "-") then return ← atWord "readonly"
  let _ ← eatWord "readonly"
  expectMark "["
  let _ ← propertyWord
  atWord "in"

def mappedType : Reader (List Node) := do
  expectMark "\x7b"
  if (← eatMark "+") || (← eatMark "-") then expectWord "readonly" else
    let _ ← eatWord "readonly"
  expectMark "["
  let _ ← propertyWord
  expectWord "in"
  let keys ← readType self
  let name ← typeIf self (← eatWord "as")
  expectMark "]"
  if (← eatMark "+") || (← eatMark "-") then expectMark "?" else
    let _ ← eatMark "?"
  let type ← typeAnnotation self
  let _ ← eatMark ";"
  expectMark "\x7d"
  return keys ++ name ++ type

def opensType (t : Token) : Bool :=
  match t.lexeme with
  | .string _ | .number _ | .bigInt _ | .template .. => true
  | .mark m => m ∈ ["\x7b", "[", "<", "|", "&", "*", "?", "!", "..."]
  | .word w _ =>
    t.isPlainName
      || w ∈ ["void", "null", "this", "typeof", "new", "true", "false", "import", "function"]
  | _ => false

def beginsType : Reader Bool := do
  if ← atMark "-" then nextIs (·.isNumber)
  else if ← atMark "(" then
    nextIs fun t => opensType t || t.isMark ")" || t.isMark "@" || t.isMark "(" || t.isMark "-"
      || t.word?.any (· ∈ modifierWords)
      || (match t.lexeme with | .privateWord _ => true | _ => false)
  else return opensType (← token)

/-- An element of a tuple type, with its name if it has one. -/
def tupleElement : Reader (List Node) := do
  let named ← aheadHolds do
    let _ ← eatMark "..."
    let _ ← propertyWord
    if ← eatMark ":" then return true
    return (← eatMark "?") && (← atMark ":")
  if named then
    let isRest ← eatMark "..."
    let _ ← propertyWord
    problemIf ((← eatMark "?") && isRest)
    expectMark ":"
  let _ ← eatMark "..."
  readType self

def templateTypeRest : Reader (List Node) := do
  let substitution : Reader (List Node) := do
    let type ← readType self
    unless ← atMark "\x7d" do giveUp
    reread fun s => (templatePiece? (s.drop 1)).getD (.invalid, true, s.drop 1)
    return type
  let groups ← many do
    match (← token).lexeme with
    | .template _ true => return none
    | .template _ false =>
      advance
      return some (← substitution)
    | _ => giveUp
  advance
  return groups.flatten

/-- How a module is to be found whose types are imported, if it is said. -/
def importOptions : Reader (List Node) := do
  unless ← eatMark "," do return []
  unless ← atMark "\x7b" do return []
  let e ← initializer self
  let _ ← eatMark ","
  return [e]

def importType : Reader (List Node) := do
  advance
  expectMark "("
  let _ ← stringLiteral
  let options ← importOptions self
  expectMark ")"
  if ← eatMark "." then entityName
  return options ++ (← typeArgumentsHere? self)

def typeReference : Reader (List Node) := do
  entityName
  typeArgumentsHere? self

def typeQuery : Reader (List Node) := do
  advance
  if ← atWord "import" then importType self else typeReference self

/-- What a predicate says that a value is, if it says so. -/
def predicateType (found : Bool) : Reader (List Node) := do
  if found then
    advance
    return [← self .type]
  else return []

/-- A type that a word begins. -/
def wordType (w : String) : Reader (List Node) := do
  if w == "typeof" then typeQuery self
  else if w == "import" then importType self
  else if w == "this" then
    advance
    predicateType self ((← atWord "is") && !(← token).newlineBefore)
  else if w == "null" || w == "true" || w == "false" || w == "void" then
    advance
    return []
  else if w == "asserts"
      && (← nextIs fun t => (t.isPlainName || t.isWord "this") && !t.newlineBefore) then
    advance
    advanceName
    predicateType self (← atWord "is")
  else typeReference self

/-- What a question mark stands before, if anything follows it. -/
def questionedType : Reader (List Node) := do
  let t ← token
  if t.isMark "," || t.isMark "\x7d" || t.isMark ")" || t.isMark ">" || t.isMark "=" || t.isMark "|"
  then return []
  else return [← self .type]

/-- A type without operators; says whether it is a tuple. -/
def primaryType : Reader (Bool × List Node) := do
  let t ← token
  match t.lexeme with
  | .mark "(" =>
    advance
    let type ← readType self
    expectMark ")"
    return (false, type)
  | .mark "\x7b" =>
    return (false, ← if ← beginsMappedType then mappedType self else objectTypeBody self)
  | .mark "[" =>
    advance
    let es ← commaList "]" (tupleElement self)
    expectMark "]"
    return (true, es.flatten)
  | .mark "-" =>
    advance
    unless (← token).isNumber do giveUp
    advance
    return (false, [])
  | .mark "?" =>
    advance
    return (false, ← questionedType self)
  | .mark "!" =>
    advance
    return (false, [← self .typeOperand])
  | .string _ | .number _ | .bigInt _ | .template _ true =>
    advance
    return (false, [])
  | .template _ false => return (false, ← templateTypeRest self)
  | .word w _ => return (false, ← wordType self w)
  | _ => giveUp

/-- Arrays, indexed types and marks behind a primary type; says whether it is a list in the end. -/
def postfixType : Reader (Bool × List Node) := do
  let first ← primaryType self
  growing first fun (_, parts) => do
    if (← token).newlineBefore then return none
    if ← eatMark "!" then return some (false, parts)
    if ← atMark "?" then
      let isTest ← aheadHolds do
        advance
        beginsType
      if isTest then return none
      advance
      return some (false, parts)
    unless ← eatMark "[" do return none
    if ← beginsType then
      let index ← readType self
      expectMark "]"
      return some (false, parts ++ index)
    else
      expectMark "]"
      return some (true, parts)

/-- The constraint of an inferred type, unless it is the test of a conditional type. -/
def inferConstraint : Reader (List Node) := do
  if ← atWord "extends" then
    let allowed := (← mode).conditionalTypes
    let found ← attempt do
      advance
      let type ← within ({ · with conditionalTypes := false }) (self .type)
      if allowed && (← atMark "?") then giveUp
      return type
    return found.toList
  else return []

/-- A type with prefix operators; an array node stands for a list. -/
def typeOperandRule : Reader Node := do
  let start ← position
  if (← atWord "keyof") || (← atWord "unique") || (← atWord "readonly") then
    let needsList ← atWord "readonly"
    advance
    let operand ← self .typeOperand
    problemIf (needsList && match operand.form with | .array => false | _ => true)
    node .list start [operand]
  else if ← atWord "infer" then
    advance
    let _ ← bindingName
    let bound ← inferConstraint self
    node .list start bound
  else
    let (isList, parts) ← within ({ · with conditionalTypes := true }) (postfixType self)
    node (if isList then .array else .list) start parts

/-- Operands between marks; the mark may also stand first. -/
def separatedTypes (mark : String) (operand : Reader (List Node)) : Reader (List Node) := do
  let _ ← eatMark mark
  let first ← operand
  let rest ← many do
    if ← eatMark mark then return some (← operand) else return none
  return first ++ rest.flatten

def unionType : Reader (List Node) :=
  separatedTypes "|" <| separatedTypes "&" do return [← self .typeOperand]

/-- A type that is no function type, and what it is tested for. -/
def conditionalType : Reader (List Node) := do
  let type ← unionType self
  if (← mode).conditionalTypes && (← atWord "extends") && !(← token).newlineBefore then
    advance
    let bound ← within ({ · with conditionalTypes := false }) (self .type)
    expectMark "?"
    let a ← readType self
    expectMark ":"
    let b ← readType self
    return type ++ bound :: a ++ b
  else return type

def typeRule : Reader Node := do
  let start ← position
  let source := (← get).before
  let parts ← match ← functionType? self with
    | some parts => pure parts
    | none => conditionalType self
  let stop ← lastStop
  return .mk (.typeText (slice source (stop - start))) ⟨start, stop⟩ parts

end LiveLoader.Syntax.Reader
