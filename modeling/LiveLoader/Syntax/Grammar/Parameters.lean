import LiveLoader.Syntax.Grammar.Reader

/-!
# Patterns and parameters

What stands for variables: names, patterns of objects and arrays, and the parameters of functions
with their decorators, modifiers and types.
-/

namespace LiveLoader.Syntax

/-- Words that can stand before a member of a class, a parameter or a declaration. -/
def modifierWords : List String :=
  ["abstract", "accessor", "async", "declare", "in", "out", "override", "private", "protected",
    "public", "readonly", "static"]

def accessWords : List String := ["public", "private", "protected"]

/-- Words that make a parameter of a constructor a field. -/
def fieldWords : List String := accessWords ++ ["readonly", "override"]

/-- What modifier words and the question mark behind a name say. -/
def Modifiers.ofWords (ws : List String) (isOptional : Bool) : Modifiers where
  accessibility := ws.find? (· ∈ accessWords)
  declared := "declare" ∈ ws
  isStatic := "static" ∈ ws
  isAbstract := "abstract" ∈ ws
  isOverride := "override" ∈ ws
  isReadonly := "readonly" ∈ ws
  isAccessor := "accessor" ∈ ws
  isOptional := isOptional

/-- Whether a word is among the modifiers; of those that say who has access, one is enough. -/
def repeatsModifier (ws : List String) (w : String) : Bool :=
  w ∈ ws || (w ∈ accessWords && ws.any (· ∈ accessWords))

/-- What can stand behind a modifier. -/
def followsModifier (t : Token) : Bool :=
  match t.lexeme with
  | .word .. | .privateWord _ | .string _ | .number _ | .bigInt _ => true
  | .mark m => m ∈ ["[", "\x7b", "*", "..."]
  | _ => false

inductive FunctionRole where
  | plain | arrow | signature | method | constructor | objectMethod
  deriving DecidableEq, Repr

namespace Reader

variable (self : Rule → Reader Node)

/-- What a reader gives, as one node for the types that it read. -/
def types (parts : Reader (List Node)) : Reader (List Node) := do
  let start ← position
  let parts ← parts
  return [← node .types start parts]

/-- A type behind a colon, or nothing; only typed dialects have them. -/
def typeAnnotation : Reader (List Node) := do
  if (← isTypescript) && (← eatMark ":") then
    types do return [← within ({ · with conditionalTypes := true }) (self .type)]
  else return []

def initializer : Reader Node :=
  within ({ · with allowIn := true }) (self (.assignment true))

/-- A default value makes the pattern before it a defaulted one; the type of the pattern stands
between the two. -/
def withDefault (pattern : Node) (type : List Node) : Reader (List Node) := do
  if ← eatMark "=" then
    let e ← initializer self
    return [← node .defaulted pattern.span.start (pattern :: type ++ [e])]
  else return pattern :: type

def computedKey : Reader Node := do
  let start ← position
  expectMark "["
  let e ← within Mode.enterBrackets (self (.assignment true))
  expectMark "]"
  node .computed start [e]

/-- The name of a property: a word, a literal or a computed name. -/
def propertyKey : Reader Node := do
  let t ← token
  match t.lexeme with
  | .word .. => propertyWord
  | .string us => advance; return .mk (.string us) t.span []
  | .number v => advance; return .mk (.number v) t.span []
  | .bigInt n => advance; return .mk (.bigInt n) t.span []
  | .mark "[" => computedKey self
  | _ => giveUp

def strayDefault : Reader (List Node) := do
  if ← eatMark "=" then
    problem
    return [← initializer self]
  else return []

def restBinding : Reader Node := do
  let start ← position
  expectMark "..."
  let p ← self .binding
  let stray ← strayDefault self
  node .rest start (p :: stray)

def isRest (n : Node) : Bool := match n.form with | .rest => true | _ => false

/-- A pattern inside another one; typed dialects let a type stand behind it. -/
def bindingElement : Reader (List Node) := do
  let p ← self .binding
  if ← isTypescript then
    let _ ← eatMark "?"
  let type ← typeAnnotation self
  withDefault self p type

def bindingProperty : Reader Node := do
  if ← atMark "..." then
    let r ← restBinding self
    problemIf (r.children.head?.any (·.nameOf?.isNone))
    return r
  let t ← token
  let key ← propertyKey self
  match key.form, t.isName && !(← atMark ":") with
  | .identifier name, true =>
    let p ← withDefault self (.mk (.identifier name) key.span []) []
    node .bindingProperty t.span.start (key :: p)
  | _, _ =>
    expectMark ":"
    let p ← bindingElement self
    node .bindingProperty t.span.start (key :: p)

/-- One element of an array pattern, with its type; a hole where a comma stands at once. -/
def arrayBindingElement : Reader (List Node) := do
  if ← atMark "," then return [.mk .hole ⟨← position, ← position⟩ []]
  if ← atMark "..." then return [← restBinding self] else bindingElement self

def bindingRule : Reader Node := do
  let start ← position
  if ← eatMark "\x7b" then
    let ps ← commaListTo "\x7d" isRest (bindingProperty self)
    expectMark "\x7d"
    node .objectPattern start ps
  else if ← eatMark "[" then
    let es ← commaListTo "]" (·.any isRest) (arrayBindingElement self)
    expectMark "]"
    node .arrayPattern start es.flatten
  else bindingName

/-- Modifier words: words that are followed by what they modify, on the same line unless the word is
`static`. In a class `const` is taken for one, and `static` before a brace begins a block. -/
def modifiers (inClass : Bool) : Reader (List String) :=
  growing [] fun ws => do
    match (← token).word? with
    | some w =>
      let isStatic := w == "static"
      unless w ∈ modifierWords || (inClass && w == "const") do return none
      if isStatic && w ∈ ws then return none
      if isStatic && inClass && (← nextIs (·.isMark "\x7b")) then return none
      unless ← nextIs fun t => followsModifier t && (isStatic || !t.newlineBefore) do return none
      problemIf (repeatsModifier ws w)
      advance
      return some (ws ++ [w])
    | none => return none

def allowModifiers (allowed ws : List String) : Reader Unit :=
  problemIf (ws.any fun w => !(w ∈ allowed))

def decorator : Reader Node := do
  let start ← position
  expectMark "@"
  let e ← within ({ · with inDecorator := true }) (self .leftHand)
  problemIf (match e.form with | .chain => true | _ => false)
  node .decorator start [e]

def decorators : Reader Node := do
  let start ← position
  let ds ← many do
    if ← atMark "@" then return some (← decorator self) else return none
  return .mk .list ⟨start, start⟩ ds

def forbidDecorators (ds : Node) : Reader Unit := problemIf !ds.children.isEmpty

/-- What is left of a parameter for all further arguments; it can be neither optional nor have a
default. -/
def restParameter (start : Nat) (ds : Node) (ws : List String) : Reader Node := do
  let restStart ← position
  advance
  let p ← self .binding
  problemIf (!ws.isEmpty)
  if ← isTypescript then problemIf (← eatMark "?")
  let r ← node .rest restStart [p]
  let type ← typeAnnotation self
  let stray ← strayDefault self
  node (.param (.ofWords ws false)) start (ds :: r :: type ++ stray)

/-- One parameter. Decorators belong to members of classes, and modifiers to constructors. -/
def parameter (role : FunctionRole) : Reader Node := do
  let start ← position
  let typed ← isTypescript
  let ds ← decorators self
  unless typed && (role = .method || role = .constructor) do forbidDecorators ds
  let ws ← modifiers false
  allowModifiers (if typed && role = .constructor then fieldWords else []) ws
  if ← atMark "..." then return ← restParameter self start ds ws
  let p ← self .binding
  let isOptional ← if typed then eatMark "?" else pure false
  let type ← typeAnnotation self
  let hasDefault ← atMark "="
  problemIf (isOptional && hasDefault)
  problemIf (!ws.isEmpty && p.nameOf?.isNone)
  let p ← withDefault self p type
  node (.param (.ofWords ws false)) start (ds :: p)

def isRestParameter (n : Node) : Bool :=
  match n.children with
  | _ :: p :: _ => isRest p
  | _ => false

/-- The type of `this`, which can stand before the parameters and is none of them. -/
def thisType (role : FunctionRole) : Reader (List Node) := do
  if (← isTypescript) && (← atWord "this") then
    problemIf (role = .constructor || role = .arrow)
    advance
    let type ← typeAnnotation self
    unless ← atMark ")" do expectMark ","
    return type
  else return []

def parameters (role : FunctionRole) : Reader Node := do
  let start ← position
  expectMark "("
  let type ← thisType self role
  let ps ← commaListTo ")" isRestParameter (parameter self role)
  expectMark ")"
  node .params start (type ++ ps)

end Reader

end LiveLoader.Syntax
