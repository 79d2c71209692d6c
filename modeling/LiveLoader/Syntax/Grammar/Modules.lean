import LiveLoader.Syntax.Grammar.Statements

/-!
# Modules and typed declarations

Imports, exports, and the declarations of typed dialects: interfaces, aliases, enumerations,
namespaces and what is only declared.
-/

namespace LiveLoader.Syntax.Reader

variable (self : Rule → Reader Node)

/-- The types that an interface extends; it must not implement any. -/
def extendedTypes : Reader (List Node) := do
  let (_, types) ← growing (false, []) fun (seen, types) => do
    if ← eatWord "extends" then
      problemIf seen
      return some (true, types ++ (← implementedTypes self))
    if ← eatWord "implements" then
      problem
      let _ ← implementedTypes self
      return some (seen, types)
    return none
  return types

def interfaceDeclaration (start : Nat) : Reader Node := do
  expectWord "interface"
  let name ← bindingName
  let types ← types do
    let typeParams ← typeParameters? self
    let extended ← extendedTypes self
    let members ← objectTypeBody self
    return typeParams ++ extended ++ members
  node (.typeDecl (name.nameOf?.getD "")) start types

def typeAlias (start : Nat) : Reader Node := do
  expectWord "type"
  let name ← bindingName
  let typeParams ← typeParameters? self
  expectMark "="
  let type ← within ({ · with conditionalTypes := true }) (self .type)
  endStatement
  node .typeAlias start (name :: typeParams ++ [type])

/-- The name of an enumeration's member; a computed one must be a text. -/
def enumKey : Reader Node := do
  let t ← token
  match t.lexeme with
  | .word .. => propertyWord
  | .string _ => stringLiteral
  | .mark "[" =>
    let k ← computedKey self
    match k.children with
    | [e] => match e.form with
      | .string us => return .mk (.string us) k.span []
      | .template [⟨_, some us⟩] => return .mk (.string us) k.span []
      | _ => giveUp
    | _ => giveUp
  | _ => giveUp

def enumMember : Reader Node := do
  let start ← position
  let key ← enumKey self
  let value ← if ← eatMark "=" then initializer self else pure Node.absent
  node .enumMember start [key, value]

def enumDeclaration (start : Nat) (declared : Bool) : Reader Node := do
  expectWord "enum"
  let name ← bindingName
  expectMark "\x7b"
  let ms ← commaList "\x7d" (enumMember self)
  expectMark "\x7d"
  node (.enumDecl declared) start (name :: ms)

/-- The body of a namespace behind its name; dots nest one in the other. -/
def moduleBodyRule : Reader Node := do
  let start ← position
  if ← eatMark "." then
    let name ← bindingName
    let body ← self .moduleBody
    node (.moduleDecl false) name.span.start [name, body]
  else
    expectMark "\x7b"
    let ds ← directives self
    let ss ← statementsToBrace self
    node .block start (ds ++ ss)

def namespaceDeclaration (start : Nat) (declared : Bool) : Reader Node := do
  let isModule ← atWord "module"
  advance
  if isModule && (← token).isString then
    let name ← stringLiteral
    let body ←
      if ← atMark "\x7b" then within ({ · with ambient := true }) (self .moduleBody)
      else
        endStatement
        pure Node.absent
    node (.moduleDecl true) start [name, body]
  else
    let name ← bindingName
    let body ← self .moduleBody
    node (.moduleDecl declared) start [name, body]

def globalDeclaration (start : Nat) : Reader Node := do
  let name ← bindingName
  let body ← self .moduleBody
  node (.moduleDecl true) start [name, body]

def importReference : Reader Node := do
  let start ← position
  if ← eatWord "require" then
    expectMark "("
    let s ← stringLiteral
    expectMark ")"
    return ← node .externalModule start [s]
  let isThis ← atWord "this"
  let first ← propertyWord
  growing (if isThis then .mk .this first.span [] else first) fun e => do
    if ← eatMark "." then
      let k ← propertyWord
      return some (← node (.member (k.nameOf?.getD "") false) start [e])
    else return none

def importEqualsRest (start : Nat) (typeOnly : Bool) (name : Node) : Reader Node := do
  expectMark "="
  let target ← importReference
  endStatement
  node (.importEquals typeOnly) start [name, target]

/-- Words that go on to a typed declaration on the same line. -/
def declarationModifiers : List String :=
  ["abstract", "accessor", "async", "declare", "private", "protected", "public", "readonly"]

/-- Whether a typed declaration begins here with a word that could also be a name. -/
def beginsTyped : Reader Bool := do
  unless ← isTypescript do return false
  aheadHolds do
    let _ ← many do
      match (← token).word? with
      | some w =>
        unless w ∈ declarationModifiers || w == "static" do return none
        advanceName
        if (← token).newlineBefore && w != "static" then giveUp
        return some ()
      | none => return none
    match (← token).word? with
    | none => return false
    | some w =>
      if w ∈ ["var", "let", "const", "function", "class", "enum"] then return true
      advanceName
      let t ← token
      if w == "interface" || w == "type" then return t.isName && !t.newlineBefore
      if w == "module" || w == "namespace" then
        return (t.isName || t.isString) && !t.newlineBefore
      if w == "global" then return t.isMark "\x7b"
      if w == "import" then
        return t.isString || t.isMark "*" || t.isMark "\x7b" || t.isPlainName
      return false

/-- Modifiers before a declaration; `const` is one before `enum`. -/
def declarationWords : Reader (List String) :=
  growing [] fun ws => do
    match (← token).word? with
    | some w =>
      let isModifier ←
        if w == "const" then nextIs (·.isWord "enum")
        else if w ∈ modifierWords then
          nextIs fun t => followsModifier t && (w == "static" || !t.newlineBefore)
        else pure false
      unless isModifier do return none
      problemIf (repeatsModifier ws w)
      advance
      return some (ws ++ [w])
    | none => return none

/-- A declaration behind its modifiers, of which each kind allows its own. -/
def declarationRest (start : Nat) (ds : Node) (ws : List String) : Reader Node := do
  let declared : Bool := "declare" ∈ ws
  match (← token).word? with
  | none => giveUp
  | some w =>
    unless w == "class" do forbidDecorators ds
    allowModifiers (match w with
      | "class" => ["declare", "abstract"]
      | "enum" => ["declare", "const"]
      | "function" => ["declare", "async"]
      | _ => ["declare"]) ws
    match w with
    | "interface" => interfaceDeclaration self start
    | "type" => typeAlias self start
    | "enum" => enumDeclaration self start declared
    | "namespace" | "module" => namespaceDeclaration self start declared
    | "global" => globalDeclaration self start
    | "class" => classFrom self start ds ⟨true, declared, "abstract" ∈ ws⟩
    | "function" => functionFrom self start ("async" ∈ ws) declared .declaration true
    | "import" =>
      advance
      let name ← bindingName
      importEqualsRest start false name
    | "var" | "let" | "const" => variableStatement self start w declared false
    | _ => giveUp

def declaration (start : Nat) (ds : Node) : Reader Node := do
  let ws ← declarationWords
  within (fun m => { m with ambient := m.ambient || ws.contains "declare" })
    (declarationRest self start ds ws)

/-- The name under which something is exported: a word or a text. -/
def moduleName : Reader Node := do
  if (← token).isString then stringLiteral else propertyWord

def canBeModuleName (t : Token) : Bool := t.isAnyWord || t.isString

/-- A name with an optional `as` and second name; the word `type` before them makes it one for the
type checker. The flag comes first, then the two names. -/
def specifierNames : Reader (Bool × Node × Node) := do
  let second (name : Node) : Reader Node := do
    if ← eatWord "as" then moduleName else return name
  let isType ← (do return (← isTypescript) && (← atWord "type"))
  let first ← moduleName
  if !isType then return (false, first, ← second first)
  if ← atWord "as" then
    let as₁ ← moduleName
    if ← atWord "as" then
      let as₂ ← moduleName
      if canBeModuleName (← token) then
        let name ← moduleName
        return (true, as₁, name)
      else return (false, first, as₂)
    else if canBeModuleName (← token) then
      let name ← moduleName
      return (false, first, name)
    else return (true, as₁, as₁)
  else if canBeModuleName (← token) then
    let name ← moduleName
    return (true, name, ← second name)
  else return (false, first, first)

/-- Words that cannot be bound or named in a list of an import or export. -/
def boundWords : List String := reservedWords ++ halfReservedWords

/-- The name that an import binds must be one for a variable. -/
def checkLocal (n : Node) : Reader Unit := do
  match n.form with
  | .identifier w => problemIf (w ∈ boundWords)
  | _ => giveUp

def importSpecifier : Reader Node := do
  let start ← position
  let (typeOnly, imported, name) ← specifierNames
  checkLocal name
  node (.importNamed typeOnly) start [imported, name]

def exportSpecifier : Reader Node := do
  let start ← position
  let (typeOnly, name, exported) ← specifierNames
  node (.exportSpecifier typeOnly) start [name, exported]

def importAttribute : Reader Node := do
  let start ← position
  let key ← moduleName
  expectMark ":"
  let value ← stringLiteral
  node .attribute start [key, value]

def nameText (n : Node) : String :=
  match n.form with
  | .identifier w => w
  | .string us => textOfUnits us
  | _ => ""

/-- Attributes behind the source of a module, each with a key of its own. -/
def importAttributes : Reader Node := do
  let start ← position
  let t ← token
  match t.word? with
  | some w =>
    unless w == "with" || (w == "assert" && !t.newlineBefore) do return .absent
    advance
    expectMark "\x7b"
    let attributes ← commaList "\x7d" importAttribute
    expectMark "\x7d"
    let keys := attributes.map fun a => (a.children.head?.map nameText).getD ""
    problemIf (keys.eraseDups.length < keys.length)
    node (.attributes w) start attributes
  | none => return .absent

def markModule : Reader Unit := modify fun c => { c with hasModuleSyntax := true }

def importGroup : Reader (List Node) := do
  let start ← position
  if ← eatMark "*" then
    expectWord "as"
    let name ← bindingName
    return [← node .importNamespace start [name]]
  expectMark "\x7b"
  let ss ← commaList "\x7d" importSpecifier
  expectMark "\x7d"
  return ss

/-- Whether the word behind `import` says that only types are imported: a name or a list follows,
where `from` counts as a name only before another `from` or an equal sign. -/
def importsTypes : Reader Bool := do
  unless (← isTypescript) && (← atWord "type") do return false
  aheadHolds do
    advance
    let t ← token
    if t.isMark "*" || t.isMark "\x7b" then return true
    unless t.isName do return false
    unless t.isWord "from" do return true
    advance
    return (← atWord "from") || (← atMark "=")

/-- The phase of a module that is imported: its source under a name, or all of it later. -/
def importPhase? : Reader (Option String) := do
  if ← atWord "defer" then
    return if ← nextIs (·.isMark "*") then some "defer" else none
  unless ← atWord "source" do return none
  let found ← aheadHolds do
    advance
    let t ← token
    unless t.isName do return false
    unless t.isWord "from" do return true
    advance
    atWord "from"
  return if found then some "source" else none

def importDeclaration (start : Nat) : Reader Node := do
  expectWord "import"
  let finish (typeOnly : Bool) (phase : Option String) (specifiers : Node) : Reader Node := do
    let source ← stringLiteral
    let attributes ← importAttributes
    endStatement
    markModule
    node (.importDecl typeOnly phase) start [specifiers, source, attributes]
  if (← token).isString then return ← finish false none .absent
  let typeOnly ← importsTypes
  if typeOnly then advance
  let phase ← if typeOnly then pure none else importPhase?
  if phase.isSome then advance
  let default? ←
    if (← token).isName then
      let name ← bindingName
      if (← isTypescript) && (← atMark "=") then
        return ← importEqualsRest start typeOnly name
      pure [Node.mk .importDefault name.span [name]]
    else pure []
  let group ←
    if default?.isEmpty then importGroup
    else if ← eatMark "," then importGroup
    else pure []
  expectWord "from"
  finish typeOnly phase (.made .list (default? ++ group))

/-- A declaration that is exported. Decorators stand before or behind the word. -/
def exportedDeclaration (ds : Node) : Reader Node := do
  let start ← position
  let more ← decorators self
  problemIf (!ds.children.isEmpty && !more.children.isEmpty)
  let ds := Node.made .list (ds.children ++ more.children)
  if ← isTypescript then declaration self start ds
  else
    let isAsync ← (do if ← beginsAsyncFunction then eatWord "async" else return false)
    let t ← token
    unless t.isWord "class" || t.isWord "function" || t.isWord "var" || t.isWord "let"
        || t.isWord "const" do giveUp
    declarationRest self start ds (if isAsync then ["async"] else [])

def exportDefault (start : Nat) (ds : Node) : Reader Node := do
  let declStart ← position
  let isFree := (← token).markedFree
  let more ← decorators self
  let ds := Node.made .list (ds.children ++ more.children)
  let decl ←
    if (← atWord "function") || (← beginsAsyncFunction) then
      let isAsync ← eatWord "async"
      functionFrom self declStart isAsync false .declaration false
    else if ← atWord "class" then classFrom self declStart ds ⟨true, false, false⟩
    else if (← atWord "abstract") && (← nextIs fun t => t.isWord "class" && !t.newlineBefore) then
      advance
      classFrom self declStart ds ⟨true, false, true⟩
    else if (← isTypescript) && (← atWord "interface")
        && (← nextIs fun t => t.isName && !t.newlineBefore) then
      interfaceDeclaration self declStart
    else
      forbidDecorators ds
      let e ← initializer self
      endStatement
      pure e
  node .exportDefault start [if isFree then markFree decl else decl]

def exportAllRest (start : Nat) (typeOnly : Bool) : Reader Node := do
  expectMark "*"
  let name ← if ← eatWord "as" then moduleName else pure Node.absent
  expectWord "from"
  let source ← stringLiteral
  let attributes ← importAttributes
  endStatement
  node (.exportAll typeOnly) start [name, source, attributes]

/-- What is exported without a source must be the name of a variable. -/
def isExportable (specifier : Node) : Bool :=
  match specifier.children with
  | [n, _] => n.nameOf?.any fun w => !(w ∈ boundWords || w ∈ strictWords)
  | _ => false

def exportNamedRest (start : Nat) (typeOnly : Bool) : Reader Node := do
  expectMark "\x7b"
  let ss ← commaList "\x7d" exportSpecifier
  expectMark "\x7d"
  let (source, attributes) ←
    if ← eatWord "from" then
      let source ← stringLiteral
      pure (source, ← importAttributes)
    else
      problemIf !(ss.all isExportable)
      pure (.absent, .absent)
  endStatement
  node (.exportNamed typeOnly) start [.made .list ss, source, attributes]

def exportDeclaration (start : Nat) (ds : Node) : Reader Node := do
  expectWord "export"
  markModule
  let typed ← isTypescript
  if typed && (← eatMark "=") then
    let e ← expression self
    endStatement
    return ← node .exportAssign start [e]
  if typed && (← atWord "as") then
    advance
    expectWord "namespace"
    let _ ← bindingName
    endStatement
    return ← node .exportAsNamespace start []
  if ← eatWord "default" then return ← exportDefault self start ds
  if ← atMark "*" then return ← exportAllRest start false
  if ← atMark "\x7b" then return ← exportNamedRest start false
  if typed && (← atWord "type") then
    if ← nextIs (·.isMark "\x7b") then
      advance
      return ← exportNamedRest start true
    if ← nextIs (·.isMark "*") then
      advance
      return ← exportAllRest start true
  let decl ← exportedDeclaration self ds
  node .exportDecl start [decl]

/-- A statement that begins with decorators; an export among them begins behind them. -/
def decoratedStatement (single : Bool) : Reader Node := do
  let start ← position
  let ds ← decorators self
  if ← atWord "export" then exportDeclaration self (← position) ds
  else if ← atWord "class" then
    problemIf single
    classFrom self start ds ⟨true, false, false⟩
  else if ← isTypescript then declaration self start ds
  else giveUp

/-- Any statement but for what comments say of it. -/
def anyStatement (single : Bool) : Reader Node := do
  let start ← position
  if ← atMark "@" then return ← decoratedStatement self single
  if ← atWord "export" then return ← exportDeclaration self start (.made .list [])
  if (← atWord "import") && !(← nextIs fun t => t.isMark "(" || t.isMark ".") then
    return ← importDeclaration start
  let isPlain := (← token).word?.any
    (· ∈ ["var", "let", "function", "class", "async", "if", "for", "return"])
  if (← atWord "const") && !(← nextIs (·.isWord "enum")) then return ← plainStatement self single
  if !isPlain && (← beginsTyped) then
    return ← within ({ · with inAwait := false }) (declaration self start (.made .list []))
  plainStatement self single

/-- The value of a declared variable is marked as free of effects. -/
def markFreeValue : Node → Node
  | .mk .declarator s [p, v] => .mk .declarator s [p, markFree v]
  | .mk .declarator s [p, type, v] => .mk .declarator s [p, type, markFree v]
  | n => n

/-- The function of a statement is marked as free of effects: one that is declared or exported, or
the value of the first constant. -/
def markFreeStatement : Node → Node
  | .mk .exportDefault s [d] => .mk .exportDefault s [markFree d]
  | .mk .exportDecl s [.mk (.function info) s' cs] =>
    .mk .exportDecl s [markFree (.mk (.function info) s' cs)]
  | .mk .exportDecl s [.mk (.variable "const" declared) s' (d :: ds)] =>
    .mk .exportDecl s [.mk (.variable "const" declared) s' (markFreeValue d :: ds)]
  | .mk (.variable "const" declared) s (d :: ds) =>
    .mk (.variable "const" declared) s (markFreeValue d :: ds)
  | .mk (.function info) s cs => markFree (.mk (.function info) s cs)
  | n => n

def statementRule (single : Bool) : Reader Node := do
  let isFree := (← token).markedFree
  let n ← anyStatement self single
  return if isFree then markFreeStatement n else n

end LiveLoader.Syntax.Reader
